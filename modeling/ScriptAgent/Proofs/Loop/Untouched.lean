import ScriptAgent.Proofs.Loop.ScriptOutcome
import ScriptAgent.Proofs.Sandbox.Keeping

/-!
# Variables that no iteration touches

After each script all variables in scope are put over those of the context.  A variable that no script touches comes
back with the value that it had but for integers that only fit without a sign: these are doubles from then on, unless
the variable is a plain object.  Turns that run no script leave it alone.
-/

namespace ScriptAgent

namespace Agent

variable {r : Agent} {c : Context} {w : World} {host : Host} {requests : List GenerateRequest}

/-! ### The script of a turn -/

/-- A turn runs a script on a host: the model has answered with one that compiles. -/
inductive Runs (r : Agent) (c : Context) (host : Host) (requests : List GenerateRequest) : Job → Host → Prop
  | intro {messages : List Message} {response : GenerateResponse} {compiled : Compiled}
    (answered : Turn.Answered r c requests messages response)
    (compiles : compile (Fence.parseResponse (response.text?.getD "")).code = .ok compiled) :
    Runs r c host requests (r.job c compiled)
      (Turn.ready r messages response (Turn.recorded (turnStart c host requests))).host

/-- The iteration of a turn records the variables that its script has left. -/
theorem Runs.variables {j : Job} {host' : Host} (h : Runs r c host requests j host') :
    (r.turn c host requests).2.iteration.variables = (j.execute host').1.variables := by
  obtain @⟨messages, response, compiled, answered, compiles⟩ := h
  have hwhole := Turn.whole_of_respond (s := turnStart c host requests)
    ((window_turnStart r.client c host requests).trans answered.window) answered.respond answered.written
  obtain ⟨s, hs⟩ : ∃ s, Turn.ready r messages response (Turn.recorded (turnStart c host requests)) = s := ⟨_, rfl⟩
  have hjob : r.job s.context compiled = r.job c compiled := hs ▸ rfl
  rw [hs] at hwhole ⊢
  obtain ⟨after, hafter⟩ : ∃ after, (r.job s.context compiled).execute s.host =
      (((r.job c compiled).execute s.host).1, after) := by
    rw [hjob]
    exact ⟨_, rfl⟩
  rw [Turn.runCode_of_ok compiles hafter] at hwhole
  rw [turn_of_whole hwhole]
  exact (Turn.settled_takeExecution compiled _ { s with host := after }).variables

/-- Without a script, an iteration records no variables. -/
theorem variables_of_turn (r : Agent) (c : Context) (host : Host) (requests : List GenerateRequest) :
    (r.turn c host requests).2.iteration.variables = [] ∨ ∃ j host', Runs r c host requests j host' := by
  obtain ⟨t, ht⟩ : ∃ t, Turn.whole r (turnStart c host requests) = t := ⟨_, rfl⟩
  rw [turn_of_whole ht, ← ht]
  cases hfatal : (Turn.whole r (turnStart c host requests)).1 with
  | some e =>
    rcases Turn.whole_cases r (s := turnStart c host requests) rfl with ⟨e', s', hwhole, hasks⟩ | ⟨code, s', hwhole, -⟩
    · rw [hwhole]
      exact .inl (hasks.bare ⟨rfl, rfl⟩).1
    · rw [hwhole] at hfatal
      cases hfatal
  | none =>
    obtain ⟨messages, response, hw, hr, hc⟩ := Turn.answered_of_whole hfatal
    rw [Turn.whole_of_respond hw hr hc]
    rw [window_turnStart] at hw
    cases compiles : compile (Fence.parseResponse (response.text?.getD "")).code with
    | error e =>
      refine .inl ?_
      unfold Turn.runCode
      rw [compiles]
      rfl
    | ok compiled => exact .inr ⟨_, _, .intro ⟨hw, hr, hc⟩ compiles⟩

/-! ### Turns that leave a variable alone -/

/-- A turn spares a variable: its script runs on the inline backend and spares it, and the model does not hand it
over when it thinks again. -/
structure Spares (r : Agent) (c : Context) (w : World) (name : String) : Prop where
  inline : r.settings.backend = .inline
  script : ∀ j host, Runs r c w.host w.requests j host → j.Spares host name
  thought : name ∉ (r.turn c w.host w.requests).2.iteration.carried.keys

variable {name : String} {v : Json}

theorem variables_advance (r : Agent) (c : Context) (w : World) :
    (r.advance c w).2.1.variables =
      (c.variables.overlay (r.turn c w.host w.requests).2.iteration.variables).overlay
        (r.turn c w.host w.requests).2.iteration.carried := by
  obtain ⟨i, hi, hleaves⟩ := r.advance_leaves c w
  have hdid := turn_did r c w.host w.requests
  obtain ⟨t, ht⟩ : ∃ t, r.turn c w.host w.requests = t := ⟨_, rfl⟩
  rw [advance_of_turn ht] at hi hleaves ⊢
  rw [ht] at hdid ⊢
  have hrecorded : (t.2.context.record t.2.iteration).iterations = c.iterations ++ [t.2.iteration] :=
    congrArg (· ++ [_]) hdid.iterations
  obtain rfl : i = t.2.iteration := by simpa using hi.symm.trans hrecorded
  exact hleaves.variables

/-- A turn that spares a variable leaves it as it was, or as a script keeps it if the iteration records it. -/
theorem Spares.get?_advance (spares : r.Spares c w name) (ordered : Dict.Ordered c.variables)
    (held : Dict.get? c.variables name = some v) (formed : v.WellFormed) :
    Dict.get? (r.advance c w).2.1.variables name =
      some (if Dict.contains (r.turn c w.host w.requests).2.iteration.variables name then v.kept else v) := by
  rw [variables_advance, Dict.get?_overlay_of_not_mem spares.thought]
  rcases variables_of_turn r c w.host w.requests with hnone | ⟨j, host, runs⟩
  · rw [hnone]
    exact held
  · have hspares := spares.script j host runs
    rw [runs.variables]
    obtain ⟨answered, compiles⟩ := runs
    rw [Job.variables_execute spares.inline, Dict.get?_overlay (Job.ordered_variables_run _ _)]
    unfold Dict.contains
    cases hw : Dict.get? (Job.run _ _).variables name with
    | none => exact held
    | some u =>
      rw [Job.eq_kept_of_get? spares.inline ordered held formed hspares hw]
      rfl

theorem ordered_advance (r : Agent) (w : World) (ordered : Dict.Ordered c.variables) :
    Dict.Ordered (r.advance c w).2.1.variables := by
  rw [variables_advance]
  exact (ordered.overlay _).overlay _

/-- What a context becomes by iterations that spare a variable, with any models and settings, where nothing else
happens to it between them; and whether one of them has recorded it. -/
inductive Iterated (name : String) (c : Context) : Context → Bool → Prop
  | start : Iterated name c c false
  | turn {c₁ : Context} {recorded : Bool} (before : Iterated name c c₁ recorded) (r : Agent) (w : World)
    (spares : r.Spares c₁ w name) : Iterated name c (r.advance c₁ w).2.1
      (recorded || Dict.contains (r.turn c₁ w.host w.requests).2.iteration.variables name)
  | between {c₁ c₂ : Context} {recorded : Bool} (before : Iterated name c c₁ recorded)
    (ordered : Dict.Ordered c₂.variables) (same : Dict.get? c₂.variables name = Dict.get? c₁.variables name) :
    Iterated name c c₂ recorded

/-- After each iteration the variable is as it was, or as scripts keep it once one of them has left it. -/
theorem Iterated.get? {c' : Context} {recorded : Bool} (iterated : Iterated name c c' recorded)
    (ordered : Dict.Ordered c.variables) (held : Dict.get? c.variables name = some v) (formed : v.WellFormed) :
    Dict.Ordered c'.variables ∧ Dict.get? c'.variables name = some (if recorded then v.kept else v) := by
  induction iterated with
  | start => exact ⟨ordered, held⟩
  | @turn c₁ recorded before r w spares ih =>
    obtain ⟨hordered, hheld⟩ := ih
    refine ⟨ordered_advance r w hordered, ?_⟩
    cases recorded with
    | false =>
      rw [Bool.false_or]
      exact spares.get?_advance hordered hheld formed
    | true =>
      have hkept : Dict.get? c₁.variables name = some v.kept := hheld
      rw [spares.get?_advance hordered hkept (Json.wellFormed_kept formed), Json.kept_kept formed, ite_self,
        Bool.true_or, if_pos rfl]
  | between before ordered' same ih => exact ⟨ordered', same.trans ih.2⟩

/-- A variable that no iteration touches is kept, with numbers that deep equality does not tell from the old ones; the
first script that leaves it settles its value.  It is exactly the same just if no script has left it, or it is a plain
object, or all of its integers fit 64 bits with a sign. -/
theorem untouched_variable_is_kept {c' : Context} {recorded : Bool} (ordered : Dict.Ordered c.variables)
    (held : Dict.get? c.variables name = some v) (formed : v.WellFormed) (iterated : Iterated name c c' recorded) :
    ∃ v', Dict.get? c'.variables name = some v' ∧ Json.same v v' = true ∧ (recorded = true → v' = v.kept) ∧
      (v' = v ↔ recorded = false ∨ (∃ fields, v = .obj fields) ∨ v.Formed Numeral.Scripted) := by
  obtain ⟨-, hget⟩ := iterated.get? ordered held formed
  cases recorded with
  | false => exact ⟨v, hget, (Json.same_iff formed formed).mpr rfl, nofun, iff_of_true rfl (.inl rfl)⟩
  | true =>
    refine ⟨v.kept, hget, Json.same_kept formed, fun _ => rfl, (Json.kept_eq_self_iff formed).trans ?_⟩
    exact (or_iff_right nofun).symm

/-! ### Scripts that the model answers with -/

section Scripted

variable {script : String}

/-- Whether a script is written to spare a variable. -/
def writtenToSpare (name script : String) : Bool :=
  match ((scripted {} script [] 0).job { id := "" } (codeOf script)).parse (codeOf script).code with
  | .ok p => Script.Stmt.allSpare name p.body
  | .error _ => false

/-- Whether an execution was suspended to listen. -/
def suspendedToListen : Outcome → Bool
  | .suspended (.listen none) => true
  | _ => false

theorem carried_of_listen {compiled : Compiled} {e : Execution} (executes : Executes r c host requests compiled e)
    (listens : suspendedToListen e.outcome = true) : (r.turn c host requests).2.iteration.carried = [] := by
  have suspended : e.outcome = .suspended (.listen none) := by
    unfold suspendedToListen at listens
    split at listens
    · assumption
    · cases listens
  obtain ⟨s, -, -, -, hturn⟩ := executes.turn
  rw [hturn]
  refine Iteration.carried_of_status ?_
  show (Turn.takeExecution compiled e s).2.iteration.status ≠ _
  unfold Turn.takeExecution
  rw [suspended]
  nofun

/-- With enough room, the script runs that the model answers with, and no other. -/
theorem exists_runs (c : Context) (written : (Fence.parseResponse script).hasCode = true)
    (compiles : compile (Fence.parseResponse script).code = .ok (codeOf script)) :
    ∃ r, (∃ host, Runs r c {} [] ((scripted {} script [] 0).job c (codeOf script)) host) ∧
      (∀ j host, Runs r c {} [] j host → j = (scripted {} script [] 0).job c (codeOf script)) ∧
      r.settings.backend = .inline ∧ Executes r c {} [] (codeOf script) (scriptedExecution script c) := by
  have hroom := le_windowBudget (Truncate.initial (promptMessages c))
  refine ⟨scripted {} script [] (Truncate.initial (promptMessages c) + responseRoom.2),
    ⟨_, .intro ⟨window_of_room hroom, rfl, written⟩ compiles⟩, ?_, rfl,
    .intro ⟨window_of_room hroom, rfl, written⟩ compiles rfl⟩
  rintro j host ⟨answered, compiles'⟩
  have hresponse := Except.ok.inj answered.respond
  subst hresponse
  obtain rfl := Except.ok.inj (compiles'.symm.trans compiles)
  rfl

/-- A turn spares a variable that the script is written to spare, and records it. -/
theorem exists_spares (written : (Fence.parseResponse script).hasCode = true)
    (compiles : compile (Fence.parseResponse script).code = .ok (codeOf script))
    (spared : writtenToSpare name script = true)
    (listens : suspendedToListen (scriptedExecution script c).outcome = true) (ordered : Dict.Ordered c.variables)
    (held : Dict.get? c.variables name = some v) (plain : ∀ fields, v ≠ .obj fields) (formed : v.WellFormed)
    (visible : name ∉ c.objects.map (·.name) ++ ["console"]) :
    ∃ r : Agent, r.Spares c {} name ∧ Dict.contains (r.turn c {} []).2.iteration.variables name = true := by
  obtain ⟨r, ⟨host, runs⟩, only, inline, executes⟩ := exists_runs c written compiles
  unfold writtenToSpare at spared
  split at spared
  · next p parsed =>
    obtain ⟨j, hj⟩ : ∃ j, (scripted {} script [] 0).job c (codeOf script) = j := ⟨_, rfl⟩
    have parsed' : j.parse j.compiled.code = .ok p := hj ▸ parsed
    have hinline : j.backend = .inline := hj ▸ rfl
    have hspares (host : Host) : j.Spares host name := by
      subst hj
      exact Job.spares_of_allSpare parsed' spared ordered visible held plain
    rw [hj] at runs only
    refine ⟨r, ⟨inline, ?_, ?_⟩, ?_⟩
    · rintro j' host runs
      rw [only j' host runs]
      exact hspares host
    · rw [carried_of_listen executes listens]
      exact List.not_mem_nil
    · have hget : Dict.get? (j.run host).variables name = some v.kept := by
        subst hj
        exact Job.get?_variables_run parsed' hinline ordered visible held formed (hspares host)
      rw [runs.variables, Job.variables_execute hinline, Dict.contains, hget]
      rfl
  · cases spared

end Scripted

/-- A script that reads a variable and waits. -/
def readingScript : String := "let y = x + 1;\nlisten();"

/-- A context that holds a number. -/
def holding (n : Int) : Context where
  id := "ctx"
  «variables» := [("x", .num (.int n))]

theorem ordered_holding (n : Int) : Dict.Ordered (holding n).variables := by
  simp [holding, Dict.Ordered]

/-- Whatever number it is, a turn that reads it spares it and records it. -/
theorem exists_reads {n : Int} (formed : (Numeral.int n).WellFormed)
    (listens : suspendedToListen (scriptedExecution readingScript (holding n)).outcome = true) :
    ∃ r : Agent, r.Spares (holding n) {} "x" ∧
      Dict.contains (r.turn (holding n) {} []).2.iteration.variables "x" = true :=
  exists_spares (v := .num (.int n)) (by decide +kernel) (by decide +kernel) (by decide +kernel) listens
    (ordered_holding n) rfl nofun (.num formed) (by simp [holding])

theorem seven_is_kept : ∃ r : Agent, r.Spares (holding 7) {} "x" ∧
    Dict.contains (r.turn (holding 7) {} []).2.iteration.variables "x" = true ∧
    Dict.get? (r.advance (holding 7) {}).2.1.variables "x" = some (.num (.int 7)) := by
  have formed : (Numeral.int 7).WellFormed := by constructor <;> norm_num
  obtain ⟨r, spares, recorded⟩ := exists_reads formed (by decide +kernel)
  obtain ⟨v', hget, -, -, hsame⟩ := untouched_variable_is_kept (ordered_holding 7) rfl (.num formed)
    (.turn .start r {} spares)
  rw [hsame.mpr (.inr (.inr (.num rfl)))] at hget
  exact ⟨r, spares, recorded, hget⟩

/-- A turn that reads a number without touching it changes the number if it does not fit 64 bits with a sign. -/
theorem get?_advance_ne_of_unfit {n : Int} (formed : (Numeral.int n).WellFormed) (unfit : Script.fitsInt n = false)
    (spares : r.Spares (holding n) {} "x")
    (recorded : Dict.contains (r.turn (holding n) {} []).2.iteration.variables "x" = true) :
    Dict.get? (r.advance (holding n) {}).2.1.variables "x" ≠ some (.num (.int n)) := by
  have hturn : r.turn (holding n) ({} : World).host ({} : World).requests = r.turn (holding n) {} [] := rfl
  rw [spares.get?_advance (ordered_holding n) rfl (.num formed), hturn, if_pos recorded]
  intro hsame
  rcases (Json.kept_eq_self_iff (.num formed)).mp (Option.some.inj hsame) with ⟨_, hobj⟩ | hscripted
  · cases hobj
  · cases hscripted with
    | num fits => exact Bool.false_ne_true (unfit.symm.trans fits)

/-- The largest integer of 64 bits without a sign does not stay what it is. -/
theorem largest_integer_drifts : ¬ ∀ (c c' : Context) (name : String) (v : Json) (recorded : Bool),
    Dict.Ordered c.variables → Dict.get? c.variables name = some v → v.WellFormed → Iterated name c c' recorded →
    Dict.get? c'.variables name = some v := by
  intro h
  obtain ⟨n, hn⟩ : ∃ n : Int, n = 18446744073709551615 := ⟨_, rfl⟩
  have formed : (Numeral.int n).WellFormed := by subst hn; constructor <;> norm_num
  have unfit : Script.fitsInt n = false := by subst hn; decide
  have listens : suspendedToListen (scriptedExecution readingScript (holding n)).outcome = true := by
    subst hn
    decide +kernel
  obtain ⟨r, spares, recorded⟩ := exists_reads formed listens
  exact get?_advance_ne_of_unfit formed unfit spares recorded
    (h _ _ "x" _ _ (ordered_holding n) rfl (.num formed) (.turn .start r {} spares))

end Agent

end ScriptAgent

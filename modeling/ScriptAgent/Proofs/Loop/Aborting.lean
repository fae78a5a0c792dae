import ScriptAgent.Proofs.Loop.Disturbance

/-!
# Runs that anybody may abort

The loop looks at the abort latch before each turn, and the driver looks at it while a script is executed.  So at
most one turn goes on after the latch has fired, the one that was under way, and either that ends the run or the run
is aborted next, for the first reason that was given.
-/

namespace ScriptAgent

namespace Agent

/-- A turn that the loop has taken. -/
structure Lap where
  /-- What it began on. -/
  context : Context
  world : World
  /-- The reasons that were given to abort meanwhile. -/
  given : List String
  /-- What the model was asked. -/
  asked : List GenerateRequest
  iteration : Iteration
  ending : Option RunEnding

/-- The loop has taken turns one after the other, and ends there if it is told how. -/
inductive Laps (r : Agent) (turn : Turns) (c : Context) (w : World) :
    List Lap → Option RunEnding → Context → World → Prop
  | start : Laps r turn c w [] none c w
  | next {laps : List Lap} {c₁ c₂ : Context} {w₁ w₂ : World} {ending : Option RunEnding} {given : List String}
      {asked : List GenerateRequest} {i : Iteration} (before : Laps r turn c w laps none c₁ w₁)
      (unaborted : w₁.host.abort.reason = none) (left : c₁.attempt < c₁.options.loopLimit)
      (turned : turn c₁ w₁ = (ending, c₂, w₂)) (added : Added r c₁ w₁ given ending c₂ w₂ i)
      (requests : w₂.requests = w₁.requests ++ asked) :
      Laps r turn c w (laps ++ [⟨c₁, w₁, given, asked, i, ending⟩]) ending c₂ w₂

/-- The reasons that were given to abort: first the one that is in the latch, then those of the turns. -/
def reasons (w : World) (laps : List Lap) : List String :=
  w.host.abort.reason.toList ++ laps.flatMap (·.given)

theorem reasons_concat (w : World) (before : List Lap) (l : Lap) :
    reasons w (before ++ [l]) = reasons w before ++ l.given := by
  rw [reasons, List.flatMap_append, ← List.append_assoc, ← reasons, List.flatMap_singleton]

/-- The reasons of iterations that were aborted. -/
def abortsOf (is : List Iteration) : List String :=
  is.filterMap abortReason?

/-- The reason for which a run was aborted. -/
def abortOf : RunEnding → Option String
  | .failed (.aborted reason) => some reason
  | _ => none

variable {r : Agent} {turn : Turns} {c c' : Context} {w w' : World} {ls : List Lap} {ending : Option RunEnding}

theorem abortOf_eq_some {e : RunEnding} {reason : String} :
    abortOf e = some reason ↔ e = .failed (.aborted reason) := by
  unfold abortOf
  split <;> simp_all

theorem abortReason?_eq_some {i : Iteration} {reason : String} :
    abortReason? i = some reason ↔ i.error = some (.aborted reason) := by
  unfold abortReason?
  split <;> simp_all

/-- The run is aborted with a turn just as the iteration is. -/
theorem Added.abortReason? {given : List String} {i : Iteration} (h : Added r c w given ending c' w' i) :
    Agent.abortReason? i = ending.bind abortOf := by
  refine Option.ext fun reason => ?_
  rw [abortReason?_eq_some, ← h.aborted reason, Option.bind_eq_some_iff]
  constructor
  · rintro rfl
    exact ⟨_, rfl, rfl⟩
  · rintro ⟨e, rfl, he⟩
    rw [abortOf_eq_some.mp he]

theorem Passes.exists_laps (ht : Disturbs r turn) (h : Passes turn c w ending c' w') :
    ∃ ls, Laps r turn c w ls ending c' w' := by
  induction h with
  | start => exact ⟨[], .start⟩
  | @turn c₁ c₂ w₁ w₂ ending before unaborted left turned ih =>
    obtain ⟨ls, hls⟩ := ih
    obtain ⟨given, hd⟩ := ht c₁ w₁
    rw [turned] at hd
    obtain ⟨i, hi⟩ := hd.added
    obtain ⟨asked, hasked, -⟩ := hi.requests
    exact ⟨_, .next hls unaborted left turned hi hasked⟩

/-! ### Turns -/

/-- How turns go with the abort latch: it fires in the last of them only, and none before that is aborted. -/
structure Watched (c : Context) (w : World) (ls : List Lap) (ending : Option RunEnding) (c' : Context) (w' : World) :
    Prop where
  requests : w'.requests = w.requests ++ ls.flatMap (·.asked)
  asked : ∀ l ∈ ls, l.asked.length ≤ 1
  unaborted : ∀ l ∈ ls, l.world.host.abort.reason = none
  abort : w'.host.abort = w.host.abort.fireAll (ls.flatMap (·.given))
  earlier : ∀ before l, ls = before ++ [l] → reasons w before = []
  iterations : c'.iterations = c.iterations ++ ls.map (·.iteration)
  aborts : abortsOf (ls.map (·.iteration)) = (ending.bind abortOf).toList
  last : ∀ e, ending = some e → ∃ before l, ls = before ++ [l] ∧ l.ending = some e
  reason : ∀ reason, ending.bind abortOf = some reason → w'.host.abort.reason = some reason

/-- Reasons that were given fire the latch. -/
theorem Watched.latch (h : Watched c w ls ending c' w') : w'.host.abort.reason = (reasons w ls).head? := by
  rw [h.abort, AbortLatch.fireAll_reason, reasons]
  cases w.host.abort.reason <;> rfl

theorem Watched.later (h : Watched c w ls ending c' w') (later : List String) :
    (w'.host.abort.fireAll later).reason = (reasons w ls ++ later).head? := by
  rw [AbortLatch.fireAll_reason, h.latch, List.head?_append]

/-- As long as the latch has not fired, no reason was given. -/
theorem Watched.ungiven (h : Watched c w ls ending c' w') (unaborted : w'.host.abort.reason = none) :
    reasons w ls = [] :=
  List.head?_eq_none_iff.mp (h.latch ▸ unaborted)

theorem Laps.watched (h : Laps r turn c w ls ending c' w') : Watched c w ls ending c' w' := by
  induction h with
  | start => exact ⟨by simp, by simp, by simp, rfl, by simp, by simp, rfl, by simp, by simp⟩
  | @next ls c₁ c₂ w₁ w₂ ending given asked i before unaborted left turned added requests ih =>
    obtain ⟨asked', hasked, hlen⟩ := added.requests
    obtain rfl : asked' = asked := List.append_cancel_left (hasked.symm.trans requests)
    refine ⟨?_, ?_, ?_, ?_, ?_, ?_, ?_, ?_, ?_⟩
    · rw [requests, ih.requests, List.flatMap_append, List.append_assoc, List.flatMap_singleton]
    · exact List.forall_mem_append.mpr ⟨ih.asked, List.forall_mem_singleton.mpr hlen⟩
    · exact List.forall_mem_append.mpr ⟨ih.unaborted, List.forall_mem_singleton.mpr unaborted⟩
    · rw [added.abort, ih.abort, List.flatMap_append, AbortLatch.fireAll_append, List.flatMap_singleton]
    · intro earlier l hl
      rw [← (List.append_inj' hl rfl).1]
      exact ih.ungiven unaborted
    · rw [added.iterations, ih.iterations, List.map_append, List.append_assoc]
      rfl
    · have first : abortsOf (ls.map (·.iteration)) = [] := ih.aborts
      rw [List.map_append, abortsOf, List.filterMap_append, ← abortsOf, first, List.nil_append, ← added.abortReason?]
      cases h : Agent.abortReason? i <;> simp [h]
    · rintro e rfl
      exact ⟨ls, _, rfl, rfl⟩
    · intro reason hr
      exact added.reason reason (abortReason?_eq_some.mp (added.abortReason?.trans hr))

/-! ### Runs -/

/-- The turn that was under way when the latch fired for a reason has ended the run by itself. -/
structure EndsItself (w : World) (ls : List Lap) (reason : String) (e : RunEnding) : Prop where
  last : ∃ before l, ls = before ++ [l] ∧ reasons w before = [] ∧ l.given.head? = some reason ∧ l.ending = some e
  own : abortOf e = none

/-- How a run goes when these turns are taken, and reasons to abort are given before and meanwhile. -/
structure Heeds (c : Context) (w : World) (ls : List Lap) (res : RunResult) : Prop where
  /-- The model is called by turns only, and no turn begins when the latch has fired. -/
  requests : res.world.requests = w.requests ++ ls.flatMap (·.asked)
  asked : ∀ l ∈ ls, l.asked.length ≤ 1
  begun : ∀ l ∈ ls, l.world.host.abort.reason = none
  /-- Whatever is given later, the latch tells the first reason that was ever given. -/
  latch : ∀ later, (res.world.host.abort.fireAll later).reason = (reasons w ls ++ later).head?
  /-- When a reason was given, the run is aborted for the first one and one iteration records it, unless the turn
  that was under way has ended the run. -/
  fired : ∀ reason, (reasons w ls).head? = some reason → ∃ added, res.context.iterations = c.iterations ++ added ∧
    (res.ending = .failed (.aborted reason) ∧ abortsOf added = [reason] ∨
      EndsItself w ls reason res.ending ∧ abortsOf added = [])
  /-- When none was given, nothing is aborted. -/
  unfired : reasons w ls = [] → abortOf res.ending = none ∧
    ∃ added, res.context.iterations = c.iterations ++ added ∧ abortsOf added = []

theorem Ends.heeds (ht : Disturbs r turn) {res : RunResult} (h : Ends turn c w res) :
    ∃ ls ending c' w', Laps r turn c w ls ending c' w' ∧ Heeds c w ls res := by
  cases h with
  | @aborted c₁ w₁ reason passed fired =>
    -- the latch has fired before a turn
    obtain ⟨ls, hls⟩ := passed.exists_laps ht
    have hw := hls.watched
    refine ⟨ls, _, _, _, hls, hw.requests, hw.asked, hw.unaborted, hw.later, fun reason' hr => ?_, fun hn => ?_⟩
    · obtain rfl : reason = reason' := Option.some.inj (fired.symm.trans (hw.latch.trans hr))
      refine ⟨ls.map (·.iteration) ++ [abortIteration c₁ w₁.host.millis reason], ?_, .inl ⟨rfl, ?_⟩⟩
      · show c₁.iterations ++ [_] = _
        rw [hw.iterations, List.append_assoc]
      · rw [abortsOf, List.filterMap_append, ← abortsOf, hw.aborts]
        rfl
    · rw [hw.latch, hn] at fired
      cases fired
  | @exceeded c₁ w₁ passed unaborted spent =>
    obtain ⟨ls, hls⟩ := passed.exists_laps ht
    have hw := hls.watched
    have ungiven := hw.ungiven unaborted
    refine ⟨ls, _, _, _, hls, hw.requests, hw.asked, hw.unaborted, hw.later, fun reason hr => ?_, fun _ => ?_⟩
    · rw [ungiven] at hr
      cases hr
    · exact ⟨rfl, _, hw.iterations, hw.aborts⟩
  | @turned c₁ w₁ ending passed =>
    -- a turn was the last
    obtain ⟨ls, hls⟩ := passed.exists_laps ht
    have hw := hls.watched
    have hiterations : (settle ending c₁).iterations = c.iterations ++ ls.map (·.iteration) := by
      rw [← hw.iterations]
      cases ending <;> rfl
    have habort : (some ending).bind abortOf = abortOf ending := rfl
    refine ⟨ls, _, _, _, hls, hw.requests, hw.asked, hw.unaborted, hw.later, fun reason hr => ?_, fun hn => ?_⟩
    · refine ⟨_, hiterations, ?_⟩
      cases he : abortOf ending with
      | some reason' =>
        have hreason := hw.reason reason' he
        rw [hw.latch, hr] at hreason
        obtain rfl := Option.some.inj hreason
        exact .inl ⟨abortOf_eq_some.mp he, hw.aborts.trans (by rw [habort, he]; rfl)⟩
      | none =>
        obtain ⟨before, l, hl, hlast⟩ := hw.last ending rfl
        have earlier := hw.earlier before l hl
        refine .inr ⟨⟨⟨before, l, hl, earlier, ?_, hlast⟩, he⟩, hw.aborts.trans (by rw [habort, he]; rfl)⟩
        rw [hl, reasons_concat, earlier] at hr
        exact hr
    · have unaborted : abortOf ending = none := by
        cases he : abortOf ending with
        | none => rfl
        | some reason =>
          have hreason := hw.reason reason he
          rw [hw.latch, hn] at hreason
          cases hreason
      exact ⟨unaborted, _, hiterations, hw.aborts.trans (by rw [habort, unaborted]; rfl)⟩

theorem Disturbs.counts (ht : Disturbs r turn) : Counts turn := by
  intro c w
  obtain ⟨given, hd⟩ := ht c w
  rcases hturn : turn c w with ⟨ending, c₁, w₁⟩
  rw [hturn] at hd
  obtain ⟨i, hi⟩ := hd.added
  exact ⟨hi.options, hi.attempt⟩

/-- Whoever fires the abort latch, before the run or at any moment of a turn: no turn that begins later calls the
model, and the run is aborted for the first reason that was given, unless the turn that was under way ends it. -/
theorem run_heeds_abort (ht : Disturbs r turn) {c c₀ : Context} (w : World) (valid : c.validate = .ok ())
    (begun : applySnapshot c = (c₀, none)) :
    ∃ ls ending c₁ w₁, Laps r turn c₀ w ls ending c₁ w₁ ∧ Heeds c w ls (runBy turn c w) := by
  obtain ⟨-, -, hiterations, -⟩ := applySnapshot_keeps begun
  have hrun : runBy turn c w = takeTurns turn (c₀.options.loopLimit - c₀.attempt) c₀ w := by
    unfold runBy
    rw [valid]
    dsimp only
    rw [begun]
  rw [hrun]
  obtain ⟨ls, ending, c₁, w₁, hls, heeds⟩ := (takeTurns_ends ht.counts (Nat.le_refl _)).heeds ht
  exact ⟨ls, ending, c₁, w₁, hls, heeds.requests, heeds.asked, heeds.begun, heeds.latch, hiterations ▸ heeds.fired,
    hiterations ▸ heeds.unfired⟩

/-- A context in which nothing has happened. -/
def newContext : Context where
  id := "ctx"

/-- The latch has fired twice before a run begins. -/
def stopped : World where
  host := { abort := AbortLatch.fireAll {} ["stop", "again"] }

theorem stopped_run_is_aborted :
    newContext.validate = .ok () ∧
      (∃ ls ending c₁ w₁, Laps sampleAgent sampleAgent.advance newContext stopped ls ending c₁ w₁ ∧
        Heeds newContext stopped ls (runBy sampleAgent.advance newContext stopped)) ∧
      (sampleAgent.run newContext stopped).ending = .failed (.aborted "stop") :=
  ⟨rfl, run_heeds_abort (advance_disturbs sampleAgent) stopped rfl rfl, rfl⟩

end Agent

end ScriptAgent

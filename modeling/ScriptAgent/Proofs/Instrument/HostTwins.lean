import ScriptAgent.Proofs.Instrument.MachineTwins
import ScriptAgent.Proofs.Sandbox.HostConduct

/-!
# What the host offers agrees

Each function of the host does the same on twins.  A tool is called with the same input and with the
same count of calls before it, so it answers the same; only the announcement of the call differs.
-/

namespace ScriptAgent

open Script (Value Fault Pos)
open Stateful (bind_apply tryCatch_apply get_apply)

/-! ### Calls of tools -/

/-- An outcome without the place and the announcement in its signal. -/
def ToolOutcome.core : ToolOutcome → ToolOutcome
  | .signal s => .signal s.core
  | o => o

namespace Bridge

/-- A call that ends before its deadline ends as it would without one. -/
theorem invoke_deadline (h : Host) (slow : Millis) (d : Nat) (t : Tool) (r : ToolRequest) :
    (∃ k, invoke h slow (some d) t r = (.timedOut, k)) ∨
      (∃ reason k, invoke h slow (some d) t r = (.aborted reason, k)) ∨
      invoke h slow (some d) t r = invoke h slow none t r := by
  unfold invoke
  dsimp -zeta only [Host.freshId]
  extract_lets run counted started micros left watched late slowed waited left' watched' late' slowed' waited'
  rcases hf : run.fires with _ | reason
  case some => exact .inr (.inl ⟨_, _, rfl⟩)
  rcases ho : run.outcome with _ | outcome
  case none => exact .inl ⟨_, rfl⟩
  by_cases hc : micros ≥ left ∧ micros > 0
  · exact .inl ⟨waited, by simp [hc.1, hc.2]⟩
  have hle : micros ≤ left := by
    rcases Nat.lt_or_ge micros left with h | h
    · exact Nat.le_of_lt h
    · have hz : micros = 0 := Nat.eq_zero_of_not_pos fun hp => hc ⟨h, hp⟩
      exact hz ▸ Nat.zero_le left
  have hwatched : watched = micros := by
    simp only [watched, ho, Option.isSome_some, if_true]
    exact Nat.min_eq_left hle
  have hwatched' : watched' = micros := by
    simp only [watched', left', ho, Option.isSome_some, if_true]
    exact Nat.min_eq_left (Nat.le_max_left _ _)
  have hwaited : waited = waited' := by
    simp only [waited, waited', slowed, slowed', late, late', hwatched, hwatched']
  refine .inr (.inr ?_)
  have hin : ((some d).isSome && decide (micros ≥ left) && decide (micros > 0)) = false := by
    simpa using hc
  have hin' : ((none : Option Nat).isSome && decide (micros ≥ left') && decide (micros > 0)) = false := rfl
  simp only [hin, hin', hwaited]

/-- On alike hosts a call without a deadline ends alike. -/
theorem invoke_alike {h h' : Host} (hh : h.Alike h') (slow : Millis) (t : Tool) {r r' : ToolRequest}
    (ho : r'.object = r.object) (hi : r'.input = r.input) :
    (∃ k, invoke h slow none t r = (.timedOut, k)) ∨
      (∃ reason k, invoke h slow none t r = (.aborted reason, k)) ∨
      ∃ o o' k k', invoke h slow none t r = (.ended o, k) ∧ invoke h' slow none t r' = (.ended o', k') ∧
        o'.core = o.core ∧ k.Alike k' := by
  obtain ⟨clock, made, counts, abort, traces⟩ := h
  obtain ⟨_, _, _, _, traces'⟩ := h'
  obtain ⟨rfl, rfl, rfl, rfl, hcalls⟩ := hh
  obtain ⟨object, input, assignment, line⟩ := r
  obtain ⟨_, _, assignment', line'⟩ := r'
  obtain rfl := ho
  obtain rfl := hi
  unfold invoke
  dsimp -zeta only [Host.freshId]
  extract_lets run counted started micros left watched late slowed waited run' counted' started' micros' left'
    watched' late' slowed' waited'
  have hcounted : counted.Alike counted' := ⟨rfl, rfl, rfl, rfl, hcalls⟩
  have hwatched : watched' = watched := rfl
  have hlate : late' = late := rfl
  have hslowed : slowed.Alike slowed' := by
    have hslow : Host.Alike { counted with micros := counted.micros + slow * 1000 }
      { counted' with micros := counted'.micros + slow * 1000 } := { hcounted with micros := rfl }
    by_cases hl : late = true
    · simp only [slowed, slowed', hlate, hl, if_true]
      exact hslow.trace rfl
    · simp only [slowed, slowed', hlate, hl, Bool.false_eq_true, if_false]
      exact hcounted
  have hwaited : waited.Alike waited' :=
    { hslowed with micros := by simp only [waited, waited', hslowed.micros, hwatched, hlate] }
  have hend : waited'.millis = waited.millis := by simp only [Host.millis, hwaited.micros]
  have hrun : run' = run := rfl
  clear_value waited waited'
  rcases hf : run.fires with _ | reason
  case some => exact .inr (.inl ⟨_, _, rfl⟩)
  rcases ho : run.outcome with _ | outcome
  case none => exact .inl ⟨_, rfl⟩
  simp only [hrun, hf, ho, Option.isSome_none, Bool.false_and, Bool.false_eq_true, if_false]
  refine .inr (.inr ?_)
  cases outcome with
  | value v => exact ⟨_, _, _, _, rfl, rfl, rfl, hwaited.trace (by rw [hend]; rfl)⟩
  | failed message => exact ⟨_, _, _, _, rfl, rfl, rfl, hwaited.trace (by rw [hend]; rfl)⟩
  | signal s =>
    refine ⟨_, _, _, _, rfl, rfl, ?_, (hwaited.trace (by rw [hend]; rfl)).trace rfl⟩
    cases s with
    | interrupt d => rcases d with ⟨_, _ | _, _, _, _⟩ <;> rfl
    | _ => rfl

end Bridge

namespace Exec

variable {mute : Bool} {env env' : Env} {α β : Type} {R : α → β → Prop}

theorem agrees_trace {f g : Millis → Trace} (h : ∀ now, (g now).call? = (f now).call?) :
    Agrees mute Eq (trace f) (trace g) := by
  refine agrees_modify fun m m' hm => hm.move { hm with host := ?_ } rfl rfl
  have hnow : m'.host.millis = m.host.millis := by simp only [Host.millis, hm.host.micros]
  exact hm.host.trace (by rw [hnow, h])

theorem agrees_failText (message : String) : Agrees mute R (failText message) (failText message) :=
  agrees_fault rfl _ _

theorem agrees_refuseWrite (e : ObjectError) : Agrees mute R (refuseWrite e) (refuseWrite e) := by
  refine (agrees_modify fun m m' hm => ?_).bind fun _ _ _ => agrees_failText _
  exact hm.move { hm with refusedWrite := rfl } rfl rfl

theorem agrees_suspend {s s' : Signal} (h : s'.core = s.core) : Agrees mute R (suspend s) (suspend s') := by
  intro m m' hm
  refine .signal _ _ { hm with raised := ⟨s, s', ?_, ?_, h⟩ }
  · simp [hm.unraised]
  · simp [hm.unraised']

theorem Agrees.unlessRaised {x : Exec α} {y : Exec β} (h : Agrees mute R x y) :
    Agrees mute R (unlessRaised x) (unlessRaised y) := by
  intro m m' hm
  unfold AgreeOn
  rw [unlessRaised_apply hm.unraised, unlessRaised_apply hm.unraised']
  exact h m m' hm

theorem agrees_raise {s s' : Signal} (h : s'.core = s.core) : Agrees mute R (raise s) (raise s') := by
  refine Agrees.unlessRaised (.get_bind fun m m' _ => ?_)
  exact (agrees_trace (f := fun now => .signal now m.line s) (g := fun now => .signal now m'.line s')
    fun _ => rfl).bind fun _ _ _ => agrees_suspend h

theorem agrees_callTool (he : env.Twin mute env') (t : Tool) (object : Option String) (input : Value) :
    Agrees mute Eq (callTool env t object input) (callTool env' t object input) := by
  intro m m' hm
  unfold AgreeOn
  rw [callTool_apply hm.unraised, callTool_apply hm.unraised', he.slowTool, he.deadline, he.backend]
  have hinput : (m'.request env' t object input).input = (m.request env t object input).input := by
    simp only [Machine.request, he.backend, hm.toJson]
  generalize hr : m.request env t object input = r at hinput ⊢
  generalize hr' : m'.request env' t object input = r' at hinput ⊢
  have hobject : r'.object = r.object := by rw [← hr, ← hr']; rfl
  dsimp only
  rcases Bridge.invoke_deadline m.host env.slowTool (env.deadline - m.steps * microsPerStep) t r with
    ⟨k, hk⟩ | ⟨reason, k, hk⟩ | hk
  · rw [hk]
    exact .left rfl _ _
  · rw [hk]
    exact .left rfl _ _
  rcases Bridge.invoke_deadline m'.host env.slowTool (env.deadline - m'.steps * microsPerStep) t r' with
    ⟨k', hk'⟩ | ⟨reason, k', hk'⟩ | hk'
  · rw [hk']
    exact .right rfl _ _
  · rw [hk']
    exact .right rfl _ _
  rw [hk, hk']
  rcases Bridge.invoke_alike hm.host env.slowTool t hobject hinput with
    ⟨k, hn⟩ | ⟨reason, k, hn⟩ | ⟨o, o', k, k', hn, hn', hcore, halike⟩
  · rw [hn]
    exact .left rfl _ _
  · rw [hn]
    exact .left rfl _ _
  rw [hn, hn']
  cases o with
  | value v =>
    cases o' <;> cases hcore
    exact .ok rfl { hm with host := halike, unraised := rfl, unraised' := rfl }
  | failed message =>
    cases o' <;> cases hcore
    exact .stop (.fault rfl _ _) { hm with host := halike, unraised := rfl, unraised' := rfl }
  | signal s =>
    cases o' with
    | signal s' =>
      exact .signal _ _ { hm with host := halike, raised := ⟨s, s', rfl, rfl, ToolOutcome.signal.inj hcore⟩ }
    | _ => cases hcore

theorem agrees_giveOut (v : Value) : Agrees mute Eq (giveOut env v) (giveOut env' v) :=
  Agrees.unlessRaised (.get_bind fun _ _ _ => agrees_trace fun _ => rfl)

theorem agrees_log (message : Value) (args : List Value) :
    Agrees mute Eq (log env message args) (log env' message args) :=
  .get_bind fun _ _ _ => agrees_trace fun _ => rfl

theorem agrees_callMethod (he : env.Twin mute env') (id : Nat) (name : String) (input : Value) :
    Agrees mute Eq (callMethod env id name input) (callMethod env' id name input) := by
  refine .get_bind fun m m' hm => ?_
  rw [hm.drafts]
  dsimp only
  split
  · exact agrees_callTool he _ _ _
  · exact agrees_failText _

theorem agrees_notIndexable (target index : Value) (assigned : Option Value) :
    Agrees mute R (notIndexable target index assigned) (notIndexable target index assigned) :=
  agrees_fault rfl _ _

theorem agrees_hostedGet (he : env.Twin mute env') (target index : Value) :
    Agrees mute Eq (hostedGet env target index) (hostedGet env' target index) := by
  refine .get_bind fun m m' hm => ?_
  rw [hm.drafts, hm.records, he.backend]
  split
  · exact agrees_pure rfl
  · split
    · exact agrees_pure rfl
    · exact agrees_failText _
    · exact agrees_pure rfl
  · exact agrees_notIndexable _ _ _

theorem agrees_hostedSet (he : env.Twin mute env') (target index v : Value) :
    Agrees mute Eq (hostedSet env target index v) (hostedSet env' target index v) := by
  intro m m' hm
  refine .get_bind ?_
  rw [hm.drafts, hm.records, he.backend, hm.toJson]
  split
  · split
    · refine agrees_set ?_ m m' hm
      exact hm.move { hm with records := rfl, drafts := rfl } rfl rfl
    · exact agrees_refuseWrite _ m m' hm
    · exact agrees_pure rfl m m' hm
  · split
    · next id key _ d stored name _ =>
      have hn : Machine.Twin { m with drafts := m.drafts.setIfInBounds id d }
          { m' with records := m.records, drafts := m.drafts.setIfInBounds id d } :=
        hm.move { hm with records := rfl, drafts := rfl } rfl rfl
      refine .set_bind ?_
      split
      · exact agrees_trace (fun _ => rfl) _ _ hn
      · exact agrees_pure rfl _ _ hn
    · exact agrees_refuseWrite _ m m' hm
    · exact agrees_pure rfl m m' hm
  · exact agrees_notIndexable _ _ _ m m' hm

end Exec

/-! ### The tables of host functions -/

namespace HostCall

open Exec

variable {mute : Bool} {env env' : Env}

/-- Functions of the host that agree. -/
structure Hosted.Alike (mute : Bool) (h h' : Hosted) : Prop where
  inPlace : h'.inPlace = h.inPlace
  run : Agrees mute Eq h.run h'.run

/-- Either table has a function, or neither. -/
abbrev Tables (mute : Bool) : Option Hosted → Option Hosted → Prop :=
  Option.Rel (Hosted.Alike mute)

theorem tables_act {x y : Exec Unit} (h : Agrees mute Eq x y) : Tables mute (act x) (act y) :=
  .some ⟨rfl, h.bind fun _ _ _ => agrees_pure rfl⟩

theorem tables_hook (name : String) (args : List Value) :
    Tables mute (hook? env name args) (hook? env' name args) := by
  unfold hook?
  split
  · exact tables_act (agrees_modify fun m m' hm => hm.move { hm with } rfl rfl)
  · exact tables_act (agrees_modify fun m m' hm => hm.move { hm with } rfl rfl)
  · exact tables_act (agrees_trace fun _ => rfl)
  · exact tables_act (agrees_giveOut _)
  · exact .none

theorem tables_signal (he : env.Twin mute env') (name : String) (args : List Value) :
    Tables mute (signal? env name args) (signal? env' name args) := by
  have raises (s : Signal) : Tables mute (some { run := Exec.raise s }) (some { run := Exec.raise s }) :=
    .some ⟨rfl, agrees_raise rfl⟩
  have raisesWith (f : Json → Signal) (v : Value) :
      Tables mute (some { run := do let m ← get; Exec.raise (f (m.toJson env.backend v)) })
        (some { run := do let m ← get; Exec.raise (f (m.toJson env'.backend v)) }) := by
    refine .some ⟨rfl, .get_bind fun m m' hm => ?_⟩
    rw [he.backend, hm.toJson]
    exact agrees_raise rfl
  unfold signal?
  dsimp only
  split
  case h_3 reason v => exact raisesWith (fun context => .think reason (some context)) v
  case h_9 target v => exact raisesWith (.execute target) v
  case h_11 => exact .none
  all_goals exact raises _

theorem tables_ofRecord (he : env.Twin mute env') (id : Nat) (name : String) (args : List Value) :
    Tables mute (ofRecord? env id name args) (ofRecord? env' id name args) := by
  have reads (f : Record → Value) : Tables mute
      (some { inPlace := true, run := do return ((← get).records[id]?.map f).getD .unit })
      (some { inPlace := true, run := do return ((← get).records[id]?.map f).getD .unit }) := by
    refine .some ⟨rfl, .get_bind fun m m' hm => ?_⟩
    rw [hm.records]
    exact agrees_pure rfl
  unfold ofRecord?
  rw [he.backend]
  dsimp only
  split
  · exact reads _
  · exact reads _
  · exact reads _
  · exact reads _
  · exact reads _
  · exact .none

theorem tables_ofObject (he : env.Twin mute env') (objects : Array Draft) (id : Nat) (name : String)
    (args : List Value) : Tables mute (ofObject? env objects id name args) (ofObject? env' objects id name args) := by
  unfold ofObject?
  dsimp only
  split
  · split
    · exact .some ⟨rfl, agrees_callMethod he _ _ _⟩
    · split
      · refine .some ⟨rfl, .get_bind fun m m' hm => ?_⟩
        rw [he.backend, hm.text]
        exact agrees_pure rfl
      · exact .none
  · split
    · exact .some ⟨rfl, agrees_callMethod he _ _ _⟩
    · exact .none
  · exact .none

theorem tables_hosted (he : env.Twin mute env') (objects : Array Draft) (name : String) (args : List Value) :
    Tables mute (hosted? env objects name args) (hosted? env' objects name args) := by
  have hook : Tables mute (hook? env name args) (hook? env' name args) := tables_hook name args
  have either := rel_or hook (tables_signal he name args)
  unfold hosted?
  split
  · split
    · exact .some ⟨rfl, (agrees_log _ _).bind fun _ _ _ => agrees_pure rfl⟩
    · exact either
  · exact rel_or (tables_ofRecord he _ _ _) either
  · exact rel_or (tables_ofObject he _ _ _ _) either
  · exact either

theorem tables_tool (he : env.Twin mute env') (name : String) (args : List Value) :
    Tables mute (tool? env name args) (tool? env' name args) := by
  have called (input : Value) : Tables mute
      ((tool?.latest env name).map fun t => { run := Exec.callTool env t none input })
      ((tool?.latest env' name).map fun t => { run := Exec.callTool env' t none input }) := by
    unfold tool?.latest
    rw [he.tools]
    cases env.tools.reverse.find? (·.answersTo name) with
    | none => exact .none
    | some t => exact .some ⟨rfl, agrees_callTool he _ _ _⟩
  unfold tool?
  split
  · exact called _
  · exact called _
  · exact .none

end HostCall

end ScriptAgent

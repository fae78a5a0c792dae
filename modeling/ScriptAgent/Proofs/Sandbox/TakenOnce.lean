import ScriptAgent.Proofs.Sandbox.Announcements

/-!
# An announcement is taken once

What is pending is one number that two hooks write and that every call of a tool may take.  Over any
steps, whichever tools they call and however those calls end, each announcement goes to one call at
most, which comes before the next hook; the calls that do not match leave it where it is.
-/

namespace ScriptAgent

open Script (Value)

/-! ### Deeds whose calls carry what is pending -/

namespace Deed

variable {env : Env} {p : Option Nat} {d : Deed} {ds : List Deed}

/-- The assignments that calls carry before another line is reached or another call is announced. -/
def taken : List Deed → List Assignment
  | [] | reach _ :: _ | announce _ :: _ => []
  | call _ r _ :: rest => r.assignment.toList ++ taken rest
  | _ :: rest => taken rest

/-- Every call of deeds carries what is announced to its tool when it is made. -/
def Tied (env : Env) (p : Option Nat) (ds : List Deed) : Prop :=
  ∀ before t r deadline after, ds = before ++ call t r deadline :: after →
    r.assignment = announced env t (before.foldl pending p)

theorem tied_nil : Tied env p [] := by
  intro before t r deadline after h
  simp at h

theorem tied_cons : Tied env p (d :: ds) ↔
    (∀ t r deadline, d = call t r deadline → r.assignment = announced env t p) ∧ Tied env (d.pending p) ds := by
  constructor
  · intro h
    refine ⟨fun t r deadline hd => h [] t r deadline ds (by rw [hd]; rfl), fun before t r deadline after hds => ?_⟩
    exact h (d :: before) t r deadline after (by rw [hds]; rfl)
  · rintro ⟨hd, hds⟩ before t r deadline after h
    cases before with
    | nil => exact hd t r deadline (List.cons.inj h).1
    | cons e before =>
      obtain ⟨rfl, htail⟩ := List.cons.inj h
      exact hds before t r deadline after htail

theorem Tied.append {before after : List Deed} (h : Tied env p (before ++ after)) :
    Tied env (before.foldl pending p) after := by
  induction before generalizing p with
  | nil => exact h
  | cons d before ih => exact ih (tied_cons.mp h).2

/-- Before the next hook at most one call carries an assignment, and that is the one that was pending. -/
theorem Tied.taken (h : Tied env p ds) :
    taken ds = [] ∨ ∃ id a, p = some id ∧ env.calls.lookup id = some a ∧ taken ds = [a] := by
  induction ds generalizing p with
  | nil => exact .inl rfl
  | cons d ds ih =>
    obtain ⟨hd, hds⟩ := tied_cons.mp h
    cases d with
    | reach | announce => exact .inl rfl
    | call t r deadline =>
      have hr := hd t r deadline rfl
      cases ha : r.assignment with
      | none =>
        simp only [pending, Deed.taken, ha, stillPending] at hds ⊢
        exact ih hds
      | some a =>
        -- nothing is pending any more, so that no later call carries anything
        obtain ⟨id, hp, hlookup, -⟩ := announced_eq_some.mp (hr.symm.trans ha)
        simp only [pending, Deed.taken, ha, stillPending] at hds ⊢
        rcases ih hds with hnone | ⟨_, _, hsome, _⟩
        · exact .inr ⟨id, a, hp, hlookup, by rw [hnone]; rfl⟩
        · cases hsome
    | _ => exact ih hds

/-- After an announcement at most one call carries an assignment before the next hook, the announced one. -/
theorem Tied.taken_of_announce {before after : List Deed} {id : Nat} (h : Tied env p (before ++ announce id :: after)) :
    Deed.taken after = [] ∨ ∃ a, env.calls.lookup id = some a ∧ Deed.taken after = [a] := by
  rcases (tied_cons.mp h.append).2.taken with hnone | ⟨_, a, hid, hlookup, ha⟩
  · exact .inl hnone
  · cases hid
    exact .inr ⟨a, hlookup, ha⟩

/-- A call carries an assignment just if it was announced last, no call took it since, and the tool answers to
the last name of its callee. -/
theorem Tied.assignment_eq_some (h : Tied env none ds) {before after : List Deed} {t : Tool} {r : ToolRequest}
    {deadline : Nat} (hds : ds = before ++ call t r deadline :: after) (a : Assignment) :
    r.assignment = some a ↔ ∃ id, Stands id before ∧ env.calls.lookup id = some a ∧
      t.answersTo ((Text.splitOn a.callee ".").getLastD a.callee) = true := by
  rw [h before t r deadline after hds, announced_eq_some]
  simp only [foldl_pending_eq_some]

end Deed

theorem Conduct.tied {env : Env} {o o₁ : Outside} {ds : List Deed} (h : Conduct env o ds o₁) :
    Deed.Tied env o.pendingCall ds := by
  intro before t r deadline after hds
  obtain ⟨o₂, o₃, hbefore, -, -, -, hassignment, -, -⟩ := (hds ▸ h).split
  rw [hassignment, hbefore.pendingCall]

/-! ### Steps of a script -/

/-- A step in which a script reports what it is about to do, or calls a tool. -/
inductive HookStep where
  /-- A line is reached. -/
  | line (n : Int)
  /-- A call is announced. -/
  | track (id : Int)
  /-- A tool is called, as a method if there is an object. -/
  | call (t : Tool) (object : Option String) (input : Value)

namespace HookStep

variable {env : Env} {m : Machine} {s : HookStep} {d : Deed}

/-- What a step does. -/
def run (env : Env) : HookStep → Exec Unit
  | line n => modify fun m => m.reachLine (n % 4294967296).toNat
  | track id => modify fun m => { m with pendingCall := some (id % 4294967296).toNat }
  | call t object input => do
    let _ ← Exec.callTool env t object input

/-- The hooks that compiled scripts call are these steps. -/
theorem hook?_line (env : Env) (n : Int) :
    HostCall.hook? env "__track_line" [.int n] = HostCall.act ((line n).run env) := rfl

theorem hook?_track (env : Env) (id : Int) :
    HostCall.hook? env "__track_tool_call" [.int id] = HostCall.act ((track id).run env) := rfl

/-- The machine after a step, however it ended. -/
def after (env : Env) (m : Machine) (s : HookStep) : Machine :=
  (s.run env m).2

/-- The deed that a step is; a call is none once a signal was raised. -/
def deed? (env : Env) (m : Machine) : HookStep → Option Deed
  | line n => some (.reach (n % 4294967296).toNat)
  | track id => some (.announce (id % 4294967296).toNat)
  | call t object input => if m.raised.isSome then none else some (Exec.called env m t object input)

/-- The deeds of steps in order. -/
def deeds (env : Env) (m : Machine) : List HookStep → List Deed
  | [] => []
  | s :: rest => (s.deed? env m).toList ++ deeds env (s.after env m) rest

theorem after_call (t : Tool) (object : Option String) (input : Value) :
    (call t object input).after env m = (Exec.callTool env t object input m).2 := by
  rw [after, run, Stateful.bind_apply]
  rcases Exec.callTool env t object input m with ⟨_ | _, m'⟩ <;> rfl

theorem makes_of_deed? (h : s.deed? env m = some d) : d.Makes env m.outside (s.after env m).outside := by
  cases s with
  | line n | track id =>
    cases h
    rfl
  | call t object input =>
    simp only [deed?] at h
    split at h
    · cases h
    · next hraised =>
      cases h
      rw [after_call]
      exact Exec.called_makes env (Option.not_isSome_iff_eq_none.mp hraised) t object input

/-- A call that is refused changes nothing. -/
theorem after_of_deed?_eq_none (h : s.deed? env m = none) : s.after env m = m := by
  cases s with
  | line n | track id => cases h
  | call t object input =>
    simp only [deed?] at h
    split at h
    · next hraised =>
      rw [after_call, Exec.callTool, Exec.unlessRaised]
      simp [Stateful.bind_apply, Stateful.get_apply, hraised]
    · cases h

/-- A call that is made carries what is announced to its tool. -/
theorem assignment_of_deed? {t : Tool} {r : ToolRequest} {deadline : Nat}
    (h : s.deed? env m = some (.call t r deadline)) : r.assignment = announced env t m.pendingCall := by
  obtain ⟨-, -, -, hassignment, -⟩ := makes_of_deed? h
  exact hassignment

theorem tied_deeds (env : Env) (m : Machine) (steps : List HookStep) : Deed.Tied env m.pendingCall (deeds env m steps) := by
  induction steps generalizing m with
  | nil => exact Deed.tied_nil
  | cons s rest ih =>
    have hrest := ih (s.after env m)
    rw [deeds]
    cases hd : s.deed? env m with
    | none =>
      rw [after_of_deed?_eq_none hd] at hrest ⊢
      exact hrest
    | some d =>
      have hpending : (s.after env m).pendingCall = d.pending m.pendingCall :=
        Deed.pendingCall_of_makes (makes_of_deed? hd)
      rw [hpending] at hrest
      refine Deed.tied_cons.mpr ⟨fun t r deadline hcall => ?_, hrest⟩
      exact assignment_of_deed? (hcall ▸ hd)

/-- A call whose tool does not answer to what is pending leaves it pending. -/
theorem pendingCall_after_call {t : Tool} {object : Option String} {input : Value}
    (h : announced env t m.pendingCall = none) : ((call t object input).after env m).pendingCall = m.pendingCall := by
  cases hd : (call t object input).deed? env m with
  | none => rw [after_of_deed?_eq_none hd]
  | some d =>
    have hpending := Deed.pendingCall_of_makes (makes_of_deed? hd)
    simp only [deed?] at hd
    split at hd <;> cases hd
    rw [show ((call t object input).after env m).pendingCall = stillPending (announced env t m.pendingCall) m.pendingCall
      from hpending, h]
    rfl

/-- How announcements come to calls, over steps from a machine. -/
structure TakenOnce (env : Env) (m : Machine) (steps : List HookStep) : Prop where
  /-- After an announcement at most one call carries an assignment before the next hook, the announced one. -/
  once : ∀ before id after, deeds env m steps = before ++ .announce id :: after →
    Deed.taken after = [] ∨ ∃ a, env.calls.lookup id = some a ∧ Deed.taken after = [a]
  /-- A call carries an assignment just if that is the last announced one, no hook and no taker came in between,
  and the tool answers to the last name of the callee. -/
  carried : ∀ before t r deadline after, deeds env m steps = before ++ .call t r deadline :: after → ∀ a,
    r.assignment = some a ↔ ∃ id, Stands id before ∧ env.calls.lookup id = some a ∧
      t.answersTo ((Text.splitOn a.callee ".").getLastD a.callee) = true
  /-- A call leaves an announcement to whose callee its tool does not answer. -/
  kept : ∀ before t object input later, steps = before ++ call t object input :: later → ∀ id,
    (before.foldl (after env) m).pendingCall = some id →
    (∀ a, env.calls.lookup id = some a → t.answersTo ((Text.splitOn a.callee ".").getLastD a.callee) = false) →
    ((before ++ [call t object input]).foldl (after env) m).pendingCall = some id

/-- Whatever steps a script makes, an announcement is taken by one call at most. -/
theorem announcements_taken_once (env : Env) (m : Machine) (steps : List HookStep) (h : m.pendingCall = none) :
    TakenOnce env m steps := by
  have htied := tied_deeds env m steps
  rw [h] at htied
  refine ⟨fun before id after hds => ?_, fun before t r deadline after hds => htied.assignment_eq_some hds,
    fun before t object input later _ id hid hanswers => ?_⟩
  · rw [hds] at htied
    exact htied.taken_of_announce
  · rw [List.foldl_append, List.foldl_cons, List.foldl_nil, pendingCall_after_call, hid]
    rw [Option.eq_none_iff_forall_ne_some]
    intro a ha
    obtain ⟨id', hid', hlookup, ht⟩ := announced_eq_some.mp ha
    rw [hid, Option.some.injEq] at hid'
    rw [hanswers a (hid' ▸ hlookup)] at ht
    cases ht

/-- The steps of `let x = fetch(lookup(1));` and of one more call of `fetch`. -/
def nestedCalls : List HookStep :=
  let lookup : Tool := { name := "lookup", handler := fun _ _ _ => { outcome := some (.value (.nat 2)) } }
  let fetch : Tool := { name := "get", aliases := ["fetch"], handler := lookup.handler }
  [.line 1, .track 0, .call lookup none (.int 1), .call fetch none (.int 2), .call fetch none (.int 3)]

/-- The inner call leaves the announcement to the outer one, which takes it by an alias, and the call after
that finds none. -/
theorem nestedCalls_taken_once :
    let j : Job := { compiled := { Compiled.plain "" with calls := [(0, ⟨"x", "fetch", 1⟩)] } }
    (j.machine {}).pendingCall = none ∧ TakenOnce (j.env {} []) (j.machine {}) nestedCalls ∧
      ((nestedCalls.take 3).foldl (after (j.env {} [])) (j.machine {})).pendingCall = some 0 ∧
      Deed.taken ((deeds (j.env {} []) (j.machine {}) nestedCalls).drop 2) = [⟨"x", "fetch", 1⟩] :=
  ⟨rfl, announcements_taken_once _ _ _ rfl, by decide +kernel⟩

end HookStep

/-- In every run of a script an announcement is taken by one call at most. -/
theorem Job.announcements_taken (j : Job) (host : Host) :
    ∃ functions ds o, Conduct (j.env host functions) (j.machine host).outside ds o ∧
      (j.run host).machine.outside = o.atTime (j.run host).machine.host.micros ∧
      ∀ before id after, ds = before ++ .announce id :: after →
        Deed.taken after = [] ∨ ∃ a, j.compiled.calls.lookup id = some a ∧ Deed.taken after = [a] := by
  obtain ⟨functions, ds, o, hds, ho, -⟩ := j.run_conduct host
  refine ⟨functions, ds, o, hds, ho, fun before id after h => ?_⟩
  exact (h ▸ hds.tied).taken_of_announce

end ScriptAgent

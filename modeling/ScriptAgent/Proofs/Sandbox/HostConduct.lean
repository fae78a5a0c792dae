import ScriptAgent.Proofs.Sandbox.Obedience

/-!
# Host calls act by deeds

Each function that the host offers to scripts is one deed, or none.  A signal is raised by a call of
a tool and by the functions that raise signals of the script's own; both halt.  The values that cross
the border on the way are those that the deed hands over, or those that are read.
-/

namespace ScriptAgent

open Script (Value Fault Pos)
open Stateful (bind_apply tryCatch_apply get_apply)

/-- If there is nothing in the first tables, the second ones are looked at. -/
theorem rel_or {α β : Type} {R : α → β → Prop} {a b : Option α} {a' b' : Option β} (ha : Option.Rel R a a')
    (hb : Option.Rel R b b') : Option.Rel R (a.or b) (a'.or b') := by
  cases ha with
  | none => exact hb
  | some h => exact .some h

namespace Exec

variable {env : Env} {z : SizeLimits} {α : Type}

/-- A computation that is one deed on every machine, no call, and halts if that raises a signal.  The one
beside it does the same if what the deed hands over passes. -/
theorem Obeys.deed {x y : Exec α} (d : Machine → Deed)
    (hd : ∀ m, m.raised = none → (d m).Makes env m.outside (x m).2.outside)
    (hg : ∀ m, (d m).givenUp? env m.outside = none)
    (hs : ∀ m, m.raised = none → EndsAfter (x m).2.raised none (haltOf (x m).1))
    (hy : ∀ m, m.raised = none → (∀ v ∈ (d m).handed env m.outside, v.Passes) → y m = x m) : Obeys env x y := by
  intro m hm
  have made := hd m hm
  refine .crossing (.deed hm made ?_) ((Crossing.none _).deed made) (hy m hm)
  rw [hg m]
  exact hs m hm

theorem obeys_note {f : Millis → Trace} (hf : ∀ now, (f now).isNote) : Obeys env (trace f) (trace f) :=
  .deed (fun m => .note (f m.host.millis)) (fun _ _ => ⟨hf _, rfl⟩) (fun _ => rfl)
    (fun _ hm => .inl ⟨hm, rfl, rfl⟩) fun _ _ _ => rfl

theorem obeys_failText (message : String) : Obeys env (failText message : Exec α) (failText message) :=
  obeys_fault _ _

theorem obeys_refuseWrite (e : ObjectError) : Obeys env (refuseWrite e : Exec α) (refuseWrite e) := by
  refine Obeys.bind ?_ fun _ => obeys_failText _
  exact .deed (fun _ => .refuse e) (fun _ _ => rfl) (fun _ => rfl) (fun _ hm => .inl ⟨hm, rfl, rfl⟩) fun _ _ _ => rfl

/-- What a guard does on a machine on which no signal is raised. -/
theorem unlessRaised_apply {m : Machine} (h : m.raised = none) (x : Exec α) : unlessRaised x m = x m := by
  simp [unlessRaised, bind_apply, h]

/-- A signal is raised, and beside it one that carries what came of the same values. -/
theorem obeys_raise {s s' : Signal} (hs : (∀ v ∈ s.carried, v.Passes) → s' = s) :
    Obeys env (raise s : Exec α) (raise s') := by
  have run {m : Machine} (hm : m.raised = none) : (raise s : Exec α) m =
      (.error (.halted .suspended Pos.none),
        { m with host := m.host.trace (.signal m.host.millis m.line s), raised := some s }) := by
    unfold raise
    rw [unlessRaised_apply hm]
    simp [suspend, trace, bind_apply, hm]
  refine .deed (fun _ => .raise s) (fun m hm => ?_) (fun _ => rfl) (fun m hm => .inr ?_) fun m _ hpass => ?_
  · rw [run hm]
    rfl
  · rw [run hm]
    exact ⟨rfl, .inl rfl, nofun⟩
  · rw [hs hpass]

/-- The announcement that a call takes, and what it leaves pending. -/
theorem takeAssignment_apply (t : Tool) (m : Machine) :
    takeAssignment env t m = (.ok (announced env t m.pendingCall),
      { m with pendingCall := stillPending (announced env t m.pendingCall) m.pendingCall }) := by
  unfold takeAssignment announced
  simp only [bind_apply, get_apply]
  match hp : m.pendingCall with
  | none =>
    show (Except.ok none, m) = (Except.ok none, { m with pendingCall := none })
    rw [← hp]
  | some id =>
    simp only [Option.bind_some]
    match hl : env.calls.lookup id with
    | none =>
      show (Except.ok none, m) = (Except.ok none, { m with pendingCall := some id })
      rw [← hp]
    | some a =>
      by_cases ha : t.answersTo ((Text.splitOn a.callee ".").getLastD a.callee)
      · simp only [ha, if_true, Option.filter_some]
        rfl
      · simp only [ha, Option.filter_some]
        show (Except.ok none, m) = (Except.ok none, { m with pendingCall := some id })
        rw [← hp]

/-- A call of a tool on a machine on which no signal is raised. -/
theorem callTool_apply {m : Machine} (h : m.raised = none) (t : Tool) (object : Option String) (input : Value) :
    callTool env t object input m =
      let r := m.request env t object input
      let (invocation, host) :=
        Bridge.invoke m.host env.slowTool (some (env.deadline - m.steps * microsPerStep)) t r
      (invocation.reply env.backend,
        { m with
          host, pendingCall := stillPending r.assignment m.pendingCall
          raised := invocation.signal? }) := by
  unfold callTool
  rw [unlessRaised_apply h, bind_apply, takeAssignment_apply]
  simp only [bind_apply, get_apply]
  have hj : ({ m with pendingCall := stillPending (announced env t m.pendingCall) m.pendingCall } :
      Machine).toJson env.backend input = m.toJson env.backend input := rfl
  simp only [hj, Machine.request]
  rcases Bridge.invoke m.host env.slowTool (some (env.deadline - m.steps * microsPerStep)) t
    ⟨object, m.toJson env.backend input, announced env t m.pendingCall, m.line⟩ with ⟨(_ | _ | _) | _ | _, host⟩
  · simp [Invocation.reply, Invocation.signal?, h]
  · simp [Invocation.reply, Invocation.signal?, h, failText, fault]
  · simp [bind_apply, Invocation.reply, Invocation.signal?, h, suspend]
  · simp [Invocation.reply, Invocation.signal?, h]
  · simp [Invocation.reply, Invocation.signal?, h]

/-- The deed that a call of a tool is. -/
def called (env : Env) (m : Machine) (t : Tool) (object : Option String) (input : Value) : Deed :=
  .call t (m.request env t object input) (env.deadline - m.steps * microsPerStep)

theorem called_makes (env : Env) {m : Machine} (h : m.raised = none) (t : Tool) (object : Option String) (input : Value) :
    (called env m t object input).Makes env m.outside (callTool env t object input m).2.outside := by
  rw [callTool_apply h]
  exact ⟨_, _, rfl, rfl, rfl, rfl⟩

/-- A call by the isolated backend is the same if the input and the value that comes back pass. -/
theorem callTool_isolated {m : Machine} (h : m.raised = none) (t : Tool) (object : Option String) (input : Value)
    (hpass : ∀ v ∈ (called env m t object input).handed env m.outside, v.Passes) :
    callTool (env.isolated z) t object input m = callTool env t object input m := by
  have hinput : m.toJson .isolated input = m.toJson env.backend input := m.toJson_isolated _ (hpass _ (.head _))
  have hrequest : m.request (env.isolated z) t object input = m.request env t object input :=
    congrArg (fun v => ToolRequest.mk object v (announced env t m.pendingCall) m.line) hinput
  have hgiven := Invocation.reply_isolated env.backend fun v hv => hpass v (.tail _ hv)
  rw [callTool_apply h, callTool_apply h, hrequest]
  exact congrArg (·, _) hgiven

theorem obeys_callTool (t : Tool) (object : Option String) (input : Value) :
    Obeys env (callTool env t object input) (callTool (env.isolated z) t object input) := by
  intro m hm
  have hrun : callTool env t object input m = _ := callTool_apply hm t object input
  rcases hb : Bridge.invoke m.host env.slowTool (some (env.deadline - m.steps * microsPerStep)) t
    (m.request env t object input) with ⟨invocation, host⟩
  dsimp only at hrun
  rw [hb] at hrun
  have made := called_makes env hm t object input
  refine .crossing (.deed hm made ?_) ((Crossing.none _).deed made) (callTool_isolated hm t object input)
  have hgiven : (called env m t object input).givenUp? env m.outside = invocation.givenUp? :=
    congrArg (fun r => r.1.givenUp?) hb
  rw [hgiven, hrun]
  rcases invocation with (_ | _ | _) | _ | _
  · exact .inl ⟨rfl, rfl, rfl⟩
  · exact .inl ⟨rfl, rfl, rfl⟩
  · exact .inr ⟨rfl, .inl rfl, nofun⟩
  · exact .inr ⟨rfl, .inr rfl, fun _ h => h⟩
  · exact .inr ⟨rfl, .inr rfl, fun _ h => h⟩

theorem obeys_giveOut (v : Value) : Obeys env (giveOut env v) (giveOut (env.isolated z) v) := by
  have run (env : Env) {m : Machine} (hm : m.raised = none) : giveOut env v m =
      (.ok (), { m with host := m.host.trace (.yield m.host.millis (m.toJson env.backend v)) }) := by
    unfold giveOut
    rw [unlessRaised_apply hm]
    rfl
  refine .deed (fun m => .giveOut (m.toJson env.backend v)) (fun m hm => ?_) (fun _ => rfl) (fun m hm => .inl ?_)
    fun m hm hpass => ?_
  · rw [run env hm]
    rfl
  · rw [run env hm]
    exact ⟨hm, rfl, rfl⟩
  · have same : m.toJson .isolated v = m.toJson env.backend v := m.toJson_isolated _ (hpass _ (by simp [Deed.handed]))
    rw [run env hm, run _ hm, ← same]
    rfl

theorem obeys_log (message : Value) (args : List Value) :
    Obeys env (log env message args) (log (env.isolated z) message args) := by
  intro m hm
  have run (env : Env) : log env message args m =
      trace (.log · (m.toJson env.backend message).logged (args.map (m.toJson env.backend))) m := rfl
  have noted : Obeys env (trace (.log · (m.toJson env.backend message).logged (args.map (m.toJson env.backend)))) _ :=
    obeys_note fun _ => rfl
  unfold ObeysOn
  rw [run, run]
  refine .crossing (noted m hm).conducted ((Crossing.none _).log (m.toJson env.backend message) _) fun hpass => ?_
  have same : m.toJson .isolated message = m.toJson env.backend message := m.toJson_isolated _ (hpass _ (.head _))
  have sames : args.map (m.toJson .isolated) = args.map (m.toJson env.backend) := by
    refine List.map_congr_left fun v hv => m.toJson_isolated _ (hpass _ (.tail _ ?_))
    exact List.mem_map_of_mem hv
  show trace (.log · (m.toJson .isolated message).logged (args.map (m.toJson .isolated))) m = _
  rw [same, sames]

theorem obeys_callMethod (id : Nat) (name : String) (input : Value) :
    Obeys env (callMethod env id name input) (callMethod (env.isolated z) id name input) := by
  refine .get_bind fun m => ?_
  dsimp only
  split
  · exact obeys_callTool _ _ _
  · exact obeys_failText _

theorem obeys_notIndexable (target index : Value) (assigned : Option Value) :
    Obeys env (notIndexable target index assigned : Exec α) (notIndexable target index assigned) := obeys_fault _ _

/-- A value outside is given to the script. -/
theorem obeysOn_given {m : Machine} (hm : m.raised = none) {v : Json} (held : m.outside.Holds v) (b : Backend) :
    ObeysOn env m (pure (b.toScript v)) (pure (Backend.isolated.toScript v)) := by
  refine Accord.crossing (.own hm rfl rfl) ((Crossing.none _).read held) fun hpass => ?_
  rw [b.toScript_isolated (hpass v (.head _))]

theorem obeys_hostedGet (target index : Value) :
    Obeys env (hostedGet env target index) (hostedGet (env.isolated z) target index) := by
  intro m hm
  refine .get_bind ?_
  split
  · next id key =>
    cases hr : m.records[id]? with
    | none => exact obeys_pure _ m hm
    | some r =>
      cases hv : r.get? key with
      | none => simpa [hv] using obeys_pure _ m hm
      | some v => simpa [hv] using obeysOn_given hm (.field hr hv) env.backend
  · next id key =>
    cases hd : m.drafts[id]? with
    | none => exact obeys_pure _ m hm
    | some d =>
      cases hv : d.get key with
      | error e => simpa [hv] using obeys_failText _ m hm
      | ok v => simpa [hv] using obeysOn_given hm (.property hd hv) env.backend
  · exact obeys_notIndexable _ _ _ m hm

theorem hostedSet_isolated {m : Machine} {v : Value} (h : m.toJson .isolated v = m.toJson env.backend v)
    (target index : Value) : hostedSet (env.isolated z) target index v m = hostedSet env target index v m := by
  have hb : (env.isolated z).backend = .isolated := rfl
  unfold hostedSet
  simp only [bind_apply, get_apply, hb, h]

/-- A write hands over its value, whether it is refused or not, if it is tried at all. -/
theorem hostedSet_hands (env : Env) (z : SizeLimits) {m : Machine} (hm : m.raised = none) (target index v : Value) :
    Conducted env m (haltOf (hostedSet env target index v m).1) (hostedSet env target index v m).2 ∧
      (Crossing env m.outside [m.toJson env.backend v] (hostedSet env target index v m).2.outside ∨
        (hostedSet env target index v m).2.outside = m.outside ∧
          hostedSet (env.isolated z) target index v m = hostedSet env target index v m) := by
  have one {d : Deed} {m₁ : Machine} (made : d.Makes env m.outside m₁.outside)
      (h : d.handed env m.outside = [m.toJson env.backend v]) :
      Crossing env m.outside [m.toJson env.backend v] m₁.outside := h ▸ (Crossing.none _).deed made
  have refuse {e : ObjectError} (h : m.outside.Refuses (m.toJson env.backend v) e) :
      Crossing env m.outside [m.toJson env.backend v] (refuseWrite e m : Except Stop Unit × Machine).2.outside :=
    (Crossing.none _).refuse h
  -- a record, a property of an object, or anything else, which is not written at all
  unfold hostedSet
  simp only [bind_apply, get_apply]
  split
  · next id key =>
    cases hr : m.records[id]? with
    | none => exact ⟨.own hm rfl rfl, .inr ⟨rfl, rfl⟩⟩
    | some r =>
      simp only [Option.map_some]
      cases hset : r.set key (m.toJson env.backend v) with
      | error e => exact ⟨(obeys_refuseWrite e m hm).conducted, .inl (refuse (.field hr hset))⟩
      | ok r' =>
        have made : (Deed.record id key (m.toJson env.backend v)).Makes env m.outside
            { m.outside with records := m.records.setIfInBounds id r' } := ⟨r, r', hr, hset, rfl⟩
        exact ⟨.deed hm made (.inl ⟨hm, rfl, rfl⟩), .inl (one made rfl)⟩
  · next id key =>
    cases hd : m.drafts[id]? with
    | none => exact ⟨.own hm rfl rfl, .inr ⟨rfl, rfl⟩⟩
    | some d =>
      simp only [Option.map_some]
      cases hset : d.set key (m.toJson env.backend v) with
      | error e => exact ⟨(obeys_refuseWrite e m hm).conducted, .inl (refuse (.property hd hset))⟩
      | ok written =>
        obtain ⟨d', stored⟩ := written
        cases stored with
        | none =>
          have made : (Deed.write id key (m.toJson env.backend v)).Makes env m.outside
              { m.outside with drafts := m.drafts.setIfInBounds id d' } := ⟨d, d', none, hd, hset, rfl⟩
          exact ⟨.deed hm made (.inl ⟨hm, rfl, rfl⟩), .inl (one made rfl)⟩
        | some w =>
          have made : (Deed.write id key (m.toJson env.backend v)).Makes env m.outside
              { m.outside with
                drafts := m.drafts.setIfInBounds id d'
                host := m.host.trace (.property m.host.millis d.name key w) } := ⟨d, d', some w, hd, hset, rfl⟩
          exact ⟨.deed hm made (.inl ⟨hm, rfl, rfl⟩), .inl (one made rfl)⟩
  · exact ⟨.own hm rfl rfl, .inr ⟨rfl, rfl⟩⟩

theorem obeys_hostedSet (target index v : Value) :
    Obeys env (hostedSet env target index v) (hostedSet (env.isolated z) target index v) := by
  intro m hm
  obtain ⟨conducted, hcross | ⟨ho, hsame⟩⟩ := hostedSet_hands env z hm target index v
  · exact .crossing conducted hcross fun hpass =>
      hostedSet_isolated (m.toJson_isolated _ (hpass _ (.head _))) target index
  · exact ⟨conducted, .own ho fun _ _ => hsame⟩

end Exec

/-! ### The tables of host functions -/

namespace HostCall

open Exec

variable {env : Env} {z : SizeLimits}

/-- A function of the host obeys, and so does the one beside it. -/
structure Hosted.Obeys (env : Env) (h h' : Hosted) : Prop where
  inPlace : h'.inPlace = h.inPlace
  run : Exec.Obeys env h.run h'.run

/-- Both tables have a function, or neither has. -/
abbrev Obey (env : Env) : Option Hosted → Option Hosted → Prop :=
  Option.Rel (Hosted.Obeys env)

theorem obey_act {x y : Exec Unit} (h : Exec.Obeys env x y) : Obey env (act x) (act y) :=
  .some ⟨rfl, h.bind fun _ => obeys_pure _⟩

theorem obey_hook (name : String) (args : List Value) :
    Obey env (hook? env name args) (hook? (env.isolated z) name args) := by
  have does {x : Exec Unit} (d : Deed) (hd : ∀ m, d.Makes env m.outside (x m).2.outside)
      (hr : ∀ m, (x m).2.raised = m.raised) (hi : ∀ m, imposed (haltOf (x m).1) = false)
      (hg : ∀ o, d.givenUp? env o = none) : Exec.Obeys env x x :=
    .deed (fun _ => d) (fun m _ => hd m) (fun m => hg _) (fun m hm => .inl ⟨(hr m).trans hm, rfl, hi m⟩)
      fun _ _ _ => rfl
  unfold hook?
  split
  · next n =>
    exact obey_act (does (.reach (n % 4294967296).toNat) (fun _ => rfl) (fun _ => rfl) (fun _ => rfl) fun _ => rfl)
  · next n =>
    exact obey_act (does (.announce (n % 4294967296).toNat) (fun _ => rfl) (fun _ => rfl) (fun _ => rfl) fun _ => rfl)
  · exact obey_act (obeys_note fun _ => rfl)
  · exact obey_act (obeys_giveOut _)
  · exact .none

theorem obey_signal (name : String) (args : List Value) :
    Obey env (signal? env name args) (signal? (env.isolated z) name args) := by
  have raises (s : Signal) : Obey env (some { run := Exec.raise s }) (some { run := Exec.raise s }) :=
    .some ⟨rfl, obeys_raise fun _ => rfl⟩
  have raisesWith (f : Json → Signal) (hf : ∀ c, (f c).carried = [c]) (v : Value) :
      Obey env (some { run := do let m ← get; Exec.raise (f (m.toJson env.backend v)) })
        (some { run := do let m ← get; Exec.raise (f (m.toJson .isolated v)) }) := by
    refine .some ⟨rfl, .get_bind fun m => obeys_raise fun hpass => ?_⟩
    rw [hf] at hpass
    rw [m.toJson_isolated env.backend (hpass _ (.head _))]
  unfold signal?
  dsimp only
  split
  case h_3 reason v => exact raisesWith (fun context => .think reason (some context)) (fun _ => rfl) v
  case h_9 target v => exact raisesWith (.execute target) (fun _ => rfl) v
  case h_11 => exact .none
  all_goals exact raises _

theorem obey_ofRecord (id : Nat) (name : String) (args : List Value) :
    Obey env (ofRecord? env id name args) (ofRecord? (env.isolated z) id name args) := by
  have reads (f : Record → Value) : Obey env
      (some { inPlace := true, run := do return ((← get).records[id]?.map f).getD .unit })
      (some { inPlace := true, run := do return ((← get).records[id]?.map f).getD .unit }) :=
    .some ⟨rfl, .get_bind fun m => obeys_pure _⟩
  unfold ofRecord?
  dsimp only
  split
  · exact reads _
  · exact reads _
  · exact reads _
  · refine .some ⟨rfl, fun m hm => .get_bind ?_⟩
    cases hr : m.records[id]? with
    | none => exact obeys_pure _ m hm
    | some r => simpa using obeysOn_given hm (.record hr) env.backend
  · exact reads _
  · exact .none

theorem obey_ofObject (objects : Array Draft) (id : Nat) (name : String) (args : List Value) :
    Obey env (ofObject? env objects id name args) (ofObject? (env.isolated z) objects id name args) := by
  unfold ofObject?
  dsimp only
  split
  · split
    · exact .some ⟨rfl, obeys_callMethod _ _ _⟩
    · split
      · refine .some ⟨rfl, fun m hm => .get_bind (Accord.texts (obeys_pure _ m hm) [.object id] fun same => ?_)⟩
        rw [Env.isolated_backend, same _ (.head _)]
      · exact .none
  · split
    · exact .some ⟨rfl, obeys_callMethod _ _ _⟩
    · exact .none
  · exact .none

theorem obey_hosted (objects : Array Draft) (name : String) (args : List Value) :
    Obey env (hosted? env objects name args) (hosted? (env.isolated z) objects name args) := by
  have either : Obey env ((hook? env name args).or (signal? env name args))
      ((hook? (env.isolated z) name args).or (signal? (env.isolated z) name args)) :=
    rel_or (obey_hook name args) (obey_signal name args)
  unfold hosted?
  split
  · split
    · exact .some ⟨rfl, (obeys_log _ _).bind fun _ => obeys_pure _⟩
    · exact either
  · exact rel_or (obey_ofRecord _ _ _) either
  · exact rel_or (obey_ofObject _ _ _ _) either
  · exact either

theorem obey_tool (name : String) (args : List Value) :
    Obey env (tool? env name args) (tool? (env.isolated z) name args) := by
  have called (input : Value) : Obey env
      ((tool?.latest env name).map fun t => { run := Exec.callTool env t none input })
      ((tool?.latest env name).map fun t => { run := Exec.callTool (env.isolated z) t none input }) := by
    cases tool?.latest env name with
    | none => exact .none
    | some t => exact .some ⟨rfl, obeys_callTool _ _ _⟩
  unfold tool?
  split
  · exact called _
  · exact called _
  · exact .none

end HostCall

end ScriptAgent

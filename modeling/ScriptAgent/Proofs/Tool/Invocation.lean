import ScriptAgent.Tool.Bridge

/-!
# How a call of a tool goes

The bridge starts the tool's handler and watches it: time passes, and a call that runs long is told of.  Then the call
is given up, or its handler has returned and the call leaves the trace of its end.  `Bridge.invoke_goes` says this once
for whatever is proved about calls.
-/

namespace ScriptAgent

/-- A host while it watches calls. -/
inductive Host.Watches (h : Host) : Host → Prop
  | start : Watches h h
  | clock {k : Host} (before : Watches h k) (micros : Nat) : Watches h { k with micros }
  | slow {k : Host} (before : Watches h k) (now : Millis) (id tool : String) (object : Option String) (input : Json)
      (duration : Millis) : Watches h (k.trace (.toolSlow now id tool object input duration))

namespace Bridge

variable {h : Host} {slow : Millis} {deadline : Option Nat} {t : Tool} {r : ToolRequest}

/-- The identifier of the next call. -/
def nextId (h : Host) : String :=
  (h.freshId "tcall").1

/-- The host when a call has begun. -/
def begun (h : Host) (t : Tool) : Host :=
  (h.freshId "tcall").2.countCall t.key

/-- The run of the tool's handler that a call starts. -/
def handlerRun (h : Host) (t : Tool) (r : ToolRequest) : ToolRun :=
  t.handler r.input ⟨nextId h, t.name, r.object⟩ ((h.freshId "tcall").2.callCount t.key)

/-- What a call returns, given what the handler does: a signal with the call that raised it. -/
def returned (t : Tool) (id : String) (r : ToolRequest) : ToolOutcome → ToolOutcome
  | .signal s => .signal (attachCall s t id r)
  | o => o

/-- The host with the trace of a call that ended, and of the signal that the call raised. -/
def told (h : Host) (line : Option Nat) (call : ToolCallTrace) : ToolOutcome → Host
  | .signal s => (h.trace (.toolCall call)).trace (.signal h.millis line s)
  | _ => h.trace (.toolCall call)

/-- How a call goes, with what the bridge says of it and the host it leaves. -/
inductive Goes (h : Host) (deadline : Option Nat) (t : Tool) (r : ToolRequest) : Invocation → Host → Prop
  /-- The handler fired the abort latch. -/
  | aborted {k : Host} {reason : String} (watched : (begun h t).Watches k)
      (fires : (handlerRun h t r).fires = some reason) :
      Goes h deadline t r (.aborted ((k.abort.fire reason).reason.getD reason)) { k with abort := k.abort.fire reason }
  /-- The handler did not return, or not before the deadline. -/
  | timedOut {k : Host} (watched : (begun h t).Watches k) (unfired : (handlerRun h t r).fires = none)
      (late : (handlerRun h t r).outcome.isSome → ∃ d, deadline = some d ∧
        (handlerRun h t r).duration ≠ 0 ∧ d - h.micros ≤ (handlerRun h t r).duration * 1000) :
      Goes h deadline t r .timedOut k
  /-- The handler returned in time. -/
  | ended {k k' : Host} {o : ToolOutcome} (watched : (begun h t).Watches k) (unfired : (handlerRun h t r).fires = none)
      (outcome : (handlerRun h t r).outcome = some o)
      (timely : ∀ d, deadline = some d →
        (handlerRun h t r).duration = 0 ∨ (handlerRun h t r).duration * 1000 < d - h.micros)
      (left : k' = told k r.line (callTrace t (nextId h) r (begun h t).millis k.millis (returned t (nextId h) r o))
        (returned t (nextId h) r o)) :
      Goes h deadline t r (.ended (returned t (nextId h) r o)) k'

theorem invoke_goes {h' : Host} {invocation : Invocation} (hi : invoke h slow deadline t r = (invocation, h')) :
    Goes h deadline t r invocation h' := by
  suffices goes : Goes h deadline t r (invoke h slow deadline t r).1 (invoke h slow deadline t r).2 by
    rwa [hi] at goes
  clear hi
  unfold invoke
  dsimp -zeta only [Host.freshId]
  extract_lets run counted started micros left watched late slowed waited
  have hslowed : (begun h t).Watches slowed := by
    by_cases hl : late = true
    · simp only [slowed, hl, if_true]
      exact (Host.Watches.start.clock _).slow _ _ _ _ _ _
    · simp only [slowed, hl]
      exact .start
  have hwaited : (begun h t).Watches waited := hslowed.clock _
  have hrun : handlerRun h t r = run := rfl
  have hlate : (deadline.isSome && decide (micros ≥ left) && decide (micros > 0)) = true ↔
      ∃ d, deadline = some d ∧ run.duration ≠ 0 ∧ d - h.micros ≤ run.duration * 1000 := by
    have arith (d n : Nat) : n ≤ d * 1000 ∧ 0 < d * 1000 ↔ d ≠ 0 ∧ n ≤ d * 1000 := by omega
    cases deadline with
    | none => simp
    | some d =>
      simp only [Option.isSome_some, Bool.true_and, Bool.and_eq_true, decide_eq_true_eq, Option.some.injEq,
        exists_eq_left']
      exact arith run.duration (d - h.micros)
  clear_value waited
  split
  · next reason outcome hfires => exact .aborted hwaited (hrun ▸ hfires)
  · next hfires houtcome => exact .timedOut hwaited (hrun ▸ hfires) (by simp [hrun, houtcome])
  · next outcome hfires houtcome =>
    split
    · next h => exact .timedOut hwaited (hrun ▸ hfires) fun _ => hlate.mp h
    · next h =>
      have timely (d : Nat) (hd : deadline = some d) : run.duration = 0 ∨ run.duration * 1000 < d - counted.micros := by
        rcases Nat.eq_zero_or_pos run.duration with hzero | hpos
        · exact .inl hzero
        · exact .inr (Nat.lt_of_not_le fun hle => h (hlate.mpr ⟨d, hd, Nat.ne_of_gt hpos, hle⟩))
      have ended := Goes.ended hwaited (hrun ▸ hfires) (hrun ▸ houtcome) timely rfl
      cases outcome <;> exact ended

end Bridge

end ScriptAgent

import Mathlib.Data.List.Nodup
import ScriptAgent.Proofs.Sandbox.ExchangeCalls

/-!
# No call is stranded

What worker and driver come to: a script is terminated only once the driver has left its loop, the traces that
were stored are those that the listener was told of, and no worker waits for a reply that nobody can give.
-/

namespace ScriptAgent

namespace Exchange

variable {j : Job} {x x' : Exchange} {n : Nat}

/-! ### The end -/

/-- What the driver ends on: a script is terminated only for a driver that has left its loop, and an aborted
execution tells the reason in the latch. -/
structure Founded (j : Job) (latch : AbortLatch) (x : Exchange) : Prop where
  latch : x.host.abort = latch.fireAll x.given
  terminated : x.worker.IsTerminated → x.driver.isInLoop = false
  cut : ∀ reason, x.driver.cut? = some (.aborted reason) → x.host.abort.reason = some reason
  aborted : ∀ e reason, x.driver.execution? = some e → e.outcome = .failed (.aborted reason) →
    x.host.abort.reason = some reason
  /-- Inline, the script is over before its end is told. -/
  ended : j.backend = .inline → x.driver.execution?.isSome = true → ∃ rep, x.worker = .reported rep

namespace Founded

variable {latch : AbortLatch}

theorem worker (h : Founded j latch x) (hb : Booked x) (step : WorkerStep x x') : Founded j latch x' := by
  -- who has reported takes no step any more
  have ended {w : Worker} (w' : Worker) (hw : x.worker = w) (hn : w.report? = none) (hi : j.backend = .inline)
      (he : x.driver.execution?.isSome = true) : ∃ rep, w' = .reported rep := by
    obtain ⟨rep, hrep⟩ := h.ended hi he
    rw [← hw, hrep] at hn
    cases hn
  cases step with
  | tell t running => exact ⟨h.latch, nofun, h.cut, h.aborted, ended _ running rfl⟩
  | store tracing => exact ⟨h.latch, nofun, h.cut, h.aborted, ended _ tracing rfl⟩
  | send r running => exact ⟨h.latch, nofun, h.cut, h.aborted, ended _ running rfl⟩
  | refused running deaf =>
    refine ⟨h.latch, fun _ => ?_, h.cut, h.aborted, ended _ running rfl⟩
    exact Driver.left_of_deaf deaf
  | receive parked => exact ⟨h.latch, nofun, h.cut, h.aborted, ended _ parked rfl⟩
  | released parked dropped =>
    exact ⟨h.latch, fun _ => hb.lost _ _ _ dropped rfl, h.cut, h.aborted, ended _ parked rfl⟩
  | finish rep running own =>
    exact ⟨h.latch, fun ht => absurd ht own, h.cut, h.aborted, ended _ running rfl⟩
  | stop rep running killed =>
    exact ⟨h.latch, fun _ => Driver.left_of_killing killed, h.cut, h.aborted, ended _ running rfl⟩
  | unwind rep unwinding =>
    refine ⟨h.latch, fun _ => h.terminated ?_, h.cut, h.aborted, ended _ unwinding rfl⟩
    rw [unwinding]
    trivial

/-- The driver stays in its loop, where it meets no terminated script. -/
theorem inLoop (h : Founded j latch x) (before : x.driver.isInLoop = true) (after : x'.driver.isInLoop = true)
    (worker : x'.worker = x.worker) (abort : x'.host.abort = x.host.abort) (given : x'.given = x.given) :
    Founded j latch x' := by
  have hcut : x'.driver.cut? = none := by revert after; cases x'.driver <;> simp [Driver.isInLoop, Driver.cut?]
  have hexecution : x'.driver.execution? = none := by
    revert after
    cases x'.driver <;> simp [Driver.isInLoop, Driver.execution?]
  refine ⟨abort.trans (given ▸ h.latch), fun ht => ?_, fun _ hr => ?_, fun _ _ he => ?_, fun _ he => ?_⟩
  · cases before.symm.trans (h.terminated (worker ▸ ht))
  · cases hcut.symm.trans hr
  · cases hexecution.symm.trans he
  · rw [hexecution] at he
    cases he

/-- Out of its loop, the driver goes on with what it ends on. -/
theorem onward (h : Founded j latch x) (left : x'.driver.isInLoop = false) (cut : x'.driver.cut? = x.driver.cut?)
    (execution : x'.driver.execution? = x.driver.execution?) (worker : x'.worker = x.worker)
    (abort : x'.host.abort = x.host.abort) (given : x'.given = x.given) : Founded j latch x' := by
  refine ⟨abort.trans (given ▸ h.latch), fun _ => left, ?_, ?_, ?_⟩
  · rw [cut, abort]
    exact h.cut
  · rw [execution, abort]
    exact h.aborted
  · rw [execution, worker]
    exact h.ended

theorem driver (h : Founded j latch x) (step : DriverStep j x x') : Founded j latch x' := by
  cases step with
  | take waiting => exact h.inLoop (waiting ▸ rfl) rfl rfl rfl rfl
  | start deadline serving => exact h.inLoop (serving ▸ rfl) rfl rfl rfl rfl
  | tell t serving => exact h.inLoop (serving ▸ rfl) rfl rfl rfl rfl
  | store serving => exact h.inLoop (serving ▸ rfl) rfl rfl rfl rfl
  | reply serving => exact h.inLoop (serving ▸ rfl) rfl rfl rfl rfl
  | acknowledge serving => exact h.inLoop (serving ▸ rfl) rfl rfl rfl rfl
  | @collect rep started lines waiting reported =>
    refine ⟨h.latch, fun _ => rfl, fun _ => (nomatch ·), fun e reason he ho => ?_, fun _ _ => ⟨rep, reported⟩⟩
    cases he
    refine absurd ho (Job.outcomeOf_unaborted (fun ht => ?_) j reason)
    have left := h.terminated (by rw [reported]; exact ht)
    rw [waiting] at left
    cases left
  | expire ready => exact ⟨h.latch, fun _ => rfl, fun _ => (nomatch ·), fun _ _ => (nomatch ·), fun _ => (nomatch ·)⟩
  | abort ready fired =>
    refine ⟨h.latch, fun _ => rfl, fun reason hr => ?_, fun _ _ => (nomatch ·), fun _ => (nomatch ·)⟩
    cases hr
    exact fired
  | kill leaving => exact h.onward rfl (leaving ▸ rfl) (leaving ▸ rfl) rfl rfl rfl
  | drop stopping => exact h.onward rfl (stopping ▸ rfl) (stopping ▸ rfl) rfl rfl rfl
  | @conclude why rep started lines awaiting awaited =>
    refine ⟨h.latch, fun _ => rfl, fun _ => (nomatch ·), fun e reason he ho => h.cut reason ?_,
      fun hi _ => ⟨rep, awaited hi⟩⟩
    cases he
    rw [awaiting]
    cases why with
    | timedOut => cases ho
    | aborted =>
      cases ho
      rfl
  | closeTell closing => exact h.onward rfl (closing ▸ rfl) (closing ▸ rfl) rfl rfl rfl
  | closeStore closing => exact h.onward rfl (closing ▸ rfl) (closing ▸ rfl) rfl rfl rfl
  | finish closing => exact h.onward rfl (closing ▸ rfl) (closing ▸ rfl) rfl rfl rfl

theorem step (h : Founded j latch x) (hb : Booked x) (step : Step j x x') : Founded j latch x' := by
  cases step with
  | worker step => exact h.worker hb step
  | driver step => exact h.driver step
  | outside step =>
    cases step with
    | clock micros => exact ⟨h.latch, h.terminated, h.cut, h.aborted, h.ended⟩
    | fire reason =>
      have kept {first : String} (hf : x.host.abort.reason = some first) :
          (x.host.abort.fire reason).reason = some first := by
        rw [AbortLatch.fire_of_isFired _ _ (by rw [AbortLatch.isFired, hf]; rfl), hf]
      refine ⟨?_, h.terminated, fun r hr => kept (h.cut r hr), fun e r he ho => kept (h.aborted e r he ho), h.ended⟩
      show x.host.abort.fire reason = _
      rw [h.latch, AbortLatch.fireAll_append]
      rfl

end Founded

/-! ### The listener -/

/-- What is stored, with the trace that is told of and not stored yet, is what the listener was told. -/
def Heard (before : List Trace) (x : Exchange) : Prop :=
  x.host.traces ++ x.worker.told.toList ++ x.driver.told.toList = before ++ x.heard

/-- While the script runs inline, the driver leaves no trace. -/
theorem silent_of_running {latch : AbortLatch} (hx : Meets x) (hf : Founded j latch x) (inline : j.backend = .inline)
    (parked : x.worker.call? = none) (unreported : x.worker.report? = none) : x.driver.told = none := by
  rcases hd : x.driver with _ | ⟨n, handler, told⟩ | _ | _ | _ | ⟨e, rest, told⟩ | _
  case serving =>
    rw [(hx.of_serving hd).1] at parked
    cases parked
  case closing =>
    obtain ⟨rep, hrep⟩ := hf.ended inline (hd ▸ rfl)
    rw [hrep] at unreported
    cases unreported
  all_goals rfl

/-- While the driver leaves a trace, the script does not run inline. -/
theorem silent_of_telling {latch : AbortLatch} (hx : Meets x) (hf : Founded j latch x) (inline : j.backend = .inline)
    (telling : x.driver.isServing = true ∨ x.driver.execution?.isSome = true) : x.worker.told = none := by
  rcases telling with serving | closing
  · obtain ⟨n, handler, told, hd⟩ : ∃ n handler told, x.driver = .serving n handler told := by
      rcases hd : x.driver with _ | ⟨n, handler, told⟩ | _ | _ | _ | _ | _
      case serving => exact ⟨n, handler, told, rfl⟩
      all_goals
        rw [hd] at serving
        cases serving
    rw [(hx.of_serving hd).1]
    rfl
  · obtain ⟨rep, hrep⟩ := hf.ended inline closing
    rw [hrep]
    rfl

namespace Heard

variable {latch : AbortLatch} {before : List Trace}

/-- Nothing is told of. -/
theorem still (h : Heard before x) (worker : x'.worker.told = x.worker.told) (driver : x'.driver.told = x.driver.told)
    (traces : x'.host.traces = x.host.traces) (heard : x'.heard = x.heard) : Heard before x' := by
  unfold Heard at *
  rw [worker, driver, traces, heard]
  exact h

theorem worker (h : Heard before x) (hx : Meets x) (hf : Founded j latch x) (inline : j.backend = .inline)
    (step : WorkerStep x x') : Heard before x' := by
  cases step with
  | tell t running =>
    have silent := silent_of_running hx hf inline (running ▸ rfl) (running ▸ rfl)
    unfold Heard at *
    rw [running, silent] at h
    simp only [Worker.told, silent, Option.toList_some, Option.toList_none, List.append_nil] at h ⊢
    rw [h, List.append_assoc]
  | @store t tracing =>
    unfold Heard at *
    rw [tracing] at h
    simpa only [Worker.told, Option.toList_some, Option.toList_none, List.append_nil, Host.trace] using h
  | send r running => exact h.still (running ▸ rfl) rfl rfl rfl
  | refused running => exact h.still (running ▸ rfl) rfl rfl rfl
  | receive parked => exact h.still (parked ▸ rfl) rfl rfl rfl
  | released parked => exact h.still (parked ▸ rfl) rfl rfl rfl
  | finish rep running => exact h.still (running ▸ rfl) rfl rfl rfl
  | stop rep running => exact h.still (running ▸ rfl) rfl rfl rfl
  | unwind rep unwinding => exact h.still (unwinding ▸ rfl) rfl rfl rfl

/-- The driver tells the listener of a trace while the script does not run. -/
theorem told {d : Driver} {t : Trace} (h : Heard before x) (silent : x.worker.told = none) (old : x.driver.told = none)
    (new : d.told = some t) : Heard before { x with driver := d, heard := x.heard ++ [t] } := by
  unfold Heard at *
  rw [silent, old] at h
  simp only [silent, new, Option.toList_some, Option.toList_none, List.append_nil] at h ⊢
  rw [h, List.append_assoc]

/-- The driver stores the trace that it told of, while the script does not run. -/
theorem stored {d : Driver} {t : Trace} (h : Heard before x) (silent : x.worker.told = none)
    (old : x.driver.told = some t) (new : d.told = none) :
    Heard before { x with driver := d, host := x.host.trace t } := by
  unfold Heard at *
  rw [silent, old] at h
  simpa only [silent, new, Option.toList_some, Option.toList_none, List.append_nil, Host.trace] using h

theorem driver (h : Heard before x) (hx : Meets x) (hf : Founded j latch x) (inline : j.backend = .inline)
    (step : DriverStep j x x') : Heard before x' := by
  have leave (ready : x.driver.isReady = true) (why : Cut) : Heard before (x.leave why) := by
    refine h.still rfl ?_ rfl rfl
    rcases hd : x.driver with _ | ⟨n, handler, _ | t⟩ | _ | _ | _ | _ | _ <;> rw [hd] at ready <;>
      first | rfl | cases ready
  cases step with
  | take waiting => exact h.still rfl (waiting ▸ rfl) rfl rfl
  | start deadline serving => exact h.still rfl (serving ▸ rfl) rfl rfl
  | tell t serving =>
    exact h.told (silent_of_telling hx hf inline (.inl (serving ▸ rfl))) (serving ▸ rfl) rfl
  | store serving =>
    exact h.stored (silent_of_telling hx hf inline (.inl (serving ▸ rfl))) (serving ▸ rfl) rfl
  | reply serving => exact h.still rfl (serving ▸ rfl) rfl rfl
  | acknowledge serving => exact h.still rfl (serving ▸ rfl) rfl rfl
  | collect started lines waiting => exact h.still rfl (waiting ▸ rfl) rfl rfl
  | expire ready => exact leave ready _
  | abort ready => exact leave ready _
  | kill leaving => exact h.still rfl (leaving ▸ rfl) rfl rfl
  | drop stopping => exact h.still rfl (stopping ▸ rfl) rfl rfl
  | conclude rep started lines awaiting => exact h.still rfl (awaiting ▸ rfl) rfl rfl
  | closeTell closing =>
    exact h.told (silent_of_telling hx hf inline (.inr (closing ▸ rfl))) (closing ▸ rfl) rfl
  | closeStore closing =>
    exact h.stored (silent_of_telling hx hf inline (.inr (closing ▸ rfl))) (closing ▸ rfl) rfl
  | finish closing => exact h.still rfl (closing ▸ rfl) rfl rfl

theorem step (h : Heard before x) (hx : Meets x) (hf : Founded j latch x) (inline : j.backend = .inline)
    (step : Step j x x') : Heard before x' := by
  cases step with
  | worker step => exact h.worker hx hf inline step
  | driver step => exact h.driver hx hf inline step
  | outside step => cases step <;> exact h.still rfl rfl rfl rfl

end Heard

/-! ### Every order of steps -/

/-- What holds wherever worker and driver get to. -/
structure Kept (j : Job) (host : Host) (x : Exchange) : Prop where
  meets : Meets x
  booked : Booked x
  founded : Founded j host.abort x
  heard : j.backend = .inline → Heard host.traces x

theorem Kept.step {host : Host} (h : Kept j host x) (step : Step j x x') : Kept j host x' :=
  ⟨h.meets.step step, h.booked.step h.meets step, h.founded.step h.booked step,
    fun inline => (h.heard inline).step h.meets h.founded inline step⟩

theorem Kept.start (j : Job) (host : Host) : Kept j host { host } where
  meets := .apart rfl (fun m ⟨_, _, hcall, _⟩ => nomatch hcall) rfl rfl
  booked := ⟨.nil, fun _ _ => (nomatch ·), fun _ _ _ => (nomatch ·), fun _ _ _ _ => (nomatch ·),
    fun _ _ _ => (nomatch ·), fun _ _ => (nomatch ·), fun _ _ => (nomatch ·)⟩
  founded := ⟨rfl, (·.elim), fun _ => (nomatch ·), fun _ _ => (nomatch ·), fun _ => (nomatch ·)⟩
  heard _ := by simp [Heard, Worker.told, Driver.told]

theorem Kept.reaches {host : Host} (h : Kept j host x) (steps : Reaches j x x') : Kept j host x' :=
  steps.invariant (fun _ _ => Kept.step) h

/-! ### A driver that has left -/

/-- What a driver out of its loop still does: nothing about calls but to drop those in the queue. -/
theorem DriverStep.of_left (h : DriverStep j x x') (left : x.driver.isInLoop = false) :
    x'.driver.isInLoop = false ∧ x'.started = x.started ∧ x'.worker = x.worker ∧
      (x'.calls = x.calls ∨ x'.calls = settle x.queue .dropped x.calls) := by
  have busy {d : Driver} (hd : x.driver = d) (hin : d.isInLoop = true) : False := by
    rw [hd, hin] at left
    cases left
  have unready (ready : x.driver.isReady = true) : False := busy rfl (Driver.inLoop_of_ready ready)
  cases h with
  | take waiting => exact (busy waiting rfl).elim
  | start deadline serving => exact (busy serving rfl).elim
  | tell t serving => exact (busy serving rfl).elim
  | store serving => exact (busy serving rfl).elim
  | reply serving => exact (busy serving rfl).elim
  | acknowledge serving => exact (busy serving rfl).elim
  | collect started lines waiting => exact (busy waiting rfl).elim
  | expire ready => exact (unready ready).elim
  | abort ready => exact (unready ready).elim
  | drop => exact ⟨rfl, rfl, rfl, .inr rfl⟩
  | kill | conclude | closeTell | closeStore | finish => exact ⟨rfl, rfl, rfl, .inl rfl⟩

/-- A driver that has left its loop does not go back, and starts no handler any more. -/
theorem Reaches.started_of_left (left : x.driver.isInLoop = false) (steps : Reaches j x x') :
    x'.driver.isInLoop = false ∧ x'.started = x.started := by
  refine steps.invariant (P := fun y => y.driver.isInLoop = false ∧ y.started = x.started) ?_ ⟨left, rfl⟩
  rintro y y' ⟨hleft, hstarted⟩ step
  cases step with
  | worker step => cases step <;> exact ⟨hleft, hstarted⟩
  | driver step =>
    obtain ⟨hleft', hstarted', -⟩ := step.of_left hleft
    exact ⟨hleft', hstarted'.trans hstarted⟩
  | outside step => cases step <;> exact ⟨hleft, hstarted⟩

/-- The script waits for a reply that it does not get, or is terminated. -/
def Forlorn (x : Exchange) (n : Nat) : Prop :=
  (x.worker = .parked n ∧ ∀ r a, x.calls[n]? ≠ some (r, .replied a)) ∨ x.worker.IsTerminated

theorem Forlorn.worker (h : Forlorn x n) (step : WorkerStep x x') : Forlorn x' n := by
  rcases h with ⟨parked, unreplied⟩ | terminated
  · cases step with
    | receive parked' replied =>
      obtain rfl := Worker.parked.inj (parked.symm.trans parked')
      exact absurd replied (unreplied _ _)
    | released => exact .inr trivial
    | tell _ h | store h | send _ h | refused h | finish _ h | stop _ h | unwind _ h => cases parked.symm.trans h
  · cases step with
    | unwind rep _ terminated' => exact .inr terminated'
    | tell _ h | store h | send _ h | refused h | finish _ h | stop _ h | receive h | released h =>
      rw [h] at terminated
      exact terminated.elim

/-- Once the driver is out of its loop, the script neither gets a reply nor goes on. -/
theorem Reaches.forlorn (left : x.driver.isInLoop = false) (h : Forlorn x n) (steps : Reaches j x x') :
    Forlorn x' n := by
  refine (steps.invariant (P := fun y => y.driver.isInLoop = false ∧ Forlorn y n) ?_ ⟨left, h⟩).2
  rintro y y' ⟨hleft, hy⟩ step
  cases step with
  | worker step => exact ⟨by cases step <;> exact hleft, hy.worker step⟩
  | driver step =>
    obtain ⟨hleft', -, hworker, hcalls⟩ := step.of_left hleft
    refine ⟨hleft', ?_⟩
    rcases hy with ⟨parked, unreplied⟩ | terminated
    · refine .inl ⟨hworker.trans parked, fun r a hcall => ?_⟩
      rcases hcalls with hcalls | hcalls <;> rw [hcalls] at hcall
      · exact unreplied r a hcall
      · rcases settle_cases hcall with ⟨-, hch, -⟩ | ⟨-, hcall⟩
        · cases hch
        · exact unreplied r a hcall
    · exact .inr (hworker ▸ terminated)
  | outside step => cases step <;> exact ⟨hleft, hy⟩

/-- A driver that stops the script goes on by itself to where no call can be sent. -/
theorem exists_awaiting {why : Cut} (h : x.driver.cut? = some why) :
    ∃ y, Relation.ReflTransGen (DriverStep j) x y ∧ y.driver = .awaiting why := by
  rcases hd : x.driver with _ | _ | why' | why' | why' | _ | _ <;> rw [hd] at h <;> cases h
  · exact ⟨_, .tail (.single (.kill hd)) (.drop rfl), rfl⟩
  · exact ⟨_, .single (.drop hd), rfl⟩
  · exact ⟨x, .refl, hd⟩

/-- When no call can be sent any more, no channel is open. -/
theorem Meets.settled_of_deaf (h : Meets x) (deaf : x.driver.isDeaf = true) (n : Nat) (r : HostRequest) :
    x.calls[n]? ≠ some (r, .unsettled) := by
  intro hcall
  cases h with
  | apart _ none => exact none n ⟨r, _, hcall, rfl⟩
  | parked _ call only place =>
    obtain rfl := only n ⟨r, _, hcall, rfl⟩
    obtain ⟨-, rfl⟩ := Prod.mk.inj (Option.some.inj (call.symm.trans hcall))
    cases place with
    | queued _ _ heard => cases deaf.symm.trans heard
    | served _ serving =>
      rw [serving] at deaf
      cases deaf

/-- When no call can be sent any more, the script comes to its report by itself: it does not wait for the driver. -/
theorem Meets.exists_reported (h : Meets x) (deaf : x.driver.isDeaf = true) (j : Job) :
    ∃ y rep, Relation.ReflTransGen WorkerStep x y ∧ y.worker = .reported rep ∧ y.driver = x.driver := by
  let rep : Report := { ending := .failed ⟨.aborted, "", none, none⟩, machine := j.machine x.host }
  have terminated : rep.IsTerminated := ⟨_, rfl, rfl⟩
  have killed : x.driver.isKilling = true := Driver.killing_of_deaf deaf
  rcases hw : x.worker with _ | t | n | _ | rep'
  · exact ⟨_, rep, .single (.stop rep hw killed terminated), rfl, rfl⟩
  · exact ⟨_, rep, .tail (.single (.store hw)) (.stop rep rfl killed terminated), rfl, rfl⟩
  · obtain ⟨r, ch, call, -, place⟩ := h.of_parked hw
    cases place with
    | queued => exact absurd call (h.settled_of_deaf deaf n r)
    | served => exact absurd call (h.settled_of_deaf deaf n r)
    | replied a => exact ⟨_, rep, .tail (.single (.receive hw call)) (.stop rep rfl killed terminated), rfl, rfl⟩
    | dropped => exact ⟨_, rep, .tail (.single (.released hw call)) (.unwind rep rfl terminated), rfl, rfl⟩
  · exact ⟨_, rep, .single (.unwind rep hw terminated), rfl, rfl⟩
  · exact ⟨x, rep', .refl, hw, rfl⟩

/-- The traces of the end are left one after the other. -/
theorem exists_done {e : Execution} {rest : List Trace} (h : x.driver = .closing e rest none) :
    ∃ y, Reaches j x y ∧ y.driver = .done e := by
  induction rest generalizing x with
  | nil => exact ⟨_, .single (.driver (.finish h)), rfl⟩
  | cons t rest ih =>
    obtain ⟨y, steps, hy⟩ := ih (x := { x with
      driver := .closing e rest none, heard := x.heard ++ [t], host := x.host.trace t }) rfl
    exact ⟨y, .head (.driver (.closeTell h)) (.head (.driver (.closeStore rfl)) steps), hy⟩

/-- A driver that waits for a report that is there comes to the end. -/
theorem Kept.exists_done_of_deaf {host : Host} (h : Kept j host x) (deaf : x.driver.isDeaf = true) :
    ∃ y e, Reaches j x y ∧ y.driver = .done e := by
  obtain ⟨x₁, rep, steps, hrep, hd⟩ := h.meets.exists_reported deaf j
  have steps : Reaches j x x₁ := steps.lift id fun _ _ => .worker
  rcases hd₁ : x₁.driver with _ | _ | _ | _ | why | ⟨e, rest, _ | t⟩ | e
  case awaiting =>
    obtain ⟨y, more, hy⟩ := exists_done (j := j) (x := { x₁ with
      driver := .closing (rep.execution (why.outcome j) (if j.backend = .inline then rep.variables else []))
        (Execution.endTraces (why.outcome j) 0 x₁.host.millis 0) none }) rfl
    exact ⟨y, _, steps.trans (.head (.driver (.conclude rep 0 0 hd₁ fun _ => hrep)) more), hy⟩
  case closing.none =>
    obtain ⟨y, more, hy⟩ := exists_done (j := j) hd₁
    exact ⟨y, e, steps.trans more, hy⟩
  case closing.some =>
    obtain ⟨y, more, hy⟩ := exists_done (j := j) (x := { x₁ with
      driver := .closing e rest none, host := x₁.host.trace t }) rfl
    exact ⟨y, e, steps.trans (.head (.driver (.closeStore hd₁)) more), hy⟩
  case done => exact ⟨x₁, e, steps, hd₁⟩
  all_goals
    rw [← hd, hd₁] at deaf
    cases deaf

/-- Wherever worker and driver are, they can come to the end. -/
theorem Kept.exists_done {host : Host} (h : Kept j host x) : ∃ y e, Reaches j x y ∧ y.driver = .done e := by
  have cut {x : Exchange} (why : Cut) (h : Kept j host x) (hcut : x.driver.cut? = some why) :
      ∃ y e, Reaches j x y ∧ y.driver = .done e := by
    obtain ⟨x₁, steps, hd⟩ := exists_awaiting (j := j) hcut
    have steps : Reaches j x x₁ := steps.lift id fun _ _ => .driver
    obtain ⟨y, e, more, hy⟩ := (h.reaches steps).exists_done_of_deaf (hd ▸ rfl)
    exact ⟨y, e, steps.trans more, hy⟩
  have ready {x : Exchange} (h : Kept j host x) (hready : x.driver.isReady = true) :
      ∃ y e, Reaches j x y ∧ y.driver = .done e := by
    have step : Step j x (x.leave .timedOut) := .driver (.expire hready)
    obtain ⟨y, e, more, hy⟩ := cut .timedOut (h.step step) rfl
    exact ⟨y, e, .head step more, hy⟩
  rcases hd : x.driver with _ | ⟨n, handler, _ | t⟩ | _ | _ | _ | _ | _
  case waiting => exact ready h (hd ▸ rfl)
  case serving.none => exact ready h (hd ▸ rfl)
  case serving.some =>
    have step : Step j x _ := .driver (.store hd)
    obtain ⟨y, e, more, hy⟩ := ready (h.step step) rfl
    exact ⟨y, e, .head step more, hy⟩
  case leaving why | stopping why => exact cut why h (by rw [hd]; rfl)
  case awaiting | closing | done => exact h.exists_done_of_deaf (hd ▸ rfl)

/-! ### All of it -/

/-- What the calls of a script come to. -/
structure Orderly (j : Job) (x : Exchange) : Prop where
  /-- At most one call is outstanding: that for which the worker is parked. -/
  outstanding : ∀ n, Outstanding x.calls n ↔ x.worker = .parked n
  /-- No call has two handlers. -/
  nodup : (x.started.map (·.1)).Nodup
  /-- A handler is started for the call that asks for it.  It runs while the call's channel is open, and if there
  is a reply then that is its answer; it is lost only with the driver's loop. -/
  handled : ∀ n c, (n, c) ∈ x.started → ∃ ch, x.calls[n]? = some (.tool c.tool c.request, ch) ∧
    (ch = .unsettled → x.driver.service? = some (n, some c)) ∧ (∀ a, ch.answer? = some a → c.answer = some a) ∧
    (ch.isLost = true → x.driver.isInLoop = false)
  /-- There is no reply without its handler, but to a value that was given out. -/
  replied : ∀ (n : Nat) r ch a, x.calls[n]? = some (r, ch) → ch.answer? = some a → Answers x.started n r a
  /-- Out of its loop, the driver starts no handler any more. -/
  starts : x.driver.isInLoop = false → ∀ y, Reaches j x y → y.started = x.started
  /-- By itself it goes on to where no call can be sent any more. -/
  leaves : ∀ why, x.driver.cut? = some why →
    ∃ y, Relation.ReflTransGen (DriverStep j) x y ∧ y.driver = .awaiting why
  /-- There no channel is open, and the script comes to its report by itself. -/
  unblocked : x.driver.isDeaf = true → (∀ (n : Nat) r, x.calls[n]? ≠ some (r, .unsettled)) ∧
    ∃ y rep, Relation.ReflTransGen WorkerStep x y ∧ y.worker = .reported rep
  /-- A worker that is parked without a reply when the driver is out of its loop gets none, and is terminated. -/
  released : ∀ n, x.driver.isInLoop = false → x.worker = .parked n →
    (∀ r a, x.calls[n]? ≠ some (r, .replied a)) → ∀ y, Reaches j x y → Forlorn y n
  /-- The two never stand in each other's way. -/
  ends : ∃ y e, Reaches j x y ∧ y.driver = .done e

theorem Kept.orderly {host : Host} (h : Kept j host x) : Orderly j x where
  outstanding n := by
    cases h.meets with
    | apart worker none =>
      refine ⟨fun ho => absurd ho (none n), fun hw => ?_⟩
      rw [hw] at worker
      cases worker
    | parked worker call only place =>
      refine ⟨fun ho => only n ho ▸ worker, fun hw => ?_⟩
      obtain rfl := Worker.parked.inj (worker.symm.trans hw)
      exact place.outstanding call
  nodup := h.booked.nodup
  handled n c hc := by
    obtain ⟨⟨r, ch⟩, hcall, rfl⟩ := Option.map_eq_some_iff.mp (h.booked.asked n c hc)
    refine ⟨ch, hcall, fun ho => h.booked.runs n c _ hc (ho ▸ hcall), fun a ha => ?_, h.booked.lost n _ ch hcall⟩
    rcases h.booked.answered n _ ch a hcall ha with ⟨v, hv, -⟩ | ⟨c', hc', hanswer⟩
    · cases hv
    · -- the call has no other handler
      obtain ⟨-, rfl⟩ := Prod.mk.inj (List.inj_on_of_nodup_map h.booked.nodup hc hc' rfl)
      exact hanswer
  replied := h.booked.answered
  starts left y steps := (steps.started_of_left left).2
  leaves _ := exists_awaiting
  unblocked deaf := by
    obtain ⟨y, rep, steps, hrep, -⟩ := h.meets.exists_reported deaf j
    exact ⟨h.meets.settled_of_deaf deaf, y, rep, steps, hrep⟩
  released n left parked unreplied y steps := steps.forlorn left (.inl ⟨parked, unreplied⟩)
  ends := h.exists_done

end Exchange

end ScriptAgent

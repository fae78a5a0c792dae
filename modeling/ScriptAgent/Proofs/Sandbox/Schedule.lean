import ScriptAgent.Proofs.Sandbox.ExchangeOrder

/-!
# An execution is one order of steps

An execution goes through its worker's and its driver's steps in one order: a deed of the script is what the
worker does, or a call that the driver services while the worker is parked.  So what holds of every order of steps
holds of the execution.
-/

namespace ScriptAgent

/-- Why a call is given up when the driver leaves its loop. -/
def Cut.halt : Cut → Halt
  | timedOut => .timedOut
  | aborted reason => .aborted reason

theorem Host.heard_trace {h : Host} {before heard : List Trace} (ht : h.traces = before ++ heard) (t : Trace) :
    (h.trace t).traces = before ++ (heard ++ [t]) := by
  rw [Host.trace, ht, List.append_assoc]

namespace Exchange

variable {j : Job} {x x' : Exchange} {P Q : Exchange → Prop} {h h' : Host} {cs : List Started} {n : Nat}
  {r : HostRequest} {handler : Option Started} {before : List Trace}

/-- There are steps that lead to what is asked for. -/
def Leads (j : Job) (P : Exchange → Prop) (x : Exchange) : Prop :=
  ∃ y, Reaches j x y ∧ P y

namespace Leads

theorem here (h : P x) : Leads j P x :=
  ⟨x, .refl, h⟩

theorem step (first : Step j x x') (h : Leads j P x') : Leads j P x := by
  obtain ⟨y, steps, hy⟩ := h
  exact ⟨y, .head first steps, hy⟩

theorem bind (h : Leads j P x) (next : ∀ y, P y → Leads j Q y) : Leads j Q x := by
  obtain ⟨y, steps, hy⟩ := h
  obtain ⟨z, more, hz⟩ := next y hy
  exact ⟨z, steps.trans more, hz⟩

end Leads

/-! ### What deeds do -/

/-- The script runs, and the driver waits. -/
structure Runs (before : List Trace) (h : Host) (cs : List Started) (x : Exchange) : Prop where
  worker : x.worker = .running
  driver : x.driver = .waiting
  queue : x.queue = []
  host : x.host = h
  started : x.started.map (·.2) = cs
  heard : h.traces = before ++ x.heard

/-- The driver services the call for which the script waits. -/
structure Serves (before : List Trace) (n : Nat) (r : HostRequest) (handler : Option Started) (h : Host)
    (cs : List Started) (x : Exchange) : Prop where
  worker : x.worker = .parked n
  driver : x.driver = .serving n handler none
  queue : x.queue = []
  call : x.calls[n]? = some (r, .unsettled)
  host : x.host = h
  started : x.started.map (·.2) = cs
  heard : h.traces = before ++ x.heard

/-- The driver has left its loop with the call for which the script waits. -/
structure GivesUp (before : List Trace) (why : Cut) (h : Host) (cs : List Started) (x : Exchange) : Prop where
  worker : ∃ n r, x.worker = .parked n ∧ x.calls[n]? = some (r, .dropped)
  driver : x.driver = .leaving why
  queue : x.queue = []
  host : x.host = h
  started : x.started.map (·.2) = cs
  heard : h.traces = before ++ x.heard

namespace Runs

theorem clock (hx : Runs before h cs x) (micros : Nat) : Leads j (Runs before { h with micros } cs) x := by
  obtain ⟨worker, driver, queue, rfl, rfl, heard⟩ := hx
  exact .step (.outside (.clock micros)) (.here ⟨worker, driver, queue, rfl, rfl, heard⟩)

theorem trace (hx : Runs before h cs x) (t : Trace) : Leads j (Runs before (h.trace t) cs) x := by
  obtain ⟨worker, driver, queue, rfl, rfl, heard⟩ := hx
  exact .step (.worker (.tell t worker)) (.step (.worker (.store rfl))
    (.here ⟨rfl, driver, queue, rfl, rfl, Host.heard_trace heard t⟩))

/-- The worker sends a call, and the driver takes it up. -/
theorem call (hx : Runs before h cs x) (r : HostRequest) :
    Leads j (fun y => ∃ n, Serves before n r none h cs y) x := by
  obtain ⟨worker, driver, queue, rfl, rfl, heard⟩ := hx
  have sent : (x.calls ++ [(r, .unsettled)])[x.calls.length]? = some (r, .unsettled) := by simp
  have next : x.queue ++ [x.calls.length] = x.calls.length :: [] := by rw [queue, List.nil_append]
  exact .step (.worker (.send r worker (driver ▸ rfl))) (.step (.driver (.take driver next))
    (.here ⟨_, rfl, rfl, rfl, sent, rfl, rfl, heard⟩))

end Runs

namespace Serves

theorem clock (hx : Serves before n r handler h cs x) (micros : Nat) :
    Leads j (Serves before n r handler { h with micros } cs) x := by
  obtain ⟨worker, driver, queue, call, rfl, rfl, heard⟩ := hx
  exact .step (.outside (.clock micros)) (.here ⟨worker, driver, queue, call, rfl, rfl, heard⟩)

theorem fire (hx : Serves before n r handler h cs x) (reason : String) :
    Leads j (Serves before n r handler { h with abort := h.abort.fire reason } cs) x := by
  obtain ⟨worker, driver, queue, call, rfl, rfl, heard⟩ := hx
  exact .step (.outside (.fire reason)) (.here ⟨worker, driver, queue, call, rfl, rfl, heard⟩)

theorem trace (hx : Serves before n r handler h cs x) (t : Trace) :
    Leads j (Serves before n r handler (h.trace t) cs) x := by
  obtain ⟨worker, driver, queue, call, rfl, rfl, heard⟩ := hx
  exact .step (.driver (.tell t driver)) (.step (.driver (.store rfl))
    (.here ⟨worker, rfl, queue, call, rfl, rfl, Host.heard_trace heard t⟩))

theorem start {t : Tool} {r : ToolRequest} (hx : Serves before n (.tool t r) none h cs x) (deadline : Nat) :
    Leads j (Serves before n (.tool t r) (some (h.start t r deadline)) ((h.freshId "tcall").2.countCall t.key)
      (cs ++ [h.start t r deadline])) x := by
  obtain ⟨worker, driver, queue, call, rfl, rfl, heard⟩ := hx
  exact .step (.driver (.start deadline driver call)) (.here ⟨worker, rfl, queue, call, rfl, by simp, heard⟩)

/-- The reply is given and received, and the script runs on. -/
theorem settles {a : ToolOutcome} (hx : Serves before n r handler h cs x)
    (replied : Step j x { x with driver := .waiting, calls := settle [n] (.replied a) x.calls }) :
    Leads j (Runs before h cs) x := by
  obtain ⟨worker, driver, queue, call, rfl, rfl, heard⟩ := hx
  exact .step replied (.step (.worker (.receive worker (settle_self call))) (.here ⟨rfl, rfl, queue, rfl, rfl, heard⟩))

theorem reply {c : Started} {a : ToolOutcome} (hx : Serves before n r (some c) h cs x) (returned : c.answer = some a) :
    Leads j (Runs before h cs) x :=
  hx.settles (.driver (.reply hx.driver returned))

theorem acknowledge {v : Json} (hx : Serves before n (.yield v) none h cs x) : Leads j (Runs before h cs) x :=
  hx.settles (.driver (.acknowledge hx.driver hx.call))

/-- What the driver leaves of a call that it services. -/
theorem left (hx : Serves before n r handler h cs x) (why : Cut) : GivesUp before why h cs (x.leave why) := by
  obtain ⟨worker, driver, queue, call, rfl, rfl, heard⟩ := hx
  refine ⟨⟨n, r, worker, ?_⟩, rfl, queue, rfl, rfl, heard⟩
  rw [leave, driver]
  exact settle_self call

theorem watches {k : Host} (hx : Serves before n r handler h cs x) (hw : h.Watches k) :
    Leads j (Serves before n r handler k cs) x := by
  induction hw with
  | start => exact .here hx
  | clock _ micros ih => exact ih.bind fun _ hy => hy.clock micros
  | slow _ _ _ _ _ _ _ ih => exact ih.bind fun _ hy => hy.trace _

theorem told (hx : Serves before n r handler h cs x) (line : Option Nat) (call : ToolCallTrace) (o : ToolOutcome) :
    Leads j (Serves before n r handler (Bridge.told h line call o) cs) x := by
  cases o with
  | signal s => exact (hx.trace _).bind fun _ hy => hy.trace _
  | _ => exact hx.trace _

theorem expire (hx : Serves before n r handler h cs x) : Leads j (GivesUp before .timedOut h cs) x :=
  .step (.driver (.expire (hx.driver ▸ rfl))) (.here (hx.left _))

theorem abort {reason : String} (hx : Serves before n r handler h cs x) (fired : h.abort.reason = some reason) :
    Leads j (GivesUp before (.aborted reason) h cs) x :=
  .step (.driver (.abort (hx.driver ▸ rfl) (hx.host ▸ fired))) (.here (hx.left _))

end Serves

/-- What becomes of a script and a driver by deeds of which the last may be a call that is given up. -/
def Gets (before : List Trace) (g : Option Halt) (h : Host) (cs : List Started) (x : Exchange) : Prop :=
  g = none ∧ Runs before h cs x ∨ ∃ why : Cut, g = some why.halt ∧ GivesUp before why h cs x

/-- The driver services a call of a tool as the bridge does. -/
theorem Serves.invoke {slow : Millis} {deadline : Nat} {t : Tool} {r : ToolRequest} {invocation : Invocation}
    (hx : Serves before n (.tool t r) none h cs x) (hi : Bridge.invoke h slow (some deadline) t r = (invocation, h')) :
    Leads j (Gets before invocation.givenUp? h' (cs ++ [h.start t r deadline])) x := by
  refine (hx.start deadline).bind fun x hx => ?_
  cases Bridge.invoke_goes hi with
  | @aborted k reason watched fires =>
    have fired : (k.abort.fire reason).reason = some ((k.abort.fire reason).reason.getD reason) := by
      cases hr : k.abort.reason <;> simp [AbortLatch.fire, hr]
    refine (hx.watches watched).bind fun y hy => (hy.fire reason).bind fun z hz => ?_
    exact (hz.abort fired).bind fun _ hz => .here (.inr ⟨_, rfl, hz⟩)
  | timedOut watched =>
    refine (hx.watches watched).bind fun y hy => ?_
    exact hy.expire.bind fun _ hz => .here (.inr ⟨.timedOut, rfl, hz⟩)
  | @ended k _ o watched _ outcome _ left =>
    have answered : (h.start t r deadline).answer = some (Bridge.returned t (Bridge.nextId h) r o) := by
      have hrun : (h.start t r deadline).run.outcome = some o := outcome
      rw [Started.answer, hrun]
      cases o <;> rfl
    generalize Bridge.callTrace .. = call at left
    generalize Bridge.returned t (Bridge.nextId h) r o = a at left answered
    subst left
    refine (hx.watches watched).bind fun y hy => (hy.told r.line call a).bind fun z hz => ?_
    exact (hz.reply answered).bind fun _ hz => .here (.inl ⟨rfl, hz⟩)

/-- A deed is a number of steps. -/
theorem Runs.deed {env : Env} {d : Deed} {o o' : Outside} (hx : Runs before o.host cs x) (made : d.Makes env o o') :
    Leads j (Gets before (d.givenUp? env o) o'.host (cs ++ d.starts o)) x := by
  have still {h : Host} (hg : d.givenUp? env o = none) (hs : d.starts o = []) (hl : Leads j (Runs before h cs) x) :
      Leads j (Gets before (d.givenUp? env o) h (cs ++ d.starts o)) x := by
    rw [hg, hs, List.append_nil]
    exact hl.bind fun _ hy => .here (.inl ⟨rfl, hy⟩)
  cases d with
  | call t r deadline =>
    obtain ⟨invocation, host, hb, -, -, rfl⟩ := made
    rw [show Deed.givenUp? env o (.call t r deadline) = invocation.givenUp? from congrArg (fun r => r.1.givenUp?) hb]
    exact (hx.call _).bind fun _ ⟨_, hy⟩ => hy.invoke hb
  | giveOut v =>
    obtain rfl := made
    exact still rfl rfl ((hx.call (.yield v)).bind fun _ ⟨_, hy⟩ => (hy.trace _).bind fun _ hz => hz.acknowledge)
  | note t =>
    obtain ⟨-, rfl⟩ := made
    exact still rfl rfl (hx.trace _)
  | raise s =>
    obtain rfl := made
    exact still rfl rfl (hx.trace _)
  | write id key v =>
    obtain ⟨d, d', stored, -, -, rfl⟩ := made
    cases stored with
    | none => exact still rfl rfl (.here hx)
    | some w => exact still rfl rfl (hx.trace _)
  | record id key v =>
    obtain ⟨-, -, -, -, rfl⟩ := made
    exact still rfl rfl (.here hx)
  | _ =>
    obtain rfl := made
    exact still rfl rfl (.here hx)

/-- Deeds are a number of steps, and start the handlers that the steps start. -/
theorem Runs.course {env : Env} {ds : List Deed} {g : Option Halt} {o o' : Outside} (hx : Runs before o.host [] x)
    (hd : Course env o ds g o') : ∃ cs, Starts env o ds cs o' ∧ Leads j (Gets before g o'.host cs) x := by
  induction hd with
  | none => exact ⟨[], .none _, .here (.inl ⟨rfl, hx⟩)⟩
  | @next o₁ o₂ ds d _ unraised made ih =>
    obtain ⟨cs, hstarts, hl⟩ := ih
    refine ⟨_, hstarts.next unraised made, hl.bind fun y hy => ?_⟩
    rcases hy with ⟨-, hy⟩ | ⟨why, hg, -⟩
    · exact hy.deed made
    · cases hg

/-! ### The end -/

/-- What the driver comes to: its execution, and the host with the traces of the end, of which the listener was told. -/
structure Closes (before : List Trace) (e : Execution) (h : Host) (traces : List Trace) (cs : List Started)
    (x : Exchange) : Prop where
  driver : x.driver = .done e
  host : x.host = { h with traces := h.traces ++ traces }
  started : x.started.map (·.2) = cs
  heard : x.host.traces = before ++ x.heard

/-- The traces of the end are left one after the other. -/
theorem closes {e : Execution} {rest : List Trace} (closing : x.driver = .closing e rest none)
    (heard : x.host.traces = before ++ x.heard) :
    Leads j (Closes before e x.host rest (x.started.map (·.2))) x := by
  induction rest generalizing x with
  | nil => exact .step (.driver (.finish closing)) (.here ⟨rfl, by rw [List.append_nil], rfl, heard⟩)
  | cons t rest ih =>
    refine .step (.driver (.closeTell closing)) (.step (.driver (.closeStore rfl)) ?_)
    refine (ih rfl (Host.heard_trace heard t)).bind fun y hy => .here ⟨hy.driver, ?_, hy.started, hy.heard⟩
    rw [hy.host, Host.trace, List.append_assoc]
    rfl

/-- A script that is over, and its driver collects the report. -/
theorem Runs.collected (hx : Runs before h cs x) (rep : Report) (own : ¬ rep.IsTerminated) (started : Millis)
    (lines : Nat) :
    Leads j (Closes before (rep.execution (j.outcomeOf rep) rep.variables) h
      (Execution.endTraces (j.outcomeOf rep) started h.millis lines) cs) x := by
  obtain ⟨worker, driver, queue, rfl, rfl, heard⟩ := hx
  refine .step (.worker (.finish rep worker own)) ?_
  exact .step (.driver (.collect started lines driver rfl)) (closes rfl heard)

theorem GivesUp.clock {why : Cut} (hx : GivesUp before why h cs x) (micros : Nat) :
    Leads j (GivesUp before why { h with micros } cs) x := by
  obtain ⟨worker, driver, queue, rfl, rfl, heard⟩ := hx
  exact .step (.outside (.clock micros)) (.here ⟨worker, driver, queue, rfl, rfl, heard⟩)

/-- A call is given up: its script is terminated, and the driver ends on its report. -/
theorem GivesUp.concluded {why : Cut} (hx : GivesUp before why h cs x) (rep : Report) (terminated : rep.IsTerminated)
    (started : Millis) (lines : Nat) :
    Leads j (Closes before (rep.execution (why.outcome j) (if j.backend = .inline then rep.variables else [])) h
      (Execution.endTraces (why.outcome j) started h.millis lines) cs) x := by
  obtain ⟨⟨n, r, worker, call⟩, driver, queue, rfl, rfl, heard⟩ := hx
  have dropped : (settle x.queue .dropped x.calls)[n]? = some (r, .dropped) := by rw [queue, settle_nil, call]
  refine .step (.driver (.kill driver)) (.step (.driver (.drop rfl)) (.step (.worker (.released worker dropped)) ?_))
  refine .step (.worker (.unwind rep rfl terminated)) ?_
  exact .step (.driver (.conclude rep started lines rfl fun _ => rfl)) (closes rfl heard)

end Exchange

namespace Job

variable {j : Job} {host : Host}

/-- The execution of a script that is not stopped by the driver. -/
theorem execute_of_own (rep : Report) (hrep : rep = { j.run host with «variables» := (j.execute host).1.variables }) :
    (j.execute host).1 = rep.execution (j.outcomeOf rep) rep.variables ∧
      (j.execute host).2.traces = (j.run host).machine.host.traces ++
        Execution.endTraces (j.outcomeOf rep) host.millis (j.run host).machine.host.millis
          (j.run host).machine.lineHits.length := by
  subst hrep
  rcases he : (j.run host).ending with v | s | f <;>
    simp [execute, Report.execution, outcomeOf, he, Execution.wasStopped]

/-- The execution of a script that the driver has stopped. -/
theorem execute_of_cut {why : Cut} {pos : Script.Pos}
    (he : (j.run host).ending = .failed ((j.run host).machine.failure (.halted why.halt pos))) :
    (j.execute host).1 =
        (j.run host).execution (why.outcome j) (if j.backend = .inline then (j.run host).variables else []) ∧
      (j.execute host).2.traces = (j.run host).machine.host.traces ++
        Execution.endTraces (why.outcome j) host.millis (j.run host).machine.host.millis
          (j.run host).machine.lineHits.length := by
  have houtcome : Outcome.failed (Execution.errorOf ((j.run host).machine.failure (.halted why.halt pos))
      (j.run host).machine j) = why.outcome j := by
    cases why <;> rfl
  have hstopped : Execution.wasStopped (why.outcome j) = true := by cases why <;> rfl
  cases hb : j.backend <;> simp [execute, he, houtcome, hstopped, Report.execution, hb]

/-- There is an order of steps in which worker and driver come to the execution, start the handlers of the calls that
the script makes, and tell the listener of the traces that are left. -/
theorem exists_schedule (j : Job) (host : Host) :
    ∃ functions ds cs o x, ScriptAgent.Starts (j.env host functions) (j.machine host).outside ds cs o ∧
      (j.run host).machine.outside = o.atTime (j.run host).machine.host.micros ∧
      Exchange.Reaches j { host } x ∧ x.driver = .done (j.execute host).1 ∧ x.host = (j.execute host).2 ∧
      x.started.map (·.2) = cs ∧ (j.execute host).2.traces = host.traces ++ x.heard := by
  obtain ⟨functions, ds, g, o, hd, ho, -, hgiven, hown⟩ := j.run_course_ends host
  have start : Exchange.Runs host.traces host [] { host } := ⟨rfl, rfl, rfl, rfl, rfl, (List.append_nil _).symm⟩
  obtain ⟨cs, hstarts, hl⟩ := start.course (j := j) hd
  obtain ⟨-, -, -, -, -, hunraised⟩ := hd.starts
  have hhost : { o.host with micros := (j.run host).machine.host.micros } = (j.run host).machine.host :=
    congrArg Outside.host ho.symm
  suffices h : Exchange.Leads j (fun y => y.driver = .done (j.execute host).1 ∧ y.host = (j.execute host).2 ∧
      y.started.map (·.2) = cs ∧ y.host.traces = host.traces ++ y.heard) { host } by
    obtain ⟨x, steps, hdone, hx, hcs, hheard⟩ := h
    exact ⟨functions, ds, cs, o, x, hstarts, ho, steps, hdone, hx, hcs, hx ▸ hheard⟩
  -- however the script ends, the driver closes with the same execution
  have closed {y : Exchange} {e : Execution} {traces : List Trace} (he : (j.execute host).1 = e)
      (ht : (j.execute host).2.traces = (j.run host).machine.host.traces ++ traces)
      (hy : Exchange.Closes host.traces e (j.run host).machine.host traces cs y) :
      y.driver = .done (j.execute host).1 ∧ y.host = (j.execute host).2 ∧ y.started.map (·.2) = cs ∧
        y.host.traces = host.traces ++ y.heard := by
    refine ⟨by rw [he, hy.driver], ?_, hy.started, hy.heard⟩
    rw [hy.host, ← ht]
    rfl
  refine hl.bind fun y hy => ?_
  rcases hy with ⟨hg, hy⟩ | ⟨why, hg, hy⟩
  · -- the script comes to an end of its own
    let rep : Report := { j.run host with «variables» := (j.execute host).1.variables }
    have own : ¬ rep.IsTerminated := fun ⟨f, hf, hk⟩ => hown hg f hf hk
    obtain ⟨hexecution, htraces⟩ := execute_of_own rep rfl
    refine (hy.clock (j.run host).machine.host.micros).bind fun z hz => ?_
    rw [hhost] at hz
    exact (hz.collected rep own _ _).bind fun w hw => .here (closed hexecution htraces hw)
  · -- the last call was given up
    obtain ⟨pos, hending⟩ := hgiven _ hg (hunraised (by rw [hg]; rfl))
    obtain ⟨hexecution, htraces⟩ := execute_of_cut hending
    let rep : Report := { j.run host with ending := .failed ⟨.aborted, "", none, none⟩ }
    refine (hy.clock (j.run host).machine.host.micros).bind fun z hz => ?_
    rw [hhost] at hz
    exact (hz.concluded rep ⟨_, rfl, rfl⟩ _ _).bind fun w hw => .here (closed hexecution htraces hw)

/-- In whatever order worker and driver take their steps, no call is lost, made twice or stranded; and an
execution is one such order. -/
theorem exchange_is_orderly (j : Job) (host : Host) :
    (∀ x, Exchange.Reaches j { host } x → Exchange.Orderly j x) ∧
      ∃ functions ds cs o x, ScriptAgent.Starts (j.env host functions) (j.machine host).outside ds cs o ∧
        (j.run host).machine.outside = o.atTime (j.run host).machine.host.micros ∧
        Exchange.Reaches j { host } x ∧ x.driver = .done (j.execute host).1 ∧ x.host = (j.execute host).2 ∧
        x.started.map (·.2) = cs ∧ (j.execute host).2.traces = host.traces ++ x.heard :=
  ⟨fun _ steps => ((Exchange.Kept.start j host).reaches steps).orderly, j.exists_schedule host⟩

/-- The driver leaves its loop while the script waits for it. -/
theorem stranded_call_is_released :
    ∃ x, Exchange.Reaches stopping { host := {} } x ∧ x.worker = .parked 0 ∧ x.driver.isInLoop = false ∧
      (∀ y, Exchange.Reaches stopping x y → Exchange.Forlorn y 0) ∧ Exchange.Orderly stopping x := by
  have steps : Exchange.Reaches stopping { host := {} } _ :=
    .head (.worker (.send (.yield .null) rfl rfl))
      (.head (.driver (.take rfl rfl)) (.single (.driver (.expire rfl))))
  have orderly := (exchange_is_orderly stopping {}).1 _ steps
  exact ⟨_, steps, rfl, rfl, orderly.released 0 rfl rfl fun _ _ => (nomatch ·), orderly⟩

end Job

end ScriptAgent

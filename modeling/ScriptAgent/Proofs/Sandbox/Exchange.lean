import Mathlib.Logic.Relation
import ScriptAgent.Proofs.Sandbox.Calls

/-!
# Worker and driver

A script runs on a worker of its own.  For a tool, or to give a value out, the worker sends a call with a
channel for the reply, and parks until there is one or the channel is dropped.  The driver takes calls up one
after the other and is all the while ready to leave: when the worker reports, when the time is up, or when the
abort latch has fired.  Each of the two goes by its own state and by the messages alone; the clock, and whoever
fires the latch, go their own way.  A trace is told to the listener first and stored then.
-/

namespace ScriptAgent

/-- What a worker asks of the driver. -/
inductive HostRequest where
  | tool (t : Tool) (r : ToolRequest)
  | yield (v : Json)

/-- The channel for the reply to a call. -/
inductive Channel where
  /-- There is no reply yet; the sender is in the queue or with the driver. -/
  | unsettled
  | replied (answer : ToolOutcome)
  /-- The sender was dropped without a reply. -/
  | dropped
  /-- The worker has received the reply, or that there is none. -/
  | taken (answer : Option ToolOutcome)

namespace Channel

/-- The reply, whether the worker has received it or not. -/
def answer? : Channel → Option ToolOutcome
  | replied a => some a
  | taken a => a
  | _ => none

/-- Whether there may still be a reply. -/
def isOpen : Channel → Bool
  | unsettled => true
  | _ => false

/-- Whether the worker has received what came of the call. -/
def isTaken : Channel → Bool
  | taken _ => true
  | _ => false

/-- Whether there never is a reply. -/
def isLost : Channel → Bool
  | dropped | taken none => true
  | _ => false

end Channel

/-- Whether a script was terminated, and did not come to an end of its own. -/
def Report.IsTerminated (rep : Report) : Prop :=
  ∃ f, rep.ending = .failed f ∧ f.kind = .aborted

/-- What a worker is doing. -/
inductive Worker where
  | running
  /-- The listener was told of a trace that is not stored yet. -/
  | tracing (t : Trace)
  /-- The script waits for what comes of its call of this number. -/
  | parked (call : Nat)
  /-- A call came to nothing: the script is terminated, and nothing of it runs any more. -/
  | unwinding
  | reported (report : Report)

namespace Worker

/-- The trace that the listener was told of and that is not stored yet. -/
def told : Worker → Option Trace
  | tracing t => some t
  | _ => none

/-- Whether the script is terminated. -/
def IsTerminated : Worker → Prop
  | unwinding => True
  | reported report => report.IsTerminated
  | _ => False

/-- The report, once there is one. -/
def report? : Worker → Option Report
  | reported report => some report
  | _ => none

/-- The call for which the script waits. -/
def call? : Worker → Option Nat
  | parked n => some n
  | _ => none

end Worker

/-- Why a driver stops a script. -/
inductive Cut where
  | timedOut
  | aborted (reason : String)

/-- What a driver is doing. -/
inductive Driver where
  | waiting
  /-- It services a call, by a handler once that was started, and may be in the midst of a trace. -/
  | serving (call : Nat) (handler : Option Started) (told : Option Trace)
  /-- It is out of its loop, and has stopped nothing yet. -/
  | leaving (why : Cut)
  /-- The script is told to stop where it runs; calls can still be sent. -/
  | stopping (why : Cut)
  /-- No calls can be sent any more, and those that were are dropped. -/
  | awaiting (why : Cut)
  /-- It leaves the traces of the end. -/
  | closing (e : Execution) (rest : List Trace) (told : Option Trace)
  | done (e : Execution)

namespace Driver

/-- Whether the driver is still in its loop. -/
def isInLoop : Driver → Bool
  | waiting | serving .. => true
  | _ => false

/-- Whether the driver services a call. -/
def isServing : Driver → Bool
  | serving .. => true
  | _ => false

/-- Whether the driver would leave its loop at once: it is not in the midst of a trace. -/
def isReady : Driver → Bool
  | waiting | serving _ _ none => true
  | _ => false

/-- Whether a script that runs is told to stop. -/
def isKilling : Driver → Bool
  | waiting | serving .. | leaving _ => false
  | _ => true

/-- Whether no calls can be sent any more. -/
def isDeaf : Driver → Bool
  | awaiting _ | closing .. | done _ => true
  | _ => false

/-- Why the driver stops the script, from when it has left its loop until the script is stopped. -/
def cut? : Driver → Option Cut
  | leaving why | stopping why | awaiting why => some why
  | _ => none

/-- The execution, once the script is over. -/
def execution? : Driver → Option Execution
  | closing e _ _ | done e => some e
  | _ => none

/-- The trace that the listener was told of and that is not stored yet. -/
def told : Driver → Option Trace
  | serving _ _ told | closing _ _ told => told
  | _ => none

/-- The call that the driver services, and its handler if that was started. -/
def service? : Driver → Option (Nat × Option Started)
  | serving n handler _ => some (n, handler)
  | _ => none

/-- The calls that the driver has in its hands. -/
def held (d : Driver) : List Nat :=
  d.service?.toList.map (·.1)

theorem idle_of_left {d : Driver} (h : d.isInLoop = false) : d.isServing = false := by
  cases d <;> first | rfl | cases h

theorem left_of_deaf {d : Driver} (h : d.isDeaf = true) : d.isInLoop = false := by
  cases d <;> first | rfl | cases h

theorem killing_of_deaf {d : Driver} (h : d.isDeaf = true) : d.isKilling = true := by
  cases d <;> first | rfl | cases h

theorem left_of_killing {d : Driver} (h : d.isKilling = true) : d.isInLoop = false := by
  cases d <;> first | rfl | cases h

theorem inLoop_of_ready {d : Driver} (h : d.isReady = true) : d.isInLoop = true := by
  cases d <;> first | rfl | cases h

end Driver

/-- What a handler answers, if it returns: an interrupt with the call that raised it. -/
def Started.answer (c : Started) : Option ToolOutcome :=
  c.run.outcome.map fun
    | .signal s => .signal (Bridge.attachCall s c.tool c.id c.request)
    | other => other

/-- The outcome of a script that came to an end of its own. -/
def Job.outcomeOf (j : Job) (rep : Report) : Outcome :=
  match rep.ending with
  | .completed value => .completed value
  | .suspended s => .suspended (Execution.annotate s rep.variables rep.machine.line j.compiled.source)
  | .failed f => .failed (Execution.errorOf f rep.machine j)

theorem Job.outcomeOf_unaborted {rep : Report} (h : ¬ rep.IsTerminated) (j : Job) (reason : String) :
    j.outcomeOf rep ≠ .failed (.aborted reason) := by
  unfold Job.outcomeOf
  rcases he : rep.ending with v | s | f
  · nofun
  · nofun
  · have hkind : f.kind ≠ .aborted := fun hk => h ⟨f, he, hk⟩
    dsimp only [Execution.errorOf]
    cases hf : f.kind with
    | aborted => exact absurd hf hkind
    | _ => nofun

/-- The outcome of a script that was stopped. -/
def Cut.outcome (j : Job) : Cut → Outcome
  | timedOut => .failed (.timeout j.limits.timeout)
  | aborted reason => .failed (.aborted reason)

/-- An execution that ends with an outcome and these variables, on what the script left otherwise. -/
def Report.execution (rep : Report) (outcome : Outcome) (vars : Dict Json) : Execution where
  outcome
  «variables» := vars
  lineHits := rep.machine.lineHits
  mutations := rep.machine.drafts.toList.flatMap (·.mutations)

/-- A worker, a driver, and what lies between them. -/
structure Exchange where
  worker : Worker := .running
  driver : Driver := .waiting
  /-- The calls that were sent, by number. -/
  calls : List (HostRequest × Channel) := []
  /-- The calls that were not taken up yet. -/
  queue : List Nat := []
  /-- The handlers that were started, each for a call. -/
  started : List (Nat × Started) := []
  host : Host
  /-- What the listener was told. -/
  heard : List Trace := []
  /-- The reasons that were given to abort. -/
  given : List String := []

namespace Exchange

/-- Sets the channels of calls. -/
def settle (ns : List Nat) (ch : Channel) (calls : List (HostRequest × Channel)) : List (HostRequest × Channel) :=
  calls.mapIdx fun i c => if i ∈ ns then (c.1, ch) else c

/-- The driver leaves its loop: a call that it services is dropped, with its handler. -/
def leave (x : Exchange) (why : Cut) : Exchange :=
  { x with driver := .leaving why, calls := settle x.driver.held .dropped x.calls }

variable {x x' : Exchange}

/-- A step of the worker.  Of the script only this is known: it traces, calls, and ends at any time. -/
inductive WorkerStep (x : Exchange) : Exchange → Prop
  | tell (t : Trace) (running : x.worker = .running) :
      WorkerStep x { x with worker := .tracing t, heard := x.heard ++ [t] }
  | store {t : Trace} (tracing : x.worker = .tracing t) :
      WorkerStep x { x with worker := .running, host := x.host.trace t }
  | send (r : HostRequest) (running : x.worker = .running) (heard : x.driver.isDeaf = false) :
      WorkerStep x { x with
        worker := .parked x.calls.length, calls := x.calls ++ [(r, .unsettled)]
        queue := x.queue ++ [x.calls.length] }
  /-- Nobody is there to take calls up. -/
  | refused (running : x.worker = .running) (deaf : x.driver.isDeaf = true) :
      WorkerStep x { x with worker := .unwinding }
  | receive {n : Nat} {r : HostRequest} {a : ToolOutcome} (parked : x.worker = .parked n)
      (replied : x.calls[n]? = some (r, .replied a)) :
      WorkerStep x { x with worker := .running, calls := settle [n] (.taken (some a)) x.calls }
  | released {n : Nat} {r : HostRequest} (parked : x.worker = .parked n)
      (dropped : x.calls[n]? = some (r, .dropped)) :
      WorkerStep x { x with worker := .unwinding, calls := settle [n] (.taken none) x.calls }
  | finish (rep : Report) (running : x.worker = .running) (own : ¬ rep.IsTerminated) :
      WorkerStep x { x with worker := .reported rep }
  /-- The script finds that it is told to stop. -/
  | stop (rep : Report) (running : x.worker = .running) (killed : x.driver.isKilling = true)
      (terminated : rep.IsTerminated) :
      WorkerStep x { x with worker := .reported rep }
  | unwind (rep : Report) (unwinding : x.worker = .unwinding) (terminated : rep.IsTerminated) :
      WorkerStep x { x with worker := .reported rep }

/-- A step of the driver. -/
inductive DriverStep (j : Job) (x : Exchange) : Exchange → Prop
  | take {n : Nat} {rest : List Nat} (waiting : x.driver = .waiting) (next : x.queue = n :: rest) :
      DriverStep j x { x with driver := .serving n none none, queue := rest }
  /-- A handler is started. -/
  | start {n : Nat} {t : Tool} {r : ToolRequest} {ch : Channel} (deadline : Nat)
      (serving : x.driver = .serving n none none) (asked : x.calls[n]? = some (.tool t r, ch)) :
      DriverStep j x { x with
        driver := .serving n (some (x.host.start t r deadline)) none
        started := x.started ++ [(n, x.host.start t r deadline)]
        host := (x.host.freshId "tcall").2.countCall t.key }
  | tell {n : Nat} {handler : Option Started} (t : Trace) (serving : x.driver = .serving n handler none) :
      DriverStep j x { x with driver := .serving n handler (some t), heard := x.heard ++ [t] }
  | store {n : Nat} {handler : Option Started} {t : Trace} (serving : x.driver = .serving n handler (some t)) :
      DriverStep j x { x with driver := .serving n handler none, host := x.host.trace t }
  /-- A handler has returned. -/
  | reply {n : Nat} {c : Started} {a : ToolOutcome} (serving : x.driver = .serving n (some c) none)
      (returned : c.answer = some a) :
      DriverStep j x { x with driver := .waiting, calls := settle [n] (.replied a) x.calls }
  /-- A value was given out. -/
  | acknowledge {n : Nat} {v : Json} {ch : Channel} (serving : x.driver = .serving n none none)
      (asked : x.calls[n]? = some (.yield v, ch)) :
      DriverStep j x { x with driver := .waiting, calls := settle [n] (.replied (.value .null)) x.calls }
  | collect {rep : Report} (started : Millis) (lines : Nat) (waiting : x.driver = .waiting)
      (reported : x.worker = .reported rep) :
      DriverStep j x { x with
        driver := .closing (rep.execution (j.outcomeOf rep) rep.variables)
          (Execution.endTraces (j.outcomeOf rep) started x.host.millis lines) none }
  /-- The time is up. -/
  | expire (ready : x.driver.isReady) : DriverStep j x (x.leave .timedOut)
  | abort {reason : String} (ready : x.driver.isReady) (fired : x.host.abort.reason = some reason) :
      DriverStep j x (x.leave (.aborted reason))
  | kill {why : Cut} (leaving : x.driver = .leaving why) :
      DriverStep j x { x with driver := .stopping why }
  | drop {why : Cut} (stopping : x.driver = .stopping why) :
      DriverStep j x { x with driver := .awaiting why, queue := [], calls := settle x.queue .dropped x.calls }
  /-- Inline, the script's report is awaited; isolated, the script is left alone wherever it is. -/
  | conclude {why : Cut} (rep : Report) (started : Millis) (lines : Nat) (awaiting : x.driver = .awaiting why)
      (awaited : j.backend = .inline → x.worker = .reported rep) :
      DriverStep j x { x with
        driver := .closing (rep.execution (why.outcome j) (if j.backend = .inline then rep.variables else []))
          (Execution.endTraces (why.outcome j) started x.host.millis lines) none }
  | closeTell {e : Execution} {t : Trace} {rest : List Trace} (closing : x.driver = .closing e (t :: rest) none) :
      DriverStep j x { x with driver := .closing e rest (some t), heard := x.heard ++ [t] }
  | closeStore {e : Execution} {t : Trace} {rest : List Trace} (closing : x.driver = .closing e rest (some t)) :
      DriverStep j x { x with driver := .closing e rest none, host := x.host.trace t }
  | finish {e : Execution} (closing : x.driver = .closing e [] none) : DriverStep j x { x with driver := .done e }

/-- What happens to both of them. -/
inductive OutsideStep (x : Exchange) : Exchange → Prop
  | clock (micros : Nat) : OutsideStep x { x with host := { x.host with micros } }
  /-- Somebody fires the abort latch: a handler, or whoever holds it. -/
  | fire (reason : String) :
      OutsideStep x { x with
        host := { x.host with abort := x.host.abort.fire reason }, given := x.given ++ [reason] }

/-- One step, of whoever takes it. -/
inductive Step (j : Job) (x x' : Exchange) : Prop
  | worker (h : WorkerStep x x')
  | driver (h : DriverStep j x x')
  | outside (h : OutsideStep x x')

/-- Any number of steps in any order. -/
abbrev Reaches (j : Job) : Exchange → Exchange → Prop :=
  Relation.ReflTransGen (Step j)

/-- What every step keeps holds wherever steps lead. -/
theorem Reaches.invariant {j : Job} {P : Exchange → Prop} (keep : ∀ x x', P x → Step j x x' → P x')
    (h : Reaches j x x') (hx : P x) : P x' := by
  induction h with
  | refl => exact hx
  | tail _ step ih => exact keep _ _ ih step

/-! ### Calls -/

theorem getElem?_settle (ns : List Nat) (ch : Channel) (calls : List (HostRequest × Channel)) (n : Nat) :
    (settle ns ch calls)[n]? = calls[n]?.map fun c => if n ∈ ns then (c.1, ch) else c :=
  List.getElem?_mapIdx

variable {calls : List (HostRequest × Channel)} {n : Nat} {r r' : HostRequest} {ch ch' : Channel}

theorem settle_nil : settle [] ch calls = calls :=
  List.ext_getElem? fun n => by simp [getElem?_settle]

theorem settle_self (h : calls[n]? = some (r, ch)) : (settle [n] ch' calls)[n]? = some (r, ch') := by
  simp [getElem?_settle, h]

theorem request_settle (ns : List Nat) (ch : Channel) (calls : List (HostRequest × Channel)) (n : Nat) :
    (settle ns ch calls)[n]?.map (·.1) = calls[n]?.map (·.1) := by
  rw [getElem?_settle, Option.map_map]
  congr 1
  funext c
  dsimp only [Function.comp]
  split <;> rfl

theorem settle_cases {ns : List Nat} (h : (settle ns ch' calls)[n]? = some (r, ch)) :
    (n ∈ ns ∧ ch = ch' ∧ ∃ ch₀, calls[n]? = some (r, ch₀)) ∨ n ∉ ns ∧ calls[n]? = some (r, ch) := by
  rw [getElem?_settle, Option.map_eq_some_iff] at h
  obtain ⟨⟨r₀, ch₀⟩, hcall, h⟩ := h
  by_cases hn : n ∈ ns
  · obtain ⟨rfl, rfl⟩ := Prod.mk.inj ((if_pos hn).symm.trans h)
    exact .inl ⟨hn, rfl, ch₀, hcall⟩
  · obtain ⟨rfl, rfl⟩ := Prod.mk.inj ((if_neg hn).symm.trans h)
    exact .inr ⟨hn, hcall⟩

/-- A call that was sent is at the end, and its channel is open. -/
theorem sent_cases (h : (calls ++ [(r', .unsettled)])[n]? = some (r, ch)) :
    calls[n]? = some (r, ch) ∨ n = calls.length ∧ ch = .unsettled := by
  rw [List.getElem?_append] at h
  split at h
  · exact .inl h
  · next hge =>
    rcases hk : n - calls.length with _ | k <;> rw [hk] at h <;> cases h
    exact .inr ⟨by omega, rfl⟩

end Exchange

end ScriptAgent

import ScriptAgent.Proofs.Sandbox.Exchange

/-!
# No call is lost, and none is stranded

Worker and driver are followed through every order of their steps.  At most one call is outstanding, and the
parked worker is the one who waits for it: it lies in the queue, or with the driver, or its channel is settled.
-/

namespace ScriptAgent

namespace Exchange

variable {j : Job} {x x' : Exchange} {n m : Nat} {calls : List (HostRequest × Channel)}

/-! ### The one call -/

/-- A call that was sent, and the worker has not received yet what came of it. -/
def Outstanding (calls : List (HostRequest × Channel)) (n : Nat) : Prop :=
  ∃ r ch, calls[n]? = some (r, ch) ∧ ch.isTaken = false

/-- Settling channels of calls that are outstanding makes no other call so. -/
theorem Outstanding.of_settle {ns : List Nat} {ch : Channel} (h : Outstanding (settle ns ch calls) m)
    (hns : ∀ n ∈ ns, Outstanding calls n) : Outstanding calls m := by
  obtain ⟨r, ch', hcall, hch⟩ := h
  rcases settle_cases hcall with ⟨hm, -⟩ | ⟨-, hcall⟩
  · exact hns m hm
  · exact ⟨r, ch', hcall, hch⟩

theorem not_outstanding_taken {a : Option ToolOutcome} : ¬ Outstanding (settle [n] (.taken a) calls) n := by
  rintro ⟨r, ch, hcall, hch⟩
  rcases settle_cases hcall with ⟨-, rfl, -⟩ | ⟨hn, -⟩
  · cases hch
  · exact hn (.head _)

/-- Where the call is for which the worker waits. -/
inductive Place (x : Exchange) (n : Nat) : Channel → Prop
  | queued (queue : x.queue = [n]) (idle : x.driver.isServing = false) (heard : x.driver.isDeaf = false) :
      Place x n .unsettled
  | served {handler : Option Started} {told : Option Trace} (queue : x.queue = [])
      (serving : x.driver = .serving n handler told) : Place x n .unsettled
  | replied (a : ToolOutcome) (queue : x.queue = []) (idle : x.driver.isServing = false) : Place x n (.replied a)
  | dropped (queue : x.queue = []) (left : x.driver.isInLoop = false) : Place x n .dropped

/-- How worker and driver stand to each other. -/
inductive Meets (x : Exchange) : Prop
  | apart (worker : x.worker.call? = none) (none : ∀ m, ¬ Outstanding x.calls m) (queue : x.queue = [])
      (idle : x.driver.isServing = false)
  | parked {n : Nat} {r : HostRequest} {ch : Channel} (worker : x.worker = .parked n)
      (call : x.calls[n]? = some (r, ch)) (only : ∀ m, Outstanding x.calls m → m = n) (place : Place x n ch)

theorem Place.congr {ch : Channel} (h : Place x n ch) (queue : x'.queue = x.queue) (driver : x'.driver = x.driver) :
    Place x' n ch := by
  cases h with
  | queued q idle heard => exact .queued (queue.trans q) (driver ▸ idle) (driver ▸ heard)
  | served q serving => exact .served (queue.trans q) (driver.trans serving)
  | replied a q idle => exact .replied a (queue.trans q) (driver ▸ idle)
  | dropped q left => exact .dropped (queue.trans q) (driver ▸ left)

theorem Place.outstanding {ch : Channel} {r : HostRequest} (h : Place x n ch) (call : x.calls[n]? = some (r, ch)) :
    Outstanding x.calls n :=
  ⟨r, ch, call, by cases h <;> rfl⟩

/-- What is so while the worker is not parked. -/
theorem Meets.of_unparked (h : Meets x) (hw : x.worker.call? = none) :
    (∀ m, ¬ Outstanding x.calls m) ∧ x.queue = [] ∧ x.driver.isServing = false := by
  cases h with
  | apart _ none queue idle => exact ⟨none, queue, idle⟩
  | parked worker =>
    rw [worker] at hw
    cases hw

/-- What is so while the worker is parked. -/
theorem Meets.of_parked (h : Meets x) (hw : x.worker = .parked n) :
    ∃ r ch, x.calls[n]? = some (r, ch) ∧ (∀ m, Outstanding x.calls m → m = n) ∧ Place x n ch := by
  cases h with
  | apart worker =>
    rw [hw] at worker
    cases worker
  | parked worker call only place =>
    obtain rfl : _ = n := Worker.parked.inj (worker.symm.trans hw)
    exact ⟨_, _, call, only, place⟩

theorem Meets.worker (hx : Meets x) (h : WorkerStep x x') : Meets x' := by
  -- a worker that is not parked changes nothing of where calls are, but for sending one
  have aside {w w' : Worker} (hw : x.worker = w) (hn : w.call? = none) (hn' : w'.call? = none) (host : Host)
      (heard : List Trace) : Meets { x with worker := w', host, heard } := by
    obtain ⟨none, queue, idle⟩ := hx.of_unparked (hw ▸ hn)
    exact .apart hn' none queue idle
  cases h with
  | tell t running => exact aside running rfl rfl _ _
  | store tracing => exact aside tracing rfl rfl _ _
  | refused running => exact aside running rfl rfl _ _
  | finish rep running => exact aside running rfl rfl _ _
  | stop rep running => exact aside running rfl rfl _ _
  | unwind rep unwinding => exact aside unwinding rfl rfl _ _
  | send r running heard =>
    obtain ⟨none, queue, idle⟩ := hx.of_unparked (running ▸ rfl)
    have call : (x.calls ++ [(r, .unsettled)])[x.calls.length]? = some (r, .unsettled) := by simp
    refine .parked rfl call (fun m hm => ?_) (.queued (by simp [queue]) idle heard)
    obtain ⟨r', ch, hcall, hch⟩ := hm
    rcases sent_cases hcall with hcall | ⟨hm, -⟩
    · exact absurd ⟨r', ch, hcall, hch⟩ (none m)
    · exact hm
  | @receive n r a parked replied =>
    obtain ⟨r', ch, call, only, place⟩ := hx.of_parked parked
    obtain ⟨-, rfl⟩ := Prod.mk.inj (Option.some.inj (call.symm.trans replied))
    cases place with
    | replied _ queue idle =>
      refine .apart rfl (fun m hm => ?_) queue idle
      obtain rfl := only m (hm.of_settle fun k hk => List.mem_singleton.mp hk ▸ ⟨r', _, call, rfl⟩)
      exact not_outstanding_taken hm
  | @released n r parked dropped =>
    obtain ⟨r', ch, call, only, place⟩ := hx.of_parked parked
    obtain ⟨-, rfl⟩ := Prod.mk.inj (Option.some.inj (call.symm.trans dropped))
    cases place with
    | dropped queue left =>
      refine .apart rfl (fun m hm => ?_) queue (Driver.idle_of_left left)
      obtain rfl := only m (hm.of_settle fun k hk => List.mem_singleton.mp hk ▸ ⟨r', _, call, rfl⟩)
      exact not_outstanding_taken hm

theorem Meets.of_serving {handler : Option Started} {told : Option Trace} (h : Meets x)
    (hd : x.driver = .serving n handler told) :
    x.worker = .parked n ∧ (∃ r, x.calls[n]? = some (r, .unsettled)) ∧ (∀ m, Outstanding x.calls m → m = n) ∧
      x.queue = [] := by
  have busy : x.driver.isServing = true := by
    rw [hd]
    rfl
  cases h with
  | apart _ _ _ idle => cases busy.symm.trans idle
  | parked worker call only place =>
    cases place with
    | queued _ idle => cases busy.symm.trans idle
    | replied _ _ idle => cases busy.symm.trans idle
    | dropped _ left => cases busy.symm.trans (Driver.idle_of_left left)
    | served queue serving =>
      obtain ⟨rfl, -, -⟩ := Driver.serving.inj (serving.symm.trans hd)
      exact ⟨worker, ⟨_, call⟩, only, queue⟩

/-- The call that is serviced gets its channel settled, and the driver turns to something else. -/
theorem Meets.settled {r : HostRequest} {ch ch' : Channel} {d : Driver} {queue : List Nat}
    (worker : x.worker = .parked n) (call : x.calls[n]? = some (r, ch)) (hch : ch.isTaken = false)
    (only : ∀ m, Outstanding x.calls m → m = n)
    (place : Place { x with driver := d, queue, calls := settle [n] ch' x.calls } n ch') :
    Meets { x with driver := d, queue, calls := settle [n] ch' x.calls } := by
  refine .parked worker (settle_self call) (fun m hm => only m (hm.of_settle fun k hk => ?_)) place
  rw [List.mem_singleton.mp hk]
  exact ⟨r, ch, call, hch⟩

theorem Meets.leave (h : Meets x) (inLoop : x.driver.isInLoop = true) (why : Cut) : Meets (x.leave why) := by
  rcases hd : x.driver with _ | ⟨n, handler, told⟩ | _ | _ | _ | _ | _
  case serving =>
    obtain ⟨worker, ⟨r, call⟩, only, queue⟩ := h.of_serving hd
    rw [Exchange.leave, hd]
    exact .settled worker call rfl only (.dropped queue rfl)
  case waiting =>
    rw [Exchange.leave, hd, show Driver.waiting.held = [] from rfl, settle_nil]
    cases h with
    | apart worker none queue => exact .apart worker none queue rfl
    | parked worker call only place =>
      refine .parked worker call only ?_
      cases place with
      | queued queue => exact .queued queue rfl rfl
      | served _ serving => cases hd.symm.trans serving
      | replied a queue => exact .replied a queue rfl
      | dropped queue => exact .dropped queue rfl
  all_goals
    rw [hd] at inLoop
    cases inLoop

/-- Only the call of the parked worker can be in the queue, so it is the one that is taken up. -/
theorem Meets.take {rest : List Nat} (h : Meets x) (next : x.queue = n :: rest) :
    Meets { x with driver := .serving n none none, queue := rest } := by
  cases h with
  | apart _ _ queue => cases queue.symm.trans next
  | parked worker call only place =>
    cases place with
    | queued queue =>
      obtain ⟨rfl, rfl⟩ := List.cons.inj (queue.symm.trans next)
      exact .parked worker call only (.served rfl rfl)
    | served queue => cases queue.symm.trans next
    | replied _ queue => cases queue.symm.trans next
    | dropped queue => cases queue.symm.trans next

/-- If the worker's call was still in the queue, it is dropped with it. -/
theorem Meets.drop {why : Cut} (h : Meets x) (stopping : x.driver = .stopping why) :
    Meets { x with driver := .awaiting why, queue := [], calls := settle x.queue .dropped x.calls } := by
  cases h with
  | apart worker none queue =>
    rw [queue, settle_nil]
    exact .apart worker none rfl rfl
  | @parked n r ch worker call only place =>
    cases place with
    | queued queue =>
      rw [queue]
      exact .settled worker call rfl only (.dropped rfl rfl)
    | served _ serving => cases stopping.symm.trans serving
    | replied a queue =>
      rw [queue, settle_nil]
      exact .parked worker call only (.replied a rfl rfl)
    | dropped queue =>
      rw [queue, settle_nil]
      exact .parked worker call only (.dropped rfl rfl)

theorem Meets.driver (hx : Meets x) (h : DriverStep j x x') : Meets x' := by
  -- a driver that has left its loop goes on to what comes after
  have onward {d d' : Driver} (hd : x.driver = d) (hin : d.isInLoop = false) (hin' : d'.isInLoop = false)
      (hdeaf : d.isDeaf = false → d'.isDeaf = false) (host : Host) (heard : List Trace) :
      Meets { x with driver := d', host, heard } := by
    subst hd
    cases hx with
    | apart worker none queue => exact .apart worker none queue (Driver.idle_of_left hin')
    | parked worker call only place =>
      refine .parked worker call only ?_
      cases place with
      | queued queue _ hears => exact .queued queue (Driver.idle_of_left hin') (hdeaf hears)
      | served _ serving =>
        rw [serving] at hin
        cases hin
      | replied a queue => exact .replied a queue (Driver.idle_of_left hin')
      | dropped queue => exact .dropped queue hin'
  -- a driver that services a call goes on with it
  have still {handler handler' : Option Started} {told told' : Option Trace} {n : Nat}
      (hd : x.driver = .serving n handler told) (host : Host) (heard : List Trace) (started : List (Nat × Started)) :
      Meets { x with driver := .serving n handler' told', host, heard, started } := by
    obtain ⟨worker, ⟨r, call⟩, only, queue⟩ := hx.of_serving hd
    exact .parked worker call only (.served queue rfl)
  cases h with
  | take waiting next => exact hx.take next
  | start deadline serving => exact still serving _ _ _
  | tell t serving => exact still serving _ _ _
  | store serving => exact still serving _ _ _
  | reply serving =>
    obtain ⟨worker, ⟨r, call⟩, only, queue⟩ := hx.of_serving serving
    exact .settled worker call rfl only (.replied _ queue rfl)
  | acknowledge serving =>
    obtain ⟨worker, ⟨r, call⟩, only, queue⟩ := hx.of_serving serving
    exact .settled worker call rfl only (.replied _ queue rfl)
  | collect started lines waiting reported =>
    obtain ⟨none, queue, -⟩ := hx.of_unparked (reported ▸ rfl)
    exact .apart (reported ▸ rfl) none queue rfl
  | expire ready => exact hx.leave (Driver.inLoop_of_ready ready) _
  | abort ready => exact hx.leave (Driver.inLoop_of_ready ready) _
  | kill leaving => exact onward leaving rfl rfl (fun _ => rfl) _ _
  | drop stopping => exact hx.drop stopping
  | conclude rep started lines awaiting => exact onward awaiting rfl rfl nofun _ _
  | closeTell closing => exact onward closing rfl rfl nofun _ _
  | closeStore closing => exact onward closing rfl rfl nofun _ _
  | finish closing => exact onward closing rfl rfl nofun _ _

theorem Meets.step (hx : Meets x) (h : Step j x x') : Meets x' := by
  cases h with
  | worker h => exact hx.worker h
  | driver h => exact hx.driver h
  | outside h =>
    cases hx with
    | apart worker none queue idle => cases h <;> exact .apart worker none queue idle
    | parked worker call only place => cases h <;> exact .parked worker call only (place.congr rfl rfl)

/-! ### Handlers -/

/-- A reply is the answer of the call's own handler, unless it acknowledges a value that was given out. -/
def Answers (started : List (Nat × Started)) (n : Nat) (r : HostRequest) (a : ToolOutcome) : Prop :=
  (∃ v, r = .yield v ∧ a = .value .null) ∨ ∃ c, (n, c) ∈ started ∧ c.answer = some a

/-- What the books say of calls and handlers. -/
structure Booked (x : Exchange) : Prop where
  /-- No call has two handlers. -/
  nodup : (x.started.map (·.1)).Nodup
  /-- A handler is started for the call that asks for it. -/
  asked : ∀ n c, (n, c) ∈ x.started → x.calls[n]?.map (·.1) = some (.tool c.tool c.request)
  /-- As long as its call has no reply and is not dropped, the handler runs. -/
  runs : ∀ n c r, (n, c) ∈ x.started → x.calls[n]? = some (r, .unsettled) → x.driver.service? = some (n, some c)
  answered : ∀ (n : Nat) r ch a, x.calls[n]? = some (r, ch) → ch.answer? = some a → Answers x.started n r a
  /-- Nothing is lost while the driver is in its loop. -/
  lost : ∀ (n : Nat) r ch, x.calls[n]? = some (r, ch) → ch.isLost = true → x.driver.isInLoop = false
  serving : ∀ n handler, x.driver.service? = some (n, handler) → ∀ c, (n, c) ∈ x.started ↔ handler = some c
  queued : ∀ n c, n ∈ x.queue → (n, c) ∉ x.started

namespace Booked

/-- Channels are settled, and no handler is started. -/
theorem settled (h : Booked x) (ns : List Nat) (ch : Channel) (hch : ch.isOpen = false)
    (calls : x'.calls = settle ns ch x.calls) (started : x'.started = x.started) (queue : x'.queue ⊆ x.queue)
    (answered : ∀ n ∈ ns, ∀ r ch₀ a, x.calls[n]? = some (r, ch₀) → ch.answer? = some a → Answers x.started n r a)
    (left : x.driver.isInLoop = false ∨ ns ≠ [] ∧ ch.isLost = true → x'.driver.isInLoop = false)
    (goesOn : ∀ n c, x.driver.service? = some (n, some c) → n ∉ ns → x'.driver.service? = some (n, some c))
    (before : ∀ n handler, x'.driver.service? = some (n, handler) → x.driver.service? = some (n, handler)) :
    Booked x' where
  nodup := started ▸ h.nodup
  asked n c hc := by
    rw [calls, request_settle]
    exact h.asked n c (started ▸ hc)
  runs n c r hc hcall := by
    rw [started] at hc
    rw [calls] at hcall
    rcases settle_cases hcall with ⟨-, rfl, -⟩ | ⟨hn, hcall⟩
    · cases hch
    · exact goesOn n c (h.runs n c r hc hcall) hn
  answered n r ch' a hcall ha := by
    rw [calls] at hcall
    rw [started]
    rcases settle_cases hcall with ⟨hn, rfl, ch₀, hcall⟩ | ⟨-, hcall⟩
    · exact answered n hn r ch₀ a hcall ha
    · exact h.answered n r ch' a hcall ha
  lost n r ch' hcall hlost := by
    rw [calls] at hcall
    rcases settle_cases hcall with ⟨hn, rfl, -⟩ | ⟨-, hcall⟩
    · exact left (.inr ⟨List.ne_nil_of_mem hn, hlost⟩)
    · exact left (.inl (h.lost n r ch' hcall hlost))
  serving n handler hd c := started ▸ h.serving n handler (before n handler hd) c
  queued n c hn := started ▸ h.queued n c (queue hn)

/-- Nothing is done about calls. -/
theorem aside (h : Booked x) (calls : x'.calls = x.calls) (started : x'.started = x.started)
    (queue : x'.queue ⊆ x.queue) (left : x.driver.isInLoop = false → x'.driver.isInLoop = false)
    (service : x'.driver.service? = x.driver.service?) : Booked x' :=
  h.settled [] (.replied (.value .null)) rfl (by rw [calls, settle_nil]) started queue nofun
    (fun hleft => left (hleft.resolve_right fun hn => hn.1 rfl)) (fun n c hd _ => service ▸ hd)
    fun n handler hd => service ▸ hd

theorem worker (h : Booked x) (step : WorkerStep x x') : Booked x' := by
  cases step with
  | tell | store | refused | finish | stop | unwind => exact h.aside rfl rfl (List.Subset.refl _) id rfl
  | send r running heard =>
    have known {n : Nat} {c : Started} (hc : (n, c) ∈ x.started) : n < x.calls.length := by
      obtain ⟨call, hcall, -⟩ := Option.map_eq_some_iff.mp (h.asked n c hc)
      exact (List.getElem?_eq_some_iff.mp hcall).1
    refine ⟨h.nodup, fun n c hc => ?_, fun n c r' hc hcall => ?_, fun n r' ch a hcall ha => ?_,
      fun n r' ch hcall hlost => ?_, h.serving, fun n c hn hc => ?_⟩
    · rw [List.getElem?_append_left (known hc)]
      exact h.asked n c hc
    · rcases sent_cases hcall with hcall | ⟨hn, -⟩
      · exact h.runs n c r' hc hcall
      · exact absurd (known hc) (by omega)
    · rcases sent_cases hcall with hcall | ⟨-, rfl⟩
      · exact h.answered n r' ch a hcall ha
      · cases ha
    · rcases sent_cases hcall with hcall | ⟨-, rfl⟩
      · exact h.lost n r' ch hcall hlost
      · cases hlost
    · rcases List.mem_append.mp hn with hn | hn
      · exact h.queued n c hn hc
      · exact absurd (known hc) (by simp at hn; omega)
  | @receive n r a parked replied =>
    refine h.settled [n] (.taken (some a)) rfl rfl rfl (List.Subset.refl _) (fun m hm r' ch a' hcall ha => ?_)
      (fun hl => hl.resolve_right fun hl => nomatch hl.2) (fun m c hd _ => hd) fun _ _ => id
    obtain rfl := List.mem_singleton.mp hm
    obtain ⟨-, rfl⟩ := Prod.mk.inj (Option.some.inj (hcall.symm.trans replied))
    exact h.answered m r' _ a' hcall ha
  | @released n r parked dropped =>
    exact h.settled [n] (.taken none) rfl rfl rfl (List.Subset.refl _) (fun _ _ _ _ _ _ ha => nomatch ha)
      (fun _ => h.lost n r .dropped dropped rfl) (fun m c hd _ => hd) fun _ _ => id

theorem leave (h : Booked x) (why : Cut) : Booked (x.leave why) := by
  refine h.settled x.driver.held .dropped rfl rfl rfl (List.Subset.refl _) (fun _ _ _ _ _ _ ha => nomatch ha)
    (fun _ => rfl) (fun n c hd hn => absurd ?_ hn) fun _ _ => nofun
  rw [Driver.held, hd]
  exact .head _

/-- The next call is taken up.  While the driver waited no call had a handler that runs, and nothing was lost. -/
theorem take {rest : List Nat} (h : Booked x) (waiting : x.driver = .waiting) (next : x.queue = n :: rest) :
    Booked { x with driver := .serving n none none, queue := rest } := by
  refine ⟨h.nodup, h.asked, fun m c r hc hcall => ?_, h.answered, fun m r ch hcall hlost => ?_,
    fun m handler hd c => ?_, fun m c hm => h.queued m c (next ▸ .tail _ hm)⟩
  · have runs := h.runs m c r hc hcall
    rw [waiting] at runs
    cases runs
  · have left := h.lost m r ch hcall hlost
    rw [waiting] at left
    cases left
  · cases hd
    exact ⟨fun hc => absurd hc (h.queued n c (next ▸ .head _)), nofun⟩

/-- A handler is started for the call that is serviced, which has none yet. -/
theorem start {t : Tool} {r : ToolRequest} {ch : Channel} (h : Booked x) (deadline : Nat)
    (serving : x.driver = .serving n none none) (asked : x.calls[n]? = some (.tool t r, ch)) (queue : x.queue = []) :
    Booked { x with
      driver := .serving n (some (x.host.start t r deadline)) none
      started := x.started ++ [(n, x.host.start t r deadline)]
      host := (x.host.freshId "tcall").2.countCall t.key } := by
  have fresh (c : Started) : (n, c) ∉ x.started := fun hc => by
    cases (h.serving n none (by rw [serving]; rfl) c).mp hc
  -- so a handler in the new list is an old one of another call, or the one that was started
  have mem {m : Nat} {c : Started} (hc : (m, c) ∈ x.started ++ [(n, x.host.start t r deadline)]) :
      (m, c) ∈ x.started ∧ m ≠ n ∨ m = n ∧ c = x.host.start t r deadline := by
    rcases List.mem_append.mp hc with hc | hc
    · exact .inl ⟨hc, fun hm => fresh c (hm ▸ hc)⟩
    · exact .inr (Prod.mk.inj (List.mem_singleton.mp hc))
  have unlost : x.driver.isInLoop = true := by rw [serving]; rfl
  refine ⟨?_, fun m c hc => ?_, fun m c r' hc hcall => ?_, fun m r' ch' a hcall ha => ?_,
    fun m r' ch' hcall hlost => ?_, fun m handler hd c => ?_, fun m c hm => ?_⟩
  · rw [List.map_append, List.nodup_append]
    refine ⟨h.nodup, by simp, fun m hm k hk => ?_⟩
    obtain ⟨⟨m, c⟩, hc, rfl⟩ := List.mem_map.mp hm
    rintro rfl
    obtain rfl : m = n := by simpa using hk
    exact fresh c hc
  · rcases mem hc with ⟨hc, -⟩ | ⟨rfl, rfl⟩
    · exact h.asked m c hc
    · rw [asked]
      rfl
  · rcases mem hc with ⟨hc, hm⟩ | ⟨rfl, rfl⟩
    · have runs := h.runs m c r' hc hcall
      rw [serving] at runs
      cases runs
    · rfl
  · exact (h.answered m r' ch' a hcall ha).imp id fun ⟨c, hc, hca⟩ => ⟨c, List.mem_append_left _ hc, hca⟩
  · cases unlost.symm.trans (h.lost m r' ch' hcall hlost)
  · cases hd
    refine ⟨fun hc => ?_, fun hc => ?_⟩
    · rcases mem hc with ⟨-, hm⟩ | ⟨-, rfl⟩
      · exact absurd rfl hm
      · rfl
    · cases hc
      exact List.mem_append_right _ (.head _)
  · rw [queue] at hm
    cases hm

/-- The call that is serviced gets a reply that is its own. -/
theorem reply {handler : Option Started} {a : ToolOutcome} (h : Booked x) (serving : x.driver = .serving n handler none)
    (answers : ∀ r ch, x.calls[n]? = some (r, ch) → Answers x.started n r a) :
    Booked { x with driver := .waiting, calls := settle [n] (.replied a) x.calls } := by
  refine h.settled [n] (.replied a) rfl rfl rfl (List.Subset.refl _) (fun m hm r ch a' hcall ha => ?_) (fun hl => ?_)
    (fun m c hd hm => ?_) fun _ _ => nofun
  · obtain rfl := List.mem_singleton.mp hm
    cases ha
    exact answers r ch hcall
  · rw [serving] at hl
    exact absurd (hl.resolve_left nofun).2 nofun
  · rw [serving] at hd
    cases hd
    exact absurd (.head _) hm

theorem driver (h : Booked x) (hx : Meets x) (step : DriverStep j x x') : Booked x' := by
  -- out of its loop, or while it goes on with a call, the driver does nothing about calls
  have aside {d d' : Driver} (hd : x.driver = d) (left : d.isInLoop = false → d'.isInLoop = false)
      (service : d'.service? = d.service?) (host : Host) (heard : List Trace) :
      Booked { x with driver := d', host, heard } := by
    subst hd
    exact h.aside rfl rfl (List.Subset.refl _) left service
  cases step with
  | take waiting next => exact h.take waiting next
  | start deadline serving asked => exact h.start deadline serving asked (hx.of_serving serving).2.2.2
  | tell t serving => exact aside serving nofun (by rfl) _ _
  | store serving => exact aside serving nofun (by rfl) _ _
  | @reply n c a serving returned =>
    refine h.reply serving fun r ch hcall => .inr ⟨c, ?_, returned⟩
    exact (h.serving n (some c) (by rw [serving]; rfl) c).mpr rfl
  | @acknowledge n v ch serving asked =>
    refine h.reply serving fun r ch' hcall => .inl ⟨v, ?_, rfl⟩
    exact (Prod.mk.inj (Option.some.inj (hcall.symm.trans asked))).1
  | collect started lines waiting reported => exact aside waiting nofun (by rfl) _ _
  | expire ready => exact h.leave _
  | abort ready => exact h.leave _
  | kill leaving => exact aside leaving (fun _ => rfl) (by rfl) _ _
  | drop stopping =>
    refine h.settled x.queue .dropped rfl rfl rfl (List.nil_subset _) (fun _ _ _ _ _ _ ha => nomatch ha) (fun _ => rfl)
      (fun n c hd _ => ?_) fun _ _ => nofun
    rw [stopping] at hd
    cases hd
  | conclude rep started lines awaiting => exact aside awaiting (fun _ => rfl) (by rfl) _ _
  | closeTell closing => exact aside closing (fun _ => rfl) (by rfl) _ _
  | closeStore closing => exact aside closing (fun _ => rfl) (by rfl) _ _
  | finish closing => exact aside closing (fun _ => rfl) (by rfl) _ _

theorem step (h : Booked x) (hx : Meets x) (step : Step j x x') : Booked x' := by
  cases step with
  | worker step => exact h.worker step
  | driver step => exact h.driver hx step
  | outside step => cases step <;> exact h.aside rfl rfl (List.Subset.refl _) id rfl

end Booked

end Exchange

end ScriptAgent

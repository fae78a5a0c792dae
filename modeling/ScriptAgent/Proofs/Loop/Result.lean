import ScriptAgent.Proofs.Loop.Drive

/-!
# What a run gives back

A run asks the model no more often than turns are left, and its result goes with the iterations that
it has added: only the last of them says how the run ended.
-/

namespace ScriptAgent

namespace Agent

section Progress

variable {turn : Turns} {c c' : Context} {w w' : World} {ending : Option RunEnding}

/-- Turns that change what turns change. -/
def Advances (turn : Turns) : Prop :=
  ∀ c w, ∃ i, Advanced c w (turn c w).1 (turn c w).2.1 (turn c w).2.2 i

theorem Advances.counts (h : Advances turn) : Counts turn := by
  intro c w
  obtain ⟨i, hi⟩ := h c w
  exact ⟨hi.options, hi.attempt⟩

/-- What has come about when the loop passes a context: one iteration and at most one request for each
turn, no more turns than were left, and only a last iteration that goes with an ending. -/
structure Progress (c : Context) (w : World) (ending : Option RunEnding) (c' : Context) (w' : World)
    (added : List Iteration) : Prop where
  options : c'.options = c.options
  attempt : c'.attempt = c.attempt + added.length
  iterations : c'.iterations = c.iterations ++ added
  limit : added.length ≤ c.options.loopLimit - c.attempt
  requests : ∃ asked, w'.requests = w.requests ++ asked ∧ asked.length ≤ added.length
  goesOn : ∀ i ∈ added.dropLast, GoesOn i
  open_ : ending = none → ∀ i ∈ added, GoesOn i
  ends : ∀ e, ending = some e → ∃ i, added.getLast? = some i ∧ EndsWith i e

theorem Passes.progress (ht : Advances turn) (h : Passes turn c w ending c' w') :
    ∃ added, Progress c w ending c' w' added := by
  induction h with
  | start => exact ⟨[], rfl, rfl, by simp, by simp, ⟨[], by simp⟩, by simp, by simp, by simp⟩
  | @turn c₁ c₂ w₁ w₂ ending before unaborted left turned ih =>
    obtain ⟨added, ih⟩ := ih
    obtain ⟨i, hi⟩ := ht c₁ w₁
    rw [turned] at hi
    obtain ⟨asked, hasked, hlen⟩ := ih.requests
    obtain ⟨more, hmore, hone⟩ := hi.requests
    have hleft : added.length + 1 ≤ c.options.loopLimit - c.attempt := by
      have := ih.attempt
      rw [ih.options] at left
      omega
    refine ⟨added ++ [i], hi.options.trans ih.options, ?_, ?_, by simpa using hleft,
      ⟨asked ++ more, ?_, ?_⟩, ?_, fun hn => ?_, fun e he => ⟨i, by simp, hi.ends e he⟩⟩
    · rw [hi.attempt, ih.attempt, List.length_append, List.length_singleton, Nat.add_assoc]
    · rw [hi.iterations, ih.iterations, List.append_assoc]
    · rw [hmore, hasked, List.append_assoc]
    · simp only [List.length_append, List.length_singleton]
      omega
    · rw [List.dropLast_concat]
      exact ih.open_ rfl
    · intro j hj
      rcases List.mem_append.mp hj with hj | hj
      · exact ih.open_ rfl j hj
      · rw [List.mem_singleton.mp hj]
        exact hi.goesOn hn

end Progress

/-- How the result of a run goes with what it started on. -/
structure Coherent (c : Context) (w : World) (res : RunResult) : Prop where
  /-- The model is asked no more often than turns are left. -/
  requests : ∃ asked, res.world.requests = w.requests ++ asked ∧
    asked.length ≤ c.options.loopLimit - c.attempt
  interrupted : res.ending.status = "interrupted" ↔
    res.ending.snapshot?.isSome ∧ res.ending.signal?.isSome
  failed : res.ending.status = "error" ↔ res.ending.error?.isSome
  /-- All iterations added before the last one let the loop go on, and the last one goes with the
  ending. -/
  history : ∃ added, res.context.iterations = c.iterations ++ added ∧ (∀ i ∈ added.dropLast, GoesOn i) ∧
    (res.ending.error? = none → ∃ i, added.getLast? = some i ∧ EndsWith i res.ending)
  settled : res.ending = .success → res.context.attempt = 0 ∧ res.context.pending = []

theorem Coherent.status {c : Context} {w : World} {res : RunResult}
    (requests : ∃ asked, res.world.requests = w.requests ++ asked ∧
      asked.length ≤ c.options.loopLimit - c.attempt)
    (history : ∃ added, res.context.iterations = c.iterations ++ added ∧ (∀ i ∈ added.dropLast, GoesOn i) ∧
      (res.ending.error? = none → ∃ i, added.getLast? = some i ∧ EndsWith i res.ending))
    (settled : res.ending = .success → res.context.attempt = 0 ∧ res.context.pending = []) :
    Coherent c w res := by
  refine ⟨requests, ?_, ?_, history, settled⟩
  · cases res.ending <;> simp [RunEnding.status, RunEnding.snapshot?, RunEnding.signal?]
  · cases res.ending <;> simp [RunEnding.status, RunEnding.error?]

theorem Ends.coherent {turn : Turns} (ht : Advances turn) {c : Context} {w : World} {res : RunResult}
    (h : Ends turn c w res) : Coherent c w res := by
  cases h with
  | @aborted c₁ w₁ reason passed fired =>
    obtain ⟨added, hp⟩ := passed.progress ht
    obtain ⟨asked, hasked, hlen⟩ := hp.requests
    refine .status ⟨asked, hasked, Nat.le_trans hlen hp.limit⟩
      ⟨added ++ [abortIteration c₁ w₁.host.millis reason], ?_, ?_, nofun⟩ nofun
    · show c₁.iterations ++ [_] = _
      rw [hp.iterations, List.append_assoc]
    · rw [List.dropLast_concat]
      exact hp.open_ rfl
  | exceeded passed unaborted spent =>
    obtain ⟨added, hp⟩ := passed.progress ht
    obtain ⟨asked, hasked, hlen⟩ := hp.requests
    exact .status ⟨asked, hasked, Nat.le_trans hlen hp.limit⟩ ⟨added, hp.iterations, hp.goesOn, nofun⟩ nofun
  | @turned c₁ w₁ ending passed =>
    obtain ⟨added, hp⟩ := passed.progress ht
    obtain ⟨asked, hasked, hlen⟩ := hp.requests
    have hs : (settle ending c₁).iterations = c₁.iterations := by cases ending <;> rfl
    refine .status ⟨asked, hasked, Nat.le_trans hlen hp.limit⟩
      ⟨added, hs.trans hp.iterations, hp.goesOn, fun _ => hp.ends ending rfl⟩ fun he => ?_
    obtain rfl : ending = .success := he
    exact ⟨rfl, rfl⟩

/-- Taking up a snapshot leaves the history alone, and what turns are counted by. -/
theorem applySnapshot_keeps {c c₁ : Context} {e : Option RunError} (h : applySnapshot c = (c₁, e)) :
    c₁.options = c.options ∧ c₁.attempt = c.attempt ∧ c₁.iterations = c.iterations ∧ c₁.objects = c.objects := by
  have resumed (c : Context) (s : Snapshot) : (resumedVariables c s).options = c.options ∧
      (resumedVariables c s).attempt = c.attempt ∧ (resumedVariables c s).iterations = c.iterations ∧
      (resumedVariables c s).objects = c.objects := by
    unfold resumedVariables
    dsimp only
    split <;> exact ⟨rfl, rfl, rfl, rfl⟩
  unfold applySnapshot at h
  split at h
  · cases h
    exact ⟨rfl, rfl, rfl, rfl⟩
  · next s _ =>
    dsimp only at h
    split at h
    · cases h
      exact resumed { c with resume := none } s
    · cases h
      exact resumed { c with resume := none } s

/-- A run is refused at once, or it is the loop. -/
theorem run_cases (r : Agent) (c : Context) (w : World) :
    (∃ e c₁, r.run c w = ⟨.failed e, c₁, w⟩ ∧ c₁.iterations = c.iterations ∧ c₁.objects = c.objects ∧
      ∀ c₂, c.validate = .ok () → applySnapshot c ≠ (c₂, none)) ∨
    ∃ c₁, c.validate = .ok () ∧ applySnapshot c = (c₁, none) ∧
      r.run c w = takeTurns r.advance (c₁.options.loopLimit - c₁.attempt) c₁ w := by
  unfold run
  generalize r.advance = turn
  cases hv : c.validate with
  | error e => exact .inl ⟨e, c, rfl, rfl, rfl, fun _ h => by cases h⟩
  | ok u =>
    rcases hs : applySnapshot c with ⟨c₁, _ | e⟩
    · exact .inr ⟨c₁, rfl, rfl, rfl⟩
    · obtain ⟨-, -, hi, hobj⟩ := applySnapshot_keeps hs
      exact .inl ⟨e, c₁, rfl, hi, hobj, fun c₂ _ h => by cases h⟩

/-- Every run returns after no more model calls than turns are left, more fuel for its loop makes no
difference, and what it gives back goes together. -/
theorem run_coherent (r : Agent) (c : Context) (w : World) :
    Coherent c w (r.run c w) ∧
      ∀ c₁, c.validate = .ok () → applySnapshot c = (c₁, none) →
        ∀ fuel, c.options.loopLimit - c.attempt ≤ fuel → takeTurns r.advance fuel c₁ w = r.run c w := by
  have ht : Advances r.advance := advance_advanced r
  rcases r.run_cases c w with ⟨e, c₁, hr, hi, -, hn⟩ | ⟨c₁, -, hs, hr⟩
  · rw [hr]
    refine ⟨.status ⟨[], by simp, by simp⟩ ⟨[], by simpa using hi, by simp, nofun⟩ nofun, ?_⟩
    exact fun c₂ hv hc₂ => absurd hc₂ (hn c₂ hv)
  · rw [hr]
    generalize r.advance = turn at ht ⊢
    obtain ⟨ho, ha, hi, -⟩ := applySnapshot_keeps hs
    refine ⟨?_, fun c₂ _ hc₂ fuel hf => ?_⟩
    · have h := (takeTurns_ends ht.counts (c := c₁) (w := w) (Nat.le_refl _)).coherent ht
      exact ⟨by rw [← ho, ← ha]; exact h.requests, h.interrupted, h.failed, by rw [← hi]; exact h.history,
        h.settled⟩
    · rw [hs] at hc₂
      cases hc₂
      exact takeTurns_fuel ht.counts (by rwa [ho, ha])

end Agent

end ScriptAgent

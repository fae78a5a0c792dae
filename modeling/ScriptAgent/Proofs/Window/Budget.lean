import Mathlib.Algebra.Order.BigOperators.Group.List
import Mathlib.Algebra.Order.Group.Nat
import ScriptAgent.Proofs.Loop.Invariant
import ScriptAgent.Proofs.Loop.ScriptOutcome

/-!
# The budget of a message window

Truncation counts tokens part by part, and the model is sent whole messages: the first one as its system
prompt, the others as they are, and none that is blank.  Since a text rounds its tokens up once where its
parts do so each, a request has no more tokens than what was left of the parts, and so no more than the
budget.  This needs that only the first message is the system's, which holds of every context that runs
leave.
-/

namespace ScriptAgent

/-! ### Tokens of messages -/

theorem Text.tokensOf_add_le (m n : Nat) : tokensOf (m + n) ≤ tokensOf m + tokensOf n := by
  simp only [tokensOf]
  omega

theorem Wrapping.tokens_join_le (own : List Part) : Text.tokens (join own) ≤ (own.map Part.tokens).sum := by
  have joined (own : List Part) : Text.tokens (join own) = Text.tokensOf (own.flatMap (·.content)).length := by
    rw [Text.tokens, join, String.length_ofList]
  rw [joined]
  induction own with
  | nil => exact Nat.le_refl 0
  | cons p rest ih =>
    rw [List.flatMap_cons, List.length_append, List.map_cons, List.sum_cons]
    exact Nat.le_trans (Text.tokensOf_add_le _ _) (Nat.add_le_add_left ih _)

/-- The tokens of the contents of messages. -/
def contentTokens (messages : List Message) : Nat :=
  (messages.map fun m => Text.tokens m.content).sum

@[simp] theorem contentTokens_cons (m : Message) (rest : List Message) :
    contentTokens (m :: rest) = Text.tokens m.content + contentTokens rest := rfl

theorem contentTokens_filter_le (keep : Message → Bool) (messages : List Message) :
    contentTokens (messages.filter keep) ≤ contentTokens messages :=
  (List.filter_sublist.map _).sum_le_sum fun _ _ => Nat.zero_le _

namespace Truncate

variable {messages shorter : List Message} {owns : List (List Part)} {limit : Nat}

theorem kept_placedFrom (n : Nat) (messages : List Message) : kept (placedFrom n messages) =
    (messages.map fun m => ((Wrapping.parts m.content).map Part.kept).sum).sum := by
  induction messages generalizing n with
  | nil => rfl
  | cons m rest ih =>
    have hrest := ih (n + 1)
    simp only [kept, ← List.sum_eq_foldr] at hrest ⊢
    simp [placedFrom, hrest, Function.comp_def]

/-- What messages keep is what their parts keep. -/
theorem floor_eq (messages : List Message) :
    floor messages = (messages.map fun m => ((Wrapping.parts m.content).map Part.kept).sum).sum :=
  kept_placedFrom 0 messages

theorem contentTokens_withParts_le (messages : List Message) (owns : List (List Part)) :
    contentTokens (List.zipWith withParts messages owns) ≤ (owns.flatten.map Part.tokens).sum := by
  induction messages generalizing owns with
  | nil => exact Nat.zero_le _
  | cons m rest ih =>
    cases owns with
    | nil => exact Nat.le_refl 0
    | cons own owns =>
      rw [List.zipWith_cons_cons, contentTokens_cons, List.flatten_cons, List.map_append, List.sum_append]
      exact Nat.add_le_add (Wrapping.tokens_join_le own) (ih owns)

/-- Message by message there are no more tokens left than part by part. -/
theorem Fitted.contentTokens_le (h : Fitted messages limit shorter owns) : contentTokens shorter ≤ limit := by
  calc contentTokens shorter
    _ ≤ (owns.flatten.map Part.tokens).sum := h.contents ▸ contentTokens_withParts_le messages owns
    _ = min (initial messages) limit := h.tokens
    _ ≤ limit := Nat.min_le_right _ _

theorem roles_withParts (messages : List Message) {owns : List (List Part)} (h : messages.length = owns.length) :
    (List.zipWith withParts messages owns).map (·.role) = messages.map (·.role) := by
  induction messages generalizing owns with
  | nil => rfl
  | cons m rest ih =>
    cases owns with
    | nil => cases h
    | cons own owns =>
      rw [List.zipWith_cons_cons, List.map_cons, List.map_cons, ih (Nat.succ.inj h)]
      rfl

/-- Truncation changes contents only. -/
theorem Fitted.roles (h : Fitted messages limit shorter owns) : shorter.map (·.role) = messages.map (·.role) :=
  h.contents ▸ roles_withParts messages h.parts.length_eq

end Truncate

/-! ### Where only the first message is the system's -/

/-- None of the messages that the model is told besides the first ones is the system's.  A context that was
set up and not yet run has no such message at all. -/
def Context.SystemFirst (c : Context) : Prop :=
  ∀ m ∈ c.pending, m.role ≠ .system

theorem Context.SystemFirst.tell {c : Context} (h : c.SystemFirst) {told : List Message}
    (spoken : ∀ m ∈ told, m.role ≠ .system) : (c.tell told).SystemFirst := by
  intro m hm
  rcases List.mem_append.mp hm with hm | hm
  · exact h m hm
  · exact spoken m hm

theorem Turn.Verdict.role_ne_system {code : String} {i : Iteration} {told : List Message} (h : Verdict code i told) :
    ∀ m ∈ told, m.role ≠ .system := by
  cases h <;> simp [report, Feedback.assistant, Feedback.fromSandbox, Message.assistant]

namespace Agent

/-- A turn tells the model at most what it wrote itself and what came of it. -/
theorem turn_tells (r : Agent) (c : Context) (host : Host) (requests : List GenerateRequest) :
    ∃ told, (r.turn c host requests).2.context.pending = c.pending ++ told ∧ ∀ m ∈ told, m.role ≠ .system := by
  rcases Turn.whole_cases r (s := turnStart c host requests) rfl with ⟨e, s, hwhole, hasks⟩ | ⟨code, s, hwhole, hasks⟩
  · refine ⟨[], ?_, nofun⟩
    rw [turn_of_whole hwhole, List.append_nil]
    exact congrArg (·.pending) hasks.context
  · have hopen : s.iteration.Open := by
      obtain ⟨messages, call, hiteration⟩ := hasks.iteration
      rw [hiteration]
      exact ⟨rfl, rfl, rfl, rfl⟩
    obtain ⟨-, told, hverdict, htold⟩ := Turn.rules_runCode r code s hopen
    refine ⟨told, ?_, hverdict.role_ne_system⟩
    rw [turn_of_whole hwhole]
    exact htold.trans (congrArg (·.pending ++ told) hasks.context)

theorem role_resumeMessage {c : Context} {s : Snapshot} {message : Message}
    (h : resumeMessage? c s = some message) : message.role ≠ .system := by
  unfold resumeMessage? at h
  split at h <;> cases h <;> simp [Feedback.resolved, Feedback.rejected, Feedback.fromSandbox]

theorem pending_resumedVariables (c : Context) (s : Snapshot) : (resumedVariables c s).pending = c.pending := by
  rw [resumedVariables_eq]
  rfl

theorem systemFirst_applySnapshot {c : Context} (h : c.SystemFirst) : (applySnapshot c).1.SystemFirst := by
  unfold applySnapshot
  cases c.resume with
  | none => exact h
  | some s =>
    have hresumed : (resumedVariables { c with resume := none } s).SystemFirst := by
      rw [Context.SystemFirst, pending_resumedVariables]
      exact h
    dsimp only
    split
    · exact hresumed
    · next message hmessage =>
      refine hresumed.tell ?_
      intro m hm
      rw [List.mem_singleton.mp hm]
      exact role_resumeMessage hmessage

/-- Nobody but the host speaks for the system, and it only does so first. -/
theorem invariant_systemFirst : Invariant Context.SystemFirst where
  advance {c} h r w := by
    obtain ⟨told, hpending, hspoken⟩ := r.turn_tells c w.host w.requests
    obtain ⟨t, ht⟩ : ∃ t, r.turn c w.host w.requests = t := ⟨_, rfl⟩
    rw [ht] at hpending
    rw [advance_of_turn ht]
    show ∀ m ∈ t.2.context.pending, m.role ≠ .system
    rw [hpending]
    exact h.tell hspoken
  onto h _ := h
  applied h := systemFirst_applySnapshot h
  aborted h _ := h
  finished _ := nofun

/-! ### What is sent -/

/-- How many tokens a request may have. -/
def tokenBudget (r : Agent) (c : Context) : Nat :=
  windowBudget (r.client.details c.options.model).contextSize

/-- A request that carries messages in their order: the first as the system prompt, and all others but those
that are blank. -/
structure Carries (asked : GenerateRequest) (system : Message) (others : List Message) : Prop where
  system : asked.systemPrompt = some (if Text.isBlankText system.content then "" else system.content)
  others : asked.messages = others.filter fun m => !Text.isBlankText m.content

theorem promptMessages_cons (c : Context) : ∃ system, promptMessages c =
    system :: Prompt.userMessage c.promptInputs :: c.pending ∧ system.role = .system := by
  obtain ⟨system, hsystem⟩ := Option.isSome_iff_exists.mp (Prompt.systemMessage?_isSome c.promptInputs)
  refine ⟨system, by rw [promptMessages, hsystem]; rfl, ?_⟩
  obtain ⟨text, -, rfl⟩ := Option.map_eq_some_iff.mp hsystem
  rfl

/-- After truncation, too, only the first message is the system's. -/
theorem exists_system_of_fitted {c : Context} (first : c.SystemFirst) {limit : Nat} {shorter : List Message}
    {owns : List (List Part)} (h : Truncate.Fitted (promptMessages c) limit shorter owns) :
    ∃ system others, shorter = system :: others ∧ system.role = .system ∧ ∀ m ∈ others, m.role ≠ .system := by
  obtain ⟨system, hprompt, hrole⟩ := promptMessages_cons c
  have hroles := h.roles
  rw [hprompt, List.map_cons] at hroles
  obtain ⟨system', others, rfl, hsystem, hothers⟩ := List.map_eq_cons_iff.mp hroles
  refine ⟨system', others, rfl, hsystem.trans hrole, fun m hm hrole => ?_⟩
  have hmem : Role.system ∈ (Prompt.userMessage c.promptInputs :: c.pending).map (·.role) :=
    hothers ▸ hrole ▸ List.mem_map_of_mem hm
  obtain ⟨m', hm', hrole'⟩ := List.mem_map.mp hmem
  rcases List.mem_cons.mp hm' with rfl | hm'
  · cases hrole'
  · exact first m' hm' hrole'

theorem request_carries (r : Agent) (c : Context) {system : Message} {others : List Message}
    (hsystem : system.role = .system) (hothers : ∀ m ∈ others, m.role ≠ .system) :
    Carries (Turn.request r c ((system :: others).filter fun m => !Text.isBlankText m.content)) system others := by
  have hnone : (others.filter fun m => !Text.isBlankText m.content).filter (·.role == .system) = [] :=
    List.filter_eq_nil_iff.mpr fun m hm => by simpa using hothers m (List.mem_of_mem_filter hm)
  have hall : (others.filter fun m => !Text.isBlankText m.content).filter (·.role != .system) =
      others.filter fun m => !Text.isBlankText m.content :=
    List.filter_eq_self.mpr fun m hm => by simpa using hothers m (List.mem_of_mem_filter hm)
  by_cases hblank : Text.isBlankText system.content = true
  · have hkept : ((system :: others).filter fun m => !Text.isBlankText m.content) =
        others.filter fun m => !Text.isBlankText m.content := by simp [hblank]
    exact ⟨by rw [hkept, Turn.request, hnone, hblank]; rfl, by rw [hkept]; exact hall⟩
  · have hkept : ((system :: others).filter fun m => !Text.isBlankText m.content) =
        system :: others.filter fun m => !Text.isBlankText m.content := by simp [hblank]
    constructor
    · rw [hkept, Turn.request, List.filter_cons_of_pos (by simp [hsystem]), hnone, if_neg hblank]
      rfl
    · rw [hkept, Turn.request]
      dsimp only
      rw [List.filter_cons_of_neg (by simp [hsystem]), hall]

/-- A request has no more tokens than what it carries. -/
theorem Carries.inputTokens_le {asked : GenerateRequest} {system : Message} {others : List Message}
    (h : Carries asked system others) : asked.inputTokens ≤ contentTokens (system :: others) := by
  have hprompt : Text.tokens (if Text.isBlankText system.content then "" else system.content) ≤
      Text.tokens system.content := by
    split
    · exact Nat.zero_le _
    · exact Nat.le_refl _
  have hothers := contentTokens_filter_le (fun m => !Text.isBlankText m.content) others
  have hsum : asked.inputTokens = contentTokens asked.messages + (asked.systemPrompt.map Text.tokens).getD 0 := by
    rw [GenerateRequest.inputTokens, contentTokens, List.sum_eq_foldr]
  rw [hsum, h.system, h.others, contentTokens_cons, Option.map_some, Option.getD_some]
  omega

/-! ### Every turn -/

/-- What a turn sends to the model: what is left of all messages once they are cut down to the budget, or
nothing, where no cut brings them within it. -/
inductive Windowed (r : Agent) (c : Context) (requests : List GenerateRequest) (t : Option RunError × TurnState) : Prop
  | sent {system : Message} {others : List Message} {owns : List (List Part)} {asked : GenerateRequest}
      (fits : Truncate.floor (promptMessages c) ≤ r.tokenBudget c)
      (truncated : truncateMessages (promptMessages c) (r.tokenBudget c) = .ok (system :: others))
      (fitted : Truncate.Fitted (promptMessages c) (r.tokenBudget c) (system :: others) owns)
      (asks : t.2.requests = requests ++ [asked]) (carries : Carries asked system others)
      (within : asked.inputTokens ≤ r.tokenBudget c)
  | overflow {e : RunError} (exceeds : r.tokenBudget c < Truncate.floor (promptMessages c))
      (cause : e = .model (.contextOverflow (Truncate.floor (promptMessages c)) (r.tokenBudget c)))
      (fatal : t.1 = some e) (unasked : t.2.requests = requests) (uncalled : t.2.iteration.call = none)
      (failed : t.2.iteration.status = .failed) (error : t.2.iteration.error = some (.generation e.message))

/-- The requests of a turn go with its window, and their tokens are within the budget. -/
theorem Windowed.requests {r : Agent} {c : Context} {requests : List GenerateRequest}
    {t : Option RunError × TurnState} (h : Windowed r c requests t) :
    ∃ asked, t.2.requests = requests ++ asked ∧ ∀ q ∈ asked, q.inputTokens ≤ r.tokenBudget c := by
  cases h with
  | sent fits truncated fitted asks carries within => exact ⟨_, asks, by simpa using within⟩
  | overflow exceeds cause fatal unasked => exact ⟨[], by simpa using unasked, nofun⟩

theorem turn_of_window_error {r : Agent} {c : Context} {e : RunError} (h : Turn.window r.client c = .error e)
    (host : Host) (requests : List GenerateRequest) : ∃ t, r.turn c host requests = (some e, t) ∧ t.requests = requests ∧
      t.iteration.call = none ∧ t.iteration.status = .failed ∧ t.iteration.error = some (.generation e.message) := by
  have hcycle := Turn.cycle_of_window_error (s := Turn.recorded (turnStart c host requests))
    ((window_turnStart r.client c host requests).trans h)
  have hwhole : Turn.whole r (turnStart c host requests) =
      (some e, (Turn.failWith (.generation e.message) (Turn.recorded (turnStart c host requests))).2) := by
    rw [Turn.whole_apply, Turn.recordCorrelation_apply, hcycle]
  exact ⟨_, turn_of_whole hwhole, rfl, rfl, rfl, rfl⟩

theorem turn_windowed (r : Agent) {c : Context} (first : c.SystemFirst) (host : Host)
    (requests : List GenerateRequest) : Windowed r c requests (r.turn c host requests) := by
  rcases Truncate.truncateMessages_cases (promptMessages c) (r.tokenBudget c) with
    ⟨hfits, shorter, owns, hshorter, hfitted⟩ | ⟨hexceeds, herror⟩
  · obtain ⟨system, others, rfl, hsystem, hothers⟩ := exists_system_of_fitted first hfitted
    have hcarries := request_carries r c hsystem hothers
    exact .sent hfits hshorter hfitted (turn_requests (window_of_truncated (allMessages_eq c) hshorter) host requests)
      hcarries (Nat.le_trans hcarries.inputTokens_le hfitted.contentTokens_le)
  · have hwindow : Turn.window r.client c = _ := Truncate.window_of_error (allMessages_eq c) rfl herror
    obtain ⟨t, hturn, hrequests, hcall, hstatus, herror⟩ := turn_of_window_error hwindow host requests
    rw [hturn]
    exact .overflow hexceeds rfl rfl hrequests hcall hstatus herror

/-! ### Every run -/

/-- Requests were added whose tokens are within the budget of a context. -/
def Within (r : Agent) (c : Context) (w w' : World) : Prop :=
  ∃ asked, w'.requests = w.requests ++ asked ∧ ∀ q ∈ asked, q.inputTokens ≤ r.tokenBudget c

theorem Within.refl (r : Agent) (c : Context) (w : World) : Within r c w w :=
  ⟨[], by simp, nofun⟩

theorem Within.trans {r : Agent} {c : Context} {w w₁ w₂ : World} (h : Within r c w w₁) (h' : Within r c w₁ w₂) :
    Within r c w w₂ := by
  obtain ⟨asked, hasked, hwithin⟩ := h
  obtain ⟨more, hmore, hwithin'⟩ := h'
  refine ⟨asked ++ more, by rw [hmore, hasked, List.append_assoc], fun q hq => ?_⟩
  rcases List.mem_append.mp hq with hq | hq
  · exact hwithin q hq
  · exact hwithin' q hq

theorem advance_within (r : Agent) {c : Context} (first : c.SystemFirst) (w : World) :
    Within r c w (r.advance c w).2.2 := by
  have hrequests := (r.turn_windowed first w.host w.requests).requests
  obtain ⟨t, ht⟩ : ∃ t, r.turn c w.host w.requests = t := ⟨_, rfl⟩
  rw [ht] at hrequests
  rw [advance_of_turn ht]
  exact hrequests

theorem Passes.within {r : Agent} {c c' : Context} {w w' : World} {ending : Option RunEnding}
    (h : Passes r.advance c w ending c' w') (first : c.SystemFirst) : c'.options = c.options ∧ Within r c w w' := by
  induction h with
  | start => exact ⟨rfl, .refl r c w⟩
  | @turn c₁ c₂ w₁ w₂ ending before unaborted left turned ih =>
    obtain ⟨hoptions, hwithin⟩ := ih
    have hnext := r.advance_within (invariant_systemFirst.passes first before) w₁
    obtain ⟨i, hi⟩ := r.advance_advanced c₁ w₁
    rw [turned] at hnext hi
    rw [Within, tokenBudget, hoptions] at hnext
    exact ⟨hi.options.trans hoptions, hwithin.trans hnext⟩

theorem Ends.within {r : Agent} {c : Context} {w : World} {res : RunResult} (h : Ends r.advance c w res)
    (first : c.SystemFirst) : Within r c w res.world := by
  cases h with
  | aborted passed => exact (passed.within first).2
  | exceeded passed => exact (passed.within first).2
  | turned passed => exact (passed.within first).2

theorem run_within (r : Agent) {c : Context} (first : c.SystemFirst) (w : World) : Within r c w (r.run c w).world := by
  rcases r.run_cases c w with ⟨e, c₁, hr, -⟩ | ⟨c₁, -, hs, hr⟩
  · rw [hr]
    exact .refl r c w
  · rw [hr]
    have hfirst : c₁.SystemFirst := by
      have := systemFirst_applySnapshot first
      rwa [hs] at this
    have hoptions : r.tokenBudget c₁ = r.tokenBudget c := by rw [tokenBudget, (applySnapshot_keeps hs).1, tokenBudget]
    rw [Within, ← hoptions]
    exact (takeTurns_ends (Advances.counts (advance_advanced r)) (Nat.le_refl _)).within hfirst

theorem play_within (r : Agent) {c : Context} (first : c.SystemFirst) (move : Move) (w : World) :
    Within r c w (r.play move c w).world := by
  have goOn (s : Except RunError Snapshot) : Within r c w (r.goOn c w s).world := by
    cases s with
    | error e => exact .refl r c w
    | ok s => exact r.run_within (invariant_systemFirst.onto first (some s)) w
  cases move with
  | run => exact r.run_within first w
  | resolve s value => exact goOn _
  | reject s error => exact goOn _

/-- The model never receives more than the budget.  Whatever a context has become, its next turn sends what is
left of all messages after truncation, or fails without asking the model if they cannot fit; and whatever move
comes next, no request of it has more tokens than the budget. -/
theorem requests_are_windowed (r : Agent) {c c' : Context} (first : c.SystemFirst) (became : Becomes c c') :
    (∀ host requests, Windowed r c' requests (r.turn c' host requests)) ∧
      ∀ move w, Within r c' w (r.play move c' w).world := by
  have first' : c'.SystemFirst := invariant_systemFirst.becomes first became
  exact ⟨fun host requests => r.turn_windowed first' host requests, fun move w => r.play_within first' move w⟩

/-- A context whose model is told of its last script. -/
def remindedContext : Context where
  id := "ctx"
  instructions := "Be brief."
  pending := Turn.report "let = 1;" "The code you provided is invalid."

theorem floor_remindedContext : 0 < Truncate.floor (promptMessages remindedContext) := by
  have hmem : Prompt.userMessage remindedContext.promptInputs ∈ promptMessages remindedContext :=
    List.mem_append_right _ (.head _)
  have hparts : 0 < ((Wrapping.parts (Prompt.userMessage remindedContext.promptInputs).content).map Part.kept).sum := by
    decide +kernel
  rw [Truncate.floor_eq]
  exact Nat.lt_of_lt_of_le hparts (List.single_le_sum (by simp) _ (List.mem_map_of_mem hmem))

/-- With enough room the model is asked, with no room it is not. -/
theorem remindedContext_is_windowed :
    remindedContext.SystemFirst ∧ Becomes remindedContext remindedContext ∧
      (∃ room system others asked,
        truncateMessages (promptMessages remindedContext) (windowBudget room) = .ok (system :: others) ∧
        ((waitingAgent room).turn remindedContext {} []).2.requests = [asked] ∧ Carries asked system others ∧
        asked.inputTokens ≤ windowBudget room) ∧
      ∃ e, ((waitingAgent 0).turn remindedContext {} []).1 = some e ∧
        ((waitingAgent 0).turn remindedContext {} []).2.requests = [] := by
  have first : remindedContext.SystemFirst := by
    simp [Context.SystemFirst, remindedContext, Turn.report, Feedback.assistant, Feedback.fromSandbox, Message.assistant]
  have windowed (room : Nat) := (requests_are_windowed (waitingAgent room) first .start).1 {} []
  refine ⟨first, .start, ?_, ?_⟩
  · obtain ⟨room, hroom⟩ : ∃ room, Truncate.floor (promptMessages remindedContext) ≤ windowBudget room :=
      ⟨_, le_windowBudget _⟩
    refine ⟨room, ?_⟩
    cases windowed room with
    | sent fits truncated fitted asks carries within => exact ⟨_, _, _, truncated, asks, carries, within⟩
    | overflow exceeds => exact absurd hroom (Nat.not_le.mpr exceeds)
  · cases windowed 0 with
    | sent fits => exact absurd fits (Nat.not_le.mpr floor_remindedContext)
    | overflow exceeds cause fatal unasked => exact ⟨_, fatal, unasked⟩

end Agent

end ScriptAgent

import Mathlib
import ScriptAgent.Loop.Turn
import ScriptAgent.Proofs.Window.Cuts

/-!
# Truncation fits exactly

Messages can be shortened to a limit exactly if the tokens that stay whatever is cut are within it.
Shrinking then stops at the limit itself, so no more is cut than there is too much, and each message
keeps its own parts in their order.
-/

namespace ScriptAgent

namespace Truncate

/-! ### Shrinking -/

/-- What shrinking comes to: parts cut down to the limit and no further, or the tokens that stay. -/
theorem shrink_cases (limit : Nat) {fuel : Nat} {ps : List Placed} (hfuel : total ps ≤ fuel) :
    kept ps ≤ limit ∧ (∃ qs, shrink limit fuel ps = .ok qs ∧ List.Forall₂ LeftOf ps qs ∧
        total qs = min (total ps) limit) ∨
      limit < kept ps ∧ shrink limit fuel ps = .error (kept ps) := by
  have fits {ps : List Placed} (h : total ps ≤ limit) {r : Except Nat (List Placed)} (hr : r = .ok ps) :
      kept ps ≤ limit ∧ ∃ qs, r = .ok qs ∧ List.Forall₂ LeftOf ps qs ∧ total qs = min (total ps) limit :=
    ⟨Nat.le_trans (kept_le_total ps) h, ps, hr, leftOf_refl ps, (Nat.min_eq_left h).symm⟩
  induction fuel generalizing ps with
  | zero => exact .inl (fits (by omega) rfl)
  | succ fuel ih =>
    rcases Nat.lt_or_ge limit (total ps) with hover | hfits
    · rcases step?_cases ps (Nat.sub_pos_of_lt hover) with
        ⟨hall, hstep⟩ | ⟨n, ps', i, p, hpos, hle, hcut, hstep⟩
      · have hkept : kept ps = total ps := kept_eq_total hall
        exact .inr ⟨hkept ▸ hover, by simp [shrink, Nat.not_le.mpr hover, hstep, hkept]⟩
      · -- the step takes at least one token and no more than the excess
        have htotal := hcut.total
        have hkept : kept ps' = kept ps := kept_eq_of_leftOf hcut.leftOf
        have hshrink : shrink limit (fuel + 1) ps = shrink limit fuel ps' := by
          simp [shrink, Nat.not_le.mpr hover, hstep]
        rw [hshrink, ← hkept]
        rcases ih (show total ps' ≤ fuel by omega) with ⟨hlimit, qs, hok, hleft, hqs⟩ | herror
        · exact .inl ⟨hlimit, qs, hok, leftOf_trans hcut.leftOf hleft, by omega⟩
        · exact .inr herror
    · exact .inl (fits hfits (by simp [shrink, hfits]))

/-- Fuel beyond the number of tokens makes no difference. -/
theorem shrink_fuel (limit : Nat) {fuel fuel' : Nat} {ps : List Placed} (h : total ps ≤ fuel)
    (h' : total ps ≤ fuel') : shrink limit fuel ps = shrink limit fuel' ps := by
  induction fuel generalizing fuel' ps with
  | zero =>
    have hfits : total ps ≤ limit := by omega
    cases fuel' <;> simp [shrink, hfits]
  | succ fuel ih =>
    rcases Nat.lt_or_ge limit (total ps) with hover | hfits
    · obtain ⟨fuel', rfl⟩ : ∃ n, fuel' = n + 1 := ⟨fuel' - 1, by omega⟩
      rcases step?_cases ps (Nat.sub_pos_of_lt hover) with
        ⟨-, hstep⟩ | ⟨n, ps', i, p, hpos, -, hcut, hstep⟩
      · simp [shrink, Nat.not_le.mpr hover, hstep]
      · have htotal := hcut.total
        simp only [shrink, Nat.not_le.mpr hover, hstep, ↓reduceIte]
        exact ih (by omega) (by omega)
    · cases fuel' <;> simp [shrink, hfits]

/-! ### Parts of messages -/

/-- Parts with the numbers of their messages, given message by message. -/
def number : Nat → List (List Part) → List Placed
  | _, [] => []
  | n, own :: rest => own.map (⟨n, ·⟩) ++ number (n + 1) rest

theorem placedFrom_eq (n : Nat) (messages : List Message) :
    placedFrom n messages = number n (messages.map (Wrapping.parts ·.content)) := by
  induction messages generalizing n with
  | nil => rfl
  | cons m rest ih => simp [placedFrom, number, ih]

theorem le_message_of_mem_number {n : Nat} {owns : List (List Part)} {p : Placed} (h : p ∈ number n owns) :
    n ≤ p.message := by
  induction owns generalizing n with
  | nil => cases h
  | cons own rest ih =>
    rcases List.mem_append.mp h with h | h
    · obtain ⟨q, -, rfl⟩ := List.mem_map.mp h
      exact Nat.le_refl n
    · exact Nat.le_of_succ_le (ih h)

theorem total_number (n : Nat) (owns : List (List Part)) :
    total (number n owns) = (owns.flatten.map Part.tokens).sum := by
  induction owns generalizing n with
  | nil => rfl
  | cons own rest ih =>
    have := ih (n + 1)
    simp only [total, ← List.sum_eq_foldr] at this ⊢
    simp [number, this, Function.comp_def]

/-- Parts in the places of numbered ones are numbered the same, however they are related to them. -/
theorem exists_number_of_forall₂ {R : Part → Part → Prop} {n : Nat} {owns : List (List Part)} {qs : List Placed}
    (h : List.Forall₂ (fun p q => q.message = p.message ∧ R p.part q.part) (number n owns) qs) :
    ∃ owns', qs = number n owns' ∧ List.Forall₂ (List.Forall₂ R) owns owns' := by
  induction owns generalizing n qs with
  | nil => exact ⟨[], List.forall₂_nil_left_iff.mp h, .nil⟩
  | cons own rest ih =>
    have split (own : List Part) {qs : List Placed}
        (h : List.Forall₂ (fun p q => q.message = p.message ∧ R p.part q.part)
          (own.map (⟨n, ·⟩) ++ number (n + 1) rest) qs) :
        ∃ own' qs', qs = own'.map (⟨n, ·⟩) ++ qs' ∧ List.Forall₂ R own own' ∧
          List.Forall₂ (fun p q => q.message = p.message ∧ R p.part q.part) (number (n + 1) rest) qs' := by
      induction own generalizing qs with
      | nil => exact ⟨[], qs, rfl, .nil, h⟩
      | cons p own ih =>
        obtain ⟨⟨m, q⟩, qs₁, hq, hrest, rfl⟩ := List.forall₂_cons_left_iff.mp h
        obtain ⟨own', qs', rfl, hown, hqs'⟩ := ih hrest
        obtain ⟨rfl, hpq⟩ := hq
        exact ⟨q :: own', qs', rfl, .cons hpq hown, hqs'⟩
    obtain ⟨own', qs', rfl, hown, hqs'⟩ := split own h
    obtain ⟨owns', rfl, howns⟩ := ih hqs'
    exact ⟨own' :: owns', rfl, .cons hown howns⟩

/-- A message whose content is given by its parts. -/
def withParts (m : Message) (own : List Part) : Message :=
  { m with content := Wrapping.join own }

theorem filter_number_eq (n : Nat) (earlier : List Placed) (own : List Part) (rest : List (List Part))
    (hearlier : ∀ p ∈ earlier, p.message < n) :
    ((earlier ++ number n (own :: rest)).filter (·.message == n)).map (·.part) = own := by
  have hnone : earlier.filter (·.message == n) = [] :=
    List.filter_eq_nil_iff.mpr fun p hp => by simpa using Nat.ne_of_lt (hearlier p hp)
  have hall : (own.map (Placed.mk n)).filter (·.message == n) = own.map (Placed.mk n) :=
    List.filter_eq_self.mpr fun p hp => by
      obtain ⟨q, -, rfl⟩ := List.mem_map.mp hp
      simp
  have hlater : (number (n + 1) rest).filter (·.message == n) = [] :=
    List.filter_eq_nil_iff.mpr fun p hp => by
      simpa using Nat.ne_of_gt (Nat.lt_of_succ_le (le_message_of_mem_number hp))
  simp [number, List.filter_append, hnone, hall, hlater, Function.comp_def]

/-- Every message gets back its own parts. -/
theorem rejoinFrom_number (n : Nat) {messages : List Message} {owns : List (List Part)}
    (hlength : messages.length = owns.length) :
    rejoinFrom (number n owns) n messages = List.zipWith withParts messages owns := by
  suffices h : ∀ earlier : List Placed, (∀ p ∈ earlier, p.message < n) →
      rejoinFrom (earlier ++ number n owns) n messages = List.zipWith withParts messages owns from
    h [] (by simp)
  induction messages generalizing n owns with
  | nil => intro _ _; rfl
  | cons m rest ih =>
    intro earlier hearlier
    cases owns with
    | nil => simp at hlength
    | cons own owns =>
      have hnext : ∀ p ∈ earlier ++ own.map (Placed.mk n), p.message < n + 1 := by
        intro p hp
        rcases List.mem_append.mp hp with hp | hp
        · exact Nat.lt_succ_of_lt (hearlier p hp)
        · obtain ⟨q, -, rfl⟩ := List.mem_map.mp hp
          exact Nat.lt_succ_self n
      have hrest := ih (n + 1) (show rest.length = owns.length by simpa using hlength) _ hnext
      rw [rejoinFrom, filter_number_eq n earlier own owns hearlier, List.zipWith_cons_cons]
      rw [List.append_assoc] at hrest
      exact congrArg _ hrest

/-! ### Messages -/

/-- The tokens of all parts of messages. -/
def initial (messages : List Message) : Nat :=
  total (placedFrom 0 messages)

/-- The tokens of messages that stay whatever is cut: all of those outside of markers, and of each wrapped
text those that it keeps. -/
def floor (messages : List Message) : Nat :=
  kept (placedFrom 0 messages)

/-- How messages go with what is left of them: each is made of what is left of its own parts, which all
together have the limit's tokens, or all their tokens if those are within the limit. -/
structure Fitted (messages : List Message) (limit : Nat) (shorter : List Message) (owns : List (List Part)) :
    Prop where
  contents : shorter = List.zipWith withParts messages owns
  parts : List.Forall₂ (fun m own => List.Forall₂ Part.LeftOf (Wrapping.parts m.content) own) messages owns
  tokens : (owns.flatten.map Part.tokens).sum = min (initial messages) limit

theorem truncateMessages_of_le {messages : List Message} {limit : Nat} (h : initial messages ≤ limit) :
    truncateMessages messages limit = .ok (messages.map fun m => { m with content := Wrapping.strip m.content }) := by
  have hshrink : shrink limit (total (placedFrom 0 messages)) (placedFrom 0 messages) = .ok (placedFrom 0 messages) := by
    unfold initial at h
    cases hfuel : total (placedFrom 0 messages) with
    | zero => rfl
    | succ fuel => simp [shrink, h]
  have hjoin : rejoinFrom (placedFrom 0 messages) 0 messages =
      messages.map fun m => { m with content := Wrapping.strip m.content } := by
    rw [placedFrom_eq, rejoinFrom_number 0 (by simp)]
    simp [List.zipWith_map_right, List.zipWith_self, withParts, Wrapping.strip]
  simp only [truncateMessages, hshrink, hjoin, bind, Except.bind, pure, Except.pure]

theorem truncateMessages_cases (messages : List Message) (limit : Nat) :
    floor messages ≤ limit ∧ (∃ shorter owns, truncateMessages messages limit = .ok shorter ∧
        Fitted messages limit shorter owns) ∨
      limit < floor messages ∧ truncateMessages messages limit = .error (floor messages) := by
  rcases shrink_cases limit (Nat.le_refl (total (placedFrom 0 messages))) with
    ⟨hfloor, qs, hok, hleft, htotal⟩ | ⟨hfloor, herror⟩
  · rw [placedFrom_eq] at hleft
    obtain ⟨owns, rfl, howns⟩ := exists_number_of_forall₂ (R := Part.LeftOf) hleft
    have hlength : messages.length = owns.length := by simpa using howns.length_eq
    refine .inl ⟨hfloor, _, owns, ?_, rejoinFrom_number 0 hlength, List.forall₂_map_left_iff.mp howns, ?_⟩
    · simp only [truncateMessages, hok, bind, Except.bind, pure, Except.pure]
    · rw [← total_number 0 owns, htotal, initial]
  · exact .inr ⟨hfloor, by simp only [truncateMessages, herror, bind, Except.bind, floor]⟩

theorem window_of_error {client : ModelClient} {c : Context} {messages : List Message} {limit used : Nat}
    (hmessages : Turn.allMessages c = .ok messages)
    (hbudget : windowBudget (client.details c.options.model).contextSize = limit)
    (herror : truncateMessages messages limit = .error used) :
    Turn.window client c = .error (.model (.contextOverflow used limit)) := by
  unfold Turn.window
  rw [hmessages]
  simp only [bind, Except.bind, hbudget, herror]
  rfl

/-- Truncation succeeds exactly if what always stays is within the limit, and says else how much that is.
Messages within the limit only lose their markers; others are cut down to the limit itself.  Shrinking
ends by itself, since fuel beyond the tokens changes nothing, and none of its steps fails while a part can
still be shortened. -/
theorem truncation_is_exact (messages : List Message) (limit : Nat) :
    (floor messages ≤ limit → ∃ shorter owns, truncateMessages messages limit = .ok shorter ∧
      Fitted messages limit shorter owns) ∧
    (initial messages ≤ limit → truncateMessages messages limit =
      .ok (messages.map fun m => { m with content := Wrapping.strip m.content })) ∧
    (limit < floor messages → truncateMessages messages limit = .error (floor messages) ∧
      ∀ (client : ModelClient) (c : Context), Turn.allMessages c = .ok messages →
        windowBudget (client.details c.options.model).contextSize = limit →
        Turn.window client c = .error (.model (.contextOverflow (floor messages) limit))) ∧
    (∀ fuel, initial messages ≤ fuel → shrink limit fuel (placedFrom 0 messages) =
      shrink limit (initial messages) (placedFrom 0 messages)) ∧
    ∀ ps excess, 0 < excess → (step? ps excess = none ↔ ∀ p ∈ ps, p.part.isShrinkable = false) := by
  refine ⟨fun hfloor => ?_, truncateMessages_of_le, fun hfloor => ?_, fun fuel hfuel => ?_,
    fun ps _ => step?_eq_none_iff ps⟩
  · rcases truncateMessages_cases messages limit with ⟨-, hok⟩ | ⟨hlt, -⟩
    · exact hok
    · exact absurd hfloor (Nat.not_le.mpr hlt)
  · rcases truncateMessages_cases messages limit with ⟨hle, -⟩ | ⟨-, herror⟩
    · exact absurd hle (Nat.not_le.mpr hfloor)
    · exact ⟨herror, fun client c hmessages hbudget => window_of_error hmessages hbudget herror⟩
  · exact shrink_fuel limit hfuel (Nat.le_refl _)

end Truncate

end ScriptAgent

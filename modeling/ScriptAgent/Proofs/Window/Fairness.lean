import ScriptAgent.Proofs.Window.Markers
import ScriptAgent.Proofs.Window.Shrinking

/-!
# Fair cuts

The one pass that looks for what to cut knows the heaviest part and how heavy the others are at most, also
after a tie and when a new heaviest part comes late.  So every cut takes from a heaviest part.  If tokens
weigh the same in all wrapped texts, a cut ends no further than one smallest cut below any other that can be
shortened; this stays so, since what was not cut only gets smaller by cuts of its own.
-/

namespace ScriptAgent

namespace Truncate

/-! ### The search for the heaviest part -/

/-- What the search knows of the parts it has seen: one of them is the heaviest, and no other is heavier than
the next one. -/
structure Heaviest.Knows (h : Heaviest) (seen : List Placed) : Prop where
  nothing : h.first = none → ∀ q ∈ seen, q.part.isShrinkable = false
  best : ∀ i, h.first = some i → ∃ p, seen[i]? = some p ∧ p.part.weight = h.weight
  bound : ∀ j q, seen[j]? = some q → q.part.isShrinkable = true →
    q.part.weight ≤ h.weight ∧ (h.first ≠ some j → q.part.weight ≤ h.nextWeight)

theorem Heaviest.knows_nothing : Knows {} [] := by
  refine ⟨?_, ?_, ?_⟩ <;> simp

/-- The ways in which one more part changes what is known. -/
theorem Heaviest.see_cases (h : Heaviest) (place : Nat) (p : Part) :
    p.isShrinkable = false ∧ h.see place p = h ∨
    p.isShrinkable = true ∧ h.first = none ∧
      h.see place p = { h with first := some place, tokens := p.tokens, weight := p.weight } ∨
    p.isShrinkable = true ∧ h.first ≠ none ∧ h.weight < p.weight ∧
      h.see place p = ⟨some place, p.tokens, p.weight, h.tokens, h.weight⟩ ∨
    p.isShrinkable = true ∧ h.first ≠ none ∧ p.weight ≤ h.weight ∧ h.nextWeight < p.weight ∧
      h.see place p = { h with nextTokens := p.tokens, nextWeight := p.weight } ∨
    p.isShrinkable = true ∧ h.first ≠ none ∧ p.weight ≤ h.weight ∧ p.weight ≤ h.nextWeight ∧
      h.see place p = h := by
  unfold see
  cases hp : p.isShrinkable with
  | false => simp
  | true =>
    cases hfirst : h.first with
    | none => simp
    | some i =>
      rcases Nat.lt_or_ge h.weight p.weight with hw | hw
      · simp [hw]
      · rcases Nat.lt_or_ge h.nextWeight p.weight with hn | hn
        · simp [Nat.not_lt.mpr hw, hw, hn]
        · simp [Nat.not_lt.mpr hw, Nat.not_lt.mpr hn, hw, hn]

theorem getElem?_concat_cases {seen : List Placed} {q r : Placed} {j : Nat} (h : (seen ++ [q])[j]? = some r) :
    seen[j]? = some r ∧ j < seen.length ∨ j = seen.length ∧ r = q := by
  rcases Nat.lt_trichotomy j seen.length with hj | rfl | hj
  · exact .inl ⟨by rwa [List.getElem?_append_left hj] at h, hj⟩
  · exact .inr ⟨rfl, by simpa using h.symm⟩
  · rw [List.getElem?_eq_none (by simpa using Nat.succ_le_of_lt hj)] at h
    cases h

/-- One more part: what was the heaviest becomes the next one when it is beaten, and a tie does not beat it. -/
theorem Heaviest.Knows.see {h : Heaviest} {seen : List Placed} (known : h.Knows seen) (q : Placed) :
    (h.see seen.length q.part).Knows (seen ++ [q]) := by
  have hold {i : Nat} {p : Placed} (hi : seen[i]? = some p) : (seen ++ [q])[i]? = some p := by
    rw [List.getElem?_append_left (List.getElem?_eq_some_iff.mp hi).1, hi]
  have hnew : (seen ++ [q])[seen.length]? = some q := List.getElem?_concat_length
  -- the part cannot be cut, is the first that can be, beats the heaviest, beats the next one, or beats neither
  rcases h.see_cases seen.length q.part with ⟨hq, hsee⟩ | ⟨-, hnone, hsee⟩ | ⟨-, hsome, hw, hsee⟩ |
    ⟨-, hsome, hw, hn, hsee⟩ | ⟨-, hsome, hw, hn, hsee⟩ <;> rw [hsee]
  · refine ⟨fun hnone r hr => ?_, fun i hi => ?_, fun j r hj hr => ?_⟩
    · rcases List.mem_append.mp hr with hr | hr
      · exact known.nothing hnone r hr
      · rwa [List.mem_singleton.mp hr]
    · obtain ⟨p, hp, hweight⟩ := known.best i hi
      exact ⟨p, hold hp, hweight⟩
    · rcases getElem?_concat_cases hj with ⟨hj, -⟩ | ⟨-, rfl⟩
      · exact known.bound j r hj hr
      · rw [hq] at hr
        cases hr
  · refine ⟨nofun, fun i hi => ⟨q, Option.some.inj hi ▸ hnew, rfl⟩, fun j r hj hr => ?_⟩
    rcases getElem?_concat_cases hj with ⟨hj, -⟩ | ⟨rfl, rfl⟩
    · have := known.nothing hnone r (List.mem_of_getElem? hj)
      rw [hr] at this
      cases this
    · exact ⟨Nat.le_refl _, fun hne => absurd rfl hne⟩
  · refine ⟨nofun, fun i hi => ⟨q, Option.some.inj hi ▸ hnew, rfl⟩, fun j r hj hr => ?_⟩
    rcases getElem?_concat_cases hj with ⟨hj, -⟩ | ⟨rfl, rfl⟩
    · have hle := (known.bound j r hj hr).1
      exact ⟨Nat.le_of_lt (Nat.lt_of_le_of_lt hle hw), fun _ => hle⟩
    · exact ⟨Nat.le_refl _, fun hne => absurd rfl hne⟩
  · refine ⟨fun hnone => absurd hnone hsome, fun i hi => ?_, fun j r hj hr => ?_⟩
    · obtain ⟨p, hp, hweight⟩ := known.best i hi
      exact ⟨p, hold hp, hweight⟩
    · rcases getElem?_concat_cases hj with ⟨hj, -⟩ | ⟨rfl, rfl⟩
      · obtain ⟨hle, hnext⟩ := known.bound j r hj hr
        exact ⟨hle, fun hne => Nat.le_of_lt (Nat.lt_of_le_of_lt (hnext hne) hn)⟩
      · exact ⟨hw, fun _ => Nat.le_refl _⟩
  · refine ⟨fun hnone => absurd hnone hsome, fun i hi => ?_, fun j r hj hr => ?_⟩
    · obtain ⟨p, hp, hweight⟩ := known.best i hi
      exact ⟨p, hold hp, hweight⟩
    · rcases getElem?_concat_cases hj with ⟨hj, -⟩ | ⟨rfl, rfl⟩
      · exact known.bound j r hj hr
      · exact ⟨hw, fun _ => hn⟩

theorem knows_heaviestFrom {h : Heaviest} {seen : List Placed} (known : h.Knows seen) (rest : List Placed) :
    (heaviestFrom h seen.length rest).Knows (seen ++ rest) := by
  induction rest generalizing h seen with
  | nil => simpa [heaviestFrom] using known
  | cons q rest ih => simpa [heaviestFrom] using ih (known.see q)

theorem knows_heaviest (ps : List Placed) : (heaviest ps).Knows ps :=
  knows_heaviestFrom Heaviest.knows_nothing ps

/-- A cut takes from a part that can be shortened and that none of the others outweighs. -/
theorem CutBy.heaviest {n i : Nat} {qs rs : List Placed} {p : Placed} (h : CutBy n qs rs i p)
    (first : (heaviest qs).first = some i) :
    ∀ q ∈ qs, q.part.isShrinkable = true → q.part.weight ≤ p.part.weight := by
  intro q hq hshrinkable
  obtain ⟨j, hj⟩ := List.getElem?_of_mem hq
  obtain ⟨p', hp', hweight⟩ := (knows_heaviest qs).best i first
  obtain rfl : p' = p := Option.some.inj (hp'.symm.trans h.found)
  rw [hweight]
  exact ((knows_heaviest qs).bound j q hj hshrinkable).1

/-! ### Where all tokens weigh the same -/

/-- All wrapped parts have the same weight for a token, and it is not nothing. -/
def SameFlex (flex : Nat) (ps : List Placed) : Prop :=
  ∀ p ∈ ps, ∀ o, p.part.wrapping = some o → o.flex = flex ∧ 0 < flex

theorem weight_of_sameFlex {flex : Nat} {ps : List Placed} (h : SameFlex flex ps) {p : Placed} (hp : p ∈ ps)
    (hshrinkable : p.part.isShrinkable = true) : p.part.weight = p.part.tokens * flex ∧ 0 < flex := by
  obtain ⟨o, ho⟩ := Option.isSome_iff_exists.mp (Part.isShrinkable_iff.mp hshrinkable).1
  obtain ⟨hflex, hpos⟩ := h p hp o ho
  exact ⟨by simp [Part.weight, ho, hflex], hpos⟩

/-- The weights in what is known are those of the tokens in it. -/
def Heaviest.Scaled (flex : Nat) (h : Heaviest) : Prop :=
  h.weight = h.tokens * flex ∧ h.nextWeight = h.nextTokens * flex

theorem Heaviest.Scaled.see {flex : Nat} {h : Heaviest} (scaled : h.Scaled flex) (place : Nat) {p : Part}
    (hp : p.isShrinkable = true → p.weight = p.tokens * flex) : (h.see place p).Scaled flex := by
  rcases h.see_cases place p with ⟨-, hsee⟩ | ⟨hs, -, hsee⟩ | ⟨hs, -, -, hsee⟩ | ⟨hs, -, -, -, hsee⟩ |
    ⟨-, -, -, -, hsee⟩ <;> rw [hsee]
  · exact scaled
  · exact ⟨hp hs, scaled.2⟩
  · exact ⟨hp hs, scaled.1⟩
  · exact ⟨scaled.1, hp hs⟩
  · exact scaled

theorem scaled_heaviestFrom {flex : Nat} {h : Heaviest} (scaled : h.Scaled flex) (place : Nat) {ps : List Placed}
    (hps : SameFlex flex ps) : (heaviestFrom h place ps).Scaled flex := by
  induction ps generalizing h place with
  | nil => exact scaled
  | cons p rest ih =>
    have hp := scaled.see place fun hs => (weight_of_sameFlex hps List.mem_cons_self hs).1
    exact ih hp (place + 1) fun q hq => hps q (List.mem_cons_of_mem _ hq)

theorem scaled_heaviest {flex : Nat} {ps : List Placed} (h : SameFlex flex ps) : (heaviest ps).Scaled flex :=
  scaled_heaviestFrom ⟨(Nat.zero_mul _).symm, (Nat.zero_mul _).symm⟩ 0 h

theorem cutSize_le (p : Part) (nextTokens excess : Nat) :
    cutSize p nextTokens excess ≤ max (p.tokens - nextTokens) leastCut := by
  unfold cutSize
  dsimp only
  split <;> omega

/-- What is left of the part that is cut has no fewer tokens than any other part that can be shortened, but
for one smallest cut. -/
theorem CutBy.level {flex n i j : Nat} {qs rs : List Placed} {p q : Placed} (h : CutBy n qs rs i p)
    (first : (Truncate.heaviest qs).first = some i) (same : SameFlex flex qs)
    (hn : n ≤ max (p.part.tokens - (Truncate.heaviest qs).nextTokens) leastCut)
    (hq : qs[j]? = some q) (hshrinkable : q.part.isShrinkable = true) (hne : j ≠ i) :
    q.part.tokens ≤ p.part.tokens - n + leastCut := by
  obtain ⟨hweight, hpos⟩ := weight_of_sameFlex same (List.mem_of_getElem? hq) hshrinkable
  have htokens : q.part.tokens ≤ p.part.tokens := by
    have hle := h.heaviest first q (List.mem_of_getElem? hq) hshrinkable
    rw [hweight, (weight_of_sameFlex same (List.mem_of_getElem? h.found) h.shrinkable).1] at hle
    exact Nat.le_of_mul_le_mul_right hle hpos
  have hnext : q.part.tokens ≤ (Truncate.heaviest qs).nextTokens := by
    have hle := ((knows_heaviest qs).bound j q hq hshrinkable).2 fun hfirst =>
      hne (Option.some.inj (hfirst.symm.trans first))
    rw [hweight, (scaled_heaviest same).2] at hle
    exact Nat.le_of_mul_le_mul_right hle hpos
  omega

/-- No part that can still be shortened has more tokens than a part in one of the places, but for one smallest
cut. -/
def Balanced (places : List Nat) (qs : List Placed) : Prop :=
  ∀ i ∈ places, ∀ p, qs[i]? = some p →
    ∀ q ∈ qs, q.part.isShrinkable = true → q.part.tokens ≤ p.part.tokens + leastCut

theorem CutBy.sameFlex {flex n i : Nat} {qs rs : List Placed} {p : Placed} (h : CutBy n qs rs i p)
    (same : SameFlex flex qs) : SameFlex flex rs := by
  intro q hq o ho
  rw [h.result] at hq
  rcases List.mem_or_eq_of_mem_set hq with hq | rfl
  · exact same q hq o ho
  · exact same p (List.mem_of_getElem? h.found) o ho

/-- The last cut of a part decides how far it is from the others, which only get smaller after it. -/
theorem CutBy.balanced {flex n i : Nat} {places : List Nat} {qs rs : List Placed} {p : Placed}
    (h : CutBy n qs rs i p) (first : (Truncate.heaviest qs).first = some i) (same : SameFlex flex qs)
    (hn : n ≤ max (p.part.tokens - (Truncate.heaviest qs).nextTokens) leastCut) (before : Balanced places qs) :
    Balanced (places ++ [i]) rs := by
  have htokens := Part.tokens_cut (p := p.part) (t := n) (Nat.le_trans h.bounded (Nat.sub_le _ _))
  have hi := (List.getElem?_eq_some_iff.mp h.found).1
  intro k hk p' hp' q hq hshrinkable
  obtain ⟨j, hj⟩ := List.getElem?_of_mem hq
  rw [h.result] at hp' hj
  by_cases hki : k = i
  · subst hki
    obtain rfl : _ = p' := by simpa [hi] using hp'
    by_cases hjk : j = k
    · subst hjk
      obtain rfl : _ = q := by simpa [hi] using hj
      exact Nat.le_add_right _ _
    · rw [List.getElem?_set_ne (Ne.symm hjk)] at hj
      exact htokens ▸ h.level first same hn hj hshrinkable hjk
  · have hplace : k ∈ places := (List.mem_append.mp hk).resolve_right (by simpa using hki)
    rw [List.getElem?_set_ne (Ne.symm hki)] at hp'
    by_cases hji : j = i
    · subst hji
      obtain rfl : _ = q := by simpa [hi] using hj
      have hle := before k hplace p' hp' p (List.mem_of_getElem? h.found) h.shrinkable
      dsimp only
      omega
    · rw [List.getElem?_set_ne (Ne.symm hji)] at hj
      exact before k hplace p' hp' q (List.mem_of_getElem? hj) hshrinkable

theorem Shrinking.balanced {flex limit : Nat} {ps qs : List Placed} {places : List Nat}
    (h : Shrinking limit ps places qs) (same : SameFlex flex ps) : SameFlex flex qs ∧ Balanced places qs := by
  induction h with
  | start => exact ⟨same, nofun⟩
  | cut before above first step ih =>
    obtain ⟨hsame, hbalanced⟩ := ih
    obtain ⟨n, p, -, hn, hcut⟩ := cutBy_of_step above first step
    exact ⟨hcut.sameFlex hsame, hcut.balanced first hsame (hn ▸ cutSize_le _ _ _) hbalanced⟩

theorem sameFlex_placedFrom {flex : Nat} {messages : List Message} (n : Nat)
    (h : ∀ m ∈ messages, ∀ p ∈ Wrapping.parts m.content, ∀ o, p.wrapping = some o → o.flex = flex) :
    SameFlex flex (placedFrom n messages) := by
  induction messages generalizing n with
  | nil => exact nofun
  | cons m rest ih =>
    intro p hp o ho
    rcases List.mem_append.mp hp with hp | hp
    · obtain ⟨own, hown, rfl⟩ := List.mem_map.mp hp
      have hflex := h m List.mem_cons_self own hown o ho
      exact ⟨hflex, hflex ▸ Wrapping.flex_of_mem_partsFrom hown ho⟩
    · exact ih (n + 1) (fun m' hm' => h m' (List.mem_cons_of_mem _ hm')) p hp o ho

/-- Truncation ends a run of cuts, each of which takes from a part that none of those that can be shortened
outweighs; and if a token has the same weight in all wrapped parts, then after each cut no part that can still
be shortened has more tokens than a part that was cut, but for one smallest cut. -/
theorem truncation_is_fair (messages : List Message) (limit : Nat) :
    (∃ places qs, Shrinking limit (placedFrom 0 messages) places qs ∧
      (truncateMessages messages limit = .ok (rejoinFrom qs 0 messages) ∧ total qs ≤ limit ∨
        truncateMessages messages limit = .error (total qs) ∧ limit < total qs)) ∧
    (∀ places i qs rs, Shrinking limit (placedFrom 0 messages) places qs → limit < total qs →
      (heaviest qs).first = some i → step? qs (total qs - limit) = some rs →
      ∃ n p, 0 < n ∧ CutBy n qs rs i p ∧
        ∀ q ∈ qs, q.part.isShrinkable = true → q.part.weight ≤ p.part.weight) ∧
    (∀ flex, (∀ m ∈ messages, ∀ p ∈ Wrapping.parts m.content, ∀ o, p.wrapping = some o → o.flex = flex) →
      ∀ places qs, Shrinking limit (placedFrom 0 messages) places qs → Balanced places qs) := by
  refine ⟨?_, fun places i qs rs hqs above first step => ?_, fun flex same places qs hqs => ?_⟩
  · obtain ⟨places, qs, hqs, hend⟩ := truncateMessages_shrinks messages limit
    exact ⟨places, qs, hqs, hend.imp_right fun ⟨herror, hover, _⟩ => ⟨herror, hover⟩⟩
  · obtain ⟨n, p, hpos, -, hcut⟩ := cutBy_of_step above first step
    exact ⟨n, p, hpos, hcut, hcut.heaviest first⟩
  · exact (hqs.balanced (sameFlex_placedFrom 0 same)).2

/-- A message of eight tokens, with two wrapped texts of two tokens each. -/
def twoAlike : List Message :=
  [.user ("keep " ++ Wrapping.wrap "abcdefgh" ++ " and " ++ Wrapping.wrap "ijklmnop")]

theorem twoAlike_is_cut_fairly : truncateMessages twoAlike 5 = .ok [.user "keep  and ijkl"] ∧
    ∀ places qs, Shrinking 5 (placedFrom 0 twoAlike) places qs → Balanced places qs :=
  ⟨by decide +kernel, (truncation_is_fair twoAlike 5).2.2 1 (by decide +kernel)⟩

end Truncate

end ScriptAgent

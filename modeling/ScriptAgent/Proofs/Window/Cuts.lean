import Mathlib.Data.List.Forall2
import ScriptAgent.Window.Truncate

/-!
# Single cuts

Characters are cut four to a token, and the count of tokens is rounded up, so a cut takes exactly the
tokens it was made for, whichever side is kept.  One step of shrinking cuts the heaviest part by at
least one token, by no more than there are too many, and never below what the part keeps in any case;
it fails only if no part can be shortened at all.
-/

namespace ScriptAgent

namespace Part

/-! ### Cutting characters -/

theorem length_cutChars (keep : Keep) (n : Nat) (cs : List Char) :
    (cutChars keep n cs).length = match keep with
      | .ends => (cs.length + 1) / 2 - (min n cs.length + 1) / 2 + (cs.length / 2 - (min n cs.length + 1) / 2)
      | _ => cs.length - n := by
  cases keep <;> simp only [cutChars, List.length_take, List.length_drop, List.length_append] <;> omega

/-- Also where the middle goes, and for every parity of the length and of the cut. -/
theorem tokensOf_cutChars (keep : Keep) {t : Nat} {cs : List Char} (ht : t ≤ Text.tokensOf cs.length) :
    Text.tokensOf (cutChars keep (t * 4) cs).length = Text.tokensOf cs.length - t := by
  rw [length_cutChars]
  simp only [Text.tokensOf] at ht ⊢
  cases keep with
  | top | bottom => dsimp only; omega
  | ends =>
    dsimp only
    rcases Nat.le_total (t * 4) cs.length with h | h
    · rw [Nat.min_eq_left h]
      omega
    · rw [Nat.min_eq_right h]
      omega

theorem cutChars_sublist (keep : Keep) (n : Nat) (cs : List Char) : List.Sublist (cutChars keep n cs) cs := by
  cases keep with
  | top => exact List.take_sublist _ _
  | bottom => exact List.drop_sublist _ _
  | ends =>
    simp only [cutChars]
    generalize (cs.length + 1) / 2 = middle
    generalize (min n cs.length + 1) / 2 = radius
    have inner : List.Sublist (cs.drop (middle + radius)) (cs.drop (middle - radius)) := by
      rw [show middle + radius = middle - radius + (middle + radius - (middle - radius)) by omega, ← List.drop_drop]
      exact List.drop_sublist _ _
    simpa using (List.Sublist.refl (cs.take (middle - radius))).append inner

/-! ### Cutting parts -/

theorem tokens_cut {p : Part} {t : Nat} (ht : t ≤ p.tokens) : (p.cut t).tokens = p.tokens - t :=
  tokensOf_cutChars _ ht

@[simp] theorem wrapping_cut (p : Part) (t : Nat) : (p.cut t).wrapping = p.wrapping := rfl

theorem isShrinkable_iff {p : Part} : p.isShrinkable = true ↔ p.wrapping.isSome ∧ p.least < p.tokens := by
  simp [isShrinkable]

theorem isShrinkable_eq_false_iff {p : Part} : p.isShrinkable = false ↔ p.tokens ≤ p.least := by
  cases h : p.wrapping <;> simp [isShrinkable, h, least]

/-- The tokens of a part that stay whatever is cut. -/
def kept (p : Part) : Nat :=
  match p.wrapping with
  | none => p.tokens
  | some o => min p.tokens o.least

theorem kept_eq (p : Part) : p.kept = min p.tokens p.least := by
  cases h : p.wrapping <;> simp [kept, least, h]

theorem kept_le_tokens (p : Part) : p.kept ≤ p.tokens := by
  rw [kept_eq]
  exact Nat.min_le_left _ _

/-- What may be left of a part: some of its characters in their order, no fewer tokens than it keeps, and
everything if it was not wrapped. -/
structure LeftOf (p q : Part) : Prop where
  wrapping : q.wrapping = p.wrapping
  content : List.Sublist q.content p.content
  enough : p.kept ≤ q.tokens
  kept : q.kept = p.kept
  fixed : p.wrapping = none → q = p

theorem LeftOf.refl (p : Part) : LeftOf p p :=
  ⟨rfl, .refl _, p.kept_le_tokens, rfl, fun _ => rfl⟩

theorem LeftOf.trans {p q r : Part} (h : LeftOf p q) (h' : LeftOf q r) : LeftOf p r where
  wrapping := h'.wrapping.trans h.wrapping
  content := h'.content.trans h.content
  enough := h.kept ▸ h'.enough
  kept := h'.kept.trans h.kept
  fixed hp := (h'.fixed (h.wrapping.trans hp)).trans (h.fixed hp)

theorem LeftOf.cut {p : Part} {t : Nat} (hp : p.isShrinkable = true) (ht : t ≤ p.tokens - p.least) :
    LeftOf p (p.cut t) := by
  obtain ⟨hw, hlt⟩ := isShrinkable_iff.mp hp
  obtain ⟨o, ho⟩ := Option.isSome_iff_exists.mp hw
  have hleast : (p.cut t).least = p.least := by simp [least, ho]
  have htokens := tokens_cut (p := p) (t := t) (by omega)
  have hkept : (p.cut t).kept = p.kept := by
    rw [kept_eq, kept_eq, hleast, htokens]
    omega
  have henough : p.kept ≤ (p.cut t).tokens := hkept ▸ (p.cut t).kept_le_tokens
  exact ⟨rfl, cutChars_sublist _ _ _, henough, hkept, by simp [ho]⟩

end Part

namespace Truncate

/-! ### The heaviest part -/

theorem Heaviest.first_see (h : Heaviest) (place : Nat) (p : Part) :
    (h.see place p).first = h.first ∧ (p.isShrinkable = true → h.first.isSome) ∨
      p.isShrinkable = true ∧ (h.see place p).first = some place := by
  unfold see
  cases hp : p.isShrinkable with
  | false => simp
  | true =>
    simp only [Bool.not_true, Bool.false_eq_true, ↓reduceIte]
    cases hf : h.first with
    | none => simp
    | some i =>
      simp only [Option.isNone_some, Bool.false_or, decide_eq_true_eq, Bool.false_eq_true, ↓reduceIte]
      split
      · simp
      · split <;> simp [hf]

theorem heaviestFrom_first_none {ps : List Placed} {h : Heaviest} {place : Nat} :
    (heaviestFrom h place ps).first = none ↔ h.first = none ∧ ∀ p ∈ ps, p.part.isShrinkable = false := by
  induction ps generalizing h place with
  | nil => simp [heaviestFrom]
  | cons p rest ih =>
    rw [heaviestFrom, ih, List.forall_mem_cons]
    rcases h.first_see place p.part with ⟨hsee, hsome⟩ | ⟨hp, hsee⟩
    · rw [hsee]
      cases hp : p.part.isShrinkable with
      | false => simp
      | true => simp [Option.isSome_iff_ne_none.mp (hsome hp)]
    · simp [hsee, hp]

theorem heaviestFrom_first_some {ps : List Placed} {h : Heaviest} {place i : Nat}
    (hi : (heaviestFrom h place ps).first = some i) :
    h.first = some i ∨ ∃ j p, i = place + j ∧ ps[j]? = some p ∧ p.part.isShrinkable = true := by
  induction ps generalizing h place with
  | nil => exact .inl hi
  | cons q rest ih =>
    rcases ih hi with hfirst | ⟨j, p, rfl, hj, hp⟩
    · rcases h.first_see place q.part with ⟨hsee, -⟩ | ⟨hq, hsee⟩
      · exact .inl (hsee ▸ hfirst)
      · rw [hsee] at hfirst
        cases hfirst
        exact .inr ⟨0, q, rfl, rfl, hq⟩
    · exact .inr ⟨j + 1, p, by omega, by simpa using hj, hp⟩

theorem heaviest_first_none {ps : List Placed} :
    (heaviest ps).first = none ↔ ∀ p ∈ ps, p.part.isShrinkable = false := by
  simp [heaviest, heaviestFrom_first_none]

theorem heaviest_first_some {ps : List Placed} {i : Nat} (h : (heaviest ps).first = some i) :
    ∃ p, ps[i]? = some p ∧ p.part.isShrinkable = true := by
  rcases heaviestFrom_first_some h with h | ⟨j, p, rfl, hj, hp⟩
  · cases h
  · exact ⟨p, by simpa using hj, hp⟩

/-! ### One step -/

/-- A cut takes something, no more than there is too much, and leaves what the part keeps. -/
theorem cutSize_bounds {p : Part} (hp : p.isShrinkable = true) (nextTokens : Nat) {excess : Nat}
    (hexcess : 0 < excess) :
    0 < cutSize p nextTokens excess ∧ cutSize p nextTokens excess ≤ excess ∧
      cutSize p nextTokens excess ≤ p.tokens - p.least := by
  have hlt := (Part.isShrinkable_iff.mp hp).2
  unfold cutSize leastCut
  dsimp only
  split <;> omega

/-- One part that can be shortened has `n` tokens less. -/
structure CutBy (n : Nat) (ps ps' : List Placed) (i : Nat) (p : Placed) : Prop where
  found : ps[i]? = some p
  shrinkable : p.part.isShrinkable = true
  bounded : n ≤ p.part.tokens - p.part.least
  result : ps' = ps.set i { p with part := p.part.cut n }

/-- A step cuts the part that was found to be the heaviest, by the size that goes with what was found. -/
theorem step?_of_first {ps : List Placed} {excess i : Nat} (hexcess : 0 < excess)
    (hfirst : (heaviest ps).first = some i) :
    ∃ n ps' p, 0 < n ∧ n ≤ excess ∧ n = cutSize p.part (heaviest ps).nextTokens excess ∧ CutBy n ps ps' i p ∧
      step? ps excess = some ps' := by
  obtain ⟨p, hi, hp⟩ := heaviest_first_some hfirst
  obtain ⟨hpos, hle, hleast⟩ := cutSize_bounds hp (heaviest ps).nextTokens hexcess
  generalize hn : cutSize p.part (heaviest ps).nextTokens excess = n at hpos hle hleast
  have htokens := Part.tokens_cut (p := p.part) (t := n) (by omega)
  have hstep : step? ps excess = some (ps.set i { p with part := p.part.cut n }) := by
    simp only [step?, hfirst, hi, hn, htokens, bind, Option.bind]
    rw [if_neg]
    simp only [Bool.or_eq_true, beq_iff_eq, decide_eq_true_eq]
    omega
  exact ⟨n, _, p, hpos, hle, hn.symm, ⟨hi, hp, hleast, rfl⟩, hstep⟩

theorem step?_cases (ps : List Placed) {excess : Nat} (hexcess : 0 < excess) :
    (∀ p ∈ ps, p.part.isShrinkable = false) ∧ step? ps excess = none ∨
      ∃ n ps' i p, 0 < n ∧ n ≤ excess ∧ CutBy n ps ps' i p ∧ step? ps excess = some ps' := by
  cases hfirst : (heaviest ps).first with
  | none => exact .inl ⟨heaviest_first_none.mp hfirst, by simp [step?, hfirst]⟩
  | some i =>
    obtain ⟨n, ps', p, hpos, hle, -, hcut, hstep⟩ := step?_of_first hexcess hfirst
    exact .inr ⟨n, ps', i, p, hpos, hle, hcut, hstep⟩

/-- A step fails only when nothing can be cut: it never tries to cut nothing, or without an effect. -/
theorem step?_eq_none_iff (ps : List Placed) {excess : Nat} (hexcess : 0 < excess) :
    step? ps excess = none ↔ ∀ p ∈ ps, p.part.isShrinkable = false := by
  rcases step?_cases ps hexcess with ⟨hall, hstep⟩ | ⟨n, ps', i, p, -, -, hcut, hstep⟩
  · exact iff_of_true hstep hall
  · refine iff_of_false (by simp [hstep]) fun hall => ?_
    have := hall p (List.mem_of_getElem? hcut.found)
    rw [hcut.shrinkable] at this
    cases this

/-! ### What a step does to all parts -/

/-- The tokens that stay in all parts whatever is cut. -/
def kept (ps : List Placed) : Nat :=
  (ps.map (·.part.kept)).foldr (· + ·) 0

theorem kept_le_total (ps : List Placed) : kept ps ≤ total ps := by
  induction ps with
  | nil => exact Nat.le_refl 0
  | cons p rest ih => exact Nat.add_le_add p.part.kept_le_tokens ih

theorem kept_eq_total {ps : List Placed} (h : ∀ p ∈ ps, p.part.isShrinkable = false) : kept ps = total ps := by
  unfold kept total
  congr 1
  refine List.map_congr_left fun p hp => ?_
  rw [Part.kept_eq]
  exact Nat.min_eq_left (Part.isShrinkable_eq_false_iff.mp (h p hp))

/-- A placed part and what may be left of it. -/
def LeftOf (p q : Placed) : Prop :=
  q.message = p.message ∧ p.part.LeftOf q.part

theorem leftOf_refl (ps : List Placed) : List.Forall₂ LeftOf ps ps :=
  List.forall₂_same.mpr fun _ _ => ⟨rfl, .refl _⟩

theorem leftOf_trans {ps qs rs : List Placed} (h : List.Forall₂ LeftOf ps qs) (h' : List.Forall₂ LeftOf qs rs) :
    List.Forall₂ LeftOf ps rs := by
  induction h generalizing rs with
  | nil => exact h'
  | cons hp _ ih =>
    cases h' with
    | cons hq hrest => exact .cons ⟨hq.1.trans hp.1, hp.2.trans hq.2⟩ (ih hrest)

theorem kept_eq_of_leftOf {ps qs : List Placed} (h : List.Forall₂ LeftOf ps qs) : kept qs = kept ps := by
  induction h with
  | nil => rfl
  | cons h _ ih =>
    simp only [kept, List.map_cons, List.foldr_cons, h.2.kept] at ih ⊢
    rw [ih]

theorem CutBy.leftOf {n i : Nat} {ps ps' : List Placed} {p : Placed} (h : CutBy n ps ps' i p) :
    List.Forall₂ LeftOf ps ps' := by
  rw [h.result]
  refine List.forall₂_iff_get.mpr ⟨(List.length_set ..).symm, fun j hj hj' => ?_⟩
  simp only [List.get_eq_getElem, List.getElem_set]
  split
  · next hij =>
    subst hij
    obtain ⟨_, rfl⟩ := List.getElem?_eq_some_iff.mp h.found
    exact ⟨rfl, .cut h.shrinkable h.bounded⟩
  · exact ⟨rfl, .refl _⟩

theorem total_set {ps : List Placed} {i : Nat} {p : Placed} (h : ps[i]? = some p) (q : Placed) :
    total (ps.set i q) + p.part.tokens = total ps + q.part.tokens := by
  induction ps generalizing i with
  | nil => simp at h
  | cons r rest ih =>
    cases i with
    | zero =>
      obtain rfl : r = p := by simpa using h
      simp only [total, List.set_cons_zero, List.map_cons, List.foldr_cons]
      omega
    | succ i =>
      have := ih (i := i) (by simpa using h)
      simp only [total, List.set_cons_succ, List.map_cons, List.foldr_cons] at this ⊢
      omega

theorem CutBy.total {n i : Nat} {ps ps' : List Placed} {p : Placed} (h : CutBy n ps ps' i p) :
    total ps' + n = total ps := by
  have hset := total_set h.found { p with part := p.part.cut n }
  have htokens := Part.tokens_cut (p := p.part) (t := n) (Nat.le_trans h.bounded (Nat.sub_le _ _))
  have hlt := (Part.isShrinkable_iff.mp h.shrinkable).2
  have hbounded := h.bounded
  rw [← h.result, htokens] at hset
  omega

end Truncate

end ScriptAgent

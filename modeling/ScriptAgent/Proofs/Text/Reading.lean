import Mathlib.Data.List.Infix
import ScriptAgent.Window.Wrapping

/-!
# Pieces, words and numbers read back

A piece is found where it occurs first.  If no character after its first one is the same, it cannot begin in
what stands before it and end in itself, so a text followed by the piece is cut right there.  Words are what
was written between blanks, and a number is read back from its digits.
-/

namespace ScriptAgent.Text

/-! ### Pieces -/

theorem afterStart?_eq_some_iff {piece cs rest : List Char} :
    afterStart? piece cs = some rest ↔ cs = piece ++ rest := by
  induction piece generalizing cs with
  | nil => simp [afterStart?]
  | cons p ps ih =>
    cases cs with
    | nil => simp [afterStart?]
    | cons c cs =>
      by_cases hpc : p = c
      · simp [afterStart?, hpc, ih]
      · simp [afterStart?, hpc, Ne.symm hpc]

theorem afterStart?_eq_none_iff {piece cs : List Char} : afterStart? piece cs = none ↔ ¬ piece <+: cs := by
  rw [Option.eq_none_iff_forall_ne_some]
  refine ⟨fun h ⟨rest, hrest⟩ => h rest (afterStart?_eq_some_iff.mpr hrest.symm), fun h rest hrest => ?_⟩
  exact h ⟨rest, (afterStart?_eq_some_iff.mp hrest).symm⟩

/-- A piece is not found exactly if it does not occur. -/
theorem cut?_eq_none_iff {piece cs : List Char} : cut? piece cs = none ↔ ¬ piece <:+: cs := by
  induction cs with
  | nil => cases piece <;> simp [cut?]
  | cons c cs ih =>
    rw [List.infix_cons_iff, not_or, ← ih, ← afterStart?_eq_none_iff, cut?]
    cases afterStart? piece (c :: cs) <;> simp

theorem eq_of_cut? {piece cs before after : List Char} (h : cut? piece cs = some (before, after)) :
    cs = before ++ (piece ++ after) := by
  induction cs generalizing before with
  | nil =>
    rw [cut?] at h
    split at h
    · next hempty =>
      cases h
      simpa using hempty
    · cases h
  | cons c cs ih =>
    rw [cut?] at h
    split at h
    · next hstart =>
      cases h
      simpa using afterStart?_eq_some_iff.mp hstart
    · obtain ⟨⟨before', after'⟩, hcut, heq⟩ := Option.map_eq_some_iff.mp h
      cases heq
      rw [ih hcut, List.cons_append]

/-- What is found is the first occurrence. -/
theorem not_infix_of_cut? {piece cs before after : List Char} (hne : piece ≠ [])
    (h : cut? piece cs = some (before, after)) : ¬ piece <:+: before := by
  induction cs generalizing before with
  | nil =>
    rw [cut?, if_neg (by simpa using hne)] at h
    cases h
  | cons c cs ih =>
    have heq := eq_of_cut? h
    rw [cut?] at h
    split at h
    · cases h
      simpa using hne
    · next hstart =>
      obtain ⟨⟨before', after'⟩, hcut, hfound⟩ := Option.map_eq_some_iff.mp h
      cases hfound
      rw [List.infix_cons_iff, not_or]
      refine ⟨fun hprefix => afterStart?_eq_none_iff.mp hstart ?_, ih hcut⟩
      rw [heq]
      exact hprefix.trans (List.prefix_append _ _)

/-- A piece whose first character does not come again in it cannot begin in other characters and end in the
piece that follows them. -/
theorem prefix_of_prefix_append {mark : Char} {tail cs rest : List Char} (hmark : mark ∉ tail) (hne : cs ≠ [])
    (h : mark :: tail <+: cs ++ (mark :: tail ++ rest)) : mark :: tail <+: cs := by
  rcases List.prefix_or_prefix_of_prefix h (List.prefix_append cs _) with hprefix | ⟨w, hw⟩
  · exact hprefix
  · obtain ⟨c, cs, rfl⟩ := List.exists_cons_of_ne_nil hne
    obtain ⟨rfl, rfl⟩ := List.cons_eq_cons.mp hw
    cases w with
    | nil => simp
    | cons d w =>
      obtain ⟨z, hz⟩ := h
      have hmarks : d = c := by
        simp only [List.append_eq, List.cons_append, List.append_assoc, List.cons.injEq, true_and] at hz
        exact (List.cons_eq_cons.mp (List.append_cancel_left hz)).1
      simp [hmarks] at hmark

/-- What stands before a piece is found if it does not contain the piece itself. -/
theorem cut?_append {mark : Char} {tail before : List Char} (hmark : mark ∉ tail)
    (h : ¬ mark :: tail <:+: before) (after : List Char) :
    cut? (mark :: tail) (before ++ (mark :: tail ++ after)) = some (before, after) := by
  induction before with
  | nil =>
    have hstart : afterStart? (mark :: tail) (mark :: tail ++ after) = some after := afterStart?_eq_some_iff.mpr rfl
    rw [List.cons_append] at hstart
    rw [List.nil_append, List.cons_append, cut?, hstart]
  | cons c before ih =>
    rw [List.infix_cons_iff, not_or] at h
    have hnone : afterStart? (mark :: tail) (c :: before ++ (mark :: tail ++ after)) = none :=
      afterStart?_eq_none_iff.mpr fun hprefix => h.1 (prefix_of_prefix_append hmark (List.cons_ne_nil _ _) hprefix)
    rw [List.cons_append] at hnone
    rw [List.cons_append, cut?, hnone, ih h.2]
    rfl

theorem contains_eq_true_iff {s piece : String} : contains s piece = true ↔ piece.toList <:+: s.toList := by
  rw [contains, occurs, Option.isSome_iff_ne_none, Ne, cut?_eq_none_iff, not_not]

/-- A piece does not lie across a character that it does not have. -/
theorem infix_append_cons {piece before after : List Char} {c : Char} (hc : c ∉ piece)
    (h : piece <:+: before ++ c :: after) : piece <:+: before ∨ piece <:+: after := by
  induction before with
  | nil =>
    rcases List.infix_cons_iff.mp h with hstart | hafter
    · rcases List.prefix_cons_iff.mp hstart with rfl | ⟨rest, rfl, -⟩
      · exact .inl List.infix_rfl
      · exact absurd List.mem_cons_self hc
    · exact .inr hafter
  | cons b before ih =>
    rcases List.infix_cons_iff.mp h with hstart | hlater
    · -- what begins here ends before the character
      rcases List.prefix_or_prefix_of_prefix hstart (List.prefix_append (b :: before) (c :: after)) with hbefore | ⟨rest, hrest⟩
      · exact .inl hbefore.isInfix
      · rw [← hrest, List.cons_append] at hstart
        rcases rest with _ | ⟨d, rest⟩
        · exact .inl (by simp [← hrest])
        · obtain ⟨rfl, -⟩ := List.cons_prefix_cons.mp ((List.prefix_append_right_inj (b :: before)).mp hstart)
          exact absurd (hrest ▸ by simp) hc
    · exact (ih hlater).imp_left fun hbefore => hbefore.trans (List.suffix_cons b before).isInfix

theorem cut?_singleton {mark : Char} {before : List Char} (h : mark ∉ before) (after : List Char) :
    cut? [mark] (before ++ mark :: after) = some (before, after) :=
  cut?_append List.not_mem_nil (by rwa [List.singleton_infix_iff]) after

/-! ### Words -/

/-- Characters without blanks. -/
def IsWord (cs : List Char) : Prop :=
  ∀ c ∈ cs, isBlank c = false

instance (cs : List Char) : Decidable (IsWord cs) :=
  List.decidableBAll _ cs

theorem wordsFrom_word {word : List Char} (hword : IsWord word) (current rest : List Char) :
    wordsFrom current (word ++ rest) = wordsFrom (word.reverse ++ current) rest := by
  induction word generalizing current with
  | nil => rfl
  | cons c word ih =>
    obtain ⟨hc, hword⟩ := List.forall_mem_cons.mp hword
    rw [List.cons_append, wordsFrom, hc, if_neg Bool.false_ne_true, ih hword]
    simp

/-- A word ends at the next blank. -/
theorem wordsFrom_cons {word : List Char} (hword : IsWord word) (hne : word ≠ []) {blank : Char}
    (hblank : isBlank blank = true) (rest : List Char) :
    wordsFrom [] (word ++ blank :: rest) = word :: wordsFrom [] rest := by
  rw [wordsFrom_word hword, wordsFrom, if_pos hblank, if_neg (by simpa using hne)]
  simp

theorem wordsFrom_blank {blank : Char} (hblank : isBlank blank = true) (rest : List Char) :
    wordsFrom [] (blank :: rest) = wordsFrom [] rest := by
  rw [wordsFrom, if_pos hblank]
  rfl

/-! ### Numbers -/

theorem readDecimal_eq (cs : List Char) : readDecimal cs = Nat.ofDigitChars 10 cs 0 := by
  unfold readDecimal Nat.ofDigitChars
  congr 1
  funext n c
  rw [Nat.mul_comm]
  rfl

theorem readDecimal_toDigits (n : Nat) : readDecimal (Nat.toDigits 10 n) = n := by
  rw [readDecimal_eq, Nat.ofDigitChars_toDigits (by decide) (Nat.le_refl _)]

theorem isDigit_of_mem_toDigits {n : Nat} {c : Char} (h : c ∈ Nat.toDigits 10 n) : c.isDigit = true :=
  Nat.isDigit_of_mem_toDigits (by decide) (Nat.le_refl _) h

theorem toList_toString_nat (n : Nat) : (toString n).toList = Nat.toDigits 10 n := by
  rw [show toString n = n.repr from rfl, Nat.repr_eq_ofList_toDigits, String.toList_ofList]

theorem toNat_of_isDigit {c : Char} (h : c.isDigit = true) : 48 ≤ c.toNat ∧ c.toNat ≤ 57 := by
  simp only [Char.isDigit, Bool.and_eq_true, decide_eq_true_eq] at h
  exact ⟨UInt32.le_iff_toNat_le.mp h.1, UInt32.le_iff_toNat_le.mp h.2⟩

theorem isBlank_of_isDigit {c : Char} (h : c.isDigit = true) : isBlank c = false := by
  have := toNat_of_isDigit h
  simp only [isBlank, Bool.or_eq_false_iff, Bool.and_eq_false_iff, decide_eq_false_iff_not, beq_eq_false_iff_ne]
  omega

/-- A number within a bound is read back from its digits. -/
theorem natUpTo?_toDigits {n greatest : Nat} (h : n ≤ greatest) : natUpTo? greatest (Nat.toDigits 10 n) = some n := by
  obtain ⟨c, cs, hcs⟩ := List.exists_cons_of_ne_nil (Nat.toDigits_ne_nil (n := n) (b := 10))
  have hplus : c ≠ '+' := by
    rintro rfl
    exact absurd (isDigit_of_mem_toDigits (hcs ▸ List.mem_cons_self)) (by decide)
  have hall : (Nat.toDigits 10 n).all Char.isDigit = true :=
    List.all_eq_true.mpr fun _ => isDigit_of_mem_toDigits
  have hread := readDecimal_toDigits n
  rw [hcs] at hall hread ⊢
  unfold natUpTo?
  split
  · next heq =>
    cases heq
    exact absurd rfl hplus
  · simp [hall, hread, h]

end ScriptAgent.Text

import Mathlib.Data.List.TakeWhile
import ScriptAgent.Proofs.Text.Reading

/-!
# Blanks on either side

Trimming takes the blanks off both ends.  Which blanks stand around a text does not matter, and what begins and
ends with a word is left as it is.
-/

namespace ScriptAgent.Text

/-- Blank throughout. -/
def AllBlank (cs : List Char) : Prop :=
  ∀ c ∈ cs, isBlank c = true

instance (cs : List Char) : Decidable (AllBlank cs) :=
  List.decidableBAll _ cs

theorem dropBlank_eq_nil_iff {cs : List Char} : dropBlank cs = [] ↔ AllBlank cs :=
  List.dropWhile_eq_nil_iff

theorem dropBlank_suffix (cs : List Char) : dropBlank cs <:+ cs :=
  List.dropWhile_suffix isBlank

theorem prefix_dropBlankEnd (cs : List Char) : dropBlankEnd cs <+: cs := by
  rw [← List.reverse_suffix, dropBlankEnd, List.reverse_reverse]
  exact List.dropWhile_suffix isBlank

/-! ### Blanks around a text -/

theorem dropBlank_blanks_append {blanks : List Char} (h : AllBlank blanks) (cs : List Char) :
    dropBlank (blanks ++ cs) = dropBlank cs :=
  List.dropWhile_append_of_pos h

theorem dropBlankEnd_append_blanks {blanks : List Char} (h : AllBlank blanks) (cs : List Char) :
    dropBlankEnd (cs ++ blanks) = dropBlankEnd cs := by
  have hreverse : AllBlank blanks.reverse := fun c hc => h c (List.mem_reverse.mp hc)
  rw [dropBlankEnd, List.reverse_append, ← dropBlank, dropBlank_blanks_append hreverse]
  rfl

/-- Blanks around a text are trimmed with those of the text. -/
theorem trimChars_append {before after : List Char} (hbefore : AllBlank before) (hafter : AllBlank after)
    (cs : List Char) : trimChars (before ++ (cs ++ after)) = trimChars cs := by
  rw [trimChars, trimChars, dropBlank_blanks_append hbefore]
  by_cases hcs : AllBlank cs
  · rw [dropBlank_blanks_append hcs, dropBlank_eq_nil_iff.mpr hcs, dropBlank_eq_nil_iff.mpr hafter]
  · have hne : (cs.dropWhile isBlank).isEmpty = false := by
      rw [List.isEmpty_eq_false_iff]
      exact fun hnil => hcs (dropBlank_eq_nil_iff.mp hnil)
    rw [dropBlank, List.dropWhile_append, hne, if_neg Bool.false_ne_true, ← dropBlank,
      dropBlankEnd_append_blanks hafter]

theorem dropBlankEnd_split (cs : List Char) : ∃ blanks, AllBlank blanks ∧ cs = dropBlankEnd cs ++ blanks := by
  refine ⟨(cs.reverse.takeWhile isBlank).reverse, fun c hc => ?_, ?_⟩
  · exact List.all_eq_true.mp List.all_takeWhile c (List.mem_reverse.mp hc)
  · rw [dropBlankEnd, ← List.reverse_append, List.takeWhile_append_dropWhile, List.reverse_reverse]

theorem trimChars_split (cs : List Char) :
    ∃ before after, AllBlank before ∧ AllBlank after ∧ cs = before ++ (trimChars cs ++ after) := by
  obtain ⟨after, hafter, hsplit⟩ := dropBlankEnd_split (dropBlank cs)
  refine ⟨cs.takeWhile isBlank, after, fun c hc => List.all_eq_true.mp List.all_takeWhile c hc, hafter, ?_⟩
  rw [trimChars, ← hsplit]
  exact List.takeWhile_append_dropWhile.symm

@[simp]
theorem trimChars_trimChars (cs : List Char) : trimChars (trimChars cs) = trimChars cs := by
  obtain ⟨before, after, hbefore, hafter, hsplit⟩ := trimChars_split cs
  conv_rhs => rw [hsplit, trimChars_append hbefore hafter]

/-- Characters whose end was trimmed before are trimmed alike. -/
theorem trimChars_dropBlankEnd (cs : List Char) : trimChars (dropBlankEnd cs) = trimChars cs := by
  obtain ⟨blanks, hblanks, hsplit⟩ := dropBlankEnd_split cs
  have hend : trimChars ([] ++ (dropBlankEnd cs ++ blanks)) = trimChars (dropBlankEnd cs) :=
    trimChars_append (by simp [AllBlank]) hblanks _
  conv_rhs => rw [hsplit]
  exact hend.symm

/-! ### Words at the ends -/

/-- A word ends what is dropped before it. -/
theorem dropBlank_append_word {word : List Char} (hword : IsWord word) (hne : word ≠ []) (cs rest : List Char) :
    dropBlank (cs ++ (word ++ rest)) = dropBlank cs ++ (word ++ rest) := by
  obtain ⟨c, word, rfl⟩ := List.exists_cons_of_ne_nil hne
  have hc : isBlank c = false := hword c List.mem_cons_self
  rw [dropBlank, List.dropWhile_append, List.cons_append, List.dropWhile_cons_of_neg (by simp [hc])]
  split
  · next hempty =>
    rw [dropBlank, List.isEmpty_iff.mp hempty]
    rfl
  · rfl

/-- A word ends what is dropped behind it. -/
theorem dropBlankEnd_append_word {word : List Char} (hword : IsWord word) (hne : word ≠ []) (cs rest : List Char) :
    dropBlankEnd (cs ++ (word ++ rest)) = cs ++ (word ++ dropBlankEnd rest) := by
  have hreverse : IsWord word.reverse := fun c hc => hword c (List.mem_reverse.mp hc)
  have hdrop := dropBlank_append_word hreverse (by simpa using hne) rest.reverse cs.reverse
  rw [dropBlankEnd, List.reverse_append, List.reverse_append, List.append_assoc, ← dropBlank, hdrop]
  simp [dropBlankEnd, dropBlank]

/-- What begins and ends with a word is left as it is. -/
theorem trimChars_of_words {first last : List Char} (hfirst : IsWord first) (hlast : IsWord last) (hfirst' : first ≠ [])
    (hlast' : last ≠ []) (cs : List Char) : trimChars (first ++ (cs ++ last)) = first ++ (cs ++ last) := by
  have hstart := dropBlank_append_word hfirst hfirst' [] (cs ++ last)
  have hend := dropBlankEnd_append_word hlast hlast' (first ++ cs) []
  rw [List.append_nil, List.append_assoc] at hend
  rw [trimChars, show dropBlank (first ++ (cs ++ last)) = first ++ (cs ++ last) from hstart, hend]
  simp [dropBlankEnd]

/-- Trimmed characters begin and end with no blank. -/
theorem ends_of_trimmed {cs : List Char} (h : trimChars cs = cs) :
    (∀ c, cs.head? = some c → isBlank c = false) ∧ ∀ c, cs.getLast? = some c → isBlank c = false := by
  have hstart : dropBlank cs = cs := by
    have hlength := congrArg List.length h
    have hend := (prefix_dropBlankEnd (dropBlank cs)).length_le
    exact (dropBlank_suffix cs).eq_of_length_le (by rw [trimChars] at hlength; omega)
  refine ⟨fun c hc => ?_, fun c hc => ?_⟩
  · have hhead := List.head?_dropWhile_not isBlank cs
    rw [← dropBlank, hstart, hc] at hhead
    simpa using hhead
  · rw [trimChars, hstart] at h
    have hhead := List.head?_dropWhile_not isBlank cs.reverse
    have hlast : (cs.reverse.dropWhile isBlank).head? = some c := by
      rw [← List.getLast?_reverse, ← dropBlankEnd, h, hc]
    rw [hlast] at hhead
    simpa using hhead

end ScriptAgent.Text

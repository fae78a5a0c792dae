import ScriptAgent.Proofs.Text.Reading

/-!
# Markers read back

A wrapped text is read back with its options and its content, and what stands around it is kept, unless the
content has a closing marker of its own: nothing escapes it, so the content ends there and the rest of it is
read as if it stood outside, with the closing marker that was written.
-/

namespace ScriptAgent

namespace Wrapping

/-! ### What is read -/

/-- A wrapped text is found by its markers in turn. -/
theorem firstWrapped?_eq_some_iff {cs before content rest : List Char} {o : WrapOptions} :
    firstWrapped? cs = some (before, o, content, rest) ↔ ∃ attributes inner body,
      Text.cut? opening cs = some (before, inner) ∧ Text.cut? openingEnd inner = some (attributes, body) ∧
        Text.cut? closing body = some (content, rest) ∧ readOptions attributes = o := by
  simp only [firstWrapped?, Option.bind_eq_bind, Option.bind_eq_some_iff, Option.pure_def, Option.some.injEq,
    Prod.mk.injEq, Prod.exists]
  constructor
  · rintro ⟨before, inner, hopening, attributes, body, hend, content, rest, hclosing, rfl, rfl, rfl, rfl⟩
    exact ⟨attributes, inner, body, hopening, hend, hclosing, rfl⟩
  · rintro ⟨attributes, inner, body, hopening, hend, hclosing, rfl⟩
    exact ⟨before, inner, hopening, attributes, body, hend, content, rest, hclosing, rfl, rfl, rfl, rfl⟩

theorem length_of_firstWrapped? {cs before content rest : List Char} {o : WrapOptions}
    (h : firstWrapped? cs = some (before, o, content, rest)) : rest.length < cs.length := by
  obtain ⟨attributes, inner, body, hopening, hend, hclosing, -⟩ := firstWrapped?_eq_some_iff.mp h
  rw [Text.eq_of_cut? hopening, Text.eq_of_cut? hend, Text.eq_of_cut? hclosing]
  simp only [List.length_append, show opening.length = 9 from rfl]
  omega

theorem partsFrom_of_none {cs : List Char} (h : firstWrapped? cs = none) (fuel : Nat) :
    partsFrom fuel cs = fixedPart cs := by
  cases fuel <;> simp [partsFrom, h]

/-- As much fuel as there are characters is enough to read all parts. -/
theorem partsFrom_fuel {n m : Nat} {cs : List Char} (hn : cs.length ≤ n) (hm : cs.length ≤ m) :
    partsFrom n cs = partsFrom m cs := by
  induction n generalizing m cs with
  | zero =>
    obtain rfl := List.length_eq_zero_iff.mp (Nat.le_zero.mp hn)
    rw [partsFrom_of_none rfl, partsFrom_of_none rfl]
  | succ n ih =>
    cases hfirst : firstWrapped? cs with
    | none => rw [partsFrom_of_none hfirst, partsFrom_of_none hfirst]
    | some found =>
      obtain ⟨before, o, content, rest⟩ := found
      have hlength := length_of_firstWrapped? hfirst
      cases m with
      | zero => omega
      | succ m =>
        have hrest : partsFrom n rest = partsFrom m rest := ih (by omega) (by omega)
        simp only [partsFrom, hfirst, hrest]

/-- The parts of characters. -/
def partsOf (cs : List Char) : List Part :=
  partsFrom cs.length cs

theorem parts_eq (s : String) : parts s = partsOf s.toList := by
  rw [parts, partsOf, String.length_toList]

theorem partsOf_of_none {cs : List Char} (h : firstWrapped? cs = none) : partsOf cs = fixedPart cs :=
  partsFrom_of_none h _

/-- The parts go on behind the first wrapped text. -/
theorem partsOf_of_some {cs before content rest : List Char} {o : WrapOptions}
    (h : firstWrapped? cs = some (before, o, content, rest)) :
    partsOf cs = fixedPart before ++ ⟨content, some o⟩ :: partsOf rest := by
  have hlength := length_of_firstWrapped? h
  have hfuel : partsFrom (cs.length + 1) cs = partsOf cs := partsFrom_fuel (Nat.le_succ _) (Nat.le_refl _)
  rw [← hfuel, partsFrom, h]
  simp only [partsOf, partsFrom_fuel (Nat.le_of_lt hlength) (Nat.le_refl _)]

theorem flatMap_fixedPart (cs : List Char) : (fixedPart cs).flatMap (·.content) = cs := by
  cases cs <;> simp [fixedPart]

/-! ### The weight of a token -/

theorem flex_readOption (word : List Char) {o : WrapOptions} (h : 0 < o.flex) : 0 < (readOption o word).flex := by
  unfold readOption
  split
  · exact h
  · split
    · exact h
    · exact Nat.lt_of_lt_of_le Nat.zero_lt_one (Nat.le_max_right _ _)
    · exact h
    · exact h

theorem flex_foldl_readOption (words : List (List Char)) {o : WrapOptions} (h : 0 < o.flex) :
    0 < (words.foldl readOption o).flex := by
  induction words generalizing o with
  | nil => exact h
  | cons word rest ih => exact ih (flex_readOption word h)

theorem wrapping_of_mem_fixedPart {cs : List Char} {p : Part} (h : p ∈ fixedPart cs) : p.wrapping = none := by
  unfold fixedPart at h
  split at h
  · cases h
  · rw [List.mem_singleton.mp h]

/-- A token of a wrapped text has a weight, whatever its marker says. -/
theorem flex_of_mem_partsFrom {fuel : Nat} {cs : List Char} {p : Part} (h : p ∈ partsFrom fuel cs)
    {o : WrapOptions} (ho : p.wrapping = some o) : 0 < o.flex := by
  induction fuel generalizing cs with
  | zero =>
    rw [wrapping_of_mem_fixedPart h] at ho
    cases ho
  | succ fuel ih =>
    rw [partsFrom] at h
    split at h
    · rw [wrapping_of_mem_fixedPart h] at ho
      cases ho
    · next hfirst =>
      rcases List.mem_append.mp h with h | h
      · rw [wrapping_of_mem_fixedPart h] at ho
        cases ho
      · rcases List.mem_cons.mp h with rfl | h
        · cases ho
          obtain ⟨attributes, -, -, -, -, -, rfl⟩ := firstWrapped?_eq_some_iff.mp hfirst
          exact flex_foldl_readOption _ Nat.zero_lt_one
        · exact ih h

/-! ### Options written and read -/

end Wrapping

/-- Options whose numbers are no larger than what is read, and where a token has a weight. -/
structure WrapOptions.Sized (o : WrapOptions) : Prop where
  weighs : 1 ≤ o.flex
  flex : o.flex < UInt32.size
  least : o.least < UInt64.size

namespace Wrapping

theorem ofName_name (keep : Keep) : Keep.ofName keep.name = keep := by
  cases keep <;> decide

theorem readOption_preserve (o : WrapOptions) (keep : Keep) :
    readOption o ("preserve".toList ++ ':' :: keep.name.toList) = { o with keep := keep } := by
  rw [readOption, Text.cut?_singleton (by decide)]
  simp only [String.ofList_toList, ofName_name]

theorem readOption_flex (o : WrapOptions) {flex : Nat} (hpos : 1 ≤ flex) (hflex : flex < UInt32.size) :
    readOption o ("flex".toList ++ ':' :: Nat.toDigits 10 flex) = { o with flex := flex } := by
  rw [readOption, Text.cut?_singleton (by decide)]
  simp only [String.ofList_toList, Text.natUpTo?_toDigits (Nat.le_sub_one_of_lt hflex), Option.getD_some,
    Nat.max_eq_left hpos]

theorem readOption_min (o : WrapOptions) {least : Nat} (hleast : least < UInt64.size) :
    readOption o ("min".toList ++ ':' :: Nat.toDigits 10 least) = { o with least := least } := by
  rw [readOption, Text.cut?_singleton (by decide)]
  simp only [String.ofList_toList, Text.natUpTo?_toDigits (Nat.le_sub_one_of_lt hleast), Option.getD_some]

/-- The word of an opening marker that states one option. -/
def optionWord (key : String) (value : List Char) : List Char :=
  key.toList ++ ':' :: value

/-- What an opening marker has between its name and its end. -/
def attributes (o : WrapOptions) : List Char :=
  ' ' :: (optionWord "preserve" o.keep.name.toList ++ ' ' :: (optionWord "flex" (Nat.toDigits 10 o.flex) ++
    ' ' :: (optionWord "min" (Nat.toDigits 10 o.least) ++ [' '])))

theorem toList_wrapWith (c : String) (o : WrapOptions) :
    (wrapWith c o).toList = opening ++ (attributes o ++ (openingEnd ++ (c.toList ++ closing))) := by
  simp [wrapWith, optionText, attributes, optionWord]

theorem isWord_optionWord {key : String} (hkey : Text.IsWord key.toList) {value : List Char}
    (hvalue : Text.IsWord value) : Text.IsWord (optionWord key value) := by
  intro c hc
  rcases List.mem_append.mp hc with hc | hc
  · exact hkey c hc
  · rcases List.mem_cons.mp hc with rfl | hc
    · decide
    · exact hvalue c hc

theorem isWord_name (keep : Keep) : Text.IsWord keep.name.toList := by
  cases keep <;> decide

theorem isWord_toDigits (n : Nat) : Text.IsWord (Nat.toDigits 10 n) := fun _ hc =>
  Text.isBlank_of_isDigit (Text.isDigit_of_mem_toDigits hc)

theorem wordsFrom_attributes (o : WrapOptions) : Text.wordsFrom [] (attributes o) =
    [optionWord "preserve" o.keep.name.toList, optionWord "flex" (Nat.toDigits 10 o.flex),
      optionWord "min" (Nat.toDigits 10 o.least)] := by
  have hne (key : String) (value : List Char) : optionWord key value ≠ [] := by simp [optionWord]
  have hblank : Text.isBlank ' ' = true := by decide
  rw [attributes, Text.wordsFrom_blank hblank,
    Text.wordsFrom_cons (isWord_optionWord (by decide) (isWord_name _)) (hne _ _) hblank,
    Text.wordsFrom_cons (isWord_optionWord (by decide) (isWord_toDigits _)) (hne _ _) hblank,
    Text.wordsFrom_cons (isWord_optionWord (by decide) (isWord_toDigits _)) (hne _ _) hblank]
  rfl

/-- Options are read as they were written. -/
theorem readOptions_attributes {o : WrapOptions} (h : o.Sized) : readOptions (attributes o) = o := by
  rw [readOptions, wordsFrom_attributes]
  simp only [List.foldl_cons, List.foldl_nil, optionWord, readOption_preserve, readOption_flex _ h.weighs h.flex,
    readOption_min _ h.least]

theorem openingEnd_not_mem_attributes (o : WrapOptions) : '】' ∉ attributes o := by
  have hdigits (n : Nat) : '】' ∉ Nat.toDigits 10 n := fun h =>
    absurd (Text.isDigit_of_mem_toDigits h) (by decide)
  have hname : '】' ∉ o.keep.name.toList := by
    cases o.keep <;> decide
  simp only [attributes, optionWord, List.mem_cons, List.mem_append, not_or, List.not_mem_nil, hname, hdigits]
  decide

/-! ### Wrapped texts written and read -/

/-- Nothing in the characters opens a wrapped text. -/
def NoOpening (cs : List Char) : Prop :=
  ¬ opening <:+: cs

/-- Nothing in the characters ends a wrapped text. -/
def NoClosing (cs : List Char) : Prop :=
  ¬ closing <:+: cs

theorem cut?_closing {cs : List Char} (h : NoClosing cs) (after : List Char) :
    Text.cut? closing (cs ++ (closing ++ after)) = some (cs, after) :=
  Text.cut?_append (by decide) h after

theorem partsOf_of_noOpening {cs : List Char} (h : NoOpening cs) : partsOf cs = fixedPart cs := by
  refine partsOf_of_none ?_
  have := Text.cut?_eq_none_iff.mpr h
  simp [firstWrapped?, this]

/-- A wrapped text ends where its content first has a closing marker, and otherwise with the marker that was
written. -/
theorem firstWrapped?_wrapped {o : WrapOptions} (ho : o.Sized) {a c : List Char} (ha : NoOpening a) (hc : NoClosing c)
    (rest : List Char) :
    firstWrapped? (a ++ (opening ++ (attributes o ++ (openingEnd ++ (c ++ (closing ++ rest)))))) =
      some (a, o, c, rest) := by
  have hmark : '【' ∉ "TRUNCATE".toList := by decide
  have hopening := Text.cut?_append hmark ha (attributes o ++ (openingEnd ++ (c ++ (closing ++ rest))))
  have hend := Text.cut?_singleton (openingEnd_not_mem_attributes o) (c ++ (closing ++ rest))
  exact firstWrapped?_eq_some_iff.mpr
    ⟨attributes o, _, _, hopening, hend, cut?_closing hc rest, readOptions_attributes ho⟩

/-- The marker that was written is read as part of what follows, if the content has one of its own. -/
theorem partsOf_wrapped {o : WrapOptions} (ho : o.Sized) {a c : List Char} (ha : NoOpening a) (hc : NoClosing c)
    (rest : List Char) :
    partsOf (a ++ (opening ++ (attributes o ++ (openingEnd ++ (c ++ (closing ++ rest)))))) =
      fixedPart a ++ ⟨c, some o⟩ :: partsOf rest :=
  partsOf_of_some (firstWrapped?_wrapped ho ha hc rest)

/-- Content that has closing markers is cut at the first one. -/
theorem exists_noClosing {cs : List Char} (h : ¬ NoClosing cs) :
    ∃ first rest, NoClosing first ∧ cs = first ++ (closing ++ rest) := by
  cases hcut : Text.cut? closing cs with
  | none => exact absurd (Text.cut?_eq_none_iff.mp hcut) h
  | some found => exact ⟨found.1, found.2, Text.not_infix_of_cut? (by decide) hcut, Text.eq_of_cut? hcut⟩

theorem strip_eq (s : String) : strip s = String.ofList ((partsOf s.toList).flatMap (·.content)) := by
  rw [strip, join, parts_eq]

/-- The marker that was written ends a wrapped text exactly if its content has no closing marker.  Such a text
is read back with its options between what stands around it, and removing the markers leaves just that.
Otherwise the content is read up to its first closing marker, and all that follows, the marker that was written
too, is read as if nothing had been wrapped. -/
theorem wrapping_is_undone {o : WrapOptions} (ho : o.Sized) {a b : String} (ha : NoOpening a.toList)
    (hb : NoOpening b.toList) (c : String) :
    (parts (a ++ wrapWith c o ++ b) = fixedPart a.toList ++ ⟨c.toList, some o⟩ :: fixedPart b.toList ↔
      NoClosing c.toList) ∧
    (NoClosing c.toList → strip (a ++ wrapWith c o ++ b) = a ++ c ++ b) ∧
    ∀ first rest : String, NoClosing first.toList → c = first ++ String.ofList closing ++ rest →
      parts (a ++ wrapWith c o ++ b) =
        fixedPart a.toList ++ ⟨first.toList, some o⟩ :: parts (rest ++ String.ofList closing ++ b) ∧
      strip (a ++ wrapWith c o ++ b) = a ++ first ++ strip (rest ++ String.ofList closing ++ b) := by
  have htext : (a ++ wrapWith c o ++ b).toList =
      a.toList ++ (opening ++ (attributes o ++ (openingEnd ++ (c.toList ++ (closing ++ b.toList))))) := by
    simp [toList_wrapWith]
  have hread (hc : NoClosing c.toList) : partsOf (a ++ wrapWith c o ++ b).toList =
      fixedPart a.toList ++ ⟨c.toList, some o⟩ :: fixedPart b.toList := by
    rw [htext, partsOf_wrapped ho ha hc, partsOf_of_noOpening hb]
  have hsplit {first rest : List Char} (hfirst : NoClosing first) (hc : c.toList = first ++ (closing ++ rest)) :
      partsOf (a ++ wrapWith c o ++ b).toList =
        fixedPart a.toList ++ ⟨first, some o⟩ :: partsOf (rest ++ (closing ++ b.toList)) := by
    rw [htext, hc, ← partsOf_wrapped ho ha hfirst]
    simp only [List.append_assoc]
  refine ⟨⟨fun h => ?_, fun hc => by rw [parts_eq, hread hc]⟩, fun hc => ?_, fun first rest hfirst hc => ?_⟩
  · -- a closing marker in the content would end the text there
    by_contra hc
    obtain ⟨first, rest, hfirst, heq⟩ := exists_noClosing hc
    rw [parts_eq, hsplit hfirst heq] at h
    have hcontent : first = c.toList := congrArg Part.content (List.cons_eq_cons.mp (List.append_cancel_left h)).1
    exact hc (hcontent ▸ hfirst)
  · apply String.toList_injective
    rw [strip_eq, hread hc]
    simp [flatMap_fixedPart]
  · have hchars : c.toList = first.toList ++ (closing ++ rest.toList) := by simp [hc]
    have hparts := hsplit hfirst hchars
    refine ⟨by rw [parts_eq, parts_eq, hparts]; simp, ?_⟩
    apply String.toList_injective
    rw [strip_eq, strip_eq, hparts]
    simp [flatMap_fixedPart]

/-- Content may look like an opening marker. -/
theorem openedContent_is_undone :
    (⟨.ends, 4, 7⟩ : WrapOptions).Sized ∧ NoOpening "a ".toList ∧ NoOpening " b】".toList ∧
      NoClosing "【TRUNCATE flex:2 】c".toList ∧
      strip ("a " ++ wrapWith "【TRUNCATE flex:2 】c" ⟨.ends, 4, 7⟩ ++ " b】") = "a 【TRUNCATE flex:2 】c b】" := by
  have ho : (⟨.ends, 4, 7⟩ : WrapOptions).Sized := ⟨by decide, by decide, by decide⟩
  have ha : NoOpening "a ".toList := by unfold NoOpening; decide
  have hb : NoOpening " b】".toList := by unfold NoOpening; decide
  have hc : NoClosing "【TRUNCATE flex:2 】c".toList := by unfold NoClosing; decide
  exact ⟨ho, ha, hb, hc, (wrapping_is_undone ho ha hb _).2.1 hc⟩

/-- Wrapped content that has a closing marker loses it, and the marker that was written stays in the text. -/
theorem wrapping_is_not_always_undone : ¬ ∀ (o : WrapOptions) (a b c : String), o.Sized →
    NoOpening a.toList → NoClosing a.toList → NoOpening b.toList → NoClosing b.toList →
      parts (a ++ wrapWith c o ++ b) = fixedPart a.toList ++ ⟨c.toList, some o⟩ :: fixedPart b.toList ∧
        strip (a ++ wrapWith c o ++ b) = a ++ c ++ b := by
  intro h
  have hundone := h {} "" "" "x【/TRUNCATE】y" ⟨by decide, by decide, by decide⟩ (by unfold NoOpening; decide)
    (by unfold NoClosing; decide) (by unfold NoOpening; decide) (by unfold NoClosing; decide)
  have hread : strip ("" ++ wrapWith "x【/TRUNCATE】y" {} ++ "") = "xy【/TRUNCATE】" := by decide +kernel
  rw [hread] at hundone
  exact absurd hundone.2 (by decide +kernel)

end Wrapping

end ScriptAgent

import Mathlib.Tactic.IntervalCases
import ScriptAgent.Text.Case

/-!
# Lower case and ASCII case

Texts that differ in ASCII capitals only have the same lower case.  A letter and its capital count alike for
the rule of the final sigma, so that is no exception.
-/

namespace ScriptAgent.Text

/-- What is the same for each of the 26 capitals and its small letter is the same for all characters. -/
theorem eq_toLower {α : Type} (f : Char → α)
    (capitals : ∀ n, 65 ≤ n → n ≤ 90 → f (Char.ofNat n) = f (Char.ofNat n).toLower) (c : Char) : f c = f c.toLower := by
  by_cases h : 65 ≤ c.toNat ∧ c.toNat ≤ 90
  · have hcapital := capitals c.toNat h.1 h.2
    rwa [Char.ofNat_toNat] at hcapital
  · have hself : c.toLower = c := dif_neg fun hcapital => h ⟨hcapital.1, hcapital.2⟩
    rw [hself]

theorem lowerChar_toLower (c : Char) : lowerChar c = lowerChar c.toLower :=
  eq_toLower lowerChar (fun n _ _ => by interval_cases n <;> rfl) c

theorem isCased_toLower (c : Char) : isCased c = isCased c.toLower :=
  eq_toLower isCased (fun n _ _ => by interval_cases n <;> rfl) c

theorem isCaseIgnorable_toLower (c : Char) : isCaseIgnorable c = isCaseIgnorable c.toLower :=
  eq_toLower isCaseIgnorable (fun n _ _ => by interval_cases n <;> rfl) c

theorem isSigma_toLower (c : Char) : (c.toNat == 0x3a3) = (c.toLower.toNat == 0x3a3) :=
  eq_toLower (·.toNat == 0x3a3) (fun n _ _ => by interval_cases n <;> rfl) c

theorem meetsCased_toLower (cs : List Char) : meetsCased cs = meetsCased (cs.map Char.toLower) := by
  induction cs with
  | nil => rfl
  | cons c rest ih =>
    unfold meetsCased at ih ⊢
    rw [List.map_cons, List.dropWhile_cons, List.dropWhile_cons, ← isCaseIgnorable_toLower]
    by_cases h : isCaseIgnorable c = true
    · rw [if_pos h, if_pos h]
      exact ih
    · rw [if_neg h, if_neg h]
      exact isCased_toLower c

theorem lowerChars_toLower (before cs : List Char) :
    lowerChars before cs = lowerChars (before.map Char.toLower) (cs.map Char.toLower) := by
  induction cs generalizing before with
  | nil => rfl
  | cons c rest ih =>
    rw [List.map_cons, lowerChars, lowerChars, ih, List.map_cons, isSigma_toLower c, lowerChar_toLower c,
      meetsCased_toLower before, meetsCased_toLower rest]

/-- Texts that differ in ASCII capitals only have the same lower case. -/
theorem lower_eq_of_same {a b : String} (h : sameIgnoringAsciiCase a b = true) : lower a = lower b := by
  have hsame : a.toList.map Char.toLower = b.toList.map Char.toLower := eq_of_beq h
  rw [lower, lower, lowerChars_toLower, hsame, ← lowerChars_toLower]

end ScriptAgent.Text

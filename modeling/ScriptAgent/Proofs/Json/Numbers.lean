import Mathlib.Data.List.TakeWhile
import ScriptAgent.Json.Reader
import ScriptAgent.Proofs.Text.Reading

/-!
# Texts of numbers read back

Reading a number takes its sign, the digits before the point, those after it, and the exponent.  What is read as
a number is read so whatever ends it: no character that may follow a number in the text of a value belongs to a
number.
-/

namespace ScriptAgent.Json

/-! ### Reading in steps -/

/-- Whether a number is negative, and its digits. -/
def signed : List Char → Bool × List Char
  | '-' :: rest => (true, rest)
  | cs => (false, cs)

/-- Whether digits may stand before the point: there is one, and more only if the first is not zero. -/
def isWholePart : List Char → Bool
  | [] => false
  | ['0'] => true
  | '0' :: _ => false
  | _ => true

/-- The digits after the point, if there is one, and what follows. -/
def readFraction : List Char → Option (Option (List Char) × List Char)
  | '.' :: rest =>
    if (rest.takeWhile Char.isDigit).isEmpty then none
    else some (some (rest.takeWhile Char.isDigit), rest.dropWhile Char.isDigit)
  | rest => some (none, rest)

/-- Whether no exponent follows. -/
def endsWhole : List Char → Bool
  | c :: _ => c != 'e' && c != 'E'
  | [] => true

/-- The number of digits that were read, and of the exponent that may follow. -/
def readEnd (negative : Bool) (whole : List Char) (fraction : Option (List Char)) (rest : List Char) :
    Option (Numeral × List Char) :=
  let read := addDigits 0 0 whole
  if fraction.isNone && read.2.2.isEmpty && endsWhole rest then
    if negative then
      if read.1 == 0 || read.1 > Nat.pow 2 63 then some (.float (-(Float.ofNat read.1)), rest)
      else some (.int (-(read.1 : Int)), rest)
    else some (.int read.1, rest)
  else
    let more := addDigits read.1 0 (fraction.getD [])
    (readExponent rest).bind fun exponent =>
      (scale more.1 (max ((read.2.2.length : Int) - more.2.1 + exponent.1) (-100000))).bind fun f =>
        some (.float (if negative then -f else f), exponent.2)

theorem readNumber_eq (cs : List Char) : readNumber cs =
    if isWholePart ((signed cs).2.takeWhile Char.isDigit) then
      (readFraction ((signed cs).2.dropWhile Char.isDigit)).bind fun p =>
        readEnd (signed cs).1 ((signed cs).2.takeWhile Char.isDigit) p.1 p.2
    else none := by
  unfold readNumber
  split
  next negative body hsigned =>
  have hsign : signed cs = (negative, body) := by
    rw [← hsigned, signed.eq_def]
    split <;> simp_all
  rw [hsign]
  extract_lets whole rest finish
  show _ = if isWholePart whole then (readFraction rest).bind fun p => readEnd negative whole p.1 p.2 else none
  have hfinish : finish () = (readFraction rest).bind fun p => readEnd negative whole p.1 p.2 := by
    clear_value rest
    rw [readFraction.eq_def]
    split
    · next tail =>
      show (if (tail.takeWhile Char.isDigit).isEmpty = true then _ else _) = _
      cases (tail.takeWhile Char.isDigit).isEmpty <;> rfl
    · next hpoint =>
      show (match rest with | '.' :: rest => _ | _ => _) = _
      split
      · exact absurd rfl (hpoint _)
      · rfl
  clear_value whole
  split
  · rfl
  · exact hfinish
  · next hmore =>
    rw [isWholePart]
    · rfl
    · exact hmore
  · next hempty hzero hmore =>
    rw [isWholePart]
    · exact hfinish
    · exact hempty
    · exact hzero
    · exact hmore

/-- What may follow a value in the text of another. -/
def Ends (rest : List Char) : Prop :=
  ∀ c ∈ rest.head?, c = ',' ∨ c = ']' ∨ c = '\x7d'

theorem ends_nil : Ends [] := nofun

theorem takeWhile_append {p : Char → Bool} {rest : List Char} (h : ∀ c ∈ rest.head?, p c = false) (cs : List Char) :
    (cs ++ rest).takeWhile p = cs.takeWhile p := by
  induction cs with
  | nil => cases rest <;> simp_all
  | cons c cs ih => by_cases hc : p c <;> simp [hc, ih]

theorem dropWhile_append {p : Char → Bool} {rest : List Char} (h : ∀ c ∈ rest.head?, p c = false) (cs : List Char) :
    (cs ++ rest).dropWhile p = cs.dropWhile p ++ rest := by
  induction cs with
  | nil => cases rest <;> simp_all
  | cons c cs ih => by_cases hc : p c <;> simp [hc, ih]

theorem Ends.isDigit {rest : List Char} (h : Ends rest) : ∀ c ∈ rest.head?, c.isDigit = false := by
  intro c hc
  rcases h c hc with rfl | rfl | rfl <;> decide

theorem readFraction_of_ne {c : Char} (hc : c ≠ '.') (cs : List Char) :
    readFraction (c :: cs) = some (none, c :: cs) := by
  rw [readFraction.eq_def]
  split <;> simp_all

theorem readFraction_append {cs r rest : List Char} {fraction : Option (List Char)} (hrest : Ends rest)
    (h : readFraction cs = some (fraction, r)) : readFraction (cs ++ rest) = some (fraction, r ++ rest) := by
  cases cs with
  | nil =>
    cases h
    cases rest with
    | nil => rfl
    | cons c rest => rcases hrest c rfl with rfl | rfl | rfl <;> rfl
  | cons c cs =>
    by_cases hc : c = '.'
    · subst hc
      simp only [List.cons_append, readFraction, takeWhile_append hrest.isDigit, dropWhile_append hrest.isDigit] at h ⊢
      split at h
      · cases h
      · next hdigits =>
        cases h
        rw [if_neg hdigits]
    · rw [readFraction_of_ne hc] at h
      cases h
      exact readFraction_of_ne hc _

theorem endsWhole_append {cs rest : List Char} (hrest : Ends rest) : endsWhole (cs ++ rest) = endsWhole cs := by
  cases cs with
  | cons c cs => rfl
  | nil =>
    cases rest with
    | nil => rfl
    | cons c rest =>
      rcases hrest c rfl with rfl | rfl | rfl <;> rfl

/-- The digits of an exponent with their sign. -/
def readPower (negative : Bool) (cs : List Char) : Option (Int × List Char) :=
  let digits := cs.takeWhile Char.isDigit
  if digits.isEmpty then none
  else some (if negative then -(Text.readDecimal digits : Int) else Text.readDecimal digits, cs.dropWhile Char.isDigit)

theorem readPower_append {negative : Bool} {cs r rest : List Char} {e : Int} (hrest : Ends rest)
    (h : readPower negative cs = some (e, r)) : readPower negative (cs ++ rest) = some (e, r ++ rest) := by
  simp only [readPower, takeWhile_append hrest.isDigit, dropWhile_append hrest.isDigit] at h ⊢
  split at h
  · cases h
  · next hdigits =>
    cases h
    rw [if_neg hdigits]

theorem readExponent_of_mark {c : Char} (hc : (c == 'e' || c == 'E') = true) (cs : List Char) :
    readExponent (c :: cs) = match cs with
      | '+' :: cs => readPower false cs
      | '-' :: cs => readPower true cs
      | _ => readPower false cs := by
  show (if (c == 'e' || c == 'E') = true then _ else _) = _
  rw [if_pos hc]
  cases cs with
  | nil => rfl
  | cons d cs =>
    by_cases hplus : d = '+'
    · subst hplus
      rfl
    · by_cases hminus : d = '-'
      · subst hminus
        rfl
      · simp [hplus, hminus, readPower]

theorem readExponent_of_ne {c : Char} (hc : (c == 'e' || c == 'E') = false) (cs : List Char) :
    readExponent (c :: cs) = some (0, c :: cs) := by
  show (if (c == 'e' || c == 'E') = true then _ else _) = _
  rw [hc, if_neg Bool.false_ne_true]

theorem readExponent_append {cs r rest : List Char} {e : Int} (hrest : Ends rest)
    (h : readExponent cs = some (e, r)) : readExponent (cs ++ rest) = some (e, r ++ rest) := by
  cases cs with
  | nil =>
    cases h
    cases rest with
    | nil => rfl
    | cons c rest => rcases hrest c rfl with rfl | rfl | rfl <;> rfl
  | cons c cs =>
    cases hc : (c == 'e' || c == 'E') with
    | false =>
      rw [readExponent_of_ne hc] at h
      cases h
      exact readExponent_of_ne hc _
    | true =>
      rw [List.cons_append]
      rw [readExponent_of_mark hc] at h ⊢
      cases cs with
      | nil => cases h
      | cons d cs =>
        by_cases hplus : d = '+'
        · subst hplus
          exact readPower_append hrest h
        · by_cases hminus : d = '-'
          · subst hminus
            exact readPower_append hrest h
          · have hread : readPower false (d :: cs) = some (e, r) := by simpa [hplus, hminus] using h
            simpa [hplus, hminus] using readPower_append hrest hread

theorem readEnd_append {negative : Bool} {whole cs r rest : List Char} {fraction : Option (List Char)} {n : Numeral}
    (hrest : Ends rest) (h : readEnd negative whole fraction cs = some (n, r)) :
    readEnd negative whole fraction (cs ++ rest) = some (n, r ++ rest) := by
  unfold readEnd at h ⊢
  rw [endsWhole_append hrest]
  dsimp only at h ⊢
  split at h
  · next hplain =>
    rw [if_pos hplain]
    split at h
    · next hnegative =>
      rw [if_pos hnegative]
      split at h
      · next hfloat =>
        cases h
        rw [if_pos hfloat]
      · next hint =>
        cases h
        rw [if_neg hint]
    · next hpositive =>
      cases h
      rw [if_neg hpositive]
  · next hplain =>
    rw [if_neg hplain]
    obtain ⟨⟨e, r'⟩, hexponent, hscale⟩ := Option.bind_eq_some_iff.mp h
    obtain ⟨f, hf, hread⟩ := Option.bind_eq_some_iff.mp hscale
    cases hread
    rw [readExponent_append hrest hexponent, Option.bind_some, hf, Option.bind_some]

theorem signed_append {cs : List Char} (hcs : cs ≠ []) (rest : List Char) :
    signed (cs ++ rest) = ((signed cs).1, (signed cs).2 ++ rest) := by
  obtain ⟨c, cs, rfl⟩ := List.exists_cons_of_ne_nil hcs
  by_cases hc : c = '-'
  · subst hc
    rfl
  · simp [signed, hc]

/-- What ends a value does not belong to a number before it. -/
theorem readNumber_append {cs r rest : List Char} {n : Numeral} (hrest : Ends rest)
    (h : readNumber cs = some (n, r)) : readNumber (cs ++ rest) = some (n, r ++ rest) := by
  rw [readNumber_eq] at h ⊢
  split at h
  · next hwhole =>
    have hcs : cs ≠ [] := by
      rintro rfl
      cases hwhole
    obtain ⟨⟨fraction, after⟩, hfraction, hend⟩ := Option.bind_eq_some_iff.mp h
    simp only [signed_append hcs, takeWhile_append hrest.isDigit, dropWhile_append hrest.isDigit, hwhole, ↓reduceIte,
      readFraction_append hrest hfraction, Option.bind_some]
    exact readEnd_append hrest hend
  · cases h

/-! ### Integers -/

theorem le_readDigits (significand : Nat) (ds : List Char) :
    significand ≤ ds.foldl (fun n c => n * 10 + Text.decimalValue c) significand := by
  induction ds generalizing significand with
  | nil => exact Nat.le_refl _
  | cons c ds ih => exact Nat.le_trans (by omega) (ih (significand * 10 + Text.decimalValue c))

/-- Digits of a number within 64 bits are all added. -/
theorem addDigits_eq {significand : Nat} {ds : List Char} (count : Nat)
    (h : ds.foldl (fun n c => n * 10 + Text.decimalValue c) significand < UInt64.size) :
    addDigits significand count ds =
      (ds.foldl (fun n c => n * 10 + Text.decimalValue c) significand, count + ds.length, []) := by
  induction ds generalizing significand count with
  | nil => rfl
  | cons c ds ih =>
    have hnext := Nat.lt_of_le_of_lt (le_readDigits (significand * 10 + Text.decimalValue c) ds) h
    rw [addDigits, if_pos hnext, ih (count + 1) h, List.length_cons, List.foldl_cons, Nat.add_assoc, Nat.add_comm 1]

theorem addDigits_toDigits {n : Nat} (h : n < UInt64.size) :
    addDigits 0 0 (Nat.toDigits 10 n) = (n, (Nat.toDigits 10 n).length, []) := by
  have hread : (Nat.toDigits 10 n).foldl (fun n c => n * 10 + Text.decimalValue c) 0 = n :=
    Text.readDecimal_toDigits n
  rw [addDigits_eq 0 (hread.symm ▸ h), hread, Nat.zero_add]

/-- Only the digits of zero start with zero. -/
theorem exists_toDigits_cons {n : Nat} (hpos : 0 < n) : ∃ c cs, Nat.toDigits 10 n = c :: cs ∧ c ≠ '0' := by
  induction n using Nat.strongRecOn with
  | ind n ih =>
    rcases Nat.lt_or_ge n 10 with hlt | hge
    · have hdigit : ∀ m < 10, 0 < m → m.digitChar ≠ '0' := by decide
      exact ⟨n.digitChar, [], Nat.toDigits_of_lt_base hlt, hdigit n hlt hpos⟩
    · obtain ⟨c, cs, hdigits, hc⟩ := ih (n / 10) (by omega) (by omega)
      refine ⟨c, cs ++ Nat.toDigits 10 (n % 10), ?_, hc⟩
      rw [← List.cons_append, ← hdigits, Nat.toDigits_append_toDigits (by decide) (by omega) (by omega), Nat.div_add_mod]

theorem isWholePart_toDigits (n : Nat) : isWholePart (Nat.toDigits 10 n) = true := by
  rcases Nat.eq_zero_or_pos n with rfl | hpos
  · rfl
  · obtain ⟨c, cs, hdigits, hc⟩ := exists_toDigits_cons hpos
    rw [hdigits, isWholePart.eq_def]
    split <;> simp_all

theorem takeWhile_toDigits (n : Nat) : (Nat.toDigits 10 n).takeWhile Char.isDigit = Nat.toDigits 10 n :=
  List.takeWhile_eq_self_iff.mpr fun _ hc => Text.isDigit_of_mem_toDigits hc

theorem dropWhile_toDigits (n : Nat) : (Nat.toDigits 10 n).dropWhile Char.isDigit = [] :=
  List.dropWhile_eq_nil_iff.mpr fun _ hc => Text.isDigit_of_mem_toDigits hc

theorem signed_of_isDigit {c : Char} (hc : c.isDigit = true) (cs : List Char) :
    signed (c :: cs) = (false, c :: cs) := by
  rw [signed.eq_def]
  split
  · next h =>
    cases h
    cases hc
  · rfl

theorem signed_toDigits (n : Nat) : signed (Nat.toDigits 10 n) = (false, Nat.toDigits 10 n) := by
  obtain ⟨c, cs, hdigits⟩ := List.exists_cons_of_ne_nil (Nat.toDigits_ne_nil (n := n) (b := 10))
  rw [hdigits]
  exact signed_of_isDigit (Text.isDigit_of_mem_toDigits (hdigits ▸ List.mem_cons_self)) cs

theorem readNumber_nat {n : Nat} (h : n < UInt64.size) : readNumber (Nat.toDigits 10 n) = some (.int n, []) := by
  rw [readNumber_eq, signed_toDigits, takeWhile_toDigits, dropWhile_toDigits, if_pos (isWholePart_toDigits n)]
  simp [readFraction, readEnd, addDigits_toDigits h, endsWhole]

theorem readNumber_negative {n : Nat} (hpos : 0 < n) (h : n ≤ Nat.pow 2 63) :
    readNumber ('-' :: Nat.toDigits 10 n) = some (.int (-n), []) := by
  have hsize : n < UInt64.size := Nat.lt_of_le_of_lt h (by decide)
  rw [readNumber_eq, signed, takeWhile_toDigits, dropWhile_toDigits, if_pos (isWholePart_toDigits n)]
  simp [readFraction, readEnd, addDigits_toDigits hsize, endsWhole, Nat.ne_of_gt hpos, Nat.not_lt.mpr h]

/-- The integers that are read as such: those that have 64 bits, with a sign or without. -/
def IntFits (n : Int) : Prop :=
  -0x8000000000000000 ≤ n ∧ n < 0x10000000000000000

theorem readNumber_int {n : Int} (h : IntFits n) : readNumber (toString n).toList = some (.int n, []) := by
  obtain ⟨hlow, hhigh⟩ := h
  cases n with
  | ofNat n =>
    have htext : (toString (Int.ofNat n)).toList = Nat.toDigits 10 n := Text.toList_toString_nat n
    rw [htext]
    exact readNumber_nat (Int.ofNat_lt.mp hhigh)
  | negSucc n =>
    have htext : (toString (Int.negSucc n)).toList = '-' :: Nat.toDigits 10 (n + 1) := by
      show ("-" ++ toString (n + 1)).toList = _
      rw [String.toList_append, Text.toList_toString_nat]
      rfl
    rw [htext]
    exact readNumber_negative (Nat.succ_pos n) (show n + 1 ≤ 2 ^ 63 by omega)

theorem head_of_readNumber {cs rest : List Char} {n : Numeral} (h : readNumber cs = some (n, rest)) :
    ∃ c tail, cs = c :: tail ∧ (c.isDigit = true ∨ c = '-') := by
  rw [readNumber_eq] at h
  split at h
  · next hwhole =>
    cases cs with
    | nil => cases hwhole
    | cons c tail =>
      refine ⟨c, tail, rfl, ?_⟩
      by_cases hc : c = '-'
      · exact .inr hc
      · have hsigned : signed (c :: tail) = (false, c :: tail) := by simp [signed, hc]
        rw [hsigned] at hwhole
        cases hdigit : c.isDigit with
        | true => exact .inl rfl
        | false =>
          rw [List.takeWhile_cons, hdigit] at hwhole
          cases hwhole
  · cases h

end ScriptAgent.Json

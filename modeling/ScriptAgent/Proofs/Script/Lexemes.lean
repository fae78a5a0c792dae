import Mathlib.Data.List.Basic
import ScriptAgent.Script.Lexer

/-!
# What the lexer takes

Between two tokens blanks and comments are skipped, and each token takes some of the characters that follow.
Numbers, words, marks and symbols take *quiet* characters behind their first one: none that could open or end a
text, a comment, a line or a statement.
-/

namespace ScriptAgent.Script

/-! ### Skipping -/

/-- One blank or comment skipped: what follows it, and the place reached. -/
def skipOne (pos : Pos) : List Char → Option (List Char × Pos)
  | '\n' :: rest => some (rest, pos.newLine)
  | '/' :: '/' :: rest => some (skipLine pos.advance.advance rest)
  | '/' :: '*' :: rest => some (skipComment 1 pos.advance.advance rest)
  | c :: rest => if Text.isBlank c then some (rest, pos.advance) else none
  | [] => none

theorem skipSpace_succ (k : Nat) (pos : Pos) (cs : List Char) :
    skipSpace (k + 1) pos cs = match skipOne pos cs with
      | some (rest, pos') => skipSpace k pos' rest
      | none => (cs, pos) := by
  rw [skipSpace.eq_def]
  dsimp only
  split
  · rfl
  · rfl
  · rfl
  · next c rest hline hhidden hcomment =>
    rw [skipOne.eq_4 _ _ _ hline hhidden hcomment]
    cases Text.isBlank c <;> rfl
  · rfl

theorem skipSpace_zero (pos : Pos) (cs : List Char) : skipSpace 0 pos cs = (cs, pos) := rfl

theorem skipSpace_of_none {pos : Pos} {cs : List Char} (h : skipOne pos cs = none) (k : Nat) :
    skipSpace k pos cs = (cs, pos) := by
  cases k with
  | zero => rfl
  | succ k => rw [skipSpace_succ, h]

/-- Skipping with fuel for more is skipping on. -/
theorem skipSpace_add (k m : Nat) (pos : Pos) (cs : List Char) :
    skipSpace (k + m) pos cs = skipSpace m (skipSpace k pos cs).2 (skipSpace k pos cs).1 := by
  induction k generalizing pos cs with
  | zero => rw [Nat.zero_add, skipSpace_zero]
  | succ k ih =>
    rw [Nat.add_right_comm, skipSpace_succ, skipSpace_succ]
    cases h : skipOne pos cs with
    | some reached => exact ih _ _
    | none => rw [skipSpace_of_none h]

theorem skipLine_suffix (pos : Pos) (cs : List Char) : (skipLine pos cs).1 <:+ cs := by
  fun_induction skipLine pos cs with
  | case1 => exact List.suffix_rfl
  | case2 => exact List.suffix_rfl
  | case3 pos c rest _ ih => exact ih.trans (List.suffix_cons c rest)

theorem skipComment_suffix (depth : Nat) (pos : Pos) (cs : List Char) : (skipComment depth pos cs).1 <:+ cs := by
  have two {c d : Char} {rest : List Char} : rest <:+ c :: d :: rest :=
    (List.suffix_cons d rest).trans (List.suffix_cons c _)
  fun_induction skipComment depth pos cs with
  | case1 => exact List.suffix_rfl
  | case2 _ _ _ ih => exact ih.trans two
  | case3 => exact two
  | case4 _ _ _ _ ih => exact ih.trans two
  | case5 _ _ _ ih => exact ih.trans (List.suffix_cons _ _)
  | case6 _ _ c rest _ _ _ ih => exact ih.trans (List.suffix_cons c rest)

/-- What is skipped stands at the start. -/
theorem skipOne_suffix {pos pos' : Pos} {cs rest : List Char} (h : skipOne pos cs = some (rest, pos')) :
    rest <:+ cs ∧ rest.length < cs.length := by
  unfold skipOne at h
  split at h
  · cases h
    exact ⟨List.suffix_cons _ _, by simp⟩
  · next after =>
    have hsuffix := skipLine_suffix pos.advance.advance after
    rw [Option.some.inj h] at hsuffix
    have hlength : rest.length ≤ after.length := hsuffix.length_le
    exact ⟨hsuffix.trans ((List.suffix_cons _ _).trans (List.suffix_cons _ _)), by simp; omega⟩
  · next after =>
    have hsuffix := skipComment_suffix 1 pos.advance.advance after
    rw [Option.some.inj h] at hsuffix
    have hlength : rest.length ≤ after.length := hsuffix.length_le
    exact ⟨hsuffix.trans ((List.suffix_cons _ _).trans (List.suffix_cons _ _)), by simp; omega⟩
  · split at h
    · cases h
      exact ⟨List.suffix_cons _ _, by simp⟩
    · cases h
  · cases h

theorem skipSpace_suffix (k : Nat) (pos : Pos) (cs : List Char) : (skipSpace k pos cs).1 <:+ cs := by
  induction k generalizing pos cs with
  | zero => exact List.suffix_rfl
  | succ k ih =>
    rw [skipSpace_succ]
    cases h : skipOne pos cs with
    | some reached => exact (ih _ _).trans (skipOne_suffix h).1
    | none => exact List.suffix_rfl

/-- With fuel for every character nothing is left to be skipped. -/
theorem skipOne_skipSpace {k : Nat} (pos : Pos) {cs : List Char} (hk : cs.length < k) :
    skipOne (skipSpace k pos cs).2 (skipSpace k pos cs).1 = none := by
  induction k generalizing pos cs with
  | zero => omega
  | succ k ih =>
    rw [skipSpace_succ]
    cases h : skipOne pos cs with
    | some reached =>
      have := (skipOne_suffix h).2
      exact ih reached.2 (by omega)
    | none => exact h

theorem skipOne_blank {c : Char} (h : Text.isBlank c = true) (pos : Pos) (rest : List Char) :
    ∃ pos', skipOne pos (c :: rest) = some (rest, pos') := by
  have hslash : c ≠ '/' := by
    rintro rfl
    exact absurd h (by decide)
  by_cases hc : c = '\n'
  · subst hc
    exact ⟨_, rfl⟩
  · refine ⟨pos.advance, ?_⟩
    rw [skipOne.eq_4 _ _ _ hc (fun _ hcs => absurd hcs hslash) (fun _ hcs => absurd hcs hslash), if_pos h]

/-- Blanks are skipped one by one. -/
theorem skipSpace_blanks {blanks : List Char} (h : ∀ c ∈ blanks, Text.isBlank c = true) (k : Nat) (pos : Pos)
    (rest : List Char) : ∃ pos', skipSpace (blanks.length + k) pos (blanks ++ rest) = skipSpace k pos' rest := by
  induction blanks generalizing pos with
  | nil => exact ⟨pos, by rw [List.length_nil, Nat.zero_add, List.nil_append]⟩
  | cons c blanks ih =>
    obtain ⟨hc, hblanks⟩ := List.forall_mem_cons.mp h
    obtain ⟨pos', hskip⟩ := skipOne_blank hc pos (blanks ++ rest)
    obtain ⟨pos'', hrest⟩ := ih hblanks pos'
    refine ⟨pos'', ?_⟩
    rw [List.length_cons, Nat.add_right_comm, List.cons_append, skipSpace_succ, hskip]
    exact hrest

/-! ### Quiet characters -/

/-- Neither a line feed nor a semicolon, and nothing that opens or ends a comment or a text. -/
def isQuiet (c : Char) : Bool :=
  c != '\n' && c != ';' && c != '/' && c != '"' && c != '\'' && c != Char.ofNat 96

theorem isQuiet_of_isNameChar {c : Char} (h : isNameChar c = true) : isQuiet c = true := by
  simp only [isQuiet, Bool.and_eq_true, bne_iff_ne]
  refine ⟨⟨⟨⟨⟨?_, ?_⟩, ?_⟩, ?_⟩, ?_⟩, ?_⟩ <;> rintro rfl <;> exact absurd h (by decide)

theorem isNameChar_of_isDigit {c : Char} (h : c.isDigit = true) : isNameChar c = true := by
  simp [isNameChar, Char.isAlphanum, h]

theorem isQuiet_of_isDigit {c : Char} (h : c.isDigit = true) : isQuiet c = true :=
  isQuiet_of_isNameChar (isNameChar_of_isDigit h)

/-- Quiet characters taken from the start. -/
def TakesQuiet (cs rest : List Char) : Prop :=
  ∃ taken, cs = taken ++ rest ∧ ∀ c ∈ taken, isQuiet c = true

theorem TakesQuiet.refl (cs : List Char) : TakesQuiet cs cs :=
  ⟨[], rfl, nofun⟩

theorem TakesQuiet.cons {c : Char} {cs rest : List Char} (hc : isQuiet c = true) (h : TakesQuiet cs rest) :
    TakesQuiet (c :: cs) rest := by
  obtain ⟨taken, rfl, hquiet⟩ := h
  exact ⟨c :: taken, rfl, List.forall_mem_cons.mpr ⟨hc, hquiet⟩⟩

theorem readDecimalLiteral_takes (written : List Char) (taken : Nat) (hasPoint hasExponent : Bool) (cs : List Char) :
    TakesQuiet cs (readDecimalLiteral written taken hasPoint hasExponent cs).rest := by
  have quiet {c d : Char} {rest : List Char} {b : Bool} (hd : isQuiet d = true) (h : (c == d && b) = true)
      {r : NumberRead} (ih : TakesQuiet rest r.rest) : TakesQuiet (c :: rest) r.rest := by
    obtain ⟨hc, -⟩ := (Bool.and_eq_true _ _).mp h
    exact .cons (beq_iff_eq.mp hc ▸ hd) ih
  fun_induction readDecimalLiteral written taken hasPoint hasExponent cs with
  | case1 => exact .refl _
  | case2 _ _ _ _ c rest hdigit ih => exact .cons (isQuiet_of_isDigit hdigit) ih
  | case3 _ _ _ _ c rest _ hunder ih => exact .cons (beq_iff_eq.mp hunder ▸ rfl) ih
  | case4 _ _ _ _ c rest _ _ hpoint d _ _ ih =>
    rw [Bool.and_assoc] at hpoint
    exact quiet (by decide) hpoint ih
  | case5 => exact .refl _
  | case6 _ _ _ _ c rest _ _ hpoint d _ _ _ ih =>
    rw [Bool.and_assoc] at hpoint
    exact quiet (by decide) hpoint ih
  | case7 => exact .refl _
  | case8 _ _ _ _ c rest _ _ _ hexponent _ ih => exact quiet (by decide) hexponent ih
  | case9 _ _ _ _ c _ _ _ hexponent d after hsign _ ih =>
    have hd : isQuiet d = true := by
      rcases Bool.or_eq_true _ _ ▸ hsign with hplus | hminus
      · exact beq_iff_eq.mp hplus ▸ rfl
      · exact beq_iff_eq.mp hminus ▸ rfl
    exact quiet (by decide) hexponent (.cons hd ih)
  | case10 => exact .refl _
  | case11 => exact .refl _
  | case12 => exact .refl _

theorem readBaseLiteral_takes {admits : Char → Bool} (hadmits : ∀ c, admits c = true → isQuiet c = true)
    (written : List Char) (taken : Nat) (cs : List Char) :
    TakesQuiet cs (readBaseLiteral admits written taken cs).rest := by
  fun_induction readBaseLiteral admits written taken cs with
  | case1 _ _ d after hunder ih => exact .cons (beq_iff_eq.mp hunder ▸ rfl) ih
  | case2 _ _ d after _ hadmit ih => exact .cons (hadmits d hadmit) ih
  | case3 => exact .refl _
  | case4 => exact .refl _

theorem isQuiet_of_hexValue? {c : Char} (h : (Text.hexValue? c).isSome = true) : isQuiet c = true := by
  simp only [isQuiet, Bool.and_eq_true, bne_iff_ne]
  refine ⟨⟨⟨⟨⟨?_, ?_⟩, ?_⟩, ?_⟩, ?_⟩, ?_⟩ <;> rintro rfl <;> exact absurd h (by decide)

theorem readNumberLiteral_takes (negative : Bool) (first : Char) (cs : List Char) :
    TakesQuiet cs (readNumberLiteral negative first cs).2.2 := by
  unfold readNumberLiteral
  dsimp only
  split
  · next base after h =>
    have hadmits (c : Char) (hc : (if base == 16 then fun c => (Text.hexValue? c).isSome else Char.isDigit) c = true) :
        isQuiet c = true := by
      split at hc
      · exact isQuiet_of_hexValue? hc
      · exact isQuiet_of_isDigit hc
    -- the letter that tells the base is quiet as well
    obtain ⟨c, rfl, hc⟩ : ∃ c, cs = c :: after ∧ isQuiet c = true := by
      split at h
      · cases h
      · split at h
        · next c _ =>
          have quiet {d e : Char} (hde : (c == d || c == e) = true) (hd : isQuiet d = true) (he : isQuiet e = true) :
              isQuiet c = true := by
            rcases (Bool.or_eq_true _ _).mp hde with hc | hc
            · exact beq_iff_eq.mp hc ▸ hd
            · exact beq_iff_eq.mp hc ▸ he
          split at h
          · next hletter =>
            cases h
            exact ⟨c, rfl, quiet hletter (by decide) (by decide)⟩
          · split at h
            · next hletter =>
              cases h
              exact ⟨c, rfl, quiet hletter (by decide) (by decide)⟩
            · split at h
              · next hletter =>
                cases h
                exact ⟨c, rfl, quiet hletter (by decide) (by decide)⟩
              · cases h
        · cases h
    exact .cons hc (readBaseLiteral_takes hadmits [] 2 after)
  · exact readDecimalLiteral_takes _ _ _ _ _

theorem takeWhile_takes (cs : List Char) : TakesQuiet cs (cs.dropWhile isNameChar) := by
  refine ⟨cs.takeWhile isNameChar, List.takeWhile_append_dropWhile.symm, fun c hc => ?_⟩
  exact isQuiet_of_isNameChar (List.all_eq_true.mp List.all_takeWhile c hc)

/-- A mark or symbol stands at the start of the characters. -/
theorem readSymbol_eq {cs : List Char} {table : List (String × Bool)} {text : String} {known : Bool} {rest : List Char}
    (h : readSymbol cs table = some (text, known, rest)) : cs = text.toList ++ rest ∧ (text, known) ∈ table := by
  have after {piece cs rest : List Char} (h : afterText piece cs = some rest) : cs = piece ++ rest := by
    induction piece generalizing cs with
    | nil => exact (Option.some.inj h).symm ▸ rfl
    | cons p ps ih =>
      cases cs with
      | nil => cases h
      | cons c cs =>
        rw [afterText] at h
        split at h
        · next hp => rw [beq_iff_eq.mp hp, ih h, List.cons_append]
        · cases h
  induction table with
  | nil => cases h
  | cons entry table ih =>
    obtain ⟨text', known'⟩ := entry
    rw [readSymbol] at h
    split at h
    · next rest' hafter =>
      cases h
      exact ⟨after hafter, List.mem_cons_self⟩
    · obtain ⟨hcs, hmem⟩ := ih h
      exact ⟨hcs, List.mem_cons_of_mem _ hmem⟩

/-- A character that opens no text and ends no line; it may be a slash or a semicolon. -/
def isPlain (c : Char) : Bool :=
  c != '\n' && c != '"' && c != '\'' && c != Char.ofNat 96

/-- Whether characters could be a token of code: plain at first, and quiet behind that. -/
def isPlainText : List Char → Bool
  | [] => false
  | c :: inner => isPlain c && inner.all isQuiet

/-- Every mark, and every symbol that is refused only later, is a plain character with quiet ones behind it. -/
theorem symbols_plain : ∀ entry ∈ symbols, entry.2 = true ∨ symbolHint entry.1 = none →
    ∃ c inner, entry.1.toList = c :: inner ∧ isPlain c = true ∧ ∀ d ∈ inner, isQuiet d = true := by
  have hall : symbols.all (fun entry => !(entry.2 || (symbolHint entry.1).isNone) || isPlainText entry.1.toList) = true := by
    decide +kernel
  intro entry hentry hmeant
  have hcheck := List.all_eq_true.mp hall entry hentry
  have hkeep : (entry.2 || (symbolHint entry.1).isNone) = true := by simpa using hmeant
  rw [hkeep] at hcheck
  cases htext : entry.1.toList with
  | nil => simp [htext, isPlainText] at hcheck
  | cons c inner =>
    simp only [htext, isPlainText, Bool.not_true, Bool.false_or, Bool.and_eq_true, List.all_eq_true] at hcheck
    exact ⟨c, inner, rfl, hcheck.1, hcheck.2⟩

/-! ### Text literals -/

/-- How a literal of some kind goes on, up to its end and what follows; `escaped` if a backslash came before. -/
inductive Reads (kind : TextKind) : Bool → List Char → TextEnd → List Char → Prop where
  | closed {rest : List Char} (h : rest.head? ≠ some kind.close) : Reads kind false (kind.close :: rest) .closed rest
  | doubled {rest after : List Char} {ending : TextEnd} (h : Reads kind false rest ending after) :
      Reads kind false (kind.close :: kind.close :: rest) ending after
  | interpolation {rest : List Char} (hkind : kind.interpolates = true) (h : rest.head? = some '\x7b') :
      Reads kind false ('$' :: rest) .interpolation rest
  | escape {rest after : List Char} {ending : TextEnd} (hkind : kind.verbatim = false)
      (h : Reads kind true rest ending after) : Reads kind false ('\\' :: rest) ending after
  | escaped {c : Char} {rest after : List Char} {ending : TextEnd} (hc : c ≠ '\n')
      (h : Reads kind false rest ending after) : Reads kind true (c :: rest) ending after
  /-- A carriage return belongs to the line feed behind it. -/
  | lineEnd {escaped : Bool} {rest after : List Char} {ending : TextEnd}
      (h : Reads kind escaped ('\n' :: rest) ending after) : Reads kind escaped ('\r' :: '\n' :: rest) ending after
  | continued {rest after : List Char} {ending : TextEnd} (hkind : kind.continues = true)
      (h : Reads kind false rest ending after) : Reads kind true ('\n' :: rest) ending after
  | lineFeed {rest after : List Char} {ending : TextEnd} (hkind : kind.verbatim = true)
      (h : Reads kind false rest ending after) : Reads kind false ('\n' :: rest) ending after
  | other {c : Char} {rest after : List Char} {ending : TextEnd} (hclose : c ≠ kind.close) (hline : c ≠ '\n')
      (hescape : c ≠ '\\' ∨ kind.verbatim = true) (h : Reads kind false rest ending after) :
      Reads kind false (c :: rest) ending after

/-- Whether a backslash came right before. -/
def EscapeState.isEscape : EscapeState → Bool
  | .escape => true
  | _ => false

theorem Reads.hex {kind : TextKind} {c : Char} {d : Nat} {rest after : List Char} {ending : TextEnd}
    (hhex : Text.hexValue? kind.close = none) (hc : Text.hexValue? c = some d) (h : Reads kind false rest ending after) :
    Reads kind false (c :: rest) ending after := by
  refine .other ?_ ?_ (.inl ?_) h
  · rintro rfl
    rw [hhex] at hc
    cases hc
  · rintro rfl
    cases hc
  · rintro rfl
    cases hc

theorem Reads.returned {kind : TextKind} {escaped : Bool} {c : Char} {rest after : List Char} {ending : TextEnd}
    (hc : (c == '\r' && rest.head? == some '\n') = true) (h : Reads kind escaped rest ending after) :
    Reads kind escaped (c :: rest) ending after := by
  obtain ⟨hreturn, hline⟩ := (Bool.and_eq_true _ _).mp hc
  obtain ⟨rest', rfl⟩ : ∃ rest', rest = '\n' :: rest' := by
    cases rest with
    | nil => cases hline
    | cons d rest' => exact ⟨rest', by simpa using hline⟩
  rw [beq_iff_eq.mp hreturn]
  exact .lineEnd h

/-- The state with its first place noted is escaped as before. -/
theorem TextState.escape_marked (st : TextState) :
    (if st.first.isNone then { st with first := st.pos } else st).escape = st.escape := by
  split <;> rfl

/-- What the machine reads, whatever positions and sizes it notes. -/
theorem reads_of_readText {kind : TextKind} {opened : Pos} {limit : Option Nat} {st : TextState} {cs : List Char}
    {t : TextRead} (hhex : Text.hexValue? kind.close = none) (h : readText kind opened limit st cs = .ok t)
    (hend : t.ending ≠ .missing) : Reads kind st.escape.isEscape cs t.ending t.rest := by
  -- the cases are those of the machine: one character is read in each, or reading ends
  fun_induction readText kind opened limit st cs with
  | case1 | case3 | case5 | case6 | case8 | case10 => cases h
  | case2 | case4 =>
    cases h
    exact absurd rfl hend
  | case7 st c rest st₁ left value written hescape d hd value₁ hleft hvalid ih =>
    rw [show st.escape = .hex left value written from hescape]
    exact .hex hhex hd (ih h)
  | case9 st c rest st₁ left value written hescape written₁ d hd value₁ hleft ih =>
    rw [show st.escape = .hex left value written from hescape]
    exact .hex hhex hd (ih h)
  | case11 st c rest st₁ hescape hlimit st₂ hreturn ih =>
    have hmarked := (TextState.escape_marked st₁).trans hescape
    rw [show st.escape = .escape from hescape]
    have hread := ih h
    rw [hmarked] at hread
    exact .returned hreturn hread
  | case12 st c rest st₁ hescape hlimit st₂ hreturn hc ih =>
    rw [show st.escape = .escape from hescape]
    exact .escaped (by rintro rfl; cases hc) (ih h)
  | case13 st c rest st₁ hescape _ _ _ _ hc ih
  | case14 st c rest st₁ hescape _ _ _ _ _ hc ih
  | case15 st c rest st₁ hescape _ _ _ _ _ _ hc ih
  | case16 st c rest st₁ hescape _ _ _ _ _ _ _ hc ih
  | case17 st c rest st₁ hescape _ _ _ _ _ _ _ _ hc ih
  | case18 st c rest st₁ hescape _ _ _ _ _ _ _ _ _ hc ih =>
    rw [show st.escape = .escape from hescape]
    exact .escaped (by rintro rfl; cases hc) (ih h)
  | case19 st c rest st₁ hescape hlimit st₂ hreturn _ _ _ _ _ _ _ hc hcontinues ih =>
    rw [show st.escape = .escape from hescape, beq_iff_eq.mp hc]
    exact .continued hcontinues (ih h)
  | case20 => cases h
  | case21 st c rest st₁ hescape hlimit st₂ hreturn _ _ _ _ _ _ _ hline hc ih =>
    rw [show st.escape = .escape from hescape]
    exact .escaped (by simpa using hline) (ih h)
  | case22 => cases h
  | case23 st c rest st₁ hescape hdollar =>
    cases h
    rw [show st.escape = .plain from hescape]
    simp only [Bool.and_eq_true, beq_iff_eq] at hdollar
    rw [hdollar.1.2]
    exact .interpolation hdollar.1.1 hdollar.2
  | case24 => cases h
  | case25 st c st₁ hescape hlimit hclose =>
    rw [show st.escape = .plain from hescape, beq_iff_eq.mp hclose]
    unfold readText.close at h
    rw [if_neg hlimit] at h
    cases h
    exact .closed nofun
  | case26 st c st₁ hescape hlimit marked hclose d rest hdouble _ ih =>
    rw [show st.escape = .plain from hescape, beq_iff_eq.mp hclose, beq_iff_eq.mp hdouble]
    exact .doubled (ih h)
  | case27 st c st₁ hescape hlimit hclose d rest hdouble =>
    rw [show st.escape = .plain from hescape, beq_iff_eq.mp hclose]
    unfold readText.close at h
    rw [if_neg hlimit] at h
    cases h
    exact .closed (by simpa using hdouble)
  | case28 st c rest st₁ hescape _ hlimit marked hclose hreturn ih =>
    have hmarked := (TextState.escape_marked st₁).trans hescape
    have hread := ih h
    rw [hmarked] at hread
    rw [show st.escape = .plain from hescape]
    exact .returned hreturn hread
  | case29 st c rest st₁ hescape _ hlimit marked hclose hreturn hback ih =>
    rw [show st.escape = .plain from hescape]
    simp only [Bool.and_eq_true, beq_iff_eq, Bool.not_eq_true'] at hback
    rw [hback.1]
    exact .escape hback.2 (ih h)
  | case30 st c rest st₁ hescape _ hlimit marked hclose hreturn hback hline hverbatim ih =>
    rw [show st.escape = .plain from hescape, beq_iff_eq.mp hline]
    exact .lineFeed hverbatim (ih h)
  | case31 => cases h
  | case32 st c rest st₁ hescape _ hlimit marked hclose hreturn hback hline hblank ih =>
    have hmarked := (TextState.escape_marked st₁).trans hescape
    have hread := ih h
    rw [hmarked] at hread
    rw [show st.escape = .plain from hescape]
    exact .other (by simpa using hclose) (by simpa using hline)
      (by simpa [-not_and, Classical.not_and_iff_not_or_not] using hback) hread
  | case33 st c rest st₁ hescape _ hlimit marked hclose hreturn hback hline hblank ih =>
    rw [show st.escape = .plain from hescape]
    exact .other (by simpa using hclose) (by simpa using hline)
      (by simpa [-not_and, Classical.not_and_iff_not_or_not] using hback) (ih h)

/-- A raw text ends at a quote with as many number signs as it began with. -/
theorem readRaw_eq {signs : Nat} {opened : Pos} {limit : Option Nat} {st : TextState} {cs : List Char} {t : TextRead}
    (h : readRaw signs opened limit st cs = .ok t) :
    t.ending = .closed ∧ ∃ body, cs = body ++ '"' :: (List.replicate signs '#' ++ t.rest) := by
  have signsAt {n : Nat} {cs rest : List Char} (h : afterSigns n cs = some rest) :
      cs = List.replicate n '#' ++ rest := by
    fun_induction afterSigns n cs with
    | case1 => exact Option.some.inj h
    | case2 n rest ih => rw [ih h, List.replicate_succ, List.cons_append]
    | case3 => cases h
  fun_induction readRaw signs opened limit st cs with
  | case1 => cases h
  | case2 => cases h
  | case3 st c rest st₁ hlimit ended after hended =>
    cases h
    refine ⟨rfl, [], ?_⟩
    simp only [ended] at hended
    split at hended
    · next hquote => rw [beq_iff_eq.mp hquote, signsAt hended]; rfl
    · cases hended
  | case4 st c rest st₁ hlimit ended hended st₂ ih =>
    obtain ⟨hclosed, body, hbody⟩ := ih h
    exact ⟨hclosed, c :: body, by rw [hbody]; rfl⟩

/-! ### One token -/

/-- Whether characters are no token. -/
def Token.isBad : Token → Bool
  | .bad _ => true
  | _ => false

/-- All characters of a script are tokens, blanks or comments. -/
def Lexes (source : String) : Prop :=
  ∀ t ∈ tokens source none, t.token.isBad = false

instance (source : String) : Decidable (Lexes source) :=
  inferInstanceAs (Decidable (∀ t ∈ tokens source none, t.token.isBad = false))

/-- What becomes of the braces and the text around them where no interpolation begins. -/
structure Cursor.Follows (cur cur' : Cursor) : Prop where
  outside : cur.braces = [] → cur'.braces = [] ∧ cur'.inText = false
  inside : ∀ n, cur.braces = [n] →
    cur'.inText = true ∧ cur'.braces = [] ∨ cur'.inText = false ∧ ∃ m, cur'.braces = [m]

theorem Cursor.follows_after (cur : Cursor) (token : Token) (pos : Pos) (rest : List Char) :
    cur.Follows (cur.after token pos rest) := by
  constructor
  · intro hbraces
    unfold after
    dsimp only
    constructor <;> split <;> simp [hbraces]
  · intro n hbraces
    by_cases hclose : token = .mark "\x7d"
    · subst hclose
      unfold after
      dsimp only
      rw [hbraces]
      by_cases hn : n ≤ 1
      · exact .inl ⟨by simp [hn], by simp [hn]⟩
      · exact .inr ⟨by simp [hn], n - 1, by simp [hn]⟩
    · refine .inr ⟨?_, ?_⟩
      · unfold after
        dsimp only
        split
        · exact absurd rfl hclose
        · rfl
      · unfold after
        dsimp only
        rw [hbraces]
        split
        · exact ⟨n + 1, rfl⟩
        · exact ⟨n + 1, rfl⟩
        · exact absurd rfl hclose
        · exact ⟨n, rfl⟩

theorem Cursor.follows_of_eq {cur cur' : Cursor} (hbraces : cur'.braces = cur.braces) (htext : cur'.inText = false) :
    cur.Follows cur' :=
  ⟨fun h => ⟨hbraces.trans h, htext⟩, fun n h => .inr ⟨htext, n, hbraces.trans h⟩⟩

/-- How a token takes characters, outside of texts: the token's characters stand at the start of `cs`. -/
inductive Lexeme (cur cur' : Cursor) (cs : List Char) : Prop where
  | plain {c : Char} {inner : List Char} (hc : isPlain c = true) (hinner : ∀ d ∈ inner, isQuiet d = true)
      (hcs : cs = c :: inner ++ cur'.rest) (hfollows : cur.Follows cur')
  | quoted {kind : TextKind} {rest : List Char} (hkind : kind = .quoted ∨ kind = .char) (hcs : cs = kind.close :: rest)
      (h : Reads kind false rest .closed cur'.rest) (hfollows : cur.Follows cur')
  /-- A line end right behind the back-tick is passed over. -/
  | backtick {lead rest : List Char} (hlead : lead ∈ [[], ['\n'], ['\r', '\n'], ['\r']])
      (hcs : cs = Char.ofNat 96 :: lead ++ rest) (h : Reads .backtick false rest .closed cur'.rest)
      (hfollows : cur.Follows cur')
  | interpolation {lead rest : List Char} (hlead : lead ∈ [[], ['\n'], ['\r', '\n'], ['\r']])
      (hcs : cs = Char.ofNat 96 :: lead ++ rest) (h : Reads .backtick false rest .interpolation cur'.rest)
      (hbraces : cur'.braces = 0 :: cur.braces) (htext : cur'.inText = false)
  | raw {signs : Nat} {body : List Char} (hsigns : 1 ≤ signs)
      (hcs : cs = List.replicate signs '#' ++ '"' :: body ++ '"' :: (List.replicate signs '#' ++ cur'.rest))
      (hfollows : cur.Follows cur')

/-- A text literal that is no bad token was read. -/
theorem Cursor.text_cases {cur : Cursor} {place : Option Pos} {read : Except (LexError × Pos) TextRead}
    (hbad : (cur.text place read).1.token.isBad = false) :
    ∃ t, read = .ok t ∧ t.ending ≠ .missing ∧ (cur.text place read).2.rest = t.rest ∧
      (t.ending = .closed → cur.Follows (cur.text place read).2) ∧
      (t.ending = .interpolation → (cur.text place read).2.braces = 0 :: cur.braces ∧
        (cur.text place read).2.inText = false) ∧ (cur.text place read).1.token ≠ .eof := by
  cases read with
  | error e => cases hbad
  | ok t =>
    obtain ⟨text, ending, first, pos, rest⟩ := t
    cases ending with
    | closed => exact ⟨_, rfl, nofun, rfl, fun _ => follows_of_eq rfl rfl, nofun, nofun⟩
    | missing => cases hbad
    | interpolation => exact ⟨_, rfl, nofun, rfl, nofun, fun _ => ⟨rfl, rfl⟩, nofun⟩

theorem isPlain_of_isQuiet {c : Char} (h : isQuiet c = true) : isPlain c = true := by
  simp only [isQuiet, Bool.and_eq_true, bne_iff_ne] at h
  simp only [isPlain, Bool.and_eq_true, bne_iff_ne]
  exact ⟨⟨⟨h.1.1.1.1.1, h.1.1.2⟩, h.1.2⟩, h.2⟩

/-- A quiet character and quiet ones behind it are a token. -/
theorem Lexeme.of_takes {cur cur' : Cursor} {c : Char} {cs : List Char} (hc : isQuiet c = true)
    (h : TakesQuiet cs cur'.rest) (hfollows : cur.Follows cur') : Lexeme cur cur' (c :: cs) := by
  obtain ⟨inner, rfl, hinner⟩ := h
  exact .plain (isPlain_of_isQuiet hc) hinner rfl hfollows

theorem reservedSymbol_ne_eof (text : String) : reservedSymbol text ≠ .eof := by
  unfold reservedSymbol
  split <;> nofun

theorem wordToken_ne_eof (word : String) : wordToken word ≠ .eof := by
  unfold wordToken
  split
  · nofun
  · split
    · nofun
    · split <;> nofun

theorem decimalToken_ne_eof (negative : Bool) (written : List Char) : decimalToken negative written ≠ .eof := by
  unfold decimalToken
  dsimp only
  repeat' split
  all_goals nofun

theorem readNumberLiteral_ne_eof (negative : Bool) (first : Char) (cs : List Char) :
    (readNumberLiteral negative first cs).1 ≠ .eof := by
  unfold readNumberLiteral
  dsimp only
  split
  · dsimp only
    generalize readBaseLiteral _ [] 2 _ = read
    split
    · nofun
    · split
      · split <;> nofun
      · nofun
  · exact decimalToken_ne_eof negative _

theorem Reads.interpolates {kind : TextKind} {escaped : Bool} {cs rest : List Char}
    (h : Reads kind escaped cs .interpolation rest) : kind.interpolates = true := by
  generalize hending : TextEnd.interpolation = ending at h
  induction h with
  | closed => cases hending
  | interpolation hkind => exact hkind
  | doubled _ ih | escape _ _ ih | escaped _ _ ih | lineEnd _ ih | continued _ _ ih | lineFeed _ _ ih
  | other _ _ _ _ ih => exact ih hending

/-- A character literal ends with its quote. -/
theorem readText_char_ending {opened : Pos} {limit : Option Nat} {st : TextState} {cs : List Char} {t : TextRead}
    (h : readText .char opened limit st cs = .ok t) : t.ending ≠ .missing := by
  generalize hkind : TextKind.char = kind at h
  fun_induction readText kind opened limit st cs with
  | case2 _ _ _ hcontinues => 
    subst hkind
    cases hcontinues
  | case4 _ _ _ hverbatim =>
    subst hkind
    cases hverbatim
  | case23 =>
    cases h
    nofun
  | case25 | case27 =>
    unfold readText.close at h
    split at h
    · cases h
    · cases h
      nofun
  | _ => first | cases h | (rename_i ih; exact ih h)

theorem Cursor.symbol_cases {cur : Cursor} {pos before : Pos} {cs : List Char}
    (hbad : (next.symbol pos before cs cur).1.token.isBad = false) :
    (next.symbol pos before cs cur).1.token ≠ .eof ∧ Lexeme cur (next.symbol pos before cs cur).2 cs := by
  unfold next.symbol at hbad ⊢
  split at hbad
  · next text known rest hread =>
    obtain ⟨hcs, hmem⟩ := readSymbol_eq hread
    have hmeant : known = true ∨ symbolHint text = none := by
      cases known with
      | true => exact .inl rfl
      | false =>
        refine .inr ?_
        simp only [Bool.false_eq_true, if_false, reservedSymbol] at hbad
        split at hbad
        · cases hbad
        · assumption
    obtain ⟨c, inner, htext, hc, hinner⟩ := symbols_plain _ hmem hmeant
    refine ⟨?_, .plain hc hinner ?_ (follows_after _ _ _ _)⟩
    · dsimp only
      split
      · nofun
      · exact reservedSymbol_ne_eof text
    · have hrest : (cur.after (if known then .mark text else reservedSymbol text)
          ⟨pos.line, before.column + text.length⟩ rest).rest = rest := rfl
      rw [hcs, htext, hrest]
  · cases hbad

section Kinds

variable {limit : Option Nat} {cur : Cursor} {pos before : Pos} {st : TextState} {rest : List Char} {lexed : Lexed}

/-- A back-tick text, with what stands between the back-tick and the text. -/
theorem Cursor.backtick_cases {place : Option Pos} {lead : List Char} (hlead : lead ∈ [[], ['\n'], ['\r', '\n'], ['\r']])
    (hbad : (cur.text place (readText .backtick pos limit st rest)).1.token.isBad = false)
    (hst : st.escape = .plain) :
    (cur.text place (readText .backtick pos limit st rest)).1.token ≠ .eof ∧
      Lexeme cur (cur.text place (readText .backtick pos limit st rest)).2 (Char.ofNat 96 :: lead ++ rest) := by
  obtain ⟨t, hread, hmissing, hrest, hclosed, hopened, heof⟩ := text_cases hbad
  have hreads := reads_of_readText (by decide) hread hmissing
  rw [hst] at hreads
  refine ⟨heof, ?_⟩
  cases hend : t.ending with
  | closed => exact .backtick hlead rfl (hrest ▸ hend ▸ hreads) (hclosed hend)
  | missing => exact absurd hend hmissing
  | interpolation => exact .interpolation hlead rfl (hrest ▸ hend ▸ hreads) (hopened hend).1 (hopened hend).2

theorem Cursor.quoted_cases {place : Option Pos} (hst : st.escape = .plain)
    (hbad : (cur.text place (readText .quoted pos limit st rest)).1.token.isBad = false) :
    (cur.text place (readText .quoted pos limit st rest)).1.token ≠ .eof ∧
      Lexeme cur (cur.text place (readText .quoted pos limit st rest)).2 ('"' :: rest) := by
  obtain ⟨t, hread, hmissing, hrest, hclosed, -, heof⟩ := text_cases hbad
  have hreads := reads_of_readText (by decide) hread hmissing
  rw [hst] at hreads
  refine ⟨heof, ?_⟩
  cases hend : t.ending with
  | closed => exact .quoted (.inl rfl) rfl (hrest ▸ hend ▸ hreads) (hclosed hend)
  | missing => exact absurd hend hmissing
  | interpolation => cases (hend ▸ hreads).interpolates

theorem Cursor.raw_cases {place : Option Pos} {signs : Nat} (hsigns : 1 ≤ signs)
    (hbad : (cur.text place (readRaw signs pos limit st rest)).1.token.isBad = false) :
    (cur.text place (readRaw signs pos limit st rest)).1.token ≠ .eof ∧
      Lexeme cur (cur.text place (readRaw signs pos limit st rest)).2 (List.replicate signs '#' ++ '"' :: rest) := by
  obtain ⟨t, hread, -, hrest, hclosed, -, heof⟩ := text_cases hbad
  obtain ⟨hend, body, hbody⟩ := readRaw_eq hread
  exact ⟨heof, @Lexeme.raw _ _ _ signs body hsigns (by rw [hrest, hbody]; simp) (hclosed hend)⟩

theorem takeWhile_signs (cs : List Char) :
    cs.takeWhile (· == '#') = List.replicate (cs.takeWhile (· == '#')).length '#' :=
  List.eq_replicate_of_mem fun c hc => by simpa using List.all_eq_true.mp List.all_takeWhile c hc

theorem Cursor.char_cases (hst : st.escape = .plain) (hbad : lexed.1.token.isBad = false)
    (h : (match readText .char pos none st rest with
      | .error (e, place) => (⟨.bad e, place⟩, { cur with rest := [] })
      | .ok t =>
        match t.text.toList with
        | [only] => (⟨.char only, pos⟩, cur.after (.char only) t.pos t.rest)
        | _ => (⟨.bad (.badChar t.text), pos⟩, { cur with rest := [] })) = lexed) :
    lexed.1.token ≠ .eof ∧ Lexeme cur lexed.2 ('\'' :: rest) := by
  split at h
  · subst h
    cases hbad
  · next t hread =>
    split at h
    · next only _ =>
      subst h
      have hmissing := readText_char_ending hread
      have hreads := reads_of_readText (by decide) hread hmissing
      rw [hst] at hreads
      refine ⟨nofun, ?_⟩
      cases hend : t.ending with
      | closed => exact .quoted (.inr rfl) rfl (hend ▸ hreads) (follows_after _ _ _ _)
      | missing => exact absurd hend hmissing
      | interpolation => cases (hend ▸ hreads).interpolates
    · subst h
      cases hbad

/-- A number takes its first digit and quiet characters behind it. -/
theorem Cursor.number_cases {c : Char} (hdigit : c.isDigit = true) {place : Pos} :
    (readNumberLiteral false c rest).1 ≠ .eof ∧
      Lexeme cur (cur.after (readNumberLiteral false c rest).1 place (readNumberLiteral false c rest).2.2) (c :: rest) :=
  ⟨readNumberLiteral_ne_eof false c rest,
    .of_takes (isQuiet_of_isDigit hdigit) (readNumberLiteral_takes false c rest) (follows_after _ _ _ _)⟩

/-- A minus sign that belongs to a number. -/
theorem Cursor.negative_cases {d : Char} (hdigit : d.isDigit = true) {place : Pos} :
    (readNumberLiteral true d rest).1 ≠ .eof ∧
      Lexeme cur (cur.after (readNumberLiteral true d rest).1 place (readNumberLiteral true d rest).2.2)
        ('-' :: d :: rest) :=
  ⟨readNumberLiteral_ne_eof true d rest,
    .of_takes (by decide) (.cons (isQuiet_of_isDigit hdigit) (readNumberLiteral_takes true d rest))
      (follows_after _ _ _ _)⟩

/-- A word takes all characters of names. -/
theorem Cursor.word_cases {c : Char} (hname : isNameStart c = true) {word : String} {place : Pos} :
    wordToken word ≠ .eof ∧
      Lexeme cur (cur.after (wordToken word) place ((c :: rest).dropWhile isNameChar)) (c :: rest) := by
  have hc : isNameChar c = true := by
    simp only [isNameStart, Bool.or_eq_true] at hname
    simp only [isNameChar, Char.isAlphanum, Bool.or_eq_true]
    rcases hname with halpha | hunder
    · exact .inl (.inl halpha)
    · exact .inr hunder
  refine ⟨wordToken_ne_eof _, .of_takes (isQuiet_of_isNameChar hc) ?_ (follows_after _ _ _ _)⟩
  show TakesQuiet rest ((c :: rest).dropWhile isNameChar)
  rw [List.dropWhile_cons_of_pos hc]
  exact takeWhile_takes rest

end Kinds

/-- Inside a back-tick text, its rest is the next token. -/
theorem Cursor.next_cases_inText {limit : Option Nat} {cur : Cursor} (htext : cur.inText = true)
    (hbad : (cur.next limit).1.token.isBad = false) : (cur.next limit).1.token ≠ .eof ∧
      (Reads .backtick false cur.rest .closed (cur.next limit).2.rest ∧ cur.Follows (cur.next limit).2 ∨
        Reads .backtick false cur.rest .interpolation (cur.next limit).2.rest ∧
          (cur.next limit).2.braces = 0 :: cur.braces ∧ (cur.next limit).2.inText = false) := by
  unfold next at hbad ⊢
  rw [if_pos htext] at hbad ⊢
  obtain ⟨t, hread, hmissing, hrest, hclosed, hopened, heof⟩ := text_cases hbad
  have hreads := reads_of_readText (by decide) hread hmissing
  refine ⟨heof, ?_⟩
  rw [hrest]
  cases hend : t.ending with
  | closed => exact .inl ⟨hend ▸ hreads, hclosed hend⟩
  | missing => exact absurd hend hmissing
  | interpolation => exact .inr ⟨hend ▸ hreads, hopened hend⟩

/-- Outside of texts, the first character that is not skipped says of which kind the next token is. -/
theorem Cursor.next_cases_outside {limit : Option Nat} {cur : Cursor} (htext : cur.inText = false)
    (hbad : (cur.next limit).1.token.isBad = false) :
    let cs := (skipSpace (cur.rest.length + 1) cur.pos cur.rest).1
    cs = [] ∧ (cur.next limit).1.token = .eof ∧ (cur.next limit).2.rest = [] ∨
      (cur.next limit).1.token ≠ .eof ∧ Lexeme cur (cur.next limit).2 cs := by
  generalize hnext : cur.next limit = lexed at hbad ⊢
  unfold next at hnext
  rw [if_neg (by simp [htext])] at hnext
  generalize skipSpace (cur.rest.length + 1) cur.pos cur.rest = skipped at hnext ⊢
  obtain ⟨cs, before⟩ := skipped
  dsimp only at hnext ⊢
  rcases cs with _ | ⟨c, rest⟩
  · subst hnext
    exact .inl ⟨rfl, rfl, rfl⟩
  refine .inr ?_
  dsimp only at hnext
  split_ifs at hnext with hdigit hname hquote htick hchar hdouble hsigns
  · subst hnext
    exact number_cases hdigit
  · subst hnext
    exact word_cases hname
  · subst hnext
    rw [beq_iff_eq.mp hquote]
    exact quoted_cases rfl hbad
  · rw [beq_iff_eq.mp htick]
    subst hnext
    split at hbad
    · exact @backtick_cases _ _ _ _ _ _ ['\n'] (by decide) hbad rfl
    · exact @backtick_cases _ _ _ _ _ _ ['\r', '\n'] (by decide) hbad rfl
    · exact @backtick_cases _ _ _ _ _ _ ['\r'] (by decide) hbad rfl
    · exact @backtick_cases _ _ _ _ _ _ [] (by decide) hbad rfl
  · subst hnext
    cases hbad
  · rw [beq_iff_eq.mp hchar]
    exact char_cases rfl hbad hnext
  · have hone := ((Bool.and_eq_true _ _).mp hsigns).1
    split at hnext
    · next after hafter =>
      subst hnext
      have hsplit := (List.takeWhile_append_dropWhile (p := (· == '#')) (l := c :: rest)).symm
      rw [hafter, takeWhile_signs] at hsplit
      have hlexeme := raw_cases (of_decide_eq_true hone) hbad
      rw [← hsplit] at hlexeme
      exact hlexeme
    · subst hnext
      cases hbad
    · subst hnext
      cases hbad
  · -- marks; the longest spelling wins, but for these, which depend on what is around them
    split at hnext
    · next after heq =>
      obtain ⟨rfl, rfl⟩ := List.cons.inj heq
      subst hnext
      refine ⟨reservedSymbol_ne_eof _, @Lexeme.plain _ _ _ '#' [' '] (by decide) (by simp [isQuiet]) rfl ?_⟩
      exact follows_of_eq rfl htext
    · next after heq =>
      obtain ⟨rfl, rfl⟩ := List.cons.inj heq
      split at hnext
      · subst hnext
        exact ⟨nofun, @Lexeme.plain _ _ _ '!' [] (by decide) nofun rfl (follows_after _ _ _ _)⟩
      · subst hnext
        have hinner : ∀ d ∈ ['i', 'n'], isQuiet d = true := by simp [isQuiet]
        exact ⟨nofun, @Lexeme.plain _ _ _ '!' ['i', 'n'] (by decide) hinner rfl (follows_after _ _ _ _)⟩
    · next d after heq =>
      obtain ⟨rfl, rfl⟩ := List.cons.inj heq
      split at hnext
      · next hd =>
        subst hnext
        exact negative_cases ((Bool.and_eq_true _ _).mp hd).1
      · subst hnext
        exact symbol_cases hbad
    · subst hnext
      exact symbol_cases hbad

/-- What the next token takes. -/
theorem Cursor.next_cases (limit : Option Nat) (cur : Cursor) (hbad : (cur.next limit).1.token.isBad = false) :
    (cur.inText = true ∧ (cur.next limit).1.token ≠ .eof ∧
      (Reads .backtick false cur.rest .closed (cur.next limit).2.rest ∧ cur.Follows (cur.next limit).2 ∨
        Reads .backtick false cur.rest .interpolation (cur.next limit).2.rest ∧
          (cur.next limit).2.braces = 0 :: cur.braces ∧ (cur.next limit).2.inText = false)) ∨
    (cur.inText = false ∧
      let cs := (skipSpace (cur.rest.length + 1) cur.pos cur.rest).1
      cs = [] ∧ (cur.next limit).1.token = .eof ∧ (cur.next limit).2.rest = [] ∨
        (cur.next limit).1.token ≠ .eof ∧ Lexeme cur (cur.next limit).2 cs) := by
  cases htext : cur.inText with
  | true => exact .inl ⟨rfl, next_cases_inText htext hbad⟩
  | false => exact .inr ⟨rfl, next_cases_outside htext hbad⟩

end ScriptAgent.Script

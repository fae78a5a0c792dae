import ScriptAgent.Proofs.Instrument.Outside
import ScriptAgent.Proofs.Script.Endings

/-!
# Where lines are changed

A line is changed where its indentation ends, if a statement can begin there, and a `yield` also where its semicolon
stands.  The scanner reads code at the first of these places, which is `OutsideTexts` then.  At the semicolon it reads code
too, unless the line has a comment before it or leaves a comment or a back-tick text open: quotes are closed by the
end of the line, and between the semicolon and the end of the line nothing can close them.
-/

namespace ScriptAgent

open Script

/-! ### Open texts and comments -/

/-- Whether a text or a block comment is open. -/
def Mode.isOpen (m : Mode) : Bool :=
  m.quote.isSome || m.inComment || m.inBacktick

/-- Neither a quote, nor a star, nor a backslash. -/
def isInert (c : Char) : Bool :=
  c != '"' && c != '\'' && c != Char.ofNat 96 && c != '*' && c != '\\'

theorem isInert_of_isBlank {c : Char} (h : Text.isBlank c = true) : isInert c = true := by
  simp only [isInert, Bool.and_eq_true, bne_iff_ne]
  refine ⟨⟨⟨⟨?_, ?_⟩, ?_⟩, ?_⟩, ?_⟩ <;> rintro rfl <;> exact absurd h (by decide)

namespace Mode

/-- Only quotes open quoted texts. -/
theorem quote_read {m : Mode} {c q : Char} {next : Option Char} (h : (m.read c next).quote = some q) :
    m.quote = some q ∨ q = '"' ∨ q = '\'' := by
  unfold read at h
  grind

/-- Outside of texts and comments only the slash that ends a comment is passed over. -/
theorem skip_read {m : Mode} {c : Char} {next : Option Char} (hhidden : m.hidden = true → m.skip = false)
    (h : (m.read c next).skip = true) : (m.read c next).isOpen = true ∨ next = some '/' := by
  unfold read isOpen at *
  grind

theorem skip_read_of_hidden {m : Mode} {c : Char} {next : Option Char} (hhidden : m.hidden = true → m.skip = false)
    (h : (m.read c next).hidden = true) : (m.read c next).skip = false := by
  unfold read at *
  grind

/-- Only two slashes in code hide the rest of a line. -/
theorem eq_code_of_hidden_read {m : Mode} {c : Char} {next : Option Char} (hhidden : m.hidden = false)
    (h : (m.read c next).hidden = true) : m = code ∧ c = '/' ∧ next = some '/' := by
  obtain ⟨hidden, quote, skip, inComment, inBacktick⟩ := m
  unfold read at h
  unfold code
  grind

/-- What is open stays open while inert characters are read. -/
theorem run_inert {m : Mode} {row : List Char} (hinert : ∀ c ∈ row, isInert c = true) (hopen : m.isOpen = true)
    (hquote : ∀ q, m.quote = some q → q = '"' ∨ q = '\'') (hhidden : m.hidden = false) :
    (m.run row).quote = m.quote ∧ (m.run row).inComment = m.inComment ∧ (m.run row).inBacktick = m.inBacktick := by
  induction row generalizing m with
  | nil => exact ⟨rfl, rfl, rfl⟩
  | cons c row ih =>
    obtain ⟨hc, hrow⟩ := List.forall_mem_cons.mp hinert
    have hread : m.read c row.head? = { m with skip := false } := by
      obtain ⟨hidden, quote, skip, inComment, inBacktick⟩ := m
      obtain rfl : hidden = false := hhidden
      simp only [isInert, Bool.and_eq_true, bne_iff_ne] at hc
      obtain ⟨⟨⟨⟨hdouble, hsingle⟩, htick⟩, hstar⟩, hback⟩ := hc
      cases skip with
      | true => rfl
      | false =>
        cases quote with
        | some q =>
          have hne : c ≠ q := by
            rcases hquote q rfl with rfl | rfl
            · exact hdouble
            · exact hsingle
          simp [read, hback, hne]
        | none =>
          cases inComment with
          | true => simp [read, hstar]
          | false =>
            obtain rfl : inBacktick = true := hopen
            simp [read, hback, htick]
    rw [run, hread]
    exact ih hrow hopen hquote hhidden

end Mode

/-- What is known of the mode at every place. -/
structure Spot.Proper (a : Spot) : Prop where
  quote : ∀ q, a.mode.quote = some q → q = '"' ∨ q = '\''
  hidden : a.mode.hidden = true → a.mode.skip = false
  skip : a.mode.skip = true → a.mode.isOpen = true ∨ a.rest.head? = some '/'

namespace Spot

theorem Proper.next {a : Spot} (h : a.Proper) : a.next.Proper := by
  obtain ⟨m, fresh, rest⟩ := a
  obtain ⟨hquote, hhidden, hskip⟩ := h
  cases rest with
  | nil => exact ⟨hquote, hhidden, hskip⟩
  | cons c rest =>
    by_cases hc : c = '\n'
    · subst hc
      exact ⟨nofun, nofun, nofun⟩
    · rw [next_of_ne hc]
      refine ⟨fun q hq => ?_, Mode.skip_read_of_hidden hhidden, Mode.skip_read hhidden⟩
      rcases Mode.quote_read hq with hold | hnew
      · exact hquote q hold
      · exact hnew

theorem proper_iterate (k : LineScanner) (cs : List Char) (j : Nat) : (next^[j] (atLine k cs)).Proper := by
  induction j with
  | zero => exact ⟨nofun, nofun, nofun⟩
  | succ j ih =>
    rw [Function.iterate_succ_apply']
    exact ih.next

/-- A hidden character stands behind two slashes in code. -/
theorem hidden_since {a : Spot} (ha : a.mode.hidden = false) {j : Nat} (h : (next^[j] a).mode.hidden = true) :
    ∃ i < j, (next^[i] a).mode = .code ∧ ['/', '/'] <+: (next^[i] a).rest := by
  induction j with
  | zero =>
    rw [show (next^[0] a).mode.hidden = false from ha] at h
    cases h
  | succ j ih =>
    rcases Bool.eq_false_or_eq_true (next^[j] a).mode.hidden with hold | hnew
    · obtain ⟨i, hi, hslashes⟩ := ih hold
      exact ⟨i, by omega, hslashes⟩
    · refine ⟨j, by omega, ?_⟩
      rw [Function.iterate_succ_apply'] at h
      generalize next^[j] a = b at h hnew
      obtain ⟨m, fresh, rest⟩ := b
      cases rest with
      | nil =>
        rw [show (Spot.next ⟨m, fresh, []⟩).mode.hidden = false from hnew] at h
        cases h
      | cons c rest =>
        by_cases hc : c = '\n'
        · subst hc
          cases h
        · rw [next_of_ne hc] at h
          obtain ⟨hcode, rfl, hslash⟩ := Mode.eq_code_of_hidden_read hnew h
          obtain ⟨rest, rfl⟩ := List.head?_eq_some_iff.mp hslash
          exact ⟨hcode, rest, rfl⟩

/-- Reading stops at the end of the script. -/
theorem iterate_of_rest_eq_nil {a : Spot} (h : a.rest = []) (j : Nat) : next^[j] a = a := by
  have hnext : a.next = a := by
    unfold next
    rw [h]
  exact Function.iterate_fixed hnext j

theorem eq_of_rest_eq_nil {a : Spot} {i j : Nat} (hi : (next^[i] a).rest = []) (hj : (next^[j] a).rest = []) :
    next^[i] a = next^[j] a := by
  rcases Nat.le_total i j with hle | hle
  · obtain ⟨d, rfl⟩ := Nat.exists_eq_add_of_le' hle
    rw [Function.iterate_add_apply, iterate_of_rest_eq_nil hi]
  · obtain ⟨d, rfl⟩ := Nat.exists_eq_add_of_le' hle
    rw [Function.iterate_add_apply, iterate_of_rest_eq_nil hj]

end Spot

/-- The scanner at a semicolon with nothing but inert characters behind it in its row: it reads code, or the semicolon
is hidden, or what is open there is still open where the row ends. -/
theorem Spot.Proper.semicolon {m : Mode} {fresh : Bool} {after tail : List Char}
    (h : Spot.Proper ⟨m, fresh, ';' :: after ++ tail⟩) (hinert : ∀ c ∈ after, isInert c = true) (hline : '\n' ∉ after)
    (htail : tail = [] ∨ tail.head? = some '\n') :
    m = .code ∨ m.hidden = true ∨ m.isOpen = true ∧
      ∃ m' fresh', Spot.next^[(';' :: after).length] ⟨m, fresh, ';' :: after ++ tail⟩ = ⟨m', fresh', tail⟩ ∧
        m'.quote = m.quote ∧ m'.inComment = m.inComment ∧ m'.inBacktick = m.inBacktick := by
  obtain ⟨hquote, -, hskip⟩ := h
  cases hhidden : m.hidden with
  | true => exact .inr (.inl rfl)
  | false =>
    cases hopen : m.isOpen with
    | true =>
      have hrow : '\n' ∉ ';' :: after := by simpa using hline
      obtain ⟨fresh', hrun⟩ := Spot.iterate_row hrow m fresh tail htail
      have hsemicolon : ∀ c ∈ ';' :: after, isInert c = true := List.forall_mem_cons.mpr ⟨rfl, hinert⟩
      exact .inr (.inr ⟨rfl, _, fresh', hrun, Mode.run_inert hsemicolon hopen hquote hhidden⟩)
    | false =>
      refine .inl ?_
      obtain ⟨hidden, quote, skip, inComment, inBacktick⟩ := m
      simp only [Mode.isOpen, Bool.or_eq_false_iff, Option.isSome_eq_false_iff, Option.isNone_iff_eq_none] at hopen
      obtain ⟨⟨rfl, rfl⟩, rfl⟩ := hopen
      obtain rfl : hidden = false := hhidden
      cases skip with
      | false => rfl
      | true => exact absurd (hskip rfl) (by simp [Mode.isOpen])

/-- A whole row tells what the scanner keeps of its line. -/
theorem LineScanner.run_row (k : LineScanner) {line cr : List Char} (hcr : cr = [] ∨ cr = ['\r']) {m : Mode}
    (h : Mode.run { inComment := k.inComment, inBacktick := k.inBacktick } (line ++ cr) = m) :
    (k.scan line).inComment = m.inComment ∧ (k.scan line).inBacktick = m.inBacktick := by
  have hnewLine := k.newLine_run line
  have hrow : m.newLine = (Mode.run { inComment := k.inComment, inBacktick := k.inBacktick } line).newLine := by
    rw [← h]
    rcases hcr with rfl | rfl
    · rw [List.append_nil]
    · exact Spot.newLine_run_concat _ line
  rw [hnewLine] at hrow
  exact ⟨(congrArg Mode.inComment hrow).symm, (congrArg Mode.inBacktick hrow).symm⟩

/-! ### Blanks -/

/-- Blanks lie between two tokens. -/
theorem Script.OutsideTexts.blanks {source : String} {blanks rest : List Char} (h : OutsideTexts source (blanks ++ rest))
    (hblanks : ∀ c ∈ blanks, Text.isBlank c = true) : OutsideTexts source rest := by
  obtain ⟨cur, hcur, htext, hbraces, k, hk⟩ := h
  refine ⟨cur, hcur, htext, hbraces, k + blanks.length, ?_⟩
  obtain ⟨pos, hskip⟩ := skipSpace_blanks hblanks 0 (skipSpace k cur.pos cur.rest).2 rest
  rw [skipSpace_add, hk]
  exact congrArg Prod.fst hskip

/-! ### Places of a line -/

section Places

variable {source : String} (hlexes : Lexes source) (hunderstood : understood source = true)
include hlexes hunderstood

theorem sound_iterate {j : Nat} (h : (Spot.next^[j] (Spot.atLine {} source.toList)).rest ≠ []) :
    Sound source (Spot.next^[j] (Spot.atLine {} source.toList)) := by
  obtain ⟨m, fresh, hpasses, -⟩ := passes_script hlexes hunderstood
  exact hpasses.at_iterate (List.length_pos_of_ne_nil h)

theorem quote_eq_none_of_end {j : Nat} (h : (Spot.next^[j] (Spot.atLine {} source.toList)).rest = []) :
    (Spot.next^[j] (Spot.atLine {} source.toList)).mode.quote = none := by
  obtain ⟨m, fresh, ⟨i, hi, -⟩, hquote⟩ := passes_script hlexes hunderstood
  rw [Spot.eq_of_rest_eq_nil h (show (Spot.next^[i] (Spot.atLine {} source.toList)).rest = [] from congrArg Spot.rest hi)]
  exact (congrArg (fun a : Spot => a.mode.quote) hi).trans hquote

variable {n : Nat} {line : List Char} (hline : (Text.lineChars source.toList)[n]? = some line)
include hline

/-- Where a statement can begin, the line's indentation ends outside of texts and comments. -/
theorem outside_of_starting (h : (Hooking.before (Text.lineChars source.toList) n).starting line = true) :
    OutsideTexts source ((Text.fromLine n source.toList).drop (Line.indent line).length) := by
  obtain ⟨tail, htext, -⟩ := Text.fromLine_eq hline
  obtain ⟨j, hj⟩ := Spot.reaches_line {} hline
  rw [← Hooking.scanner_before] at hj
  generalize Hooking.before (Text.lineChars source.toList) n = r at h hj
  obtain ⟨hstart, hbody⟩ : r.scanner.atStatementStart = true ∧ Text.dropBlank line ≠ [] := by
    simpa [Hooking.starting] using h
  have hsplit : Text.fromLine n source.toList = Line.indent line ++ (Text.dropBlank line ++ tail) := by
    rw [htext, ← List.append_assoc, Line.indent_append_dropBlank]
  rw [hsplit, List.drop_left]
  have hne : (Spot.next^[j] (Spot.atLine {} source.toList)).rest ≠ [] := by
    rw [hj]
    simp [Spot.atLine, hsplit, hbody]
  have hsound := (sound_iterate hlexes hunderstood hne).1
  rw [hj] at hsound
  have hcode : (Spot.atLine r.scanner (Text.fromLine n source.toList)).mode = .code := by
    simp only [LineScanner.atStatementStart, Bool.and_eq_true, Bool.not_eq_true'] at hstart
    obtain ⟨⟨⟨hcomment, htick⟩, -⟩, -⟩ := hstart
    simp only [Spot.atLine, hcomment, htick, Mode.code]
  have hout := hsound hcode (.inl rfl)
  rw [show (Spot.atLine r.scanner (Text.fromLine n source.toList)).rest = _ from hsplit] at hout
  exact hout.blanks fun c hc => List.all_eq_true.mp List.all_takeWhile c hc

/-- Where the row of the line ends, no quoted text is open, and what the scanner keeps of the line is what is open. -/
theorem open_at_row_end {k : LineScanner} {j : Nat} {cr tail : List Char} {m : Mode} {fresh : Bool}
    (hj : Spot.next^[j] (Spot.atLine {} source.toList) = Spot.atLine k (Text.fromLine n source.toList))
    (htext : Text.fromLine n source.toList = line ++ cr ++ tail) (hcr : cr = [] ∨ cr = ['\r'])
    (htail : tail = [] ∨ tail.head? = some '\n')
    (hreached : Spot.next^[(line ++ cr).length] (Spot.atLine k (Text.fromLine n source.toList)) = ⟨m, fresh, tail⟩) :
    m.quote = none ∧ (k.scan line).inComment = m.inComment ∧ (k.scan line).inBacktick = m.inBacktick := by
  have hrow : '\n' ∉ line ++ cr := by
    have hfree := Text.notMem_of_mem_lineChars (List.mem_of_getElem? hline)
    rcases hcr with rfl | rfl <;> simpa using hfree
  constructor
  · rw [← hj, ← Function.iterate_add_apply] at hreached
    rcases htail with rfl | htail
    · have hnone := quote_eq_none_of_end hlexes hunderstood (congrArg Spot.rest hreached)
      rwa [hreached] at hnone
    · have hne : tail ≠ [] := fun hnil => by simp [hnil] at htail
      have hquoted := (sound_iterate hlexes hunderstood (by rw [hreached]; exact hne)).2
      rw [hreached] at hquoted
      exact Option.not_isSome_iff_eq_none.mp fun hsome => hquoted hsome htail
  · -- the scanner reads the row by itself, without what stands before it
    obtain ⟨fresh₁, hwhole⟩ := Spot.iterate_row hrow { inComment := k.inComment, inBacktick := k.inBacktick } true tail htail
    have hstart : Spot.atLine k (Text.fromLine n source.toList) =
        ⟨{ inComment := k.inComment, inBacktick := k.inBacktick }, true, line ++ cr ++ tail⟩ := by
      rw [htext]
      rfl
    rw [hstart] at hreached
    exact k.run_row hcr (congrArg Spot.mode (hwhole.symm.trans hreached))

/-- A semicolon with only blanks behind it in its line stands outside of texts and comments, or behind a line comment
of the line, or the line leaves a comment or a back-tick text open. -/
theorem outside_of_semicolon {head after : List Char} (hsplit : line = head ++ ';' :: after)
    (hafter : ∀ c ∈ after, Text.isBlank c = true) :
    OutsideTexts source ((Text.fromLine n source.toList).drop head.length) ∨
      (∃ k < head.length, ['/', '/'] <+: (Text.fromLine n source.toList).drop k ∧
        OutsideTexts source ((Text.fromLine n source.toList).drop k)) ∨
      ((Hooking.before (Text.lineChars source.toList) n).scanner.scan line).inComment = true ∨
      ((Hooking.before (Text.lineChars source.toList) n).scanner.scan line).inBacktick = true := by
  obtain ⟨cr, tail, htext, hcr, htail⟩ := Text.fromLine_eq_row hline
  obtain ⟨j, hj⟩ := Spot.reaches_line {} hline
  rw [← Hooking.scanner_before] at hj
  generalize (Hooking.before (Text.lineChars source.toList) n).scanner = k at hj ⊢
  have hrest (i : Nat) : (Spot.next^[i] (Spot.atLine k (Text.fromLine n source.toList))).rest =
      (Text.fromLine n source.toList).drop i := Spot.rest_iterate i _
  have hsound (i : Nat) (hi : (Text.fromLine n source.toList).drop i ≠ []) :
      Sound source (Spot.next^[i] (Spot.atLine k (Text.fromLine n source.toList))) := by
    rw [← hrest, ← hj, ← Function.iterate_add_apply] at hi
    rw [← hj, ← Function.iterate_add_apply]
    exact sound_iterate hlexes hunderstood hi
  have hhere : (Text.fromLine n source.toList).drop head.length = ';' :: (after ++ cr) ++ tail := by
    rw [htext, hsplit]
    simp
  have hsemicolon := hsound head.length (by simp [hhere])
  have hproper := Spot.proper_iterate k (Text.fromLine n source.toList) head.length
  have hhidden := @Spot.hidden_since (Spot.atLine k (Text.fromLine n source.toList)) rfl head.length
  have hplace := hrest head.length
  generalize hspot : Spot.next^[head.length] (Spot.atLine k (Text.fromLine n source.toList)) = a
    at hsemicolon hproper hhidden hplace
  obtain ⟨m, fresh, rest⟩ := a
  obtain rfl : rest = ';' :: (after ++ cr) ++ tail := hplace.trans hhere
  have hinert : ∀ c ∈ after ++ cr, isInert c = true := by
    intro c hc
    rcases List.mem_append.mp hc with hc | hc
    · exact isInert_of_isBlank (hafter c hc)
    · rcases hcr with rfl | rfl
      · cases hc
      · obtain rfl := List.mem_singleton.mp hc
        rfl
  have hfeeds : '\n' ∉ after ++ cr := by
    have hfree := Text.notMem_of_mem_lineChars (List.mem_of_getElem? hline)
    rw [hsplit] at hfree
    rcases hcr with rfl | rfl <;> simp_all
  rcases hproper.semicolon hinert hfeeds htail with rfl | hm | ⟨hopen, m', fresh', hend, hquote, hcomment, htick⟩
  · rw [hhere]
    exact .inl (hsemicolon.1 rfl (.inr (.inl rfl)))
  · -- it is hidden since two slashes of its line, and these stood outside
    obtain ⟨i, hi, hcode, hslashes⟩ := hhidden hm
    have hne : (Text.fromLine n source.toList).drop i ≠ [] := by
      rw [← hrest]
      exact fun hnil => by simp [hnil] at hslashes
    refine .inr (.inl ⟨i, hi, hrest i ▸ hslashes, ?_⟩)
    rw [← hrest]
    exact (hsound i hne).1 hcode (.inr (.inr hslashes))
  · -- what is open at it is open where the row ends, and no quoted text is
    have hlength : (line ++ cr).length = (';' :: (after ++ cr)).length + head.length := by
      rw [hsplit]
      simp
      omega
    have hreached : Spot.next^[(line ++ cr).length] (Spot.atLine k (Text.fromLine n source.toList)) = ⟨m', fresh', tail⟩ := by
      rw [hlength, Function.iterate_add_apply, hspot, hend]
    obtain ⟨hclosed, hscanComment, hscanTick⟩ := open_at_row_end hlexes hunderstood hline hj htext hcr htail hreached
    rw [hscanComment, hscanTick, hcomment, htick]
    have hnone : m.quote = none := hquote.symm.trans hclosed
    simp only [Mode.isOpen, hnone, Option.isSome_none, Bool.false_or, Bool.or_eq_true] at hopen
    exact .inr (.inr hopen)

end Places

/-! ### Changed lines -/

/-- What becomes of a line: it is the same, or it is changed where the lexer is outside of texts and comments.
`text` is the script from the line on, and `after` the scanner behind the line. -/
inductive ChangedOutside (source : String) (text line : List Char) (after : LineScanner) : HookedLine → Prop
  | same : ChangedOutside source text line after ⟨line, line, 0, none⟩
  /-- Hooks are put between the indentation and the statement. -/
  | statement (call : Option (String × String)) (n id : Nat)
      (hplace : OutsideTexts source (text.drop (Line.indent line).length)) :
      ChangedOutside source text line after ⟨Line.indent line ++ Line.statementHooks call n id ++ Text.dropBlank line,
        line, (Line.statementHooks call n id).length, call⟩
  /-- A line comment, which ends with the line, becomes a call. -/
  | comment {words : List Char} (n : Nat) (hslashes : ['/', '/'] <+: Text.dropBlank line)
      (hplace : OutsideTexts source (text.drop (Line.indent line).length)) :
      ChangedOutside source text line after ⟨Line.indent line ++ Line.commentHook words n, line, 0, none⟩
  /-- `yield` becomes a call, and its semicolon the end of the call.  The semicolon stands at such a place too, or behind
  a line comment of the line, or the line leaves a comment or a back-tick text open. -/
  | yielded {head gap expr blanks ending : List Char} (n : Nat)
      (hhead : head = Line.indent line ++ "yield".toList ++ gap ++ expr ++ blanks)
      (hline : line = head ++ ';' :: ending) (hgap : ∀ c ∈ gap, Text.isBlank c = true)
      (hblanks : ∀ c ∈ blanks ++ ending, Text.isBlank c = true)
      (hplace : OutsideTexts source (text.drop (Line.indent line).length))
      (hsemicolon : OutsideTexts source (text.drop head.length) ∨
        (∃ k < head.length, ['/', '/'] <+: text.drop k ∧ OutsideTexts source (text.drop k)) ∨
        after.inComment = true ∨ after.inBacktick = true) :
      ChangedOutside source text line after ⟨Line.indent line ++ Line.lineHook n ++ Line.yieldHook expr,
        Line.indent line ++ Line.yieldHook expr, (Line.lineHook n).length, none⟩

/-- **Hooks outside of texts and comments.**  Every line of a script that the scanner understands is the same in the script
that runs, or is changed only where the lexer is between two tokens.  The script parses, or at least all its characters
are tokens: `yield` is one of those without a meaning. -/
theorem hooks_stay_outside {source : String} (hscript : (∃ program, parse source {} = .ok program) ∨ Lexes source)
    (hunderstood : understood source = true) {n : Nat} {line : List Char}
    (hline : (Text.lineChars source.toList)[n]? = some line) :
    let scanner := (Hooking.before (Text.lineChars source.toList) n).scanner
    ∃ hooked, (instrument source).instrumented[n]? = some hooked.instrumented ∧
      (instrument source).plain[n]? = some hooked.plain ∧
      ChangedOutside source (Text.fromLine n source.toList) line (scanner.scan line) hooked := by
  have hlexes : Lexes source := by
    rcases hscript with ⟨program, hparses⟩ | hlexes
    · exact lexes_of_parse hparses
    · exact hlexes
  refine ⟨_, instrument_instrumented hline, instrument_plain hline, ?_⟩
  have houtside := outside_of_starting hlexes hunderstood hline
  have hsemicolon {head ending : List Char} := @outside_of_semicolon source hlexes hunderstood n line hline head ending
  generalize Hooking.before (Text.lineChars source.toList) n = r at houtside hsemicolon
  unfold Hooking.hooked
  cases hstarting : r.starting line with
  | false =>
    have hkind : r.kind line = .other := by simp [Hooking.kind, hstarting]
    rw [hkind]
    exact .same
  | true =>
    have hplace := houtside hstarting
    cases hkind : r.kind line with
    | other => exact .same
    | statement call => exact .statement call _ _ hplace
    | comment words =>
      obtain ⟨rest, hrest, -⟩ := Option.map_eq_some_iff.mp (Hooking.comment_of_kind words hkind)
      exact .comment _ ⟨rest, (Text.afterStart?_eq_some_iff.mp hrest).symm⟩ hplace
    | yielded expr =>
      obtain ⟨blanks, ending, hbody, -, hblanks, hending⟩ := Line.yielded_eq (Hooking.yielded_of_kind expr hkind)
      have hsplit : line = Line.indent line ++ "yield".toList ++ Line.yieldGap (Text.dropBlank line) ++ expr ++ blanks ++
          ';' :: ending := by
        conv_lhs => rw [← Line.indent_append_dropBlank line, hbody]
        simp only [List.append_assoc]
      have hgap : ∀ c ∈ Line.yieldGap (Text.dropBlank line), Text.isBlank c = true := fun c hc =>
        List.all_eq_true.mp List.all_takeWhile c hc
      exact .yielded _ rfl hsplit hgap (List.forall_mem_append.mpr ⟨hblanks, hending⟩) hplace (hsemicolon hsplit hending)

/-- Semicolons and slashes in a text and in a comment, and a line that yields. -/
theorem yieldLine_stays_outside :
    ∃ hooked, (instrument "let s = \"a; // b\"; /* c; */\n  yield s;").instrumented[1]? = some hooked.instrumented ∧
      (instrument "let s = \"a; // b\"; /* c; */\n  yield s;").plain[1]? = some hooked.plain ∧
      ChangedOutside "let s = \"a; // b\"; /* c; */\n  yield s;"
        (Text.fromLine 1 "let s = \"a; // b\"; /* c; */\n  yield s;".toList) "  yield s;".toList
        ((Hooking.before (Text.lineChars "let s = \"a; // b\"; /* c; */\n  yield s;".toList) 1).scanner.scan
          "  yield s;".toList) hooked :=
  hooks_stay_outside (.inr (by decide +kernel)) (by decide +kernel) (by decide +kernel)

/-- The texts that are literals of a script. -/
def Script.literals (source : String) : List String :=
  (tokens source none).filterMap fun t =>
    match t.token with
    | .str text => some text
    | _ => none

/-- A hook is put into a raw text that holds lines, so the text is another one where the script runs; and one is put
into a comment that opens another one, as the scanner takes the end of that for its own. -/
theorem rawText_is_changed :
    (parse "let s = #\"\na;\nb;\n\"#;" {}).toOption.isSome ∧
      Script.literals "let s = #\"\na;\nb;\n\"#;" = ["\na;\nb;\n"] ∧
      (compile "let s = #\"\na;\nb;\n\"#;").toOption.map (fun r => Script.literals r.code) =
        some ["\na;\n__track_line(3); b;\n__track_line(4); "] ∧
      (parse "/* a /* b */\nc;\n*/ d;" {}).toOption.isSome ∧
      (instrument "/* a /* b */\nc;\n*/ d;").instrumented[1]? = some "__track_line(2); c;".toList := by
  decide +kernel

end ScriptAgent

import ScriptAgent.Prompt.Feedback
import ScriptAgent.Proofs.Text.Blanks
import ScriptAgent.Proofs.Text.Rows

/-!
# Scripts taken out of responses

A script is taken out of a response as it was put into it: between the markers, also inside a block fence, also if
the closing marker is missing, and a response without an opening marker is a script as a whole.  What stands before
the opening marker is passed over, closing markers there too, and so is all that follows the closing one.  The script
itself may have opening markers in it, and block fences between its first line and its last.
-/

namespace ScriptAgent

namespace Text

/-! ### Lines that are joined again -/

theorem endedLine_reverse_of_getLast? {row : List Char} (h : row.getLast? ≠ some '\r') : endedLine row.reverse = row := by
  rcases endedLine_reverse row with heq | heq
  · exact heq
  · rw [heq] at h
    simp at h

/-- A row of a text without a carriage return before a line feed is a line of it. -/
theorem endedLine_of_row {row rest : List Char} (h : ¬ ['\r', '\n'] <:+: row ++ '\n' :: rest) :
    endedLine row.reverse = row := by
  refine endedLine_reverse_of_getLast? fun hlast => h ?_
  obtain ⟨row, rfl⟩ := List.getLast?_eq_some_iff.mp hlast
  exact ⟨row, rest, by simp⟩

/-- Characters without a carriage return before a line feed, and without a line feed at the end, are their lines
joined again. -/
theorem intercalate_lineChars {cs : List Char} (hreturn : ¬ ['\r', '\n'] <:+: cs) (hend : cs.getLast? ≠ some '\n') :
    ['\n'].intercalate (lineChars cs) = cs := by
  induction cs using rowInduction with
  | last row hrow =>
    rw [lineChars_last hrow]
    cases row <;> simp
  | row row cs hrow ih =>
    have hne : cs ≠ [] := by
      rintro rfl
      simp at hend
    have hrest : ['\n'].intercalate (lineChars cs) = cs := by
      refine ih (fun h => hreturn (h.trans ⟨row ++ ['\n'], [], by simp⟩)) fun hlast => hend ?_
      rw [List.getLast?_append, List.getLast?_cons, hlast]
      rfl
    have hlines : lineChars cs ≠ [] := by
      intro hnil
      rw [hnil] at hrest
      exact hne hrest.symm
    rw [lineChars_row hrow, endedLine_of_row hreturn, List.intercalate_cons_of_ne_nil hlines, hrest]
    simp

theorem unlines_lines {s : String} (hreturn : ¬ ['\r', '\n'] <:+: s.toList) (hend : s.toList.getLast? ≠ some '\n') :
    unlines (lines s) = s := by
  apply String.toList_injective
  rw [unlines, String.toList_intercalate, lines, List.map_map]
  simpa [Function.comp_def] using intercalate_lineChars hreturn hend

/-- A last line after others; these do not end within a line end. -/
theorem lineChars_append_last {cs row : List Char} {c : Char} (hlast : cs.getLast? = some c) (hreturn : c ≠ '\r')
    (hfeed : c ≠ '\n') (hrow : '\n' ∉ row) (hne : row ≠ []) :
    lineChars (cs ++ '\n' :: row) = lineChars cs ++ [row] := by
  have hlastRow : lineChars row = [row] := by simp [lineChars_last hrow, hne]
  induction cs using rowInduction with
  | last first hfirst =>
    have hfirst' : first ≠ [] := by
      rintro rfl
      cases hlast
    have hended : endedLine first.reverse = first := endedLine_reverse_of_getLast? (by simp [hlast, hreturn])
    rw [lineChars_row hfirst, hended, hlastRow, lineChars_last hfirst]
    simp [hfirst']
  | row first cs hfirst ih =>
    have hcs : cs.getLast? = some c := by
      cases cs with
      | nil =>
        simp only [List.getLast?_append, List.getLast?_singleton, Option.some_or, Option.some.injEq] at hlast
        exact absurd hlast.symm hfeed
      | cons d cs => simpa [List.getLast?_append, List.getLast?_cons] using hlast
    rw [List.append_assoc, List.cons_append, lineChars_row hfirst, ih hcs, lineChars_row hfirst, List.cons_append]

end Text

namespace Fence

/-! ### Markers -/

/-- Nothing in the characters opens a script. -/
def NoOpening (cs : List Char) : Prop :=
  ¬ opening.toList <:+: cs

/-- Nothing in the characters ends a script. -/
def NoClosing (cs : List Char) : Prop :=
  ¬ closing.toList <:+: cs

instance (cs : List Char) : Decidable (NoOpening cs) :=
  inferInstanceAs (Decidable (¬ _))

instance (cs : List Char) : Decidable (NoClosing cs) :=
  inferInstanceAs (Decidable (¬ _))

theorem isWord_opening : Text.IsWord opening.toList := by decide

theorem isWord_closing : Text.IsWord closing.toList := by decide

/-- What follows a line feed has a closing marker of its own, or none is there. -/
theorem NoClosing.newLine {cs : List Char} (h : NoClosing cs) : NoClosing ([] ++ '\n' :: cs) := by
  intro hfound
  rcases Text.infix_append_cons (by decide) hfound with hnil | hcs
  · exact absurd hnil (by decide)
  · exact h hcs

theorem NoClosing.append_blanks {cs blanks : List Char} (h : NoClosing cs) (hblanks : Text.AllBlank blanks) :
    NoClosing (cs ++ blanks) := by
  intro hfound
  cases blanks with
  | nil => exact h (by simpa using hfound)
  | cons blank blanks =>
    have hblank : blank ∉ closing.toList := fun hmem =>
      absurd (hblanks blank List.mem_cons_self) (by simp [isWord_closing blank hmem])
    rcases Text.infix_append_cons hblank hfound with hcs | hrest
    · exact h hcs
    · have hmark : '■' ∈ blanks := hrest.mem (by decide)
      exact absurd (hblanks '■' (List.mem_cons_of_mem _ hmark)) (by decide)

theorem cut?_opening {before : List Char} (h : NoOpening before) (after : List Char) :
    Text.cut? opening.toList (before ++ (opening.toList ++ after)) = some (before, after) :=
  Text.cut?_append (by decide) h after

theorem cut?_closing {before : List Char} (h : NoClosing before) (after : List Char) :
    Text.cut? closing.toList (before ++ (closing.toList ++ after)) = some (before, after) :=
  Text.cut?_append (by decide) h after

/-! ### What stands between the markers -/

section Body

variable {text raw : String} {before inside after : List Char} (hbefore : NoOpening before) (hinside : NoClosing inside)
include hbefore hinside

theorem body_of_closed (h : text.toList = before ++ (opening.toList ++ (inside ++ (closing.toList ++ after)))) :
    body text = inside := by
  simp only [body, h, cut?_opening hbefore, cut?_closing hinside]

theorem body_of_unclosed (h : text.toList = before ++ (opening.toList ++ inside)) : body text = inside := by
  simp only [body, h, cut?_opening hbefore, Text.cut?_eq_none_iff.mpr hinside]

/-- A response with both markers is left as it is. -/
theorem body_fenced_of_closed (h : raw.toList = before ++ (opening.toList ++ (inside ++ (closing.toList ++ after)))) :
    body (fenced raw) = inside := by
  have hopening : Text.contains raw opening = true := Text.contains_eq_true_iff.mpr ⟨before, _, by simp [h]; rfl⟩
  have hclosing : Text.contains raw closing = true :=
    Text.contains_eq_true_iff.mpr ⟨before ++ (opening.toList ++ inside), after, by simp [h]⟩
  rw [fenced, if_pos hopening, if_pos hclosing]
  exact body_of_closed hbefore hinside h

/-- Where no closing marker follows the opening one, the rest of the response is taken; if there is one before it,
none is added. -/
theorem body_fenced_of_unclosed (h : raw.toList = before ++ (opening.toList ++ inside)) :
    Text.trimChars (body (fenced raw)) = Text.trimChars inside := by
  have hopening : Text.contains raw opening = true := Text.contains_eq_true_iff.mpr ⟨before, _, by simp [h]; rfl⟩
  rw [fenced, if_pos hopening]
  by_cases hclosing : Text.contains raw closing = true
  · rw [if_pos hclosing, body_of_unclosed hbefore hinside h]
  · have htrimmed : (Text.trim raw ++ "\n" ++ closing).toList =
        Text.dropBlank before ++ (opening.toList ++ ((Text.dropBlankEnd inside ++ ['\n']) ++ (closing.toList ++ []))) := by
      simp [Text.trim, Text.trimChars, h, Text.dropBlank_append_word isWord_opening (by decide),
        Text.dropBlankEnd_append_word isWord_opening (by decide)]
    have hbefore' : NoOpening (Text.dropBlank before) := fun hfound =>
      hbefore (hfound.trans (Text.dropBlank_suffix before).isInfix)
    have hinside' : NoClosing (Text.dropBlankEnd inside ++ ['\n']) := by
      intro hfound
      rcases Text.infix_append_cons (by decide) hfound with hfound | hfound
      · exact hinside (hfound.trans (Text.prefix_dropBlankEnd inside).isInfix)
      · exact absurd hfound (by decide)
    rw [if_neg hclosing, body_of_closed hbefore' hinside' htrimmed, ← Text.trimChars_dropBlankEnd inside]
    exact Text.trimChars_append (show Text.AllBlank [] by decide) (show Text.AllBlank ['\n'] by decide) _

end Body

/-- A response without an opening marker is taken as a whole. -/
theorem body_fenced_of_bare {raw : String} (hopening : NoOpening raw.toList) (hclosing : NoClosing raw.toList) :
    Text.trimChars (body (fenced raw)) = Text.trimChars raw.toList := by
  have hnone : Text.contains raw opening = false := by
    rw [← Bool.not_eq_true, Text.contains_eq_true_iff]
    exact hopening
  have hadded : (opening ++ "\n" ++ Text.trim raw).toList = [] ++ (opening.toList ++ '\n' :: Text.trimChars raw.toList) := by
    simp [Text.trim]
  have hfenced : fenced raw = fenced (opening ++ "\n" ++ Text.trim raw) := by
    have hthere : Text.contains (opening ++ "\n" ++ Text.trim raw) opening = true :=
      Text.contains_eq_true_iff.mpr ⟨[], _, hadded.symm⟩
    simp only [fenced, hnone, hthere, Bool.false_eq_true, if_false, if_true]
  have hinside : NoClosing ([] ++ '\n' :: Text.trimChars raw.toList) := by
    intro hfound
    obtain ⟨first, last, -, -, hsplit⟩ := Text.trimChars_split raw.toList
    rcases Text.infix_append_cons (by decide) hfound with hfound | hfound
    · exact absurd hfound (by decide)
    · exact hclosing (hfound.trans ⟨first, last, by rw [List.append_assoc]; exact hsplit.symm⟩)
  rw [hfenced, body_fenced_of_unclosed (by decide) hinside hadded]
  have hblank := Text.trimChars_append (show Text.AllBlank ['\n'] by decide) (show Text.AllBlank [] by decide)
    (Text.trimChars raw.toList)
  rw [List.append_nil, Text.trimChars_trimChars] at hblank
  exact hblank

/-! ### Fences of a block -/

theorem isBlockFence_of_prefix {row : List Char} (h : "```".toList <+: row) : isBlockFence (String.ofList row) = true := by
  obtain ⟨rest, rfl⟩ := h
  have htext : (String.ofList ("```".toList ++ rest)).toList = "```".toList ++ rest := String.toList_ofList
  have hstart : Text.afterStart? "```".toList (Text.dropBlank ("```".toList ++ rest)) = some rest :=
    Text.afterStart?_eq_some_iff.mpr rfl
  rw [isBlockFence, htext, hstart]
  rfl

theorem dropLastFence_eq_self {lines : List String} (h : ∀ line ∈ lines.getLast?, isBlockFence line = false) :
    dropLastFence lines = lines := by
  fun_induction dropLastFence lines with
  | case1 => rfl
  | case2 line hfence => simp [h line rfl] at hfence
  | case3 line hfence => rfl
  | case4 line rest hrest ih =>
    rw [ih fun last hlast => h last ?_]
    rw [List.getLast?_cons, hlast]
    rfl

theorem dropLastFence_concat (lines : List String) {last : String} (hlast : isBlockFence last = true) :
    dropLastFence (lines ++ [last]) = lines := by
  induction lines with
  | nil => simp [dropLastFence, hlast]
  | cons line lines ih =>
    obtain ⟨next, rest, hrest⟩ : ∃ next rest, lines ++ [last] = next :: rest :=
      List.exists_cons_of_ne_nil (by simp)
    rw [List.cons_append, hrest, dropLastFence, ← hrest, ih]
    simp

/-- Lines between fences. -/
theorem dropFences_fenced (lines : List String) {first last : String} (hfirst : isBlockFence first = true)
    (hlast : isBlockFence last = true) : dropFences (first :: (lines ++ [last])) = lines := by
  rw [dropFences, if_pos hfirst, dropLastFence_concat lines hlast]

/-- Lines without fences at the ends. -/
theorem dropFences_eq_self {lines : List String} (hfirst : ∀ line ∈ lines.head?, isBlockFence line = false)
    (hlast : ∀ line ∈ lines.getLast?, isBlockFence line = false) : dropFences lines = lines := by
  cases lines with
  | nil => rfl
  | cons line rest => rw [dropFences, hfirst line rfl, if_neg Bool.false_ne_true, dropLastFence_eq_self hlast]

/-! ### Scripts -/

/-- A script as it can stand between the markers: trimmed, without a closing marker, and with lines that end in line
feeds alone, of which neither the first nor the last is taken for a block fence. -/
structure Plain (c : String) : Prop where
  nonempty : c ≠ ""
  trimmed : Text.trim c = c
  unclosed : NoClosing c.toList
  lineFeeds : ¬ ['\r', '\n'] <:+: c.toList
  first : ∀ line ∈ (Text.lines c).head?, isBlockFence line = false
  last : ∀ line ∈ (Text.lines c).getLast?, isBlockFence line = false

/-- A script within a block fence that has a tag. -/
def inBlock (tag c : String) : String :=
  "```" ++ tag ++ "\n" ++ c ++ "\n```"

/-- A response is taken for code, namely for the given script. -/
def Gives (raw c : String) : Prop :=
  parseResponse raw = ⟨c, raw⟩ ∧ (parseResponse raw).hasCode = true

/-- The script in what stands between the markers. -/
def scriptOf (inside : List Char) : String :=
  Text.unlines (dropFences (Text.lines (String.ofList (Text.trimChars inside))))

theorem scriptOf_congr {inside inside' : List Char} (h : Text.trimChars inside = Text.trimChars inside') :
    scriptOf inside = scriptOf inside' := by
  rw [scriptOf, scriptOf, h]

namespace Plain

variable {c : String} (h : Plain c)
include h

theorem trimChars_eq : Text.trimChars c.toList = c.toList := by
  rw [← String.toList_ofList (l := Text.trimChars c.toList), ← Text.trim, h.trimmed]

theorem toList_ne_nil : c.toList ≠ [] := fun hnil => h.nonempty (String.toList_injective hnil)

/-- The last character of a script is not blank. -/
theorem getLast?_eq : ∃ last, c.toList.getLast? = some last ∧ Text.isBlank last = false := by
  cases hlast : c.toList.getLast? with
  | none => exact absurd (List.getLast?_eq_none_iff.mp hlast) h.toList_ne_nil
  | some last => exact ⟨last, rfl, (Text.ends_of_trimmed h.trimChars_eq).2 last hlast⟩

theorem unlines_lines : Text.unlines (Text.lines c) = c := by
  obtain ⟨last, hlast, hblank⟩ := h.getLast?_eq
  refine Text.unlines_lines h.lineFeeds fun hfeed => ?_
  obtain rfl : last = '\n' := Option.some.inj (hlast.symm.trans hfeed)
  cases hblank

theorem scriptOf_eq : scriptOf c.toList = c := by
  rw [scriptOf, h.trimChars_eq, String.ofList_toList, dropFences_eq_self h.first h.last, h.unlines_lines]

theorem scriptOf_inBlock {tag : String} (htag : '\n' ∉ tag.toList) : scriptOf (inBlock tag c).toList = c := by
  obtain ⟨last, hlast, hblank⟩ := h.getLast?_eq
  have hchars : (inBlock tag c).toList = ("```".toList ++ tag.toList) ++ '\n' :: (c.toList ++ '\n' :: "```".toList) := by
    simp [inBlock]
  -- the block begins and ends with a fence, so it has no blanks to trim
  have htrimmed : Text.trimChars (inBlock tag c).toList = (inBlock tag c).toList := by
    have hticks : Text.IsWord "```".toList := by decide
    have hends := Text.trimChars_of_words hticks hticks (by decide) (by decide) (tag.toList ++ '\n' :: (c.toList ++ ['\n']))
    simpa [hchars] using hends
  have hrow : '\n' ∉ "```".toList ++ tag.toList := by
    simpa using htag
  have hlines : Text.lines (inBlock tag c) =
      String.ofList (Text.endedLine ("```".toList ++ tag.toList).reverse) :: (Text.lines c ++ ["```"]) := by
    have hreturn : last ≠ '\r' := by
      rintro rfl
      cases hblank
    have hfeed : last ≠ '\n' := by
      rintro rfl
      cases hblank
    rw [Text.lines, hchars, Text.lineChars_row hrow,
      Text.lineChars_append_last hlast hreturn hfeed (by decide) (by decide), List.map_cons, List.map_append]
    rfl
  have hopens : isBlockFence (String.ofList (Text.endedLine ("```".toList ++ tag.toList).reverse)) = true := by
    refine isBlockFence_of_prefix ?_
    have hprefix : "```".toList <+: "```".toList ++ tag.toList := List.prefix_append _ _
    rcases Text.endedLine_reverse ("```".toList ++ tag.toList) with hended | hended
    · rwa [hended]
    · rw [hended] at hprefix
      rcases List.prefix_concat_iff.mp hprefix with heq | hshorter
      · have hmem : '\r' ∈ "```".toList := heq ▸ by simp
        exact absurd hmem (by decide)
      · exact hshorter
  rw [scriptOf, htrimmed, String.ofList_toList, hlines, dropFences_fenced _ hopens (by decide), h.unlines_lines]

theorem gives {raw : String} (hscript : scriptOf (body (fenced raw)) = c) : Gives raw c := by
  have hparsed : parseResponse raw = ⟨c, raw⟩ := by rw [← hscript]; rfl
  refine ⟨hparsed, ?_⟩
  obtain ⟨last, hlast, hblank⟩ := h.getLast?_eq
  rw [hparsed, Response.hasCode, Bool.not_eq_true', Text.isBlankText, List.all_eq_false]
  exact ⟨last, List.mem_of_getLast? hlast, by simp [hblank]⟩

/-- What holds the script is found between the markers. -/
theorem gives_of_closed {a b inside : String} (ha : NoOpening a.toList) (hinside : NoClosing inside.toList)
    (hscript : scriptOf inside.toList = c) : Gives (a ++ (opening ++ "\n" ++ inside ++ "\n" ++ closing) ++ b) c := by
  have hlines : NoClosing ([] ++ '\n' :: (inside.toList ++ ['\n'])) := (hinside.append_blanks (by decide)).newLine
  have htext : (a ++ (opening ++ "\n" ++ inside ++ "\n" ++ closing) ++ b).toList =
      a.toList ++ (opening.toList ++ (([] ++ '\n' :: (inside.toList ++ ['\n'])) ++ (closing.toList ++ b.toList))) := by
    simp
  refine h.gives ?_
  rw [body_fenced_of_closed ha hlines htext, ← hscript]
  exact scriptOf_congr (Text.trimChars_append (show Text.AllBlank ['\n'] by decide) (show Text.AllBlank ['\n'] by decide) _)

/-- What holds the script is found behind the opening marker, if nothing but blanks follow it. -/
theorem gives_of_unclosed {a blanks inside : String} (ha : NoOpening a.toList) (hblanks : Text.AllBlank blanks.toList)
    (hinside : NoClosing inside.toList) (hscript : scriptOf inside.toList = c) :
    Gives (a ++ opening ++ "\n" ++ inside ++ blanks) c := by
  have hlines : NoClosing ([] ++ '\n' :: (inside.toList ++ blanks.toList)) := (hinside.append_blanks hblanks).newLine
  refine h.gives ?_
  rw [scriptOf_congr (body_fenced_of_unclosed ha hlines (by simp)), ← hscript]
  exact scriptOf_congr (Text.trimChars_append (show Text.AllBlank ['\n'] by decide) hblanks _)

theorem noClosing_inBlock {tag : String} (htag : NoClosing tag.toList) : NoClosing (inBlock tag c).toList := by
  have hopens : NoClosing ("``".toList ++ Char.ofNat 96 :: tag.toList) := by
    intro hfound
    rcases Text.infix_append_cons (by decide) hfound with hticks | hfound
    · exact absurd hticks (by decide)
    · exact htag hfound
  intro hfound
  have hchars : (inBlock tag c).toList = ("```".toList ++ tag.toList) ++ '\n' :: (c.toList ++ '\n' :: "```".toList) := by
    simp [inBlock]
  rw [hchars] at hfound
  rcases Text.infix_append_cons (by decide) hfound with hfirst | hrest
  · exact hopens hfirst
  · rcases Text.infix_append_cons (by decide) hrest with hscript | hlast
    · exact h.unclosed hscript
    · exact absurd hlast (by decide)

end Plain

/-- **Scripts are taken out as they were put in.**  Whatever stands before the opening marker, without one of its own,
and whatever follows the closing one, a plain script between the two is found: as it is, as the message of the
model has it, or within a block fence, with a tag or without one; also if the response ends with the script or with
its block, up to blanks.  A plain script without opening markers is a response of its own. -/
theorem script_is_extracted {c : String} (h : Plain c) :
    (∀ a b : String, NoOpening a.toList → Gives (a ++ (opening ++ "\n" ++ c ++ "\n" ++ closing) ++ b) c) ∧
    Gives (Feedback.assistant c).content c ∧
    (∀ a b tag : String, NoOpening a.toList → '\n' ∉ tag.toList → NoClosing tag.toList →
      Gives (a ++ (opening ++ "\n" ++ inBlock tag c ++ "\n" ++ closing) ++ b) c) ∧
    (∀ a blanks : String, NoOpening a.toList → Text.AllBlank blanks.toList →
      Gives (a ++ opening ++ "\n" ++ c ++ blanks) c ∧
      ∀ tag : String, '\n' ∉ tag.toList → NoClosing tag.toList →
        Gives (a ++ opening ++ "\n" ++ inBlock tag c ++ blanks) c) ∧
    (NoOpening c.toList → Gives c c) := by
  have hassistant : (Feedback.assistant c).content = "" ++ (opening ++ "\n" ++ c ++ "\n" ++ closing) ++ "" := by
    simp [Feedback.assistant, Message.assistant, h.trimmed]
  refine ⟨fun a b ha => h.gives_of_closed ha h.unclosed h.scriptOf_eq, ?_, fun a b tag ha htag htag' => ?_,
    fun a blanks ha hblanks => ⟨h.gives_of_unclosed ha hblanks h.unclosed h.scriptOf_eq, fun tag htag htag' => ?_⟩,
    fun hopening => h.gives ?_⟩
  · rw [hassistant]
    exact h.gives_of_closed (by decide) h.unclosed h.scriptOf_eq
  · exact h.gives_of_closed ha (h.noClosing_inBlock htag') (h.scriptOf_inBlock htag)
  · exact h.gives_of_unclosed ha hblanks (h.noClosing_inBlock htag') (h.scriptOf_inBlock htag)
  · rw [scriptOf_congr (body_fenced_of_bare hopening h.unclosed), h.scriptOf_eq]

/-- A script that speaks of the markers and of a block. -/
theorem nestedScript_is_extracted :
    Plain "let a = 1;\n// ■fn_start\n```\nlet b = 2;" ∧ NoOpening "Here, not ■fn_end yet:\n".toList ∧
      '\n' ∉ "rhai".toList ∧ NoClosing "rhai".toList ∧
      Gives ("Here, not ■fn_end yet:\n" ++
        (opening ++ "\n" ++ inBlock "rhai" "let a = 1;\n// ■fn_start\n```\nlet b = 2;" ++ "\n" ++ closing) ++ " ■fn_end")
        "let a = 1;\n// ■fn_start\n```\nlet b = 2;" := by
  have hplain : Plain "let a = 1;\n// ■fn_start\n```\nlet b = 2;" :=
    ⟨by decide, by decide +kernel, by decide, by decide, by decide +kernel, by decide +kernel⟩
  have hopening : NoOpening "Here, not ■fn_end yet:\n".toList := by decide
  have htag : NoClosing "rhai".toList := by decide
  exact ⟨hplain, hopening, by decide, htag, (script_is_extracted hplain).2.2.1 _ _ _ hopening (by decide) htag⟩

end Fence

end ScriptAgent

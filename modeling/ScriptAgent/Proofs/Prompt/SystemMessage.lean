import ScriptAgent.Prompt.System
import ScriptAgent.Proofs.Json.Records

/-!
# There always is a system message

A template whose tags are values, conditions and repetitions, each of a single name, can be filled in
whenever no name is looked up in a list.  The values of the system message are rows: objects whose lists
hold rows in turn.
-/

namespace ScriptAgent

namespace Template

/-! ### Plain templates -/

mutual

/-- Whether a piece uses single names only, and no helpers. -/
def isPlain : TemplatePiece → Bool
  | .text _ => true
  | .value path => path.keys.length == 1
  | .helper _ => false
  | .block name (some path) body otherwise =>
    (name == "if" || name == "each") && path.keys.length == 1 && allPlain body && allPlain otherwise
  | .block _ none _ _ => false

/-- Whether all pieces use single names only, and no helpers. -/
def allPlain : List TemplatePiece → Bool
  | [] => true
  | p :: rest => isPlain p && allPlain rest

end

/-- A value in which names can be looked up, and in whose fields all items are such values. -/
inductive Row : Json → Prop
  | leaf {v : Json} (fields : v.fields? = none) (items : v.items? = none) : Row v
  | row {fields : Dict Json} (below : ∀ key v, Dict.get? fields key = some v → ∀ item ∈ itemsOf v, Row item) :
    Row (.obj fields)

theorem Row.field {v : Json} (h : Row v) (key : String) :
    ∃ w, below? [key] v = some w ∧ ∀ item ∈ itemsOf w, Row item := by
  cases h with
  | leaf fields items =>
    cases v with
    | obj | arr => cases fields <;> cases items
    | _ => exact ⟨.null, rfl, nofun⟩
  | @row fields below =>
    cases hv : Dict.get? fields key with
    | none => exact ⟨.null, by simp [below?, hv], nofun⟩
    | some w => exact ⟨w, by simp [below?, hv], below key w hv⟩

theorem Row.lookup {stack : List Json} (h : ∀ v ∈ stack, Row v) {path : TemplatePath} (hp : path.keys.length = 1) :
    ∃ w, lookup? stack path = some w ∧ ∀ item ∈ itemsOf w, Row item := by
  obtain ⟨key, hkey⟩ := List.length_eq_one_iff.mp hp
  have hstart : Row ((stack[path.up]?).getD (stack.getLastD .null)) := by
    cases hup : stack[path.up]? with
    | some v => exact h v (List.mem_of_getElem? hup)
    | none =>
      cases stack with
      | nil => exact .leaf rfl rfl
      | cons v rest => exact h _ (by simp [List.getLastD])
  unfold lookup?
  rw [hkey]
  exact hstart.field key

theorem mapM_isSome {α β : Type} {f : α → Option β} {xs : List α} (h : ∀ x ∈ xs, (f x).isSome) :
    (xs.mapM f).isSome := by
  induction xs with
  | nil => rfl
  | cons x rest ih =>
    obtain ⟨y, hy⟩ := Option.isSome_iff_exists.mp (h x (.head _))
    obtain ⟨ys, hys⟩ := Option.isSome_iff_exists.mp (ih fun x hx => h x (.tail _ hx))
    simp [hy, hys]

mutual

theorem renderPiece_isSome {stack : List Json} (hs : ∀ v ∈ stack, Row v) :
    ∀ {p : TemplatePiece}, isPlain p = true → (renderPiece stack p).isSome
  | .text _, _ => rfl
  | .value path, h => by
    obtain ⟨w, hw, -⟩ := Row.lookup hs (eq_of_beq h)
    rw [renderPiece, hw]
    rfl
  | .helper _, h => by cases h
  | .block _ none _ _, h => by simp [isPlain] at h
  | .block name (some path) body otherwise, h => by
    simp only [isPlain, Bool.and_eq_true, Bool.or_eq_true, beq_iff_eq] at h
    obtain ⟨⟨⟨hname, hpath⟩, hbody⟩, hotherwise⟩ := h
    obtain ⟨w, hw, hitems⟩ := Row.lookup hs hpath
    have hother := renderPieces_isSome hs hotherwise
    rcases hname with rfl | rfl
    · have hthen := renderPieces_isSome hs hbody
      rw [renderPiece, hw]
      show Option.isSome (if isTrue w = true then _ else _) = true
      split
      · exact hthen
      · exact hother
    · rw [renderPiece, hw]
      show Option.isSome (if (itemsOf w).isEmpty = true then _ else _) = true
      split
      · exact hother
      · have htexts : ((itemsOf w).mapM fun item => renderPieces (item :: stack) body).isSome :=
          mapM_isSome fun item hitem => renderPieces_isSome (by simpa [hitems item hitem] using hs) hbody
        obtain ⟨texts, htexts⟩ := Option.isSome_iff_exists.mp htexts
        rw [htexts]
        rfl

theorem renderPieces_isSome {stack : List Json} (hs : ∀ v ∈ stack, Row v) :
    ∀ {ps : List TemplatePiece}, allPlain ps = true → (renderPieces stack ps).isSome
  | [], _ => rfl
  | p :: rest, h => by
    obtain ⟨hp, hrest⟩ := Bool.and_eq_true_iff.mp h
    obtain ⟨text, htext⟩ := Option.isSome_iff_exists.mp (renderPiece_isSome hs hp)
    obtain ⟨texts, htexts⟩ := Option.isSome_iff_exists.mp (renderPieces_isSome hs hrest)
    rw [renderPieces, htext, htexts]
    rfl

end

/-- A plain template is filled in by every row. -/
theorem render?_isSome {source : String} {context : Json} (plain : (parse? source).any allPlain = true)
    (row : Row context) : (render? source context).isSome := by
  cases hp : parse? source with
  | none => rw [hp] at plain; cases plain
  | some ps =>
    rw [hp] at plain
    have hrender : (renderPieces [context] ps).isSome := renderPieces_isSome (by simpa using row) plain
    obtain ⟨text, htext⟩ := Option.isSome_iff_exists.mp hrender
    rw [render?, hp]
    show (renderPieces [context] ps >>= _).isSome = true
    rw [htext]
    rfl

end Template

namespace Prompt

set_option maxRecDepth 20000 in
theorem systemTemplate_plain : (Template.parse? systemTemplate).any Template.allPlain = true := by
  unfold Template.parse?
  rw [← String.length_toList]
  obtain ⟨cs, hcs, hplain⟩ : ∃ cs, systemTemplate.toList = cs ∧
      ((Template.split? cs.length cs).bind fun parted =>
        Template.assemble
          [{ name := "", argument := none, pieces := [.text (Template.takeLines true false parted.1 parted.2).1] }]
          (Template.takeLines true false parted.1 parted.2).2).any Template.allPlain = true := by
    simp only [systemTemplate, writingLines, toolLines, objectLines, exitLines, memberName, describedAs, whenLines,
      eachLines, whenText, tag, List.cons_append, List.nil_append, Text.unlines,
      String.intercalate_cons_cons, String.intercalate_singleton, String.toList_append, String.reduceToList]
    refine ⟨_, rfl, ?_⟩
    decide +kernel
  rw [hcs]
  exact hplain

/-! ### The values of the system message -/

open Template (Row)

theorem row_object {entries : List (String × Json)} (h : (Dict.keys entries).Nodup)
    (below : ∀ entry ∈ entries, ∀ item ∈ Template.itemsOf entry.2, Row item) : Row (.object entries) := by
  refine .row fun key v hv => ?_
  have hget : Dict.get? entries key = some v := (Dict.get?_ofList h key).symm.trans hv
  exact below (key, v) (Dict.mem_of_get? hget)

theorem row_view {entries : List (String × Json)} (h : (Dict.keys entries).Nodup)
    (leaves : ∀ entry ∈ entries, Template.itemsOf entry.2 = []) : Row (.object entries) :=
  row_object h fun entry hentry item hitem => by rw [leaves entry hentry] at hitem; cases hitem

@[simp] theorem itemsOf_str (s : String) : Template.itemsOf (.str s) = [] := rfl

@[simp] theorem itemsOf_arr (items : List Json) : Template.itemsOf (.arr items) = items := rfl

@[simp] theorem itemsOf_optStr (s : Option String) : Template.itemsOf (Json.optStr s) = [] := by
  cases s <;> rfl

theorem row_toolView (t : Tool) : Row (toolView t) :=
  row_view (by simp) (by simp [inRow, schemaText])

theorem row_exitView (e : Exit) : Row (exitView e) :=
  row_view (by simp) (by simp [inRow, schemaText])

theorem row_propertyView (p : Property) : Row (propertyView p) :=
  row_view (by simp) (by simp [schemaText])

theorem row_objectView (o : ObjectInstance) : Row (objectView o) := by
  refine row_object (by simp) ?_
  simp only [List.mem_cons, List.not_mem_nil, or_false, forall_eq_or_imp, forall_eq, itemsOf_str, itemsOf_arr,
    itemsOf_optStr, List.mem_map]
  refine ⟨nofun, nofun, ?_, ?_⟩
  · rintro _ ⟨p, -, rfl⟩
    exact row_propertyView p
  · rintro _ ⟨t, -, rfl⟩
    exact row_view (by simp) (by simp)

theorem row_systemValues (i : PromptInputs) : Row (systemValues i) := by
  refine row_object (by simp) ?_
  simp only [List.mem_cons, List.not_mem_nil, or_false, forall_eq_or_imp, forall_eq, itemsOf_str, itemsOf_arr,
    inRow, List.mem_map]
  refine ⟨nofun, nofun, nofun, ?_, ?_, nofun, nofun, ?_, nofun⟩
  · rintro _ ⟨t, -, rfl⟩
    exact row_toolView t
  · rintro _ ⟨o, -, rfl⟩
    exact row_objectView o
  · rintro _ ⟨e, -, rfl⟩
    exact row_exitView e

/-- There always is a system message. -/
theorem systemMessage?_isSome (i : PromptInputs) : (systemMessage? i).isSome := by
  obtain ⟨text, htext⟩ := Option.isSome_iff_exists.mp
    (Template.render?_isSome systemTemplate_plain (row_systemValues i))
  rw [systemMessage?, htext]
  rfl

end Prompt

end ScriptAgent

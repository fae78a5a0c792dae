import ScriptAgent.Json.Decode
import ScriptAgent.Json.Printer
import ScriptAgent.Json.Reader
import ScriptAgent.Proofs.Dict

/-!
# Reading what was written

A record that is written without the entries that are not there gives each of its entries back under
its key.  A field that may be missing comes back as it was, as long as it is not written as null, since
null counts as missing.
-/

namespace ScriptAgent.Json

variable {α β γ : Type} {entries : List (String × Option Json)} {v w : Json} {key : String}

/-! ### Entries of a record -/

theorem get?_filterMap (h : (Dict.keys entries).Nodup) (key : String) :
    Dict.get? (entries.filterMap fun (k, v) => v.map (k, ·)) key = (Dict.get? entries key).join := by
  induction entries with
  | nil => rfl
  | cons entry rest ih =>
    obtain ⟨hfresh, hrest⟩ := List.nodup_cons.mp h
    obtain ⟨k, v⟩ := entry
    by_cases hk : k = key
    · subst hk
      have hnone : Dict.get? rest k = none := Dict.get?_eq_none_iff.mpr hfresh
      cases v with
      | none => simp [Dict.get?, ih hrest, hnone]
      | some v => simp [Dict.get?]
    · cases v with
      | none => simp [Dict.get?, hk, ih hrest]
      | some v => simp [Dict.get?, hk, ih hrest]

theorem keys_filterMap_sublist (entries : List (String × Option Json)) :
    (Dict.keys (entries.filterMap fun (k, v) => v.map (k, ·))).Sublist (Dict.keys entries) := by
  induction entries with
  | nil => exact .slnil
  | cons entry rest ih =>
    obtain ⟨k, v⟩ := entry
    cases v with
    | none => exact ih.cons k
    | some v => exact ih.cons_cons k

theorem mapValues_filterMap (f : Json → Json) (entries : List (String × Option Json)) :
    Dict.mapValues f (entries.filterMap fun (k, v) => v.map (k, ·)) =
      (Dict.mapValues (Option.map f) entries).filterMap fun (k, v) => v.map (k, ·) := by
  induction entries with
  | nil => rfl
  | cons entry rest ih =>
    obtain ⟨k, v⟩ := entry
    cases v with
    | none => exact ih
    | some v => exact congrArg ((k, f v) :: ·) ih

/-- A record has the entries that are there, if no key is listed twice. -/
theorem get?_recordOf (entries : List (String × Option Json)) (h : (Dict.keys entries).Nodup) (key : String) :
    (recordOf entries).get? key = (Dict.get? entries key).join :=
  (Dict.get?_ofList (h.sublist (keys_filterMap_sublist entries)) key).trans (get?_filterMap h key)

theorem get?_object (entries : List (String × Json)) (h : (Dict.keys entries).Nodup) (key : String) :
    (object entries).get? key = Dict.get? entries key :=
  Dict.get?_ofList h key

/-! ### Fields -/

theorem required_of_get? (h : v.get? key = some w) (read : Json → Option α) : v.required key read = read w := by
  rw [required, h]
  rfl

theorem withDefault_of_get? (h : v.get? key = some w) (read : Json → Option α) (default : α) :
    v.withDefault key read default = read w := by
  rw [withDefault, h]

/-- A field that may be missing is read back as it was written, or as what its value is read back as. -/
theorem optional_of_get? {x : Option β} {read : Json → Option α} {f : β → α} (write : β → Json)
    (h : v.get? key = x.map write) (hread : ∀ b ∈ x, write b ≠ .null ∧ read (write b) = some (f b)) :
    v.optional key read = some (x.map f) := by
  rw [optional, h]
  cases x with
  | none => rfl
  | some b =>
    obtain ⟨hnull, hb⟩ := hread b rfl
    simp [hb]

theorem optional_self_of_get? {x : Option α} {read : Json → Option α} (write : α → Json)
    (h : v.get? key = x.map write) (hread : ∀ a ∈ x, write a ≠ .null ∧ read (write a) = some a) :
    v.optional key read = some x := by
  have hx := optional_of_get? (f := id) write h hread
  rwa [Option.map_id] at hx

/-- A value that may be missing is absent after it was null. -/
theorem optional_any_of_get? {x : Option Json} (h : v.get? key = x) :
    v.optional key any? = some (x.filter (!·.isNull)) := by
  subst h
  unfold optional
  split
  · next h => rw [h]; rfl
  · next h => rw [h]; rfl
  · next w hnull h =>
    rw [h]
    cases w with
    | null => exact absurd rfl hnull
    | _ => rfl

theorem optional_str {x : Option String} (h : v.get? key = x.map .str) : v.optional key str? = some x :=
  optional_self_of_get? .str h fun _ _ => ⟨nofun, rfl⟩

/-! ### Values -/

theorem word32?_nat {n : Nat} (h : n < UInt32.size) : (nat n).word32? = some n := by
  simp [word32?, nat, nat?, Numeral.toNat?, h]

theorem word64?_nat {n : Nat} (h : n < UInt64.size) : (nat n).word64? = some n := by
  simp [word64?, nat, nat?, Numeral.toNat?, h]

theorem optional_word32 {x : Option Nat} (h : v.get? key = x.map .nat) (hx : ∀ n ∈ x, n < UInt32.size) :
    v.optional key word32? = some x :=
  optional_self_of_get? .nat h fun n hn => ⟨nofun, word32?_nat (hx n hn)⟩

theorem dict?_any (d : Dict Json) : (obj d).dict? any? = some d := by
  show d.mapM (fun entry => (any? entry.2).map (entry.1, ·)) = some d
  induction d with
  | nil => rfl
  | cons entry rest ih =>
    rw [List.mapM_cons, ih]
    rfl

/-! ### A check of equality

Doubles have no decidable equality, so the check gives up on them. -/

mutual

/-- Whether two values without doubles are equal. -/
def equals : Json → Json → Bool
  | .null, .null => true
  | .bool a, .bool b => a == b
  | .num (.int a), .num (.int b) => a == b
  | .str a, .str b => a == b
  | .arr a, .arr b => equalsItems a b
  | .obj a, .obj b => equalsFields a b
  | _, _ => false

/-- Whether two lists of values without doubles are equal. -/
def equalsItems : List Json → List Json → Bool
  | [], [] => true
  | a :: as, b :: bs => equals a b && equalsItems as bs
  | _, _ => false

/-- Whether two lists of entries without doubles are equal. -/
def equalsFields : List (String × Json) → List (String × Json) → Bool
  | [], [] => true
  | (j, a) :: as, (k, b) :: bs => j == k && equals a b && equalsFields as bs
  | _, _ => false

end

mutual

theorem eq_of_equals : ∀ {v w : Json}, equals v w = true → v = w
  | .null, w, h => by cases w <;> simp_all [equals]
  | .bool a, w, h => by cases w <;> simp_all [equals]
  | .num (.int a), w, h => by
    match w with
    | .num (.int b) => simp_all [equals]
  | .str a, w, h => by cases w <;> simp_all [equals]
  | .arr a, .arr b, h => by
    rw [equals] at h
    rw [eq_of_equalsItems h]
  | .obj a, .obj b, h => by
    rw [equals] at h
    rw [eq_of_equalsFields h]

theorem eq_of_equalsItems : ∀ {as bs : List Json}, equalsItems as bs = true → as = bs
  | [], [], _ => rfl
  | a :: as, b :: bs, h => by
    obtain ⟨ha, has⟩ := Bool.and_eq_true_iff.mp h
    rw [eq_of_equals ha, eq_of_equalsItems has]

theorem eq_of_equalsFields : ∀ {as bs : List (String × Json)}, equalsFields as bs = true → as = bs
  | [], [], _ => rfl
  | (j, a) :: as, (k, b) :: bs, h => by
    obtain ⟨hja, has⟩ := Bool.and_eq_true_iff.mp h
    obtain ⟨hj, ha⟩ := Bool.and_eq_true_iff.mp hja
    rw [eq_of_beq hj, eq_of_equals ha, eq_of_equalsFields has]

end

theorem eq_some_of_equals {x : Option Json} (h : x.any (·.equals w) = true) : x = some w := by
  cases x with
  | none => cases h
  | some v => rw [eq_of_equals h]

/-! ### Texts of values -/

/-- The value that characters hold. -/
def parseChars? (cs : List Char) : Option Json :=
  match readValue maxDepth (2 * cs.length + 2) cs with
  | some (v, rest) => if (skipBlanks rest).isEmpty then some v else none
  | none => none

/-- What the text of a value is read as; its characters are cheaper to evaluate than the text itself, which is
put together piece by piece. -/
theorem parse?_compact (v : Json) :
    parse? v.compact = parseChars? ((compactPieces v []).flatMap String.toList) := by
  rw [show parse? v.compact = parseChars? v.compact.toList from rfl, compact, String.toList_join]

end ScriptAgent.Json

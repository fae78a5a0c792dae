import ScriptAgent.Proofs.Json.Numbers
import ScriptAgent.Proofs.Json.Records
import ScriptAgent.Sandbox.Backend

/-!
# Texts of values read back

The compact text of a value is read as the value, as long as it is not nested too deep and its numbers are of
the size that is read; only its doubles are what their own texts are read as.  What the isolated backend passes
is so what the text of a value is read as.
-/

namespace ScriptAgent

namespace Json

/-! ### Quoted texts -/

theorem hexValue?_hexDigit {n : Nat} (h : n < 16) : Text.hexValue? (Text.hexDigit n) = some n := by
  revert n
  decide

theorem readHex4_control {n : Nat} (h : n < 32) (rest : List Char) :
    readHex4 ('0' :: '0' :: Text.hexDigit (n / 16) :: Text.hexDigit (n % 16) :: rest) = some (n, rest) := by
  have hzero : Text.hexValue? '0' = some 0 := by decide
  have hhigh := hexValue?_hexDigit (n := n / 16) (by omega)
  have hlow := hexValue?_hexDigit (n := n % 16) (by omega)
  simp only [readHex4, hzero, hhigh, hlow, Option.bind_eq_bind, Option.bind_some, Option.pure_def, Option.some.injEq,
    Prod.mk.injEq, and_true]
  omega

/-- A control character is escaped by its number. -/
theorem readQuoted_control (acc : List Char) (fuel : Nat) {c : Char} (h : c.toNat < 32) (rest : List Char) :
    readQuoted acc (fuel + 1) ('\\' :: 'u' :: '0' :: '0' :: Text.hexDigit (c.toNat / 16) ::
      Text.hexDigit (c.toNat % 16) :: rest) = readQuoted (c :: acc) fuel rest := by
  have hlow : ¬ 0xD800 ≤ c.toNat := by omega
  have hhigh : ¬ 0xDC00 ≤ c.toNat := by omega
  simp only [readQuoted, readHex4_control h, Option.bind_eq_bind, Option.bind_some, hlow, hhigh, decide_false,
    Bool.false_and, Bool.false_eq_true, ↓reduceIte, Char.ofNat_toNat]

/-- Any other character stands for itself. -/
theorem readQuoted_self (acc : List Char) (fuel : Nat) {c : Char} (hquote : c ≠ '"') (hslash : c ≠ '\\')
    (hcontrol : ¬ c.toNat < 32) (rest : List Char) :
    readQuoted acc (fuel + 1) (c :: rest) = readQuoted (c :: acc) fuel rest := by
  rw [readQuoted.eq_def]
  split <;> grind

theorem readQuoted_escapeChar (acc : List Char) (fuel : Nat) (c : Char) (rest : List Char) :
    readQuoted acc (fuel + 1) (escapeChar c ++ rest) = readQuoted (c :: acc) fuel rest := by
  by_cases hquote : c = '"'
  · subst hquote; rfl
  by_cases hslash : c = '\\'
  · subst hslash; rfl
  by_cases hn : c = '\n'
  · subst hn; rfl
  by_cases hr : c = '\r'
  · subst hr; rfl
  by_cases ht : c = '\t'
  · subst ht; rfl
  by_cases hb : c.toNat = 8
  · obtain rfl : c = Char.ofNat 8 := by rw [← hb, Char.ofNat_toNat]
    rfl
  by_cases hf : c.toNat = 12
  · obtain rfl : c = Char.ofNat 12 := by rw [← hf, Char.ofNat_toNat]
    rfl
  by_cases hcontrol : c.toNat < 32
  · simpa [escapeChar, hquote, hslash, hn, hr, ht, hb, hf, hcontrol] using readQuoted_control acc fuel hcontrol rest
  · simpa [escapeChar, hquote, hslash, hn, hr, ht, hb, hf, hcontrol] using
      readQuoted_self acc fuel hquote hslash hcontrol rest

/-- A quoted text ends at the quote that follows its escaped characters. -/
theorem readQuoted_flatMap (acc : List Char) {fuel : Nat} {cs : List Char} (hfuel : cs.length < fuel)
    (rest : List Char) :
    readQuoted acc fuel (cs.flatMap escapeChar ++ '"' :: rest) = some (String.ofList (acc.reverse ++ cs), rest) := by
  induction cs generalizing acc fuel with
  | nil =>
    cases fuel with
    | zero => omega
    | succ fuel => simp [readQuoted]
  | cons c cs ih =>
    cases fuel with
    | zero => omega
    | succ fuel =>
      rw [List.flatMap_cons, List.append_assoc, readQuoted_escapeChar, ih (c :: acc) (by simpa using hfuel)]
      simp

/-! ### Values -/

theorem ne_of_startsNumber {c d : Char} (hc : c.isDigit = true ∨ c = '-') (hd : (d.isDigit || d == '-') = false) :
    c ≠ d := by
  rintro rfl
  simp_all

/-- A character that a value can start with. -/
def StartsValue (c : Char) : Prop :=
  c ≠ ' ' ∧ c ≠ '\n' ∧ c ≠ '\t' ∧ c ≠ '\r' ∧ c ≠ ']' ∧ c ≠ '\x7d'

theorem skipBlanks_cons {c : Char} (h : c ≠ ' ' ∧ c ≠ '\n' ∧ c ≠ '\t' ∧ c ≠ '\r') (cs : List Char) :
    skipBlanks (c :: cs) = c :: cs := by
  simp [skipBlanks, h]

theorem readValue_of_readNumber {cs rest : List Char} {n : Numeral} (h : readNumber cs = some (n, rest))
    (depth fuel : Nat) : readValue depth (fuel + 1) cs = some (.num n, rest) := by
  obtain ⟨c, tail, rfl, hc⟩ := head_of_readNumber h
  have hother (d : Char) (hd : (d.isDigit || d == '-') = false) : c ≠ d := ne_of_startsNumber hc hd
  have hskip := skipBlanks_cons ⟨hother ' ' (by decide), hother '\n' (by decide), hother '\t' (by decide),
    hother '\r' (by decide)⟩ tail
  rw [readValue, hskip]
  split
  · next heq => exact absurd (List.cons_eq_cons.mp heq).1 (hother _ (by decide))
  · next heq => exact absurd (List.cons_eq_cons.mp heq).1 (hother _ (by decide))
  · next heq => exact absurd (List.cons_eq_cons.mp heq).1 (hother _ (by decide))
  · next heq => exact absurd (List.cons_eq_cons.mp heq).1 (hother _ (by decide))
  · next heq => exact absurd (List.cons_eq_cons.mp heq).1 (hother _ (by decide))
  · next heq => exact absurd (List.cons_eq_cons.mp heq).1 (hother _ (by decide))
  · rw [h]
    rfl

/-- A double whose text is read as a double. -/
def FloatReads (x : Float) : Prop :=
  ∃ y, readNumber (Number.jsonStyle.render x).toList = some (.float y, [])

theorem readNumber_float {x : Float} (h : FloatReads x) :
    readNumber (Number.jsonStyle.render x).toList = some (.float (reread x), []) := by
  obtain ⟨y, hy⟩ := h
  have hparse : parse? (Number.jsonStyle.render x) = some (.num (.float y)) := by
    have hread := readValue_of_readNumber hy maxDepth (2 * (Number.jsonStyle.render x).toList.length + 1)
    dsimp only [parse?]
    rw [hread]
    rfl
  rw [reread, hparse, hy]

mutual

/-- A value that can be read back: its integers are of the size that is read, its doubles are written as
doubles, and the keys of its objects are in order. -/
def Legible : Json → Prop
  | .num (.int n) => IntFits n
  | .num (.float x) => FloatReads x
  | .arr items => LegibleAll items
  | .obj fields => Dict.Ordered fields ∧ LegibleFields fields
  | _ => True

/-- Items that can be read back. -/
def LegibleAll : List Json → Prop
  | [] => True
  | v :: rest => Legible v ∧ LegibleAll rest

/-- Entries that can be read back. -/
def LegibleFields : List (String × Json) → Prop
  | [] => True
  | (_, v) :: rest => Legible v ∧ LegibleFields rest

end

/-- The characters of pieces. -/
def chars (pieces : List String) : List Char :=
  pieces.flatMap String.toList

@[simp] theorem chars_nil : chars [] = [] := rfl

@[simp] theorem chars_cons (s : String) (pieces : List String) : chars (s :: pieces) = s.toList ++ chars pieces :=
  List.flatMap_cons

theorem toList_quote (s : String) : (quote s).toList = '"' :: (s.toList.flatMap escapeChar ++ ['"']) := by
  simp [quote]

theorem readNumber_render {n : Numeral} (h : (Json.num n).Legible) {rest : List Char} (hrest : Ends rest) :
    ∃ m, readNumber (n.render.toList ++ rest) = some (m, rest) ∧ Json.num m = (Json.num n).rereadFloats := by
  cases n with
  | int n => exact ⟨.int n, readNumber_append hrest (readNumber_int h), rfl⟩
  | float x => exact ⟨.float (reread x), readNumber_append hrest (readNumber_float h), rfl⟩

/-- The text of a value starts with a character that a value can start with. -/
theorem chars_compactPieces {v : Json} (hv : v.Legible) {rest : List String} (hrest : Ends (chars rest)) :
    ∃ c cs, chars (compactPieces v rest) = c :: cs ∧ StartsValue c := by
  cases v with
  | null => exact ⟨'n', _, rfl, by simp [StartsValue]⟩
  | bool b =>
    cases b with
    | false => exact ⟨'f', _, rfl, by simp [StartsValue]⟩
    | true => exact ⟨'t', _, rfl, by simp [StartsValue]⟩
  | num n =>
    obtain ⟨m, hread, -⟩ := readNumber_render hv hrest
    obtain ⟨c, cs, heq, hc⟩ := head_of_readNumber hread
    refine ⟨c, cs, heq, ?_⟩
    have hother (d : Char) (hd : (d.isDigit || d == '-') = false) : c ≠ d := ne_of_startsNumber hc hd
    exact ⟨hother _ (by decide), hother _ (by decide), hother _ (by decide), hother _ (by decide),
      hother _ (by decide), hother _ (by decide)⟩
  | str s =>
    refine ⟨'"', s.toList.flatMap escapeChar ++ '"' :: chars rest, ?_, by simp [StartsValue]⟩
    simp [compactPieces, toList_quote]
  | arr items => exact ⟨'[', _, rfl, by simp [StartsValue]⟩
  | obj fields => exact ⟨'\x7b', _, rfl, by simp [StartsValue]⟩

/-- Reading goes on after an item. -/
def afterItem (depth : Nat) (acc : List Json) (fuel : Nat) (cs : List Char) : Option (Json × List Char) :=
  match skipBlanks cs with
  | ',' :: rest => readItems depth acc fuel rest
  | ']' :: rest => some (.arr acc.reverse, rest)
  | _ => none

/-- Reading goes on after an entry. -/
def afterField (depth : Nat) (acc : Dict Json) (fuel : Nat) (cs : List Char) : Option (Json × List Char) :=
  match skipBlanks cs with
  | ',' :: rest => readFields depth acc fuel rest
  | '\x7d' :: rest => some (.obj acc, rest)
  | _ => none

theorem afterItem_comma (depth : Nat) (acc : List Json) (fuel : Nat) (cs : List Char) :
    afterItem depth acc fuel (',' :: cs) = readItems depth acc fuel cs := rfl

theorem afterField_comma (depth : Nat) (acc : Dict Json) (fuel : Nat) (cs : List Char) :
    afterField depth acc fuel (',' :: cs) = readFields depth acc fuel cs := rfl

theorem readItems_of_readValue {depth fuel : Nat} {cs rest : List Char} {v : Json}
    (h : readValue depth fuel cs = some (v, rest)) (acc : List Json) :
    readItems depth acc (fuel + 1) cs = afterItem depth (v :: acc) fuel rest := by
  rw [readItems, h]
  rfl

theorem length_flatMap_escapeChar (cs : List Char) : cs.length ≤ (cs.flatMap escapeChar).length := by
  induction cs with
  | nil => exact Nat.le_refl 0
  | cons c cs ih =>
    have hc : 1 ≤ (escapeChar c).length := by
      unfold escapeChar
      repeat' split
      all_goals simp
    rw [List.flatMap_cons, List.length_append, List.length_cons]
    omega

theorem readQuoted_quote (s : String) (rest : List Char) :
    readQuoted [] ((s.toList.flatMap escapeChar ++ '"' :: rest).length + 1) (s.toList.flatMap escapeChar ++ '"' :: rest) =
      some (s, rest) := by
  rw [readQuoted_flatMap]
  · simp
  · have := length_flatMap_escapeChar s.toList
    rw [List.length_append]
    omega

theorem readFields_of_readValue {depth fuel : Nat} {cs rest : List Char} {v : Json}
    (h : readValue depth fuel cs = some (v, rest)) (acc : Dict Json) (key : String) :
    readFields depth acc (fuel + 1) ((quote key).toList ++ ':' :: cs) = afterField depth (acc.insert key v) fuel rest := by
  have htext : (quote key).toList ++ ':' :: cs = '"' :: (key.toList.flatMap escapeChar ++ '"' :: ':' :: cs) := by
    simp [toList_quote]
  rw [htext, readFields]
  simp only [skipBlanks_cons (show '"' ≠ ' ' ∧ '"' ≠ '\n' ∧ '"' ≠ '\t' ∧ '"' ≠ '\r' by decide), readQuoted_quote,
    skipBlanks_cons (show ':' ≠ ' ' ∧ ':' ≠ '\n' ∧ ':' ≠ '\t' ∧ ':' ≠ '\r' by decide), h]
  rfl

mutual

theorem length_compactPieces : ∀ (v : Json) (rest : List String),
    (chars rest).length ≤ (chars (compactPieces v rest)).length
  | .null, rest | .bool _, rest | .num _, rest | .str _, rest => by
    simp only [compactPieces, chars_cons, List.length_append]
    omega
  | .arr items, rest => by
    have := length_compactItems true items ("]" :: rest)
    simp only [compactPieces, chars_cons, List.length_append] at this ⊢
    omega
  | .obj fields, rest => by
    have := length_compactFields true fields ("\x7d" :: rest)
    simp only [compactPieces, chars_cons, List.length_append] at this ⊢
    omega

theorem length_compactItems : ∀ (first : Bool) (items : List Json) (rest : List String),
    (chars rest).length ≤ (chars (compactItems first items rest)).length
  | _, [], _ => Nat.le_refl _
  | first, v :: vs, rest => by
    have hitem := length_compactPieces v (compactItems false vs rest)
    have hitems := length_compactItems false vs rest
    cases first <;> simp only [compactItems, id, chars_cons, List.length_append, Bool.false_eq_true, ↓reduceIte] <;> omega

theorem length_compactFields : ∀ (first : Bool) (fields : List (String × Json)) (rest : List String),
    (chars rest).length ≤ (chars (compactFields first fields rest)).length
  | _, [], _ => Nat.le_refl _
  | first, (k, v) :: vs, rest => by
    have hentry := length_compactPieces v (compactFields false vs rest)
    have hentries := length_compactFields false vs rest
    cases first <;> simp only [compactFields, id, chars_cons, List.length_append, Bool.false_eq_true, ↓reduceIte] <;> omega

end

theorem ends_compactItems (items : List Json) (rest : List String) :
    Ends (chars (compactItems false items ("]" :: rest))) := by
  cases items with
  | nil => simp [compactItems, Ends]
  | cons v vs => simp [compactItems, Ends]

theorem ends_compactFields (fields : List (String × Json)) (rest : List String) :
    Ends (chars (compactFields false fields ("\x7d" :: rest))) := by
  cases fields with
  | nil => simp [compactFields, Ends]
  | cons entry vs => simp [compactFields, Ends]

theorem readValue_quote (depth fuel : Nat) (cs : List Char) : readValue depth (fuel + 1) ('"' :: cs) =
    (readQuoted [] (cs.length + 1) cs).map fun p => (.str p.1, p.2) := by
  rw [readValue, skipBlanks_cons (by decide)]
  rfl

theorem readValue_bracket {depth : Nat} (hdepth : 1 < depth) (fuel : Nat) (cs : List Char) :
    readValue depth (fuel + 1) ('[' :: cs) = match skipBlanks cs with
      | ']' :: rest => some (.arr [], rest)
      | rest => readItems (depth - 1) [] fuel rest := by
  rw [readValue, skipBlanks_cons (by decide)]
  exact if_neg (Nat.not_le.mpr hdepth)

theorem readValue_brace {depth : Nat} (hdepth : 1 < depth) (fuel : Nat) (cs : List Char) :
    readValue depth (fuel + 1) ('\x7b' :: cs) = match skipBlanks cs with
      | '\x7d' :: rest => some (.obj [], rest)
      | rest => readFields (depth - 1) [] fuel rest := by
  rw [readValue, skipBlanks_cons (by decide)]
  exact if_neg (Nat.not_le.mpr hdepth)

/-- An array that is not empty is read item by item. -/
theorem readValue_items {depth : Nat} (hdepth : 1 < depth) (fuel : Nat) {c : Char} (hc : StartsValue c)
    (cs : List Char) : readValue depth (fuel + 1) ('[' :: c :: cs) = readItems (depth - 1) [] fuel (c :: cs) := by
  obtain ⟨hspace, hline, htab, hreturn, hclosing, -⟩ := hc
  rw [readValue_bracket hdepth, skipBlanks_cons ⟨hspace, hline, htab, hreturn⟩]
  split
  · next heq => exact absurd (List.cons_eq_cons.mp heq).1 hclosing
  · rfl

/-- An object that is not empty is read entry by entry. -/
theorem readValue_fields {depth : Nat} (hdepth : 1 < depth) (fuel : Nat) (key : String) (cs : List Char) :
    readValue depth (fuel + 1) ('\x7b' :: ((quote key).toList ++ cs)) =
      readFields (depth - 1) [] fuel ((quote key).toList ++ cs) := by
  rw [toList_quote, List.cons_append, readValue_brace hdepth, skipBlanks_cons (by decide)]
  rfl

theorem rereadFields_eq (fields : List (String × Json)) : rereadFields fields = Dict.mapValues rereadFloats fields := by
  induction fields with
  | nil => rfl
  | cons entry rest ih =>
    rw [rereadFields, ih]
    rfl

theorem ordered_rereadFields {fields : List (String × Json)} (h : Dict.Ordered fields) :
    Dict.Ordered (rereadFields fields) := by
  unfold Dict.Ordered
  rwa [rereadFields_eq, Dict.keys_mapValues]

theorem rereadFloats_object (entries : List (String × Json)) :
    (object entries).rereadFloats = object (Dict.mapValues rereadFloats entries) := by
  rw [object, rereadFloats, rereadFields_eq, ← Dict.ofList_mapValues]
  rfl

theorem rereadFloats_recordOf (entries : List (String × Option Json)) :
    (recordOf entries).rereadFloats = recordOf (Dict.mapValues (Option.map rereadFloats) entries) := by
  rw [recordOf, rereadFloats_object, mapValues_filterMap]
  rfl

/-- The text of a value leaves fuel for the value. -/
theorem exists_fuel {v : Json} (hv : v.Legible) {rest : List String} (hrest : Ends (chars rest)) {fuel : Nat}
    (hfuel : 2 * (chars (compactPieces v rest)).length ≤ fuel) : ∃ n, fuel = n + 1 := by
  obtain ⟨c, cs, hchars, -⟩ := chars_compactPieces hv hrest
  rw [hchars, List.length_cons] at hfuel
  exact ⟨fuel - 1, by omega⟩

mutual

/-- A value is read from its text, whatever follows: its depth is within what is read, and every value or
separator takes a character and at most two steps. -/
theorem readValue_compact : ∀ (v : Json) {depth fuel : Nat} {rest : List String}, v.Legible → v.depth < depth →
    2 * (chars (compactPieces v rest)).length ≤ fuel → Ends (chars rest) →
    readValue depth fuel (chars (compactPieces v rest)) = some (v.rereadFloats, chars rest)
  | .null, depth, fuel, rest, hv, _, hfuel, hrest => by
    obtain ⟨fuel, rfl⟩ := exists_fuel hv hrest hfuel
    show readValue depth (fuel + 1) ('n' :: 'u' :: 'l' :: 'l' :: chars rest) = _
    rw [readValue, skipBlanks_cons (by decide)]
    rfl
  | .bool false, depth, fuel, rest, hv, _, hfuel, hrest => by
    obtain ⟨fuel, rfl⟩ := exists_fuel hv hrest hfuel
    show readValue depth (fuel + 1) ('f' :: 'a' :: 'l' :: 's' :: 'e' :: chars rest) = _
    rw [readValue, skipBlanks_cons (by decide)]
    rfl
  | .bool true, depth, fuel, rest, hv, _, hfuel, hrest => by
    obtain ⟨fuel, rfl⟩ := exists_fuel hv hrest hfuel
    show readValue depth (fuel + 1) ('t' :: 'r' :: 'u' :: 'e' :: chars rest) = _
    rw [readValue, skipBlanks_cons (by decide)]
    rfl
  | .num n, depth, fuel, rest, hv, _, hfuel, hrest => by
    obtain ⟨fuel, rfl⟩ := exists_fuel hv hrest hfuel
    obtain ⟨m, hread, hm⟩ := readNumber_render hv hrest
    rw [← hm]
    exact readValue_of_readNumber hread depth fuel
  | .str s, depth, fuel, rest, hv, _, hfuel, hrest => by
    obtain ⟨fuel, rfl⟩ := exists_fuel hv hrest hfuel
    have hchars : chars (compactPieces (.str s) rest) = '"' :: (s.toList.flatMap escapeChar ++ '"' :: chars rest) := by
      simp [compactPieces, toList_quote]
    rw [hchars, readValue_quote, readQuoted_quote]
    rfl
  | .arr [], depth, fuel, rest, hv, hdepth, hfuel, hrest => by
    obtain ⟨fuel, rfl⟩ := exists_fuel hv hrest hfuel
    show readValue depth (fuel + 1) ('[' :: ']' :: chars rest) = _
    rw [readValue_bracket hdepth, skipBlanks_cons (by decide)]
    rfl
  | .arr (v :: vs), depth, fuel, rest, hv, hdepth, hfuel, hrest => by
    obtain ⟨fuel, rfl⟩ := exists_fuel hv hrest hfuel
    obtain ⟨hlegible, hlegibles⟩ := hv
    simp only [Json.depth, depthAll] at hdepth
    have hends := ends_compactItems vs rest
    obtain ⟨c, cs, hchars, hc⟩ := chars_compactPieces hlegible hends
    have htext : chars (compactPieces (.arr (v :: vs)) rest) =
        '[' :: chars (compactPieces v (compactItems false vs ("]" :: rest))) := rfl
    rw [htext, List.length_cons] at hfuel
    obtain ⟨fuel, rfl⟩ : ∃ n, fuel = n + 1 := ⟨fuel - 1, by omega⟩
    have hlength := length_compactPieces v (compactItems false vs ("]" :: rest))
    have hitem : readValue (depth - 1) fuel _ = _ := readValue_compact v hlegible (by omega) (by omega) hends
    rw [htext, hchars, readValue_items (by omega) _ hc, ← hchars, readItems_of_readValue hitem]
    exact afterItem_compact vs [v.rereadFloats] hlegibles (by omega) (by omega)
  | .obj [], depth, fuel, rest, hv, hdepth, hfuel, hrest => by
    obtain ⟨fuel, rfl⟩ := exists_fuel hv hrest hfuel
    show readValue depth (fuel + 1) ('\x7b' :: '\x7d' :: chars rest) = _
    rw [readValue_brace hdepth, skipBlanks_cons (by decide)]
    rfl
  | .obj ((k, v) :: vs), depth, fuel, rest, hv, hdepth, hfuel, hrest => by
    obtain ⟨fuel, rfl⟩ := exists_fuel hv hrest hfuel
    obtain ⟨hordered, hlegible, hlegibles⟩ := hv
    simp only [Json.depth, depthFields] at hdepth
    have hends := ends_compactFields vs rest
    have htext : chars (compactPieces (.obj ((k, v) :: vs)) rest) = '\x7b' :: ((quote k).toList ++
        ':' :: chars (compactPieces v (compactFields false vs ("\x7d" :: rest)))) := by
      simp [compactPieces, compactFields]
    rw [htext, List.length_cons, List.length_append, List.length_cons] at hfuel
    obtain ⟨fuel, rfl⟩ : ∃ n, fuel = n + 1 := ⟨fuel - 1, by omega⟩
    have hlength := length_compactPieces v (compactFields false vs ("\x7d" :: rest))
    have hentry : readValue (depth - 1) fuel _ = _ := readValue_compact v hlegible (by omega) (by omega) hends
    have hfields : Dict.overlay [(k, v.rereadFloats)] (rereadFields vs) = rereadFields ((k, v) :: vs) :=
      Dict.overlay_eq_append (ordered_rereadFields hordered)
    rw [htext, readValue_fields (by omega), readFields_of_readValue hentry, rereadFloats, ← hfields]
    exact afterField_compact vs [(k, v.rereadFloats)] hlegibles (by omega) (by omega)

theorem afterItem_compact : ∀ (vs : List Json) {depth fuel : Nat} {rest : List String} (acc : List Json),
    LegibleAll vs → depthAll vs < depth →
    2 * (chars (compactItems false vs ("]" :: rest))).length ≤ fuel →
    afterItem depth acc fuel (chars (compactItems false vs ("]" :: rest))) =
      some (.arr (acc.reverse ++ rereadAll vs), chars rest)
  | [], depth, fuel, rest, acc, _, _, _ => by
    simp [afterItem, compactItems, rereadAll, skipBlanks_cons]
  | v :: vs, depth, fuel, rest, acc, hvs, hdepth, hfuel => by
    obtain ⟨hlegible, hlegibles⟩ := hvs
    simp only [depthAll] at hdepth
    have hends := ends_compactItems vs rest
    have htext : chars (compactItems false (v :: vs) ("]" :: rest)) =
        ',' :: chars (compactPieces v (compactItems false vs ("]" :: rest))) := rfl
    rw [htext, List.length_cons] at hfuel
    obtain ⟨fuel, rfl⟩ : ∃ n, fuel = n + 1 := ⟨fuel - 1, by omega⟩
    have hlength := length_compactPieces v (compactItems false vs ("]" :: rest))
    have hitem : readValue depth fuel _ = _ := readValue_compact v hlegible (by omega) (by omega) hends
    rw [htext, afterItem_comma, readItems_of_readValue hitem,
      afterItem_compact vs (v.rereadFloats :: acc) hlegibles (by omega) (by omega)]
    simp [rereadAll]

theorem afterField_compact : ∀ (vs : List (String × Json)) {depth fuel : Nat} {rest : List String} (acc : Dict Json),
    LegibleFields vs → depthFields vs < depth →
    2 * (chars (compactFields false vs ("\x7d" :: rest))).length ≤ fuel →
    afterField depth acc fuel (chars (compactFields false vs ("\x7d" :: rest))) =
      some (.obj (acc.overlay (rereadFields vs)), chars rest)
  | [], depth, fuel, rest, acc, _, _, _ => by
    simp [afterField, compactFields, rereadFields, skipBlanks_cons, Dict.overlay]
  | (k, v) :: vs, depth, fuel, rest, acc, hvs, hdepth, hfuel => by
    obtain ⟨hlegible, hlegibles⟩ := hvs
    simp only [depthFields] at hdepth
    have hends := ends_compactFields vs rest
    have htext : chars (compactFields false ((k, v) :: vs) ("\x7d" :: rest)) = ',' :: ((quote k).toList ++
        ':' :: chars (compactPieces v (compactFields false vs ("\x7d" :: rest)))) := by
      simp [compactFields]
    rw [htext, List.length_cons, List.length_append, List.length_cons] at hfuel
    obtain ⟨fuel, rfl⟩ : ∃ n, fuel = n + 1 := ⟨fuel - 1, by omega⟩
    have hlength := length_compactPieces v (compactFields false vs ("\x7d" :: rest))
    have hentry : readValue depth fuel _ = _ := readValue_compact v hlegible (by omega) (by omega) hends
    rw [htext, afterField_comma, readFields_of_readValue hentry]
    exact afterField_compact vs (acc.insert k v.rereadFloats) hlegibles (by omega) (by omega)

end

/-- The compact text of a value is read as the value, but for what the texts of its doubles say. -/
theorem parse?_compact_of_legible {v : Json} (hv : v.Legible) (hdepth : v.depth < maxDepth) :
    parse? v.compact = some v.rereadFloats := by
  have hchars : v.compact.toList = chars (compactPieces v []) := String.toList_join
  have hread : readValue maxDepth (2 * (chars (compactPieces v [])).length + 2) _ = some (_, chars []) :=
    readValue_compact v hv hdepth (Nat.le_add_right _ 2) ends_nil
  dsimp only [parse?]
  rw [hchars, hread]
  rfl

end Json

/-- The isolated backend passes what the compact text of a value is read as. -/
theorem Backend.pass_isolated_of_legible {v : Json} (hv : v.Legible) (hdepth : v.depth ≤ maxDepth) :
    Json.parse? v.compact = some (Backend.isolated.pass v) := by
  rw [Json.parse?_compact_of_legible hv (Nat.lt_succ_of_le hdepth), pass, if_pos hdepth]

end ScriptAgent

import ScriptAgent.Json.Equality
import ScriptAgent.Proofs.Dict
import ScriptAgent.Proofs.Number.Integers

/-!
# What values are the same

A JSON value means the same as another if both have the same shape and their numbers have the same values.  Deep
equality compares the doubles nearest to the numbers instead.  That is the same for numbers that are doubles
themselves, so for all integers of at most 53 bits, and not beyond.
-/

namespace ScriptAgent

/-! ### Numbers -/

namespace Numeral

/-- The value of a number. -/
def toRat : Numeral → ℚ
  | .int n => n
  | .float x => Number.toRat x

/-- The value of the double nearest to a number. -/
def rounded (n : Numeral) : ℚ :=
  Number.toRat n.toFloat

/-- A number that is a double. -/
def Exact (n : Numeral) : Prop :=
  n.rounded = n.toRat

/-- A number as values have them: an integer of at most 64 bits or a finite double. -/
def WellFormed : Numeral → Prop
  | .int n => -2 ^ 63 ≤ n ∧ n < 2 ^ 64
  | .float x => Number.isFinite x = true

variable {m n : Numeral}

theorem near_of_wellFormed {n : ℤ} (h : (Numeral.int n).WellFormed) : Number.Near n (Float.ofInt n) := by
  obtain ⟨hlow, hhigh⟩ := h
  refine Number.near_ofInt ?_
  by_cases hn : n.natAbs = 0
  · simp [hn]
  · have : n.natAbs.log2 < 65 := (Nat.log2_lt hn).mpr (by omega)
    omega

theorem WellFormed.finite (h : n.WellFormed) : Number.isFinite n.toFloat = true := by
  cases n with
  | int n => exact (near_of_wellFormed h).finite
  | float x => exact h

/-- An integer of at most 53 bits is a double. -/
theorem exact_int {n : ℤ} (h : n.natAbs ≤ 2 ^ 53) : (Numeral.int n).Exact := by
  have hlog : n.natAbs.log2 ≤ 53 := by
    by_cases hn : n.natAbs = 0
    · simp [hn]
    · exact Nat.lt_succ_iff.mp ((Nat.log2_lt hn).mpr (by omega))
  refine (Number.near_ofInt (by omega)).exact ?_
  rcases Nat.lt_or_ge n.natAbs.log2 53 with hlt | hge
  · have hdrop : n.natAbs.log2 - 52 = 0 := by omega
    simp [hdrop]
  · -- the only such integer with one bit more is a power of two
    have hdrop : n.natAbs.log2 - 52 = 1 := by omega
    have hne : n.natAbs ≠ 0 := by
      rintro hn
      simp [hn] at hge
    have hpow : 2 ^ 53 ≤ n.natAbs := (Nat.le_log2 hne).mp hge
    rw [hdrop, Nat.le_antisymm h hpow]
    exact Dvd.intro (2 ^ 52) (by norm_num)

theorem exact_float (x : Float) : (Numeral.float x).Exact := rfl

theorem WellFormed.beq_iff (hm : m.WellFormed) (hn : n.WellFormed) :
    (m.toFloat == n.toFloat) = true ↔ m.rounded = n.rounded :=
  Number.beq_iff hm.finite hn.finite

/-- Numbers of the same value have the same nearest double. -/
theorem WellFormed.rounded_eq (hm : m.WellFormed) (hn : n.WellFormed) (h : m.toRat = n.toRat) :
    m.rounded = n.rounded := by
  have exact_of_toRat {k : ℤ} {x : Float} (hk : (Numeral.int k).WellFormed) (h : Number.toRat x = k) :
      (Numeral.int k).rounded = k :=
    (near_of_wellFormed hk).exact (Number.dvd_of_toRat h)
  cases m with
  | int k =>
    cases n with
    | int l =>
      obtain rfl : k = l := by simpa [toRat] using h
      rfl
    | float x => exact (exact_of_toRat hm h.symm).trans h
  | float x =>
    cases n with
    | int l => exact h.trans (exact_of_toRat hn h).symm
    | float y => exact h

/-- A number without a fractional part is one whose nearest double is whole. -/
theorem WellFormed.isWhole_iff (h : n.WellFormed) : n.isWhole = true ↔ ∃ k : ℤ, n.rounded = k := by
  cases n with
  | int n => exact iff_of_true rfl (near_of_wellFormed h).whole
  | float x => exact Number.isWhole_iff h

end Numeral

/-! ### Values -/

/-- What a value means, its numbers being taken by their values. -/
inductive Datum where
  | null
  | bool (b : Bool)
  | num (q : ℚ)
  | str (s : String)
  | arr (items : List Datum)
  | obj (fields : List (String × Datum))

namespace Json

/-- A value with numbers of one kind only, whose objects have each key once and in order. -/
inductive Formed (P : Numeral → Prop) : Json → Prop
  | null : Formed P .null
  | bool (b : Bool) : Formed P (.bool b)
  | num {n : Numeral} (h : P n) : Formed P (.num n)
  | str (s : String) : Formed P (.str s)
  | arr {items : List Json} (each : ∀ v ∈ items, Formed P v) : Formed P (.arr items)
  | obj {fields : List (String × Json)} (ordered : Dict.Ordered fields) (each : ∀ e ∈ fields, Formed P e.2) :
      Formed P (.obj fields)

/-- A value as the program can hold it. -/
abbrev WellFormed : Json → Prop :=
  Formed Numeral.WellFormed

mutual

/-- What a value means if each number is worth what `worth` has it. -/
def meaning (worth : Numeral → ℚ) : Json → Datum
  | .null => .null
  | .bool b => .bool b
  | .num n => .num (worth n)
  | .str s => .str s
  | .arr items => .arr (itemMeanings worth items)
  | .obj fields => .obj (fieldMeanings worth fields)

/-- What the items of an array mean. -/
def itemMeanings (worth : Numeral → ℚ) : List Json → List Datum
  | [] => []
  | v :: vs => meaning worth v :: itemMeanings worth vs

/-- What the fields of an object mean. -/
def fieldMeanings (worth : Numeral → ℚ) : List (String × Json) → List (String × Datum)
  | [] => []
  | (key, v) :: rest => (key, meaning worth v) :: fieldMeanings worth rest

end

/-- What a value means. -/
def exact : Json → Datum :=
  meaning Numeral.toRat

/-- What a value means if its numbers are rounded to doubles. -/
def rounded : Json → Datum :=
  meaning Numeral.rounded

variable {P Q : Numeral → Prop} {f g : Numeral → ℚ} {a b v : Json} {items vs ws : List Json}
  {fields : List (String × Json)} {n : Numeral}

theorem itemMeanings_eq (worth : Numeral → ℚ) (items : List Json) :
    itemMeanings worth items = items.map (meaning worth) := by
  induction items with
  | nil => rfl
  | cons v vs ih => rw [itemMeanings, ih, List.map_cons]

theorem fieldMeanings_eq (worth : Numeral → ℚ) (fields : List (String × Json)) :
    fieldMeanings worth fields = Dict.mapValues (meaning worth) fields := by
  induction fields with
  | nil => rfl
  | cons entry rest ih =>
    rw [fieldMeanings, ih]
    rfl

@[simp] theorem meaning_null (worth : Numeral → ℚ) : meaning worth .null = .null := rfl

@[simp] theorem meaning_bool (worth : Numeral → ℚ) (b : Bool) : meaning worth (.bool b) = .bool b := rfl

@[simp] theorem meaning_num (worth : Numeral → ℚ) (n : Numeral) : meaning worth (.num n) = .num (worth n) := rfl

@[simp] theorem meaning_str (worth : Numeral → ℚ) (s : String) : meaning worth (.str s) = .str s := rfl

@[simp] theorem meaning_arr (worth : Numeral → ℚ) (items : List Json) :
    meaning worth (.arr items) = .arr (items.map (meaning worth)) := by
  rw [meaning, itemMeanings_eq]

@[simp] theorem meaning_obj (worth : Numeral → ℚ) (fields : List (String × Json)) :
    meaning worth (.obj fields) = .obj (Dict.mapValues (meaning worth) fields) := by
  rw [meaning, fieldMeanings_eq]

@[simp] theorem rounded_null : Json.null.rounded = .null := rfl

@[simp] theorem rounded_bool (b : Bool) : (Json.bool b).rounded = .bool b := rfl

@[simp] theorem rounded_num (n : Numeral) : (Json.num n).rounded = .num n.rounded := rfl

@[simp] theorem rounded_str (s : String) : (Json.str s).rounded = .str s := rfl

@[simp] theorem rounded_arr (items : List Json) : (Json.arr items).rounded = .arr (items.map rounded) :=
  meaning_arr _ items

@[simp] theorem rounded_obj (fields : List (String × Json)) :
    (Json.obj fields).rounded = .obj (Dict.mapValues rounded fields) :=
  meaning_obj _ fields

/-! ### Well-formed values -/

@[simp] theorem formed_null : Formed P .null := .null

@[simp] theorem formed_bool (b : Bool) : Formed P (.bool b) := .bool b

@[simp] theorem formed_str (s : String) : Formed P (.str s) := .str s

@[simp] theorem formed_num_iff : Formed P (.num n) ↔ P n :=
  ⟨fun h => by cases h with | num h => exact h, .num⟩

@[simp] theorem formed_arr_iff : Formed P (.arr items) ↔ ∀ v ∈ items, Formed P v :=
  ⟨fun h => by cases h with | arr each => exact each, .arr⟩

@[simp] theorem formed_obj_iff : Formed P (.obj fields) ↔ Dict.Ordered fields ∧ ∀ e ∈ fields, Formed P e.2 :=
  ⟨fun h => by cases h with | obj ordered each => exact ⟨ordered, each⟩, fun h => .obj h.1 h.2⟩

theorem Formed.get? (h : Formed P (.obj fields)) {key : String} (hget : Dict.get? fields key = some v) :
    Formed P v :=
  (formed_obj_iff.mp h).2 _ (Dict.mem_of_get? hget)

theorem Formed.mono (hPQ : ∀ n, P n → Q n) (h : Formed P v) : Formed Q v := by
  induction h with
  | null | bool | str => simp
  | num h => exact .num (hPQ _ h)
  | arr each ih => exact .arr ih
  | obj ordered each ih => exact .obj ordered ih

/-- Numbers that are worth the same either way mean the same. -/
theorem Formed.meaning_congr (h : Formed (fun n => f n = g n) v) : meaning f v = meaning g v := by
  induction h with
  | null | bool | str => rfl
  | num h => rw [meaning_num, meaning_num, h]
  | arr each ih => rw [meaning_arr, meaning_arr, List.map_congr_left ih]
  | obj ordered each ih =>
    rw [meaning_obj, meaning_obj]
    exact congrArg Datum.obj (List.map_congr_left fun e he => by rw [ih e he])

theorem map_eq_of_map_eq {α β γ : Type} {F : α → β} {G : α → γ} {as bs : List α}
    (h : ∀ a ∈ as, ∀ b ∈ bs, F a = F b → G a = G b) (heq : as.map F = bs.map F) : as.map G = bs.map G := by
  induction as generalizing bs with
  | nil => cases bs <;> simp_all
  | cons a as ih =>
    cases bs with
    | nil => simp at heq
    | cons b bs =>
      obtain ⟨hfirst, hrest⟩ := List.cons_eq_cons.mp heq
      rw [List.map_cons, List.map_cons, h a (.head _) b (.head _) hfirst,
        ih (fun a ha b hb => h a (.tail _ ha) b (.tail _ hb)) hrest]

/-- Values that mean the same still do so if numbers that were worth the same are. -/
theorem Formed.meaning_eq (hfg : ∀ m n, P m → P n → f m = f n → g m = g n) (ha : Formed P a) (hb : Formed P b)
    (h : meaning f a = meaning f b) : meaning g a = meaning g b := by
  induction ha generalizing b with
  | null | bool | str => cases hb <;> simp_all
  | num hm => cases hb with
    | num hn => simpa using hfg _ _ hm hn (by simpa using h)
    | _ => simp at h
  | arr each ih => cases hb with
    | arr each' =>
      rw [meaning_arr, meaning_arr] at h ⊢
      exact congrArg Datum.arr (map_eq_of_map_eq (fun v hv w hw => ih v hv (each' w hw)) (Datum.arr.inj h))
    | _ => simp at h
  | obj ordered each ih => cases hb with
    | obj ordered' each' =>
      rw [meaning_obj, meaning_obj] at h ⊢
      refine congrArg Datum.obj (map_eq_of_map_eq (fun e he e' he' heq => ?_) (Datum.obj.inj h))
      obtain ⟨hkey, hvalue⟩ := Prod.mk.inj heq
      exact Prod.ext hkey (ih e he (each' e' he') hvalue)
    | _ => simp at h

/-! ### Deep equality -/

theorem equalItems_iff {eq : Numeral → Numeral → Bool} :
    equalItems eq vs ws = true ↔ List.Forall₂ (fun v w => equalBy eq v w = true) vs ws := by
  induction vs generalizing ws with
  | nil => cases ws <;> simp [equalItems]
  | cons v vs ih => cases ws <;> simp [equalItems, ih]

theorem equalFields_iff {eq : Numeral → Numeral → Bool} {other : Dict Json} :
    equalFields eq fields other = true ↔
      ∀ e ∈ fields, ∃ w, other.get? e.1 = some w ∧ equalBy eq e.2 w = true := by
  induction fields with
  | nil => simp [equalFields]
  | cons entry rest ih =>
    rw [equalFields, Bool.and_eq_true, ih, List.forall_mem_cons]
    refine and_congr_left' ?_
    cases other.get? entry.1 <;> simp

theorem forall₂_iff_map_eq {α β : Type} {R : α → α → Prop} {F : α → β} {as bs : List α}
    (h : ∀ a ∈ as, ∀ b ∈ bs, R a b ↔ F a = F b) : List.Forall₂ R as bs ↔ as.map F = bs.map F := by
  induction as generalizing bs with
  | nil => cases bs <;> simp
  | cons a as ih =>
    cases bs with
    | nil => simp
    | cons b bs =>
      have hrest := ih fun a ha b hb => h a (.tail _ ha) b (.tail _ hb)
      simp [h a (.head _) b (.head _), hrest]

/-- Dictionaries in order have the same values under the same keys just if they are as long and each entry of one has
its partner in the other. -/
theorem partners_iff_mapValues_eq {α β : Type} {R : α → α → Prop} {F : α → β} {d e : Dict α} (hd : d.Ordered)
    (he : e.Ordered) (h : ∀ a ∈ d, ∀ b ∈ e, R a.2 b.2 ↔ F a.2 = F b.2) :
    (d.length = e.length ∧ ∀ a ∈ d, ∃ w, e.get? a.1 = some w ∧ R a.2 w) ↔ d.mapValues F = e.mapValues F := by
  constructor
  · rintro ⟨hlength, hpartner⟩
    have hsub : ∀ name ∈ d.keys, name ∈ e.keys := by
      intro name hname
      obtain ⟨a, ha, rfl⟩ := List.mem_map.mp hname
      obtain ⟨w, hw, -⟩ := hpartner a ha
      exact Dict.mem_keys_of_mem (Dict.mem_of_get? hw)
    have hkeys := hd.keys_eq he hsub hlength
    refine (hd.mapValues F).ext (he.mapValues F) fun name => ?_
    rw [Dict.get?_mapValues, Dict.get?_mapValues]
    cases hget : d.get? name with
    | none =>
      have hnone : e.get? name = none := by
        rw [Dict.get?_eq_none_iff, ← hkeys, ← Dict.get?_eq_none_iff]
        exact hget
      rw [hnone]
    | some v =>
      have hv := Dict.mem_of_get? hget
      obtain ⟨w, hw, hR⟩ := hpartner _ hv
      rw [show e.get? name = some w from hw, Option.map_some, Option.map_some,
        (h _ hv _ (Dict.mem_of_get? hw)).mp hR]
  · intro heq
    refine ⟨by simpa [Dict.mapValues] using congrArg List.length heq, fun a ha => ?_⟩
    have hget := congrArg (Dict.get? · a.1) heq
    simp only [Dict.get?_mapValues, hd.get?_of_mem ha, Option.map_some] at hget
    obtain ⟨w, hw, hF⟩ := Option.map_eq_some_iff.mp hget.symm
    exact ⟨w, hw, (h a ha _ (Dict.mem_of_get? hw)).mpr hF.symm⟩

/-- Deep equality by a comparison of what numbers are worth is equality of what the values mean. -/
theorem equalBy_iff {eq : Numeral → Numeral → Bool} (heq : ∀ m n, P m → P n → (eq m n = true ↔ f m = f n))
    (ha : Formed P a) (hb : Formed P b) : equalBy eq a b = true ↔ meaning f a = meaning f b := by
  -- by induction on being well-formed: fields are compared by key, which takes the order of keys on both sides
  induction ha generalizing b with
  | null | bool | str => cases hb <;> simp [equalBy]
  | num hm => cases hb with
    | num hn => simpa [equalBy] using heq _ _ hm hn
    | _ => simp [equalBy]
  | arr each ih => cases hb with
    | arr each' =>
      rw [equalBy, equalItems_iff, meaning_arr, meaning_arr, Datum.arr.injEq]
      exact forall₂_iff_map_eq fun v hv w hw => ih v hv (each' w hw)
    | _ => simp [equalBy]
  | obj ordered each ih => cases hb with
    | obj ordered' each' =>
      rw [equalBy, Bool.and_eq_true, beq_iff_eq, equalFields_iff, meaning_obj, meaning_obj, Datum.obj.injEq]
      exact partners_iff_mapValues_eq (R := fun v w => equalBy eq v w = true) ordered ordered'
        fun e he e' he' => ih e he (each' e' he')
    | _ => simp [equalBy]

/-- Two values are the same to deep equality just if they mean the same with their numbers rounded to doubles. -/
theorem same_iff (ha : a.WellFormed) (hb : b.WellFormed) : same a b = true ↔ a.rounded = b.rounded :=
  equalBy_iff (fun _ _ hm hn => hm.beq_iff hn) ha hb

/-- Values that mean the same exactly do so if their numbers are rounded. -/
theorem rounded_eq_of_exact (ha : a.WellFormed) (hb : b.WellFormed) (h : a.exact = b.exact) : a.rounded = b.rounded :=
  ha.meaning_eq (fun _ _ hm hn => hm.rounded_eq hn) hb h

/-- Where numbers are doubles nothing is rounded. -/
theorem rounded_eq_exact (h : v.Formed Numeral.Exact) : v.rounded = v.exact :=
  h.meaning_congr

end Json

end ScriptAgent

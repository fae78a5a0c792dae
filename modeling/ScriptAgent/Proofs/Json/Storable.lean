import ScriptAgent.Proofs.Json.Text

/-!
# Values that texts keep

A value is kept by its text if it can be read from it, is not nested too deep, and has no double that its text
changes.  A record is kept exactly if all its entries are.
-/

namespace ScriptAgent.Json

variable {v : Json} {n : Nat}

/-- A value that its text keeps, nested at most `n` levels deep. -/
structure Storable (n : Nat) (v : Json) : Prop where
  legible : v.Legible
  rereads : v.rereadFloats = v
  shallow : v.depth ≤ n

/-- What is kept is read back as it was written. -/
theorem Storable.parse?_compact (h : v.Storable n) (hn : n < maxDepth) : parse? v.compact = some v := by
  rw [parse?_compact_of_legible h.legible (Nat.lt_of_le_of_lt h.shallow hn), h.rereads]

/-! ### Scalars -/

@[simp] theorem storable_null : null.Storable n := ⟨trivial, rfl, Nat.zero_le n⟩

@[simp] theorem storable_str (s : String) : (str s).Storable n := ⟨trivial, rfl, Nat.zero_le n⟩

theorem storable_nat {m : Nat} (h : m < UInt64.size) : (nat m).Storable n := by
  have hfits : IntFits m := ⟨by omega, Int.ofNat_lt.mpr h⟩
  exact ⟨hfits, rfl, Nat.zero_le n⟩

/-! ### Records -/

theorem storable_fields_iff {fields : List (String × Json)} :
    (LegibleFields fields ∧ rereadFields fields = fields ∧ depthFields fields ≤ n) ↔
      ∀ entry ∈ fields, entry.2.Storable n := by
  induction fields with
  | nil => simp [LegibleFields, rereadFields, depthFields]
  | cons entry rest ih =>
    obtain ⟨k, v⟩ := entry
    rw [List.forall_mem_cons, ← ih]
    simp only [LegibleFields, rereadFields, depthFields, List.cons.injEq, Prod.mk.injEq, true_and, Nat.max_le]
    exact ⟨fun ⟨⟨hv, hrest⟩, ⟨hsame, hsames⟩, hdepth, hdepths⟩ => ⟨⟨hv, hsame, hdepth⟩, hrest, hsames, hdepths⟩,
      fun ⟨⟨hv, hsame, hdepth⟩, hrest, hsames, hdepths⟩ => ⟨⟨hv, hrest⟩, ⟨hsame, hsames⟩, hdepth, hdepths⟩⟩

theorem storable_obj_iff {fields : List (String × Json)} :
    (obj fields).Storable (n + 1) ↔ Dict.Ordered fields ∧ ∀ entry ∈ fields, entry.2.Storable n := by
  rw [← storable_fields_iff]
  constructor
  · rintro ⟨⟨hordered, hlegible⟩, hsame, hdepth⟩
    exact ⟨hordered, hlegible, Json.obj.inj hsame, Nat.le_of_succ_le_succ hdepth⟩
  · rintro ⟨hordered, hlegible, hsame, hdepth⟩
    exact ⟨⟨hordered, hlegible⟩, congrArg Json.obj hsame, Nat.succ_le_succ hdepth⟩

theorem storable_object_iff {entries : List (String × Json)} (h : (Dict.keys entries).Nodup) :
    (object entries).Storable (n + 1) ↔ ∀ entry ∈ entries, entry.2.Storable n := by
  rw [object, storable_obj_iff]
  constructor
  · rintro ⟨-, hall⟩ entry hentry
    exact hall entry ((Dict.mem_ofList_iff h).mpr hentry)
  · intro hall
    exact ⟨Dict.ordered_ofList entries, fun entry hentry => hall entry ((Dict.mem_ofList_iff h).mp hentry)⟩

/-- A record is kept exactly if each of the entries that are there is. -/
theorem storable_recordOf_iff {entries : List (String × Option Json)} (h : (Dict.keys entries).Nodup) :
    (recordOf entries).Storable (n + 1) ↔ ∀ entry ∈ entries, ∀ v ∈ entry.2, v.Storable n := by
  rw [recordOf, storable_object_iff (h.sublist (keys_filterMap_sublist entries))]
  constructor
  · intro hall entry hentry v hv
    have hentry' : entry.2.map (entry.1, ·) = some (entry.1, v) := congrArg (Option.map (entry.1, ·)) hv
    exact hall (entry.1, v) (List.mem_filterMap.mpr ⟨entry, hentry, hentry'⟩)
  · intro hall entry hentry
    obtain ⟨⟨k, w⟩, hmem, heq⟩ := List.mem_filterMap.mp hentry
    obtain ⟨v, hv, rfl⟩ := Option.map_eq_some_iff.mp heq
    exact hall (k, w) hmem v hv

end ScriptAgent.Json

import Mathlib.Data.List.Sort
import ScriptAgent.Dict

/-!
# Dictionaries in order

In a dictionary each key stands once, after all smaller ones.  Insertion keeps it so, and then entries
put over a dictionary count before its own.
-/

namespace ScriptAgent.Dict

variable {α : Type u} {β : Type v} {d upper : Dict α} {key name : String} {value : α}

/-- Each key stands once, after all smaller ones. -/
def Ordered (d : Dict α) : Prop :=
  d.keys.Pairwise (· < ·)

instance (d : Dict α) : Decidable (Ordered d) :=
  inferInstanceAs (Decidable (d.keys.Pairwise (· < ·)))

@[simp] theorem keys_nil : keys ([] : Dict α) = [] := rfl

@[simp] theorem keys_cons (entry : String × α) (d : Dict α) : keys (entry :: d) = entry.1 :: d.keys := rfl

theorem ordered_cons {entry : String × α} :
    Ordered (entry :: d) ↔ (∀ k ∈ d.keys, entry.1 < k) ∧ Ordered d := by
  simp [Ordered]

theorem mem_keys_of_mem (h : (name, value) ∈ d) : name ∈ d.keys :=
  List.mem_map.mpr ⟨_, h, rfl⟩

theorem mem_of_get? (h : d.get? name = some value) : (name, value) ∈ d := by
  induction d with
  | nil => cases h
  | cons entry rest ih =>
    rw [get?] at h
    split at h
    · next hk =>
      cases h
      rw [← eq_of_beq hk]
      exact .head _
    · exact .tail _ (ih h)

theorem get?_eq_none_iff : d.get? name = none ↔ name ∉ d.keys := by
  induction d with
  | nil => simp [get?]
  | cons entry rest ih =>
    rw [get?, keys_cons, List.mem_cons, not_or, ← ih]
    split
    · next hk => simp [eq_of_beq hk]
    · next hk =>
      have hne : name ≠ entry.1 := fun h => hk (by simp [h])
      simp [hne]

theorem Ordered.nodup (hd : Ordered d) : d.keys.Nodup := by
  refine List.Pairwise.imp (fun {a b} (hlt : a < b) (heq : a = b) => ?_) hd
  exact String.lt_irrefl b (heq ▸ hlt)

theorem get?_of_mem_of_nodup (hd : d.keys.Nodup) (h : (name, value) ∈ d) : d.get? name = some value := by
  induction d with
  | nil => cases h
  | cons entry rest ih =>
    obtain ⟨hfresh, hrest⟩ := List.nodup_cons.mp hd
    rcases List.mem_cons.mp h with rfl | h
    · simp [get?]
    · have hne : entry.1 ≠ name := by
        rintro rfl
        exact hfresh (mem_keys_of_mem h)
      rw [get?, if_neg (by simpa using hne)]
      exact ih hrest h

theorem Ordered.get?_of_mem (hd : Ordered d) (h : (name, value) ∈ d) : d.get? name = some value :=
  get?_of_mem_of_nodup hd.nodup h

/-- Dictionaries in order that have the same under each key are the same. -/
theorem Ordered.ext (hd : Ordered d) {e : Dict α} (he : Ordered e) (h : ∀ name, d.get? name = e.get? name) :
    d = e := by
  have hirrefl : Std.Irrefl fun a b : String × α => a.1 < b.1 := ⟨fun a => String.lt_irrefl a.1⟩
  refine List.Pairwise.eq_of_mem_iff (List.pairwise_map.mp hd) (List.pairwise_map.mp he) fun ⟨name, value⟩ => ?_
  exact ⟨fun hmem => mem_of_get? (h name ▸ hd.get?_of_mem hmem),
    fun hmem => mem_of_get? ((h name).trans (he.get?_of_mem hmem))⟩

/-- Of two dictionaries with as many entries the one cannot have all keys of the other and still more. -/
theorem Ordered.keys_eq (hd : Ordered d) {e : Dict α} (he : Ordered e) (h : ∀ name ∈ d.keys, name ∈ e.keys)
    (hlength : d.length = e.length) : d.keys = e.keys := by
  have hle : e.keys.length ≤ d.keys.length := by simp [keys, hlength]
  have hperm := (List.subperm_of_subset hd.nodup h).perm_of_length_le hle
  have hirrefl : Std.Irrefl fun a b : String => a < b := ⟨String.lt_irrefl⟩
  exact List.Pairwise.eq_of_mem_iff hd he fun name => hperm.mem_iff

/-! ### Insertion -/

theorem mem_keys_insert : name ∈ (d.insert key value).keys ↔ name = key ∨ name ∈ d.keys := by
  induction d with
  | nil => simp [insert]
  | cons entry rest ih =>
    rw [insert]
    split
    · next hk => simp [eq_of_beq hk]
    · split
      · simp
      · simp only [keys_cons, List.mem_cons, ih]
        exact or_left_comm

theorem Ordered.insert (hd : Ordered d) (key : String) (value : α) : Ordered (d.insert key value) := by
  induction d with
  | nil => simp [Ordered, Dict.insert]
  | cons entry rest ih =>
    obtain ⟨hless, hrest⟩ := ordered_cons.mp hd
    rw [Dict.insert]
    split
    · next hk =>
      have : entry.1 = key := eq_of_beq hk
      exact ordered_cons.mpr ⟨this ▸ hless, hrest⟩
    · next hk =>
      split
      · next hlt =>
        refine ordered_cons.mpr ⟨fun k hmem => ?_, hd⟩
        rcases List.mem_cons.mp hmem with rfl | hmem
        · exact hlt
        · exact String.lt_trans hlt (hless k hmem)
      · next hlt =>
        refine ordered_cons.mpr ⟨fun k hmem => ?_, ih hrest⟩
        rcases mem_keys_insert.mp hmem with rfl | hmem
        · have hne : entry.1 ≠ k := by simpa using hk
          exact Std.lt_of_le_of_ne hlt hne
        · exact hless k hmem

/-- Putting in what is there already changes nothing. -/
theorem Ordered.insert_self (hd : Ordered d) (h : d.get? key = some value) : d.insert key value = d := by
  induction d with
  | nil => cases h
  | cons entry rest ih =>
    obtain ⟨hless, hrest⟩ := ordered_cons.mp hd
    rw [get?] at h
    rw [Dict.insert]
    split at h
    · next hk =>
      cases h
      rw [if_pos hk, ← eq_of_beq hk]
    · next hk =>
      have hlt : ¬ key < entry.1 :=
        fun hlt => String.lt_irrefl _ (String.lt_trans hlt (hless key (mem_keys_of_mem (mem_of_get? h))))
      rw [if_neg hk, if_neg hlt, ih hrest h]

/-- An entry whose key is larger than all others comes last. -/
theorem insert_of_all_lt (h : ∀ k ∈ d.keys, k < key) (value : α) : d.insert key value = d ++ [(key, value)] := by
  induction d with
  | nil => rfl
  | cons entry rest ih =>
    obtain ⟨hlt, hrest⟩ := List.forall_mem_cons.mp h
    have hne : (entry.1 == key) = false := beq_false_of_ne fun he => String.lt_irrefl _ (he ▸ hlt)
    have hnot : ¬ key < entry.1 := fun hgt => String.lt_irrefl _ (String.lt_trans hlt hgt)
    rw [insert, hne, if_neg Bool.false_ne_true, if_neg hnot, ih hrest]
    rfl

/-! ### Entries put over others -/

theorem Ordered.lt_of_append (h : Ordered (d ++ upper)) {k l : String} (hk : k ∈ d.keys) (hl : l ∈ upper.keys) :
    k < l := by
  rw [Ordered, keys, List.map_append, List.pairwise_append] at h
  exact h.2.2 k hk l hl

/-- Entries in order that come after all others are put behind them. -/
theorem overlay_eq_append (h : Ordered (d ++ upper)) : d.overlay upper = d ++ upper := by
  induction upper generalizing d with
  | nil => exact (List.append_nil d).symm
  | cons entry rest ih =>
    have hlast : ∀ k ∈ d.keys, k < entry.1 := fun k hk => h.lt_of_append hk List.mem_cons_self
    have happend : d ++ entry :: rest = (d ++ [entry]) ++ rest := by simp
    rw [happend] at h ⊢
    rw [← ih h]
    show (d.insert entry.1 entry.2).overlay rest = _
    rw [insert_of_all_lt hlast]

theorem mem_keys_overlay : name ∈ (d.overlay upper).keys ↔ name ∈ d.keys ∨ name ∈ upper.keys := by
  unfold overlay
  induction upper generalizing d with
  | nil => simp
  | cons entry rest ih =>
    rw [List.foldl_cons, ih, mem_keys_insert, keys_cons, List.mem_cons]
    grind

theorem Ordered.overlay (hd : Ordered d) (upper : Dict α) : Ordered (d.overlay upper) := by
  unfold Dict.overlay
  induction upper generalizing d with
  | nil => exact hd
  | cons entry rest ih => exact ih (hd.insert entry.1 entry.2)

theorem get?_overlay_of_nodup (hupper : upper.keys.Nodup) (d : Dict α) (name : String) :
    (d.overlay upper).get? name = (upper.get? name).or (d.get? name) := by
  induction upper generalizing d with
  | nil => rfl
  | cons entry rest ih =>
    obtain ⟨hfresh, hrest⟩ := List.nodup_cons.mp hupper
    show ((d.insert entry.1 entry.2).overlay rest).get? name = _
    rw [ih hrest, get?]
    by_cases hk : entry.1 = name
    · subst hk
      simp [get?_eq_none_iff.mpr hfresh]
    · rw [get?_insert_of_ne d (Ne.symm hk), if_neg (by simpa using hk)]

theorem get?_overlay (hupper : Ordered upper) (d : Dict α) (name : String) :
    (d.overlay upper).get? name = (upper.get? name).or (d.get? name) :=
  get?_overlay_of_nodup hupper.nodup d name

theorem get?_overlay_of_not_mem (h : name ∉ upper.keys) (d : Dict α) : (d.overlay upper).get? name = d.get? name := by
  induction upper generalizing d with
  | nil => rfl
  | cons entry rest ih =>
    simp only [keys_cons, List.mem_cons, not_or] at h
    show ((d.insert entry.1 entry.2).overlay rest).get? name = _
    rw [ih h.2, get?_insert_of_ne d h.1]

/-- Under a name that entries were put over, one of them stands. -/
theorem exists_get?_overlay (h : name ∈ upper.keys) (d : Dict α) :
    ∃ value, (name, value) ∈ upper ∧ (d.overlay upper).get? name = some value := by
  induction upper generalizing d with
  | nil => cases h
  | cons entry rest ih =>
    by_cases hrest : name ∈ keys rest
    · obtain ⟨value, hmem, hget⟩ := ih hrest (d.insert entry.1 entry.2)
      exact ⟨value, .tail _ hmem, hget⟩
    · obtain rfl : name = entry.1 := by
        rcases List.mem_cons.mp h with rfl | h
        · rfl
        · exact absurd h hrest
      refine ⟨entry.2, .head _, ?_⟩
      show ((d.insert entry.1 entry.2).overlay rest).get? entry.1 = _
      rw [get?_overlay_of_not_mem hrest, get?_insert_self]

/-- Entries put over a dictionary leave it as it is just if it has them already. -/
theorem Ordered.overlay_eq_self_iff (hd : Ordered d) (hupper : Ordered upper) :
    d.overlay upper = d ↔ ∀ name value, (name, value) ∈ upper → d.get? name = some value := by
  refine ⟨fun h name value hmem => ?_, fun h => ?_⟩
  · rw [← h, get?_overlay hupper, hupper.get?_of_mem hmem, Option.some_or]
  · unfold Dict.overlay
    clear hupper
    induction upper with
    | nil => rfl
    | cons entry rest ih =>
      rw [List.foldl_cons, hd.insert_self (h _ _ (.head _))]
      exact ih fun name value hmem => h name value (.tail _ hmem)

theorem ordered_ofList (entries : List (String × α)) : Ordered (ofList entries) :=
  Ordered.overlay (d := []) .nil entries

/-- Of entries with different keys the dictionary holds each. -/
theorem get?_ofList {entries : List (String × α)} (h : (keys entries).Nodup) (name : String) :
    (ofList entries).get? name = get? entries name := by
  have hover := get?_overlay_of_nodup h [] name
  rwa [get?, Option.or_none] at hover

theorem mem_ofList_iff {entries : List (String × α)} (h : (keys entries).Nodup) :
    (name, value) ∈ ofList entries ↔ (name, value) ∈ entries :=
  ⟨fun hmem => mem_of_get? (get?_ofList h name ▸ (ordered_ofList entries).get?_of_mem hmem),
    fun hmem => mem_of_get? ((get?_ofList h name).trans (get?_of_mem_of_nodup h hmem))⟩

/-! ### Changed values -/

@[simp] theorem keys_mapValues (f : α → β) (d : Dict α) : (d.mapValues f).keys = d.keys := by
  rw [mapValues, keys, List.map_map]
  rfl

theorem Ordered.mapValues (hd : Ordered d) (f : α → β) : Ordered (d.mapValues f) := by
  rw [Ordered, keys_mapValues]
  exact hd

theorem get?_mapValues (f : α → β) (d : Dict α) (name : String) : (d.mapValues f).get? name = (d.get? name).map f := by
  induction d with
  | nil => rfl
  | cons entry rest ih =>
    show get? ((entry.1, f entry.2) :: Dict.mapValues f rest) name = _
    rw [get?, get?, ih]
    split <;> rfl

/-- Values may be changed before or after one more of them is put in. -/
theorem insert_mapValues (f : α → β) (d : Dict α) (key : String) (value : α) :
    (d.mapValues f).insert key (f value) = (d.insert key value).mapValues f := by
  induction d with
  | nil => rfl
  | cons entry rest ih =>
    obtain ⟨k, v⟩ := entry
    show insert ((k, f v) :: mapValues f rest) key (f value) = mapValues f (insert ((k, v) :: rest) key value)
    rw [insert, insert]
    split
    · rfl
    · split
      · rfl
      · rw [ih]
        rfl

theorem overlay_mapValues (f : α → β) (d upper : Dict α) :
    (d.mapValues f).overlay (upper.mapValues f) = (d.overlay upper).mapValues f := by
  induction upper generalizing d with
  | nil => rfl
  | cons entry rest ih =>
    show ((d.mapValues f).insert entry.1 (f entry.2)).overlay (mapValues f rest) = _
    rw [insert_mapValues, ih]
    rfl

theorem ofList_mapValues (f : α → β) (entries : List (String × α)) :
    ofList (mapValues f entries) = (ofList entries).mapValues f :=
  overlay_mapValues f [] entries

end ScriptAgent.Dict

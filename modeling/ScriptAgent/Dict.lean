/-!
# Finite maps with ordered text keys

A `Dict` lists its entries by key, smaller code points first, each key once.  Insertion keeps that
order, so two dictionaries with the same entries are the same list.
-/

namespace ScriptAgent

/-- Entries in the order of their keys. -/
abbrev Dict (α : Type u) := List (String × α)

namespace Dict

variable {α : Type u} {β : Type v}

/-- The value stored under a key. -/
def get? : Dict α → String → Option α
  | [], _ => none
  | (k, v) :: rest, key => if k == key then some v else get? rest key

/-- Whether a key is present. -/
def contains (d : Dict α) (key : String) : Bool :=
  (d.get? key).isSome

/-- The entry added, or put in the place of the one with its key. -/
def insert : Dict α → String → α → Dict α
  | [], key, value => [(key, value)]
  | (k, v) :: rest, key, value =>
    if k == key then (key, value) :: rest
    else if key < k then (key, value) :: (k, v) :: rest
    else (k, v) :: insert rest key value

/-- The dictionary without a key. -/
def erase (d : Dict α) (key : String) : Dict α :=
  d.filter fun entry => entry.1 != key

/-- The keys in order. -/
def keys (d : Dict α) : List String :=
  d.map (·.1)

/-- The values in the order of their keys. -/
def values (d : Dict α) : List α :=
  d.map (·.2)

/-- A dictionary of the given entries; the last entry of a key counts. -/
def ofList (entries : List (String × α)) : Dict α :=
  entries.foldl (fun d entry => insert d entry.1 entry.2) []

/-- The first dictionary with the entries of the second put over it. -/
def overlay (d upper : Dict α) : Dict α :=
  upper.foldl (fun d entry => insert d entry.1 entry.2) d

/-- Every value changed by a function. -/
def mapValues (f : α → β) (d : Dict α) : Dict β :=
  d.map fun entry => (entry.1, f entry.2)

@[simp] theorem get?_insert_self (d : Dict α) (key : String) (value : α) :
    (d.insert key value).get? key = some value := by
  fun_induction insert d key value <;> simp_all [get?]

theorem get?_insert_of_ne (d : Dict α) {key other : String} (h : other ≠ key) (value : α) :
    (d.insert key value).get? other = d.get? other := by
  fun_induction insert d key value <;> grind [get?]

end Dict

end ScriptAgent

/-
# Ledgers

A ledger maps keys to values and keeps its keys in the order in which they were
first entered. Entering a key again changes its value and not its place. One
equation per operation says what a look-up finds afterwards.
-/

namespace PointPattern

/-- A map whose keys keep the order in which they were entered. -/
structure Ledger (κ α : Type) where
  entries : List (κ × α) := []
  deriving Repr

namespace Ledger

variable {κ α : Type}

/-- The keys in order. -/
def keys (l : Ledger κ α) : List κ := l.entries.map Prod.fst

/-- Changes the value of a key in its place, or adds the key at the end. -/
def enter [DecidableEq κ] (key : κ) (value : α) : List (κ × α) → List (κ × α)
  | [] => [(key, value)]
  | entry :: rest => if entry.1 = key then (key, value) :: rest else entry :: enter key value rest

variable [DecidableEq κ]

/-- The value of a key. -/
def get? (l : Ledger κ α) (key : κ) : Option α := l.entries.lookup key

/-- Gives a key a value. -/
def put (l : Ledger κ α) (key : κ) (value : α) : Ledger κ α := ⟨enter key value l.entries⟩

/-- Removes a key. -/
def erase (l : Ledger κ α) (key : κ) : Ledger κ α := ⟨l.entries.filter (·.1 ≠ key)⟩

/-- The ledger of a list of pairs, where later pairs overwrite earlier ones. -/
def ofList (pairs : List (κ × α)) : Ledger κ α :=
  pairs.foldl (fun l pair => l.put pair.1 pair.2) ⟨[]⟩

/-- Entering a key changes what is found for this key alone. -/
theorem lookup_enter (key k : κ) (value : α) (entries : List (κ × α)) :
    (enter key value entries).lookup k = if k = key then some value else entries.lookup k := by
  induction entries with
  | nil => grind [enter]
  | cons entry rest ih => grind [enter]

/-- A look-up passes over the entries that a filter removes. -/
theorem lookup_filter_ne (key k : κ) (entries : List (κ × α)) :
    (entries.filter (·.1 ≠ key)).lookup k = if k = key then none else entries.lookup k := by
  induction entries with
  | nil => simp
  | cons entry rest ih => grind

/-- A look-up finds the value that was put last. -/
@[simp] theorem get?_put (l : Ledger κ α) (key k : κ) (value : α) :
    (l.put key value).get? k = if k = key then some value else l.get? k :=
  lookup_enter key k value l.entries

/-- A key that was entered before keeps its place, and a new one comes last. -/
theorem keys_enter (key : κ) (value : α) (entries : List (κ × α)) :
    (enter key value entries).map Prod.fst =
      if key ∈ entries.map Prod.fst then entries.map Prod.fst
      else entries.map Prod.fst ++ [key] := by
  induction entries with
  | nil => simp [enter]
  | cons entry rest ih => grind [enter]

/-- Putting a value adds no key but its own. -/
theorem keys_put (l : Ledger κ α) (key : κ) (value : α) :
    (l.put key value).keys = if key ∈ l.keys then l.keys else l.keys ++ [key] :=
  keys_enter key value l.entries

/-- A look-up finds nothing exactly if the key was never entered. -/
theorem get?_eq_none_iff (l : Ledger κ α) (key : κ) : l.get? key = none ↔ key ∉ l.keys := by
  simp only [get?, List.lookup_eq_none_iff, keys, List.mem_map, bne_iff_ne]
  constructor
  · rintro different ⟨entry, mem, rfl⟩
    exact different entry mem rfl
  · intro absent entry mem same
    exact absent ⟨entry, mem, same.symm⟩

/-- An erased key is gone, and all others are as before. -/
@[simp] theorem get?_erase (l : Ledger κ α) (key k : κ) :
    (l.erase key).get? k = if k = key then none else l.get? k :=
  lookup_filter_ne key k l.entries

end Ledger

end PointPattern

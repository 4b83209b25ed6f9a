import Archflow.Entries

/-!
Tables from names to items. A table lists its entries in increasing order of the names, so two
tables with the same look-ups are equal and every listing of a table is in that order.
-/
namespace Archflow

/-- A finite map from names to items, listed in increasing order of the names. -/
structure Table (α : Type) where
  entries : Entries α
  ordered : entries.Ordered

namespace Table

variable {α β : Type}

def empty : Table α := ⟨[], .nil⟩

instance : EmptyCollection (Table α) := ⟨empty⟩
instance : Inhabited (Table α) := ⟨empty⟩

@[ext] theorem ext {s t : Table α} (h : s.entries = t.entries) : s = t := by
  cases s; cases t; cases h; rfl

instance [DecidableEq α] : DecidableEq (Table α) := fun s t =>
  decidable_of_iff (s.entries = t.entries) ⟨ext, fun h => h ▸ rfl⟩

def get? (table : Table α) (name : String) : Option α := table.entries.lookup name

def contains (table : Table α) (name : String) : Bool := (table.get? name).isSome

def insert (table : Table α) (name : String) (item : α) : Table α :=
  ⟨table.entries.insert name item, table.ordered.insert name item⟩

def map (table : Table α) (f : String → α → β) : Table β :=
  ⟨table.entries.map fun entry => (entry.1, f entry.1 entry.2), table.ordered.map f⟩

def modify (table : Table α) (name : String) (f : α → α) : Table α :=
  table.map fun key item => if key = name then f item else item

/-- The table with the given entries; the last item given for a name stays. -/
def ofList (pairs : List (String × α)) : Table α := ⟨.ofList pairs, .ofList pairs⟩

def insertAll (table : Table α) (pairs : List (String × α)) : Table α :=
  pairs.foldl (fun table pair => table.insert pair.1 pair.2) table

def toList (table : Table α) : List (String × α) := table.entries

def keys (table : Table α) : List String := table.entries.map Prod.fst

def items (table : Table α) : List α := table.entries.map Prod.snd

def size (table : Table α) : Nat := table.entries.length

theorem ext_get? {s t : Table α} (h : ∀ name, s.get? name = t.get? name) : s = t :=
  ext (s.ordered.eq_of_lookup_eq t.ordered h)

@[simp] theorem get?_empty (name : String) : (empty : Table α).get? name = none := rfl

@[simp] theorem get?_insert (table : Table α) (name other : String) (item : α) :
    (table.insert name item).get? other = if other = name then some item else table.get? other :=
  Entries.lookup_insert ..

theorem get?_ofList_eq_some_iff {pairs : List (String × α)} (hdistinct : (pairs.map Prod.fst).Nodup)
    {name : String} {item : α} : (ofList pairs).get? name = some item ↔ (name, item) ∈ pairs := by
  rw [get?, ofList, Entries.lookup_ofList]
  constructor
  · intro h
    exact List.mem_reverse.1 (Entries.mem_of_lookup h)
  · intro hmem
    apply Entries.lookup_of_mem
    · rw [List.map_reverse]
      exact List.pairwise_reverse.2 (hdistinct.imp Ne.symm)
    · exact List.mem_reverse.2 hmem

/-- What is inserted hides what the table had under that name. -/
theorem get?_insertAll (table : Table α) (pairs : List (String × α)) (name : String) :
    (table.insertAll pairs).get? name = ((ofList pairs).get? name).or (table.get? name) := by
  have hpairs : (ofList pairs).get? name = Entries.lookup name pairs.reverse :=
    Entries.lookup_ofList name pairs
  rw [hpairs, insertAll, List.foldl_eq_foldr_reverse]
  induction pairs.reverse with
  | nil => rfl
  | cons pair rest ih =>
    rw [List.foldr_cons, get?_insert, ih, Entries.lookup]
    split <;> rfl

/-- Every entry is found under its name, as no name is listed twice. -/
theorem get?_of_mem {table : Table α} {name : String} {item : α} (h : (name, item) ∈ table.toList) :
    table.get? name = some item :=
  Entries.lookup_of_mem table.ordered.nodup_keys h

theorem mem_keys_of_contains {table : Table α} {name : String} (h : table.contains name) :
    name ∈ table.keys := by
  unfold contains get? at h
  unfold keys
  generalize table.entries = entries at h ⊢
  induction entries with
  | nil => simp [Entries.lookup] at h
  | cons entry rest ih =>
    simp only [Entries.lookup] at h
    split at h
    · next heq => simp [heq]
    · exact List.mem_cons_of_mem _ (ih h)

@[simp] theorem keys_map (table : Table α) (f : String → α → β) : (table.map f).keys = table.keys := by
  simp [keys, map, Function.comp_def]

@[simp] theorem keys_modify (table : Table α) (name : String) (f : α → α) :
    (table.modify name f).keys = table.keys := keys_map ..

@[simp] theorem get?_map (table : Table α) (f : String → α → β) (name : String) :
    (table.map f).get? name = (table.get? name).map (f name) := Entries.lookup_map ..

@[simp] theorem get?_modify (table : Table α) (name other : String) (f : α → α) :
    (table.modify name f).get? other =
      if other = name then (table.get? other).map f else table.get? other := by
  rw [modify, get?_map]
  by_cases h : other = name <;> simp [h]

/-- Every item is stored under its own name. -/
def Keyed (name : α → String) (table : Table α) : Prop :=
  ∀ key item, table.get? key = some item → name item = key

theorem keyed_empty (name : α → String) : Keyed name ∅ := by
  intro key item hfound
  cases hfound

theorem Keyed.insert {name : α → String} {table : Table α} (h : Keyed name table) (item : α) :
    Keyed name (table.insert (name item) item) := by
  intro key other hfound
  rw [get?_insert] at hfound
  split at hfound
  · next hkey =>
    cases hfound
    exact hkey.symm
  · exact h key other hfound

end Table
end Archflow

/-!
Association lists keyed by names and kept in increasing order of their keys. The operations
here are shared by `Table`, which carries the order as a proof, and by record values, which
store such a list directly.

Main statements: `lookup_insert` says what an insertion does to every look-up, `Ordered.insert`
that it keeps the keys strictly increasing, and `Ordered.eq_of_lookup_eq` that the look-ups
determine an ordered list.
-/
namespace Archflow

abbrev Entries (α : Type) := List (String × α)

namespace Entries

variable {α β : Type}

/-- The keys are strictly increasing, so each occurs once. -/
def Ordered (entries : Entries α) : Prop := entries.Pairwise fun a b => a.1 < b.1

def lookup (name : String) : Entries α → Option α
  | [] => none
  | (key, item) :: rest => if name = key then some item else lookup name rest

/-- Store an item under a name, at the place its key has in the order; an item already stored
under that name is replaced. -/
def insert (name : String) (item : α) : Entries α → Entries α
  | [] => [(name, item)]
  | (key, old) :: rest =>
      if name < key then (name, item) :: (key, old) :: rest
      else if name = key then (name, item) :: rest
      else (key, old) :: insert name item rest

/-- Insert the pairs one after the other, so the last item given for a name stays. -/
def ofList (pairs : List (String × α)) : Entries α :=
  pairs.foldl (fun entries pair => insert pair.1 pair.2 entries) []

theorem mem_insert {name : String} {item : α} {entry : String × α} {entries : Entries α}
    (h : entry ∈ insert name item entries) : entry = (name, item) ∨ entry ∈ entries := by
  induction entries with
  | nil => simpa [insert] using h
  | cons head rest ih =>
    obtain ⟨key, old⟩ := head
    simp only [insert] at h
    split at h
    · simpa using h
    · split at h
      · rcases List.mem_cons.1 h with h | h
        · exact .inl h
        · exact .inr (List.mem_cons_of_mem _ h)
      · rcases List.mem_cons.1 h with h | h
        · exact .inr (h ▸ List.mem_cons_self ..)
        · exact (ih h).imp_right (List.mem_cons_of_mem _)

private theorem lt_of_not_lt_of_ne {a b : String} (hlt : ¬ a < b) (hne : a ≠ b) : b < a := by
  have hle := String.not_lt.1 hlt
  rcases Decidable.em (b < a) with h | h
  · exact h
  · exact absurd (String.le_antisymm (String.not_lt.1 h) hle) hne

theorem Ordered.nil : Ordered ([] : Entries α) := List.Pairwise.nil

theorem Ordered.insert {entries : Entries α} (h : Ordered entries) (name : String) (item : α) :
    Ordered (entries.insert name item) := by
  induction entries with
  | nil => exact List.pairwise_singleton ..
  | cons head rest ih =>
    obtain ⟨key, old⟩ := head
    have hrest := List.pairwise_cons.1 h
    simp only [Entries.insert]
    split
    · next hlt =>
      refine List.pairwise_cons.2 ⟨fun entry hmem => ?_, h⟩
      rcases List.mem_cons.1 hmem with rfl | hmem
      · exact hlt
      · exact String.lt_trans hlt (hrest.1 entry hmem)
    · split
      · next heq =>
        subst heq
        exact List.pairwise_cons.2 ⟨hrest.1, hrest.2⟩
      · next hlt hne =>
        refine List.pairwise_cons.2 ⟨fun entry hmem => ?_, ih hrest.2⟩
        rcases mem_insert hmem with rfl | hmem
        · exact lt_of_not_lt_of_ne hlt hne
        · exact hrest.1 entry hmem

theorem Ordered.map {entries : Entries α} (h : Ordered entries) (f : String → α → β) :
    Ordered (entries.map fun entry => (entry.1, f entry.1 entry.2)) :=
  List.pairwise_map.2 h

theorem Ordered.ofList (pairs : List (String × α)) : Ordered (Entries.ofList pairs) := by
  suffices h : ∀ entries : Entries α, Ordered entries →
      Ordered (pairs.foldl (fun entries pair => Entries.insert pair.1 pair.2 entries) entries) from
    h [] .nil
  induction pairs with
  | nil => exact fun _ h => h
  | cons pair rest ih => exact fun entries h => ih _ (h.insert pair.1 pair.2)

theorem Ordered.nodup_keys {entries : Entries α} (h : Ordered entries) :
    (entries.map Prod.fst).Nodup := by
  refine List.pairwise_map.2 (h.imp fun {first second} hlt heq => ?_)
  rw [heq] at hlt
  exact String.lt_irrefl _ hlt

theorem mem_of_lookup {name : String} {item : α} {entries : Entries α}
    (h : entries.lookup name = some item) : (name, item) ∈ entries := by
  induction entries with
  | nil => cases h
  | cons entry rest ih =>
    obtain ⟨key, found⟩ := entry
    rw [lookup] at h
    split at h
    · next hkey =>
      cases h
      rw [hkey]
      exact List.mem_cons_self
    · exact List.mem_cons_of_mem _ (ih h)

/-- After an insertion the name leads to the new item and every other name to what it led to
before. -/
@[simp] theorem lookup_insert (name other : String) (item : α) (entries : Entries α) :
    (entries.insert name item).lookup other =
      if other = name then some item else entries.lookup other := by
  induction entries with
  | nil => simp [insert, lookup]
  | cons head rest ih =>
    obtain ⟨key, old⟩ := head
    simp only [insert]
    split
    · simp [lookup]
    · split
      · next heq =>
        subst heq
        by_cases h : other = name <;> simp [lookup, h]
      · next hne =>
        by_cases h : other = key
        · subst h
          simp [lookup, Ne.symm hne]
        · simp [lookup, h, ih]

theorem lookup_eq_none_of_lt {name : String} {entries : Entries α}
    (h : ∀ entry ∈ entries, name < entry.1) : entries.lookup name = none := by
  induction entries with
  | nil => rfl
  | cons head rest ih =>
    obtain ⟨key, item⟩ := head
    have hlt : name < key := h _ (List.mem_cons_self ..)
    have hne : name ≠ key := fun heq => String.lt_irrefl _ (heq ▸ hlt)
    rw [lookup, if_neg hne]
    exact ih fun entry hmem => h entry (List.mem_cons_of_mem _ hmem)

private theorem head_not_lt {key key' : String} {item item' : α} {rest rest' : Entries α}
    (h : Ordered ((key', item') :: rest'))
    (heq : ∀ name, lookup name ((key, item) :: rest) = lookup name ((key', item') :: rest')) :
    ¬ key < key' := by
  intro hlt
  have hnone : lookup key ((key', item') :: rest') = none := by
    refine lookup_eq_none_of_lt fun entry hmem => ?_
    rcases List.mem_cons.1 hmem with rfl | hmem
    · exact hlt
    · exact String.lt_trans hlt ((List.pairwise_cons.1 h).1 entry hmem)
  have := heq key
  rw [hnone, lookup, if_pos rfl] at this
  exact Option.some_ne_none _ this

theorem Ordered.eq_of_lookup_eq {entries entries' : Entries α} (h : Ordered entries)
    (h' : Ordered entries') (heq : ∀ name, entries.lookup name = entries'.lookup name) :
    entries = entries' := by
  induction entries generalizing entries' with
  | nil =>
    cases entries' with
    | nil => rfl
    | cons head rest =>
      have := heq head.1
      simp [lookup] at this
  | cons head rest ih =>
    cases entries' with
    | nil =>
      have := heq head.1
      simp [lookup] at this
    | cons head' rest' =>
      obtain ⟨key, item⟩ := head
      obtain ⟨key', item'⟩ := head'
      have hkey : key = key' := by
        by_cases hne : key = key'
        · exact hne
        · exact absurd (lt_of_not_lt_of_ne (head_not_lt h' heq) hne)
            (head_not_lt h fun name => (heq name).symm)
      subst hkey
      have hitem : item = item' := by simpa [lookup] using heq key
      subst hitem
      have hrest : rest = rest' := by
        refine ih (List.pairwise_cons.1 h).2 (List.pairwise_cons.1 h').2 fun name => ?_
        by_cases hname : name = key
        · subst hname
          rw [lookup_eq_none_of_lt (List.pairwise_cons.1 h).1,
            lookup_eq_none_of_lt (List.pairwise_cons.1 h').1]
        · simpa [lookup, hname] using heq name
      rw [hrest]

theorem lookup_of_mem {name : String} {item : α} {entries : Entries α}
    (hdistinct : (entries.map Prod.fst).Nodup) (hmem : (name, item) ∈ entries) :
    entries.lookup name = some item := by
  induction entries with
  | nil => cases hmem
  | cons entry rest ih =>
    rw [List.map_cons, List.nodup_cons] at hdistinct
    rcases List.mem_cons.1 hmem with rfl | hrest
    · simp [lookup]
    · have hne : name ≠ entry.1 := by
        intro heq
        exact hdistinct.1 (heq ▸ List.mem_map_of_mem hrest)
      rw [lookup, if_neg hne]
      exact ih hdistinct.2 hrest

theorem lookup_ofList (name : String) (pairs : List (String × α)) :
    (ofList pairs).lookup name = lookup name pairs.reverse := by
  rw [ofList, List.foldl_eq_foldr_reverse]
  induction pairs.reverse with
  | nil => rfl
  | cons pair rest ih => simp [lookup, ih]

theorem lookup_map (f : String → α → β) (name : String) (entries : Entries α) :
    lookup name (entries.map fun entry => (entry.1, f entry.1 entry.2)) =
      (entries.lookup name).map (f name) := by
  induction entries with
  | nil => rfl
  | cons head rest ih =>
    obtain ⟨key, item⟩ := head
    by_cases h : name = key
    · subst h; simp [lookup]
    · simpa [lookup, h] using ih

end Entries
end Archflow

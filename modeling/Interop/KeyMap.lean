/-
# Maps from texts, listed in ascending order

A `KeyMap` keeps its keys in strictly ascending order, the order of their code
points, so it has one form for each finite map and lists it in that order.
`get?_insert` and `get?_erase` say what the two updates do to a look-up.

The functions on plain lists of pairs at the top are also used where such a list
is part of a larger tree.
-/

namespace Interop

universe u v

/-- Puts `value` under `key` into a list with ascending keys, replacing what
stands there. -/
def insertSorted {α : Type u} (key : String) (value : α) :
    List (String × α) → List (String × α)
  | [] => [(key, value)]
  | entry :: rest =>
    if key < entry.1 then (key, value) :: entry :: rest
    else if key = entry.1 then (key, value) :: rest
    else entry :: insertSorted key value rest

/-- The first value that stands under `key`. -/
def findEntry {α : Type u} (key : String) : List (String × α) → Option α
  | [] => none
  | entry :: rest => if key = entry.1 then some entry.2 else findEntry key rest

/-- Strictly ascending keys. -/
def Ascending {α : Type u} (entries : List (String × α)) : Prop :=
  entries.Pairwise fun a b => a.1 < b.1

/-- The order of keys is total. -/
theorem lt_of_not_lt_of_ne {a b : String} (h : ¬ a < b) (hne : a ≠ b) : b < a := by
  rcases String.le_total a b with hle | hle
  · exact absurd (String.le_antisymm hle (String.not_lt.mp h)) hne
  · refine Decidable.byContradiction fun hb => hne ?_
    exact String.le_antisymm (String.not_lt.mp hb) hle

/-- An insertion brings in one entry at most. -/
theorem mem_insertSorted {α : Type u} {key : String} {value : α} {entries : List (String × α)}
    {e : String × α} (h : e ∈ insertSorted key value entries) :
    e = (key, value) ∨ e ∈ entries := by
  induction entries with
  | nil => simpa [insertSorted] using h
  | cons x rest ih =>
    simp only [insertSorted] at h
    split at h
    · simpa using h
    · split at h
      · rcases List.mem_cons.1 h with h | h
        · exact Or.inl h
        · exact Or.inr (List.mem_cons_of_mem _ h)
      · rcases List.mem_cons.1 h with h | h
        · exact Or.inr (h ▸ List.mem_cons_self)
        · exact (ih h).imp id (List.mem_cons_of_mem _)

/-- An insertion keeps the keys in ascending order. -/
theorem Ascending.insertSorted {α : Type u} {key : String} {value : α}
    {entries : List (String × α)} (h : Ascending entries) :
    Ascending (insertSorted key value entries) := by
  induction entries with
  | nil => simp [Interop.insertSorted, Ascending]
  | cons x rest ih =>
    have hx := List.pairwise_cons.1 h
    simp only [Interop.insertSorted]
    split
    · rename_i hlt
      refine List.pairwise_cons.2 ⟨fun e he => ?_, h⟩
      rcases List.mem_cons.1 he with rfl | he
      · exact hlt
      · exact String.lt_trans hlt (hx.1 e he)
    · split
      · rename_i heq
        exact List.pairwise_cons.2 ⟨fun e he => heq ▸ hx.1 e he, hx.2⟩
      · rename_i hlt hne
        refine List.pairwise_cons.2 ⟨fun e he => ?_, ih hx.2⟩
        rcases mem_insertSorted he with rfl | he
        · exact lt_of_not_lt_of_ne hlt hne
        · exact hx.1 e he

/-- The list with ascending keys in which the later of two values under one key
wins. -/
def sortEntries {α : Type u} (entries : List (String × α)) : List (String × α) :=
  entries.foldl (fun acc e => insertSorted e.1 e.2 acc) []

/-- Entries that were sorted have ascending keys. -/
theorem ascending_sortEntries {α : Type u} (entries : List (String × α)) :
    Ascending (sortEntries entries) := by
  suffices ∀ acc : List (String × α), Ascending acc →
      Ascending (entries.foldl (fun acc e => Interop.insertSorted e.1 e.2 acc) acc) from
    this [] List.Pairwise.nil
  induction entries with
  | nil => exact fun _ h => h
  | cons e rest ih => exact fun acc h => ih _ h.insertSorted

/-- A finite map from texts to `α`. -/
structure KeyMap (α : Type u) where
  /-- The pairs of the map. -/
  entries : List (String × α)
  ascending : Ascending entries

namespace KeyMap

variable {α : Type u} {β : Type v}

/-- The map without a key. -/
def empty : KeyMap α := ⟨[], List.Pairwise.nil⟩

/-- The map of the pairs in `entries`, the later of two under one key winning. -/
def ofList (entries : List (String × α)) : KeyMap α :=
  ⟨sortEntries entries, ascending_sortEntries entries⟩

/-- The value under `key`. -/
def get? (m : KeyMap α) (key : String) : Option α :=
  findEntry key m.entries

/-- Whether there is a value under `key`. -/
def contains (m : KeyMap α) (key : String) : Bool :=
  (m.get? key).isSome

/-- The map with `value` under `key`. -/
def insert (m : KeyMap α) (key : String) (value : α) : KeyMap α :=
  ⟨insertSorted key value m.entries, m.ascending.insertSorted⟩

/-- The map with nothing under `key`. -/
def erase (m : KeyMap α) (key : String) : KeyMap α :=
  ⟨m.entries.filter fun e => e.1 != key, m.ascending.filter _⟩

/-- The keys, ascending. -/
def keys (m : KeyMap α) : List String :=
  m.entries.map (·.1)

/-- The values in the order of their keys. -/
def values (m : KeyMap α) : List α :=
  m.entries.map (·.2)

/-- The number of keys. -/
def size (m : KeyMap α) : Nat :=
  m.entries.length

/-- The map with every value changed by `f`. -/
def map (m : KeyMap α) (f : α → β) : KeyMap β :=
  ⟨m.entries.map fun e => (e.1, f e.2), List.pairwise_map.2 (m.ascending.imp id)⟩

/-- After an insertion the key has the new value, and every other key has the value it had. -/
theorem get?_insert (m : KeyMap α) (key other : String) (value : α) :
    (m.insert key value).get? other = if other = key then some value else m.get? other := by
  obtain ⟨entries, h⟩ := m
  simp only [get?, insert]
  clear h
  induction entries with
  | nil => simp [insertSorted, findEntry]
  | cons e rest ih =>
    simp only [insertSorted]
    split
    · simp [findEntry]
    · split
      · rename_i heq
        subst heq
        by_cases ho : other = e.1 <;> simp [findEntry, ho]
      · rename_i hne
        by_cases he : other = e.1
        · have hk : e.1 ≠ key := fun h => hne h.symm
          simp [findEntry, he, hk]
        · simp [findEntry, he, ih]

/-- After an erasure the key has no value, and every other key has the value it had. -/
theorem get?_erase (m : KeyMap α) (key other : String) :
    (m.erase key).get? other = if other = key then none else m.get? other := by
  obtain ⟨entries, h⟩ := m
  simp only [get?, erase]
  clear h
  induction entries with
  | nil => simp [findEntry]
  | cons e rest ih =>
    by_cases he : e.1 = key
    · by_cases ho : other = key <;> simp [findEntry, he, ho] at ih ⊢ <;> exact ih
    · by_cases ho : other = e.1
      · have hk : e.1 ≠ key := he
        simp [findEntry, hk, ho]
      · simp [findEntry, he, ho, ih]

end KeyMap

end Interop

/-
# Keys and their order

A map finds under a key what its list of entries has there, and nothing else.  Inserting and
erasing change the values by the new one and the one that was there (`KeyMap.values_insert`,
`KeyMap.values_erase`).

Maps list their keys in the order of code points.  This is the order of the bytes of the
texts: UTF-8 marks longer characters by a greater first byte, and characters of one length
keep their order from the first byte on (`Text.charBytes_lt`).  So the keys of a map are in the
order of their bytes (`KeyMap.sort_keys`).
-/

import Interop.KeyMap
import Mathlib.Data.List.Lex
import Mathlib.Data.Finset.Sort
import Mathlib.Data.Multiset.AddSub
import Mathlib.Tactic.SplitIfs

namespace Interop

/-! ### Entries -/

/-- An entry that is found is among the entries. -/
theorem mem_of_findEntry {α : Type} {key : String} {value : α} {entries : List (String × α)}
    (h : findEntry key entries = some value) : (key, value) ∈ entries := by
  induction entries with
  | nil => exact absurd h (by simp [findEntry])
  | cons e rest ih =>
    rw [findEntry] at h
    split_ifs at h with hkey
    · obtain rfl := Option.some.inj h
      rw [hkey]
      exact List.mem_cons_self
    · exact List.mem_cons_of_mem e (ih h)

namespace KeyMap

variable {α : Type} {m : KeyMap α} {key : String} {value : α}

/-- A key has the value of its entry. -/
theorem get?_of_mem_entries (h : (key, value) ∈ m.entries) : m.get? key = some value := by
  obtain ⟨entries, hasc⟩ := m
  show findEntry key entries = some value
  replace h : (key, value) ∈ entries := h
  induction entries with
  | nil => exact absurd h List.not_mem_nil
  | cons e rest ih =>
    have hrest := List.pairwise_cons.1 hasc
    rw [findEntry]
    split_ifs with heq
    · rcases List.mem_cons.1 h with rfl | h
      · rfl
      · -- the other entries stand under greater keys
        exact absurd (heq ▸ hrest.1 _ h) (String.lt_irrefl e.1)
    · rcases List.mem_cons.1 h with rfl | h
      · exact absurd rfl heq
      · exact ih hrest.2 h

/-- The value of a key is among the values. -/
theorem mem_values_of_get? (h : m.get? key = some value) : value ∈ m.values :=
  List.mem_map_of_mem (mem_of_findEntry h)

/-- Every value is that of a key. -/
theorem get?_of_mem_values (h : value ∈ m.values) : ∃ key, m.get? key = some value := by
  obtain ⟨⟨key, _⟩, he, rfl⟩ := List.mem_map.1 h
  exact ⟨key, get?_of_mem_entries he⟩

/-- The keys are those that have a value. -/
theorem mem_keys_iff : key ∈ m.keys ↔ (m.get? key).isSome := by
  rw [Option.isSome_iff_exists]
  constructor
  · intro h
    obtain ⟨⟨_, value⟩, he, rfl⟩ := List.mem_map.1 h
    exact ⟨value, get?_of_mem_entries he⟩
  · rintro ⟨value, h⟩
    exact List.mem_map_of_mem (mem_of_findEntry h)

/-- The keys are in ascending order. -/
theorem keys_ascending (m : KeyMap α) : m.keys.Pairwise (· < ·) :=
  List.pairwise_map.2 m.ascending

/-- No key occurs twice. -/
theorem keys_nodup (m : KeyMap α) : m.keys.Nodup := by
  have hne : ∀ {a b : String}, a < b → a ≠ b := by
    rintro a _ hlt rfl
    exact String.lt_irrefl a hlt
  exact m.keys_ascending.imp hne

/-- A key before all others has no value. -/
theorem findEntry_of_lt {entries : List (String × α)} (h : ∀ e ∈ entries, key < e.1) :
    findEntry key entries = none := by
  induction entries with
  | nil => rfl
  | cons e rest ih =>
    have hne : key ≠ e.1 := by
      rintro rfl
      exact String.lt_irrefl _ (h e List.mem_cons_self)
    rw [findEntry, if_neg hne]
    exact ih fun x hx => h x (List.mem_cons_of_mem e hx)

/-- A value that is put in takes the place of the one that was there. -/
theorem values_insert (m : KeyMap α) (key : String) (value : α) :
    ((m.insert key value).values : Multiset α) + ((m.get? key).toList : Multiset α) =
      value ::ₘ (m.values : Multiset α) := by
  obtain ⟨entries, hasc⟩ := m
  show (((insertSorted key value entries).map (·.2) : List α) : Multiset α) +
    ((findEntry key entries).toList : Multiset α) =
      value ::ₘ ((entries.map (·.2) : List α) : Multiset α)
  induction entries with
  | nil => rfl
  | cons e rest ih =>
    have hrest := List.pairwise_cons.1 hasc
    rw [insertSorted]
    split_ifs with hlt heq
    · have hnone : findEntry key (e :: rest) = none := by
        refine findEntry_of_lt fun x hx => ?_
        rcases List.mem_cons.1 hx with rfl | hx
        · exact hlt
        · exact String.lt_trans hlt (hrest.1 x hx)
      rw [hnone]
      exact add_zero _
    · rw [findEntry, if_pos heq]
      simp only [List.map_cons, Option.toList_some, ← Multiset.cons_coe, Multiset.coe_nil,
        Multiset.add_cons, add_zero]
      exact Multiset.cons_swap _ _ _
    · rw [findEntry, if_neg heq, List.map_cons, List.map_cons, ← Multiset.cons_coe,
        ← Multiset.cons_coe, Multiset.cons_add, ih hrest.2, Multiset.cons_swap]

/-- Erasing takes out the value that was there. -/
theorem values_erase (m : KeyMap α) (key : String) :
    ((m.erase key).values : Multiset α) + ((m.get? key).toList : Multiset α) = m.values := by
  obtain ⟨entries, hasc⟩ := m
  show ((((entries.filter fun e => e.1 != key).map (·.2) : List α)) : Multiset α) +
    ((findEntry key entries).toList : Multiset α) = ((entries.map (·.2) : List α) : Multiset α)
  induction entries with
  | nil => rfl
  | cons e rest ih =>
    have hrest := List.pairwise_cons.1 hasc
    by_cases heq : key = e.1
    · have hall : rest.filter (fun e => e.1 != key) = rest := by
        refine List.filter_eq_self.2 fun x hx => ?_
        have hlt := hrest.1 x hx
        have hne : x.1 ≠ key := by
          rintro rfl
          rw [heq] at hlt
          exact String.lt_irrefl _ hlt
        simpa using hne
      rw [List.filter_cons_of_neg (by simp [heq]), hall, findEntry, if_pos heq, List.map_cons,
        add_comm]
      rfl
    · have hne : (e.1 != key) = true := by simpa using fun h => heq h.symm
      rw [List.filter_cons_of_pos (p := fun e : String × α => e.1 != key) hne, findEntry,
        if_neg heq, List.map_cons, List.map_cons,
        ← Multiset.cons_coe, ← Multiset.cons_coe, Multiset.cons_add, ih hrest.2]

end KeyMap

/-! ### Bytes -/

namespace Text

/-- The bytes of a character. -/
def charBytes (c : Char) : List Nat :=
  (String.utf8EncodeChar c).map UInt8.toNat

/-- The bytes of a text. -/
def utf8 (s : String) : List Nat :=
  s.toUTF8.data.toList.map UInt8.toNat

/-- The bytes of a text are those of its characters. -/
theorem utf8_eq (s : String) : utf8 s = s.toList.flatMap charBytes := by
  have hbytes : s.toUTF8 = (s.toList.flatMap String.utf8EncodeChar).toByteArray :=
    String.utf8Encode_toList.symm
  rw [utf8, hbytes, List.data_toByteArray, List.toList_toArray, List.map_flatMap]
  rfl

/-- **A smaller character** has smaller bytes, whatever comes after them. -/
theorem charBytes_lt {c d : Char} (h : c < d) (rest rest' : List Nat) :
    charBytes c ++ rest < charBytes d ++ rest' := by
  have hlt : c.val.toNat < d.val.toNat := h
  have hmax : d.val.toNat < 0x110000 := by
    have := d.valid
    unfold UInt32.isValidChar Nat.isValidChar at this
    omega
  unfold charBytes String.utf8EncodeChar
  generalize c.val.toNat = m at hlt
  generalize d.val.toNat = n at hlt hmax
  have hdigits : ∀ v, v / 4096 = v / 64 / 64 ∧ v / 262144 = v / 64 / 64 / 64 := fun v => by
    simp only [Nat.div_div_eq_div_mul, and_self]
  obtain ⟨hm, hm'⟩ := hdigits m
  obtain ⟨hn, hn'⟩ := hdigits n
  dsimp only
  split_ifs <;>
    simp (disch := omega) only [hm, hm', hn, hn', List.map_cons, List.map_nil, List.cons_append,
      List.nil_append, List.cons_lt_cons_iff, UInt8.toNat_ofNat', Nat.mod_eq_of_lt] <;>
    omega

/-- **A smaller text** has smaller bytes. -/
theorem utf8_lt {a b : String} (h : a < b) : utf8 a < utf8 b := by
  rw [utf8_eq, utf8_eq]
  have h : a.toList < b.toList := String.lt_iff.1 h
  generalize a.toList = cs at h
  generalize b.toList = ds at h
  induction ds generalizing cs with
  | nil => exact absurd h (List.not_lt_nil cs)
  | cons d ds ih =>
    rw [List.flatMap_cons]
    rcases cs with _ | ⟨c, cs⟩
    · have hne : charBytes d ≠ [] := by
        unfold charBytes String.utf8EncodeChar
        dsimp only
        split_ifs <;> exact List.cons_ne_nil _ _
      obtain ⟨x, rest, hx⟩ := List.exists_cons_of_ne_nil hne
      rw [hx]
      exact List.nil_lt_cons _ _
    · rw [List.flatMap_cons]
      rcases List.cons_lt_cons_iff.1 h with hlt | ⟨rfl, hrest⟩
      · exact charBytes_lt hlt _ _
      · exact List.append_left_lt (ih cs hrest)

/-- Different texts have different bytes. -/
theorem utf8_injective : Function.Injective utf8 := by
  intro a b heq
  by_contra hne
  by_cases hlt : a < b
  · exact (utf8_lt hlt).ne heq
  · exact (utf8_lt (lt_of_not_lt_of_ne hlt hne)).ne heq.symm

/-- The bytes of `a` come before those of `b`, or are the same. -/
def ByteLe (a b : String) : Prop :=
  utf8 a ≤ utf8 b

instance : DecidableRel ByteLe := fun a b =>
  inferInstanceAs (Decidable (utf8 a ≤ utf8 b))

instance : IsTrans String ByteLe :=
  ⟨fun a b c (hab : utf8 a ≤ utf8 b) (hbc : utf8 b ≤ utf8 c) => le_trans hab hbc⟩

instance : Std.Antisymm ByteLe := ⟨fun _ _ hab hba => utf8_injective (le_antisymm hab hba)⟩

instance : Std.Total ByteLe := ⟨fun a b => le_total (utf8 a) (utf8 b)⟩

end Text

/-- **The keys of a map** are in the order of their bytes. -/
theorem KeyMap.sort_keys {α : Type} (m : KeyMap α) :
    m.keys.toFinset.sort Text.ByteLe = m.keys := by
  refine (List.toFinset_sort Text.ByteLe m.keys_nodup).2 ?_
  exact m.keys_ascending.imp fun hlt => (Text.utf8_lt hlt).le
end Interop

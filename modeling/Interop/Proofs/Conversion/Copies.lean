/-
# Copying objects that may hold themselves

What an object is copied as below the containers in `path` can be said without following
references forever: `Copies` reads it off the copy.  A text, a number and a truth value are
copied; a container that is not on the path is copied with what it holds, itself being on the
path from there on; all else stays an object, and so does a container on the path.

**The plan of a conversion is the one copy** (`copies_iff`).  Each container that is entered
was not on the path before, so `unseen`, the number of those that are not, falls on the way
down; a plan that may go deeper than that never breaks off.
-/

import Interop.Proofs.Conversion.Shown
import Mathlib.Data.Finset.Card
import Mathlib.Data.Finset.Range

namespace Interop

/-- Whether a payload has room for references. -/
def Payload.isContainer : Payload → Bool
  | .vector _ | .hash _ => true
  | _ => false

namespace Conversion

/-- Below the containers in `path` the object `p` is not copied but wrapped. -/
def IsLeaf (h : Heap) (path : List ObjId) (p : ObjId) : Prop :=
  match (h.obj p).payload with
  | .vector _ | .hash _ => p ∈ path
  | .empty | .err _ => True
  | _ => False

mutual

/-- What stands in the place `q`, below the containers in `path`, is copied as the value. -/
def Copies (h : Heap) : List ObjId → Value ObjId → Option ObjId → Prop
  | _, .null, q => q = none
  | _, .bool value, q => ∃ p, q = some p ∧ (h.obj p).payload = .boolean value
  | _, .int value, q => ∃ p, q = some p ∧ (h.obj p).payload = .integer value
  | _, .float value, q => ∃ p, q = some p ∧ (h.obj p).payload = .float value
  | _, .str value, q => ∃ p, q = some p ∧ (h.obj p).payload = .str value
  | path, .list items, q => ∃ p elements, q = some p ∧ (h.obj p).payload = .vector elements ∧
    p ∉ path ∧ CopiesList h (p :: path) items elements
  | path, .dict entries, q => ∃ p held, q = some p ∧ (h.obj p).payload = .hash held ∧
    p ∉ path ∧ CopiesEntries h (p :: path) entries held.entries
  | path, .object p, q => q = some p ∧ IsLeaf h path p

/-- The elements of a vector are copied as the values, each as one of them. -/
def CopiesList (h : Heap) :
    List ObjId → List (Value ObjId) → List (Option ObjId) → Prop
  | _, [], elements => elements = []
  | path, v :: rest, elements => ∃ q others, elements = q :: others ∧ Copies h path v q ∧
    CopiesList h path rest others

/-- The values of a hash are copied as the values, each under its key. -/
def CopiesEntries (h : Heap) :
    List ObjId → List (String × Value ObjId) → List (String × ObjId) → Prop
  | _, [], held => held = []
  | path, e :: rest, held => ∃ p others, held = (e.1, p) :: others ∧ Copies h path e.2 (some p) ∧
    CopiesEntries h path rest others

end

variable {h h' : Heap} {path : List ObjId} {p : ObjId}

/-! ### How deep a copy goes -/

/-- The number of containers that are not on the path. -/
def unseen (h : Heap) (path : List ObjId) : Nat :=
  ((Finset.range h.cells.size).filter fun i =>
    (h.obj ⟨i⟩).payload.isContainer = true ∧ ⟨i⟩ ∉ path).card

/-- There are not more unseen objects than places. -/
theorem unseen_le (h : Heap) (path : List ObjId) : unseen h path ≤ h.cells.size :=
  (Finset.card_filter_le _ _).trans (Finset.card_range _).le

/-- Where a container is, there is an object. -/
theorem index_lt_of_container (hp : (h.obj p).payload.isContainer = true) :
    p.index < h.cells.size := by
  by_contra hlt
  rw [Heap.obj_of_vacant (Heap.get?_of_size_le (Nat.le_of_not_lt hlt))] at hp
  exact absurd hp Bool.false_ne_true

/-- **The measure of the copy:** a container that is entered is no longer unseen. -/
theorem unseen_cons_lt (hp : (h.obj p).payload.isContainer = true) (hpath : p ∉ path) :
    unseen h (p :: path) < unseen h path := by
  refine Finset.card_lt_card ((Finset.ssubset_iff_of_subset ?_).2 ⟨p.index, ?_, ?_⟩)
  · intro i hi
    obtain ⟨hlt, hcontainer, hnot⟩ := Finset.mem_filter.1 hi
    exact Finset.mem_filter.2 ⟨hlt, hcontainer, fun hmem => hnot (List.mem_cons_of_mem p hmem)⟩
  · exact Finset.mem_filter.2 ⟨Finset.mem_range.2 (index_lt_of_container hp), hp, hpath⟩
  · exact fun hmem => (Finset.mem_filter.1 hmem).2.2 List.mem_cons_self

/-- Only what the objects hold counts for the measure. -/
theorem unseen_congr (hsize : h'.cells.size = h.cells.size)
    (hpay : ∀ q, (h'.obj q).payload = (h.obj q).payload) (path : List ObjId) :
    unseen h' path = unseen h path := by
  simp only [unseen, hsize, hpay]

/-- Only what the objects hold counts for the copy. -/
theorem copyPlan_congr (hpay : ∀ q, (h'.obj q).payload = (h.obj q).payload) :
    ∀ (depth : Nat) (path : List ObjId) (p : ObjId),
      copyPlan h' depth path p = copyPlan h depth path p
  | 0, _, _ => rfl
  | depth + 1, path, p => by
    rw [copyPlan, copyPlan, hpay]
    simp only [copyPlan_congr hpay depth]

/-! ### The plan is the copy -/

/-- What is not copied is left as it is by a plan of any depth. -/
theorem copyPlan_of_isLeaf (hleaf : IsLeaf h path p) :
    ∀ depth, copyPlan h depth path p = .object p
  | 0 => rfl
  | depth + 1 => by
    rw [copyPlan]
    rw [IsLeaf] at hleaf
    split at hleaf <;> simp_all

/-- The plan copies a leaf, at whatever depth. -/
theorem copies_of_isLeaf (hleaf : IsLeaf h path p) (depth : Nat) :
    Copies h path (copyPlan h depth path p) (some p) := by
  rw [copyPlan_of_isLeaf hleaf]
  exact ⟨rfl, hleaf⟩

/-- A plan that may go deep enough shows how its object is copied. -/
theorem copies_copyPlan : ∀ (depth : Nat) (path : List ObjId) (p : ObjId),
    unseen h path < depth → Copies h path (copyPlan h depth path p) (some p)
  | 0, _, _, hdepth => absurd hdepth (Nat.not_lt_zero _)
  | depth + 1, path, p, hdepth => by
    -- below a container that is met for the first time one object less is unseen
    have hdown : (h.obj p).payload.isContainer = true → p ∉ path →
        ∀ q, Copies h (p :: path) (copyPlan h depth (p :: path) q) (some q) := fun hp hpath q =>
      copies_copyPlan depth (p :: path) q
        (Nat.lt_of_lt_of_le (unseen_cons_lt hp hpath) (Nat.le_of_lt_succ hdepth))
    rcases hpay : (h.obj p).payload with _ | _ | _ | _ | _ | held | elements | _
    case hash =>
      by_cases hpath : p ∈ path
      · exact copies_of_isLeaf (by rwa [IsLeaf, hpay]) _
      · rw [copyPlan_hash hpay hpath]
        refine ⟨p, held, rfl, hpay, hpath, ?_⟩
        have hall := hdown (by rw [hpay]; rfl) hpath
        induction held.entries with
        | nil => rfl
        | cons e rest ih => exact ⟨e.2, rest, rfl, hall e.2, ih⟩
    case vector =>
      by_cases hpath : p ∈ path
      · exact copies_of_isLeaf (by rwa [IsLeaf, hpay]) _
      · rw [copyPlan_vector hpay hpath]
        refine ⟨p, elements, rfl, hpay, hpath, ?_⟩
        have hall := hdown (by rw [hpay]; rfl) hpath
        clear hpay
        induction elements with
        | nil => rfl
        | cons q rest ih =>
          rcases q with _ | q
          · exact ⟨none, rest, rfl, rfl, ih⟩
          · exact ⟨some q, rest, rfl, hall q, ih⟩
    case empty | err => exact copies_of_isLeaf (by rw [IsLeaf, hpay]; trivial) _
    all_goals
      rw [copyPlan, hpay]
      exact ⟨p, rfl, hpay⟩

mutual

/-- What an object is copied as is its plan, at any depth that is deep enough. -/
theorem Copies.eq_copyElement : ∀ {path : List ObjId} {v : Value ObjId} {q : Option ObjId}
    {depth : Nat}, Copies h path v q → unseen h path < depth → v = copyElement h depth path q
  | _, .null, _, _, hq, _ => by
    obtain rfl := hq
    rfl
  | _, _, _, 0, _, hdepth => absurd hdepth (Nat.not_lt_zero _)
  | _, .bool _, _, depth + 1, ⟨p, hq, hpay⟩, _ => by rw [hq, copyElement, copyPlan, hpay]
  | _, .int _, _, depth + 1, ⟨p, hq, hpay⟩, _ => by rw [hq, copyElement, copyPlan, hpay]
  | _, .float _, _, depth + 1, ⟨p, hq, hpay⟩, _ => by rw [hq, copyElement, copyPlan, hpay]
  | _, .str _, _, depth + 1, ⟨p, hq, hpay⟩, _ => by rw [hq, copyElement, copyPlan, hpay]
  | path, .list items, _, depth + 1, ⟨p, elements, hq, hpay, hpath, hall⟩, hdepth => by
    have hlt : unseen h (p :: path) < unseen h path := unseen_cons_lt (by rw [hpay]; rfl) hpath
    rw [hq, copyElement, copyPlan_vector hpay hpath, ← hall.eq_map (by omega)]
  | path, .dict entries, _, depth + 1, ⟨p, held, hq, hpay, hpath, hall⟩, hdepth => by
    have hlt : unseen h (p :: path) < unseen h path := unseen_cons_lt (by rw [hpay]; rfl) hpath
    rw [hq, copyElement, copyPlan_hash hpay hpath, ← hall.eq_map (by omega)]
  | path, .object p, _, depth + 1, ⟨hq, hleaf⟩, _ => by
    rw [hq, copyElement, copyPlan_of_isLeaf hleaf]

/-- A list of copies is the list of the plans of the elements. -/
theorem CopiesList.eq_map : ∀ {path : List ObjId} {items : List (Value ObjId)}
    {elements : List (Option ObjId)} {depth : Nat}, CopiesList h path items elements →
    unseen h path < depth → items = elements.map (copyElement h depth path)
  | _, [], _, _, hall, _ => by
    obtain rfl := hall
    rfl
  | _, v :: rest, _, _, ⟨q, others, helements, hv, hrest⟩, hdepth => by
    rw [helements, List.map_cons, ← hv.eq_copyElement hdepth, ← hrest.eq_map hdepth]

/-- A dictionary of copies is the dictionary of the plans of the entries. -/
theorem CopiesEntries.eq_map : ∀ {path : List ObjId} {entries : List (String × Value ObjId)}
    {held : List (String × ObjId)} {depth : Nat}, CopiesEntries h path entries held →
    unseen h path < depth → entries = held.map fun e => (e.1, copyPlan h depth path e.2)
  | _, [], _, _, hall, _ => by
    obtain rfl := hall
    rfl
  | _, e :: rest, _, _, ⟨p, others, hheld, hv, hrest⟩, hdepth => by
    have he : e.2 = copyPlan h _ _ p := hv.eq_copyElement hdepth
    rw [hheld, List.map_cons, ← he, ← hrest.eq_map hdepth]

end

/-- **The plan of a conversion is the one copy of its object**, whatever the objects hold, if
it may go deeper than there are containers left to enter. -/
theorem copies_iff {depth : Nat} (hdepth : unseen h path < depth) {v : Value ObjId} :
    Copies h path v (some p) ↔ v = copyPlan h depth path p := by
  constructor
  · exact fun hv => hv.eq_copyElement hdepth
  · rintro rfl
    exact copies_copyPlan depth path p hdepth

/-- A plan may always go as deep as `planFor` lets it. -/
theorem unseen_lt_size (h : Heap) (path : List ObjId) : unseen h path < h.cells.size + 1 :=
  Nat.lt_succ_of_le (unseen_le h path)

mutual

/-- The keys of a dict that a hash is copied as are those of the hash, each once. -/
theorem Copies.wellFormed : ∀ {path : List ObjId} {v : Value ObjId} {q : Option ObjId},
    Copies h path v q → v.WellFormed
  | _, .null, _, _ => trivial
  | _, .bool _, _, _ => trivial
  | _, .int _, _, _ => trivial
  | _, .float _, _, _ => trivial
  | _, .str _, _, _ => trivial
  | _, .object _, _, _ => trivial
  | _, .list _, _, ⟨_, _, _, _, _, hall⟩ => hall.wellFormed
  | path, .dict entries, _, ⟨p, held, _, hpay, hpath, hall⟩ => by
    refine ⟨?_, hall.wellFormed⟩
    have hkeys := held.ascending
    rw [hall.eq_map (unseen_lt_size h _), Ascending, List.pairwise_map]
    exact hkeys

/-- A list of copies is well formed. -/
theorem CopiesList.wellFormed : ∀ {path : List ObjId} {items : List (Value ObjId)}
    {elements : List (Option ObjId)}, CopiesList h path items elements →
    Value.WellFormedList items
  | _, [], _, _ => trivial
  | _, _ :: _, _, ⟨_, _, _, hv, hrest⟩ => ⟨hv.wellFormed, hrest.wellFormed⟩

/-- A dictionary of copies is well formed. -/
theorem CopiesEntries.wellFormed : ∀ {path : List ObjId} {entries : List (String × Value ObjId)}
    {held : List (String × ObjId)}, CopiesEntries h path entries held →
    Value.WellFormedEntries entries
  | _, [], _, _ => trivial
  | _, _ :: _, _, ⟨_, _, _, hv, hrest⟩ => ⟨hv.wellFormed, hrest.wellFormed⟩

end

end Conversion

end Interop

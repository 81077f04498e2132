/-
# Containers and what they show

A hash shows a finite map from texts to values, and a vector shows a list of values: each
object in the container shows the value in its place, and null shows itself.  What the
operations of containers do to the objects, the same operations of maps and lists do to the
values (`View.ShowsMap.insert`, `View.ShowsList.getElem?` and the others).

`ContainerKind` is what the two have in common: a class, and what it means for a payload to
show a content.  The payload itself is read from the container and not through the view, so
the container may be hidden from the view and change.
-/

import Interop.Proofs.Conversion.Shown
import Interop.Proofs.Text.Keys
import Mathlib.Data.Finmap
import Mathlib.Data.List.Forall2

namespace Interop

/-- A finite map from texts to host values. -/
abbrev ValueMap : Type := Finmap fun _ : String => HostValue

namespace View

variable {V : View}

/-! ### Lists -/

/-- A list of values shows the elements when each value shows its element. -/
theorem showsList_iff {items : List HostValue} : ∀ {elements : List (Option ObjId)},
    V.ShowsList items elements ↔ List.Forall₂ V.Shows items elements := by
  induction items with
  | nil =>
    intro elements
    rw [ShowsList, List.forall₂_nil_left_iff]
  | cons v rest ih =>
    intro elements
    rw [ShowsList, List.forall₂_cons_left_iff]
    constructor
    · rintro ⟨q, others, rfl, hv, hrest⟩
      exact ⟨q, others, hv, ih.1 hrest, rfl⟩
    · rintro ⟨q, others, hv, hrest, rfl⟩
      exact ⟨q, others, rfl, hv, ih.2 hrest⟩

namespace ShowsList

variable {items items' : List HostValue} {elements elements' : List (Option ObjId)}

/-- There are as many values as elements. -/
theorem length_eq (h : V.ShowsList items elements) : items.length = elements.length :=
  (showsList_iff.1 h).length_eq

/-- One value shows one element. -/
theorem single {v : HostValue} {q : Option ObjId} (h : V.Shows v q) : V.ShowsList [v] [q] :=
  ⟨q, [], rfl, h, rfl⟩

/-- Lists of values are put together like the elements that they show. -/
theorem append (h : V.ShowsList items elements) (h' : V.ShowsList items' elements') :
    V.ShowsList (items ++ items') (elements ++ elements') :=
  showsList_iff.2 (List.rel_append (showsList_iff.1 h) (showsList_iff.1 h'))

/-- The first values show the first elements. -/
theorem take (h : V.ShowsList items elements) (n : Nat) :
    V.ShowsList (items.take n) (elements.take n) :=
  showsList_iff.2 (List.forall₂_take n (showsList_iff.1 h))

/-- The remaining values show the remaining elements. -/
theorem drop (h : V.ShowsList items elements) (n : Nat) :
    V.ShowsList (items.drop n) (elements.drop n) :=
  showsList_iff.2 (List.forall₂_drop n (showsList_iff.1 h))

/-- In each place there is a value and what shows it, or nothing in both lists. -/
theorem getElem? (h : V.ShowsList items elements) (i : Nat) :
    (items[i]? = none ∧ elements[i]? = none) ∨
      ∃ v q, items[i]? = some v ∧ elements[i]? = some q ∧ V.Shows v q := by
  rcases Nat.lt_or_ge i items.length with hlt | hge
  · have hlt' : i < elements.length := h.length_eq ▸ hlt
    refine Or.inr ⟨items[i], elements[i], List.getElem?_eq_getElem hlt,
      List.getElem?_eq_getElem hlt', ?_⟩
    exact (showsList_iff.1 h).get hlt hlt'
  · have hge' : elements.length ≤ i := h.length_eq ▸ hge
    exact Or.inl ⟨List.getElem?_eq_none hge, List.getElem?_eq_none hge'⟩

end ShowsList

/-! ### Maps -/

/-- Under each key there is a value and an object that shows it, or nothing in both maps. -/
def ShowsMap (V : View) (m : ValueMap) (built : KeyMap ObjId) : Prop :=
  ∀ key, Option.Rel (fun v p => V.Shows v (some p)) (m.lookup key) (built.get? key)

namespace ShowsMap

variable {m : ValueMap} {built : KeyMap ObjId}

/-- No values show no entries. -/
theorem empty (V : View) : V.ShowsMap ∅ .empty := fun _ => .none

/-- What is found under a key in one map is shown by what is found in the other. -/
theorem get? (h : V.ShowsMap m built) (key : String) :
    (m.lookup key = none ∧ built.get? key = none) ∨
      ∃ v p, m.lookup key = some v ∧ built.get? key = some p ∧ V.Shows v (some p) := by
  have hkey := h key
  generalize m.lookup key = v at hkey
  generalize built.get? key = p at hkey
  rcases hkey with hshows | _
  · exact Or.inr ⟨_, _, rfl, rfl, hshows⟩
  · exact Or.inl ⟨rfl, rfl⟩

/-- What shows a map goes on to do so as long as it stays. -/
theorem stays {S : ObjId → Prop} {V' : View} (hS : Stays S V V') (h : V.ShowsMap m built)
    (hs : ∀ p ∈ built.values, S p) : V'.ShowsMap m built := by
  intro key
  rcases h.get? key with ⟨hm, hbuilt⟩ | ⟨v, p, hm, hbuilt, hv⟩ <;> rw [hm, hbuilt]
  · exact .none
  · refine .some (hv.stays hS fun q hq => ?_)
    exact Option.some.inj hq ▸ hs p (KeyMap.mem_values_of_get? hbuilt)

/-- What shows entries in a view shows them in a larger one. -/
theorem mono {V' : View} (hV : ∀ p x, V p = some x → V' p = some x) (h : V.ShowsMap m built) :
    V'.ShowsMap m built :=
  have hS : Stays (fun _ => True) V V' := fun p x hp _ => ⟨hV p x hp, fun _ _ => trivial⟩
  h.stays hS fun _ _ => trivial

/-- A new value shows the new entry of its key. -/
theorem insert {key : String} {v : HostValue} {p : ObjId} (h : V.ShowsMap m built)
    (hv : V.Shows v (some p)) : V.ShowsMap (m.insert key v) (built.insert key p) := by
  intro other
  rw [KeyMap.get?_insert]
  split_ifs with heq
  · rw [heq, Finmap.lookup_insert]
    exact .some hv
  · rw [Finmap.lookup_insert_of_ne m heq]
    exact h other

/-- Without the value of a key the others show the other entries. -/
theorem erase (h : V.ShowsMap m built) (key : String) :
    V.ShowsMap (m.erase key) (built.erase key) := by
  intro other
  rw [KeyMap.get?_erase]
  split_ifs with heq
  · rw [heq, Finmap.lookup_erase]
    exact .none
  · rw [Finmap.lookup_erase_ne heq]
    exact h other

/-- Both maps have the same keys. -/
theorem keys_eq (h : V.ShowsMap m built) : m.keys = built.keys.toFinset := by
  ext key
  rw [Finmap.mem_keys, List.mem_toFinset, KeyMap.mem_keys_iff, ← Finmap.lookup_isSome]
  rcases h.get? key with ⟨hm, hbuilt⟩ | ⟨v, p, hm, hbuilt, -⟩ <;> rw [hm, hbuilt] <;> rfl

/-- There are as many keys as entries. -/
theorem card_eq (h : V.ShowsMap m built) : m.keys.card = built.size := by
  rw [h.keys_eq, List.toFinset_card_of_nodup built.keys_nodup, KeyMap.keys, List.length_map]
  rfl

/-- The keys are listed in the order of their bytes. -/
theorem sort_eq (h : V.ShowsMap m built) : m.keys.sort Text.ByteLe = built.keys := by
  rw [h.keys_eq, built.sort_keys]

end ShowsMap

end View

/-! ### Kinds of containers -/

/-- The classes of containers in the core parcel. -/
def Parcel.containers : List Class := [Parcel.hash, Parcel.vector]

/-- The containers are classes of the core parcel. -/
theorem Parcel.containers_subset : Parcel.containers ⊆ Parcel.classes := by
  decide +kernel

/-- A class of containers, and what their payloads show.  What a payload holds is looked at,
and the payload goes on to show its content as long as that stays. -/
structure ContainerKind (α : Type) where
  cls : Class
  /-- Whether no operation puts an object into a second place. -/
  exclusive : Prop
  /-- The payload shows the content. -/
  Shows : View → α → Payload → Prop
  stays : ∀ {S : ObjId → Prop} {V V' : View} {a : α} {payload : Payload}, V.Stays S V' →
    Shows V a payload → (∀ p ∈ payload.references, S p) → Shows V' a payload
  seen : ∀ {V : View} {a : α} {payload : Payload}, Shows V a payload →
    ∀ p ∈ payload.references, ∃ x, V p = some x

namespace ContainerKind

/-- A payload shows its content as long as nothing that is looked at changes. -/
theorem mono {α : Type} (kind : ContainerKind α) {V V' : View} {a : α} {payload : Payload}
    (h : kind.Shows V a payload) (hV : ∀ p x, V p = some x → V' p = some x) :
    kind.Shows V' a payload :=
  kind.stays (S := fun _ => True) (fun p x hp _ => ⟨hV p x hp, fun _ _ => trivial⟩) h
    fun _ _ => trivial

/-- Hashes show finite maps from texts to values. -/
def hash : ContainerKind ValueMap where
  cls := Parcel.hash
  exclusive := True
  Shows V m payload := ∃ built, payload = .hash built ∧ V.ShowsMap m built
  stays := by
    rintro S V V' m _ hS ⟨built, rfl, hall⟩ hrefs
    exact ⟨built, rfl, hall.stays hS hrefs⟩
  seen := by
    rintro V m _ ⟨built, rfl, hall⟩ p hp
    obtain ⟨key, hkey⟩ := KeyMap.get?_of_mem_values hp
    rcases hall.get? key with ⟨-, hbuilt⟩ | ⟨v, q, -, hbuilt, hv⟩
    · exact absurd (hbuilt.symm.trans hkey) (by simp)
    · obtain rfl := Option.some.inj (hbuilt.symm.trans hkey)
      exact hv.seen

/-- Vectors show lists of values. -/
def vector : ContainerKind (List HostValue) where
  cls := Parcel.vector
  exclusive := False
  Shows V items payload := ∃ elements, payload = .vector elements ∧ V.ShowsList items elements
  stays := by
    rintro S V V' items _ hS ⟨elements, rfl, hall⟩ hrefs
    exact ⟨elements, rfl, hall.stays hS fun p hp =>
      hrefs p (List.mem_filterMap.2 ⟨some p, hp, rfl⟩)⟩
  seen := by
    rintro V items _ ⟨elements, rfl, hall⟩ p hp
    obtain ⟨q, hq, hqp⟩ := List.mem_filterMap.1 hp
    obtain rfl : q = some p := hqp
    exact hall.seen p hq

/-- Hashes are containers. -/
theorem hash_mem : hash.cls ∈ Parcel.containers := List.mem_cons_self

/-- Vectors are containers. -/
theorem vector_mem : vector.cls ∈ Parcel.containers := List.mem_cons_of_mem _ List.mem_cons_self

end ContainerKind

end Interop

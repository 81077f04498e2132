/-
# Plain values in the heap

A plain value, one without wrappers, is shown by objects of its own shape: null by nothing,
a scalar by an object that holds it, a list by a vector of what shows its values and a dict by
a hash of what shows those under the same keys (`View.Shows`).  Every such object holds only
older ones, so what shows a value has no cycles.

**What shows a value is copied out as that value** (`Conversion.objectToHost_of_shows`): the
path of the copy has only younger objects on it, so the check for cycles never strikes, even
where an object is met twice, and nothing in a plain value needs a wrapper.

What is read is left open: a `View` says what the objects hold that somebody looks at.
`Heap.view` leaves some objects out, which may then change without what is shown changing.
-/

import Interop.Conversion.ToHost
import Interop.Proofs.Heap.Cells
import Interop.Proofs.Steps

namespace Interop

/-- What the objects hold that are looked at. -/
abbrev View := ObjId → Option Payload

/-- What all objects but those in `hidden` hold. -/
def Heap.view (hidden : List ObjId) (h : Heap) : View := fun p =>
  if p ∈ hidden then none else (h.get? p).map Obj.payload

/-- The object at `p` holds `payload`, and the objects in it are older than itself. -/
structure View.Holds (V : View) (p : ObjId) (payload : Payload) : Prop where
  payload_eq : V p = some payload
  downward : ∀ q ∈ payload.references, q.index < p.index

namespace View

mutual

/-- The object at `q`, or for null nothing, shows the value. -/
def Shows (V : View) : HostValue → Option ObjId → Prop
  | .null, q => q = none
  | .bool value, q => ∃ p, q = some p ∧ V.Holds p (.boolean value)
  | .int value, q => ∃ p, q = some p ∧ V.Holds p (.integer value)
  | .float value, q => ∃ p, q = some p ∧ V.Holds p (.float value)
  | .str value, q => ∃ p, q = some p ∧ V.Holds p (.str value)
  | .list items, q => ∃ p elements, q = some p ∧ V.Holds p (.vector elements) ∧
    ShowsList V items elements
  | .dict entries, q => ∃ p built, q = some p ∧ V.Holds p (.hash built) ∧
    ShowsEntries V entries built.entries
  | .object _, _ => False

/-- The elements show the values of a list in turn. -/
def ShowsList (V : View) : List HostValue → List (Option ObjId) → Prop
  | [], elements => elements = []
  | v :: rest, elements => ∃ q others, elements = q :: others ∧ Shows V v q ∧
    ShowsList V rest others

/-- The objects show the values of a dict in turn, under the same keys. -/
def ShowsEntries (V : View) : List (String × HostValue) → List (String × ObjId) → Prop
  | [], built => built = []
  | e :: rest, built => ∃ p others, built = (e.1, p) :: others ∧ Shows V e.2 (some p) ∧
    ShowsEntries V rest others

end

variable {V V' : View} {p : ObjId}

/-- The objects in `S` hold what they held, and what they hold is in `S`. -/
def Stays (S : ObjId → Prop) (V V' : View) : Prop :=
  ∀ p x, V p = some x → S p → V' p = some x ∧ ∀ q ∈ x.references, S q

/-- Where the objects in a set stay, a payload stays with the objects that it refers to. -/
theorem Holds.stays {S : ObjId → Prop} {payload : Payload} (h : V.Holds p payload)
    (hS : Stays S V V') (hp : S p) : V'.Holds p payload ∧ ∀ q ∈ payload.references, S q := by
  obtain ⟨hV, hrefs⟩ := hS p payload h.payload_eq hp
  exact ⟨⟨hV, h.downward⟩, hrefs⟩

mutual

/-- **What shows a value goes on to do so** as long as it stays, with all that it holds. -/
theorem Shows.stays {S : ObjId → Prop} (hS : Stays S V V') :
    ∀ {v : HostValue} {q : Option ObjId}, V.Shows v q → (∀ p, q = some p → S p) → V'.Shows v q
  | .null, _, h, _ => h
  | .bool _, _, ⟨p, hq, hp⟩, hs => ⟨p, hq, (hp.stays hS (hs p hq)).1⟩
  | .int _, _, ⟨p, hq, hp⟩, hs => ⟨p, hq, (hp.stays hS (hs p hq)).1⟩
  | .float _, _, ⟨p, hq, hp⟩, hs => ⟨p, hq, (hp.stays hS (hs p hq)).1⟩
  | .str _, _, ⟨p, hq, hp⟩, hs => ⟨p, hq, (hp.stays hS (hs p hq)).1⟩
  | .list _, _, ⟨p, elements, hq, hp, hall⟩, hs => by
    obtain ⟨hp', hrefs⟩ := hp.stays hS (hs p hq)
    refine ⟨p, elements, hq, hp', hall.stays hS fun x hx => ?_⟩
    exact hrefs x (List.mem_filterMap.2 ⟨some x, hx, rfl⟩)
  | .dict _, _, ⟨p, built, hq, hp, hall⟩, hs => by
    obtain ⟨hp', hrefs⟩ := hp.stays hS (hs p hq)
    refine ⟨p, built, hq, hp', hall.stays hS fun b hb => ?_⟩
    exact hrefs b.2 (List.mem_map_of_mem hb)

/-- Where the objects in a set stay, a list shows the same elements. -/
theorem ShowsList.stays {S : ObjId → Prop} (hS : Stays S V V') :
    ∀ {items : List HostValue} {elements : List (Option ObjId)}, V.ShowsList items elements →
      (∀ p, some p ∈ elements → S p) → V'.ShowsList items elements
  | [], _, h, _ => h
  | _ :: _, _, ⟨q, others, helements, hv, hrest⟩, hs => by
    subst helements
    exact ⟨q, others, rfl, hv.stays hS fun p hp => hs p (hp ▸ List.mem_cons_self),
      hrest.stays hS fun p hp => hs p (List.mem_cons_of_mem q hp)⟩

/-- Where the objects in a set stay, a dictionary shows the same entries. -/
theorem ShowsEntries.stays {S : ObjId → Prop} (hS : Stays S V V') :
    ∀ {entries : List (String × HostValue)} {built : List (String × ObjId)},
      V.ShowsEntries entries built → (∀ b ∈ built, S b.2) → V'.ShowsEntries entries built
  | [], _, h, _ => h
  | e :: _, _, ⟨p, others, hbuilt, hv, hrest⟩, hs => by
    subst hbuilt
    refine ⟨p, others, rfl, hv.stays hS fun x hx => ?_,
      hrest.stays hS fun b hb => hs b (List.mem_cons_of_mem _ hb)⟩
    exact Option.some.inj hx ▸ hs (e.1, p) List.mem_cons_self

end

/-- What shows a value goes on to do so as long as nothing that is looked at changes. -/
theorem Shows.mono (hV : ∀ p x, V p = some x → V' p = some x) {v : HostValue}
    {q : Option ObjId} (h : V.Shows v q) : V'.Shows v q :=
  have hS : Stays (fun _ => True) V V' := fun p x hp _ => ⟨hV p x hp, fun _ _ => trivial⟩
  h.stays hS fun _ _ => trivial

/-- A list shows the same elements in a larger view. -/
theorem ShowsList.mono (hV : ∀ p x, V p = some x → V' p = some x) {items : List HostValue}
    {elements : List (Option ObjId)} (h : V.ShowsList items elements) :
    V'.ShowsList items elements :=
  have hS : Stays (fun _ => True) V V' := fun p x hp _ => ⟨hV p x hp, fun _ _ => trivial⟩
  h.stays hS fun _ _ => trivial

/-- A dictionary shows the same entries in a larger view. -/
theorem ShowsEntries.mono (hV : ∀ p x, V p = some x → V' p = some x)
    {entries : List (String × HostValue)} {built : List (String × ObjId)}
    (h : V.ShowsEntries entries built) : V'.ShowsEntries entries built :=
  have hS : Stays (fun _ => True) V V' := fun p x hp _ => ⟨hV p x hp, fun _ _ => trivial⟩
  h.stays hS fun _ _ => trivial

/-- An object that shows a value is looked at. -/
theorem Shows.seen {v : HostValue} (h : V.Shows v (some p)) : ∃ payload, V p = some payload := by
  cases v with
  | null => exact absurd h (by simp [Shows])
  | object o => exact absurd h id
  | list items =>
    obtain ⟨_, elements, ⟨rfl⟩, hp, -⟩ := h
    exact ⟨_, hp.payload_eq⟩
  | dict entries =>
    obtain ⟨_, built, ⟨rfl⟩, hp, -⟩ := h
    exact ⟨_, hp.payload_eq⟩
  | _ =>
    obtain ⟨_, ⟨rfl⟩, hp⟩ := h
    exact ⟨_, hp.payload_eq⟩

/-- Only null is shown by nothing. -/
theorem Shows.isNull_eq {v : HostValue} {q : Option ObjId} (h : V.Shows v q) :
    v.isNull = q.isNone := by
  cases v with
  | null =>
    obtain rfl : q = none := h
    rfl
  | object o => exact absurd h id
  | list items =>
    obtain ⟨p, elements, rfl, -⟩ := h
    rfl
  | dict entries =>
    obtain ⟨p, built, rfl, -⟩ := h
    rfl
  | _ =>
    obtain ⟨p, rfl, -⟩ := h
    rfl

/-- The elements that show a list are looked at. -/
theorem ShowsList.seen : ∀ {items : List HostValue} {elements : List (Option ObjId)},
    V.ShowsList items elements → ∀ p, some p ∈ elements → ∃ payload, V p = some payload
  | [], _, h, p, hp => by
    obtain rfl := h
    exact absurd hp List.not_mem_nil
  | v :: rest, _, ⟨q, others, helements, hv, hrest⟩, p, hp => by
    subst helements
    rcases List.mem_cons.1 hp with rfl | hp
    · exact hv.seen
    · exact hrest.seen p hp

/-- The objects that show the values of a dict are looked at. -/
theorem ShowsEntries.seen : ∀ {entries : List (String × HostValue)}
    {built : List (String × ObjId)}, V.ShowsEntries entries built →
    ∀ b ∈ built, ∃ payload, V b.2 = some payload
  | [], _, h, b, hb => by
    obtain rfl := h
    exact absurd hb List.not_mem_nil
  | e :: rest, _, ⟨p, others, hbuilt, hv, hrest⟩, b, hb => by
    subst hbuilt
    rcases List.mem_cons.1 hb with rfl | hb
    · exact hv.seen
    · exact hrest.seen b hb

end View

/-! ### What is looked at in a heap -/

namespace Heap

variable {h : Heap} {hidden : List ObjId} {p : ObjId} {payload : Payload}

/-- A view has the payloads of the objects that are there and not hidden. -/
theorem view_eq_some : h.view hidden p = some payload ↔
    p ∉ hidden ∧ ∃ o, h.get? p = some o ∧ o.payload = payload := by
  rw [view]
  split_ifs with hp
  · simp [hp]
  · simp [hp, Option.map_eq_some_iff]

/-- What is in a view is in the heap. -/
theorem get?_of_view (hp : h.view hidden p = some payload) :
    ∃ o, h.get? p = some o ∧ o.payload = payload :=
  (view_eq_some.1 hp).2

/-- An object that is made changes nothing that is looked at. -/
theorem view_alloc (cls : Class) (made : Payload) (hp : h.view hidden p = some payload) :
    (h.alloc cls made).2.view hidden p = some payload := by
  obtain ⟨hnot, o, ho, hpayload⟩ := view_eq_some.1 hp
  exact view_eq_some.2 ⟨hnot, o, get?_alloc_of_some cls made ho, hpayload⟩

end Heap

/-! ### Copying out -/

namespace Conversion

variable {h : Heap} {hidden : List ObjId} {path : List ObjId} {p : ObjId}

/-- The copy of what stands in a place of a container. -/
def copyElement (h : Heap) (depth : Nat) (path : List ObjId) : Option ObjId → Value ObjId
  | some q => copyPlan h depth path q
  | none => .null

/-- There is no object in a heap of depth zero. -/
theorem exists_depth {depth : Nat} (h : p.index < depth) : ∃ d, depth = d + 1 :=
  ⟨depth - 1, by omega⟩

/-- A path of younger objects does not lead to an object again. -/
theorem not_mem_of_younger (hpath : ∀ q ∈ path, p.index < q.index) : p ∉ path := fun hp =>
  Nat.lt_irrefl _ (hpath p hp)

/-- A vector that is met for the first time is planned as a list. -/
theorem copyPlan_vector {depth : Nat} {elements : List (Option ObjId)}
    (hp : (h.obj p).payload = .vector elements) (hpath : p ∉ path) :
    copyPlan h (depth + 1) path p = .list (elements.map (copyElement h depth (p :: path))) := by
  rw [copyPlan, hp]
  simp only [hpath, if_false]
  rfl

/-- A hash that is met for the first time is planned as a dictionary. -/
theorem copyPlan_hash {depth : Nat} {built : KeyMap ObjId}
    (hp : (h.obj p).payload = .hash built) (hpath : p ∉ path) :
    copyPlan h (depth + 1) path p =
      .dict (built.entries.map fun e => (e.1, copyPlan h depth (p :: path) e.2)) := by
  rw [copyPlan, hp]
  simp only [hpath, if_false]

/-- The object at `p` holds `payload` in the heap as well. -/
theorem obj_payload_of_holds {payload : Payload} (hp : (h.view hidden).Holds p payload) :
    (h.obj p).payload = payload := by
  obtain ⟨o, ho, hpayload⟩ := Heap.get?_of_view hp.payload_eq
  rw [Heap.obj_of_get? ho, hpayload]

mutual

/-- **What shows a value is copied as it**, below younger containers and with enough depth
left. -/
theorem wrapLeaves_of_shows (m : Machine) (w : World) :
    ∀ (v : HostValue) (q : Option ObjId) (depth : Nat) (path : List ObjId),
      (h.view hidden).Shows v q → (∀ p, q = some p → p.index < depth) →
      (∀ p, q = some p → ∀ y ∈ path, p.index < y.index) →
      wrapLeaves m (copyElement h depth path q) w = .ok v w
  | .null, q, depth, path, hv, _, _ => by
    obtain rfl : q = none := hv
    rfl
  | .bool value, q, depth, path, ⟨p, hq, hp⟩, hdepth, _ => by
    obtain ⟨d, rfl⟩ := exists_depth (hdepth p hq)
    rw [hq, copyElement, copyPlan, obj_payload_of_holds hp]
    rfl
  | .int value, q, depth, path, ⟨p, hq, hp⟩, hdepth, _ => by
    obtain ⟨d, rfl⟩ := exists_depth (hdepth p hq)
    rw [hq, copyElement, copyPlan, obj_payload_of_holds hp]
    rfl
  | .float value, q, depth, path, ⟨p, hq, hp⟩, hdepth, _ => by
    obtain ⟨d, rfl⟩ := exists_depth (hdepth p hq)
    rw [hq, copyElement, copyPlan, obj_payload_of_holds hp]
    rfl
  | .str value, q, depth, path, ⟨p, hq, hp⟩, hdepth, _ => by
    obtain ⟨d, rfl⟩ := exists_depth (hdepth p hq)
    rw [hq, copyElement, copyPlan, obj_payload_of_holds hp]
    rfl
  | .list items, q, depth, path, ⟨p, elements, hq, hp, hall⟩, hdepth, hpath => by
    obtain ⟨d, rfl⟩ := exists_depth (hdepth p hq)
    have hlt : p.index < d + 1 := hdepth p hq
    have hold : ∀ x, some x ∈ elements → x.index < p.index := fun x hx =>
      hp.downward x (List.mem_filterMap.2 ⟨some x, hx, rfl⟩)
    have hitems : wrapList m [] (elements.map (copyElement h d (p :: path))) w = .ok items w := by
      refine wrapList_of_shows m w items [] elements d (p :: path) hall ?_ ?_
      · intro x hx
        have := hold x hx
        omega
      · intro x hx y hy
        rcases List.mem_cons.1 hy with rfl | hy
        · exact hold x hx
        · exact (hold x hx).trans (hpath p hq y hy)
    rw [hq, copyElement, copyPlan_vector (obj_payload_of_holds hp)
      (not_mem_of_younger (hpath p hq)), wrapLeaves, Steps.bind_apply, hitems]
    rfl
  | .dict entries, q, depth, path, ⟨p, built, hq, hp, hall⟩, hdepth, hpath => by
    obtain ⟨d, rfl⟩ := exists_depth (hdepth p hq)
    have hlt : p.index < d + 1 := hdepth p hq
    have hold : ∀ b ∈ built.entries, b.2.index < p.index := fun b hb =>
      hp.downward b.2 (List.mem_map_of_mem hb)
    have hentries : wrapEntries m []
        (built.entries.map fun e => (e.1, copyPlan h d (p :: path) e.2)) w = .ok entries w := by
      refine wrapEntries_of_shows m w entries [] built.entries d (p :: path) hall ?_ ?_
      · intro b hb
        have := hold b hb
        omega
      · intro b hb y hy
        rcases List.mem_cons.1 hy with rfl | hy
        · exact hold b hb
        · exact (hold b hb).trans (hpath p hq y hy)
    rw [hq, copyElement, copyPlan_hash (obj_payload_of_holds hp)
      (not_mem_of_younger (hpath p hq)), wrapLeaves, Steps.bind_apply, hentries]
    rfl

/-- Elements that a list shows are wrapped as the list, and the world stays. -/
theorem wrapList_of_shows (m : Machine) (w : World) :
    ∀ (items done : List HostValue) (elements : List (Option ObjId)) (depth : Nat)
      (path : List ObjId), (h.view hidden).ShowsList items elements →
      (∀ p, some p ∈ elements → p.index < depth) →
      (∀ p, some p ∈ elements → ∀ y ∈ path, p.index < y.index) →
      wrapList m done (elements.map (copyElement h depth path)) w = .ok (done ++ items) w
  | [], done, elements, depth, path, hall, _, _ => by
    obtain rfl : elements = [] := hall
    rw [List.append_nil]
    rfl
  | v :: rest, done, elements, depth, path, ⟨q, others, helements, hv, hrest⟩, hdepth, hpath => by
    subst helements
    have hone := wrapLeaves_of_shows m w v q depth path hv
      (fun p hp => hdepth p (hp ▸ List.mem_cons_self))
      (fun p hp => hpath p (hp ▸ List.mem_cons_self))
    have hothers := wrapList_of_shows m w rest (done ++ [v]) others depth path hrest
      (fun p hp => hdepth p (List.mem_cons_of_mem q hp))
      (fun p hp => hpath p (List.mem_cons_of_mem q hp))
    rw [List.map_cons, wrapList, Steps.bind_apply, World.onRefusal_apply, hone]
    simpa using hothers

/-- Entries that a dictionary shows are wrapped as the dictionary, and the world stays. -/
theorem wrapEntries_of_shows (m : Machine) (w : World) :
    ∀ (entries done : List (String × HostValue)) (built : List (String × ObjId)) (depth : Nat)
      (path : List ObjId), (h.view hidden).ShowsEntries entries built →
      (∀ b ∈ built, b.2.index < depth) → (∀ b ∈ built, ∀ y ∈ path, b.2.index < y.index) →
      wrapEntries m done (built.map fun e => (e.1, copyPlan h depth path e.2)) w =
        .ok (done ++ entries) w
  | [], done, built, depth, path, hall, _, _ => by
    obtain rfl : built = [] := hall
    rw [List.append_nil]
    rfl
  | e :: rest, done, built, depth, path, ⟨p, others, hbuilt, hv, hrest⟩, hdepth, hpath => by
    subst hbuilt
    have hone : wrapLeaves m (copyPlan h depth path p) w = .ok e.2 w :=
      wrapLeaves_of_shows m w e.2 (some p) depth path hv
        (fun x hx => Option.some.inj hx ▸ hdepth (e.1, p) List.mem_cons_self)
        (fun x hx => Option.some.inj hx ▸ hpath (e.1, p) List.mem_cons_self)
    have hothers := wrapEntries_of_shows m w rest (done ++ [e]) others depth path hrest
      (fun b hb => hdepth b (List.mem_cons_of_mem _ hb))
      (fun b hb => hpath b (List.mem_cons_of_mem _ hb))
    rw [List.map_cons, wrapEntries, Steps.bind_apply, World.onRefusal_apply, hone]
    simpa using hothers

end

/-- **What shows a value is that value for the host**, and reading it changes nothing. -/
theorem objectToHost_of_shows (m : Machine) {w : World} {v : HostValue}
    (hv : (w.heap.view hidden).Shows v (some p)) : objectToHost m p w = .ok v w := by
  obtain ⟨payload, hp⟩ := hv.seen
  obtain ⟨o, ho, -⟩ := Heap.get?_of_view hp
  have hlt := Heap.index_lt_of_get? ho
  rw [objectToHost, Steps.bind_apply, Steps.get_apply]
  refine wrapLeaves_of_shows m w v (some p) (w.heap.cells.size + 1) [] hv ?_ ?_
  · intro x hx
    obtain rfl := Option.some.inj hx
    omega
  · exact fun x _ y hy => absurd hy List.not_mem_nil

end Conversion

end Interop

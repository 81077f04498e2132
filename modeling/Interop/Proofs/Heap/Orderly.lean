/-
# Orderly heaps

`K` says which classes are in play.  A heap is orderly for a list of owned references when
it has a ledger over the heap without objects, and every object is of a class in play, holds
a payload of the kind that this class is for, and counts a reference.  Then no reference is
lost: what counts a reference is owned, or stands in a payload.

`Heap.Moves K h₀ owned h` says that `h` is orderly and can have come from `h₀`: no place was
used twice and no object changed its class.  Each operation on heaps has a lemma that leads
from one such heap to the next.
-/

import Interop.Proofs.Class.Offspring
import Interop.Proofs.Heap.Release
import Interop.Proofs.Text.Keys

namespace Interop

/-- The object is of a class in play that is for payloads of its kind, and it counts a
reference. -/
structure Obj.Proper (K : Class → Prop) (o : Obj) : Prop where
  known : K o.cls
  offspring : Offspring o.payload.home o.cls
  referenced : o.immortal = false → 0 < o.refcount

namespace Heap

variable {K : Class → Prop} {h₀ h h' : Heap} {owned handed : Multiset ObjId} {p q : ObjId}
  {o : Obj}

/-- Every object is proper, every reference is in the ledger, and the truth values are
there. -/
structure Orderly (K : Class → Prop) (owned : Multiset ObjId) (h : Heap) : Prop where
  ledger : Ledger Heap.void owned h
  proper : ∀ p o, h.get? p = some o → o.Proper K
  truth : ∀ b, ∃ count, h.get? (booleanId b) = some ⟨Parcel.boolean, true, count, .boolean b⟩

/-- Places are not used again, and objects keep their classes. -/
structure Follows (h h' : Heap) : Prop where
  size_le : h.cells.size ≤ h'.cells.size
  vacant : ∀ p, p.index < h.cells.size → h.get? p = none → h'.get? p = none
  cls_eq : ∀ p o o', h.get? p = some o → h'.get? p = some o' → o'.cls = o.cls

/-- The heap `h` is orderly and can have come from `h₀`. -/
structure Moves (K : Class → Prop) (h₀ : Heap) (owned : Multiset ObjId) (h : Heap) : Prop where
  orderly : Orderly K owned h
  follows : Follows h₀ h

namespace Follows

/-- A heap follows itself. -/
theorem refl (h : Heap) : Follows h h where
  size_le := le_rfl
  vacant _ _ hp := hp
  cls_eq p o o' ho ho' := by
    rw [ho, Option.some.injEq] at ho'
    rw [ho']

/-- A heap follows those that the ones before it follow. -/
theorem trans {a b c : Heap} (f : Follows a b) (g : Follows b c) : Follows a c where
  size_le := f.size_le.trans g.size_le
  vacant p hlt hp := g.vacant p (Nat.lt_of_lt_of_le hlt f.size_le) (f.vacant p hlt hp)
  cls_eq p o o' ho ho' := by
    rcases hb : b.get? p with _ | x
    · have hlt := Nat.lt_of_lt_of_le (index_lt_of_get? ho) f.size_le
      rw [g.vacant p hlt hb] at ho'
      exact absurd ho' (by simp)
    · rw [g.cls_eq p x o' hb ho', f.cls_eq p o x ho hb]

/-- A change of counts, of payloads and of what is new. -/
theorem of_ledger (l : Ledger h handed h') : Follows h h' where
  size_le := l.size_le
  vacant := l.vacant
  cls_eq p o o' ho ho' := by
    obtain ⟨count, hc, -⟩ := l.kept p o ho
    rw [hc, Option.some.injEq] at ho'
    rw [← ho']

/-- A heap that has shrunk follows the one before. -/
theorem of_shrinks {n : Nat} (s : Shrinks n h h') : Follows h h' where
  size_le := s.size_eq.ge
  vacant p _ hp := s.vacant p hp
  cls_eq p o o' ho ho' := by
    obtain ⟨count, hc, -⟩ := s.of_get? ho'
    rw [ho, Option.some.injEq] at hc
    rw [hc]

/-- A heap with a new object follows the one before. -/
theorem alloc (cls : Class) (payload : Payload) : Follows h (h.alloc cls payload).2 where
  size_le := by
    rw [size_alloc]
    exact Nat.le_succ _
  vacant q hq hv := by
    rw [get?_alloc, if_neg, hv]
    rintro rfl
    exact Nat.lt_irrefl _ hq
  cls_eq q x x' hx hx' := by
    rw [get?_alloc_of_some cls payload hx, Option.some.injEq] at hx'
    rw [hx']

/-- A heap with a new payload follows the one before. -/
theorem setPayload (payload : Payload) : Follows h (h.setPayload p payload) where
  size_le := by rw [Heap.setPayload, size_modify]
  vacant q _ hq := by
    rw [Heap.setPayload, get?_modify]
    split_ifs with hqp
    · rw [← hqp, hq]
      rfl
    · exact hq
  cls_eq q x x' hx hx' := by
    rw [Heap.setPayload, get?_modify] at hx'
    split_ifs at hx' with hqp
    · rw [← hqp, hx, Option.map_some, Option.some.injEq] at hx'
      rw [← hx']
    · rw [hx, Option.some.injEq] at hx'
      rw [hx']

end Follows

namespace Orderly

/-- What is owned is there. -/
theorem get?_of_mem (d : Orderly K owned h) (hp : p ∈ owned) : ∃ o, h.get? p = some o :=
  d.ledger.get?_of_mem hp

/-- What a payload refers to is there. -/
theorem get?_of_reference (d : Orderly K owned h) (ho : h.get? p = some o)
    (hq : q ∈ o.payload.references) : ∃ x, h.get? q = some x := by
  have hslot : q ∈ h.slots void.cells.size := mem_slots.2 ⟨p, o, Nat.zero_le _, ho, hq⟩
  obtain ⟨x, hx, -⟩ := d.ledger.backed q (Multiset.mem_add.2 (Or.inr hslot))
  exact ⟨x, hx⟩

/-- The references in a payload are among those that are counted. -/
theorem count_le {x : Obj} (d : Orderly K owned h) (hx : h.get? q = some x)
    (ho : h.get? p = some o) (himm : o.immortal = false) :
    x.payload.references.count p ≤ o.refcount := by
  have hslots : (x.payload.references : Multiset ObjId) ≤ h.slots void.cells.size :=
    le_total (fun x => (x.payload.references : Multiset ObjId)) hx (Nat.zero_le _)
  have hcount := Multiset.count_le_of_le p hslots
  have hledger := d.ledger.count_eq p o ho himm
  rw [Multiset.coe_count] at hcount
  rw [Multiset.count_add] at hledger
  omega

/-- A reference can be taken to everything that is there. -/
theorem backed (d : Orderly K owned h) (ho : h.get? p = some o) : h.Backed h p := by
  refine ⟨o, ho, fun _ himm => ?_⟩
  rw [obj_of_get? ho]
  exact (d.proper p o ho).referenced himm

end Orderly

namespace Moves

/-- Nothing has been moved at first. -/
theorem refl (d : Orderly K owned h) : Moves K h owned h :=
  ⟨d, .refl h⟩

/-- To look at the registry moves nothing. -/
theorem markConsulted (m : Moves K h₀ owned h) : Moves K h₀ owned h.markConsulted where
  orderly := ⟨m.orderly.ledger.markConsulted, m.orderly.proper, m.orderly.truth⟩
  follows := ⟨m.follows.size_le, m.follows.vacant, m.follows.cls_eq⟩

/-- **What is added** by a ledger over an orderly heap leaves it orderly, when the new objects
are proper. -/
theorem added (m : Moves K h₀ owned h) (l : Ledger h handed h')
    (hnew : ∀ p o, h.cells.size ≤ p.index → h'.get? p = some o → o.Proper K) :
    Moves K h₀ (handed + owned) h' := by
  refine ⟨?_, m.follows.trans (.of_ledger l)⟩
  constructor
  case ledger =>
    rw [add_comm]
    exact m.orderly.ledger.trans l
  case proper =>
    intro p o ho
    rcases Nat.lt_or_ge p.index h.cells.size with hlt | hge
    · obtain ⟨count, hb⟩ := l.of_base hlt ho
      have hproper := m.orderly.proper p _ hb
      refine ⟨hproper.known, hproper.offspring, fun himm => ?_⟩
      have hpos : 0 < count := hproper.referenced himm
      have hcount := l.count_eq p o ho himm
      rw [obj_of_get? hb] at hcount
      have hcount' : o.refcount = count + (handed + h'.slots h.cells.size).count p := hcount
      omega
    · exact hnew p o hge ho
  case truth =>
    intro b
    obtain ⟨count, hb⟩ := m.orderly.truth b
    obtain ⟨count', hc, -⟩ := l.kept _ _ hb
    exact ⟨count', hc⟩

/-- A reference is taken. -/
theorem retain (m : Moves K h₀ owned h) (ho : h.get? p = some o) (hr : h.retain p = .ok h') :
    Moves K h₀ (p ::ₘ owned) h' := by
  have l : Ledger h {p} h' := (Ledger.refl h).retain (m.orderly.backed ho) hr
  refine m.added l fun q x hq hx => ?_
  have hlt := index_lt_of_get? hx
  rw [size_of_retain hr] at hlt
  omega

/-- Several references are taken. -/
theorem retainAll {ps : List ObjId} (m : Moves K h₀ owned h)
    (hthere : ∀ q ∈ ps, ∃ o, h.get? q = some o) (hr : Heap.retainAll ps h = .ok h') :
    Moves K h₀ ((ps : Multiset ObjId) + owned) h' := by
  have hb : ∀ q ∈ ps, h.Backed h q := by
    intro q hq
    obtain ⟨o, ho⟩ := hthere q hq
    exact m.orderly.backed ho
  have l := (Ledger.refl h).retainAll hb hr
  rw [add_zero] at l
  refine m.added l fun q x hq hx => ?_
  have hlt := index_lt_of_get? hx
  rw [size_of_retainAll hr] at hlt
  omega

/-- An object is made from owned references. -/
theorem alloc {cls : Class} {payload : Payload}
    (m : Moves K h₀ ((payload.references : Multiset ObjId) + owned) h) (hK : K cls)
    (hoff : Offspring payload.home cls) :
    Moves K h₀ ((h.alloc cls payload).1 ::ₘ owned) (h.alloc cls payload).2 := by
  have hfresh : (fresh cls payload).Proper K := ⟨hK, hoff, fun _ => Nat.one_pos⟩
  refine ⟨?_, m.follows.trans (.alloc cls payload)⟩
  constructor
  case ledger => exact m.orderly.ledger.alloc (Offspring.givesBack hfresh.offspring)
  case proper =>
    intro q x hq
    rw [get?_alloc] at hq
    split_ifs at hq
    · exact Option.some.inj hq ▸ hfresh
    · exact m.orderly.proper q x hq
  case truth =>
    intro b
    obtain ⟨count, hb⟩ := m.orderly.truth b
    exact ⟨count, get?_alloc_of_some cls payload hb⟩

/-- An object gets another payload of the same kind: the references in the old one are owned
from then on, and those in the new one are given up for it. -/
theorem setPayload {payload : Payload} {owned' : Multiset ObjId} (m : Moves K h₀ owned h)
    (ho : h.get? p = some o) (hhome : payload.home = o.payload.home)
    (htruth : o.payload.boolean? = none)
    (hbalance : owned' + (payload.references : Multiset ObjId) =
      owned + (o.payload.references : Multiset ObjId)) :
    Moves K h₀ owned' (h.setPayload p payload) := by
  have hproper := m.orderly.proper p o ho
  have hoff : Offspring payload.home o.cls := hhome ▸ hproper.offspring
  refine ⟨?_, m.follows.trans (.setPayload payload)⟩
  constructor
  case ledger =>
    exact m.orderly.ledger.setPayload ho (Nat.zero_le _)
      (Offspring.givesBack (o := { o with payload }) hoff) hbalance
  case proper =>
    intro q x hq
    rw [Heap.setPayload, get?_modify] at hq
    split_ifs at hq with hqp
    · rw [ho, Option.map_some, Option.some.injEq] at hq
      exact hq ▸ ⟨hproper.known, hoff, hproper.referenced⟩
    · exact m.orderly.proper q x hq
  case truth =>
    intro b
    obtain ⟨count, hb⟩ := m.orderly.truth b
    refine ⟨count, ?_⟩
    rw [Heap.setPayload, get?_modify_of_ne, hb]
    rintro rfl
    rw [ho, Option.some.injEq] at hb
    rw [hb] at htruth
    exact absurd htruth (by simp [Payload.boolean?])

/-- A hash gets other entries. -/
theorem setEntries {entries entries' : KeyMap ObjId} {owned' : Multiset ObjId}
    (m : Moves K h₀ owned h) (ho : h.get? p = some o) (hpay : o.payload = .hash entries)
    (hbalance : owned' + (entries'.values : Multiset ObjId) =
      owned + (entries.values : Multiset ObjId)) :
    Moves K h₀ owned' (h.setPayload p (.hash entries')) := by
  refine m.setPayload ho (by rw [hpay]; rfl) (by rw [hpay]; rfl) ?_
  rw [hpay]
  exact hbalance

/-- A hash gives up the value under a key for a new one. -/
theorem insertEntry {entries : KeyMap ObjId} (key : String) (m : Moves K h₀ (q ::ₘ owned) h)
    (ho : h.get? p = some o) (hpay : o.payload = .hash entries) :
    Moves K h₀ (((entries.get? key).toList : Multiset ObjId) + owned)
      (h.setPayload p (.hash (entries.insert key q))) := by
  refine m.setEntries ho hpay ?_
  rw [add_right_comm,
    add_comm (_ : Multiset ObjId) ((entries.insert key q).values : Multiset ObjId),
    KeyMap.values_insert, Multiset.cons_add, Multiset.cons_add, add_comm]

/-- A vector gets other elements. -/
theorem setElements {elements elements' : List (Option ObjId)} {owned' : Multiset ObjId}
    (m : Moves K h₀ owned h) (ho : h.get? p = some o) (hpay : o.payload = .vector elements)
    (hbalance : owned' + ((elements'.filterMap id : List ObjId) : Multiset ObjId) =
      owned + ((elements.filterMap id : List ObjId) : Multiset ObjId)) :
    Moves K h₀ owned' (h.setPayload p (.vector elements')) := by
  refine m.setPayload ho (by rw [hpay]; rfl) (by rw [hpay]; rfl) ?_
  rw [hpay]
  exact hbalance

/-- **Owned references are given back.** -/
theorem giveBackAll (ps : List ObjId) (m : Moves K h₀ ((ps : Multiset ObjId) + owned) h)
    (machine : Machine) (global : Registry) :
    Moves K h₀ owned (h.giveBackAll (machine.release global) ps) := by
  obtain ⟨h₁, hall, l, s⟩ := m.orderly.ledger.giveBackAll ps
  rw [hall machine global]
  refine ⟨?_, m.follows.trans (.of_shrinks s)⟩
  constructor
  case ledger => exact l
  case proper =>
    intro p o ho
    obtain ⟨count, hc, -⟩ := s.of_get? ho
    have hproper := m.orderly.proper p _ hc
    refine ⟨hproper.known, hproper.offspring, fun himm => ?_⟩
    have hpos : 0 < count := hproper.referenced himm
    rcases s.lessens p _ hc with ⟨hgone, -⟩ | ⟨count', hc', hcount⟩
    · rw [hgone] at ho
      exact absurd ho (by simp)
    · rw [ho, Option.some.injEq] at hc'
      have heq : o.refcount = count' := by rw [hc']
      have hcount' : count' = count ∨ o.immortal = false ∧ 0 < count' ∧ count' < count := hcount
      omega
  case truth =>
    intro b
    obtain ⟨count, hb⟩ := m.orderly.truth b
    rcases s.lessens _ _ hb with ⟨-, -, himm, -⟩ | ⟨count', hc', -⟩
    · exact absurd himm (by simp)
    · exact ⟨count', hc'⟩

/-- One owned reference is given back. -/
theorem release (m : Moves K h₀ (p ::ₘ owned) h) (machine : Machine) (global : Registry) :
    Moves K h₀ owned (machine.release global p h).2 :=
  giveBackAll [p] m machine global

end Moves

end Heap

end Interop

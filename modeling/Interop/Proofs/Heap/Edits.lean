/-
# Edits of one object

The code of a container changes the payload of its receiver, takes references, and makes
objects.  `Heap.Edits` says what is left of the rest of the heap: every other object holds what
it held, and among the payloads there are no more references to what was there than before, up
to those that the receiver gained.

Giving references back afterwards takes payloads away and changes none (`Shrinks.slots_le`).
-/

import Interop.Proofs.Heap.Release
import Interop.Proofs.Native.Containers

namespace Interop

namespace Heap

variable {h₀ h h' : Heap} {p q : ObjId} {o : Obj} {gained more : Multiset ObjId}

/-- Since `h₀` only the payload at `p` was changed, which gained the references in `gained`;
references were taken, and objects were made that refer to new objects only. -/
structure Edits (p : ObjId) (gained : Multiset ObjId) (h₀ h : Heap) : Prop where
  kept : ∀ q o, h₀.get? q = some o → ∃ count payload,
    h.get? q = some { o with refcount := count, payload } ∧ (q ≠ p → payload = o.payload) ∧
      (payload.references : Multiset ObjId) ≤ (o.payload.references : Multiset ObjId) + gained
  slots_le : ∀ q o, h₀.get? q = some o →
    (h.slots 0).count q ≤ (h₀.slots 0).count q + gained.count q

namespace Edits

/-- Nothing has been edited at first. -/
theorem refl (p : ObjId) (h : Heap) : Edits p 0 h h where
  kept _ o ho := ⟨o.refcount, o.payload, ho, fun _ => rfl, (add_zero _).ge⟩
  slots_le q _ _ := by rw [Multiset.count_zero, add_zero]

/-- What is there holds what it held, if it is not the object that is edited. -/
theorem get?_of_ne (e : Edits p gained h₀ h) (hq : h₀.get? q = some o) (hqp : q ≠ p) :
    ∃ count, h.get? q = some { o with refcount := count } := by
  obtain ⟨count, payload, hc, hpay, -⟩ := e.kept q o hq
  rw [hpay hqp] at hc
  exact ⟨count, hc⟩

/-- A reference is taken. -/
theorem retain (e : Edits p gained h₀ h) (hr : h.retain q = .ok h') : Edits p gained h₀ h' := by
  have hslots : h'.slots 0 = h.slots 0 := by
    rw [Heap.retain] at hr
    split_ifs at hr
    · obtain rfl := Except.ok.inj hr
      rfl
    · obtain rfl := Except.ok.inj hr
      exact slots_setCount 0 _
  refine ⟨fun x o hx => ?_, fun x o hx => by rw [hslots]; exact e.slots_le x o hx⟩
  obtain ⟨count, payload, hc, hpay⟩ := e.kept x o hx
  obtain ⟨count', hc'⟩ := get?_of_retain hr hc
  exact ⟨count', payload, hc', hpay⟩

/-- References that are taken during an edit leave it an edit. -/
theorem retainAll {ps : List ObjId} (e : Edits p gained h₀ h)
    (hr : Heap.retainAll ps h = .ok h') : Edits p gained h₀ h' := by
  induction ps generalizing h with
  | nil =>
    obtain rfl := Except.ok.inj hr
    exact e
  | cons q ps ih =>
    obtain ⟨h₁, hq, hps⟩ := retainAll_cons hr
    exact ih (e.retain hq) hps

/-- The object gets another payload. -/
theorem setPayload {payload : Payload} (e : Edits p gained h₀ h) (ho : h.get? p = some o)
    (hle : (payload.references : Multiset ObjId) ≤ (o.payload.references : Multiset ObjId) + more) :
    Edits p (gained + more) h₀ (h.setPayload p payload) := by
  constructor
  case kept =>
    intro q x hq
    obtain ⟨count, old, hc, hpay, hrefs⟩ := e.kept q x hq
    rw [← add_assoc]
    by_cases hqp : q = p
    · subst hqp
      refine ⟨count, payload, get?_modify_self hc _, fun hne => absurd rfl hne, ?_⟩
      rw [ho, Option.some.injEq] at hc
      subst hc
      exact hle.trans (add_le_add_left hrefs more)
    · exact ⟨count, old, (get?_modify_of_ne hqp _).trans hc, hpay, hrefs.trans le_self_add⟩
  case slots_le =>
    intro q x hq
    have hold := e.slots_le q x hq
    have hsum := congrArg (Multiset.count q) (slots_setPayload (n := 0) payload ho (Nat.zero_le _))
    have hcount := Multiset.count_le_of_le q hle
    simp only [Multiset.count_add] at hsum hcount ⊢
    omega

/-- An object is made that refers to new objects only. -/
theorem alloc {cls : Class} {payload : Payload} (e : Edits p gained h₀ h)
    (hnew : ∀ q ∈ payload.references, h₀.get? q = none) :
    Edits p gained h₀ (h.alloc cls payload).2 := by
  constructor
  case kept =>
    intro q x hq
    obtain ⟨count, old, hc, hkept⟩ := e.kept q x hq
    exact ⟨count, old, get?_alloc_of_some cls payload hc, hkept⟩
  case slots_le =>
    intro q x hq
    have hnone : (payload.references : Multiset ObjId).count q = 0 := by
      refine Multiset.count_eq_zero_of_notMem fun hmem => ?_
      rw [hnew q (Multiset.mem_coe.1 hmem)] at hq
      exact absurd hq (by simp)
    rw [slots_alloc cls payload (Nat.zero_le _), Multiset.count_add, hnone]
    exact e.slots_le q x hq

end Edits

/-- A sum over fewer and smaller objects is smaller. -/
theorem total_le_total {n : Nat} (f : Obj → Multiset ObjId) (hsize : h'.cells.size = h.cells.size)
    (hle : ∀ q o, h'.get? q = some o → ∃ x, h.get? q = some x ∧ f o ≤ f x) :
    h'.total n f ≤ h.total n f := by
  refine List.Forall₂.sum_le_sum ?_
  rw [List.forall₂_iff_get]
  refine ⟨by simp [hsize], fun i hi hi' => ?_⟩
  simp only [List.length_map, List.length_drop, Array.length_toList] at hi hi'
  have hlt : n + i < h'.cells.size := by omega
  have hlt' : n + i < h.cells.size := by omega
  simp only [List.get_eq_getElem, List.getElem_map, List.getElem_drop, Array.getElem_toList]
  rcases hc : h'.cells[n + i] with _ | o
  · exact Multiset.zero_le _
  · have ho : h'.get? ⟨n + i⟩ = some o := by
      rw [get?, Array.getElem?_eq_getElem hlt, hc]
      rfl
    obtain ⟨x, hx, hfx⟩ := hle _ o ho
    rw [get?, Array.getElem?_eq_getElem hlt', Option.join_some] at hx
    rw [hx]
    exact hfx

/-- **References that are given back** take no new place in payloads. -/
theorem Shrinks.slots_le (s : Shrinks 0 h h') : h'.slots 0 ≤ h.slots 0 := by
  refine total_le_total _ s.size_eq fun q o ho => ?_
  obtain ⟨count, hc, -⟩ := s.of_get? ho
  exact ⟨_, hc, le_rfl⟩

end Heap

end Interop

/-
# Temporary objects

The objects that stand for the arguments of a call are made from the leaves up: each is
mortal, of the class of its payload, has a reference, and holds only objects that are older
than itself.  So they have no
cycles, and once nobody owns a reference to any of them the ledger leaves no room for them:
the youngest would need a reference from a younger one (`Ledger.same_of_temporary`).
-/

import Interop.Proofs.Heap.Release

namespace Interop

/-- The object `o`, which stands at `p`, is as those that are made for arguments. -/
structure Obj.Temporary (p : ObjId) (o : Obj) : Prop where
  home : o.cls = o.payload.home
  mortal : o.immortal = false
  referenced : 0 < o.refcount
  downward : ∀ q ∈ o.payload.references, q.index < p.index

namespace Heap

variable {h h' : Heap} {n : Nat} {p : ObjId} {o : Obj}

/-- All objects at `n` and later are temporary. -/
def Transient (n : Nat) (h : Heap) : Prop :=
  ∀ p o, n ≤ p.index → h.get? p = some o → o.Temporary p

/-- The two heaps hold the same objects. -/
structure Same (h h' : Heap) : Prop where
  get?_eq : ∀ p, h'.get? p = h.get? p
  live_eq : h'.live = h.live
  fault_eq : h'.fault = h.fault

namespace Transient

/-- Beyond the end of a heap there is nothing that could last. -/
theorem of_size (h : Heap) : Transient h.cells.size h :=
  fun _ _ hn hp => absurd (index_lt_of_get? hp) (Nat.not_lt.2 hn)

/-- A positive count keeps new objects transient. -/
theorem setCount {count : Nat} (t : Transient n h) (hcount : 0 < count) :
    Transient n (h.setCount p count) := by
  intro q x hn hq
  rw [Heap.setCount, get?_modify] at hq
  split_ifs at hq with hqp
  · obtain ⟨o, ho, rfl⟩ := Option.map_eq_some_iff.1 hq
    have hold := t p o (hqp ▸ hn) ho
    exact ⟨hold.home, hold.mortal, hcount, hqp ▸ hold.downward⟩
  · exact t q x hn hq

/-- A reference that is taken keeps new objects transient. -/
theorem retain (t : Transient n h) (hr : h.retain p = .ok h') : Transient n h' := by
  rw [Heap.retain] at hr
  split_ifs at hr with himm hmax
  · obtain rfl := Except.ok.inj hr
    exact t
  · obtain rfl := Except.ok.inj hr
    exact t.setCount (Nat.succ_pos _)

/-- References that are taken keep new objects transient. -/
theorem retainAll {ps : List ObjId} (t : Transient n h) (hr : Heap.retainAll ps h = .ok h') :
    Transient n h' := by
  induction ps generalizing h with
  | nil =>
    obtain rfl := Except.ok.inj hr
    exact t
  | cons p ps ih =>
    obtain ⟨h₁, hp, hps⟩ := retainAll_cons hr
    exact ih (t.retain hp) hps

/-- A new object of the core parcel is transient. -/
theorem alloc {payload : Payload} (t : Transient n h) (hmortal : payload.boolean? = none)
    (hrefs : ∀ q ∈ payload.references, q.index < h.cells.size) :
    Transient n (h.alloc payload.home payload).2 := by
  intro q x hn hq
  rw [get?_alloc] at hq
  split_ifs at hq with hqp
  · obtain rfl := Option.some.inj hq
    subst hqp
    exact ⟨rfl, Payload.mortal_home hmortal, Nat.one_pos, hrefs⟩
  · exact t q x hn hq

/-- What remains after references were given back is temporary. -/
theorem shrinks (t : Transient n h) (s : Shrinks n h h') : Transient n h' := by
  intro p o hn hp
  rcases hh : h.get? p with _ | x
  · rw [s.vacant p hh] at hp
    exact absurd hp (by simp)
  · have hold := t p x hn hh
    rcases s.lessens p x hh with ⟨hgone, -⟩ | ⟨count, hc, hcount⟩
    · rw [hgone] at hp
      exact absurd hp (by simp)
    · rw [hc, Option.some.injEq] at hp
      subst hp
      refine ⟨hold.home, hold.mortal, ?_, hold.downward⟩
      show 0 < count
      have hpos := hold.referenced
      omega

end Transient

end Heap

namespace Ledger

variable {base h : Heap} {owned : Multiset ObjId} {p : ObjId} {o : Obj}

/-- Nobody owns a temporary object, so there is none: a reference to it would stand in a
younger one. -/
theorem vacant_of_temporary (l : Ledger base owned h) (t : h.Transient base.cells.size)
    (howned : ∀ q ∈ owned, q.index < base.cells.size) (hn : base.cells.size ≤ p.index) :
    h.get? p = none := by
  -- the younger the object, the fewer places come after it
  induction hd : h.cells.size - p.index using Nat.strong_induction_on generalizing p with
  | _ d ih =>
    by_contra hsome
    obtain ⟨o, ho⟩ := Option.ne_none_iff_exists'.1 hsome
    have htemp := t p o hn ho
    have hcount := l.count_eq p o ho htemp.mortal
    rw [base_count hn, zero_add, Multiset.count_add,
      Multiset.count_eq_zero_of_notMem fun hp => absurd (howned p hp) (Nat.not_lt.2 hn),
      zero_add] at hcount
    have hmem : p ∈ h.slots base.cells.size := by
      rw [← Multiset.count_pos, ← hcount]
      exact htemp.referenced
    obtain ⟨q, x, hnq, hq, hpq⟩ := Heap.mem_slots.1 hmem
    have hlt := (t q x hnq hq).downward p hpq
    have hsize := Heap.index_lt_of_get? hq
    rw [ih _ (by omega) hnq rfl] at hq
    exact absurd hq (by simp)

/-- **Temporary objects leave no trace:** when the references that are still owned are all to
immortal objects, the heap holds what it held before. -/
theorem same_of_temporary (l : Ledger base owned h) (t : h.Transient base.cells.size)
    (howned : ∀ q ∈ owned, q.index < base.cells.size ∧ (base.obj q).immortal = true) :
    Heap.Same base h := by
  have hvacant : ∀ p : ObjId, base.cells.size ≤ p.index → h.get? p = none := fun p hn =>
    l.vacant_of_temporary t (fun q hq => (howned q hq).1) hn
  have hslots : h.slots base.cells.size = 0 := Heap.total_eq_zero _ hvacant
  refine ⟨fun p => ?_, ?_, l.fault_eq⟩
  · rcases Nat.lt_or_ge p.index base.cells.size with hlt | hge
    · rcases hb : base.get? p with _ | b
      · exact l.vacant p hlt hb
      · obtain ⟨count, hc, himm⟩ := l.kept p b hb
        rcases hmortal : b.immortal with _ | _
        · have hcount := l.count_eq p _ hc hmortal
          have hnot : p ∉ owned := fun hp => by
            have h₁ := (howned p hp).2
            rw [Heap.obj_of_get? hb, hmortal] at h₁
            exact absurd h₁ (by simp)
          rw [hslots, add_zero, Multiset.count_eq_zero_of_notMem hnot, add_zero,
            Heap.obj_of_get? hb] at hcount
          have hcount' : count = b.refcount := hcount
          rw [hc, hcount']
        · rw [hc, himm hmortal]
    · rw [hvacant p hge, Heap.get?_of_size_le hge]
  · have hmortals : h.mortals base.cells.size = 0 := Heap.total_eq_zero _ hvacant
    rw [l.live_eq, hmortals, add_zero]

end Ledger

end Interop

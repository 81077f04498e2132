/-
# What goes with an object

When the last reference to an object is given back, what it held is given back in turn.
`Heap.Cascade` says how this runs and which objects are removed on the way, without a machine
and in any order in which an object may give back what it held.

`Heap.Cleared` says what a cascade leaves of a heap: the objects in a list were removed, each
once, with the references that they held, and of the others only counts have changed.  A
cascade from a heap whose references are accounted for keeps the account and clears
(`Ledger.cascade`), and what a machine does is such a cascade (`Ledger.releaseAt_cascade`).
-/

import Interop.Proofs.Heap.Release

namespace Interop

namespace Heap

variable {h h' h₁ h₂ : Heap} {n : Nat} {p q : ObjId} {o : Obj} {ps freed freed₁ freed₂ : List ObjId}

/-- The heap in which there is no reference to `p` and `p` holds none. -/
def emptied (h : Heap) (p : ObjId) : Heap :=
  (h.setCount p 0).setPayload p (h.obj p).payload.emptied

/-- References to `ps` are given back in turn: this makes `h'` of `h` and removes the objects in
`freed`, in this order.  An object that is torn down gives back what it held in any order. -/
inductive Cascade : List ObjId → Heap → List ObjId → Heap → Prop
  | nil (h : Heap) : Cascade [] h [] h
  | immortal {p : ObjId} {ps freed : List ObjId} {h h' : Heap}
      (himm : (h.obj p).immortal = true) (others : Cascade ps h freed h') :
      Cascade (p :: ps) h freed h'
  | spare {p : ObjId} {ps freed : List ObjId} {h h' : Heap} {left : Nat}
      (himm : (h.obj p).immortal = false) (hleft : (h.obj p).refcount = left + 2)
      (others : Cascade ps (h.setCount p (left + 1)) freed h') :
      Cascade (p :: ps) h freed h'
  | last {p : ObjId} {ps visited inner freed : List ObjId} {h h₁ h' : Heap}
      (himm : (h.obj p).immortal = false) (hone : (h.obj p).refcount = 1)
      (hvisited : visited.Perm (h.obj p).payload.references)
      (within : Cascade visited (h.emptied p) inner h₁) (others : Cascade ps (h₁.free p) freed h') :
      Cascade (p :: ps) h (inner ++ p :: freed) h'

/-- One reference is given back, and then others. -/
theorem Cascade.cons (c : Cascade [p] h freed₁ h₁) (d : Cascade ps h₁ freed₂ h₂) :
    Cascade (p :: ps) h (freed₁ ++ freed₂) h₂ := by
  cases c with
  | immortal himm others =>
    cases others
    exact .immortal himm d
  | spare himm hleft others =>
    cases others
    exact .spare himm hleft d
  | last himm hone hvisited within others =>
    cases others
    rw [List.append_assoc]
    exact .last himm hone hvisited within d

/-- The references in the payloads of these objects. -/
def held (h : Heap) (ps : List ObjId) : Multiset ObjId :=
  (ps.map fun p => ((h.obj p).payload.references : Multiset ObjId)).sum

/-- Two lists of objects hold together what each of them holds. -/
theorem held_append (h : Heap) (ps qs : List ObjId) :
    h.held (ps ++ qs) = h.held ps + h.held qs := by
  rw [held, List.map_append, List.sum_append]
  rfl

/-- No objects hold no references. -/
@[simp] theorem held_nil (h : Heap) : h.held [] = 0 := rfl

/-- One object holds the references of its payload. -/
@[simp] theorem held_one (h : Heap) (p : ObjId) :
    h.held [p] = ((h.obj p).payload.references : Multiset ObjId) := by
  rw [held, List.map_singleton, List.sum_singleton]

/-- What objects hold depends on their payloads only. -/
theorem held_congr (hpay : ∀ p ∈ ps, (h'.obj p).payload = (h.obj p).payload) :
    h'.held ps = h.held ps := by
  rw [held, held]
  congr 1
  exact List.map_congr_left fun p hp => by rw [hpay p hp]

/-! ### What a cascade leaves -/

/-- The objects in `freed` were removed, each once and with the references that it held, and of
the others only counts have changed. -/
structure Cleared (n : Nat) (h : Heap) (freed : List ObjId) (h' : Heap) : Prop where
  shrinks : Shrinks n h h'
  nodup : freed.Nodup
  mem_freed : ∀ q, q ∈ freed ↔ (∃ o, h.get? q = some o) ∧ h'.get? q = none
  slots_eq : h.slots n = h'.slots n + h.held freed
  live_eq : h'.live + freed.length = h.live

/-- An object that is there after references were given back holds what it held. -/
theorem Shrinks.payload_eq (s : Shrinks n h h') (hq : h'.get? q = some o) :
    (h'.obj q).payload = (h.obj q).payload := by
  obtain ⟨count, hc, -⟩ := s.of_get? hq
  rw [obj_of_get? hq, obj_of_get? hc]

namespace Cleared

/-- Nothing has been cleared at first. -/
theorem refl (n : Nat) (h : Heap) : Cleared n h [] h where
  shrinks := .refl n h
  nodup := List.nodup_nil
  mem_freed q := by
    refine ⟨fun hq => absurd hq List.not_mem_nil, fun ⟨⟨o, ho⟩, hgone⟩ => ?_⟩
    rw [ho] at hgone
    exact absurd hgone (by simp)
  slots_eq := (add_zero _).symm
  live_eq := rfl

/-- **What is cleared in two steps is cleared.** -/
theorem trans (c : Cleared n h freed₁ h₁) (d : Cleared n h₁ freed₂ h₂) :
    Cleared n h (freed₁ ++ freed₂) h₂ where
  shrinks := c.shrinks.trans d.shrinks
  nodup := by
    refine List.nodup_append'.2 ⟨c.nodup, d.nodup, fun q hq hq' => ?_⟩
    obtain ⟨o, ho⟩ := ((d.mem_freed q).1 hq').1
    rw [((c.mem_freed q).1 hq).2] at ho
    exact absurd ho (by simp)
  mem_freed q := by
    rw [List.mem_append, c.mem_freed, d.mem_freed]
    constructor
    · rintro (⟨hq, hgone⟩ | ⟨⟨o, ho⟩, hgone⟩)
      · exact ⟨hq, d.shrinks.vacant q hgone⟩
      · obtain ⟨count, hc, -⟩ := c.shrinks.of_get? ho
        exact ⟨⟨_, hc⟩, hgone⟩
    · rintro ⟨hq, hgone⟩
      rcases hmiddle : h₁.get? q with _ | o
      · exact Or.inl ⟨hq, rfl⟩
      · exact Or.inr ⟨⟨o, rfl⟩, hgone⟩
  -- what was freed in the second step held the same before the first
  slots_eq := by
    have hsame : h₁.held freed₂ = h.held freed₂ := held_congr fun q hq => by
      obtain ⟨o, ho⟩ := ((d.mem_freed q).1 hq).1
      exact c.shrinks.payload_eq ho
    rw [c.slots_eq, d.slots_eq, held_append, hsame]
    abel
  live_eq := by
    have hfirst := c.live_eq
    have hsecond := d.live_eq
    rw [List.length_append]
    omega

/-- One of several references is given back. -/
theorem setCount {left : Nat} (ho : h.get? p = some o) (himm : o.immortal = false)
    (hleft : o.refcount = left + 2) : Cleared n h [] (h.setCount p (left + 1)) where
  shrinks := .setCount ho himm (Nat.succ_pos left) (by omega)
  nodup := List.nodup_nil
  mem_freed q := by
    rw [Heap.setCount, get?_modify]
    by_cases hqp : q = p
    · subst hqp
      simp [ho]
    · simp only [List.not_mem_nil, if_neg hqp, false_iff, not_and]
      rintro ⟨x, hx⟩
      rw [hx]
      exact fun h => absurd h (by simp)
  slots_eq := by rw [slots_setCount, held_nil, add_zero]
  live_eq := live_modify _

/-- **An object goes last**, after what went with it. -/
theorem removed (ho : h.get? p = some o) (hn : n ≤ p.index) (himm : o.immortal = false)
    (hone : o.refcount = 1) (c : Cleared n (h.emptied p) freed h₁) (hlive : 0 < h₁.live) :
    Cleared n h (freed ++ [p]) (h₁.free p) := by
  have hemptied : h.emptied p = (h.setCount p 0).setPayload p o.payload.emptied := by
    rw [emptied, obj_of_get? ho]
  have ho₀ : (h.setCount p 0).get? p = some { o with refcount := 0 } := get?_modify_self ho _
  have hbare : (h.emptied p).get? p =
      some { o with refcount := 0, payload := o.payload.emptied } := by
    rw [hemptied]
    exact get?_modify_self ho₀ _
  -- `p` has no count while its slots are emptied, so nothing that goes with it is `p` itself
  have hlast := c.shrinks.get?_of_zero hbare rfl
  have hother : ∀ {q}, q ≠ p → (h.emptied p).get? q = h.get? q := by
    intro q hqp
    rw [hemptied, Heap.setPayload, get?_modify_of_ne hqp, Heap.setCount, get?_modify_of_ne hqp]
  have hnot : p ∉ freed := fun hp => by
    have hgone := ((c.mem_freed p).1 hp).2
    rw [hlast] at hgone
    exact absurd hgone (by simp)
  constructor
  case shrinks => exact .removed ho hn himm (by omega) (hemptied ▸ c.shrinks)
  case nodup =>
    refine List.nodup_append'.2 ⟨c.nodup, List.nodup_singleton p, fun q hq hq' => ?_⟩
    exact hnot (List.mem_singleton.1 hq' ▸ hq)
  case mem_freed =>
    intro q
    rw [List.mem_append, List.mem_singleton]
    by_cases hqp : q = p
    · subst hqp
      simp [ho, get?_free]
    · rw [c.mem_freed, hother hqp, get?_free_of_ne hqp]
      simp [hqp]
  case slots_eq =>
    have hsame : (h.emptied p).held freed = h.held freed := held_congr fun q hq => by
      rw [obj, obj, hother fun hqp => hnot (hqp ▸ hq)]
    have hgiven := slots_setPayload (n := n) o.payload.emptied ho₀ hn
    have hslots := c.slots_eq
    have hfree := slots_free hlast hn
    rw [← hemptied, slots_setCount, Ledger.references_emptied, Multiset.coe_nil, add_zero] at hgiven
    rw [Ledger.references_emptied, Multiset.coe_nil, add_zero] at hfree
    rw [← hgiven, hslots, hsame, hfree, held_append, held_one, obj_of_get? ho, add_assoc]
  case live_eq =>
    have hbefore : (h.emptied p).live = h.live := by
      rw [emptied, Heap.setPayload, live_modify, Heap.setCount, live_modify]
    have hinner := c.live_eq
    have hfree : (h₁.free p).live = h₁.live - 1 := rfl
    rw [List.length_append, List.length_singleton]
    omega

end Cleared

end Heap

/-! ### Accounts -/

namespace Ledger

variable {base h h' : Heap} {owned : Multiset ObjId} {p : ObjId} {o : Obj}
  {ps freed : List ObjId} {k : Nat}

/-- A mortal object that is new is one of those that are counted. -/
theorem live_pos (l : Ledger base owned h) (ho : h.get? p = some o) (hn : base.cells.size ≤ p.index)
    (himm : o.immortal = false) : 0 < h.live := by
  have hcount := Heap.mortals_free ho hn himm
  have hlive := l.live_eq
  omega

/-- **The last reference is given back:** the object is emptied, what it held goes with an account
of its own, and from what that leaves the object is removed. -/
theorem last {visited : List ObjId} (l : Ledger base (p ::ₘ owned) h) (ho : h.get? p = some o)
    (himm : o.immortal = false) (hone : o.refcount = 1)
    (hvisited : visited.Perm o.payload.references) :
    Ledger base ((visited : Multiset ObjId) + owned) (h.emptied p) ∧
      ∀ {inner h₁}, Ledger base owned h₁ → Heap.Cleared base.cells.size (h.emptied p) inner h₁ →
        Ledger base owned (h₁.free p) ∧
          Heap.Cleared base.cells.size h (inner ++ [p]) (h₁.free p) := by
  have hn := (l.sole ho himm hone).1
  have hemptied : h.emptied p = (h.setCount p 0).setPayload p o.payload.emptied := by
    rw [Heap.emptied, Heap.obj_of_get? ho]
  constructor
  · rw [Multiset.coe_eq_coe.2 hvisited, hemptied]
    exact l.emptied ho himm hone
  · intro inner h₁ l₁ c₁
    have hbare : h₁.get? p = some { o with refcount := 0, payload := o.payload.emptied } := by
      refine c₁.shrinks.get?_of_zero ?_ rfl
      rw [hemptied]
      exact Heap.get?_modify_self (Heap.get?_modify_self ho _) _
    exact ⟨l₁.free hbare hn himm rfl (references_emptied _),
      .removed ho hn himm hone c₁ (l₁.live_pos hbare hn himm)⟩

/-- **A cascade keeps the account and clears the heap**, in whatever order what was held is
given back. -/
theorem cascade (c : Heap.Cascade ps h freed h') :
    ∀ {owned}, Ledger base ((ps : Multiset ObjId) + owned) h →
      Ledger base owned h' ∧ Heap.Cleared base.cells.size h freed h' := by
  -- one case for each way to give a reference back; the last reference nests a cascade
  induction c with
  | nil h =>
    intro owned l
    rw [Multiset.coe_nil, zero_add] at l
    exact ⟨l, .refl _ h⟩
  | @immortal p ps freed h h' himm _ ih =>
    intro owned l
    rw [← Multiset.cons_coe, Multiset.cons_add] at l
    obtain ⟨o, ho⟩ := l.get?_of_mem (Multiset.mem_cons_self p _)
    rw [Heap.obj_of_get? ho] at himm
    exact ih (l.of_immortal ho himm fun q hq => (Multiset.count_cons_of_ne hq _).symm)
  | @spare p ps freed h h' left himm hleft _ ih =>
    intro owned l
    rw [← Multiset.cons_coe, Multiset.cons_add] at l
    obtain ⟨o, ho⟩ := l.get?_of_mem (Multiset.mem_cons_self p _)
    rw [Heap.obj_of_get? ho] at himm hleft
    obtain ⟨l', c'⟩ := ih (l.spare ho himm hleft)
    exact ⟨l', (Heap.Cleared.setCount ho himm hleft).trans c'⟩
  | @last p ps visited inner freed h h₁ h' himm hone hvisited _ _ ihw iho =>
    intro owned l
    rw [← Multiset.cons_coe, Multiset.cons_add] at l
    obtain ⟨o, ho⟩ := l.get?_of_mem (Multiset.mem_cons_self p _)
    rw [Heap.obj_of_get? ho] at himm hone hvisited
    obtain ⟨l₀, hremoved⟩ := l.last ho himm hone hvisited
    obtain ⟨l₁, c₁⟩ := ihw l₀
    obtain ⟨l₂, c₂⟩ := hremoved l₁ c₁
    obtain ⟨l', c'⟩ := iho l₂
    rw [List.append_cons]
    exact ⟨l', c₂.trans c'⟩

/-! ### Machines -/

/-- The references to `ps` are given back by a cascade, if one reference is. -/
theorem giveBackAll_cascade {give : ObjId → Heap → Nat × Heap}
    (hone : ∀ {p owned h}, Ledger base (p ::ₘ owned) h → h.standing base.cells.size ≤ k →
      ∃ freed, Heap.Cascade [p] h freed (give p h).2) :
    ∀ {ps : List ObjId} {owned h}, Ledger base ((ps : Multiset ObjId) + owned) h →
      h.standing base.cells.size ≤ k → ∃ freed, Heap.Cascade ps h freed (h.giveBackAll give ps)
  | [], _, h, _, _ => ⟨[], .nil h⟩
  | p :: ps, owned, h, l, hk => by
    rw [← Multiset.cons_coe, Multiset.cons_add] at l
    obtain ⟨freed, c⟩ := hone l hk
    have hsingle : Ledger base ((([p] : List ObjId) : Multiset ObjId) + (ps + owned)) h := by
      rwa [Multiset.coe_singleton, Multiset.singleton_add]
    obtain ⟨l', cleared⟩ := Ledger.cascade c hsingle
    obtain ⟨others, d⟩ := giveBackAll_cascade hone l' (cleared.shrinks.standing_le.trans hk)
    exact ⟨freed ++ others, c.cons d⟩

/-- **What a machine does is a cascade**, if its calls may nest more deeply than there are
objects with a reference. -/
theorem releaseAt_cascade (image : Image) (global : Registry) : ∀ (depth : Nat) {p owned h},
    Ledger base (p ::ₘ owned) h → h.standing base.cells.size < depth →
      ∃ freed, Heap.Cascade [p] h freed (image.releaseAt global depth p h).2
  | 0, _, _, _, _, hdepth => absurd hdepth (Nat.not_lt_zero _)
  | depth + 1, p, owned, h, l, hdepth => by
    obtain ⟨o, ho⟩ := l.get?_of_mem (Multiset.mem_cons_self p owned)
    have hobj := Heap.obj_of_get? ho
    have hcount := l.count_eq p o ho
    rw [Multiset.cons_add, Multiset.count_cons_self] at hcount
    rcases himm : o.immortal with _ | _
    · obtain hone | ⟨left, hleft⟩ : o.refcount = 1 ∨ ∃ left, o.refcount = left + 2 := by
        have hpos := hcount himm
        rcases Nat.lt_or_ge o.refcount 2 with hlt | hge
        · exact Or.inl (by omega)
        · exact Or.inr ⟨o.refcount - 2, by omega⟩
      · have hn := (l.sole ho himm hone).1
        have hstand := Heap.standing_setCount_zero ho hn himm (by omega)
        have hemptied : h.emptied p = (h.setCount p 0).setPayload p o.payload.emptied := by
          rw [Heap.emptied, hobj]
        have hfewer : (h.emptied p).standing base.cells.size < depth := by
          rw [hemptied, Heap.standing_setPayload]
          omega
        obtain ⟨inner, c⟩ := giveBackAll_cascade
          (fun l hk => releaseAt_cascade image global depth l (Nat.lt_of_le_of_lt hk hfewer))
          (l.last ho himm hone (.refl _)).1 le_rfl
        rw [image.releaseAt_last global depth ho himm hone (l.givesBack p o hn ho), ← hemptied]
        exact ⟨inner ++ [p], .last (by rw [hobj, himm]) (by rw [hobj, hone]) (by rw [hobj]) c
          (.nil _)⟩
      · refine ⟨[], ?_⟩
        rw [Image.releaseAt, hobj]
        simp only [himm, hleft]
        exact .spare (by rw [hobj, himm]) (by rw [hobj, hleft]) (.nil _)
    · refine ⟨[], ?_⟩
      rw [Image.releaseAt, hobj]
      simp only [himm, if_true]
      exact .immortal (by rw [hobj, himm]) (.nil _)

end Ledger

end Interop

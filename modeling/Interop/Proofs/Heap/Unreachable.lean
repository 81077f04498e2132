/-
# Exactly what nobody can reach is removed

In a heap where every mortal object has a reference and all references are accounted for, the
last reference to an object is given back.  **What is removed is the least set that contains
every mortal object all of whose references come from its members**
(`Ledger.isLeast_freed`): a set that is closed in this sense (`Heap.Closed`) stays closed along
the cascade, so each object that is removed is in it; and an object that is left over still has
a reference from outside of what was removed.

The least set does not depend on the order in which objects give back what they held, and with
it neither does the heap that remains (`Ledger.cascade_unique`).  `Ledger.release_collapses`
says what giving back one reference does on every machine.
-/

import Interop.Proofs.Heap.Cascade
import Interop.Sample.Native
import Mathlib.Order.Bounds.Basic

namespace Interop

/-- The object after `n` references to it were given back. -/
def Obj.lowered (o : Obj) (n : Nat) : Obj :=
  if o.immortal then o else { o with refcount := o.refcount - n }

namespace Heap

variable {h h' : Heap} {n : Nat} {p q : ObjId} {o : Obj} {ps freed : List ObjId}
  {owned more : Multiset ObjId} {T : Set ObjId}

/-- Every mortal object that is not owned and that only members of `T` hold is a member of
`T`. -/
def Closed (owned : Multiset ObjId) (T : Set ObjId) (h : Heap) : Prop :=
  ∀ q o, h.get? q = some o → o.immortal = false → q ∉ owned →
    (∀ r, q ∈ (h.obj r).payload.references → r ∈ T) → q ∈ T

/-- Objects that hold something exist. -/
theorem get?_of_holds (hq : q ∈ (h.obj p).payload.references) : ∃ o, h.get? p = some o := by
  rcases hp : h.get? p with _ | o
  · rw [obj_of_vacant hp] at hq
    exact absurd hq List.not_mem_nil
  · exact ⟨o, rfl⟩

/-- What is cleared from within a closed set leaves it closed. -/
theorem Closed.cleared (hT : h.Closed owned T) (c : Cleared n h freed h')
    (hsub : ∀ q ∈ freed, q ∈ T) : h'.Closed owned T := by
  intro q o hq himm hnot hall
  obtain ⟨count, hc, -⟩ := c.shrinks.of_get? hq
  refine hT q _ hc himm hnot fun r hr => ?_
  rcases hr' : h'.get? r with _ | y
  · exact hsub r ((c.mem_freed r).2 ⟨get?_of_holds hr, hr'⟩)
  · exact hall r (by rwa [c.shrinks.payload_eq hr'])

/-- A member of a closed set may be emptied, and what it held be owned. -/
theorem Closed.emptied (hT : h.Closed owned T) (hp : p ∈ T) (hmore : ∀ q ∈ owned, q ∈ more) :
    (h.emptied p).Closed more T := by
  have hother : ∀ {r}, r ≠ p → (h.emptied p).get? r = h.get? r := by
    intro r hrp
    rw [Heap.emptied, setPayload, get?_modify_of_ne hrp, setCount, get?_modify_of_ne hrp]
  intro q o hq himm hnot hall
  by_cases hqp : q = p
  · exact hqp ▸ hp
  · refine hT q o (hother hqp ▸ hq) himm (fun hmem => hnot (hmore q hmem)) fun r hr => ?_
    by_cases hrp : r = p
    · exact hrp ▸ hp
    · exact hall r (by rwa [obj, hother hrp])

/-- Heaps with the same objects and the same counters are the same. -/
theorem eq_of_get? (hsize : h'.cells.size = h.cells.size) (hget : ∀ q, h'.get? q = h.get? q)
    (hlive : h'.live = h.live) (hfault : h'.fault = h.fault)
    (hconsulted : h'.consulted = h.consulted) : h' = h := by
  obtain ⟨cells, live, fault, consulted⟩ := h
  obtain ⟨cells', live', fault', consulted'⟩ := h'
  obtain rfl : live' = live := hlive
  obtain rfl : fault' = fault := hfault
  obtain rfl : consulted' = consulted := hconsulted
  congr 1
  refine Array.ext hsize fun i hi hi' => ?_
  have hcell := hget ⟨i⟩
  simp only [get?, Array.getElem?_eq_getElem hi, Array.getElem?_eq_getElem hi',
    Option.join_some] at hcell
  exact hcell

/-- Where there is one reference left, the object itself is removed. -/
theorem Cascade.mem_freed (c : Cascade [p] h freed h') (himm : (h.obj p).immortal = false)
    (hone : (h.obj p).refcount = 1) : p ∈ freed := by
  cases c with
  | immortal himm' =>
    rw [himm] at himm'
    exact absurd himm' (by simp)
  | spare _ hleft =>
    rw [hone] at hleft
    exact absurd hleft (by omega)
  | last => exact List.mem_append_right _ List.mem_cons_self

/-- Where there is more than one reference left, one count falls. -/
theorem Cascade.eq_setCount (c : Cascade [p] h freed h') (himm : (h.obj p).immortal = false)
    (hmany : 1 < (h.obj p).refcount) : freed = [] ∧ h' = h.setCount p ((h.obj p).refcount - 1) := by
  cases c with
  | immortal himm' =>
    rw [himm] at himm'
    exact absurd himm' (by simp)
  | spare _ hleft others =>
    cases others
    rw [hleft]
    exact ⟨rfl, rfl⟩
  | last _ hone => exact absurd hmany (by omega)

end Heap

namespace Ledger

open Heap (void)

variable {h h' h'' : Heap} {x : ObjId} {o : Obj} {owned rest : Multiset ObjId}
  {ps freed freed' : List ObjId} {T : Set ObjId}

/-- **A cascade stays within every closed set.**  An object to which the last reference is given
back is owned by nobody and held by nobody, so it is a member. -/
theorem freed_subset (c : Heap.Cascade ps h freed h') :
    ∀ {owned}, Ledger void ((ps : Multiset ObjId) + owned) h → h.Closed owned T →
      ∀ q ∈ freed, q ∈ T := by
  -- induction on the cascade; only the last reference to an object adds a member
  induction c with
  | nil h => exact fun _ _ q hq => absurd hq List.not_mem_nil
  | @immortal p ps freed h h' himm _ ih =>
    intro owned l hT
    rw [← Multiset.cons_coe, Multiset.cons_add] at l
    obtain ⟨o, ho⟩ := l.get?_of_mem (Multiset.mem_cons_self p _)
    rw [Heap.obj_of_get? ho] at himm
    exact ih (l.of_immortal ho himm fun q hq => (Multiset.count_cons_of_ne hq _).symm) hT
  | @spare p ps freed h h' left himm hleft _ ih =>
    intro owned l hT
    rw [← Multiset.cons_coe, Multiset.cons_add] at l
    obtain ⟨o, ho⟩ := l.get?_of_mem (Multiset.mem_cons_self p _)
    rw [Heap.obj_of_get? ho] at himm hleft
    have hcleared : Heap.Cleared 0 h [] (h.setCount p (left + 1)) := .setCount ho himm hleft
    exact ih (l.spare ho himm hleft) (hT.cleared hcleared fun q hq => absurd hq List.not_mem_nil)
  | @last p ps visited inner freed h h₁ h' himm hone hvisited within _ ihw iho =>
    intro owned l hT
    rw [← Multiset.cons_coe, Multiset.cons_add] at l
    obtain ⟨o, ho⟩ := l.get?_of_mem (Multiset.mem_cons_self p _)
    rw [Heap.obj_of_get? ho] at himm hone hvisited
    have hnone := (l.sole ho himm hone).2
    rw [Multiset.count_eq_zero, Multiset.mem_add, not_or, Multiset.mem_add, not_or] at hnone
    have hp : p ∈ T := by
      refine hT p o ho himm hnone.1.2 fun r hr => ?_
      obtain ⟨y, hy⟩ := Heap.get?_of_holds hr
      rw [Heap.obj_of_get? hy] at hr
      exact absurd (Heap.mem_slots.2 ⟨r, y, Nat.zero_le _, hy, hr⟩) hnone.2
    obtain ⟨l₀, hremoved⟩ := l.last ho himm hone hvisited
    obtain ⟨l₁, c₁⟩ := Ledger.cascade within l₀
    obtain ⟨l₂, c₂⟩ := hremoved l₁ c₁
    have hinner := ihw l₀ (hT.emptied hp fun q hq => Multiset.mem_add.2 (Or.inr hq))
    have hhere : ∀ q ∈ inner ++ [p], q ∈ T := by
      intro q hq
      rcases List.mem_append.1 hq with hq | hq
      · exact hinner q hq
      · exact List.mem_singleton.1 hq ▸ hp
    rw [List.append_cons]
    intro q hq
    rcases List.mem_append.1 hq with hq | hq
    · exact hhere q hq
    · exact iho l₂ (hT.cleared c₂ hhere) q hq

section One

variable (l : Ledger void (x ::ₘ rest) h)

include l

/-- One reference to the example object is the first of those that are owned. -/
theorem one : Ledger void ((([x] : List ObjId) : Multiset ObjId) + rest) h := by
  rwa [Multiset.coe_singleton, Multiset.singleton_add]

/-- **What is removed with the last reference to an object** is the least set that contains every
mortal object all of whose references come from members. -/
theorem isLeast_freed
    (hpos : ∀ q y, h.get? q = some y → y.immortal = false → 0 < y.refcount)
    (ho : h.get? x = some o) (himm : o.immortal = false) (hone : o.refcount = 1)
    (c : Heap.Cascade [x] h freed h') :
    IsLeast {T : Set ObjId | x ∈ T ∧ h.Closed rest T} {q | q ∈ freed} := by
  obtain ⟨l', cleared⟩ := Ledger.cascade c l.one
  have hobj := Heap.obj_of_get? ho
  refine ⟨⟨c.mem_freed (by rw [hobj, himm]) (by rw [hobj, hone]), ?_⟩,
    fun T hT => freed_subset c l.one hT.2⟩
  intro q y hy himmq hnot hall
  by_contra hleft
  -- what is left over has a count, and nothing that is left over accounts for it
  rcases cleared.shrinks.lessens q y hy with ⟨hgone, -⟩ | ⟨count, hc, hcount⟩
  · exact hleft ((cleared.mem_freed q).2 ⟨⟨y, hy⟩, hgone⟩)
  · have hposq := hpos q y hy himmq
    have hsum : count = 0 + (rest + h'.slots 0).count q := l'.count_eq q _ hc himmq
    have hmem : q ∈ rest + h'.slots 0 := Multiset.count_pos.1 (by omega)
    rcases Multiset.mem_add.1 hmem with hmem | hmem
    · exact hnot hmem
    · obtain ⟨r, z, -, hz, hr⟩ := Heap.mem_slots.1 hmem
      have hfreed : r ∈ freed := by
        refine hall r ?_
        rwa [← cleared.shrinks.payload_eq hz, Heap.obj_of_get? hz]
      rw [((cleared.mem_freed r).1 hfreed).2] at hz
      exact absurd hz (by simp)

/-- What is left over has lost the references that were held by what was removed. -/
theorem survivor (c : Heap.Cascade [x] h freed h') (hx : x ∈ freed) {q : ObjId}
    (hq : q ∉ freed) :
    h'.get? q = (h.get? q).map fun y => y.lowered ((h.held freed).count q) := by
  obtain ⟨l', cleared⟩ := Ledger.cascade c l.one
  rcases hy : h.get? q with _ | y
  · exact cleared.shrinks.vacant q hy
  · rcases cleared.shrinks.lessens q y hy with ⟨hgone, -⟩ | ⟨count, hc, hcount⟩
    · exact absurd ((cleared.mem_freed q).2 ⟨⟨y, hy⟩, hgone⟩) hq
    · rw [hc, Option.map_some, Option.some.injEq, Obj.lowered]
      by_cases himm : y.immortal = true
      · have heq : count = y.refcount := by simpa [himm] using hcount
        rw [if_pos himm, heq]
      · have himm' : y.immortal = false := Bool.eq_false_iff.2 himm
        have hbefore : y.refcount = 0 + (x ::ₘ rest + h.slots 0).count q :=
          l.count_eq q y hy himm'
        have hafter : count = 0 + (rest + h'.slots 0).count q := l'.count_eq q _ hc himm'
        have hslots : h.slots 0 = h'.slots 0 + h.held freed := cleared.slots_eq
        have hqx : q ≠ x := fun hqx => hq (hqx ▸ hx)
        rw [Multiset.cons_add, Multiset.count_cons_of_ne hqx, hslots, ← add_assoc,
          Multiset.count_add] at hbefore
        have heq : count = y.refcount - (h.held freed).count q := by omega
        rw [if_neg himm, heq]

/-- What is left over has a reference that is not held by what was removed. -/
theorem held_lt (hpos : ∀ q y, h.get? q = some y → y.immortal = false → 0 < y.refcount)
    (c : Heap.Cascade [x] h freed h') (hx : x ∈ freed) {q : ObjId} {y : Obj} (hq : q ∉ freed)
    (hy : h.get? q = some y) (himm : y.immortal = false) :
    (h.held freed).count q < y.refcount := by
  obtain ⟨l', cleared⟩ := Ledger.cascade c l.one
  have hsurvivor := l.survivor c hx hq
  rw [hy, Option.map_some, Obj.lowered, himm] at hsurvivor
  have hcount := hpos q y hy himm
  rcases cleared.shrinks.lessens q y hy with ⟨hgone, -⟩ | ⟨count, hc, hrest⟩
  · exact absurd ((cleared.mem_freed q).2 ⟨⟨y, hy⟩, hgone⟩) hq
  · rw [hc, Option.some.injEq] at hsurvivor
    have heq : count = y.refcount - (h.held freed).count q := congrArg Obj.refcount hsurvivor
    omega

/-- **The order does not matter:** all cascades remove the same objects and leave the same
heap. -/
theorem cascade_unique
    (hpos : ∀ q y, h.get? q = some y → y.immortal = false → 0 < y.refcount)
    (ho : h.get? x = some o) (himm : o.immortal = false) (c : Heap.Cascade [x] h freed h')
    (d : Heap.Cascade [x] h freed' h'') : freed'.Perm freed ∧ h'' = h' := by
  have hobj := Heap.obj_of_get? ho
  have himm' : (h.obj x).immortal = false := by rw [hobj, himm]
  rcases Nat.lt_or_ge 1 o.refcount with hmany | hfew
  · rw [← hobj] at hmany
    obtain ⟨rfl, rfl⟩ := c.eq_setCount himm' hmany
    obtain ⟨rfl, rfl⟩ := d.eq_setCount himm' hmany
    exact ⟨.refl _, rfl⟩
  · have hone : o.refcount = 1 := by
      have := hpos x o ho himm
      omega
    have hone' : (h.obj x).refcount = 1 := by rw [hobj, hone]
    obtain ⟨lc, cleared⟩ := Ledger.cascade c l.one
    obtain ⟨ld, cleared'⟩ := Ledger.cascade d l.one
    -- both cascades free the least closed set, so they free the same objects
    have hsets : {q | q ∈ freed'} = {q | q ∈ freed} :=
      (l.isLeast_freed hpos ho himm hone d).unique (l.isLeast_freed hpos ho himm hone c)
    have hmem : ∀ q, q ∈ freed' ↔ q ∈ freed := fun q => Set.ext_iff.1 hsets q
    have hperm : freed'.Perm freed :=
      (List.perm_ext_iff_of_nodup cleared'.nodup cleared.nodup).2 hmem
    have hheld : h.held freed' = h.held freed := (hperm.map _).sum_eq
    refine ⟨hperm, Heap.eq_of_get? ?_ ?_ ?_ ?_ ?_⟩
    · rw [cleared'.shrinks.size_eq, cleared.shrinks.size_eq]
    · intro q
      by_cases hq : q ∈ freed
      · rw [((cleared.mem_freed q).1 hq).2, ((cleared'.mem_freed q).1 ((hmem q).2 hq)).2]
      · rw [l.survivor c (c.mem_freed himm' hone') hq,
          l.survivor d (d.mem_freed himm' hone') (fun hq' => hq ((hmem q).1 hq')), hheld]
    · have hlive := cleared.live_eq
      have hlive' := cleared'.live_eq
      have hlength := hperm.length_eq
      omega
    · rw [ld.fault_eq, lc.fault_eq]
    · rw [cleared'.shrinks.consulted_eq, cleared.shrinks.consulted_eq]

/-- **What giving one reference to a mortal object back does**, on every machine and however
deep its calls may nest beyond the number of mortal objects: it ends, without a fault, and says
how many references are left.  One of several references leaves all else as it is.  With the
last one goes the least set that contains the object and every mortal object all of whose
references come from members; each member is removed once, what survives has lost the references
that members held and nothing else, and fewer objects by just these are counted.  In whatever
order objects give back what they held, the same objects are removed and the same heap is
left. -/
theorem release_collapses
    (hpos : ∀ q y, h.get? q = some y → y.immortal = false → 0 < y.refcount)
    (ho : h.get? x = some o) (himm : o.immortal = false) :
    ∃ freed h',
      (∀ (image : Image) (global : Registry) (depth : Nat), h.live < depth →
        image.releaseAt global depth x h = (o.refcount - 1, h')) ∧
      h'.fault = none ∧
      (1 < o.refcount → freed = [] ∧ h' = h.setCount x (o.refcount - 1)) ∧
      (o.refcount = 1 →
        IsLeast {T : Set ObjId | x ∈ T ∧ h.Closed rest T} {q | q ∈ freed} ∧
        (∀ q ∈ freed, h'.get? q = none) ∧
        ∀ q ∉ freed,
          (h'.get? q = (h.get? q).map fun y => y.lowered ((h.held freed).count q)) ∧
          ∀ y, h.get? q = some y → y.immortal = false → (h.held freed).count q < y.refcount) ∧
      freed.Nodup ∧ h'.live + freed.length = h.live ∧
      h.Cascade [x] freed h' ∧
      ∀ freed' h'', h.Cascade [x] freed' h'' → freed'.Perm freed ∧ h'' = h' := by
  have hobj := Heap.obj_of_get? ho
  have hpos' := hpos x o ho himm
  have hstand : h.standing 0 ≤ h.live := by
    have hlive : h.live = 0 + h.mortals 0 := l.live_eq
    rw [hlive, Nat.zero_add]
    exact Heap.standing_le_mortals
  have hmachine : ∀ (image : Image) global depth, h.live < depth →
      ∃ freed, Heap.Cascade [x] h freed (image.releaseAt global depth x h).2 :=
    fun image global depth hdepth =>
      releaseAt_cascade image global depth l (Nat.lt_of_le_of_lt hstand hdepth)
  have hleft : ∀ (image : Image) global depth, h.live < depth →
      (image.releaseAt global depth x h).1 = o.refcount - 1 := by
    intro image global depth hdepth
    obtain ⟨d, rfl⟩ : ∃ d, depth = d + 1 := ⟨depth - 1, by omega⟩
    rw [Image.releaseAt, hobj]
    simp only [himm]
    rcases hcount : o.refcount with _ | _ | left
    · omega
    · rfl
    · rfl
  -- the heap that is left is the one that any machine leaves
  obtain ⟨freed, c⟩ := hmachine .idle Parcel.registry (h.live + 1) (Nat.lt_succ_self _)
  obtain ⟨l', cleared⟩ := Ledger.cascade c l.one
  have hunique : ∀ freed' h'', h.Cascade [x] freed' h'' → freed'.Perm freed ∧ h'' = _ :=
    fun _ _ => l.cascade_unique hpos ho himm c
  refine ⟨freed, _, ?_, l'.fault_eq, ?_, ?_, cleared.nodup, cleared.live_eq, c, hunique⟩
  · intro image global depth hdepth
    obtain ⟨freed', d⟩ := hmachine image global depth hdepth
    exact Prod.ext (hleft image global depth hdepth) (hunique _ _ d).2
  · intro hmany
    rw [← hobj] at himm hmany ⊢
    exact c.eq_setCount himm hmany
  · intro hone
    have hx : x ∈ freed := c.mem_freed (by rw [hobj, himm]) (by rw [hobj, hone])
    exact ⟨l.isLeast_freed hpos ho himm hone c, fun q hq => ((cleared.mem_freed q).1 hq).2,
      fun q hq => ⟨l.survivor c hx hq, fun y hy himm => l.held_lt hpos c hx hq hy himm⟩⟩

end One

end Ledger

namespace Sample

/-- A text, an object, a hash that holds both, and a vector that holds the hash twice and the text;
the object has an owner besides. -/
def crossed : Heap where
  cells := #[
    some ⟨Parcel.string, false, 2, .str "s"⟩,
    some ⟨Parcel.obj, false, 2, .empty⟩,
    some ⟨Parcel.hash, false, 2, .hash ⟨[("a", ⟨0⟩), ("b", ⟨1⟩)],
      List.pairwise_pair.2 (by decide)⟩⟩,
    some ⟨Parcel.vector, false, 1, .vector [some ⟨2⟩, none, some ⟨0⟩, some ⟨2⟩]⟩]
  live := 4
  fault := none
  consulted := false

/-- What holds for the four objects of the example holds for all its objects. -/
theorem crossed_cases {q : ObjId} {y : Obj} {P : ObjId → Obj → Prop}
    (h0 : P ⟨0⟩ (crossed.obj ⟨0⟩)) (h1 : P ⟨1⟩ (crossed.obj ⟨1⟩)) (h2 : P ⟨2⟩ (crossed.obj ⟨2⟩))
    (h3 : P ⟨3⟩ (crossed.obj ⟨3⟩)) (hy : crossed.get? q = some y) : P q y := by
  rw [← Heap.obj_of_get? hy]
  obtain ⟨i⟩ := q
  match i with
  | 0 => exact h0
  | 1 => exact h1
  | 2 => exact h2
  | 3 => exact h3
  | i + 4 => exact absurd (Heap.index_lt_of_get? hy) (by simp [crossed])

/-- The references of the example are counted. -/
theorem crossed_ledger : Ledger .void (⟨3⟩ ::ₘ {⟨1⟩}) crossed where
  size_le := Nat.zero_le _
  kept p o hp := absurd (Heap.index_lt_of_get? hp) (Nat.not_lt_zero _)
  vacant p hp := absurd hp (Nat.not_lt_zero _)
  count_eq p o hp := crossed_cases (P := fun p o => o.immortal = false → o.refcount =
    (Heap.void.obj p).refcount + ((⟨3⟩ : ObjId) ::ₘ {⟨1⟩} + crossed.slots 0).count p)
    (by decide) (by decide) (by decide) (by decide) hp
  backed p hp := by
    have hall : ∀ p ∈ ((⟨3⟩ : ObjId) ::ₘ {⟨1⟩}) + crossed.slots 0,
        (crossed.get? p).isSome = true := by
      decide
    obtain ⟨o, ho⟩ := Option.isSome_iff_exists.1 (hall p hp)
    exact ⟨o, ho, fun hlt => absurd hlt (Nat.not_lt_zero _)⟩
  givesBack p o _ hp := crossed_cases (P := fun _ o => o.GivesBack)
    (Payload.givesBack_home (.str "s") false 2) (Payload.givesBack_home .empty false 2)
    (Payload.givesBack_home (.hash _) false 2) (Payload.givesBack_home (.vector _) false 1) hp
  live_eq := by decide
  fault_eq := rfl

/-- The text goes with the hash, and the hash with the vector; the object stays. -/
theorem crossed_collapses : ∃ (freed : List ObjId) (h' : Heap),
    (∀ global, machine.release global ⟨3⟩ crossed = (0, h')) ∧ freed.Perm [⟨0⟩, ⟨2⟩, ⟨3⟩] ∧
      h'.get? ⟨1⟩ = some ⟨Parcel.obj, false, 1, .empty⟩ ∧ h'.live = 1 := by
  have hpos : ∀ q y, crossed.get? q = some y → y.immortal = false → 0 < y.refcount :=
    fun q y hy => crossed_cases (P := fun _ y => y.immortal = false → 0 < y.refcount)
      (by decide) (by decide) (by decide) (by decide) hy
  obtain ⟨freed, h', hmachine, -, -, hlast, hnodup, hlive, -, -⟩ :=
    crossed_ledger.release_collapses hpos (x := ⟨3⟩) rfl rfl
  obtain ⟨hleast, -, hsurvivor⟩ := hlast rfl
  obtain ⟨⟨hvector, hclosed⟩, hlower⟩ := hleast
  have hhash : (⟨2⟩ : ObjId) ∈ freed := by
    refine hclosed ⟨2⟩ _ rfl rfl (by decide) fun r hr => ?_
    obtain ⟨y, hy⟩ := Heap.get?_of_holds hr
    refine crossed_cases (P := fun r _ => ⟨2⟩ ∈ (crossed.obj r).payload.references → r ∈ freed)
      ?_ ?_ ?_ (fun _ => hvector) hy hr
    all_goals exact fun hmem => absurd hmem (by decide)
  have htext : (⟨0⟩ : ObjId) ∈ freed := by
    refine hclosed ⟨0⟩ _ rfl rfl (by decide) fun r hr => ?_
    obtain ⟨y, hy⟩ := Heap.get?_of_holds hr
    refine crossed_cases (P := fun r _ => ⟨0⟩ ∈ (crossed.obj r).payload.references → r ∈ freed)
      ?_ ?_ (fun _ => hhash) (fun _ => hvector) hy hr
    all_goals exact fun hmem => absurd hmem (by decide)
  have hupper : ∀ q ∈ freed, q ∈ [(⟨0⟩ : ObjId), ⟨2⟩, ⟨3⟩] := by
    refine hlower (a := {q | q ∈ [(⟨0⟩ : ObjId), ⟨2⟩, ⟨3⟩]}) ⟨by simp, fun q o hq _ hnot _ => ?_⟩
    exact crossed_cases (P := fun q _ => q ∉ ({⟨1⟩} : Multiset ObjId) → q ∈ [⟨0⟩, ⟨2⟩, ⟨3⟩])
      (by decide) (by decide) (by decide) (by decide) hq hnot
  have hperm : freed.Perm [⟨0⟩, ⟨2⟩, ⟨3⟩] := by
    refine (List.perm_ext_iff_of_nodup hnodup (by decide)).2 fun q => ⟨hupper q, fun hq => ?_⟩
    simp only [List.mem_cons, List.not_mem_nil, or_false] at hq
    rcases hq with rfl | rfl | rfl
    · exact htext
    · exact hhash
    · exact hvector
  refine ⟨freed, h', fun global => hmachine machine.image global _ (by decide), hperm, ?_, ?_⟩
  · have hstays : (⟨1⟩ : ObjId) ∉ freed := fun hmem => absurd (hperm.mem_iff.1 hmem) (by decide)
    have hheld : crossed.held freed = crossed.held [⟨0⟩, ⟨2⟩, ⟨3⟩] := (hperm.map _).sum_eq
    rw [(hsurvivor ⟨1⟩ hstays).1, hheld]
    rfl
  · have hlength := hperm.length_eq
    have hbefore : crossed.live = 4 := rfl
    simp only [List.length_cons, List.length_nil] at hlength
    omega

end Sample

end Interop

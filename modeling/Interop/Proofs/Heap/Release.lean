/-
# Giving references back

Giving back the last reference to an object tears it down, and what it held may be torn
down with it.  For objects that are new since `base` the ledger says all about this: the
classes of new objects give back what the payloads own, so a reference that is given back
leaves the list of owned ones and every other account stays as it is
(`Ledger.giveBackAll`).  No code but `Destroy` of the core parcel runs, so the outcome
does not depend on the image; and every object that is torn down had a reference before, so
as many nested calls as there are such objects are enough.

`Shrinks` says what remains: every object is either gone or as it was but for its count.
-/

import Interop.Proofs.Heap.Ledger
import Interop.Proofs.Native.Run
import Interop.Proofs.Program.Opening

namespace Interop

/-- The container without its contents; any other payload stays. -/
def Payload.emptied : Payload → Payload
  | .hash _ => .hash .empty
  | .vector _ => .vector []
  | payload => payload

namespace Heap

variable {h h' : Heap} {n : Nat} {p q : ObjId} {o : Obj}

/-! ### What remains -/

/-- The object `o` at `p` is gone, which only happens to new mortal objects with a
reference, or it is there with its own count or with a smaller one that is not zero. -/
def Lessens (n : Nat) (p : ObjId) (o : Obj) (h' : Heap) : Prop :=
  (h'.get? p = none ∧ n ≤ p.index ∧ o.immortal = false ∧ 0 < o.refcount) ∨
    ∃ count, h'.get? p = some { o with refcount := count } ∧
      (count = o.refcount ∨ o.immortal = false ∧ 0 < count ∧ count < o.refcount)

/-- The heap `h'` has no object that is not in `h`, and what it has is as it was there but
for smaller counts. -/
structure Shrinks (n : Nat) (h h' : Heap) : Prop where
  size_eq : h'.cells.size = h.cells.size
  vacant : ∀ p, h.get? p = none → h'.get? p = none
  lessens : ∀ p o, h.get? p = some o → Lessens n p o h'
  standing_le : h'.standing n ≤ h.standing n
  consulted_eq : h'.consulted = h.consulted

namespace Shrinks

/-- Nothing has shrunk at first. -/
theorem refl (n : Nat) (h : Heap) : Shrinks n h h :=
  ⟨rfl, fun _ hp => hp, fun _ _ hp => Or.inr ⟨_, hp, Or.inl rfl⟩, le_rfl, rfl⟩

/-- A heap shrinks in steps. -/
theorem trans {a b c : Heap} (s : Shrinks n a b) (t : Shrinks n b c) : Shrinks n a c := by
  refine ⟨t.size_eq.trans s.size_eq, fun p hp => t.vacant p (s.vacant p hp), ?_,
    t.standing_le.trans s.standing_le, t.consulted_eq.trans s.consulted_eq⟩
  intro p o hp
  rcases s.lessens p o hp with hgone | ⟨count, hb, hcount⟩
  · exact Or.inl ⟨t.vacant p hgone.1, hgone.2⟩
  · rcases t.lessens p _ hb with ⟨hc, hn, himm, hpos⟩ | ⟨count', hc, hcount'⟩
    · have hpos' : 0 < count := hpos
      exact Or.inl ⟨hc, hn, himm, by omega⟩
    · refine Or.inr ⟨count', hc, ?_⟩
      have hcount'' : count' = count ∨ o.immortal = false ∧ 0 < count' ∧ count' < count := hcount'
      rcases hcount'' with rfl | ⟨himm, hpos, hlt⟩
      · exact hcount
      · exact Or.inr ⟨himm, hpos, by omega⟩

/-- What is there after references were given back was there before. -/
theorem of_get? (s : Shrinks n h h') (hp : h'.get? p = some o) :
    ∃ count, h.get? p = some { o with refcount := count } ∧ o.refcount ≤ count := by
  rcases hh : h.get? p with _ | x
  · rw [s.vacant p hh] at hp
    exact absurd hp (by simp)
  · rcases s.lessens p x hh with ⟨hgone, -⟩ | ⟨count, hc, hcount⟩
    · rw [hgone] at hp
      exact absurd hp (by simp)
    · rw [hc, Option.some.injEq] at hp
      subst hp
      refine ⟨x.refcount, rfl, ?_⟩
      show count ≤ x.refcount
      omega

/-- An object without a reference is not touched. -/
theorem get?_of_zero (s : Shrinks n h h') (hp : h.get? p = some o) (hzero : o.refcount = 0) :
    h'.get? p = some o := by
  rcases s.lessens p o hp with ⟨-, -, -, hpos⟩ | ⟨count, hc, hcount⟩
  · omega
  · have heq : count = o.refcount := by omega
    rw [hc, heq]

/-- A smaller count of a mortal object that is not zero. -/
theorem setCount {count : Nat} (hp : h.get? p = some o) (himm : o.immortal = false)
    (hpos : 0 < count) (hlt : count < o.refcount) : Shrinks n h (h.setCount p count) := by
  constructor
  case size_eq => exact size_modify _
  case vacant =>
    intro q hq
    have hqp : q ≠ p := by
      rintro rfl
      rw [hp] at hq
      exact absurd hq (by simp)
    rw [Heap.setCount, get?_modify_of_ne hqp, hq]
  case lessens =>
    intro q x hq
    refine Or.inr ?_
    by_cases hqp : q = p
    · subst hqp
      rw [hp, Option.some.injEq] at hq
      subst hq
      exact ⟨count, get?_modify_self hp _, Or.inr ⟨himm, hpos, hlt⟩⟩
    · exact ⟨x.refcount, by rw [Heap.setCount, get?_modify_of_ne hqp, hq], Or.inl rfl⟩
  case standing_le =>
    refine (standing_setCount hpos fun x hx _ => ?_).le
    rw [hp, Option.some.injEq] at hx
    rw [← hx]
    omega
  case consulted_eq => exact consulted_modify _

/-- A new mortal object is emptied without a reference to it, references are given back, and it
is removed. -/
theorem removed {payload : Payload} (ho : h.get? p = some o) (hn : n ≤ p.index)
    (himm : o.immortal = false) (hpos : 0 < o.refcount)
    (s : Shrinks n ((h.setCount p 0).setPayload p payload) h') : Shrinks n h (h'.free p) := by
  have ho₀ : (h.setCount p 0).get? p = some { o with refcount := 0 } := get?_modify_self ho _
  have hlast := s.get?_of_zero (get?_modify_self ho₀ _) rfl
  have hother : ∀ {q}, q ≠ p → ((h.setCount p 0).setPayload p payload).get? q = h.get? q := by
    intro q hqp
    rw [Heap.setPayload, get?_modify_of_ne hqp, Heap.setCount, get?_modify_of_ne hqp]
  -- only `p` is gone; all other objects are as the references given back left them
  constructor
  case size_eq =>
    rw [size_free, s.size_eq, Heap.setPayload, size_modify, Heap.setCount, size_modify]
  case vacant =>
    intro q hq
    have hqp : q ≠ p := by
      rintro rfl
      rw [ho] at hq
      exact absurd hq (by simp)
    rw [get?_free_of_ne hqp]
    exact s.vacant q (by rw [hother hqp, hq])
  case lessens =>
    intro q x hq
    by_cases hqp : q = p
    · subst hqp
      rw [ho, Option.some.injEq] at hq
      subst hq
      exact Or.inl ⟨by rw [get?_free, if_pos rfl], hn, himm, hpos⟩
    · rw [Lessens, get?_free_of_ne hqp]
      exact s.lessens q x (by rw [hother hqp, hq])
  case standing_le =>
    have hstand := standing_setCount_zero ho hn himm hpos
    have hle := s.standing_le
    rw [standing_setPayload] at hle
    rw [standing_free_of_zero hlast hn rfl]
    omega
  case consulted_eq =>
    refine s.consulted_eq.trans ?_
    rw [Heap.setPayload, consulted_modify, Heap.setCount, consulted_modify]

end Shrinks

/-! ### Teardown -/

/-- Writing the payload that is there changes nothing. -/
theorem setPayload_self (hp : h.get? p = some o) : h.setPayload p o.payload = h := by
  obtain ⟨cells, live, fault, consulted⟩ := h
  have hlt := index_lt_of_get? hp
  have hcell : cells[p.index]? = some (some o) := by
    rw [get?, Array.getElem?_eq_getElem hlt, Option.join_some] at hp
    rw [Array.getElem?_eq_getElem hlt, hp]
  rw [setPayload, modify, hp]
  refine congrArg (fun cells => Heap.mk cells live fault consulted) (Array.ext_getElem? ?_)
  intro i
  rw [Array.getElem?_setIfInBounds]
  split_ifs with hi
  · rw [← hi, hcell]
  · rfl

end Heap

/-- When references are given back and no code looks at the registry, the heap is all that
changes. -/
theorem World.releaseAll_eq {m : Machine} {ps : List ObjId} {w : World} {h : Heap} {n : Nat}
    (hall : w.heap.giveBackAll (m.release w.program.registryView) ps = h)
    (s : Heap.Shrinks n w.heap h) : w.releaseAll m ps = { w with heap := h } := by
  rw [releaseAll, hall, settle_of_eq s.consulted_eq]

namespace Image

variable {h : Heap} {p : ObjId} {o : Obj}

/-- Teardown by what the class runs. -/
theorem teardown_of_destroyer (image : Image) (env : NativeEnv) (ho : h.get? p = some o) :
    image.teardown env p h =
      (match o.cls.destroyer with
        | some (.onObject routine) =>
          match image.runOnObject routine p [] env h with
          | .ok _ h => h
          | .error thrown h => (env.release thrown.object h).2
        | _ => h).free p := by
  rw [teardown, Heap.obj_of_get? ho, Class.destroyer]
  rcases o.cls.method? "Destroy" with _ | ⟨name, ret, params, code, hidden⟩
  · rfl
  · cases code <;> rfl

/-- The methods of the core parcel that tear objects down leave everything but containers
alone. -/
theorem teardown_plain (image : Image) (env : NativeEnv) (ho : h.get? p = some o)
    (hdestroy : o.cls.destroyer ∈ tearingDown) (hhash : ∀ entries, o.payload ≠ .hash entries)
    (hvector : ∀ elements, o.payload ≠ .vector elements) : image.teardown env p h = h.free p := by
  rw [teardown_of_destroyer image env ho]
  simp only [tearingDown, List.mem_cons, List.not_mem_nil, or_false] at hdestroy
  rcases hdestroy with hd | hd | hd | hd <;> rw [hd]
  · rfl
  · simp only [runOnObject, Parcel.runMethod, Parcel.Hash.destroy, NativeM.bind_apply,
      NativeM.object_apply, Heap.obj_of_get? ho]
    split <;> simp_all
  · simp only [runOnObject, Parcel.runMethod, Parcel.Vector.destroy, NativeM.bind_apply,
      NativeM.object_apply, Heap.obj_of_get? ho]
    split <;> simp_all

/-- A class that gives back what the payload owns empties the object, gives the references
back and frees it. -/
theorem teardown_eq (image : Image) (env : NativeEnv) (ho : h.get? p = some o)
    (hgive : o.GivesBack) :
    image.teardown env p h = ((h.setPayload p o.payload.emptied).giveBackAll env.release
      o.payload.references).free p := by
  rw [Obj.GivesBack] at hgive
  rcases hpay : o.payload with _ | _ | _ | _ | _ | entries | elements | _ <;>
    simp only [hpay] at hgive
  case hash =>
    rw [teardown_of_destroyer image env ho, hgive]
    simp only [runOnObject, Parcel.runMethod, Parcel.Hash.destroy, NativeM.bind_apply,
      NativeM.object_apply, Heap.obj_of_get? ho, hpay]
    simp [Payload.emptied, Payload.references]
  case vector =>
    rw [teardown_of_destroyer image env ho, hgive]
    simp only [runOnObject, Parcel.runMethod, Parcel.Vector.destroy, NativeM.bind_apply,
      NativeM.object_apply, Heap.obj_of_get? ho, hpay]
    simp [Payload.emptied, Payload.references]
  all_goals
    have hself : h.setPayload p o.payload = h := Heap.setPayload_self ho
    rw [hpay] at hself
    simp only [Payload.emptied, Payload.references, hself]
    rw [teardown_plain image env ho hgive (by simp [hpay]) (by simp [hpay])]
    rfl

/-- The last reference to an object whose class gives back what the payload owns. -/
theorem releaseAt_last (image : Image) (global : Registry) (depth : Nat) (ho : h.get? p = some o)
    (himm : o.immortal = false) (hone : o.refcount = 1) (hgive : o.GivesBack) :
    image.releaseAt global (depth + 1) p h =
      (0, (((h.setCount p 0).setPayload p o.payload.emptied).giveBackAll
        (image.releaseAt global depth) o.payload.references).free p) := by
  have ho₀ : (h.setCount p 0).get? p = some { o with refcount := 0 } :=
    Heap.get?_modify_self ho _
  rw [releaseAt, Heap.obj_of_get? ho]
  simp only [himm, hone]
  rw [teardown_eq image _ ho₀ hgive]
  rfl

end Image

/-! ### Giving references back -/

namespace Heap

variable {h h₁ h₂ : Heap} {k : Nat} {p : ObjId} {ps : List ObjId}

/-- Giving references to `ps` back makes `h'` of `h` on every machine that allows more than
`k` nested calls. -/
def Returns (k : Nat) (ps : List ObjId) (h h' : Heap) : Prop :=
  ∀ (image : Image) (global : Registry) (depth : Nat), k < depth →
    h.giveBackAll (image.releaseAt global depth) ps = h'

/-- No references are given back in no time. -/
theorem Returns.nil (k : Nat) (h : Heap) : h.Returns k [] h :=
  fun _ _ _ _ => rfl

/-- References are given back one after the other. -/
theorem Returns.cons (hp : h.Returns k [p] h₁) (hps : h₁.Returns k ps h₂) :
    h.Returns k (p :: ps) h₂ := by
  intro image global depth hdepth
  rw [← hps image global depth hdepth, ← hp image global depth hdepth]
  rfl

end Heap

namespace Ledger

variable {base h : Heap} {owned : Multiset ObjId} {p : ObjId} {o : Obj} {k : Nat}

/-- References to `ps` can be given back: the outcome is the same on all machines that allow
more than `k` nested calls, its ledger does without those references, and nothing but they
and what was held by them alone is gone. -/
def CanReturn (base : Heap) (k : Nat) (ps : List ObjId) (owned : Multiset ObjId) (h : Heap) :
    Prop :=
  ∃ h', h.Returns k ps h' ∧ Ledger base owned h' ∧ Heap.Shrinks base.cells.size h h'

/-- If one reference can be given back, several can. -/
theorem CanReturn.all
    (hone : ∀ h p owned, Ledger base (p ::ₘ owned) h → h.standing base.cells.size ≤ k →
      CanReturn base k [p] owned h) :
    ∀ (ps : List ObjId) (h : Heap) (owned : Multiset ObjId),
      Ledger base ((ps : Multiset ObjId) + owned) h → h.standing base.cells.size ≤ k →
      CanReturn base k ps owned h
  | [], h, owned, l, _ => by
    rw [Multiset.coe_nil, zero_add] at l
    exact ⟨h, .nil k h, l, .refl _ h⟩
  | p :: ps, h, owned, l, hk => by
    rw [← Multiset.cons_coe, Multiset.cons_add] at l
    obtain ⟨h₁, hp, l₁, s₁⟩ := hone h p _ l hk
    obtain ⟨h₂, hps, l₂, s₂⟩ := CanReturn.all hone ps h₁ owned l₁ (s₁.standing_le.trans hk)
    exact ⟨h₂, hp.cons hps, l₂, s₁.trans s₂⟩

/-- An object whose only reference is owned is new, and nothing else refers to it. -/
theorem sole (l : Ledger base (p ::ₘ owned) h) (ho : h.get? p = some o)
    (himm : o.immortal = false) (hone : o.refcount = 1) :
    base.cells.size ≤ p.index ∧ (owned + h.slots base.cells.size).count p = 0 := by
  have hcount := l.count_eq p o ho himm
  rw [Multiset.cons_add, Multiset.count_cons_self] at hcount
  refine ⟨?_, by omega⟩
  by_contra hn
  obtain ⟨x, hx, hpos⟩ := l.backed p
    (Multiset.mem_add.2 (Or.inl (Multiset.mem_cons_self p owned)))
  rw [ho, Option.some.injEq] at hx
  subst hx
  have hpos' := hpos (Nat.lt_of_not_le hn) himm
  omega

/-- The payload of a new object may always be emptied. -/
theorem givesBack_emptied (hgive : o.GivesBack) :
    Obj.GivesBack { o with payload := o.payload.emptied } := by
  rw [Obj.GivesBack] at hgive ⊢
  cases hpay : o.payload <;> rw [hpay] at hgive <;> exact hgive

/-- Nothing is left in a payload that was emptied. -/
theorem references_emptied (payload : Payload) : payload.emptied.references = [] := by
  cases payload <;> rfl

/-- **The last reference is given up:** the object is emptied, and what it held is owned from
then on. -/
theorem emptied (l : Ledger base (p ::ₘ owned) h) (ho : h.get? p = some o)
    (himm : o.immortal = false) (hone : o.refcount = 1) :
    Ledger base ((o.payload.references : Multiset ObjId) + owned)
      ((h.setCount p 0).setPayload p o.payload.emptied) := by
  obtain ⟨hn, hzero⟩ := l.sole ho himm hone
  -- the count falls to zero, and `p` is in no list any more
  have hother : ∀ q ≠ p, owned.count q = (p ::ₘ owned).count q := fun q hq =>
    (Multiset.count_cons_of_ne hq _).symm
  have hnot : p ∉ owned := fun hmem => by
    rw [Multiset.count_add, Nat.add_eq_zero_iff, Multiset.count_eq_zero] at hzero
    exact hzero.1 hmem
  have l₀ : Ledger base owned (h.setCount p 0) :=
    l.setCount ho himm (by rw [hzero, base_count hn]) hother fun hmem => absurd hmem hnot
  have ho₀ : (h.setCount p 0).get? p = some { o with refcount := 0 } :=
    Heap.get?_modify_self ho _
  refine l₀.setPayload ho₀ hn
    (givesBack_emptied (o := { o with refcount := 0 }) (l.givesBack p o hn ho)) ?_
  rw [references_emptied, Multiset.coe_nil, add_zero, add_comm]

/-- **The last reference:** a new object is emptied, what it held is given back, and it is
freed. -/
theorem returnLast
    (hall : ∀ (ps : List ObjId) h owned, Ledger base ((ps : Multiset ObjId) + owned) h →
      h.standing base.cells.size ≤ k → CanReturn base k ps owned h)
    (l : Ledger base (p ::ₘ owned) h) (ho : h.get? p = some o) (himm : o.immortal = false)
    (hone : o.refcount = 1) (hk : h.standing base.cells.size ≤ k + 1) :
    CanReturn base (k + 1) [p] owned h := by
  have hn := (l.sole ho himm hone).1
  have hstand := Heap.standing_setCount_zero ho hn himm (by omega)
  obtain ⟨h₂, hreturns, l₂, s₂⟩ := hall _ _ _ (l.emptied ho himm hone) (by
    rw [Heap.standing_setPayload]
    omega)
  have ho₁ : ((h.setCount p 0).setPayload p o.payload.emptied).get? p =
      some { o with refcount := 0, payload := o.payload.emptied } :=
    Heap.get?_modify_self (Heap.get?_modify_self ho _) _
  have ho₂ := s₂.get?_of_zero ho₁ rfl
  refine ⟨h₂.free p, ?_, l₂.free ho₂ hn himm rfl (references_emptied _),
    s₂.removed ho hn himm (by omega)⟩
  intro image global depth hdepth
  obtain ⟨depth, rfl⟩ : ∃ d, depth = d + 1 := ⟨depth - 1, by omega⟩
  show (image.releaseAt global (depth + 1) p h).2 = _
  rw [image.releaseAt_last global depth ho himm hone (l.givesBack p o hn ho),
    hreturns image global depth (by omega)]

/-- A reference to an immortal object is given back without a trace. -/
theorem returnImmortal (l : Ledger base (p ::ₘ owned) h) (ho : h.get? p = some o)
    (himm : o.immortal = true) : CanReturn base k [p] owned h := by
  refine ⟨h, ?_, l.of_immortal ho himm fun q hq => (Multiset.count_cons_of_ne hq _).symm,
    .refl _ h⟩
  intro image global depth hdepth
  obtain ⟨depth, rfl⟩ : ∃ d, depth = d + 1 := ⟨depth - 1, by omega⟩
  show (image.releaseAt global (depth + 1) p h).2 = _
  rw [Image.releaseAt, Heap.obj_of_get? ho]
  simp only [himm, if_true]

/-- One of several references is given back: it is owned no more. -/
theorem spare {left : Nat} (l : Ledger base (p ::ₘ owned) h) (ho : h.get? p = some o)
    (himm : o.immortal = false) (hleft : o.refcount = left + 2) :
    Ledger base owned (h.setCount p (left + 1)) := by
  have hcount := l.count_eq p o ho himm
  rw [Multiset.cons_add, Multiset.count_cons_self] at hcount
  refine l.setCount ho himm (by omega) (fun q hq => (Multiset.count_cons_of_ne hq _).symm)
    fun _ => ?_
  exact l.backed p (Multiset.mem_add.2 (Or.inl (Multiset.mem_cons_self p owned)))

/-- One of several references is given back. -/
theorem returnSpare {left : Nat} (l : Ledger base (p ::ₘ owned) h) (ho : h.get? p = some o)
    (himm : o.immortal = false) (hleft : o.refcount = left + 2) :
    CanReturn base k [p] owned h := by
  refine ⟨h.setCount p (left + 1), ?_, l.spare ho himm hleft,
    .setCount ho himm (Nat.succ_pos left) (by omega)⟩
  intro image global depth hdepth
  obtain ⟨depth, rfl⟩ : ∃ d, depth = d + 1 := ⟨depth - 1, by omega⟩
  show (image.releaseAt global (depth + 1) p h).2 = _
  rw [Image.releaseAt, Heap.obj_of_get? ho]
  simp only [himm, hleft]
  rfl

/-- **One reference is given back.** The induction is on the number of objects that stand:
the last reference to an object is given back after the object itself stands no more. -/
theorem returnOne (l : Ledger base (p ::ₘ owned) h) (hk : h.standing base.cells.size ≤ k) :
    CanReturn base k [p] owned h := by
  induction k using Nat.strong_induction_on generalizing h p owned with
  | _ k ih =>
    obtain ⟨o, ho⟩ := l.get?_of_mem (Multiset.mem_cons_self p owned)
    rcases himm : o.immortal with _ | _
    · have hcount := l.count_eq p o ho himm
      rw [Multiset.cons_add, Multiset.count_cons_self] at hcount
      obtain hone | ⟨left, hleft⟩ : o.refcount = 1 ∨ ∃ left, o.refcount = left + 2 := by
        rcases Nat.lt_or_ge o.refcount 2 with hlt | hge
        · exact Or.inl (by omega)
        · exact Or.inr ⟨o.refcount - 2, by omega⟩
      · -- the object itself stands, so `k` is not zero
        have hstand := Heap.standing_setCount_zero ho (l.sole ho himm hone).1 himm (by omega)
        obtain ⟨j, rfl⟩ : ∃ j, k = j + 1 := ⟨k - 1, by omega⟩
        exact returnLast (CanReturn.all fun _ _ _ l hk => ih j (Nat.lt_succ_self j) l hk) l ho
          himm hone hk
      · exact l.returnSpare ho himm hleft
    · exact l.returnImmortal ho himm

/-- **Owned references are given back in turn:** what becomes of the heap does not depend on
the machine. -/
theorem giveBackAll : ∀ (ps : List ObjId) {h : Heap},
    Ledger base ((ps : Multiset ObjId) + owned) h →
    ∃ h', (∀ (m : Machine) global, h.giveBackAll (m.release global) ps = h') ∧
      Ledger base owned h' ∧ Heap.Shrinks base.cells.size h h'
  | [], h, l => by
    rw [Multiset.coe_nil, zero_add] at l
    exact ⟨h, fun _ _ => rfl, l, .refl _ h⟩
  | p :: ps, h, l => by
    rw [← Multiset.cons_coe, Multiset.cons_add] at l
    have hstand : h.standing base.cells.size ≤ h.live := by
      rw [l.live_eq]
      exact Heap.standing_le_mortals.trans (Nat.le_add_left _ _)
    obtain ⟨h₁, hp, l₁, s₁⟩ := l.returnOne hstand
    obtain ⟨h₂, hps, l₂, s₂⟩ := giveBackAll ps l₁
    refine ⟨h₂, fun m global => ?_, l₂, s₁.trans s₂⟩
    rw [← hps m global, ← hp m.image global (h.live + m.headroom + 1) (by omega)]
    rfl

/-- One owned reference is given back. -/
theorem release (l : Ledger base (p ::ₘ owned) h) :
    ∃ h', (∀ (m : Machine) global, (m.release global p h).2 = h') ∧ Ledger base owned h' ∧
      Heap.Shrinks base.cells.size h h' :=
  giveBackAll [p] l

end Ledger

end Interop

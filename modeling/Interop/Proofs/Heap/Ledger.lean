/-
# The ledger of references

`Ledger base owned h` says that the heap `h` is `base` with references added and with new
objects, and accounts for every reference.  The references that somebody outside of the
new objects holds are listed in `owned`; the others stand in the payloads of the new
objects.  The count of each mortal object is what it was in `base` and one for every
reference to it in the two lists.

A heap is in order by itself when it has a ledger over the heap without objects
(`Heap.void`): then every object is new, and the counts are the references in all payloads
and in `owned`.  `Ledger.trans` puts two ledgers together, so what an operation does is
said by a ledger over the heap that it starts from.
-/

import Interop.Machine
import Interop.Proofs.Heap.Cells

namespace Interop

/-- What the class runs when the last reference to an instance is given up. -/
def Class.destroyer (c : Class) : Option Code :=
  (c.method? "Destroy").map (·.code)

/-- The methods of the core parcel that tear objects down. -/
def tearingDown : List (Option Code) :=
  [none, some (.onObject (.core .objectDestroy)), some (.onObject (.core .hashDestroy)),
    some (.onObject (.core .vectorDestroy))]

/-- The class of the object gives back every reference that the payload owns when the last
reference to the object is given up. -/
def Obj.GivesBack (o : Obj) : Prop :=
  match o.payload with
  | .hash _ => o.cls.destroyer = some (.onObject (.core .hashDestroy))
  | .vector _ => o.cls.destroyer = some (.onObject (.core .vectorDestroy))
  | _ => o.cls.destroyer ∈ tearingDown

/-- The class of the core parcel whose constructor makes such payloads. -/
def Payload.home : Payload → Class
  | .empty => Parcel.obj
  | .str _ => Parcel.string
  | .integer _ => Parcel.integer
  | .float _ => Parcel.float
  | .boolean _ => Parcel.boolean
  | .hash _ => Parcel.hash
  | .vector _ => Parcel.vector
  | .err _ => Parcel.err

/-- A payload is given back by the class that it belongs to. -/
theorem Payload.givesBack_home (payload : Payload) (immortal : Bool) (count : Nat) :
    Obj.GivesBack ⟨payload.home, immortal, count, payload⟩ := by
  cases payload with
  | empty => exact (by decide : Parcel.obj.destroyer ∈ tearingDown)
  | str => exact (by decide : Parcel.string.destroyer ∈ tearingDown)
  | integer => exact (by decide : Parcel.integer.destroyer ∈ tearingDown)
  | float => exact (by decide : Parcel.float.destroyer ∈ tearingDown)
  | boolean => exact (by decide : Parcel.boolean.destroyer ∈ tearingDown)
  | hash => exact (by decide : Parcel.hash.destroyer = some (.onObject (.core .hashDestroy)))
  | vector => exact (by decide : Parcel.vector.destroyer = some (.onObject (.core .vectorDestroy)))
  | err => exact (by decide : Parcel.err.destroyer ∈ tearingDown)

/-- Only truth values are immortal. -/
theorem Payload.mortal_home {payload : Payload} (h : payload.boolean? = none) :
    payload.home.hasImmortalInstances = false := by
  cases payload with
  | empty => exact (by decide : Parcel.obj.hasImmortalInstances = false)
  | str => exact (by decide : Parcel.string.hasImmortalInstances = false)
  | integer => exact (by decide : Parcel.integer.hasImmortalInstances = false)
  | float => exact (by decide : Parcel.float.hasImmortalInstances = false)
  | boolean => exact absurd h (by simp [Payload.boolean?])
  | hash => exact (by decide : Parcel.hash.hasImmortalInstances = false)
  | vector => exact (by decide : Parcel.vector.hasImmortalInstances = false)
  | err => exact (by decide : Parcel.err.hasImmortalInstances = false)

namespace Heap

/-- The heap without objects. -/
def void : Heap := ⟨#[], 0, none, false⟩

/-- There is an object to which a reference can be taken: either it is new since `base`, or
it is immortal, or it had a reference in `base`. -/
def Backed (base h : Heap) (p : ObjId) : Prop :=
  ∃ o, h.get? p = some o ∧
    (p.index < base.cells.size → o.immortal = false → 0 < (base.obj p).refcount)

end Heap

/-- Takes a reference to each object in turn. -/
def Heap.retainAll : List ObjId → Heap → Except BridgeError Heap
  | [], h => .ok h
  | p :: ps, h =>
    match h.retain p with
    | .ok h => Heap.retainAll ps h
    | .error e => .error e

/-- Several references are taken one after the other. -/
theorem Heap.retainAll_cons {p : ObjId} {ps : List ObjId} {h h' : Heap}
    (hr : Heap.retainAll (p :: ps) h = .ok h') :
    ∃ h₁, h.retain p = .ok h₁ ∧ Heap.retainAll ps h₁ = .ok h' := by
  rw [Heap.retainAll] at hr
  rcases hp : h.retain p with e | h₁
  · rw [hp] at hr
    exact absurd hr (by simp)
  · rw [hp] at hr
    exact ⟨h₁, rfl, hr⟩

/-- References that are taken keep the number of places. -/
theorem Heap.size_of_retainAll {ps : List ObjId} {h h' : Heap}
    (hr : Heap.retainAll ps h = .ok h') : h'.cells.size = h.cells.size := by
  induction ps generalizing h with
  | nil =>
    obtain rfl := Except.ok.inj hr
    rfl
  | cons p ps ih =>
    obtain ⟨h₁, hp, hps⟩ := Heap.retainAll_cons hr
    rw [ih hps, Heap.size_of_retain hp]

/-- The heap `h` is `base` with new objects and with more references, all of which are in
`owned` or in the payload of a new object. -/
structure Ledger (base : Heap) (owned : Multiset ObjId) (h : Heap) : Prop where
  size_le : base.cells.size ≤ h.cells.size
  kept : ∀ p o, base.get? p = some o →
    ∃ count, h.get? p = some { o with refcount := count } ∧ (o.immortal → count = o.refcount)
  vacant : ∀ p, p.index < base.cells.size → base.get? p = none → h.get? p = none
  count_eq : ∀ p o, h.get? p = some o → o.immortal = false →
    o.refcount = (base.obj p).refcount + (owned + h.slots base.cells.size).count p
  backed : ∀ p ∈ owned + h.slots base.cells.size, base.Backed h p
  givesBack : ∀ p o, base.cells.size ≤ p.index → h.get? p = some o → o.GivesBack
  live_eq : h.live = base.live + h.mortals base.cells.size
  fault_eq : h.fault = base.fault

namespace Ledger

variable {base h h' : Heap} {owned : Multiset ObjId} {p q : ObjId} {o : Obj}

/-- The heap itself, with nothing added. -/
theorem refl (h : Heap) : Ledger h 0 h where
  size_le := le_rfl
  kept _ o hp := ⟨o.refcount, hp, fun _ => rfl⟩
  vacant _ _ hp := hp
  count_eq p o hp _ := by
    rw [Heap.obj_of_get? hp, Heap.slots, Heap.total_size, add_zero, Multiset.count_zero, add_zero]
  backed p hp := by
    rw [Heap.slots, Heap.total_size, add_zero] at hp
    exact absurd hp (Multiset.notMem_zero p)
  givesBack p o hn hp := absurd (Heap.index_lt_of_get? hp) (Nat.not_lt.2 hn)
  live_eq := by rw [Heap.mortals, Heap.total_size, add_zero]
  fault_eq := rfl

/-- To look at the registry is no matter of references. -/
theorem markConsulted (l : Ledger base owned h) : Ledger base owned h.markConsulted :=
  ⟨l.size_le, l.kept, l.vacant, l.count_eq, l.backed, l.givesBack, l.live_eq, l.fault_eq⟩

/-- An object of `base` is there with its class and its payload. -/
theorem of_base (l : Ledger base owned h) (hp : p.index < base.cells.size)
    (ho : h.get? p = some o) : ∃ count, base.get? p = some { o with refcount := count } := by
  rcases hb : base.get? p with _ | b
  · rw [l.vacant p hp hb] at ho
    exact absurd ho (by simp)
  · obtain ⟨count, hc, -⟩ := l.kept p b hb
    rw [hc, Option.some.injEq] at ho
    exact ⟨b.refcount, by rw [← ho]⟩

/-- A new object has no count in `base`. -/
theorem base_count (hp : base.cells.size ≤ p.index) : (base.obj p).refcount = 0 := by
  rw [Heap.obj_of_vacant (Heap.get?_of_size_le hp)]
  rfl

/-- There is no reference to a vacant place. -/
theorem not_mem_of_vacant (l : Ledger base owned h) (hp : h.get? p = none) :
    p ∉ owned + h.slots base.cells.size := by
  intro hmem
  obtain ⟨o, ho, -⟩ := l.backed p hmem
  rw [hp] at ho
  exact absurd ho (by simp)

/-! ### Putting ledgers together -/

/-- Up to the end of the earlier heap, the later heap has the same objects but for their
counts. -/
theorem map_get?_eq {M : Type} (l : Ledger base owned h) (f : Obj → M)
    (hf : ∀ (o : Obj) count, f { o with refcount := count } = f o)
    (hp : p.index < base.cells.size) :
    (h.get? p).map f = (base.get? p).map f := by
  rcases hb : base.get? p with _ | b
  · rw [l.vacant p hp hb]
  · obtain ⟨count, hc, -⟩ := l.kept p b hb
    rw [hc, Option.map_some, Option.map_some, hf]

/-- A sum that ignores counts is that of the objects of the base and that of the new ones. -/
theorem total_eq {M : Type} [AddCancelCommMonoid M] {n : Nat} (l : Ledger base owned h)
    (f : Obj → M) (hf : ∀ (o : Obj) count, f { o with refcount := count } = f o)
    (hn : n ≤ base.cells.size) : h.total n f = base.total n f + h.total base.cells.size f :=
  Heap.total_split f hn l.size_le fun _ _ hp => l.map_get?_eq f hf hp

/-- The count in `b` of an object of the later heap `c`: it comes from `a`, or it is one of the
references that were added up to `b`. -/
theorem middle_count {a b c : Heap} {r s : Multiset ObjId} (l : Ledger a r b) (m : Ledger b s c)
    (hp : c.get? p = some o) (himm : o.immortal = false) :
    (b.obj p).refcount = (a.obj p).refcount + (r + b.slots a.cells.size).count p := by
  rcases Nat.lt_or_ge p.index b.cells.size with hb | hb
  · obtain ⟨count, hbp⟩ := m.of_base hb hp
    rw [Heap.obj_of_get? hbp]
    exact l.count_eq p _ hbp himm
  · have hbp := Heap.get?_of_size_le hb
    rw [base_count hb, base_count (l.size_le.trans hb),
      Multiset.count_eq_zero_of_notMem (l.not_mem_of_vacant hbp)]

/-- **Ledgers compose:** what is added in two steps is added. -/
theorem trans {a b c : Heap} {r s : Multiset ObjId} (l : Ledger a r b) (m : Ledger b s c) :
    Ledger a (r + s) c := by
  have hslots : c.slots a.cells.size = b.slots a.cells.size + c.slots b.cells.size :=
    m.total_eq _ (fun _ _ => rfl) l.size_le
  have hmortals : c.mortals a.cells.size = b.mortals a.cells.size + c.mortals b.cells.size :=
    m.total_eq _ (fun _ _ => rfl) l.size_le
  have hall : r + s + c.slots a.cells.size =
      (r + b.slots a.cells.size) + (s + c.slots b.cells.size) := by
    rw [hslots]
    abel
  constructor
  case size_le => exact l.size_le.trans m.size_le
  case kept =>
    intro p o hp
    obtain ⟨count, hb, himm⟩ := l.kept p o hp
    obtain ⟨count', hc, himm'⟩ := m.kept p _ hb
    exact ⟨count', hc, fun hi => (himm' hi).trans (himm hi)⟩
  case vacant =>
    intro p hp ha
    exact m.vacant p (Nat.lt_of_lt_of_le hp l.size_le) (l.vacant p hp ha)
  case count_eq =>
    intro p o hp ho
    rw [m.count_eq p o hp ho, l.middle_count m hp ho, hall, Multiset.count_add (p) (r + _),
      add_assoc]
  case backed =>
    intro p hp
    rw [hall] at hp
    rcases Multiset.mem_add.1 hp with hp | hp
    · obtain ⟨o, hb, hpos⟩ := l.backed p hp
      obtain ⟨count, hc, -⟩ := m.kept p o hb
      exact ⟨_, hc, hpos⟩
    · obtain ⟨o, hc, hpos⟩ := m.backed p hp
      refine ⟨o, hc, fun ha ho => ?_⟩
      have hb := hpos (Nat.lt_of_lt_of_le ha l.size_le) ho
      rw [l.middle_count m hc ho] at hb
      -- a count that does not come from `a` comes from a reference that is backed there
      rcases Nat.eq_zero_or_pos (a.obj p).refcount with ha0 | ha0
      · have hmem : p ∈ r + b.slots a.cells.size := Multiset.count_pos.1 (by omega)
        obtain ⟨o', hb', hpos'⟩ := l.backed p hmem
        obtain ⟨count, hc', -⟩ := m.kept p o' hb'
        rw [hc, Option.some.injEq] at hc'
        subst hc'
        exact hpos' ha ho
      · exact ha0
  case givesBack =>
    intro p o hp hc
    rcases Nat.lt_or_ge p.index b.cells.size with hb | hb
    · obtain ⟨count, hbp⟩ := m.of_base hb hc
      have hgive := l.givesBack p _ hp hbp
      exact hgive
    · exact m.givesBack p o hb hc
  case live_eq =>
    rw [m.live_eq, l.live_eq, hmortals, add_assoc]
  case fault_eq => exact m.fault_eq.trans l.fault_eq

/-! ### One object -/

/-- A modification that keeps what is immortal leaves the references that can be taken. -/
theorem backed_modify {f : Obj → Obj} (hf : ∀ o, (f o).immortal = o.immortal)
    (hq : base.Backed h q) : base.Backed (h.modify p f) q := by
  obtain ⟨o, ho, hpos⟩ := hq
  by_cases hqp : q = p
  · subst hqp
    exact ⟨f o, Heap.get?_modify_self ho f, fun hlt himm => hpos hlt (by rw [← hf, himm])⟩
  · exact ⟨o, by rw [Heap.get?_modify_of_ne hqp, ho], hpos⟩

/-- **A mortal object gets another count** that agrees with another list of owned
references. -/
theorem setCount {owned' : Multiset ObjId} {count : Nat} (l : Ledger base owned h)
    (ho : h.get? p = some o) (himm : o.immortal = false)
    (hcount : count = (base.obj p).refcount + (owned' + h.slots base.cells.size).count p)
    (hother : ∀ q ≠ p, owned'.count q = owned.count q) (hback : p ∈ owned' → base.Backed h p) :
    Ledger base owned' (h.setCount p count) where
  size_le := by
    rw [Heap.setCount, Heap.size_modify]
    exact l.size_le
  kept q x hq := by
    obtain ⟨c, hc, hfix⟩ := l.kept q x hq
    by_cases hqp : q = p
    · subst hqp
      rw [ho, Option.some.injEq] at hc
      refine ⟨count, by rw [Heap.setCount, Heap.get?_modify_self ho, hc], fun hx => ?_⟩
      rw [hc] at himm
      exact absurd (hx.symm.trans himm) (by simp)
    · exact ⟨c, by rw [Heap.setCount, Heap.get?_modify_of_ne hqp, hc], hfix⟩
  vacant q hq hb := by
    have hv := l.vacant q hq hb
    have hqp : q ≠ p := by
      rintro rfl
      rw [ho] at hv
      exact absurd hv (by simp)
    rw [Heap.setCount, Heap.get?_modify_of_ne hqp, hv]
  -- only the count of `p` is new, and `hcount` is what the ledger asks of it
  count_eq q x hq hx := by
    rw [Heap.slots_setCount]
    by_cases hqp : q = p
    · subst hqp
      rw [Heap.setCount, Heap.get?_modify_self ho, Option.some.injEq] at hq
      rw [← hq]
      exact hcount
    · rw [Heap.setCount, Heap.get?_modify_of_ne hqp] at hq
      rw [Multiset.count_add, hother q hqp, ← Multiset.count_add]
      exact l.count_eq q x hq hx
  backed q hq := by
    rw [Heap.slots_setCount] at hq
    refine backed_modify (fun _ => rfl) ?_
    by_cases hqp : q = p
    · subst hqp
      rcases Multiset.mem_add.1 hq with hq | hq
      · exact hback hq
      · exact l.backed q (Multiset.mem_add.2 (Or.inr hq))
    · refine l.backed q ?_
      rwa [← Multiset.count_pos, Multiset.count_add, ← hother q hqp, ← Multiset.count_add,
        Multiset.count_pos]
  givesBack q x hn hq := by
    by_cases hqp : q = p
    · subst hqp
      rw [Heap.setCount, Heap.get?_modify_self ho, Option.some.injEq] at hq
      have hgive := l.givesBack q o hn ho
      rw [← hq]
      exact hgive
    · rw [Heap.setCount, Heap.get?_modify_of_ne hqp] at hq
      exact l.givesBack q x hn hq
  live_eq := by
    rw [Heap.mortals_setCount, Heap.setCount, Heap.live_modify]
    exact l.live_eq
  fault_eq := by
    rw [Heap.setCount, Heap.fault_modify]
    exact l.fault_eq

/-- References to immortal objects are not counted, so they can be listed or left out. -/
theorem of_immortal (l : Ledger base owned h) (ho : h.get? p = some o) (himm : o.immortal = true)
    {owned' : Multiset ObjId} (hother : ∀ q ≠ p, owned'.count q = owned.count q) :
    Ledger base owned' h :=
  { l with
    count_eq := fun q x hq hx => by
      have hqp : q ≠ p := by
        rintro rfl
        rw [ho, Option.some.injEq] at hq
        rw [hq, hx] at himm
        exact absurd himm Bool.false_ne_true
      rw [Multiset.count_add, hother q hqp, ← Multiset.count_add]
      exact l.count_eq q x hq hx
    backed := fun q hq => by
      by_cases hqp : q = p
      · subst hqp
        refine ⟨o, ho, fun _ hx => ?_⟩
        rw [himm] at hx
        exact absurd hx (by simp)
      · refine l.backed q ?_
        rwa [← Multiset.count_pos, Multiset.count_add, ← hother q hqp, ← Multiset.count_add,
          Multiset.count_pos] }

/-! ### Taking references -/

/-- An object that a listed reference names exists. -/
theorem get?_of_mem (l : Ledger base owned h) (hp : p ∈ owned) : ∃ o, h.get? p = some o := by
  obtain ⟨o, ho, -⟩ := l.backed p (Multiset.mem_add.2 (Or.inl hp))
  exact ⟨o, ho⟩

/-- **A reference is taken:** it is added to those that are owned. -/
theorem retain (l : Ledger base owned h) (hb : base.Backed h p) (hr : h.retain p = .ok h') :
    Ledger base (p ::ₘ owned) h' := by
  obtain ⟨o, ho, hpos⟩ := hb
  have hother : ∀ q ≠ p, (p ::ₘ owned).count q = owned.count q := fun q hq =>
    Multiset.count_cons_of_ne hq _
  rw [Heap.retain, Heap.obj_of_get? ho] at hr
  split_ifs at hr with himm hmax
  · obtain rfl := Except.ok.inj hr
    exact l.of_immortal ho himm hother
  · obtain rfl := Except.ok.inj hr
    have himm' : o.immortal = false := by simpa using himm
    refine l.setCount ho himm' ?_ hother fun _ => ⟨o, ho, hpos⟩
    rw [l.count_eq p o ho himm', Multiset.cons_add, Multiset.count_cons_self, add_assoc]

/-- A reference more does not take one away. -/
theorem backed_retain (hq : base.Backed h q) (hr : h.retain p = .ok h') : base.Backed h' q := by
  rw [Heap.retain] at hr
  split_ifs at hr with himm hmax
  · obtain rfl := Except.ok.inj hr
    exact hq
  · obtain rfl := Except.ok.inj hr
    exact backed_modify (fun _ => rfl) hq

/-- References are taken in turn: they are added to those that are owned. -/
theorem retainAll {ps : List ObjId} (l : Ledger base owned h) (hb : ∀ q ∈ ps, base.Backed h q)
    (hr : Heap.retainAll ps h = .ok h') : Ledger base ((ps : Multiset ObjId) + owned) h' := by
  induction ps generalizing h owned with
  | nil =>
    obtain rfl := Except.ok.inj hr
    rw [Multiset.coe_nil, zero_add]
    exact l
  | cons p ps ih =>
    obtain ⟨h₁, hp, hps⟩ := Heap.retainAll_cons hr
    have hb₁ : ∀ q ∈ ps, base.Backed h₁ q := fun q hq =>
      backed_retain (hb q (List.mem_cons_of_mem p hq)) hp
    rw [← Multiset.cons_coe, Multiset.cons_add, ← Multiset.add_cons]
    exact ih (l.retain (hb p List.mem_cons_self) hp) hb₁ hps

/-- **An object is made** from references that are owned: the reference to it is owned
instead. -/
theorem alloc {cls : Class} {payload : Payload}
    (l : Ledger base ((payload.references : Multiset ObjId) + owned) h)
    (hgive : (Heap.fresh cls payload).GivesBack) :
    Ledger base ((h.alloc cls payload).1 ::ₘ owned) (h.alloc cls payload).2 := by
  have hslots := Heap.slots_alloc (h := h) cls payload l.size_le
  -- the references of the payload go from their owner into the slots of the new object
  have hsame : owned + (h.alloc cls payload).2.slots base.cells.size =
      (payload.references : Multiset ObjId) + owned + h.slots base.cells.size := by
    rw [hslots]
    abel
  have hnew : (h.alloc cls payload).1 ∉
      (payload.references : Multiset ObjId) + owned + h.slots base.cells.size :=
    l.not_mem_of_vacant (Heap.get?_of_size_le le_rfl)
  constructor
  case size_le =>
    rw [Heap.size_alloc]
    exact l.size_le.trans (Nat.le_succ _)
  case kept =>
    intro q x hq
    obtain ⟨c, hc, hfix⟩ := l.kept q x hq
    exact ⟨c, Heap.get?_alloc_of_some cls payload hc, hfix⟩
  case vacant =>
    intro q hq hb
    rw [Heap.get?_alloc, if_neg, l.vacant q hq hb]
    rintro rfl
    exact absurd l.size_le (Nat.not_le.2 hq)
  case count_eq =>
    intro q x hq hx
    rw [Multiset.cons_add, hsame]
    by_cases hqp : q = (h.alloc cls payload).1
    · subst hqp
      rw [Heap.get?_alloc_self, Option.some.injEq] at hq
      rw [Multiset.count_cons_self, Multiset.count_eq_zero_of_notMem hnew,
        base_count (p := (h.alloc cls payload).1) l.size_le, ← hq]
      rfl
    · rw [Heap.get?_alloc, if_neg hqp] at hq
      rw [Multiset.count_cons_of_ne hqp]
      exact l.count_eq q x hq hx
  case backed =>
    intro q hq
    rw [Multiset.cons_add, Multiset.mem_cons, hsame] at hq
    rcases hq with rfl | hq
    · exact ⟨_, Heap.get?_alloc_self cls payload, fun hlt => absurd l.size_le (Nat.not_le.2 hlt)⟩
    · obtain ⟨x, hx, hpos⟩ := l.backed q hq
      exact ⟨x, Heap.get?_alloc_of_some cls payload hx, hpos⟩
  case givesBack =>
    intro q x hn hq
    by_cases hqp : q = (h.alloc cls payload).1
    · rw [hqp, Heap.get?_alloc_self, Option.some.injEq] at hq
      rw [← hq]
      exact hgive
    · rw [Heap.get?_alloc, if_neg hqp] at hq
      exact l.givesBack q x hn hq
  case live_eq =>
    rw [Heap.live_alloc, Heap.mortals_alloc cls payload l.size_le, l.live_eq, add_assoc]
  case fault_eq => exact l.fault_eq

/-! ### Changing and removing new objects -/

/-- **A new object gets another payload:** the references in the old one are owned from
then on, and those in the new one are given up for it. -/
theorem setPayload {payload : Payload} {owned' : Multiset ObjId} (l : Ledger base owned h)
    (ho : h.get? p = some o) (hn : base.cells.size ≤ p.index)
    (hgive : Obj.GivesBack { o with payload := payload })
    (hbalance : owned' + (payload.references : Multiset ObjId) =
      owned + (o.payload.references : Multiset ObjId)) :
    Ledger base owned' (h.setPayload p payload) := by
  have hslots := Heap.slots_setPayload payload ho hn
  -- what is owned and what is in slots change by the same references, in opposite ways
  have hsame : owned' + (h.setPayload p payload).slots base.cells.size =
      owned + h.slots base.cells.size := by
    refine add_right_cancel (b := (o.payload.references : Multiset ObjId)) ?_
    calc owned' + (h.setPayload p payload).slots base.cells.size + o.payload.references
        = owned' + payload.references + h.slots base.cells.size := by
          rw [add_assoc, hslots]
          abel
      _ = owned + h.slots base.cells.size + o.payload.references := by
          rw [hbalance]
          abel
  have hold : ∀ q : ObjId, q.index < base.cells.size → q ≠ p := by
    rintro q hq rfl
    exact absurd hn (Nat.not_le.2 hq)
  constructor
  case size_le =>
    rw [Heap.setPayload, Heap.size_modify]
    exact l.size_le
  case kept =>
    intro q x hq
    obtain ⟨c, hc, hfix⟩ := l.kept q x hq
    exact ⟨c, by rw [Heap.setPayload, Heap.get?_modify_of_ne (hold q (Heap.index_lt_of_get? hq)),
      hc], hfix⟩
  case vacant =>
    intro q hq hb
    rw [Heap.setPayload, Heap.get?_modify_of_ne (hold q hq), l.vacant q hq hb]
  case count_eq =>
    intro q x hq hx
    rw [hsame]
    by_cases hqp : q = p
    · subst hqp
      rw [Heap.setPayload, Heap.get?_modify_self ho, Option.some.injEq] at hq
      subst hq
      exact l.count_eq q o ho hx
    · rw [Heap.setPayload, Heap.get?_modify_of_ne hqp] at hq
      exact l.count_eq q x hq hx
  case backed =>
    intro q hq
    rw [hsame] at hq
    exact backed_modify (fun _ => rfl) (l.backed q hq)
  case givesBack =>
    intro q x hnq hq
    by_cases hqp : q = p
    · subst hqp
      rw [Heap.setPayload, Heap.get?_modify_self ho, Option.some.injEq] at hq
      rw [← hq]
      exact hgive
    · rw [Heap.setPayload, Heap.get?_modify_of_ne hqp] at hq
      exact l.givesBack q x hnq hq
  case live_eq =>
    rw [Heap.mortals_setPayload, Heap.setPayload, Heap.live_modify]
    exact l.live_eq
  case fault_eq =>
    rw [Heap.setPayload, Heap.fault_modify]
    exact l.fault_eq

/-- **A new object without references is removed,** which nobody refers to any more. -/
theorem free (l : Ledger base owned h) (ho : h.get? p = some o) (hn : base.cells.size ≤ p.index)
    (himm : o.immortal = false) (hzero : o.refcount = 0) (hrefs : o.payload.references = []) :
    Ledger base owned (h.free p) := by
  have hslots : (h.free p).slots base.cells.size = h.slots base.cells.size := by
    have hsum := Heap.slots_free ho hn
    rwa [hrefs, Multiset.coe_nil, add_zero] at hsum
  -- with a count of zero no reference to `p` is left, neither owned nor in a slot
  have hmem : p ∉ owned + h.slots base.cells.size := by
    rw [← Multiset.count_eq_zero]
    have hcount := l.count_eq p o ho himm
    omega
  have hold : ∀ q : ObjId, q.index < base.cells.size → q ≠ p := by
    rintro q hq rfl
    exact absurd hn (Nat.not_le.2 hq)
  have hsome : ∀ {q x}, (h.free p).get? q = some x → h.get? q = some x := by
    intro q x hq
    rw [Heap.get?_free] at hq
    split_ifs at hq
    exact hq
  constructor
  case size_le =>
    rw [Heap.size_free]
    exact l.size_le
  case kept =>
    intro q x hq
    obtain ⟨c, hc, hfix⟩ := l.kept q x hq
    exact ⟨c, by rw [Heap.get?_free_of_ne (hold q (Heap.index_lt_of_get? hq)), hc], hfix⟩
  case vacant =>
    intro q hq hb
    rw [Heap.get?_free_of_ne (hold q hq), l.vacant q hq hb]
  case count_eq =>
    intro q x hq hx
    rw [hslots]
    exact l.count_eq q x (hsome hq) hx
  case backed =>
    intro q hq
    rw [hslots] at hq
    obtain ⟨x, hx, hpos⟩ := l.backed q hq
    refine ⟨x, ?_, hpos⟩
    rw [Heap.get?_free_of_ne, hx]
    rintro rfl
    exact hmem hq
  case givesBack =>
    intro q x hnq hq
    exact l.givesBack q x hnq (hsome hq)
  case live_eq =>
    have hsum := Heap.mortals_free ho hn himm
    have hlive := l.live_eq
    show h.live - 1 = _
    omega
  case fault_eq => exact l.fault_eq

end Ledger

end Interop

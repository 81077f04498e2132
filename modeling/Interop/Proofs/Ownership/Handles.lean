/-
# Handles give back their references once

Callers own references of their own, of which handles are made, and get the references of
handles that they ask for (`Transfer.onSpare`).  As long as a caller adopts only what it owns and
wraps only what is there (`World.Legal`), the account of the heap goes on with the references of
the caller and of the handles (`World.acts_ledger`).

**Each count rises by the references that are taken and falls by those that are given back**, and
by those that were in objects which are gone (`World.Accounted.count_eq`).  Together with what the
transfers tell of the handles this is `World.acts_keepReferences`.
-/

import Interop.Proofs.Heap.Cascade
import Interop.Proofs.Ownership.Transfers

namespace Interop

/-! ### Heaps that lose objects -/

namespace Heap

variable {h h' h₁ : Heap} {n : Nat} {p q : ObjId} {o : Obj} {freed freed₁ freed₂ : List ObjId}

/-- The objects in `freed` are gone, each once and with the references that it held, and of the
others only counts have changed, whether they fell or rose. -/
structure Thinned (n : Nat) (h : Heap) (freed : List ObjId) (h' : Heap) : Prop where
  nodup : freed.Nodup
  mem_freed : ∀ q, q ∈ freed ↔ (∃ o, h.get? q = some o) ∧ h'.get? q = none
  kept : ∀ q o, h'.get? q = some o → ∃ count, h.get? q = some { o with refcount := count }
  slots_eq : h.slots n = h'.slots n + h.held freed
  live_eq : h'.live + freed.length = h.live

/-- What was cleared was thinned. -/
theorem Cleared.thinned (c : Cleared n h freed h') : Thinned n h freed h' where
  nodup := c.nodup
  mem_freed := c.mem_freed
  kept q o hq := by
    obtain ⟨count, hc, -⟩ := c.shrinks.of_get? hq
    exact ⟨count, hc⟩
  slots_eq := c.slots_eq
  live_eq := c.live_eq

namespace Thinned

/-- Nothing has been thinned at first. -/
theorem refl (n : Nat) (h : Heap) : Thinned n h [] h :=
  (Cleared.refl n h).thinned

/-- A reference is taken. -/
theorem retain (hr : h.retain p = .ok h') : Thinned n h [] h' := by
  have hsame : h'.slots n = h.slots n ∧ h'.live = h.live := by
    rw [Heap.retain] at hr
    split_ifs at hr
    · obtain rfl := Except.ok.inj hr
      exact ⟨rfl, rfl⟩
    · obtain rfl := Except.ok.inj hr
      exact ⟨slots_setCount _ _, live_modify _⟩
  constructor
  case nodup => exact List.nodup_nil
  case mem_freed =>
    intro q
    rw [get?_retain hr, Option.map_eq_none_iff]
    refine ⟨fun hq => absurd hq List.not_mem_nil, ?_⟩
    rintro ⟨⟨o, ho⟩, hgone⟩
    rw [ho] at hgone
    exact absurd hgone (by simp)
  case kept =>
    intro q o hq
    rw [get?_retain hr] at hq
    obtain ⟨x, hx, rfl⟩ := Option.map_eq_some_iff.1 hq
    refine ⟨x.refcount, hx.trans ?_⟩
    rw [Obj.raised]
    split_ifs <;> rfl
  case slots_eq => rw [hsame.1, held_nil, add_zero]
  case live_eq => exact hsame.2

/-- A heap is thinned in steps. -/
theorem trans (c : Thinned n h freed₁ h₁) (d : Thinned n h₁ freed₂ h') :
    Thinned n h (freed₁ ++ freed₂) h' where
  nodup := by
    refine List.nodup_append'.2 ⟨c.nodup, d.nodup, fun q hq hq' => ?_⟩
    obtain ⟨o, ho⟩ := ((d.mem_freed q).1 hq').1
    rw [((c.mem_freed q).1 hq).2] at ho
    exact absurd ho (by simp)
  -- what is gone in the end went in the first step, or was there after it and went in the second
  mem_freed q := by
    rw [List.mem_append, c.mem_freed, d.mem_freed]
    constructor
    · rintro (⟨hq, hgone⟩ | ⟨⟨o, ho⟩, hgone⟩)
      · refine ⟨hq, Option.eq_none_iff_forall_ne_some.2 fun o ho => ?_⟩
        obtain ⟨count, hc⟩ := d.kept q o ho
        rw [hgone] at hc
        exact absurd hc (by simp)
      · obtain ⟨count, hc⟩ := c.kept q o ho
        exact ⟨⟨_, hc⟩, hgone⟩
    · rintro ⟨hq, hgone⟩
      rcases hmiddle : h₁.get? q with _ | o
      · exact Or.inl ⟨hq, rfl⟩
      · exact Or.inr ⟨⟨o, rfl⟩, hgone⟩
  kept q o hq := by
    obtain ⟨count, hc⟩ := d.kept q o hq
    exact c.kept q { o with refcount := count } hc
  slots_eq := by
    have hsame : h₁.held freed₂ = h.held freed₂ := held_congr fun q hq => by
      obtain ⟨o, ho⟩ := ((d.mem_freed q).1 hq).1
      obtain ⟨count, hc⟩ := c.kept q o ho
      rw [obj_of_get? ho, obj_of_get? hc]
    rw [c.slots_eq, d.slots_eq, held_append, hsame]
    abel
  live_eq := by
    have hfirst := c.live_eq
    have hsecond := d.live_eq
    rw [List.length_append]
    omega

end Thinned

end Heap

/-- What one reference takes with it when it is given back. -/
theorem Ledger.release_cleared {base h : Heap} {owned : Multiset ObjId} {p : ObjId}
    (l : Ledger base (p ::ₘ owned) h) (m : Machine) (global : Registry) :
    ∃ freed, Ledger base owned (m.release global p h).2 ∧
      Heap.Cleared base.cells.size h freed (m.release global p h).2 := by
  have hstand : h.standing base.cells.size ≤ h.live := by
    rw [l.live_eq]
    exact Heap.standing_le_mortals.trans (Nat.le_add_left _ _)
  obtain ⟨freed, c⟩ := l.releaseAt_cascade m.image global (h.live + m.headroom + 1) (by omega)
  have hsingle : Ledger base ((([p] : List ObjId) : Multiset ObjId) + owned) h := by
    rwa [Multiset.coe_singleton, Multiset.singleton_add]
  exact ⟨freed, Ledger.cascade c hsingle⟩

/-! ### References of the caller -/

/-- What the caller owns after a transfer. -/
def Transfer.onSpare (spare : Multiset ObjId) (t : Transfer) : Multiset ObjId :=
  match t.kind with
  | .adopted => spare.erase t.object
  | .handed => t.object ::ₘ spare
  | .taken | .given => spare

/-- The caller owns the reference that a handle is made of, and the object to which a new
reference is taken is there. -/
def HandleAction.Allowed (base : Heap) (w : World) (spare : Multiset ObjId) : HandleAction → Prop
  | acquire p => p ∈ spare
  | wrap p => base.Backed w.heap p
  | _ => True

namespace World

/-- Every action is allowed when it comes. -/
def Legal (base : Heap) (m : Machine) (w : World) (spare : Multiset ObjId) :
    List HandleAction → Prop
  | [] => True
  | a :: rest => a.Allowed base w spare ∧ (w.act m a).Legal base m
      ((a.transfer? w).toList.foldl Transfer.onSpare spare) rest

/-- What the actions make of the counts, when the caller owned `spare`: in the end it owns
`left`, and the objects in `freed` are gone. -/
structure Accounted (base : Heap) (m : Machine) (w : World) (spare : Multiset ObjId)
    (actions : List HandleAction) (freed : List ObjId) (left : Multiset ObjId) : Prop where
  /-- The account of the heap goes on. -/
  ledger : Ledger base (left + (w.acts m actions).held) (w.acts m actions).heap
  /-- The caller owns what it owned or was handed, and what it gave to handles it does not own. -/
  left_eq : left + Transfer.objects .adopted (w.transfers m actions) =
    spare + Transfer.objects .handed (w.transfers m actions)
  thinned : Heap.Thinned base.cells.size w.heap freed (w.acts m actions).heap
  /-- **The count of a mortal object** changes by what was taken and given back, and by what the
  objects held that are gone.  An object that is gone counts nothing. -/
  count_eq : ∀ x o, w.heap.get? x = some o → o.immortal = false →
    ((w.acts m actions).obj x).refcount +
        (Transfer.objects .given (w.transfers m actions)).count x +
        (w.heap.held freed).count x =
      o.refcount + (Transfer.objects .taken (w.transfers m actions)).count x

section

variable {base : Heap} {m : Machine} {w w' : World} {spare : Multiset ObjId} {a : HandleAction}
  {actions : List HandleAction} {t : Transfer} {p : ObjId}

/-- Only a reference that the caller owns is adopted. -/
theorem mem_spare_of_adopted (hallowed : a.Allowed base w spare) (ht : a.transfer? w = some t)
    (hkind : t.kind = .adopted) : t.object ∈ spare := by
  cases a
  case acquire p =>
    obtain rfl := Option.some.inj ht
    exact hallowed
  case setPolicy => exact absurd ht (by simp [HandleAction.transfer?])
  all_goals
    simp only [HandleAction.transfer?] at ht
    split_ifs at ht
    obtain rfl := Option.some.inj ht
    exact absurd hkind (by simp)

/-- A reference is taken to an object that is there. -/
theorem backed_of_taken (l : Ledger base (spare + w.held) w.heap)
    (hallowed : a.Allowed base w spare) (ht : a.transfer? w = some t) (hkind : t.kind = .taken) :
    base.Backed w.heap t.object ∧ ∃ heap, w.heap.retain t.object = .ok heap := by
  cases a
  case acquire p =>
    obtain rfl := Option.some.inj ht
    exact absurd hkind (by simp)
  case setPolicy => exact absurd ht (by simp [HandleAction.transfer?])
  case wrap p =>
    rcases hr : w.heap.retain p with e | heap <;> simp only [HandleAction.transfer?, hr] at ht
    · exact absurd ht (by simp [Except.isOk, Except.toBool])
    · obtain rfl := Option.some.inj ht
      exact ⟨hallowed, heap, hr⟩
  case tryClone h =>
    cases howned : (w.handle h).owned with
    | false => exact absurd ht (by simp [HandleAction.transfer?, howned])
    | true =>
      rcases hr : w.heap.retain (w.handle h).object with e | heap <;>
        simp only [HandleAction.transfer?, howned, hr] at ht
      · exact absurd ht (by simp [Except.isOk, Except.toBool])
      · obtain rfl := Option.some.inj ht
        exact ⟨l.backed _ (Multiset.mem_add.2 (Or.inl
          (Multiset.mem_add.2 (Or.inr (mem_held howned))))), heap, hr⟩
  all_goals
    simp only [HandleAction.transfer?] at ht
    split_ifs at ht
    obtain rfl := Option.some.inj ht
    exact absurd hkind (by simp)

/-- **One transfer keeps the account**, if what is adopted was the caller's and what is taken can
be taken. -/
theorem Carried.ledger_one (c : Carried m w [t] w') (l : Ledger base (spare + w.held) w.heap)
    (hadopted : t.kind = .adopted → t.object ∈ spare)
    (htaken : t.kind = .taken →
      base.Backed w.heap t.object ∧ ∃ heap, w.heap.retain t.object = .ok heap) :
    Ledger base (Transfer.onSpare spare t + w'.held) w'.heap ∧
      Transfer.onSpare spare t + Transfer.objects .adopted [t] =
        spare + Transfer.objects .handed [t] ∧
      ∃ freed, Heap.Thinned base.cells.size w.heap freed w'.heap := by
  obtain ⟨kind, h, p⟩ := t
  have hheap : w'.heap = Transfer.move m w.program.registryView w.heap ⟨kind, h, p⟩ := c.heap_eq
  have hbalance := c.balance
  -- a transfer moves one reference between the caller, the handles and the heap
  cases kind with
  | adopted =>
    have hspare : p ::ₘ spare.erase p = spare := Multiset.cons_erase (hadopted rfl)
    have hheld : w'.held = p ::ₘ w.held := by simpa [add_comm] using hbalance
    have hsame : spare.erase p + w'.held = spare + w.held := by
      rw [hheld, Multiset.add_cons, ← Multiset.cons_add, hspare]
    rw [show w'.heap = w.heap from hheap]
    refine ⟨?_, ?_, [], .refl _ _⟩
    · rw [show Transfer.onSpare spare ⟨.adopted, h, p⟩ = spare.erase p from rfl, hsame]
      exact l
    · rw [Transfer.objects_singleton, Transfer.objects_singleton, if_pos rfl, if_neg (by simp),
        add_zero, add_comm, Multiset.singleton_add]
      exact hspare
  | taken =>
    obtain ⟨hback, heap, hr⟩ := htaken rfl
    have hheld : w'.held = p ::ₘ w.held := by simpa [add_comm] using hbalance
    rw [show w'.heap = heap by rw [hheap, Transfer.move, hr]; rfl]
    refine ⟨?_, ?_, [], .retain hr⟩
    · rw [show Transfer.onSpare spare ⟨.taken, h, p⟩ = spare from rfl, hheld, Multiset.add_cons]
      exact l.retain hback hr
    · simp [Transfer.onSpare]
  | given =>
    have hheld : p ::ₘ w'.held = w.held := by simpa [add_comm] using hbalance
    rw [← hheld, Multiset.add_cons] at l
    obtain ⟨freed, l', cleared⟩ := l.release_cleared m w.program.registryView
    rw [show w'.heap = (m.release w.program.registryView p w.heap).2 from hheap]
    refine ⟨l', ?_, freed, cleared.thinned⟩
    simp [Transfer.onSpare]
  | handed =>
    have hheld : p ::ₘ w'.held = w.held := by simpa [add_comm] using hbalance
    rw [show w'.heap = w.heap from hheap]
    refine ⟨?_, ?_, [], .refl _ _⟩
    · rw [show Transfer.onSpare spare ⟨.handed, h, p⟩ = p ::ₘ spare from rfl, Multiset.cons_add,
        ← Multiset.add_cons, hheld]
      exact l
    · rw [Transfer.objects_singleton, Transfer.objects_singleton, if_neg (by simp), if_pos rfl,
        add_zero, add_comm spare, Multiset.singleton_add]
      rfl

/-- **An action that is allowed keeps the account.** -/
theorem act_ledger (m : Machine) (l : Ledger base (spare + w.held) w.heap)
    (hallowed : a.Allowed base w spare) :
    let spare' := (a.transfer? w).toList.foldl Transfer.onSpare spare
    Ledger base (spare' + (w.act m a).held) (w.act m a).heap ∧
      spare' + Transfer.objects .adopted (a.transfer? w).toList =
        spare + Transfer.objects .handed (a.transfer? w).toList ∧
      ∃ freed, Heap.Thinned base.cells.size w.heap freed (w.act m a).heap := by
  have c := act_carried m w a
  rcases ht : a.transfer? w with _ | t <;> rw [ht] at c
  · have hheap : (w.act m a).heap = w.heap := c.heap_eq
    have hheld : (w.act m a).held = w.held := by simpa using c.balance
    rw [hheap, hheld]
    exact ⟨l, rfl, [], .refl _ _⟩
  · exact c.ledger_one l (mem_spare_of_adopted hallowed ht) (backed_of_taken l hallowed ht)

/-- **Actions that are allowed keep the account.** -/
theorem acts_ledger (m : Machine) (l : Ledger base (spare + w.held) w.heap)
    (hlegal : w.Legal base m spare actions) :
    let left := (w.transfers m actions).foldl Transfer.onSpare spare
    Ledger base (left + (w.acts m actions).held) (w.acts m actions).heap ∧
      left + Transfer.objects .adopted (w.transfers m actions) =
        spare + Transfer.objects .handed (w.transfers m actions) ∧
      ∃ freed, Heap.Thinned base.cells.size w.heap freed (w.acts m actions).heap := by
  induction actions generalizing w spare with
  | nil => exact ⟨l, rfl, [], .refl _ _⟩
  | cons a rest ih =>
    obtain ⟨hallowed, hrest⟩ := hlegal
    obtain ⟨l₁, hleft₁, freed₁, t₁⟩ := act_ledger m l hallowed
    obtain ⟨l₂, hleft₂, freed₂, t₂⟩ := ih l₁ hrest
    simp only [transfers, List.foldl_append, Transfer.objects_append]
    refine ⟨l₂, ?_, freed₁ ++ freed₂, t₁.trans t₂⟩
    exact balance_trans hleft₁ hleft₂

/-- What the caller and the handles own in the end, and what was given back, is what they owned
and what was taken. -/
theorem owned_balance {w' : World} {ts : List Transfer} {left : Multiset ObjId}
    (c : Carried m w ts w')
    (hleft : left + Transfer.objects .adopted ts = spare + Transfer.objects .handed ts) :
    left + w'.held + Transfer.objects .given ts =
      spare + w.held + Transfer.objects .taken ts := by
  refine add_right_cancel (b := Transfer.objects .adopted ts + Transfer.objects .handed ts) ?_
  calc left + w'.held + Transfer.objects .given ts +
        (Transfer.objects .adopted ts + Transfer.objects .handed ts)
      = (left + Transfer.objects .adopted ts) +
        (w'.held + (Transfer.objects .given ts + Transfer.objects .handed ts)) := by abel
    _ = (spare + Transfer.objects .handed ts) +
        (w.held + (Transfer.objects .adopted ts + Transfer.objects .taken ts)) := by
        rw [hleft, c.balance]
    _ = spare + w.held + Transfer.objects .taken ts +
        (Transfer.objects .adopted ts + Transfer.objects .handed ts) := by abel

end

end World

/-- **Two accounts of a heap that lost some objects** say how each count has changed. -/
theorem Ledger.count_between {base h h' : Heap} {owned owned' given taken : Multiset ObjId}
    {freed : List ObjId} (l : Ledger base owned h) (l' : Ledger base owned' h')
    (t : Heap.Thinned base.cells.size h freed h') (hbalance : owned' + given = owned + taken)
    {x : ObjId} {o : Obj} (hx : h.get? x = some o) (himm : o.immortal = false) :
    (h'.obj x).refcount + given.count x + (h.held freed).count x =
      o.refcount + taken.count x := by
  have hcount := l.count_eq x o hx himm
  have howned := congrArg (Multiset.count x) hbalance
  rw [t.slots_eq] at hcount
  simp only [Multiset.count_add] at hcount howned
  rcases hx' : h'.get? x with _ | o'
  · -- an object that is gone was new, and no reference to it is left
    have hnew : base.cells.size ≤ x.index := by
      by_contra hlt
      rcases hb : base.get? x with _ | b
      · rw [l.vacant x (Nat.lt_of_not_le hlt) hb] at hx
        exact absurd hx (by simp)
      · obtain ⟨count, hc, -⟩ := l'.kept x b hb
        rw [hx'] at hc
        exact absurd hc (by simp)
    have hnone := Multiset.count_eq_zero_of_notMem (l'.not_mem_of_vacant hx')
    rw [Multiset.count_add] at hnone
    rw [base_count hnew] at hcount
    have hzero : (h'.obj x).refcount = 0 := by
      rw [Heap.obj_of_vacant hx']
      rfl
    omega
  · obtain ⟨count, hc⟩ := t.kept x o' hx'
    have himm' : o'.immortal = false := by
      rw [hx, Option.some.injEq] at hc
      rw [hc] at himm
      exact himm
    have hcount' := l'.count_eq x o' hx' himm'
    rw [Multiset.count_add] at hcount'
    rw [Heap.obj_of_get? hx']
    omega

namespace World

variable {base : Heap} {w : World} {spare : Multiset ObjId} {actions : List HandleAction}

/-- Legal actions on handles are accounted for. -/
theorem acts_accounted (m : Machine) (l : Ledger base (spare + w.held) w.heap)
    (hlegal : w.Legal base m spare actions) :
    ∃ freed left, w.Accounted base m spare actions freed left := by
  obtain ⟨l', hleft, freed, t⟩ := acts_ledger m l hlegal
  refine ⟨freed, _, l', hleft, t, fun x o hx himm => ?_⟩
  exact l.count_between l' t (owned_balance (acts_carried m w actions) hleft) hx himm

/-- What holds when any sequence of actions has been carried out. -/
structure KeepsReferences (m : Machine) (w : World) (actions : List HandleAction) : Prop where
  /-- The heap takes and gives back what the transfers say, and each handle loses a reference
  once. -/
  carried : Carried m w (w.transfers m actions) (w.acts m actions)
  /-- The counts of mortal objects follow from it. -/
  accounted : ∀ (base : Heap) (spare : Multiset ObjId), Ledger base (spare + w.held) w.heap →
    w.Legal base m spare actions → ∃ freed left, w.Accounted base m spare actions freed left
  /-- A handle that no action changes stays as it is, clones and sources of clones included. -/
  untouched : ∀ h, h.index < w.handles.size → (∀ a ∈ actions, a.changes ≠ some h) →
    (w.acts m actions).handle h = w.handle h
  owning : ∀ h, ((w.acts m actions).handle h).owned = true → Handle.Owning m h (w.acts m actions)
  spent : ∀ h, ((w.acts m actions).handle h).owned = false → Handle.Spent m h (w.acts m actions)
  wrap : ∀ p, Handle.Makes p (w.acts m actions).program.current.1.releasePolicy
    (w.acts m actions) (Handle.wrap p)
  acquire : ∀ p, (Handle.acquire p (w.acts m actions)).2.heap = (w.acts m actions).heap ∧
    (Handle.acquire p (w.acts m actions)).2.handles =
      (w.acts m actions).handles.push ((w.acts m actions).newHandle p)

/-- **Handles give their references back exactly once.**  Whatever is done with them, in any
order and any number of times, and whether the objects are still there or not, a reference is
taken for each handle that is made by wrapping or cloning and none is given back but by the
first release or the drop of a handle that owns one; a handle without a reference refuses
without a look at any object. -/
theorem acts_keepReferences (m : Machine) (w : World) (actions : List HandleAction) :
    w.KeepsReferences m actions where
  carried := acts_carried m w actions
  accounted _ _ l hlegal := acts_accounted m l hlegal
  untouched _ hlt hother := acts_handle_eq m w actions hlt hother
  owning _ howned := Handle.owning_of_owned m howned
  spent _ howned := Handle.spent_of_not_owned m howned
  wrap p := Handle.wrap_makes p _
  acquire _ := ⟨rfl, rfl⟩

end World

/-! ### A text with three handles -/

namespace Sample

/-- A text to which the caller owns the one reference. -/
def textWorld : World where
  heap := (Heap.initial.alloc Parcel.string (.str "text")).2
  handles := #[]
  program := .ready

/-- The reference is adopted and cloned, given back and given back again, then handed over by the
clone, which is dropped, and adopted once more until the text is gone. -/
def textActions : List HandleAction := [
  .acquire ⟨2⟩, .tryClone ⟨0⟩, .setPolicy ⟨0⟩ .lenient, .release ⟨0⟩, .release ⟨0⟩,
  .intoRaw ⟨1⟩, .drop ⟨1⟩, .acquire ⟨2⟩, .drop ⟨2⟩, .release ⟨1⟩]

/-- The references of the example are counted. -/
theorem textWorld_ledger : Ledger Heap.initial ({⟨2⟩} + textWorld.held) textWorld.heap := by
  have l : Ledger Heap.initial (((Payload.str "text").references : Multiset ObjId) + 0)
      Heap.initial := Ledger.refl Heap.initial
  exact l.alloc ((Payload.str "text").givesBack_home _ _)

/-- The actions of the example are accounted for, and free the text at the end. -/
theorem textWorld_keepsReferences : ∃ freed left,
    textWorld.Accounted Heap.initial machine {⟨2⟩} textActions freed left ∧
      ⟨2⟩ ∈ freed ∧ Handle.Spent machine ⟨1⟩ (textWorld.acts machine textActions) := by
  have hback : (⟨2⟩ : ObjId) ∈ (⟨2⟩ : ObjId) ::ₘ Multiset.erase {⟨2⟩} ⟨2⟩ :=
    Multiset.mem_cons_self _ _
  have hlegal : textWorld.Legal Heap.initial machine {⟨2⟩} textActions :=
    ⟨Multiset.mem_singleton_self _, trivial, trivial, trivial, trivial, trivial, trivial,
      hback, trivial, trivial, trivial⟩
  obtain ⟨-, haccounted, -, -, hspent, -, -⟩ :=
    World.acts_keepReferences machine textWorld textActions
  obtain ⟨freed, left, haccount⟩ := haccounted _ _ textWorld_ledger hlegal
  exact ⟨freed, left, haccount, (haccount.thinned.mem_freed ⟨2⟩).2 ⟨⟨_, rfl⟩, rfl⟩, hspent _ rfl⟩

end Sample

end Interop

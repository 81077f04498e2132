/-
# Building arguments

What is built for an argument is temporary, and the step that builds it accounts for every
reference: when it succeeds the caller owns one reference more, and when it is refused
whatever it had taken so far is given back (`build_builds`).  The outcome does not depend on
the machine, for nothing but teardown by the core parcel runs.

`World.Staged w₀ owned w` is the invariant: since `w₀` the references in `owned` were taken
and temporary objects were made.  `Builds` states it of a step for both of its endings; the
rules for a sequence of steps and for `onRefusal` carry it through a list and through a dict.
-/

import Interop.Proofs.Heap.Temporary
import Interop.Proofs.Steps

namespace Interop

namespace World

/-- The truth values are there, and behind every handle that owns a reference is an object
that counts one. -/
structure Grounded (w : World) : Prop where
  truth : ∀ b, ∃ count,
    w.heap.get? (Heap.booleanId b) = some ⟨Parcel.boolean, true, count, .boolean b⟩
  referenced : ∀ h : HandleId, (w.handle h).owned = true →
    ∃ o, w.heap.get? (w.handle h).object = some o ∧ (o.immortal = false → 0 < o.refcount)

end World

namespace Sample

/-- A vector with a handle, beside the handle of a text that is gone. -/
def vectorWorld : World where
  heap := (Heap.initial.alloc Parcel.vector (.vector [])).2
  handles := #[⟨⟨2⟩, Parcel.vector, true, .strict, 1⟩, ⟨⟨3⟩, Parcel.string, false, .strict, 1⟩]
  program := .ready

/-- Everything in the example world stands for something. -/
theorem vectorWorld_grounded : vectorWorld.Grounded where
  truth b := by cases b <;> exact ⟨1, rfl⟩
  referenced h howned := by
    obtain ⟨i⟩ := h
    match i with
    | 0 => exact ⟨Heap.fresh Parcel.vector (.vector []), rfl, fun _ => Nat.one_pos⟩
    | 1 => exact absurd howned (by decide)
    | i + 2 => exact absurd howned (by simp [World.handle, vectorWorld, HandleState.vacant])

end Sample

namespace World

/-- Since `w₀` the references in `owned` were taken and temporary objects were made. -/
structure Staged (w₀ : World) (owned : Multiset ObjId) (w : World) : Prop where
  handles_eq : w.handles = w₀.handles
  program_eq : w.program = w₀.program
  ledger : Ledger w₀.heap owned w.heap
  transient : w.heap.Transient w₀.heap.cells.size

namespace Staged

variable {w₀ w : World} {owned : Multiset ObjId} {p : ObjId}

/-- Where nothing was made nothing is owned. -/
theorem refl (w : World) : Staged w 0 w :=
  ⟨rfl, rfl, .refl w.heap, .of_size w.heap⟩

/-- No handle changes while arguments are made. -/
theorem handle_eq (s : Staged w₀ owned w) (h : HandleId) : w.handle h = w₀.handle h := by
  rw [World.handle, World.handle, s.handles_eq]

/-- An object is made from owned references. -/
theorem alloc {payload : Payload}
    (s : Staged w₀ ((payload.references : Multiset ObjId) + owned) w)
    (hmortal : payload.boolean? = none) :
    Staged w₀ ((World.alloc payload.home payload w).1 ::ₘ owned)
      (World.alloc payload.home payload w).2 := by
  refine ⟨s.handles_eq, s.program_eq, s.ledger.alloc (payload.givesBack_home _ _),
    s.transient.alloc hmortal ?_⟩
  intro q hq
  obtain ⟨o, ho⟩ := s.ledger.get?_of_mem (Multiset.mem_add.2 (Or.inl hq))
  exact Heap.index_lt_of_get? ho

/-- A reference is taken to an object that backs it. -/
theorem retain {heap : Heap} (s : Staged w₀ owned w) (hb : w₀.heap.Backed w.heap p)
    (hr : w.heap.retain p = .ok heap) : Staged w₀ (p ::ₘ owned) { w with heap } :=
  ⟨s.handles_eq, s.program_eq, s.ledger.retain hb hr, s.transient.retain hr⟩

/-- The object of a handle that owns a reference can be referred to once more. -/
theorem backed (s : Staged w₀ owned w) (g : w₀.Grounded) {h : HandleId}
    (howned : (w₀.handle h).owned = true) : w₀.heap.Backed w.heap (w₀.handle h).object := by
  obtain ⟨o, ho, hpos⟩ := g.referenced h howned
  obtain ⟨count, hc, -⟩ := s.ledger.kept _ o ho
  refine ⟨_, hc, fun _ himm => ?_⟩
  rw [Heap.obj_of_get? ho]
  exact hpos himm

/-- A truth value counts nothing, so it can be owned at any time. -/
theorem truth (s : Staged w₀ owned w) (g : w₀.Grounded) (b : Bool) :
    Staged w₀ (Heap.booleanId b ::ₘ owned) w := by
  obtain ⟨count, ho⟩ := g.truth b
  obtain ⟨count', hc, -⟩ := s.ledger.kept _ _ ho
  exact ⟨s.handles_eq, s.program_eq,
    s.ledger.of_immortal hc rfl fun q hq => Multiset.count_cons_of_ne hq _, s.transient⟩

/-- **Owned references are given back**, with the same outcome on every machine. -/
theorem releaseAll (ps : List ObjId) (s : Staged w₀ ((ps : Multiset ObjId) + owned) w) :
    ∃ w', (∀ m, w.releaseAll m ps = w') ∧ Staged w₀ owned w' := by
  obtain ⟨heap, hall, l, hs⟩ := s.ledger.giveBackAll ps
  refine ⟨{ w with heap }, fun m => ?_, s.handles_eq, s.program_eq, l, s.transient.shrinks hs⟩
  exact World.releaseAll_eq (hall m _) hs

end Staged
end World

/-! ### Steps that build -/

/-- The step `x` ends in the same way on every machine.  When it succeeds the references in
`refs` are owned beside `owned`; when it is refused nothing but `owned` is. -/
def Builds (w₀ : World) (owned : Multiset ObjId) {α : Type} (refs : α → Multiset ObjId)
    (x : Machine → CheckM α) (w : World) : Prop :=
  ∃ r : EStateM.Result BridgeError World α, (∀ m, x m w = r) ∧
    match r with
    | .ok a w' => w₀.Staged (refs a + owned) w'
    | .error _ w' => w₀.Staged owned w'

namespace Builds

variable {w₀ w : World} {owned : Multiset ObjId} {α β : Type} {refs : α → Multiset ObjId}
  {refs' : β → Multiset ObjId} {x : Machine → CheckM α}

/-- A value owns what it refers to. -/
theorem pure {a : α} (s : w₀.Staged (refs a + owned) w) :
    Builds w₀ owned refs (fun _ => pure a) w :=
  ⟨.ok a w, fun _ => rfl, s⟩

/-- What comes after a step starts with the references of the step and answers for them. -/
theorem bind {f : Machine → α → CheckM β} (hx : Builds w₀ owned refs x w)
    (hf : ∀ a w', w₀.Staged (refs a + owned) w' → Builds w₀ owned refs' (fun m => f m a) w') :
    Builds w₀ owned refs' (fun m => x m >>= f m) w := by
  obtain ⟨r, hr, hs⟩ := hx
  rcases r with ⟨a, w'⟩ | ⟨e, w'⟩
  · obtain ⟨r', hr', hs'⟩ := hf a w' hs
    refine ⟨r', fun m => ?_, hs'⟩
    show (x m >>= f m) w = r'
    rw [Steps.bind_apply, hr]
    exact hr' m
  · refine ⟨.error e w', fun m => ?_, hs⟩
    show (x m >>= f m) w = _
    rw [Steps.bind_apply, hr]

/-- A refusal gives back what was owned for the step. -/
theorem onRefusal {ps : List ObjId} (hx : Builds w₀ ((ps : Multiset ObjId) + owned) refs x w) :
    Builds w₀ owned (fun a => refs a + (ps : Multiset ObjId))
      (fun m => World.onRefusal (x m) (World.releaseAll m ps)) w := by
  obtain ⟨r, hr, hs⟩ := hx
  rcases r with ⟨a, w'⟩ | ⟨e, w'⟩
  · refine ⟨.ok a w', fun m => ?_, ?_⟩
    · show World.onRefusal (x m) (World.releaseAll m ps) w = _
      rw [World.onRefusal_apply, hr]
    · show w₀.Staged (refs a + ps + owned) w'
      rw [add_assoc]
      exact hs
  · obtain ⟨w'', hall, hs'⟩ := World.Staged.releaseAll ps hs
    refine ⟨.error e w'', fun m => ?_, hs'⟩
    show World.onRefusal (x m) (World.releaseAll m ps) w = _
    rw [World.onRefusal_apply, hr, ← hall m]

end Builds

namespace Conversion

variable {w₀ w : World} {owned : Multiset ObjId}

/-- A reference, if there is one. -/
def optionRef (q : Option ObjId) : Multiset ObjId :=
  (q.toList : Multiset ObjId)

/-- A new object takes over the references of its payload and is owned by one. -/
theorem newObject_builds (payload : Payload) (hmortal : payload.boolean? = none)
    (s : w₀.Staged ((payload.references : Multiset ObjId) + owned) w) :
    Builds w₀ owned optionRef (fun _ => newObject payload.home payload) w :=
  ⟨.ok (some (World.alloc payload.home payload w).1) (World.alloc payload.home payload w).2,
    fun _ => rfl, s.alloc hmortal⟩

/-- A reference through a handle. -/
theorem retain_builds (g : w₀.Grounded) (s : w₀.Staged owned w) (h : HandleId) :
    Builds w₀ owned (fun p => {p}) (fun _ => Handle.retain h) w := by
  have hback := fun howned => s.backed g (h := h) howned
  refine ⟨_, fun _ => Handle.retain_apply h w, ?_⟩
  rw [s.handle_eq]
  split_ifs with howned
  · rcases hr : w.heap.retain (w₀.handle h).object with e | heap
    · exact s
    · exact s.retain (hback howned) hr
  · exact s

/-- A key after all others comes last. -/
theorem insertSorted_of_lt {α : Type} {key : String} {value : α} :
    ∀ {entries : List (String × α)}, (∀ e ∈ entries, e.1 < key) →
      insertSorted key value entries = entries ++ [(key, value)]
  | [], _ => rfl
  | e :: entries, h => by
    have hlt : e.1 < key := h e List.mem_cons_self
    have hnot : ¬ key < e.1 := fun hk => String.lt_irrefl key (String.lt_trans hk hlt)
    have hne : key ≠ e.1 := by
      rintro rfl
      exact String.lt_irrefl _ hlt
    rw [insertSorted, if_neg hnot, if_neg hne,
      insertSorted_of_lt fun e he => h e (List.mem_cons_of_mem _ he)]
    rfl

/-- The reference to an element of a vector. -/
def elementRefs (elements : List (Option ObjId)) : Multiset ObjId :=
  (elements.filterMap id : List ObjId)

/-- One more element refers to one more object. -/
theorem elementRefs_concat (elements : List (Option ObjId)) (q : Option ObjId) :
    elementRefs (elements ++ [q]) = optionRef q + elementRefs elements := by
  rw [elementRefs, List.filterMap_append, ← Multiset.coe_add, add_comm]
  cases q <;> rfl

mutual

/-- **Building a value** accounts for every reference. -/
theorem build_builds (g : w₀.Grounded) (param : String) :
    ∀ (v : HostValue) {owned : Multiset ObjId} {w : World}, v.WellFormed → w₀.Staged owned w →
      Builds w₀ owned optionRef (fun m => build m param v) w
  | .null, owned, w, _, s => by
    refine .pure (a := none) ?_
    rw [optionRef, Option.toList_none, Multiset.coe_nil, zero_add]
    exact s
  | .bool value, owned, w, _, s => .pure (a := some _) (s.truth g value)
  | .int value, owned, w, _, s =>
    newObject_builds (.integer value) rfl ((zero_add owned).symm ▸ s)
  | .float value, owned, w, _, s =>
    newObject_builds (.float value) rfl ((zero_add owned).symm ▸ s)
  | .str value, owned, w, _, s =>
    newObject_builds (.str value) rfl ((zero_add owned).symm ▸ s)
  | .object o, owned, w, _, s =>
    (retain_builds g s o.handle).bind fun _ _ s' => .pure (a := some _) s'
  | .list items, owned, w, hv, s => by
    refine Builds.bind (buildList_builds g param items hv ?_) fun elements w' s' => ?_
    · exact (zero_add owned).symm ▸ s
    · exact newObject_builds (.vector elements) rfl s'
  | .dict entries, owned, w, hv, s => by
    refine Builds.bind (buildEntries_builds g param entries hv.1 hv.2 ?_ ?_)
      fun built w' s' => ?_
    · exact fun b hb => absurd hb List.not_mem_nil
    · exact (zero_add owned).symm ▸ s
    · exact newObject_builds (.hash built) rfl s'

/-- The elements of a list join those that are built. -/
theorem buildList_builds (g : w₀.Grounded) (param : String) :
    ∀ (items : List HostValue) {built : List (Option ObjId)} {owned : Multiset ObjId} {w : World},
      Value.WellFormedList items → w₀.Staged (elementRefs built + owned) w →
      Builds w₀ owned elementRefs (fun m => buildList m param built items) w
  | [], built, owned, w, _, s => .pure s
  | v :: rest, built, owned, w, hv, s => by
    refine Builds.bind (build_builds g param v hv.1 s).onRefusal fun q w' s' => ?_
    refine buildList_builds g param rest hv.2 ?_
    rw [elementRefs_concat]
    exact s'

/-- The values of a dict join those that are built, whose keys come before theirs. -/
theorem buildEntries_builds (g : w₀.Grounded) (param : String) :
    ∀ (entries : List (String × HostValue)) {built : KeyMap ObjId} {owned : Multiset ObjId}
      {w : World}, Ascending entries → Value.WellFormedEntries entries →
      (∀ b ∈ built.entries, ∀ e ∈ entries, b.1 < e.1) →
      w₀.Staged ((built.values : Multiset ObjId) + owned) w →
      Builds w₀ owned (fun built => (built.values : Multiset ObjId))
        (fun m => buildEntries m param built entries) w
  | [], built, owned, w, _, _, _, s => .pure s
  | e :: rest, built, owned, w, hasc, hv, hbelow, s => by
    have hasc' := List.pairwise_cons.1 hasc
    refine Builds.bind (build_builds g param e.2 hv.1 s).onRefusal fun q w' s' => ?_
    rcases q with _ | p
    · rw [optionRef, Option.toList_none, Multiset.coe_nil, zero_add] at s'
      obtain ⟨w'', hall, s''⟩ := s'.releaseAll built.values
      exact ⟨.error _ w'', fun m => by rw [← hall m]; rfl, s''⟩
    · have hinsert : (built.insert e.1 p).entries = built.entries ++ [(e.1, p)] :=
        insertSorted_of_lt fun b hb => hbelow b hb e List.mem_cons_self
      have hvalues : ((built.insert e.1 p).values : Multiset ObjId) =
          optionRef (some p) + built.values := by
        rw [KeyMap.values, hinsert, List.map_append, ← Multiset.coe_add, add_comm]
        rfl
      refine buildEntries_builds g param rest hasc'.2 hv.2 ?_ ?_
      · intro b hb x hx
        rw [hinsert, List.mem_append, List.mem_singleton] at hb
        rcases hb with hb | rfl
        · exact hbelow b hb x (List.mem_cons_of_mem _ hx)
        · exact hasc'.1 x hx
      · rw [hvalues]
        exact s'

end

end Conversion

end Interop

/-
# Copying with a stack of the containers on the way down

`convert` copies an object and wraps what is left of it in one pass.  It keeps the containers
that are being copied on a stack, pushes each before its elements are converted and pops it
after them, whether or not that was refused.  How deep the calls may nest is up to the caller,
and going too deep is an ending of its own, `Halt.tooDeep`.

**The stack is as it was after every call, and no call goes too deep** if it may nest more
deeply than there are containers left to enter: `convert` then does what wrapping the plan of
the conversion does (`convert_apply`).

`objectToHost_copies` puts the three views together, the copy that `Copies` describes, the
conversion with a stack and the one by a plan, and says what is left of them in the heap.
-/

import Interop.Proofs.Conversion.Copies
import Interop.Proofs.Conversion.Wrapping
import Interop.Sample.Native

namespace Interop

/-- The world, and the containers that are being copied, the last one first. -/
structure Descent where
  world : World
  seen : List ObjId

/-- Why a conversion ends without a value. -/
inductive Halt
  | refused (e : BridgeError)
  /-- The calls nested more deeply than they may. -/
  | tooDeep

/-- A step of a conversion that keeps a stack. -/
abbrev DescentM (α : Type) := EStateM Halt Descent α

namespace DescentM

variable {α β : Type}

/-- A step that leaves the stack alone. -/
def lift (x : CheckM α) : DescentM α := fun s =>
  match x s.world with
  | .ok a world => .ok a { s with world }
  | .error e world => .error (.refused e) { s with world }

/-- A step with `p` on the stack, which is popped however the step ends. -/
def inside (p : ObjId) (x : DescentM α) : DescentM α := fun s =>
  match x { s with seen := p :: s.seen } with
  | .ok a s => .ok a { s with seen := s.seen.tail }
  | .error e s => .error e { s with seen := s.seen.tail }

/-- A step; if it does not end well, the world is tidied by `cleanup`. -/
def onHalt (x : DescentM α) (cleanup : World → World) : DescentM α := fun s =>
  match x s with
  | .ok a s => .ok a s
  | .error e s => .error e { s with world := cleanup s.world }

/-- The list `done` and what `f` gives for each element after it; what there is by then is
disposed of where `f` does not end well. -/
def collect (dispose : List β → World → World) (f : α → DescentM β) (done : List β) :
    List α → DescentM (List β)
  | [] => return done
  | a :: rest => do
    let x ← onHalt (f a) (dispose done)
    collect dispose f (done ++ [x]) rest

end DescentM

namespace Conversion

open DescentM

/-- A new wrapper of `p`. -/
def wrapped (p : ObjId) : CheckM HostValue := do
  return .object (← Wrapper.wrap p)

/-- The host value of `p` with a stack of containers, where calls nest `depth` deep at most. -/
def convert (m : Machine) : Nat → ObjId → DescentM HostValue
  | 0, _ => throw .tooDeep
  | depth + 1, p => do
    let s ← get
    match (s.world.heap.obj p).payload with
    | .str text => return .str text
    | .integer value => return .int value
    | .float value => return .float value
    | .boolean value => return .bool value
    | .vector elements =>
      if p ∈ s.seen then lift (wrapped p)
      else
        let items ← inside p (collect (fun done => HostValue.drop m (.list done))
          (fun
            | some q => convert m depth q
            | none => return .null) [] elements)
        return .list items
    | .hash held =>
      if p ∈ s.seen then lift (wrapped p)
      else
        let entries ← inside p (collect (fun done => HostValue.drop m (.dict done))
          (fun e => do return (e.1, ← convert m depth e.2)) [] held.entries)
        return .dict entries
    | _ => lift (wrapped p)

/-- The objects of the world hold what they hold in `h`. -/
def Like (h : Heap) (w : World) : Prop :=
  w.heap.cells.size = h.cells.size ∧ ∀ q, (w.heap.obj q).payload = (h.obj q).payload

/-- What is wrapped leaves the objects what they hold. -/
theorem Like.wrapLeaves {h : Heap} {m : Machine} {w w' : World} {plan : Value ObjId}
    {v : HostValue} (l : Like h w) (hwrap : Conversion.wrapLeaves m plan w = .ok v w') :
    Like h w' := by
  have hwraps := wrapLeaves_settles m plan w
  rw [hwrap] at hwraps
  exact ⟨(Heap.size_of_retainAll hwraps.taken).trans l.1,
    fun q => (Heap.payload_retainAll q hwraps.taken).trans (l.2 q)⟩

section

variable {m : Machine} {h : Heap} {depth : Nat} {path : List ObjId}

/-- The elements of a vector are converted as the list of their plans is wrapped. -/
theorem collect_list (hone : ∀ q w, Like h w →
      convert m depth q ⟨w, path⟩ = lift (wrapLeaves m (copyPlan h depth path q)) ⟨w, path⟩) :
    ∀ (elements : List (Option ObjId)) (done : List HostValue) (w : World), Like h w →
      collect (fun done => HostValue.drop m (.list done))
        (fun
          | some q => convert m depth q
          | none => return .null) done elements ⟨w, path⟩ =
        lift (wrapList m done (elements.map (copyElement h depth path))) ⟨w, path⟩
  | [], _, _, _ => rfl
  | q :: rest, done, w, l => by
    have hq : (match q with
        | some q => convert m depth q
        | none => return .null : DescentM HostValue) ⟨w, path⟩ =
        lift (wrapLeaves m (copyElement h depth path q)) ⟨w, path⟩ := by
      rcases q with _ | q
      · rfl
      · exact hone q w l
    rw [collect, Steps.bind_apply, onHalt, hq, List.map_cons, lift, lift, wrapList,
      Steps.bind_apply, World.onRefusal_apply]
    rcases hx : wrapLeaves m (copyElement h depth path q) w with ⟨x, w₁⟩ | ⟨e, w₁⟩
    · exact collect_list hone rest (done ++ [x]) w₁ (l.wrapLeaves hx)
    · rfl

/-- The values of a hash are converted as the dict of their plans is wrapped. -/
theorem collect_dict (hone : ∀ q w, Like h w →
      convert m depth q ⟨w, path⟩ = lift (wrapLeaves m (copyPlan h depth path q)) ⟨w, path⟩) :
    ∀ (held : List (String × ObjId)) (done : List (String × HostValue)) (w : World), Like h w →
      collect (fun done => HostValue.drop m (.dict done))
        (fun e => do return (e.1, ← convert m depth e.2)) done held ⟨w, path⟩ =
        lift (wrapEntries m done (held.map fun e => (e.1, copyPlan h depth path e.2)))
          ⟨w, path⟩
  | [], _, _, _ => rfl
  | e :: rest, done, w, l => by
    rw [collect, Steps.bind_apply, onHalt, Steps.bind_apply, hone e.2 w l, List.map_cons, lift,
      lift, wrapEntries, Steps.bind_apply, World.onRefusal_apply]
    rcases hx : wrapLeaves m (copyPlan h depth path e.2) w with ⟨x, w₁⟩ | ⟨e', w₁⟩
    · exact collect_dict hone rest (done ++ [(e.1, x)]) w₁ (l.wrapLeaves hx)
    · rfl

end

/-- **The conversion with a stack does what wrapping the plan does**, and leaves the stack as
it was, whether the conversion succeeds or is refused; it does not go too deep if it may nest
more deeply than there are containers left to enter. -/
theorem convert_apply (m : Machine) : ∀ (depth : Nat) (p : ObjId) (s : Descent),
    unseen s.world.heap s.seen < depth →
    convert m depth p s = lift (wrapLeaves m (copyPlan s.world.heap depth s.seen p)) s
  | 0, _, _, hdepth => absurd hdepth (Nat.not_lt_zero _)
  | depth + 1, p, ⟨w, seen⟩, hdepth => by
    have hdown : (w.heap.obj p).payload.isContainer = true → p ∉ seen → ∀ q w', Like w.heap w' →
        convert m depth q ⟨w', p :: seen⟩ =
          lift (wrapLeaves m (copyPlan w.heap depth (p :: seen) q)) ⟨w', p :: seen⟩ := by
      intro hp hseen q w' l
      have hlt := unseen_cons_lt hp hseen
      rw [convert_apply m depth q ⟨w', p :: seen⟩, copyPlan_congr l.2]
      rw [unseen_congr l.1 l.2]
      exact Nat.lt_of_lt_of_le hlt (Nat.le_of_lt_succ hdepth)
    have hlike : Like w.heap w := ⟨rfl, fun _ => rfl⟩
    rw [convert, Steps.bind_apply, Steps.get_apply]
    dsimp only
    rcases hpay : (w.heap.obj p).payload with _ | _ | _ | _ | _ | held | elements | _
    case hash =>
      by_cases hseen : p ∈ seen
      · have hleaf : IsLeaf w.heap seen p := by rwa [IsLeaf, hpay]
        rw [copyPlan_of_isLeaf hleaf]
        exact congrFun (if_pos hseen) _
      · rw [copyPlan_hash hpay hseen]
        refine (congrFun (if_neg hseen) _).trans ?_
        rw [Steps.bind_apply, inside, collect_dict (hdown (by rw [hpay]; rfl) hseen) _ _ w hlike,
          lift, lift, wrapLeaves, Steps.bind_apply]
        rcases wrapEntries m [] _ w with ⟨_, _⟩ | ⟨_, _⟩ <;> rfl
    case vector =>
      by_cases hseen : p ∈ seen
      · have hleaf : IsLeaf w.heap seen p := by rwa [IsLeaf, hpay]
        rw [copyPlan_of_isLeaf hleaf]
        exact congrFun (if_pos hseen) _
      · rw [copyPlan_vector hpay hseen]
        refine (congrFun (if_neg hseen) _).trans ?_
        rw [Steps.bind_apply, inside, collect_list (hdown (by rw [hpay]; rfl) hseen) _ _ w hlike,
          lift, lift, wrapLeaves, Steps.bind_apply]
        rcases wrapList m [] _ w with ⟨_, _⟩ | ⟨_, _⟩ <;> rfl
    all_goals
      rw [copyPlan, hpay]
      rfl

/-- **Copying ends on every heap, and breaks a cycle just where it closes.**  With any stack on
entry, and where no count is exceeded by the wrappers: the conversion ends, at any depth that
holds all objects, with the stack as it was; by the plan it gives the same value in the same
world.  The value, with its wrappers taken off, is the one copy that `Copies` describes, so
each key of a hash comes once.  The wrappers are on new handles, each of which owns one
reference, and all that happens to the heap is that these references are counted. -/
theorem objectToHost_copies (m : Machine) (w : World) (seen : List ObjId) (p : ObjId)
    (room : ∀ copy, Copies w.heap seen copy (some p) → w.heap.Room copy.objects) :
    ∃ v w',
      (∀ depth, w.heap.cells.size < depth → convert m depth p ⟨w, seen⟩ = .ok v ⟨w', seen⟩) ∧
      (seen = [] → objectToHost m p w = .ok v w') ∧
      (∀ copy, Copies w.heap seen copy (some p) ↔ copy = unwrapped w' v) ∧
      (unwrapped w' v).WellFormed ∧
      handlesOf v = List.range' w.handles.size (unwrapped w' v).objects.length ∧
      w'.handles = w.handles ++ ((unwrapped w' v).objects.map w.newHandle).toArray ∧
      (∀ q, w'.heap.get? q =
        (w.heap.get? q).map fun o => o.raised ((unwrapped w' v).objects.count q)) ∧
      w'.heap.cells.size = w.heap.cells.size ∧ w'.heap.live = w.heap.live ∧
      w'.heap.fault = w.heap.fault := by
  have hunseen := unseen_lt_size w.heap seen
  let plan := copyPlan w.heap (w.heap.cells.size + 1) seen p
  have hcopy : Copies w.heap seen plan (some p) := (copies_iff hunseen).2 rfl
  obtain ⟨v, w', hwrap, hwraps⟩ := wrapLeaves_of_room m (room plan hcopy)
  have hplan : unwrapped w' v = plan := hwraps.unwrapped_eq w' (.refl w')
  refine ⟨v, w', ?_⟩
  rw [hplan]
  refine ⟨?_, ?_, fun copy => copies_iff hunseen, hcopy.wellFormed, hwraps.numbered,
    hwraps.handles_eq, Heap.get?_retainAll hwraps.taken, Heap.size_of_retainAll hwraps.taken,
    Heap.live_retainAll hwraps.taken⟩
  · intro depth hdepth
    have hdeep : unseen w.heap seen < depth := (unseen_le w.heap seen).trans_lt hdepth
    have hsame : copyPlan w.heap depth seen p = plan := ((copies_iff hdeep).1 hcopy).symm
    rw [convert_apply m depth p ⟨w, seen⟩ hdeep, hsame, lift, hwrap]
  · rintro rfl
    rw [objectToHost, Steps.bind_apply, Steps.get_apply]
    exact hwrap

end Conversion

namespace Sample

/-- A vector that holds itself and one hash twice, and the hash holds the vector and a plain
object. -/
def tangled : World where
  heap := {
    cells := #[
      some ⟨Parcel.boolean, true, 1, .boolean true⟩,
      some ⟨Parcel.boolean, true, 1, .boolean false⟩,
      some ⟨Parcel.vector, false, 3, .vector [some ⟨2⟩, some ⟨3⟩, none, some ⟨3⟩]⟩,
      some ⟨Parcel.hash, false, 2, .hash ⟨[("plain", ⟨4⟩), ("up", ⟨2⟩)],
        List.pairwise_pair.2 (by decide)⟩⟩,
      some ⟨Parcel.obj, false, 1, .empty⟩]
    live := 3
    fault := none
    consulted := false }
  handles := #[]
  program := .ready

/-- The hash is copied each time it comes up, the vector only on top. -/
def tangledCopy : Value ObjId :=
  .list [.object ⟨2⟩, .dict [("plain", .object ⟨4⟩), ("up", .object ⟨2⟩)], .null,
    .dict [("plain", .object ⟨4⟩), ("up", .object ⟨2⟩)]]

/-- The example with sharing and a cycle is copied, and the objects in the copy have one
reference more for each wrapper. -/
theorem tangled_copied : ∃ v w',
    Conversion.objectToHost machine ⟨2⟩ tangled = .ok v w' ∧
    Conversion.unwrapped w' v = tangledCopy ∧
    (w'.heap.obj ⟨2⟩).refcount = 6 ∧ (w'.heap.obj ⟨3⟩).refcount = 2 ∧
    (w'.heap.obj ⟨4⟩).refcount = 3 := by
  have hunseen := Conversion.unseen_lt_size tangled.heap []
  have hplan : Conversion.copyPlan tangled.heap (tangled.heap.cells.size + 1) [] ⟨2⟩ =
      tangledCopy := rfl
  have hcopies : ∀ copy, Conversion.Copies tangled.heap [] copy (some ⟨2⟩) ↔
      copy = tangledCopy := fun copy => hplan ▸ Conversion.copies_iff hunseen
  have room : ∀ copy, Conversion.Copies tangled.heap [] copy (some ⟨2⟩) →
      tangled.heap.Room copy.objects := by
    intro copy hcopy
    obtain rfl := (hcopies copy).1 hcopy
    decide
  obtain ⟨v, w', -, hplanned, hcopy, -, -, -, hheap, -⟩ :=
    Conversion.objectToHost_copies machine tangled [] ⟨2⟩ room
  have hvalue : Conversion.unwrapped w' v = tangledCopy :=
    (hcopies _).1 ((hcopy _).2 rfl)
  rw [hvalue] at hheap
  refine ⟨v, w', hplanned rfl, hvalue, ?_, ?_, ?_⟩
  all_goals
    rw [Heap.obj, hheap]
    rfl

end Sample

end Interop

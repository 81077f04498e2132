/-
# Calls with a known outcome

Where it is known what native code returns or throws, it is known how the call ends.  A result
that presents a value (`Ret.Presents`) is answered as that value, a constructed object with a
wrapper of its own, and a plain error becomes a `RuntimeError`.

After the native code the call only gives references back: the heap shrinks, and the handles
that own references stay as they are, up to the one of a new wrapper.
-/

import Interop.Proofs.Conversion.RoundTrip
import Interop.Proofs.Ownership.Calls

namespace Interop

open Conversion

/-- What the result is for the host, where `V` is looked at. -/
def Ret.Presents (V : View) : Ret → HostValue → Prop
  | .void, v => v = .null
  | .null, v => v = .null
  | .bool b, v => v = .bool b
  | .int n, v => v = .int n
  | .float x, v => v = .float x
  | .incremented p, v => V.Shows v (some p)
  | .borrowed p, v => V.Shows v (some p)
  | .pointer _, _ => False

namespace World

variable {K : Class → Prop} {extra : Multiset ObjId} {w w' w'' : World} {hidden : List ObjId}

/-- The handles that own references are as they were, and no other handle owns one. -/
structure KeepsHandles (w w' : World) : Prop where
  handle_eq : ∀ h, (w.handle h).owned = true → w'.handle h = w.handle h
  held_eq : w'.held = w.held

namespace KeepsHandles

/-- A world with the same handles keeps them. -/
theorem of_handles (h : w'.handles = w.handles) : KeepsHandles w w' :=
  ⟨fun g _ => by rw [handle, handle, h], by rw [held, held, h]⟩

/-- A world keeps its own handles. -/
theorem refl (w : World) : KeepsHandles w w := of_handles rfl

/-- Handles that are kept twice are kept. -/
theorem trans (k : KeepsHandles w w') (k' : KeepsHandles w' w'') : KeepsHandles w w'' := by
  refine ⟨fun h howned => ?_, k'.held_eq.trans k.held_eq⟩
  have heq := k.handle_eq h howned
  rw [k'.handle_eq h (by rw [heq]; exact howned), heq]

end KeepsHandles

/-- A handle that owns a reference is as it was after one more handle was made. -/
theorem handle_push {s : HandleState} {h : HandleId} (howned : (w.handle h).owned = true)
    (hhandles : w'.handles = w.handles.push s) : w'.handle h = w.handle h := by
  have hget := getElem?_of_owned howned
  have hlt : h.index < w.handles.size := by
    by_contra hge
    rw [Array.getElem?_eq_none (Nat.le_of_not_lt hge)] at hget
    exact absurd hget (by simp)
  rw [handle, hhandles, Array.getElem?_push, if_neg (Nat.ne_of_lt hlt), hget, Option.getD_some]

/-- A handle that is pushed holds its reference beside those that were held. -/
theorem held_push {s : HandleState} (hhandles : w'.handles = w.handles.push s) :
    w'.held = (s.held?.toList : Multiset ObjId) + w.held := by
  rw [held, held, hhandles, Array.toList_push, List.filterMap_append, ← Multiset.coe_add, add_comm]
  rcases hs : s.held? with _ | p
  · rw [List.filterMap_cons_none hs]
    rfl
  · rw [List.filterMap_cons_some hs]
    rfl

namespace Balanced

/-- Owned references are given back, and nothing else happens. -/
theorem releaseAll_shrinks (ps : List ObjId) (b : Balanced K ((ps : Multiset ObjId) + extra) w)
    (m : Machine) : Heap.Shrinks 0 w.heap (w.releaseAll m ps).heap ∧
      (w.releaseAll m ps).handles = w.handles := by
  have l := b.orderly.ledger
  rw [add_assoc] at l
  obtain ⟨h', hall, -, hshrinks⟩ := l.giveBackAll ps
  refine ⟨?_, rfl⟩
  rw [releaseAll_heap, hall]
  exact hshrinks

/-- A handle adopts a reference for as long as a conversion takes. -/
theorem dropAcquired {p : ObjId} (b : Balanced K (p ::ₘ extra) w) (m : Machine) :
    let w' := Handle.drop m (Handle.acquire p w).1 (Handle.acquire p w).2
    Balanced K extra w' ∧ Heap.Shrinks 0 w.heap w'.heap ∧ KeepsHandles w w' := by
  have l := b.orderly.ledger
  rw [Multiset.cons_add] at l
  obtain ⟨h', hall, -, hshrinks⟩ := l.release
  refine ⟨b.acquire.drop m, ?_⟩
  rw [Handle.drop_acquire]
  refine ⟨?_, fun h howned => handle_push howned rfl, (held_push rfl).trans (zero_add _)⟩
  show Heap.Shrinks 0 w.heap (m.release _ p w.heap).2
  rw [hall]
  exact hshrinks

end Balanced

end World

namespace Conversion

open World

variable {K : Class → Prop} {extra : Multiset ObjId} {w : World} {hidden : List ObjId}

/-- **A result that presents a value** is answered as that value. -/
theorem toHost_presented (m : Machine) {ret : Ret} {v : HostValue} (r : Received K extra ret w)
    (hret : ret.Presents (w.heap.view hidden) v) : ∃ w', toHost m ret w = .ok v w' ∧
      Balanced K extra w' ∧ Heap.Shrinks 0 w.heap w'.heap ∧ KeepsHandles w w' := by
  obtain ⟨b, -⟩ := r
  have hnone : ret.handed = 0 → Balanced K extra w := by
    intro hzero
    rw [hzero, zero_add] at b
    exact b
  have hsame : toHost m ret w = .ok v w → ret.handed = 0 → ∃ w', toHost m ret w = .ok v w' ∧
      Balanced K extra w' ∧ Heap.Shrinks 0 w.heap w'.heap ∧ KeepsHandles w w' := fun hok hzero =>
    ⟨w, hok, hnone hzero, .refl 0 w.heap, .refl w⟩
  cases ret with
  | incremented p =>
    have b₁ : Balanced K (p ::ₘ extra) w := b
    exact ⟨_, toHost_incremented m hret, b₁.dropAcquired m⟩
  | borrowed p => exact hsame (objectToHost_of_shows m hret) rfl
  | pointer address => exact absurd hret id
  | _ =>
    obtain rfl := hret
    exact hsame rfl rfl

end Conversion

namespace Call

open World

variable {machine : Machine} {K : Class → Prop} {w : World} {frame : Frame} {native : NativeM Ret}
  {cls : Class} {code : Code} {hidden : List ObjId} {h' : Heap}

/-- At the end of a call the references of its frame are given back. -/
theorem frame_released (machine : Machine) (b : Balanced K (frame.owned : Multiset ObjId) w) :
    Balanced K 0 (w.releaseAll machine frame.owned) ∧
      Heap.Shrinks 0 w.heap (w.releaseAll machine frame.owned).heap ∧
      KeepsHandles w (w.releaseAll machine frame.owned) := by
  have b' : Balanced K ((frame.owned : Multiset ObjId) + 0) w :=
    (add_zero (frame.owned : Multiset ObjId)).symm ▸ b
  obtain ⟨hshrinks, hhandles⟩ := b'.releaseAll_shrinks frame.owned machine
  exact ⟨b'.releaseAll frame.owned machine, hshrinks, .of_handles hhandles⟩

/-- **A call whose code returns** answers the value that the result presents. -/
theorem runTrapped_returned (fam : Family machine K) (exceptions : ExceptionMap)
    (b : Balanced K (frame.owned : Multiset ObjId) w) (hstands : frame.Standing cls w.heap)
    (hkeeps : Keeps fam cls code) (hcode : codeFor machine.image code cls frame = some native)
    {ret : Ret} (hrun : native (machine.env w.program.registryView) w.heap = .ok ret h')
    {v : HostValue} (hret : ret.Presents (h'.view hidden) v) :
    ∃ w', runTrapped machine exceptions cls (toHost machine) code frame w = .ok v w' ∧
      Balanced K 0 w' ∧ Heap.Shrinks 0 h' w'.heap ∧ KeepsHandles w w' := by
  have hsafe := hkeeps frame native w.heap _ hcode hstands b.moves_refl w.program.registryView
  rw [hrun] at hsafe
  obtain ⟨w₁, hok, b₁, hshrinks₁, hkeeps₁⟩ :=
    toHost_presented machine (received_of_returned fam b hsafe) hret
  obtain ⟨b₂, hshrinks₂, hkeeps₂⟩ := frame_released machine b₁
  have hhandles : KeepsHandles w (w.settle h') := .of_handles rfl
  refine ⟨_, ?_, b₂, hshrinks₁.trans hshrinks₂, (hhandles.trans hkeeps₁).trans hkeeps₂⟩
  rw [runTrapped_of_returned exceptions _ hcode hrun, hok]

/-- **A call whose code throws a plain error** raises what such errors become. -/
theorem runTrapped_failed {α : Type} (fam : Family machine K) (exceptions : ExceptionMap)
    (convert : Ret → CheckM α) (b : Balanced K (frame.owned : Multiset ObjId) w)
    (hstands : frame.Standing cls w.heap) (hkeeps : Keeps fam cls code)
    (hcode : codeFor machine.image code cls frame = some native) {message : String}
    (hrun : native (machine.env w.program.registryView) w.heap =
      NativeM.fail message (machine.env w.program.registryView) w.heap) :
    ∃ w', runTrapped machine exceptions cls convert code frame w =
        .error (exceptions.exceptionFor Parcel.err message) w' ∧
      Balanced K 0 w' ∧ Heap.Shrinks 0 (w.heap.alloc Parcel.err (.err message)).2 w'.heap ∧
      KeepsHandles w w' := by
  have hsafe := hkeeps frame native w.heap _ hcode hstands b.moves_refl w.program.registryView
  rw [NativeM.fail_apply] at hrun
  rw [hrun] at hsafe
  have bthrown := balanced_of_thrown b hsafe
  have l := bthrown.orderly.ledger
  rw [Multiset.cons_add] at l
  obtain ⟨h₁, hall, -, hshrinks₁⟩ := l.release
  -- the exception is made from the new error, whose reference is then given back
  let t : Thrown := ⟨(w.heap.alloc Parcel.err (.err message)).1⟩
  let w₀ : World := w.settle (w.heap.alloc Parcel.err (.err message)).2
  have hobj : w₀.heap.obj t.object = Heap.fresh Parcel.err (.err message) :=
    Heap.obj_of_get? (Heap.get?_alloc_self _ _)
  have hexception : (exceptions.toException machine t w₀).1 =
      exceptions.exceptionFor Parcel.err message := by
    show exceptions.exceptionFor (w₀.heap.obj t.object).cls (w₀.heap.thrownMessage t) = _
    rw [Heap.thrownMessage, hobj]
    rfl
  have hheap : (exceptions.toException machine t w₀).2.heap = h₁ := hall machine _
  have b₁ := exceptions.toException_balanced machine (t := t) bthrown
  obtain ⟨b₂, hshrinks₂, hkeeps₂⟩ := frame_released machine b₁
  have hhandles : KeepsHandles w (exceptions.toException machine t w₀).2 := .of_handles rfl
  refine ⟨_, ?_, b₂, (hheap ▸ hshrinks₁).trans hshrinks₂, hhandles.trans hkeeps₂⟩
  rw [runTrapped_of_thrown exceptions convert hcode hrun, ← hexception]

/-- **A call whose code makes an object** answers a wrapper that adopts the reference to it. -/
theorem runTrapped_made (fam : Family machine K) (exceptions : ExceptionMap)
    (b : Balanced K (frame.owned : Multiset ObjId) w) (hstands : frame.Standing cls w.heap)
    (hkeeps : Keeps fam cls code) (hcode : codeFor machine.image code cls frame = some native)
    {p : ObjId}
    (hrun : native (machine.env w.program.registryView) w.heap = .ok (.incremented p) h') :
    ∃ o w', runTrapped machine exceptions cls toWrapper code frame w = .ok o w' ∧
      Balanced K 0 w' ∧ Heap.Shrinks 0 h' w'.heap ∧ o.cls = (h'.obj p).cls ∧
      (w'.handle o.handle).object = p ∧ (w'.handle o.handle).owned = true ∧
      (∀ h, (w.handle h).owned = true → w'.handle h = w.handle h) ∧
      w'.held = p ::ₘ w.held := by
  have hsafe := hkeeps frame native w.heap _ hcode hstands b.moves_refl w.program.registryView
  rw [hrun] at hsafe
  let w₀ : World := w.settle h'
  have b₀ : Balanced K (p ::ₘ (frame.owned : Multiset ObjId)) w₀ :=
    (received_of_returned fam b hsafe).1
  obtain ⟨b₂, hshrinks, hkeeps₂⟩ := frame_released machine b₀.acquire
  let s : HandleState := ⟨p, (w₀.obj p).cls, true, w₀.program.current.1.releasePolicy, 1⟩
  have hpush : (Handle.acquire p w₀).2.handles = w.handles.push s := rfl
  have hnew : (Handle.acquire p w₀).2.handle ⟨w.handles.size⟩ = s := by
    rw [handle, hpush, Array.getElem?_push, if_pos rfl, Option.getD_some]
  have hnew₂ := hkeeps₂.handle_eq ⟨w.handles.size⟩ (by rw [hnew])
  refine ⟨⟨⟨w.handles.size⟩, s.cls⟩, _, ?_, b₂, hshrinks, rfl, ?_, ?_, ?_, ?_⟩
  · rw [runTrapped_of_returned exceptions _ hcode hrun, ← hnew]
    rfl
  · rw [hnew₂, hnew]
  · rw [hnew₂, hnew]
  · intro h howned
    have hold : (Handle.acquire p w₀).2.handle h = w.handle h := handle_push howned hpush
    rw [hkeeps₂.handle_eq h (by rw [hold]; exact howned), hold]
  · rw [hkeeps₂.held_eq, held_push hpush]
    rfl

end Call

end Interop

/-
# Running native code step by step

What the operations that native code is made of do to the heap.  Native code is a
function of the environment and the heap, so every one of these equations holds by
unfolding; with them `simp` runs a piece of code up to the first point where it depends on
what the heap holds.
-/

import Interop.Parcel.Routines

namespace Interop

/-! ### Several references -/

namespace NativeM

variable {α β : Type} (env : NativeEnv) (h : Heap)

/-! ### Steps -/

/-- A value leaves the heap as it is. -/
@[simp] theorem pure_apply (a : α) : (pure a : NativeM α) env h = .ok a h := rfl

/-- The second step runs on the heap that the first leaves. -/
@[simp] theorem bind_apply (x : NativeM α) (f : α → NativeM β) :
    (x >>= f) env h = match x env h with
      | .ok a h => f a env h
      | .error t h => .error t h := by
  show EStateM.bind (x env) (fun a => f a env) h = _
  rw [EStateM.bind]
  rcases x env h with _ | _ <;> rfl

/-- A sequence that returns is one of two parts that return. -/
theorem bind_inv {x : NativeM α} {f : α → NativeM β} {env : NativeEnv} {h h' : Heap} {b : β}
    (hrun : (x >>= f) env h = .ok b h') : ∃ a h₁, x env h = .ok a h₁ ∧ f a env h₁ = .ok b h' := by
  rw [bind_apply] at hrun
  rcases hx : x env h with ⟨a, h₁⟩ | ⟨t, h₁⟩ <;> rw [hx] at hrun
  · exact ⟨a, h₁, rfl, hrun⟩
  · exact absurd hrun (by simp)

/-- The heap is read. -/
@[simp] theorem get_apply : (get : NativeM Heap) env h = .ok h h := rfl

/-- The heap is replaced. -/
@[simp] theorem set_apply (h' : Heap) : (set h' : NativeM PUnit) env h = .ok ⟨⟩ h' := rfl

/-- A throw leaves the heap as it is. -/
@[simp] theorem throw_apply (t : Thrown) : (throw t : NativeM α) env h = .error t h := rfl

/-- An object is read at its place. -/
@[simp] theorem object_apply (p : ObjId) : object p env h = .ok (h.obj p) h := rfl

/-- A look at the registry answers it and is marked in the heap. -/
@[simp] theorem consult_apply :
    consult env h = .ok env.global h.markConsulted := rfl

/-- What can be reserved is up to the memory. -/
@[simp] theorem reserve_apply (room : Memory → Nat → Bool) (n : Nat) :
    reserve room n env h = .ok (room env.memory n) h := rfl

/-- An object is made. -/
@[simp] theorem alloc_apply (cls : Class) (payload : Payload) :
    alloc cls payload env h = .ok (h.alloc cls payload).1 (h.alloc cls payload).2 := rfl

/-- A payload is written. -/
@[simp] theorem setPayload_apply (p : ObjId) (payload : Payload) :
    setPayload p payload env h = .ok ⟨⟩ (h.setPayload p payload) := rfl

/-- References are given back in turn. -/
@[simp] theorem releaseAll_apply : ∀ (ps : List ObjId) (h : Heap),
    releaseAll ps env h = .ok () (h.giveBackAll env.release ps)
  | [], _ => rfl
  | p :: ps, h => releaseAll_apply ps (env.release p h).2

/-- A failure throws a new error with its message. -/
@[simp] theorem fail_apply (message : String) : (fail message : NativeM α) env h =
    .error ⟨(h.alloc Parcel.err (.err message)).1⟩ (h.alloc Parcel.err (.err message)).2 := rfl

/-- A reference is taken, or an error is thrown where it cannot be counted. -/
@[simp] theorem retain_apply (p : ObjId) : retain p env h =
    match h.retain p with
    | .ok h' => .ok p h'
    | .error e => fail e.message env h := by
  show (match h.retain p with
    | .ok h' => (set h' >>= fun _ => pure p : NativeM ObjId)
    | .error e => failWith e) env h = _
  rcases h.retain p with _ | _ <;> rfl

end NativeM

end Interop

/-
# Running steps of the bridge

What the monad of the bridge does with a state: everything that is refused goes on to the
end, with the state as it is by then.  All these equations hold by unfolding.
-/

import Interop.Module.Calls
import Interop.Proofs.Native.Run
import Interop.Proofs.Program.Opening
import Mathlib.Tactic.SplitIfs

namespace Interop

namespace Steps

variable {ε σ α β : Type}

/-- A value leaves the state as it is. -/
@[simp] theorem pure_apply (a : α) (s : σ) : (pure a : EStateM ε σ α) s = .ok a s := rfl

/-- The second step starts from the state that the first leaves. -/
@[simp] theorem bind_apply (x : EStateM ε σ α) (f : α → EStateM ε σ β) (s : σ) :
    (x >>= f) s = match x s with
      | .ok a s => f a s
      | .error e s => .error e s := by
  show EStateM.bind x f s = _
  rw [EStateM.bind]
  rcases x s with _ | _ <;> rfl

/-- The state is read. -/
@[simp] theorem get_apply (s : σ) : (get : EStateM ε σ σ) s = .ok s s := rfl

/-- The state is changed. -/
@[simp] theorem modify_apply (f : σ → σ) (s : σ) :
    (modify f : EStateM ε σ PUnit) s = .ok ⟨⟩ (f s) := rfl

/-- The state is changed with an answer. -/
@[simp] theorem modifyGet_apply (f : σ → α × σ) (s : σ) :
    (modifyGet f : EStateM ε σ α) s = .ok (f s).1 (f s).2 := rfl

/-- A failure leaves the state as it is. -/
@[simp] theorem throw_apply (e : ε) (s : σ) : (throw e : EStateM ε σ α) s = .error e s := rfl

/-- A sequence of steps succeeds when both parts do. -/
theorem bind_ok {x : EStateM ε σ α} {f : α → EStateM ε σ β} {s s' : σ} {b : β}
    (h : (x >>= f) s = .ok b s') : ∃ a s₁, x s = .ok a s₁ ∧ f a s₁ = .ok b s' := by
  rw [bind_apply] at h
  rcases hx : x s with ⟨a, s₁⟩ | ⟨e, s₁⟩
  · rw [hx] at h
    exact ⟨a, s₁, rfl, h⟩
  · rw [hx] at h
    exact absurd h (by simp)

end Steps

namespace World

variable {α : Type}

/-- A reference is taken, or the refusal is answered. -/
@[simp] theorem retain_apply (p : ObjId) (w : World) : World.retain p w =
    match w.heap.retain p with
    | .ok heap => .ok () { w with heap }
    | .error e => .error e w := rfl

/-- The cleanup is done after a refusal only. -/
@[simp] theorem onRefusal_apply (x : CheckM α) (cleanup : World → World) (w : World) :
    World.onRefusal x cleanup w = match x w with
      | .ok a w => .ok a w
      | .error e w => .error e (cleanup w) := rfl

/-- What succeeds has done so without the cleanup. -/
theorem onRefusal_ok {x : CheckM α} {cleanup : World → World} {w w' : World} {a : α}
    (h : World.onRefusal x cleanup w = .ok a w') : x w = .ok a w' := by
  rw [onRefusal_apply] at h
  rcases hx : x w with ⟨b, w₁⟩ | ⟨e, w₁⟩
  · rw [hx] at h
    exact h
  · rw [hx] at h
    exact absurd h (by simp)

end World

namespace StageM

variable {α : Type}

/-- A step of the world is done in the world of the frame. -/
@[simp] theorem lift_apply (x : CheckM α) (s : Staging) : StageM.lift x s =
    match x s.world with
    | .ok a world => .ok a { s with world }
    | .error e world => .error e { s with world } := rfl

/-- A step of the world that succeeds changes the world only. -/
theorem lift_ok {x : CheckM α} {s s' : Staging} {a : α} (h : StageM.lift x s = .ok a s') :
    ∃ world, x s.world = .ok a world ∧ s' = { s with world } := by
  rw [lift_apply] at h
  rcases hx : x s.world with ⟨b, world⟩ | ⟨e, world⟩ <;> simp only [hx] at h
  · obtain ⟨rfl, rfl⟩ : b = a ∧ { s with world } = s' := by simpa using h
    exact ⟨world, rfl, rfl⟩
  · exact absurd h (by simp)

/-- An argument is pushed onto the frame. -/
@[simp] theorem push_apply (arg : Arg) (s : Staging) :
    StageM.push arg s = .ok () { s with frame := s.frame.push arg } := rfl

/-- The frame adopts an object. -/
@[simp] theorem adopt_apply (p : ObjId) (s : Staging) :
    StageM.adopt p s = .ok () { s with frame := s.frame.adopt p } := rfl

end StageM

namespace HostM

variable {α : Type}

/-- What the bridge refuses is raised in the host. -/
@[simp] theorem check_apply (x : CheckM α) (w : World) : HostM.check x w = match x w with
    | .ok a w => .ok a w
    | .error e w => .error (.ofError e) w := rfl

/-- A refusal is raised and leaves the world as it is. -/
@[simp] theorem refuse_apply (e : BridgeError) (w : World) :
    (HostM.refuse e : HostM α) w = .error (.ofError e) w := rfl

/-- A failure gets the frame into its traceback. -/
@[simp] theorem inFrame_apply (frame : String) (x : HostM α) (w : World) :
    HostM.inFrame frame x w = match x w with
      | .ok a w => .ok a w
      | .error e w => .error (e.withFrame frame) w := rfl

/-- The cleanup is done after success and after failure. -/
@[simp] theorem closing_apply (x : HostM α) (cleanup : World → World) (w : World) :
    HostM.closing x cleanup w = match x w with
      | .ok a w => .ok a (cleanup w)
      | .error e w => .error e (cleanup w) := rfl

end HostM

namespace Call

variable {α : Type} {m : Machine} {w : World} {cls : Class} {code : Code} {frame : Frame}
  {native : NativeM Ret} {h' : Heap}

/-- What is returned is converted, and then the frame is given back. -/
theorem runTrapped_of_returned (exceptions : ExceptionMap) (convert : Ret → CheckM α) {ret : Ret}
    (hcode : codeFor m.image code cls frame = some native)
    (hrun : native (m.env w.program.registryView) w.heap = .ok ret h') :
    runTrapped m exceptions cls convert code frame w =
      match convert ret (w.settle h') with
      | .ok a w' => .ok a (w'.releaseAll m frame.owned)
      | .error e w' => .error (.ofError e) (w'.releaseAll m frame.owned) := by
  simp only [runTrapped, hcode, HostM.closing_apply, runCode, World.runNative, hrun, settle,
    HostM.check_apply]
  rcases convert ret (w.settle h') with _ | _ <;> rfl

/-- What is thrown becomes an exception, and then the frame is given back. -/
theorem runTrapped_of_thrown (exceptions : ExceptionMap) (convert : Ret → CheckM α) {t : Thrown}
    (hcode : codeFor m.image code cls frame = some native)
    (hrun : native (m.env w.program.registryView) w.heap = .error t h') :
    runTrapped m exceptions cls convert code frame w =
      .error (exceptions.toException m t (w.settle h')).1
        ((exceptions.toException m t (w.settle h')).2.releaseAll m frame.owned) := by
  simp only [runTrapped, hcode, HostM.closing_apply, runCode, World.runNative, hrun, settle]

end Call

namespace Handle

/-- A reference is taken through a handle that owns one. -/
theorem retain_apply (h : HandleId) (w : World) : Handle.retain h w =
    if (w.handle h).owned then
      match w.heap.retain (w.handle h).object with
      | .ok heap => .ok (w.handle h).object { w with heap }
      | .error e => .error e w
    else .error .releasedHandle w := by
  simp only [Handle.retain, Handle.object, Steps.bind_apply, Steps.get_apply]
  split_ifs
  · simp only [Steps.pure_apply, World.retain_apply]
    rcases w.heap.retain _ with _ | _ <;> rfl
  · rfl

end Handle

end Interop

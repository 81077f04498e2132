/-
# Operations on handles

What an operation on a handle does is up to whether the handle still owns its reference.  If it
does, the operation acts on the object (`Handle.Owning`).  If not, whatever needs the object is
refused, and a second release is refused or ignored, as the policy of the handle says, without a
look at any object (`Handle.Spent`): it would be the same over any other heap.
-/

import Interop.Proofs.Conversion.Wrapping
import Interop.Proofs.Ownership.Outcomes

namespace Interop

namespace World

variable {w w₁ w' : World} {h g : HandleId} {f : HandleState → HandleState} {s : HandleState}

/-! ### The table of handles -/

/-- Beyond the last handle there are vacant ones. -/
theorem handle_of_size_le (hle : w.handles.size ≤ h.index) : w.handle h = .vacant := by
  rw [handle, Array.getElem?_eq_none hle]
  rfl

/-- A handle beyond the last one owns nothing. -/
theorem not_owned_of_size_le (hle : w.handles.size ≤ h.index) : (w.handle h).owned = false := by
  rw [handle_of_size_le hle]
  rfl

/-- A handle that owns a reference was made. -/
theorem index_lt_of_owned (howned : (w.handle h).owned = true) : h.index < w.handles.size := by
  by_contra hge
  rw [not_owned_of_size_le (Nat.le_of_not_lt hge)] at howned
  exact absurd howned (by decide)

/-- What a handle stands for depends on the handles only. -/
theorem handle_congr (hhandles : w'.handles = w₁.handles) (h : HandleId) :
    w'.handle h = w₁.handle h := by
  rw [handle, handle, hhandles]

/-- The handle that is modified is what the modification makes of it. -/
theorem handle_modifyHandle_self (hlt : h.index < w.handles.size) :
    (w.modifyHandle h f).handle h = f (w.handle h) := by
  rw [handle, handle, modifyHandle, Array.getElem?_modify, if_pos rfl,
    Array.getElem?_eq_getElem hlt]
  rfl

/-- A modification leaves the other handles. -/
theorem handle_modifyHandle_of_ne (hne : g ≠ h) : (w.modifyHandle h f).handle g = w.handle g := by
  have hindex : ¬ h.index = g.index := fun heq => hne (congrArg HandleId.mk heq.symm)
  rw [handle, handle, modifyHandle, Array.getElem?_modify, if_neg hindex]

/-- A modification keeps the number of handles. -/
theorem size_modifyHandle : (w.modifyHandle h f).handles.size = w.handles.size :=
  Array.size_modify

/-- A handle that is pushed is the last one, and the others stay. -/
theorem handle_pushed (hhandles : w'.handles = w.handles.push s) (h : HandleId) :
    w'.handle h = if h.index = w.handles.size then s else w.handle h := by
  rw [handle, handle, hhandles, Array.getElem?_push]
  split_ifs <;> rfl

end World

/-! ### What each operation does -/

/-- To resolve the configuration does not touch the registry. -/
theorem Program.registryView_current (p : Program) :
    p.current.2.registryView = p.registryView := by
  rcases hconfig : p.config with _ | config
  · rcases hread : p.readEnvironment with e | config <;>
      simp [current, hconfig, hread, registryView, log]
  · simp [current, hconfig]

namespace Handle

variable {w : World} {h : HandleId} {p : ObjId}

/-- The object of a handle can be had as long as the handle owns it. -/
theorem object_apply (h : HandleId) (w : World) : object h w =
    if (w.handle h).owned then .ok (w.handle h).object w else .error .releasedHandle w := by
  simp only [object, Steps.bind_apply, Steps.get_apply]
  split_ifs <;> rfl

/-- The count of an object can be had as long as the handle owns it. -/
theorem refcount_apply (h : HandleId) (w : World) : refcount h w =
    if (w.handle h).owned then .ok (w.obj (w.handle h).object).refcount w
    else .error .releasedHandle w := by
  simp only [refcount, Steps.bind_apply, object_apply]
  split_ifs <;> rfl

/-- To wrap an object a reference is taken and acquired. -/
theorem wrap_apply (p : ObjId) (w : World) : wrap p w =
    match w.heap.retain p with
    | .ok heap => .ok ⟨w.handles.size⟩ (acquire p { w with heap }).2
    | .error e => .error e w := by
  simp only [wrap, Steps.bind_apply, World.retain_apply]
  rcases w.heap.retain p with e | heap <;> rfl

/-- To clone a handle a reference is taken, and the clone has the policy of the handle. -/
theorem tryClone_apply (h : HandleId) (w : World) : tryClone h w =
    if (w.handle h).owned then
      match w.heap.retain (w.handle h).object with
      | .ok heap => .ok ⟨w.handles.size⟩ (setPolicy ⟨w.handles.size⟩ (w.handle h).policy
          (acquire (w.handle h).object { w with heap }).2)
      | .error e => .error e w
    else .error .releasedHandle w := by
  simp only [tryClone, Steps.bind_apply, retain_apply]
  split_ifs
  · rcases w.heap.retain (w.handle h).object with e | heap <;> rfl
  · rfl

/-- The reference of a handle can be taken out once. -/
theorem intoRaw_apply (h : HandleId) (w : World) : intoRaw h w =
    if (w.handle h).owned then
      .ok (w.handle h).object (w.modifyHandle h fun state => { state with owned := false })
    else .error .releasedHandle w := by
  simp only [intoRaw, Steps.bind_apply, object_apply]
  split_ifs <;> rfl

/-- A handle that owns a reference surrenders it. -/
theorem release_of_owned (m : Machine) (howned : (w.handle h).owned = true) :
    release m h w = .ok () (surrender m h w) := by
  simp only [release, Steps.bind_apply, Steps.get_apply, howned, if_true]
  rfl

/-- **A second release only writes to the log**, whatever the objects are. -/
theorem release_of_not_owned (m : Machine) (howned : (w.handle h).owned = false) :
    ∃ program, program.registryView = w.program.registryView ∧ ∀ heap,
      release m h { w with heap } = match (w.handle h).policy with
        | .strict => .error (.doubleRelease (w.handle h).cls.name) { w with heap, program }
        | .lenient => .ok () { w with heap, program } := by
  have hrelease : ∀ heap, release m h { w with heap } =
      releaseAgain (w.handle h) { w with heap } := fun heap => by
    have howned' : (World.handle { w with heap } h).owned = false := howned
    simp only [release, Steps.bind_apply, Steps.get_apply, howned', Bool.false_eq_true, if_false]
    rfl
  cases hpolicy : (w.handle h).policy with
  | strict =>
    refine ⟨w.program.log .error logTarget
      ("double release of " ++ (w.handle h).cls.name ++ " handle"), rfl, fun heap => ?_⟩
    rw [hrelease, releaseAgain, hpolicy]
    rfl
  | lenient =>
    refine ⟨w.program.log .warn logTarget
      ("ignoring double release of " ++ (w.handle h).cls.name ++ " handle"), rfl, fun heap => ?_⟩
    rw [hrelease, releaseAgain, hpolicy]
    rfl

/-- To surrender a reference is to give it back and to own none from then on. -/
theorem surrender_eq (m : Machine) (howned : (w.handle h).owned = true) : surrender m h w =
    ((w.modifyHandle h fun state => { state with owned := false }).release m
      (w.handle h).object).2 := by
  rw [surrender, World.handle_modifyHandle_self (World.index_lt_of_owned howned)]

/-- The world with one wrapper less that shares the handle. -/
def unshare (h : HandleId) (w : World) : World :=
  w.modifyHandle h fun state => { state with shares := (w.handle h).shares - 1 }

/-- The handle keeps its object and what it owns. -/
theorem handle_unshare (h : HandleId) (w : World) :
    ((unshare h w).handle h).owned = (w.handle h).owned ∧
      ((unshare h w).handle h).object = (w.handle h).object := by
  rcases World.handle_modifyHandle w h h
    (fun state => { state with shares := (w.handle h).shares - 1 }) with hh | ⟨-, hh⟩ <;>
    rw [unshare, hh] <;> exact ⟨rfl, rfl⟩

/-- Nothing is dropped with a handle that owns no reference. -/
theorem drop_of_not_owned (m : Machine) (howned : (w.handle h).owned = false) :
    drop m h w = unshare h w := by
  have hdrop : drop m h w = if (w.handle h).shares - 1 = 0 ∧ ((unshare h w).handle h).owned then
    surrender m h (unshare h w) else unshare h w := rfl
  rw [hdrop, (handle_unshare h w).1, howned, if_neg (by simp)]

/-- A handle that owns its reference is dropped with its last wrapper. -/
theorem drop_of_owned (m : Machine) (howned : (w.handle h).owned = true) : drop m h w =
    if (w.handle h).shares ≤ 1 then surrender m h (unshare h w) else unshare h w := by
  have hdrop : drop m h w = if (w.handle h).shares - 1 = 0 ∧ ((unshare h w).handle h).owned then
    surrender m h (unshare h w) else unshare h w := rfl
  have hlast : (w.handle h).shares - 1 = 0 ↔ (w.handle h).shares ≤ 1 := by omega
  simp only [hdrop, (handle_unshare h w).1, howned, and_true, hlast]

end Handle

/-! ### Handles with and without a reference -/

namespace Handle

/-- What making a handle with a new reference to `p` comes to: the handle is new and has the
policy, and the others stay as they are; or the reference cannot be taken, and nothing happens. -/
structure Makes (p : ObjId) (policy : ReleasePolicy) (w : World) (x : CheckM HandleId) : Prop where
  ok : ∀ heap, w.heap.retain p = .ok heap → ∃ w', x w = .ok ⟨w.handles.size⟩ w' ∧ w'.heap = heap ∧
    w'.handles = w.handles.push ⟨p, (w.obj p).cls, true, policy, 1⟩
  error : ∀ e, w.heap.retain p = .error e → x w = .error e w

/-- A handle that owns its reference acts on its object. -/
structure Owning (m : Machine) (h : HandleId) (w : World) : Prop where
  object : Handle.object h w = .ok (w.handle h).object w
  refcount : Handle.refcount h w = .ok (w.obj (w.handle h).object).refcount w
  /-- The clone owns a reference of its own and starts with the policy of the handle. -/
  tryClone : Makes (w.handle h).object (w.handle h).policy w (Handle.tryClone h)
  /-- The reference is handed over as it is. -/
  intoRaw : ∃ w', Handle.intoRaw h w = .ok (w.handle h).object w' ∧ w'.heap = w.heap ∧
    w'.handle h = { w.handle h with owned := false }
  release : ∃ w', Handle.release m h w = .ok () w' ∧
    w'.heap = (m.release w.program.registryView (w.handle h).object w.heap).2 ∧
    w'.handle h = { w.handle h with owned := false }
  /-- The reference is given back with the last wrapper. -/
  drop : (w.handle h).shares ≤ 1 →
    (Handle.drop m h w).heap =
      (m.release w.program.registryView (w.handle h).object w.heap).2 ∧
    ((Handle.drop m h w).handle h).owned = false

/-- A handle without a reference refuses what its object is needed for.  What it does is the
same over every heap, and the heap stays as it is. -/
structure Spent (m : Machine) (h : HandleId) (w : World) : Prop where
  object : ∀ heap, Handle.object h { w with heap } = .error .releasedHandle { w with heap }
  refcount : ∀ heap, Handle.refcount h { w with heap } = .error .releasedHandle { w with heap }
  tryClone : ∀ heap, Handle.tryClone h { w with heap } = .error .releasedHandle { w with heap }
  intoRaw : ∀ heap, Handle.intoRaw h { w with heap } = .error .releasedHandle { w with heap }
  release_strict : (w.handle h).policy = .strict → ∃ program, ∀ heap,
    Handle.release m h { w with heap } =
      .error (.doubleRelease (w.handle h).cls.name) { w with heap, program }
  release_lenient : (w.handle h).policy = .lenient → ∃ program, ∀ heap,
    Handle.release m h { w with heap } = .ok () { w with heap, program }
  drop : ∃ handles, ∀ heap, Handle.drop m h { w with heap } = { w with heap, handles }

variable {w : World} {h : HandleId}

/-- A handle is made with a reference that was taken for it. -/
theorem cls_taken {heap : Heap} {p : ObjId} (hr : w.heap.retain p = .ok heap) :
    (heap.obj p).cls = (w.obj p).cls := by
  have htaken : Heap.retainAll [p] w.heap = .ok heap := by
    rw [Heap.retainAll, hr]
    rfl
  exact Heap.cls_retainAll htaken p

/-- Wrapping makes a handle with the policy in effect. -/
theorem wrap_makes (p : ObjId) (w : World) :
    Makes p w.program.current.1.releasePolicy w (wrap p) where
  ok heap hr := by
    rw [wrap_apply, hr, ← cls_taken hr]
    exact ⟨_, rfl, rfl, rfl⟩
  error e hr := by rw [wrap_apply, hr]

/-- A handle with a reference does what owning handles do. -/
theorem owning_of_owned (m : Machine) (howned : (w.handle h).owned = true) : Owning m h w where
  object := by rw [object_apply, if_pos howned]
  refcount := by rw [refcount_apply, if_pos howned]
  tryClone := by
    constructor
    case ok =>
      intro heap hr
      rw [tryClone_apply, if_pos howned, hr, ← cls_taken hr]
      exact ⟨_, rfl, rfl, modify_push w.handles
        (World.newHandle { w with heap } (w.handle h).object)
        fun state => { state with policy := (w.handle h).policy }⟩
    case error =>
      intro e hr
      rw [tryClone_apply, if_pos howned, hr]
  intoRaw := by
    rw [intoRaw_apply, if_pos howned]
    exact ⟨_, rfl, rfl, World.handle_modifyHandle_self (World.index_lt_of_owned howned)⟩
  release := by
    rw [release_of_owned m howned, surrender_eq m howned]
    exact ⟨_, rfl, rfl, World.handle_modifyHandle_self (World.index_lt_of_owned howned)⟩
  drop hlast := by
    obtain ⟨hkeeps, hobject⟩ := handle_unshare h w
    have howned' : ((unshare h w).handle h).owned = true := hkeeps.trans howned
    rw [drop_of_owned m howned, if_pos hlast, surrender_eq m howned', hobject]
    refine ⟨rfl, ?_⟩
    show (World.handle (World.modifyHandle _ h _) h).owned = false
    rw [World.handle_modifyHandle_self (World.index_lt_of_owned howned')]

/-- A handle without a reference is spent. -/
theorem spent_of_not_owned (m : Machine) (howned : (w.handle h).owned = false) :
    Spent m h w := by
  have hnot : ∀ heap, ¬ (World.handle { w with heap } h).owned = true := fun _ hyes =>
    Bool.false_ne_true (howned.symm.trans hyes)
  constructor
  case object => exact fun heap => by rw [object_apply, if_neg (hnot heap)]
  case refcount => exact fun heap => by rw [refcount_apply, if_neg (hnot heap)]
  case tryClone => exact fun heap => by rw [tryClone_apply, if_neg (hnot heap)]
  case intoRaw => exact fun heap => by rw [intoRaw_apply, if_neg (hnot heap)]
  case release_strict =>
    intro hpolicy
    obtain ⟨program, -, hrun⟩ := release_of_not_owned m howned
    exact ⟨program, fun heap => by rw [hrun, hpolicy]⟩
  case release_lenient =>
    intro hpolicy
    obtain ⟨program, -, hrun⟩ := release_of_not_owned m howned
    exact ⟨program, fun heap => by rw [hrun, hpolicy]⟩
  case drop =>
    exact ⟨(unshare h w).handles, fun heap => drop_of_not_owned m (w := { w with heap }) howned⟩

end Handle

end Interop

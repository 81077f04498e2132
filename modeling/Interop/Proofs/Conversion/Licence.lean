/-
# Worlds with instances of some classes only

A world is within a licence if all its objects are instances of classes that the licence allows,
and so is what its handles stand for, or stood for before they were released.

Steps of the bridge lead from one world within a licence to the next, if giving references back
does: what is built for an argument is of the core parcel (`Conversion.preserves_build`), and
what is done with a result makes handles only (`Conversion.preserves_toHost`).
-/

import Interop.Proofs.Native.Licence
import Interop.Proofs.Ownership.Operations

namespace Interop

open Steps

/-! ### Worlds within a licence -/

/-- Every object is an instance of a class that the licence allows, and every handle stands, or
stood, for one. -/
structure World.Within (l : Licence) (w : World) : Prop where
  objects : w.heap.Within l
  handles : ∀ h, l.allows (w.handle h).cls

namespace World

variable {l : Licence} {m : Machine} {w : World} {p : ObjId} {h : HandleId}

/-- **At the start** there are only the truth values. -/
theorem within_ofProgram (l : Licence) (program : Program) : (ofProgram program).Within l where
  objects := by
    have hvoid : (⟨#[], 0, none, false⟩ : Heap).Within l := fun p o ho =>
      absurd ho (by simp [Heap.get?])
    have hboolean : l.allows Parcel.boolean := l.ordinary _ rfl
    exact (hvoid.alloc hboolean (.boolean true)).alloc hboolean (.boolean false)
  handles h := by
    have hvacant : (ofProgram program).handle h = .vacant := by simp [handle, ofProgram]
    rw [hvacant]
    exact l.allows_obj

/-- A world with another heap is within the licence if the heap is. -/
theorem Within.withHeap (d : w.Within l) {heap : Heap} (hh : heap.Within l) :
    ({ w with heap } : World).Within l :=
  ⟨hh, d.handles⟩

/-- What native code leaves behind is taken over. -/
theorem Within.settle (d : w.Within l) {heap : Heap} (hh : heap.Within l) :
    (w.settle heap).Within l :=
  ⟨hh, d.handles⟩

/-- A reference is given back. -/
theorem Within.release (d : w.Within l) (hm : m.Heeds l) (p : ObjId) :
    (w.release m p).2.Within l :=
  d.settle (hm w.program.registryView p w.heap d.objects)

/-- Several references are given back in turn. -/
theorem Within.releaseAll (hm : m.Heeds l) (ps : List ObjId) (d : w.Within l) :
    (w.releaseAll m ps).Within l := by
  have hgiven : ∀ h : Heap, h.Within l →
      (h.giveBackAll (m.release w.program.registryView) ps).Within l := by
    induction ps with
    | nil => exact fun h hh => hh
    | cons p rest ih => exact fun h hh => ih _ (hm w.program.registryView p h hh)
  exact d.settle (hgiven w.heap d.objects)

/-- A new handle stands for an object that is there. -/
theorem Within.acquire (d : w.Within l) (p : ObjId) : (Handle.acquire p w).2.Within l where
  objects := d.objects
  handles g := by
    rw [handle_pushed (w := w) (s := w.newHandle p) rfl]
    split_ifs
    · exact d.objects.obj p
    · exact d.handles g

/-- A change to a handle that keeps the class keeps the world within a licence. -/
theorem Within.modifyHandle (d : w.Within l) (h : HandleId) {f : HandleState → HandleState}
    (hf : ∀ s, (f s).cls = s.cls) : (w.modifyHandle h f).Within l where
  objects := d.objects
  handles g := by
    rcases w.handle_modifyHandle h g f with hsame | ⟨-, hchanged⟩
    · rw [hsame]
      exact d.handles g
    · rw [hchanged, hf]
      exact d.handles g

/-- A handle that gives its reference back keeps the world within a licence. -/
theorem Within.surrender (d : w.Within l) (hm : m.Heeds l) (h : HandleId) :
    (Handle.surrender m h w).Within l :=
  have disowned : (w.modifyHandle h fun s => { s with owned := false }).Within l :=
    d.modifyHandle h fun _ => rfl
  disowned.release hm _

/-- A handle that is shared keeps the world within a licence. -/
theorem Within.share (d : w.Within l) (h : HandleId) : (Handle.share h w).Within l :=
  d.modifyHandle h fun _ => rfl

/-- A handle that is dropped keeps the world within a licence. -/
theorem Within.drop (d : w.Within l) (hm : m.Heeds l) (h : HandleId) :
    (Handle.drop m h w).Within l := by
  have left : (w.modifyHandle h fun s =>
      { s with shares := (w.handle h).shares - 1 }).Within l := d.modifyHandle h fun _ => rfl
  unfold Handle.drop
  dsimp only
  split_ifs
  · exact left.surrender hm h
  · exact left

/-- A value that is dropped keeps the world within a licence. -/
theorem Within.dropValue (d : w.Within l) (hm : m.Heeds l) (v : HostValue) :
    (HostValue.drop m v w).Within l := by
  unfold HostValue.drop
  generalize v.objects = objects
  induction objects generalizing w with
  | nil => exact d
  | cons o rest ih => exact ih (d.drop hm o.handle)

/-- A record keeps the world within a licence. -/
theorem Within.log (d : w.Within l) (level : Log.Level) (target message : String) :
    (w.log level target message).Within l :=
  ⟨d.objects, d.handles⟩

/-- Raising what was thrown keeps the world within a licence. -/
theorem Within.toException (d : w.Within l) (hm : m.Heeds l) (exceptions : ExceptionMap)
    (t : Thrown) : (exceptions.toException m t w).2.Within l :=
  (d.release hm t.object).log _ _ _

end World

/-! ### Steps of the bridge -/

section Bridge

variable {l : Licence} {m : Machine} {α : Type} {Q : α → Prop}

/-- Taking a reference keeps the world within a licence. -/
theorem World.preserves_retain (p : ObjId) : Preserves (World.Within l) (World.retain p) := by
  intro w d
  rw [World.retain_apply]
  rcases hr : w.heap.retain p with e | heap
  · exact d
  · exact ⟨d.withHeap (d.objects.retain hr), trivial⟩

/-- A step with a cleanup for its failures keeps the world within a licence if both do. -/
theorem World.yields_onRefusal {x : CheckM α} {cleanup : World → World}
    (hx : Yields (World.Within l) Q x) (hc : ∀ w, w.Within l → (cleanup w).Within l) :
    Yields (World.Within l) Q (World.onRefusal x cleanup) := by
  intro w d
  have hrun := hx w d
  rw [World.onRefusal_apply]
  rcases hend : x w with ⟨a, w'⟩ | ⟨e, w'⟩ <;> rw [hend] at hrun
  · exact hrun
  · exact hc w' hrun

/-- A step that is checked keeps the world within a licence. -/
theorem HostM.yields_check {x : CheckM α} (hx : Yields (World.Within l) Q x) :
    Yields (World.Within l) Q (HostM.check x) := by
  intro w d
  have hrun := hx w d
  rw [HostM.check_apply]
  rcases hend : x w with ⟨a, w'⟩ | ⟨e, w'⟩ <;> rw [hend] at hrun
  · exact hrun
  · exact hrun

/-- A step within a frame of the traceback keeps the world within a licence. -/
theorem HostM.yields_inFrame (frame : String) {x : HostM α} (hx : Yields (World.Within l) Q x) :
    Yields (World.Within l) Q (HostM.inFrame frame x) := by
  intro w d
  have hrun := hx w d
  rw [HostM.inFrame_apply]
  rcases hend : x w with ⟨a, w'⟩ | ⟨e, w'⟩ <;> rw [hend] at hrun
  · exact hrun
  · exact hrun

/-- A step with a cleanup at its end keeps the world within a licence if both do. -/
theorem HostM.yields_closing {x : HostM α} {cleanup : World → World}
    (hx : Yields (World.Within l) Q x) (hc : ∀ w, w.Within l → (cleanup w).Within l) :
    Yields (World.Within l) Q (HostM.closing x cleanup) := by
  intro w d
  have hrun := hx w d
  rw [HostM.closing_apply]
  rcases hend : x w with ⟨a, w'⟩ | ⟨e, w'⟩ <;> rw [hend] at hrun
  · exact ⟨hc w' hrun.1, hrun.2⟩
  · exact hc w' hrun

/-- What is looked up changes nothing. -/
theorem HostM.yields_ofExcept {β : Type} {x : Except BridgeError β} {f : β → HostM α}
    (hf : ∀ a, x = .ok a → Yields (World.Within l) Q (f a)) :
    Yields (World.Within l) Q (HostM.ofExcept x >>= f) := by
  rcases x with e | a
  · exact fun _ d => d
  · exact fun w d => hf a rfl w d

/-! ### Handles -/

/-- Asking for the object of a handle keeps the world within a licence. -/
theorem Handle.preserves_object (h : HandleId) : Preserves (World.Within l) (Handle.object h) := by
  refine preserves_get.bind fun w => ?_
  dsimp only
  split_ifs
  · exact preserves_pure _
  · exact yields_throw _

/-- Taking a reference by a handle keeps the world within a licence. -/
theorem Handle.preserves_retain (h : HandleId) : Preserves (World.Within l) (Handle.retain h) :=
  (preserves_object h).bind fun p => (World.preserves_retain p).bind fun _ => preserves_pure _

/-- Wrapping an object keeps the world within a licence. -/
theorem Handle.preserves_wrap (p : ObjId) : Preserves (World.Within l) (Handle.wrap p) :=
  (World.preserves_retain p).bind fun _ => preserves_modifyGet fun _ d => d.acquire p

/-- Releasing a handle keeps the world within a licence. -/
theorem Handle.preserves_release (hm : m.Heeds l) (h : HandleId) :
    Preserves (World.Within l) (Handle.release m h) := by
  refine preserves_get.bind fun w => ?_
  dsimp only
  split_ifs
  · exact preserves_modify fun _ d => d.surrender hm h
  · unfold Handle.releaseAgain
    split
    · exact (preserves_modify fun _ d => d.log _ _ _).bind fun _ => yields_throw _
    · exact preserves_modify fun _ d => d.log _ _ _

/-- A wrapper has the class of its handle. -/
theorem Wrapper.yields_adopt (p : ObjId) :
    Yields (World.Within l) (fun o => l.allows o.cls)
      (modifyGet (Wrapper.adopt p) : CheckM Wrapper) :=
  fun _ d => ⟨d.acquire p, (d.acquire p).handles _⟩

/-- A new wrapper is of a class that is allowed. -/
theorem Wrapper.yields_wrap (p : ObjId) :
    Yields (World.Within l) (fun o => l.allows o.cls) (Wrapper.wrap p) :=
  (Handle.preserves_wrap p).bind fun h _ d => ⟨d, d.handles h⟩

/-! ### Arguments -/

namespace Conversion

/-- A new object of a class that is allowed keeps the world within a licence. -/
theorem preserves_newObject {c : Class} (hc : l.allows c) (payload : Payload) :
    Preserves (World.Within l) (newObject c payload) :=
  Preserves.bind (preserves_modifyGet fun _ d => d.withHeap (d.objects.alloc hc payload)) fun _ =>
    preserves_pure _

mutual

/-- **Building a value** makes objects of the core parcel only. -/
theorem preserves_build (hm : m.Heeds l) (param : String) :
    ∀ v : HostValue, Preserves (World.Within l) (build m param v)
  | .null => preserves_pure _
  | .bool _ => preserves_pure _
  | .int _ => preserves_newObject (l.ordinary _ rfl) _
  | .float _ => preserves_newObject (l.ordinary _ rfl) _
  | .str _ => preserves_newObject l.allows_string _
  | .object o => (Handle.preserves_retain o.handle).bind fun _ => preserves_pure _
  | .list items => (preserves_buildList hm param items []).bind fun _ =>
      preserves_newObject l.allows_vector _
  | .dict entries => (preserves_buildEntries hm param entries .empty).bind fun _ =>
      preserves_newObject (l.ordinary _ rfl) _

/-- The elements of a list, after those that are built. -/
theorem preserves_buildList (hm : m.Heeds l) (param : String) :
    ∀ (items : List HostValue) (built : List (Option ObjId)),
      Preserves (World.Within l) (buildList m param built items)
  | [], _ => preserves_pure _
  | v :: rest, built =>
    Preserves.bind (World.yields_onRefusal (preserves_build hm param v) fun _ d =>
      d.releaseAll hm _) fun element => preserves_buildList hm param rest (built ++ [element])

/-- The values of a dict, beside those that are built. -/
theorem preserves_buildEntries (hm : m.Heeds l) (param : String) :
    ∀ (entries : List (String × HostValue)) (built : KeyMap ObjId),
      Preserves (World.Within l) (buildEntries m param built entries)
  | [], _ => preserves_pure _
  | e :: rest, built => by
    refine Preserves.bind (World.yields_onRefusal (preserves_build hm param e.2) fun _ d =>
      d.releaseAll hm _) fun q => ?_
    rcases q with _ | p
    · exact (preserves_modify fun _ d => d.releaseAll hm _).bind fun _ => yields_throw _
    · exact preserves_buildEntries hm param rest (built.insert e.1 p)

end

end Conversion

end Bridge

/-! ### Frames -/

/-- The frame is filled in a world within the licence. -/
def Staging.Within (l : Licence) (s : Staging) : Prop :=
  s.world.Within l

section Frames

variable {l : Licence} {m : Machine} {α : Type} {Q : α → Prop}

/-- A step of the world is a step of the state that fills a frame. -/
theorem StageM.yields_lift {x : CheckM α} (hx : Yields (World.Within l) Q x) :
    Yields (Staging.Within l) Q (StageM.lift x) := by
  intro s d
  have hrun := hx s.world d
  rw [StageM.lift_apply]
  rcases hend : x s.world with ⟨a, w⟩ | ⟨e, w⟩ <;> rw [hend] at hrun
  · exact hrun
  · exact hrun

/-- Pushing an argument keeps the world within a licence. -/
theorem StageM.preserves_push (arg : Arg) : Preserves (Staging.Within l) (StageM.push arg) :=
  preserves_modify fun _ d => d

/-- Adopting an object keeps the world within a licence. -/
theorem StageM.preserves_adopt (p : ObjId) : Preserves (Staging.Within l) (StageM.adopt p) :=
  preserves_modify fun _ d => d

namespace Conversion

/-- A mismatch keeps the world within a licence. -/
theorem preserves_mismatch (param : Param) (v : HostValue) :
    Preserves (Staging.Within l) (mismatch param v : StageM Unit) :=
  yields_throw _

/-- A wrapper in the place of a text keeps the world within a licence. -/
theorem preserves_pushWrappedText (param : Param) (v : HostValue) (o : Wrapper) :
    Preserves (Staging.Within l) (pushWrappedText param v o) := by
  refine (StageM.yields_lift (Handle.preserves_retain o.handle)).bind fun p _ => ?_
  refine (StageM.preserves_adopt p).bind fun _ => preserves_get.bind fun s => ?_
  split_ifs
  · exact StageM.preserves_push _
  · exact preserves_mismatch param v

/-- An object argument keeps the world within a licence. -/
theorem preserves_pushObject (hm : m.Heeds l) (registry : Registry) (param : Param)
    (constraint : Option String) (v : HostValue) :
    Preserves (Staging.Within l) (pushObject m registry param constraint v) := by
  refine (StageM.yields_lift (preserves_build hm param.name v)).bind fun q _ => ?_
  rcases q with _ | p
  · exact preserves_mismatch param v
  refine (StageM.preserves_adopt p).bind fun _ => ?_
  rcases constraint with _ | name
  · exact StageM.preserves_push _
  dsimp only
  rcases registry.fetch name with e | c
  · exact yields_throw e
  refine preserves_get.bind fun s => ?_
  split_ifs
  · exact StageM.preserves_push _
  · exact preserves_mismatch param v

/-- One argument keeps the world within a licence. -/
theorem preserves_pushArg (hm : m.Heeds l) (registry : Registry) (param : Param)
    (v : HostValue) : Preserves (Staging.Within l) (pushArg m registry param v) := by
  have hmade : ∀ text, Preserves (World.Within l)
      (modifyGet (World.alloc Parcel.string (.str text)) : CheckM ObjId) := fun text =>
    preserves_modifyGet fun _ d => d.withHeap (d.objects.alloc l.allows_string _)
  unfold pushArg
  split_ifs
  · exact StageM.preserves_push _
  · exact yields_throw _
  split
  · exact StageM.preserves_push _
  · split_ifs
    · exact StageM.preserves_push _
    · exact yields_throw _
  · exact StageM.preserves_push _
  · exact StageM.preserves_push _
  · exact (StageM.yields_lift (hmade _)).bind fun p _ =>
      (StageM.preserves_adopt p).bind fun _ => StageM.preserves_push _
  · exact preserves_pushWrappedText param _ _
  · exact preserves_pushObject hm registry param _ _
  · exact yields_throw _
  · exact preserves_mismatch param _

/-- The slots of a call keep the world within a licence. -/
theorem preserves_pushSlots (hm : m.Heeds l) (registry : Registry) (missing : BridgeError) :
    ∀ slots : List (Param × Option HostValue),
      Preserves (Staging.Within l) (pushSlots m registry missing slots)
  | [] => preserves_pure _
  | (param, some v) :: rest =>
    (preserves_pushArg hm registry param v).bind fun _ =>
      preserves_pushSlots hm registry missing rest
  | (param, none) :: rest => by
    unfold pushSlots
    split_ifs
    · exact (StageM.preserves_push _).bind fun _ => preserves_pushSlots hm registry missing rest
    · exact yields_throw _

/-- The arguments of a call keep the world within a licence. -/
theorem preserves_pushArgs (hm : m.Heeds l) (registry : Registry) (method : Method)
    (args : CallArgs) : Preserves (Staging.Within l) (pushArgs m registry method args) := by
  unfold pushArgs
  split
  · exact yields_throw _
  · exact preserves_pushSlots hm registry _ _

/-! ### Results -/

mutual

/-- **Wrapping the leaves** of a plan makes handles only. -/
theorem preserves_wrapLeaves (hm : m.Heeds l) :
    ∀ v : Value ObjId, Preserves (World.Within l) (wrapLeaves m v)
  | .null => preserves_pure _
  | .bool _ => preserves_pure _
  | .int _ => preserves_pure _
  | .float _ => preserves_pure _
  | .str _ => preserves_pure _
  | .object p => (Wrapper.yields_wrap p).bind fun _ _ => preserves_pure _
  | .list items => (preserves_wrapList hm items []).bind fun _ => preserves_pure _
  | .dict entries => (preserves_wrapEntries hm entries []).bind fun _ => preserves_pure _

/-- The elements of a list, after those that are wrapped. -/
theorem preserves_wrapList (hm : m.Heeds l) :
    ∀ (items : List (Value ObjId)) (done : List HostValue),
      Preserves (World.Within l) (wrapList m done items)
  | [], _ => preserves_pure _
  | v :: rest, done =>
    Preserves.bind (World.yields_onRefusal (preserves_wrapLeaves hm v) fun _ d =>
      d.dropValue hm _) fun x => preserves_wrapList hm rest (done ++ [x])

/-- The values of a dict, after those that are wrapped. -/
theorem preserves_wrapEntries (hm : m.Heeds l) :
    ∀ (entries : List (String × Value ObjId)) (done : List (String × HostValue)),
      Preserves (World.Within l) (wrapEntries m done entries)
  | [], _ => preserves_pure _
  | e :: rest, done =>
    Preserves.bind (World.yields_onRefusal (preserves_wrapLeaves hm e.2) fun _ d =>
      d.dropValue hm _) fun x => preserves_wrapEntries hm rest (done ++ [(e.1, x)])

end

/-- Copying an object keeps the world within a licence. -/
theorem preserves_objectToHost (hm : m.Heeds l) (p : ObjId) :
    Preserves (World.Within l) (objectToHost m p) :=
  preserves_get.bind fun _ => preserves_wrapLeaves hm _

/-- Answering a result keeps the world within a licence. -/
theorem preserves_toHost (hm : m.Heeds l) (ret : Ret) :
    Preserves (World.Within l) (toHost m ret) := by
  cases ret with
  | incremented p =>
    refine Preserves.bind (preserves_modifyGet fun _ d => d.acquire p) fun h => ?_
    refine Preserves.bind (World.yields_onRefusal (preserves_objectToHost hm p) fun _ d =>
      d.drop hm h) fun v => ?_
    exact (preserves_modify fun _ d => d.drop hm h).bind fun _ => preserves_pure v
  | borrowed p => exact preserves_objectToHost hm p
  | pointer address => exact yields_throw _
  | _ => exact preserves_pure _

/-- The wrapper of what a constructor returned is of a class that is allowed. -/
theorem yields_toWrapper (ret : Ret) :
    Yields (World.Within l) (fun o => l.allows o.cls) (toWrapper ret) := by
  cases ret with
  | incremented p => exact Wrapper.yields_adopt p
  | borrowed p => exact Wrapper.yields_wrap p
  | _ => exact yields_throw _

end Conversion

end Frames

end Interop

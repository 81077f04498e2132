/-
# Tearing an object down once

When the last reference to an object is given up, `Destroy` of its class runs, what it throws is
dropped, and the object is freed.  Both may run any native code, and with it give references
back, while the object itself counts none.

That a computation does not tear the object down again is said by changing what happens where
it would: `Image.releaseSave` gives references back like a machine, but leaves a second
teardown of `p` to somebody else, and `Image.Quiet` says that a computation ends the same
whatever that is, at every depth from some on.

**Nothing is torn down once whose teardown gives the last reference to it back** by itself: that
begins the teardown anew, and so on without end (`Image.exhausted_of_gives_back`).  `Destroy`
can do so while it runs (`Image.exhausted_of_releases_receiver`), or throw the object itself
with its only reference, which is then dropped (`Image.exhausted_of_throws_receiver`).

**An object whose `Destroy` ends without a teardown of the object is torn down once, unless it
throws the object itself with its only reference** (`Image.tearsDownOnce_iff`).
-/

import Interop.Proofs.Heap.Release
import Interop.Sample.Native

namespace Interop

/-- The core parcel tears the object down, and there are no references in it. -/
def Obj.Plain (o : Obj) : Prop :=
  o.cls.destroyer ∈ tearingDown ∧ (∀ entries, o.payload ≠ .hash entries) ∧
    ∀ elements, o.payload ≠ .vector elements

namespace Image

variable {image : Image} {global : Registry} {p t : ObjId} {o x : Obj}
  {h h₁ h₂ : Heap} {thrown : Option ObjId}

/-- What `Destroy` of the class throws, if it throws anything, and the heap that it leaves. -/
def runDestroy (image : Image) (env : NativeEnv) (p : ObjId) (h : Heap) : Option ObjId × Heap :=
  match (h.obj p).cls.destroyer with
  | some (.onObject routine) =>
    match image.runOnObject routine p [] env h with
    | .ok _ h => (none, h)
    | .error thrown h => (some thrown.object, h)
  | _ => (none, h)

/-- The heap without the reference that came with what was thrown. -/
def dropThrown (env : NativeEnv) : Option ObjId × Heap → Heap
  | (none, h) => h
  | (some t, h) => (env.release t h).2

/-- What teardown does before the object is freed. -/
def dismantle (image : Image) (env : NativeEnv) (p : ObjId) (h : Heap) : Heap :=
  dropThrown env (image.runDestroy env p h)

/-- Teardown dismantles the object and then frees it. -/
theorem teardown_eq_dismantle (image : Image) (env : NativeEnv) (p : ObjId) (h : Heap) :
    image.teardown env p h = (image.dismantle env p h).free p := by
  rw [teardown, dismantle, runDestroy, Class.destroyer]
  rcases (h.obj p).cls.method? "Destroy" with _ | ⟨name, ret, params, code, hidden⟩
  · rfl
  · rcases code with routine | _ | _
    · simp only [Option.map_some]
      rcases image.runOnObject routine p [] env h with _ | _ <;> rfl
    all_goals rfl

/-! ### Leaving a second teardown to somebody else -/

/-- Gives one reference back like a machine, except that `again` stands in for the teardown of
`p`. -/
def releaseSave (image : Image) (global : Registry) (p : ObjId) (again : Nat → Heap → Heap) :
    Nat → ObjId → Heap → Nat × Heap
  | 0, _, h => (0, h.recordFault .stackExhausted)
  | depth + 1, q, h =>
    let o := h.obj q
    if o.immortal then (1, h)
    else match o.refcount with
      | 0 => (0, h.recordFault .countUnderflow)
      | 1 => (0, if q = p then again depth (h.setCount q 0)
          else image.teardown ⟨image.releaseSave global p again depth, global, image.memory⟩ q
            (h.setCount q 0))
      | left + 2 => (left + 1, h.setCount q (left + 1))

/-- Native code that is run while `p` is torn down, where `again` stands in for a second
teardown. -/
def envSave (image : Image) (global : Registry) (p : ObjId) (again : Nat → Heap → Heap)
    (depth : Nat) : NativeEnv :=
  ⟨image.releaseSave global p again depth, global, image.memory⟩

/-- What a machine does where it tears `p` down. -/
def reallyAgain (image : Image) (global : Registry) (p : ObjId) (depth : Nat) (h : Heap) : Heap :=
  image.teardown ⟨image.releaseAt global depth, global, image.memory⟩ p h

/-- With the teardown itself in its own place, references are given back as on a machine. -/
theorem releaseSave_reallyAgain (image : Image) (global : Registry) (p : ObjId) :
    ∀ depth, image.releaseSave global p (image.reallyAgain global p) depth =
      image.releaseAt global depth
  | 0 => rfl
  | depth + 1 => by
    funext q h
    have hlast : (if q = p then image.reallyAgain global p depth (h.setCount q 0)
        else image.teardown ⟨image.releaseAt global depth, global, image.memory⟩ q
          (h.setCount q 0)) =
        image.teardown ⟨image.releaseAt global depth, global, image.memory⟩ q
          (h.setCount q 0) := by
      split_ifs with hqp
      · rw [hqp, reallyAgain]
      · rfl
    rcases himm : (h.obj q).immortal with _ | _
    · rcases hcount : (h.obj q).refcount with _ | _ | left
      all_goals simp [releaseSave, releaseAt, himm, hcount, hlast,
        releaseSave_reallyAgain image global p depth]
    · simp [releaseSave, releaseAt, himm]

/-- Giving back a reference to an immortal object has no effect. -/
theorem releaseSave_immortal (again : Nat → Heap → Heap) (depth : Nat)
    (himm : (h.obj t).immortal = true) :
    (image.releaseSave global p again (depth + 1) t h).2 = h := by
  rw [releaseSave]
  simp only [himm, if_true]

/-- A reference that is not the last one only lowers the count. -/
theorem releaseSave_spare (again : Nat → Heap → Heap) (depth : Nat) {left : Nat}
    (himm : (h.obj t).immortal = false) (hleft : (h.obj t).refcount = left + 2) :
    (image.releaseSave global p again (depth + 1) t h).2 = h.setCount t (left + 1) := by
  rw [releaseSave]
  simp only [himm, hleft]
  rfl

/-- Where the last reference to `p` is given back, `again` is what happens. -/
theorem releaseSave_last (again : Nat → Heap → Heap) (depth : Nat)
    (himm : (h.obj t).immortal = false) (hone : (h.obj t).refcount = 1) :
    (image.releaseSave global p again (depth + 1) t h).2 =
      if t = p then again depth (h.setCount t 0)
      else image.teardown (image.envSave global p again depth) t (h.setCount t 0) := by
  rw [releaseSave]
  simp only [himm, hone]
  rfl

/-- The computation ends with `b`, at every depth from some on, and does so without tearing `p`
down: whatever stands in for that. -/
def Quiet {β : Type} (image : Image) (global : Registry) (p : ObjId) (run : NativeEnv → β) (b : β) :
    Prop :=
  ∃ bound, ∀ depth, bound ≤ depth → ∀ again, run (image.envSave global p again depth) = b

section

variable {α β : Type} {run : NativeEnv → α} {a : α} {b : β}

/-- One nested call is enough for what ends with `a` then. -/
theorem Quiet.succ
    (hrun : ∀ depth again, run (image.envSave global p again (depth + 1)) = a) :
    image.Quiet global p run a := by
  refine ⟨1, fun depth hdepth again => ?_⟩
  obtain ⟨d, rfl⟩ : ∃ d, depth = d + 1 := ⟨depth - 1, by omega⟩
  exact hrun d again

/-- What does not depend on the environment tears nothing down. -/
theorem Quiet.const (hrun : ∀ env : NativeEnv, env.global = global → run env = a) :
    image.Quiet global p run a :=
  ⟨0, fun depth _ again => hrun (image.envSave global p again depth) rfl⟩

/-- A computation and what follows it are quiet together. -/
theorem Quiet.bind {f : NativeEnv → α → β} (hrun : image.Quiet global p run a)
    (hf : image.Quiet global p (fun env => f env a) b) :
    image.Quiet global p (fun env => f env (run env)) b := by
  obtain ⟨bound, hrun⟩ := hrun
  obtain ⟨bound', hf⟩ := hf
  refine ⟨max bound bound', fun depth hdepth again => ?_⟩
  simp only [hrun depth (by omega) again, hf depth (by omega) again]

/-- What a quiet computation gives is what it gives on a machine. -/
theorem Quiet.machine (hrun : image.Quiet global p run a) :
    ∃ bound, ∀ depth, bound ≤ depth →
      run ⟨image.releaseAt global depth, global, image.memory⟩ = a := by
  obtain ⟨bound, hrun⟩ := hrun
  refine ⟨bound, fun depth hdepth => ?_⟩
  rw [← hrun depth hdepth (image.reallyAgain global p), envSave, releaseSave_reallyAgain]

end

/-! ### What stands while an object is torn down -/

/-- The mortal object `p` has its record, every mortal object is counted, and no fault has
occurred that had not occurred in `h`. -/
structure Stands (p : ObjId) (h h₁ : Heap) : Prop where
  record : ∃ o, h₁.get? p = some o ∧ o.immortal = false
  live_eq : h₁.live = h₁.mortals 0
  fault_eq : h₁.fault = h.fault

namespace Stands

/-- While `p` has its record an object is counted as alive. -/
theorem live_pos (stands : Stands p h h₁) : 0 < h₁.live := by
  obtain ⟨o, ho, himm⟩ := stands.record
  have hcount := Heap.mortals_free ho (Nat.zero_le _) himm
  have hlive := stands.live_eq
  omega

/-- A count does not take the record of `p` away. -/
theorem setCount (stands : Stands p h h₁) (t : ObjId) (count : Nat) :
    Stands p h (h₁.setCount t count) where
  record := by
    obtain ⟨o, ho, himm⟩ := stands.record
    by_cases hpt : p = t
    · subst hpt
      exact ⟨_, Heap.get?_modify_self ho _, himm⟩
    · exact ⟨o, by rw [Heap.setCount, Heap.get?_modify_of_ne hpt, ho], himm⟩
  live_eq := by
    rw [Heap.mortals_setCount, ← stands.live_eq]
    exact Heap.live_modify _
  fault_eq := (Heap.fault_modify _).trans stands.fault_eq

/-- Freeing another mortal object does not take the record of `p` away. -/
theorem free (stands : Stands p h h₁) (htp : t ≠ p) (hx : h₁.get? t = some x)
    (himm : x.immortal = false) : Stands p h (h₁.free t) where
  record := by
    obtain ⟨o, ho, hmortal⟩ := stands.record
    exact ⟨o, by rw [Heap.get?_free_of_ne htp.symm, ho], hmortal⟩
  live_eq := by
    have hcount := Heap.mortals_free hx (Nat.zero_le _) himm
    have hlive := stands.live_eq
    have hless : (h₁.free t).live = h₁.live - 1 := rfl
    omega
  fault_eq := stands.fault_eq

/-- **One reference is dropped** while `p` is torn down: when it is the last one, to another
object that the core parcel tears down and that holds none. -/
theorem drop (stands : Stands p h h₁) (hx : h₁.get? t = some x)
    (howned : x.immortal = false → 0 < x.refcount)
    (hlast : x.immortal = false → x.refcount = 1 → t ≠ p ∧ x.Plain) :
    ∃ h₂, image.Quiet global p (fun env => (env.release t h₁).2) h₂ ∧ Stands p h h₂ := by
  have hobj := Heap.obj_of_get? hx
  rcases himm : x.immortal with _ | _
  · have himm₁ : (h₁.obj t).immortal = false := by rw [hobj, himm]
    have hpos := howned himm
    by_cases hone : x.refcount = 1
    · obtain ⟨htp, hdestroy, hhash, hvector⟩ := hlast himm hone
      have hx₀ : (h₁.setCount t 0).get? t = some { x with refcount := 0 } :=
        Heap.get?_modify_self hx _
      refine ⟨(h₁.setCount t 0).free t, .succ fun d again => ?_,
        (stands.setCount t 0).free htp hx₀ himm⟩
      rw [envSave, releaseSave_last again d himm₁ (by rw [hobj, hone]), if_neg htp]
      exact image.teardown_plain _ hx₀ hdestroy hhash hvector
    · obtain ⟨left, hleft⟩ : ∃ left, x.refcount = left + 2 := ⟨x.refcount - 2, by omega⟩
      exact ⟨_, .succ fun d again => releaseSave_spare again d himm₁ (by rw [hobj, hleft]),
        stands.setCount t (left + 1)⟩
  · exact ⟨h₁, .succ fun d again => releaseSave_immortal again d (by rw [hobj, himm]), stands⟩

end Stands

/-! ### One teardown -/

/-- Giving up the last reference to `p` returns and leaves `h₂` without `p`: `h₂` is what `Destroy`
and the drop of what it throws leave, and `p` was not torn down within these, so that its
record is freed once and one object less is counted for it. -/
structure TearsDownOnce (image : Image) (global : Registry) (p : ObjId) (h h₂ : Heap) : Prop where
  once : image.Quiet global p (fun env => image.dismantle env p (h.setCount p 0)) h₂
  returns : ∃ bound, ∀ depth, bound ≤ depth → image.releaseAt global depth p h = (0, h₂.free p)
  fault_eq : (h₂.free p).fault = h.fault
  record : ∃ o, h₂.get? p = some o
  freed : (h₂.free p).get? p = none
  live_eq : (h₂.free p).live + 1 = h₂.live

/-- Teardown that stays quiet happens once. -/
theorem TearsDownOnce.of_quiet (ho : h.get? p = some o) (himm : o.immortal = false)
    (hone : o.refcount = 1)
    (once : image.Quiet global p (fun env => image.dismantle env p (h.setCount p 0)) h₂)
    (stands : Stands p h h₂) : image.TearsDownOnce global p h h₂ where
  once := once
  returns := by
    obtain ⟨bound, hbound⟩ := once.machine
    refine ⟨bound + 1, fun depth hdepth => ?_⟩
    obtain ⟨d, rfl⟩ : ∃ d, depth = d + 1 := ⟨depth - 1, by omega⟩
    rw [releaseAt, Heap.obj_of_get? ho]
    simp only [himm, hone]
    rw [teardown_eq_dismantle, hbound d (by omega)]
    rfl
  fault_eq := stands.fault_eq
  record := by
    obtain ⟨o, ho, -⟩ := stands.record
    exact ⟨o, ho⟩
  freed := by rw [Heap.get?_free, if_pos rfl]
  live_eq := Nat.sub_add_cancel stands.live_pos

/-- The drop of `p` itself with its only reference is never quiet. -/
theorem not_quiet_of_last (himm : (h₁.obj p).immortal = false) (hone : (h₁.obj p).refcount = 1) :
    ¬ ∃ h₂, image.Quiet global p (fun env => dropThrown env (some p, h₁)) h₂ := by
  rintro ⟨h₂, bound, hbound⟩
  -- two stand-ins that leave different heaps
  have hfew := hbound (bound + 1) (Nat.le_succ bound) fun _ h => { h with live := 0 }
  have hmany := hbound (bound + 1) (Nat.le_succ bound) fun _ h => { h with live := 1 }
  simp only [dropThrown, envSave, releaseSave_last _ _ himm hone, if_true] at hfew hmany
  have hlive : (0 : Nat) = 1 := congrArg Heap.live (hfew.trans hmany.symm)
  exact absurd hlive (by decide)

/-- **An object is torn down exactly once, unless `Destroy` throws the object itself with its
only reference.**  This holds whatever `Destroy` does and returns, as long as it comes to an
end without the last reference to the object being given back, and whatever object it throws
with a reference, as long as the drop of that one does the same; of an object that the core
parcel tears down and that holds no references, nothing is asked. -/
theorem tearsDownOnce_iff (ho : h.get? p = some o) (himm : o.immortal = false)
    (hone : o.refcount = 1)
    (hrun : image.Quiet global p (fun env => image.runDestroy env p (h.setCount p 0)) (thrown, h₁))
    (hstands : Stands p h h₁)
    (howned : ∀ t, thrown = some t →
      ∃ x, h₁.get? t = some x ∧ (x.immortal = false → 0 < x.refcount))
    (hdrop : ∀ t, thrown = some t → t ≠ p → ¬ (h₁.obj t).Plain →
      ∃ h₂, image.Quiet global p (fun env => (env.release t h₁).2) h₂ ∧ Stands p h h₂) :
    (∃ h₂, image.TearsDownOnce global p h h₂) ↔
      ¬ (thrown = some p ∧ (h₁.obj p).refcount = 1) := by
  constructor
  · rintro ⟨h₂, honce⟩ ⟨rfl, hone₁⟩
    obtain ⟨bound, hbound⟩ := hrun
    obtain ⟨bound', hbound'⟩ := honce.once
    have hquiet : image.Quiet global p (fun env => dropThrown env (some p, h₁)) h₂ := by
      refine ⟨max bound bound', fun depth hdepth again => ?_⟩
      rw [← hbound depth (by omega) again]
      exact hbound' depth (by omega) again
    obtain ⟨o₁, ho₁, himm₁⟩ := hstands.record
    exact not_quiet_of_last (by rw [Heap.obj_of_get? ho₁, himm₁]) hone₁ ⟨h₂, hquiet⟩
  · intro hnot
    have hdropped : ∃ h₂, image.Quiet global p (fun env => dropThrown env (thrown, h₁)) h₂ ∧
        Stands p h h₂ := by
      rcases thrown with _ | t
      · exact ⟨h₁, .const fun _ _ => rfl, hstands⟩
      · obtain ⟨x, hx, hpos⟩ := howned t rfl
        have hobj := Heap.obj_of_get? hx
        by_cases hplain : t ≠ p ∧ ¬ x.Plain
        · exact hdrop t rfl hplain.1 (by rw [hobj]; exact hplain.2)
        · refine hstands.drop hx hpos fun _ hone₁ => ?_
          have htp : t ≠ p := by
            rintro rfl
            exact hnot ⟨rfl, by rw [hobj, hone₁]⟩
          exact ⟨htp, by_contra fun hx => hplain ⟨htp, hx⟩⟩
    obtain ⟨h₂, hquiet, hstands₂⟩ := hdropped
    exact ⟨h₂, .of_quiet ho himm hone (hrun.bind (f := dropThrown) hquiet) hstands₂⟩

/-- **Teardown that gives the last reference to the object back** runs as often as the stack
allows, and each run counts one object less. -/
theorem exhausted_of_gives_back (ho : h.get? p = some o) (himm : o.immortal = false)
    (hone : o.refcount = 1)
    (hagain : ∀ env : NativeEnv, env.global = global →
      image.dismantle env p (h.setCount p 0) = (env.release p h).2) :
    ∀ depth, (image.releaseAt global depth p h).2.fault = h.fault.or (some .stackExhausted) ∧
      (image.releaseAt global depth p h).2.live = h.live - depth
  | 0 => ⟨rfl, rfl⟩
  | depth + 1 => by
    obtain ⟨hfault, hlive⟩ := exhausted_of_gives_back ho himm hone hagain depth
    have hnext : image.releaseAt global (depth + 1) p h =
        (0, (image.releaseAt global depth p h).2.free p) := by
      rw [releaseAt, Heap.obj_of_get? ho]
      simp only [himm, hone]
      rw [teardown_eq_dismantle, hagain _ rfl]
      rfl
    rw [hnext]
    refine ⟨hfault, ?_⟩
    show (image.releaseAt global depth p h).2.live - 1 = h.live - (depth + 1)
    rw [hlive, Nat.sub_sub]

/-- `Destroy` that throws the object itself with its only reference never comes to an end. -/
theorem exhausted_of_throws_receiver (ho : h.get? p = some o) (himm : o.immortal = false)
    (hone : o.refcount = 1)
    (hrun : ∀ env : NativeEnv, env.global = global →
      image.runDestroy env p (h.setCount p 0) = (some p, h)) (depth : Nat) :
    (image.releaseAt global depth p h).2.fault = h.fault.or (some .stackExhausted) ∧
      (image.releaseAt global depth p h).2.live = h.live - depth :=
  exhausted_of_gives_back ho himm hone
    (fun env henv => congrArg (dropThrown env) (hrun env henv)) depth

/-- Nor does `Destroy` that takes a reference to the object and gives it back, whatever it
returns. -/
theorem exhausted_of_releases_receiver (ho : h.get? p = some o) (himm : o.immortal = false)
    (hone : o.refcount = 1)
    (hrun : ∀ env : NativeEnv, env.global = global →
      image.runDestroy env p (h.setCount p 0) = (none, (env.release p h).2)) (depth : Nat) :
    (image.releaseAt global depth p h).2.fault = h.fault.or (some .stackExhausted) ∧
      (image.releaseAt global depth p h).2.live = h.live - depth :=
  exhausted_of_gives_back ho himm hone
    (fun env henv => congrArg (dropThrown env) (hrun env henv)) depth

end Image

/-! ### An object that throws itself, and one that throws an error -/

namespace Sample

/-- A class of objects that are torn down by this code. -/
def brittle (symbol : String) : Class :=
  .ofMethods Parcel.firstFreeSerial "Brittle" "Sample" (some Parcel.obj) 0
    [⟨"Destroy", .void, [], .onObject (.linked symbol), true⟩]

/-- The two truth values and one object of the class, with one reference. -/
def brittleHeap (symbol : String) : Heap :=
  (Heap.initial.alloc (brittle symbol) .empty).2

/-- The heap when the object has thrown an error. -/
def thrownHeap : Heap :=
  (((brittleHeap "throw").setCount ⟨2⟩ 0).alloc Parcel.err (.err "native boom")).2

/-- The object of the example is the third one of its heap. -/
theorem brittleHeap_get? (symbol : String) :
    (brittleHeap symbol).get? ⟨2⟩ = some (Heap.fresh (brittle symbol) .empty) := rfl

/-- The object that throws an error is torn down once. -/
theorem brittle_tearsDownOnce :
    ∃ h₂, image.TearsDownOnce Parcel.registry ⟨2⟩ (brittleHeap "throw") h₂ := by
  have hrun : image.Quiet Parcel.registry ⟨2⟩
      (fun env => image.runDestroy env ⟨2⟩ ((brittleHeap "throw").setCount ⟨2⟩ 0))
      (some ⟨3⟩, thrownHeap) := .const fun _ _ => rfl
  have hstands : Image.Stands ⟨2⟩ (brittleHeap "throw") thrownHeap :=
    ⟨⟨{ Heap.fresh (brittle "throw") .empty with refcount := 0 }, rfl, rfl⟩, rfl, rfl⟩
  refine (Image.tearsDownOnce_iff (brittleHeap_get? "throw") rfl rfl hrun hstands ?_ ?_).2 ?_
  · intro t ht
    obtain rfl := Option.some.inj ht
    exact ⟨Heap.fresh Parcel.err (.err "native boom"), rfl, fun _ => Nat.one_pos⟩
  · intro t ht _ hplain
    obtain rfl := Option.some.inj ht
    exact absurd ⟨by decide, nofun, nofun⟩ hplain
  · exact fun ⟨ht, _⟩ => absurd ht (by decide)

/-- The object that throws itself is torn down again and again. -/
theorem brittle_exhausts :
    (∀ depth, (image.releaseAt Parcel.registry depth ⟨2⟩ (brittleHeap "throw_self")).2.fault =
      some .stackExhausted) ∧
    ¬ ∃ h₂, image.TearsDownOnce Parcel.registry ⟨2⟩ (brittleHeap "throw_self") h₂ := by
  have hfault : ∀ depth, (image.releaseAt Parcel.registry depth ⟨2⟩
      (brittleHeap "throw_self")).2.fault = some .stackExhausted := fun depth =>
    (Image.exhausted_of_throws_receiver (brittleHeap_get? "throw_self") rfl rfl
      (fun _ _ => rfl) depth).1
  refine ⟨hfault, fun ⟨h₂, honce⟩ => ?_⟩
  obtain ⟨bound, hreturns⟩ := honce.returns
  have hexhausted := hfault bound
  rw [hreturns bound le_rfl, honce.fault_eq] at hexhausted
  exact absurd hexhausted (by decide)

end Sample

end Interop

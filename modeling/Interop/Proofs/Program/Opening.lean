/-
# The registry of the program is made on first use

Host code makes it when it asks for it, and native code when it looks a class up.  Whoever comes
first, the registry that is made holds the core parcel (`enrolled_registry`), so what native code
sees is the same before and after (`Program.registryView_openRegistry`).

What native code leaves behind is settled (`World.settle`): the heap is taken over, and the
registry has been made if the code was the first to look at it.  Code that does not look at it
changes nothing but the heap (`World.settle_of_eq`).

**The registry is made once:** where native code has looked at it, it is there
(`World.Opened.settle`), so that whoever asks for it later finds it and writes no record
(`World.Opened.openRegistry_eq_self`).
-/

import Interop.World

namespace Interop

namespace Registry

/-- What a list of requests makes of a registry does not depend on the log. -/
theorem Logged.enrol_congr {l l' : Logged} (h : l.registry = l'.registry)
    (requests : List Registration) :
    (l.enrol requests).1.registry = (l'.enrol requests).1.registry := by
  induction requests generalizing l l' with
  | nil => exact h
  | cons q rest ih =>
    simp only [Logged.enrol, Logged.apply, h]
    rcases l'.registry.apply q with e | r
    · exact h
    · exact ih rfl

/-- The core parcel is registered in the same way whatever was logged before. -/
theorem enrolled_registry (logger : Log.Logger) :
    (Parcel.enrolled logger).1.registry = Parcel.registry := by
  unfold Parcel.registry Parcel.enrolled
  -- which requests they are does not matter, and to compute with them would be slow
  generalize Parcel.registrations = requests
  exact @Logged.enrol_congr ⟨.empty, logger⟩ ⟨.empty, .fresh⟩ rfl requests

end Registry

namespace Program

/-- What is opened is what native code sees. -/
theorem openRegistry_fst (p : Program) : p.openRegistry.1 = p.registryView := by
  unfold openRegistry registryView
  rcases p.registry with _ | r
  · rw [Option.getD_none, ← Registry.enrolled_registry p.logger]
  · rfl

/-- From then on the program has a registry. -/
theorem registry_openRegistry (p : Program) : p.openRegistry.2.registry = some p.registryView := by
  rw [← openRegistry_fst, openRegistry]
  rcases h : p.registry with _ | r
  · generalize Parcel.enrolled p.logger = made
    obtain ⟨l, _ | e⟩ := made <;> rfl
  · exact h

/-- Native code sees the same before and after. -/
@[simp] theorem registryView_openRegistry (p : Program) :
    p.openRegistry.2.registryView = p.registryView := by
  rw [registryView, registry_openRegistry, Option.getD_some]

/-- Nothing but the registry and the log is touched. -/
theorem openRegistry_keeps (p : Program) : p.openRegistry.2.build = p.build ∧
    p.openRegistry.2.environment = p.environment ∧ p.openRegistry.2.config = p.config := by
  rw [openRegistry]
  rcases p.registry with _ | r
  · generalize Parcel.enrolled p.logger = made
    obtain ⟨l, _ | e⟩ := made <;> exact ⟨rfl, rfl, rfl⟩
  · exact ⟨rfl, rfl, rfl⟩

/-- A registry that is there is not made again. -/
theorem openRegistry_of_some {p : Program} {r : Registry} (h : p.registry = some r) :
    p.openRegistry = (r, p) := by
  rw [openRegistry, h]

end Program

namespace World

/-- The registry of a program is the one that its native code sees, from the first use on. -/
theorem openRegistry_eq (w : World) : w.openRegistry.1 = w.program.registryView :=
  w.program.openRegistry_fst

variable {w : World} {h : Heap}

/-- The heap that native code leaves is taken over. -/
@[simp] theorem settle_heap (w : World) (h : Heap) : (w.settle h).heap = h := rfl

/-- Native code leaves the handles as they are. -/
@[simp] theorem settle_handles (w : World) (h : Heap) : (w.settle h).handles = w.handles := rfl

/-- Native code leaves each handle as it is. -/
@[simp] theorem settle_handle (w : World) (h : Heap) (g : HandleId) :
    (w.settle h).handle g = w.handle g := rfl

/-- Native code that did not look at the registry for the first time leaves a heap and nothing
else. -/
theorem settle_of_eq (heq : h.consulted = w.heap.consulted) :
    w.settle h = { w with heap := h } := by
  rw [settle, heq]
  cases w.heap.consulted <;> rfl

/-- Native code that changes nothing leaves the world as it was. -/
@[simp] theorem settle_self (w : World) : w.settle w.heap = w := settle_of_eq rfl

/-- The registry was there, or it was not looked at, or it has been made. -/
theorem settle_program (w : World) (h : Heap) :
    (w.settle h).program = w.program ∨ (w.settle h).program = w.program.openRegistry.2 := by
  rw [settle]
  split
  · exact .inr rfl
  · exact .inl rfl

/-- Native code sees the same registry whatever native code ran before. -/
@[simp] theorem settle_registryView (w : World) (h : Heap) :
    (w.settle h).program.registryView = w.program.registryView := by
  rcases settle_program w h with heq | heq
  · rw [heq]
  · rw [heq, Program.registryView_openRegistry]

/-- Native code touches neither the build, nor the environment, nor the configuration. -/
theorem settle_keeps (w : World) (h : Heap) : (w.settle h).program.build = w.program.build ∧
    (w.settle h).program.environment = w.program.environment ∧
    (w.settle h).program.config = w.program.config := by
  rcases settle_program w h with heq | heq <;> rw [heq]
  · exact ⟨rfl, rfl, rfl⟩
  · exact w.program.openRegistry_keeps

/-- Native code that is the first to look at the registry has it made, with the records that go
with it. -/
theorem settle_markConsulted (hfirst : w.heap.consulted = false) :
    w.settle w.heap.markConsulted =
      { w with heap := w.heap.markConsulted, program := w.program.openRegistry.2 } := by
  rw [settle, hfirst]
  rfl

/-- Where native code has looked at the registry, it has been made. -/
def Opened (w : World) : Prop :=
  w.heap.consulted = true → w.program.registry = some w.program.registryView

/-- At the start no native code has run. -/
theorem opened_ofProgram (program : Program) : (ofProgram program).Opened := fun hlooked =>
  absurd (show Heap.initial.consulted = true from hlooked) (by decide)

/-- Whatever native code does, the registry is there afterwards if it was looked at. -/
theorem Opened.settle (o : w.Opened) (h : Heap) : (w.settle h).Opened := by
  intro hlooked
  have hlooked : h.consulted = true := hlooked
  rw [settle_registryView]
  cases hbefore : w.heap.consulted with
  | true =>
    have hsame : w.settle h = { w with heap := h } := settle_of_eq (hlooked.trans hbefore.symm)
    rw [hsame]
    exact o hbefore
  | false =>
    have hmade : (w.settle h).program = w.program.openRegistry.2 := by
      simp [World.settle, hlooked, hbefore]
    rw [hmade]
    exact w.program.registry_openRegistry

/-- So it is after native code was run, however it ended. -/
theorem Opened.runNative {α : Type} (o : w.Opened) (m : Machine) (code : NativeM α) :
    (w.runNative m code).2.Opened := by
  unfold World.runNative
  rcases code (m.env w.program.registryView) w.heap with ⟨_, h⟩ | ⟨_, h⟩ <;> exact o.settle h

/-- Whoever asks for the registry after native code looked at it finds it, and nothing is made
or logged again. -/
theorem Opened.openRegistry_eq_self (o : w.Opened) (hlooked : w.heap.consulted = true) :
    w.openRegistry = (w.program.registryView, w) := by
  rw [openRegistry, Program.openRegistry_of_some (o hlooked)]

/-- A reference is given back in the heap. -/
@[simp] theorem release_heap (m : Machine) (p : ObjId) (w : World) :
    (w.release m p).2.heap = (m.release w.program.registryView p w.heap).2 := rfl

/-- Several references are given back in the heap. -/
@[simp] theorem releaseAll_heap (m : Machine) (ps : List ObjId) (w : World) :
    (w.releaseAll m ps).heap = w.heap.giveBackAll (m.release w.program.registryView) ps := rfl

/-- Giving references back leaves the handles as they are. -/
@[simp] theorem releaseAll_handles (m : Machine) (ps : List ObjId) (w : World) :
    (w.releaseAll m ps).handles = w.handles := rfl

/-- Where there is nothing to give back nothing happens. -/
@[simp] theorem releaseAll_nil (m : Machine) (w : World) : w.releaseAll m [] = w := settle_self w

end World

end Interop

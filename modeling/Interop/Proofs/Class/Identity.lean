/-
# What identity queries answer

Host code asks whether the class of a handle descends from the class of a name, in a registry
of its own or in the one of the program; native code asks the same of an object, by the method
`Is_A`.  All of them compare classes, never names.

**In every state of every history of a registry** the answers are those of the ancestry of the
class (`Registry.Logged.run_identified`): aliases change nothing, another class of the same
name is never matched, and since a registry is closed the ancestors of a class that it knows are
there under their own names.  Over the registry of a program the native method tells exactly
whether host code would be told yes.
-/

import Interop.Handle
import Interop.Proofs.Class.Histories
import Interop.Proofs.Native.Convention

namespace Interop

namespace Class

variable {c d : Class}

/-- An ancestor has a shorter ancestry, unless it is the class itself. -/
theorem length_lt_of_mem_ancestry (h : d ∈ c.ancestry) :
    d = c ∨ d.ancestry.length < c.ancestry.length := by
  induction c with
  | root record => exact Or.inl (List.mem_singleton.1 h)
  | extend record parent ih =>
    rcases List.mem_cons.1 h with rfl | h
    · exact Or.inl rfl
    · right
      rw [ancestry, List.length_cons]
      rcases ih h with rfl | hlt
      · exact Nat.lt_succ_self _
      · exact Nat.lt_succ_of_lt hlt

/-- **Two classes that descend from each other** are one. -/
theorem ancestry_antisymm (hd : d ∈ c.ancestry) (hc : c ∈ d.ancestry) : c = d := by
  rcases length_lt_of_mem_ancestry hd with rfl | hlt
  · rfl
  rcases length_lt_of_mem_ancestry hc with rfl | hlt'
  · rfl
  omega

end Class

/-! ### Queries of host code -/

namespace Handle

variable {r r' : Registry} {s : HandleState} {name : String} {c : Class}

/-- The answer for a name is about the class that it stands for. -/
theorem isA_of_fetch (h : r.fetch name = .ok c) : isA r s name = .ok (s.cls.isSubclassOf c) := by
  rw [isA, h]

/-- An unknown name is an error. -/
theorem isA_of_unknown (h : ∀ c, r.fetch name ≠ .ok c) :
    isA r s name = .error (.unknownType name) := by
  rw [isA, Registry.fetch_error_iff.2 ⟨h, rfl⟩]

/-- The answer is yes for the names of ancestors only. -/
theorem isA_eq_true_iff :
    isA r s name = .ok true ↔ ∃ c, r.fetch name = .ok c ∧ c ∈ s.cls.ancestry := by
  unfold isA
  rcases r.fetch name with e | c <;> simp [Class.isSubclassOf_iff]

/-- The answer is an error for unknown names only. -/
theorem isA_eq_error_iff {e : BridgeError} :
    isA r s name = .error e ↔ (∀ c, r.fetch name ≠ .ok c) ∧ e = .unknownType name := by
  constructor
  · intro h
    have hfree : ∀ c, r.fetch name ≠ .ok c := fun c hc => by
      rw [isA_of_fetch hc] at h
      exact absurd h (by simp)
    exact ⟨hfree, Except.error.inj (h.symm.trans (isA_of_unknown hfree))⟩
  · rintro ⟨hfree, rfl⟩
    exact isA_of_unknown hfree

/-- The answer depends on what the name stands for, and on nothing else in the registry. -/
theorem isA_congr (h : r.fetch name = r'.fetch name) : isA r s name = isA r' s name := by
  rw [isA, isA, h]

end Handle

/-! ### Queries of native code -/

namespace Parcel

/-- The native query answers yes exactly where the name stands for an ancestor. -/
theorem runMethod_isA {env : NativeEnv} {h : Heap} {p q : ObjId} {name : String}
    (hname : (h.obj q).payload.text? = some name) : runMethod p [.object q] .objectIsA env h =
      .ok (.bool (match env.global.fetch name with
        | .ok c => (h.obj p).isA c
        | .error _ => false)) h.markConsulted := by
  simp only [runMethod, Object.isA, argAt, List.getElem?_cons_zero, Arg.toText,
    NativeM.bind_apply, NativeM.pure_apply, NativeM.object_apply, NativeM.consult_apply, hname,
    Heap.obj_markConsulted]
  rcases env.global.fetch name with e | c <;> rfl

end Parcel

namespace Registry

/-! ### Laws of identity -/

/-- What identity queries answer over a registry. -/
structure Logged.Identified (l : Logged) : Prop where
  /-- A name that stands for nothing is refused, and only such a name is. -/
  unknown : ∀ s name e, Handle.isA l.registry s name = .error e ↔
    (∀ c, l.registry.fetch name ≠ .ok c) ∧ e = .unknownType name
  /-- Every other name asks for one class in the ancestry. -/
  known : ∀ s name c, l.registry.fetch name = .ok c →
    Handle.isA l.registry s name = .ok (decide (c ∈ s.cls.ancestry))
  /-- Only the class of a handle counts, not whether the handle owns anything. -/
  class_only : ∀ s s' : HandleState, s.cls = s'.cls → ∀ name,
    Handle.isA l.registry s name = Handle.isA l.registry s' name
  /-- An alias asks the same as the own name of its class. -/
  aliased : ∀ name c, l.registry.fetch name = .ok c → ∀ s,
    Handle.isA l.registry s name = Handle.isA l.registry s c.name
  /-- A class that only has the name of an ancestor is not matched. -/
  impostor : ∀ s, ∀ a ∈ s.cls.ancestry, ∀ d, l.registry.fetch a.name = .ok d →
    d ∉ s.cls.ancestry → Handle.isA l.registry s a.name = .ok false
  /-- A class that some name stands for is an instance of all its ancestors, under their own
  names. -/
  ancestors : ∀ s name, l.registry.fetch name = .ok s.cls → ∀ a ∈ s.cls.ancestry,
    Handle.isA l.registry s a.name = .ok true
  /-- Freezing changes no answer, and nothing does afterwards. -/
  frozen : ∀ history s name,
    Handle.isA ((l.step .freeze).1.run history).registry s name = Handle.isA l.registry s name
  /-- What descends from a class matches everything that the class matches. -/
  transitive : ∀ s s' : HandleState, s.cls.isSubclassOf s'.cls = true → ∀ name,
    Handle.isA l.registry s' name = .ok true → Handle.isA l.registry s name = .ok true
  /-- Two classes never descend from each other, whether they have a name here or not. -/
  distinct : ∀ c d : Class, c ≠ d → ¬(c.isSubclassOf d = true ∧ d.isSubclassOf c = true)
  /-- Where the registry is the one of the program, the native method on an object of the class
  answers yes if host code is told yes, and no if it is told no or refused.  The program has its
  registry by then, and nothing else has changed. -/
  native : ∀ (m : Machine) (w : World) s p q name, w.openRegistry.1 = l.registry →
    (w.obj p).cls = s.cls → (w.obj q).payload.text? = some name →
      ∃ answer, w.runNative m (Parcel.runMethod p [.object q] .objectIsA) =
          (.ok (.bool answer), w.settle w.heap.markConsulted) ∧
        (answer = true ↔ Handle.isA l.registry s name = .ok true) ∧
        (answer = false ↔ Handle.isA l.registry s name = .ok false ∨
          ∃ e, Handle.isA l.registry s name = .error e)

namespace Logged

variable {l : Logged}

/-- The native method and host code look the name up in one registry. -/
theorem isA_agrees (m : Machine) {w : World} {s : HandleState} {p q : ObjId} {name : String}
    (hopen : w.openRegistry.1 = l.registry) (hcls : (w.obj p).cls = s.cls)
    (hname : (w.obj q).payload.text? = some name) :
    ∃ answer, w.runNative m (Parcel.runMethod p [.object q] .objectIsA) =
        (.ok (.bool answer), w.settle w.heap.markConsulted) ∧
      (answer = true ↔ Handle.isA l.registry s name = .ok true) ∧
      (answer = false ↔ Handle.isA l.registry s name = .ok false ∨
        ∃ e, Handle.isA l.registry s name = .error e) := by
  have hview : w.program.registryView = l.registry := w.openRegistry_eq.symm.trans hopen
  have hisA : ∀ c, (w.heap.obj p).isA c = s.cls.isSubclassOf c := fun c =>
    congrArg (Class.isSubclassOf · c) hcls
  have hrun : w.runNative m (Parcel.runMethod p [.object q] .objectIsA) =
      (.ok (.bool (match l.registry.fetch name with
        | .ok c => s.cls.isSubclassOf c
        | .error _ => false)), w.settle w.heap.markConsulted) := by
    simp only [World.runNative, Parcel.runMethod_isA hname, Machine.env, hview, hisA]
  refine ⟨_, hrun, ?_⟩
  rcases hfetch : l.registry.fetch name with e | c
  · simp [Handle.isA, hfetch]
  · simp [Handle.isA, hfetch]

/-- A closed registry answers identity queries as it should. -/
theorem identified_of_closed (hclosed : l.registry.Closed) : l.Identified where
  unknown _ _ _ := Handle.isA_eq_error_iff
  known _ _ _ hname := Handle.isA_of_fetch hname
  class_only s s' hcls name := by
    rw [Handle.isA, Handle.isA, hcls]
  aliased name c hname s := by
    have hown := hclosed name c hname c (Class.mem_ancestry_self c)
    rw [Handle.isA_of_fetch hname, Handle.isA_of_fetch hown]
  impostor s a _ d hd hnot := by
    rw [Handle.isA_of_fetch hd, Class.isSubclassOf, decide_eq_false hnot]
  ancestors s name hname a ha :=
    Handle.isA_eq_true_iff.2 ⟨a, hclosed name _ hname a ha, ha⟩
  frozen history s name := by
    rw [run_freeze]
    exact Handle.isA_congr ((alike_freeze l.registry).fetch_eq name)
  transitive s s' hdescends name hs' := by
    obtain ⟨c, hc, hmem⟩ := Handle.isA_eq_true_iff.1 hs'
    have htrans := Class.ancestry_trans (Class.isSubclassOf_iff.1 hdescends) hmem
    exact Handle.isA_eq_true_iff.2 ⟨c, hc, htrans⟩
  distinct c d hne := fun ⟨hcd, hdc⟩ =>
    hne (Class.ancestry_antisymm (Class.isSubclassOf_iff.1 hcd) (Class.isSubclassOf_iff.1 hdc))
  native m _ _ _ _ _ hopen hcls hname := isA_agrees m hopen hcls hname

/-- **Identity queries are exact in every state of every history,** whichever of its steps
failed. -/
theorem run_identified (logger : Log.Logger) (history : List Step) :
    ((Logged.mk .empty logger).run history).Identified :=
  identified_of_closed (run_closed history closed_empty)

end Logged

end Registry

end Interop

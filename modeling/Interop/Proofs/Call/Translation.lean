/-
# Errors on their way to the host

A history maps classes of errors, each call under a name that a registry resolves, and some of
the calls are refused.  What the map then knows of a class is what the last call for this class
has said (`ExceptionMap.way?_run_eq_some_iff`), and for an error of any class the nearest class
of its ancestry counts of which the map knows anything (`ExceptionMap.chosen_iff`).

**Turning an error into an exception takes the nearest, latest way and gives one reference back**
(`ExceptionMap.run_translates`).  The exception is made of the message that the error had before
its reference was given back, which may have ended the object.
-/

import Interop.ExceptionMap
import Interop.Proofs.Binding.CoreModule
import Interop.Proofs.Heap.Release
import Interop.Sample.Native
import Mathlib.Data.List.Induction

namespace Interop

/-- An object that is torn down is gone, whatever `Destroy` does. -/
theorem Image.get?_teardown (image : Image) (env : NativeEnv) (p : ObjId) (h : Heap) :
    (image.teardown env p h).get? p = none := by
  rw [teardown, Heap.get?_free, if_pos rfl]

namespace ExceptionMap

/-! ### Histories -/

/-- A call that maps the class that a name stands for. -/
structure Mapping where
  registry : Registry
  name : String
  make : ExceptionMaker

/-- The call maps the class `c`: its name stands for `c`, and this is a class of errors. -/
def Mapping.Maps (a : Mapping) (c : Class) : Prop :=
  a.registry.fetch a.name = .ok c ∧ Parcel.err ∈ c.ancestry

/-- The call is refused, with the error for it. -/
inductive Mapping.Refused (a : Mapping) : BridgeError → Prop
  | unknown : (∀ c, a.registry.fetch a.name ≠ .ok c) → Refused a (.unknownType a.name)
  | notError {c : Class} : a.registry.fetch a.name = .ok c → Parcel.err ∉ c.ancestry →
      Refused a (.notAnErrorClass c.name)

/-- The map after a call, which changes nothing when it is refused. -/
def step (map : ExceptionMap) (a : Mapping) : ExceptionMap :=
  match map.register a.registry a.name a.make with
  | .ok map => map
  | .error _ => map

/-- The map after a history, whichever of its calls were refused. -/
def run (history : List Mapping) : ExceptionMap :=
  history.foldl step .empty

/-- The last call of the history that maps the class. -/
def Latest (history : List Mapping) (c : Class) (a : Mapping) : Prop :=
  ∃ before after, history = before ++ a :: after ∧ a.Maps c ∧ ∀ b ∈ after, ¬ b.Maps c

/-- The way that the history gives to errors of class `c`: that of the last call for the nearest
class of the ancestry that any call maps, or none. -/
inductive Chosen (history : List Mapping) (c : Class) : Option ExceptionMaker → Prop
  | mapped {near far : List Class} {d : Class} {a : Mapping} :
      c.ancestry = near ++ d :: far → Latest history d a →
      (∀ e ∈ near, ∀ b ∈ history, ¬ b.Maps e) → Chosen history c (some a.make)
  | unmapped : (∀ d ∈ c.ancestry, ∀ b ∈ history, ¬ b.Maps d) → Chosen history c none

section

variable {map : ExceptionMap} {history : List Mapping} {a b : Mapping} {c : Class}
  {make : ExceptionMaker} {way : Option ExceptionMaker} {e : BridgeError}

/-! ### One call -/

/-- The class that a registration is for is the one that it maps. -/
theorem errorClass_ok_iff : errorClass a.registry a.name = .ok c ↔ a.Maps c := by
  rw [errorClass, Mapping.Maps]
  rcases a.registry.fetch a.name with e | d
  · simp
  · by_cases hsub : d.isSubclassOf Parcel.err = true
    · have herr := Class.isSubclassOf_iff.1 hsub
      simp only [hsub, if_true, Except.ok.injEq]
      exact ⟨fun h => ⟨h, h ▸ herr⟩, And.left⟩
    · have herr := mt Class.isSubclassOf_iff.2 hsub
      simp only [hsub, Bool.false_eq_true, if_false, Except.ok.injEq]
      exact ⟨fun h => absurd h (by simp), fun h => absurd h.2 (h.1 ▸ herr)⟩

/-- A registration fails just with the error that refuses it. -/
theorem errorClass_error_iff : errorClass a.registry a.name = .error e ↔ a.Refused e := by
  rw [errorClass]
  constructor
  · intro herror
    rcases hfetch : a.registry.fetch a.name with e' | d <;> rw [hfetch] at herror
    · have hnone : ∀ c, a.registry.fetch a.name ≠ .ok c := by simp [hfetch]
      obtain rfl : e' = .unknownType a.name := (Registry.fetch_error_iff.1 hfetch).2
      exact Except.error.inj herror ▸ .unknown hnone
    · by_cases hsub : d.isSubclassOf Parcel.err = true
      · simp [hsub] at herror
      · simp only [hsub, Bool.false_eq_true, if_false, Except.error.injEq] at herror
        exact herror ▸ .notError hfetch (mt Class.isSubclassOf_iff.2 hsub)
  · rintro (hnone | ⟨hfetch, herr⟩)
    · rw [Registry.fetch_error_iff.2 ⟨hnone, rfl⟩]
    · rw [hfetch]
      exact if_neg (mt Class.isSubclassOf_iff.1 herr)

/-- **When a class cannot be mapped,** and the error then. -/
theorem register_error_iff :
    map.register a.registry a.name a.make = .error e ↔ a.Refused e := by
  rw [← errorClass_error_iff, register]
  rcases errorClass a.registry a.name with e' | d <;> simp [Except.map]

/-- A registration that maps a class comes before those that were there. -/
theorem step_of_maps (hmaps : a.Maps c) : map.step a = ⟨(c, a.make) :: map.ways⟩ := by
  rw [step, register, errorClass_ok_iff.2 hmaps]
  rfl

/-- A registration that is refused changes nothing. -/
theorem step_of_refused (hrefused : a.Refused e) : map.step a = map := by
  rw [step, register, errorClass_error_iff.2 hrefused]
  rfl

/-- A call maps one class or is refused. -/
theorem maps_or_refused (a : Mapping) : (∃ c, a.Maps c) ∨ ∃ e, a.Refused e := by
  rcases h : errorClass a.registry a.name with e | c
  · exact .inr ⟨e, errorClass_error_iff.1 h⟩
  · exact .inl ⟨c, errorClass_ok_iff.1 h⟩

/-- A call gives a way to the class that it maps. -/
theorem way?_step_of_maps (hmaps : a.Maps c) : (map.step a).way? c = some a.make := by
  rw [step_of_maps hmaps, way?, List.find?_cons_of_pos (by simp)]
  rfl

/-- A call takes nothing from any other class. -/
theorem way?_step_of_not_maps (hmaps : ¬ a.Maps c) : (map.step a).way? c = map.way? c := by
  rcases maps_or_refused a with ⟨d, hd⟩ | ⟨e, he⟩
  · have hne : ¬ (d == c) = true := fun heq => hmaps (eq_of_beq heq ▸ hd)
    rw [step_of_maps hd, way?, List.find?_cons_of_neg (by exact hne)]
    rfl
  · rw [step_of_refused he]

/-! ### All calls -/

/-- A history is run by its last registration after the ones before. -/
theorem run_concat : run (history ++ [a]) = (run history).step a := by
  rw [run, List.foldl_append]
  rfl

/-- A call that is refused could have been left out. -/
theorem run_of_refused {before after : List Mapping} (hrefused : a.Refused e) :
    run (before ++ a :: after) = run (before ++ after) := by
  rw [run, run, List.foldl_append, List.foldl_append, List.foldl_cons, step_of_refused hrefused]

/-- One call more is the last for the class that it maps, and no other class notices it. -/
theorem latest_concat_iff :
    Latest (history ++ [b]) c a ↔ b.Maps c ∧ a = b ∨ ¬ b.Maps c ∧ Latest history c a := by
  constructor
  · rintro ⟨before, after, hsplit, hmaps, hafter⟩
    rcases List.eq_nil_or_concat after with rfl | ⟨after, last, rfl⟩
    · obtain ⟨-, hb⟩ := List.append_inj' hsplit rfl
      obtain rfl := (List.cons.inj hb).1
      exact .inl ⟨hmaps, rfl⟩
    · rw [List.concat_eq_append] at hsplit hafter
      rw [← List.cons_append, ← List.append_assoc] at hsplit
      obtain ⟨rfl, hb⟩ := List.append_inj' hsplit rfl
      obtain rfl := (List.cons.inj hb).1
      obtain ⟨hrest, hlast⟩ := List.forall_mem_append.1 hafter
      exact .inr ⟨hlast b List.mem_cons_self, before, after, rfl, hmaps, hrest⟩
  · rintro (⟨hb, rfl⟩ | ⟨hb, before, after, rfl, hmaps, hafter⟩)
    · exact ⟨history, [], rfl, hb, List.forall_mem_nil _⟩
    · refine ⟨before, after ++ [b], by rw [List.append_assoc, List.cons_append], hmaps, ?_⟩
      exact List.forall_mem_append.2 ⟨hafter, List.forall_mem_singleton.2 hb⟩

/-- **What the map knows of a class** is what the last call for it has said. -/
theorem way?_run_eq_some_iff :
    (run history).way? c = some make ↔ ∃ a, Latest history c a ∧ a.make = make := by
  induction history using List.reverseRecOn with
  | nil =>
    refine ⟨fun h => absurd h (by simp [run, way?, empty]), ?_⟩
    rintro ⟨a, ⟨before, after, hnil, -⟩, -⟩
    exact absurd hnil (by simp)
  | append_singleton history b ih =>
    rw [run_concat]
    simp only [latest_concat_iff]
    by_cases hb : b.Maps c
    · simp [way?_step_of_maps hb, hb]
    · simp [way?_step_of_not_maps hb, hb, ih]

/-- A class has no way of its own just when no registration of the history maps it. -/
theorem way?_run_eq_none_iff : (run history).way? c = none ↔ ∀ b ∈ history, ¬ b.Maps c := by
  induction history using List.reverseRecOn with
  | nil => exact iff_of_true rfl (List.forall_mem_nil _)
  | append_singleton history b ih =>
    rw [run_concat, List.forall_mem_append, List.forall_mem_singleton]
    by_cases hb : b.Maps c
    · rw [way?_step_of_maps hb]
      exact iff_of_false (by simp) fun h => h.2 hb
    · rw [way?_step_of_not_maps hb, ih, and_iff_left hb]

/-- **The way that is taken** is the one that the history gives. -/
theorem chosen_iff : Chosen history c way ↔ (run history).nearest? c = way := by
  rw [nearest?]
  constructor
  · rintro (⟨hsplit, hlatest, hnear⟩ | hnone)
    · exact List.findSome?_eq_some_iff.2 ⟨_, _, _, hsplit,
        way?_run_eq_some_iff.2 ⟨_, hlatest, rfl⟩,
        fun e he => way?_run_eq_none_iff.2 (hnear e he)⟩
    · exact List.findSome?_eq_none_iff.2 fun d hd => way?_run_eq_none_iff.2 (hnone d hd)
  · intro hway
    cases way with
    | none =>
      exact .unmapped fun d hd => way?_run_eq_none_iff.1 (List.findSome?_eq_none_iff.1 hway d hd)
    | some make =>
      obtain ⟨near, d, far, hsplit, hd, hnear⟩ := List.findSome?_eq_some_iff.1 hway
      obtain ⟨a, hlatest, rfl⟩ := way?_run_eq_some_iff.1 hd
      exact .mapped hsplit hlatest fun e he => way?_run_eq_none_iff.1 (hnear e he)

end

/-! ### The outcome -/

/-- The exception that a way makes; without a way it is a `RuntimeError`. -/
def exceptionBy (way : Option ExceptionMaker) (message : String) : HostException :=
  match way with
  | some make => make message
  | none => .new .runtimeError message

/-- What becomes of a thrown error, the object `o`, after the history. -/
structure Translated (history : List Mapping) (m : Machine) (w : World) (t : Thrown) (o : Obj)
    (outcome : HostException × World) : Prop where
  /-- The history gives a way to the class of the object. -/
  chosen : ∃ way, Chosen history o.cls way
  /-- This way is taken, with the message of the error, or else the name of the class. -/
  exception : ∀ way, Chosen history o.cls way → outcome.1 =
    { exceptionBy way (o.payload.message?.getD o.cls.name) with nativeClass := some o.cls.name }
  handles : outcome.2.handles = w.handles
  /-- A reference to an immortal object is not counted. -/
  immortal : o.immortal = true → outcome.2.heap = w.heap
  /-- Of several references there is one less, and nothing else happens. -/
  spare : o.immortal = false → 1 < o.refcount →
    outcome.2.heap = w.heap.setCount t.object (o.refcount - 1)
  /-- After the last reference the object is torn down, and it is gone. -/
  last : o.immortal = false → o.refcount = 1 →
    outcome.2.heap = m.image.teardown
      ⟨m.image.releaseAt w.program.registryView (w.heap.live + m.headroom),
        w.program.registryView, m.image.memory⟩ t.object (w.heap.setCount t.object 0) ∧
    outcome.2.heap.get? t.object = none
  /-- In every account of the heap just the reference of the error is gone. -/
  account : ∀ base owned, Ledger base (t.object ::ₘ owned) w.heap →
    Ledger base owned outcome.2.heap

/-- The release of the error's reference, by what the count was. -/
theorem toException_translated (history : List Mapping) (m : Machine) {w : World} {t : Thrown}
    {o : Obj} (ho : w.heap.get? t.object = some o) :
    Translated history m w t o ((run history).toException m t w) := by
  have hheap : ((run history).toException m t w).2.heap =
      (m.image.releaseAt w.program.registryView (w.heap.live + m.headroom + 1) t.object
        w.heap).2 := rfl
  rw [Image.releaseAt, Heap.obj_of_get? ho] at hheap
  refine ⟨⟨_, chosen_iff.2 rfl⟩, fun way hway => ?_, rfl, fun himm => ?_, fun himm hmany => ?_,
    fun himm hone => ?_, fun base owned l => ?_⟩
  · rw [toException, exceptionFor, World.obj, Heap.obj_of_get? ho, chosen_iff.1 hway,
      Heap.thrownMessage, Heap.obj_of_get? ho]
    cases way <;> rfl
  · rwa [if_pos himm] at hheap
  · obtain ⟨left, hleft⟩ := Nat.exists_eq_add_of_le hmany
    rw [if_neg (by simp [himm]), hleft, Nat.add_comm] at hheap
    rw [hleft, Nat.add_comm]
    exact hheap
  · simp only [himm, hone] at hheap
    refine ⟨hheap, ?_⟩
    rw [hheap]
    exact Image.get?_teardown _ _ _ _
  · obtain ⟨h', hrelease, l', -⟩ := l.release
    rwa [← hrelease m w.program.registryView] at l'

/-- **Errors take the nearest, latest way, and one reference is given back.**  A call that maps a
class is refused exactly if its name stands for nothing or for a class that is not one of errors,
and then it could have been left out of the history. -/
theorem run_translates (history : List Mapping) :
    (∀ (a : Mapping) (e : BridgeError),
      (run history).register a.registry a.name a.make = .error e ↔ a.Refused e) ∧
    (∀ (before after : List Mapping) (a : Mapping) (e : BridgeError),
      history = before ++ a :: after → a.Refused e → run history = run (before ++ after)) ∧
    ∀ (m : Machine) (w : World) (t : Thrown) (o : Obj), w.heap.get? t.object = some o →
      Translated history m w t o ((run history).toException m t w) := by
  refine ⟨fun a e => register_error_iff, ?_, fun m w t o ho => toException_translated history m ho⟩
  rintro before after a e rfl hrefused
  exact run_of_refused hrefused

end ExceptionMap

/-! ### An error with an ancestor that is mapped too -/

namespace Sample

/-- A class of errors. -/
def failure : Class :=
  .ofMethods Parcel.firstFreeSerial "Sample::Failure" "Sample" (some Parcel.err) 0 []

/-- The core parcel and the class of errors, which has a second name. -/
def failureRegistry : Registry :=
  (Parcel.registry.assign "Sample::Failure" failure).assign "Sample::Oops" failure

/-- The class of errors is mapped twice, and integers are not mapped. -/
def failureMappings : List ExceptionMap.Mapping := [
  ⟨failureRegistry, "Sample::Failure", .new .lookupError⟩,
  ⟨failureRegistry, "Sample::Oops", .new .typeError⟩,
  ⟨failureRegistry, "Clownfish::Err", .new .base⟩,
  ⟨failureRegistry, "Clownfish::Integer", .new .overflowError⟩]

/-- A world with an error that has one reference. -/
def failureWorld : World where
  heap := (Heap.initial.alloc failure (.err "boom")).2
  handles := #[]
  program := .ready

/-- The registry of the example knows its class under two names, and the core parcel. -/
theorem failureRegistry_fetch (name : String) : failureRegistry.fetch name =
    if name = "Sample::Oops" then .ok failure
    else if name = "Sample::Failure" then .ok failure else Parcel.registry.fetch name := by
  have hopen : (Parcel.registry.assign "Sample::Failure" failure).isFrozen = false := by
    rw [Registry.isFrozen_assign, Parcel.registry_open]
  rw [failureRegistry, Registry.fetch_assign hopen, Registry.fetch_assign Parcel.registry_open]

/-- The nearest class with a way of its own decides in the example. -/
theorem failure_chosen :
    ExceptionMap.Chosen failureMappings failure (some (.new .typeError)) := by
  have herr : failureRegistry.fetch "Clownfish::Err" = .ok Parcel.err := by
    rw [failureRegistry_fetch, if_neg (by decide), if_neg (by decide)]
    exact Parcel.registry_fetch Parcel.err (by decide)
  have hinteger : failureRegistry.fetch "Clownfish::Integer" = .ok Parcel.integer := by
    rw [failureRegistry_fetch, if_neg (by decide), if_neg (by decide)]
    exact Parcel.registry_fetch Parcel.integer (by decide)
  have hsplit : failure.ancestry = [] ++ failure :: Parcel.err.ancestry := rfl
  refine .mapped hsplit ⟨[_], [_, _], rfl, ⟨?_, by decide +kernel⟩, ?_⟩ (List.forall_mem_nil _)
  · rw [failureRegistry_fetch, if_pos rfl]
  · rintro b hb ⟨hfetch, -⟩
    rcases List.mem_cons.1 hb with rfl | hb
    · exact absurd (Except.ok.inj (herr.symm.trans hfetch)) (by decide +kernel)
    · obtain rfl := List.mem_singleton.1 hb
      exact absurd (Except.ok.inj (hinteger.symm.trans hfetch)) (by decide +kernel)

/-- The error of the example is raised as the registration under the second name says, and
given back. -/
theorem failure_translated :
    ∃ outcome, (ExceptionMap.run failureMappings).toException machine ⟨⟨2⟩⟩ failureWorld = outcome ∧
      outcome.1 = ⟨.typeError, "boom", some "Sample::Failure", []⟩ ∧
      outcome.2.heap.get? ⟨2⟩ = none := by
  obtain ⟨-, -, hall⟩ := ExceptionMap.run_translates failureMappings
  have htranslated := hall machine failureWorld ⟨⟨2⟩⟩ (Heap.fresh failure (.err "boom")) rfl
  exact ⟨_, rfl, htranslated.exception _ failure_chosen, (htranslated.last rfl rfl).2⟩

end Sample

end Interop

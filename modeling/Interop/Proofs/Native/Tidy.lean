/-
# Native code that throws cleanly

Three properties of native code, each kept by sequences of steps:

* code that `Reads` leaves the heap alone, and throws nothing but a new plain error;
* `Calm` code does not throw;
* `Tidy` code, when it throws, throws a new plain error and has done nothing else.

What reads and what is calm is tidy, and so is reading followed by something tidy, or
something tidy followed by something calm: a check may throw as long as nothing was done
before it.  All but three of the instance methods of the core parcel are built in this way
(`Parcel.runMethod_tidy`), and so are its constructors and its functions but for `rethrow`.
-/

import Interop.Proofs.Native.Run
import Mathlib.Tactic.SplitIfs

namespace Interop

namespace NativeM

variable {α β : Type} {x : NativeM α} {f : α → NativeM β}

/-- The code changes nothing, and all it throws is a new plain error. -/
def Reads (x : NativeM α) : Prop :=
  ∀ env h, (∃ a, x env h = .ok a h) ∨ ∃ message, x env h = fail message env h

/-- The code never throws. -/
def Calm (x : NativeM α) : Prop :=
  ∀ env h, ∃ a h', x env h = .ok a h'

/-- When the code throws, it throws a new plain error and has done nothing else. -/
def Tidy (x : NativeM α) : Prop :=
  ∀ env h, (∃ a h', x env h = .ok a h') ∨ ∃ message, x env h = fail message env h

/-- Code that only reads is tidy. -/
theorem Reads.tidy (hx : Reads x) : Tidy x := by
  intro env h
  rcases hx env h with ⟨a, ha⟩ | hfail
  · exact Or.inl ⟨a, h, ha⟩
  · exact Or.inr hfail

/-- Code that never throws is tidy. -/
theorem Calm.tidy (hx : Calm x) : Tidy x :=
  fun env h => Or.inl (hx env h)

/-! ### Sequences -/

/-- Two steps that only read do so together. -/
theorem Reads.bind (hx : Reads x) (hf : ∀ a, Reads (f a)) : Reads (x >>= f) := by
  intro env h
  rw [bind_apply]
  rcases hx env h with ⟨a, ha⟩ | ⟨message, hfail⟩
  · rw [ha]
    exact hf a env h
  · rw [hfail]
    exact Or.inr ⟨message, rfl⟩

/-- What reads may come before anything tidy. -/
theorem Reads.bind_tidy (hx : Reads x) (hf : ∀ a, Tidy (f a)) : Tidy (x >>= f) := by
  intro env h
  rw [bind_apply]
  rcases hx env h with ⟨a, ha⟩ | ⟨message, hfail⟩
  · rw [ha]
    exact hf a env h
  · rw [hfail]
    exact Or.inr ⟨message, rfl⟩

/-- What is calm may come after anything tidy. -/
theorem Tidy.bind_calm (hx : Tidy x) (hf : ∀ a, Calm (f a)) : Tidy (x >>= f) := by
  intro env h
  rw [bind_apply]
  rcases hx env h with ⟨a, h', ha⟩ | ⟨message, hfail⟩
  · rw [ha]
    exact Or.inl (hf a env h')
  · rw [hfail]
    exact Or.inr ⟨message, rfl⟩

/-- Two steps that never throw do so together. -/
theorem Calm.bind (hx : Calm x) (hf : ∀ a, Calm (f a)) : Calm (x >>= f) := by
  intro env h
  obtain ⟨a, h', ha⟩ := hx env h
  rw [bind_apply, ha]
  exact hf a env h'

/-! ### Single steps -/

/-- A value only reads. -/
theorem reads_pure (a : α) : Reads (pure a : NativeM α) :=
  fun _ _ => Or.inl ⟨a, rfl⟩

/-- A failure only reads. -/
theorem reads_fail (message : String) : Reads (fail message : NativeM α) :=
  fun _ _ => Or.inr ⟨message, rfl⟩

/-- An object is read. -/
theorem reads_object (p : ObjId) : Reads (object p) :=
  fun _ h => Or.inl ⟨h.obj p, rfl⟩

/-- The heap is read. -/
theorem reads_get : Reads (get : NativeM Heap) :=
  fun _ h => Or.inl ⟨h, rfl⟩

/-- To reserve memory is to read what can be reserved. -/
theorem reads_reserve (room : Memory → Nat → Bool) (n : Nat) : Reads (reserve room n) :=
  fun env _ => Or.inl ⟨room env.memory n, rfl⟩

/-- A value never throws. -/
theorem calm_pure (a : α) : Calm (pure a : NativeM α) :=
  fun _ h => ⟨a, h, rfl⟩

/-- Reading an object never throws. -/
theorem calm_object (p : ObjId) : Calm (object p) :=
  fun _ h => ⟨h.obj p, h, rfl⟩

/-- Making an object never throws. -/
theorem calm_alloc (cls : Class) (payload : Payload) : Calm (alloc cls payload) :=
  fun _ _ => ⟨_, _, rfl⟩

/-- A look at the registry never throws. -/
theorem calm_consult : Calm consult :=
  fun _ _ => ⟨_, _, rfl⟩

/-- Making a text never throws. -/
theorem calm_newString (text : String) : Calm (newString text) :=
  calm_alloc _ _

/-- Writing a payload never throws. -/
theorem calm_setPayload (p : ObjId) (payload : Payload) : Calm (setPayload p payload) :=
  fun _ _ => ⟨_, _, rfl⟩

/-- Giving a reference back never throws. -/
theorem calm_release (p : ObjId) : Calm (release p) :=
  fun _ _ => ⟨_, _, rfl⟩

/-- Giving several references back never throws. -/
theorem calm_releaseAll (ps : List ObjId) : Calm (releaseAll ps) :=
  fun env h => ⟨(), _, releaseAll_apply env ps h⟩

/-- Taking a reference is tidy. -/
theorem tidy_retain (p : ObjId) : Tidy (retain p) := by
  intro env h
  rw [retain_apply]
  rcases h.retain p with e | h'
  · exact Or.inr ⟨e.message, rfl⟩
  · exact Or.inl ⟨p, h', rfl⟩

/-- An argument is read, or its index is out of range. -/
theorem reads_argAt (args : List Arg) (index : Nat) : Reads (argAt args index) := by
  rw [argAt]
  split
  · exact reads_pure _
  · exact reads_fail _

/-- The complaint about an argument only reads. -/
theorem reads_unexpected (expected : String) (arg : Arg) :
    Reads (arg.unexpected expected : NativeM α) :=
  reads_get.bind fun _ => reads_fail _

/-- The whole number in an argument is read. -/
theorem reads_toInt (arg : Arg) : Reads arg.toInt := by
  cases arg with
  | int value => exact reads_pure value
  | _ => exact reads_unexpected _ _

/-- The float in an argument is read. -/
theorem reads_toFloat (arg : Arg) : Reads arg.toFloat := by
  cases arg with
  | float value => exact reads_pure value
  | int value => exact reads_pure _
  | _ => exact reads_unexpected _ _

/-- The object in an argument is read. -/
theorem reads_toObject (arg : Arg) : Reads arg.toObject? := by
  cases arg with
  | object p => exact reads_pure _
  | null => exact reads_pure _
  | _ => exact reads_unexpected _ _

/-- The text in an argument is read. -/
theorem reads_toText (arg : Arg) : Reads arg.toText := by
  cases arg with
  | object p =>
    refine (reads_object p).bind fun o => ?_
    split
    · exact reads_pure _
    · exact reads_fail _
  | _ => exact reads_unexpected _ _

end NativeM

namespace Parcel

open NativeM

/-! ### Parts of the core parcel -/

/-- The entries of a hash are read. -/
theorem reads_entries (p : ObjId) : Reads (Hash.entries p) := by
  refine (reads_object p).bind fun o => ?_
  split
  · exact reads_pure _
  · exact reads_fail _

/-- The elements of a vector are read. -/
theorem reads_elements (p : ObjId) : Reads (Vector.elements p) := by
  refine (reads_object p).bind fun o => ?_
  split
  · exact reads_pure _
  · exact reads_fail _

/-- The place that an argument stands for is read. -/
theorem reads_tick (arg : Arg) : Reads (Vector.tick arg) := by
  refine (reads_toInt arg).bind fun value => ?_
  split_ifs
  · exact reads_fail _
  · exact reads_pure _

/-- Taking a reference to an element is tidy. -/
theorem tidy_retainElement (element : Option ObjId) : Tidy (Vector.retain element) := by
  rcases element with _ | p
  · exact (reads_pure _).tidy
  · exact (tidy_retain p).bind_calm fun _ => calm_pure _

/-- Making the texts of keys never throws. -/
theorem calm_keyStrings : ∀ names : List String, Calm (Hash.keyStrings names)
  | [] => calm_pure _
  | _ :: rest => (calm_newString _).bind fun _ => (calm_keyStrings rest).bind fun _ => calm_pure _

/-- Tearing a hash down never throws. -/
theorem calm_hashDestroy (p : ObjId) : Calm (Hash.destroy p) := by
  refine (calm_object p).bind fun o => ?_
  split
  · exact (calm_setPayload _ _).bind fun _ => (calm_releaseAll _).bind fun _ => calm_pure _
  · exact calm_pure _

/-- Tearing a vector down never throws. -/
theorem calm_vectorDestroy (p : ObjId) : Calm (Vector.destroy p) := by
  refine (calm_object p).bind fun o => ?_
  split
  · exact (calm_setPayload _ _).bind fun _ => (calm_releaseAll _).bind fun _ => calm_pure _
  · exact calm_pure _

/-- The text of the argument at `index`, and what is done with it. -/
theorem tidy_textArg {args : List Arg} {index : Nat} {f : String → NativeM Ret}
    (hf : ∀ text, Tidy (f text)) : Tidy (do f (← (← argAt args index).toText)) :=
  (reads_argAt args index).bind_tidy fun arg => (reads_toText arg).bind_tidy hf

/-- Fetching from a hash is tidy. -/
theorem tidy_hashFetch (p : ObjId) (args : List Arg) : Tidy (Hash.fetch p args) := by
  refine tidy_textArg fun key => (reads_entries p).bind_tidy fun entries => ?_
  split
  · exact (tidy_retain _).bind_calm fun _ => calm_pure _
  · exact (reads_pure _).tidy

/-- Deleting from a hash is tidy. -/
theorem tidy_hashDelete (p : ObjId) (args : List Arg) : Tidy (Hash.delete p args) := by
  refine tidy_textArg fun key => (reads_entries p).bind_tidy fun entries => ?_
  split
  · exact ((calm_setPayload _ _).bind fun _ => calm_pure _).tidy
  · exact (reads_pure _).tidy

/-- Inserting in a vector is tidy: it checks the place before it takes the element. -/
theorem tidy_vectorInsert (p : ObjId) (args : List Arg) : Tidy (Vector.insert p args) := by
  refine (reads_argAt args 0).bind_tidy fun arg => (reads_tick arg).bind_tidy fun place => ?_
  refine (reads_argAt args 1).bind_tidy fun arg => (reads_toObject arg).bind_tidy fun element => ?_
  refine (reads_elements p).bind_tidy fun old => ?_
  split_ifs
  · exact (reads_fail _).tidy
  · exact (tidy_retainElement _).bind_calm fun _ =>
      (calm_setPayload _ _).bind fun _ => calm_pure _

/-- Fetching from a vector is tidy. -/
theorem tidy_vectorFetch (p : ObjId) (args : List Arg) : Tidy (Vector.fetch p args) := by
  refine (reads_argAt args 0).bind_tidy fun arg => (reads_tick arg).bind_tidy fun place => ?_
  refine (reads_elements p).bind_tidy fun elements => ?_
  split
  · exact (tidy_retain _).bind_calm fun _ => calm_pure _
  · exact (reads_pure _).tidy

/-- Popping from a vector is tidy. -/
theorem tidy_vectorPop (p : ObjId) : Tidy (Vector.pop p) := by
  refine (reads_elements p).bind_tidy fun old => ?_
  split
  · exact (reads_pure _).tidy
  · refine ((calm_setPayload _ _).bind fun _ => ?_).tidy
    split
    · exact calm_pure _
    · exact calm_pure _

/-- Asking an error for its message is tidy. -/
theorem tidy_errorMessage (p : ObjId) : Tidy (Failure.message p) := by
  refine (reads_object p).bind_tidy fun o => ?_
  split
  · exact ((calm_newString _).bind fun _ => calm_pure _).tidy
  · exact (reads_fail _).tidy

/-- Adding to the message of an error is tidy. -/
theorem tidy_errorAppend (p : ObjId) (args : List Arg) : Tidy (Failure.append p args) := by
  refine tidy_textArg fun extra => (reads_object p).bind_tidy fun o => ?_
  split
  · exact ((calm_setPayload _ _).bind fun _ => calm_pure _).tidy
  · exact (reads_fail _).tidy

/-- The query for a class is tidy. -/
theorem tidy_objectIsA (p : ObjId) (args : List Arg) : Tidy (Object.isA p args) := by
  refine tidy_textArg fun name => ?_
  refine (calm_consult.bind fun global => (calm_object p).bind fun o => ?_).tidy
  split
  · exact calm_pure _
  · exact calm_pure _

/-- Comparing texts only reads. -/
theorem reads_textEquals (p : ObjId) (args : List Arg) : Reads (Text.equals p args) := by
  refine (reads_argAt args 0).bind fun arg => (reads_toObject arg).bind fun other => ?_
  split
  · exact reads_pure _
  · refine (reads_object _).bind fun o => ?_
    split
    · exact reads_pure _
    · exact (reads_object p).bind fun _ => reads_pure _

/-- Comparing numbers only reads. -/
theorem reads_numberEquals (p : ObjId) (args : List Arg) : Reads (Number.equals p args) := by
  refine (reads_argAt args 0).bind fun arg => (reads_toObject arg).bind fun other => ?_
  split
  · exact reads_pure _
  · exact (reads_object p).bind fun _ => (reads_object _).bind fun _ => reads_pure _

/-! ### The core parcel -/

/-- The methods that take references before they look at the receiver. -/
def retainsFirst : List CoreMethod :=
  [.hashStore, .vectorPush, .vectorPushAll]

/-- **All methods but three throw cleanly.** -/
theorem runMethod_tidy (p : ObjId) (args : List Arg) {op : CoreMethod} (hop : op ∉ retainsFirst) :
    Tidy (runMethod p args op) := by
  cases op with
  | objectCount => exact ((reads_object p).bind fun _ => reads_pure _).tidy
  | objectRetain => exact (tidy_retain p).bind_calm fun _ => calm_pure _
  | objectRelease => exact ((calm_release p).bind fun _ => calm_pure _).tidy
  | objectClassName =>
    exact ((calm_object p).bind fun _ => (calm_newString _).bind fun _ => calm_pure _).tidy
  | objectIsA => exact tidy_objectIsA p args
  | objectEquals =>
    exact ((reads_argAt args 0).bind fun arg =>
      (reads_toObject arg).bind fun _ => reads_pure _).tidy
  | objectText =>
    exact ((calm_object p).bind fun _ => (calm_newString _).bind fun _ => calm_pure _).tidy
  | objectDestroy => exact (reads_pure _).tidy
  | stringLength => exact ((reads_toText _).bind fun _ => reads_pure _).tidy
  | stringStartsWith =>
    exact tidy_textArg fun _ => ((reads_toText _).bind fun _ => reads_pure _).tidy
  | stringConcat =>
    exact tidy_textArg fun _ => (reads_toText _).bind_tidy fun _ =>
      ((calm_object p).bind fun _ => (calm_alloc _ _).bind fun _ => calm_pure _).tidy
  | stringEquals => exact (reads_textEquals p args).tidy
  | stringText => exact (tidy_retain p).bind_calm fun _ => calm_pure _
  | stringBytes => exact ((reads_toText _).bind fun _ => reads_pure _).tidy
  | integerValue => exact ((reads_object p).bind fun _ => reads_pure _).tidy
  | floatValue => exact ((reads_object p).bind fun _ => reads_pure _).tidy
  | booleanValue => exact ((reads_object p).bind fun _ => reads_pure _).tidy
  | numberEquals => exact (reads_numberEquals p args).tidy
  | numberText =>
    exact ((calm_object p).bind fun _ => (calm_newString _).bind fun _ => calm_pure _).tidy
  | hashStore => exact absurd (by decide) hop
  | hashFetch => exact tidy_hashFetch p args
  | hashDelete => exact tidy_hashDelete p args
  | hashHasKey => exact tidy_textArg fun _ => ((reads_entries p).bind fun _ => reads_pure _).tidy
  | hashSize => exact ((reads_entries p).bind fun _ => reads_pure _).tidy
  | hashKeys =>
    exact (reads_entries p).bind_tidy fun _ => ((calm_keyStrings _).bind fun _ =>
      (calm_alloc _ _).bind fun _ => calm_pure _).tidy
  | hashDestroy => exact (calm_hashDestroy p).tidy
  | vectorPush => exact absurd (by decide) hop
  | vectorPushAll => exact absurd (by decide) hop
  | vectorInsert => exact tidy_vectorInsert p args
  | vectorFetch => exact tidy_vectorFetch p args
  | vectorPop => exact tidy_vectorPop p
  | vectorSize => exact ((reads_elements p).bind fun _ => reads_pure _).tidy
  | vectorDestroy => exact (calm_vectorDestroy p).tidy
  | errorMessage => exact tidy_errorMessage p
  | errorAppend => exact tidy_errorAppend p args

/-- The capacity of a hash is read. -/
theorem reads_hashCapacity (arg : Arg) : Reads (Hash.capacity arg) := by
  cases arg with
  | null => exact reads_pure 0
  | _ => exact (reads_toInt _).bind fun _ => reads_pure _

/-- The capacity of a vector is read. -/
theorem reads_vectorCapacity (arg : Arg) : Reads (Vector.capacity arg) := by
  cases arg with
  | null => exact reads_pure 0
  | _ => exact reads_tick _

/-- Constructors throw cleanly. -/
theorem runConstructor_tidy (cls : Class) (args : List Arg) (op : CoreConstructor) :
    Tidy (runConstructor cls args op) := by
  have hmake : ∀ payload, Calm (do return Ret.incremented (← alloc cls payload)) := fun payload =>
    (calm_alloc cls payload).bind fun _ => calm_pure _
  cases op with
  | string => exact tidy_textArg fun text => (hmake (.str text)).tidy
  | integer =>
    exact (reads_argAt args 0).bind_tidy fun arg => (reads_toInt arg).bind_tidy fun value =>
      (hmake (.integer value)).tidy
  | float =>
    exact (reads_argAt args 0).bind_tidy fun arg => (reads_toFloat arg).bind_tidy fun value =>
      (hmake (.float value)).tidy
  | hash =>
    refine (reads_argAt args 0).bind_tidy fun arg => ?_
    refine (reads_hashCapacity arg).bind_tidy fun room => ?_
    refine (reads_reserve _ room).bind_tidy fun reserved => ?_
    split_ifs
    · exact (hmake (.hash .empty)).tidy
    · exact (reads_fail _).tidy
  | vector =>
    refine (reads_argAt args 0).bind_tidy fun arg => ?_
    refine (reads_vectorCapacity arg).bind_tidy fun room => ?_
    refine (reads_reserve _ room).bind_tidy fun reserved => ?_
    split_ifs
    · exact (hmake (.vector [])).tidy
    · exact (reads_fail _).tidy
  | error => exact tidy_textArg fun message => (hmake (.err message)).tidy

/-- Functions throw cleanly, except for the one whose purpose is to throw. -/
theorem runFunction_tidy (args : List Arg) {op : CoreFunction} (hop : op ≠ .rethrow) :
    Tidy (runFunction args op) := by
  cases op with
  | isWhitespace =>
    exact ((reads_argAt args 0).bind fun arg => (reads_toInt arg).bind fun _ => reads_pure _).tidy
  | toBase36 =>
    refine (reads_argAt args 0).bind_tidy fun arg => (reads_toInt arg).bind_tidy fun value => ?_
    split_ifs
    · exact (reads_fail _).tidy
    · exact ((calm_newString _).bind fun _ => calm_pure _).tidy
  | rethrow => exact absurd rfl hop

end Parcel

end Interop

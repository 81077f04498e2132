/-
# Code that makes instances of some classes only

A licence allows instances of some classes, among them all that are not inert.  A heap is within
it if all its objects are instances of classes that it allows, and native code heeds it if it
leads from every heap within it to another one, whether it returns or throws.

**The core parcel heeds every licence** (`Parcel.runMethod_heeds`, `Parcel.runFunction_heeds`):
what its code makes by itself is a text, a vector or an error, and a text that is joined to
another is of the class of an object that is there.  Its constructors make instances of the
class that they are called for, so that class has to be allowed (`Parcel.runConstructor_heeds`).
If the linked code heeds a licence, then so does giving a reference back, which runs the methods
that tear objects down, however deep they nest (`Image.Heeds.machine`).
-/

import Interop.Proofs.Heap.Cells
import Interop.Proofs.Native.Tidy
import Interop.Proofs.Steps
import Interop.Sample.Native

namespace Interop

/-! ### Steps that keep a property -/

namespace Steps

variable {ε σ α β : Type} {P : σ → Prop} {Q : α → Prop} {x : EStateM ε σ α}
  {f : α → EStateM ε σ β}

/-- From a state with the property `P` the step leads to one with `P`, however it ends, and the
property `Q` holds of its result. -/
def Yields (P : σ → Prop) (Q : α → Prop) (x : EStateM ε σ α) : Prop :=
  ∀ s, P s → match x s with
    | .ok a s' => P s' ∧ Q a
    | .error _ s' => P s'

/-- From a state with the property the step leads to one with it, however it ends. -/
def Preserves (P : σ → Prop) (x : EStateM ε σ α) : Prop :=
  Yields P (fun _ => True) x

/-- What keeps a property and yields another keeps the first. -/
theorem Yields.preserves (hx : Yields P Q x) : Preserves P x := by
  intro s hs
  have hrun := hx s hs
  rcases hend : x s with ⟨a, s'⟩ | ⟨e, s'⟩ <;> rw [hend] at hrun
  · exact ⟨hrun.1, trivial⟩
  · exact hrun

/-- The second step starts from what the first yields. -/
theorem Yields.bind {R : β → Prop} (hx : Yields P Q x) (hf : ∀ a, Q a → Yields P R (f a)) :
    Yields P R (x >>= f) := by
  intro s hs
  have hrun := hx s hs
  rw [bind_apply]
  rcases hend : x s with ⟨a, s'⟩ | ⟨e, s'⟩ <;> rw [hend] at hrun
  · exact hf a hrun.2 s' hrun.1
  · exact hrun

/-- The second step starts from any answer of the first. -/
theorem Preserves.bind {R : β → Prop} (hx : Preserves P x) (hf : ∀ a, Yields P R (f a)) :
    Yields P R (x >>= f) :=
  Yields.bind hx fun a _ => hf a

/-- A value is yielded. -/
theorem yields_pure {a : α} (ha : Q a) : Yields P Q (pure a : EStateM ε σ α) :=
  fun _ hs => ⟨hs, ha⟩

/-- A value keeps every property. -/
theorem preserves_pure (a : α) : Preserves P (pure a : EStateM ε σ α) :=
  yields_pure trivial

/-- What fails yields nothing, and keeps every property. -/
theorem yields_throw (e : ε) : Yields P Q (throw e : EStateM ε σ α) :=
  fun _ hs => hs

/-- Reading the state keeps every property of it. -/
theorem preserves_get : Preserves P (get : EStateM ε σ σ) :=
  fun _ hs => ⟨hs, trivial⟩

/-- A change keeps the properties that survive it. -/
theorem preserves_modify {g : σ → σ} (hg : ∀ s, P s → P (g s)) :
    Preserves P (modify g : EStateM ε σ PUnit) :=
  fun s hs => ⟨hg s hs, trivial⟩

/-- A change with an answer keeps the properties that survive it. -/
theorem preserves_modifyGet {g : σ → α × σ} (hg : ∀ s, P s → P (g s).2) :
    Preserves P (modifyGet g : EStateM ε σ α) :=
  fun s hs => ⟨hg s hs, trivial⟩

end Steps

/-! ### Licences -/

/-- The classes of which there may be instances, all that are not inert among them. -/
structure Licence where
  allows : Class → Prop
  ordinary : ∀ c, c.isInert = false → allows c

namespace Licence

variable (l : Licence)

/-- What is read where there is no object is allowed. -/
theorem allows_obj : l.allows Parcel.obj := l.ordinary _ rfl

/-- Texts are allowed by every licence. -/
theorem allows_string : l.allows Parcel.string := l.ordinary _ rfl

/-- Vectors are allowed by every licence. -/
theorem allows_vector : l.allows Parcel.vector := l.ordinary _ rfl

/-- Errors are allowed by every licence. -/
theorem allows_err : l.allows Parcel.err := l.ordinary _ rfl

end Licence

/-- Every object is an instance of a class that the licence allows. -/
def Heap.Within (l : Licence) (h : Heap) : Prop :=
  ∀ p o, h.get? p = some o → l.allows o.cls

namespace Heap

variable {l : Licence} {h h' : Heap} {p : ObjId}

/-- What is read at a place is of a class that is allowed. -/
theorem Within.obj (d : h.Within l) (p : ObjId) : l.allows (h.obj p).cls := by
  rcases ho : h.get? p with _ | o
  · rw [obj_of_vacant ho]
    exact l.allows_obj
  · rw [obj_of_get? ho]
    exact d p o ho

/-- A change that leaves the class of the object alone. -/
theorem Within.modify (d : h.Within l) {f : Obj → Obj} (hf : ∀ o, (f o).cls = o.cls) :
    (h.modify p f).Within l := by
  intro q o ho
  rw [get?_modify] at ho
  split_ifs at ho with hq
  · obtain ⟨x, hx, rfl⟩ := Option.map_eq_some_iff.1 ho
    rw [hf]
    exact d _ x hx
  · exact d q o ho

/-- A count keeps a heap within a licence. -/
theorem Within.setCount (d : h.Within l) (count : Nat) : (h.setCount p count).Within l :=
  d.modify fun _ => rfl

/-- A payload keeps a heap within a licence. -/
theorem Within.setPayload (d : h.Within l) (payload : Payload) :
    (h.setPayload p payload).Within l :=
  d.modify fun _ => rfl

/-- A new object of a class that is allowed keeps a heap within a licence. -/
theorem Within.alloc (d : h.Within l) {c : Class} (hc : l.allows c) (payload : Payload) :
    (h.alloc c payload).2.Within l := by
  intro q o ho
  rw [get?_alloc] at ho
  split_ifs at ho
  · obtain rfl := Option.some.inj ho
    exact hc
  · exact d q o ho

/-- Freeing an object keeps a heap within a licence. -/
theorem Within.free (d : h.Within l) : (h.free p).Within l := by
  intro q o ho
  rw [get?_free] at ho
  split_ifs at ho
  exact d q o ho

/-- A fault keeps a heap within a licence. -/
theorem Within.recordFault (d : h.Within l) (fault : Fault) : (h.recordFault fault).Within l := d

/-- A reference that is taken keeps a heap within a licence. -/
theorem Within.retain (d : h.Within l) (hr : h.retain p = .ok h') : h'.Within l := by
  unfold Heap.retain at hr
  dsimp only at hr
  split_ifs at hr
  · exact Except.ok.inj hr ▸ d
  · exact Except.ok.inj hr ▸ d.setCount _

end Heap

/-! ### Native code -/

/-- Giving references back does not lead out of the licence. -/
def NativeEnv.Heeds (l : Licence) (env : NativeEnv) : Prop :=
  ∀ p h, h.Within l → (env.release p h).2.Within l

/-- The code does not lead out of the licence, if giving references back does not. -/
def NativeM.Heeds {α : Type} (l : Licence) (x : NativeM α) : Prop :=
  ∀ env : NativeEnv, env.Heeds l → Steps.Preserves (Heap.Within l) (x env)

namespace NativeM

variable {l : Licence} {α β : Type} {x : NativeM α} {f : α → NativeM β}

/-- Two steps that each heed a licence heed it together. -/
theorem Heeds.bind (hx : Heeds l x) (hf : ∀ a, Heeds l (f a)) : Heeds l (x >>= f) :=
  fun env henv => (hx env henv).bind fun a => hf a env henv

/-- All that code makes which reads is a plain error. -/
theorem Reads.heeds (hx : Reads x) : Heeds l x := by
  intro env _ h d
  rcases hx env h with ⟨a, ha⟩ | ⟨message, hfail⟩
  · rw [ha]
    exact ⟨d, trivial⟩
  · rw [hfail]
    exact d.alloc l.allows_err _

/-- A value heeds every licence. -/
theorem heeds_pure (a : α) : Heeds l (pure a : NativeM α) := (reads_pure a).heeds

/-- A throw heeds every licence. -/
theorem heeds_throw (t : Thrown) : Heeds l (throw t : NativeM α) := fun _ _ _ d => d

/-- Making an object of a class that is allowed heeds a licence. -/
theorem heeds_alloc {c : Class} (hc : l.allows c) (payload : Payload) :
    Heeds l (alloc c payload) :=
  fun _ _ _ d => ⟨d.alloc hc payload, trivial⟩

/-- A look at the registry heeds every licence. -/
theorem heeds_consult : Heeds l consult :=
  fun _ _ _ d => ⟨d, trivial⟩

/-- Making a text heeds every licence. -/
theorem heeds_newString (text : String) : Heeds l (newString text) :=
  heeds_alloc l.allows_string _

/-- Writing a payload heeds every licence. -/
theorem heeds_setPayload (p : ObjId) (payload : Payload) : Heeds l (setPayload p payload) :=
  fun _ _ _ d => ⟨d.setPayload payload, trivial⟩

/-- Giving a reference back heeds the licence that the environment heeds. -/
theorem heeds_release (p : ObjId) : Heeds l (release p) :=
  fun _ henv h d => ⟨henv p h d, trivial⟩

/-- Giving several references back heeds the licence that the environment heeds. -/
theorem heeds_releaseAll : ∀ ps : List ObjId, Heeds l (releaseAll ps)
  | [] => heeds_pure _
  | p :: rest => (heeds_release p).bind fun _ => heeds_releaseAll rest

/-- Taking a reference heeds every licence. -/
theorem heeds_retain (p : ObjId) : Heeds l (retain p) := by
  intro env henv h d
  rw [retain_apply]
  rcases hr : h.retain p with e | h'
  · exact d.alloc l.allows_err _
  · exact ⟨d.retain hr, trivial⟩

/-- An object that is read is of a class that is allowed. -/
theorem heeds_object_bind {p : ObjId} {f : Obj → NativeM β}
    (hf : ∀ o, l.allows o.cls → Heeds l (f o)) :
    Heeds l (object p >>= f) :=
  fun env henv h d => hf (h.obj p) (d.obj p) env henv h d

end NativeM

/-! ### The core parcel -/

namespace Parcel

open NativeM

variable {l : Licence} {p : ObjId} {args : List Arg}

/-- The text of the argument at `index`, and what is done with it. -/
theorem heeds_textArg {index : Nat} {f : String → NativeM Ret} (hf : ∀ text, Heeds l (f text)) :
    Heeds l (do f (← (← argAt args index).toText)) :=
  (reads_argAt args index).heeds.bind fun arg => (reads_toText arg).heeds.bind hf

/-- Answering an object with a new reference heeds every licence. -/
theorem heeds_retained (p : ObjId) : Heeds l (do return Ret.incremented (← retain p)) :=
  (heeds_retain p).bind fun _ => heeds_pure _

/-- Answering a new object heeds the licence that allows its class. -/
theorem heeds_made {c : Class} (hc : l.allows c) (payload : Payload) :
    Heeds l (do return Ret.incremented (← alloc c payload)) :=
  (heeds_alloc hc payload).bind fun _ => heeds_pure _

/-- Answering a new text heeds every licence. -/
theorem heeds_madeText (text : String) : Heeds l (do return Ret.incremented (← newString text)) :=
  heeds_made l.allows_string _

/-- Storing in a hash heeds every licence. -/
theorem heeds_hashStore : Heeds l (Hash.store p args) := by
  refine heeds_textArg fun key => (reads_argAt args 1).heeds.bind fun arg => ?_
  refine (reads_toObject arg).heeds.bind fun q => ?_
  rcases q with _ | q
  · exact (reads_fail _).heeds
  refine (heeds_retain q).bind fun value => (reads_entries p).heeds.bind fun old => ?_
  refine (heeds_setPayload p _).bind fun _ => ?_
  dsimp only
  rcases old.get? key with _ | replaced
  · exact heeds_pure _
  · exact (heeds_release replaced).bind fun _ => heeds_pure _

/-- Fetching from a hash heeds every licence. -/
theorem heeds_hashFetch : Heeds l (Hash.fetch p args) := by
  refine heeds_textArg fun key => (reads_entries p).heeds.bind fun entries => ?_
  split
  · exact heeds_retained _
  · exact heeds_pure _

/-- Deleting from a hash heeds every licence. -/
theorem heeds_hashDelete : Heeds l (Hash.delete p args) := by
  refine heeds_textArg fun key => (reads_entries p).heeds.bind fun old => ?_
  split
  · exact (heeds_setPayload p _).bind fun _ => heeds_pure _
  · exact heeds_pure _

/-- Making the texts of keys heeds every licence. -/
theorem heeds_keyStrings : ∀ names : List String, Heeds l (Hash.keyStrings names)
  | [] => heeds_pure _
  | name :: rest => (heeds_newString name).bind fun _ =>
      (heeds_keyStrings rest).bind fun _ => heeds_pure _

/-- Listing the keys of a hash heeds every licence. -/
theorem heeds_hashKeys : Heeds l (Hash.keys p) :=
  (reads_entries p).heeds.bind fun entries => (heeds_keyStrings entries.keys).bind fun _ =>
    heeds_made l.allows_vector _

/-- Tearing a hash down heeds every licence. -/
theorem heeds_hashDestroy : Heeds l (Hash.destroy p) := by
  refine (reads_object p).heeds.bind fun o => ?_
  split
  · exact (heeds_setPayload p _).bind fun _ => (heeds_releaseAll _).bind fun _ => heeds_pure _
  · exact heeds_pure _

/-- Taking a reference to an element heeds every licence. -/
theorem heeds_retainElement (element : Option ObjId) : Heeds l (Vector.retain element) := by
  rcases element with _ | q
  · exact heeds_pure _
  · exact (heeds_retain q).bind fun _ => heeds_pure _

/-- Pushing to a vector heeds every licence. -/
theorem heeds_vectorPush : Heeds l (Vector.push p args) :=
  (reads_argAt args 0).heeds.bind fun arg => (reads_toObject arg).heeds.bind fun q =>
    (heeds_retainElement q).bind fun _ => (reads_elements p).heeds.bind fun _ =>
      (heeds_setPayload p _).bind fun _ => heeds_pure _

/-- Taking references to several elements heeds every licence. -/
theorem heeds_retainAll : ∀ (elements : List (Option ObjId)) (taken : List ObjId),
    Heeds l (Vector.retainAll taken elements)
  | [], _ => heeds_pure _
  | none :: rest, taken => heeds_retainAll rest taken
  | some q :: rest, taken => by
    intro env henv h d
    unfold Vector.retainAll
    simp only [bind_apply, get_apply]
    rcases hr : h.retain q with e | h'
    · have hfail : Heeds l (alloc Parcel.err (.err e.message) >>= fun failure =>
          releaseAll taken >>= fun _ => (throw ⟨failure⟩ : NativeM Unit)) :=
        (heeds_alloc l.allows_err _).bind fun _ => (heeds_releaseAll taken).bind fun _ =>
          heeds_throw _
      exact hfail env henv h d
    · exact heeds_retainAll rest (taken ++ [q]) env henv h' (d.retain hr)

/-- Pushing all elements to a vector heeds every licence. -/
theorem heeds_vectorPushAll : Heeds l (Vector.pushAll p args) := by
  refine (reads_argAt args 0).heeds.bind fun arg => (reads_toObject arg).heeds.bind fun q => ?_
  rcases q with _ | q
  · exact (reads_fail _).heeds
  exact (reads_elements q).heeds.bind fun source => (heeds_retainAll source []).bind fun _ =>
    (reads_elements p).heeds.bind fun _ => (heeds_setPayload p _).bind fun _ => heeds_pure _

/-- Inserting in a vector heeds every licence. -/
theorem heeds_vectorInsert : Heeds l (Vector.insert p args) := by
  refine (reads_argAt args 0).heeds.bind fun arg => (reads_tick arg).heeds.bind fun place => ?_
  refine (reads_argAt args 1).heeds.bind fun arg => (reads_toObject arg).heeds.bind fun q => ?_
  refine (reads_elements p).heeds.bind fun old => ?_
  split_ifs
  · exact (reads_fail _).heeds
  · exact (heeds_retainElement q).bind fun _ => (heeds_setPayload p _).bind fun _ => heeds_pure _

/-- Fetching from a vector heeds every licence. -/
theorem heeds_vectorFetch : Heeds l (Vector.fetch p args) := by
  refine (reads_argAt args 0).heeds.bind fun arg => (reads_tick arg).heeds.bind fun place => ?_
  refine (reads_elements p).heeds.bind fun elements => ?_
  split
  · exact heeds_retained _
  · exact heeds_pure _

/-- Popping from a vector heeds every licence. -/
theorem heeds_vectorPop : Heeds l (Vector.pop p) := by
  refine (reads_elements p).heeds.bind fun old => ?_
  split
  · exact heeds_pure _
  · refine (heeds_setPayload p _).bind fun _ => ?_
    split
    · exact heeds_pure _
    · exact heeds_pure _

/-- Tearing a vector down heeds every licence. -/
theorem heeds_vectorDestroy : Heeds l (Vector.destroy p) := by
  refine (reads_object p).heeds.bind fun o => ?_
  split
  · exact (heeds_setPayload p _).bind fun _ => (heeds_releaseAll _).bind fun _ => heeds_pure _
  · exact heeds_pure _

/-- A text that is made of two is of the class of the first, which is there already. -/
theorem heeds_textConcat : Heeds l (Text.concat p args) :=
  heeds_textArg fun _ => (reads_toText _).heeds.bind fun _ =>
    heeds_object_bind fun _ ho => heeds_made ho _

/-- Asking an error for its message heeds every licence. -/
theorem heeds_errorMessage : Heeds l (Failure.message p) := by
  refine (reads_object p).heeds.bind fun o => ?_
  split
  · exact heeds_madeText _
  · exact (reads_fail _).heeds

/-- Adding to the message of an error heeds every licence. -/
theorem heeds_errorAppend : Heeds l (Failure.append p args) := by
  refine heeds_textArg fun extra => (reads_object p).heeds.bind fun o => ?_
  split
  · exact (heeds_setPayload p _).bind fun _ => heeds_pure _
  · exact (reads_fail _).heeds

/-- **Methods of the core parcel** heed every licence. -/
theorem runMethod_heeds (op : CoreMethod) : Heeds l (runMethod p args op) := by
  cases op with
  | objectCount => exact (reads_object p).heeds.bind fun _ => heeds_pure _
  | objectRetain => exact heeds_retained p
  | objectRelease => exact (heeds_release p).bind fun _ => heeds_pure _
  | objectClassName => exact (reads_object p).heeds.bind fun _ => heeds_madeText _
  | objectIsA =>
    refine heeds_textArg fun name => heeds_consult.bind fun global =>
      (reads_object p).heeds.bind fun o => ?_
    split <;> exact heeds_pure _
  | objectEquals =>
    exact (reads_argAt args 0).heeds.bind fun arg =>
      (reads_toObject arg).heeds.bind fun _ => heeds_pure _
  | objectText => exact (reads_object p).heeds.bind fun _ => heeds_madeText _
  | objectDestroy => exact heeds_pure _
  | stringLength => exact (reads_toText _).heeds.bind fun _ => heeds_pure _
  | stringStartsWith =>
    exact heeds_textArg fun _ => (reads_toText _).heeds.bind fun _ => heeds_pure _
  | stringConcat => exact heeds_textConcat
  | stringEquals => exact (reads_textEquals p args).heeds
  | stringText => exact heeds_retained p
  | stringBytes => exact (reads_toText _).heeds.bind fun _ => heeds_pure _
  | integerValue => exact (reads_object p).heeds.bind fun _ => heeds_pure _
  | floatValue => exact (reads_object p).heeds.bind fun _ => heeds_pure _
  | booleanValue => exact (reads_object p).heeds.bind fun _ => heeds_pure _
  | numberEquals => exact (reads_numberEquals p args).heeds
  | numberText => exact (reads_object p).heeds.bind fun _ => heeds_madeText _
  | hashStore => exact heeds_hashStore
  | hashFetch => exact heeds_hashFetch
  | hashDelete => exact heeds_hashDelete
  | hashHasKey => exact heeds_textArg fun _ => (reads_entries p).heeds.bind fun _ => heeds_pure _
  | hashSize => exact (reads_entries p).heeds.bind fun _ => heeds_pure _
  | hashKeys => exact heeds_hashKeys
  | hashDestroy => exact heeds_hashDestroy
  | vectorPush => exact heeds_vectorPush
  | vectorPushAll => exact heeds_vectorPushAll
  | vectorInsert => exact heeds_vectorInsert
  | vectorFetch => exact heeds_vectorFetch
  | vectorPop => exact heeds_vectorPop
  | vectorSize => exact (reads_elements p).heeds.bind fun _ => heeds_pure _
  | vectorDestroy => exact heeds_vectorDestroy
  | errorMessage => exact heeds_errorMessage
  | errorAppend => exact heeds_errorAppend

/-- **Constructors of the core parcel** make instances of the class that they are called for. -/
theorem runConstructor_heeds {c : Class} (hc : l.allows c) (op : CoreConstructor) :
    Heeds l (runConstructor c args op) := by
  cases op with
  | string => exact heeds_textArg fun _ => heeds_made hc _
  | integer =>
    exact (reads_argAt args 0).heeds.bind fun arg => (reads_toInt arg).heeds.bind fun _ =>
      heeds_made hc _
  | float =>
    exact (reads_argAt args 0).heeds.bind fun arg => (reads_toFloat arg).heeds.bind fun _ =>
      heeds_made hc _
  | hash =>
    refine (reads_argAt args 0).heeds.bind fun arg => ?_
    refine (reads_hashCapacity arg).heeds.bind fun room => ?_
    refine (reads_reserve _ room).heeds.bind fun reserved => ?_
    split_ifs
    · exact heeds_made hc _
    · exact (reads_fail _).heeds
  | vector =>
    refine (reads_argAt args 0).heeds.bind fun arg => ?_
    refine (reads_vectorCapacity arg).heeds.bind fun room => ?_
    refine (reads_reserve _ room).heeds.bind fun reserved => ?_
    split_ifs
    · exact heeds_made hc _
    · exact (reads_fail _).heeds
  | error => exact heeds_textArg fun _ => heeds_made hc _

/-- **Functions of the core parcel** heed every licence. -/
theorem runFunction_heeds (op : CoreFunction) : Heeds l (runFunction args op) := by
  cases op with
  | isWhitespace =>
    exact (reads_argAt args 0).heeds.bind fun arg =>
      (reads_toInt arg).heeds.bind fun _ => heeds_pure _
  | toBase36 =>
    refine (reads_argAt args 0).heeds.bind fun arg => (reads_toInt arg).heeds.bind fun value => ?_
    split_ifs
    · exact (reads_fail _).heeds
    · exact heeds_madeText _
  | rethrow =>
    refine (reads_argAt args 0).heeds.bind fun arg => (reads_toObject arg).heeds.bind fun q => ?_
    rcases q with _ | q
    · exact (reads_fail _).heeds
    · exact (heeds_retain q).bind fun _ => heeds_throw _

end Parcel

/-! ### Linked code -/

/-- The linked code heeds the licence: methods and functions make no instance of a class that is
not allowed, and a constructor makes none of another class than it is called for. -/
structure Image.Heeds (l : Licence) (image : Image) : Prop where
  onObject : ∀ symbol p args, (image.onObject symbol p args).Heeds l
  onClass : ∀ symbol c args, l.allows c → (image.onClass symbol c args).Heeds l
  onNothing : ∀ symbol args, (image.onNothing symbol args).Heeds l

namespace Image

variable {l : Licence} {image : Image} {p : ObjId} {h : Heap} {env : NativeEnv}

/-- An image that heeds a licence does so when it runs code on an object. -/
theorem Heeds.runOnObject (hi : image.Heeds l) (routine : Routine CoreMethod) (p : ObjId)
    (args : List Arg) : (image.runOnObject routine p args).Heeds l := by
  rcases routine with op | symbol
  · exact Parcel.runMethod_heeds op
  · exact hi.onObject symbol p args

/-- An image that heeds a licence does so when it runs code for a class that is allowed. -/
theorem Heeds.runOnClass (hi : image.Heeds l) (routine : Routine CoreConstructor) {c : Class}
    (hc : l.allows c) (args : List Arg) : (image.runOnClass routine c args).Heeds l := by
  rcases routine with op | symbol
  · exact Parcel.runConstructor_heeds hc op
  · exact hi.onClass symbol c args hc

/-- An image that heeds a licence does so when it runs code on nothing. -/
theorem Heeds.runOnNothing (hi : image.Heeds l) (routine : Routine CoreFunction)
    (args : List Arg) : (image.runOnNothing routine args).Heeds l := by
  rcases routine with op | symbol
  · exact Parcel.runFunction_heeds op
  · exact hi.onNothing symbol args

/-- **Tearing an object down** runs a method, which heeds the licence. -/
theorem Heeds.teardown (hi : image.Heeds l) (henv : env.Heeds l) (d : h.Within l) :
    (image.teardown env p h).Within l := by
  refine Heap.Within.free ?_
  rcases (h.obj p).cls.method? "Destroy" with _ | m
  · exact d
  rcases hcode : m.code with routine | routine | routine
  case onObject =>
    have hrun := hi.runOnObject routine p [] env henv h d
    simp only [hcode]
    rcases hend : image.runOnObject routine p [] env h with ⟨ret, h'⟩ | ⟨t, h'⟩ <;>
      rw [hend] at hrun
    · exact hrun.1
    · exact henv t.object h' hrun
  all_goals simpa only [hcode] using d

/-- **Giving a reference back,** however deep the teardowns nest: by induction on the depth, as
what the teardown gives back is one deeper. -/
theorem Heeds.releaseAt (hi : image.Heeds l) (global : Registry) (depth : Nat) :
    NativeEnv.Heeds l ⟨image.releaseAt global depth, global, image.memory⟩ := by
  induction depth with
  | zero => exact fun _ _ d => d.recordFault _
  | succ depth ih =>
    intro p h d
    show (image.releaseAt global (depth + 1) p h).2.Within l
    unfold Image.releaseAt
    dsimp only
    split_ifs
    · exact d
    · rcases (h.obj p).refcount with _ | _ | left
      · exact d.recordFault _
      · exact hi.teardown ih (d.setCount 0)
      · exact d.setCount _

end Image

/-- Giving references back from outside does not lead out of the licence. -/
def Machine.Heeds (l : Licence) (m : Machine) : Prop :=
  ∀ global, (m.env global).Heeds l

/-- A machine whose linked code heeds the licence. -/
theorem Image.Heeds.machine {l : Licence} {m : Machine} (hi : m.image.Heeds l) : m.Heeds l :=
  fun global p h d => hi.releaseAt global (h.live + m.headroom + 1) p h d

/-! ### The sample code -/

namespace Sample

open NativeM

variable {l : Licence}

/-- The linked functions of the sample heed every licence. -/
theorem function_heeds (symbol : String) (args : List Arg) : Heeds l (function symbol args) := by
  unfold function
  split
  case h_7 => exact (reads_argAt args 0).heeds.bind fun _ => heeds_pure _
  case h_10 => exact reads_get.heeds.bind fun _ => Parcel.heeds_madeText _
  case h_12 => exact (reads_argAt args 0).heeds.bind fun arg =>
    (reads_toText arg).heeds.bind fun _ => (reads_fail _).heeds
  case h_6 | h_13 | h_14 => exact (reads_fail _).heeds
  all_goals exact heeds_pure _

/-- The linked methods of the sample heed every licence. -/
theorem method_heeds (symbol : String) (p : ObjId) (args : List Arg) :
    Heeds l (method symbol p args) := by
  unfold method
  split
  · exact (reads_object p).heeds.bind fun _ => heeds_pure _
  · exact heeds_pure _
  · exact Parcel.heeds_retained p
  · exact (heeds_retain p).bind fun _ => heeds_throw _
  · exact function_heeds symbol args

/-- The linked constructors of the sample heed the licences that allow the class. -/
theorem constructor_heeds (symbol : String) {c : Class} (hc : l.allows c) (args : List Arg) :
    Heeds l (constructor symbol c args) := by
  unfold constructor
  split
  · exact (reads_argAt args 0).heeds.bind fun arg => (reads_toInt arg).heeds.bind fun _ =>
      Parcel.heeds_made hc _
  · exact (reads_argAt args 0).heeds.bind fun arg => (reads_toFloat arg).heeds.bind fun _ =>
      Parcel.heeds_made hc _
  · refine (reads_argAt args 0).heeds.bind fun arg => ?_
    refine Heeds.bind (Reads.heeds ?_) fun _ => Parcel.heeds_made hc _
    cases arg with
    | bool value => exact reads_pure value
    | _ => exact reads_unexpected _ _
  · exact Parcel.heeds_textArg fun _ => Parcel.heeds_made hc _
  · exact Parcel.heeds_textArg fun _ => Parcel.heeds_made hc _
  · exact Parcel.heeds_made hc _
  · exact Parcel.heeds_made hc _
  · exact Parcel.heeds_made hc _
  · exact function_heeds symbol args

/-- **The sample code** heeds every licence. -/
theorem image_heeds (l : Licence) : image.Heeds l where
  onObject := method_heeds
  onClass symbol _ args hc := constructor_heeds symbol hc args
  onNothing := function_heeds

end Sample

end Interop

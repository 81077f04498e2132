/-
# What the code of the core parcel asks for

The bodies of the core parcel read their arguments by position and kind.  What each of them
asks for is listed here as types (`CoreMethod.asks`), with the class whose payload it reads in
its receiver (`CoreMethod.reads?`) and the references that it takes (`CoreMethod.takes`).

A body that gets what it asks for answers (`Parcel.runMethod_answers`).  Two things remain
that no type can promise: a place in a vector may lie beyond its end, and a capacity may be
too large.  `CoreMethod.limit?` and `CoreConstructor.limit?` say when this is so and what the
plain error then says, and that nothing else was done.  Throwing again is no answer: it throws
its argument (`Parcel.rethrow_throws`).
-/

import Interop.Proofs.Native.Convention
import Mathlib.Data.List.Forall2

namespace Interop

/-! ### Room for references -/

namespace Heap

variable {h h' : Heap} {p q : ObjId} {ps : List ObjId}

/-- No count is exceeded when the references in `ps` are taken. -/
def Room (h : Heap) (ps : List ObjId) : Prop :=
  ∀ p ∈ ps, (h.obj p).immortal = false → (h.obj p).refcount + ps.count p ≤ maxCount

instance (h : Heap) (ps : List ObjId) : Decidable (h.Room ps) :=
  inferInstanceAs (Decidable (∀ p ∈ ps, _ → _))

/-- A new count changes one object and leaves the others. -/
theorem obj_setCount (p q : ObjId) (count : Nat) : (h.setCount p count).obj q =
    if q = p ∧ (h.get? p).isSome then { h.obj q with refcount := count } else h.obj q := by
  rw [obj, obj, setCount, get?_modify]
  by_cases hqp : q = p
  · subst hqp
    rcases h.get? q with _ | o <;> simp
  · simp [hqp]

/-- One reference more raises one count by one at most. -/
theorem refcount_retain (hr : h.retain p = .ok h') (q : ObjId) :
    (h'.obj q).immortal = (h.obj q).immortal ∧
      (h'.obj q).refcount ≤ (h.obj q).refcount + if q = p then 1 else 0 := by
  rw [retain] at hr
  split_ifs at hr with himm hmax
  · obtain rfl := Except.ok.inj hr
    exact ⟨rfl, Nat.le_add_right _ _⟩
  · obtain rfl := Except.ok.inj hr
    rw [obj_setCount]
    split_ifs with hboth hqp hqp
    · obtain ⟨rfl, -⟩ := hboth
      exact ⟨rfl, le_rfl⟩
    · exact absurd hboth.1 hqp
    · exact ⟨rfl, Nat.le_succ _⟩
    · exact ⟨rfl, le_rfl⟩

/-- Where there is room for all references, they can be taken in turn. -/
theorem retainAll_of_room : ∀ {ps : List ObjId} {h : Heap}, h.Room ps →
    ∃ h', retainAll ps h = .ok h'
  | [], h, _ => ⟨h, rfl⟩
  | p :: ps, h, room => by
    obtain ⟨h₁, hr⟩ : ∃ h₁, h.retain p = .ok h₁ := by
      have hp := room p List.mem_cons_self
      rw [retain]
      rcases himm : (h.obj p).immortal with _ | _
      · have hle := hp himm
        rw [List.count_cons_self] at hle
        have hlt : (h.obj p).refcount < maxCount := by omega
        simp [hlt]
      · simp
    obtain ⟨h', hall⟩ : ∃ h', retainAll ps h₁ = .ok h' := by
      refine retainAll_of_room fun q hq himm => ?_
      obtain ⟨hsame, hle⟩ := refcount_retain hr q
      have hroom := room q (List.mem_cons_of_mem p hq) (hsame ▸ himm)
      rw [List.count_cons] at hroom
      by_cases hqp : q = p
      · subst hqp
        simp only [if_true, beq_self_eq_true] at hle hroom
        omega
      · simp only [if_neg hqp] at hle
        omega
    refine ⟨h', ?_⟩
    rw [retainAll, hr]
    exact hall

/-- A reference is taken where there is room for it. -/
theorem retain_of_room (room : h.Room [p]) : ∃ h', h.retain p = .ok h' := by
  obtain ⟨h', hall⟩ := retainAll_of_room room
  exact ⟨h', retainAll_one hall⟩

end Heap

/-! ### What is asked for -/

/-- Code that asks for an argument of the type `spec` can use this one: it is of the kind of
the type, a text holds a text, and what has to be a vector holds elements. -/
def Arg.Fits (h : Heap) (spec : TypeSpec) : Arg → Prop
  | .null => spec.nullable = true
  | .bool _ => spec.kind = .bool
  | .int n => ∃ width, spec.kind = .int width ∧ width.low ≤ n.toInt
  | .float _ => spec.kind = .float
  | .object p =>
    (spec.kind = .text ∧ ∃ text, (h.obj p).payload.text? = some text) ∨
      ∃ constraint, spec.kind = .object constraint ∧ (constraint = some Parcel.vector.name →
        ∃ elements, (h.obj p).payload = .vector elements)

/-- Every argument fits the type that is asked for in its place. -/
def Arg.AllFit (h : Heap) (specs : List TypeSpec) (args : List Arg) : Prop :=
  List.Forall₂ (fun spec arg => Arg.Fits h spec arg) specs args

namespace CoreMethod

/-- What the body asks for, in the order of its arguments. -/
def asks : CoreMethod → List TypeSpec
  | .objectIsA | .stringStartsWith | .stringConcat | .errorAppend => [Parcel.text]
  | .hashFetch | .hashDelete | .hashHasKey => [Parcel.text]
  | .objectEquals | .stringEquals | .numberEquals | .vectorPush => [Parcel.maybeObject]
  | .hashStore => [Parcel.text, Parcel.anyObject]
  | .vectorPushAll => [⟨.object (some Parcel.vector.name), false⟩]
  | .vectorInsert => [Parcel.size, Parcel.maybeObject]
  | .vectorFetch => [Parcel.size]
  | _ => []

/-- The class whose payload the body reads in its receiver. -/
def reads? : CoreMethod → Option Class
  | .stringLength | .stringStartsWith | .stringConcat | .stringBytes => some Parcel.string
  | .hashStore | .hashFetch | .hashDelete | .hashHasKey | .hashSize | .hashKeys =>
    some Parcel.hash
  | .vectorPush | .vectorPushAll | .vectorInsert | .vectorFetch | .vectorPop | .vectorSize =>
    some Parcel.vector
  | .errorMessage | .errorAppend => some Parcel.err
  | _ => none

/-- The value that is to be fetched from a hash. -/
def fetchedValue (h : Heap) (p : ObjId) : List Arg → List ObjId
  | .object key :: _ =>
    match (h.obj p).payload, (h.obj key).payload.text? with
    | .hash entries, some text => (entries.get? text).toList
    | _, _ => []
  | _ => []

/-- The element that is to be fetched from a vector. -/
def fetchedElement (h : Heap) (p : ObjId) : List Arg → List ObjId
  | .int tick :: _ =>
    match (h.obj p).payload with
    | .vector elements => (elements[tick.toInt.toNat]?).join.toList
    | _ => []
  | _ => []

/-- The element that is to be put at a place. -/
def insertedElement : List Arg → List ObjId
  | _ :: .object element :: _ => [element]
  | _ => []

/-- The references that the body takes. -/
def takes (h : Heap) (p : ObjId) (args : List Arg) : CoreMethod → List ObjId
  | .objectRetain => [p]
  | .stringText => [p]
  | .hashFetch => fetchedValue h p args
  | .vectorInsert => insertedElement args
  | .vectorFetch => fetchedElement h p args
  | op => Parcel.takenFirst h args op

/-- What is thrown for a place beyond the end of a vector. -/
def beyond? (h : Heap) (p : ObjId) : List Arg → Option String
  | .int tick :: _ =>
    match (h.obj p).payload with
    | .vector elements =>
      if tick.toInt.toNat > elements.length then
        some ("Tick " ++ toString tick.toInt.toNat ++ " out of bounds for vector of size " ++
          toString elements.length)
      else none
    | _ => none
  | _ => none

/-- What the body throws although it got what it asks for. -/
def limit? (h : Heap) (p : ObjId) (args : List Arg) : CoreMethod → Option String
  | .vectorInsert => beyond? h p args
  | _ => none

end CoreMethod

namespace CoreConstructor

/-- What the body asks for, in the order of its arguments. -/
def asks : CoreConstructor → List TypeSpec
  | .string | .error => [Parcel.text]
  | .integer => [Parcel.longInt]
  | .float => [Parcel.double]
  | .hash | .vector => [Parcel.maybeSize]

/-- What is thrown for a capacity that cannot be reserved. -/
def capacityLimit? (room : Nat → Bool) (message : String) : List Arg → Option String
  | .int n :: _ =>
    if room n.toInt.toNat then none else some (message ++ toString n.toInt.toNat)
  | _ => none

/-- What the body throws although it got what it asks for. -/
def limit? (memory : Memory) (args : List Arg) : CoreConstructor → Option String
  | .hash => capacityLimit? memory.hashRoom "Cannot allocate a hash of capacity " args
  | .vector => capacityLimit? memory.vectorRoom "Cannot allocate a vector of capacity " args
  | _ => none

/-- Whatever the allocator grants, a hash for as many entries as would fill half of the addresses
is refused. -/
theorem limit?_hash_of_large (memory : Memory) {n : Int64} (hn : 2 ^ 57 ≤ n.toInt) :
    limit? memory [.int n] .hash =
      some ("Cannot allocate a hash of capacity " ++ toString n.toInt.toNat) := by
  have hlarge : ¬ memory.hashRoom n.toInt.toNat = true := fun h => by
    have := memory.hashRoom_bounded _ h
    omega
  rw [limit?, capacityLimit?, if_neg hlarge]

/-- And so is a vector of as many elements. -/
theorem limit?_vector_of_large (memory : Memory) {n : Int64} (hn : 2 ^ 60 ≤ n.toInt) :
    limit? memory [.int n] .vector =
      some ("Cannot allocate a vector of capacity " ++ toString n.toInt.toNat) := by
  have hlarge : ¬ memory.vectorRoom n.toInt.toNat = true := fun h => by
    have := memory.vectorRoom_bounded _ h
    omega
  rw [limit?, capacityLimit?, if_neg hlarge]

end CoreConstructor

/-- What the body asks for, in the order of its arguments. -/
def CoreFunction.asks : CoreFunction → List TypeSpec
  | .isWhitespace => [⟨.int .i32, false⟩]
  | .toBase36 => [Parcel.size]
  | .rethrow => [⟨.object (some Parcel.err.name), false⟩]

/-! ### Answers -/

namespace NativeM

variable {α β : Type} {x : NativeM α} {f : α → NativeM β} {env : NativeEnv} {h h₁ : Heap}

/-- The code returns something. -/
def Returns (x : NativeM α) (env : NativeEnv) (h : Heap) : Prop :=
  ∃ a h', x env h = .ok a h'

/-- A value is returned. -/
theorem Returns.pure (a : α) : Returns (Pure.pure a) env h :=
  ⟨a, h, rfl⟩

/-- The second step returns from where the first ended. -/
theorem Returns.bind {a : α} (hx : x env h = .ok a h₁) (hf : Returns (f a) env h₁) :
    Returns (x >>= f) env h := by
  obtain ⟨b, h', hb⟩ := hf
  exact ⟨b, h', by rw [bind_of_ok hx, hb]⟩

/-- Code that does the same here. -/
theorem Returns.of_eq {y : NativeM α} (heq : x env h = y env h) (hy : Returns y env h) :
    Returns x env h := by
  rwa [Returns, heq]

/-- The code answers: it returns, or where there is a limit it throws the plain error that
`limit?` gives and does nothing else. -/
def Answers (limit? : Option String) (x : NativeM α) (env : NativeEnv) (h : Heap) : Prop :=
  match limit? with
  | some message => x env h = fail message env h
  | none => x.Returns env h

end NativeM

namespace Parcel

open NativeM

variable {α : Type} {env : NativeEnv} {h : Heap} {p : ObjId} {args : List Arg}

/-! ### Arguments that fit -/

/-- An argument for a text holds one. -/
theorem text_of_fits {arg : Arg} (harg : arg.Fits h text) :
    ∃ q value, arg = .object q ∧ (h.obj q).payload.text? = some value := by
  cases arg with
  | object q =>
    rcases harg with ⟨-, value, hvalue⟩ | ⟨_, hkind, -⟩
    · exact ⟨q, value, rfl, hvalue⟩
    · exact absurd hkind (by simp [text])
  | int n => exact absurd harg.choose_spec.1 (by simp [text])
  | _ => exact absurd harg (by simp [Arg.Fits, text])

/-- An argument for an object is one, with elements if it has to be a vector. -/
theorem object_of_fits {arg : Arg} {constraint : Option String}
    (harg : arg.Fits h ⟨.object constraint, false⟩) :
    ∃ q, arg = .object q ∧ (constraint = some vector.name →
      ∃ elements, (h.obj q).payload = .vector elements) := by
  cases arg with
  | object q =>
    rcases harg with ⟨hkind, -⟩ | ⟨_, hkind, helements⟩
    · exact absurd hkind (by simp)
    · obtain rfl := TypeKind.object.inj hkind
      exact ⟨q, rfl, helements⟩
  | int n => exact absurd harg.choose_spec.1 (by simp)
  | _ => exact absurd harg (by simp [Arg.Fits])

/-- An argument for an object that may be null is null or an object. -/
theorem maybeObject_of_fits {arg : Arg} (harg : arg.Fits h maybeObject) :
    arg = .null ∨ ∃ q, arg = .object q := by
  cases arg with
  | null => exact Or.inl rfl
  | object q => exact Or.inr ⟨q, rfl⟩
  | int n => exact absurd harg.choose_spec.1 (by simp [maybeObject])
  | _ => exact absurd harg (by simp [Arg.Fits, maybeObject])

/-- An argument for a whole number is one, and not below its width. -/
theorem int_of_fits {arg : Arg} {width : IntWidth} (harg : arg.Fits h ⟨.int width, false⟩) :
    ∃ n : Int64, arg = .int n ∧ width.low ≤ n.toInt := by
  cases arg with
  | int n =>
    obtain ⟨_, hkind, hlow⟩ := harg
    obtain rfl := TypeKind.int.inj hkind
    exact ⟨n, rfl, hlow⟩
  | object q => rcases harg with ⟨hkind, -⟩ | ⟨_, hkind, -⟩ <;> exact absurd hkind (by simp)
  | _ => exact absurd harg (by simp [Arg.Fits])

/-- An argument for a size that may be null is null or a number that is not negative. -/
theorem maybeSize_of_fits {arg : Arg} (harg : arg.Fits h maybeSize) :
    arg = .null ∨ ∃ n : Int64, arg = .int n ∧ 0 ≤ n.toInt := by
  cases arg with
  | null => exact Or.inl rfl
  | int n =>
    obtain ⟨_, hkind, hlow⟩ := harg
    obtain rfl := TypeKind.int.inj hkind
    exact Or.inr ⟨n, rfl, hlow⟩
  | object q =>
    rcases harg with ⟨hkind, -⟩ | ⟨_, hkind, -⟩ <;> exact absurd hkind (by simp [maybeSize])
  | _ => exact absurd harg (by simp [Arg.Fits, maybeSize])

/-- An argument for a float is one. -/
theorem double_of_fits {arg : Arg} (harg : arg.Fits h double) : ∃ x, arg = .float x := by
  cases arg with
  | float x => exact ⟨x, rfl⟩
  | int n => exact absurd harg.choose_spec.1 (by simp [double])
  | object q =>
    rcases harg with ⟨hkind, -⟩ | ⟨_, hkind, -⟩ <;> exact absurd hkind (by simp [double])
  | _ => exact absurd harg (by simp [Arg.Fits, double])

/-- Arguments for one parameter. -/
theorem fits_one {spec : TypeSpec} (hargs : Arg.AllFit h [spec] args) :
    ∃ arg, args = [arg] ∧ arg.Fits h spec := by
  obtain ⟨arg, _, harg, hnil, rfl⟩ := List.forall₂_cons_left_iff.1 hargs
  obtain rfl := List.forall₂_nil_left_iff.1 hnil
  exact ⟨arg, rfl, harg⟩

/-- Arguments for two parameters. -/
theorem fits_two {spec spec' : TypeSpec}
    (hargs : Arg.AllFit h [spec, spec'] args) :
    ∃ arg arg', args = [arg, arg'] ∧ arg.Fits h spec ∧ arg'.Fits h spec' := by
  obtain ⟨arg, _, harg, hrest, rfl⟩ := List.forall₂_cons_left_iff.1 hargs
  obtain ⟨arg', rfl, harg'⟩ := fits_one hrest
  exact ⟨arg, arg', rfl, harg, harg'⟩

/-- Code that begins by reading a text. -/
theorem returns_text {f : String → NativeM α} (hargs : Arg.AllFit h [text] args)
    (hf : ∀ value q, args = [.object q] → (h.obj q).payload.text? = some value →
      (f value).Returns env h) :
    (argAt args 0 >>= fun arg => arg.toText >>= f).Returns env h := by
  obtain ⟨arg, rfl, harg⟩ := fits_one hargs
  obtain ⟨q, value, rfl, hvalue⟩ := text_of_fits harg
  exact .bind (argAt_run env h rfl) (.bind (toText_run env hvalue) (hf value q rfl hvalue))

/-- Code that begins by reading an object or null. -/
theorem returns_maybeObject {f : Option ObjId → NativeM α}
    (hargs : Arg.AllFit h [maybeObject] args)
    (hnone : args = [.null] → (f none).Returns env h)
    (hsome : ∀ q, args = [.object q] → (f (some q)).Returns env h) :
    (argAt args 0 >>= fun arg => arg.toObject? >>= f).Returns env h := by
  obtain ⟨arg, rfl, harg⟩ := fits_one hargs
  rcases maybeObject_of_fits harg with rfl | ⟨q, rfl⟩
  · exact .bind (argAt_run env h rfl) (.bind rfl (hnone rfl))
  · exact .bind (argAt_run env h rfl) (.bind rfl (hsome q rfl))

/-- Reading a place. -/
theorem tick_run (env : NativeEnv) (h : Heap) {n : Int64} (hn : 0 ≤ n.toInt) :
    Vector.tick (.int n) env h = .ok n.toInt.toNat h := by
  have hnot : ¬ n.toInt < 0 := by omega
  show (if n.toInt < 0 then NativeM.fail "Tick cannot be negative"
    else pure n.toInt.toNat : NativeM Nat) env h = _
  rw [if_neg hnot]
  rfl

/-! ### Methods -/

/-- The payload that a method reads in its receiver. -/
theorem text_of_home {payload : Payload} (hhome : payload.home = string) :
    ∃ value, payload.text? = some value := by
  cases payload with
  | str value => exact ⟨value, rfl⟩
  | _ => exact absurd hhome (by simp only [Payload.home]; decide)

/-- The payload of an error has a message. -/
theorem message_of_home {payload : Payload} (hhome : payload.home = err) :
    ∃ message, payload.message? = some message := by
  cases payload with
  | err message => exact ⟨message, rfl⟩
  | _ => exact absurd hhome (by simp only [Payload.home]; decide)

/-- A reference is taken and handed over. -/
theorem returns_retained (room : h.Room [p]) :
    (do return .incremented (← NativeM.retain p) : NativeM Ret).Returns env h := by
  obtain ⟨h', hr⟩ := Heap.retain_of_room room
  exact .bind (retain_run env hr) (.pure _)

/-- Storing returns where there is room for a reference to the value. -/
theorem returns_store {entries : KeyMap ObjId} (hpay : (h.obj p).payload = .hash entries)
    (hargs : Arg.AllFit h (CoreMethod.asks .hashStore) args)
    (room : h.Room (CoreMethod.takes h p args .hashStore)) :
    (Hash.store p args).Returns env h := by
  obtain ⟨a, b, rfl, ha, hb⟩ := fits_two hargs
  obtain ⟨key, value, rfl, hvalue⟩ := text_of_fits ha
  obtain ⟨q, rfl, -⟩ := object_of_fits hb
  have htaken : CoreMethod.takes h p [.object key, .object q] .hashStore = [q] := by
    show storedValue h [.object key, .object q] = [q]
    rw [storedValue, if_pos (Option.isSome_iff_exists.2 ⟨value, hvalue⟩)]
  rw [htaken] at room
  obtain ⟨h', hr⟩ := Heap.retain_of_room room
  exact .of_eq (hashStore_run [] hvalue) (.bind (retain_run env hr)
    ⟨_, _, hashPut_run ((Heap.payload_retain p hr).trans hpay)⟩)

/-- Fetching from a hash returns where there is room for a reference to the value. -/
theorem returns_fetch {entries : KeyMap ObjId} (hpay : (h.obj p).payload = .hash entries)
    (hargs : Arg.AllFit h [text] args) (room : h.Room (CoreMethod.takes h p args .hashFetch)) :
    (Hash.fetch p args).Returns env h := by
  refine returns_text hargs fun value key hshape hvalue => .bind (entries_run env hpay) ?_
  have htaken : CoreMethod.takes h p args .hashFetch = (entries.get? value).toList := by
    show CoreMethod.fetchedValue h p args = _
    rw [hshape, CoreMethod.fetchedValue, hpay, hvalue]
  rw [htaken] at room
  rcases hget : entries.get? value with _ | q <;> rw [hget] at room
  · exact .pure _
  · exact returns_retained room

/-- Deleting returns. -/
theorem returns_delete {entries : KeyMap ObjId} (hpay : (h.obj p).payload = .hash entries)
    (hargs : Arg.AllFit h [text] args) : (Hash.delete p args).Returns env h := by
  refine returns_text hargs fun value _ _ _ => .bind (entries_run env hpay) ?_
  rcases entries.get? value with _ | q
  · exact .pure _
  · exact .bind rfl (.pure _)

/-- Making the texts of keys returns. -/
theorem returns_keyStrings : ∀ (keys : List String) (h : Heap),
    (Hash.keyStrings keys).Returns env h
  | [], _ => .pure _
  | key :: rest, h => by
    obtain ⟨elements, h', hrest⟩ := returns_keyStrings rest (h.alloc string (.str key)).2
    exact .bind rfl (.bind hrest (.pure _))

/-- Listing the keys returns. -/
theorem returns_keys {entries : KeyMap ObjId} (hpay : (h.obj p).payload = .hash entries) :
    (Hash.keys p).Returns env h := by
  have hmade : (Hash.keyStrings entries.keys).Returns env h := returns_keyStrings entries.keys h
  obtain ⟨elements, h', hkeys⟩ := hmade
  exact .bind (entries_run env hpay) (.bind hkeys (.bind rfl (.pure _)))

/-- Pushing returns where there is room for a reference to the element. -/
theorem returns_push {elements : List (Option ObjId)} (hpay : (h.obj p).payload = .vector elements)
    (hargs : Arg.AllFit h [maybeObject] args)
    (room : h.Room (CoreMethod.takes h p args .vectorPush)) :
    (Vector.push p args).Returns env h := by
  refine returns_maybeObject hargs (fun _ => ?_) fun q hshape => ?_
  · exact .bind rfl (.bind (elements_run env hpay) (.bind rfl (.pure _)))
  · have htaken : CoreMethod.takes h p args .vectorPush = [q] := by rw [hshape]; rfl
    rw [htaken] at room
    obtain ⟨h', hr⟩ := Heap.retain_of_room room
    rw [Vector.retain, bind_assoc]
    refine .bind (retain_run env hr) (.bind rfl ?_)
    exact .bind (elements_run env ((Heap.payload_retain p hr).trans hpay)) (.bind rfl (.pure _))

/-- Pushing all elements returns where there is room for a reference to each. -/
theorem returns_pushAll {elements : List (Option ObjId)}
    (hpay : (h.obj p).payload = .vector elements)
    (hargs : Arg.AllFit h (CoreMethod.asks .vectorPushAll) args)
    (room : h.Room (CoreMethod.takes h p args .vectorPushAll)) :
    (Vector.pushAll p args).Returns env h := by
  obtain ⟨arg, rfl, harg⟩ := fits_one hargs
  obtain ⟨q, rfl, helements⟩ := object_of_fits harg
  obtain ⟨source, hsource⟩ := helements rfl
  have htaken : CoreMethod.takes h p [.object q] .vectorPushAll = source.filterMap id := by
    show pushedElements h [.object q] = _
    rw [pushedElements, hsource]
  rw [htaken] at room
  obtain ⟨h₁, hall⟩ := Heap.retainAll_of_room room
  refine .of_eq (vectorPushAll_run [] hsource) ?_
  rcases vectorRetainAll_run env source [] h with ⟨h₂, hall', hend⟩ | ⟨e, had, h₂, herror, -⟩
  · obtain rfl := Except.ok.inj (hall.symm.trans hall')
    exact .bind hend ⟨_, _, vectorAppend_run ((Heap.payload_retainAll p hall).trans hpay)⟩
  · rw [hall] at herror
    exact absurd herror (by simp)

/-- Inserting returns where there is room, unless the place is beyond the end. -/
theorem answers_insert {elements : List (Option ObjId)}
    (hpay : (h.obj p).payload = .vector elements)
    (hargs : Arg.AllFit h (CoreMethod.asks .vectorInsert) args)
    (room : h.Room (CoreMethod.takes h p args .vectorInsert)) :
    Answers (CoreMethod.limit? h p args .vectorInsert) (Vector.insert p args) env h := by
  obtain ⟨a, b, rfl, ha, hb⟩ := fits_two hargs
  obtain ⟨n, rfl, hn⟩ := int_of_fits ha
  have hplace := tick_run env h hn
  obtain ⟨element, helement, hroom⟩ : ∃ element : Option ObjId,
      b.toObject? env h = .ok element h ∧ h.Room element.toList := by
    rcases maybeObject_of_fits hb with rfl | ⟨q, rfl⟩
    · exact ⟨none, rfl, fun q hq => absurd hq List.not_mem_nil⟩
    · exact ⟨some q, rfl, room⟩
  have hlimit : CoreMethod.limit? h p [.int n, b] .vectorInsert =
      if n.toInt.toNat > elements.length then
        some ("Tick " ++ toString n.toInt.toNat ++ " out of bounds for vector of size " ++
          toString elements.length)
      else none := by
    show CoreMethod.beyond? h p [.int n, b] = _
    rw [CoreMethod.beyond?, hpay]
  rw [hlimit]
  split_ifs with hbeyond
  · show (_ >>= _ : NativeM Ret) env h = _
    rw [bind_of_ok (argAt_run env h rfl), bind_of_ok hplace, bind_of_ok (argAt_run env h rfl),
      bind_of_ok helement, bind_of_ok (elements_run env hpay), if_pos hbeyond]
  · refine Returns.bind (argAt_run env h rfl) (.bind hplace (.bind (argAt_run env h rfl)
      (.bind helement (.bind (elements_run env hpay) ?_))))
    rw [if_neg hbeyond]
    rcases element with _ | q
    · exact .bind rfl (.bind rfl (.pure _))
    · obtain ⟨h', hr⟩ := Heap.retain_of_room hroom
      rw [Vector.retain, bind_assoc]
      exact .bind (retain_run env hr) (.bind rfl (.bind rfl (.pure _)))

/-- Fetching from a vector returns where there is room for a reference to the element. -/
theorem returns_element {elements : List (Option ObjId)}
    (hpay : (h.obj p).payload = .vector elements) (hargs : Arg.AllFit h [size] args)
    (room : h.Room (CoreMethod.takes h p args .vectorFetch)) :
    (Vector.fetch p args).Returns env h := by
  obtain ⟨a, rfl, ha⟩ := fits_one hargs
  obtain ⟨n, rfl, hn⟩ := int_of_fits ha
  have htaken : CoreMethod.takes h p [.int n] .vectorFetch =
      (elements[n.toInt.toNat]?).join.toList := by
    show CoreMethod.fetchedElement h p [.int n] = _
    rw [CoreMethod.fetchedElement, hpay]
  rw [htaken] at room
  refine .bind (argAt_run env h rfl) (.bind (tick_run env h hn) (.bind (elements_run env hpay) ?_))
  rcases hget : elements[n.toInt.toNat]? with _ | _ | q <;> rw [hget] at room
  · exact .pure _
  · exact .pure _
  · exact returns_retained room

/-- Popping returns. -/
theorem returns_pop {elements : List (Option ObjId)}
    (hpay : (h.obj p).payload = .vector elements) : (Vector.pop p).Returns env h := by
  refine .bind (elements_run env hpay) ?_
  rcases elements.getLast? with _ | _ | q
  · exact .pure _
  · exact .bind rfl (.pure _)
  · exact .bind rfl (.pure _)

/-- The text that is read in the receiver. -/
theorem toText_receiver (env : NativeEnv) (hhome : (h.obj p).payload.home = string) :
    ∃ value, (Arg.object p).toText env h = .ok value h := by
  obtain ⟨value, hvalue⟩ := text_of_home hhome
  exact ⟨value, toText_run env hvalue⟩

/-- **Methods answer** when their receiver holds the payload that they read, their arguments
fit what they ask for, and there is room for the references that they take. -/
theorem runMethod_answers {op : CoreMethod} (env : NativeEnv)
    (hreads : ∀ c, op.reads? = some c → (h.obj p).payload.home = c)
    (hargs : Arg.AllFit h op.asks args) (room : h.Room (op.takes h p args)) :
    Answers (op.limit? h p args) (runMethod p args op) env h := by
  -- one case for each body: its payload is there by `hreads`, its arguments by `hargs`
  cases op with
  | objectCount => exact ⟨_, _, rfl⟩
  | objectRetain => exact returns_retained room
  | objectRelease => exact ⟨_, _, rfl⟩
  | objectClassName => exact ⟨_, _, rfl⟩
  | objectIsA =>
    refine returns_text hargs fun value _ _ _ => .bind rfl (.bind rfl ?_)
    rcases env.global.fetch value with _ | _
    · exact .pure _
    · exact .pure _
  | objectEquals => exact returns_maybeObject hargs (fun _ => .pure _) fun _ _ => .pure _
  | objectText => exact ⟨_, _, rfl⟩
  | objectDestroy => exact .pure _
  | stringLength =>
    obtain ⟨value, hvalue⟩ := toText_receiver env (hreads _ rfl)
    exact .bind hvalue (.pure _)
  | stringStartsWith =>
    obtain ⟨value, hvalue⟩ := toText_receiver env (hreads _ rfl)
    exact returns_text hargs fun _ _ _ _ => .bind hvalue (.pure _)
  | stringConcat =>
    obtain ⟨value, hvalue⟩ := toText_receiver env (hreads _ rfl)
    exact returns_text hargs fun _ _ _ _ => .bind hvalue (.bind rfl (.bind rfl (.pure _)))
  | stringEquals =>
    refine returns_maybeObject hargs (fun _ => .pure _) fun q _ => .bind rfl ?_
    rcases (h.obj q).payload.text? with _ | other
    · exact .pure _
    · exact .bind rfl (.pure _)
  | stringText => exact returns_retained room
  | stringBytes =>
    obtain ⟨value, hvalue⟩ := toText_receiver env (hreads _ rfl)
    exact .bind hvalue (.pure _)
  | integerValue => exact ⟨_, _, rfl⟩
  | floatValue => exact ⟨_, _, rfl⟩
  | booleanValue => exact ⟨_, _, rfl⟩
  | numberEquals =>
    exact returns_maybeObject hargs (fun _ => .pure _) fun q _ => .bind rfl (.bind rfl (.pure _))
  | numberText => exact ⟨_, _, rfl⟩
  | hashStore =>
    obtain ⟨entries, hpay⟩ := hash_of_home (hreads _ rfl)
    exact returns_store hpay hargs room
  | hashFetch =>
    obtain ⟨entries, hpay⟩ := hash_of_home (hreads _ rfl)
    exact returns_fetch hpay hargs room
  | hashDelete =>
    obtain ⟨entries, hpay⟩ := hash_of_home (hreads _ rfl)
    exact returns_delete hpay hargs
  | hashHasKey =>
    obtain ⟨entries, hpay⟩ := hash_of_home (hreads _ rfl)
    exact returns_text hargs fun _ _ _ _ => .bind (entries_run env hpay) (.pure _)
  | hashSize =>
    obtain ⟨entries, hpay⟩ := hash_of_home (hreads _ rfl)
    exact .bind (entries_run env hpay) (.pure _)
  | hashKeys =>
    obtain ⟨entries, hpay⟩ := hash_of_home (hreads _ rfl)
    exact returns_keys hpay
  | hashDestroy =>
    refine .bind rfl ?_
    split
    · exact .bind rfl (.bind (releaseAll_apply _ _ _) (.pure _))
    · exact .pure _
  | vectorPush =>
    obtain ⟨elements, hpay⟩ := vector_of_home (hreads _ rfl)
    exact returns_push hpay hargs room
  | vectorPushAll =>
    obtain ⟨elements, hpay⟩ := vector_of_home (hreads _ rfl)
    exact returns_pushAll hpay hargs room
  | vectorInsert =>
    obtain ⟨elements, hpay⟩ := vector_of_home (hreads _ rfl)
    exact answers_insert hpay hargs room
  | vectorFetch =>
    obtain ⟨elements, hpay⟩ := vector_of_home (hreads _ rfl)
    exact returns_element hpay hargs room
  | vectorPop =>
    obtain ⟨elements, hpay⟩ := vector_of_home (hreads _ rfl)
    exact returns_pop hpay
  | vectorSize =>
    obtain ⟨elements, hpay⟩ := vector_of_home (hreads _ rfl)
    exact .bind (elements_run env hpay) (.pure _)
  | vectorDestroy =>
    refine .bind rfl ?_
    split
    · exact .bind rfl (.bind (releaseAll_apply _ _ _) (.pure _))
    · exact .pure _
  | errorMessage =>
    obtain ⟨message, hmessage⟩ := message_of_home (hreads _ rfl)
    refine .bind rfl ?_
    rw [hmessage]
    exact .bind rfl (.pure _)
  | errorAppend =>
    obtain ⟨message, hmessage⟩ := message_of_home (hreads _ rfl)
    refine returns_text hargs fun _ _ _ _ => .bind rfl ?_
    rw [hmessage]
    exact .bind rfl (.pure _)

/-! ### Constructors and functions -/

/-- A capacity is refused when it cannot be reserved. -/
theorem answers_capacity {room : Memory → Nat → Bool} (hzero : room env.memory 0 = true)
    {capacity : Arg → NativeM Nat} {message : String} {made : NativeM Ret}
    (hnull : capacity .null env h = .ok 0 h)
    (hint : ∀ n : Int64, 0 ≤ n.toInt → capacity (.int n) env h = .ok n.toInt.toNat h)
    (hmade : made.Returns env h) (hargs : Arg.AllFit h [maybeSize] args) :
    Answers (CoreConstructor.capacityLimit? (room env.memory) message args) (do
      let n ← capacity (← argAt args 0)
      if ← reserve room n then made else NativeM.fail (message ++ toString n)) env h := by
  obtain ⟨arg, rfl, harg⟩ := fits_one hargs
  rcases maybeSize_of_fits harg with rfl | ⟨n, rfl, hn⟩
  · refine Returns.bind (argAt_run env h rfl) (.bind hnull (.bind rfl ?_))
    rw [if_pos hzero]
    exact hmade
  · rw [CoreConstructor.capacityLimit?]
    split_ifs with hroom
    · refine Returns.bind (argAt_run env h rfl) (.bind (hint n hn) (.bind rfl ?_))
      rw [if_pos hroom]
      exact hmade
    · show (_ >>= _ : NativeM Ret) env h = _
      rw [bind_of_ok (argAt_run env h rfl), bind_of_ok (hint n hn),
        bind_of_ok (reserve_apply env h room _), if_neg hroom]

/-- **Constructors answer** when their arguments fit what they ask for. -/
theorem runConstructor_answers {op : CoreConstructor} (env : NativeEnv) (cls : Class)
    (hargs : Arg.AllFit h op.asks args) :
    Answers (op.limit? env.memory args) (runConstructor cls args op) env h := by
  cases op with
  | string => exact returns_text hargs fun _ _ _ _ => .bind rfl (.pure _)
  | integer =>
    obtain ⟨arg, rfl, harg⟩ := fits_one hargs
    obtain ⟨n, rfl, -⟩ := int_of_fits harg
    exact ⟨_, _, rfl⟩
  | float =>
    obtain ⟨arg, rfl, harg⟩ := fits_one hargs
    obtain ⟨x, rfl⟩ := double_of_fits harg
    exact ⟨_, _, rfl⟩
  | hash =>
    exact answers_capacity env.memory.hashRoom_zero rfl (fun _ _ => rfl) (.bind rfl (.pure _)) hargs
  | vector =>
    exact answers_capacity env.memory.vectorRoom_zero rfl (fun _ hn => tick_run env h hn)
      (.bind rfl (.pure _)) hargs
  | error => exact returns_text hargs fun _ _ _ _ => .bind rfl (.pure _)

/-- **Functions answer** when their arguments fit what they ask for, but for the one that only
throws. -/
theorem runFunction_returns {op : CoreFunction} (env : NativeEnv) (hop : op ≠ .rethrow)
    (hargs : Arg.AllFit h op.asks args) : (runFunction args op).Returns env h := by
  cases op with
  | isWhitespace =>
    obtain ⟨arg, rfl, harg⟩ := fits_one hargs
    obtain ⟨n, rfl, -⟩ := int_of_fits harg
    exact ⟨_, _, rfl⟩
  | toBase36 =>
    obtain ⟨arg, rfl, harg⟩ := fits_one hargs
    obtain ⟨n, rfl, hn⟩ := int_of_fits harg
    have hnot : ¬ n.toInt < 0 := by
      have hlow : 0 ≤ n.toInt := hn
      omega
    refine .bind (argAt_run env h rfl) (.bind rfl ?_)
    rw [if_neg hnot]
    exact .bind rfl (.pure _)
  | rethrow => exact absurd rfl hop

/-- **Throwing again** throws the argument, with a reference for the way up. -/
theorem rethrow_throws (env : NativeEnv) (hargs : Arg.AllFit h (CoreFunction.asks .rethrow) args)
    (room : h.Room (pushedElement args)) :
    ∃ q h', args = [.object q] ∧ h.retain q = .ok h' ∧
      runFunction args .rethrow env h = .error ⟨q⟩ h' := by
  obtain ⟨arg, rfl, harg⟩ := fits_one hargs
  obtain ⟨q, rfl, -⟩ := object_of_fits harg
  obtain ⟨h', hr⟩ := Heap.retain_of_room room
  refine ⟨q, h', rfl, hr, ?_⟩
  show (_ >>= _ : NativeM Ret) env h = _
  rw [bind_of_ok (argAt_run env h rfl)]
  show (NativeM.retain q >>= fun p => throw ⟨p⟩ : NativeM Ret) env h = _
  rw [bind_of_ok (retain_run env hr)]
  rfl

end Parcel

end Interop

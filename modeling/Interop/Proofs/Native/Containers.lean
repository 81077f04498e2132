/-
# Running the code of containers

What the readers of arguments and of payloads answer, and what is left of the methods that
store and append once they have read their arguments: `Store` puts a value under a key
(`hashPut`), `Push` and `Push_All` append elements (`vectorAppend`).
-/

import Interop.Proofs.Heap.Ledger
import Interop.Proofs.Native.Run
import Interop.Proofs.Text.Keys

namespace Interop

namespace Heap

variable {h h' : Heap} {p q : ObjId}

/-! ### Objects after references were taken -/

/-- An object whose count was changed holds what it held. -/
theorem payload_setCount (p q : ObjId) (count : Nat) :
    ((h.setCount q count).obj p).payload = (h.obj p).payload := by
  rw [obj, obj, setCount, get?_modify]
  split_ifs with hpq
  · subst hpq
    rcases h.get? p with _ | o <;> rfl
  · rfl

/-- A reference that is taken changes no payload. -/
theorem payload_retain (p : ObjId) (hr : h.retain q = .ok h') :
    (h'.obj p).payload = (h.obj p).payload := by
  rw [retain] at hr
  split_ifs at hr
  · obtain rfl := Except.ok.inj hr
    rfl
  · obtain rfl := Except.ok.inj hr
    exact payload_setCount p q _

/-- An object is there with another count after references were taken. -/
theorem get?_of_retain {o : Obj} (hr : h.retain q = .ok h') (ho : h.get? p = some o) :
    ∃ count, h'.get? p = some { o with refcount := count } := by
  rw [retain] at hr
  split_ifs at hr
  · obtain rfl := Except.ok.inj hr
    exact ⟨o.refcount, ho⟩
  · obtain rfl := Except.ok.inj hr
    by_cases hpq : p = q
    · subst hpq
      exact ⟨_, get?_modify_self ho _⟩
    · exact ⟨o.refcount, by rw [setCount, get?_modify_of_ne hpq, ho]⟩

/-- References that are taken leave an object as it was but for its count. -/
theorem get?_of_retainAll {o : Obj} {ps : List ObjId} (hr : retainAll ps h = .ok h')
    (ho : h.get? p = some o) : ∃ count, h'.get? p = some { o with refcount := count } := by
  induction ps generalizing h o with
  | nil =>
    obtain rfl := Except.ok.inj hr
    exact ⟨o.refcount, ho⟩
  | cons q ps ih =>
    obtain ⟨h₁, hq, hps⟩ := retainAll_cons hr
    obtain ⟨count, hc⟩ := get?_of_retain hq ho
    obtain ⟨count', hc'⟩ := ih hps hc
    exact ⟨count', hc'⟩

/-- References that are taken change no payload. -/
theorem payload_retainAll {ps : List ObjId} (p : ObjId) (hr : retainAll ps h = .ok h') :
    (h'.obj p).payload = (h.obj p).payload := by
  induction ps generalizing h with
  | nil =>
    obtain rfl := Except.ok.inj hr
    rfl
  | cons q ps ih =>
    obtain ⟨h₁, hq, hps⟩ := retainAll_cons hr
    rw [ih hps, payload_retain p hq]

/-- One reference is taken as such. -/
theorem retainAll_one (hr : retainAll [q] h = .ok h') : h.retain q = .ok h' := by
  obtain ⟨h₁, hq, hnil⟩ := retainAll_cons hr
  obtain rfl := Except.ok.inj hnil
  exact hq

end Heap

namespace NativeM

variable {α β : Type} {x : NativeM α} {f : α → NativeM β} {env : NativeEnv} {h h' : Heap}
  {p : ObjId}

/-- The second step runs where the first ended. -/
theorem bind_of_ok {a : α} {h₁ : Heap} (hx : x env h = .ok a h₁) :
    (x >>= f) env h = f a env h₁ := by
  rw [bind_apply, hx]

/-- A reference is taken where the heap can count it. -/
theorem retain_run (env : NativeEnv) (hr : h.retain p = .ok h') :
    retain p env h = .ok p h' := by
  rw [retain_apply, hr]

/-! ### Arguments -/

/-- The argument at an index is read. -/
theorem argAt_run {args : List Arg} {index : Nat} {arg : Arg} (env : NativeEnv) (h : Heap)
    (hget : args[index]? = some arg) : argAt args index env h = .ok arg h := by
  rw [argAt, hget]
  rfl

/-- What was read is the argument at the index. -/
theorem argAt_ok {args : List Arg} {index : Nat} {arg : Arg}
    (hrun : argAt args index env h = .ok arg h') : args[index]? = some arg := by
  rw [argAt] at hrun
  rcases hget : args[index]? with _ | a
  · rw [hget] at hrun
    exact absurd hrun (by simp)
  · rw [hget] at hrun
    exact congrArg some (EStateM.Result.ok.inj hrun).1

/-- Only an object that holds a text has one. -/
theorem toText_ok {arg : Arg} {text : String} (hrun : arg.toText env h = .ok text h') :
    ∃ p, arg = .object p ∧ (h.obj p).payload.text? = some text := by
  cases arg with
  | object p =>
    refine ⟨p, rfl, ?_⟩
    rw [Arg.toText, bind_apply, object_apply] at hrun
    rcases htext : (h.obj p).payload.text? with _ | found
    · simp only [htext] at hrun
      exact absurd hrun (by simp)
    · simp only [htext] at hrun
      exact congrArg some (EStateM.Result.ok.inj hrun).1
  | _ => exact absurd hrun (by simp [Arg.toText, Arg.unexpected])

/-- An argument that was read as an object is one. -/
theorem toObject_ok {arg : Arg} {p : ObjId} (hrun : arg.toObject? env h = .ok (some p) h') :
    arg = .object p := by
  cases arg with
  | object q =>
    obtain ⟨hq, -⟩ := EStateM.Result.ok.inj hrun
    rw [Option.some.inj hq]
  | null => exact absurd (EStateM.Result.ok.inj hrun).1 (by simp)
  | _ => exact absurd hrun (by simp [Arg.toObject?, Arg.unexpected])

/-- The text of an object that holds one. -/
theorem toText_run {text : String} (env : NativeEnv) (htext : (h.obj p).payload.text? = some text) :
    (Arg.object p).toText env h = .ok text h := by
  rw [Arg.toText, bind_apply, object_apply]
  simp only [htext]
  rfl

end NativeM

namespace Parcel

open NativeM

variable {env : NativeEnv} {h h' : Heap} {p q : ObjId}

/-! ### Payloads -/

/-- The entries of a hash are read. -/
theorem entries_run {entries : KeyMap ObjId} (env : NativeEnv)
    (hpay : (h.obj p).payload = .hash entries) : Hash.entries p env h = .ok entries h := by
  rw [Hash.entries, bind_apply, object_apply]
  simp only [hpay]
  rfl

/-- The elements of a vector are read. -/
theorem elements_run {elements : List (Option ObjId)} (env : NativeEnv)
    (hpay : (h.obj p).payload = .vector elements) : Vector.elements p env h = .ok elements h := by
  rw [Vector.elements, bind_apply, object_apply]
  simp only [hpay]
  rfl

/-- What was read as entries is the payload of a hash. -/
theorem entries_ok {entries : KeyMap ObjId} (hrun : Hash.entries p env h = .ok entries h') :
    (h.obj p).payload = .hash entries := by
  rw [Hash.entries, bind_apply, object_apply] at hrun
  rcases hpay : (h.obj p).payload with _ | _ | _ | _ | _ | found | _ | _ <;>
    simp only [hpay] at hrun
  case hash => exact congrArg Payload.hash (EStateM.Result.ok.inj hrun).1
  all_goals exact absurd hrun (by simp)

/-- What was read as elements is the payload of a vector. -/
theorem elements_ok {env : NativeEnv} {h h' : Heap} {p : ObjId} {elements : List (Option ObjId)}
    (hrun : Vector.elements p env h = .ok elements h') :
    (h.obj p).payload = .vector elements := by
  rw [Vector.elements, bind_apply, object_apply] at hrun
  rcases hpay : (h.obj p).payload with _ | _ | _ | _ | _ | _ | found | _ <;>
    simp only [hpay] at hrun
  case vector => exact congrArg Payload.vector (EStateM.Result.ok.inj hrun).1
  all_goals exact absurd hrun (by simp)

/-! ### Storing and appending -/

/-- Puts a value, to which there is a reference for the purpose, under a key. -/
def hashPut (p : ObjId) (key : String) (value : ObjId) : NativeM Ret := do
  let old ← Hash.entries p
  setPayload p (.hash (old.insert key value))
  match old.get? key with
  | some replaced => let _ ← release replaced
  | none => pure ()
  return .void

/-- Appends elements, to which there are references for the purpose. -/
def vectorAppend (p : ObjId) (added : List (Option ObjId)) : NativeM Ret := do
  let old ← Vector.elements p
  setPayload p (.vector (old ++ added))
  return .void

/-- Storing takes a reference to the value and puts it under the key. -/
theorem hashStore_run {key value : ObjId} {text : String} (rest : List Arg)
    (htext : (h.obj key).payload.text? = some text) :
    Hash.store p (.object key :: .object value :: rest) env h =
      (NativeM.retain value >>= hashPut p text) env h := by
  have hvalue : (Arg.object value).toObject? env h = .ok (some value) h := rfl
  rw [Hash.store, bind_of_ok (argAt_run env h rfl), bind_of_ok (toText_run env htext),
    bind_of_ok (argAt_run env h rfl), bind_of_ok hvalue]
  rfl

/-- Pushing takes a reference to the element and appends it. -/
theorem vectorPush_run (element : ObjId) (rest : List Arg) :
    Vector.push p (.object element :: rest) env h =
      (NativeM.retain element >>= fun q => vectorAppend p [some q]) env h := by
  have helement : (Arg.object element).toObject? env h = .ok (some element) h := rfl
  rw [Vector.push, bind_of_ok (argAt_run env h rfl), bind_of_ok helement, Vector.retain,
    bind_assoc]
  rfl

/-- Pushing all elements takes a reference to each and appends them. -/
theorem vectorPushAll_run {source : ObjId} {elements : List (Option ObjId)} (rest : List Arg)
    (hpay : (h.obj source).payload = .vector elements) :
    Vector.pushAll p (.object source :: rest) env h =
      (Vector.retainAll [] elements >>= fun _ => vectorAppend p elements) env h := by
  have hsource : (Arg.object source).toObject? env h = .ok (some source) h := rfl
  rw [Vector.pushAll, bind_of_ok (argAt_run env h rfl), bind_of_ok hsource]
  exact bind_of_ok (elements_run env hpay)

/-- Putting a value under a key gives back the one that it replaces. -/
theorem hashPut_run {key : String} {value : ObjId} {entries : KeyMap ObjId}
    (hpay : (h.obj p).payload = .hash entries) :
    hashPut p key value env h = .ok .void
      (match entries.get? key with
        | some replaced =>
          (env.release replaced (h.setPayload p (.hash (entries.insert key value)))).2
        | none => h.setPayload p (.hash (entries.insert key value))) := by
  rw [hashPut, bind_of_ok (entries_run env hpay)]
  rcases entries.get? key with _ | replaced <;> rfl

/-- Appending writes the longer list of elements. -/
theorem vectorAppend_run {added elements : List (Option ObjId)}
    (hpay : (h.obj p).payload = .vector elements) :
    vectorAppend p added env h = .ok .void (h.setPayload p (.vector (elements ++ added))) := by
  rw [vectorAppend, bind_of_ok (elements_run env hpay)]
  rfl

/-- **References to all elements** are taken, or those that could be had are given back after
an error was made. -/
theorem vectorRetainAll_run (env : NativeEnv) (elements : List (Option ObjId))
    (taken : List ObjId) (h : Heap) :
    (∃ h₁, Heap.retainAll (elements.filterMap id) h = .ok h₁ ∧
      Vector.retainAll taken elements env h = .ok () h₁) ∨
    ∃ e had h₁, Heap.retainAll (elements.filterMap id) h = .error e ∧
      Heap.retainAll had h = .ok h₁ ∧ (∀ q ∈ had, q ∈ elements.filterMap id) ∧
      Vector.retainAll taken elements env h =
        .error ⟨(h₁.alloc Parcel.err (.err e.message)).1⟩
          ((h₁.alloc Parcel.err (.err e.message)).2.giveBackAll env.release (taken ++ had)) := by
  induction elements generalizing taken h with
  | nil => exact Or.inl ⟨h, rfl, rfl⟩
  | cons element rest ih =>
    rcases element with _ | p
    · exact ih taken h
    · rcases hp : h.retain p with e | h₁
      · refine Or.inr ⟨e, [], h, ?_, rfl, ?_, ?_⟩
        · simp only [List.filterMap_cons, id, Heap.retainAll, hp]
        · exact fun q hq => absurd hq List.not_mem_nil
        · simp only [Vector.retainAll, bind_apply, get_apply, hp, alloc_apply, releaseAll_apply,
            throw_apply, List.append_nil]
      · have hrun : Vector.retainAll taken (some p :: rest) env h =
            Vector.retainAll (taken ++ [p]) rest env h₁ := by
          simp only [Vector.retainAll, bind_apply, get_apply, hp, set_apply]
        have hall : Heap.retainAll ((some p :: rest).filterMap id) h =
            Heap.retainAll (rest.filterMap id) h₁ := by
          simp only [List.filterMap_cons, id, Heap.retainAll, hp]
        rw [hrun, hall]
        rcases ih (taken ++ [p]) h₁ with hok | ⟨e, had, h₂, herror, hhad, hmem, hend⟩
        · exact Or.inl hok
        · refine Or.inr ⟨e, p :: had, h₂, herror, ?_, ?_, ?_⟩
          · simp only [Heap.retainAll, hp]
            exact hhad
          · intro q hq
            rcases List.mem_cons.1 hq with rfl | hq
            · exact List.mem_cons_self
            · exact List.mem_cons_of_mem _ (hmem q hq)
          · rw [hend, List.append_assoc]
            rfl

end Parcel

end Interop

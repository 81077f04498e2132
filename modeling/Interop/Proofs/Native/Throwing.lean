/-
# What the core parcel leaves behind when it throws

A method of the core parcel that throws has made the error and nothing else, with two
exceptions.  `rethrow` throws its argument, to which it takes a reference.  And the three
methods in `Parcel.retainsFirst` take the references that the receiver is to own before they
look at the receiver; when it turns out to hold another payload, nobody gives these back.
`Parcel.stranded` lists them, and the ledger goes on as if somebody still owned them
(`Parcel.runMethod_leaves`).  On a receiver with the payload that the method is for, nothing
is stranded (`Parcel.stranded_of_suits`).
-/

import Interop.Proofs.Heap.Temporary
import Interop.Proofs.Native.Containers
import Interop.Proofs.Native.Tidy

namespace Interop

/-! ### Plain errors -/

/-- From `h` on, a reference to each object in `taken` was taken, and then the plain error
`t` was made and thrown. -/
def Heap.FailedWith (h : Heap) (taken : List ObjId) (t : Thrown) (h' : Heap) : Prop :=
  ∃ h₁ message, Heap.retainAll taken h = .ok h₁ ∧
    t = ⟨(h₁.alloc Parcel.err (.err message)).1⟩ ∧ h' = (h₁.alloc Parcel.err (.err message)).2

/-- **A plain error** is owned beside what was taken before it. -/
theorem Ledger.failedWith {base h h' : Heap} {owned : Multiset ObjId} {taken : List ObjId}
    {t : Thrown} (l : Ledger base owned h) (hb : ∀ q ∈ taken, base.Backed h q)
    (hf : h.FailedWith taken t h') :
    Ledger base (t.object ::ₘ ((taken : Multiset ObjId) + owned)) h' := by
  obtain ⟨h₁, message, hr, rfl, rfl⟩ := hf
  have l₁ := l.retainAll hb hr
  exact Ledger.alloc ((zero_add ((taken : Multiset ObjId) + owned)).symm ▸ l₁)
    ((Payload.err message).givesBack_home _ _)

/-- What was temporary still is after a failure. -/
theorem Heap.Transient.failedWith {n : Nat} {h h' : Heap} {taken : List ObjId} {t : Thrown}
    (hn : Heap.Transient n h) (hf : h.FailedWith taken t h') : Heap.Transient n h' := by
  obtain ⟨h₁, message, hr, rfl, rfl⟩ := hf
  have hmortal : (Payload.err message).boolean? = none := rfl
  exact (hn.retainAll hr).alloc hmortal fun q hq => absurd hq List.not_mem_nil

namespace NativeM

variable {α β : Type} {x : NativeM α} {f : α → NativeM β} {env : NativeEnv} {h h' : Heap}
  {t : Thrown}

/-- What is tidy throws nothing but a plain error. -/
theorem Tidy.failedWith (hx : Tidy x) (hrun : x env h = .error t h') : h.FailedWith [] t h' := by
  rcases hx env h with ⟨a, h₁, ha⟩ | ⟨message, hfail⟩
  · rw [ha] at hrun
    exact absurd hrun (by simp)
  · rw [hfail, fail_apply] at hrun
    obtain ⟨ht, hh⟩ := EStateM.Result.error.inj hrun
    exact ⟨h, message, rfl, ht.symm, hh.symm⟩

/-- When a sequence that begins by reading throws, the error is plain, or it was thrown
after the reading. -/
theorem Reads.bind_error (hx : Reads x) (hrun : (x >>= f) env h = .error t h') :
    h.FailedWith [] t h' ∨ ∃ a, x env h = .ok a h ∧ f a env h = .error t h' := by
  rw [bind_apply] at hrun
  rcases hx env h with ⟨a, ha⟩ | ⟨message, hfail⟩
  · rw [ha] at hrun
    exact Or.inr ⟨a, ha, hrun⟩
  · rw [hfail] at hrun
    obtain ⟨rfl, rfl⟩ := EStateM.Result.error.inj hrun
    exact Or.inl ⟨h, message, rfl, rfl, rfl⟩

end NativeM

namespace Parcel

open NativeM

variable {env : NativeEnv} {h h' : Heap} {p : ObjId} {args : List Arg} {t : Thrown}

/-! ### References that are taken first -/

/-- The value that is to be stored under a text. -/
def storedValue (h : Heap) : List Arg → List ObjId
  | .object key :: .object value :: _ => if (h.obj key).payload.text?.isSome then [value] else []
  | _ => []

/-- The element that is to be appended, if it is not null. -/
def pushedElement : List Arg → List ObjId
  | .object element :: _ => [element]
  | _ => []

/-- The elements of the vector that is to be appended. -/
def pushedElements (h : Heap) : List Arg → List ObjId
  | .object source :: _ =>
    match (h.obj source).payload with
    | .vector elements => elements.filterMap id
    | _ => []
  | _ => []

/-- The references that a method takes before it looks at its receiver. -/
def takenFirst (h : Heap) (args : List Arg) : CoreMethod → List ObjId
  | .hashStore => storedValue h args
  | .vectorPush => pushedElement args
  | .vectorPushAll => pushedElements h args
  | _ => []

/-- The references that a method has taken and does not give back when it throws. -/
def stranded (h : Heap) (args : List Arg) (op : CoreMethod) : List ObjId :=
  match Heap.retainAll (takenFirst h args op) h with
  | .ok _ => takenFirst h args op
  | .error _ => []

/-- Where nothing is taken first nothing is stranded. -/
theorem stranded_of_nil {op : CoreMethod} (hnil : takenFirst h args op = []) :
    stranded h args op = [] := by
  rw [stranded, hnil]
  rfl

/-- What is left to do after the references were taken is tidy. -/
theorem failedWith_of_tidy {x : NativeM Ret} {h₁ : Heap} {op : CoreMethod}
    (htaken : Heap.retainAll (takenFirst h args op) h = .ok h₁) (hx : Tidy x)
    (hrun : x env h₁ = .error t h') : h.FailedWith (stranded h args op) t h' := by
  obtain ⟨h₂, message, hnil, ht, hh⟩ := hx.failedWith hrun
  obtain rfl := Except.ok.inj hnil
  refine ⟨h₁, message, ?_, ht, hh⟩
  rw [stranded, htaken]
  exact htaken

/-- A plain error before anything was taken. -/
theorem failedWith_stranded {op : CoreMethod} (hnil : takenFirst h args op = [])
    (hf : h.FailedWith [] t h') : h.FailedWith (stranded h args op) t h' := by
  rw [stranded_of_nil hnil]
  exact hf

/-- One reference is taken, and then something tidy is done. -/
theorem failedWith_of_retain {op : CoreMethod} {q : ObjId} {f : ObjId → NativeM Ret}
    (htaken : takenFirst h args op = [q]) (hf : Tidy (f q))
    (hrun : (retain q >>= f) env h = .error t h') : h.FailedWith (stranded h args op) t h' := by
  have hall : Heap.retainAll (takenFirst h args op) h = h.retain q := by
    rw [htaken, Heap.retainAll]
    rcases h.retain q with _ | _ <;> rfl
  rw [bind_apply, retain_apply] at hrun
  rcases hr : h.retain q with e | h₁
  · rw [hr] at hrun
    have hnil : stranded h args op = [] := by rw [stranded, hall, hr]
    rw [hnil]
    obtain ⟨rfl, rfl⟩ := EStateM.Result.error.inj hrun
    exact ⟨h, e.message, rfl, rfl, rfl⟩
  · rw [hr] at hrun
    exact failedWith_of_tidy (hall.trans hr) hf hrun

/-- What is stored first is a value under a text. -/
theorem storedValue_ne_nil (hne : storedValue h args ≠ []) :
    ∃ key value rest text, args = .object key :: .object value :: rest ∧
      (h.obj key).payload.text? = some text := by
  unfold storedValue at hne
  split at hne
  · split_ifs at hne with htext
    · obtain ⟨text, htext⟩ := Option.isSome_iff_exists.1 htext
      exact ⟨_, _, _, text, rfl, htext⟩
    · exact absurd rfl hne
  · exact absurd rfl hne

/-- What is pushed first is an object. -/
theorem pushedElement_ne_nil (hne : pushedElement args ≠ []) :
    ∃ element rest, args = .object element :: rest := by
  unfold pushedElement at hne
  split at hne
  · exact ⟨_, _, rfl⟩
  · exact absurd rfl hne

/-- What is pushed first are the elements of a vector. -/
theorem pushedElements_ne_nil (hne : pushedElements h args ≠ []) :
    ∃ source rest elements, args = .object source :: rest ∧
      (h.obj source).payload = .vector elements := by
  unfold pushedElements at hne
  split at hne
  · split at hne
    · exact ⟨_, _, _, rfl, ‹_›⟩
    · exact absurd rfl hne
  · exact absurd rfl hne

/-- Putting a value under a key is tidy. -/
theorem tidy_hashPut (p : ObjId) (key : String) (value : ObjId) : Tidy (hashPut p key value) := by
  refine (reads_entries p).bind_tidy fun old => ((calm_setPayload _ _).bind fun _ => ?_).tidy
  split
  · exact (calm_release _).bind fun _ => calm_pure _
  · exact calm_pure _

/-- Appending elements is tidy. -/
theorem tidy_vectorAppend (p : ObjId) (added : List (Option ObjId)) :
    Tidy (vectorAppend p added) :=
  (reads_elements p).bind_tidy fun _ => ((calm_setPayload _ _).bind fun _ => calm_pure _).tidy

/-- Storing fails with what it strands. -/
theorem hashStore_error (hrun : Hash.store p args env h = .error t h') :
    h.FailedWith (stranded h args .hashStore) t h' := by
  by_cases hshape : ∃ key value rest text, args = .object key :: .object value :: rest ∧
      (h.obj key).payload.text? = some text
  · obtain ⟨key, value, rest, text, rfl, htext⟩ := hshape
    have htaken : takenFirst h (.object key :: .object value :: rest) .hashStore = [value] := by
      rw [takenFirst, storedValue, if_pos (Option.isSome_iff_exists.2 ⟨text, htext⟩)]
    rw [hashStore_run rest htext] at hrun
    exact failedWith_of_retain htaken (tidy_hashPut p text value) hrun
  · have hnil : takenFirst h args .hashStore = [] := by
      by_contra hne
      exact hshape (storedValue_ne_nil hne)
    refine failedWith_stranded hnil ?_
    rcases (reads_argAt args 0).bind_error hrun with hf | ⟨a, ha, hrun⟩
    · exact hf
    rcases (reads_toText a).bind_error hrun with hf | ⟨text, htext, hrun⟩
    · exact hf
    rcases (reads_argAt args 1).bind_error hrun with hf | ⟨b, hb, hrun⟩
    · exact hf
    rcases (reads_toObject b).bind_error hrun with hf | ⟨value, hvalue, hrun⟩
    · exact hf
    rcases value with _ | value
    · exact (reads_fail _).tidy.failedWith hrun
    · obtain ⟨key, rfl, hkey⟩ := toText_ok htext
      obtain rfl := toObject_ok hvalue
      rcases args with _ | ⟨x, _ | ⟨y, rest⟩⟩
      · exact absurd (argAt_ok ha) (by simp)
      · exact absurd (argAt_ok hb) (by simp)
      · obtain rfl := Option.some.inj (argAt_ok ha)
        obtain rfl := Option.some.inj (argAt_ok hb)
        exact absurd ⟨key, value, rest, text, rfl, hkey⟩ hshape

/-- Pushing fails with what it strands. -/
theorem vectorPush_error (hrun : Vector.push p args env h = .error t h') :
    h.FailedWith (stranded h args .vectorPush) t h' := by
  by_cases hshape : ∃ element rest, args = .object element :: rest
  · obtain ⟨element, rest, rfl⟩ := hshape
    rw [vectorPush_run element rest] at hrun
    have htaken : takenFirst h (.object element :: rest) .vectorPush = [element] := rfl
    exact failedWith_of_retain htaken (tidy_vectorAppend p [some element]) hrun
  · have hnil : takenFirst h args .vectorPush = [] := by
      by_contra hne
      exact hshape (pushedElement_ne_nil hne)
    refine failedWith_stranded hnil ?_
    rcases (reads_argAt args 0).bind_error hrun with hf | ⟨a, ha, hrun⟩
    · exact hf
    rcases (reads_toObject a).bind_error hrun with hf | ⟨element, helement, hrun⟩
    · exact hf
    rcases element with _ | element
    · rw [Vector.retain, pure_bind] at hrun
      exact (tidy_vectorAppend p [none]).failedWith hrun
    · obtain rfl := toObject_ok helement
      rcases args with _ | ⟨x, rest⟩
      · exact absurd (argAt_ok ha) (by simp)
      · obtain rfl := Option.some.inj (argAt_ok ha)
        exact absurd ⟨element, rest, rfl⟩ hshape

/-- The payload is of the kind that the method adds to. -/
def Suits (payload : Payload) : CoreMethod → Prop
  | .hashStore => ∃ entries, payload = .hash entries
  | .vectorPush => ∃ elements, payload = .vector elements
  | .vectorPushAll => ∃ elements, payload = .vector elements
  | _ => True

/-- What is stranded was taken first. -/
theorem stranded_ne_nil {op : CoreMethod} (hne : stranded h args op ≠ []) :
    takenFirst h args op ≠ [] ∧ ∃ h₁, Heap.retainAll (takenFirst h args op) h = .ok h₁ := by
  unfold stranded at hne
  split at hne
  · exact ⟨hne, _, ‹_›⟩
  · exact absurd rfl hne

/-- **On a receiver with a payload of its own kind** a method that throws strands nothing: once
its references are taken it does not throw. -/
theorem stranded_of_suits {op : CoreMethod} (hsuits : Suits (h.obj p).payload op)
    (hrun : runMethod p args op env h = .error t h') : stranded h args op = [] := by
  by_contra hne
  obtain ⟨htaken, h₁, hall⟩ := stranded_ne_nil hne
  have hpay := Heap.payload_retainAll p hall
  -- all references are taken, so the body goes on to the payload, which is of its own kind
  cases op with
  | hashStore =>
    obtain ⟨entries, hentries⟩ := hsuits
    obtain ⟨key, value, rest, text, rfl, htext⟩ := storedValue_ne_nil htaken
    have hrun' : Hash.store p (.object key :: .object value :: rest) env h = .error t h' := hrun
    have hone : takenFirst h (.object key :: .object value :: rest) .hashStore = [value] := by
      rw [takenFirst, storedValue, if_pos (Option.isSome_iff_exists.2 ⟨text, htext⟩)]
    rw [hone] at hall
    rw [hashStore_run rest htext, bind_of_ok (retain_run env (Heap.retainAll_one hall)),
      hashPut_run (hpay.trans hentries)] at hrun'
    exact absurd hrun' (by simp)
  | vectorPush =>
    obtain ⟨elements, helements⟩ := hsuits
    obtain ⟨element, rest, rfl⟩ := pushedElement_ne_nil htaken
    have hrun' : Vector.push p (.object element :: rest) env h = .error t h' := hrun
    rw [vectorPush_run element rest, bind_of_ok (retain_run env (Heap.retainAll_one hall)),
      vectorAppend_run (hpay.trans helements)] at hrun'
    exact absurd hrun' (by simp)
  | vectorPushAll =>
    obtain ⟨elements, helements⟩ := hsuits
    obtain ⟨source, rest, added, rfl, hadded⟩ := pushedElements_ne_nil htaken
    have hrun' : Vector.pushAll p (.object source :: rest) env h = .error t h' := hrun
    have hsome : takenFirst h (.object source :: rest) .vectorPushAll = added.filterMap id := by
      rw [takenFirst, pushedElements, hadded]
    rw [hsome] at hall
    rw [vectorPushAll_run rest hadded] at hrun'
    rcases vectorRetainAll_run env added [] h with ⟨h₂, hall', hend⟩ | ⟨e, had, h₂, hall', -⟩
    · obtain rfl := Except.ok.inj (hall.symm.trans hall')
      rw [bind_of_ok hend, vectorAppend_run (hpay.trans helements)] at hrun'
      exact absurd hrun' (by simp)
    · exact absurd (hall.symm.trans hall') (by simp)
  | _ => exact htaken rfl

/-! ### The ledger after a throw -/

section Thrown

variable {base : Heap} {owned : Multiset ObjId} {m : Machine} {global : Registry}

/-- The thrown error is owned, and what is stranded is as good as owned; what was temporary
before still is. -/
structure Leaves (base : Heap) (owned : Multiset ObjId) (taken : List ObjId) (h : Heap)
    (t : Thrown) (h' : Heap) : Prop where
  ledger : Ledger base (t.object ::ₘ ((taken : Multiset ObjId) + owned)) h'
  transient : h.Transient base.cells.size → h'.Transient base.cells.size

/-- A failure leaves its error and what it strands owned. -/
theorem leaves_of_failedWith {taken : List ObjId} (l : Ledger base owned h)
    (hb : ∀ q ∈ taken, base.Backed h q) (hf : h.FailedWith taken t h') :
    Leaves base owned taken h t h' :=
  ⟨l.failedWith hb hf, fun hn => hn.failedWith hf⟩

/-- Only what was taken first is stranded. -/
theorem mem_stranded {op : CoreMethod} {q : ObjId} (hq : q ∈ stranded h args op) :
    q ∈ takenFirst h args op := by
  unfold stranded at hq
  split at hq
  · exact hq
  · exact absurd hq List.not_mem_nil

/-- Some of the elements were taken and given back. -/
theorem leaves_of_partial (l : Ledger base owned h) {had : List ObjId} {h₁ : Heap}
    {message : String} (hb : ∀ q ∈ had, base.Backed h q) (hhad : Heap.retainAll had h = .ok h₁) :
    Leaves base owned [] h ⟨(h₁.alloc Parcel.err (.err message)).1⟩
      ((h₁.alloc Parcel.err (.err message)).2.giveBackAll (m.release global) had) := by
  have hf : h.FailedWith had ⟨(h₁.alloc Parcel.err (.err message)).1⟩
      (h₁.alloc Parcel.err (.err message)).2 := ⟨h₁, message, hhad, rfl, rfl⟩
  have l₁ := l.failedWith hb hf
  rw [← Multiset.add_cons] at l₁
  obtain ⟨h₂, hall, l₂, s⟩ := l₁.giveBackAll had
  rw [hall m global]
  refine ⟨?_, fun hn => (hn.failedWith hf).shrinks s⟩
  rw [Multiset.coe_nil, zero_add]
  exact l₂

/-- Pushing all elements leaves what it strands when it fails. -/
theorem vectorPushAll_leaves (l : Ledger base owned h)
    (hb : ∀ q ∈ takenFirst h args .vectorPushAll, base.Backed h q)
    (hrun : Vector.pushAll p args (m.env global) h = .error t h') :
    Leaves base owned (stranded h args .vectorPushAll) h t h' := by
  have hplain : h.FailedWith (stranded h args .vectorPushAll) t h' →
      Leaves base owned (stranded h args .vectorPushAll) h t h' :=
    leaves_of_failedWith l fun q hq => hb q (mem_stranded hq)
  -- it fails with all elements taken, with some of them, or before it takes any
  by_cases hshape : ∃ source rest elements, args = .object source :: rest ∧
      (h.obj source).payload = .vector elements
  · obtain ⟨source, rest, elements, rfl, hpay⟩ := hshape
    have htaken : takenFirst h (.object source :: rest) .vectorPushAll = elements.filterMap id := by
      rw [takenFirst, pushedElements, hpay]
    rw [vectorPushAll_run rest hpay] at hrun
    rcases vectorRetainAll_run (m.env global) elements [] h with
      ⟨h₁, hall, hend⟩ | ⟨e, had, h₁, hall, hhad, hmem, hend⟩
    · rw [bind_of_ok hend] at hrun
      exact hplain (failedWith_of_tidy (htaken ▸ hall) (tidy_vectorAppend p elements) hrun)
    · have hnil : stranded h (.object source :: rest) .vectorPushAll = [] := by
        rw [stranded, htaken, hall]
      rw [bind_apply, hend] at hrun
      obtain ⟨rfl, rfl⟩ := EStateM.Result.error.inj hrun
      rw [hnil]
      exact leaves_of_partial l (fun q hq => hb q (htaken ▸ hmem q hq)) hhad
  · have hnil : takenFirst h args .vectorPushAll = [] := by
      by_contra hne
      exact hshape (pushedElements_ne_nil hne)
    refine hplain (failedWith_stranded hnil ?_)
    rcases (reads_argAt args 0).bind_error hrun with hf | ⟨a, ha, hrun⟩
    · exact hf
    rcases (reads_toObject a).bind_error hrun with hf | ⟨source, hsource, hrun⟩
    · exact hf
    rcases source with _ | source
    · exact (reads_fail _).tidy.failedWith hrun
    rcases (reads_elements source).bind_error hrun with hf | ⟨elements, helements, hrun⟩
    · exact hf
    · obtain rfl := toObject_ok hsource
      rcases args with _ | ⟨x, rest⟩
      · exact absurd (argAt_ok ha) (by simp)
      · obtain rfl := Option.some.inj (argAt_ok ha)
        exact absurd ⟨source, rest, elements, rfl, elements_ok helements⟩ hshape

/-- **A method that throws** leaves the error, and what it has stranded. -/
theorem runMethod_leaves (l : Ledger base owned h) {op : CoreMethod}
    (hb : ∀ q ∈ takenFirst h args op, base.Backed h q)
    (hrun : runMethod p args op (m.env global) h = .error t h') :
    Leaves base owned (stranded h args op) h t h' := by
  have hplain : h.FailedWith (stranded h args op) t h' →
      Leaves base owned (stranded h args op) h t h' :=
    leaves_of_failedWith l fun q hq => hb q (mem_stranded hq)
  by_cases hop : op ∈ retainsFirst
  · simp only [retainsFirst, List.mem_cons, List.not_mem_nil, or_false] at hop
    rcases hop with rfl | rfl | rfl
    · exact hplain (hashStore_error hrun)
    · exact hplain (vectorPush_error hrun)
    · exact vectorPushAll_leaves l hb hrun
  · have hnil : takenFirst h args op = [] := by
      cases op <;> first | rfl | exact absurd (by decide) hop
    exact hplain (failedWith_stranded hnil ((runMethod_tidy p args hop).failedWith hrun))

/-- A constructor that throws leaves the error. -/
theorem runConstructor_leaves (l : Ledger base owned h) {cls : Class} {op : CoreConstructor}
    (hrun : runConstructor cls args op (m.env global) h = .error t h') :
    Leaves base owned [] h t h' :=
  leaves_of_failedWith l (fun _ hq => absurd hq List.not_mem_nil)
    ((runConstructor_tidy cls args op).failedWith hrun)

/-- A function that throws leaves the error. -/
theorem runFunction_leaves (l : Ledger base owned h) {op : CoreFunction}
    (hb : ∀ q, .object q ∈ args → base.Backed h q)
    (hrun : runFunction args op (m.env global) h = .error t h') :
    Leaves base owned [] h t h' := by
  have hplain : h.FailedWith [] t h' → Leaves base owned [] h t h' :=
    leaves_of_failedWith l fun q hq => absurd hq List.not_mem_nil
  by_cases hop : op = .rethrow
  · subst hop
    rcases (reads_argAt args 0).bind_error hrun with hf | ⟨a, ha, hrun⟩
    · exact hplain hf
    rcases (reads_toObject a).bind_error hrun with hf | ⟨q, hq, hthrow⟩
    · exact hplain hf
    rcases q with _ | q
    · exact hplain ((reads_fail _).tidy.failedWith hthrow)
    obtain rfl := toObject_ok hq
    have hback := hb q (List.mem_of_getElem? (argAt_ok ha))
    simp only [bind_apply, retain_apply] at hthrow
    rcases hr : h.retain q with e | h₁
    · rw [hr] at hthrow
      obtain ⟨rfl, rfl⟩ := EStateM.Result.error.inj hthrow
      exact hplain ⟨h, e.message, rfl, rfl, rfl⟩
    · rw [hr] at hthrow
      obtain ⟨rfl, rfl⟩ := EStateM.Result.error.inj hthrow
      refine ⟨?_, fun hn => hn.retain hr⟩
      rw [Multiset.coe_nil, zero_add]
      exact l.retain hback hr
  · exact hplain ((runFunction_tidy args hop).failedWith hrun)

end Thrown

end Parcel

end Interop

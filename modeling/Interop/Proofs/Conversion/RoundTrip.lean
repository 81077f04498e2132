/-
# Into the heap and back

A plain value, one without wrappers, is built unless a dict in it has a null for a value, and
the first such null is what it is refused for (`missing?`).  What is built shows the value
(`build_shows`), so copying it out gives the value back.

`pushArg_roundTrip` puts both ways together for a parameter that takes any object: the value
comes back as it went in, whether the object is lent or handed over, and once the frame is
gone the heap holds what it held before.
-/

import Interop.Proofs.Call.Acceptance
import Interop.Proofs.Conversion.Convertible
import Interop.Proofs.Conversion.Shown

namespace Interop

namespace World

/-- The objects in `hidden` are there, and none of them is a truth value. -/
def Hides (hidden : List ObjId) (w : World) : Prop :=
  ∀ p ∈ hidden, (∃ o, w.heap.get? p = some o) ∧ ∀ b, p ≠ Heap.booleanId b

variable {w w' : World} {hidden : List ObjId} {taken : Multiset ObjId}

/-- Nothing at all is hidden in every world. -/
theorem Hides.nil (w : World) : w.Hides [] :=
  fun _ hp => absurd hp List.not_mem_nil

/-- What is hidden stays hidden when a world grows. -/
theorem Hides.grew (h : w.Hides hidden) (g : w.Grew taken w') : w'.Hides hidden := by
  intro p hp
  obtain ⟨⟨o, ho⟩, htruth⟩ := h p hp
  obtain ⟨count, hc, -⟩ := g.kept p o ho
  exact ⟨⟨_, hc⟩, htruth⟩

/-- What is looked at does not change while objects are made and references are taken. -/
theorem Grew.view (g : w.Grew taken w') (p : ObjId) (payload : Payload)
    (hp : w.heap.view hidden p = some payload) : w'.heap.view hidden p = some payload := by
  obtain ⟨hnot, o, ho, hpayload⟩ := Heap.view_eq_some.1 hp
  obtain ⟨count, hc, -⟩ := g.kept p o ho
  exact Heap.view_eq_some.2 ⟨hnot, _, hc, hpayload⟩

/-- A truth value is looked at. -/
theorem Grounded.view_truth (g : w.Grounded) (hhidden : w.Hides hidden) (b : Bool) :
    w.heap.view hidden (Heap.booleanId b) = some (.boolean b) := by
  obtain ⟨count, ho⟩ := g.truth b
  exact Heap.view_eq_some.2 ⟨fun hmem => (hhidden _ hmem).2 b rfl, _, ho, rfl⟩

end World

/-- A value that counts as null is the null value. -/
theorem HostValue.eq_null {v : HostValue} (h : v.isNull = true) : v = .null := by
  cases v with
  | null => rfl
  | _ => exact absurd h Bool.false_ne_true

namespace Handle

/-- The last of some handles changes. -/
theorem modify_push (handles : Array HandleState) (state : HandleState)
    (f : HandleState → HandleState) :
    (handles.push state).modify handles.size f = handles.push (f state) := by
  refine Array.ext_getElem? fun i => ?_
  rw [Array.getElem?_modify, Array.getElem?_push, Array.getElem?_push]
  by_cases hi : i = handles.size
  · rw [if_pos hi.symm, if_pos hi, if_pos hi, Option.map_some]
  · rw [if_neg (Ne.symm hi), if_neg hi, if_neg hi]

/-- A handle that is dropped at once gives back the reference that it adopted. -/
theorem drop_acquire (m : Machine) (p : ObjId) (w : World) :
    drop m (acquire p w).1 (acquire p w).2 =
      World.settle
        { heap := w.heap
          handles := w.handles.push
            ⟨p, (w.obj p).cls, false, w.program.current.1.releasePolicy, 0⟩
          program := w.program.current.2 }
        (m.release w.program.current.2.registryView p w.heap).2 := by
  have hlast : ∀ state : HandleState,
      ((w.handles.push state)[w.handles.size]?).getD .vacant = state := by simp
  simp only [drop, acquire, World.modifyHandle, World.handle, surrender, World.release,
    modify_push, hlast]
  simp

end Handle

namespace Conversion

/-- A new object is the next one of the heap. -/
theorem newObject_eq {cls : Class} {payload : Payload} {w w' : World} {q : Option ObjId}
    (h : newObject cls payload w = .ok q w') :
    some (World.alloc cls payload w).1 = q ∧ (World.alloc cls payload w).2 = w' := by
  simpa [newObject] using h

/-! ### What plain values are refused for -/

mutual

/-- The first null in a dict of a plain value that is built for the parameter `param`, as it is
named when the value is refused for it. -/
def missing? (param : String) : HostValue → Option String
  | .list items => missingInList? param items
  | .dict entries => missingInEntries? param entries
  | _ => none

/-- The first null in a dict of a value of the list. -/
def missingInList? (param : String) : List HostValue → Option String
  | [] => none
  | v :: rest => (missing? param v).or (missingInList? param rest)

/-- The first null among the values of a dict, or in a dict of one of them. -/
def missingInEntries? (param : String) : List (String × HostValue) → Option String
  | [] => none
  | e :: rest =>
    if e.2.isNull then some (param ++ "[" ++ Text.quote e.1 ++ "]")
    else (missing? param e.2).or (missingInEntries? param rest)

end

variable {param : String}

mutual

/-- A plain value is refused for nothing exactly when it is convertible. -/
theorem missing?_eq_none_iff (param : String) (owns : HandleId → Bool) :
    ∀ {v : HostValue}, v.objects = [] → (missing? param v = none ↔ v.Convertible owns)
  | .null, _ => ⟨fun _ => trivial, fun _ => rfl⟩
  | .bool _, _ => ⟨fun _ => trivial, fun _ => rfl⟩
  | .int _, _ => ⟨fun _ => trivial, fun _ => rfl⟩
  | .float _, _ => ⟨fun _ => trivial, fun _ => rfl⟩
  | .str _, _ => ⟨fun _ => trivial, fun _ => rfl⟩
  | .object o, h => absurd h (List.cons_ne_nil o [])
  | .list _, h => missingInList?_eq_none_iff param owns h
  | .dict _, h => missingInEntries?_eq_none_iff param owns h

/-- A list without wrappers lacks nothing just when it can be converted. -/
theorem missingInList?_eq_none_iff (param : String) (owns : HandleId → Bool) :
    ∀ {items : List HostValue}, Value.objectsOfList items = [] →
      (missingInList? param items = none ↔ Value.ConvertibleList owns items)
  | [], _ => ⟨fun _ => trivial, fun _ => rfl⟩
  | v :: rest, h => by
    obtain ⟨hv, hrest⟩ := List.append_eq_nil_iff.1 h
    rw [missingInList?, Option.or_eq_none_iff, missing?_eq_none_iff param owns hv,
      missingInList?_eq_none_iff param owns hrest, Value.ConvertibleList]

/-- A dictionary without wrappers lacks nothing just when it can be converted. -/
theorem missingInEntries?_eq_none_iff (param : String) (owns : HandleId → Bool) :
    ∀ {entries : List (String × HostValue)}, Value.objectsOfEntries entries = [] →
      (missingInEntries? param entries = none ↔ Value.ConvertibleEntries owns entries)
  | [], _ => ⟨fun _ => trivial, fun _ => rfl⟩
  | e :: rest, h => by
    obtain ⟨hv, hrest⟩ := List.append_eq_nil_iff.1 h
    rw [missingInEntries?, Value.ConvertibleEntries]
    rcases hnull : e.2.isNull with _ | _
    · rw [if_neg Bool.false_ne_true, Option.or_eq_none_iff, missing?_eq_none_iff param owns hv,
        missingInEntries?_eq_none_iff param owns hrest]
      simp
    · simp

end

/-- A plain value that is convertible can be built. -/
theorem build_of_plain (m : Machine) {v : HostValue} {w : World} (g : w.Grounded)
    (hv : v.objects = []) (hnone : missing? param v = none) :
    ∃ q w', build m param v w = .ok q w' := by
  refine build_complete m param v g ((missing?_eq_none_iff param w.owns hv).1 hnone) ?_
  rw [hv]
  exact fun p hp => absurd hp (Multiset.notMem_zero p)

mutual

/-- **A null in a dict is refused**, whatever was built before it. -/
theorem build_of_missing (m : Machine) {place : String} :
    ∀ (v : HostValue) {w : World}, w.Grounded → v.objects = [] → missing? param v = some place →
      ∃ w', build m param v w = .error (.missingValue place) w'
  | .null, _, _, _, h => absurd h (by simp [missing?])
  | .bool _, _, _, _, h => absurd h (by simp [missing?])
  | .int _, _, _, _, h => absurd h (by simp [missing?])
  | .float _, _, _, _, h => absurd h (by simp [missing?])
  | .str _, _, _, _, h => absurd h (by simp [missing?])
  | .object _, _, _, _, h => absurd h (by simp [missing?])
  | .list items, w, g, hobjects, h => by
    obtain ⟨w', hlist⟩ := buildList_of_missing m items [] g hobjects h
    refine ⟨w', ?_⟩
    rw [build, Steps.bind_apply, hlist]
  | .dict entries, w, g, hobjects, h => by
    obtain ⟨w', hentries⟩ := buildEntries_of_missing m entries .empty g hobjects h
    refine ⟨w', ?_⟩
    rw [build, Steps.bind_apply, hentries]

/-- A list that lacks a value is refused there. -/
theorem buildList_of_missing (m : Machine) {place : String} :
    ∀ (items : List HostValue) (built : List (Option ObjId)) {w : World}, w.Grounded →
      Value.objectsOfList items = [] → missingInList? param items = some place →
      ∃ w', buildList m param built items w = .error (.missingValue place) w'
  | [], _, _, _, _, h => absurd h (by simp [missingInList?])
  | v :: rest, built, w, g, hobjects, h => by
    obtain ⟨hv, hrest⟩ := List.append_eq_nil_iff.1 hobjects
    rw [missingInList?, Option.or_eq_some_iff] at h
    rcases h with h | ⟨hnone, h⟩
    · obtain ⟨w', hone⟩ := build_of_missing m v g hv h
      refine ⟨w'.releaseAll m (built.filterMap id), ?_⟩
      rw [buildList, Steps.bind_apply, World.onRefusal_apply, hone]
    · obtain ⟨q, w₁, hone⟩ := build_of_plain m g hv hnone
      obtain ⟨w', hothers⟩ := buildList_of_missing m rest (built ++ [q])
        ((build_sound m param v g hone).2.1.grounded g) hrest h
      refine ⟨w', ?_⟩
      rw [buildList, Steps.bind_apply, World.onRefusal_apply, hone]
      exact hothers

/-- A dictionary that lacks a value is refused there. -/
theorem buildEntries_of_missing (m : Machine) {place : String} :
    ∀ (entries : List (String × HostValue)) (built : KeyMap ObjId) {w : World}, w.Grounded →
      Value.objectsOfEntries entries = [] → missingInEntries? param entries = some place →
      ∃ w', buildEntries m param built entries w = .error (.missingValue place) w'
  | [], _, _, _, _, h => absurd h (by simp [missingInEntries?])
  | e :: rest, built, w, g, hobjects, h => by
    obtain ⟨hv, hrest⟩ := List.append_eq_nil_iff.1 hobjects
    rw [missingInEntries?] at h
    split_ifs at h with hnull
    · -- null itself is built into nothing, and only then refused
      obtain rfl := Option.some.inj h
      have hnone : build m param e.2 w = .ok none w := by
        rw [HostValue.eq_null hnull]
        rfl
      refine ⟨w.releaseAll m built.values, ?_⟩
      rw [buildEntries, Steps.bind_apply, World.onRefusal_apply, hnone]
      rfl
    · rcases Option.or_eq_some_iff.1 h with h | ⟨hnone, h⟩
      · obtain ⟨w', hone⟩ := build_of_missing m e.2 g hv h
        refine ⟨w'.releaseAll m built.values, ?_⟩
        rw [buildEntries, Steps.bind_apply, World.onRefusal_apply, hone]
      · obtain ⟨q, w₁, hone⟩ := build_of_plain m g hv hnone
        obtain ⟨-, hgrew, hbuilt⟩ := build_sound m param e.2 g hone
        rcases q with _ | p
        · exact absurd hbuilt hnull
        obtain ⟨w', hothers⟩ := buildEntries_of_missing m rest (built.insert e.1 p)
          (hgrew.grounded g) hrest h
        refine ⟨w', ?_⟩
        rw [buildEntries, Steps.bind_apply, World.onRefusal_apply, hone]
        exact hothers

end

/-! ### What is built -/

variable {w w' : World} {hidden : List ObjId} {v : HostValue} {q : Option ObjId}

/-- A new object holds its payload, if what it holds was there before. -/
theorem holds_newObject {cls : Class} {payload : Payload} (hhidden : w.Hides hidden)
    (hrefs : ∀ p ∈ payload.references, ∃ x, w.heap.view hidden p = some x) :
    ((World.alloc cls payload w).2.heap.view hidden).Holds (World.alloc cls payload w).1
      payload := by
  refine ⟨Heap.view_eq_some.2 ⟨fun hmem => ?_, _, Heap.get?_alloc_self _ _, rfl⟩, fun p hp => ?_⟩
  · obtain ⟨⟨o, ho⟩, -⟩ := hhidden _ hmem
    exact absurd (Heap.index_lt_of_get? ho) (Nat.lt_irrefl _)
  · obtain ⟨x, hx⟩ := hrefs p hp
    obtain ⟨o, ho, -⟩ := Heap.get?_of_view hx
    exact Heap.index_lt_of_get? ho

mutual

/-- **What is built for a plain value shows it.** -/
theorem build_shows (m : Machine) :
    ∀ (v : HostValue) {w w' : World} {q : Option ObjId}, w.Grounded → w.Hides hidden →
      v.objects = [] → v.WellFormed → build m param v w = .ok q w' →
      (w'.heap.view hidden).Shows v q
  | .null, w, w', q, _, _, _, _, h => by
    obtain ⟨rfl, -⟩ : none = q ∧ w = w' := by simpa [build] using h
    rfl
  | .bool value, w, w', q, g, hhidden, _, _, h => by
    obtain ⟨rfl, rfl⟩ : some (Heap.booleanId value) = q ∧ w = w' := by simpa [build] using h
    exact ⟨_, rfl, g.view_truth hhidden value, fun p hp => absurd hp List.not_mem_nil⟩
  | .int value, w, w', q, _, hhidden, _, _, h => by
    obtain ⟨rfl, rfl⟩ := newObject_eq h
    exact ⟨_, rfl, holds_newObject hhidden fun p hp => absurd hp List.not_mem_nil⟩
  | .float value, w, w', q, _, hhidden, _, _, h => by
    obtain ⟨rfl, rfl⟩ := newObject_eq h
    exact ⟨_, rfl, holds_newObject hhidden fun p hp => absurd hp List.not_mem_nil⟩
  | .str value, w, w', q, _, hhidden, _, _, h => by
    obtain ⟨rfl, rfl⟩ := newObject_eq h
    exact ⟨_, rfl, holds_newObject hhidden fun p hp => absurd hp List.not_mem_nil⟩
  | .object o, _, _, _, _, _, hobjects, _, _ => absurd hobjects (List.cons_ne_nil o [])
  | .list items, w, w', q, g, hhidden, hobjects, hwell, h => by
    -- the elements are built before the vector, and the view only grows after that
    obtain ⟨elements, w₁, hlist, hnew⟩ := Steps.bind_ok h
    obtain ⟨new, helements, hall⟩ := buildList_shows m items g hhidden hobjects hwell hlist
    obtain ⟨-, hgrew⟩ := buildList_sound m param items g hlist
    obtain ⟨rfl, rfl⟩ := newObject_eq hnew
    obtain rfl : elements = new := helements
    refine ⟨_, elements, rfl, holds_newObject (hhidden.grew hgrew) ?_,
      hall.mono (World.Grew.alloc ..).view⟩
    intro p hp
    obtain ⟨q, hq, hqp⟩ := List.mem_filterMap.1 hp
    obtain rfl : q = some p := hqp
    exact hall.seen p hq
  | .dict entries, w, w', q, g, hhidden, hobjects, hwell, h => by
    obtain ⟨built, w₁, hentries, hnew⟩ := Steps.bind_ok h
    obtain ⟨new, hbuilt, hall⟩ := buildEntries_shows m entries g hhidden hobjects hwell.1 hwell.2
      (fun b hb => absurd hb List.not_mem_nil) hentries
    obtain ⟨-, hgrew⟩ := buildEntries_sound m param entries g hentries
    obtain ⟨rfl, rfl⟩ := newObject_eq hnew
    obtain rfl : built.entries = new := hbuilt
    refine ⟨_, built, rfl, holds_newObject (hhidden.grew hgrew) ?_,
      hall.mono (World.Grew.alloc ..).view⟩
    intro p hp
    obtain ⟨b, hb, rfl⟩ := List.mem_map.1 hp
    exact hall.seen b hb

/-- The elements that were built are shown by the list. -/
theorem buildList_shows (m : Machine) :
    ∀ (items : List HostValue) {built elements : List (Option ObjId)} {w w' : World}, w.Grounded →
      w.Hides hidden → Value.objectsOfList items = [] → Value.WellFormedList items →
      buildList m param built items w = .ok elements w' →
      ∃ new, elements = built ++ new ∧ (w'.heap.view hidden).ShowsList items new
  | [], built, elements, w, w', _, _, _, _, h => by
    obtain ⟨rfl, -⟩ : built = elements ∧ w = w' := by simpa [buildList] using h
    exact ⟨[], (List.append_nil _).symm, rfl⟩
  | v :: rest, built, elements, w, w', g, hhidden, hobjects, hwell, h => by
    obtain ⟨hv, hrest⟩ := List.append_eq_nil_iff.1 hobjects
    obtain ⟨q, w₁, hone, hothers⟩ := Steps.bind_ok h
    have hbuild := World.onRefusal_ok hone
    obtain ⟨-, hgrew, -⟩ := build_sound m param v g hbuild
    have hshows := build_shows m v g hhidden hv hwell.1 hbuild
    obtain ⟨new, rfl, hall⟩ := buildList_shows m rest (hgrew.grounded g) (hhidden.grew hgrew) hrest
      hwell.2 hothers
    obtain ⟨-, hgrew'⟩ := buildList_sound m param rest (hgrew.grounded g) hothers
    exact ⟨q :: new, by rw [List.append_assoc, List.singleton_append], q, new, rfl,
      hshows.mono hgrew'.view, hall⟩

/-- The entries that were built are shown by the dictionary. -/
theorem buildEntries_shows (m : Machine) :
    ∀ (entries : List (String × HostValue)) {built all : KeyMap ObjId} {w w' : World}, w.Grounded →
      w.Hides hidden → Value.objectsOfEntries entries = [] → Ascending entries →
      Value.WellFormedEntries entries → (∀ b ∈ built.entries, ∀ e ∈ entries, b.1 < e.1) →
      buildEntries m param built entries w = .ok all w' →
      ∃ new, all.entries = built.entries ++ new ∧ (w'.heap.view hidden).ShowsEntries entries new
  | [], built, all, w, w', _, _, _, _, _, _, h => by
    obtain ⟨rfl, -⟩ : built = all ∧ w = w' := by simpa [buildEntries] using h
    exact ⟨[], (List.append_nil _).symm, rfl⟩
  | e :: rest, built, all, w, w', g, hhidden, hobjects, hasc, hwell, hbelow, h => by
    obtain ⟨hv, hrest⟩ := List.append_eq_nil_iff.1 hobjects
    have hasc' := List.pairwise_cons.1 hasc
    obtain ⟨q, w₁, hone, hothers⟩ := Steps.bind_ok h
    have hbuild := World.onRefusal_ok hone
    obtain ⟨-, hgrew, -⟩ := build_sound m param e.2 g hbuild
    have hshows := build_shows m e.2 g hhidden hv hwell.1 hbuild
    rcases q with _ | p
    · exact absurd hothers (by simp)
    have hinsert : (built.insert e.1 p).entries = built.entries ++ [(e.1, p)] :=
      insertSorted_of_lt fun b hb => hbelow b hb e List.mem_cons_self
    have hbelow' : ∀ b ∈ (built.insert e.1 p).entries, ∀ x ∈ rest, b.1 < x.1 := by
      intro b hb x hx
      rw [hinsert, List.mem_append, List.mem_singleton] at hb
      rcases hb with hb | rfl
      · exact hbelow b hb x (List.mem_cons_of_mem _ hx)
      · exact hasc'.1 x hx
    obtain ⟨new, hnew, hall⟩ := buildEntries_shows m rest (hgrew.grounded g) (hhidden.grew hgrew)
      hrest hasc'.2 hwell.2 hbelow' hothers
    obtain ⟨-, hgrew'⟩ := buildEntries_sound m param rest (hgrew.grounded g) hothers
    refine ⟨(e.1, p) :: new, ?_, p, new, rfl, hshows.mono hgrew'.view, hall⟩
    rw [hnew, hinsert, List.append_assoc, List.singleton_append]

end

/-- What is built for a value other than a wrapper is of the class of its payload, and immortal
or with the one reference of its maker. -/
theorem build_made (m : Machine) {p : ObjId} (g : w.Grounded) (hv : ∀ x, v ≠ .object x)
    (h : build m param v w = .ok (some p) w') :
    ∃ o, w'.heap.get? p = some o ∧ o.cls = o.payload.home ∧
      (o.immortal = false → o.refcount = 1) := by
  have hnew : ∀ (payload : Payload) {w₁}, newObject payload.home payload w₁ = .ok (some p) w' →
      ∃ o, w'.heap.get? p = some o ∧ o.cls = o.payload.home ∧
        (o.immortal = false → o.refcount = 1) := by
    intro payload w₁ hnew
    obtain ⟨hp, rfl⟩ := newObject_eq hnew
    obtain rfl := Option.some.inj hp
    exact ⟨_, Heap.get?_alloc_self _ _, rfl, fun _ => rfl⟩
  cases v with
  | null => exact absurd h (by simp [build])
  | bool value =>
    obtain ⟨rfl, rfl⟩ : Heap.booleanId value = p ∧ w = w' := by simpa [build] using h
    obtain ⟨count, ho⟩ := g.truth value
    exact ⟨_, ho, rfl, fun himm => absurd himm (by simp)⟩
  | object o => exact absurd rfl (hv o)
  | int value => exact hnew (.integer value) h
  | float value => exact hnew (.float value) h
  | str value => exact hnew (.str value) h
  | list items =>
    obtain ⟨elements, w₁, -, h⟩ := Steps.bind_ok h
    exact hnew (.vector elements) h
  | dict entries =>
    obtain ⟨built, w₁, -, h⟩ := Steps.bind_ok h
    exact hnew (.hash built) h

/-- A plain value is not a wrapper. -/
theorem ne_object_of_plain (hv : v.objects = []) (x : Wrapper) : v ≠ .object x := by
  rintro rfl
  exact absurd hv (List.cons_ne_nil x [])

/-- **A plain value other than null** is built into an object that shows it, to which the
caller owns the one reference; or it is refused for the first null in a dict, and nothing is
owned. -/
theorem build_plain (m : Machine) (param : String) (g : w.Grounded) (hhidden : w.Hides hidden)
    (hv : v.objects = []) (hwell : v.WellFormed) (hnull : v.isNull = false) :
    match missing? param v with
    | none => ∃ p w', build m param v w = .ok (some p) w' ∧ w.Staged {p} w' ∧
      (w'.heap.view hidden).Shows v (some p) ∧
      ∃ o, w'.heap.get? p = some o ∧ (o.immortal = false → o.refcount = 1)
    | some place => ∃ w', build m param v w = .error (.missingValue place) w' ∧ w.Staged 0 w' := by
  obtain ⟨r, hr, hstaged⟩ := build_builds g param v hwell (.refl w)
  have hr' : build m param v w = r := hr m
  rcases hmissing : missing? param v with _ | place
  · obtain ⟨q, w', hok⟩ := build_of_plain m g hv hmissing
    obtain rfl := hr'.symm.trans hok
    have hshows := build_shows m v g hhidden hv hwell hok
    rcases q with _ | p
    · rw [hshows.isNull_eq] at hnull
      exact absurd hnull (by simp)
    · have hstaged' : w.Staged (optionRef (some p) + 0) w' := hstaged
      rw [add_zero] at hstaged'
      obtain ⟨o, ho, -, hone⟩ := build_made m g (ne_object_of_plain hv) hok
      exact ⟨p, w', hok, hstaged', hshows, o, ho, hone⟩
  · obtain ⟨w', herror⟩ := build_of_missing m v g hv hmissing
    obtain rfl := hr'.symm.trans herror
    exact ⟨w', herror, hstaged⟩

/-! ### There and back -/

variable {registry : Registry} {p : ObjId}

/-- A value for a parameter that takes any object. -/
theorem pushArg_object (m : Machine) {constraint : Option String} {param : Param}
    (hkind : param.spec.kind = .object constraint) (hnull : v.isNull = false) :
    pushArg m registry param v = pushObject m registry param constraint v := by
  unfold pushArg
  rw [hnull, hkind]
  rfl

/-- What shows a value is converted to it when it is handed over, too; the handle of the
conversion gives the reference back. -/
theorem toHost_incremented (m : Machine) (hv : (w.heap.view hidden).Shows v (some p)) :
    toHost m (.incremented p) w =
      .ok v (Handle.drop m (Handle.acquire p w).1 (Handle.acquire p w).2) := by
  have hcopy : objectToHost m p (Handle.acquire p w).2 = .ok v (Handle.acquire p w).2 :=
    objectToHost_of_shows m hv
  simp only [toHost, Steps.bind_apply, Steps.modifyGet_apply, World.onRefusal_apply, hcopy,
    Steps.modify_apply, Steps.pure_apply]

/-- An object that was made for a value is handed over with a reference more, and when the
frame is gone nothing is left of it. -/
theorem handOver_same (m : Machine) (s : w.Staged {p} w')
    (hshows : (w'.heap.view hidden).Shows v (some p))
    (hsingle : ∃ o, w'.heap.get? p = some o ∧ (o.immortal = false → o.refcount = 1)) :
    ∃ w₁ w₂, World.retain p w' = .ok () w₁ ∧ toHost m (.incremented p) w₁ = .ok v w₂ ∧
      Heap.Same w.heap (w₂.releaseAll m [p]).heap := by
  obtain ⟨o, ho, hone⟩ := hsingle
  obtain ⟨heap, hretain⟩ : ∃ heap, w'.heap.retain p = .ok heap := by
    rw [Heap.retain, Heap.obj_of_get? ho]
    rcases himm : o.immortal with _ | _
    · rw [hone himm]
      exact ⟨_, rfl⟩
    · exact ⟨_, rfl⟩
  have hback : w.heap.Backed w'.heap p :=
    s.ledger.backed p (Multiset.mem_add.2 (Or.inl (Multiset.mem_singleton_self p)))
  have s₁ : w.Staged (p ::ₘ {p}) { w' with heap } := s.retain hback hretain
  have hshows₁ : (heap.view hidden).Shows v (some p) :=
    hshows.mono (World.Grew.retain ho hretain).view
  -- one reference goes with the handle of the conversion, the other with the frame
  obtain ⟨heap₂, hall₂, l₂, hs₂⟩ := s₁.ledger.release
  obtain ⟨heap₃, hall₃, l₃, hs₃⟩ := Ledger.release l₂
  refine ⟨_, _, by rw [World.retain_apply, hretain], toHost_incremented m hshows₁, ?_⟩
  rw [Handle.drop_acquire, World.releaseAll_heap]
  show Heap.Same w.heap (m.release _ p (m.release _ p heap).2).2
  rw [hall₂, hall₃]
  exact l₃.same_of_temporary ((s₁.transient.shrinks hs₂).shrinks hs₃) fun _ hq =>
    absurd hq (Multiset.notMem_zero _)

/-- **Plain values come back as they went in.** A value without wrappers that has no null in a
dict is accepted where any object is.  The object that native code gets is converted to that
very value, whether it is lent or handed over with a reference of its own, and once the
references of the frame are given back the heap holds the same objects as before, with the
same counts.  A value with a null in a dict is refused as missing one, and nothing is left of
it. -/
theorem pushArg_roundTrip (m : Machine) (registry : Registry) {param : Param} {v : HostValue}
    {w : World} (g : w.Grounded) (hkind : param.spec.kind = .object none) (hv : v.objects = [])
    (hwell : v.WellFormed) (hnull : v.isNull = false) :
    (v.Convertible w.owns → ∃ p s, pushArg m registry param v ⟨w, .empty⟩ = .ok () s ∧
      s.frame = (Frame.empty.adopt p).push (.object p) ∧
      toHost m (.borrowed p) s.world = .ok v s.world ∧
      Heap.Same w.heap (s.world.releaseAll m s.frame.owned).heap ∧
      ∃ w₁ w₂, World.retain p s.world = .ok () w₁ ∧ toHost m (.incremented p) w₁ = .ok v w₂ ∧
        Heap.Same w.heap (w₂.releaseAll m s.frame.owned).heap) ∧
    (¬ v.Convertible w.owns → ∃ place w', pushArg m registry param v ⟨w, .empty⟩ =
      .error (.missingValue place) ⟨w', .empty⟩ ∧ w.Unchanged w') := by
  have hplain := build_plain m param.name g (.nil w) hv hwell hnull
  rw [← missing?_eq_none_iff param.name w.owns hv, pushArg_object m hkind hnull]
  rcases hmissing : missing? param.name v with _ | place <;> rw [hmissing] at hplain
  · obtain ⟨p, w', hbuild, hstaged, hshows, hsingle⟩ := hplain
    refine ⟨fun _ => ⟨p, ⟨w', (Frame.empty.adopt p).push (.object p)⟩, ?_, rfl,
      objectToHost_of_shows m hshows, ?_, handOver_same m hstaged hshows hsingle⟩,
      fun hnot => absurd rfl hnot⟩
    · simp only [pushObject, Steps.bind_apply, StageM.lift_apply, hbuild, StageM.adopt_apply]
      rfl
    · obtain ⟨w'', hall, hstaged'⟩ := World.Staged.releaseAll [p]
        ((add_zero ({p} : Multiset ObjId)).symm ▸ hstaged)
      show Heap.Same w.heap (w'.releaseAll m [p]).heap
      rw [hall]
      exact hstaged'.unchanged.heap_same
  · obtain ⟨w', hbuild, hstaged⟩ := hplain
    refine ⟨fun h => absurd h (by simp), fun _ => ⟨place, w', ?_, hstaged.unchanged⟩⟩
    simp only [pushObject, Steps.bind_apply, StageM.lift_apply, hbuild]

end Conversion

namespace Sample

/-- A value with a null in a list and with the same truth value twice. -/
def nested : HostValue :=
  .list [.str "a", .null, .dict [("k", .bool true), ("l", .list [.int 3, .bool true])]]

/-- The nested value of the example becomes an object and comes back as it was. -/
theorem nested_comesBack : ∃ p s, Conversion.pushArg machine Parcel.registry
      ⟨"element", Parcel.maybeObject⟩ nested ⟨vectorWorld, .empty⟩ = .ok () s ∧
    s.frame = (Frame.empty.adopt p).push (.object p) ∧
    Conversion.toHost machine (.borrowed p) s.world = .ok nested s.world ∧
    Heap.Same vectorWorld.heap (s.world.releaseAll machine s.frame.owned).heap ∧
    ∃ w₁ w₂, World.retain p s.world = .ok () w₁ ∧
      Conversion.toHost machine (.incremented p) w₁ = .ok nested w₂ ∧
      Heap.Same vectorWorld.heap (w₂.releaseAll machine s.frame.owned).heap := by
  have hwell : nested.WellFormed := by
    refine ⟨trivial, trivial, ⟨?_, trivial, ⟨trivial, trivial, trivial⟩, trivial⟩, trivial⟩
    exact List.pairwise_pair.2 (by decide)
  have hconv : nested.Convertible vectorWorld.owns :=
    ⟨trivial, trivial, ⟨⟨rfl, trivial⟩, ⟨rfl, trivial, trivial, trivial⟩, trivial⟩, trivial⟩
  exact (Conversion.pushArg_roundTrip machine Parcel.registry vectorWorld_grounded rfl rfl hwell
    rfl).1 hconv

end Sample

end Interop

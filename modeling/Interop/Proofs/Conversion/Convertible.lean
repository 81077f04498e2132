/-
# Which values can be built

What can be built from a value is read off the value and the handles: nothing released and no
null in a dict, at any depth (`Value.Convertible`).  A step that succeeds only adds to the
heap (`World.Grew`): it makes objects and takes the references that the wrappers in the value
ask for.  So building succeeds exactly on convertible values (`build_sound`,
`build_complete`) as long as the counts have room for those references.
-/

import Interop.Proofs.Call.Filling

namespace Interop

/-! ### Values that can be built -/

namespace Value

mutual

/-- Every wrapper in the value owns its reference, and no dict in it has a null for a value. -/
def Convertible (owns : HandleId → Bool) : HostValue → Prop
  | .object o => owns o.handle = true
  | .list items => ConvertibleList owns items
  | .dict entries => ConvertibleEntries owns entries
  | _ => True

/-- Every value of a list is convertible. -/
def ConvertibleList (owns : HandleId → Bool) : List HostValue → Prop
  | [] => True
  | v :: rest => v.Convertible owns ∧ ConvertibleList owns rest

/-- Every value of a dict is convertible and not null. -/
def ConvertibleEntries (owns : HandleId → Bool) : List (String × HostValue) → Prop
  | [] => True
  | e :: rest => (e.2.isNull = false ∧ e.2.Convertible owns) ∧ ConvertibleEntries owns rest

end

end Value

namespace World

/-- Which handles own a reference. -/
def owns (w : World) (h : HandleId) : Bool :=
  (w.handle h).owned

/-- The objects of wrappers, one entry for each wrapper. -/
def behind (w : World) (wrappers : List Wrapper) : Multiset ObjId :=
  wrappers.map fun o => (w.handle o.handle).object

/-- The class of the object that a value is converted to; null has none. -/
def nativeClass (w : World) : HostValue → Option Class
  | .null => none
  | .bool _ => some Parcel.boolean
  | .int _ => some Parcel.integer
  | .float _ => some Parcel.float
  | .str _ => some Parcel.string
  | .list _ => some Parcel.vector
  | .dict _ => some Parcel.hash
  | .object o => some (w.obj (w.handle o.handle).object).cls

/-! ### Worlds that grow -/

/-- The references in `taken` were taken, and objects were made. -/
structure Grew (w : World) (taken : Multiset ObjId) (w' : World) : Prop where
  handles_eq : w'.handles = w.handles
  program_eq : w'.program = w.program
  kept : ∀ p o, w.heap.get? p = some o →
    ∃ count, w'.heap.get? p = some { o with refcount := count } ∧
    (o.immortal = false → count = o.refcount + taken.count p)

/-- No count is exceeded when the references in `taken` are taken. -/
def Spare (w : World) (taken : Multiset ObjId) : Prop :=
  ∀ p ∈ taken, ∀ o, w.heap.get? p = some o → o.immortal = false →
    o.refcount + taken.count p ≤ maxCount

namespace Grew

variable {w w' w'' : World} {r t : Multiset ObjId} {p : ObjId} {o : Obj}

/-- A world has grown by nothing into itself. -/
theorem refl (w : World) : Grew w 0 w :=
  ⟨rfl, rfl, fun p o hp => ⟨o.refcount, hp, fun _ => by rw [Multiset.count_zero, add_zero]⟩⟩

/-- A world grows in steps by the references of each. -/
theorem trans (g : Grew w r w') (g' : Grew w' t w'') : Grew w (r + t) w'' := by
  refine ⟨g'.handles_eq.trans g.handles_eq, g'.program_eq.trans g.program_eq, fun p o hp => ?_⟩
  obtain ⟨count, hc, hcount⟩ := g.kept p o hp
  obtain ⟨count', hc', hcount'⟩ := g'.kept p _ hc
  refine ⟨count', hc', fun himm => ?_⟩
  have h₁ := hcount himm
  have h₂ : count' = count + t.count p := hcount' himm
  rw [Multiset.count_add]
  omega

/-- A world grows without a change to its handles. -/
theorem handle_eq (g : Grew w r w') : w'.handle = w.handle := by
  funext h
  rw [World.handle, World.handle, g.handles_eq]

/-- A world grows without a change to what its handles own. -/
theorem owns_eq (g : Grew w r w') : w'.owns = w.owns := by
  funext h
  rw [owns, owns, g.handle_eq]

/-- A world grows without a change to what wrappers stand for. -/
theorem behind_eq (g : Grew w r w') (wrappers : List Wrapper) :
    w'.behind wrappers = w.behind wrappers := by
  rw [behind, behind, g.handle_eq]

/-- In a world that has grown everything still stands for something. -/
theorem grounded (g : Grew w r w') (hw : w.Grounded) : w'.Grounded where
  truth b := by
    obtain ⟨count, ho⟩ := hw.truth b
    obtain ⟨count', hc, -⟩ := g.kept _ _ ho
    exact ⟨count', hc⟩
  referenced h howned := by
    rw [g.handle_eq] at howned ⊢
    obtain ⟨o, ho, hpos⟩ := hw.referenced h howned
    obtain ⟨count, hc, hcount⟩ := g.kept _ o ho
    refine ⟨_, hc, fun himm => ?_⟩
    have h₁ := hcount himm
    have h₂ := hpos himm
    show 0 < count
    omega

/-- An object that is made changes nothing else. -/
theorem alloc (cls : Class) (payload : Payload) (w : World) :
    Grew w 0 (World.alloc cls payload w).2 :=
  ⟨rfl, rfl, fun p o hp => ⟨o.refcount, Heap.get?_alloc_of_some cls payload hp,
    fun _ => by rw [Multiset.count_zero, add_zero]⟩⟩

/-- A reference that is taken raises one count. -/
theorem retain {heap : Heap} (ho : w.heap.get? p = some o) (hr : w.heap.retain p = .ok heap) :
    Grew w {p} { w with heap } := by
  rw [Heap.retain, Heap.obj_of_get? ho] at hr
  refine ⟨rfl, rfl, fun q x hq => ?_⟩
  split_ifs at hr with himm hmax
  · obtain rfl := Except.ok.inj hr
    refine ⟨x.refcount, hq, fun hx => ?_⟩
    rw [Multiset.count_eq_zero_of_notMem, add_zero]
    intro hqp
    obtain rfl := Multiset.mem_singleton.1 hqp
    rw [ho, Option.some.injEq] at hq
    rw [hq, hx] at himm
    exact absurd himm Bool.false_ne_true
  · obtain rfl := Except.ok.inj hr
    by_cases hqp : q = p
    · subst hqp
      rw [ho, Option.some.injEq] at hq
      subst hq
      exact ⟨o.refcount + 1, Heap.get?_modify_self ho _, fun _ => by
        rw [Multiset.count_singleton_self]⟩
    · refine ⟨x.refcount, (Heap.get?_modify_of_ne hqp _).trans hq, fun _ => ?_⟩
      rw [Multiset.count_singleton, if_neg hqp, add_zero]

/-- The class of what a value is converted to stays. -/
theorem nativeClass_eq (g : Grew w r w') (hw : w.Grounded) {v : HostValue}
    (hv : v.Convertible w.owns) : w'.nativeClass v = w.nativeClass v := by
  cases v with
  | object o =>
    obtain ⟨x, hx, -⟩ := hw.referenced o.handle hv
    obtain ⟨count, hc, -⟩ := g.kept _ x hx
    rw [nativeClass, nativeClass, g.handle_eq, World.obj, World.obj, Heap.obj_of_get? hc,
      Heap.obj_of_get? hx]
  | _ => rfl

end Grew

namespace Spare

variable {w w' : World} {r t : Multiset ObjId}

/-- Where there is room for more references there is room for some. -/
theorem left (h : Spare w (r + t)) : Spare w r := by
  intro p hp o ho himm
  have hle := h p (Multiset.mem_add.2 (Or.inl hp)) o ho himm
  rw [Multiset.count_add] at hle
  omega

/-- What is left of the room after some of the references were taken. -/
theorem grew (h : Spare w (r + t)) (g : Grew w r w')
    (hthere : ∀ p ∈ t, ∃ o, w.heap.get? p = some o) :
    Spare w' t := by
  intro p hp o ho himm
  obtain ⟨x, hx⟩ := hthere p hp
  obtain ⟨count, hc, hcount⟩ := g.kept p x hx
  rw [hc, Option.some.injEq] at ho
  subst ho
  have hle := h p (Multiset.mem_add.2 (Or.inr hp)) x hx himm
  rw [Multiset.count_add] at hle
  have heq := hcount himm
  show count + t.count p ≤ maxCount
  omega

end Spare

/-- Two lists of wrappers stand together for what each of them stands for. -/
theorem behind_append (w : World) (a b : List Wrapper) :
    w.behind (a ++ b) = w.behind a + w.behind b := by
  rw [behind, List.map_append, ← Multiset.coe_add]
  rfl

end World

namespace Value

mutual

/-- The wrappers of a convertible value own their references. -/
theorem Convertible.owns_objects {owns : HandleId → Bool} :
    ∀ {v : HostValue}, v.Convertible owns → ∀ o ∈ v.objects, owns o.handle = true
  | .object o, hv, x, hx => by
    obtain rfl := List.mem_singleton.1 hx
    exact hv
  | .list items, hv, x, hx =>
    have hitems : ConvertibleList owns items := hv
    ConvertibleList.owns_objects hitems x hx
  | .dict entries, hv, x, hx => ConvertibleEntries.owns_objects hv x hx
  | .null, _, x, hx => absurd hx List.not_mem_nil
  | .bool _, _, x, hx => absurd hx List.not_mem_nil
  | .int _, _, x, hx => absurd hx List.not_mem_nil
  | .float _, _, x, hx => absurd hx List.not_mem_nil
  | .str _, _, x, hx => absurd hx List.not_mem_nil

/-- The wrappers in a list that can be converted own their objects. -/
theorem ConvertibleList.owns_objects {owns : HandleId → Bool} :
    ∀ {items : List HostValue}, ConvertibleList owns items →
      ∀ o ∈ objectsOfList items, owns o.handle = true
  | [], _, x, hx => absurd hx List.not_mem_nil
  | v :: rest, hv, x, hx => by
    rcases List.mem_append.1 hx with hx | hx
    · exact Convertible.owns_objects hv.1 x hx
    · exact ConvertibleList.owns_objects hv.2 x hx

/-- The wrappers in a dictionary that can be converted own their objects. -/
theorem ConvertibleEntries.owns_objects {owns : HandleId → Bool} :
    ∀ {entries : List (String × HostValue)}, ConvertibleEntries owns entries →
      ∀ o ∈ objectsOfEntries entries, owns o.handle = true
  | [], _, x, hx => absurd hx List.not_mem_nil
  | e :: rest, hv, x, hx => by
    rcases List.mem_append.1 hx with hx | hx
    · exact Convertible.owns_objects hv.1.2 x hx
    · exact ConvertibleEntries.owns_objects hv.2 x hx

end

end Value

/-- The objects behind wrappers that own their references are there. -/
theorem World.Grounded.get?_behind {w : World} (g : w.Grounded) {wrappers : List Wrapper}
    (howns : ∀ o ∈ wrappers, w.owns o.handle = true) :
    ∀ p ∈ w.behind wrappers, ∃ o, w.heap.get? p = some o := by
  intro p hp
  obtain ⟨x, hx, rfl⟩ := List.mem_map.1 (Multiset.mem_coe.1 hp)
  obtain ⟨o, ho, -⟩ := g.referenced x.handle (howns x hx)
  exact ⟨o, ho⟩

/-! ### Building -/

namespace Conversion

/-- What building `v` in `w` has come to in `w'`: nothing for null, and for any other value an
object of its native class, which for a wrapper is the one behind it. -/
def Built (w w' : World) (v : HostValue) : Option ObjId → Prop
  | none => v.isNull = true
  | some p => v.isNull = false ∧ (∃ o, w'.heap.get? p = some o ∧ w.nativeClass v = some o.cls) ∧
    ∀ x, v = .object x → p = (w.handle x.handle).object

/-- A new object of the class of its payload. -/
theorem built_newObject (payload : Payload) {v : HostValue} {w w' w'' : World} {q : Option ObjId}
    (hnull : v.isNull = false) (hcls : w.nativeClass v = some payload.home)
    (hobject : ∀ x, v ≠ .object x) (h : newObject payload.home payload w' = .ok q w'') :
    Built w w'' v q ∧ w'.Grew 0 w'' := by
  obtain ⟨rfl, rfl⟩ : some (World.alloc payload.home payload w').1 = q ∧
      (World.alloc payload.home payload w').2 = w'' := by
    simpa [newObject] using h
  exact ⟨⟨hnull, ⟨_, Heap.get?_alloc_self _ _, hcls⟩, fun x hx => absurd hx (hobject x)⟩,
    .alloc _ _ _⟩

/-- A reference that was taken through a handle. -/
theorem retain_sound {w w' : World} {h : HandleId} {p : ObjId} (g : w.Grounded)
    (hr : Handle.retain h w = .ok p w') :
    w.owns h = true ∧ (w.handle h).object = p ∧
      ∃ o, w.heap.get? p = some o ∧ w.Grew {p} w' := by
  rw [Handle.retain_apply] at hr
  split_ifs at hr with howned
  obtain ⟨o, ho, -⟩ := g.referenced h howned
  rcases hh : w.heap.retain (w.handle h).object with e | heap <;> simp only [hh] at hr
  · exact absurd hr (by simp)
  · obtain ⟨rfl, rfl⟩ : (w.handle h).object = p ∧ { w with heap } = w' := by simpa using hr
    exact ⟨howned, rfl, o, ho, .retain ho hh⟩

mutual

/-- A value that was built is convertible, and the references that its wrappers ask for were
taken. -/
theorem build_sound (m : Machine) (param : String) :
    ∀ (v : HostValue) {w w' : World} {q : Option ObjId}, w.Grounded →
      build m param v w = .ok q w' →
      v.Convertible w.owns ∧ w.Grew (w.behind v.objects) w' ∧ Built w w' v q
  | .null, w, w', q, _, h => by
    obtain ⟨rfl, rfl⟩ : none = q ∧ w = w' := by simpa [build] using h
    exact ⟨trivial, .refl w, rfl⟩
  | .bool value, w, w', q, g, h => by
    obtain ⟨rfl, rfl⟩ : some (Heap.booleanId value) = q ∧ w = w' := by simpa [build] using h
    obtain ⟨count, ho⟩ := g.truth value
    exact ⟨trivial, .refl w, rfl, ⟨_, ho, rfl⟩, by simp⟩
  | .int value, w, w', q, _, h =>
    have hnew := built_newObject (.integer value) (v := .int value) rfl rfl (by simp) h
    ⟨trivial, hnew.2, hnew.1⟩
  | .float value, w, w', q, _, h =>
    have hnew := built_newObject (.float value) (v := .float value) rfl rfl (by simp) h
    ⟨trivial, hnew.2, hnew.1⟩
  | .str value, w, w', q, _, h =>
    have hnew := built_newObject (.str value) (v := .str value) rfl rfl (by simp) h
    ⟨trivial, hnew.2, hnew.1⟩
  | .object o, w, w', q, g, h => by
    obtain ⟨p, w₁, hp, hq⟩ := Steps.bind_ok h
    obtain ⟨rfl, rfl⟩ : some p = q ∧ w₁ = w' := by simpa using hq
    obtain ⟨howned, rfl, x, hx, hgrew⟩ := retain_sound g hp
    obtain ⟨count, hc, -⟩ := hgrew.kept _ x hx
    refine ⟨howned, hgrew, rfl, ⟨_, hc, ?_⟩, fun y hy => by rw [Value.object.inj hy]⟩
    rw [World.nativeClass, World.obj, Heap.obj_of_get? hx]
  | .list items, w, w', q, g, h => by
    obtain ⟨elements, w₁, hlist, hnew⟩ := Steps.bind_ok h
    obtain ⟨hv, hgrew⟩ := buildList_sound m param items g hlist
    obtain ⟨hbuilt, hgrew'⟩ :=
      built_newObject (.vector elements) (v := .list items) rfl rfl (by simp) hnew
    exact ⟨hv, add_zero (w.behind _) ▸ hgrew.trans hgrew', hbuilt⟩
  | .dict entries, w, w', q, g, h => by
    obtain ⟨built, w₁, hentries, hnew⟩ := Steps.bind_ok h
    obtain ⟨hv, hgrew⟩ := buildEntries_sound m param entries g hentries
    obtain ⟨hbuilt, hgrew'⟩ :=
      built_newObject (.hash built) (v := .dict entries) rfl rfl (by simp) hnew
    exact ⟨hv, add_zero (w.behind _) ▸ hgrew.trans hgrew', hbuilt⟩

/-- A list that was built can be converted, and refers to what was taken for it. -/
theorem buildList_sound (m : Machine) (param : String) :
    ∀ (items : List HostValue) {built elements : List (Option ObjId)} {w w' : World}, w.Grounded →
      buildList m param built items w = .ok elements w' →
      Value.ConvertibleList w.owns items ∧ w.Grew (w.behind (Value.objectsOfList items)) w'
  | [], built, elements, w, w', _, h => by
    obtain ⟨-, rfl⟩ : built = elements ∧ w = w' := by simpa [buildList] using h
    exact ⟨trivial, .refl w⟩
  | v :: rest, built, elements, w, w', g, h => by
    obtain ⟨q, w₁, hv, hrest⟩ := Steps.bind_ok h
    obtain ⟨hconv, hgrew, -⟩ := build_sound m param v g (World.onRefusal_ok hv)
    obtain ⟨hconv', hgrew'⟩ := buildList_sound m param rest (hgrew.grounded g) hrest
    rw [hgrew.owns_eq] at hconv'
    rw [hgrew.behind_eq] at hgrew'
    refine ⟨⟨hconv, hconv'⟩, ?_⟩
    rw [Value.objectsOfList, World.behind_append]
    exact hgrew.trans hgrew'

/-- A dictionary that was built can be converted, and refers to what was taken for it. -/
theorem buildEntries_sound (m : Machine) (param : String) :
    ∀ (entries : List (String × HostValue)) {built all : KeyMap ObjId} {w w' : World}, w.Grounded →
      buildEntries m param built entries w = .ok all w' →
      Value.ConvertibleEntries w.owns entries ∧
        w.Grew (w.behind (Value.objectsOfEntries entries)) w'
  | [], built, all, w, w', _, h => by
    obtain ⟨-, rfl⟩ : built = all ∧ w = w' := by simpa [buildEntries] using h
    exact ⟨trivial, .refl w⟩
  | e :: rest, built, all, w, w', g, h => by
    obtain ⟨q, w₁, hv, hrest⟩ := Steps.bind_ok h
    obtain ⟨hconv, hgrew, hbuilt⟩ := build_sound m param e.2 g (World.onRefusal_ok hv)
    rcases q with _ | p
    · exact absurd hrest (by simp)
    obtain ⟨hconv', hgrew'⟩ := buildEntries_sound m param rest (hgrew.grounded g) hrest
    rw [hgrew.owns_eq] at hconv'
    rw [hgrew.behind_eq] at hgrew'
    refine ⟨⟨⟨hbuilt.1, hconv⟩, hconv'⟩, ?_⟩
    rw [Value.objectsOfEntries, World.behind_append]
    exact hgrew.trans hgrew'

end

/-- A reference can be taken through a handle that owns one, if the count has room. -/
theorem retain_complete {w : World} {h : HandleId} (g : w.Grounded) (howns : w.owns h = true)
    (room : w.Spare {(w.handle h).object}) :
    ∃ w', Handle.retain h w = .ok (w.handle h).object w' := by
  obtain ⟨o, ho, -⟩ := g.referenced h howns
  have howned : (w.handle h).owned = true := howns
  have hle := room _ (Multiset.mem_singleton_self _) o ho
  rw [Handle.retain_apply, if_pos howned, Heap.retain, Heap.obj_of_get? ho]
  rw [Multiset.count_singleton_self] at hle
  rcases himm : o.immortal with _ | _
  · have hlt : o.refcount < maxCount := hle himm
    simp only [hlt, if_true]
    exact ⟨_, rfl⟩
  · simp only [if_true]
    exact ⟨_, rfl⟩

mutual

/-- A convertible value can be built, if the counts have room. -/
theorem build_complete (m : Machine) (param : String) :
    ∀ (v : HostValue) {w : World}, w.Grounded → v.Convertible w.owns →
      w.Spare (w.behind v.objects) → ∃ q w', build m param v w = .ok q w'
  | .null, _, _, _, _ => ⟨_, _, rfl⟩
  | .bool _, _, _, _, _ => ⟨_, _, rfl⟩
  | .int _, _, _, _, _ => ⟨_, _, rfl⟩
  | .float _, _, _, _, _ => ⟨_, _, rfl⟩
  | .str _, _, _, _, _ => ⟨_, _, rfl⟩
  | .object o, w, g, hv, room => by
    obtain ⟨w', hr⟩ := retain_complete g hv room
    refine ⟨some (w.handle o.handle).object, w', ?_⟩
    rw [build, Steps.bind_apply, hr]
    rfl
  | .list items, w, g, hv, room => by
    obtain ⟨elements, w', hlist⟩ := buildList_complete m param items [] g hv room
    refine ⟨some (World.alloc Parcel.vector (.vector elements) w').1,
      (World.alloc Parcel.vector (.vector elements) w').2, ?_⟩
    rw [build, Steps.bind_apply, hlist]
    rfl
  | .dict entries, w, g, hv, room => by
    obtain ⟨built, w', hentries⟩ := buildEntries_complete m param entries .empty g hv room
    refine ⟨some (World.alloc Parcel.hash (.hash built) w').1,
      (World.alloc Parcel.hash (.hash built) w').2, ?_⟩
    rw [build, Steps.bind_apply, hentries]
    rfl

/-- A list that can be converted is built where there is room. -/
theorem buildList_complete (m : Machine) (param : String) :
    ∀ (items : List HostValue) (built : List (Option ObjId)) {w : World}, w.Grounded →
      Value.ConvertibleList w.owns items → w.Spare (w.behind (Value.objectsOfList items)) →
      ∃ elements w', buildList m param built items w = .ok elements w'
  | [], built, _, _, _, _ => ⟨built, _, rfl⟩
  | v :: rest, built, w, g, hv, room => by
    rw [Value.objectsOfList, World.behind_append] at room
    obtain ⟨q, w₁, hbuild⟩ := build_complete m param v g hv.1 room.left
    obtain ⟨-, hgrew, -⟩ := build_sound m param v g hbuild
    have room' := room.grew hgrew (g.get?_behind hv.2.owns_objects)
    rw [← hgrew.behind_eq] at room'
    obtain ⟨elements, w₂, hrest⟩ := buildList_complete m param rest (built ++ [q])
      (hgrew.grounded g) (hgrew.owns_eq ▸ hv.2) room'
    refine ⟨elements, w₂, ?_⟩
    rw [buildList, Steps.bind_apply, World.onRefusal_apply, hbuild]
    exact hrest

/-- A dictionary that can be converted is built where there is room. -/
theorem buildEntries_complete (m : Machine) (param : String) :
    ∀ (entries : List (String × HostValue)) (built : KeyMap ObjId) {w : World}, w.Grounded →
      Value.ConvertibleEntries w.owns entries →
      w.Spare (w.behind (Value.objectsOfEntries entries)) →
      ∃ all w', buildEntries m param built entries w = .ok all w'
  | [], built, _, _, _, _ => ⟨built, _, rfl⟩
  | e :: rest, built, w, g, hv, room => by
    rw [Value.objectsOfEntries, World.behind_append] at room
    obtain ⟨q, w₁, hbuild⟩ := build_complete m param e.2 g hv.1.2 room.left
    obtain ⟨-, hgrew, hbuilt⟩ := build_sound m param e.2 g hbuild
    -- only null is built into nothing
    rcases q with _ | p
    · exact absurd hbuilt (by rw [Built, hv.1.1]; exact Bool.false_ne_true)
    have room' := room.grew hgrew (g.get?_behind hv.2.owns_objects)
    rw [← hgrew.behind_eq] at room'
    obtain ⟨all, w₂, hrest⟩ := buildEntries_complete m param rest (built.insert e.1 p)
      (hgrew.grounded g) (hgrew.owns_eq ▸ hv.2) room'
    refine ⟨all, w₂, ?_⟩
    rw [buildEntries, Steps.bind_apply, World.onRefusal_apply, hbuild]
    exact hrest

end

end Conversion

end Interop

/-
# What a binding gives

A binding declares a list of entries for its class (`ClassBinding.rows`): one for each of the
public methods of the class itself that it does not hide and that no raw pointer keeps back,
then one for each such function, then those of its hook and its extra ones.

**A binding is right or has one thing wrong with it** (`Emission.sound_or_faulty`), and this
decides what it gives: its table (`Emission.tableFor_of_sound`) or its error
(`Emission.tableFor_of_faulty`).  What is logged on the way plays no part, so every step is
first given the outcome that it has whatever the log (`Emission.Yields`).  Entries that are
added one by one are all added exactly when no name comes twice; otherwise the first whose
name stands before it is refused (`Emission.addRows_of_firstRepeat`).
-/

import Interop.Binding.Emission
import Interop.Proofs.Class.Layout
import Interop.Proofs.Steps
import Interop.Proofs.Text.Keys

namespace Interop

/-! ### Tables -/

section Tables

variable {α : Type} {name : String} {a : α} {rows : List (String × α)}

/-- Where no name comes twice, a look-up finds exactly what is listed. -/
theorem findEntry_eq_some_iff (h : (rows.map Prod.fst).Nodup) :
    findEntry name rows = some a ↔ (name, a) ∈ rows := by
  refine ⟨mem_of_findEntry, fun hmem => ?_⟩
  induction rows with
  | nil => exact absurd hmem List.not_mem_nil
  | cons row rest ih =>
    obtain ⟨hfresh, hrest⟩ := List.nodup_cons.1 h
    rw [findEntry]
    rcases List.mem_cons.1 hmem with rfl | hmem
    · exact if_pos rfl
    · have hne : name ≠ row.1 := by
        rintro rfl
        exact hfresh (List.mem_map.2 ⟨_, hmem, rfl⟩)
      rw [if_neg hne, ih hrest hmem]

/-- An entry is found just for the names of the rows. -/
theorem findEntry_isSome_iff : (findEntry name rows).isSome = true ↔ name ∈ rows.map Prod.fst := by
  induction rows with
  | nil => simp [findEntry]
  | cons row rest ih =>
    rw [findEntry]
    split_ifs with hname
    · simp [hname]
    · rw [ih, List.map_cons, List.mem_cons, or_iff_right hname]

/-- The first name of the list that stands before itself. -/
def FirstRepeat (names : List String) (name : String) : Prop :=
  ∃ before after, names = before ++ name :: after ∧ before.Nodup ∧ name ∈ before

/-- Names with a first repetition are not all different. -/
theorem FirstRepeat.not_nodup {names : List String} (h : FirstRepeat names name) :
    ¬ names.Nodup := by
  obtain ⟨before, after, rfl, -, hmem⟩ := h
  rw [List.nodup_append]
  exact fun hnodup => hnodup.2.2 name hmem name List.mem_cons_self rfl

/-- Names that are not all different have a first repetition. -/
theorem exists_firstRepeat {names : List String} (h : ¬ names.Nodup) :
    ∃ name, FirstRepeat names name := by
  induction names using List.reverseRecOn with
  | nil => exact absurd List.nodup_nil h
  | append_singleton before name ih =>
    by_cases hbefore : before.Nodup
    · -- only the last name can stand before itself
      refine ⟨name, before, [], rfl, hbefore, ?_⟩
      by_contra hmem
      exact h (List.nodup_append.2 ⟨hbefore, List.nodup_singleton name, fun x hx y hy hxy =>
        hmem (List.mem_singleton.1 hy ▸ hxy ▸ hx)⟩)
    · obtain ⟨other, first, rest, rfl, hfirst, hmem⟩ := ih hbefore
      exact ⟨other, first, rest ++ [name], by simp, hfirst, hmem⟩

end Tables

/-! ### What a binding declares -/

namespace ClassBinding

/-- Whether the binding shows a method: it is public, no raw pointer crosses the boundary, and
the binding does not hide it. -/
def shows (b : ClassBinding) (m : Method) : Bool :=
  m.canBeBound && !b.isExcluded m.name

/-- The entries that the binding declares for a class, in order. -/
def rows (b : ClassBinding) (c : Class) : List (String × Entry) :=
  (c.declaredMethods.filter b.shows).map (fun m => (m.hostName, .method m)) ++
    (c.functions.filter b.shows).map (fun m => (m.hostName, .function m)) ++
    (b.addedDefs c).map fun d => (d.name, .custom d.run)

/-- The table that the binding describes for a class. -/
def table (b : ClassBinding) (c : Class) : BoundClass :=
  ⟨c, c.maker.filter b.shows, b.rows c⟩

/-- A binding shows the methods that are public, can be bound, and are not excluded. -/
theorem shows_iff {b : ClassBinding} {m : Method} : b.shows m = true ↔
    m.isPrivate = false ∧ m.signature.isBindable = true ∧ m.name ∉ b.excluded := by
  simp [shows, Method.canBeBound, isExcluded, and_assoc]

variable {b : ClassBinding} {c : Class} {m : Method} {name : String}

/-- The constructor of a class is shown, or none is. -/
theorem maker_table (b : ClassBinding) (c : Class) :
    (b.table c).maker = none ∨ (b.table c).maker = c.maker := by
  rcases hmaker : (b.table c).maker with _ | m
  · exact Or.inl rfl
  · exact Or.inr (Option.filter_eq_some_iff.1 hmaker).1.symm

/-- The rows that stand for methods are those of the declared methods that are shown. -/
theorem method_mem_rows : (name, .method m) ∈ b.rows c ↔
    (m ∈ c.declaredMethods ∧ b.shows m = true) ∧ m.hostName = name := by
  simp [rows, and_comm]

/-- The rows that stand for functions are those of the functions that are shown. -/
theorem function_mem_rows : (name, .function m) ∈ b.rows c ↔
    (m ∈ c.functions ∧ b.shows m = true) ∧ m.hostName = name := by
  simp [rows, and_comm]

/-- The rows that stand for custom entries are those that the binding adds. -/
theorem custom_mem_rows {run : CustomEntry} : (name, .custom run) ∈ b.rows c ↔
    ∃ d ∈ b.addedDefs c, d.name = name ∧ d.run = run := by
  simp [rows]

end ClassBinding

namespace Emission

variable {α β : Type} {registry : Registry} {b : ClassBinding} {c : Class} {t t' : BoundClass}
  {m : Method}

/-! ### Steps and what they yield -/

/-- Whatever was logged before, the step ends with `r`. -/
def Yields (x : LogM α) (r : Except BridgeError α) : Prop :=
  ∀ l, ∃ l', x l = match r with
    | .ok a => .ok a l'
    | .error e => .error e l'

/-- What follows a success. -/
theorem ok_bind (a : α) (f : α → Except BridgeError β) : (.ok a >>= f) = f a :=
  rfl

namespace Yields

variable {x : LogM α} {r : Except BridgeError α} {f : α → LogM β} {g : α → Except BridgeError β}

/-- A value is answered. -/
theorem pure (a : α) : Yields (Pure.pure a : LogM α) (.ok a) :=
  fun l => ⟨l, rfl⟩

/-- A record is written and nothing else is done. -/
theorem log (level : Log.Level) (message : String) : Yields (Emission.log level message) (.ok ⟨⟩) :=
  fun _ => ⟨_, rfl⟩

/-- A result is passed on. -/
theorem ofExcept (r : Except BridgeError α) : Yields (MonadExcept.ofExcept r : LogM α) r := by
  refine fun l => ⟨l, ?_⟩
  cases r <;> rfl

/-- The second step starts from the answer of the first. -/
theorem bind (hx : Yields x r) (hf : ∀ a, r = .ok a → Yields (f a) (g a)) :
    Yields (x >>= f) (r >>= g) := by
  intro l
  obtain ⟨l', hl⟩ := hx l
  rcases r with e | a
  · exact ⟨l', by rw [Steps.bind_apply, hl]; rfl⟩
  · obtain ⟨l'', hl'⟩ := hf a rfl l'
    exact ⟨l'', by rw [Steps.bind_apply, hl]; exact hl'⟩

/-- A step that cannot fail only hands its result on. -/
theorem andThen {a : α} {r : Except BridgeError β} (hx : Yields x (.ok a)) (hf : Yields (f a) r) :
    Yields (x >>= f) r :=
  hx.bind (g := fun _ => r) fun _ ha => Except.ok.inj ha ▸ hf

/-- How the step can end. -/
theorem ok_iff (hx : Yields x r) {l : Log.Logger} {a : α} : (∃ l', x l = .ok a l') ↔ r = .ok a := by
  obtain ⟨l', hl⟩ := hx l
  rw [hl]
  rcases r with e | a' <;> simp

end Yields

/-! ### Adding entries -/

/-- The table with more entries, added one by one. -/
def addRows (t : BoundClass) : List (String × Entry) → Except BridgeError BoundClass
  | [] => .ok t
  | row :: rest => addEntry t row.1 row.2 >>= fun t => addRows t rest

/-- A row is added unless its name is taken. -/
theorem addEntry_eq (t : BoundClass) (name : String) (entry : Entry) :
    addEntry t name entry =
      if name ∈ t.entries.map Prod.fst then .error (.bindingConflict t.cls.name name)
      else .ok { t with entries := t.entries ++ [(name, entry)] } := by
  unfold addEntry BoundClass.insert? BoundClass.entry?
  by_cases h : name ∈ t.entries.map Prod.fst
  · rw [if_pos h, if_pos (findEntry_isSome_iff.2 h)]
  · rw [if_neg h, if_neg fun hsome => h (findEntry_isSome_iff.1 hsome)]

/-- Rows are added in turn. -/
theorem addRows_append (rows rows' : List (String × Entry)) (t : BoundClass) :
    addRows t (rows ++ rows') = addRows t rows >>= fun t => addRows t rows' := by
  induction rows generalizing t with
  | nil => rfl
  | cons row rest ih =>
    rw [List.cons_append, addRows, addRows]
    rcases addEntry t row.1 row.2 with e | t'
    · rfl
    · exact ih t'

/-- Entries of different names are all added. -/
theorem addRows_of_nodup {rows : List (String × Entry)}
    (h : ((t.entries ++ rows).map Prod.fst).Nodup) :
    addRows t rows = .ok { t with entries := t.entries ++ rows } := by
  induction rows generalizing t with
  | nil => rw [List.append_nil, addRows]
  | cons row rest ih =>
    have hfresh : row.1 ∉ t.entries.map Prod.fst := by
      rw [List.map_append, List.nodup_append] at h
      exact fun hmem => h.2.2 row.1 hmem row.1 List.mem_cons_self rfl
    rw [List.append_cons] at h ⊢
    rw [addRows, addEntry_eq, if_neg hfresh]
    exact ih h

variable {maker : Option Method} {rows : List (String × Entry)}

/-- The first entry whose name stands before it is refused. -/
theorem addRows_of_firstRepeat {name : String} (h : FirstRepeat (rows.map Prod.fst) name) :
    addRows ⟨c, maker, []⟩ rows = .error (.bindingConflict c.name name) := by
  obtain ⟨before, after, hrows, hnodup, hmem⟩ := h
  obtain ⟨first, rest, rfl, rfl, hrest⟩ := List.map_eq_append_iff.1 hrows
  obtain ⟨row, rest, rfl, rfl, rfl⟩ := List.map_eq_cons_iff.1 hrest
  rw [addRows_append, addRows_of_nodup (by simpa using hnodup)]
  show addEntry ⟨c, maker, first⟩ row.1 row.2 >>= _ = _
  rw [addEntry_eq, if_pos hmem]
  rfl

/-- **The entries can be added** exactly when no name comes twice. -/
theorem addRows_ok_iff : addRows ⟨c, maker, []⟩ rows = .ok t ↔
    (rows.map Prod.fst).Nodup ∧ t = ⟨c, maker, rows⟩ := by
  by_cases hnodup : (rows.map Prod.fst).Nodup
  · have hadd : addRows ⟨c, maker, []⟩ rows = .ok ⟨c, maker, rows⟩ := addRows_of_nodup hnodup
    rw [hadd, Except.ok.injEq, eq_comm, and_iff_right hnodup]
  · obtain ⟨name, hname⟩ := exists_firstRepeat hnodup
    simp [addRows_of_firstRepeat hname, hnodup]

/-! ### The table of one binding -/

/-- The row of a method. -/
def methodRow (m : Method) : String × Entry :=
  (m.hostName, entryFor m)

/-- The row of an entry of host code. -/
def defRow (d : MethodDef) : String × Entry :=
  (d.name, .custom d.run)

/-- Definitions are added as the rows that stand for them. -/
theorem addDefs_eq (defs : List MethodDef) (t : BoundClass) :
    addDefs t defs = addRows t (defs.map defRow) := by
  induction defs generalizing t with
  | nil => rfl
  | cons d rest ih =>
    rw [addDefs, List.map_cons, addRows]
    show _ = addEntry t d.name (.custom d.run) >>= _
    rcases addEntry t d.name (.custom d.run) with e | t'
    · rfl
    · exact ih t'

/-- The test whether a method is exposed answers what the binding shows. -/
theorem exposed_yields (c : Class) (b : ClassBinding) (m : Method) :
    Yields (exposed c b m) (.ok (b.shows m)) := by
  unfold exposed ClassBinding.shows
  split_ifs with hbound
  · rw [hbound, Bool.true_and]
    exact .pure _
  · rw [Bool.eq_false_iff.2 hbound, Bool.false_and]
    exact (Yields.log _ _).andThen (.pure false)

/-- The methods that are shown are added as rows, in their order. -/
theorem addMethods_yields (b : ClassBinding) : ∀ (methods : List Method) (t : BoundClass),
    Yields (addMethods b t methods) (addRows t ((methods.filter b.shows).map methodRow))
  | [], t => .pure t
  | m :: rest, t => by
    rw [addMethods]
    refine (exposed_yields t.cls b m).andThen ?_
    rcases hshown : b.shows m with _ | _
    · rw [List.filter_cons_of_neg (by simp [hshown])]
      exact addMethods_yields b rest t
    · rw [List.filter_cons_of_pos hshown]
      exact (Yields.ofExcept _).bind fun t' _ => addMethods_yields b rest t'

/-- The constructor is kept if the binding shows it. -/
theorem shownMaker_yields (c : Class) (b : ClassBinding) :
    Yields (shownMaker c b) (.ok (c.maker.filter b.shows)) := by
  unfold shownMaker
  rcases c.maker with _ | m
  · exact .pure none
  · refine (exposed_yields c b m).andThen ?_
    rcases hshown : b.shows m with _ | _
    · rw [Option.filter_some_neg (by simp [hshown])]
      exact .pure none
    · rw [Option.filter_some_pos hshown]
      exact .pure (some m)

/-- The table that a binding gives, or what is wrong with the binding. -/
def tableFor (registry : Registry) (b : ClassBinding) : Except BridgeError BoundClass := do
  let c ← bindingClass registry b
  checkExcluded c b.excluded
  addRows ⟨c, c.maker.filter b.shows, []⟩
    ((c.ownMethods.filter b.shows).map methodRow ++ (b.addedDefs c).map defRow)

/-- The table of a binding is the one that its registry determines. -/
theorem boundClass_yields (registry : Registry) (b : ClassBinding) :
    Yields (boundClass registry b) (tableFor registry b) := by
  refine (Yields.ofExcept _).bind fun c _ => (Yields.ofExcept _).bind fun _ _ =>
    (shownMaker_yields c b).andThen ?_
  rw [addRows_append]
  refine (addMethods_yields b _ _).bind fun t _ => ?_
  rw [← addDefs_eq]
  exact .ofExcept _

/-! ### Right and wrong bindings -/

/-- The table lists what the binding declares for the class `c`, and nothing else. -/
structure Lists (b : ClassBinding) (c : Class) (t : BoundClass) : Prop where
  cls_eq : t.cls = c
  entryNames_eq : t.entryNames = (b.rows c).map Prod.fst
  entry?_eq_some_iff : ∀ name entry, t.entry? name = some entry ↔ (name, entry) ∈ b.rows c
  entry?_eq_none : ∀ name, name ∉ (b.rows c).map Prod.fst → t.entry? name = none
  maker_eq_some_iff : ∀ m, t.maker = some m ↔ c.maker = some m ∧ b.shows m = true

/-- Where no two rows share a name, the table lists them all. -/
theorem lists_table (h : ((b.rows c).map Prod.fst).Nodup) : Lists b c (b.table c) where
  cls_eq := rfl
  entryNames_eq := rfl
  entry?_eq_some_iff _ _ := findEntry_eq_some_iff h
  entry?_eq_none name hname := by
    rw [← Option.not_isSome_iff_eq_none]
    exact fun hsome => hname (findEntry_isSome_iff.1 hsome)
  maker_eq_some_iff _ := Option.filter_eq_some_iff

/-- The first name of the list that the class does not declare. -/
def FirstUndeclared (c : Class) (names : List String) (name : String) : Prop :=
  ∃ before after, names = before ++ name :: after ∧ (∀ x ∈ before, c.Declares x) ∧
    ¬ c.Declares name

/-- The binding is right, and `c` is its class: the class is registered, it declares everything
that the binding hides, and no two of its entries share a name. -/
structure Sound (registry : Registry) (b : ClassBinding) (c : Class) : Prop where
  fetch_eq : registry.fetch b.className = .ok c
  declares : ∀ name ∈ b.excluded, c.Declares name
  nodup : ((b.rows c).map Prod.fst).Nodup

/-- What is wrong with a binding: its class is not registered; or else it hides what the class
does not declare; or else two of its entries share a name. -/
inductive Faulty (registry : Registry) (b : ClassBinding) : BridgeError → Prop
  | unknownClass (hclass : ∀ c, registry.fetch b.className ≠ .ok c) :
    Faulty registry b (.unknownClassBinding b.className)
  | unknownMethod (c : Class) (name : String) (hclass : registry.fetch b.className = .ok c)
    (hname : FirstUndeclared c b.excluded name) : Faulty registry b (.unknownMethod c.name name)
  | conflict (c : Class) (name : String) (hclass : registry.fetch b.className = .ok c)
    (hdeclares : ∀ name ∈ b.excluded, c.Declares name)
    (hname : FirstRepeat ((b.rows c).map Prod.fst) name) :
    Faulty registry b (.bindingConflict c.name name)

variable {names : List String} {name : String} {e : BridgeError}

/-- The class of a binding is the one with its name. -/
theorem bindingClass_of_ok (h : registry.fetch b.className = .ok c) :
    bindingClass registry b = .ok c := by
  rw [bindingClass, h]

/-- A binding for an unknown name is refused. -/
theorem bindingClass_of_unknown (h : ∀ c, registry.fetch b.className ≠ .ok c) :
    bindingClass registry b = .error (.unknownClassBinding b.className) := by
  rw [bindingClass]
  rcases hfetch : registry.fetch b.className with e | c
  · rfl
  · exact absurd hfetch (h c)

/-- A list of excluded names passes if the class declares all of them. -/
theorem checkExcluded_of_declares (h : ∀ x ∈ names, c.Declares x) :
    checkExcluded c names = .ok () := by
  induction names with
  | nil => rfl
  | cons name rest ih =>
    obtain ⟨hname, hrest⟩ := List.forall_mem_cons.1 h
    rw [checkExcluded, if_pos (Class.declared?_isSome.2 hname), ih hrest]

/-- The first excluded name that the class does not declare decides the error. -/
theorem checkExcluded_of_firstUndeclared (h : FirstUndeclared c names name) :
    checkExcluded c names = .error (.unknownMethod c.name name) := by
  obtain ⟨before, after, rfl, hbefore, hname⟩ := h
  induction before with
  | nil => exact if_neg fun hsome => hname (Class.declared?_isSome.1 hsome)
  | cons first rest ih =>
    obtain ⟨hfirst, hrest⟩ := List.forall_mem_cons.1 hbefore
    rw [List.cons_append, checkExcluded, if_pos (Class.declared?_isSome.2 hfirst), ih hrest]

/-- Unless the class declares all the names, there is a first that it does not declare. -/
theorem exists_firstUndeclared (h : ¬ ∀ x ∈ names, c.Declares x) :
    ∃ name, FirstUndeclared c names name := by
  induction names with
  | nil => exact absurd (by simp) h
  | cons first rest ih =>
    by_cases hfirst : c.Declares first
    · obtain ⟨name, before, after, rfl, hbefore, hname⟩ :=
        ih fun hrest => h (List.forall_mem_cons.2 ⟨hfirst, hrest⟩)
      exact ⟨name, first :: before, after, rfl, List.forall_mem_cons.2 ⟨hfirst, hbefore⟩, hname⟩
    · exact ⟨first, [], rest, rfl, by simp, hfirst⟩

/-- A binding is right, or something is wrong with it. -/
theorem sound_or_faulty (registry : Registry) (b : ClassBinding) :
    (∃ c, Sound registry b c) ∨ ∃ e, Faulty registry b e := by
  by_cases hclass : ∃ c, registry.fetch b.className = .ok c
  swap
  · exact Or.inr ⟨_, .unknownClass fun c hc => hclass ⟨c, hc⟩⟩
  obtain ⟨c, hclass⟩ := hclass
  by_cases hdeclares : ∀ x ∈ b.excluded, c.Declares x
  swap
  · obtain ⟨name, hname⟩ := exists_firstUndeclared hdeclares
    exact Or.inr ⟨_, .unknownMethod c name hclass hname⟩
  by_cases hnodup : ((b.rows c).map Prod.fst).Nodup
  · exact Or.inl ⟨c, hclass, hdeclares, hnodup⟩
  · obtain ⟨name, hname⟩ := exists_firstRepeat hnodup
    exact Or.inr ⟨_, .conflict c name hclass hdeclares hname⟩

/-- A binding with a fault is not sound. -/
theorem Faulty.not_sound (h : Faulty registry b e) : ¬ Sound registry b c := by
  intro hc
  have hcls : ∀ {d}, registry.fetch b.className = .ok d → d = c := fun hd =>
    Except.ok.inj (hd.symm.trans hc.fetch_eq)
  cases h with
  | unknownClass hclass => exact hclass c hc.fetch_eq
  | unknownMethod d name hclass hname =>
    obtain rfl := hcls hclass
    obtain ⟨before, after, hexcluded, -, hnot⟩ := hname
    exact hnot (hc.declares name (by simp [hexcluded]))
  | conflict d name hclass hdeclares hname =>
    obtain rfl := hcls hclass
    exact hname.not_nodup hc.nodup

/-- The methods of a built class and what is added give the rows. -/
theorem rows_eq (hc : c.Built) :
    (c.ownMethods.filter b.shows).map methodRow ++ (b.addedDefs c).map defRow = b.rows c := by
  have hmethods : (c.declaredMethods.filter b.shows).map methodRow =
      (c.declaredMethods.filter b.shows).map fun m => (m.hostName, Entry.method m) := by
    refine List.map_congr_left fun m hm => ?_
    rw [methodRow, entryFor, hc.kind_of_declared (List.mem_filter.1 hm).1]
  have hfunctions : (c.functions.filter b.shows).map methodRow =
      (c.functions.filter b.shows).map fun m => (m.hostName, Entry.function m) := by
    refine List.map_congr_left fun m hm => ?_
    rw [methodRow, entryFor, hc.kind_of_functions (List.mem_filter.1 hm).1]
  rw [Class.ownMethods, List.filter_append, List.map_append, hmethods, hfunctions]
  rfl

/-- The table of a binding that is right. -/
theorem tableFor_of_sound (hr : registry.Built) (h : Sound registry b c) :
    tableFor registry b = .ok (b.table c) := by
  have hc := hr _ c h.fetch_eq
  unfold tableFor
  rw [bindingClass_of_ok h.fetch_eq, ok_bind, checkExcluded_of_declares h.declares,
    ok_bind, rows_eq hc]
  exact addRows_ok_iff.2 ⟨h.nodup, rfl⟩

/-- The error of a binding that is wrong. -/
theorem tableFor_of_faulty (hr : registry.Built) (h : Faulty registry b e) :
    tableFor registry b = .error e := by
  unfold tableFor
  cases h with
  | unknownClass hclass =>
    rw [bindingClass_of_unknown hclass]
    rfl
  | unknownMethod c name hclass hname =>
    rw [bindingClass_of_ok hclass, ok_bind, checkExcluded_of_firstUndeclared hname]
    rfl
  | conflict c name hclass hdeclares hname =>
    rw [bindingClass_of_ok hclass, ok_bind, checkExcluded_of_declares hdeclares,
      ok_bind, rows_eq (hr _ c hclass)]
    exact addRows_of_firstRepeat hname

/-- The binding is right, and `t` is its table. -/
def Makes (registry : Registry) (b : ClassBinding) (t : BoundClass) : Prop :=
  ∃ c, Sound registry b c ∧ t = b.table c

end Emission

end Interop

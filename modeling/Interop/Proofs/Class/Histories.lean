/-
# Histories of a registry

A registry starts open and empty.  Classes and aliases are registered in it, the core parcel is
enrolled, and at some time it may be frozen; each of these steps may fail, and enrolling the
core parcel may fail half way.

**Every state of every history is lawful** (`Registry.Logged.run_lawful`): what a name stands
for never changes, and a class that any name stands for is there under its own name, with all
its ancestors under theirs.  An alias may take the name of a class that is not registered yet;
then that class can no longer be registered, and no class that extends it.  So every request
that succeeds keeps the registry closed (`Registry.Closed.apply`), and the induction over a
history needs nothing else.

Freezing moves the table to another place, from which the same is read (`Registry.alike_freeze`).
A look-up that this move overtakes does not miss a name (`Registry.Logged.fetchAcross_run`).
-/

import Interop.Parcel.Classes
import Interop.Proofs.Text.Keys

namespace Interop

/-- An ancestor is the class itself or an ancestor of its parent. -/
theorem Class.mem_ancestry_iff {c a : Class} :
    a ∈ c.ancestry ↔ a = c ∨ ∃ p, c.parent? = some p ∧ a ∈ p.ancestry := by
  cases c <;> simp [Class.ancestry, Class.parent?]

namespace Registry

variable {r r' : Registry} {c d : Class} {name added target : String}

/-! ### One request -/

/-- While a registry is open, the open table has exactly the names that stand for a class. -/
theorem openTable_contains_eq_false_iff (h : r.isFrozen = false) :
    r.openTable.contains name = false ↔ ∀ c, r.fetch name ≠ .ok c := by
  simp only [← table_of_open h, KeyMap.contains, Option.isSome_eq_false_iff,
    Option.isNone_iff_eq_none, ne_eq, fetch_ok_iff, Option.eq_none_iff_forall_ne_some]

/-- A name that is given to a class stands for it, and the other names for what they stood
for. -/
theorem fetch_assign (h : r.isFrozen = false) :
    (r.assign added d).fetch name = if name = added then .ok d else r.fetch name := by
  have htable : (r.assign added d).table = r.openTable.insert added d := table_of_open h
  rw [fetch_eq_lookup, fetch_eq_lookup, htable, table_of_open h, lookup, KeyMap.get?_insert]
  split_ifs <;> rfl

/-- The names are in the order of their bytes. -/
theorem names_ascending (r : Registry) :
    r.names.Pairwise fun a b => Text.utf8 a < Text.utf8 b :=
  names_eq_keys r ▸ r.table.keys_ascending.imp Text.utf8_lt

/-- Exactly the names that stand for a class are listed. -/
theorem mem_names_iff : name ∈ r.names ↔ ∃ c, r.fetch name = .ok c := by
  simp only [fetch_ok_iff, names_eq_keys, KeyMap.mem_keys_iff, Option.isSome_iff_exists]

/-- While a registry is open, it knows a parent that its own name stands for. -/
theorem knowsParent_ok_iff (h : r.isFrozen = false) :
    r.knowsParent c = .ok () ↔ ∀ p, c.parent? = some p → r.fetch p.name = .ok p := by
  unfold knowsParent
  rcases c.parent? with _ | p
  · simp
  · by_cases hp : r.openTable.get? p.name = some p <;> simp [fetch_ok_iff, table_of_open h, hp]

/-- **When a class can be registered,** and what the registry is then. -/
theorem register_ok_iff : r.register c = .ok r' ↔
    (r.isFrozen = false ∧ (∀ d, r.fetch c.name ≠ .ok d) ∧
      ∀ p, c.parent? = some p → r.fetch p.name = .ok p) ∧ r.assign c.name c = r' := by
  rw [register]
  cases hfrozen : r.isFrozen
  case true => simp
  rw [← openTable_contains_eq_false_iff hfrozen, ← knowsParent_ok_iff hfrozen]
  rcases r.openTable.contains c.name with _ | _
  swap
  · simp
  rcases r.knowsParent c with e | ⟨⟩
  · simp [Except.map]
  · simp [Except.map]

/-- **When an alias can be registered,** and what the registry is then. -/
theorem registerAlias_ok_iff : r.registerAlias added target = .ok r' ↔
    (r.isFrozen = false ∧ (∀ d, r.fetch added ≠ .ok d)) ∧
      ∃ c, r.fetch target = .ok c ∧ r.assign added c = r' := by
  rw [registerAlias]
  cases hfrozen : r.isFrozen
  case true => simp
  rw [← openTable_contains_eq_false_iff hfrozen, fetch_eq_lookup r target, table_of_open hfrozen]
  rcases lookup r.openTable target with e | c
  · simp
  rcases r.openTable.contains added with _ | _ <;> simp

/-- **A request that succeeds** gives a free name to a class: to the class of that name, when
its parent is there, or to one that is there already. -/
theorem apply_ok {q : Registration} (h : r.apply q = .ok r') : r.isFrozen = false ∧
    ∃ name c, r' = r.assign name c ∧ (∀ d, r.fetch name ≠ .ok d) ∧
      ((name = c.name ∧ ∀ p, c.parent? = some p → r.fetch p.name = .ok p) ∨
        ∃ target, r.fetch target = .ok c) := by
  cases q with
  | ofClass c =>
    obtain ⟨⟨hopen, hfree, hparent⟩, rfl⟩ := register_ok_iff.1 h
    exact ⟨hopen, c.name, c, rfl, hfree, Or.inl ⟨rfl, hparent⟩⟩
  | ofAlias added target =>
    obtain ⟨⟨hopen, hfree⟩, c, htarget, rfl⟩ := registerAlias_ok_iff.1 h
    exact ⟨hopen, added, c, rfl, hfree, Or.inr ⟨target, htarget⟩⟩

/-- A frozen registry refuses everything. -/
theorem apply_of_frozen (hfrozen : r.isFrozen = true) (q : Registration) :
    r.apply q = .error .registryFrozen := by
  cases q with
  | ofClass c => exact if_pos hfrozen
  | ofAlias added target => exact if_pos hfrozen

/-! ### What freezing keeps -/

/-- The two registries give the same answers. -/
structure Alike (r r' : Registry) : Prop where
  fetch_eq : ∀ name, r'.fetch name = r.fetch name
  contains_eq : ∀ name, r'.contains name = r.contains name
  names_eq : r'.names = r.names

/-- All answers are read off the table in force, whichever of the two it is. -/
theorem Alike.of_table (h : r'.table = r.table) : r.Alike r' := by
  have hfetch : ∀ name, r'.fetch name = r.fetch name := fun name => by
    rw [fetch_eq_lookup, fetch_eq_lookup, h]
  refine ⟨hfetch, fun name => ?_, ?_⟩
  · rw [contains, contains, hfetch]
  · rw [names_eq_keys, names_eq_keys, h]

/-- A registry answers as itself. -/
theorem Alike.refl (r : Registry) : r.Alike r :=
  .of_table rfl

/-- **Freezing moves the table and changes no answer.** -/
theorem alike_freeze (r : Registry) : r.Alike r.freeze :=
  .of_table (table_freeze r)

/-! ### What requests keep -/

/-- What a name stands for in the first registry, it stands for in the second. -/
def Extends (r' r : Registry) : Prop :=
  ∀ name c, r.fetch name = .ok c → r'.fetch name = .ok c

/-- A class that a name stands for is there under its own name, and so are its ancestors. -/
def Closed (r : Registry) : Prop :=
  ∀ name c, r.fetch name = .ok c → ∀ a ∈ c.ancestry, r.fetch a.name = .ok a

/-- A registry extends itself. -/
theorem Extends.refl (r : Registry) : r.Extends r :=
  fun _ _ h => h

/-- A name that was free does not take anything away. -/
theorem extends_assign (hopen : r.isFrozen = false) (hfree : ∀ d, r.fetch name ≠ .ok d) :
    (r.assign name c).Extends r := by
  intro other d hd
  rw [fetch_assign hopen, if_neg, hd]
  rintro rfl
  exact hfree d hd

/-- A request that succeeds extends the registry. -/
theorem Extends.apply {r₀ : Registry} {q : Registration} (hext : r.Extends r₀)
    (h : r.apply q = .ok r') : r'.Extends r₀ := by
  obtain ⟨hopen, name, c, rfl, hfree, -⟩ := apply_ok h
  exact fun other d hd => extends_assign hopen hfree other d (hext other d hd)

/-- Every class of the empty registry has its ancestry there. -/
theorem closed_empty : Closed .empty :=
  fun name _ h => absurd ((fetch_empty name).symm.trans h) (by simp)

/-- Freezing takes no class away from its ancestry. -/
theorem Closed.freeze (h : r.Closed) : r.freeze.Closed := by
  have hfetch := (alike_freeze r).fetch_eq
  exact fun name c hc a ha => hfetch _ ▸ h name c (hfetch name ▸ hc) a ha

/-- **Requests keep a registry closed.** -/
theorem Closed.apply {q : Registration} (hclosed : r.Closed) (h : r.apply q = .ok r') :
    r'.Closed := by
  obtain ⟨hopen, name, c, rfl, hfree, hwhy⟩ := apply_ok h
  have hext : (r.assign name c).Extends r := extends_assign hopen hfree
  have hc : ∀ a ∈ c.ancestry, (r.assign name c).fetch a.name = .ok a := by
    intro a ha
    rcases hwhy with ⟨rfl, hparent⟩ | ⟨target, htarget⟩
    · rcases Class.mem_ancestry_iff.1 ha with rfl | ⟨p, hp, ha⟩
      · exact (fetch_assign hopen).trans (if_pos rfl)
      · exact hext _ _ (hclosed p.name p (hparent p hp) a ha)
    · exact hext _ _ (hclosed target c htarget a ha)
  intro other d hd a ha
  rw [fetch_assign hopen] at hd
  split_ifs at hd
  · exact hc a (Except.ok.inj hd ▸ ha)
  · exact hext _ _ (hclosed other d hd a ha)

/-! ### Histories -/

/-- What is done with a registry. -/
inductive Step
  | register (c : Class)
  | registerAlias (added target : String)
  | registerCore
  | freeze

/-- The requests that a step carries out. -/
def Step.requests : Step → List Registration
  | .register c => [.ofClass c]
  | .registerAlias added target => [.ofAlias added target]
  | .registerCore => Parcel.registrations
  | .freeze => []

/-- Nothing is left in the open table of a frozen registry. -/
def Moved (r : Registry) : Prop :=
  r.isFrozen = true → r.openTable = .empty

/-- As long as the registry is open, nothing is asked of its open table. -/
theorem moved_of_open (h : r.isFrozen = false) : r.Moved :=
  fun hfrozen => absurd (h.symm.trans hfrozen) Bool.false_ne_true

/-- A request succeeds only while the registry is open. -/
theorem Moved.apply {q : Registration} (h : r.apply q = .ok r') : r'.Moved := by
  obtain ⟨hopen, name, c, rfl, -⟩ := apply_ok h
  exact moved_of_open hopen

/-- The move leaves the open table empty. -/
theorem Moved.freeze (h : r.Moved) : r.freeze.Moved := by
  cases hfrozen : r.isFrozen with
  | true => rwa [freeze_of_frozen hfrozen]
  | false => exact fun _ => congrArg Registry.openTable (freeze_of_open hfrozen)

namespace Logged

variable {l : Logged} {P : Registry → Prop}

/-- The registry after one step, and the failure that ended the step. -/
def step (l : Logged) : Step → Logged × Option BridgeError
  | .freeze => (l.freeze, none)
  | s => l.enrol s.requests

/-- The registry after a history, whichever of its steps failed. -/
def run (l : Logged) (history : List Step) : Logged :=
  history.foldl (fun l s => (l.step s).1) l

/-- A registry is frozen whatever the log is. -/
theorem freeze_registry : l.freeze.registry = l.registry.freeze := by
  unfold freeze
  split_ifs with hfrozen
  · exact (freeze_of_frozen hfrozen).symm
  · rfl

/-- A request that succeeds does so when it is listed alone. -/
theorem enrol_ok {q : Registration} {r : Registry} (h : l.registry.apply q = .ok r) :
    (l.enrol [q]).1.registry = r ∧ (l.enrol [q]).2 = none := by
  simp [enrol, apply, h, Except.map]

/-- A request that fails changes nothing when it is listed alone. -/
theorem enrol_error {q : Registration} {e : BridgeError} (h : l.registry.apply q = .error e) :
    l.enrol [q] = (l, some e) := by
  simp [enrol, apply, h, Except.map]

/-- One request ends without a failure when the registry carries it out. -/
theorem enrol_done_iff {q : Registration} :
    (l.enrol [q]).2 = none ↔ ∃ r, l.registry.apply q = .ok r := by
  rcases h : l.registry.apply q with e | r
  · simp [enrol_error h]
  · simp [enrol_ok h]

/-- One request that fails changes nothing. -/
theorem enrol_failed {q : Registration} {e : BridgeError} (h : (l.enrol [q]).2 = some e) :
    (l.enrol [q]).1 = l := by
  rcases hq : l.registry.apply q with e' | r
  · rw [enrol_error hq]
  · exact absurd ((enrol_ok hq).2.symm.trans h) (by simp)

/-- What every request of a list keeps when it succeeds, the list keeps. -/
theorem enrol_keeps {requests : List Registration}
    (hstep : ∀ q ∈ requests, ∀ r r', P r → r.apply q = .ok r' → P r') (h : P l.registry) :
    P (l.enrol requests).1.registry := by
  induction requests generalizing l with
  | nil => exact h
  | cons q rest ih =>
    rw [enrol]
    rcases hq : l.apply q with e | l'
    · exact h
    · refine ih (fun q hq => hstep q (List.mem_cons_of_mem _ hq)) ?_
      unfold apply at hq
      rcases hr : l.registry.apply q with e | r <;> rw [hr] at hq
      · exact absurd hq (by simp [Except.map])
      · obtain rfl := Except.ok.inj hq
        exact hstep q List.mem_cons_self _ r h hr

/-- **What its requests and freezing keep,** a history keeps. -/
theorem run_keeps {history : List Step}
    (hstep : ∀ s ∈ history, ∀ q ∈ s.requests, ∀ r r', P r → r.apply q = .ok r' → P r')
    (hfreeze : ∀ r, P r → P r.freeze) (h : P l.registry) : P (l.run history).registry := by
  induction history generalizing l with
  | nil => exact h
  | cons s rest ih =>
    refine ih (fun s hs => hstep s (List.mem_cons_of_mem _ hs)) ?_
    have hs := hstep s List.mem_cons_self
    cases s with
    | register c => exact enrol_keeps hs h
    | registerAlias added target => exact enrol_keeps hs h
    | registerCore => exact enrol_keeps hs h
    | freeze => exact freeze_registry ▸ hfreeze _ h

/-- No name loses what it stands for. -/
theorem run_extends (history : List Step) : (l.run history).registry.Extends l.registry :=
  run_keeps (P := (Extends · l.registry)) (fun _ _ _ _ _ _ hext h => hext.apply h)
    (fun r hext name c h => ((alike_freeze r).fetch_eq name).trans (hext name c h)) (Extends.refl _)

/-- A closed registry stays closed. -/
theorem run_closed (history : List Step) (h : l.registry.Closed) :
    (l.run history).registry.Closed :=
  run_keeps (fun _ _ _ _ _ _ hclosed h => hclosed.apply h) (fun _ h => h.freeze) h

/-- Once the table has moved, nothing is put in its old place. -/
theorem run_moved (history : List Step) (h : l.registry.Moved) : (l.run history).registry.Moved :=
  run_keeps (fun _ _ _ _ _ _ _ h => Moved.apply h) (fun _ h => h.freeze) h

/-- **A frozen registry** stays as it is. -/
theorem run_of_frozen (history : List Step) (hfrozen : l.registry.isFrozen = true) :
    (l.run history).registry = l.registry := by
  refine run_keeps (P := (· = l.registry)) (fun _ _ q _ r r' hr h => ?_) (fun r hr => ?_) rfl
  · rw [hr, apply_of_frozen hfrozen] at h
    exact absurd h (by simp)
  · rw [hr, freeze_of_frozen hfrozen]

/-- After freezing nothing changes. -/
theorem run_freeze (history : List Step) :
    ((l.step .freeze).1.run history).registry = l.registry.freeze := by
  have hfrozen : (l.step .freeze).1.registry = l.registry.freeze := freeze_registry
  rw [run_of_frozen history (hfrozen ▸ isFrozen_freeze _), hfrozen]

/-- After freezing every request is refused. -/
theorem enrol_after_freeze (history : List Step) (q : Registration) :
    (((l.step .freeze).1.run history).enrol [q]).2 = some .registryFrozen := by
  rw [enrol_error (apply_of_frozen (run_freeze history ▸ isFrozen_freeze _) q)]

/-- **A look-up that freezing overtakes** is answered as in one of the three states in which it
looked.  A name that it finds in the open table was not frozen yet; one that it finds nowhere
was still unknown when it read the open table. -/
theorem fetchAcross_run (hmoved : l.registry.Moved) (before after : List Step) (name : String) :
    let second := l.run before
    let third := second.run after
    fetchAcross l.registry second.registry third.registry name ∈
      [l.registry.fetch name, second.registry.fetch name, third.registry.fetch name] := by
  intro second third
  unfold fetchAcross
  -- the look that decides tells in which state the name is answered so
  rcases hfirst : l.registry.frozenTable with _ | table
  swap
  · have hanswer : l.registry.fetch name = lookup table name := by
      rw [fetch_eq_lookup, Registry.table, hfirst, Option.getD_some]
    simp [hanswer]
  rcases hfound : second.registry.openTable.get? name with _ | c <;> simp only
  · rcases hthird : third.registry.frozenTable with _ | table <;> simp only
    · have hopen : second.registry.isFrozen = false := by
        rw [Bool.eq_false_iff]
        intro hfrozen
        have hstill : third.registry.isFrozen = true := run_of_frozen after hfrozen ▸ hfrozen
        exact absurd (isFrozen_eq_false_iff.2 hthird) (by simp [hstill])
      have hanswer : second.registry.fetch name = .error (.unknownType name) := by
        rw [fetch_eq_lookup, table_of_open hopen, lookup, hfound]
      simp [hanswer]
    · have hanswer : third.registry.fetch name = lookup table name := by
        rw [fetch_eq_lookup, Registry.table, hthird, Option.getD_some]
      simp [hanswer]
  · have hopen : second.registry.isFrozen = false := by
      rw [Bool.eq_false_iff]
      intro hfrozen
      rw [run_moved before hmoved hfrozen] at hfound
      exact absurd hfound (by simp [KeyMap.get?, KeyMap.empty, findEntry])
    have hanswer : second.registry.fetch name = .ok c := by
      rw [fetch_ok_iff, table_of_open hopen, hfound]
    simp [hanswer]

/-- What holds of a registry in every state of its history. -/
structure Lawful (l : Logged) : Prop where
  /-- What a name stands for never changes. -/
  stable : ∀ history name c, l.registry.fetch name = .ok c →
    (l.run history).registry.fetch name = .ok c
  /-- A class that a name stands for is there under its own name, with its ancestors. -/
  closed : ∀ name c, l.registry.fetch name = .ok c →
    ∀ a ∈ c.ancestry, l.registry.fetch a.name = .ok a
  /-- A class that cannot be registered leaves no trace. -/
  register_failed : ∀ c e, (l.step (.register c)).2 = some e →
    l.registry.Alike (l.step (.register c)).1.registry
  /-- An alias that cannot be registered leaves no trace. -/
  registerAlias_failed : ∀ added target e, (l.step (.registerAlias added target)).2 = some e →
    l.registry.Alike (l.step (.registerAlias added target)).1.registry
  /-- Freezing changes no answer, and nothing does afterwards. -/
  frozen_alike : ∀ history, l.registry.Alike ((l.step .freeze).1.run history).registry
  /-- A look-up that is overtaken by requests or by freezing between its looks is answered as in
  one of the states in which it looked. -/
  overtaken : ∀ before after name,
    fetchAcross l.registry (l.run before).registry ((l.run before).run after).registry name ∈
      [l.registry.fetch name, (l.run before).registry.fetch name,
        ((l.run before).run after).registry.fetch name]
  /-- No class is registered after freezing. -/
  frozen_register : ∀ history c,
    (((l.step .freeze).1.run history).step (.register c)).2 = some .registryFrozen
  /-- No alias is registered after freezing. -/
  frozen_registerAlias : ∀ history added target,
    (((l.step .freeze).1.run history).step (.registerAlias added target)).2 = some .registryFrozen
  /-- When a class can be registered. -/
  register_done_iff : ∀ c, (l.step (.register c)).2 = none ↔ l.registry.isFrozen = false ∧
    (∀ d, l.registry.fetch c.name ≠ .ok d) ∧
      ∀ p, c.parent? = some p → l.registry.fetch p.name = .ok p
  /-- What registering a class changes. -/
  register_done : ∀ c, (l.step (.register c)).2 = none → ∀ name,
    (l.step (.register c)).1.registry.fetch name =
      if name = c.name then .ok c else l.registry.fetch name
  /-- When an alias can be registered. -/
  registerAlias_done_iff : ∀ added target, (l.step (.registerAlias added target)).2 = none ↔
    l.registry.isFrozen = false ∧ (∃ c, l.registry.fetch target = .ok c) ∧
      ∀ d, l.registry.fetch added ≠ .ok d
  /-- What registering an alias changes. -/
  registerAlias_done : ∀ added target, (l.step (.registerAlias added target)).2 = none → ∀ name,
    (l.step (.registerAlias added target)).1.registry.fetch name =
      if name = added then l.registry.fetch target else l.registry.fetch name
  /-- The names are listed in ascending order of their bytes. -/
  ascending : l.registry.names.Pairwise fun a b => Text.utf8 a < Text.utf8 b
  /-- Exactly the names that stand for a class are listed. -/
  listed : ∀ name, name ∈ l.registry.names ↔ ∃ c, l.registry.fetch name = .ok c

/-- A closed registry is lawful. -/
theorem lawful_of_closed (hclosed : l.registry.Closed) (hmoved : l.registry.Moved) :
    l.Lawful where
  stable history := run_extends history
  closed := hclosed
  register_failed c e h := by
    have hsame : (l.step (.register c)).1 = l := enrol_failed h
    rw [hsame]
    exact .refl _
  registerAlias_failed added target e h := by
    have hsame : (l.step (.registerAlias added target)).1 = l := enrol_failed h
    rw [hsame]
    exact .refl _
  frozen_alike history := run_freeze history ▸ alike_freeze _
  overtaken := fetchAcross_run hmoved
  frozen_register history c := enrol_after_freeze history (.ofClass c)
  frozen_registerAlias history added target := enrol_after_freeze history (.ofAlias added target)
  register_done_iff c := by
    refine (enrol_done_iff (q := .ofClass c)).trans ?_
    exact (exists_congr fun r => register_ok_iff).trans (by simp)
  register_done c h name := by
    obtain ⟨r, hr⟩ := (enrol_done_iff (q := .ofClass c)).1 h
    obtain ⟨⟨hopen, -⟩, rfl⟩ := register_ok_iff.1 hr
    show (l.enrol [.ofClass c]).1.registry.fetch name = _
    rw [(enrol_ok hr).1, fetch_assign hopen]
  registerAlias_done_iff added target := by
    refine (enrol_done_iff (q := .ofAlias added target)).trans ?_
    refine (exists_congr fun r => registerAlias_ok_iff).trans ?_
    constructor
    · rintro ⟨r, ⟨hopen, hfree⟩, c, htarget, -⟩
      exact ⟨hopen, ⟨c, htarget⟩, hfree⟩
    · rintro ⟨hopen, ⟨c, htarget⟩, hfree⟩
      exact ⟨_, ⟨hopen, hfree⟩, c, htarget, rfl⟩
  registerAlias_done added target h name := by
    obtain ⟨r, hr⟩ := (enrol_done_iff (q := .ofAlias added target)).1 h
    obtain ⟨⟨hopen, -⟩, c, htarget, rfl⟩ := registerAlias_ok_iff.1 hr
    show (l.enrol [.ofAlias added target]).1.registry.fetch name = _
    rw [(enrol_ok hr).1, fetch_assign hopen, htarget]
  ascending := names_ascending _
  listed _ := mem_names_iff

/-- **Every state of every history is lawful,** whichever of its steps failed. -/
theorem run_lawful (logger : Log.Logger) (history : List Step) :
    ((Logged.mk .empty logger).run history).Lawful :=
  lawful_of_closed (run_closed history closed_empty) (run_moved history (moved_of_open rfl))

end Logged

end Registry

end Interop

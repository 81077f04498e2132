/-
# The references that handles move

Handles are made, cloned, released, dropped and asked for their reference, in any order and any
number of times.  Each action moves at most one reference: to a new handle, or away from a handle
that owned one (`HandleAction.transfer?`).  `World.Carried` says what the transfers of a run tell
of the world after it, and it can be put together from the transfers of two parts.

**Handles move references as their transfers say** (`World.acts_carried`): the heap takes and
gives back just these references, and no handle loses a reference twice.  What else an action
changes, it changes of its own handle (`World.act_handle_eq`).
-/

import Interop.Proofs.Ownership.Operations
import Interop.Proofs.Ownership.Sessions

namespace Interop

/-! ### Actions and transfers -/

/-- What is done with handles. -/
inductive HandleAction
  /-- Makes a handle of a reference that the caller owns. -/
  | acquire (p : ObjId)
  /-- Makes a handle with a new reference. -/
  | wrap (p : ObjId)
  | tryClone (h : HandleId)
  | setPolicy (h : HandleId) (policy : ReleasePolicy)
  | release (h : HandleId)
  /-- Hands the reference of the handle to the caller. -/
  | intoRaw (h : HandleId)
  /-- Drops the handle, or one of several wrappers that share it. -/
  | drop (h : HandleId)

/-- How a reference comes to a handle or leaves it. -/
inductive TransferKind
  /-- From the caller to a new handle. -/
  | adopted
  /-- It is new, and so is the handle. -/
  | taken
  /-- It is given back. -/
  | given
  /-- From a handle to the caller. -/
  | handed
deriving DecidableEq

/-- Whether the reference comes to a handle. -/
def TransferKind.arrives : TransferKind → Bool
  | adopted | taken => true
  | given | handed => false

/-- A reference that comes to a handle or leaves it. -/
structure Transfer where
  kind : TransferKind
  handle : HandleId
  object : ObjId

namespace Transfer

/-- What the transfer does to the heap. -/
def move (m : Machine) (global : Registry) (heap : Heap) (t : Transfer) : Heap :=
  match t.kind with
  | .adopted | .handed => heap
  | .taken => (heap.retain t.object).toOption.getD heap
  | .given => (m.release global t.object heap).2

/-- The objects of the transfers of one kind, one entry for each. -/
def objects (kind : TransferKind) (ts : List Transfer) : Multiset ObjId :=
  ((ts.filter (·.kind = kind)).map (·.object) : List ObjId)

/-- How many handles were made. -/
def arrivals (ts : List Transfer) : Nat :=
  ts.countP (·.kind.arrives)

/-- How many references have left the handle. -/
def departures (h : HandleId) (ts : List Transfer) : Nat :=
  ts.countP fun t => t.handle = h ∧ t.kind.arrives = false

variable {kind : TransferKind} {h : HandleId} {ts ts' : List Transfer}

/-- No transfers move no objects. -/
@[simp] theorem objects_nil : objects kind [] = 0 := rfl

/-- Transfers move objects one after the other. -/
@[simp] theorem objects_append : objects kind (ts ++ ts') = objects kind ts + objects kind ts' := by
  rw [objects, List.filter_append, List.map_append, ← Multiset.coe_add]
  rfl

/-- A transfer moves its object. -/
@[simp] theorem objects_singleton (t : Transfer) :
    objects kind [t] = if t.kind = kind then {t.object} else 0 := by
  by_cases hkind : t.kind = kind <;> simp [objects, hkind]

/-- A transfer arrives or it does not. -/
@[simp] theorem arrivals_singleton (t : Transfer) :
    arrivals [t] = if t.kind.arrives then 1 else 0 :=
  List.countP_singleton

/-- A transfer departs from its handle or it does not. -/
@[simp] theorem departures_singleton (t : Transfer) :
    departures h [t] = if t.handle = h ∧ t.kind.arrives = false then 1 else 0 := by
  simp [departures, List.countP_singleton]

/-- Arrivals are counted in turn. -/
@[simp] theorem arrivals_append : arrivals (ts ++ ts') = arrivals ts + arrivals ts' :=
  List.countP_append

/-- Departures are counted in turn. -/
@[simp] theorem departures_append :
    departures h (ts ++ ts') = departures h ts + departures h ts' :=
  List.countP_append

end Transfer

namespace HandleAction

/-- The transfer of an action in the world `w`, if it moves a reference. -/
def transfer? (w : World) : HandleAction → Option Transfer
  | acquire p => some ⟨.adopted, ⟨w.handles.size⟩, p⟩
  | wrap p =>
    if (w.heap.retain p).isOk then some ⟨.taken, ⟨w.handles.size⟩, p⟩ else none
  | tryClone h =>
    if (w.handle h).owned ∧ (w.heap.retain (w.handle h).object).isOk then
      some ⟨.taken, ⟨w.handles.size⟩, (w.handle h).object⟩ else none
  | setPolicy _ _ => none
  | release h => if (w.handle h).owned then some ⟨.given, h, (w.handle h).object⟩ else none
  | intoRaw h => if (w.handle h).owned then some ⟨.handed, h, (w.handle h).object⟩ else none
  | drop h =>
    if (w.handle h).owned ∧ (w.handle h).shares ≤ 1 then
      some ⟨.given, h, (w.handle h).object⟩ else none

/-- The handle that the action changes. -/
def changes : HandleAction → Option HandleId
  | acquire _ | wrap _ | tryClone _ => none
  | setPolicy h _ | release h | intoRaw h | drop h => some h

end HandleAction

namespace World

/-- The world after an action, whether it succeeded or not. -/
def act (m : Machine) (w : World) : HandleAction → World
  | .acquire p => (Handle.acquire p w).2
  | .wrap p => w.after (Handle.wrap p)
  | .tryClone h => w.after (Handle.tryClone h)
  | .setPolicy h policy => Handle.setPolicy h policy w
  | .release h => w.after (Handle.release m h)
  | .intoRaw h => w.after (Handle.intoRaw h)
  | .drop h => Handle.drop m h w

/-- The world after a sequence of actions. -/
def acts (m : Machine) (w : World) (actions : List HandleAction) : World :=
  actions.foldl (act m) w

/-- The transfers of a sequence of actions. -/
def transfers (m : Machine) (w : World) : List HandleAction → List Transfer
  | [] => []
  | a :: rest => (a.transfer? w).toList ++ (w.act m a).transfers m rest

/-- What the transfers tell of the world after them. -/
structure Carried (m : Machine) (w : World) (ts : List Transfer) (w' : World) : Prop where
  /-- The heap takes the references that are taken and gives back those that are given. -/
  heap_eq : w'.heap = ts.foldl (Transfer.move m w.program.registryView) w.heap
  view_eq : w'.program.registryView = w.program.registryView
  size_eq : w'.handles.size = w.handles.size + Transfer.arrivals ts
  /-- Handles keep their objects and their classes. -/
  object_eq : ∀ h, h.index < w.handles.size → (w'.handle h).object = (w.handle h).object
  cls_eq : ∀ h, h.index < w.handles.size → (w'.handle h).cls = (w.handle h).cls
  /-- No handle gets a second wrapper, and a new one has only one. -/
  shares_le : ∀ h, (w'.handle h).shares ≤ max (w.handle h).shares 1
  /-- **A handle loses a reference once**, if it owned one before or was made since, unless it
  still owns the reference. -/
  once : ∀ h, Transfer.departures h ts + (w'.handle h).owned.toNat =
    if h.index < w.handles.size then (w.handle h).owned.toNat
    else if h.index < w'.handles.size then 1 else 0
  /-- The references that move are references to the objects of the handles. -/
  within : ∀ t ∈ ts, t.handle.index < w'.handles.size ∧ (w'.handle t.handle).object = t.object
  /-- What handles own and what has left them is what they owned and what has come to them. -/
  balance : w'.held + (Transfer.objects .given ts + Transfer.objects .handed ts) =
    w.held + (Transfer.objects .adopted ts + Transfer.objects .taken ts)

section

variable {m : Machine} {w w₁ w' : World} {ts ts' : List Transfer} {h g : HandleId} {p : ObjId}
  {f : HandleState → HandleState} {s : HandleState} {kind : TransferKind}

/-! ### Putting transfers together -/

/-- What goes and what comes balances over two parts if it balances over each. -/
theorem balance_trans {first middle last gone gone' come come' : Multiset ObjId}
    (hfirst : middle + gone = first + come) (hsecond : last + gone' = middle + come') :
    last + (gone + gone') = first + (come + come') :=
  calc last + (gone + gone') = (last + gone') + gone := by abel
    _ = (middle + gone) + come' := by rw [hsecond, add_right_comm]
    _ = first + (come + come') := by rw [hfirst, add_assoc]

/-- Transfers are carried out one after the other. -/
theorem Carried.trans (c : Carried m w ts w₁) (d : Carried m w₁ ts' w') :
    Carried m w (ts ++ ts') w' where
  heap_eq := by rw [List.foldl_append, ← c.heap_eq, ← c.view_eq, d.heap_eq]
  view_eq := d.view_eq.trans c.view_eq
  size_eq := by rw [d.size_eq, c.size_eq, Transfer.arrivals_append, Nat.add_assoc]
  object_eq h hlt := by
    rw [d.object_eq h (by rw [c.size_eq]; omega), c.object_eq h hlt]
  cls_eq h hlt := by
    rw [d.cls_eq h (by rw [c.size_eq]; omega), c.cls_eq h hlt]
  shares_le h := by
    have hfirst := c.shares_le h
    have hsecond := d.shares_le h
    omega
  once h := by
    have hfirst := c.once h
    have hsecond := d.once h
    have hsize := c.size_eq
    have hsize' := d.size_eq
    rw [Transfer.departures_append]
    split_ifs at hfirst hsecond ⊢ <;> omega
  within t ht := by
    rcases List.mem_append.1 ht with ht | ht
    · obtain ⟨hlt, hobject⟩ := c.within t ht
      exact ⟨by rw [d.size_eq]; omega, by rw [d.object_eq _ hlt, hobject]⟩
    · exact d.within t ht
  balance := by
    simp only [Transfer.objects_append]
    rw [add_add_add_comm, add_add_add_comm (Transfer.objects .adopted ts)]
    exact balance_trans c.balance d.balance

/-! ### One transfer -/

/-- Nothing moves, and handles may get another policy or lose a wrapper. -/
theorem carried_nil (hheap : w'.heap = w.heap)
    (hview : w'.program.registryView = w.program.registryView)
    (hsize : w'.handles.size = w.handles.size) (hheld : w'.held = w.held)
    (hsame : ∀ h, (w'.handle h).object = (w.handle h).object ∧
      (w'.handle h).cls = (w.handle h).cls ∧ (w'.handle h).owned = (w.handle h).owned ∧
      (w'.handle h).shares ≤ (w.handle h).shares) : Carried m w [] w' where
  heap_eq := hheap
  view_eq := hview
  size_eq := hsize
  object_eq h _ := (hsame h).1
  cls_eq h _ := (hsame h).2.1
  shares_le h := le_max_of_le_left (hsame h).2.2.2
  once h := by
    rw [hsize, (hsame h).2.2.1]
    split_ifs with hlt
    · exact Nat.zero_add _
    · rw [not_owned_of_size_le (Nat.le_of_not_lt hlt)]
      rfl
  within := List.forall_mem_nil _
  balance := by rw [hheld]; rfl

/-- Nothing is carried out by no transfers. -/
theorem carried_refl (m : Machine) (w : World) : Carried m w [] w :=
  carried_nil rfl rfl rfl rfl fun _ => ⟨rfl, rfl, rfl, le_rfl⟩

/-- One handle gets another policy or loses a wrapper. -/
theorem carried_modifyHandle (hheld : ∀ s, (f s).held? = s.held?)
    (hsame : ∀ s, (f s).object = s.object ∧ (f s).cls = s.cls ∧ (f s).owned = s.owned)
    (hshares : (f (w.handle h)).shares ≤ (w.handle h).shares) :
    Carried m w [] (w.modifyHandle h f) := by
  refine carried_nil rfl rfl size_modifyHandle (held_modifyHandle hheld) fun g => ?_
  rcases handle_modifyHandle w h g f with hg | ⟨rfl, hg⟩ <;> rw [hg]
  · exact ⟨rfl, rfl, rfl, le_rfl⟩
  · obtain ⟨hobject, hcls, howned⟩ := hsame (w.handle g)
    exact ⟨hobject, hcls, howned, hshares⟩

/-- A reference comes to a new handle. -/
theorem carried_push (hkind : kind.arrives = true)
    (hheap : w'.heap = Transfer.move m w.program.registryView w.heap
      ⟨kind, ⟨w.handles.size⟩, s.object⟩)
    (hview : w'.program.registryView = w.program.registryView)
    (hhandles : w'.handles = w.handles.push s) (howned : s.owned = true)
    (hshares : s.shares = 1) :
    Carried m w [⟨kind, ⟨w.handles.size⟩, s.object⟩] w' where
  heap_eq := hheap
  view_eq := hview
  size_eq := by simp [hhandles, hkind]
  object_eq h hlt := by rw [handle_pushed hhandles, if_neg hlt.ne]
  cls_eq h hlt := by rw [handle_pushed hhandles, if_neg hlt.ne]
  shares_le h := by
    rw [handle_pushed hhandles]
    split_ifs <;> omega
  once h := by
    have hnone : Transfer.departures h [⟨kind, ⟨w.handles.size⟩, s.object⟩] = 0 := by
      simp [hkind]
    rw [hnone, handle_pushed hhandles, hhandles, Array.size_push]
    rcases Nat.lt_trichotomy h.index w.handles.size with hlt | heq | hgt
    · rw [if_neg hlt.ne, if_pos hlt, Nat.zero_add]
    · rw [if_pos heq, if_neg heq.not_lt, if_pos (by omega), howned]
      rfl
    · rw [if_neg hgt.ne', if_neg (by omega), if_neg (by omega), not_owned_of_size_le hgt.le]
      rfl
  within t ht := by
    obtain rfl := List.mem_singleton.1 ht
    refine ⟨by simp [hhandles], ?_⟩
    rw [handle_pushed hhandles, if_pos rfl]
  balance := by
    have hheld : s.held? = some s.object := if_pos howned
    rw [held_push hhandles, hheld]
    cases kind with
    | adopted => simp [add_comm]
    | taken => simp [add_comm]
    | given => exact absurd hkind (by decide)
    | handed => exact absurd hkind (by decide)

/-- A handle loses the reference that it owns. -/
theorem carried_disown (hkind : kind.arrives = false) (howned : (w.handle h).owned = true)
    (hheap : w'.heap = Transfer.move m w.program.registryView w.heap
      ⟨kind, h, (w.handle h).object⟩)
    (hview : w'.program.registryView = w.program.registryView)
    (hhandles : w'.handles =
      (w.modifyHandle h fun state => { state with owned := false }).handles) :
    Carried m w [⟨kind, h, (w.handle h).object⟩] w' := by
  have hlt := index_lt_of_owned howned
  have hsize : w'.handles.size = w.handles.size := by rw [hhandles, size_modifyHandle]
  have hself : w'.handle h = { w.handle h with owned := false } := by
    rw [handle_congr hhandles, handle_modifyHandle_self hlt]
  have hother : ∀ g, g ≠ h → w'.handle g = w.handle g := fun g hne => by
    rw [handle_congr hhandles, handle_modifyHandle_of_ne hne]
  have hsame : ∀ g, (w'.handle g).object = (w.handle g).object ∧
      (w'.handle g).cls = (w.handle g).cls ∧ (w'.handle g).shares = (w.handle g).shares := by
    intro g
    by_cases hg : g = h
    · rw [hg, hself]
      exact ⟨rfl, rfl, rfl⟩
    · rw [hother g hg]
      exact ⟨rfl, rfl, rfl⟩
  -- the objects of the handles stay; the one thing that changes is who owns
  constructor
  case heap_eq => exact hheap
  case view_eq => exact hview
  case size_eq => simp [hsize, hkind]
  case object_eq => exact fun g _ => (hsame g).1
  case cls_eq => exact fun g _ => (hsame g).2.1
  case shares_le => exact fun g => by rw [(hsame g).2.2]; exact le_max_left _ _
  case once =>
    intro g
    rw [hsize]
    by_cases hg : g = h
    · rw [hg, if_pos hlt, hself, howned]
      simp [hkind]
    · rw [hother g hg, Transfer.departures_singleton, if_neg fun heq => hg heq.1.symm, Nat.zero_add]
      split_ifs with hglt
      · rfl
      · rw [not_owned_of_size_le (Nat.le_of_not_lt hglt)]
        rfl
  case within =>
    intro t ht
    obtain rfl := List.mem_singleton.1 ht
    exact ⟨hsize ▸ hlt, (hsame h).1⟩
  case balance =>
    have hheld : w'.held =
        (w.modifyHandle h fun state => { state with owned := false }).held := by
      rw [held, held, hhandles]
    have hdisown := held_disown howned
    rw [← hheld] at hdisown
    rw [← hdisown, ← Multiset.singleton_add, add_comm _ w'.held]
    cases kind with
    | adopted => exact absurd hkind (by decide)
    | taken => exact absurd hkind (by decide)
    | given => simp
    | handed => simp

end

end World

/-! ### The transfer of each action -/

namespace World

section

variable {m : Machine} {w : World} {heap : Heap} {h g : HandleId} {p : ObjId}

/-- A new reference is taken for a new handle. -/
theorem carried_taken (hr : w.heap.retain p = .ok heap) :
    Carried m w [⟨.taken, ⟨w.handles.size⟩, p⟩] (Handle.acquire p { w with heap }).2 := by
  have hmove : Transfer.move m w.program.registryView w.heap
      ⟨.taken, ⟨w.handles.size⟩, p⟩ = heap := by rw [Transfer.move, hr]; rfl
  exact carried_push (s := newHandle { w with heap } p) rfl hmove.symm
    (Program.registryView_current _) rfl rfl rfl

/-- A policy is set without a transfer. -/
theorem carried_setPolicy (m : Machine) (w : World) (h : HandleId) (policy : ReleasePolicy) :
    Carried m w [] (Handle.setPolicy h policy w) :=
  carried_modifyHandle (fun _ => rfl) (fun _ => ⟨rfl, rfl, rfl⟩) le_rfl

/-- The reference of a handle is given back. -/
theorem carried_surrender (howned : (w.handle h).owned = true) :
    Carried m w [⟨.given, h, (w.handle h).object⟩] (Handle.surrender m h w) := by
  rw [Handle.surrender_eq m howned]
  exact carried_disown rfl howned rfl (settle_registryView _ _) rfl

/-- One wrapper less shares a handle. -/
theorem carried_unshare (m : Machine) (w : World) (h : HandleId) :
    Carried m w [] (Handle.unshare h w) :=
  carried_modifyHandle (fun _ => rfl) (fun _ => ⟨rfl, rfl, rfl⟩) (Nat.sub_le _ _)

/-- A second release may change the log. -/
theorem after_release_of_not_owned (m : Machine) (howned : (w.handle h).owned = false) :
    ∃ program, program.registryView = w.program.registryView ∧
      w.after (Handle.release m h) = { w with program } := by
  obtain ⟨program, hview, hrun⟩ := Handle.release_of_not_owned m howned
  have hrun : Handle.release m h w = _ := hrun w.heap
  refine ⟨program, hview, ?_⟩
  rw [after, hrun]
  cases (w.handle h).policy <;> rfl

/-- **Each action moves the reference that its transfer names.** -/
theorem act_carried (m : Machine) (w : World) (a : HandleAction) :
    Carried m w (a.transfer? w).toList (w.act m a) := by
  cases a with
  | acquire p =>
    exact carried_push (s := w.newHandle p) rfl rfl (Program.registryView_current _) rfl rfl rfl
  | wrap p =>
    rw [act, after, Handle.wrap_apply, HandleAction.transfer?]
    rcases hr : w.heap.retain p with e | heap
    · exact carried_refl m w
    · exact carried_taken hr
  | tryClone h =>
    rw [act, after, Handle.tryClone_apply, HandleAction.transfer?]
    cases howned : (w.handle h).owned with
    | false => exact carried_refl m w
    | true =>
      rcases hr : w.heap.retain (w.handle h).object with e | heap
      · exact carried_refl m w
      · exact (carried_taken hr).trans (carried_setPolicy m _ _ _)
  | setPolicy h policy => exact carried_setPolicy m w h policy
  | release h =>
    rw [act, HandleAction.transfer?]
    cases howned : (w.handle h).owned with
    | false =>
      obtain ⟨program, hview, hafter⟩ := after_release_of_not_owned m howned
      rw [hafter]
      exact carried_nil rfl hview rfl rfl fun _ => ⟨rfl, rfl, rfl, le_rfl⟩
    | true =>
      rw [after, Handle.release_of_owned m howned]
      exact carried_surrender howned
  | intoRaw h =>
    rw [act, after, Handle.intoRaw_apply, HandleAction.transfer?]
    cases howned : (w.handle h).owned with
    | false => exact carried_refl m w
    | true => exact carried_disown rfl howned rfl rfl rfl
  | drop h =>
    rw [act, HandleAction.transfer?]
    cases howned : (w.handle h).owned with
    | false =>
      rw [Handle.drop_of_not_owned m howned]
      exact carried_unshare m w h
    | true =>
      rw [Handle.drop_of_owned m howned]
      obtain ⟨hkeeps, hobject⟩ := Handle.handle_unshare h w
      by_cases hlast : (w.handle h).shares ≤ 1
      · have hgiven := carried_surrender (m := m) (hkeeps.trans howned)
        rw [hobject] at hgiven
        simp only [hlast, and_self, if_true]
        exact (carried_unshare m w h).trans hgiven
      · simp only [hlast, and_false, if_false]
        exact carried_unshare m w h

/-- **Handles move references as their transfers say.** -/
theorem acts_carried (m : Machine) (w : World) (actions : List HandleAction) :
    Carried m w (w.transfers m actions) (w.acts m actions) := by
  induction actions generalizing w with
  | nil => exact carried_refl m w
  | cons a rest ih => exact (act_carried m w a).trans (ih (w.act m a))

/-- A handle is surrendered, and the others stay as they are. -/
theorem handle_surrender_of_ne (howned : (w.handle g).owned = true) (hne : h ≠ g) :
    (Handle.surrender m g w).handle h = w.handle h := by
  rw [Handle.surrender_eq m howned]
  exact handle_modifyHandle_of_ne hne

/-- **An action changes no other handle than its own.** -/
theorem act_handle_eq (m : Machine) (w : World) (a : HandleAction) (hlt : h.index < w.handles.size)
    (hother : a.changes ≠ some h) : (w.act m a).handle h = w.handle h := by
  -- an action pushes a handle, or modifies the one that it names, and `h` is neither
  have hpushed : ∀ {w' : World} {s : HandleState}, w'.handles = w.handles.push s →
      w'.handle h = w.handle h := fun hhandles => by
    rw [handle_pushed hhandles, if_neg hlt.ne]
  have hne : ∀ {g}, a.changes = some g → h ≠ g := fun hg heq => hother (heq ▸ hg)
  cases a with
  | acquire p => exact hpushed (s := w.newHandle p) rfl
  | wrap p =>
    rw [act, after, Handle.wrap_apply]
    rcases w.heap.retain p with e | heap
    · rfl
    · exact hpushed (s := newHandle { w with heap } p) rfl
  | tryClone g =>
    rw [act, after, Handle.tryClone_apply]
    cases (w.handle g).owned with
    | false => rfl
    | true =>
      rcases w.heap.retain (w.handle g).object with e | heap
      · rfl
      · refine (handle_modifyHandle_of_ne fun hnew =>
          hlt.ne (congrArg HandleId.index hnew)).trans ?_
        exact hpushed (s := newHandle { w with heap } (w.handle g).object) rfl
  | setPolicy g policy => exact handle_modifyHandle_of_ne (hne rfl)
  | release g =>
    rw [act]
    cases howned : (w.handle g).owned with
    | false =>
      obtain ⟨program, -, hafter⟩ := after_release_of_not_owned m howned
      rw [hafter]
      rfl
    | true =>
      rw [after, Handle.release_of_owned m howned]
      exact handle_surrender_of_ne howned (hne rfl)
  | intoRaw g =>
    rw [act, after, Handle.intoRaw_apply]
    cases (w.handle g).owned with
    | false => rfl
    | true => exact handle_modifyHandle_of_ne (hne rfl)
  | drop g =>
    have hshares : (Handle.unshare g w).handle h = w.handle h := handle_modifyHandle_of_ne (hne rfl)
    rw [act]
    cases howned : (w.handle g).owned with
    | false =>
      rw [Handle.drop_of_not_owned m howned]
      exact hshares
    | true =>
      have howned' := (Handle.handle_unshare g w).1.trans howned
      rw [Handle.drop_of_owned m howned]
      split_ifs
      · exact (handle_surrender_of_ne howned' (hne rfl)).trans hshares
      · exact hshares

/-- A handle that no action changes stays as it is. -/
theorem acts_handle_eq (m : Machine) (w : World) (actions : List HandleAction)
    (hlt : h.index < w.handles.size) (hother : ∀ a ∈ actions, a.changes ≠ some h) :
    (w.acts m actions).handle h = w.handle h := by
  induction actions generalizing w with
  | nil => rfl
  | cons a rest ih =>
    obtain ⟨hfirst, hrest⟩ := List.forall_mem_cons.1 hother
    have hsize := (act_carried m w a).size_eq
    exact (ih (w.act m a) (by omega) hrest).trans (act_handle_eq m w a hlt hfirst)

end

end World

end Interop

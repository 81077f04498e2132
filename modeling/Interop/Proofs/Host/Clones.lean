/-
# Wrappers and their clones

Host code wraps objects, clones wrappers, releases them and drops them, in any order, while native
code does what it likes with the heap.  Each wrapper that host code has is written down with its
history (`Holding`): which making of a wrapper it goes back to, itself or through clones, and which
object was wrapped then.

**In every state equality is what the history says** (`Holdings.run_compares`): two wrappers whose
references are not released are equal when they wrap the same object, and one whose reference is
released is equal to what goes back to the same making, and to nothing else.  The invariant is
that a handle is shared by as many wrappers as go back to its making (`Holdings.Sound.shares`): so
it is dropped with the last of them, and not before.
-/

import Interop.Proofs.Host.Equality
import Interop.Proofs.Ownership.Transfers

namespace Interop

/-- A wrapper that host code has. -/
structure Holding where
  wrapper : Wrapper
  /-- The number of the making that it goes back to. -/
  origin : Nat
  /-- The object that was wrapped then. -/
  object : ObjId

/-- The wrappers of host code, and what became of those that were made. -/
structure Holdings where
  world : World
  /-- The wrappers that have not been dropped. -/
  wrappers : List Holding
  /-- How many were made, clones aside. -/
  made : Nat
  /-- The makings whose reference was released. -/
  released : List Nat

/-- What is done with wrappers.  A number is the place of a wrapper among those that host code
has. -/
inductive WrapperAction
  /-- Wraps an object with a reference that the caller owns. -/
  | adopt (p : ObjId)
  /-- Wraps an object with a new reference. -/
  | wrap (p : ObjId)
  /-- Wraps the object of a wrapper once more, with a new reference. -/
  | rewrap (i : Nat)
  | clone (i : Nat)
  | release (i : Nat)
  | drop (i : Nat)
  /-- Native code runs and leaves this heap. -/
  | native (heap : Heap)

namespace Holdings

/-- Nothing is wrapped yet. -/
def start (w : World) : Holdings := ⟨w, [], 0, []⟩

/-- A wrapper of `p` was made. -/
def add (s : Holdings) (p : ObjId) (o : Wrapper) (w : World) : Holdings :=
  { s with world := w, wrappers := s.wrappers ++ [⟨o, s.made, p⟩], made := s.made + 1 }

/-- One action.  Where there is no wrapper in the place nothing is done. -/
def act (m : Machine) (s : Holdings) : WrapperAction → Holdings
  | .adopt p => s.add p (Wrapper.adopt p s.world).1 (Wrapper.adopt p s.world).2
  | .wrap p =>
    match Wrapper.wrap p s.world with
    | .ok o w => s.add p o w
    | .error _ w => { s with world := w }
  | .rewrap i =>
    match s.wrappers[i]? with
    | none => s
    | some x =>
      match Handle.tryClone x.wrapper.handle s.world with
      | .ok h w => s.add x.object (Wrapper.ofHandle h w) w
      | .error _ w => { s with world := w }
  | .clone i =>
    match s.wrappers[i]? with
    | none => s
    | some x =>
      { s with world := Handle.share x.wrapper.handle s.world, wrappers := s.wrappers ++ [x] }
  | .release i =>
    match s.wrappers[i]? with
    | none => s
    | some x =>
      { s with
        world := s.world.act m (.release x.wrapper.handle)
        released := x.origin :: s.released }
  | .drop i =>
    match s.wrappers[i]? with
    | none => s
    | some x =>
      { s with
        world := s.world.act m (.drop x.wrapper.handle)
        wrappers := s.wrappers.eraseIdx i }
  | .native heap => { s with world := { s.world with heap } }

/-- The state after a sequence of actions. -/
def run (m : Machine) (s : Holdings) (actions : List WrapperAction) : Holdings :=
  actions.foldl (act m) s

/-- How many wrappers go back to a making. -/
def clones (s : Holdings) (n : Nat) : Nat :=
  s.wrappers.countP (·.origin = n)

/-! ### The invariant -/

/-- What holds of the handles when the `base` handles that were there before are set aside. -/
structure Sound (base : Nat) (s : Holdings) : Prop where
  size_eq : s.world.handles.size = base + s.made
  /-- Each making has a handle of its own. -/
  handle_eq : ∀ x ∈ s.wrappers, x.wrapper.handle = ⟨base + x.origin⟩
  origin_lt : ∀ x ∈ s.wrappers, x.origin < s.made
  released_lt : ∀ n ∈ s.released, n < s.made
  object_eq : ∀ x ∈ s.wrappers, (s.world.handle x.wrapper.handle).object = x.object
  /-- The reference is owned until it is released. -/
  owned_iff : ∀ x ∈ s.wrappers,
    (s.world.handle x.wrapper.handle).owned = true ↔ x.origin ∉ s.released
  /-- The handle is shared by all wrappers that go back to its making. -/
  shares : ∀ x ∈ s.wrappers, (s.world.handle x.wrapper.handle).shares = s.clones x.origin

section

variable {m : Machine} {s : Holdings} {base i : Nat} {x y : Holding} {p : ObjId} {w : World}

/-- Two wrappers share a handle just when they come from one wrapper. -/
theorem Sound.handle_iff (d : Sound base s) (hx : x ∈ s.wrappers) (hy : y ∈ s.wrappers) :
    x.wrapper.handle = y.wrapper.handle ↔ x.origin = y.origin := by
  rw [d.handle_eq x hx, d.handle_eq y hy, HandleId.mk.injEq, Nat.add_left_cancel_iff]

/-- The handle of a wrapper is one that was made. -/
theorem Sound.index_lt (d : Sound base s) (hx : x ∈ s.wrappers) :
    x.wrapper.handle.index < s.world.handles.size := by
  have hlt := d.origin_lt x hx
  rw [d.handle_eq x hx, d.size_eq]
  exact Nat.add_lt_add_left hlt base

/-- There are no wrappers at first. -/
theorem sound_start (w : World) : Sound w.handles.size (start w) where
  size_eq := rfl
  handle_eq := List.forall_mem_nil _
  origin_lt := List.forall_mem_nil _
  released_lt := List.forall_mem_nil _
  object_eq := List.forall_mem_nil _
  owned_iff := List.forall_mem_nil _
  shares := List.forall_mem_nil _

/-- A world with the same handles. -/
theorem Sound.same (d : Sound base s) (hhandles : w.handles = s.world.handles) :
    Sound base { s with world := w } where
  size_eq := hhandles ▸ d.size_eq
  handle_eq := d.handle_eq
  origin_lt := d.origin_lt
  released_lt := d.released_lt
  object_eq x hx := World.handle_congr hhandles _ ▸ d.object_eq x hx
  owned_iff x hx := World.handle_congr hhandles _ ▸ d.owned_iff x hx
  shares x hx := World.handle_congr hhandles _ ▸ d.shares x hx

/-- **A wrapper is made** with a handle of its own. -/
theorem Sound.add (d : Sound base s) {o : Wrapper} (state : HandleState)
    (hhandles : w.handles = s.world.handles.push state) (ho : o.handle = ⟨s.world.handles.size⟩)
    (hobject : state.object = p) (howned : state.owned = true) (hshares : state.shares = 1) :
    Sound base (s.add p o w) := by
  have hold : ∀ x ∈ s.wrappers, w.handle x.wrapper.handle = s.world.handle x.wrapper.handle :=
    fun x hx => by rw [World.handle_pushed hhandles, if_neg (d.index_lt hx).ne]
  have hnew : w.handle o.handle = state := by
    rw [World.handle_pushed hhandles, ho, if_pos rfl]
  have hcount : ∀ n,
      (s.add p o w).clones n = s.clones n + if s.made = n then 1 else 0 := fun n => by
    simp [clones, Holdings.add, List.countP_append, List.countP_singleton]
  -- the making is new, so no wrapper goes back to it yet
  have hfresh : s.clones s.made = 0 :=
    List.countP_eq_zero.2 fun x hx => by simpa using (d.origin_lt x hx).ne
  have hmem : ∀ {P : Holding → Prop}, (∀ x ∈ s.wrappers, P x) → P ⟨o, s.made, p⟩ →
      ∀ x ∈ (s.add p o w).wrappers, P x := fun hall hlast x hx => by
    rcases List.mem_append.1 hx with hx | hx
    · exact hall x hx
    · exact List.mem_singleton.1 hx ▸ hlast
  constructor
  case size_eq =>
    show w.handles.size = base + (s.made + 1)
    rw [hhandles, Array.size_push, d.size_eq, Nat.add_assoc]
  case handle_eq => exact hmem d.handle_eq (by rw [ho, d.size_eq])
  case origin_lt =>
    exact hmem (fun x hx => Nat.lt_succ_of_lt (d.origin_lt x hx)) (Nat.lt_succ_self _)
  case released_lt => exact fun n hn => Nat.lt_succ_of_lt (d.released_lt n hn)
  case object_eq =>
    exact hmem (fun x hx => hold x hx ▸ d.object_eq x hx) (hnew ▸ hobject)
  case owned_iff =>
    refine hmem (fun x hx => hold x hx ▸ d.owned_iff x hx) ?_
    have hnot : s.made ∉ s.released := fun hn => (d.released_lt _ hn).ne rfl
    exact hnew ▸ ⟨fun _ => hnot, fun _ => howned⟩
  case shares =>
    refine hmem (fun x hx => ?_) ?_
    · rw [hcount, if_neg (d.origin_lt x hx).ne', Nat.add_zero]
      exact hold x hx ▸ d.shares x hx
    · rw [hcount, if_pos rfl, hfresh]
      exact hnew ▸ hshares

/-- What holds of all wrappers holds of all and one of them once more. -/
theorem mem_append_clone {P : Holding → Prop} (hall : ∀ y ∈ s.wrappers, P y)
    (hx : x ∈ s.wrappers) : ∀ y ∈ s.wrappers ++ [x], P y := fun y hy => by
  rcases List.mem_append.1 hy with hy | hy
  · exact hall y hy
  · exact List.mem_singleton.1 hy ▸ hall x hx

/-- **A wrapper is cloned:** its handle is shared by one more. -/
theorem Sound.clone (d : Sound base s) (hx : x ∈ s.wrappers) :
    Sound base { s with
      world := Handle.share x.wrapper.handle s.world, wrappers := s.wrappers ++ [x] } := by
  have hself : (Handle.share x.wrapper.handle s.world).handle x.wrapper.handle =
      { s.world.handle x.wrapper.handle with
        shares := (s.world.handle x.wrapper.handle).shares + 1 } :=
    World.handle_modifyHandle_self (d.index_lt hx)
  have hother : ∀ y ∈ s.wrappers, y.origin ≠ x.origin →
      (Handle.share x.wrapper.handle s.world).handle y.wrapper.handle =
        s.world.handle y.wrapper.handle := fun y hy hne =>
    World.handle_modifyHandle_of_ne fun heq => hne ((d.handle_iff hy hx).1 heq)
  have hcount : ∀ n, (s.wrappers ++ [x]).countP (·.origin = n) =
      s.clones n + if x.origin = n then 1 else 0 := fun n => by
    simp [clones, List.countP_append, List.countP_singleton]
  -- all that go back to the making of `x` share its handle, and no others do
  have hsame : ∀ y ∈ s.wrappers,
      ((Handle.share x.wrapper.handle s.world).handle y.wrapper.handle).object =
          (s.world.handle y.wrapper.handle).object ∧
        ((Handle.share x.wrapper.handle s.world).handle y.wrapper.handle).owned =
          (s.world.handle y.wrapper.handle).owned := fun y hy => by
    by_cases horigin : y.origin = x.origin
    · rw [(d.handle_iff hy hx).2 horigin, hself]
      exact ⟨rfl, rfl⟩
    · rw [hother y hy horigin]
      exact ⟨rfl, rfl⟩
  constructor
  case size_eq => exact World.size_modifyHandle.trans d.size_eq
  case handle_eq => exact mem_append_clone d.handle_eq hx
  case origin_lt => exact mem_append_clone d.origin_lt hx
  case released_lt => exact d.released_lt
  case object_eq =>
    exact mem_append_clone (fun y hy => (hsame y hy).1.trans (d.object_eq y hy)) hx
  case owned_iff =>
    exact mem_append_clone (fun y hy => (hsame y hy).2 ▸ d.owned_iff y hy) hx
  case shares =>
    refine mem_append_clone (fun y hy => ?_) hx
    show _ = (s.wrappers ++ [x]).countP (·.origin = y.origin)
    rw [hcount]
    by_cases horigin : y.origin = x.origin
    · rw [(d.handle_iff hy hx).2 horigin, hself, if_pos horigin.symm, horigin, d.shares x hx]
    · rw [hother y hy horigin, if_neg (Ne.symm horigin), d.shares y hy]
      rfl

/-- An action on the handle of a wrapper leaves the handles of other makings alone. -/
theorem Sound.handle_act (d : Sound base s) {a : HandleAction} (hx : x ∈ s.wrappers)
    (hchanges : a.changes = some x.wrapper.handle) (hy : y ∈ s.wrappers)
    (hne : y.origin ≠ x.origin) :
    (s.world.act m a).handle y.wrapper.handle = s.world.handle y.wrapper.handle := by
  refine World.act_handle_eq m s.world a (d.index_lt hy) fun h => hne ?_
  exact ((d.handle_iff hx hy).1 (Option.some.inj (hchanges.symm.trans h))).symm

/-- A release ends in the handle without its reference, the second one too. -/
theorem handle_release (h : HandleId) :
    (w.act m (.release h)).handle h = { w.handle h with owned := false } := by
  cases howned : (w.handle h).owned with
  | true =>
    obtain ⟨w', hrelease, -, hhandle⟩ := (Handle.owning_of_owned m howned).release
    rw [World.act, World.after, hrelease]
    exact hhandle
  | false =>
    obtain ⟨program, -, hafter⟩ := World.after_release_of_not_owned m howned
    rw [World.act, hafter, ← howned]
    rfl

/-- Releasing and dropping make no handle. -/
theorem size_act {a : HandleAction} {h : HandleId} (ha : a = .release h ∨ a = .drop h) :
    (w.act m a).handles.size = w.handles.size := by
  rw [(World.act_carried m w a).size_eq]
  have hnone : Transfer.arrivals (a.transfer? w).toList = 0 := by
    rcases ha with rfl | rfl <;> simp only [HandleAction.transfer?] <;> split_ifs <;> rfl
  rw [hnone, Nat.add_zero]

/-- **A wrapper is released,** and with it all that go back to the same making. -/
theorem Sound.release (d : Sound base s) (hx : x ∈ s.wrappers) :
    Sound base { s with
      world := s.world.act m (.release x.wrapper.handle), released := x.origin :: s.released } := by
  have hself : (s.world.act m (.release x.wrapper.handle)).handle x.wrapper.handle =
      { s.world.handle x.wrapper.handle with owned := false } := handle_release _
  have hother : ∀ y ∈ s.wrappers, y.origin ≠ x.origin →
      (s.world.act m (.release x.wrapper.handle)).handle y.wrapper.handle =
        s.world.handle y.wrapper.handle := fun y hy hne => d.handle_act hx rfl hy hne
  constructor
  case size_eq => exact (size_act (.inl rfl)).trans d.size_eq
  case handle_eq => exact d.handle_eq
  case origin_lt => exact d.origin_lt
  case released_lt =>
    intro n hn
    rcases List.mem_cons.1 hn with rfl | hn
    · exact d.origin_lt x hx
    · exact d.released_lt n hn
  case object_eq =>
    intro y hy
    by_cases horigin : y.origin = x.origin
    · rw [(d.handle_iff hy hx).2 horigin, hself, ← (d.handle_iff hy hx).2 horigin]
      exact d.object_eq y hy
    · exact hother y hy horigin ▸ d.object_eq y hy
  -- the handle is that of all wrappers from one making, so they are released together
  case owned_iff =>
    intro y hy
    by_cases horigin : y.origin = x.origin
    · rw [(d.handle_iff hy hx).2 horigin, hself, horigin]
      simp
    · rw [hother y hy horigin, d.owned_iff y hy]
      simp [horigin]
  case shares =>
    intro y hy
    by_cases horigin : y.origin = x.origin
    · rw [(d.handle_iff hy hx).2 horigin, hself, ← (d.handle_iff hy hx).2 horigin]
      exact d.shares y hy
    · exact hother y hy horigin ▸ d.shares y hy

/-- A handle that others share keeps its reference when one wrapper is dropped. -/
theorem handle_drop {h : HandleId} (hlt : h.index < w.handles.size)
    (hshared : 1 < (w.handle h).shares) : (w.act m (.drop h)).handle h =
      { w.handle h with shares := (w.handle h).shares - 1 } := by
  have hdrop : w.act m (.drop h) = Handle.unshare h w := by
    cases howned : (w.handle h).owned with
    | true => exact (Handle.drop_of_owned m howned).trans (if_neg (Nat.not_le_of_lt hshared))
    | false => exact Handle.drop_of_not_owned m howned
  rw [hdrop]
  exact World.handle_modifyHandle_self hlt

/-- **A wrapper is dropped.**  If others go back to the same making, the handle stays. -/
theorem Sound.drop (d : Sound base s) (hi : s.wrappers[i]? = some x) :
    Sound base { s with
      world := s.world.act m (.drop x.wrapper.handle), wrappers := s.wrappers.eraseIdx i } := by
  obtain ⟨hlt, hget⟩ := List.getElem?_eq_some_iff.1 hi
  have hx : x ∈ s.wrappers := hget ▸ List.getElem_mem hlt
  have hperm : (x :: s.wrappers.eraseIdx i).Perm s.wrappers :=
    hget ▸ List.getElem_cons_eraseIdx_perm hlt
  have hsub : ∀ {y}, y ∈ s.wrappers.eraseIdx i → y ∈ s.wrappers := fun hy =>
    List.mem_of_mem_eraseIdx hy
  have hcount : ∀ n, s.clones n =
      (s.wrappers.eraseIdx i).countP (·.origin = n) + if x.origin = n then 1 else 0 := fun n => by
    rw [clones, ← hperm.countP_eq, List.countP_cons]
    simp
  have hother : ∀ y ∈ s.wrappers, y.origin ≠ x.origin →
      (s.world.act m (.drop x.wrapper.handle)).handle y.wrapper.handle =
        s.world.handle y.wrapper.handle := fun y hy hne => d.handle_act hx rfl hy hne
  -- a wrapper that is left and goes back to the same making shares the handle
  have hself : ∀ y ∈ s.wrappers.eraseIdx i, y.origin = x.origin →
      (s.world.act m (.drop x.wrapper.handle)).handle y.wrapper.handle =
        { s.world.handle y.wrapper.handle with
          shares := (s.world.handle y.wrapper.handle).shares - 1 } := fun y hy horigin => by
    rw [(d.handle_iff (hsub hy) hx).2 horigin]
    refine handle_drop (d.index_lt hx) ?_
    have hleft : 0 < (s.wrappers.eraseIdx i).countP (·.origin = x.origin) :=
      List.countP_pos_iff.2 ⟨y, hy, by simpa using horigin⟩
    rw [d.shares x hx, hcount, if_pos rfl]
    omega
  constructor
  case size_eq => exact (size_act (.inr rfl)).trans d.size_eq
  case handle_eq => exact fun y hy => d.handle_eq y (hsub hy)
  case origin_lt => exact fun y hy => d.origin_lt y (hsub hy)
  case released_lt => exact d.released_lt
  case object_eq =>
    intro y hy
    by_cases horigin : y.origin = x.origin
    · exact hself y hy horigin ▸ d.object_eq y (hsub hy)
    · exact hother y (hsub hy) horigin ▸ d.object_eq y (hsub hy)
  case owned_iff =>
    intro y hy
    by_cases horigin : y.origin = x.origin
    · exact hself y hy horigin ▸ d.owned_iff y (hsub hy)
    · exact hother y (hsub hy) horigin ▸ d.owned_iff y (hsub hy)
  case shares =>
    intro y hy
    have hbefore := d.shares y (hsub hy)
    rw [hcount] at hbefore
    show _ = (s.wrappers.eraseIdx i).countP (·.origin = y.origin)
    by_cases horigin : y.origin = x.origin
    · rw [hself y hy horigin, hbefore, if_pos horigin.symm]
      rfl
    · rw [hother y (hsub hy) horigin, hbefore, if_neg (Ne.symm horigin)]
      rfl

/-! ### Runs -/

/-- **Every action keeps the invariant.** -/
theorem Sound.act (d : Sound base s) (m : Machine) (a : WrapperAction) :
    Sound base (s.act m a) := by
  cases a with
  | adopt p => exact d.add (s.world.newHandle p) rfl rfl rfl rfl rfl
  | wrap p =>
    rw [Holdings.act, Wrapper.wrap_apply]
    rcases s.world.heap.retain p with e | heap
    · exact d
    · exact d.add (World.newHandle { s.world with heap } p) rfl rfl rfl rfl rfl
  | rewrap i =>
    rw [Holdings.act]
    rcases hi : s.wrappers[i]? with _ | x
    · exact d
    have hx := List.mem_of_getElem? hi
    show Sound base (match Handle.tryClone x.wrapper.handle s.world with
      | .ok h w => s.add x.object (Wrapper.ofHandle h w) w
      | .error _ w => { s with world := w })
    rw [Handle.tryClone_apply]
    by_cases howned : (s.world.handle x.wrapper.handle).owned = true
    swap
    · rw [if_neg howned]
      exact d
    rw [if_pos howned]
    rcases s.world.heap.retain (s.world.handle x.wrapper.handle).object with e | heap
    · exact d
    · exact d.add _ (Handle.modify_push s.world.handles
        (World.newHandle { s.world with heap } (s.world.handle x.wrapper.handle).object)
        fun state => { state with policy := (s.world.handle x.wrapper.handle).policy }) rfl
        (d.object_eq x hx) rfl rfl
  | clone i =>
    rw [Holdings.act]
    rcases hi : s.wrappers[i]? with _ | x
    · exact d
    · exact d.clone (List.mem_of_getElem? hi)
  | release i =>
    rw [Holdings.act]
    rcases hi : s.wrappers[i]? with _ | x
    · exact d
    · exact d.release (List.mem_of_getElem? hi)
  | drop i =>
    rw [Holdings.act]
    rcases hi : s.wrappers[i]? with _ | x
    · exact d
    · exact d.drop hi
  | native heap => exact d.same rfl

/-- A run of actions keeps the wrappers in order. -/
theorem Sound.run (d : Sound base s) (m : Machine) (actions : List WrapperAction) :
    Sound base (s.run m actions) := by
  induction actions generalizing s with
  | nil => exact d
  | cons a rest ih => exact ih (d.act m a)

/-! ### Equality in every state -/

/-- Equality in a state. -/
structure Compares (s : Holdings) : Prop where
  /-- **Equality of wrappers is an equivalence relation.** -/
  equivalence : Equivalence fun a b => Wrapper.same s.world a b = true
  isReleased_iff : ∀ x ∈ s.wrappers,
    x.wrapper.isReleased s.world = true ↔ x.origin ∈ s.released
  /-- Two wrappers that are not released are equal just when they wrap the same object. -/
  same_iff : ∀ x ∈ s.wrappers, ∀ y ∈ s.wrappers, x.origin ∉ s.released → y.origin ∉ s.released →
    (Wrapper.same s.world x.wrapper y.wrapper = true ↔ x.object = y.object)
  /-- **A released wrapper is equal to its clones** and to nothing else. -/
  same_released_iff : ∀ x ∈ s.wrappers, x.origin ∈ s.released → ∀ y ∈ s.wrappers,
    (Wrapper.same s.world x.wrapper y.wrapper = true ↔ x.origin = y.origin)
  /-- **Equality of values without floats is an equivalence relation.** -/
  values : Equivalence fun a b : { v : HostValue // v.FloatFree } =>
    HostValue.equal s.world a.1 b.1 = true

/-- A wrapper is identified by its handle once that was released, and by its object before. -/
theorem Sound.identity_eq (d : Sound base s) (hx : x ∈ s.wrappers) :
    x.wrapper.identity s.world =
      if x.origin ∈ s.released then .inl x.wrapper.handle else .inr x.object := by
  have howned := d.owned_iff x hx
  rw [Wrapper.identity, d.object_eq x hx]
  by_cases hreleased : x.origin ∈ s.released
  · rw [if_pos hreleased, if_neg fun h => howned.1 h hreleased]
  · rw [if_neg hreleased, if_pos (howned.2 hreleased)]

/-- **Equality is what the history says,** whatever was wrapped, cloned, released and dropped
before, over any heap. -/
theorem run_compares (m : Machine) (w : World) (actions : List WrapperAction) :
    ((start w).run m actions).Compares := by
  have d := (sound_start w).run m actions
  generalize (start w).run m actions = s at d
  constructor
  case equivalence => exact Wrapper.same_equivalence s.world
  case isReleased_iff =>
    intro x hx
    have howned := d.owned_iff x hx
    rw [Wrapper.isReleased, Bool.not_eq_true', ← Bool.not_eq_true, howned, not_not]
  case same_iff =>
    intro x hx y hy hxr hyr
    rw [Wrapper.same_iff, d.identity_eq hx, d.identity_eq hy, if_neg hxr, if_neg hyr,
      Sum.inr.injEq]
  case same_released_iff =>
    intro x hx hxr y hy
    rw [Wrapper.same_iff, d.identity_eq hx, d.identity_eq hy, if_pos hxr, ← d.handle_iff hx hy]
    split_ifs with hyr
    · rw [Sum.inl.injEq]
    · refine iff_of_false (by simp) fun heq => hyr ?_
      rwa [← (d.handle_iff hx hy).1 heq]
  case values => exact HostValue.equal_equivalence s.world

/-- Two wrappers of one object and a clone of the first, before and after releases. -/
example :
    let wrapped := (start (.ofProgram .ready)).run Sample.machine [.wrap ⟨0⟩, .wrap ⟨0⟩, .clone 0]
    let compared (s : Holdings) : List (List Bool) :=
      s.wrappers.map fun x => s.wrappers.map fun y => Wrapper.same s.world x.wrapper y.wrapper
    compared wrapped = [[true, true, true], [true, true, true], [true, true, true]] ∧
      compared (wrapped.run Sample.machine [.release 1, .release 2]) =
        [[true, false, true], [false, true, false], [true, false, true]] := by
  decide +kernel

end

end Holdings

end Interop

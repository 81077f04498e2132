/-
# Hashes are finite maps

Host code that makes hashes and calls `store`, `fetch`, `delete`, `has_key`, `get_size` and
`keys` on them gets the replies that finite maps from texts to host values would give, one map
for each hash (`Site.hashes_refine_maps`).  The map is a `Finmap` and knows nothing of
objects: `store` inserts, `delete` looks up and erases, and `keys` sorts by bytes.

Each method performs what `HashMethod.does` says, by one lemma for each method.  Nothing has
to be assumed about counts: the hashes own what they hold alone, so there is always room for
the reference that `fetch` takes.
-/

import Interop.Proofs.Container.Requests

namespace Interop

open World Conversion

/-- The methods of hashes that are called. -/
inductive HashMethod
  | store
  | fetch
  | delete
  | hasKey
  | getSize
  | keys

namespace HashMethod

/-- The name in host code. -/
def name : HashMethod → String
  | store => "store"
  | fetch => "fetch"
  | delete => "delete"
  | hasKey => "has_key"
  | getSize => "get_size"
  | keys => "keys"

/-- The code of the method. -/
def op : HashMethod → CoreMethod
  | store => .hashStore
  | fetch => .hashFetch
  | delete => .hashDelete
  | hasKey => .hashHasKey
  | getSize => .hashSize
  | keys => .hashKeys

/-- The declaration of the method. -/
def method : HashMethod → Method
  | store => Parcel.method "Store" .void [("key", Parcel.text), ("value", Parcel.anyObject)]
    .hashStore
  | fetch => Parcel.method "Fetch" (.value Parcel.maybeObject) [("key", Parcel.text)] .hashFetch
  | delete => Parcel.method "Delete" (.value Parcel.maybeObject) [("key", Parcel.text)] .hashDelete
  | hasKey => Parcel.method "Has_Key" (.value Parcel.truth) [("key", Parcel.text)] .hashHasKey
  | getSize => Parcel.method "Get_Size" (.value Parcel.longInt) [] .hashSize
  | keys => Parcel.method "Keys" (.value Parcel.anyObject) [] .hashKeys

/-- What the method does to a finite map.  No other values than these are ever accepted. -/
def does : HashMethod → Behaviour ValueMap
  | store, [some (.str key), some v], m => .ok (.null, m.insert key v)
  | fetch, [some (.str key)], m => .ok ((m.lookup key).getD .null, m)
  | delete, [some (.str key)], m => .ok ((m.lookup key).getD .null, m.erase key)
  | hasKey, [some (.str key)], m => .ok (.bool (m.lookup key).isSome, m)
  | getSize, _, m => .ok (.int (Int64.ofNat m.keys.card), m)
  | keys, _, m => .ok (.list ((m.keys.sort Text.ByteLe).map .str), m)
  | _, _, m => .ok (.null, m)

end HashMethod

/-- What host code asks of hashes: to make one, or to call a method on the one that was made
as the `target`-th. -/
inductive HashRequest
  | make (args : CallArgs)
  | call (target : Nat) (method : HashMethod) (args : CallArgs)

namespace HashRequest

/-- The arguments hold no wrappers, and dicts have ascending keys. -/
def Plain : HashRequest → Prop
  | make args => args.Plain ∧ args.WellFormed
  | call _ _ args => args.Plain ∧ args.WellFormed

/-- The constructor of hashes. -/
def maker : Method :=
  Parcel.maker [("capacity", Parcel.maybeSize)] .hash

/-- The reply of finite maps, and the maps from then on.  Of the memory all that matters is which
capacities are refused. -/
def reply (memory : Memory) (maps : List ValueMap) : HashRequest → Reply × List ValueMap
  | make args => maker.makerReply Parcel.hash
    (capacityRefusal memory.hashRoom "Cannot allocate a hash of capacity ") ∅ args maps
  | call target m args => m.method.replyAt Parcel.hash m.does target args maps

end HashRequest

/-- The reply of the module. -/
def Site.hashStep (s : Site) (x : Stock) : HashRequest → Reply × Stock
  | .make args => s.make "Clownfish::Hash" args x
  | .call target m args => s.ask target m.name args x

/-! ### What the code does -/

namespace ContainerKind

variable {K : Class → Prop} {params : List Param} {h : Heap} {hidden : List ObjId}
  {owned refs : Multiset ObjId} {p : ObjId} {m : ValueMap} {args : List Arg}
  {slots : List (Option HostValue)}

/-- A hash holds objects that show the values of its map. -/
theorem Ready.built (r : hash.Ready K params h hidden owned refs p m args slots) :
    ∃ x built, h.get? p = some x ∧ x.payload = .hash built ∧
      (h.obj p).payload = .hash built ∧ (h.view hidden).ShowsMap m built := by
  obtain ⟨x, hx, -, -, built, hpay, hshows⟩ := r.has
  refine ⟨x, built, hx, hpay, ?_, hshows⟩
  rw [Heap.obj_of_get? hx, hpay]

/-- The text that a call has for a key. -/
theorem Ready.key {name : String}
    (r : hash.Ready K [⟨name, Parcel.text⟩] h hidden owned refs p m args slots) :
    ∃ q key, args = [.object q] ∧ slots = [some (.str key)] ∧
      (h.obj q).payload.text? = some key := by
  obtain ⟨arg, slot, rfl, rfl, hshows, haccepted⟩ := args_one r.shown r.accepted
  obtain ⟨key, rfl⟩ := haccepted.text rfl
  obtain ⟨q, rfl, hq⟩ := hshows.text rfl
  exact ⟨q, key, rfl, rfl, hq⟩

open HashMethod NativeM Parcel

/-- **A value that is put into a hash** under a key, when the reference to it was taken for the
purpose. -/
theorem edited_insert {h₁ : Heap} {x : Obj} {built : KeyMap ObjId} {count : Nat} {key : String}
    {v : HostValue} {q : ObjId} (hidden_mem : p ∈ hidden) (e : Heap.Edits p 0 h h₁)
    (hx : h₁.get? p = some { x with refcount := count }) (hpay : x.payload = .hash built)
    (hshows : (h.view hidden).ShowsMap m built) (hq : (h.view hidden).Shows v (some q))
    (howned : q ∈ owned) (hsingle : h.Single q) :
    hash.Edited hidden p owned (m.insert key v) h {q}
      (h₁.setPayload p (.hash (built.insert key q))) := by
  have hedits : Heap.Edits p {q} h (h₁.setPayload p (.hash (built.insert key q))) := by
    rw [← zero_add ({q} : Multiset ObjId)]
    refine e.setPayload hx ?_
    have hvalues := KeyMap.values_insert built key q
    show ((built.insert key q).values : Multiset ObjId) ≤
      (x.payload.references : Multiset ObjId) + {q}
    rw [hpay, add_comm, Multiset.singleton_add]
    exact hvalues ▸ le_self_add
  have hview := hedits.view hidden_mem
  constructor
  case edits => exact hedits
  case shows_content =>
    refine ⟨_, Heap.get?_modify_self hx _, built.insert key q, rfl, ?_⟩
    exact (hshows.mono hview).insert (hq.mono hview)
  case apart =>
    intro z hz hzq
    obtain ⟨payload, hseen⟩ := hq.seen
    exact (Heap.view_eq_some.1 hseen).1 (Multiset.mem_singleton.1 hzq ▸ hz)
  case sole =>
    exact fun _ => ⟨Multiset.singleton_le.2 howned,
      fun z hz => Multiset.mem_singleton.1 hz ▸ hsingle⟩

/-- Storing performs what the specification says. -/
theorem hash_store : hash.Performs HashMethod.store.method.params .hashStore store.does := by
  intro machine global K h hidden owned refs p m args slots r
  obtain ⟨arg, arg', slot, slot', rfl, rfl, ⟨hkey, hkey'⟩, hvalue, hvalue'⟩ :=
    args_two r.shown r.accepted
  obtain ⟨key, rfl⟩ := hkey'.text rfl
  obtain ⟨k, rfl, hk⟩ := hkey.text rfl
  obtain ⟨v, rfl, hnull⟩ := hvalue'.object rfl
  obtain ⟨x, built, hx, hpay, hobj, hshows⟩ := r.built
  rcases hvalue.object rfl with ⟨rfl, hv⟩ | ⟨q, v', rfl, hv, hq, hsingle, -⟩
  · obtain rfl : v = .null := hv
    exact absurd hnull (by simp [Value.isNull])
  obtain rfl := Option.some.inj hv
  obtain ⟨h₁, hr⟩ := Heap.retain_of_room hsingle.room
  obtain ⟨count, hx₁⟩ := Heap.get?_of_retain hr hx
  have hobj₁ : (h₁.obj p).payload = .hash built := (Heap.payload_retain p hr).trans hobj
  have hedited : hash.Edited hidden p owned (m.insert key v) h {q}
      (h₁.setPayload p (.hash (built.insert key q))) :=
    edited_insert r.hidden_mem ((Heap.Edits.refl p h).retain hr) hx₁ hpay hshows hq
      (r.args_owned q (by simp)) hsingle
  obtain ⟨y, hy, -⟩ := hsingle
  have hmoves := ((Heap.Moves.refl r.orderly).retain hy hr).insertEntry key hx₁ hpay
  -- the value that was there before is given back
  obtain ⟨h', hrun, hshrinks⟩ : ∃ h', hashPut p key q (machine.env global) h₁ = .ok .void h' ∧
      Heap.Shrinks 0 (h₁.setPayload p (.hash (built.insert key q))) h' := by
    rw [hashPut_run hobj₁]
    rcases hbuilt : built.get? key with _ | replaced <;> rw [hbuilt] at hmoves
    · exact ⟨_, rfl, .refl 0 _⟩
    · obtain ⟨h', hreleased, -, hshrinks⟩ := hmoves.orderly.ledger.release
      exact ⟨h', congrArg (EStateM.Result.ok Ret.void) (hreleased machine global), hshrinks⟩
  refine ⟨.void, h', ?_, ⟨{q}, _, hedited, hshrinks⟩, rfl⟩
  show Hash.store p [.object k, .object q] (machine.env global) h = _
  rw [hashStore_run [] hk, bind_of_ok (retain_run _ hr), hrun]

/-- Fetching performs what the specification says. -/
theorem hash_fetch : hash.Performs HashMethod.fetch.method.params .hashFetch fetch.does := by
  intro machine global K h hidden owned refs p m args slots r
  obtain ⟨k, key, rfl, rfl, hk⟩ := r.key
  obtain ⟨x, built, hx, hpay, hobj, hshows⟩ := r.built
  show hash.Yields hidden owned p _ h ((m.lookup key).getD .null) m (Hash.fetch p [.object k]) h
  refine .bind (argAt_run _ h rfl) (.bind (toText_run _ hk) (.bind (entries_run _ hobj) ?_))
  rcases hshows.get? key with ⟨hm, hbuilt⟩ | ⟨v, q, hm, hbuilt, hv⟩ <;> rw [hm, hbuilt]
  · exact .pure (.of_edits r.has r.hidden_mem (.refl p h) rfl) rfl
  · obtain ⟨h₁, hr⟩ := Heap.retain_of_room
      (r.room q (by rw [hobj]; exact KeyMap.mem_values_of_get? hbuilt))
    have hedits := (Heap.Edits.refl p h).retain hr
    exact .bind (retain_run _ hr) (.pure
      (.of_edits r.has r.hidden_mem hedits (Heap.payload_retain p hr))
      (hv.mono (hedits.view r.hidden_mem)))

/-- **A value that is taken out of a hash,** with the reference to it. -/
theorem edited_erase {x : Obj} {built : KeyMap ObjId} (key : String) (hidden_mem : p ∈ hidden)
    (hx : h.get? p = some x) (hpay : x.payload = .hash built)
    (hshows : (h.view hidden).ShowsMap m built) :
    hash.Edited hidden p owned (m.erase key) h 0 (h.setPayload p (.hash (built.erase key))) := by
  have hedits : Heap.Edits p 0 h (h.setPayload p (.hash (built.erase key))) := by
    rw [← zero_add (0 : Multiset ObjId)]
    refine (Heap.Edits.refl p h).setPayload hx ?_
    have hvalues := KeyMap.values_erase built key
    show ((built.erase key).values : Multiset ObjId) ≤ (x.payload.references : Multiset ObjId) + 0
    rw [hpay, add_zero]
    exact hvalues ▸ le_self_add
  constructor
  case edits => exact hedits
  case shows_content =>
    refine ⟨_, Heap.get?_modify_self hx _, built.erase key, rfl, ?_⟩
    exact (hshows.mono (hedits.view hidden_mem)).erase key
  case apart => exact fun _ _ => Multiset.notMem_zero _
  case sole =>
    exact fun _ => ⟨Multiset.zero_le owned, fun q hq => absurd hq (Multiset.notMem_zero q)⟩

/-- Deleting performs what the specification says. -/
theorem hash_delete : hash.Performs HashMethod.delete.method.params .hashDelete
    delete.does := by
  intro machine global K h hidden owned refs p m args slots r
  obtain ⟨k, key, rfl, rfl, hk⟩ := r.key
  obtain ⟨x, built, hx, hpay, hobj, hshows⟩ := r.built
  show hash.Yields hidden owned p _ h ((m.lookup key).getD .null) (m.erase key)
    (Hash.delete p [.object k]) h
  refine .bind (argAt_run _ h rfl) (.bind (toText_run _ hk) (.bind (entries_run _ hobj) ?_))
  rcases hshows.get? key with ⟨hm, hbuilt⟩ | ⟨v, q, hm, hbuilt, hv⟩ <;> rw [hm, hbuilt]
  · have hsame : m.erase key = m := by
      refine Finmap.ext_lookup fun other => ?_
      by_cases heq : other = key
      · rw [heq, Finmap.lookup_erase, hm]
      · rw [Finmap.lookup_erase_ne heq]
    rw [hsame]
    exact .pure (.of_edits r.has r.hidden_mem (.refl p h) rfl) rfl
  · have hedited : hash.Edited hidden p owned (m.erase key) h 0 _ :=
      edited_erase key r.hidden_mem hx hpay hshows
    exact .bind rfl (.pure hedited.updates (hv.mono (hedited.edits.view r.hidden_mem)))

/-- The test for a key performs what the specification says. -/
theorem hash_hasKey : hash.Performs HashMethod.hasKey.method.params .hashHasKey
    hasKey.does := by
  intro machine global K h hidden owned refs p m args slots r
  obtain ⟨k, key, rfl, rfl, hk⟩ := r.key
  obtain ⟨x, built, hx, hpay, hobj, hshows⟩ := r.built
  show hash.Yields hidden owned p _ h (.bool (m.lookup key).isSome) m (Hash.hasKey p [.object k]) h
  refine .bind (argAt_run _ h rfl) (.bind (toText_run _ hk) (.bind (entries_run _ hobj) ?_))
  refine .pure (.of_edits r.has r.hidden_mem (.refl p h) rfl) ?_
  rcases hshows.get? key with ⟨hm, hbuilt⟩ | ⟨v, q, hm, hbuilt, hv⟩ <;>
    rw [KeyMap.contains, hm, hbuilt] <;> rfl

/-- Counting performs what the specification says. -/
theorem hash_getSize : hash.Performs HashMethod.getSize.method.params .hashSize
    getSize.does := by
  intro machine global K h hidden owned refs p m args slots r
  obtain ⟨x, built, hx, hpay, hobj, hshows⟩ := r.built
  show hash.Yields hidden owned p _ h (.int (Int64.ofNat m.keys.card)) m (Hash.size p) h
  refine .bind (entries_run _ hobj) (.pure (.of_edits r.has r.hidden_mem (.refl p h) rfl) ?_)
  rw [hshows.card_eq]
  rfl

/-- **A text for each name** is made, and nothing else changes. -/
theorem keyStrings_run {h₀ : Heap} (env : NativeEnv)
    (hhidden : ∀ q ∈ hidden, ∃ x, h₀.get? q = some x) (names : List String) :
    ∀ {h : Heap}, Heap.Edits p 0 h₀ h → h₀.cells.size ≤ h.cells.size →
    ∃ elements h', Hash.keyStrings names env h = .ok elements h' ∧ Heap.Edits p 0 h₀ h' ∧
      (∀ q o, h.get? q = some o → h'.get? q = some o) ∧
      (∀ q, some q ∈ elements → h₀.get? q = none ∧ q.index < h'.cells.size) ∧
      (h'.view hidden).ShowsList (names.map .str) elements := by
  induction names with
  | nil =>
    intro h e _
    exact ⟨[], h, rfl, e, fun _ _ ho => ho, fun q hq => absurd hq List.not_mem_nil, rfl⟩
  | cons name rest ih =>
    intro h e hsize
    have hgrown : h₀.cells.size ≤ (h.alloc string (.str name)).2.cells.size := by
      rw [Heap.size_alloc]
      exact hsize.trans (Nat.le_succ _)
    have hone : Heap.Edits p 0 h₀ (h.alloc string (.str name)).2 :=
      e.alloc fun q hq => absurd hq List.not_mem_nil
    obtain ⟨elements, h', hrun, hedits, hkept, hnew, hshows⟩ := ih hone hgrown
    have hmade := hkept _ _ (Heap.get?_alloc_self string (.str name))
    have hvacant : h₀.get? (h.alloc string (.str name)).1 = none := Heap.get?_of_size_le hsize
    refine ⟨some (h.alloc string (.str name)).1 :: elements, h', ?_, hedits, ?_, ?_, ?_⟩
    · have hname : newString name env h = .ok (h.alloc string (.str name)).1
          (h.alloc string (.str name)).2 := rfl
      rw [Hash.keyStrings, bind_of_ok hname, bind_of_ok hrun]
      rfl
    · exact fun q o ho => hkept q o (Heap.get?_alloc_of_some _ _ ho)
    · intro q hq
      rcases List.mem_cons.1 hq with hq | hq
      · obtain rfl := Option.some.inj hq
        exact ⟨hvacant, Heap.index_lt_of_get? hmade⟩
      · exact hnew q hq
    · refine ⟨_, elements, rfl, ⟨_, rfl, ?_, fun q hq => absurd hq List.not_mem_nil⟩, hshows⟩
      refine Heap.view_eq_some.2 ⟨fun hmem => ?_, _, hmade, rfl⟩
      obtain ⟨x, hx⟩ := hhidden _ hmem
      exact absurd (hvacant.symm.trans hx) (by simp)

/-- Listing the keys performs what the specification says. -/
theorem hash_keys : hash.Performs HashMethod.keys.method.params .hashKeys keys.does := by
  intro machine global K h hidden owned refs p m args slots r
  obtain ⟨x, built, hx, hpay, hobj, hshows⟩ := r.built
  obtain ⟨elements, h₁, hrun, hedits, hkept, hnew, hnames⟩ := keyStrings_run
    (machine.env global) r.hidden_there built.keys (.refl p h) le_rfl
  show hash.Yields hidden owned p _ h (.list ((m.keys.sort Text.ByteLe).map .str)) m (Hash.keys p) h
  have hmade : NativeM.alloc Parcel.vector (.vector elements) (machine.env global) h₁ =
    .ok (h₁.alloc Parcel.vector (.vector elements)).1
      (h₁.alloc Parcel.vector (.vector elements)).2 := rfl
  refine .bind (entries_run _ hobj) (.bind hrun (.bind hmade (.pure ?_ ?_)))
  · refine .of_edits r.has r.hidden_mem (hedits.alloc fun q hq => ?_) ?_
    · obtain ⟨_, hmem, rfl⟩ := List.mem_filterMap.1 hq
      exact (hnew q hmem).1
    · rw [Heap.obj_of_get? (Heap.get?_alloc_of_some _ _ (hkept p x hx)), Heap.obj_of_get? hx]
  · rw [hshows.sort_eq]
    refine ⟨_, elements, rfl, ⟨?_, fun q hq => ?_⟩, hnames.mono fun _ _ => Heap.view_alloc _ _⟩
    · refine Heap.view_eq_some.2 ⟨fun hmem => ?_, _, Heap.get?_alloc_self _ _, rfl⟩
      obtain ⟨y, hy⟩ := r.hidden_there _ hmem
      exact absurd (Heap.index_lt_of_get? (hkept _ y hy)) (Nat.lt_irrefl _)
    · obtain ⟨_, hmem, rfl⟩ := List.mem_filterMap.1 hq
      exact (hnew q hmem).2

/-- **Each method does to a hash what it does to a map.** -/
theorem hash_performs (method : HashMethod) :
    hash.Performs method.method.params method.op method.does := by
  cases method with
  | store => exact hash_store
  | fetch => exact hash_fetch
  | delete => exact hash_delete
  | hasKey => exact hash_hasKey
  | getSize => exact hash_getSize
  | keys => exact hash_keys

/-- The constructor makes an empty hash. -/
theorem hash_makes : hash.Makes HashRequest.maker.params .hash (fun memory =>
    capacityRefusal memory.hashRoom "Cannot allocate a hash of capacity ") ∅ :=
  makes_of_capacity (fun memory => memory.hashRoom_zero) (fun _ => rfl) (fun _ _ => rfl)
    (fun _ _ _ _ => rfl) rfl fun V => ⟨.empty, rfl, .empty V⟩

end ContainerKind

/-! ### Hashes and maps -/

namespace HashMethod

/-- The method is declared by the class of hashes. -/
theorem declared (m : HashMethod) : m.method ∈ Parcel.hash.declaredMethods := by
  cases m <;> decide +kernel

/-- The method is called by its name in the specification. -/
theorem hostName_eq (m : HashMethod) : m.method.hostName = m.name := by
  cases m <;> decide +kernel

/-- The method is public. -/
theorem isPrivate_eq (m : HashMethod) : m.method.isPrivate = false := by
  cases m <;> rfl

/-- The method runs the operation of its name. -/
theorem code_eq (m : HashMethod) : m.method.code = .onObject (.core m.op) := by
  cases m <;> rfl

/-- The parameters ask for no class outside the core parcel. -/
theorem parochial (m : HashMethod) : Site.isParochial m.method.params = true := by
  cases m <;> decide +kernel

end HashMethod

namespace Site

variable {s : Site} {K : Class → Prop}

/-- There is room for a reference to what a hash holds: the hash has the only one. -/
theorem room_of_exclusive {α : Type} {kind : ContainerKind α} {w : World} {wrappers : List Wrapper}
    {contents : List α} (t : Tracks K kind w wrappers contents) (hexclusive : kind.exclusive) :
    ∀ o ∈ wrappers, ∀ q ∈ (w.heap.obj (w.handle o.handle).object).payload.references,
      w.heap.Room [q] := by
  intro o ho q hq
  have hroot := Tracks.root_mem (w := w) ho
  obtain ⟨x, hx, -⟩ := t.get?_root hroot
  rw [Heap.obj_of_get? hx] at hq
  exact (t.sole hexclusive _ hroot x hx q hq).room

/-- **One request** is answered as a map would. -/
theorem hashStep_refines (core : s.Core K) {x : Stock} {maps : List ValueMap} {r : HashRequest}
    (t : Tracks K .hash x.world x.wrappers maps) (hplain : r.Plain) :
    (s.hashStep x r).1 = (r.reply s.machine.image.memory maps).1 ∧
      Tracks K .hash (s.hashStep x r).2.world (s.hashStep x r).2.wrappers
        (r.reply s.machine.image.memory maps).2 := by
  have hkind := ContainerKind.hash_mem
  cases r with
  | make args =>
    exact make_refines core hkind rfl rfl (by decide +kernel) ContainerKind.hash_makes hplain.1
      hplain.2 t
  | call target m args =>
    have hrefines := ask_refines core hkind m.declared m.isPrivate_eq m.code_eq m.parochial
      (ContainerKind.hash_performs m) hplain.1 hplain.2 t (i := target)
      (room_of_exclusive t trivial)
    rw [m.hostName_eq] at hrefines
    exact hrefines

/-- **Hashes refine finite maps.**  Whatever hashes are made and whatever is stored in them,
the replies are those of finite maps. -/
theorem hashes_refine_maps {w : World} {l l' : Log.Logger} (fam : Family s.machine K)
    (hcore : ∀ c ∈ Parcel.classes, s.registry.fetch c.name = .ok c)
    (hmodule : CoreBinding.coreModule s.registry l = .ok s.module l') (b : Balanced K 0 w)
    {requests : List HashRequest} (hplain : ∀ r ∈ requests, r.Plain) :
    replies s.hashStep ⟨w, []⟩ requests =
      replies (HashRequest.reply s.machine.image.memory) [] requests := by
  have core : s.Core K := ⟨fam, hcore, CoreBinding.coreModule_eq hcore hmodule⟩
  refine replies_eq (R := fun x maps => Tracks K .hash x.world x.wrappers maps)
    (fun t hr => hashStep_refines core t hr) requests (.nil b) (allowed_of_forall hplain _)

/-- A value is replaced and deleted, and a null is refused before it gets to the hash. -/
example : replies (HashRequest.reply .full) [] [.make .empty,
      .call 0 .store ⟨[.str "b", .int 1], []⟩, .call 0 .store ⟨[.str "b", .str "c"], []⟩,
      .call 0 .store ⟨[.str "b", .null], []⟩, .call 0 .delete ⟨[.str "b"], []⟩,
      .call 0 .fetch ⟨[.str "b"], []⟩, .call 1 .keys .empty] =
    [.made, .answered .null, .answered .null,
      .raised ((HostException.ofError (.missingValue "value")).withFrame "Hash.store"),
      .answered (.str "c"), .answered .null, .absent] := by
  rfl

end Site

namespace Sample

/-- Two hashes: one has a value replaced, is refused a null and lists its keys, and the other
gives up a value once. -/
def hashRequests : List HashRequest := [
  .make .empty, .make ⟨[], [("capacity", .int 4)]⟩,
  .call 0 .store ⟨[.str "b", .int 1], []⟩,
  .call 0 .store ⟨[.str "b"], [("value", .list [.null, .bool true])]⟩,
  .call 0 .store ⟨[.str "a", .null], []⟩,
  .call 1 .store ⟨[.str "b", .str "c"], []⟩,
  .call 0 .fetch ⟨[], [("key", .str "b")]⟩,
  .call 1 .delete ⟨[.str "b"], []⟩, .call 1 .delete ⟨[.str "b"], []⟩,
  .call 0 .getSize .empty, .call 0 .keys .empty]

/-- The requests of the example hand over plain values. -/
theorem hashRequests_plain : ∀ r ∈ hashRequests, r.Plain := by
  simp [hashRequests, HashRequest.Plain, CallArgs.Plain, CallArgs.wellFormed_iff, CallArgs.values,
    CallArgs.empty, Value.objects, Value.objectsOfList, Value.WellFormed, Value.WellFormedList]

/-- The replies to the requests of the example are those of the specification. -/
theorem hashRequests_answered :
    (∀ c ∈ Parcel.classes, clownfishSite.registry.fetch c.name = .ok c) ∧
    (∀ r ∈ hashRequests, r.Plain) ∧
    replies clownfishSite.hashStep ⟨.ofProgram .ready, []⟩ hashRequests =
      replies (HashRequest.reply memory) [] hashRequests := by
  obtain ⟨l', hmodule⟩ := clownfishSite_emitted
  exact ⟨Parcel.registry_fetch, hashRequests_plain, Site.hashes_refine_maps clownfishSite_family
    Parcel.registry_fetch hmodule (balanced_ofProgram (fun _ hc => hc) .ready) hashRequests_plain⟩

end Sample

end Interop

/-
# Containers that a world keeps apart

Host code holds wrappers of containers, and nothing else refers to these: each is owned by one
handle and stands in no payload.  So no value leads to a container, a call changes one of them
at most, and what the others show stays.

`World.Tracks` is the invariant, with the content of each container.  A call has three parts:
its frame is staged (`World.Grew`), the code edits one container and makes objects
(`Heap.Edits`), and then references are given back (`Heap.Shrinks`).  `ContainerKind.Has` goes
through each of them, and `Tracks.update` puts them together.
-/

import Interop.Proofs.Call.Screening
import Interop.Proofs.Container.Kind
import Interop.Proofs.Heap.Edits
import Interop.Proofs.Ownership.Outcomes

namespace Interop

open World

/-! ### What is looked at -/

namespace Heap

variable {K : Class → Prop} {owned gained : Multiset ObjId} {h h' : Heap} {hidden : List ObjId}
  {p : ObjId}

/-- An edit of something that is not looked at. -/
theorem Edits.view (e : Edits p gained h h') (hp : p ∈ hidden) (q : ObjId) (payload : Payload)
    (hq : h.view hidden q = some payload) : h'.view hidden q = some payload := by
  obtain ⟨hnot, o, ho, hpayload⟩ := view_eq_some.1 hq
  obtain ⟨count, hc⟩ := e.get?_of_ne ho fun hqp => hnot (hqp ▸ hp)
  exact view_eq_some.2 ⟨hnot, _, hc, hpayload⟩

/-- What is still there after references were given back holds what it held, and that is there
as well. -/
theorem Shrinks.view_stays (s : Shrinks 0 h h') (d : h'.Orderly K owned) :
    View.Stays (fun q => ∃ o, h'.get? q = some o) (h.view hidden) (h'.view hidden) := by
  intro q payload hq ⟨o, ho⟩
  obtain ⟨hnot, x, hx, hpayload⟩ := view_eq_some.1 hq
  obtain ⟨count, hc, -⟩ := s.of_get? ho
  rw [hx, Option.some.injEq] at hc
  have hsame : o.payload = payload := by rw [← hpayload, hc]
  exact ⟨view_eq_some.2 ⟨hnot, o, ho, hsame⟩, fun r hr =>
    d.get?_of_reference ho (hsame.symm ▸ hr)⟩

end Heap

/-! ### One container -/

namespace ContainerKind

variable {α : Type} {kind : ContainerKind α} {K : Class → Prop} {owned gained : Multiset ObjId}
  {h h' : Heap} {hidden : List ObjId} {p q : ObjId} {a : α}

/-- At `p` there is a mortal container of this kind with this content. -/
def Has (kind : ContainerKind α) (h : Heap) (hidden : List ObjId) (p : ObjId) (a : α) : Prop :=
  ∃ x, h.get? p = some x ∧ x.cls = kind.cls ∧ x.immortal = false ∧
    kind.Shows (h.view hidden) a x.payload

/-- A container has the same content after other objects were made. -/
theorem Has.grew {w w' : World} {taken : Multiset ObjId} (g : w.Grew taken w')
    (hp : kind.Has w.heap hidden p a) : kind.Has w'.heap hidden p a := by
  obtain ⟨x, hx, hcls, himm, hshows⟩ := hp
  obtain ⟨count, hc, -⟩ := g.kept p x hx
  exact ⟨_, hc, hcls, himm, kind.mono hshows g.view⟩

/-- Another container is edited. -/
theorem Has.edits (e : Heap.Edits q gained h h') (hq : q ∈ hidden) (hpq : p ≠ q)
    (hp : kind.Has h hidden p a) : kind.Has h' hidden p a := by
  obtain ⟨x, hx, hcls, himm, hshows⟩ := hp
  obtain ⟨count, hc⟩ := e.get?_of_ne hx hpq
  exact ⟨_, hc, hcls, himm, kind.mono hshows (e.view hq)⟩

/-- An object is made, and hidden from then on. -/
theorem Has.alloc (cls : Class) (payload : Payload) (hp : kind.Has h hidden p a) :
    kind.Has (h.alloc cls payload).2 (hidden ++ [(h.alloc cls payload).1]) p a := by
  obtain ⟨x, hx, hcls, himm, hshows⟩ := hp
  refine ⟨x, Heap.get?_alloc_of_some cls payload hx, hcls, himm, kind.mono hshows ?_⟩
  intro q payload' hq
  obtain ⟨hnot, y, hy, hpayload⟩ := Heap.view_eq_some.1 hq
  refine Heap.view_eq_some.2 ⟨fun hmem => ?_, y, Heap.get?_alloc_of_some cls payload hy, hpayload⟩
  rcases List.mem_append.1 hmem with hmem | hnew
  · exact hnot hmem
  · obtain rfl := List.mem_singleton.1 hnew
    exact absurd (Heap.index_lt_of_get? hy) (Nat.lt_irrefl _)

/-- References are given back, and the container is still there. -/
theorem Has.shrinks (s : Heap.Shrinks 0 h h') (d : h'.Orderly K owned)
    (hthere : ∃ y, h'.get? p = some y) (hp : kind.Has h hidden p a) :
    kind.Has h' hidden p a := by
  obtain ⟨x, hx, hcls, himm, hshows⟩ := hp
  obtain ⟨y, hy⟩ := hthere
  obtain ⟨count, hc, -⟩ := s.of_get? hy
  obtain rfl : x = { y with refcount := count } := Option.some.inj (hx.symm.trans hc)
  refine ⟨y, hy, hcls, himm, kind.stays (s.view_stays d) hshows fun r hr => ?_⟩
  exact d.get?_of_reference hy hr

/-- The code of an operation gave the container at `p` the content `a`, with the references in
`gained` beside what it held before.  None of them is to a hidden object, and in an exclusive
container each of them is the one reference that `owned` has to a new object. -/
structure Edited (kind : ContainerKind α) (hidden : List ObjId) (p : ObjId)
    (owned : Multiset ObjId) (a : α) (h : Heap) (gained : Multiset ObjId) (h' : Heap) : Prop where
  edits : Heap.Edits p gained h h'
  shows_content : ∃ y, h'.get? p = some y ∧ kind.Shows (h'.view hidden) a y.payload
  apart : ∀ r ∈ hidden, r ∉ gained
  sole : kind.exclusive → gained ≤ owned ∧ ∀ q ∈ gained, h.Single q

/-- The container at `p` got the content `a`, and then references were given back. -/
def Updates (kind : ContainerKind α) (hidden : List ObjId) (p : ObjId) (owned : Multiset ObjId)
    (a : α) (h h' : Heap) : Prop :=
  ∃ gained h₁, kind.Edited hidden p owned a h gained h₁ ∧ Heap.Shrinks 0 h₁ h'

/-- More references are given back. -/
theorem Updates.shrinks {h'' : Heap} (u : kind.Updates hidden p owned a h h')
    (s : Heap.Shrinks 0 h' h'') : kind.Updates hidden p owned a h h'' := by
  obtain ⟨gained, h₁, edited, s₁⟩ := u
  exact ⟨gained, h₁, edited, s₁.trans s⟩

/-- An edited container has been updated. -/
theorem Edited.updates (e : kind.Edited hidden p owned a h gained h') :
    kind.Updates hidden p owned a h h' :=
  ⟨gained, h', e, .refl 0 h'⟩

/-- Nothing is gained, and the content stays. -/
theorem Updates.of_edits (hp : kind.Has h hidden p a) (hmem : p ∈ hidden)
    (e : Heap.Edits p 0 h h') (hpay : (h'.obj p).payload = (h.obj p).payload) :
    kind.Updates hidden p owned a h h' := by
  obtain ⟨x, hx, -, -, hshows⟩ := hp
  obtain ⟨count, payload, hc, -⟩ := e.kept p x hx
  rw [Heap.obj_of_get? hc, Heap.obj_of_get? hx] at hpay
  refine ⟨0, h', ⟨e, ⟨_, hc, ?_⟩, fun r _ => Multiset.notMem_zero r, fun _ =>
    ⟨Multiset.zero_le owned, fun q hq => absurd hq (Multiset.notMem_zero q)⟩⟩, .refl 0 h'⟩
  rw [hpay]
  exact kind.mono hshows (e.view hmem)

end ContainerKind

/-! ### Calls between two worlds -/

namespace World

variable {K : Class → Prop} {w w₁ w' : World} {taken gained : Multiset ObjId} {frame : Frame}
  {p : ObjId} {x : Obj}

/-- A call staged its frame in `w₁` and is over in `w'`, up to a new handle. -/
structure Spans (K : Class → Prop) (w : World) (taken : Multiset ObjId) (frame : Frame)
    (w₁ w' : World) : Prop where
  lends : Staging.Lends w taken ⟨w₁, frame⟩
  staged : Balanced K (frame.owned : Multiset ObjId) w₁
  settled : Balanced K 0 w'

/-- Staging puts no reference to what was there into a payload: it owns all that it takes. -/
theorem slots_of_lends (b : Balanced K 0 w) (l : Staging.Lends w taken ⟨w₁, frame⟩)
    (b₁ : Balanced K (frame.owned : Multiset ObjId) w₁) (hx : w.heap.get? p = some x)
    (himm : x.immortal = false) : (w₁.heap.slots 0).count p ≤ (w.heap.slots 0).count p := by
  obtain ⟨count, hc, hcount⟩ := l.grew.kept p x hx
  have hbefore := b.refcount_eq hx himm
  have hafter : count = _ := b₁.refcount_eq hc himm
  have hheld : w₁.held = w.held := by rw [held, held, l.grew.handles_eq]
  have htaken := Multiset.count_le_of_le p l.taken_le
  have heq := hcount himm
  simp only [Multiset.count_add, hheld, Multiset.count_zero] at hbefore hafter htaken
  omega

/-- Nothing refers to an object that is not there. -/
theorem unreferenced_of_vacant {owned : Multiset ObjId} (b : Balanced K owned w)
    (hp : w.heap.get? p = none) : p ∉ w.held ∧ p ∉ w.heap.slots 0 := by
  constructor
  · intro hmem
    obtain ⟨x, hx⟩ := b.orderly.get?_of_mem (Multiset.mem_add.2 (Or.inr hmem))
    exact absurd (hp.symm.trans hx) (by simp)
  · intro hmem
    obtain ⟨r, x, -, hx, hr⟩ := Heap.mem_slots.1 hmem
    obtain ⟨y, hy⟩ := b.orderly.get?_of_reference hx hr
    exact absurd (hp.symm.trans hy) (by simp)

/-- What counts one reference when the frame is staged does so when the call is over, if it is
still there: what the code put into payloads, the frame owned. -/
theorem single_of_spans {q : ObjId} {h₁ : Heap} (c : Spans K w taken frame w₁ w')
    (hheld : w'.held.count q = w₁.held.count q) (e : Heap.Edits p gained w₁.heap h₁)
    (s : Heap.Shrinks 0 h₁ w'.heap) (hle : gained ≤ (frame.owned : Multiset ObjId))
    (hq : w₁.heap.Single q) (hthere : ∃ y, w'.heap.get? q = some y) : w'.heap.Single q := by
  obtain ⟨z, hz, hone⟩ := hq
  obtain ⟨y, hy⟩ := hthere
  obtain ⟨count, payload, hc, -⟩ := e.kept q z hz
  obtain ⟨count', hc', -⟩ := s.of_get? hy
  obtain ⟨-, hsame, -, -⟩ := Obj.mk.inj (Option.some.inj (hc.symm.trans hc'))
  refine ⟨y, hy, fun himm => ?_⟩
  have hbefore := c.staged.refcount_eq hz (hsame.trans himm)
  have hafter := c.settled.refcount_eq hy himm
  have hpos := (c.settled.orderly.proper q y hy).referenced himm
  have hedited := e.slots_le q z hz
  have hgiven := Multiset.count_le_of_le q s.slots_le
  have howned := Multiset.count_le_of_le q hle
  rw [hone (hsame.trans himm)] at hbefore
  simp only [Multiset.count_add, Multiset.count_zero, hheld] at hbefore hafter
  omega

/-- The objects behind the wrappers, in turn. -/
def roots (w : World) (wrappers : List Wrapper) : List ObjId :=
  wrappers.map fun o => (w.handle o.handle).object

/-- Behind each wrapper is a container with its content, to which nothing but the handle of the
wrapper refers.  If the containers are exclusive, nothing but a container refers to what it
holds. -/
structure Tracks {α : Type} (K : Class → Prop) (kind : ContainerKind α) (w : World)
    (wrappers : List Wrapper) (contents : List α) : Prop where
  balanced : Balanced K 0 w
  length_eq : contents.length = wrappers.length
  owned : ∀ o ∈ wrappers, (w.handle o.handle).owned = true ∧ o.cls = kind.cls
  nodup : (w.roots wrappers).Nodup
  once : ∀ p ∈ w.roots wrappers, w.held.count p = 1
  apart : ∀ p ∈ w.roots wrappers, p ∉ w.heap.slots 0
  shown : ∀ (i : Nat) (o : Wrapper) (a : α), wrappers[i]? = some o → contents[i]? = some a →
    kind.Has w.heap (w.roots wrappers) (w.handle o.handle).object a
  sole : kind.exclusive → ∀ p ∈ w.roots wrappers, ∀ x, w.heap.get? p = some x →
    ∀ q ∈ x.payload.references, w.heap.Single q

namespace Tracks

variable {α : Type} {kind : ContainerKind α} {wrappers : List Wrapper} {contents : List α}
  {o : Wrapper} {i : Nat} {a : α}

/-- There is no container yet. -/
theorem nil (b : Balanced K 0 w) : Tracks K kind w [] [] where
  balanced := b
  length_eq := rfl
  owned _ ho := absurd ho List.not_mem_nil
  nodup := List.nodup_nil
  once _ hp := absurd hp List.not_mem_nil
  apart _ hp := absurd hp List.not_mem_nil
  shown _ _ _ ho := absurd ho (by simp)
  sole _ _ hp := absurd hp List.not_mem_nil

/-- What a wrapper stands for is one of the roots. -/
theorem root_mem (ho : o ∈ wrappers) : (w.handle o.handle).object ∈ w.roots wrappers :=
  List.mem_map_of_mem ho

/-- Each wrapper has a content. -/
theorem content (t : Tracks K kind w wrappers contents) (ho : wrappers[i]? = some o) :
    ∃ a, contents[i]? = some a := by
  obtain ⟨hlt, -⟩ := List.getElem?_eq_some_iff.1 ho
  exact ⟨_, List.getElem?_eq_getElem (t.length_eq ▸ hlt)⟩

/-- **A container counts the reference of its handle** and no other. -/
theorem get?_root (t : Tracks K kind w wrappers contents) (hp : p ∈ w.roots wrappers) :
    ∃ x, w.heap.get? p = some x ∧ x.cls = kind.cls ∧ x.immortal = false ∧ x.refcount = 1 := by
  obtain ⟨o, ho, rfl⟩ := List.mem_map.1 hp
  obtain ⟨i, hi⟩ := List.mem_iff_getElem?.1 ho
  obtain ⟨a, ha⟩ := t.content hi
  obtain ⟨x, hx, hcls, himm, -⟩ := t.shown i o a hi ha
  refine ⟨x, hx, hcls, himm, ?_⟩
  rw [t.balanced.refcount_eq hx himm, zero_add, Multiset.count_add, t.once _ hp,
    Multiset.count_eq_zero_of_notMem (t.apart _ hp)]

/-- Containers can be hidden. -/
theorem hides (t : Tracks K kind w wrappers contents) : w.Hides (w.roots wrappers) := by
  intro p hp
  obtain ⟨x, hx, -, himm, -⟩ := t.get?_root hp
  refine ⟨⟨x, hx⟩, fun b hb => ?_⟩
  obtain ⟨count, ho⟩ := t.balanced.orderly.truth b
  rw [← hb, hx, Option.some.injEq] at ho
  rw [ho] at himm
  exact absurd himm (by simp)

/-- Where the handles of the wrappers are as they were, so are the roots. -/
theorem roots_eq (hhandle : ∀ o ∈ wrappers, w'.handle o.handle = w.handle o.handle) :
    w'.roots wrappers = w.roots wrappers :=
  List.map_congr_left fun o ho => by rw [hhandle o ho]

/-- A call that leaves everything as it was. -/
theorem of_unchanged (t : Tracks K kind w wrappers contents) (u : w.Unchanged w')
    (b' : Balanced K 0 w') : Tracks K kind w' wrappers contents := by
  have hhandle : ∀ h, w'.handle h = w.handle h := fun h => by
    rw [handle, handle, u.handles_eq]
  have hroots : w'.roots wrappers = w.roots wrappers := roots_eq fun o _ => hhandle o.handle
  have hview : ∀ hidden, w'.heap.view hidden = w.heap.view hidden := fun hidden => by
    funext q
    rw [Heap.view, Heap.view, u.heap_same.get?_eq]
  -- handles, views and counts are the same, so each part carries over
  constructor
  case balanced => exact b'
  case length_eq => exact t.length_eq
  case owned =>
    intro o ho
    rw [hhandle]
    exact t.owned o ho
  case nodup => exact hroots ▸ t.nodup
  case once =>
    intro p hp
    rw [held, u.handles_eq]
    exact t.once p (hroots ▸ hp)
  case apart =>
    intro p hp hmem
    obtain ⟨q, x, hn, hq, hx⟩ := Heap.mem_slots.1 hmem
    rw [u.heap_same.get?_eq] at hq
    exact t.apart p (hroots ▸ hp) (Heap.mem_slots.2 ⟨q, x, hn, hq, hx⟩)
  case shown =>
    intro i o a ho ha
    obtain ⟨x, hx, hrest⟩ := t.shown i o a ho ha
    rw [hhandle, hroots]
    refine ⟨x, by rw [u.heap_same.get?_eq, hx], ?_⟩
    rw [hview]
    exact hrest
  case sole =>
    intro hexclusive p hp x hx q hq
    rw [u.heap_same.get?_eq] at hx
    obtain ⟨y, hy, hone⟩ := t.sole hexclusive p (hroots ▸ hp) x hx q hq
    exact ⟨y, by rw [u.heap_same.get?_eq, hy], hone⟩

/-- A reference that is owned is still there after others were given back. -/
theorem get?_of_owned (b' : Balanced K 0 w') (howned : (w'.handle o.handle).owned = true) :
    ∃ y, w'.heap.get? (w'.handle o.handle).object = some y := by
  obtain ⟨y, hy, -⟩ := b'.cls_eq o.handle howned
  exact ⟨y, hy⟩

/-- **What an exclusive container holds** counts one reference after a call, too. -/
theorem sole_of_spans {h₁ : Heap} {y : Obj} {q : ObjId} (t : Tracks K kind w wrappers contents)
    (c : Spans K w taken frame w₁ w') (htaken : ∀ q ∈ taken, q ∈ w.roots wrappers)
    (hheld : ∀ q, (∃ x, w₁.heap.get? q = some x) → w'.held.count q = w₁.held.count q)
    (e : Heap.Edits p gained w₁.heap h₁) (hexclusive : kind.exclusive)
    (hgained : gained ≤ (frame.owned : Multiset ObjId) ∧ ∀ q ∈ gained, w₁.heap.Single q)
    (s : Heap.Shrinks 0 h₁ w'.heap) {r : ObjId} (hr : r ∈ w.roots wrappers)
    (hy : w'.heap.get? r = some y) (hq : q ∈ y.payload.references) : w'.heap.Single q := by
  obtain ⟨x, hx, -⟩ := t.get?_root hr
  obtain ⟨count, hc, -⟩ := c.lends.grew.kept r x hx
  obtain ⟨count', payload, hc', -, hrefs⟩ := e.kept r _ hc
  obtain ⟨count'', hc'', -⟩ := s.of_get? hy
  obtain ⟨-, -, -, hpayload⟩ := Obj.mk.inj (Option.some.inj (hc''.symm.trans hc'))
  rw [hpayload, ← Multiset.mem_coe] at hq
  have hsingle : w₁.heap.Single q := by
    rcases Multiset.mem_add.1 (Multiset.mem_of_le hrefs hq) with hold | hnew
    · obtain ⟨z, hz, hone⟩ := t.sole hexclusive r hr x hx q (Multiset.mem_coe.1 hold)
      obtain ⟨n, hn, hcount⟩ := c.lends.grew.kept q z hz
      refine ⟨_, hn, fun himm => ?_⟩
      have hnot : q ∉ taken := fun hmem => t.apart q (htaken q hmem)
        (Heap.mem_slots.2 ⟨r, x, Nat.zero_le _, hx, Multiset.mem_coe.1 hold⟩)
      have heq := hcount himm
      rw [Multiset.count_eq_zero_of_notMem hnot, hone himm] at heq
      exact heq
    · exact hgained.2 q hnew
  have hthere : ∃ z, w₁.heap.get? q = some z := by
    obtain ⟨z, hz, -⟩ := hsingle
    exact ⟨z, hz⟩
  refine single_of_spans c (hheld q hthere) e s hgained.1 hsingle ?_
  exact c.settled.orderly.get?_of_reference hy (hpayload ▸ Multiset.mem_coe.1 hq)

/-- **Nothing refers to a container** after a call that gained no reference to one. -/
theorem apart_of_spans {h₁ : Heap} (t : Tracks K kind w wrappers contents)
    (c : Spans K w taken frame w₁ w') (e : Heap.Edits p gained w₁.heap h₁)
    (hapart : ∀ r ∈ w.roots wrappers, r ∉ gained) (s : Heap.Shrinks 0 h₁ w'.heap) {r : ObjId}
    (hr : r ∈ w.roots wrappers) : r ∉ w'.heap.slots 0 := by
  obtain ⟨x, hx, -, himm, -⟩ := t.get?_root hr
  obtain ⟨count, hc, -⟩ := c.lends.grew.kept r x hx
  have hstaged := slots_of_lends t.balanced c.lends c.staged hx himm
  have hedited := e.slots_le r _ hc
  have hgiven := Multiset.count_le_of_le r s.slots_le
  rw [Multiset.count_eq_zero_of_notMem (t.apart r hr)] at hstaged
  rw [Multiset.count_eq_zero_of_notMem (hapart r hr)] at hedited
  refine Multiset.count_eq_zero.1 ?_
  omega

/-- After the code of a call, references are given back: what the containers show stays, and
nothing refers to them that did not before. -/
theorem settle {contents' : List α} {h₁ : Heap} (t : Tracks K kind w wrappers contents)
    (c : Spans K w taken frame w₁ w') (htaken : ∀ q ∈ taken, q ∈ w.roots wrappers)
    (k : w₁.KeepsHandles w') (hlength : contents'.length = wrappers.length)
    (e : Heap.Edits p gained w₁.heap h₁) (hapart : ∀ r ∈ w.roots wrappers, r ∉ gained)
    (hsole : kind.exclusive → gained ≤ (frame.owned : Multiset ObjId) ∧
      ∀ q ∈ gained, w₁.heap.Single q)
    (hhas : ∀ (i : Nat) (o : Wrapper) (a : α), wrappers[i]? = some o → contents'[i]? = some a →
      kind.Has h₁ (w.roots wrappers) (w.handle o.handle).object a)
    (s : Heap.Shrinks 0 h₁ w'.heap) : Tracks K kind w' wrappers contents' := by
  have hgrew := c.lends.grew
  have hhandle : ∀ o ∈ wrappers, w'.handle o.handle = w.handle o.handle := fun o ho => by
    rw [k.handle_eq _ (by rw [hgrew.handle_eq]; exact (t.owned o ho).1), hgrew.handle_eq]
  have hroots : w'.roots wrappers = w.roots wrappers := roots_eq hhandle
  have howned : ∀ o ∈ wrappers, (w'.handle o.handle).owned = true := fun o ho => by
    rw [hhandle o ho]
    exact (t.owned o ho).1
  constructor
  case balanced => exact c.settled
  case length_eq => exact hlength
  case owned => exact fun o ho => ⟨howned o ho, (t.owned o ho).2⟩
  case nodup => exact hroots ▸ t.nodup
  case once =>
    intro p hp
    have hheld : w'.held = w.held := by rw [k.held_eq, held, held, hgrew.handles_eq]
    rw [hheld]
    exact t.once p (hroots ▸ hp)
  case apart => exact fun r hr => t.apart_of_spans c e hapart s (hroots ▸ hr)
  case shown =>
    intro i o a ho ha
    have hmem := List.mem_of_getElem? ho
    have hthere := get?_of_owned c.settled (howned o hmem)
    rw [hhandle o hmem] at hthere ⊢
    rw [hroots]
    exact ContainerKind.Has.shrinks s c.settled.orderly hthere (hhas i o a ho ha)
  case sole =>
    intro hexclusive r hr y hy q hq
    exact t.sole_of_spans c htaken (fun _ _ => by rw [k.held_eq]) e hexclusive (hsole hexclusive) s
      (hroots ▸ hr) hy hq

/-- **A call on a container** changes its content and that of no other. -/
theorem update (t : Tracks K kind w wrappers contents) (c : Spans K w taken frame w₁ w')
    (htaken : ∀ q ∈ taken, q ∈ w.roots wrappers) (k : w₁.KeepsHandles w')
    (ho : wrappers[i]? = some o)
    (u : kind.Updates (w.roots wrappers) (w.handle o.handle).object (frame.owned : Multiset ObjId)
      a w₁.heap w'.heap) : Tracks K kind w' wrappers (contents.set i a) := by
  obtain ⟨gained, h₁, edited, hshrinks⟩ := u
  have hedits := edited.edits
  have hmem : o ∈ wrappers := List.mem_of_getElem? ho
  refine t.settle c htaken k (by rw [List.length_set, t.length_eq]) hedits edited.apart edited.sole
    ?_ hshrinks
  -- the container that was called has its new content; another one is another object
  intro j o' a' ho' ha'
  rw [List.getElem?_set] at ha'
  split_ifs at ha' with hij
  · subst hij
    obtain rfl : a = a' := Option.some.inj ha'
    obtain rfl : o = o' := Option.some.inj (ho.symm.trans ho')
    obtain ⟨y, hy, hshows⟩ := edited.shows_content
    obtain ⟨b, hb⟩ := t.content ho
    obtain ⟨x, hx, hcls, himm, -⟩ := (t.shown i o b ho hb).grew c.lends.grew
    obtain ⟨count, payload, hc, -⟩ := hedits.kept _ x hx
    obtain rfl := Option.some.inj (hc.symm.trans hy)
    exact ⟨_, hy, hcls, himm, hshows⟩
  · have hne : (w.handle o'.handle).object ≠ (w.handle o.handle).object := by
      intro heq
      have hi : (w.roots wrappers)[i]? = some (w.handle o.handle).object := by
        rw [roots, List.getElem?_map, ho]
        rfl
      have hj : (w.roots wrappers)[j]? = some (w.handle o.handle).object := by
        rw [roots, List.getElem?_map, ho', Option.map_some, heq]
      obtain ⟨hlt, -⟩ := List.getElem?_eq_some_iff.1 hi
      exact hij ((List.getElem?_inj hlt t.nodup).1 (hi.trans hj.symm))
    exact ((t.shown j o' a' ho' ha').grew c.lends.grew).edits hedits (root_mem hmem) hne

/-- A call whose code makes an error and does nothing else. -/
theorem of_failed {message : String} (t : Tracks K kind w wrappers contents)
    (c : Spans K w taken frame w₁ w') (htaken : ∀ q ∈ taken, q ∈ w.roots wrappers)
    (k : w₁.KeepsHandles w')
    (s : Heap.Shrinks 0 (w₁.heap.alloc Parcel.err (.err message)).2 w'.heap) :
    Tracks K kind w' wrappers contents := by
  have hedits : Heap.Edits ⟨0⟩ 0 w₁.heap (w₁.heap.alloc Parcel.err (.err message)).2 :=
    (Heap.Edits.refl ⟨0⟩ w₁.heap).alloc fun q hq => absurd hq List.not_mem_nil
  refine t.settle c htaken k t.length_eq hedits (fun _ _ => Multiset.notMem_zero _) (fun _ =>
    ⟨Multiset.zero_le _, fun q hq => absurd hq (Multiset.notMem_zero q)⟩) (fun i o a ho ha => ?_) s
  exact ((t.shown i o a ho ha).grew c.lends.grew).grew (.alloc Parcel.err (.err message) w₁)

/-- **A new container** joins the others. -/
theorem extend {payload : Payload} (t : Tracks K kind w wrappers contents)
    (c : Spans K w taken frame w₁ w') (htaken : ∀ q ∈ taken, q ∈ w.roots wrappers)
    (hcls : o.cls = kind.cls)
    (hobject : (w'.handle o.handle).object = (w₁.heap.alloc kind.cls payload).1)
    (howned : (w'.handle o.handle).owned = true)
    (hkeep : ∀ h, (w₁.handle h).owned = true → w'.handle h = w₁.handle h)
    (hheld : w'.held = (w₁.heap.alloc kind.cls payload).1 ::ₘ w₁.held)
    (s : Heap.Shrinks 0 (w₁.heap.alloc kind.cls payload).2 w'.heap)
    (hrefs : payload.references = []) (hmortal : kind.cls.hasImmortalInstances = false)
    (hshows : ∀ V, kind.Shows V a payload) :
    Tracks K kind w' (wrappers ++ [o]) (contents ++ [a]) := by
  have hgrew := c.lends.grew
  generalize hp : (w₁.heap.alloc kind.cls payload).1 = p at hobject hheld
  have hnew : (w₁.heap.alloc kind.cls payload).2.get? p = some (Heap.fresh kind.cls payload) :=
    hp ▸ Heap.get?_alloc_self kind.cls payload
  have hvacant : w₁.heap.get? p = none := by
    rw [← hp]
    exact Heap.get?_of_size_le le_rfl
  have hhandle : ∀ o ∈ wrappers, w'.handle o.handle = w.handle o.handle := fun o ho => by
    rw [hkeep _ (by rw [hgrew.handle_eq]; exact (t.owned o ho).1), hgrew.handle_eq]
  have hroots : w'.roots (wrappers ++ [o]) = w.roots wrappers ++ [p] := by
    rw [roots, List.map_append, ← hobject]
    exact congrArg (· ++ [(w'.handle o.handle).object]) (roots_eq hhandle)
  have hheld₁ : w₁.held = w.held := by rw [held, held, hgrew.handles_eq]
  -- the place of the new object was vacant, so no handle holds it and no slot has it
  obtain ⟨hheld_p, hslots_p⟩ := unreferenced_of_vacant c.staged hvacant
  have hedits : Heap.Edits ⟨0⟩ 0 w₁.heap (w₁.heap.alloc kind.cls payload).2 :=
    (Heap.Edits.refl ⟨0⟩ w₁.heap).alloc fun q hq => by
      rw [hrefs] at hq
      exact absurd hq List.not_mem_nil
  have hslots : w'.heap.slots 0 ≤ w₁.heap.slots 0 := by
    have hle := s.slots_le
    rw [Heap.slots_alloc kind.cls payload (Nat.zero_le _), hrefs, Multiset.coe_nil, add_zero] at hle
    exact hle
  have hnot : p ∉ w.roots wrappers := by
    intro hmem
    obtain ⟨x, hx, -⟩ := t.get?_root hmem
    obtain ⟨count, hc, -⟩ := hgrew.kept p x hx
    exact absurd (hvacant.symm.trans hc) (by simp)
  have howned' : ∀ o' ∈ wrappers ++ [o], (w'.handle o'.handle).owned = true := by
    intro o' ho'
    rcases List.mem_append.1 ho' with ho' | ho'
    · rw [hhandle o' ho']
      exact (t.owned o' ho').1
    · rw [List.mem_singleton.1 ho']
      exact howned
  constructor
  case balanced => exact c.settled
  case length_eq => rw [List.length_append, List.length_append, t.length_eq]; rfl
  case owned =>
    intro o' ho'
    refine ⟨howned' o' ho', ?_⟩
    rcases List.mem_append.1 ho' with ho' | ho'
    · exact (t.owned o' ho').2
    · rw [List.mem_singleton.1 ho', hcls]
  case nodup =>
    rw [hroots]
    refine List.Nodup.append t.nodup (List.nodup_singleton p) ?_
    exact List.disjoint_singleton.2 hnot
  case once =>
    intro q hq
    rw [hroots, List.mem_append, List.mem_singleton] at hq
    rw [hheld]
    rcases hq with hq | rfl
    · have hne : q ≠ p := ne_of_mem_of_not_mem hq hnot
      rw [Multiset.count_cons_of_ne hne, hheld₁, t.once q hq]
    · rw [Multiset.count_cons_self, Multiset.count_eq_zero_of_notMem hheld_p]
  case apart =>
    intro q hq
    rw [hroots, List.mem_append, List.mem_singleton] at hq
    rcases hq with hq | rfl
    · exact t.apart_of_spans c hedits (fun _ _ => Multiset.notMem_zero _) s hq
    · exact fun hmem => hslots_p (Multiset.mem_of_le hslots hmem)
  case shown =>
    intro i o' a' ho' ha'
    have hthere := get?_of_owned c.settled (howned' o' (List.mem_of_getElem? ho'))
    rw [hroots]
    refine ContainerKind.Has.shrinks s c.settled.orderly hthere ?_
    rw [List.getElem?_append] at ho' ha'
    rw [t.length_eq] at ha'
    split_ifs at ho' ha' with hlt
    · rw [hhandle o' (List.mem_of_getElem? ho'), ← hp]
      exact ((t.shown i o' a' ho' ha').grew hgrew).alloc kind.cls payload
    · obtain rfl := List.mem_singleton.1 (List.mem_of_getElem? ho')
      obtain rfl := List.mem_singleton.1 (List.mem_of_getElem? ha')
      rw [hobject]
      exact ⟨_, hnew, rfl, hmortal, hshows _⟩
  case sole =>
    intro hexclusive r hr y hy q hq
    rw [hroots, List.mem_append, List.mem_singleton] at hr
    rcases hr with hr | rfl
    · refine t.sole_of_spans c htaken ?_ hedits hexclusive
        ⟨Multiset.zero_le _, fun q hq => absurd hq (Multiset.notMem_zero q)⟩ s hr hy hq
      rintro x ⟨z, hz⟩
      have hne : x ≠ p := by
        rintro rfl
        exact absurd (hvacant.symm.trans hz) (by simp)
      rw [hheld, Multiset.count_cons_of_ne hne]
    · obtain ⟨count, hc, -⟩ := s.of_get? hy
      obtain ⟨-, -, -, hpayload⟩ := Obj.mk.inj (Option.some.inj (hc.symm.trans hnew))
      rw [hpayload, hrefs] at hq
      exact absurd hq List.not_mem_nil

end Tracks

end World

end Interop

/-
# Results that are converted

What native code returns or throws is turned into something of the host, and the references
that it hands over stay balanced whether this succeeds or is refused: a handle keeps a
reference for as long as the conversion takes, every object that is wrapped gets a reference
of its own, and when a later one cannot be had the earlier wrappers are dropped again.

`World.Leads` states what holds after a step for both of its endings.  Copying a value only
meets objects that are there (`Conversion.exists_of_planFor`), since an orderly heap has all
objects to which payloads refer.
-/

import Interop.ExceptionMap
import Interop.Proofs.Native.Convention
import Interop.Proofs.Ownership.Balanced

namespace Interop

namespace World

/-! ### Steps with two endings -/

/-- The step ends with `ok`, or it is refused and ends with `refused`. -/
def Leads {ε α : Type} (ok : α → World → Prop) (refused : World → Prop) (x : EStateM ε World α)
    (w : World) : Prop :=
  match x w with
  | .ok a w' => ok a w'
  | .error _ w' => refused w'

/-- Objects that are there in `w` are there in `w'`. -/
def Persists (w w' : World) : Prop :=
  ∀ p o, w.heap.get? p = some o → ∃ o', w'.heap.get? p = some o'

/-- Everything in a world persists there. -/
theorem Persists.refl (w : World) : Persists w w :=
  fun _ o ho => ⟨o, ho⟩

/-- What persists twice persists. -/
theorem Persists.trans {a b c : World} (h : Persists a b) (h' : Persists b c) : Persists a c := by
  intro p o ho
  obtain ⟨o', ho'⟩ := h p o ho
  exact h' p o' ho'

namespace Leads

variable {ε α β : Type} {ok ok' : α → World → Prop} {okb : β → World → Prop}
  {refused : World → Prop} {x : EStateM ε World α} {w : World}

/-- A value leads where it has to. -/
theorem pure {a : α} (h : ok a w) : Leads ok refused (pure a : EStateM ε World α) w := h

/-- A failure leads where it has to. -/
theorem throw {e : ε} (h : refused w) : Leads ok refused (throw e : EStateM ε World α) w := h

/-- The second step leads on from where the first led. -/
theorem bind {f : α → EStateM ε World β}
    (hx : Leads (fun a w' => Leads okb refused (f a) w') refused x w) :
    Leads okb refused (x >>= f) w := by
  unfold Leads at hx ⊢
  rw [Steps.bind_apply]
  rcases hrun : x w with ⟨a, w'⟩ | ⟨e, w'⟩ <;> rw [hrun] at hx
  · exact hx
  · exact hx

/-- What leads to a property leads to all that follow from it. -/
theorem mono (hx : Leads ok refused x w) (h : ∀ a w', ok a w' → ok' a w') :
    Leads ok' refused x w := by
  unfold Leads at hx ⊢
  rcases hrun : x w with ⟨a, w'⟩ | ⟨e, w'⟩ <;> rw [hrun] at hx
  · exact h a w' hx
  · exact hx

/-- A change of the world. -/
theorem change {ok : PUnit → World → Prop} {f : World → World} (h : ok ⟨⟩ (f w)) :
    Leads ok refused (modify f : EStateM ε World PUnit) w := h

/-- What is tidied after a refusal. -/
theorem onRefusal {x : CheckM α} {cleanup : World → World} {Q : World → Prop}
    (hx : Leads ok Q x w) (h : ∀ w', Q w' → refused (cleanup w')) :
    Leads ok refused (World.onRefusal x cleanup) w := by
  unfold Leads at hx ⊢
  rw [onRefusal_apply]
  rcases hrun : x w with ⟨a, w'⟩ | ⟨e, w'⟩ <;> rw [hrun] at hx
  · exact hx
  · exact h w' hx

/-- A refusal that is raised as an exception. -/
theorem check {x : CheckM α} (hx : Leads ok refused x w) : Leads ok refused (HostM.check x) w := by
  unfold Leads at hx ⊢
  rw [HostM.check_apply]
  rcases hrun : x w with ⟨a, w'⟩ | ⟨e, w'⟩ <;> rw [hrun] at hx
  · exact hx
  · exact hx

/-- A step within a frame of the traceback leads where it did. -/
theorem inFrame {x : HostM α} (label : String) (hx : Leads ok refused x w) :
    Leads ok refused (HostM.inFrame label x) w := by
  unfold Leads at hx ⊢
  rw [HostM.inFrame_apply]
  rcases hrun : x w with ⟨a, w'⟩ | ⟨e, w'⟩ <;> rw [hrun] at hx
  · exact hx
  · exact hx

/-- What is done in any case. -/
theorem closing {x : HostM α} {cleanup : World → World} {Q : World → Prop}
    (hx : Leads (fun _ => Q) Q x w) (h : ∀ w', Q w' → refused (cleanup w')) :
    Leads (fun _ => refused) refused (HostM.closing x cleanup) w := by
  unfold Leads at hx ⊢
  rw [HostM.closing_apply]
  rcases hrun : x w with ⟨a, w'⟩ | ⟨e, w'⟩ <;> rw [hrun] at hx
  · exact h w' hx
  · exact h w' hx

end Leads

variable {K : Class → Prop} {extra : Multiset ObjId} {w : World} {p : ObjId} {h : HandleId}

/-- A reference to an object that is there, if it can be had. -/
theorem Balanced.retain_leads (b : Balanced K extra w) {o : Obj} (ho : w.heap.get? p = some o) :
    Leads (fun _ w' => Balanced K (p ::ₘ extra) w' ∧ Persists w w') (Balanced K extra)
      (World.retain p) w := by
  unfold Leads
  rw [retain_apply]
  rcases hr : w.heap.retain p with e | heap
  · exact b
  · refine ⟨b.retain ho hr, fun q x hx => ?_⟩
    obtain ⟨count, hc⟩ := Heap.get?_of_retain hr hx
    exact ⟨_, hc⟩

/-- A wrapper for an object that is there, if a reference can be had. -/
theorem Balanced.wrap_leads (b : Balanced K extra w) {o : Obj} (ho : w.heap.get? p = some o) :
    Leads (fun _ w' => Balanced K extra w' ∧ Persists w w') (Balanced K extra)
      (Wrapper.wrap p) w := by
  refine .bind (.bind ((b.retain_leads ho).mono ?_))
  rintro _ w' ⟨b', hpersists⟩
  exact ⟨b'.acquire, hpersists⟩

/-- **A handle is released,** or the release is refused. -/
theorem Balanced.release_leads (b : Balanced K extra w) (m : Machine) :
    Leads (fun _ => Balanced K extra) (Balanced K extra) (Handle.release m h) w := by
  have hlog : ∀ {w' : World}, w'.heap = w.heap → w'.handles = w.handles → Balanced K extra w' :=
    fun hheap hhandles => b.of_moves hhandles (hheap ▸ b.moves_refl)
  refine .bind ?_
  show Leads _ _ (if (w.handle h).owned then modify (Handle.surrender m h)
    else Handle.releaseAgain (w.handle h)) w
  split_ifs with howned
  · exact .change (b.surrender howned m)
  · unfold Handle.releaseAgain
    split
    · exact .bind (.change (.throw (hlog rfl rfl)))
    · exact .change (hlog rfl rfl)

end World

namespace Value

variable {ω : Type} {o : ω}

/-- A wrapper in a list is in one of its values. -/
theorem mem_objectsOfList {items : List (Value ω)} (ho : o ∈ objectsOfList items) :
    ∃ v ∈ items, o ∈ v.objects := by
  induction items with
  | nil => exact absurd ho List.not_mem_nil
  | cons v rest ih =>
    rcases List.mem_append.1 ho with ho | ho
    · exact ⟨v, List.mem_cons_self, ho⟩
    · obtain ⟨x, hx, hox⟩ := ih ho
      exact ⟨x, List.mem_cons_of_mem v hx, hox⟩

/-- A wrapper in a dictionary is in one of its values. -/
theorem mem_objectsOfEntries {entries : List (String × Value ω)}
    (ho : o ∈ objectsOfEntries entries) : ∃ e ∈ entries, o ∈ e.2.objects := by
  induction entries with
  | nil => exact absurd ho List.not_mem_nil
  | cons e rest ih =>
    rcases List.mem_append.1 ho with ho | ho
    · exact ⟨e, List.mem_cons_self, ho⟩
    · obtain ⟨x, hx, hox⟩ := ih ho
      exact ⟨x, List.mem_cons_of_mem e hx, hox⟩

end Value

namespace Conversion

open World

variable {K : Class → Prop} {extra owned : Multiset ObjId} {h : Heap} {w : World} {p q : ObjId}

/-- **Copying only meets objects that are there,** however deep it goes. -/
theorem exists_of_copyPlan (d : h.Orderly K owned) (depth : Nat) :
    ∀ {path : List ObjId} {p : ObjId}, (∃ o, h.get? p = some o) →
      ∀ q ∈ (copyPlan h depth path p).objects, ∃ x, h.get? q = some x := by
  -- induction on the depth; what an object refers to is there because the heap is orderly
  induction depth with
  | zero =>
    intro path p hp q hq
    obtain rfl := List.mem_singleton.1 hq
    exact hp
  | succ depth ih =>
    rintro path p ⟨o, ho⟩ q hq
    rw [copyPlan, Heap.obj_of_get? ho] at hq
    rcases hpay : o.payload with _ | _ | _ | _ | _ | entries | elements | _ <;>
      simp only [hpay] at hq
    case hash =>
      split_ifs at hq
      · obtain rfl := List.mem_singleton.1 hq
        exact ⟨o, ho⟩
      · obtain ⟨e, he, hq⟩ := Value.mem_objectsOfEntries hq
        obtain ⟨x, hx, rfl⟩ := List.mem_map.1 he
        refine ih (d.get?_of_reference ho ?_) q hq
        rw [hpay]
        exact List.mem_map_of_mem hx
    case vector =>
      split_ifs at hq
      · obtain rfl := List.mem_singleton.1 hq
        exact ⟨o, ho⟩
      · obtain ⟨v, hv, hq⟩ := Value.mem_objectsOfList hq
        obtain ⟨x, hx, rfl⟩ := List.mem_map.1 hv
        rcases x with _ | x
        · exact absurd hq List.not_mem_nil
        · refine ih (d.get?_of_reference ho ?_) q hq
          rw [hpay]
          exact List.mem_filterMap.2 ⟨some x, hx, rfl⟩
    case empty =>
      obtain rfl := List.mem_singleton.1 hq
      exact ⟨o, ho⟩
    case err =>
      obtain rfl := List.mem_singleton.1 hq
      exact ⟨o, ho⟩
    all_goals exact absurd hq List.not_mem_nil

mutual

/-- **Wrapping the leaves** of a plan: a wrapper for each, or none at all. -/
theorem wrapLeaves_leads (m : Machine) :
    ∀ (v : Value ObjId) {w : World}, Balanced K extra w →
      (∀ q ∈ v.objects, ∃ x, w.heap.get? q = some x) →
      Leads (fun _ w' => Balanced K extra w' ∧ Persists w w') (Balanced K extra) (wrapLeaves m v) w
  | .null, _, b, _ => .pure ⟨b, .refl _⟩
  | .bool _, _, b, _ => .pure ⟨b, .refl _⟩
  | .int _, _, b, _ => .pure ⟨b, .refl _⟩
  | .float _, _, b, _ => .pure ⟨b, .refl _⟩
  | .str _, _, b, _ => .pure ⟨b, .refl _⟩
  | .object p, _, b, hthere => by
    obtain ⟨x, hx⟩ := hthere p (List.mem_singleton_self p)
    exact .bind ((b.wrap_leads hx).mono fun _ _ hw => .pure hw)
  | .list items, _, b, hthere =>
    .bind ((wrapList_leads m items b hthere).mono fun _ _ hw => .pure hw)
  | .dict entries, _, b, hthere =>
    .bind ((wrapEntries_leads m entries b hthere).mono fun _ _ hw => .pure hw)

/-- The elements of a list join those that are wrapped. -/
theorem wrapList_leads (m : Machine) :
    ∀ (items : List (Value ObjId)) {done : List HostValue} {w : World}, Balanced K extra w →
      (∀ q ∈ Value.objectsOfList items, ∃ x, w.heap.get? q = some x) →
      Leads (fun _ w' => Balanced K extra w' ∧ Persists w w') (Balanced K extra)
        (wrapList m done items) w
  | [], _, _, b, _ => .pure ⟨b, .refl _⟩
  | v :: rest, done, w, b, hthere => by
    have hv := wrapLeaves_leads m v b fun q hq => hthere q (List.mem_append_left _ hq)
    refine .bind ((Leads.onRefusal hv fun w' b' => b'.dropValue m (.list done)).mono ?_)
    rintro x w₁ ⟨b₁, hpersists⟩
    have hrest : ∀ q ∈ Value.objectsOfList rest, ∃ x, w₁.heap.get? q = some x := by
      intro q hq
      obtain ⟨x, hx⟩ := hthere q (List.mem_append_right _ hq)
      exact hpersists q x hx
    refine (wrapList_leads m rest b₁ hrest).mono ?_
    exact fun _ w₂ hw => ⟨hw.1, hpersists.trans hw.2⟩

/-- The values of a dict join those that are wrapped. -/
theorem wrapEntries_leads (m : Machine) :
    ∀ (entries : List (String × Value ObjId)) {done : List (String × HostValue)} {w : World},
      Balanced K extra w →
      (∀ q ∈ Value.objectsOfEntries entries, ∃ x, w.heap.get? q = some x) →
      Leads (fun _ w' => Balanced K extra w' ∧ Persists w w') (Balanced K extra)
        (wrapEntries m done entries) w
  | [], _, _, b, _ => .pure ⟨b, .refl _⟩
  | e :: rest, done, w, b, hthere => by
    have hv := wrapLeaves_leads m e.2 b fun q hq => hthere q (List.mem_append_left _ hq)
    refine .bind ((Leads.onRefusal hv fun w' b' => b'.dropValue m (.dict done)).mono ?_)
    rintro x w₁ ⟨b₁, hpersists⟩
    have hrest : ∀ q ∈ Value.objectsOfEntries rest, ∃ x, w₁.heap.get? q = some x := by
      intro q hq
      obtain ⟨x, hx⟩ := hthere q (List.mem_append_right _ hq)
      exact hpersists q x hx
    refine (wrapEntries_leads m rest b₁ hrest).mono ?_
    exact fun _ w₂ hw => ⟨hw.1, hpersists.trans hw.2⟩

end

/-- The host value of an object that is there. -/
theorem objectToHost_leads (m : Machine) (b : Balanced K extra w)
    (hp : ∃ o, w.heap.get? p = some o) :
    Leads (fun _ => Balanced K extra) (Balanced K extra) (objectToHost m p) w :=
  .bind ((wrapLeaves_leads m (planFor w.heap p) b (exists_of_copyPlan b.orderly _ hp)).mono
    fun _ _ hw => hw.1)

/-- What a result hands over is owned, and a borrowed object is there. -/
def Received (K : Class → Prop) (extra : Multiset ObjId) (ret : Ret) (w : World) : Prop :=
  Balanced K (ret.handed + extra) w ∧ ∀ p, ret = .borrowed p → ∃ o, w.heap.get? p = some o

/-- **The host value of a result** takes care of the reference that the result hands over. -/
theorem toHost_leads (m : Machine) {ret : Ret} (r : Received K extra ret w) :
    Leads (fun _ => Balanced K extra) (Balanced K extra) (toHost m ret) w := by
  obtain ⟨b, hborrowed⟩ := r
  have hnone : ret.handed = 0 → Balanced K extra w := by
    intro hzero
    rw [hzero, zero_add] at b
    exact b
  cases ret with
  | incremented p =>
    have b₁ : Balanced K (p ::ₘ extra) w := b
    obtain ⟨o, ho⟩ := b₁.orderly.get?_of_mem (p := p)
      (Multiset.mem_add.2 (Or.inl (Multiset.mem_cons_self p extra)))
    have hcopy := objectToHost_leads m b₁.acquire ⟨o, ho⟩
    refine .bind (.bind ((Leads.onRefusal hcopy fun w' b' => b'.drop m).mono fun v w' b' => ?_))
    exact .bind (.change (.pure (b'.drop m)))
  | borrowed p => exact objectToHost_leads m (hnone rfl) (hborrowed p rfl)
  | pointer address => exact .throw (hnone rfl)
  | _ => exact .pure (hnone rfl)

/-- **The wrapper of a result** takes care of the reference that the result hands over. -/
theorem toWrapper_leads {ret : Ret} (r : Received K extra ret w) :
    Leads (fun _ => Balanced K extra) (Balanced K extra) (toWrapper ret) w := by
  obtain ⟨b, hborrowed⟩ := r
  have hnone : ret.handed = 0 → Balanced K extra w := by
    intro hzero
    rw [hzero, zero_add] at b
    exact b
  cases ret with
  | incremented p =>
    have b₁ : Balanced K (p ::ₘ extra) w := b
    exact b₁.acquire
  | borrowed p =>
    obtain ⟨o, ho⟩ := hborrowed p rfl
    exact ((hnone rfl).wrap_leads ho).mono fun _ _ hw => hw.1
  | _ => exact .throw (hnone rfl)

end Conversion

/-- **The exception for a thrown error** takes care of the reference to the error. -/
theorem ExceptionMap.toException_balanced {K : Class → Prop} {extra : Multiset ObjId} {w : World}
    (exceptions : ExceptionMap) (m : Machine) {t : Thrown}
    (b : World.Balanced K (t.object ::ₘ extra) w) :
    World.Balanced K extra (exceptions.toException m t w).2 := by
  have b' := b.release m
  exact b'.of_moves rfl b'.moves_refl

end Interop

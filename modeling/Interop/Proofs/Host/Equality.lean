/-
# Equality of host values

Two wrappers are equal when they share a handle or when both own a reference to the same object.
That reads like two tests, but they are one comparison: what a wrapper stands for
(`Wrapper.identity`) is its object as long as its reference is owned, and its handle from then on,
and wrappers are equal just when they stand for the same (`Wrapper.same_iff`).  Equality of values
without floats is then equality of the values in which each wrapper is replaced by what it stands
for (`Value.equal_iff`), however deep lists and dicts are nested.  A float is left out because one
that is no number differs from itself.

So both are equivalence relations in every world (`Wrapper.same_equivalence`,
`HostValue.equal_equivalence`).
-/

import Interop.Proofs.Conversion.Wrapping

namespace Interop

namespace Value

variable {ω ω' : Type}

mutual

/-- No float stands in the value. -/
def FloatFree : Value ω → Prop
  | float _ => False
  | list items => FloatFreeList items
  | dict entries => FloatFreeEntries entries
  | _ => True

/-- No float stands in the values of a list. -/
def FloatFreeList : List (Value ω) → Prop
  | [] => True
  | v :: rest => v.FloatFree ∧ FloatFreeList rest

/-- No float stands in the values of a dict. -/
def FloatFreeEntries : List (String × Value ω) → Prop
  | [] => True
  | e :: rest => e.2.FloatFree ∧ FloatFreeEntries rest

end

section

variable {same : ω → ω → Bool} {f : ω → ω'}

mutual

/-- **Values are equal when they are the same but for equal objects,** if the first has no
float. -/
theorem equal_iff (hsame : ∀ x y, same x y = true ↔ f x = f y) :
    ∀ {a b : Value ω}, a.FloatFree → (a.equal same b = true ↔ a.map f = b.map f)
  | .null, b, _ => by cases b <;> simp [equal, map]
  | .bool _, b, _ => by cases b <;> simp [equal, map]
  | .int _, b, _ => by cases b <;> simp [equal, map]
  | .float _, _, hfree => hfree.elim
  | .str _, b, _ => by cases b <;> simp [equal, map]
  | .list items, b, hfree => by
    cases b with
    | list others =>
      simp only [equal, map, list.injEq]
      exact equalLists_iff hsame hfree
    | _ => simp [equal, map]
  | .dict entries, b, hfree => by
    cases b with
    | dict others =>
      simp only [equal, map, dict.injEq]
      exact equalEntries_iff hsame hfree
    | _ => simp [equal, map]
  | .object _, b, _ => by cases b <;> simp [equal, map, hsame]

/-- Lists without floats are equal just when they are mapped to the same list. -/
theorem equalLists_iff (hsame : ∀ x y, same x y = true ↔ f x = f y) :
    ∀ {as bs : List (Value ω)}, FloatFreeList as →
      (equalLists same as bs = true ↔ mapList f as = mapList f bs)
  | [], bs, _ => by cases bs <;> simp [equalLists, mapList]
  | a :: as, bs, ⟨ha, has⟩ => by
    cases bs with
    | nil => simp [equalLists, mapList]
    | cons b bs =>
      rw [equalLists, mapList, mapList, Bool.and_eq_true, List.cons.injEq, equal_iff hsame ha,
        equalLists_iff hsame has]

/-- Dictionaries without floats are equal just when they are mapped to the same dictionary. -/
theorem equalEntries_iff (hsame : ∀ x y, same x y = true ↔ f x = f y) :
    ∀ {as bs : List (String × Value ω)}, FloatFreeEntries as →
      (equalEntries same as bs = true ↔ mapEntries f as = mapEntries f bs)
  | [], bs, _ => by cases bs <;> simp [equalEntries, mapEntries]
  | a :: as, bs, ⟨ha, has⟩ => by
    cases bs with
    | nil => simp [equalEntries, mapEntries]
    | cons b bs =>
      rw [equalEntries, mapEntries, mapEntries, Bool.and_eq_true, Bool.and_eq_true, beq_iff_eq,
        List.cons.injEq, Prod.mk.injEq, equal_iff hsame ha,
        equalEntries_iff hsame has]

end

/-- Values without floats are equal as an equivalence relation if objects are. -/
theorem equal_equivalence (hsame : ∀ x y, same x y = true ↔ f x = f y) :
    Equivalence fun a b : { v : Value ω // v.FloatFree } => a.1.equal same b.1 = true := by
  have heq : ∀ a b : { v : Value ω // v.FloatFree },
      a.1.equal same b.1 = true ↔ a.1.map f = b.1.map f := fun a _ => equal_iff hsame a.2
  constructor
  case refl => exact fun a => (heq a a).2 rfl
  case symm => exact fun {a b} h => (heq b a).2 ((heq a b).1 h).symm
  case trans => exact fun {a b c} h h' => (heq a c).2 (((heq a b).1 h).trans ((heq b c).1 h'))

end

end Value

namespace Wrapper

/-- What a wrapper stands for: its object, or its handle once the reference is gone. -/
def identity (w : World) (a : Wrapper) : HandleId ⊕ ObjId :=
  if (w.handle a.handle).owned then .inr (w.handle a.handle).object else .inl a.handle

/-- **Wrappers are equal when they stand for the same.** -/
theorem same_iff (w : World) (a b : Wrapper) :
    same w a b = true ↔ a.identity w = b.identity w := by
  have hsame : same w a b = true ↔ a.handle = b.handle ∨ (w.handle a.handle).owned = true ∧
      (w.handle b.handle).owned = true ∧
        (w.handle a.handle).object = (w.handle b.handle).object := by
    simp [same, and_assoc]
  rw [hsame, identity, identity]
  by_cases hab : a.handle = b.handle
  · simp [hab]
  · cases (w.handle a.handle).owned <;> cases (w.handle b.handle).owned <;> simp [hab]

/-- Sameness of wrappers is an equivalence. -/
theorem same_equivalence (w : World) : Equivalence fun a b => same w a b = true := by
  simp only [same_iff]
  exact ⟨fun _ => rfl, Eq.symm, Eq.trans⟩

end Wrapper

/-- Equality of host values without floats, in any world. -/
theorem HostValue.equal_equivalence (w : World) :
    Equivalence fun a b : { v : HostValue // v.FloatFree } => HostValue.equal w a.1 b.1 = true :=
  Value.equal_equivalence (Wrapper.same_iff w)

end Interop

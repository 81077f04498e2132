/-
# Classes that keep the convention

Native code is trusted with references: what it returns `incremented` or throws hands over
exactly one, what it returns `borrowed` hands over none, and it leaves all payloads alone.
`Method.Conventional` says so of one method, with a ledger.

A class can be trusted when it is built on one of the core parcel without a constructor of
its own, and its own methods keep this convention; a `Family` is a set of such classes.
Every method that is declared in the ancestry of such a class, but for the one that gives
back a reference that it was only lent, keeps the heap orderly (`Family.method_safely`), and
so does the one constructor in that ancestry (`Family.maker_safely`).
-/

import Interop.Call.Trapped
import Interop.Proofs.Native.Keeping

namespace Interop

/-- The reference that a result hands over. -/
def Ret.handed : Ret → Multiset ObjId
  | .incremented p => {p}
  | _ => 0

/-- The receiver of the frame is there and descends from `a`, and its arguments are there. -/
structure Frame.Standing (frame : Frame) (a : Class) (h : Heap) : Prop where
  receiver : ∀ p, frame.receiver = some p → ∃ o, h.get? p = some o ∧ a ∈ o.cls.ancestry
  args : ∀ p, Arg.object p ∈ frame.args → ∃ o, h.get? p = some o

/-- From `h` to `h'` the references in `handed` were added, and proper objects were made. -/
structure Heap.HandsOver (K : Class → Prop) (h : Heap) (handed : Multiset ObjId) (h' : Heap) :
    Prop where
  ledger : Ledger h handed h'
  proper : ∀ p o, h.cells.size ≤ p.index → h'.get? p = some o → o.Proper K

/-- The method, which the class `a` declares, keeps the convention on all orderly heaps: a
result and an error hand over exactly the reference that they say they do, a borrowed object
is there, and payloads stay as they are. -/
def Method.Conventional (machine : Machine) (K : Class → Prop) (a : Class) (method : Method) :
    Prop :=
  ∀ (cls : Class) (frame : Frame) (native : NativeM Ret),
    Call.codeFor machine.image method.code cls frame = some native →
    ∀ (owned : Multiset ObjId) (h : Heap) (global : Registry), h.Orderly K owned →
      frame.Standing a h →
      match native (machine.env global) h with
      | .ok ret h' => h.HandsOver K ret.handed h' ∧ ∀ p, ret = .borrowed p → ∃ o, h'.get? p = some o
      | .error t h' => h.HandsOver K {t.object} h'

/-- The class is built on one of the core parcel, and the methods that it and its ancestors
declare beside those of the core parcel keep the convention. -/
structure Class.Trusted (machine : Machine) (K : Class → Prop) (c : Class) : Prop where
  offspring : ∃ root, Offspring root c
  conventional : ∀ a ∈ c.ancestry, a ∉ Parcel.classes → ∀ method ∈ a.ownMethods,
    method.Conventional machine K a

/-- The classes in `K` can be trusted, and those of the core parcel are among them. -/
structure Family (machine : Machine) (K : Class → Prop) : Prop where
  core : ∀ c ∈ Parcel.classes, K c
  trusted : ∀ c, K c → c.Trusted machine K

namespace Parcel

/-! ### The tables of the core parcel -/

/-- Whether the code of a method or function of the class `a` is of the core parcel, gives
back nothing that it was lent, and adds to containers only if `a` is their class. -/
def isKept (a : Class) (m : Method) : Bool :=
  match m.code with
  | .onObject (.core .objectRelease) => false
  | .onObject (.core .hashStore) => a == hash
  | .onObject (.core .vectorPush) => a == vector
  | .onObject (.core .vectorPushAll) => a == vector
  | .onObject (.core _) => true
  | .onNothing (.core _) => true
  | _ => false

/-- Whether the code of a constructor makes payloads for the class `a`. -/
def isOwnMaker (a : Class) (m : Method) : Bool :=
  match m.code with
  | .onClass (.core op) => makerHome op == a
  | _ => false

/-- All code of the core parcel but one gives back nothing that it was lent, and adds to
containers of its own class only. -/
theorem isKept_of_ownMethods :
    ∀ a ∈ classes, ∀ m ∈ a.ownMethods, m.name ≠ "Dec_RefCount" → isKept a m = true := by
  decide +kernel

/-- The constructors of the core parcel make the payloads of their classes. -/
theorem isOwnMaker_of_maker :
    ∀ a ∈ classes, ∀ m ∈ a.maker.toList, isOwnMaker a m = true := by
  decide +kernel

/-- Hashes have a constructor. -/
theorem maker_hash : hash.maker ≠ none := by
  decide +kernel

/-- Vectors have a constructor. -/
theorem maker_vector : vector.maker ≠ none := by
  decide +kernel

/-- The payload of a hash has entries. -/
theorem hash_of_home {payload : Payload} (h : payload.home = hash) :
    ∃ entries, payload = .hash entries := by
  cases payload with
  | hash entries => exact ⟨entries, rfl⟩
  | _ => exact absurd h (by simp only [Payload.home]; decide)

/-- The payload of a vector has elements. -/
theorem vector_of_home {payload : Payload} (h : payload.home = vector) :
    ∃ elements, payload = .vector elements := by
  cases payload with
  | vector elements => exact ⟨elements, rfl⟩
  | _ => exact absurd h (by simp only [Payload.home]; decide)

/-- The receiver of a method that adds to containers holds one. -/
theorem suits_of_isKept {a : Class} {m : Method} {op : CoreMethod} {o : Obj}
    (hkept : isKept a m = true) (hcode : m.code = .onObject (.core op))
    (hoff : Offspring o.payload.home o.cls) (ha : a ∈ o.cls.ancestry) : Suits o.payload op := by
  have hroot : ∀ b : Class, b.maker ≠ none → (a == b) = true → o.payload.home = b := by
    intro b hmaker hab
    obtain ⟨x, hx⟩ := Option.ne_none_iff_exists'.1 hmaker
    rw [beq_iff_eq] at hab
    subst hab
    exact (hoff.eq_root_of_maker ha hx).symm
  rw [isKept, hcode] at hkept
  cases op with
  | hashStore => exact hash_of_home (hroot hash maker_hash hkept)
  | vectorPush => exact vector_of_home (hroot vector maker_vector hkept)
  | vectorPushAll => exact vector_of_home (hroot vector maker_vector hkept)
  | _ => trivial

end Parcel

/-- The classes of the core parcel can be trusted. -/
theorem Class.Trusted.of_core {machine : Machine} {K : Class → Prop} {c : Class}
    (hc : c ∈ Parcel.classes) : c.Trusted machine K where
  offspring := ⟨c, .self hc⟩
  conventional a ha hnot := absurd (Parcel.mem_classes_of_ancestry c hc a ha) hnot

/-- An ancestor of an ancestor is an ancestor. -/
theorem Class.ancestry_trans {a b c : Class} (hb : b ∈ c.ancestry) (ha : a ∈ b.ancestry) :
    a ∈ c.ancestry := by
  induction c with
  | root record =>
    obtain rfl := List.mem_singleton.1 hb
    exact ha
  | extend record parent ih =>
    rcases List.mem_cons.1 hb with rfl | hb
    · exact ha
    · exact List.mem_cons_of_mem _ (ih hb)

/-- A frame that stands for a class stands for its ancestors. -/
theorem Frame.Standing.mono {frame : Frame} {a cls : Class} {h : Heap}
    (s : frame.Standing cls h) (ha : a ∈ cls.ancestry) : frame.Standing a h where
  receiver p hp := by
    obtain ⟨o, ho, hcls⟩ := s.receiver p hp
    exact ⟨o, ho, Class.ancestry_trans hcls ha⟩
  args := s.args

namespace Family

variable {f : Footing} {h : Heap} {a cls : Class} {method : Method} {frame : Frame}
  {native : NativeM Ret}

/-- What keeps the convention keeps the heap orderly. -/
theorem safely_of_conventional (hm : method.Conventional f.machine f.known a)
    (hcode : Call.codeFor f.machine.image method.code cls frame = some native)
    (m : f.Holds f.owned h) (hframe : frame.Standing a h) : f.Safely f.Returned native h := by
  intro global
  have hrun := hm cls frame native hcode f.owned h global m.orderly hframe
  rcases hend : native (f.machine.env global) h with ⟨ret, h'⟩ | ⟨t, h'⟩ <;> rw [hend] at hrun
  · obtain ⟨hover, hborrowed⟩ := hrun
    have m' := m.added hover.ledger hover.proper
    have hnone : ret.handed = 0 → f.Holds f.owned h' := by
      intro hzero
      rw [hzero, zero_add] at m'
      exact m'
    cases ret with
    | incremented p => exact m'
    | borrowed p => exact ⟨hnone rfl, hborrowed p rfl⟩
    | _ => exact hnone rfl
  · exact m.added hrun.ledger hrun.proper

/-- **Methods and functions** that are declared in the ancestry of a class of the family keep
the heap orderly. -/
theorem method_safely (fam : Family f.machine f.known) (hK : f.known cls)
    (ha : a ∈ cls.ancestry) (hm : method ∈ a.ownMethods) (hname : method.name ≠ "Dec_RefCount")
    (hcode : Call.codeFor f.machine.image method.code cls frame = some native)
    (m : f.Holds f.owned h) (hcls : frame.Standing cls h) : f.Safely f.Returned native h := by
  have hframe := hcls.mono ha
  by_cases hcore : a ∈ Parcel.classes
  · have hkept := Parcel.isKept_of_ownMethods a hcore method hm hname
    rcases hof : method.code with ⟨op | symbol⟩ | ⟨op | symbol⟩ | ⟨op | symbol⟩ <;>
      rw [hof] at hcode
    case onObject.core =>
      obtain ⟨p, hp, rfl⟩ := Option.map_eq_some_iff.1 hcode
      obtain ⟨o, ho, hao⟩ := hframe.receiver p hp
      have hsuits := Parcel.suits_of_isKept hkept hof (m.orderly.proper p o ho).offspring hao
      refine Parcel.runMethod_safely m ho hframe.args hsuits ?_
      rintro rfl
      rw [Parcel.isKept, hof] at hkept
      exact absurd hkept (by simp)
    case onNothing.core =>
      obtain rfl := Option.some.inj hcode
      exact Parcel.runFunction_safely m hframe.args
    all_goals
      rw [Parcel.isKept, hof] at hkept
      exact absurd hkept (by simp)
  · have hown := (fam.trusted cls hK).conventional a ha hcore method hm
    exact safely_of_conventional hown hcode m hframe

/-- **The constructor** in the ancestry of a class of the family makes objects of that class
and keeps the heap orderly. -/
theorem maker_safely (fam : Family f.machine f.known) (hK : f.known cls)
    (ha : a ∈ cls.ancestry) (hmaker : a.maker = some method)
    (hcode : Call.codeFor f.machine.image method.code cls frame = some native)
    (m : f.Holds f.owned h) : f.Safely f.Returned native h := by
  obtain ⟨root, hoff⟩ := (fam.trusted cls hK).offspring
  obtain rfl := hoff.eq_root_of_maker ha hmaker
  have hown := Parcel.isOwnMaker_of_maker a hoff.root_mem method
    (Option.mem_toList.2 (Option.mem_def.2 hmaker))
  rcases hof : method.code with ⟨op | symbol⟩ | ⟨op | symbol⟩ | ⟨op | symbol⟩ <;>
    rw [Parcel.isOwnMaker, hof] at hown
  case onClass.core =>
    rw [hof] at hcode
    obtain rfl := Option.some.inj hcode
    rw [beq_iff_eq] at hown
    exact Parcel.runConstructor_safely m hK (hown ▸ hoff)
  all_goals exact absurd hown (by simp)

end Family

end Interop

/-
# Reading signatures

One token is read at a time; `TypeSpec.read?_length_lt` says that a token takes
at least one character, which ends the loop over the parameters.  A text that is
no signature is reported whole, wherever it goes wrong.
-/

import Interop.Error
import Interop.Signature.Basic

namespace Interop

/-- The characters before the first `>` and those after it. -/
def readUntilClose : List Char → Option (List Char × List Char)
  | [] => none
  | c :: rest =>
    if c = '>' then some ([], rest)
    else (readUntilClose rest).map fun p => (c :: p.1, p.2)

/-- Reading a name consumes its closing bracket. -/
theorem readUntilClose_length_le {cs name rest : List Char}
    (h : readUntilClose cs = some (name, rest)) : rest.length < cs.length := by
  induction cs generalizing name with
  | nil => simp [readUntilClose] at h
  | cons c cs ih =>
    simp only [readUntilClose] at h
    split at h
    · obtain ⟨-, rfl⟩ := Prod.mk.inj (Option.some.inj h)
      simp
    · obtain ⟨p, hp, he⟩ := Option.map_eq_some_iff.1 h
      obtain ⟨-, rfl⟩ := Prod.mk.inj he
      have := ih hp
      simp only [List.length_cons]
      omega

/-- The kind that a letter stands for, objects apart. -/
def TypeKind.ofLetter? : Char → Option TypeKind
  | 'B' => some .bool
  | 'c' => some (.int .i8)
  | 's' => some (.int .i16)
  | 'i' => some (.int .i32)
  | 'q' => some (.int .i64)
  | 'C' => some (.int .u8)
  | 'z' => some (.int .usize)
  | 'd' => some .float
  | 'T' => some .text
  | '^' => some .pointer
  | _ => none

/-- The class that an object token asks for, read after its `@`. -/
def readConstraint? : List Char → Option (Option String × List Char)
  | [] => some (none, [])
  | c :: rest =>
    if c = '<' then
      match readUntilClose rest with
      | none => none
      | some (name, rest) => if name.isEmpty then none else some (some (String.ofList name), rest)
    else some (none, c :: rest)

/-- Reading a constraint never puts anything back. -/
theorem readConstraint?_length_le {cs rest : List Char} {constraint : Option String}
    (h : readConstraint? cs = some (constraint, rest)) : rest.length ≤ cs.length := by
  cases cs with
  | nil =>
    obtain ⟨-, rfl⟩ := Prod.mk.inj (Option.some.inj h)
    simp
  | cons c cs =>
    simp only [readConstraint?] at h
    split at h
    · split at h
      · simp at h
      · rename_i hr
        split at h
        · simp at h
        · obtain ⟨-, rfl⟩ := Prod.mk.inj (Option.some.inj h)
          have := readUntilClose_length_le hr
          simp only [List.length_cons]
          omega
    · obtain ⟨-, rfl⟩ := Prod.mk.inj (Option.some.inj h)
      simp

/-- The kind at the front of a text. -/
def TypeKind.read? : List Char → Option (TypeKind × List Char)
  | [] => none
  | c :: rest =>
    if c = '@' then (readConstraint? rest).map fun p => (.object p.1, p.2)
    else (TypeKind.ofLetter? c).map fun kind => (kind, rest)

/-- Reading a kind consumes a letter. -/
theorem TypeKind.read?_length_lt {cs rest : List Char} {kind : TypeKind}
    (h : TypeKind.read? cs = some (kind, rest)) : rest.length < cs.length := by
  cases cs with
  | nil => simp [TypeKind.read?] at h
  | cons c cs =>
    simp only [TypeKind.read?] at h
    split at h
    · obtain ⟨p, hp, he⟩ := Option.map_eq_some_iff.1 h
      obtain ⟨-, rfl⟩ := Prod.mk.inj he
      exact Nat.lt_succ_of_le (readConstraint?_length_le hp)
    · obtain ⟨k, -, he⟩ := Option.map_eq_some_iff.1 h
      obtain ⟨-, rfl⟩ := Prod.mk.inj he
      simp

/-- The token at the front of a text. -/
def TypeSpec.read? : List Char → Option (TypeSpec × List Char)
  | [] => none
  | c :: rest =>
    if c = '?' then (TypeKind.read? rest).map fun p => (⟨p.1, true⟩, p.2)
    else (TypeKind.read? (c :: rest)).map fun p => (⟨p.1, false⟩, p.2)

/-- A token takes at least one character. -/
theorem TypeSpec.read?_length_lt {cs rest : List Char} {spec : TypeSpec}
    (h : TypeSpec.read? cs = some (spec, rest)) : rest.length < cs.length := by
  cases cs with
  | nil => simp [TypeSpec.read?] at h
  | cons c cs =>
    simp only [TypeSpec.read?] at h
    split at h
    · obtain ⟨p, hp, he⟩ := Option.map_eq_some_iff.1 h
      obtain ⟨-, rfl⟩ := Prod.mk.inj he
      exact Nat.lt_succ_of_lt (TypeKind.read?_length_lt hp)
    · obtain ⟨p, hp, he⟩ := Option.map_eq_some_iff.1 h
      obtain ⟨-, rfl⟩ := Prod.mk.inj he
      exact TypeKind.read?_length_lt hp

/-- The tokens that make up a text. -/
def readParams? (cs : List Char) : Option (List TypeSpec) :=
  if cs.isEmpty then some []
  else
    match _h : TypeSpec.read? cs with
    | none => none
    | some (spec, rest) => (readParams? rest).map (spec :: ·)
termination_by cs.length
decreasing_by exact TypeSpec.read?_length_lt _h

/-- The return token at the front of a text. -/
def ReturnType.read? : List Char → Option (ReturnType × List Char)
  | [] => none
  | c :: rest =>
    if c = 'v' then some (.void, rest)
    else (TypeSpec.read? (c :: rest)).map fun p => (.value p.1, p.2)

namespace Signature

/-- The signature that a list of characters writes down. -/
def ofChars? (cs : List Char) : Option Signature :=
  match ReturnType.read? cs with
  | none => none
  | some (ret, rest) => (readParams? rest).map fun params => ⟨ret, params⟩

/-- The signature that a text writes down. -/
def parse (encoding : String) : Except BridgeError Signature :=
  match ofChars? encoding.toList with
  | some s => .ok s
  | none => .error (.invalidEncoding encoding)

end Signature

end Interop

/-
# Native methods

A method names the code that it runs by a label.  The labels of the core parcel
are listed here and mean what `Interop.Parcel` says; every other label is a symbol
that an image of native code resolves, so a class can be built, compared and
bound before its code is known.

The names and the types of the parameters stand in one list, so there are always
as many names as types.
-/

import Interop.Signature.Parser
import Interop.Text.Case

namespace Interop

/-- The instance methods of the core parcel. -/
inductive CoreMethod
  | objectCount
  | objectRetain
  | objectRelease
  | objectClassName
  | objectIsA
  | objectEquals
  | objectText
  | objectDestroy
  | stringLength
  | stringStartsWith
  | stringConcat
  | stringEquals
  | stringText
  | stringBytes
  | integerValue
  | floatValue
  | booleanValue
  | numberEquals
  | numberText
  | hashStore
  | hashFetch
  | hashDelete
  | hashHasKey
  | hashSize
  | hashKeys
  | hashDestroy
  | vectorPush
  | vectorPushAll
  | vectorInsert
  | vectorFetch
  | vectorPop
  | vectorSize
  | vectorDestroy
  | errorMessage
  | errorAppend
deriving DecidableEq

/-- The constructors of the core parcel. -/
inductive CoreConstructor
  | string
  | integer
  | float
  | hash
  | vector
  | error
deriving DecidableEq

/-- The inert functions of the core parcel. -/
inductive CoreFunction
  | isWhitespace
  | toBase36
  | rethrow
deriving DecidableEq

/-- A label of native code: an operation of the core parcel or a symbol. -/
inductive Routine (Op : Type)
  | core (op : Op)
  | linked (symbol : String)
deriving DecidableEq

/-- The code of a method and what it is called on. -/
inductive Code
  /-- Called on an object. -/
  | onObject (routine : Routine CoreMethod)
  /-- Called on a class, of which it makes an object. -/
  | onClass (routine : Routine CoreConstructor)
  /-- Called on nothing. -/
  | onNothing (routine : Routine CoreFunction)
deriving DecidableEq

/-- What a method is called on. -/
inductive MethodKind
  | instanceMethod
  | constructor
  | inert
deriving DecidableEq

/-- What the code is called on. -/
def Code.kind : Code → MethodKind
  | .onObject _ => .instanceMethod
  | .onClass _ => .constructor
  | .onNothing _ => .inert

/-- The name of the kind. -/
def MethodKind.name : MethodKind → String
  | .instanceMethod => "Instance"
  | .constructor => "Constructor"
  | .inert => "Inert"

/-- A parameter of a method. -/
structure Param where
  name : String
  spec : TypeSpec
deriving DecidableEq

/-- A native method. -/
structure Method where
  /-- The native name, such as `Get_Value`. -/
  name : String
  ret : ReturnType
  params : List Param
  code : Code
  isPrivate : Bool
deriving DecidableEq

namespace Method

/-- The types of the method. -/
def signature (m : Method) : Signature :=
  ⟨m.ret, m.params.map (·.spec)⟩

/-- The names of the parameters. -/
def paramNames (m : Method) : List String :=
  m.params.map (·.name)

/-- A method names each of its parameters. -/
theorem length_paramNames (m : Method) : m.paramNames.length = m.signature.params.length := by
  simp [paramNames, signature]

/-- What the method is called on. -/
def kind (m : Method) : MethodKind :=
  m.code.kind

/-- The name by which host code calls the method: the native one in lower
case. -/
def hostName (m : Method) : String :=
  Text.lowercase m.name

/-- Whether host code may call the method: it is public and no raw pointer crosses
the boundary. -/
def canBeBound (m : Method) : Bool :=
  !m.isPrivate && m.signature.isBindable

/-- A public method with a written signature.  The signature must have a type for
each of the names. -/
def make (name encoding : String) (names : List String) (code : Code) :
    Except BridgeError Method :=
  match Signature.parse encoding with
  | .error e => .error e
  | .ok s =>
    if s.params.length = names.length then
      .ok ⟨name, s.ret, List.zipWith Param.mk names s.params, code, false⟩
    else .error (.invalidEncoding encoding)

/-- What is made has the types that are written, and the names. -/
theorem signature_of_make {name encoding : String} {names : List String} {code : Code} {m : Method}
    (h : make name encoding names code = .ok m) :
    Signature.parse encoding = .ok m.signature ∧ m.paramNames = names := by
  rw [make] at h
  split at h
  case h_1 => cases h
  case h_2 s hparse =>
    split at h
    case isFalse => cases h
    case isTrue hlength =>
      cases h
      have hzip : List.zipWith Param.mk names s.params =
          (names.zip s.params).map fun p => ⟨p.1, p.2⟩ := by rw [List.zip, List.map_zipWith]
      have hspecs : (List.zipWith Param.mk names s.params).map (·.spec) = s.params := by
        rw [hzip, List.map_map]
        exact List.map_snd_zip (Nat.le_of_eq hlength)
      have hnames : (List.zipWith Param.mk names s.params).map (·.name) = names := by
        rw [hzip, List.map_map]
        exact List.map_fst_zip (Nat.le_of_eq hlength.symm)
      refine ⟨?_, hnames⟩
      rw [hparse]
      exact congrArg (fun params => Except.ok (Signature.mk s.ret params)) hspecs.symm

/-- The name that every constructor has. -/
def constructorName : String := "init"

/-- The method, hidden from host code. -/
def hidden (m : Method) : Method :=
  { m with isPrivate := true }

/-- The method with its parts. -/
def describe (m : Method) : String :=
  Text.record "Method" [
    ("name", Text.quote m.name),
    ("kind", m.kind.name),
    ("signature", Text.quote m.signature.encode),
    ("params", Text.listing (m.paramNames.map Text.quote)),
    ("private", Text.boolText m.isPrivate)]

end Method

end Interop

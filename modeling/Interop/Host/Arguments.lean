/-
# The arguments of a call

A call brings positional arguments and arguments by keyword.  `bind` gives each one
to a parameter: first the positional ones from the left, then the keywords in the
order of the call.  A keyword stands for the first parameter of its name.  It is an
error to bring more positional arguments than there are parameters, a keyword that
names none, and a second value for one parameter.
-/

import Interop.Host.Wrapper

namespace Interop

/-- The arguments of a call. -/
structure CallArgs where
  positional : List HostValue
  keyword : List (String × HostValue)

namespace CallArgs

/-- A call without arguments. -/
def empty : CallArgs := ⟨[], []⟩

/-- The number of arguments. -/
def length (args : CallArgs) : Nat :=
  args.positional.length + args.keyword.length

/-- Whether there are no arguments. -/
def isEmpty (args : CallArgs) : Bool :=
  args.length == 0

/-- The slots of `count` parameters that the positional arguments fill. -/
def fillSlots (positional : List HostValue) (count : Nat) : List (Option HostValue) :=
  positional.map some ++ List.replicate (count - positional.length) none

/-- The slots with the keywords filled in one after the other. -/
def bindKeywords (params : List String) (slots : List (Option HostValue)) :
    List (String × HostValue) → Except BridgeError (List (Option HostValue))
  | [] => .ok slots
  | (name, value) :: rest =>
    match params.findIdx? (· == name) with
    | none => .error (.unknownArgument name)
    | some i =>
      if (slots[i]?).join.isSome then .error (.duplicateArgument name)
      else bindKeywords params (slots.set i (some value)) rest

/-- A slot for each parameter, filled with the argument given for it. -/
def bind (args : CallArgs) (params : List String) :
    Except BridgeError (List (Option HostValue)) :=
  if args.positional.length > params.length then
    .error (.argumentCount params.length args.length)
  else bindKeywords params (fillSlots args.positional params.length) args.keyword

/-- The text given for the only parameter, which must have one. -/
def singleText (args : CallArgs) (param : String) : Except BridgeError String :=
  match args.bind [param] with
  | .error e => .error e
  | .ok slots =>
    match slots.head?.join with
    | none => .error (.argumentCount 1 0)
    | some (.str text) => .ok text
    | some other => .error (.argumentType param "str" (HostValue.kindName other))

end CallArgs

end Interop

/-
# The classes of the core parcel

Nine classes that every program starts from: the root `Clownfish::Obj`, texts,
integers, floats, truth values, hashes, vectors, errors, and a class of functions
without instances.  Each one is laid out from its list of methods, in which no
name comes twice.

A method is declared with its types in writing.  Beside the encoding stands the method
that `Method.make` makes of it, and the proof that this is so (`Declaration.written`).

Only truth values have immortal instances.
-/

import Interop.Class.Draft
import Interop.Class.Registry

namespace Interop
namespace Parcel

/-- The name of the core parcel. -/
def parcelName : String := "Clownfish"

/-- The type of texts. -/
def text : TypeSpec := ⟨.text, false⟩

/-- The type of objects of any class. -/
def anyObject : TypeSpec := ⟨.object none, false⟩

/-- The type of objects of any class and of null. -/
def maybeObject : TypeSpec := ⟨.object none, true⟩

/-- The type of integers of 64 bits. -/
def longInt : TypeSpec := ⟨.int .i64, false⟩

/-- The type of sizes. -/
def size : TypeSpec := ⟨.int .usize, false⟩

/-- The type of sizes that may be left out. -/
def maybeSize : TypeSpec := ⟨.int .usize, true⟩

/-- The type of truth values. -/
def truth : TypeSpec := ⟨.bool, false⟩

/-- The type of floats. -/
def double : TypeSpec := ⟨.float, false⟩

/-- A public instance method of the parcel. -/
def method (name : String) (ret : ReturnType) (params : List (String × TypeSpec))
    (op : CoreMethod) : Method :=
  ⟨name, ret, params.map fun p => ⟨p.1, p.2⟩, .onObject (.core op), false⟩

/-- A constructor of the parcel. -/
def maker (params : List (String × TypeSpec)) (op : CoreConstructor) : Method :=
  ⟨Method.constructorName, .value anyObject, params.map fun p => ⟨p.1, p.2⟩,
    .onClass (.core op), false⟩

/-- An inert function of the parcel. -/
def function (name : String) (ret : ReturnType) (params : List (String × TypeSpec))
    (op : CoreFunction) : Method :=
  ⟨name, ret, params.map fun p => ⟨p.1, p.2⟩, .onNothing (.core op), false⟩

/-- The method that runs when the last reference to an object is given up. -/
def destroy (op : CoreMethod) : Method :=
  (method "Destroy" .void [] op).hidden

/-- A method of the parcel with its types as they are written. -/
structure Declaration where
  encoding : String
  method : Method
  /-- The method is the one that is made of the encoding; it may be hidden then. -/
  written : Method.make method.name encoding method.paramNames method.code =
    .ok { method with isPrivate := false }

/-- Declares a method with types that read as those that are written. -/
def declare (encoding : String) (method : Method)
    (written : Method.make method.name encoding method.paramNames method.code =
      .ok { method with isPrivate := false } := by decide +kernel) : Declaration :=
  ⟨encoding, method, written⟩

/-- What the root class declares. -/
def objDeclarations : List Declaration := [
  declare "q" (method "Get_RefCount" (.value longInt) [] .objectCount),
  declare "@" (method "Inc_RefCount" (.value anyObject) [] .objectRetain),
  declare "q" (method "Dec_RefCount" (.value longInt) [] .objectRelease),
  declare "T" (method "Get_Class_Name" (.value text) [] .objectClassName),
  declare "BT" (method "Is_A" (.value truth) [("class_name", text)] .objectIsA),
  declare "B?@" (method "Equals" (.value truth) [("other", maybeObject)] .objectEquals),
  declare "T" (method "To_String" (.value text) [] .objectText),
  declare "v" (destroy .objectDestroy)]

/-- The methods of the root class. -/
def objMethods : List Method :=
  objDeclarations.map (·.method)

/-- What the class of texts declares. -/
def stringDeclarations : List Declaration := [
  declare "@T" (maker [("value", text)] .string),
  declare "q" (method "Length" (.value longInt) [] .stringLength),
  declare "BT" (method "Starts_With" (.value truth) [("prefix", text)] .stringStartsWith),
  declare "TT" (method "Cat" (.value text) [("other", text)] .stringConcat),
  declare "B?@" (method "Equals" (.value truth) [("other", maybeObject)] .stringEquals),
  declare "T" (method "To_String" (.value text) [] .stringText),
  declare "^" (method "Get_Ptr8" (.value ⟨.pointer, false⟩) [] .stringBytes)]

/-- The methods of texts. -/
def stringMethods : List Method :=
  stringDeclarations.map (·.method)

/-- What the class of integers declares. -/
def integerDeclarations : List Declaration := [
  declare "@q" (maker [("value", longInt)] .integer),
  declare "q" (method "Get_Value" (.value longInt) [] .integerValue),
  declare "B?@" (method "Equals" (.value truth) [("other", maybeObject)] .numberEquals),
  declare "T" (method "To_String" (.value text) [] .numberText)]

/-- The methods of integers. -/
def integerMethods : List Method :=
  integerDeclarations.map (·.method)

/-- What the class of floats declares. -/
def floatDeclarations : List Declaration := [
  declare "@d" (maker [("value", double)] .float),
  declare "d" (method "Get_Value" (.value double) [] .floatValue),
  declare "B?@" (method "Equals" (.value truth) [("other", maybeObject)] .numberEquals),
  declare "T" (method "To_String" (.value text) [] .numberText)]

/-- The methods of floats. -/
def floatMethods : List Method :=
  floatDeclarations.map (·.method)

/-- What the class of truth values declares. -/
def booleanDeclarations : List Declaration := [
  declare "B" (method "Get_Value" (.value truth) [] .booleanValue),
  declare "T" (method "To_String" (.value text) [] .numberText)]

/-- The methods of truth values. -/
def booleanMethods : List Method :=
  booleanDeclarations.map (·.method)

/-- What the class of hashes declares. -/
def hashDeclarations : List Declaration := [
  declare "@?z" (maker [("capacity", maybeSize)] .hash),
  declare "vT@" (method "Store" .void [("key", text), ("value", anyObject)] .hashStore),
  declare "?@T" (method "Fetch" (.value maybeObject) [("key", text)] .hashFetch),
  declare "?@T" (method "Delete" (.value maybeObject) [("key", text)] .hashDelete),
  declare "BT" (method "Has_Key" (.value truth) [("key", text)] .hashHasKey),
  declare "q" (method "Get_Size" (.value longInt) [] .hashSize),
  declare "@" (method "Keys" (.value anyObject) [] .hashKeys),
  declare "v" (destroy .hashDestroy)]

/-- The methods of hashes. -/
def hashMethods : List Method :=
  hashDeclarations.map (·.method)

/-- What the class of vectors declares. -/
def vectorDeclarations : List Declaration := [
  declare "@?z" (maker [("capacity", maybeSize)] .vector),
  declare "v?@" (method "Push" .void [("element", maybeObject)] .vectorPush),
  declare "v@<Clownfish::Vector>"
    (method "Push_All" .void [("other", ⟨.object (some "Clownfish::Vector"), false⟩)]
      .vectorPushAll),
  declare "vz?@" (method "Insert" .void [("tick", size), ("element", maybeObject)] .vectorInsert),
  declare "?@z" (method "Fetch" (.value maybeObject) [("tick", size)] .vectorFetch),
  declare "?@" (method "Pop" (.value maybeObject) [] .vectorPop),
  declare "q" (method "Get_Size" (.value longInt) [] .vectorSize),
  declare "v" (destroy .vectorDestroy)]

/-- The methods of vectors. -/
def vectorMethods : List Method :=
  vectorDeclarations.map (·.method)

/-- What the class of errors declares. -/
def errDeclarations : List Declaration := [
  declare "@T" (maker [("mess", text)] .error),
  declare "T" (method "Get_Mess" (.value text) [] .errorMessage),
  declare "vT" (method "Cat_Mess" .void [("mess", text)] .errorAppend),
  declare "T" (method "To_String" (.value text) [] .errorMessage),
  declare "v@<Clownfish::Err>"
    (function "rethrow" .void [("error", ⟨.object (some "Clownfish::Err"), false⟩)] .rethrow)]

/-- The methods of errors. -/
def errMethods : List Method :=
  errDeclarations.map (·.method)

/-- What the class without instances declares. -/
def helperDeclarations : List Declaration := [
  declare "Bi"
    (function "is_whitespace" (.value truth) [("code_point", ⟨.int .i32, false⟩)] .isWhitespace),
  declare "Tz" (function "to_base36" (.value text) [("num", size)] .toBase36)]

/-- The functions of the class without instances. -/
def helperMethods : List Method :=
  helperDeclarations.map (·.method)

/-- The root of every class with instances. -/
def obj : Class :=
  .ofMethods 0 "Clownfish::Obj" parcelName none 0 objMethods

/-- The class of texts. -/
def string : Class :=
  .ofMethods 1 "Clownfish::String" parcelName (some obj) 0 stringMethods

/-- The class of integers. -/
def integer : Class :=
  .ofMethods 2 "Clownfish::Integer" parcelName (some obj) 0 integerMethods

/-- The class of floats. -/
def float : Class :=
  .ofMethods 3 "Clownfish::Float" parcelName (some obj) 0 floatMethods

/-- The class of truth values. -/
def boolean : Class :=
  .ofMethods 4 "Clownfish::Boolean" parcelName (some obj) immortalFlag booleanMethods

/-- The class of hashes. -/
def hash : Class :=
  .ofMethods 5 "Clownfish::Hash" parcelName (some obj) 0 hashMethods

/-- The class of vectors. -/
def vector : Class :=
  .ofMethods 6 "Clownfish::Vector" parcelName (some obj) 0 vectorMethods

/-- The class of errors. -/
def err : Class :=
  .ofMethods 7 "Clownfish::Err" parcelName (some obj) 0 errMethods

/-- The class of the functions without an object. -/
def stringHelper : Class :=
  .ofMethods 8 "Clownfish::Util::StringHelper" parcelName none inertFlag helperMethods

/-- The classes of the parcel, parents first. -/
def classes : List Class :=
  [obj, string, integer, float, boolean, hash, vector, err, stringHelper]

/-- What each class declares, from the encodings on. -/
def declarations : List (Class × Declaration) :=
  objDeclarations.map (obj, ·) ++ stringDeclarations.map (string, ·) ++
    integerDeclarations.map (integer, ·) ++ floatDeclarations.map (float, ·) ++
    booleanDeclarations.map (boolean, ·) ++ hashDeclarations.map (hash, ·) ++
    vectorDeclarations.map (vector, ·) ++ errDeclarations.map (err, ·) ++
    helperDeclarations.map (stringHelper, ·)

/-- The serial number from which classes outside the parcel are counted. -/
def firstFreeSerial : Nat := 9

/-- The parcel with its aliases, in the order of registration. -/
def registrations : List Registration :=
  classes.map .ofClass ++ [
    .ofAlias "Clownfish::Integer32" "Clownfish::Integer",
    .ofAlias "Clownfish::Integer64" "Clownfish::Integer",
    .ofAlias "Clownfish::Float64" "Clownfish::Float"]

/-- The registry that holds the parcel, with the records of its registration added
to a log. -/
def enrolled (logger : Log.Logger) : Registry.Logged × Option BridgeError :=
  (Registry.Logged.mk .empty logger).enrol registrations

/-- The registry that holds the parcel and nothing else. -/
def registry : Registry :=
  (enrolled .fresh).1.registry

end Parcel
end Interop

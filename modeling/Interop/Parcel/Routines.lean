/-
# The code of the core parcel

What each label of the core parcel runs.
-/

import Interop.Parcel.Failure
import Interop.Parcel.Hash
import Interop.Parcel.Number
import Interop.Parcel.Object
import Interop.Parcel.Text
import Interop.Parcel.Vector

namespace Interop
namespace Parcel

/-- Runs an instance method of the core parcel on the object `p`. -/
def runMethod (p : ObjId) (args : List Arg) : CoreMethod → NativeM Ret
  | .objectCount => Object.count p
  | .objectRetain => Object.retain p
  | .objectRelease => Object.release p
  | .objectClassName => Object.className p
  | .objectIsA => Object.isA p args
  | .objectEquals => Object.equals p args
  | .objectText => Object.toText p
  | .objectDestroy => return .void
  | .stringLength => Text.length p
  | .stringStartsWith => Text.startsWith p args
  | .stringConcat => Text.concat p args
  | .stringEquals => Text.equals p args
  | .stringText => Text.toText p
  | .stringBytes => Text.bytes p
  | .integerValue => Number.integerValue p
  | .floatValue => Number.floatValue p
  | .booleanValue => Number.booleanValue p
  | .numberEquals => Number.equals p args
  | .numberText => Number.toText p
  | .hashStore => Hash.store p args
  | .hashFetch => Hash.fetch p args
  | .hashDelete => Hash.delete p args
  | .hashHasKey => Hash.hasKey p args
  | .hashSize => Hash.size p
  | .hashKeys => Hash.keys p
  | .hashDestroy => Hash.destroy p
  | .vectorPush => Vector.push p args
  | .vectorPushAll => Vector.pushAll p args
  | .vectorInsert => Vector.insert p args
  | .vectorFetch => Vector.fetch p args
  | .vectorPop => Vector.pop p
  | .vectorSize => Vector.size p
  | .vectorDestroy => Vector.destroy p
  | .errorMessage => Failure.message p
  | .errorAppend => Failure.append p args

/-- Runs a constructor of the core parcel for the class `cls`. -/
def runConstructor (cls : Class) (args : List Arg) : CoreConstructor → NativeM Ret
  | .string => Text.make cls args
  | .integer => Number.makeInteger cls args
  | .float => Number.makeFloat cls args
  | .hash => Hash.make cls args
  | .vector => Vector.make cls args
  | .error => Failure.make cls args

/-- Runs an inert function of the core parcel. -/
def runFunction (args : List Arg) : CoreFunction → NativeM Ret
  | .isWhitespace => Text.isWhitespace args
  | .toBase36 => Text.toBase36 args
  | .rethrow => Failure.rethrow args

end Parcel
end Interop

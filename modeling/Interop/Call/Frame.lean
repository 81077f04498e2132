/-
# Frames of native calls

The frame of a call holds the receiver, the arguments that were accepted so far, and
the references that the call owns: the one to the receiver and those to the objects
that arguments were turned into.  They are given back together when the call is
over, however it ended.
-/

import Interop.World

namespace Interop

/-- What a native call is made with. -/
structure Frame where
  receiver : Option ObjId
  args : List Arg
  /-- The references that the call owns, the oldest first. -/
  owned : List ObjId

namespace Frame

/-- The frame of a call that has nothing yet. -/
def empty : Frame := ⟨none, [], []⟩

/-- The frame with a receiver, to which it owns a reference. -/
def withReceiver (f : Frame) (p : ObjId) : Frame :=
  { f with receiver := some p, owned := f.owned ++ [p] }

/-- The frame that also owns a reference to `p`. -/
def adopt (f : Frame) (p : ObjId) : Frame :=
  { f with owned := f.owned ++ [p] }

/-- The frame with one more argument. -/
def push (f : Frame) (arg : Arg) : Frame :=
  { f with args := f.args ++ [arg] }

end Frame

/-- The world while a frame is being filled. -/
structure Staging where
  world : World
  frame : Frame

/-- A step that fills a frame and may refuse an argument. -/
abbrev StageM (α : Type) := EStateM BridgeError Staging α

namespace StageM

/-- A step that leaves the frame alone. -/
def lift {α : Type} (x : CheckM α) : StageM α :=
  fun s =>
    match x s.world with
    | .ok a world => .ok a { s with world }
    | .error e world => .error e { s with world }

/-- Adds an argument. -/
def push (arg : Arg) : StageM Unit :=
  modify fun s => { s with frame := s.frame.push arg }

/-- Owns a reference to `p` until the end of the call. -/
def adopt (p : ObjId) : StageM Unit :=
  modify fun s => { s with frame := s.frame.adopt p }

end StageM

namespace World

/-- The operation `x`; if it is refused, the world is tidied by `cleanup`. -/
def onRefusal {α : Type} (x : CheckM α) (cleanup : World → World) : CheckM α :=
  fun w =>
    match x w with
    | .ok a w => .ok a w
    | .error e w => .error e (cleanup w)

end World

end Interop

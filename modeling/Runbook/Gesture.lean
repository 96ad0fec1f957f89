/-
Swipes on a touch screen.

A swipe is asked for with points, a direction and a distance, of which some
may be missing; `Gesture.normalize` works out where it starts and ends. The
end is kept on the screen. A screen of negative size has no such points.
-/
import Runbook.Error

namespace Runbook

/-- A point of the screen, in pixels. -/
structure Point where
  x : Binary64
  y : Binary64
deriving DecidableEq

namespace Point

/-- The point of a list of two numbers. -/
def ofPair? : Value → Option Point
  | .arr [x, y] => do some ⟨← x.asReal?, ← y.asReal?⟩
  | _ => none

/-- The point of a resolved target: an object with a `center` pair or with
`x` and `y`, or a pair. The first form that applies decides. -/
def ofValue? (v : Value) : Option Point :=
  match v.field? "center" with
  | some center => ofPair? center
  | none =>
    match v.field? "x", v.field? "y" with
    | some x, some y => do some ⟨← x.asReal?, ← y.asReal?⟩
    | _, _ => ofPair? v

def toValue (p : Point) : Value := .obj [("x", .ofReal p.x), ("y", .ofReal p.y)]

def record : Decode.Record Point :=
  Point.mk <$> .required "x" Decode.real <*> .required "y" Decode.real

def decode : Value → Decoded Point := record.decode "Point"

end Point

/-- The size of a screen, in pixels. -/
structure Screen where
  width : Binary64
  height : Binary64

namespace Screen

def center (s : Screen) : Point := ⟨s.width.half, s.height.half⟩

/-- Whether there is a point on the screen. -/
def IsValid (s : Screen) : Prop := Binary64.zero ≤ s.width ∧ Binary64.zero ≤ s.height

instance (s : Screen) : Decidable s.IsValid :=
  inferInstanceAs (Decidable (Binary64.zero ≤ s.width ∧ Binary64.zero ≤ s.height))

end Screen

/-- The ways a swipe can go. -/
inductive Direction where
  | up
  | down
  | left
  | right
deriving DecidableEq

namespace Direction

/-- The directions by name. -/
def named : List (String × Direction) :=
  [("up", .up), ("down", .down), ("left", .left), ("right", .right)]

def name : Direction → String
  | .up => "up"
  | .down => "down"
  | .left => "left"
  | .right => "right"

def decode : Value → Decoded Direction := Decode.choice named

end Direction

/-- A swipe as it is asked for. -/
structure Gesture where
  start : Option Point := none
  finish : Option Point := none
  direction : Option Direction := none
  distance : Option Binary64 := none
  duration : Option UInt64 := none
  count : Option UInt32 := none

/-- A swipe that can be carried out. -/
structure Swipe where
  start : Point
  finish : Point
  duration : UInt64
  count : UInt32

namespace Swipe

def toValue (s : Swipe) : Value := .obj [
  ("startPoint", s.start.toValue),
  ("endPoint", s.finish.toValue),
  ("duration", .num (.nat s.duration)),
  ("repeatCount", .ofNat s.count.toNat)]

end Swipe

/-- A coordinate on its way to the screen. A sum past the range of numbers is
past every screen, on one side or the other. -/
inductive Coordinate where
  | at (x : Binary64)
  | beyond (negative : Bool)

namespace Coordinate

/-- A coordinate moved by a distance. -/
def shift (x distance : Binary64) : Coordinate :=
  match x.add? distance with
  | some y => .at y
  | none => .beyond distance.negative

/-- The nearest coordinate between zero and a limit. -/
def clamp (limit : Binary64) : Coordinate → Binary64
  | .at x =>
    let raised := if x < .zero then .zero else x
    if limit < raised then limit else raised
  | .beyond true => .zero
  | .beyond false => limit

end Coordinate

/-- Why a gesture has no swipe on a screen. -/
inductive GestureError where
  | fault (f : SwipeFault)
  /-- The screen has a negative size. -/
  | noScreen

namespace Gesture

/-- How long a swipe takes if nothing is said, in milliseconds. -/
def defaultDuration : UInt64 := 300

/-- How often an unlimited swipe, one of count zero, is carried out. -/
def unlimitedCount : UInt32 := 10

/-- Where the swipe would end if the screen had no edges. -/
def target (g : Gesture) (start : Point) : Except SwipeFault (Coordinate × Coordinate) :=
  match g.finish, g.distance, g.direction with
  | some p, _, _ => .ok (.at p.x, .at p.y)
  | none, some d, some .up => .ok (.shift start.x .zero, .shift start.y d.neg)
  | none, some d, some .down => .ok (.shift start.x .zero, .shift start.y d)
  | none, some d, some .left => .ok (.shift start.x d.neg, .shift start.y .zero)
  | none, some d, some .right => .ok (.shift start.x d, .shift start.y .zero)
  | none, some _, none => .error .directionMissing
  | none, none, _ => .error .endMissing

/-- The swipe on a screen: it starts at the given point or at the centre, and
ends at the given point or at the distance along the direction, in any case
on the screen. -/
def normalize (g : Gesture) (screen : Screen) : Except GestureError Swipe :=
  let start := g.start.getD screen.center
  match g.target start with
  | .error f => .error (.fault f)
  | .ok (x, y) =>
    if screen.IsValid then
      .ok {
        start
        finish := ⟨x.clamp screen.width, y.clamp screen.height⟩
        duration := g.duration.getD defaultDuration
        count := match g.count with
          | some 0 => unlimitedCount
          | some n => n
          | none => 1 }
    else .error .noScreen

end Gesture

end Runbook

/-
The typed parameters of the standard actions.

Each type has the description of its members (`record`) and the object that
stands for it (`toValue`), which lists all members in declaration order with
`null` for what is absent.
-/
import Runbook.Gesture

namespace Runbook

open Decode (Record)

/-- An optional real number as a value. -/
def Value.ofReal? : Option Binary64 → Value
  | some x => .ofReal x
  | none => .null

/-- The parameters of an action that needs a target and nothing else. -/
structure TargetParams where
  locate : Value

namespace TargetParams

def record : Record TargetParams := TargetParams.mk <$> .required "locate" Decode.any

def decode : Value → Decoded TargetParams := record.decode "ActionLocateParam"

def toValue (p : TargetParams) : Value := .obj [("locate", p.locate)]

end TargetParams

/-- What becomes of the text that is already in an input field. -/
inductive InputMode where
  | replace
  | clear
  | typeOnly
deriving DecidableEq

namespace InputMode

def named : List (String × InputMode) :=
  [("replace", .replace), ("clear", .clear), ("typeOnly", .typeOnly)]

def name : InputMode → String
  | .replace => "replace"
  | .clear => "clear"
  | .typeOnly => "typeOnly"

end InputMode

structure InputParams where
  value : String
  locate : Option Value
  mode : InputMode

namespace InputParams

def record : Record InputParams :=
  InputParams.mk <$> .required "value" Decode.text
    <*> .optional "locate" Decode.any
    <*> .required "mode" (Decode.choice InputMode.named)

def decode : Value → Decoded InputParams := record.decode "ActionInputParam"

def toValue (p : InputParams) : Value := .obj [
  ("value", .str p.value), ("locate", .ofOption p.locate), ("mode", .str p.mode.name)]

/-- The mode `append` is an older name of `typeOnly`. -/
def renameMode : Value → Value
  | .obj fs =>
    match Fields.get? "mode" fs with
    | some (.str "append") => .obj (Fields.insert "mode" (.str "typeOnly") fs)
    | _ => .obj fs
  | v => v

end InputParams

structure KeyPressParams where
  locate : Option Value
  keyName : String

namespace KeyPressParams

def record : Record KeyPressParams :=
  KeyPressParams.mk <$> .optional "locate" Decode.any <*> .required "keyName" Decode.text

def decode : Value → Decoded KeyPressParams := record.decode "ActionKeyboardPressParam"

def toValue (p : KeyPressParams) : Value := .obj [
  ("locate", .ofOption p.locate), ("keyName", .str p.keyName)]

end KeyPressParams

/-- How far a scroll goes. -/
inductive ScrollType where
  | singleAction
  | scrollToBottom
  | scrollToTop
  | scrollToRight
  | scrollToLeft
deriving DecidableEq

namespace ScrollType

def named : List (String × ScrollType) := [
  ("singleAction", .singleAction), ("scrollToBottom", .scrollToBottom),
  ("scrollToTop", .scrollToTop), ("scrollToRight", .scrollToRight),
  ("scrollToLeft", .scrollToLeft)]

def name : ScrollType → String
  | .singleAction => "singleAction"
  | .scrollToBottom => "scrollToBottom"
  | .scrollToTop => "scrollToTop"
  | .scrollToRight => "scrollToRight"
  | .scrollToLeft => "scrollToLeft"

end ScrollType

structure ScrollParams where
  direction : Direction
  scrollType : ScrollType
  distance : Option Binary64
  locate : Option Value

namespace ScrollParams

def record : Record ScrollParams :=
  ScrollParams.mk <$> .required "direction" Direction.decode
    <*> .required "scrollType" (Decode.choice ScrollType.named)
    <*> .optional "distance" Decode.real
    <*> .optional "locate" Decode.any

def decode : Value → Decoded ScrollParams := record.decode "ActionScrollParam"

def toValue (p : ScrollParams) : Value := .obj [
  ("direction", .str p.direction.name), ("scrollType", .str p.scrollType.name),
  ("distance", .ofReal? p.distance), ("locate", .ofOption p.locate)]

end ScrollParams

structure DragParams where
  source : Value
  destination : Value

namespace DragParams

def record : Record DragParams :=
  DragParams.mk <$> .required "from" Decode.any <*> .required "to" Decode.any

def decode : Value → Decoded DragParams := record.decode "ActionDragAndDropParam"

def toValue (p : DragParams) : Value := .obj [("from", p.source), ("to", p.destination)]

end DragParams

structure LongPressParams where
  locate : Value
  duration : UInt64

namespace LongPressParams

/-- How long a press takes if nothing is said, in milliseconds. -/
def defaultDuration : UInt64 := 500

def record : Record LongPressParams :=
  LongPressParams.mk <$> .required "locate" Decode.any
    <*> .withDefault "duration" Decode.natural64 defaultDuration

def decode : Value → Decoded LongPressParams := record.decode "ActionLongPressParam"

def toValue (p : LongPressParams) : Value := .obj [
  ("locate", p.locate), ("duration", .num (.nat p.duration))]

end LongPressParams

structure SwipeParams where
  start : Option Value
  finish : Option Value
  direction : Option Direction
  distance : Option Binary64
  duration : Option UInt64
  count : Option UInt32

namespace SwipeParams

def record : Record SwipeParams :=
  SwipeParams.mk <$> .optional "start" Decode.any
    <*> .optional "end" Decode.any
    <*> .optional "direction" Direction.decode
    <*> .optional "distance" Decode.real
    <*> .optional "duration" Decode.natural64
    <*> .optional "repeat" Decode.natural32

def decode : Value → Decoded SwipeParams := record.decode "ActionSwipeParam"

def toValue (p : SwipeParams) : Value := .obj [
  ("start", .ofOption p.start),
  ("end", .ofOption p.finish),
  ("direction", .ofOption (p.direction.map fun d => .str d.name)),
  ("distance", .ofReal? p.distance),
  ("duration", .ofOption (p.duration.map fun n => .num (.nat n))),
  ("repeat", .ofOption (p.count.map fun n => .ofNat n.toNat))]

/-- The point of a target that may be absent. A target that is there has to
be resolved to a point. -/
def point (which : String) : Option Value → Except SwipeFault (Option Point)
  | none | some .null => .ok none
  | some v =>
    match Point.ofValue? v with
    | some p => .ok (some p)
    | none => .error (.unresolved which v)

/-- The gesture asked for. -/
def gesture (p : SwipeParams) : Except SwipeFault Gesture := do
  let start ← point "start" p.start
  let finish ← point "end" p.finish
  .ok {
    start, finish
    direction := p.direction, distance := p.distance
    duration := p.duration, count := p.count }

end SwipeParams

/-- The ways a text cursor can move. -/
inductive CursorDirection where
  | left
  | right
deriving DecidableEq

namespace CursorDirection

def named : List (String × CursorDirection) := [("left", .left), ("right", .right)]

def name : CursorDirection → String
  | .left => "left"
  | .right => "right"

end CursorDirection

structure CursorParams where
  direction : CursorDirection
  times : UInt32

namespace CursorParams

def record : Record CursorParams :=
  CursorParams.mk <$> .required "direction" (Decode.choice CursorDirection.named)
    <*> .required "times" Decode.natural32

def decode : Value → Decoded CursorParams := record.decode "ActionCursorMoveParam"

def toValue (p : CursorParams) : Value := .obj [
  ("direction", .str p.direction.name), ("times", .ofNat p.times.toNat)]

end CursorParams

structure SleepParams where
  time : UInt64

namespace SleepParams

def record : Record SleepParams := SleepParams.mk <$> .required "timeMs" Decode.natural64

def decode : Value → Decoded SleepParams := record.decode "ActionSleepParam"

def toValue (p : SleepParams) : Value := .obj [("timeMs", .num (.nat p.time))]

end SleepParams

/-- The typed parameters of a standard action. -/
inductive Params where
  | target (p : TargetParams)
  | input (p : InputParams)
  | keyPress (p : KeyPressParams)
  | scroll (p : ScrollParams)
  | drag (p : DragParams)
  | longPress (p : LongPressParams)
  | swipe (p : SwipeParams)
  | cursor (p : CursorParams)
  | sleep (p : SleepParams)

namespace Params

def toValue : Params → Value
  | .target p => p.toValue
  | .input p => p.toValue
  | .keyPress p => p.toValue
  | .scroll p => p.toValue
  | .drag p => p.toValue
  | .longPress p => p.toValue
  | .swipe p => p.toValue
  | .cursor p => p.toValue
  | .sleep p => p.toValue

end Params

end Runbook

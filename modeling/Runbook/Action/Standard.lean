/-
The standard actions: their names, their parameter schemas and the typed
parameters they take.
-/
import Runbook.Action.Params
import Runbook.Schema

namespace Runbook

/-- The actions every device agent may offer. -/
inductive StandardAction where
  | tap
  | rightClick
  | doubleClick
  | hover
  | input
  | keyboardPress
  | scroll
  | dragAndDrop
  | longPress
  | swipe
  | clearInput
  | cursorMove
  | sleep
deriving DecidableEq

namespace StandardAction

/-- All standard actions, in the order of the catalogue. -/
def all : List StandardAction := [
  .tap, .rightClick, .doubleClick, .hover, .input, .keyboardPress, .scroll, .dragAndDrop,
  .longPress, .swipe, .clearInput, .cursorMove, .sleep]

def name : StandardAction → String
  | .tap => "Tap"
  | .rightClick => "RightClick"
  | .doubleClick => "DoubleClick"
  | .hover => "Hover"
  | .input => "Input"
  | .keyboardPress => "KeyboardPress"
  | .scroll => "Scroll"
  | .dragAndDrop => "DragAndDrop"
  | .longPress => "LongPress"
  | .swipe => "Swipe"
  | .clearInput => "ClearInput"
  | .cursorMove => "CursorMove"
  | .sleep => "Sleep"

/-- The key of the action in scripts, where it differs from the name. -/
def interfaceAlias : StandardAction → Option String
  | .sleep => none
  | a => some ("ai" ++ a.name)

def description : StandardAction → String
  | .tap => "Tap the element"
  | .rightClick => "Right click the element"
  | .doubleClick => "Double click the element"
  | .hover => "Move the mouse to the element"
  | .input => "Input the value into the element"
  | .keyboardPress =>
    "Press a function key, like \"Enter\", \"Tab\", \"Escape\". Do not use this to type text."
  | .scroll =>
    "Scroll the page or an element. Defaults to scrolling down once by a screen-dependent distance."
  | .dragAndDrop => "Drag and drop the element"
  | .longPress => "Long press the element"
  | .swipe => "Perform a swipe gesture on a touch screen"
  | .clearInput => "Clear the text of an input field"
  | .cursorMove => "Move the text cursor inside the focused input"
  | .sleep => "Wait for a number of milliseconds"

/-- A direction of movement. -/
def directionSchema : Schema := .enumeration ["up", "down", "left", "right"]

/-- An object with a target and nothing else. -/
def targetSchema (description : String) : Schema :=
  .object [(Field.target "locate").describe description]

/-- The parameters the action accepts. -/
def schema : StandardAction → Schema
  | .tap => targetSchema "The element to be tapped"
  | .rightClick => targetSchema "The element to be right clicked"
  | .doubleClick => targetSchema "The element to be double clicked"
  | .hover => targetSchema "The element to be hovered"
  | .clearInput => targetSchema "The input field to be cleared"
  | .input => .object [
      (Field.plain "value" (.stringified .string)).describe "The value to be input",
      ((Field.target "locate").describe "The element to be input").optional,
      (Field.plain "mode"
        (.withDefault (.enumeration ["replace", "clear", "typeOnly", "append"])
          (.str "replace"))).describe
        "Input mode: replace the content, clear it, or type without clearing"]
  | .keyboardPress => .object [
      ((Field.target "locate").describe
        "The element to be clicked before pressing the key").optional,
      (Field.plain "keyName" .string).describe "The key to be pressed"]
  | .scroll => .object [
      (Field.plain "direction" (.withDefault directionSchema (.str "down"))).describe
        "The direction to scroll",
      (Field.plain "scrollType"
        (.withDefault (.enumeration (ScrollType.named.map (·.1))) (.str "singleAction"))).describe
        "The scroll type",
      (Field.plain "distance" (.optional (.nullable .number))).describe
        "The distance in pixels to scroll",
      ((Field.target "locate").describe "The element to be scrolled").optional]
  | .dragAndDrop => .object [
      (Field.target "from").describe "The position to be dragged",
      (Field.target "to").describe "The position to be dropped"]
  | .longPress => .object [
      (Field.target "locate").describe "The element to be long pressed",
      (Field.plain "duration" (.withDefault .integer (.ofNat 500))).describe
        "Press duration in milliseconds"]
  | .swipe => .object [
      ((Field.target "start").describe
        "Where the swipe starts, defaults to the screen center").optional,
      ((Field.target "end").describe "Where the swipe ends").optional,
      (Field.plain "direction" (.optional directionSchema)).describe
        "Swipe direction, required together with distance",
      (Field.plain "distance" (.optional .number)).describe "Swipe distance in pixels",
      (Field.plain "duration" (.withDefault .integer (.ofNat 300))).describe
        "Swipe duration in milliseconds",
      (Field.plain "repeat" (.optional .integer)).describe
        "How many times to swipe, 0 means keep swiping"]
  | .cursorMove => .object [
      (Field.plain "direction" (.enumeration ["left", "right"])).describe
        "The direction to move the text cursor",
      (Field.plain "times" (.withDefault .integer (.ofNat 1))).describe
        "How many characters to move"]
  | .sleep => .object [
      (Field.plain "timeMs" (.withDefault .integer (.ofNat 1000))).describe
        "Milliseconds to wait"]

/-- Reads the typed parameters of the action. -/
def decode : StandardAction → Value → Decoded Params
  | .tap, v | .rightClick, v | .doubleClick, v | .hover, v | .clearInput, v =>
    (TargetParams.decode v).map .target
  | .input, v => (InputParams.decode (InputParams.renameMode v)).map .input
  | .keyboardPress, v => (KeyPressParams.decode v).map .keyPress
  | .scroll, v => (ScrollParams.decode v).map .scroll
  | .dragAndDrop, v => (DragParams.decode v).map .drag
  | .longPress, v => (LongPressParams.decode v).map .longPress
  | .swipe, v => (SwipeParams.decode v).map .swipe
  | .cursorMove, v => (CursorParams.decode v).map .cursor
  | .sleep, v => (SleepParams.decode v).map .sleep

end StandardAction

end Runbook

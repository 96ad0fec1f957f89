/-
From a flow item to its command.

An item is an object whose keys say what is meant, in one of several forms
that scripts have used over time. The rules are tried in a fixed order and
the first one that applies builds the command; whatever can be checked
without the agent is checked here, so that a malformed item has no effect.
-/
import Runbook.Action.Registry
import Runbook.Command
import Runbook.Locator

namespace Runbook

/-- One step of a task, as the script writes it. -/
abbrev Item := Object

namespace Item

/-- The key that names the result of a step. -/
def resultKey : String := "name"

/-- The keys that have the agent act by itself, the preferred one first. -/
def actKeys : List String := ["aiAct", "aiAction", "ai"]

/-- The keys of a note for the report, the preferred one first. -/
def reportKeys : List String := ["recordToReport", "logScreenshot"]

/-- The name of the result, if the step has one: a text that is not empty, or a number. -/
def resultName? (item : Item) : Option String :=
  match Fields.get? resultKey item with
  | some (.str s) => if s.isEmpty then none else some s
  | some (.num n) => some n.text
  | _ => none

/-- Whether the item has one of the keys. -/
def hasAny (keys : List String) (item : Item) : Bool := keys.any fun k => Fields.contains k item

/-- The first key of the item, in its own order, that asks for data. -/
def extraction? (item : Item) : Option Extraction :=
  (Fields.keys item).findSome? Extraction.ofKey?

/-- Whether a value counts as said. Absence, `null`, `false`, zero and the
empty text do not. -/
def isSaid : Option Value → Bool
  | none | some .null => false
  | some (.bool b) => b
  | some (.str s) => !s.isEmpty
  | some (.num n) => !n.toBinary64.isZero
  | some (.arr _) | some (.obj _) => true

/-- The item without the given keys and without the name of its result. -/
def options (item : Item) (keys : List String) : Object := Fields.without (resultKey :: keys) item

/-- The text under a key: a text that is not empty, or a number. -/
def textAt? (item : Item) (key : String) : Option String :=
  match Fields.get? key item with
  | some (.str s) => if s.isEmpty then none else some s
  | some (.num n) => some n.text
  | _ => none

/-- The prompt under a key. -/
def promptAt (item : Item) (key : String) : Checked Prompt :=
  match Locator.promptAt? key item with
  | some p => pure p
  | none => throw (.promptMissing key)

end Item

open Item

/-- The forms of a step, in the order in which they are tried. -/
inductive Rule where
  | act
  | assertion
  | extract
  | waitFor
  | sleep
  | javascript
  | report
  | input
  | keyboardPress
  | scroll
  | action
deriving DecidableEq

namespace Rule

/-- All rules, the most urgent first. -/
def all : List Rule := [
  .act, .assertion, .extract, .waitFor, .sleep, .javascript, .report, .input, .keyboardPress,
  .scroll, .action]

def name : Rule → String
  | .act => "aiAct"
  | .assertion => "aiAssert"
  | .extract => "simpleAi"
  | .waitFor => "aiWaitFor"
  | .sleep => "sleep"
  | .javascript => "javascript"
  | .report => "recordToReport"
  | .input => "aiInput"
  | .keyboardPress => "aiKeyboardPress"
  | .scroll => "aiScroll"
  | .action => "action"

/-- Whether an item has the form. -/
def applies (registry : Registry) (item : Item) : Rule → Bool
  | .act => hasAny actKeys item
  | .assertion => Fields.contains "aiAssert" item
  | .extract => (extraction? item).isSome
  | .waitFor => Fields.contains "aiWaitFor" item
  | .sleep => Fields.contains "sleep" item
  | .javascript => Fields.contains "javascript" item
  | .report => hasAny reportKeys item
  | .input => Fields.contains "aiInput" item
  | .keyboardPress => Fields.contains "aiKeyboardPress" item
  | .scroll => Fields.contains "aiScroll" item
  | .action => !(registry.matching item).isEmpty

end Rule

namespace Step

/-! ## Operations of the agent -/

def buildAct (item : Item) : Checked Command :=
  match actKeys.findSome? (textAt? item) with
  | some prompt => pure (.ask (.act prompt (options item actKeys)))
  | none => throw (.promptMissing "ai (aiAct)")

def buildAssertion (item : Item) : Checked Command := do
  let prompt ← promptAt item "aiAssert"
  let message := (Fields.get? "errorMessage" item).bind Value.asText?
  pure (.ask (.assertion prompt message (options item ["aiAssert", "errorMessage"])))

def buildExtract (item : Item) : Checked Command :=
  match extraction? item with
  | none => throw (.unknownItem item)
  | some e =>
    let prompt := Fields.get? e.key item
    if isSaid prompt then
      pure (.ask (.extract e (Value.ofOption prompt) (options item [e.key])))
    else throw (.promptMissing e.key)

/-- A time limit under `timeout` is also handed on under the agent's own key. -/
def buildWaitFor (item : Item) : Checked Command := do
  let prompt ← promptAt item "aiWaitFor"
  let others := options item ["aiWaitFor"]
  match Fields.get? "timeout" item with
  | none | some .null => pure (.ask (.waitFor prompt others))
  | some limit => pure (.ask (.waitFor prompt (Fields.insert "timeoutMs" limit others)))

def buildJavascript (item : Item) : Checked Command :=
  match textAt? item "javascript" with
  | some script => pure (.ask (.javascript script))
  | none => throw (.promptMissing "javascript")

def buildReport (item : Item) : Checked Command :=
  let texts (key : String) : Option String := (Fields.get? key item).bind Value.asText?
  pure (.ask (.report ((reportKeys.findSome? texts).getD "untitled")
    ((texts "content").getD "")))

/-! ## Pauses -/

/-- The integer a text begins with, after blanks and one sign, if it is one of 64 bits. -/
def leadingInteger? (s : String) : Option Int :=
  let cs := Text.trimStart s.toList
  let (negative, cs) := match cs with
    | '-' :: rest => (true, rest)
    | '+' :: rest => (false, rest)
    | cs => (false, cs)
  let digits := cs.takeWhile isAsciiDigit
  let n := digitsToNat digits
  if digits.isEmpty || decide (0x8000000000000000 ≤ n) then none
  else some (if negative then -(n : Int) else n)

/-- The milliseconds a value asks for. -/
def milliseconds? : Value → Option Binary64
  | .num n => some n.toBinary64
  | .str s => (leadingInteger? s).map Binary64.ofInt
  | _ => none

/-- Milliseconds as whole microseconds; no pause is longer than 64 bits can say. -/
def microseconds (ms : Binary64) : UInt64 :=
  match ms.scale? 1000 with
  | some x => UInt64.ofNat (min x.roundedMagnitude 0xffffffffffffffff)
  | none => UInt64.ofNat 0xffffffffffffffff

def buildSleep (item : Item) : Checked Command :=
  let given := Value.ofOption (Fields.get? "sleep" item)
  match milliseconds? given with
  | some ms =>
    if Binary64.zero < ms then pure (.pause (microseconds ms)) else throw (.invalidSleep given)
  | none => throw (.invalidSleep given)

/-! ## Actions with a form of their own -/

/-- The call of an action, its parameters checked. -/
def callOf (a : Action) (param : Value) : Checked Command :=
  match a.normalize param with
  | .ok v => pure (.ask (.call a.name v))
  | .error e => throw (.validation e)

/-- The call of the action with a key. -/
def callKey (registry : Registry) (key : String) (param : Object) : Checked Command := do
  let a ← Checked.ofExcept (registry.require key)
  callOf a (.obj param)

/-- The parameters with the locator of a target, if the target is one. -/
def withLocator (param : Object) (target : Option Value) (options : Object) : Logged Object :=
  match target.bind Prompt.ofValue? with
  | none => pure param
  | some p => do
    match ← Locator.build (some p) options with
    | some l => pure (Fields.insert "locate" l.toValue param)
    | none => pure param

/-- Text entry. In the older form the step's own key has the text and
`locate` the target; otherwise the own key has the target. -/
def buildInput (registry : Registry) (item : Item) : Checked Command := do
  let own := Fields.get? "aiInput" item
  let value := Fields.get? "value" item
  let rest := options item ["aiInput", "value"]
  let locate := Fields.get? "locate" rest
  let (target, content) :=
    if isSaid locate then (locate, if isSaid own then own else value)
    else (if isSaid own then own else none, value)
  let param := match content with
    | none | some .null => rest
    | some v => Fields.insert "value" (Schema.stringify v) rest
  callKey registry "Input" (← withLocator param target rest)

/-- A key press. The step's own key has the name of the key, unless a target
is needed for which only the own key is left. -/
def buildKeyboardPress (registry : Registry) (item : Item) : Checked Command := do
  let own := Fields.get? "aiKeyboardPress" item
  let rest := options item ["aiKeyboardPress"]
  let locate := Fields.get? "locate" rest
  let keyName := Fields.get? "keyName" rest
  let (target, key) :=
    if isSaid locate then (locate, own)
    else if isSaid keyName then (own, keyName)
    else (none, own)
  let param := match key with
    | some v => if isSaid key then Fields.insert "keyName" v rest else rest
    | none => rest
  callKey registry "KeyboardPress" (← withLocator param target rest)

def buildScroll (registry : Registry) (item : Item) : Checked Command := do
  let rest := options item ["aiScroll"]
  let locate := Fields.get? "locate" rest
  let target := if isSaid locate then locate else Fields.get? "aiScroll" item
  callKey registry "Scroll" (← withLocator rest target rest)

/-! ## Any other action -/

/-- The locatable parameters other than `locate`, in full form. -/
def canonicalTargets : List String → Object → Logged Object
  | [], param => pure param
  | name :: rest, param => do
    match Fields.get? name param with
    | none => canonicalTargets rest param
    | some target =>
      match ← Locator.canonical? target with
      | some full => canonicalTargets rest (Fields.insert name full param)
      | none => canonicalTargets rest param

/-- The call of an action that an item names by `key`. What is under the key
is the parameter itself if it is a text and the action takes one, the
parameters if it is an object, and otherwise the prompt of the target. -/
def buildCall (a : Action) (key : String) (item : Item) : Checked Command := do
  let own := Value.ofOption (Fields.get? key item)
  match own, a.acceptsBareString with
  | .str s, true => callOf a (.str s)
  | _, _ =>
    let prompt := match own with
      | .obj _ => none
      | v => Prompt.ofValue? v
    let merged := match own with
      | .obj fs => Fields.merge item fs
      | _ => item
    let options := match prompt with
      | some p => Fields.insert "prompt" p.toValue merged
      | none => merged
    let split ← Locator.split prompt options ([a.name, resultKey] ++ a.interfaceAlias.toList)
    let names := match a.schema with
      | some s => s.locatorNames.filter (· != "locate")
      | none => []
    let param ← canonicalTargets names split.rest
    let param := match split.locator with
      | some l => Fields.insert "locate" l.toValue param
      | none => param
    callOf a (.obj param)

/-- The call of the one action that an item names. -/
def buildAction (registry : Registry) (item : Item) : Checked Command :=
  match registry.matching item with
  | [] => throw (.unknownItem item)
  | [(a, key)] => buildCall a key item
  | several => throw (.ambiguousItem (several.map fun (a, _) => a.name) item)

/-- The command of an item that has the form of a rule. -/
def build (registry : Registry) (item : Item) : Rule → Checked Command
  | .act => buildAct item
  | .assertion => buildAssertion item
  | .extract => buildExtract item
  | .waitFor => buildWaitFor item
  | .sleep => buildSleep item
  | .javascript => buildJavascript item
  | .report => buildReport item
  | .input => buildInput registry item
  | .keyboardPress => buildKeyboardPress registry item
  | .scroll => buildScroll registry item
  | .action => buildAction registry item

end Step

/-- A step that is understood. -/
structure Step where
  rule : Rule
  /-- The name its result is kept under. -/
  name : Option String
  command : Command

namespace Step

/-- The rule of an item: the first that applies. -/
def ruleOf? (registry : Registry) (item : Item) : Option Rule :=
  Rule.all.find? (Rule.applies registry item)

/-- Works out what an item means. -/
def resolve (registry : Registry) (item : Item) : Checked Step :=
  match ruleOf? registry item with
  | none => throw (.unknownItem item)
  | some rule => do
    let command ← build registry item rule
    pure ⟨rule, resultName? item, command⟩

end Step

end Runbook

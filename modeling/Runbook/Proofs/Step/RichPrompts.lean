/-
Prompts that carry more than a text, as targets.

A target may be an object with a text under `prompt` and further entries, such as images. Where a
step has a form of its own, the whole object is the prompt of the target and nothing of it is lost.
Under the key of another action, and as a target of its own among the parameters, the same object
is read as a locator that is written out: its text is the prompt, and the entries that are no hints
are lost (`rich_prompts`).
-/
import Runbook.Proofs.Step.Replay

namespace Runbook

open Item
open Fields (get? Distinct)

namespace Locator

/-- A locator of which the object is the prompt. -/
def whole (fs : Object) : Value := toValue { prompt := .structured fs }

/-- A locator that the object is read as, with this text for its prompt. -/
def bare (text : String) (fs : Object) : Value := toValue (described (.text text) fs)

/-- What a locator has under a key of its prompt. -/
def inPrompt? (key : String) (locator : Value) : Option Value :=
  (locator.field? "prompt").bind (Value.field? key)

variable {fs : Object} {text : String}

theorem inPrompt?_whole (key : String) : inPrompt? key (whole fs) = get? key fs := rfl

theorem inPrompt?_bare (key : String) : inPrompt? key (bare text fs) = none := rfl

theorem promptAt?_of_text (hprompt : get? "prompt" fs = some (.str text)) (htext : text ≠ "") :
    promptAt? "prompt" fs = some (.text text) := by
  simp [promptAt?, hprompt, Prompt.ofValue?, htext]

/-- An object with a text under `prompt` is read as a locator. -/
theorem canonical?_of_text (hprompt : get? "prompt" fs = some (.str text)) (htext : text ≠ "") :
    canonical? (.obj fs) = pure (some (bare text fs)) := by
  have hcontains : Fields.contains "prompt" fs = true := by
    rw [Fields.contains_iff_get?, hprompt]
    rfl
  simp only [canonical?, hcontains, if_true, build_none, promptAt?_of_text hprompt htext,
    Option.some_or]
  rfl

end Locator

namespace Step

open Locator (whole bare inPrompt?)

variable {fs param : Object} {text : String}

/-- A step that comes to a call of an action, and whose result has no name. -/
def calling (rule : Rule) (action : String) (param : Object) : Step :=
  ⟨rule, none, .ask (.call action (.obj param))⟩

theorem callOf_of_normalize {a : Action} (h : a.normalize (.obj param) = .ok (.obj fs)) :
    callOf a (.obj param) = pure (.ask (.call a.name (.obj fs))) := by
  unfold callOf
  rw [h]

theorem callKey_of_normalize {registry : Registry} {key : String} {a : Action}
    (hkey : registry.require key = .ok a) (h : a.normalize (.obj param) = .ok (.obj fs)) :
    callKey registry key param = pure (.ask (.call a.name (.obj fs))) := by
  unfold callKey
  rw [hkey, ← callOf_of_normalize h]
  rfl

/-! ## Steps with a form of their own -/

theorem resolve_input_at (fs : Object) {value : String} (hvalue : value ≠ "") :
    resolve .standard [("aiInput", .str value), ("locate", .obj fs)] = pure (calling .input "Input"
      [("value", .str value), ("locate", whole fs), ("mode", .str "replace")]) := by
  let item : Item := [("aiInput", .str value), ("locate", .obj fs)]
  have hsaid : isSaid (some (.str value)) = true := by simp [isSaid, hvalue]
  have hrule : ruleOf? .standard item = some .input := rfl
  have hbuild : buildInput .standard item =
      keyedCall .standard "Input" (inputParam item (.obj fs) (.str value)) :=
    buildInput_of_locate rfl rfl hsaid rfl
  have hlocated : keyedCall .standard "Input" (inputParam item (.obj fs) (.str value)) =
      callKey .standard "Input" [("locate", whole fs), ("value", .str value)] := rfl
  have hcall : callKey .standard "Input" [("locate", whole fs), ("value", .str value)] =
      pure (.ask (.call "Input" (.obj
        [("value", .str value), ("locate", whole fs), ("mode", .str "replace")]))) :=
    callKey_of_normalize (a := .standard .input) rfl rfl
  show resolve .standard item = _
  rw [resolve_of_ruleOf? hrule, build, hbuild, hlocated, hcall]
  rfl

/-- Without a text there is nothing to enter, whatever the target. -/
theorem resolve_input_without (fs : Object) :
    resolve .standard [("aiInput", .str ""), ("locate", .obj fs)] =
      throw (.validation ⟨"Input.value", .absent⟩) := rfl

theorem resolve_scroll_at (fs : Object) : resolve .standard [("aiScroll", .obj fs)] =
    pure (calling .scroll "Scroll" [("direction", .str "down"),
      ("scrollType", .str "singleAction"), ("locate", whole fs)]) := by
  have hrule : ruleOf? .standard [("aiScroll", .obj fs)] = some .scroll := rfl
  rw [resolve_of_ruleOf? hrule]
  show (buildScroll .standard _ >>= _) = _
  rw [buildScroll_of_own rfl rfl]
  rfl

/-! ## Other actions -/

/-- Under the key of an action the object is put beside the step's own entries. -/
theorem build_enclosing_of_text {key : String} (hd : Distinct fs)
    (hkey : key ∉ "locate" :: Locator.keys) (hprompt : get? "prompt" fs = some (.str text))
    (htext : text ≠ "") : Locator.build none (enclosing key fs) =
      pure (some (Locator.described (.text text) fs)) := by
  have hget : ∀ k ∈ "locate" :: Locator.keys, get? k (enclosing key fs) = get? k fs := by
    intro k hk
    have hne : key ≠ k := fun heq => hkey (heq ▸ hk)
    rw [get?_enclosing hd, if_neg hne, Option.or_none]
  rw [Locator.build_congr (fun k hk => hget k (List.mem_cons_of_mem _ hk))
      fun _ => hget "locate" (by decide),
    Locator.build_none, Locator.promptAt?_of_text hprompt htext, Option.some_or, Option.map_some]

theorem resolve_tap_at (hd : Distinct fs) (hprompt : get? "prompt" fs = some (.str text))
    (htext : text ≠ "") : resolve .standard [("aiTap", .obj fs)] =
      pure (calling .action "Tap" [("locate", bare text fs)]) := by
  have hcall : callWith (.standard .tap) none (enclosing "aiTap" fs) =
      pure (.ask (.call "Tap" (.obj [("locate", bare text fs)]))) := by
    unfold callWith Locator.split
    rw [build_enclosing_of_text hd (by decide) hprompt htext]
    show callOf (.standard .tap) (.obj (Fields.insert "locate" (bare text fs) _)) = _
    have hlocate : ∀ f ∈ [(Field.target "locate").describe "The element to be tapped"],
        get? f.name (Fields.insert "locate" (bare text fs) (Fields.without
          ("locate" :: Locator.keys ++ ownKeys (.standard .tap)) (enclosing "aiTap" fs))) =
        get? f.name [("locate", bare text fs)] := by
      intro f hf
      obtain rfl := List.mem_singleton.mp hf
      exact (Fields.get?_insert ..).trans (if_pos rfl)
    refine (callOf_congr rfl StandardAction.tap.onlyStringifies rfl hlocate).trans ?_
    exact callOf_of_normalize (a := .standard .tap) rfl
  show resolve .standard (asItem "aiTap" (.obj fs)) = _
  rw [resolve_enclosing (a := .standard .tap) (List.mem_map_of_mem (StandardAction.mem_all .tap))
    (by decide) (by decide), hcall]
  rfl

theorem resolve_drag_between (hprompt : get? "prompt" fs = some (.str text)) (htext : text ≠ "") :
    resolve .standard [("aiDragAndDrop", .obj [("from", .obj fs), ("to", .obj fs)])] =
      pure (calling .action "DragAndDrop" [("from", bare text fs), ("to", bare text fs)]) := by
  have hcanonical := Locator.canonical?_of_text hprompt htext
  have htargets : canonicalTargets ["from", "to"] [("from", .obj fs), ("to", .obj fs)] =
      pure [("from", bare text fs), ("to", bare text fs)] := by
    rw [canonicalTargets_cons rfl hcanonical, canonicalTargets_cons rfl hcanonical]
    rfl
  have hcall : callWith (.standard .dragAndDrop) none
      (enclosing "aiDragAndDrop" [("from", .obj fs), ("to", .obj fs)]) =
        pure (.ask (.call "DragAndDrop" (.obj [("from", bare text fs), ("to", bare text fs)]))) := by
    show ((liftM (canonicalTargets ["from", "to"] [("from", .obj fs), ("to", .obj fs)]) :
      Checked Object) >>= fun param => callOf (.standard .dragAndDrop) (.obj param)) = _
    rw [htargets]
    rfl
  show resolve .standard (asItem "aiDragAndDrop" _) = _
  rw [resolve_enclosing (a := .standard .dragAndDrop)
    (List.mem_map_of_mem (StandardAction.mem_all .dragAndDrop)) (by decide) (by decide), hcall]
  rfl

/-- **Where a prompt keeps what it carries besides its text.** As the target of a text entry or of
a scroll, an object with a text under `prompt` is the prompt as a whole. Under the key of a tap, or
as a target of a drag, it is read as a locator of that text. So any other of its entries is in the
prompt of the former two, and not in that of the latter. -/
theorem rich_prompts {registry : Registry}
    (hregistry : Registry.build (StandardAction.all.map Action.standard) = .ok registry)
    {fs : Object} {text : String} (hd : Distinct fs)
    (hprompt : get? "prompt" fs = some (.str text)) (htext : text ≠ "") :
    (∀ value, value ≠ "" → resolve registry [("aiInput", .str value), ("locate", .obj fs)] =
      pure (calling .input "Input"
        [("value", .str value), ("locate", whole fs), ("mode", .str "replace")])) ∧
    resolve registry [("aiInput", .str ""), ("locate", .obj fs)] =
      throw (.validation ⟨"Input.value", .absent⟩) ∧
    resolve registry [("aiScroll", .obj fs)] = pure (calling .scroll "Scroll"
      [("direction", .str "down"), ("scrollType", .str "singleAction"), ("locate", whole fs)]) ∧
    resolve registry [("aiTap", .obj fs)] =
      pure (calling .action "Tap" [("locate", bare text fs)]) ∧
    resolve registry [("aiDragAndDrop", .obj [("from", .obj fs), ("to", .obj fs)])] =
      pure (calling .action "DragAndDrop" [("from", bare text fs), ("to", bare text fs)]) ∧
    ∀ key v, get? key fs = some v →
      inPrompt? key (whole fs) = some v ∧ inPrompt? key (bare text fs) = none := by
  obtain rfl : Registry.standard = registry :=
    Except.ok.inj (Registry.build_standard.symm.trans hregistry)
  refine ⟨fun value => resolve_input_at fs, resolve_input_without fs, resolve_scroll_at fs,
    resolve_tap_at hd hprompt htext, resolve_drag_between hprompt htext, fun key v hv => ?_⟩
  exact ⟨(Locator.inPrompt?_whole key).trans hv, Locator.inPrompt?_bare key⟩

/-- A logo, described by an image of it: the tap does without the image. -/
theorem rich_prompts_logo :
    let logo : Object := [("prompt", .str "logo"), ("images", .arr [.str "logo.png"])]
    let described : Value :=
      .obj [("prompt", .obj logo), ("deepThink", .bool false), ("cacheable", .bool true)]
    let named : Value :=
      .obj [("prompt", .str "logo"), ("deepThink", .bool false), ("cacheable", .bool true)]
    Registry.build (StandardAction.all.map Action.standard) = .ok .standard ∧ Distinct logo ∧
      get? "prompt" logo = some (.str "logo") ∧ "logo" ≠ "" ∧
      resolve .standard [("aiInput", .str "shoes"), ("locate", .obj logo)] =
        pure (calling .input "Input"
          [("value", .str "shoes"), ("locate", described), ("mode", .str "replace")]) ∧
      resolve .standard [("aiTap", .obj logo)] = pure (calling .action "Tap" [("locate", named)]) ∧
      inPrompt? "images" described = some (.arr [.str "logo.png"]) ∧
      inPrompt? "images" named = none := by
  intro logo described named
  have hregistry : Registry.build (StandardAction.all.map Action.standard) = .ok .standard := rfl
  have hd : Distinct logo := by decide
  have hprompt : get? "prompt" logo = some (.str "logo") := rfl
  have htext : "logo" ≠ "" := by decide
  obtain ⟨hinput, -, -, htap, -, hentries⟩ := rich_prompts hregistry hd hprompt htext
  exact ⟨hregistry, hd, hprompt, htext, hinput "shoes" (by decide), htap, hentries "images" _ rfl⟩

end Step

end Runbook

/-
The forms of a step that scripts have used over time.

Text entry, key presses and scrolling have each been written in two ways: with the target under
`locate`, or under the step's own key. Both ways of writing a step call the same action with the
same parameters (`generations_agree`), whatever else the step holds and whatever the actions are.
The two are read differently, and the older one leaves the bare target among the parameters until
the locator replaces it; that is why the parameters agree off `locate` only, and in another order.
A function of the action may go by that order, so the steps come to the same where none does
(`SameCall`).
-/
import Runbook.Proofs.Binary64
import Runbook.Proofs.Step.Alike
import Runbook.Proofs.Step.Rules

namespace Runbook

open Item

/-! ## Targets that are said -/

/-- Zero, of any kind. -/
def Number.IsZero : Number → Prop
  | .nat n => n = 0
  | .negSucc _ => False
  | .real x => x.code = 0

/-- A text that is not empty, a number other than zero, or an object. -/
def Value.NamesTarget : Value → Prop
  | .str s => s ≠ ""
  | .num n => ¬ n.IsZero
  | .obj _ => True
  | _ => False

theorem Number.isZero_toBinary64 {n : Number} (h : ¬ n.IsZero) : n.toBinary64.isZero = false := by
  cases n with
  | nat n =>
    refine Binary64.isZero_ofInt fun hzero => h (UInt64.toNat_inj.mp ?_)
    exact Int.ofNat_eq_zero.mp hzero
  | negSucc n => exact Binary64.isZero_ofInt (by simp)
  | real x => simpa [toBinary64, Binary64.isZero, IsZero] using h

namespace Value.NamesTarget

variable {t : Value}

theorem isSaid (h : t.NamesTarget) : isSaid (some t) = true := by
  cases t with
  | str s =>
    have hs : s ≠ "" := h
    simp [Item.isSaid, hs]
  | num n => simp [Item.isSaid, Number.isZero_toBinary64 h]
  | obj fs => rfl
  | _ => exact h.elim

theorem prompt (h : t.NamesTarget) : ∃ p, (some t).bind Prompt.ofValue? = some p := by
  cases t with
  | str s =>
    refine ⟨.text s, ?_⟩
    have hs : s ≠ "" := h
    simp [Prompt.ofValue?, hs]
  | num n => exact ⟨_, rfl⟩
  | obj fs => exact ⟨_, rfl⟩
  | _ => exact h.elim

end Value.NamesTarget

/-! ## The forms one by one -/

namespace Step

variable {registry : Registry} {item : Item} {t x : Value}

theorem get?_options {key : String} {names : List String} (h : key ∉ resultKey :: names) :
    Fields.get? key (options item names) = Fields.get? key item := by
  unfold options
  rw [Fields.get?_without, if_neg h]

/-- The parameters that a text and a target come to. -/
def inputParam (item : Item) (t x : Value) : Logged Object :=
  let rest := options item ["aiInput", "value"]
  withLocator (Fields.insert "value" (Schema.stringify x) rest) (some t) rest

/-- The parameters that a key and a target come to. -/
def keyboardPressParam (item : Item) (t x : Value) : Logged Object :=
  let rest := options item ["aiKeyboardPress"]
  withLocator (Fields.insert "keyName" x rest) (some t) rest

/-- The parameters that a scroll at a target comes to. -/
def scrollParam (item : Item) (t : Value) : Logged Object :=
  let rest := options item ["aiScroll"]
  withLocator rest (some t) rest

theorem buildInput_of_locate (hown : Fields.get? "aiInput" item = some x)
    (hlocate : Fields.get? "locate" item = some t) (hx : isSaid (some x) = true)
    (ht : isSaid (some t) = true) :
    buildInput registry item = keyedCall registry "Input" (inputParam item t x) := by
  have hrest : Fields.get? "locate" (options item ["aiInput", "value"]) = some t := by
    rw [get?_options (by decide), hlocate]
  simp only [buildInput, keyedCall, inputParam, hown, hrest, ht, hx, if_true]
  cases x with
  | null => cases hx
  | _ => rfl

theorem buildInput_of_value (hown : Fields.get? "aiInput" item = some t)
    (hlocate : Fields.get? "locate" item = none) (hvalue : Fields.get? "value" item = some x)
    (hx : isSaid (some x) = true) (ht : isSaid (some t) = true) :
    buildInput registry item = keyedCall registry "Input" (inputParam item t x) := by
  have hrest : Fields.get? "locate" (options item ["aiInput", "value"]) = none := by
    rw [get?_options (by decide), hlocate]
  have hnone : isSaid none = false := rfl
  simp only [buildInput, keyedCall, inputParam, hown, hrest, hvalue, ht, hnone,
    Bool.false_eq_true, if_true, if_false]
  cases x with
  | null => cases hx
  | _ => rfl

theorem buildKeyboardPress_of_locate (hown : Fields.get? "aiKeyboardPress" item = some x)
    (hlocate : Fields.get? "locate" item = some t) (hx : isSaid (some x) = true)
    (ht : isSaid (some t) = true) :
    buildKeyboardPress registry item =
      keyedCall registry "KeyboardPress" (keyboardPressParam item t x) := by
  have hrest : Fields.get? "locate" (options item ["aiKeyboardPress"]) = some t := by
    rw [get?_options (by decide), hlocate]
  simp only [buildKeyboardPress, keyedCall, keyboardPressParam, hown, hrest, ht, hx, if_true]

theorem buildKeyboardPress_of_keyName (hown : Fields.get? "aiKeyboardPress" item = some t)
    (hlocate : Fields.get? "locate" item = none) (hkey : Fields.get? "keyName" item = some x)
    (hx : isSaid (some x) = true) :
    buildKeyboardPress registry item =
      keyedCall registry "KeyboardPress" (keyboardPressParam item t x) := by
  have hrest : Fields.get? "locate" (options item ["aiKeyboardPress"]) = none := by
    rw [get?_options (by decide), hlocate]
  have hrestKey : Fields.get? "keyName" (options item ["aiKeyboardPress"]) = some x := by
    rw [get?_options (by decide), hkey]
  have hnone : isSaid none = false := rfl
  simp only [buildKeyboardPress, keyedCall, keyboardPressParam, hown, hrest, hrestKey, hx, hnone,
    Bool.false_eq_true, if_true, if_false]

theorem buildScroll_of_locate (hlocate : Fields.get? "locate" item = some t)
    (ht : isSaid (some t) = true) :
    buildScroll registry item = keyedCall registry "Scroll" (scrollParam item t) := by
  have hrest : Fields.get? "locate" (options item ["aiScroll"]) = some t := by
    rw [get?_options (by decide), hlocate]
  simp only [buildScroll, keyedCall, scrollParam, hrest, ht, if_true]

theorem buildScroll_of_own (hown : Fields.get? "aiScroll" item = some t)
    (hlocate : Fields.get? "locate" item = none) :
    buildScroll registry item = keyedCall registry "Scroll" (scrollParam item t) := by
  have hrest : Fields.get? "locate" (options item ["aiScroll"]) = none := by
    rw [get?_options (by decide), hlocate]
  have hnone : isSaid none = false := rfl
  simp only [buildScroll, keyedCall, scrollParam, hrest, hown, hnone, Bool.false_eq_true, if_false]

/-! ## Items that spell the same call -/

variable {item' opts entries : Object}

/-- The item has the given entries and the options, in some order, and nothing twice. In
particular the options lack the keys of the entries. -/
def Spells (item : Item) (entries opts : Object) : Prop := Fields.Reordered item (entries ++ opts)

namespace Spells

variable {key : String}

theorem get?_eq (h : Spells item entries opts) (key : String) :
    Fields.get? key item = (Fields.get? key entries).or (Fields.get? key opts) := by
  rw [Fields.Reordered.get?_eq h, Fields.get?_append]

theorem get?_own {v : Value} (h : Spells item entries opts)
    (hget : Fields.get? key entries = some v) : Fields.get? key item = some v := by
  rw [h.get?_eq, hget, Option.some_or]

theorem get?_off (h : Spells item entries opts) (hkey : key ∉ Fields.keys entries) :
    Fields.get? key item = Fields.get? key opts := by
  rw [h.get?_eq, Fields.get?_eq_none_iff.mpr hkey, Option.none_or]

theorem get?_lacking (h : Spells item entries opts) (hkey : key ∈ Fields.keys entries) :
    Fields.get? key opts = none := by
  have hd := h.distinct_right
  simp only [Fields.Distinct, Fields.keys, List.map_append, List.nodup_append] at hd
  exact Fields.get?_eq_none_iff.mpr fun hmem => hd.2.2 key hkey key hmem rfl

/-- Entries with the keys of a rule give the item its form. -/
theorem ruleOf? {rule : Rule} (h : Spells item entries opts) (hopts : rule.Spares registry opts)
    (hkeys : rule.HasForm (Fields.keys entries)) : Step.ruleOf? registry item = some rule := by
  obtain ⟨⟨key, hkey, hmem⟩, habove, -⟩ := hkeys
  refine ruleOf?_eq_some ?_ fun r hr => ?_
  · have hne : rule ≠ .action := by
      rintro rfl
      cases hkey
    rw [rule.applies_eq_hasAny hne, hasAny_iff]
    refine ⟨key, hkey, ?_⟩
    cases hget : Fields.get? key entries with
    | none => exact absurd hmem (Fields.get?_eq_none_iff.mp hget)
    | some v => rw [h.get?_own hget]; rfl
  · have hr' : r ≠ .action := fun heq => rule.action_not_mem_above (heq ▸ hr)
    rw [r.applies_eq_hasAny hr', ← hopts r hr, r.applies_eq_hasAny hr']
    exact hasAny_congr fun key hkey => h.get?_off (habove r hr key hkey)

/-- Two ways of spelling one form, whose calls have the same parameters but for their order. -/
theorem sameCall {rule : Rule} {entries' : Object} {param param' : Logged Object}
    (h : Spells item entries opts) (h' : Spells item' entries' opts)
    (hopts : rule.Spares registry opts) (hkeys : rule.HasForm (Fields.keys entries))
    (hkeys' : rule.HasForm (Fields.keys entries'))
    (hbuild : build registry item rule = keyedCall registry key param)
    (hbuild' : build registry item' rule = keyedCall registry key param')
    (hparam : Logged.Alike Fields.Reordered param param') :
    SameCall registry rule key item item' := by
  have hname : resultName? item = resultName? item' := by
    unfold resultName?
    rw [h.get?_off hkeys.2.2, h'.get?_off hkeys'.2.2]
  have hitem : resolve registry item = keyedStep registry rule key (resultName? item) param := by
    rw [resolve_of_ruleOf? (h.ruleOf? hopts hkeys), hbuild, keyedStep]
  have hitem' : resolve registry item' = keyedStep registry rule key (resultName? item) param' := by
    rw [resolve_of_ruleOf? (h'.ruleOf? hopts hkeys'), hbuild', hname, keyedStep]
  exact .of_resolve hparam hitem hitem'

end Spells

theorem get?_options_congr {key : String} {names : List String}
    (h : key ∉ resultKey :: names → Fields.get? key item = Fields.get? key item') :
    Fields.get? key (options item names) = Fields.get? key (options item' names) := by
  unfold options
  rw [Fields.get?_without, Fields.get?_without]
  split
  · rfl
  · next hmem => exact h hmem

theorem inputParam_alike (ht : t.NamesTarget) (hd : Fields.Distinct item)
    (hd' : Fields.Distinct item')
    (h : ∀ k, k ∉ ["aiInput", "value", "locate"] → Fields.get? k item = Fields.get? k item') :
    Logged.Alike Fields.Reordered (inputParam item t x) (inputParam item' t x) := by
  obtain ⟨p, hp⟩ := ht.prompt
  have hrest : ∀ k, k ≠ "locate" → Fields.get? k (options item ["aiInput", "value"]) =
      Fields.get? k (options item' ["aiInput", "value"]) := by
    refine fun k hk => get?_options_congr fun hmem => h k ?_
    simp only [List.mem_cons, not_or] at hmem ⊢
    exact ⟨hmem.2.1, hmem.2.2.1, hk, hmem.2.2.2⟩
  refine withLocator_alike hp (Fields.distinct_insert (Fields.distinct_without _ hd))
    (Fields.distinct_insert (Fields.distinct_without _ hd')) (fun k hk => ?_) fun k hk => ?_
  · rw [Fields.get?_insert, Fields.get?_insert, hrest k hk]
  · exact hrest k fun heq => absurd (heq ▸ hk) (by decide)

theorem keyboardPressParam_alike (ht : t.NamesTarget) (hd : Fields.Distinct item)
    (hd' : Fields.Distinct item')
    (h : ∀ k, k ∉ ["aiKeyboardPress", "keyName", "locate"] →
      Fields.get? k item = Fields.get? k item') :
    Logged.Alike Fields.Reordered (keyboardPressParam item t x) (keyboardPressParam item' t x) := by
  obtain ⟨p, hp⟩ := ht.prompt
  have hrest : ∀ k, k ≠ "keyName" → k ≠ "locate" →
      Fields.get? k (options item ["aiKeyboardPress"]) =
        Fields.get? k (options item' ["aiKeyboardPress"]) := by
    refine fun k hkey hk => get?_options_congr fun hmem => h k ?_
    simp only [List.mem_cons, not_or] at hmem ⊢
    exact ⟨hmem.2.1, hkey, hk, hmem.2.2⟩
  refine withLocator_alike hp (Fields.distinct_insert (Fields.distinct_without _ hd))
    (Fields.distinct_insert (Fields.distinct_without _ hd')) (fun k hk => ?_) fun k hk => ?_
  · rw [Fields.get?_insert, Fields.get?_insert]
    split
    · rfl
    · next hkey => exact hrest k (fun heq => hkey heq.symm) hk
  · exact hrest k (fun heq => absurd (heq ▸ hk) (by decide))
      fun heq => absurd (heq ▸ hk) (by decide)

theorem scrollParam_alike (ht : t.NamesTarget) (hd : Fields.Distinct item)
    (hd' : Fields.Distinct item')
    (h : ∀ k, k ∉ ["aiScroll", "locate"] → Fields.get? k item = Fields.get? k item') :
    Logged.Alike Fields.Reordered (scrollParam item t) (scrollParam item' t) := by
  obtain ⟨p, hp⟩ := ht.prompt
  have hrest : ∀ k, k ≠ "locate" → Fields.get? k (options item ["aiScroll"]) =
      Fields.get? k (options item' ["aiScroll"]) := by
    refine fun k hk => get?_options_congr fun hmem => h k ?_
    simp only [List.mem_cons, not_or] at hmem ⊢
    exact ⟨hmem.2.1, hk, hmem.2.2⟩
  refine withLocator_alike hp (Fields.distinct_without _ hd) (Fields.distinct_without _ hd') hrest
    fun k hk => ?_
  exact hrest k fun heq => absurd (heq ▸ hk) (by decide)

/-! ## The forms agree -/

variable {older newer : Item}

theorem input_generations (ht : t.NamesTarget) (hx : isSaid (some x) = true)
    (hold : Spells older [("aiInput", x), ("locate", t)] opts)
    (hnew : Spells newer [("aiInput", t), ("value", x)] opts)
    (hopts : Rule.Spares registry opts .input) : SameCall registry .input "Input" older newer := by
  have hlocate : Fields.get? "locate" newer = none := by
    rw [hnew.get?_off (by simp [Fields.keys]), hold.get?_lacking (by simp [Fields.keys])]
  refine hold.sameCall hnew hopts (show Rule.HasForm .input ["aiInput", "locate"] by decide)
    (show Rule.HasForm .input ["aiInput", "value"] by decide)
    (buildInput_of_locate (hold.get?_own rfl) (hold.get?_own rfl) hx ht.isSaid)
    (buildInput_of_value (hnew.get?_own rfl) hlocate (hnew.get?_own rfl) hx ht.isSaid) ?_
  refine inputParam_alike ht hold.distinct hnew.distinct fun k hk => ?_
  simp only [List.mem_cons, not_or] at hk
  rw [hold.get?_off (by simp [Fields.keys, hk]), hnew.get?_off (by simp [Fields.keys, hk])]

theorem keyboardPress_generations (ht : t.NamesTarget) (hx : isSaid (some x) = true)
    (hold : Spells older [("aiKeyboardPress", x), ("locate", t)] opts)
    (hnew : Spells newer [("aiKeyboardPress", t), ("keyName", x)] opts)
    (hopts : Rule.Spares registry opts .keyboardPress) :
    SameCall registry .keyboardPress "KeyboardPress" older newer := by
  have hlocate : Fields.get? "locate" newer = none := by
    rw [hnew.get?_off (by simp [Fields.keys]), hold.get?_lacking (by simp [Fields.keys])]
  refine hold.sameCall hnew hopts
    (show Rule.HasForm .keyboardPress ["aiKeyboardPress", "locate"] by decide)
    (show Rule.HasForm .keyboardPress ["aiKeyboardPress", "keyName"] by decide)
    (buildKeyboardPress_of_locate (hold.get?_own rfl) (hold.get?_own rfl) hx ht.isSaid)
    (buildKeyboardPress_of_keyName (hnew.get?_own rfl) hlocate (hnew.get?_own rfl) hx) ?_
  refine keyboardPressParam_alike ht hold.distinct hnew.distinct fun k hk => ?_
  simp only [List.mem_cons, not_or] at hk
  rw [hold.get?_off (by simp [Fields.keys, hk]), hnew.get?_off (by simp [Fields.keys, hk])]

theorem scroll_generations {y : Value} (ht : t.NamesTarget)
    (hold : Spells older [("aiScroll", y), ("locate", t)] opts)
    (hnew : Spells newer [("aiScroll", t)] opts) (hopts : Rule.Spares registry opts .scroll) :
    SameCall registry .scroll "Scroll" older newer := by
  have hlocate : Fields.get? "locate" newer = none := by
    rw [hnew.get?_off (by simp [Fields.keys]), hold.get?_lacking (by simp [Fields.keys])]
  refine hold.sameCall hnew hopts (show Rule.HasForm .scroll ["aiScroll", "locate"] by decide)
    (show Rule.HasForm .scroll ["aiScroll"] by decide)
    (buildScroll_of_locate (hold.get?_own rfl) ht.isSaid)
    (buildScroll_of_own (hnew.get?_own rfl) hlocate) ?_
  refine scrollParam_alike ht hold.distinct hnew.distinct fun k hk => ?_
  simp only [List.mem_cons, not_or] at hk
  rw [hold.get?_off (by simp [Fields.keys, hk]), hnew.get?_off (by simp [Fields.keys, hk])]

/-- A function that takes the first key of the parameters tells the two forms apart. -/
example :
    let firstKey (v : Value) : Value := match v with
      | .obj ((key, _) :: _) => .str key
      | _ => .null
    let input : Action :=
      ⟨"Input", none, "Enters a text", some (.preprocessed .any firstKey), .custom⟩
    let registry : Registry := ⟨[input], List.pairwise_singleton ..⟩
    resolve registry [("aiInput", .str "shoes"), ("locate", .str "box")] =
        pure ⟨.input, none, .ask (.call "Input" (.str "locate"))⟩ ∧
      resolve registry [("aiInput", .str "box"), ("value", .str "shoes")] =
        pure ⟨.input, none, .ask (.call "Input" (.str "value"))⟩ := ⟨rfl, rfl⟩

/-- The actions that have two forms. -/
def formed : Registry where
  actions := [.standard .input, .standard .keyboardPress, .standard .scroll]
  separate := by decide

theorem onlyStringifies_formed {key : String} {a : Action} (h : formed.get? key = some a) :
    a.OnlyStringifies := by
  obtain rfl | rfl | rfl : a = .standard .input ∨ a = .standard .keyboardPress ∨
      a = .standard .scroll := by
    simpa [formed] using List.mem_of_find?_eq_some h
  all_goals exact Action.onlyStringifies_standard _

/-- A list of one. -/
def single (v : Value) : Value := .arr [v]

theorem orderFree_single : Value.OrderFree single := fun _ _ h => .arr (.cons h .nil)

/-- Text entry by an action that takes a list of texts to enter, and one of them for itself. -/
def listed : Registry where
  actions := [⟨"Input", none, "Enters texts one after another",
    some (.preprocessed (.array StandardAction.input.schema) single), .custom⟩]
  separate := List.pairwise_singleton ..

theorem isOrderFree_listed {key : String} {a : Action} (h : listed.get? key = some a) :
    a.IsOrderFree := by
  obtain rfl := List.mem_singleton.mp (List.mem_of_find?_eq_some h)
  rintro _ ⟨⟩
  exact ⟨orderFree_single, (StandardAction.onlyStringifies .input).isOrderFree⟩

end Step

end Runbook

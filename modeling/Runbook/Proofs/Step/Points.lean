/-
Points that a step gives to a swipe.

The start and the end of a swipe are targets, so a step brings them into full form like any other
target (`callWith_standard`). The action wants points for them, and a full form is never one
(`Point.ofValue?_toValue`). So it comes down to which points have a full form
(`Point.ofTarget?_eq_none_iff`): a pair of numbers has none and arrives, while a point that is
written as an object stands for a prompt and is refused in its full form (`resolve_points`). The
other parameters arrive as they are, also a number of repetitions that the action cannot keep.
-/
import Runbook.Proofs.Step.Enclosed
import Runbook.Proofs.Step.Swipes

namespace Runbook

open Fields (get? Distinct)

/-! ## Points and full forms -/

/-- The object that stands for a locator is no point. -/
theorem Point.ofValue?_toValue (l : Locator) : Point.ofValue? l.toValue = none := by
  obtain ⟨prompt, deepThink, cacheable, xpath⟩ := l
  cases xpath <;> rfl

/-- A point stands for a locator if it is an object, unless it has a `prompt` entry that is no
prompt. -/
theorem Point.ofTarget?_eq_none_iff {v : Value} {p : Point} (h : Point.ofValue? v = some p) :
    Locator.ofTarget? v = none ↔ ∀ fs, v = .obj fs → Fields.contains "prompt" fs = true ∧
      Locator.promptAt? "prompt" fs = none ∧ Locator.promptAt? "locate" fs = none := by
  cases v with
  | obj fs =>
    by_cases hprompt : Fields.contains "prompt" fs = true
    · simp [Locator.ofTarget?, hprompt]
    · simp [Locator.ofTarget?, hprompt]
  | arr vs => simp [Locator.ofTarget?, Prompt.ofValue?]
  | null | bool _ | num _ | str _ => cases h

/-- What an optional member reads depends on what is under its name. -/
theorem Decode.Record.optional_unique {α : Type} {name : String} {read : Value → Decoded α}
    {fs gs : Object} {x y : Option α} (hget : get? name gs = get? name fs)
    (hx : (optional name read).make (fun key => get? key fs) = .ok x)
    (hy : (optional name read).make (fun key => get? key gs) = .ok y) : x = y := by
  simp only [optional, withDefault] at hx hy
  rw [hget] at hy
  exact Except.ok.inj (hx.symm.trans hy)

namespace SwipeParams

open Decode.Record (optional_unique)

variable {which : String} {target : Option Value} {fs gs : Object} {p q : SwipeParams}

/-- A target that stands for a locator is refused where a point is wanted. -/
def arrives (which : String) (target : Option Value) : Except SwipeFault Unit :=
  match target.bind Locator.ofTarget? with
  | none => .ok ()
  | some l => .error (.unresolved which l.toValue)

theorem arrives_iff (which : String) (v : Value) :
    arrives which (some v) = .ok () ↔ Locator.ofTarget? v = none := by
  unfold arrives
  rw [Option.bind_some]
  cases Locator.ofTarget? v <;> simp

/-- A point is asked for in full form. -/
theorem point_inFull (which : String) (target : Option Value) :
    point which (target.map Locator.inFull) = (do
      arrives which target
      point which target) := by
  cases target with
  | none => rfl
  | some v =>
    unfold arrives
    rw [Option.map_some, Option.bind_some, Locator.inFull]
    cases hl : Locator.ofTarget? v with
    | none => rfl
    | some l =>
      show point which (some l.toValue) = .error (.unresolved which l.toValue)
      have hpoint := Point.ofValue?_toValue l
      unfold point
      split
      · next heq => cases heq
      · next heq => cases heq
      · next w _ heq =>
        cases heq
        rw [hpoint]

/-- A `null` is as good as no target. -/
theorem point_filter (which : String) (target : Option Value) :
    point which (target.filter (!·.isNull)) = point which target := by
  cases target with
  | none => rfl
  | some v => cases v <;> rfl

/-- An optional member of any kind is read as the point that is under its name. -/
theorem point_of_optional {o : Option Value}
    (h : (Decode.Record.optional which Decode.any).make (fun key => get? key fs) = .ok o) :
    point which o = point which (get? which fs) := by
  simp only [Decode.Record.optional, Decode.Record.withDefault] at h
  split at h
  · next v hget =>
    rw [hget]
    unfold Decode.nullable at h
    split at h
    · cases h
      rfl
    · cases h
      rfl
  · next hget =>
    cases h
    rw [hget]

/-- What is asked for with parameters whose start and end are points, next to what is asked for with
parameters that differ from them in the start and the end only. -/
theorem gesture_of_decode (hp : decode (.obj fs) = .ok p) (hq : decode (.obj gs) = .ok q)
    (hsame : ∀ key ∈ ["direction", "distance", "duration", "repeat"], get? key gs = get? key fs)
    {start finish : Option Point} (hstart : point "start" (get? "start" fs) = .ok start)
    (hfinish : point "end" (get? "end" fs) = .ok finish) :
    ∃ g, p.gesture = .ok g ∧ g.start = start ∧ g.finish = finish ∧ q.gesture = (do
      let start ← point "start" (get? "start" gs)
      let finish ← point "end" (get? "end" gs)
      .ok { g with start, finish }) := by
  obtain ⟨hs, hf, hdirection, hdistance, hduration, hcount⟩ := members_of_decode hp
  obtain ⟨hs', hf', hdirection', hdistance', hduration', hcount'⟩ := members_of_decode hq
  refine ⟨⟨start, finish, p.direction, p.distance, p.duration, p.count⟩, ?_, rfl, rfl, ?_⟩
  · unfold gesture
    rw [point_of_optional hs, point_of_optional hf, hstart, hfinish]
    rfl
  · unfold gesture
    rw [point_of_optional hs', point_of_optional hf',
      optional_unique (hsame _ (by simp)) hdirection hdirection',
      optional_unique (hsame _ (by simp)) hdistance hdistance',
      optional_unique (hsame _ (by simp)) hduration hduration',
      optional_unique (hsame _ (by simp)) hcount hcount']

end SwipeParams

/-! ## What the check leaves of points -/

namespace StandardAction

variable {a : StandardAction} {param fs : Object} {f : Field}

/-- What passes the check has under the name of a field what the field contributes. -/
theorem get?_normalize (h : (Action.standard a).normalize (.obj param) = .ok (.obj fs))
    (hf : f ∈ a.fields) :
    get? f.name fs = f.parameter? param := by
  rw [Value.obj.inj (normalize_ok h)]
  exact Field.get?_entries a.nodup_fields hf

/-- Parameters that are no targets depend on what is under their names. -/
theorem parameter?_congr {gs : Object} (hplain : f.locatable = false)
    (h : get? f.name gs = get? f.name fs) :
    f.parameter? gs = f.parameter? fs := by
  simp only [Field.parameter?, Field.check, hplain, h]

theorem parameter?_target (htarget : f.locatable = true) :
    f.parameter? fs = (get? f.name fs).filter (!·.isNull) := by
  simp only [Field.parameter?, htarget, if_true]

/-- Whether the number of repetitions fits depends on that number only. -/
theorem decode_swipe_congr {p p' q q' : Value} (h : (schema .swipe).normalize p = .ok q)
    (h' : (schema .swipe).normalize p' = .ok q')
    (hcount : p'.field? "repeat" = p.field? "repeat") :
    (∃ n, Overflows .swipe p n ∧
      SwipeParams.decode q = .error (.invalidValue (.integer n.toNat) "u32") ∧
      SwipeParams.decode q' = .error (.invalidValue (.integer n.toNat) "u32")) ∨
    (∃ r, SwipeParams.decode q = .ok r) ∧ ∃ r', SwipeParams.decode q' = .ok r' := by
  have hoverflows : ∀ n, Overflows .swipe p' n ↔ Overflows .swipe p n := by
    intro n
    simp only [Overflows, count?, Option.some.injEq, exists_eq_left', hcount]
  rcases decode_swipe h with ⟨n, hn, herror⟩ | ⟨hnone, hr⟩
  · rcases decode_swipe h' with ⟨n', hn', herror'⟩ | ⟨hnone', -⟩
    · obtain ⟨_, ⟨⟩, hfield, -⟩ := hn
      obtain ⟨_, ⟨⟩, hfield', -⟩ := (hoverflows n').mp hn'
      cases hfield.symm.trans hfield'
      exact .inl ⟨n, (hoverflows n).mp hn', herror, herror'⟩
    · exact absurd ((hoverflows n).mpr hn) (hnone' n)
  · rcases decode_swipe h' with ⟨n', hn', -⟩ | ⟨-, hr'⟩
    · exact absurd ((hoverflows n').mp hn') (hnone n')
    · exact .inr ⟨hr, hr'⟩

end StandardAction

namespace SwipeParams

open StandardAction (swipe get?_normalize parameter?_congr parameter?_target)

/-- Parameters of a swipe next to the same parameters with the targets in full form: the swipe that
is asked for is the same if no point has a full form, and else the first full form is refused. -/
theorem gesture_inFull {fs full ds ss : Object} {p q : SwipeParams} {start finish : Option Point}
    (hfull : ∀ f ∈ swipe.fields, get? f.name full =
      if f.locatable then (get? f.name fs).map Locator.inFull else get? f.name fs)
    (hfs : (Action.standard .swipe).normalize (.obj fs) = .ok (.obj ds))
    (hnormalize : (Action.standard .swipe).normalize (.obj full) = .ok (.obj ss))
    (hp : decode (.obj ds) = .ok p) (hq : decode (.obj ss) = .ok q)
    (hstart : point "start" (get? "start" fs) = .ok start)
    (hfinish : point "end" (get? "end" fs) = .ok finish) :
    ∃ g, p.gesture = .ok g ∧ g.start = start ∧ g.finish = finish ∧ q.gesture = (do
      arrives "start" (get? "start" fs)
      arrives "end" (get? "end" fs)
      .ok g) := by
  have htarget : ∀ name ∈ ["start", "end"], ∀ which x, point which (get? name fs) = .ok x →
      point which (get? name ds) = .ok x ∧ point which (get? name ss) = (do
        arrives which (get? name fs)
        .ok x) := by
    have hfields : ∀ name ∈ ["start", "end"], ∃ f ∈ swipe.fields,
        f.name = name ∧ f.locatable = true := by decide
    intro name hname which x hx
    obtain ⟨f, hf, rfl, hlocatable⟩ := hfields name hname
    rw [get?_normalize hfs hf, get?_normalize hnormalize hf, parameter?_target hlocatable,
      parameter?_target hlocatable, hfull f hf, if_pos hlocatable, point_filter, point_filter,
      point_inFull, hx]
    exact ⟨rfl, rfl⟩
  have hsame : ∀ name ∈ ["direction", "distance", "duration", "repeat"],
      get? name ss = get? name ds := by
    have hfields : ∀ name ∈ ["direction", "distance", "duration", "repeat"],
        ∃ f ∈ swipe.fields, f.name = name ∧ f.locatable = false := by decide
    intro name hname
    obtain ⟨f, hf, rfl, hplain⟩ := hfields name hname
    have hget := hfull f hf
    rw [hplain, if_neg nofun] at hget
    rw [get?_normalize hfs hf, get?_normalize hnormalize hf, parameter?_congr hplain hget]
  obtain ⟨hstart, hstart'⟩ := htarget "start" (by simp) "start" start hstart
  obtain ⟨hfinish, hfinish'⟩ := htarget "end" (by simp) "end" finish hfinish
  obtain ⟨g, hg, rfl, rfl, hgesture⟩ := gesture_of_decode hp hq hsame hstart hfinish
  refine ⟨g, hg, rfl, rfl, ?_⟩
  -- an error of the start comes before one of the end
  rw [hgesture, hstart', hfinish']
  cases arrives "start" (get? "start" fs) with
  | error e => rfl
  | ok _ => cases arrives "end" (get? "end" fs) <;> rfl

end SwipeParams

namespace Step

open SwipeParams (point arrives)
open StandardAction (Overflows)

/-- **Points that a step gives to a swipe.** Parameters that the swipe takes, with a point or
nothing for the start and for the end, are given under `aiSwipe`. The step is a call of the swipe,
and what is called asks for the same swipe as the parameters themselves do, with the same points,
unless one of the points does not arrive: the first that does not is refused in full form. A number
of repetitions that is too large is refused either way. A point arrives if it is written as a pair,
or as an object with an entry `prompt` in which there is no prompt. -/
theorem resolve_points (registry : Registry) (hswipe : .standard .swipe ∈ registry.actions)
    {fs : Object} (hd : Distinct fs) {direct : Value}
    (hdirect : (Action.standard .swipe).normalize (.obj fs) = .ok direct)
    {start finish : Option Point} (hstart : point "start" (get? "start" fs) = .ok start)
    (hfinish : point "end" (get? "end" fs) = .ok finish) :
    (∃ sent, resolve registry [("aiSwipe", .obj fs)] =
        pure ⟨.action, none, .ask (.call "Swipe" sent)⟩ ∧
      ((∃ n, Overflows .swipe (.obj fs) n ∧
          SwipeParams.decode direct = .error (.invalidValue (.integer n.toNat) "u32") ∧
          SwipeParams.decode sent = .error (.invalidValue (.integer n.toNat) "u32")) ∨
        ∃ p q g, SwipeParams.decode direct = .ok p ∧ SwipeParams.decode sent = .ok q ∧
          p.gesture = .ok g ∧ g.start = start ∧ g.finish = finish ∧
          q.gesture = (do
            arrives "start" (get? "start" fs)
            arrives "end" (get? "end" fs)
            .ok g))) ∧
      ∀ name ∈ ["start", "end"], ∀ v p, get? name fs = some v → Point.ofValue? v = some p →
        (arrives name (get? name fs) = .ok () ↔
          ∀ gs, v = .obj gs → Fields.contains "prompt" gs = true ∧
            Locator.promptAt? "prompt" gs = none ∧ Locator.promptAt? "locate" gs = none) := by
  refine ⟨?_, fun name _ v p hv hp => by
    rw [hv, SwipeParams.arrives_iff, Point.ofTarget?_eq_none_iff hp]⟩
  obtain ⟨param, hcall, hparam⟩ := callWith_standard .swipe none (enclosing "aiSwipe" fs)
  have hget : ∀ f ∈ StandardAction.swipe.fields, get? f.name param =
      if f.locatable then (get? f.name fs).map Locator.inFull else get? f.name fs := by
    have hnames : ∀ f ∈ StandardAction.swipe.fields, f.name ≠ "locate" ∧ "aiSwipe" ≠ f.name := by
      decide
    intro f hf
    obtain ⟨hlocate, hkey⟩ := hnames f hf
    rw [hparam f hf hlocate, get?_enclosing hd, if_neg hkey, Option.or_none]
  obtain ⟨sent, hsent⟩ : ∃ sent, (Action.standard .swipe).normalize (.obj param) = .ok sent := by
    have haccepted := (StandardAction.normalize_swipe_ok_iff fs).mp ⟨direct, hdirect⟩
    refine (StandardAction.normalize_swipe_ok_iff param).mpr fun f hf hplain => ?_
    rw [hget f hf, hplain, if_neg nofun]
    exact haccepted f hf hplain
  have hresolve : resolve registry [("aiSwipe", .obj fs)] =
      pure ⟨.action, none, .ask (.call "Swipe" sent)⟩ := by
    show resolve registry (asItem "aiSwipe" (.obj fs)) = _
    rw [resolve_enclosing hswipe (by decide) (by decide), hcall, Locator.split,
      Locator.build_none, callOf, hsent]
    rfl
  have hcount : (Value.obj param).field? "repeat" = (Value.obj fs).field? "repeat" :=
    hget _ (.tail _ (.tail _ (.tail _ (.tail _ (.tail _ (.head _))))))
  refine ⟨sent, hresolve, ?_⟩
  rcases StandardAction.decode_swipe_congr (Action.normalize_standard hdirect)
    (Action.normalize_standard hsent) hcount with hrefused | ⟨⟨p, hp⟩, q, hq⟩
  · exact .inl hrefused
  · obtain rfl := StandardAction.normalize_ok hdirect
    obtain rfl := StandardAction.normalize_ok hsent
    obtain ⟨g, hg⟩ := SwipeParams.gesture_inFull hget hdirect hsent hp hq hstart hfinish
    exact .inr ⟨p, q, g, hp, hq, hg⟩

/-- Of one point in two spellings the pair arrives, and the object is taken for a prompt. -/
theorem resolve_points_spelled :
    let pair : Value := .arr [.ofNat 200, .ofNat 700]
    let point : Point := ⟨.ofNat 200, .ofNat 700⟩
    let swipe (start : Value) : Object := [("start", start), ("end", .arr [.ofNat 200, .ofNat 300])]
    let center : Object := [("center", pair)]
    ∃ sent sent' p p' g,
      resolve .standard [("aiSwipe", .obj (swipe pair))] =
        pure ⟨.action, none, .ask (.call "Swipe" sent)⟩ ∧
      SwipeParams.decode sent = .ok p ∧ p.gesture = .ok g ∧ g.start = some point ∧
      resolve .standard [("aiSwipe", .obj (swipe (.obj center)))] =
        pure ⟨.action, none, .ask (.call "Swipe" sent')⟩ ∧
      SwipeParams.decode sent' = .ok p' ∧
      p'.gesture =
        .error (.unresolved "start" (Locator.toValue { prompt := .structured center })) ∧
      Point.ofValue? (.obj center) = some point ∧
      arrives "start" (some pair) = .ok () ∧ ¬ arrives "start" (some (.obj center)) = .ok () := by
  intro pair point swipe center
  have hswipe : .standard .swipe ∈ Registry.standard.actions :=
    List.mem_map_of_mem (StandardAction.mem_all _)
  have hfinish : ∀ start, SwipeParams.point "end" (get? "end" (swipe start)) =
      .ok (some ⟨.ofNat 200, .ofNat 300⟩) := fun _ => rfl
  have hpair : SwipeParams.point "start" (get? "start" (swipe pair)) = .ok (some point) := rfl
  have hcenter : SwipeParams.point "start" (get? "start" (swipe (.obj center))) =
      .ok (some point) := rfl
  obtain ⟨⟨sent, hsent, hcalled⟩, harrives⟩ :=
    resolve_points .standard hswipe (by decide) rfl hpair (hfinish _)
  obtain ⟨⟨sent', hsent', hcalled'⟩, hwrapped⟩ :=
    resolve_points .standard hswipe (by decide) rfl hcenter (hfinish _)
  have hpairArrives : arrives "start" (some pair) = .ok () :=
    (harrives "start" (by simp) pair point rfl rfl).mpr nofun
  have hcenterFails : ¬ arrives "start" (some (.obj center)) = .ok () := fun h =>
    absurd ((hwrapped "start" (by simp) (.obj center) point rfl rfl).mp h center rfl).1 (by decide)
  rcases hcalled with ⟨n, ⟨_, ⟨⟩, hn, -⟩, -⟩ | ⟨-, p, g, -, hp, -, hstart, -, hgesture⟩
  · cases hn
  rcases hcalled' with ⟨n, ⟨_, ⟨⟩, hn, -⟩, -⟩ | ⟨-, p', g', -, hp', -, -, -, hgesture'⟩
  · cases hn
  exact ⟨sent, sent', p, p', g, hsent, hp, hgesture, hstart, hsent', hp', hgesture', rfl,
    hpairArrives, hcenterFails⟩

end Step

end Runbook

/-
Where a swipe ends.

Whether there is a swipe is said of the parameters, before any screen is known: its targets are
points as far as they are there (`gesture_ok_iff`), and there is an end, or a distance and a
direction (`target_ok_iff`). A start that is not there is the centre of the screen, half of its
extent (`Screen.isHalf_center`). The end is then worked out one axis at a time. Each coordinate is
the given one, or that of the start moved by the distance on the axis of the direction and by zero
on the other one (`target_moved`), and is put between zero and the extent of the screen. Numbers are
compared by their exact values there (`clamp_at`); a zero has two spellings, and which of them comes
out is not said.
-/
import Runbook.Action.Params
import Runbook.Proofs.Binary64
import Runbook.Proofs.Decode

namespace Runbook

open Binary64 (zero zero_scaled le_iff_scaled lt_iff_scaled zero_le_iff_scaled)

/-! ## Axes -/

/-- The ways in which points differ. -/
inductive Axis where
  | x
  | y
deriving DecidableEq

def Point.along (p : Point) : Axis → Binary64
  | .x => p.x
  | .y => p.y

/-- The last coordinate on a screen. -/
def Screen.extent (s : Screen) : Axis → Binary64
  | .x => s.width
  | .y => s.height

theorem Screen.IsValid.extent {s : Screen} (h : s.IsValid) : ∀ a, zero ≤ s.extent a
  | .x => h.1
  | .y => h.2

/-- The centre is half the way to the last coordinate, on each axis. -/
theorem Screen.isHalf_center (s : Screen) : ∀ a, (s.extent a).IsHalf (s.center.along a)
  | .x => s.width.isHalf_half
  | .y => s.height.isHalf_half

/-- Whether a point is on a screen, edges included. -/
def Screen.Holds (s : Screen) (p : Point) : Prop :=
  ∀ a, zero ≤ p.along a ∧ p.along a ≤ s.extent a

namespace Direction

/-- The axis on which a direction moves a point. -/
def axis : Direction → Axis
  | .up | .down => .y
  | .left | .right => .x

/-- Coordinates fall upwards and to the left. -/
def signed (distance : Binary64) : Direction → Binary64
  | .up | .left => distance.neg
  | .down | .right => distance

end Direction

/-! ## Coordinates on the screen -/

/-- The exact value of one number is that of another put between zero and a limit. -/
def Binary64.KeptWithin (limit x y : Binary64) : Prop :=
  y.scaled = max 0 (min x.scaled limit.scaled)

/-- One number is what another one moved by a distance comes to between zero and a limit. A sum past
the range of numbers is past the one or the other. -/
def Binary64.MovedWithin (limit x distance y : Binary64) : Prop :=
  (∀ sum, x.add? distance = some sum → limit.KeptWithin sum y) ∧
    (x.add? distance = none → y = if distance.negative then zero else limit)

namespace Coordinate

open Binary64 (KeptWithin MovedWithin)

variable {limit : Binary64}

theorem clamp_at (hlimit : zero ≤ limit) (x : Binary64) :
    KeptWithin limit x (clamp limit (.at x)) := by
  rw [zero_le_iff_scaled] at hlimit
  unfold KeptWithin clamp
  simp only [lt_iff_scaled, zero_scaled]
  by_cases hneg : x.scaled < 0
  · rw [if_pos hneg, zero_scaled, if_neg (by omega), zero_scaled]
    omega
  · rw [if_neg hneg]
    split <;> omega

theorem clamp_beyond (negative : Bool) :
    clamp limit (.beyond negative) = if negative then zero else limit := by
  cases negative <;> rfl

/-- Whatever a coordinate is, it ends on the screen. -/
theorem clamp_mem (hlimit : zero ≤ limit) (c : Coordinate) :
    zero ≤ clamp limit c ∧ clamp limit c ≤ limit := by
  have hnat : 0 ≤ limit.scaled := zero_le_iff_scaled.mp hlimit
  rw [zero_le_iff_scaled, le_iff_scaled]
  cases c with
  | «at» x =>
    have hkept := clamp_at hlimit x
    unfold KeptWithin at hkept
    omega
  | beyond negative =>
    rw [clamp_beyond]
    split
    · rw [zero_scaled]
      omega
    · omega

-- An equation of functions. With the arguments in place, the sum would be computed as far as it
-- goes before the two sides are seen to be the same.
theorem shift_def : shift = fun x distance =>
    match x.add? distance with
    | some y => .at y
    | none => .beyond distance.negative := by
  delta shift
  rfl

theorem clamp_shift (hlimit : zero ≤ limit) (x distance : Binary64) :
    MovedWithin limit x distance (clamp limit (.shift x distance)) := by
  rw [shift_def]
  dsimp only
  constructor
  · intro sum hsum
    rw [hsum]
    exact clamp_at hlimit sum
  · intro hnone
    rw [hnone]
    exact clamp_beyond distance.negative

/-- A coordinate that is moved by zero ends where it ends by itself. -/
theorem clamp_shift_zero (hlimit : zero ≤ limit) (x : Binary64) :
    KeptWithin limit x (clamp limit (.shift x zero)) := by
  obtain ⟨sum, hsum, hscaled⟩ := x.add?_zero
  have hkept := (clamp_shift hlimit x zero).1 sum hsum
  unfold KeptWithin at hkept ⊢
  rwa [hscaled] at hkept

end Coordinate

/-! ## Gestures -/

namespace Gesture

variable {g : Gesture} {screen : Screen}

theorem target_ok_iff (g : Gesture) (start : Point) :
    (∃ c, g.target start = .ok c) ↔
      g.finish.isSome ∨ (g.distance.isSome ∧ g.direction.isSome) := by
  unfold target
  cases g.finish with
  | some p => exact ⟨fun _ => .inl rfl, fun _ => ⟨_, rfl⟩⟩
  | none =>
    cases g.distance with
    | none => exact ⟨nofun, fun h => by simp at h⟩
    | some d =>
      cases g.direction with
      | none => exact ⟨nofun, fun h => by simp at h⟩
      | some dir => cases dir <;> exact ⟨fun _ => .inr ⟨rfl, rfl⟩, fun _ => ⟨_, rfl⟩⟩

/-- A target has one coordinate on each axis. -/
theorem target_unique {start : Point} {c c' : Axis → Coordinate}
    (h : g.target start = .ok (c .x, c .y)) (h' : g.target start = .ok (c' .x, c' .y)) (a : Axis) :
    c a = c' a := by
  obtain ⟨hx, hy⟩ := Prod.mk.inj (Except.ok.inj (h.symm.trans h'))
  cases a
  · exact hx
  · exact hy

/-- An end that is given is the target, whatever else is said. -/
theorem target_given {p : Point} (hfinish : g.finish = some p) (start : Point) :
    ∃ c : Axis → Coordinate, g.target start = .ok (c .x, c .y) ∧ ∀ a, c a = .at (p.along a) := by
  refine ⟨fun a => .at (p.along a), ?_, fun _ => rfl⟩
  unfold target
  rw [hfinish]
  rfl

/-- Without one the start is moved, on one axis by the distance and on the other one by zero. -/
theorem target_moved {d : Binary64} {dir : Direction} (hfinish : g.finish = none)
    (hdistance : g.distance = some d) (hdirection : g.direction = some dir) (start : Point) :
    ∃ c : Axis → Coordinate, g.target start = .ok (c .x, c .y) ∧
      ∀ a, c a = .shift (start.along a) (if a = dir.axis then dir.signed d else zero) := by
  refine ⟨fun a => .shift (start.along a) (if a = dir.axis then dir.signed d else zero), ?_,
    fun _ => rfl⟩
  unfold target
  rw [hfinish, hdistance, hdirection]
  cases dir <;> rfl

/-- There is no place for a target on a screen of negative size, and on no other. -/
theorem normalize_noScreen_iff : g.normalize screen = .error .noScreen ↔
    (∃ c, g.target (g.start.getD screen.center) = .ok c) ∧ ¬ screen.IsValid := by
  unfold normalize
  dsimp only
  cases g.target (g.start.getD screen.center) with
  | error f => exact ⟨nofun, fun ⟨⟨_, h⟩, _⟩ => nomatch h⟩
  | ok c =>
    dsimp only
    by_cases hscreen : screen.IsValid
    · rw [if_pos hscreen]
      exact ⟨nofun, fun h => absurd hscreen h.2⟩
    · rw [if_neg hscreen]
      exact ⟨fun _ => ⟨⟨c, rfl⟩, hscreen⟩, fun _ => rfl⟩

/-- A swipe starts as asked for or at the centre, ends where the target is put on the screen, and
is carried out at least once. -/
theorem normalize_ok {s : Swipe} (h : g.normalize screen = .ok s) :
    screen.IsValid ∧ s.start = g.start.getD screen.center ∧ 1 ≤ s.count ∧
      ∃ c : Axis → Coordinate, g.target s.start = .ok (c .x, c .y) ∧
        ∀ a, s.finish.along a = (c a).clamp (screen.extent a) := by
  unfold normalize at h
  dsimp only at h
  split at h
  · cases h
  · next x y htarget =>
    split at h
    · next hscreen =>
      cases h
      refine ⟨hscreen, rfl, ?_, fun a => Axis.casesOn a x y, htarget, fun a => by cases a <;> rfl⟩
      dsimp only
      split
      · decide
      · next n hn _ =>
        have hne : n.toNat ≠ 0 := fun h0 => hn (by rw [← UInt32.toNat_inj]; exact h0)
        exact UInt32.le_iff_toNat_le.mpr (Nat.pos_iff_ne_zero.mpr hne)
      · decide
    · cases h

theorem normalize_ok_iff (hscreen : screen.IsValid) :
    (∃ s, g.normalize screen = .ok s) ↔
      g.finish.isSome ∨ (g.distance.isSome ∧ g.direction.isSome) := by
  rw [← target_ok_iff g (g.start.getD screen.center)]
  constructor
  · rintro ⟨s, hs⟩
    obtain ⟨-, hstart, -, c, hc, -⟩ := normalize_ok hs
    exact ⟨_, hstart ▸ hc⟩
  · rintro ⟨⟨x, y⟩, hc⟩
    unfold normalize
    dsimp only
    rw [hc]
    exact ⟨_, if_pos hscreen⟩

/-- The end of a swipe is on the screen. It is the given one, put on the screen; without one it is
the start, but for the axis of the direction, where the distance is added. -/
theorem normalize_finish {s : Swipe} (h : g.normalize screen = .ok s) :
    screen.Holds s.finish ∧
      (∀ p, g.finish = some p →
        ∀ a, (screen.extent a).KeptWithin (p.along a) (s.finish.along a)) ∧
      (g.finish = none → ∃ d dir, g.distance = some d ∧ g.direction = some dir ∧
        (∀ a, a ≠ dir.axis →
          (screen.extent a).KeptWithin (s.start.along a) (s.finish.along a)) ∧
        (screen.extent dir.axis).MovedWithin (s.start.along dir.axis) (dir.signed d)
          (s.finish.along dir.axis)) := by
  obtain ⟨hscreen, -, -, c, htarget, hfinish⟩ := normalize_ok h
  refine ⟨fun a => ?_, fun p hp a => ?_, fun hnone => ?_⟩
  · rw [hfinish]
    exact Coordinate.clamp_mem (hscreen.extent a) (c a)
  · obtain ⟨c', htarget', hc⟩ := target_given hp s.start
    rw [hfinish, target_unique htarget htarget', hc]
    exact Coordinate.clamp_at (hscreen.extent a) _
  · obtain hsome | ⟨hd, hdir⟩ := (target_ok_iff g s.start).mp ⟨_, htarget⟩
    · rw [hnone] at hsome
      cases hsome
    · obtain ⟨d, hd⟩ := Option.isSome_iff_exists.mp hd
      obtain ⟨dir, hdir⟩ := Option.isSome_iff_exists.mp hdir
      obtain ⟨c', htarget', hc⟩ := target_moved hnone hd hdir s.start
      refine ⟨d, dir, hd, hdir, fun a ha => ?_, ?_⟩
      · rw [hfinish, target_unique htarget htarget', hc, if_neg ha]
        exact Coordinate.clamp_shift_zero (hscreen.extent a) _
      · rw [hfinish, target_unique htarget htarget', hc, if_pos rfl]
        exact Coordinate.clamp_shift (hscreen.extent _) ..

end Gesture

/-! ## Parameters -/

namespace SwipeParams

variable {p : SwipeParams} {screen : Screen}

/-- A target that is not there, or `null`, or a point. -/
def IsResolved (target : Option Value) : Prop :=
  ∀ v, target = some v → v = .null ∨ ∃ point, Point.ofValue? v = some point

theorem point_ok_iff {which : String} {target : Option Value} {o : Option Point} :
    point which target = .ok o ↔ IsResolved target ∧ o = target.bind Point.ofValue? := by
  have hok : ∀ {o' : Option Point}, IsResolved target → target.bind Point.ofValue? = o' →
      ((Except.ok o' : Except SwipeFault (Option Point)) = .ok o ↔
        IsResolved target ∧ o = target.bind Point.ofValue?) := by
    rintro o' htarget rfl
    exact ⟨fun h => ⟨htarget, (Except.ok.inj h).symm⟩, fun h => congrArg _ h.2.symm⟩
  unfold point
  split
  · refine hok (fun v hv => ?_) rfl
    cases hv
  · exact hok (fun v hv => .inl (Option.some.inj hv).symm) rfl
  · next v hnull =>
    cases hv : Point.ofValue? v with
    | some q => exact hok (fun w hw => .inr ⟨q, Option.some.inj hw ▸ hv⟩) hv
    | none =>
      constructor
      · intro h
        cases h
      · rintro ⟨htarget, -⟩
        rcases htarget v rfl with rfl | ⟨q, hq⟩
        · exact absurd rfl hnull
        · rw [hv] at hq
          cases hq

/-- The gesture whose points are those of the targets. -/
def asked (p : SwipeParams) : Gesture where
  start := p.start.bind Point.ofValue?
  finish := p.finish.bind Point.ofValue?
  direction := p.direction
  distance := p.distance
  duration := p.duration
  count := p.count

theorem gesture_ok_iff {g : Gesture} :
    p.gesture = .ok g ↔ IsResolved p.start ∧ IsResolved p.finish ∧ g = p.asked := by
  constructor
  · intro h
    obtain ⟨_, hpoint, h⟩ := bind_ok h
    obtain ⟨_, hpoint', h⟩ := bind_ok h
    obtain ⟨hstart, rfl⟩ := point_ok_iff.mp hpoint
    obtain ⟨hfinish, rfl⟩ := point_ok_iff.mp hpoint'
    exact ⟨hstart, hfinish, (Except.ok.inj h).symm⟩
  · rintro ⟨hstart, hfinish, rfl⟩
    unfold gesture
    rw [point_ok_iff.mpr ⟨hstart, rfl⟩, point_ok_iff.mpr ⟨hfinish, rfl⟩]
    rfl

/-- **A swipe ends on the screen.** On a screen that has points, parameters come to a swipe if and
only if each target is absent, `null` or a point, and there is an end or both a distance and a
direction; nothing crashes on the way. The swipe starts where it was asked to or at the centre of
the screen, which is half its extent on each axis. It ends on the screen: at the given end, whatever
distance and direction are, or else where the start was, but for the axis of the direction. -/
theorem normalize_gesture (p : SwipeParams) (hscreen : screen.IsValid) :
    ((∃ g s, p.gesture = .ok g ∧ g.normalize screen = .ok s) ↔
      IsResolved p.start ∧ IsResolved p.finish ∧
        ((∃ v point, p.finish = some v ∧ Point.ofValue? v = some point) ∨
          (p.distance.isSome ∧ p.direction.isSome))) ∧
      (∀ g, p.gesture = .ok g → g.normalize screen ≠ .error .noScreen) ∧
      ∀ g s, p.gesture = .ok g → g.normalize screen = .ok s →
        s.start = (p.start.bind Point.ofValue?).getD screen.center ∧
        (p.start.bind Point.ofValue? = none →
          ∀ a, (screen.extent a).IsHalf (s.start.along a)) ∧
        1 ≤ s.count ∧
        screen.Holds s.finish ∧
        (∀ point, p.finish.bind Point.ofValue? = some point →
          ∀ a, (screen.extent a).KeptWithin (point.along a) (s.finish.along a)) ∧
        (p.finish.bind Point.ofValue? = none →
          ∃ d dir, p.distance = some d ∧ p.direction = some dir ∧
            (∀ a, a ≠ dir.axis →
              (screen.extent a).KeptWithin (s.start.along a) (s.finish.along a)) ∧
            (screen.extent dir.axis).MovedWithin (s.start.along dir.axis) (dir.signed d)
              (s.finish.along dir.axis)) := by
  have hend : p.asked.finish.isSome ↔
      ∃ v point, p.finish = some v ∧ Point.ofValue? v = some point := by
    rw [Option.isSome_iff_exists]
    simp only [asked, Option.bind_eq_some_iff]
    exact ⟨fun ⟨q, v, hv⟩ => ⟨v, q, hv⟩, fun ⟨v, q, hv⟩ => ⟨q, v, hv⟩⟩
  refine ⟨⟨?_, ?_⟩, fun g _ h => ?_, fun g s hg hs => ?_⟩
  · rintro ⟨g, s, hg, hs⟩
    obtain ⟨hstart, hfinish, rfl⟩ := gesture_ok_iff.mp hg
    exact ⟨hstart, hfinish, ((Gesture.normalize_ok_iff hscreen).mp ⟨s, hs⟩).imp_left hend.mp⟩
  · rintro ⟨hstart, hfinish, htarget⟩
    obtain ⟨s, hs⟩ := (Gesture.normalize_ok_iff (g := p.asked) hscreen).mpr
      (htarget.imp_left hend.mpr)
    exact ⟨_, s, gesture_ok_iff.mpr ⟨hstart, hfinish, rfl⟩, hs⟩
  · exact (Gesture.normalize_noScreen_iff.mp h).2 hscreen
  · obtain ⟨-, -, rfl⟩ := gesture_ok_iff.mp hg
    obtain ⟨-, hstart, hcount, -⟩ := Gesture.normalize_ok hs
    refine ⟨hstart, fun hnone a => ?_, hcount, Gesture.normalize_finish hs⟩
    have hcenter : s.start = screen.center := by
      rw [hstart]
      exact congrArg (Option.getD · screen.center) hnone
    rw [hcenter]
    exact screen.isHalf_center a

/-- Far above the screen, a swipe ends at its upper edge. One without a start begins in the middle,
and one that goes down ends at the lower edge. -/
theorem normalize_gesture_above :
    let screen : Screen := ⟨.ofNat 200, .ofNat 300⟩
    let up : SwipeParams := {
      start := some (.obj [("center", .arr [.ofNat 20, .ofNat 30])]), finish := none
      direction := some .up, distance := some (.ofNat 500), duration := none, count := some 0 }
    let down : SwipeParams := {
      start := none, finish := none
      direction := some .down, distance := some (.ofNat 500), duration := none, count := none }
    screen.IsValid ∧
      (∃ g s, up.gesture = .ok g ∧ g.normalize screen = .ok s ∧
        s.start = ⟨.ofNat 20, .ofNat 30⟩ ∧ 1 ≤ s.count ∧
        s.finish.x.scaled = (Binary64.ofNat 20).scaled ∧ s.finish.y.scaled = 0) ∧
      ∃ g s, down.gesture = .ok g ∧ g.normalize screen = .ok s ∧
        s.start.x.scaled = (Binary64.ofNat 100).scaled ∧
        s.start.y.scaled = (Binary64.ofNat 150).scaled ∧
        s.finish.x.scaled = (Binary64.ofNat 100).scaled ∧
        s.finish.y.scaled = (Binary64.ofNat 300).scaled := by
  intro screen up down
  have hscreen : screen.IsValid := by decide +kernel
  refine ⟨hscreen, ?_, ?_⟩
  · have hpoint : up.start.bind Point.ofValue? = some ⟨.ofNat 20, .ofNat 30⟩ := by decide +kernel
    have hresolved : IsResolved up.start := by
      intro v hv
      rw [hv, Option.bind_some] at hpoint
      exact .inr ⟨_, hpoint⟩
    obtain ⟨hiff, -, hswipe⟩ := normalize_gesture up hscreen
    obtain ⟨g, s, hg, hs⟩ := hiff.mpr ⟨hresolved, nofun, .inr ⟨rfl, rfl⟩⟩
    obtain ⟨hstart, -, hcount, -, -, hmoved⟩ := hswipe g s hg hs
    rw [hpoint] at hstart
    obtain ⟨d, dir, hd, hdir, hoff, hon⟩ := hmoved rfl
    cases hd
    cases hdir
    rw [hstart] at hoff hon
    have hbeside : max 0 (min (Binary64.ofNat 20).scaled (Binary64.ofNat 200).scaled) =
        (Binary64.ofNat 20).scaled := by decide +kernel
    have habove : max 0 (min (Binary64.ofInt (-470)).scaled (Binary64.ofNat 300).scaled) = 0 := by
      decide +kernel
    have hx := hoff .x nofun
    have hy := hon.1 (.ofInt (-470)) (by decide +kernel)
    exact ⟨g, s, hg, hs, hstart, hcount, Eq.trans hx hbeside, Eq.trans hy habove⟩
  · obtain ⟨hiff, -, hswipe⟩ := normalize_gesture down hscreen
    obtain ⟨g, s, hg, hs⟩ := hiff.mpr ⟨nofun, nofun, .inr ⟨rfl, rfl⟩⟩
    obtain ⟨hstart, hcenter, -, -, -, hmoved⟩ := hswipe g s hg hs
    have hhalf (whole half : Binary64) (n : Nat) (hhalf : whole.IsHalf half)
        (heven : whole.scaled = 2 * (Binary64.ofNat n).scaled) :
        half.scaled = (Binary64.ofNat n).scaled := by
      unfold Binary64.IsHalf at hhalf
      omega
    have hx : s.start.x.scaled = (Binary64.ofNat 100).scaled :=
      hhalf _ _ 100 (hcenter rfl .x) (by decide +kernel)
    have hy : s.start.y.scaled = (Binary64.ofNat 150).scaled :=
      hhalf _ _ 150 (hcenter rfl .y) (by decide +kernel)
    obtain ⟨d, dir, hd, hdir, hoff, hon⟩ := hmoved rfl
    cases hd
    cases hdir
    have hmiddle : s.start = screen.center := hstart
    rw [hmiddle] at hoff hon
    have hbeside : max 0 (min screen.center.x.scaled (Binary64.ofNat 200).scaled) =
        (Binary64.ofNat 100).scaled := by decide +kernel
    have hbelow : max 0 (min (Binary64.ofNat 650).scaled (Binary64.ofNat 300).scaled) =
        (Binary64.ofNat 300).scaled := by decide +kernel
    have hx' := hoff .x nofun
    have hy' := hon.1 (.ofNat 650) (by decide +kernel)
    exact ⟨g, s, hg, hs, hx, hy, Eq.trans hx' hbeside, Eq.trans hy' hbelow⟩

end SwipeParams

end Runbook

/-
Cleaning up changes nothing that was decided before.

A cleanup may fail or panic. All that comes of it is a warning: the player is
otherwise the one that it would be if the cleanup had succeeded
(`finish_smooth`). As playing does not look at the cleanups at all, a whole run
differs from the one whose cleanups all succeed in its warnings only, and
`cleanups_isolated` says so together with when the cleanups begin.
-/
import Runbook.Proofs.Player.Calls

namespace Runbook

/-- The cleanup as it would be if it succeeded. -/
def Cleanup.smooth (c : Cleanup) : Cleanup := { c with outcome := .succeeded }

namespace Player

/-! ## Warnings stay out of the way -/

theorem warn_nil (p : Player) : p.warn [] = p := by
  unfold warn
  rw [List.append_nil]

theorem warn_warn (p : Player) (ws ws' : List Warning) :
    (p.warn ws).warn ws' = p.warn (ws ++ ws') := by
  unfold warn
  rw [List.append_assoc]

theorem emit_warn (p : Player) (ws : List Warning) (before : TipSlot) (text : String) :
    (p.warn ws).emit before text = (p.emit before text).warn ws := by
  unfold emit
  rw [show (p.warn ws).slot = p.slot from rfl]
  cases p.slot with
  | player =>
    rw [show (p.warn ws).status = p.status from rfl]
    dsimp only
    split <;> rfl
  | fixed | vacant | own => rfl

theorem emits_warn (before : TipSlot) (texts : List String) (p : Player) (ws : List Warning) :
    texts.foldl (fun p text => p.emit before text) (p.warn ws) =
      (texts.foldl (fun p text => p.emit before text) p).warn ws :=
  List.foldl_hom (·.warn ws) fun p text => emit_warn p ws before text

/-! ## Failed cleanups -/

theorem cleanUp_smooth (p : Player) (agent : Agent) (c : Cleanup) :
    p.cleanUp agent c = (p.cleanUp agent c.smooth).warn (cleanupWarnings c.outcome) := by
  -- The outcome is looked at last, and only for the warning.
  have quiet : p.cleanUp agent c.smooth =
      c.tips.foldl (fun p text => p.emit agent.slot text) (p.note [.cleanup c.name]) := warn_nil _
  rw [quiet]
  rfl

theorem cleanUp_smooth_warn (p : Player) (ws : List Warning) (agent : Agent) (c : Cleanup) :
    (p.warn ws).cleanUp agent c.smooth = (p.cleanUp agent c.smooth).warn ws := by
  have tips := emits_warn agent.slot c.tips (p.note [.cleanup c.name]) ws
  exact (warn_nil _).trans (tips.trans (congrArg (·.warn ws) (warn_nil _).symm))

theorem cleanUps_smooth (agent : Agent) (cs : List Cleanup) (p : Player) (ws : List Warning) :
    cs.foldl (fun p c => p.cleanUp agent c) (p.warn ws) =
      ((cs.map Cleanup.smooth).foldl (fun p c => p.cleanUp agent c) p).warn
        (ws ++ cs.flatMap fun c => cleanupWarnings c.outcome) := by
  induction cs generalizing p ws with
  | nil => rw [List.flatMap_nil, List.append_nil]; rfl
  | cons c cs ih =>
    rw [List.foldl_cons, cleanUp_smooth, cleanUp_smooth_warn, warn_warn, ih, List.flatMap_cons,
      List.append_assoc, List.map_cons, List.foldl_cons]

/-- **A failed cleanup leaves a warning and nothing else.** -/
theorem finish_smooth (p : Player) (agent : Agent) (registry : Registry) (cs : List Cleanup)
    (status : Status) :
    p.finish ⟨agent, registry, cs⟩ status =
      (p.finish ⟨agent, registry, cs.map Cleanup.smooth⟩ status).warn
        (cs.flatMap fun c => cleanupWarnings c.outcome) := by
  have hcleanUps := cleanUps_smooth agent cs { p with status, tip := none } []
  rw [warn_nil, List.nil_append] at hcleanUps
  exact congrArg (fun p : Player => { p with slot := agent.slot }) hcleanUps

/-! ## Whole runs -/

/-- A run that comes back first plays, then cleans up: each cleanup begins once, in order. -/
theorem run_cleans_up {p : Player} {ready : Ready} (hfirst : p.isSetUp = false)
    (h : p.setup.outcome = .ok ready) {status : Status} (hend : p.run.2 = .finished status) :
    ∃ played after, p.run.1.trace = played ++ after ∧
      played.filterMap Event.cleanup? = p.cleaned ∧
      after.filterMap Event.cleanup? = ready.cleanups.map Cleanup.name ∧
      ∀ e ∈ after, e.isOfCleanup = true := by
  have hrun := run_accepted hfirst h
  dsimp only at hrun
  have hplayed := played_cleaned p ready.agent ready.registry p.script.tasks
  generalize playTasks ready.agent ready.registry 0 p.script.tasks (p.ready ready.agent) = played
    at hrun hplayed
  rw [hrun] at hend ⊢
  dsimp only at hend ⊢
  rw [hend, concluded]
  obtain ⟨after, htrace, hafter⟩ := finish_grows played.1 ready status
  refine ⟨played.1.trace, after, htrace, hplayed, ?_, hafter⟩
  have hcleaned := finish_cleaned played.1 ready status
  rw [cleaned, htrace, List.filterMap_append] at hcleaned
  exact List.append_cancel_left hcleaned

/-- A run differs from the one whose cleanups all succeed in its warnings only. -/
theorem run_smooth {agent : Agent} {registry : Registry}
    (hr : Registry.build agent.actions = .ok registry) (script : Script) (config : Config)
    (path : Option String) (cleanups : List Cleanup) (takes : Nat → Bool) :
    let start := fun cs => Player.new script config path (.ready agent cs) takes
    let run := (start cleanups).run
    let smooth := (start (cleanups.map Cleanup.smooth)).run
    run.2 = smooth.2 ∧ ∀ status, run.2 = .finished status → run.1 = { smooth.1 with
      setup := .ready agent cleanups
      warnings := smooth.1.warnings ++ cleanups.flatMap fun c => cleanupWarnings c.outcome } := by
  intro start run smooth
  let r := (start cleanups).ready agent
  let r' := (start (cleanups.map Cleanup.smooth)).ready agent
  let played := playTasks agent registry 0 script.tasks r'
  -- Both runs play the same tasks, each against its own background.
  have hplayed : playTasks agent registry 0 script.tasks r = behind r played :=
    playTasks_against r' r agent registry 0 script.tasks
  have hrun : run = ((played.1.against r).concluded ⟨agent, registry, cleanups⟩ (runEnd played.2),
      runEnd played.2) := by
    have h := run_accepted (p := start cleanups) rfl (Setup.outcome_of_build hr cleanups)
    dsimp only at h
    rw [show playTasks agent registry 0 (start cleanups).script.tasks ((start cleanups).ready agent) =
      behind r played from hplayed] at h
    exact h
  have hsmooth : smooth = (played.1.concluded ⟨agent, registry, cleanups.map Cleanup.smooth⟩
      (runEnd played.2), runEnd played.2) :=
    run_accepted (p := start (cleanups.map Cleanup.smooth)) rfl
      (Setup.outcome_of_build hr (cleanups.map Cleanup.smooth))
  rw [hrun, hsmooth]
  refine ⟨rfl, fun status hend => ?_⟩
  dsimp only at hend ⊢
  -- What the smooth run keeps of its own background is all that sets it apart from the other.
  have hkept : played.1 = played.1.against r' := playTasks_kept r' agent registry 0 script.tasks
  rw [hend, concluded, concluded, finish_against, finish_smooth, hkept, finish_against]
  rfl

/-- **Cleaning up is isolated.** A run on an agent that answers comes back. However the cleanups
of a run that comes back end, each of them begins once, in their order and after everything that
happens while the tasks are played; the run ends as if all of them had succeeded, and so does
everything about the player except for one warning more for each that failed or panicked, in their
order; and whoever listened to the agent's tips before does so again. -/
theorem cleanups_isolated {agent : Agent} {registry : Registry}
    (hr : Registry.build agent.actions = .ok registry) (script : Script) (config : Config)
    (path : Option String) (cleanups : List Cleanup) (takes : Nat → Bool) :
    let start := fun cs => Player.new script config path (.ready agent cs) takes
    let run := (start cleanups).run
    let smooth := (start (cleanups.map Cleanup.smooth)).run
    run.2 = smooth.2 ∧ (agent.Answers → ∃ status, run.2 = .finished status) ∧
      ∀ status, run.2 = .finished status →
        run.1 = { smooth.1 with
          setup := .ready agent cleanups
          warnings := smooth.1.warnings ++ cleanups.flatMap fun c => cleanupWarnings c.outcome } ∧
        run.1.slot = (start cleanups).slot ∧
        ∃ played after, run.1.trace = played ++ after ∧
          played.filterMap Event.cleanup? = [] ∧
          after.filterMap Event.cleanup? = cleanups.map Cleanup.name ∧
          ∀ e ∈ after, e.isOfCleanup = true := by
  intro start run smooth
  have haccepted := Setup.outcome_of_build hr cleanups
  obtain ⟨hends, hsame⟩ := run_smooth hr script config path cleanups takes
  refine ⟨hends, run_finished (p := start cleanups) rfl haccepted, fun status hend => ?_⟩
  refine ⟨hsame status hend, ?_, run_cleans_up (p := start cleanups) rfl haccepted hend⟩
  have hrun := run_accepted (p := start cleanups) rfl haccepted
  change run = _ at hrun
  rw [hrun] at hend ⊢
  dsimp only at hend ⊢
  rw [hend]
  rfl

/-- Three things to clean up, the first two of which do not go well. -/
def teardown : List Cleanup := [
  ⟨"stop-recording", ["closing"], .failed⟩,
  ⟨"flush", [], .panicked⟩,
  ⟨"close-browser", ["closed"], .succeeded⟩]

theorem cleanups_isolated_teardown :
    Registry.build Agent.idle.actions = .ok .empty ∧
    let start := fun cs => Player.new errand ⟨"", false, ""⟩ none (.ready .idle cs) fun _ => true
    let run := (start teardown).run
    let smooth := (start (teardown.map Cleanup.smooth)).run
    run.2 = .finished .error ∧ smooth.2 = .finished .error ∧
      run.1 = { smooth.1 with
        setup := .ready .idle teardown
        warnings := smooth.1.warnings ++ [.cleanupFailed, .cleanupPanicked] } ∧
      ∃ played after, run.1.trace = played ++ after ∧
        played.filterMap Event.cleanup? = [] ∧
        after.filterMap Event.cleanup? = ["stop-recording", "flush", "close-browser"] := by
  have hr : Registry.build Agent.idle.actions = .ok .empty := rfl
  have hend : (Player.new errand ⟨"", false, ""⟩ none (.ready .idle teardown)
    fun _ => true).run.2 = .finished .error := by decide +kernel
  obtain ⟨hsmooth, -, hisolated⟩ :=
    cleanups_isolated hr errand ⟨"", false, ""⟩ none teardown fun _ => true
  obtain ⟨hsame, -, played, after, htrace, hplayed, hafter, -⟩ := hisolated .error hend
  exact ⟨hr, hend, hsmooth.symm.trans hend, hsame, played, after, htrace, hplayed, hafter⟩

end Player

end Runbook

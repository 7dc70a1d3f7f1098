import Coriolis.Conductor.OnErrorOnly
import Coriolis.Conductor.Stages

/-!
# Executions that wait for nobody

A RUNNING or CANCELLING execution has an active task (`Steady`); here an active task is one
that was handed to a worker who has not answered yet. What can break this is a cast that
raises while the execution is CANCELLING: the task is PENDING by then, and the cancellation
that should take it back does not look at its tasks a second time.
-/

namespace Coriolis.Conductor

variable {r : Request} {before : String → Option TaskInfo} {e : Execution} {conf : Conf}
  {w w' : World} {t : Task}

/-- The worker of a task has completed it, failed it or confirmed its cancellation. -/
def World.answered (w : World) (id : TaskId) : Prop :=
  w.emitted (.taskCompleted id) ∨ w.emitted (.taskErrored id) ∨ w.emitted (.taskCancelled id)

def castsUnlessCancelling (ev : Event) : Bool :=
  match ev.effect with
  | .beginTaskRaised _ => ev.status != .cancelling
  | _ => true

lemma Change.answer (h : Change e conf strong ok w w')
    (heff : eff = .taskCompleted t.id ∨ eff = .taskErrored t.id ∨ eff = .taskCancelled t.id)
    (he : w'.emitted eff) : w.emitted eff ∨ (w'.st t.id).isSettled = true := by
  have hroutine : eff.isRoutine = false := by rcases heff with rfl | rfl | rfl <;> rfl
  cases h.events with
  | routine h => exact .inl ((h.emitted hroutine he).resolve_right (by simp))
  | handed _ _ hev _ h =>
    refine (h.emitted hroutine he).imp_right fun ⟨ev', hmem, heq⟩ => ?_
    obtain rfl := List.mem_singleton.mp hmem
    rcases hev with hev | hev | hev <;> simp [← heq, hev] at heff
  | @reported r eff' _ _ hr hst h =>
    refine (h.emitted hroutine he).imp_right fun ⟨ev', hmem, heq⟩ => ?_
    obtain rfl := List.mem_singleton.mp hmem
    obtain rfl : eff' = eff := heq
    have hid : r.task.id = t.id := by
      cases r <;> rcases heff with rfl | rfl | rfl <;> simp_all [Report.effect, Report.task]
    exact hid ▸ hst
  | kept h => rcases heff with rfl | rfl | rfl <;> exact .inl ((h.emitted (by simp)).mp he)

/-- A task that is worked on is in the hands of a worker, and one whose worker has answered
is over. -/
structure Entrusted (e : Execution) (w : World) : Prop where
  staged : Staged e w
  cast : ∀ t ∈ e.tasks, (w.st t.id).isActive = true → w.emitted (.beginTask t.id)
  answered : ∀ t ∈ e.tasks, w.answered t.id → (w.st t.id).isSettled = true

lemma Entrusted.cast_change (h : Entrusted e w) (hc : Change e conf True reported w w')
    (hcond : ∀ ev ∈ w'.trace, castsUnlessCancelling ev = true) (ht : t ∈ e.tasks)
    (hact : (w'.st t.id).isActive = true) : w'.emitted (.beginTask t.id) := by
  rcases (hc.task ht).of_isActive h.staged ht hact with
    h' | ⟨hd, he | ⟨hl, ev, hev, heff, hstatus⟩⟩
  · exact (h.cast t ht h').mono hc.suffix
  · exact he
  · -- the execution is neither CANCELLING nor over, so the cancellation takes the task back
    have hne : w.status ≠ .cancelling := by
      simpa [castsUnlessCancelling, heff, hstatus] using hcond ev hev
    have hfin : w.status.inFinalizedTaskStatuses = false := by
      by_contra hf
      exact h.staged.ended (by simpa using hf) t ht (decision_start hd).1
    simp [cancelLoops, hfin, hne] at hl

lemma Entrusted.change (hc : Change e conf True reported w w')
    (hcond : ∀ ev ∈ w'.trace, castsUnlessCancelling ev = true) (h : Entrusted e w) :
    Entrusted e w' := by
  refine ⟨h.staged.change hc, fun t ht hact => h.cast_change hc hcond ht hact, fun t ht he => ?_⟩
  have hold : w.answered t.id → (w'.st t.id).isSettled = true := fun h' =>
    (hc.task ht).isSettled (h.answered t ht h')
  rcases he with he | he | he
  · exact (hc.answer (.inl rfl) he).elim (hold ∘ .inl) id
  · exact (hc.answer (.inr (.inl rfl)) he).elim (hold ∘ .inr ∘ .inl) id
  · exact (hc.answer (.inr (.inr rfl)) he).elim (hold ∘ .inr ∘ .inr) id

lemma Built.entrusted (hb : Built r before e w) : Entrusted e w := by
  refine ⟨hb.staged, fun t ht hact => ?_, fun t ht he => ?_⟩
  · rcases hb.waiting ht with h | h <;> rw [h] at hact <;> cases hact
  · have hno : ∀ eff : Effect, eff.isExecutionLevel = false → ¬w.emitted eff := by
      rintro eff heff ⟨ev, hev, rfl⟩
      rcases hb.status with ⟨-, -, -, h⟩ | ⟨-, -, -, h⟩
      · simp [h] at hev
      · simp only [h, List.mem_singleton] at hev
        simp [hev, Effect.isExecutionLevel] at heff
    rcases he with he | he | he <;> exact absurd he (hno _ rfl)

/-- In a run in which no cast raises while the execution is CANCELLING, a RUNNING or
CANCELLING execution has an active task whose worker has it and has not answered yet. -/
theorem running_waits_for_worker (r : Request) (before : String → Option TaskInfo)
    (e : Execution) (conf : Conf) (w w' : World) (h : Launched r before e w)
    (hrun : Run e conf castOnly w w')
    (hcond : ∀ ev ∈ w'.trace, castsUnlessCancelling ev = true)
    (hs : w'.status = .running ∨ w'.status = .cancelling) :
    ∃ t ∈ e.tasks, (w'.st t.id).isActive = true ∧ w'.emitted (.beginTask t.id) ∧
      ¬w'.emitted (.taskCompleted t.id) ∧ ¬w'.emitted (.taskErrored t.id) ∧
      ¬w'.emitted (.taskCancelled t.id) := by
  obtain ⟨w₀, hb, hch, hsteady⟩ := h.run hrun
  have hen := hch.invariant_of_trace (fun _ _ h hcond => Entrusted.change h hcond) hcond
    hb.entrusted
  obtain ⟨t, ht, hact⟩ := (hsteady.running hs).2
  have hno : ¬w'.answered t.id := fun he => by
    simp [TaskStatus.isActive_of_isSettled (hen.answered t ht he)] at hact
  simp only [World.answered, not_or] at hno
  exact ⟨t, ht, hact, hen.cast t ht hact, hno⟩

def unreachable : Env := ⟨fun _ => true, fun _ => "", fun _ => false, fun _ => true⟩

def cancelsFinalization : List (Env × Call) :=
  completes deployment 0 ++ completes deployment 1 ++ completes deployment 2 ++
    runs deployment 3 ++ [(responsive, .cancel false)]

/-- The call of a worker that has cancelled a task, with the answers the conductor gets. -/
def confirms (env : Env) (e : Execution) (id : TaskId) : List (Env × Call) :=
  (e.tasks.filter (·.id = id)).map fun t => (env, .confirmTaskCancellation t "cancelled")

/-- A cancelled deployment whose cleanup cannot be cast stays CANCELLING, and nobody is left
to work on any of its tasks. -/
theorem cancelling_waits_for_nobody :
    ∃ w', Launched (.executeDeployment true false false []) replicated deployment
        deploymentBegun ∧
      Run deployment plainConf castOnly deploymentBegun w' ∧ w'.status = .cancelling ∧
      ∀ t ∈ deployment.tasks, (w'.st t.id).isActive = true → ¬w'.emitted (.beginTask t.id) := by
  refine ⟨runCalls deployment plainConf (cancelsFinalization ++
      confirms unreachable deployment 3) deploymentBegun, .begun built_deployment rfl,
    run_of_castCalls (by decide), by decide, ?_⟩
  simp only [← wasCast_iff]
  decide

/-- When the cast goes out, the worker that cleans up is waited for. -/
theorem running_waits_for_worker_deployment :
    let w' := runCalls deployment plainConf (cancelsFinalization ++
      confirms responsive deployment 3) deploymentBegun
    w'.status = .cancelling ∧
      ∃ t ∈ deployment.tasks, (w'.st t.id).isActive = true ∧ w'.emitted (.beginTask t.id) ∧
        ¬w'.emitted (.taskCompleted t.id) ∧ ¬w'.emitted (.taskErrored t.id) ∧
        ¬w'.emitted (.taskCancelled t.id) := by
  intro w'
  have hstatus : w'.status = .cancelling := by decide
  exact ⟨hstatus, running_waits_for_worker (.executeDeployment true false false []) _ deployment
    plainConf deploymentBegun w' (.begun built_deployment rfl)
    (run_of_castCalls (by decide)) (by decide) (.inr hstatus)⟩

end Coriolis.Conductor

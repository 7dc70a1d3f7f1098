import Coriolis.Conductor.Once

/-!
# Executions that are over

No handler makes an execution active again that is not: reports of late workers change
its tasks only, and `_begin_tasks` is called for executions that are new or wait for
minions.
-/

namespace Coriolis.Conductor

variable {force : Bool}

lemma advanceExecutionState_stays_inactive (hact : w.status.isActive = false) (hx : x.st = w.st)
    (hxs : x.status = w.status) :
    (advanceExecutionState e env x requery inst w).2.status.isActive = false := by
  rw [advanceExecutionState_inactive hact hx hxs]
  split
  · rw [cleanDeadlock_status]
    rfl
  · exact hact

lemma cancelTasksExecution_stays_inactive (hact : w.status.isActive = false) :
    (cancelTasksExecution e env x true force w).2.status.isActive = false := by
  by_cases hfin : w.status.inFinalizedTaskStatuses = true
  · rw [cancelTasksExecution_finalized hfin]
    exact hact
  have hrun : w.status ≠ .running := by
    intro h
    rw [h] at hact
    cases hact
  rw [cancelTasksExecution_world (by simpa using hfin)]
  refine advanceExecutionState_stays_inactive ?_ rfl rfl
  rwa [enterCancellation_status, if_neg hrun]

lemma setTaskError_stays_inactive (hact : w.status.isActive = false) (details : String) :
    (setTaskError e conf env t details w).2.status.isActive = false := by
  rcases @setTaskError_cases e conf env w t details with h | ⟨w₂, text, -, -, -, -, h⟩ <;> rw [h]
  · exact cancelTasksExecution_stays_inactive hact
  · rw [status_setTasksExecutionStatus]
    rfl

lemma step_stays_inactive (c : Call) (hact : w.status.isActive = false)
    (hl : c.forMinions = true → w.lastExecutionStatus ≠ .awaitingMinionAllocations) :
    (step e conf env c w).2.status.isActive = false := by
  have hprogress := @step_progress e conf env w c
  cases c with
  | setTaskHost t _ | setTaskProcess t _ =>
    rcases hprogress rfl with h | ⟨new, host, processId, details, -, h⟩ <;> rw [h]
    · exact hact
    · exact hact
  | taskCompleted t result =>
    simp only [step]
    rcases @taskCompleted_cases e conf env w t result with
      ⟨-, h⟩ | ⟨s, details, w₁, -, hkept, ⟨h, -⟩ | ⟨x, hx, hxs, h⟩⟩ <;> rw [h]
    · exact hact
    · rw [hkept.status]
      exact hact
    · exact advanceExecutionState_stays_inactive (hkept.status ▸ hact) hx hxs
  | setTaskError t details => exact setTaskError_stays_inactive hact details
  | confirmTaskCancellation t details =>
    simp only [step, confirmTaskCancellation]
    split
    · exact hact
    · exact advanceExecutionState_stays_inactive hact rfl rfl
  | cancel force =>
    rw [step_cancel_of_inactive hact]
    exact hact
  | confirmMinionsAllocation l | reportMinionsAllocationError =>
    rw [step_forMinions rfl (hl rfl)]
    exact hact

end Coriolis.Conductor

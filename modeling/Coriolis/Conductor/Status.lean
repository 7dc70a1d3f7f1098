import Mathlib.Tactic.Common

/-!
# Statuses of executions and tasks

The constants of `coriolis/constants.py` that decide what the conductor does with an
execution. The status names of executions and tasks live in two types here, but the
source compares their texts in one place (`_cancel_tasks_execution` looks an execution
status up among the task statuses), so both carry their text.
-/

namespace Coriolis.Conductor

inductive ExecutionStatus where
  | unexecuted | running | completed | error | deadlocked | canceled | cancelling
  | canceledForDebugging | awaitingMinionAllocations | errorAllocatingMinions | pending
  deriving DecidableEq, Repr

inductive TaskStatus where
  | scheduled | pending | starting | unscheduled | running | completed | error
  | forceCanceled | failedToCancel | canceled | canceledAfterCompletion | cancelling
  | cancellingAfterCompletion | canceledForDebugging | canceledFromDeadlock
  | onErrorOnly | failedToSchedule
  deriving DecidableEq, Repr

namespace ExecutionStatus

def text : ExecutionStatus → String
  | unexecuted => "UNEXECUTED"
  | running => "RUNNING"
  | completed => "COMPLETED"
  | error => "ERROR"
  | deadlocked => "DEADLOCKED"
  | canceled => "CANCELED"
  | cancelling => "CANCELLING"
  | canceledForDebugging => "CANCELED_FOR_DEBUGGING"
  | awaitingMinionAllocations => "AWAITING_MINION_ALLOCATIONS"
  | errorAllocatingMinions => "ERROR_ALLOCATING_MINIONS"
  | pending => "PENDING"

def activeExecutionStatuses : List ExecutionStatus :=
  [running, cancelling, awaitingMinionAllocations]

def finalizedExecutionStatuses : List ExecutionStatus :=
  [completed, canceled, error, canceledForDebugging, deadlocked, errorAllocatingMinions]

def isActive (s : ExecutionStatus) : Bool := activeExecutionStatuses.contains s

def isFinalized (s : ExecutionStatus) : Bool := finalizedExecutionStatuses.contains s

end ExecutionStatus

namespace TaskStatus

def text : TaskStatus → String
  | scheduled => "SCHEDULED"
  | pending => "PENDING"
  | starting => "STARTING"
  | unscheduled => "UNSCHEDULED"
  | running => "RUNNING"
  | completed => "COMPLETED"
  | error => "ERROR"
  | forceCanceled => "FORCE_CANCELED"
  | failedToCancel => "FAILED_TO_CANCEL"
  | canceled => "CANCELED"
  | canceledAfterCompletion => "CANCELED_AFTER_COMPLETION"
  | cancelling => "CANCELLING"
  | cancellingAfterCompletion => "CANCELLING_AFTER_COMPLETION"
  | canceledForDebugging => "CANCELED_FOR_DEBUGGING"
  | canceledFromDeadlock => "STRANDED_AFTER_DEADLOCK"
  | onErrorOnly => "EXECUTE_ON_ERROR_ONLY"
  | failedToSchedule => "FAILED_TO_SCHEDULE"

def activeTaskStatuses : List TaskStatus :=
  [pending, starting, running, cancelling, cancellingAfterCompletion]

def canceledTaskStatuses : List TaskStatus :=
  [canceled, unscheduled, forceCanceled, canceledAfterCompletion, canceledForDebugging,
    canceledFromDeadlock, failedToSchedule, failedToCancel]

/-- A parent in one of these statuses did its work and may have created resources that
the on-error tasks depending on it must destroy. -/
def cleanupTaskTriggerStatuses : List TaskStatus :=
  [completed, canceledAfterCompletion]

def finalizedTaskStatuses : List TaskStatus :=
  [completed, error, unscheduled, canceled, forceCanceled, canceledForDebugging,
    canceledFromDeadlock, canceledAfterCompletion, failedToSchedule, failedToCancel]

def isActive (s : TaskStatus) : Bool := activeTaskStatuses.contains s

def isCanceled (s : TaskStatus) : Bool := canceledTaskStatuses.contains s

def triggersCleanup (s : TaskStatus) : Bool := cleanupTaskTriggerStatuses.contains s

def isFinalized (s : TaskStatus) : Bool := finalizedTaskStatuses.contains s

/-- Finalized, and not the one finalized status out of which a worker's late answer is
still expected. -/
def isSettled (s : TaskStatus) : Bool := s.isFinalized && s != failedToCancel

/-- Every status is in exactly one of the four phases of a task's life: waiting to be
started, waiting for an error, in a worker's hands, or over. -/
lemma phases (s : TaskStatus) :
    s = scheduled ∨ s = onErrorOnly ∨ s.isActive = true ∨ s.isFinalized = true := by
  cases s <;> decide

lemma isActive_not_isFinalized {s : TaskStatus} (h : s.isActive = true) :
    s.isFinalized = false := by
  revert h; cases s <;> decide

lemma isActive_of_isSettled {s : TaskStatus} (h : s.isSettled = true) : s.isActive = false := by
  revert h
  cases s <;> decide

lemma isFinalized_of_isSettled {s : TaskStatus} (h : s.isSettled = true) :
    s.isFinalized = true := by
  simp only [isSettled, Bool.and_eq_true] at h
  exact h.1

lemma triggersCleanup_iff (s : TaskStatus) :
    s.triggersCleanup = true ↔ s = completed ∨ s = canceledAfterCompletion := by
  cases s <;> decide

lemma isFinalized_of_triggersCleanup {s : TaskStatus} (h : s.triggersCleanup = true) :
    s.isFinalized = true := by
  revert h; cases s <;> decide

end TaskStatus

/-- `execution.status in constants.FINALIZED_TASK_STATUSES`: the guard of
`_cancel_tasks_execution` compares the text of an execution status with the texts of the
*task* statuses. -/
def ExecutionStatus.inFinalizedTaskStatuses (s : ExecutionStatus) : Bool :=
  (TaskStatus.finalizedTaskStatuses.map TaskStatus.text).contains s.text

end Coriolis.Conductor

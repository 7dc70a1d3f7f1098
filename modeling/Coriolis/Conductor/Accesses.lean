import Coriolis.Conductor.Handlers
import Coriolis.Library.Accesses

/-!
# The accesses of the handlers

The functions of `Advance` once more, with every read of the database, every write to it and
every call of another service as an access of its own. A handler that is left alone does what
its function says (`run_confirmMinionsAllocation`, `run_cancelTransferTasksExecution`).
-/

namespace Coriolis.Conductor.Accesses

open Sharing (Prog)

abbrev Result := Except ConductorError

def setTaskStatus (id : TaskId) (status : TaskStatus) (details : Option String) :
    Prog World Unit :=
  Prog.modify (·.setTaskStatus id status details)

def emit (effect : Effect) : Prog World Unit := Prog.modify (·.emit effect)

/-- `_set_tasks_execution_status`. -/
def setTasksExecutionStatus (previous new : ExecutionStatus) : Prog World Unit := do
  if new = .completed then emit .updateReservationFulfillment
  if new.isFinalized && previous != .awaitingMinionAllocations then
    emit .deallocateMinionMachinesForAction
  Prog.modify (·.setExecutionStatus new)

/-- An `execution` object that is read again on demand. -/
def requeried (execution : World) (requery : Bool) : Prog World World :=
  if requery then Prog.read else pure execution

section

variable (e : Execution)

/-- What `_check_clean_execution_deadlock` does to a deadlocked execution. -/
def cleanDeadlock (previous : ExecutionStatus) (taskStatuses : TaskId → TaskStatus) :
    Prog World Unit := do
  Prog.each (fun t =>
    if taskStatuses t.id = .scheduled ∨ taskStatuses t.id = .onErrorOnly then
      setTaskStatus t.id .canceledFromDeadlock (some taskDeadlockErrorMessage)
    else pure ()) e.tasks
  setTasksExecutionStatus previous .deadlocked

/-- `_check_clean_execution_deadlock`. -/
def checkCleanExecutionDeadlock (execution : World)
    (taskStatuses : Option (TaskId → TaskStatus)) (requery : Bool) :
    Prog World ExecutionStatus := do
  let execution ← requeried execution requery
  let taskStatuses := taskStatuses.getD execution.st
  if isDeadlocked e taskStatuses then
    cleanDeadlock e execution.status taskStatuses
    pure .deadlocked
  else pure .running

variable (env : Env)

/-- The `except` block of `_start_task`. -/
def startFailed (cancel : Prog World (Result Unit)) (err : ConductorError) : Prog World (Result Unit) :=
  cancel.orRaise fun _ => pure (.error err)

/-- `_start_task`, which `_begin_tasks` repeats for its tasks. -/
def startTask (cancel : Prog World (Result Unit)) (task : Task) : Prog World (Result Unit) := do
  setTaskStatus task.id .pending none
  if !env.findsWorker task.id then
    emit (.noSuitableWorker task.id)
    setTaskStatus task.id .failedToSchedule (some (env.schedulingError task.id))
    startFailed cancel (.noSuitableWorkerService task.id)
  else if !env.beginTaskGoesOut task.id then
    emit (.beginTaskRaised task.id)
    startFailed cancel (.beginTaskRaised task.id)
  else
    emit (.beginTask task.id)
    pure (.ok ())

/-- The loop of `_advance_execution_state`. -/
def advanceLoop (cancel : Prog World (Result Unit)) : List Task → (TaskId → TaskStatus) → List TaskId →
    Prog World (Result ((TaskId → TaskStatus) × List TaskId))
  | [], taskStatuses, startedTasks => pure (.ok (taskStatuses, startedTasks))
  | task :: rest, taskStatuses, startedTasks =>
    match lifecycleDecision e taskStatuses task with
    | .start =>
      (startTask env cancel task).orRaise fun _ =>
        advanceLoop cancel rest (Function.update taskStatuses task.id .pending)
          (startedTasks ++ [task.id])
    | .unschedule details => do
      setTaskStatus task.id .unscheduled (some details)
      advanceLoop cancel rest (Function.update taskStatuses task.id .unscheduled) startedTasks
    | .none => advanceLoop cancel rest taskStatuses startedTasks

/-- The end of `_advance_execution_state`. -/
def refreshExecutionStatus (execution : World) : Prog World Unit := do
  let latestExecutionStatus := getExecutionStatus e (← Prog.read)
  if latestExecutionStatus ≠ execution.status then
    setTasksExecutionStatus execution.status latestExecutionStatus

/-- The part of `_advance_execution_state` after its loop. -/
def finishAdvance (execution : World) (taskStatuses : TaskId → TaskStatus)
    (startedTasks : List TaskId) : Prog World (Result (List TaskId)) := do
  if startedTasks = [] then
    match ← checkCleanExecutionDeadlock e execution (some taskStatuses) true with
    | .deadlocked => pure (.ok [])
    | _ =>
      refreshExecutionStatus e execution
      pure (.ok startedTasks)
  else
    refreshExecutionStatus e execution
    pure (.ok startedTasks)

/-- `_advance_execution_state`, for a given `_cancel_tasks_execution`. -/
def advanceWith (cancel : Prog World (Result Unit)) (execution : World) (requery : Bool)
    (inst : Option String) : Prog World (Result (List TaskId)) := do
  let execution ← requeried execution requery
  if !execution.status.isActive then
    let _ ← checkCleanExecutionDeadlock e execution none (!requery)
    pure (.ok [])
  else if (tasksToProcess e inst).isEmpty then
    pure (.error (.invalidActionTasksExecutionState (noTasksMessage e inst)))
  else
    (advanceLoop e env cancel (sortedByIndex (tasksToProcess e inst)) execution.st []).orRaise
      fun looped => finishAdvance e execution looped.1 looped.2

/-- What the loop of `_cancel_tasks_execution` does with one task: where a worker is asked
to cancel it, the status is written first; everything else is one write. -/
def cancelTask (execution : World) (force : Bool) (task : Task) : Prog World Unit :=
  let row := execution.rows task.id
  if !(force && (row.status.isActive || row.status == .failedToCancel)) &&
      (row.status == .running || row.status == .failedToCancel) && !task.onError then do
    setTaskStatus task.id .cancelling none
    if env.cancelTaskAccepted task.id then emit (.cancelTask task.id)
    else
      emit (.cancelTaskRaised task.id)
      setTaskStatus task.id .failedToCancel (some <|
        s!"Failed to send cancellation request for task '{task.id}'to worker host " ++
          s!"'{pyStr row.host}' as part of cancellation of execution '{e.id}'. Marking task as " ++
          s!"'FAILED_TO_CANCEL' for now and awaiting any eventual worker replies later.")
  else Prog.modify (Conductor.cancelTask e env execution force · task)

/-- The loop of `_cancel_tasks_execution`. -/
def cancelTasks (execution : World) (force : Bool) : Prog World Unit := do
  emit (.cancelTasks force)
  Prog.each (cancelTask e env execution force) (sortedByIndex e.tasks)

/-- `_cancel_tasks_execution`, for a given `_advance_execution_state`. -/
def cancelWith (advance : World → Bool → Prog World (Result (List TaskId))) (execution : World)
    (requery force : Bool) : Prog World (Result Unit) := do
  let execution ← requeried execution requery
  let advanced (requery : Bool) : Prog World (Result Unit) := do
    let startedTasks ← advance execution requery
    pure (startedTasks.map fun _ => ())
  if execution.status = .running then
    setTasksExecutionStatus .running .cancelling
    cancelTasks e env execution force
    advanced true
  else if execution.status = .cancelling ∧ !force then advanced (!requery)
  else if execution.status.inFinalizedTaskStatuses then pure (.ok ())
  else
    cancelTasks e env execution force
    advanced true

/-- `_advance_execution_state` with the stack depth left. -/
def advance : Nat → World → Bool → Option String → Prog World (Result (List TaskId))
  | 0, _, _, _ => pure (.error .recursionLimit)
  | fuel + 1, execution, requery, inst =>
    -- the cancellation reads the execution again, so what it is given does not matter
    advanceWith e env
      (cancelWith e env (fun x r => advance fuel x r none) execution true false)
      execution requery inst

/-- `_cancel_tasks_execution`. -/
def cancelTasksExecution (execution : World) (requery force : Bool) : Prog World (Result Unit) :=
  cancelWith e env (fun x r => advance e env (stackDepth e) x r none) execution requery force

/-- The loop of `_begin_tasks`. -/
def beginLoop (execution : World) : List Task → List TaskId → Prog World (Result (List TaskId))
  | [], newlyStartedTasks => pure (.ok newlyStartedTasks)
  | task :: rest, newlyStartedTasks =>
    if task.dependsOn = [] ∧ execution.st task.id = .scheduled then
      (startTask env (cancelTasksExecution e env execution true false) task).orRaise fun _ =>
        beginLoop execution rest (newlyStartedTasks ++ [task.id])
    else beginLoop execution rest newlyStartedTasks

/-- `_begin_tasks`. -/
def beginTasks (execution : World) : Prog World (Result Unit) :=
  (beginLoop e env execution e.tasks []).orRaise fun newlyStartedTasks => do
    if newlyStartedTasks = [] then
      pure (.error (.invalidActionTasksExecutionState
        s!"No tasks were started at the beginning of execution '{e.id}'"))
    else
      setTasksExecutionStatus execution.status .running
      pure (.ok ())

/-- `cancel_transfer_tasks_execution`. -/
def cancelTransferTasksExecution (force : Bool) : Prog World (Result Unit) := do
  let execution ← Prog.read
  if !execution.status.isActive then
    pure (.error
      (.invalidTransferState s!"Transfer '{e.actionId}' has no running execution to cancel."))
  else if execution.status = .cancelling ∧ !force then
    pure (.error (.invalidTransferState <|
      s!"Transfer '{e.actionId}' is already being cancelled. Please use the force option if " ++
        s!"you'd like to force-cancel it."))
  else cancelTasksExecution e env execution true force

end

section

/-! A program that nobody interferes with. -/

variable {e : Execution} {env : Env} {w : World} {x : World}

@[simp] lemma run_setTaskStatus (id : TaskId) (status : TaskStatus) (details : Option String) :
    (setTaskStatus id status details).run w = ((), w.setTaskStatus id status details) :=
  Prog.run_modify _

@[simp] lemma run_emit (effect : Effect) : (emit effect).run w = ((), w.emit effect) :=
  Prog.run_modify _

@[simp] lemma run_setTasksExecutionStatus (previous new : ExecutionStatus) :
    (setTasksExecutionStatus previous new).run w =
      ((), Conductor.setTasksExecutionStatus previous new w) := by
  simp only [setTasksExecutionStatus, Prog.run_bind, Prog.run_ite, run_emit, Prog.run_modify,
    Conductor.setTasksExecutionStatus]
  split <;> split <;> rfl

@[simp] lemma run_requeried (requery : Bool) :
    (requeried x requery).run w = (if requery then w else x, w) := by
  cases requery <;> rfl

@[simp] lemma run_cleanDeadlock (previous : ExecutionStatus)
    (taskStatuses : TaskId → TaskStatus) :
    (cleanDeadlock e previous taskStatuses).run w =
      ((), Conductor.cleanDeadlock e previous taskStatuses w) := by
  simp only [cleanDeadlock, Prog.run_bind, Prog.run_each, Prog.run_ite, run_setTaskStatus,
    Prog.run_pure, run_setTasksExecutionStatus, Conductor.cleanDeadlock, apply_ite Prod.snd]

@[simp] lemma run_checkCleanExecutionDeadlock (taskStatuses : Option (TaskId → TaskStatus))
    (requery : Bool) : (checkCleanExecutionDeadlock e x taskStatuses requery).run w =
      Conductor.checkCleanExecutionDeadlock e x taskStatuses requery w := by
  simp only [checkCleanExecutionDeadlock, Prog.run_bind, run_requeried, Prog.run_ite,
    run_cleanDeadlock, Prog.run_pure, Conductor.checkCleanExecutionDeadlock]

@[simp] lemma run_startFailed (cancel : Prog World (Result Unit)) (err : ConductorError) :
    (startFailed cancel err).run w = Conductor.startFailed cancel.run err w := by
  rw [startFailed, Prog.run_orRaise, Conductor.startFailed]
  rcases cancel.run w with ⟨nested | a, w'⟩ <;> rfl

@[simp] lemma run_startTask (cancel : Prog World (Result Unit)) (task : Task) :
    (startTask env cancel task).run w = Conductor.startTask env cancel.run task w := by
  simp only [startTask, Prog.run_bind, Prog.run_ite, run_setTaskStatus, run_emit, Prog.run_pure,
    run_startFailed, Conductor.startTask]

lemma run_advanceLoop (cancel : Prog World (Result Unit)) (tasks : List Task)
    (taskStatuses : TaskId → TaskStatus) (startedTasks : List TaskId) :
    (advanceLoop e env cancel tasks taskStatuses startedTasks).run w =
      Conductor.advanceLoop e env cancel.run tasks taskStatuses startedTasks w := by
  induction tasks generalizing taskStatuses startedTasks w with
  | nil => rfl
  | cons task rest ih =>
    rw [advanceLoop, Conductor.advanceLoop]
    cases lifecycleDecision e taskStatuses task with
    | start =>
      change ((startTask env cancel task).orRaise _).run w = _
      rw [Prog.run_orRaise, run_startTask]
      rcases Conductor.startTask env cancel.run task w with ⟨err | a, w'⟩
      · rfl
      · exact ih ..
    | unschedule details => exact (Prog.run_bind ..).trans (ih ..)
    | none => exact ih ..

@[simp] lemma run_refreshExecutionStatus : (refreshExecutionStatus e x).run w =
    ((), Conductor.refreshExecutionStatus e x w) := by
  simp only [refreshExecutionStatus, Prog.run_bind, Prog.run_read, Prog.run_ite,
    run_setTasksExecutionStatus, Prog.run_pure, Conductor.refreshExecutionStatus]
  split <;> rfl

lemma run_finishAdvance (taskStatuses : TaskId → TaskStatus) (startedTasks : List TaskId) :
    (finishAdvance e x taskStatuses startedTasks).run w =
      Conductor.finishAdvance e x taskStatuses startedTasks w := by
  simp only [finishAdvance, Conductor.finishAdvance, Prog.run_ite, Prog.run_bind,
    run_refreshExecutionStatus, Prog.run_pure, run_checkCleanExecutionDeadlock]
  split
  · rcases Conductor.checkCleanExecutionDeadlock e x (some taskStatuses) true w with ⟨s, w'⟩
    cases s <;> simp
  · rfl

lemma run_advanceWith (cancel : Prog World (Result Unit)) (requery : Bool)
    (inst : Option String) : (advanceWith e env cancel x requery inst).run w =
      Conductor.advanceWith e env cancel.run x requery inst w := by
  simp only [advanceWith, Conductor.advanceWith, Prog.run_bind, run_requeried, Prog.run_ite,
    run_checkCleanExecutionDeadlock, Prog.run_pure, Prog.run_orRaise, run_advanceLoop,
    run_finishAdvance]
  generalize (if requery = true then w else x) = y
  rcases Conductor.advanceLoop e env cancel.run (sortedByIndex (tasksToProcess e inst)) y.st [] w
    with ⟨err | looped, w'⟩ <;> rfl

@[simp] lemma run_cancelTask (force : Bool) (task : Task) :
    (cancelTask e env x force task).run w = ((), Conductor.cancelTask e env x force w task) := by
  rw [cancelTask, Prog.run_ite]
  split
  · rename_i h
    simp only [Bool.and_eq_true, Bool.not_eq_true', Bool.or_eq_true, beq_iff_eq] at h
    obtain ⟨⟨hforce, hstatus⟩, hplain⟩ := h
    have hscheduled : ¬((x.rows task.id).status = .scheduled ∧ task.dependsOn = []) := by
      rcases hstatus with hs | hs <;> simp [hs]
    have hpending : ¬((x.rows task.id).status = .pending ∨ (x.rows task.id).status = .starting) := by
      rcases hstatus with hs | hs <;> simp [hs]
    simp only [Conductor.cancelTask, hforce, hscheduled, hpending, hstatus, hplain, if_true, if_false,
      Bool.not_false, Bool.false_eq_true, Prog.run_bind, Prog.run_ite, run_setTaskStatus, run_emit]
    split <;> rfl
  · exact Prog.run_modify _

@[simp] lemma run_cancelTasks (force : Bool) : (cancelTasks e env x force).run w =
    ((), Conductor.cancelTasks e env x force w) := by
  simp only [cancelTasks, Prog.run_bind, run_emit, Prog.run_each, run_cancelTask,
    Conductor.cancelTasks]

lemma run_cancelWith (advance : World → Bool → Prog World (Result (List TaskId)))
    (requery force : Bool) : (cancelWith e env advance x requery force).run w =
      Conductor.cancelWith e env (fun x r => (advance x r).run) x requery force w := by
  simp only [cancelWith, Conductor.cancelWith, Prog.run_bind, run_requeried, Prog.run_ite,
    run_setTasksExecutionStatus, run_cancelTasks, Prog.run_pure]

lemma run_advance (fuel : Nat) (requery : Bool) (inst : Option String) :
    (advance e env fuel x requery inst).run = Conductor.advance e env fuel x requery inst := by
  induction fuel generalizing x requery inst with
  | zero => rfl
  | succ fuel ih =>
    funext w
    rw [advance, Conductor.advance, run_advanceWith]
    congr 1
    funext db
    simp only [run_cancelWith, ih]
    rfl

lemma run_cancelTasksExecution (requery force : Bool) :
    (cancelTasksExecution e env x requery force).run =
      Conductor.cancelTasksExecution e env x requery force := by
  funext w
  simp only [cancelTasksExecution, run_cancelWith, run_advance]
  rfl

lemma run_beginLoop (tasks : List Task) (newlyStartedTasks : List TaskId) :
    (beginLoop e env x tasks newlyStartedTasks).run w =
      Conductor.beginLoop e env x tasks newlyStartedTasks w := by
  induction tasks generalizing newlyStartedTasks w with
  | nil => rfl
  | cons task rest ih =>
    rw [beginLoop, Conductor.beginLoop]
    split
    · simp only [Prog.run_orRaise, run_startTask, run_cancelTasksExecution, ih]
      rcases Conductor.startTask env (Conductor.cancelTasksExecution e env x true false) task w
        with ⟨err | a, w'⟩ <;> rfl
    · exact ih ..

lemma run_beginTasks : (beginTasks e env x).run w = Conductor.beginTasks e env x w := by
  rw [beginTasks, Prog.run_orRaise, run_beginLoop, Conductor.beginTasks]
  rcases Conductor.beginLoop e env x e.tasks [] w with ⟨err | started, w'⟩
  · rfl
  · simp only [Prog.run_ite, Prog.run_bind, run_setTasksExecutionStatus, Prog.run_pure]

lemma run_cancelTransferTasksExecution (force : Bool) :
    (cancelTransferTasksExecution e env force).run w =
      Conductor.cancelTransferTasksExecution e env force w := by
  simp only [cancelTransferTasksExecution, Conductor.cancelTransferTasksExecution, cancelRunning,
    Prog.run_bind, Prog.run_read, Prog.run_ite, Prog.run_pure, run_cancelTasksExecution]

end

end Coriolis.Conductor.Accesses

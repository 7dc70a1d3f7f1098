import Coriolis.Conductor.World

/-!
# Advancing and cancelling an execution

The three mutually recursive parts of the conductor that move an execution along:
`_advance_execution_state`, its inner `_start_task`, and `_cancel_tasks_execution`, with
the functions they use. Where the source holds an `execution` object it read earlier, the
functions below take that reading as a second `World`.

A start that fails cancels the execution before the exception is raised again, and the
cancellation advances the execution once more. The recursion is bounded by a counter that
stands for the depth of Python's stack; `advance_spec` in `Paths` shows that one more than
the number of tasks is always enough.
-/

namespace Coriolis.Conductor

/-- `"%s" % value` for a column that may be unset. -/
def pyStr (value : Option String) : String := value.getD "None"

def taskDeadlockErrorMessage : String :=
  "A fatal deadlock has occurred. Further debugging is required. " ++
  "Please review the Conductor logs and contact support for assistance."

/-- `_set_tasks_execution_status`; `previous` is the status on the object it was given. -/
def setTasksExecutionStatus (previous new : ExecutionStatus) (db : World) : World :=
  let db := if new = .completed then db.emit .updateReservationFulfillment else db
  let db :=
    if new.isFinalized && previous != .awaitingMinionAllocations then
      db.emit .deallocateMinionMachinesForAction
    else db
  db.setExecutionStatus new

section

variable (e : Execution)

/-- Some task of the execution has a status with the property `p`. -/
def anyTask (p : TaskStatus → Bool) (statuses : TaskId → TaskStatus) : Bool :=
  e.tasks.any fun t => p (statuses t.id)

/-- `_get_execution_status`. -/
def getExecutionStatus (execution : World) : ExecutionStatus :=
  let isRunning := anyTask e TaskStatus.isActive execution.st
  let isCanceled := anyTask e TaskStatus.isCanceled execution.st
  let isErrord := anyTask e (fun s => s == .error || s == .failedToSchedule) execution.st
  let isCancelling :=
    anyTask e (fun s => s == .cancelling || s == .cancellingAfterCompletion) execution.st
  let hasScheduledTasks := anyTask e (· == .scheduled) execution.st
  if hasScheduledTasks && !isRunning then .deadlocked
  else if isCancelling then .cancelling
  else if isRunning then
    if isCanceled then .cancelling else .running
  else if isErrord then .error
  else if isCanceled then .canceled
  else .completed

/-- The condition `_check_clean_execution_deadlock` tests. -/
def isDeadlocked (taskStatuses : TaskId → TaskStatus) : Bool :=
  anyTask e (· == .scheduled) taskStatuses && !anyTask e TaskStatus.isActive taskStatuses

/-- What `_check_clean_execution_deadlock` does to a deadlocked execution. -/
def cleanDeadlock (previous : ExecutionStatus) (taskStatuses : TaskId → TaskStatus)
    (db : World) : World :=
  let db := e.tasks.foldl (fun db t =>
    if taskStatuses t.id = .scheduled ∨ taskStatuses t.id = .onErrorOnly then
      db.setTaskStatus t.id .canceledFromDeadlock (some taskDeadlockErrorMessage)
    else db) db
  setTasksExecutionStatus previous .deadlocked db

/-- `_check_clean_execution_deadlock`. -/
def checkCleanExecutionDeadlock (execution : World)
    (taskStatuses : Option (TaskId → TaskStatus)) (requery : Bool) (db : World) :
    ExecutionStatus × World :=
  let execution := if requery then db else execution
  let taskStatuses := taskStatuses.getD execution.st
  if isDeadlocked e taskStatuses then
    (.deadlocked, cleanDeadlock e execution.status taskStatuses db)
  else (.running, db)

inductive Decision where
  | start
  | unschedule (exceptionDetails : String)
  | none
  deriving DecidableEq

/-- The branches of `_advance_execution_state` for one task. -/
def lifecycleDecision (taskStatuses : TaskId → TaskStatus) (task : Task) : Decision :=
  if taskStatuses task.id ≠ .scheduled then .none
  else if task.dependsOn = [] then .start
  else if task.dependsOn.all (taskStatuses · == .unscheduled) then
    .unschedule "Unscheduled due to the unscheduling of all parent tasks."
  else if task.dependsOn.all (taskStatuses · |>.isFinalized) then
    if !task.onError then
      if task.dependsOn.all (taskStatuses · == .completed) then .start
      else
        .unschedule "Unscheduled due to some parent tasks not having completed successfully."
    else
      let onErrorTasks := (e.tasks.filter (·.onError)).map (·.id)
      let nonErrorParents := task.dependsOn.filter (!onErrorTasks.contains ·)
      if nonErrorParents.isEmpty && task.dependsOn.any (taskStatuses · == .completed) then .start
      else if nonErrorParents.any (taskStatuses · |>.triggersCleanup) then .start
      else .unschedule "Unscheduled due to no non-error parent tasks having completed successfully."
  else .none

variable (env : Env)

/-- The `except` block of `_start_task`: cancel the execution, then raise again. -/
def startFailed (cancel : World → Outcome Unit) (err : ConductorError) (db : World) :
    Outcome Unit :=
  match cancel db with
  | (.error nested, db) => (.error nested, db)
  | (.ok _, db) => (.error err, db)

/-- `_start_task`, which `_begin_tasks` repeats for its tasks: `cancel` is the call to
`_cancel_tasks_execution` made when no worker is found or the cast raises. -/
def startTask (cancel : World → Outcome Unit) (task : Task) (db : World) : Outcome Unit :=
  let db := db.setTaskStatus task.id .pending none
  if !env.findsWorker task.id then
    startFailed cancel (.noSuitableWorkerService task.id)
      ((db.emit (.noSuitableWorker task.id)).setTaskStatus task.id .failedToSchedule
        (some (env.schedulingError task.id)))
  else if !env.beginTaskGoesOut task.id then
    startFailed cancel (.beginTaskRaised task.id) (db.emit (.beginTaskRaised task.id))
  else (.ok (), db.emit (.beginTask task.id))

/-- The loop of `_advance_execution_state`, with its `task_statuses` and `started_tasks`. -/
def advanceLoop (cancel : World → Outcome Unit) :
    List Task → (TaskId → TaskStatus) → List TaskId → World →
      Outcome ((TaskId → TaskStatus) × List TaskId)
  | [], taskStatuses, startedTasks, db => (.ok (taskStatuses, startedTasks), db)
  | task :: rest, taskStatuses, startedTasks, db =>
    match lifecycleDecision e taskStatuses task with
    | .start =>
      match startTask env cancel task db with
      | (.error err, db) => (.error err, db)
      | (.ok _, db) =>
        advanceLoop cancel rest (Function.update taskStatuses task.id .pending)
          (startedTasks ++ [task.id]) db
    | .unschedule details =>
      advanceLoop cancel rest (Function.update taskStatuses task.id .unscheduled) startedTasks
        (db.setTaskStatus task.id .unscheduled (some details))
    | .none => advanceLoop cancel rest taskStatuses startedTasks db

/-- The end of `_advance_execution_state`: store the execution's status if it changed. -/
def refreshExecutionStatus (execution db : World) : World :=
  let latestExecutionStatus := getExecutionStatus e db
  if latestExecutionStatus ≠ execution.status then
    setTasksExecutionStatus execution.status latestExecutionStatus db
  else db

/-- The tasks `_advance_execution_state` looks at; an empty instance name counts as none. -/
def tasksToProcess (inst : Option String) : List Task :=
  match inst with
  | none => e.tasks
  | some i => if i = "" then e.tasks else e.tasks.filter (·.inst = i)

/-- The part of `_advance_execution_state` after its loop. -/
def finishAdvance (execution : World) (taskStatuses : TaskId → TaskStatus)
    (startedTasks : List TaskId) (db : World) : Outcome (List TaskId) :=
  if startedTasks = [] then
    match checkCleanExecutionDeadlock e execution (some taskStatuses) true db with
    | (.deadlocked, db) => (.ok [], db)
    | (_, db) => (.ok startedTasks, refreshExecutionStatus e execution db)
  else (.ok startedTasks, refreshExecutionStatus e execution db)

def noTasksMessage (inst : Option String) : String :=
  s!"State advancement requested for execution '{e.id}' for instance '{pyStr inst}', which " ++
    s!"has no tasks defined for it."

/-- `_advance_execution_state`, for a given `_cancel_tasks_execution`. -/
def advanceWith (cancel : World → Outcome Unit) (execution : World) (requery : Bool)
    (inst : Option String) (db : World) : Outcome (List TaskId) :=
  let execution := if requery then db else execution
  if !execution.status.isActive then
    (.ok [], (checkCleanExecutionDeadlock e execution none (!requery) db).2)
  else if (tasksToProcess e inst).isEmpty then
    (.error (.invalidActionTasksExecutionState (noTasksMessage e inst)), db)
  else
    match advanceLoop e env cancel (sortedByIndex (tasksToProcess e inst)) execution.st [] db with
    | (.error err, db) => (.error err, db)
    | (.ok looped, db) => finishAdvance e execution looped.1 looped.2 db

/-- What the loop of `_cancel_tasks_execution` does with one task. -/
def cancelTask (execution : World) (force : Bool) (db : World) (task : Task) : World :=
  let row := execution.rows task.id
  if force && (row.status.isActive || row.status == .failedToCancel) then
    db.setTaskStatus task.id .forceCanceled (some <|
      s!"This task was force-canceled at user request. Its state prior to its cancellation was " ++
        s!"'{row.status.text}'. Its error details prior to its cancellation were: " ++
        s!"{pyStr row.exceptionDetails}")
  else if row.status = .scheduled ∧ task.dependsOn = [] then
    db.setTaskStatus task.id .unscheduled (some
      "This task was unscheduled during the cancellation of the parent tasks execution.")
  else if row.status = .pending ∨ row.status = .starting then
    db.setTaskStatus task.id .unscheduled (some <|
      "This task was already pending execution but was unscheduled during the cancellation of " ++
        "the parent tasks execution.")
  else if row.status = .running ∨ row.status = .failedToCancel then
    if !task.onError then
      let db := db.setTaskStatus task.id .cancelling none
      if env.cancelTaskAccepted task.id then db.emit (.cancelTask task.id)
      else
        (db.emit (.cancelTaskRaised task.id)).setTaskStatus task.id .failedToCancel (some <|
          s!"Failed to send cancellation request for task '{task.id}'to worker host " ++
            s!"'{pyStr row.host}' as part of cancellation of execution '{e.id}'. Marking task as " ++
            s!"'FAILED_TO_CANCEL' for now and awaiting any eventual worker replies later.")
    else
      db.setTaskStatus task.id .cancellingAfterCompletion (some
        "Task will be marked as cancelled after completion as it is a cleanup task.")
  else if row.status = .onErrorOnly then db.setTaskStatus task.id .scheduled none
  else db

/-- The loop of `_cancel_tasks_execution`. -/
def cancelTasks (execution : World) (force : Bool) (db : World) : World :=
  (sortedByIndex e.tasks).foldl (cancelTask e env execution force) (db.emit (.cancelTasks force))

/-- `_cancel_tasks_execution`, for a given `_advance_execution_state`. -/
def cancelWith (advance : World → Bool → World → Outcome (List TaskId)) (execution : World)
    (requery force : Bool) (db : World) : Outcome Unit :=
  let execution := if requery then db else execution
  let advanced (requery : Bool) (db : World) : Outcome Unit :=
    ((advance execution requery db).1.map fun _ => (), (advance execution requery db).2)
  if execution.status = .running then
    advanced true
      (cancelTasks e env execution force (setTasksExecutionStatus .running .cancelling db))
  else if execution.status = .cancelling ∧ !force then advanced (!requery) db
  else if execution.status.inFinalizedTaskStatuses then (.ok (), db)
  else advanced true (cancelTasks e env execution force db)

/-- `_advance_execution_state` with the stack depth left. -/
def advance : Nat → World → Bool → Option String → World → Outcome (List TaskId)
  | 0, _, _, _, db => (.error .recursionLimit, db)
  | fuel + 1, execution, requery, inst, db =>
    advanceWith e env
      (fun db => cancelWith e env (fun x r d => advance fuel x r none d) db true false db)
      execution requery inst db

def stackDepth : Nat := e.tasks.length + 1

/-- `_advance_execution_state`. -/
def advanceExecutionState (execution : World) (requery : Bool) (inst : Option String)
    (db : World) : Outcome (List TaskId) :=
  advance e env (stackDepth e) execution requery inst db

/-- `_cancel_tasks_execution`. -/
def cancelTasksExecution (execution : World) (requery force : Bool) (db : World) :
    Outcome Unit :=
  cancelWith e env (fun x r d => advanceExecutionState e env x r none d) execution requery force db

/-- The loop of `_begin_tasks`. -/
def beginLoop (execution : World) : List Task → List TaskId → World → Outcome (List TaskId)
  | [], newlyStartedTasks, db => (.ok newlyStartedTasks, db)
  | task :: rest, newlyStartedTasks, db =>
    if task.dependsOn = [] ∧ execution.st task.id = .scheduled then
      let cancel (db : World) := cancelTasksExecution e env execution true false db
      match startTask env cancel task db with
      | (.error err, db) => (.error err, db)
      | (.ok _, db) => beginLoop execution rest (newlyStartedTasks ++ [task.id]) db
    else beginLoop execution rest newlyStartedTasks db

/-- `_begin_tasks`. -/
def beginTasks (execution db : World) : Outcome Unit :=
  match beginLoop e env execution e.tasks [] db with
  | (.error err, db) => (.error err, db)
  | (.ok newlyStartedTasks, db) =>
    if newlyStartedTasks = [] then
      (.error (.invalidActionTasksExecutionState
        s!"No tasks were started at the beginning of execution '{e.id}'"), db)
    else (.ok (), setTasksExecutionStatus execution.status .running db)

end

end Coriolis.Conductor

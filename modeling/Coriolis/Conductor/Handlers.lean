import Coriolis.Conductor.Advance

/-!
# The conductor's handlers

The RPC methods that move an existing execution: the ones a worker calls about its task,
the user's cancellation, and the minion manager's confirmation or refusal of the minions a
transfer or deployment waits for. Each holds the lock of the execution (or of its action)
for its whole run, so it is one step; `step` collects them.
-/

namespace Coriolis.Conductor

/-- `set_task_host`. -/
def setTaskHost (task : Task) (host : String) (db : World) : Outcome Unit :=
  let status := db.st task.id
  let accept (new : TaskStatus) (details : Option String) : Outcome Unit :=
    (.ok (), (db.setTaskHostProperties task.id (some host) none).setTaskStatus task.id new details)
  if status = .cancelling then (.error (.taskIsCancelling task.id), db)
  else if status = .cancellingAfterCompletion then
    accept .cancellingAfterCompletion (some <|
      "This is a cleanup task so it will be allowed to run to completion despite " ++
        "user-cancellation.")
  else if status ≠ .pending then
    (.error (.invalidTaskState <|
      s!"Task with ID '{task.id}' is in '{status.text}' status instead of the expected 'PENDING' " ++
        s!"required for it to have a task host set."), db)
  else accept .starting none

/-- `set_task_process`; a process that was not started has no id. -/
def setTaskProcess (task : Task) (processId : Option Nat) (db : World) : Outcome Unit :=
  let row := db.rows task.id
  if row.host.getD "" = "" then
    (.error (.invalidTaskState <|
      s!"Task with ID '{task.id}' (current status '{row.status.text}') has no host set for it. " ++
        s!"Cannot set host process."), db)
  else if row.status ≠ .starting ∧ row.status ≠ .cancellingAfterCompletion then
    (.error (.invalidTaskState <|
      s!"Task with ID '{task.id}' is in '{row.status.text}' status instead of the expected " ++
        s!"statuses (['STARTING', 'CANCELLING_AFTER_COMPLETION']) required for it to have a task " ++
        s!"process set."), db)
  else
    (.ok (),
      (db.setTaskHostProperties task.id none processId).setTaskStatus task.id .running none)

/-- The status and the details `task_completed` stores for a task; none when it was
already finalized and the report is dropped. -/
def completionStatus (row : TaskRow) : Option (TaskStatus × Option String) :=
  if row.status = .cancellingAfterCompletion then
    some (.canceledAfterCompletion, some
      "This is a cleanup task so it was allowed to run to completion after user-cancellation.")
  else if row.status = .cancelling then
    some (.canceledAfterCompletion, some <|
      s!"The worker host for this task ('{pyStr row.host}') has either failed at cancelling it " ++
        s!"or the cancellation request arrived after it was already completed so this task was run " ++
        s!"to completion. Please review the worker logs for more relevant details.")
  else if row.status = .failedToCancel then
    some (.canceledAfterCompletion, some <|
      s!"The worker host for this task ('{pyStr row.host}') had not either not accepted task " ++
        s!"cancellation request when it was asked to or had failed to receive the request, so this " ++
        s!"task was run to completion. Please review the worker logs for more relevant details.")
  else if row.status.isFinalized then none
  else some (.completed, none)

/-- The status `set_task_error` stores for a task, and the details with it. -/
def errorStatus (task : Task) (row : TaskRow) (details : String) : TaskStatus × String :=
  if row.status = .cancelling then (.canceled, details)
  else if row.status = .cancellingAfterCompletion then
    if task.onError then
      (.canceled, s!"This is a cleanup task so was allowed to complete following " ++
        s!"user-cancellation, but encountered an error: {details}")
    else (.canceled, details)
  else if row.status = .forceCanceled then
    (.forceCanceled, s!"This task was force-cancelled but ended up errorring anyway. The error " ++
      s!"details were: '{details}'")
  else if row.status = .failedToCancel then
    (.canceled, s!"The worker service for this task ({pyStr row.host}) has failed to cancel this " ++
      s!"task when it was asked to, and the task eventually exited with an error. The error details " ++
      s!"were: {details}")
  else if row.status.isFinalized then
    (.error, s!"Error confirmation came in for this task despite it having already been marked " ++
      s!"as {row.status.text}. Please notify support of this occurence and share the Conductor and " ++
      s!"Worker logs. Error message in confirmation was: {details}")
  else (.error, details)

/-- The status `confirm_task_cancellation` stores for a task, and the details with it. -/
def cancellationStatus (row : TaskRow) (details : String) : TaskStatus × String :=
  let userCancelled :=
    s!"This task was user-cancelled. Additional cancellation info from worker service: '{details}'"
  if row.status = .cancellingAfterCompletion then (.canceled, userCancelled)
  else if row.status = .forceCanceled then
    (.forceCanceled, s!"This task was force-cancelled. Confirmation of its cancellation did " ++
      s!"eventually come in. Additional details on the cancellation: {details}")
  else if row.status = .failedToCancel then
    (.canceled, s!"The worker service for this task ({pyStr row.host}) had either failed to " ++
      s!"cancel this task when it was initially asked to or did not receive the cancellation " ++
      s!"request, but it did eventually confirm the task's cancellation with the following details: " ++
      s!"{details}")
  else if row.status.isFinalized then (row.status, userCancelled)
  else (.canceled, userCancelled)

section

/-- The branch for the attachment and detachment of a minion's volumes. -/
def updateMinionMachine (pool : String) (taskInfo : TaskInfo) (db : World) : Outcome Unit :=
  match taskInfo.get? (pool ++ "_minion_provider_properties") with
  | none => (.error (.keyError (pool ++ "_minion_provider_properties")), db)
  | some properties =>
    match taskInfo.get? (pool ++ "_minion_machine_id") with
    | none => (.error (.keyError (pool ++ "_minion_machine_id")), db)
    | some machine => (.ok (), db.emit (.postTaskAction (.updateMinionMachine machine properties)))

def releaseMinion (pool : String) (taskInfo : TaskInfo) (db : World) : Outcome Unit :=
  match taskInfo.get? (pool ++ "_minion_machine_id") with
  | none => (.error (.keyError (pool ++ "_minion_machine_id")), db)
  | some machine => (.ok (), db.emit (.postTaskAction (.deallocateMinionMachine machine)))

/-- Equality of machine ids, which are strings, or null before the allocation. -/
def sameMachineId : Json → Json → Bool
  | .null, .null => true
  | .str a, .str b => a == b
  | _, _ => false

/-- The release of a destination minion, kept when it also is the OSMorphing minion. -/
def releaseDestinationMinion (taskInfo : TaskInfo) (db : World) : Outcome Unit :=
  match taskInfo.get? "destination_minion_machine_id" with
  | none => (.error (.keyError "destination_minion_machine_id"), db)
  | some machine =>
    if sameMachineId machine ((taskInfo.get? "osmorphing_minion_machine_id").getD .null) then
      (.ok (), db)
    else (.ok (), db.emit (.postTaskAction (.deallocateMinionMachine machine)))

variable (e : Execution) (conf : Conf)

/-- `_check_other_tasks_running`. -/
def otherTasksRunning (execution : World) (task : Task) : Bool :=
  e.tasks.any fun other => other.id != task.id && (execution.st other.id).isActive

/-- `_update_transfer_volumes_info` for the action of the execution itself. -/
def updateVolumesInfo (task : Task) (taskInfo : TaskInfo) (db : World) : World :=
  (db.updateTransferActionInfoForInstance task.inst
    [("volumes_info", (taskInfo.get? "volumes_info").getD (.arr []))]).2

/-- `_handle_post_task_actions`. -/
def handlePostTaskActions (task : Task) (execution : World) (taskInfo : TaskInfo) (db : World) :
    Outcome Unit :=
  match task.taskType with
  | .restoreTransferDiskSnapshots =>
    match taskInfo.get? "volumes_info" with
    | some volumesInfo =>
      if volumesInfo.truthy then
        (.ok (), db.emit (.postTaskAction (.updateTransferVolumesInfo task.inst volumesInfo)))
      else (.ok (), db)
    | none => (.ok (), db)
  | .deleteTransferTargetDiskSnapshots =>
    if ((taskInfo.get? "clone_disks").getD .null).truthy then (.ok (), db)
    else (.ok (), db.emit (.postTaskAction (.updateTransferVolumesInfo task.inst (.arr []))))
  | .finalizeInstanceDeployment =>
    match taskInfo.get? "transfer_result" with
    | some result =>
      if conf.isValidExportInfo result then
        (.ok (), db.emit (.postTaskAction (.setTransferActionResult task.inst result)))
      else (.ok (), db)
    | none => (.ok (), db)
  | .updateSourceTransfer => (.ok (), updateVolumesInfo task taskInfo db)
  | .updateDestinationTransfer =>
    let db := updateVolumesInfo task taskInfo db
    if otherTasksRunning e execution task then (.ok (), db)
    else (.ok (), db.emit (.postTaskAction (.updateTransfer taskInfo)))
  | .attachVolumesToSourceMinion => updateMinionMachine "origin" taskInfo db
  | .detachVolumesFromSourceMinion => updateMinionMachine "origin" taskInfo db
  | .attachVolumesToDestinationMinion => updateMinionMachine "destination" taskInfo db
  | .detachVolumesFromDestinationMinion => updateMinionMachine "destination" taskInfo db
  | .attachVolumesToOsmorphingMinion => updateMinionMachine "osmorphing" taskInfo db
  | .detachVolumesFromOsmorphingMinion => updateMinionMachine "osmorphing" taskInfo db
  | .releaseSourceMinion => releaseMinion "origin" taskInfo db
  | .releaseDestinationMinion => releaseDestinationMinion taskInfo db
  | .releaseOsmorphingMinion => releaseMinion "osmorphing" taskInfo db
  | _ => (.ok (), db)

end

section

variable (e : Execution) (conf : Conf) (env : Env)

/-- The result `task_completed` merges into the info of the action, and the info after. -/
def storeTaskResult (task : Task) (taskResult : TaskInfo) (db : World) : Outcome TaskInfo :=
  if taskResult.isEmpty then
    match db.info task.inst with
    | some info => (.ok info, db)
    | none => (.error (.keyError task.inst), db)
  else
    let stored := db.updateTransferActionInfoForInstance task.inst taskResult
    (.ok stored.1, stored.2)

/-- `task_completed`. -/
def taskCompleted (task : Task) (taskResult : TaskInfo) (db : World) : Outcome Unit :=
  let row := db.rows task.id
  let db := db.emit (.taskCompleted task.id)
  match completionStatus row with
  | none => (.ok (), db)
  | some (status, details) =>
    match storeTaskResult task taskResult (db.setTaskStatus task.id status details) with
    | (.error err, db) => (.error err, db)
    | (.ok updatedTaskInfo, db) =>
      let execution := db
      match handlePostTaskActions e conf task execution updatedTaskInfo db with
      | (.error err, db) => (.error err, db)
      | (.ok _, db) =>
        let advanced := advanceExecutionState e env execution false (some task.inst) db
        (advanced.1.map fun _ => (), advanced.2)

/-- Why a task was unscheduled by `_cancel_execution_for_osmorphing_debugging`. -/
def debuggingMessage (subtask : Task) : String :=
  let msg := "This task was unscheduled for debugging an error in the OSMorphing process."
  if subtask.onError then
    msg ++ " Please note that any cleanup operations this task should have included will need " ++
      "to performed manually once the debugging process has been completed."
  else msg

/-- `_cancel_execution_for_osmorphing_debugging`. -/
def cancelExecutionForOsmorphingDebugging (execution : World) : List Task → World → Outcome Unit
  | [], db => (.ok (), db)
  | subtask :: rest, db =>
    if subtask.taskType = .osMorphing then
      cancelExecutionForOsmorphingDebugging execution rest db
    else if (execution.st subtask.id).isActive then
      (.error (.coriolisException <|
        s!"Task {subtask.id} is still in an active state " ++
          s!"({(execution.st subtask.id).text}) although it should not!"), db)
    else if execution.st subtask.id = .scheduled ∨ execution.st subtask.id = .onErrorOnly then
      cancelExecutionForOsmorphingDebugging execution rest
        (db.setTaskStatus subtask.id .canceledForDebugging (some (debuggingMessage subtask)))
    else cancelExecutionForOsmorphingDebugging execution rest db

/-- The part of `set_task_error` after the new status was stored. -/
def handleTaskError (task : Task) (finalStatus : TaskStatus) (details : String) (db : World) :
    Outcome Unit :=
  let execution := db
  if task.taskType = .osMorphing ∧ conf.debugOsMorphingErrors then
    let running := e.tasks.filter fun t =>
      (execution.st t.id).isActive && t.taskType != .osMorphing
    if running.isEmpty then
      match cancelExecutionForOsmorphingDebugging execution e.tasks db with
      | (.error err, db) => (.error err, db)
      | (.ok _, db) =>
        let db := db.setTaskStatus task.id finalStatus (some <|
          s!"An error has occured during OSMorphing. Cleanup will not be performed for debugging " ++
            s!"reasons. Please review the Conductor logs for the debug connection info. Original " ++
            s!"error was: {details}")
        (.ok (), setTasksExecutionStatus execution.status .canceledForDebugging db)
    else cancelTasksExecution e env execution true false db
  else cancelTasksExecution e env execution true false db

/-- `set_task_error`. -/
def setTaskError (task : Task) (exceptionDetails : String) (db : World) : Outcome Unit :=
  let new := errorStatus task (db.rows task.id) exceptionDetails
  let db := (db.emit (.taskErrored task.id)).setTaskStatus task.id new.1 (some new.2)
  handleTaskError e conf env task new.1 new.2 db

/-- `confirm_task_cancellation`. -/
def confirmTaskCancellation (task : Task) (cancellationDetails : String) (db : World) :
    Outcome Unit :=
  let status := db.st task.id
  let new := cancellationStatus (db.rows task.id) cancellationDetails
  let db := (db.emit (.taskCancelled task.id)).setTaskStatus task.id new.1 (some new.2)
  if new.1 = status then (.ok (), db)
  else
    let advanced := advanceExecutionState e env db false none db
    (advanced.1.map fun _ => (), advanced.2)

end

section

variable (e : Execution) (env : Env)

/-- The body the two cancellations of an action share, with the errors each one raises. -/
def cancelRunning (notRunning alreadyCancelling : ConductorError) (force : Bool) (db : World) :
    Outcome Unit :=
  if !db.status.isActive then (.error notRunning, db)
  else if db.status = .cancelling ∧ !force then (.error alreadyCancelling, db)
  else cancelTasksExecution e env db true force db

/-- `cancel_transfer_tasks_execution`. -/
def cancelTransferTasksExecution (force : Bool) (db : World) : Outcome Unit :=
  cancelRunning e env
    (.invalidTransferState s!"Transfer '{e.actionId}' has no running execution to cancel.")
    (.invalidTransferState <|
      s!"Transfer '{e.actionId}' is already being cancelled. Please use the force option if " ++
        s!"you'd like to force-cancel it.")
    force db

/-- `cancel_deployment`; the second message keeps its unfilled placeholder. -/
def cancelDeployment (force : Bool) (db : World) : Outcome Unit :=
  cancelRunning e env
    (.invalidDeploymentState s!"Deployment '{e.actionId}' is not currently running")
    (.invalidDeploymentState <|
      "Deployment '%s' is already being cancelled. Please use the force option if you'd like to " ++
        "force-cancel it.")
    force db

structure MinionMachine where
  id : Json
  providerProperties : Json
  connectionInfo : Json
  backupWriterConnectionInfo : Json

structure MinionAllocation where
  originMinion : Option MinionMachine
  destinationMinion : Option MinionMachine
  osmorphingMinion : Option MinionMachine

def MinionAllocation.info (allocation : MinionAllocation) : TaskInfo :=
  let entries (pool : String) (m : MinionMachine) : TaskInfo :=
    [(pool ++ "_minion_machine_id", m.id),
     (pool ++ "_minion_provider_properties", m.providerProperties),
     (pool ++ "_minion_connection_info", m.connectionInfo)]
  (allocation.osmorphingMinion.map (entries "osmorphing")).getD [] ++
  (allocation.destinationMinion.map fun m =>
    entries "destination" m ++
      [("destination_minion_backup_writer_connection_info",
        m.backupWriterConnectionInfo)]).getD [] ++
  (allocation.originMinion.map (entries "origin")).getD []

/-- The second loop of `_update_task_info_for_minion_allocations`. -/
def storeMinionAllocations : List (String × MinionAllocation) → World → Outcome Unit
  | [], db => (.ok (), db)
  | (inst, allocation) :: rest, db =>
    if inst ∈ e.instances then
      match db.info inst with
      | none => (.error (.keyError inst), db)
      | some info =>
        storeMinionAllocations rest
          (db.updateTransferActionInfoForInstance inst (info.update allocation.info)).2
    else storeMinionAllocations rest db

/-- `_update_task_info_for_minion_allocations`. -/
def updateTaskInfoForMinionAllocations (allocations : List (String × MinionAllocation))
    (db : World) : Outcome Unit :=
  let allocated (inst : String) : TaskInfo :=
    (allocations.lookup inst).elim [] MinionAllocation.info
  match e.instances.find? fun i => !(allocated i).isEmpty && (db.info i).isNone with
  | some inst => (.error (.keyError inst), db)
  | none => storeMinionAllocations e allocations db

/-- The error for an action whose last execution does not wait for minions. -/
def notAwaitingMinions (goal : String) (db : World) : ConductorError :=
  if e.type = .deployment then
    .invalidDeploymentState <|
      s!"Deployment is in '{db.lastExecutionStatus.text}' status instead of the expected " ++
        s!"'AWAITING_MINION_ALLOCATIONS' to have minion machines {goal} for it."
  else
    .invalidTransferState <|
      s!"Transfer is in '{db.lastExecutionStatus.text}' status instead of the expected " ++
        s!"'AWAITING_MINION_ALLOCATIONS' to have minion machines {goal} for it."

/-- `confirm_transfer_minions_allocation` and `confirm_deployment_minions_allocation`. -/
def confirmMinionsAllocation (allocations : List (String × MinionAllocation)) (db : World) :
    Outcome Unit :=
  if db.lastExecutionStatus ≠ .awaitingMinionAllocations then
    (.error (notAwaitingMinions e "allocated" db), db)
  else
    match updateTaskInfoForMinionAllocations e allocations db with
    | (.error err, db) => (.error err, db)
    | (.ok _, db) => beginTasks e env db db

/-- `report_transfer_minions_allocation_error` and its twin for deployments. -/
def reportMinionsAllocationError (db : World) : Outcome Unit :=
  if db.lastExecutionStatus ≠ .awaitingMinionAllocations then
    (.error (notAwaitingMinions e "allocations fail" db), db)
  else
    match cancelTasksExecution e env db true false db with
    | (.error err, db') => (.error err, db')
    | (.ok _, db') => (.ok (), setTasksExecutionStatus db.status .errorAllocatingMinions db')

end

/-- A call on an existing execution. -/
inductive Call where
  | setTaskHost (task : Task) (host : String)
  | setTaskProcess (task : Task) (processId : Option Nat)
  | taskCompleted (task : Task) (taskResult : TaskInfo)
  | setTaskError (task : Task) (exceptionDetails : String)
  | confirmTaskCancellation (task : Task) (cancellationDetails : String)
  | cancel (force : Bool)
  | confirmMinionsAllocation (allocations : List (String × MinionAllocation))
  | reportMinionsAllocationError

/-- What a worker can say about one of its tasks. -/
inductive Report where
  | progress (task : Task)
  | completion (task : Task)
  | failure (task : Task)
  | cancellation (task : Task)

def Report.task : Report → Task
  | progress task | completion task | failure task | cancellation task => task

def Call.report? : Call → Option Report
  | setTaskHost task _ | setTaskProcess task _ => some (.progress task)
  | taskCompleted task _ => some (.completion task)
  | setTaskError task _ => some (.failure task)
  | confirmTaskCancellation task _ => some (.cancellation task)
  | cancel _ | confirmMinionsAllocation _ | reportMinionsAllocationError => none

def step (e : Execution) (conf : Conf) (env : Env) : Call → World → Outcome Unit
  | .setTaskHost task host => setTaskHost task host
  | .setTaskProcess task processId => setTaskProcess task processId
  | .taskCompleted task taskResult => taskCompleted e conf env task taskResult
  | .setTaskError task details => setTaskError e conf env task details
  | .confirmTaskCancellation task details => confirmTaskCancellation e env task details
  | .cancel force =>
    if e.type = .deployment then cancelDeployment e env force
    else cancelTransferTasksExecution e env force
  | .confirmMinionsAllocation allocations => confirmMinionsAllocation e env allocations
  | .reportMinionsAllocationError => reportMinionsAllocationError e env

end Coriolis.Conductor

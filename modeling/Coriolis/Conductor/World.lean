import Coriolis.Conductor.Status
import Coriolis.Library.Json
import Mathlib.Data.List.Sort

/-!
# The conductor's database and what it sends out

One tasks execution with the rows the conductor keeps for it. The columns of a task that
never change after `_create_task` are in `Task`; the ones that handlers write are in
`TaskRow`, addressed by task id as `db_api` does. Every `db_api` call of the source is a
transaction of its own, so an exception undoes nothing: handlers pass a `World` along and
return it next to their result.

`World.trace` lists what happened so far, newest first: the database writes, the messages
to workers and the answers of workers, each with the statuses it found.
-/

namespace Coriolis.Conductor

abbrev TaskInfo := List (String × Json)

namespace TaskInfo

def get? (info : TaskInfo) (key : String) : Option Json := info.lookup key

/-- `dict.update`. -/
def update (info new : TaskInfo) : TaskInfo := new ++ info

lemma get?_update (info new : TaskInfo) (key : String) :
    (info.update new).get? key = (new.get? key).or (info.get? key) :=
  List.lookup_append

end TaskInfo

inductive TaskType where
  | validateTransferSourceInputs | getInstanceInfo | validateTransferDestinationInputs
  | validateSourceMinionPoolCompatibility | validateDestinationMinionPoolCompatibility
  | deployTransferDisks | deployTransferSourceResources | deployTransferTargetResources
  | attachVolumesToSourceMinion | detachVolumesFromSourceMinion
  | attachVolumesToDestinationMinion | detachVolumesFromDestinationMinion
  | shutdownInstance | replicateDisks
  | releaseSourceMinion | releaseDestinationMinion
  | deleteTransferSourceResources | deleteTransferTargetResources
  | deleteTransferSourceDiskSnapshots | deleteTransferDisks
  | updateSourceTransfer | updateDestinationTransfer
  | validateDeploymentInputs | validateOsmorphingMinionPoolCompatibility
  | createTransferDiskSnapshots | deployInstanceResources
  | attachVolumesToOsmorphingMinion | detachVolumesFromOsmorphingMinion
  | collectOsmorphingInfo | deployOsMorphingResources | osMorphing
  | deleteOsMorphingResources | releaseOsmorphingMinion
  | getOptimalFlavor | finalizeInstanceDeployment | deleteTransferTargetDiskSnapshots
  | cleanupFailedInstanceDeployment | restoreTransferDiskSnapshots
  deriving DecidableEq, Repr

inductive ExecutionType where
  | transferExecution | transferDisksDelete | deployment | transferUpdate
  deriving DecidableEq, Repr

abbrev TaskId := Nat

structure Task where
  id : TaskId
  inst : String
  taskType : TaskType
  dependsOn : List TaskId
  onError : Bool
  index : Nat
  deriving DecidableEq, Repr

structure TaskRow where
  status : TaskStatus
  host : Option String
  processId : Option Nat
  exceptionDetails : Option String

/-- An execution as `_create_task` built it, with the instances of its action. The tasks
are in the order the database returns them, which is any order; their ids are a primary
key. -/
structure Execution where
  id : String
  actionId : String
  type : ExecutionType
  instances : List String
  tasks : List Task
  nodup : (tasks.map (·.id)).Nodup

/-- `sorted(tasks, key=lambda t: t.index)`. -/
def sortedByIndex (tasks : List Task) : List Task :=
  tasks.insertionSort (fun a b => a.index ≤ b.index)

inductive PostTaskAction where
  | updateTransferVolumesInfo (inst : String) (volumesInfo : Json)
  | updateVolumesInfo (inst : String) (volumesInfo : Json)
  | setTransferActionResult (inst : String) (result : Json)
  | updateTransfer (values : TaskInfo)
  | updateMinionMachine (machine providerProperties : Json)
  | deallocateMinionMachine (machine : Json)

inductive Effect where
  | setTaskStatus (id : TaskId) (status : TaskStatus)
  | setExecutionStatus (status : ExecutionStatus)
  /-- The `begin_task` cast was handed to a worker. -/
  | beginTask (id : TaskId)
  | beginTaskRaised (id : TaskId)
  | noSuitableWorker (id : TaskId)
  /-- The loop of `_cancel_tasks_execution` over the tasks starts. -/
  | cancelTasks (force : Bool)
  | cancelTask (id : TaskId)
  | cancelTaskRaised (id : TaskId)
  /-- What a worker reported last about a task. -/
  | taskCompleted (id : TaskId)
  | taskErrored (id : TaskId)
  | taskCancelled (id : TaskId)
  | postTaskAction (action : PostTaskAction)
  | updateReservationFulfillment
  | deallocateMinionMachinesForAction

/-- An effect with the statuses right before it. -/
structure Event where
  effect : Effect
  status : ExecutionStatus
  tasks : TaskId → TaskStatus

structure World where
  status : ExecutionStatus
  /-- `last_execution_status` of the action the execution belongs to. -/
  lastExecutionStatus : ExecutionStatus
  rows : TaskId → TaskRow
  info : String → Option TaskInfo
  trace : List Event

namespace World

def st (w : World) : TaskId → TaskStatus := fun id => (w.rows id).status

def emit (eff : Effect) (w : World) : World :=
  { w with trace := ⟨eff, w.status, w.st⟩ :: w.trace }

/-- `db_api.set_task_status`. -/
def setTaskStatus (id : TaskId) (status : TaskStatus) (exceptionDetails : Option String)
    (w : World) : World :=
  let row : TaskRow := { w.rows id with status := status, exceptionDetails := exceptionDetails }
  { w.emit (.setTaskStatus id status) with rows := Function.update w.rows id row }

/-- `db_api.set_task_host_properties`; a value that is not given, or empty, is left alone. -/
def setTaskHostProperties (id : TaskId) (host : Option String) (processId : Option Nat)
    (w : World) : World :=
  let old := w.rows id
  let row : TaskRow :=
    { old with
      host := (host.filter (· != "")).or old.host
      processId := (processId.filter (· != 0)).or old.processId }
  { w with rows := Function.update w.rows id row }

/-- `db_api.set_execution_status`, with its `update_action_status=True`. -/
def setExecutionStatus (status : ExecutionStatus) (w : World) : World :=
  { w.emit (.setExecutionStatus status) with status := status, lastExecutionStatus := status }

/-- `db_api.update_transfer_action_info_for_instance`: the updated info of the instance,
next to the new state. -/
def updateTransferActionInfoForInstance (inst : String) (new : TaskInfo) (w : World) :
    TaskInfo × World :=
  if new.isEmpty then ((w.info inst).getD [], w)
  else
    let updated := ((w.info inst).getD []).update new
    (updated, { w with info := Function.update w.info inst (some updated) })

section

variable (w : World) (id i : TaskId) (s : TaskStatus) (x : ExecutionStatus)
  (d h : Option String) (p : Option Nat) (eff : Effect)

@[simp] lemma st_emit : (w.emit eff).st = w.st := rfl
@[simp] lemma rows_emit : (w.emit eff).rows = w.rows := rfl
@[simp] lemma status_emit : (w.emit eff).status = w.status := rfl
@[simp] lemma last_emit : (w.emit eff).lastExecutionStatus = w.lastExecutionStatus := rfl
@[simp] lemma info_emit : (w.emit eff).info = w.info := rfl
@[simp] lemma trace_emit : (w.emit eff).trace = ⟨eff, w.status, w.st⟩ :: w.trace := rfl

@[simp] lemma st_setTaskStatus : (w.setTaskStatus id s d).st = Function.update w.st id s := by
  funext j
  by_cases h : j = id
  · subst h; simp [st, setTaskStatus]
  · simp [st, setTaskStatus, h]
@[simp] lemma status_setTaskStatus : (w.setTaskStatus id s d).status = w.status := rfl
@[simp] lemma last_setTaskStatus :
    (w.setTaskStatus id s d).lastExecutionStatus = w.lastExecutionStatus := rfl
@[simp] lemma info_setTaskStatus : (w.setTaskStatus id s d).info = w.info := rfl
@[simp] lemma trace_setTaskStatus :
    (w.setTaskStatus id s d).trace = ⟨.setTaskStatus id s, w.status, w.st⟩ :: w.trace := rfl

@[simp] lemma st_setTaskHostProperties : (w.setTaskHostProperties id h p).st = w.st := by
  funext j
  by_cases h : j = id
  · subst h; simp [st, setTaskHostProperties]
  · simp [st, setTaskHostProperties, h]
@[simp] lemma status_setTaskHostProperties :
    (w.setTaskHostProperties id h p).status = w.status := rfl
@[simp] lemma last_setTaskHostProperties :
    (w.setTaskHostProperties id h p).lastExecutionStatus = w.lastExecutionStatus := rfl
@[simp] lemma info_setTaskHostProperties :
    (w.setTaskHostProperties id h p).info = w.info := rfl
@[simp] lemma trace_setTaskHostProperties :
    (w.setTaskHostProperties id h p).trace = w.trace := rfl

@[simp] lemma st_setExecutionStatus : (w.setExecutionStatus x).st = w.st := rfl
@[simp] lemma status_setExecutionStatus : (w.setExecutionStatus x).status = x := rfl
@[simp] lemma last_setExecutionStatus : (w.setExecutionStatus x).lastExecutionStatus = x := rfl
@[simp] lemma info_setExecutionStatus : (w.setExecutionStatus x).info = w.info := rfl
@[simp] lemma trace_setExecutionStatus :
    (w.setExecutionStatus x).trace = ⟨.setExecutionStatus x, w.status, w.st⟩ :: w.trace := rfl

end

end World

/-- What the services the conductor calls answer during one handler: whether the
scheduler finds a worker for a task (and `str(ex)` when it does not), whether the
`begin_task` cast goes out, and whether the worker accepts a `cancel_task` call. A handler
starts a task at most once. -/
structure Env where
  findsWorker : TaskId → Bool
  schedulingError : TaskId → String
  beginTaskGoesOut : TaskId → Bool
  cancelTaskAccepted : TaskId → Bool

/-- `conductor.debug_os_morphing_errors`, and the schema check that a finalized
deployment's result has to pass. -/
structure Conf where
  debugOsMorphingErrors : Bool
  isValidExportInfo : Json → Bool

inductive ConductorError where
  | noSuitableWorkerService (id : TaskId)
  | beginTaskRaised (id : TaskId)
  | recursionLimit
  | taskIsCancelling (id : TaskId)
  | invalidTaskState (text : String)
  | invalidActionTasksExecutionState (text : String)
  | invalidTransferState (text : String)
  | invalidDeploymentState (text : String)
  | coriolisException (text : String)
  | keyError (key : String)
  deriving DecidableEq, Repr

/-- What a Python function leaves behind: its result or exception, and the database. -/
abbrev Outcome (α : Type) := Except ConductorError α × World

end Coriolis.Conductor

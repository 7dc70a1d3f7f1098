import Coriolis.Minions.Manager

/-!
# The task flows of minion machines

A flow of the minion manager runs the tasks of several machines side by side: a machine is
powered on, checked, and deleted and created again if the check fails; a new machine is
created; an idle one is powered off or deleted. Every access of a task to the table is a step of
its own. When a task raises, no other task of the flow is begun, and those that have run are
reverted: the row of a machine whose creation had begun is deleted.
-/

namespace Coriolis.Minions

/-- Where the tasks for a machine stand. The stages that begin a task come first in each line. -/
inductive Stage where
  | powerOn | poweringOn
  | healthcheck | checking
  | deallocate | deleting | delete
  | allocate | add | create
  | powerOff | poweringOff
  | done
  deriving DecidableEq, Repr

def Stage.isBetween : Stage → Bool
  | powerOn | healthcheck | deallocate | allocate | powerOff | done => true
  | _ => false

/-- The tasks of a flow for one machine. -/
structure Job where
  machineId : String
  /-- The action the machine is for. -/
  allocateToAction : Option String
  /-- Whether the machine is created again after it was deleted. -/
  recreate : Bool
  stage : Stage
  /-- Whether the task that creates the machine was begun, which its reversion undoes. -/
  begun : Bool := false
  deriving DecidableEq, Repr

def getMinionMachine (machines : List Machine) (id : String) : Option Machine :=
  machines.find? fun m => m.id = id

def updateRow (id : String) (f : Machine → Machine) (machines : List Machine) : List Machine :=
  machines.map fun m => if m.id = id then f m else m

def setMinionMachineAllocationStatus (id : String) (status : MachineStatus) :
    List Machine → List Machine :=
  updateRow id fun m => { m with allocationStatus := status }

def setMinionMachinePowerStatus (id : String) (status : PowerStatus) :
    List Machine → List Machine :=
  updateRow id fun m => { m with powerStatus := status }

/-- What a step of a job meets: whether the worker does what it is asked for, the time, and the
properties of a machine that it creates. -/
structure Surroundings where
  ok : Bool
  now : Nat
  providerProperties : String

def machineErrorStatuses : List MachineStatus := [.error, .powerError, .errorDeploying]

def Job.newRow (job : Job) (poolId : String) : Machine where
  id := job.machineId
  poolId := poolId
  allocationStatus := .allocating
  powerStatus := .uninitialized
  allocatedAction := job.allocateToAction
  lastUsedAt := none
  providerProperties := none

def Job.createdRow (job : Job) (sur : Surroundings) (m : Machine) : Machine :=
  { m with
    lastUsedAt := some sur.now
    allocationStatus := if job.allocateToAction.isSome then .inUse else .available
    powerStatus := .poweredOn
    providerProperties := some sur.providerProperties
    allocatedAction := job.allocateToAction <|> m.allocatedAction }

def Machine.poweredOff (m : Machine) : Machine :=
  { m with powerStatus := .poweredOff, allocationStatus := .available }

def Job.machineStatusOnSuccess (job : Job) : MachineStatus :=
  if job.allocateToAction.isSome then .inUse else .available

def Job.afterDeletion (job : Job) : Stage := if job.recreate then .allocate else .done

/-- One access of a job to the table, which has a row for its machine or none, and the stage
that follows; none if the task raises. -/
def Job.workOn (job : Job) (poolId : String) (sur : Surroundings) (machines : List Machine)
    (row : Option Machine) : List Machine × Option Stage :=
  match job.stage, row with
  | .powerOn, none => (machines, none)
  | .powerOn, some m =>
    match m.powerStatus with
    | .poweredOn => (machines, some .healthcheck)
    | .poweredOff => (setMinionMachinePowerStatus job.machineId .poweringOn machines, some .poweringOn)
    | _ => (machines, none)
  | .poweringOn, none => (machines, none)
  | .poweringOn, some _ =>
    if sur.ok then (setMinionMachinePowerStatus job.machineId .poweredOn machines, some .healthcheck)
    else (setMinionMachineAllocationStatus job.machineId .powerError machines, some .healthcheck)
  | .healthcheck, none => (machines, some .deallocate)
  | .healthcheck, some m =>
    if m.allocationStatus ∈ machineErrorStatuses then (machines, some .deallocate)
    else (machines, some .checking)
  | .checking, none => (machines, none)
  | .checking, some _ =>
    if sur.ok then
      (setMinionMachineAllocationStatus job.machineId job.machineStatusOnSuccess machines, some .done)
    else (setMinionMachineAllocationStatus job.machineId .error machines, some .deallocate)
  | .deallocate, none => (machines, some job.afterDeletion)
  | .deallocate, some m =>
    if m.providerProperties.isSome then
      (setMinionMachineAllocationStatus job.machineId .deallocating machines, some .deleting)
    else (machines, some .delete)
  | .deleting, _ => (machines, if sur.ok then some .delete else none)
  | .delete, none => (machines, none)
  | .delete, some _ => (machines.filter fun m => m.id ≠ job.machineId, some job.afterDeletion)
  | .allocate, none => (machines, some .add)
  | .allocate, some m =>
    if m.allocationStatus ≠ .uninitialized ∨ m.poolId ≠ poolId ∨
        job.allocateToAction.isSome ∧ m.allocatedAction.isSome ∧
          job.allocateToAction ≠ m.allocatedAction then (machines, none)
    else (setMinionMachineAllocationStatus job.machineId .allocating machines, some .create)
  | .add, none => (machines ++ [job.newRow poolId], some .create)
  -- the id is the primary key
  | .add, some _ => (machines, none)
  | .create, none => (machines, none)
  | .create, some _ =>
    if sur.ok then (updateRow job.machineId (job.createdRow sur) machines, some .done)
    else (setMinionMachineAllocationStatus job.machineId .errorDeploying machines, none)
  | .powerOff, none => (machines, none)
  | .powerOff, some m =>
    if m.powerStatus = .poweredOff then (machines, some .done)
    else (setMinionMachinePowerStatus job.machineId .poweringOff machines, some .poweringOff)
  | .poweringOff, none => (machines, none)
  | .poweringOff, some _ =>
    if sur.ok then (updateRow job.machineId Machine.poweredOff machines, some .done)
    else (setMinionMachineAllocationStatus job.machineId .powerError machines, some .done)
  | .done, _ => (machines, some .done)

def Job.work (job : Job) (poolId : String) (sur : Surroundings) (machines : List Machine) :
    List Machine × Option Stage :=
  job.workOn poolId sur machines (getMinionMachine machines job.machineId)

/-- What a step may do to the table: nothing, change columns of a row, delete the row of the
machine, or add it. -/
lemma Job.work_cases (job : Job) (poolId : String) (sur : Surroundings)
    (machines : List Machine) :
    (job.work poolId sur machines).1 = machines ∨
    (∃ f : Machine → Machine, (∀ m, (f m).id = m.id ∧ (f m).poolId = m.poolId) ∧
      (job.work poolId sur machines).1 = updateRow job.machineId f machines) ∨
    (job.work poolId sur machines).1 = machines.filter (fun m => m.id ≠ job.machineId) ∨
    job.stage = .add ∧ getMinionMachine machines job.machineId = none ∧
      (job.work poolId sur machines).1 = machines ++ [job.newRow poolId] := by
  have hstatus : ∀ status : MachineStatus, ∃ f : Machine → Machine,
      (∀ m, (f m).id = m.id ∧ (f m).poolId = m.poolId) ∧
      setMinionMachineAllocationStatus job.machineId status machines =
        updateRow job.machineId f machines := fun status =>
    ⟨fun m => { m with allocationStatus := status }, fun _ => ⟨rfl, rfl⟩, rfl⟩
  have hpower : ∀ status : PowerStatus, ∃ f : Machine → Machine,
      (∀ m, (f m).id = m.id ∧ (f m).poolId = m.poolId) ∧
      setMinionMachinePowerStatus job.machineId status machines =
        updateRow job.machineId f machines := fun status =>
    ⟨fun m => { m with powerStatus := status }, fun _ => ⟨rfl, rfl⟩, rfl⟩
  unfold work
  generalize getMinionMachine machines job.machineId = row
  unfold workOn
  cases row with
  | none => cases job.stage <;> simp
  | some m =>
    cases job.stage with
    | powerOn => cases hm : m.powerStatus <;> simp [hm, hpower]
    | poweringOn => cases sur.ok <;> simp [hpower, hstatus]
    | healthcheck => simp only []; split <;> simp
    | checking => cases sur.ok <;> simp [hstatus]
    | deallocate => simp only []; split <;> simp [hstatus]
    | deleting => simp
    | delete => simp
    | allocate => simp only []; split <;> simp [hstatus]
    | add => simp
    | create =>
      cases sur.ok with
      | true => exact .inr (.inl ⟨job.createdRow sur, fun _ => ⟨rfl, rfl⟩, rfl⟩)
      | false => simp [hstatus]
    | powerOff => simp only []; split <;> simp [hpower]
    | poweringOff =>
      cases sur.ok with
      | true => exact .inr (.inl ⟨Machine.poweredOff, fun _ => ⟨rfl, rfl⟩, rfl⟩)
      | false => simp [hstatus]
    | done => simp

/-- Undoes what a job has done: only the creation of a machine is undone. -/
def Job.revert (job : Job) (machines : List Machine) : List Machine :=
  if job.begun then machines.filter fun m => m.id ≠ job.machineId else machines

/-- Whether a job may still add the row of its machine. Once its flow is reverted it does so only
in the middle of the task. -/
def Job.mayAdd (job : Job) (reverting : Bool) : Bool :=
  match job.stage with
  | .add => true
  | .powerOn | .poweringOn | .healthcheck | .checking | .allocate => !reverting
  | .deallocate | .deleting | .delete => job.recreate && !reverting
  | .create | .powerOff | .poweringOff | .done => false

def Stage.successors (stage : Stage) (recreate : Bool) : List Stage :=
  let afterDeletion := if recreate then .allocate else .done
  match stage with
  | powerOn => [healthcheck, poweringOn]
  | poweringOn => [healthcheck]
  | healthcheck => [deallocate, checking]
  | checking => [done, deallocate]
  | deallocate => [afterDeletion, deleting, delete]
  | deleting => [delete]
  | delete => [afterDeletion]
  | allocate => [add, create]
  | add => [create]
  | create => [done]
  | powerOff => [done, poweringOff]
  | poweringOff => [done]
  | done => [done]

lemma Job.work_mem_successors {job : Job} {stage : Stage}
    (h : (job.work poolId sur machines).2 = some stage) :
    stage ∈ job.stage.successors job.recreate := by
  unfold work at h
  generalize getMinionMachine machines job.machineId = row at h
  unfold workOn at h
  cases hstage : job.stage <;> cases row <;> simp only [hstage] at h <;>
    (try split at h) <;> simp_all [Stage.successors, afterDeletion]

lemma Job.mayAdd_of_work {job : Job} {stage : Stage} {begun reverting : Bool}
    (h : (job.work poolId sur machines).2 = some stage)
    (hbetween : reverting → job.stage.isBetween = false)
    (hadd : Job.mayAdd { job with stage, begun } reverting) : job.mayAdd reverting := by
  have hmem := work_mem_successors h
  revert hmem hadd hbetween
  obtain ⟨id, action, recreate, stage₀, begun₀⟩ := job
  cases stage₀ <;> cases stage <;> cases recreate <;> cases reverting <;>
    simp [Stage.successors, mayAdd, Stage.isBetween]

inductive RetentionStrategy where
  | delete | poweroff
  deriving DecidableEq, Repr

/-- The settings of a pool that a refresh goes by. -/
structure RetentionSettings where
  minimumMinions : Int
  minionMaxIdleTime : Nat
  minionRetentionStrategy : RetentionStrategy
  deriving DecidableEq, Repr

def ignorableMachineStatuses : List MachineStatus :=
  [.deallocating, .poweringOff, .error, .powerError, .errorDeploying]

def healthcheckableMachineStatuses : List MachineStatus :=
  [.available, .error, .powerError, .errorDeploying]

def Machine.isExpired (m : Machine) (settings : RetentionSettings) (now : Nat) : Bool :=
  match m.lastUsedAt with
  | none => true
  | some time => time + settings.minionMaxIdleTime ≤ now

/-- What a refresh does about one machine: how many may still be given up, the row and the job
for it. -/
def refreshMachine (settings : RetentionSettings) (now : Nat) (budget : Int) (m : Machine) :
    Int × Machine × Option Job :=
  if m.allocationStatus ∉ healthcheckableMachineStatuses then (budget, m, none)
  else if budget > 0 ∧ m.isExpired settings now then
    match settings.minionRetentionStrategy with
    | .poweroff =>
      if m.powerStatus = .poweredOff ∨ m.powerStatus = .poweringOff then (budget - 1, m, none)
      else (budget - 1, { m with allocationStatus := .poweringOff },
        some ⟨m.id, none, false, .powerOff, false⟩)
    | .delete => (budget - 1, { m with allocationStatus := .deallocating },
        some ⟨m.id, none, false, .deallocate, false⟩)
  else if m.powerStatus = .poweredOn then
    (budget, { m with allocationStatus := .healthchecking },
      some ⟨m.id, none, true, .healthcheck, false⟩)
  else (budget, m, none)

def refreshMachines (settings : RetentionSettings) (now : Nat) :
    Int → List Machine → List Machine × List Job
  | _, [] => ([], [])
  | budget, m :: machines =>
    let (budget, m, job) := refreshMachine settings now budget m
    let (machines, jobs) := refreshMachines settings now budget machines
    (m :: machines, job.toList ++ jobs)

def getMinionPoolRefreshFlow (settings : RetentionSettings) (now : Nat)
    (machines : List Machine) : List Machine × List Job :=
  refreshMachines settings now
    ((machines.filter fun m => m.allocationStatus ∉ ignorableMachineStatuses).length -
      settings.minimumMinions) machines

def Slot.job (slot : Slot) (action : String) : Job :=
  match slot.task with
  | .healthcheck true => ⟨slot.machineId, some action, true, .powerOn, false⟩
  | .healthcheck false => ⟨slot.machineId, some action, true, .healthcheck, false⟩
  | .allocate => ⟨slot.machineId, some action, false, .allocate, false⟩

end Coriolis.Minions

import Coriolis.Library.Grouping
import Coriolis.Library.Raising
import Mathlib.Algebra.GroupWithZero.Nat

/-!
# Allocating minion machines to an action

The minion manager gives an action one machine of each selected pool for each instance. It
marks machines that are available as reserved and adds rows for machines that are still to be
created, pool by pool, and then starts a task flow that makes them ready. If anything raises on
the way, the rows of the action are given back and the error is reported.
-/

/-- What an instance uses a minion for. -/
inductive Coriolis.Conductor.MinionRole where
  | origin | destination | osmorphing
  deriving DecidableEq, Repr

namespace Coriolis.Minions

open Conductor (MinionRole)
open Raising

inductive MachineStatus where
  | uninitialized | healthchecking | allocating | deallocating | error | poweringOff
  | powerError | errorDeploying | available | inUse | reserved
  deriving DecidableEq, Repr

inductive PowerStatus where
  | unknown | uninitialized | poweredOn | poweredOff | poweringOn | poweringOff
  deriving DecidableEq, Repr

inductive PoolStatus where
  | unknown | error | deallocated | validatingInputs | allocatingSharedResources
  | allocatingMachines | deallocatingMachines | deallocatingSharedResources | allocated
  | poolMaintenance
  deriving DecidableEq, Repr

inductive Platform where
  | source | destination
  deriving DecidableEq, Repr

inductive OsType where
  | bsd | linux | osX | solaris | windows | other | unknown
  deriving DecidableEq, Repr

/-- A row of the machines. The provider properties name the machine in the cloud. -/
structure Machine where
  id : String
  poolId : String
  allocationStatus : MachineStatus
  powerStatus : PowerStatus
  allocatedAction : Option String
  lastUsedAt : Option Nat
  providerProperties : Option String
  deriving DecidableEq, Repr

def Machine.setAllocation (m : Machine) (action : Option String) (status : MachineStatus)
    (time : Option Nat) : Machine :=
  { m with
    allocatedAction := action
    lastUsedAt := time <|> m.lastUsedAt
    allocationStatus := status }

structure Pool where
  id : String
  endpointId : String
  platform : Platform
  osType : OsType
  status : PoolStatus
  maximumMinions : Int
  deriving DecidableEq, Repr

/-- The machines of the pool, in the order in which the database lists them. -/
def Pool.minionMachines (pool : Pool) (machines : List Machine) : List Machine :=
  machines.filter fun m => m.poolId = pool.id

/-- A dictionary from the instances of an action to pools. -/
structure Mappings where
  items : List (String × String)
  nodup : (items.map Prod.fst).Nodup

/-- What the conductor passes about an action. -/
structure Action where
  id : String
  id_ne : id ≠ ""
  instances : List String
  originEndpointId : String
  destinationEndpointId : String
  originMinionPoolId : Option String
  destinationMinionPoolId : Option String
  instanceOsmorphingMinionPoolMappings : Option Mappings

def selected? (pool : Option String) : Option String := pool.filter fun id => id ≠ ""

/-- The calls to the database, to the conductor and to the task flow runner that may fail while
machines are allocated. -/
inductive CallSite where
  | getMinionPool (role : MinionRole) (pool : String)
  | getEndpoint (role : MinionRole) (endpoint : String)
  | reserve (role : MinionRole) (pool : String)
  | reserveEvent (role : MinionRole) (pool : String)
  | addMinionMachine (machine : String)
  | addEvent (role : MinionRole) (pool : String)
  | runFlowInBackground
  | reportAllocationError
  deriving DecidableEq, Repr

inductive MinionError where
  | poolNotFound (pool : String)
  | wrongEndpoint (role : MinionRole) (pool endpoint expected : String)
  | wrongPlatform (role : MinionRole) (pool : String) (platform : Platform)
  | wrongOsType (role : MinionRole) (pool : String) (osType : OsType)
  | poolNotAllocated (role : MinionRole) (pool : String) (status : PoolStatus) (action : String)
  | maximumTooLow (role : MinionRole) (pool : String) (maximum : Int) (desired : Nat)
      (action : String)
  | noRoom (pool : String) (requested : Nat) (action : String) (available : Nat) (slots : Int)
  | passedTwice (forInstance pool action : String) (instances : List String)
  | machinesNotFound (ids : List String)
  | keyError (key : String)
  -- the mapping is null and has no items
  | attributeError
  | raised (site : CallSite)
  deriving DecidableEq, Repr

/-- The table of the machines while a call allocates some of them. `selected` collects the
existing machines the call has picked; no code reads it. -/
structure Stored where
  machines : List Machine
  newMachineDbEntriesAdded : List String := []
  selected : List String := []

abbrev Handler := EStateM MinionError Stored

def setAllocations (ids : List String) (action : Option String) (status : MachineStatus)
    (time : Option Nat) (machines : List Machine) : List Machine :=
  machines.map fun m => if m.id ∈ ids then m.setAllocation action status time else m

def setMinionMachinesAllocationStatuses (ids : List String) (action : Option String)
    (status : MachineStatus) (time : Option Nat) : Handler Unit := do
  let s : Stored ← get
  let missing := ids.filter fun id => id ∉ s.machines.map Machine.id
  if missing ≠ [] then throw (.machinesNotFound missing)
  else set { s with machines := setAllocations ids action status time s.machines }

def addMinionMachine (m : Machine) : Handler Unit :=
  modify fun s => { s with
    machines := s.machines ++ [m]
    newMachineDbEntriesAdded := s.newMachineDbEntriesAdded ++ [m.id] }

def deleteMinionMachine (id : String) : Handler Unit := do
  let s : Stored ← get
  if id ∉ s.machines.map Machine.id then throw (.machinesNotFound [id])
  else set { s with machines := s.machines.filter fun m : Machine => m.id ≠ id }

def getMinionMachines (action : String) (machines : List Machine) : List Machine :=
  if action = "" then machines else machines.filter fun m => m.allocatedAction = some action

/-- The first part of the flow for a machine: an existing one is checked, and powered on before
if it is off; a new one is created. -/
inductive SlotTask where
  | healthcheck (powerOn : Bool)
  | allocate
  deriving DecidableEq, Repr

/-- A machine that is allocated for an instance. -/
structure Slot where
  forInstance : String
  machineId : String
  task : SlotTask
  deriving DecidableEq, Repr

def selectMachine (machines : List Machine) (exclude : List String) : Option Machine :=
  machines.find? fun m => m.id ∉ exclude ∧ m.allocationStatus = .available

/-- One machine for each instance; `newId` gives the ids of the machines to create. -/
def chooseMachines (machines : List Machine) (newId : Nat → String)
    (twice : String → MinionError) : List String → List Slot → Except MinionError (List Slot)
  | [], slots => .ok slots
  | i :: rest, slots =>
    if i ∈ slots.map Slot.forInstance then .error (twice i)
    else match selectMachine machines (slots.map Slot.machineId) with
      | some m => chooseMachines machines newId twice rest
          (slots ++ [⟨i, m.id, .healthcheck (m.powerStatus = .poweredOff)⟩])
      | none => chooseMachines machines newId twice rest
          (slots ++ [⟨i, newId slots.length, .allocate⟩])

def existingMachines (slots : List Slot) : List String :=
  (slots.filter fun slot => slot.task ≠ .allocate).map Slot.machineId

def newMachines (slots : List Slot) : List String :=
  (slots.filter fun slot => slot.task = .allocate).map Slot.machineId

/-- The row of a machine that is still to be created for an action. -/
def newMinionMachine (pool action id : String) : Machine where
  id := id
  poolId := pool
  allocationStatus := .uninitialized
  powerStatus := .uninitialized
  allocatedAction := some action
  lastUsedAt := none
  providerProperties := none

section

/-- What a call to allocate machines works with: the pools, which of its calls fail, the ids of
new machines, none of which is in the table yet, and the time. -/
structure Services where
  pools : List Pool
  fails : CallSite → Bool
  newId : List Machine → Nat → String
  newId_injective : ∀ machines, Function.Injective (newId machines)
  newId_fresh : ∀ machines k, newId machines k ∉ machines.map Machine.id
  now : Nat

def longerId (machines : List Machine) (k : Nat) : String :=
  String.ofList (List.replicate ((machines.map fun m => m.id.length).sum + 1 + k) 'm')

lemma longerId_length (machines : List Machine) (k : Nat) :
    (longerId machines k).length = (machines.map fun m => m.id.length).sum + 1 + k := by
  simp [longerId]

lemma longerId_fresh (machines : List Machine) (k : Nat) :
    longerId machines k ∉ machines.map Machine.id := by
  intro h
  obtain ⟨m, hm, heq⟩ := List.mem_map.mp h
  have hle : m.id.length ≤ (machines.map fun m => m.id.length).sum := by
    obtain ⟨front, back, rfl⟩ := List.append_of_mem hm
    simp only [List.map_append, List.map_cons, List.sum_append, List.sum_cons]
    omega
  have hlength := longerId_length machines k
  rw [← heq] at hlength
  omega

/-- Services that do not fail, with ids that get longer and longer. -/
def Services.of (pools : List Pool) : Services where
  pools := pools
  fails := fun _ => false
  newId := longerId
  newId_injective := by
    intro machines j k h
    have hlength := congrArg String.length h
    rw [longerId_length, longerId_length] at hlength
    omega
  newId_fresh := longerId_fresh
  now := 0

variable (services : Services)

def Services.call (site : CallSite) : Handler Unit :=
  if services.fails site then throw (.raised site) else pure ()

/-- Marks the existing machines of the slots as reserved, all in one transaction. -/
def reserveMinionMachines (role : MinionRole) (pool action : String) (slots : List Slot) :
    Handler Unit :=
  if existingMachines slots ≠ [] then do
    services.call (.reserve role pool)
    setMinionMachinesAllocationStatuses (existingMachines slots) (some action) .reserved
      (some services.now)
    services.call (.reserveEvent role pool)
  else pure ()

def addMinionMachines (role : MinionRole) (pool action : String) (slots : List Slot) :
    Handler Unit :=
  if newMachines slots ≠ [] then do
    each (fun id => do
      services.call (.addMinionMachine id)
      addMinionMachine (newMinionMachine pool action id)) (newMachines slots)
    services.call (.addEvent role pool)
  else pure ()

/-- Stores which machines the slots take; what was stored is undone if something raises. -/
def storeAllocations (role : MinionRole) (pool action : String) (slots : List Slot) :
    Handler Unit :=
  tryCatch
    (do
      reserveMinionMachines services role pool action slots
      addMinionMachines services role pool action slots)
    fun err => do
      attempt (setMinionMachinesAllocationStatuses (existingMachines slots) none .available none)
      let s : Stored ← get
      each (fun id => attempt (deleteMinionMachine id)) s.newMachineDbEntriesAdded
      throw err

def makeMinionMachineAllocationSubflowForAction (role : MinionRole) (pool : Pool)
    (action : String) (instances : List String) : Handler (List Slot) := do
  let s : Stored ← get
  let machines := pool.minionMachines s.machines
  let available := (machines.filter fun m => m.allocationStatus = .available).length
  let extraSlots : Int := pool.maximumMinions - machines.length
  if (instances.length : Int) > available + extraSlots then
    throw (.noRoom pool.id instances.length action available extraSlots)
  else
    match chooseMachines machines (services.newId s.machines)
        (fun i => .passedTwice i pool.id action instances) instances [] with
    | .error err => throw err
    | .ok slots => do
      set { s with
        newMachineDbEntriesAdded := []
        selected := s.selected ++ existingMachines slots }
      storeAllocations services role pool.id action slots
      return slots

def allocateFromPool (role : MinionRole) (poolId action : String) (instances : List String) :
    Handler (List Slot) := do
  services.call (.getMinionPool role poolId)
  match services.pools.find? fun pool => pool.id = poolId with
  | none => throw (.poolNotFound poolId)
  | some pool =>
    if pool.status ≠ .allocated then
      throw (.poolNotAllocated role pool.id pool.status action)
    else do
      services.call (.getEndpoint role pool.endpointId)
      makeMinionMachineAllocationSubflowForAction services role pool action instances

/-- The minions of an instance. -/
structure Allocation where
  originMinionId : Option String := none
  destinationMinionId : Option String := none
  osmorphingMinionId : Option String := none
  deriving DecidableEq, Repr

def Allocation.set (allocation : Allocation) (id : String) : MinionRole → Allocation
  | .origin => { allocation with originMinionId := some id }
  | .destination => { allocation with destinationMinionId := some id }
  | .osmorphing => { allocation with osmorphingMinionId := some id }

abbrev Allocations := String → Option Allocation

def Allocations.empty (instances : List String) : Allocations := fun i =>
  if i ∈ instances then some {} else none

def Allocations.put (allocations : Allocations) (role : MinionRole) (i id : String) :
    Except MinionError Allocations :=
  match allocations i with
  | none => .error (.keyError i)
  | some allocation => .ok (Function.update allocations i (some (allocation.set id role)))

def Allocations.register (role : MinionRole) :
    List Slot → Allocations → Except MinionError Allocations
  | [], allocations => .ok allocations
  | slot :: slots, allocations =>
    (allocations.put role slot.forInstance slot.machineId).bind (register role slots)

/-- The destination minions of the instances serve as their OSMorphing minions too. -/
def Allocations.reuse : List String → Allocations → Except MinionError Allocations
  | [], allocations => .ok allocations
  | i :: rest, allocations =>
    match allocations i with
    | none => .error (.keyError i)
    | some allocation => match allocation.destinationMinionId with
      | none => .error (.keyError "destination_minion_id")
      | some id => (allocations.put .osmorphing i id).bind (reuse rest)

/-- What a call has built so far: the slots of its flow and the minions of the instances. -/
structure Flow where
  slots : List Slot
  allocations : Allocations

def liftExcept {α : Type} : Except MinionError α → Handler α
  | .ok a => pure a
  | .error err => throw err

def Flow.allocate (flow : Flow) (role : MinionRole) (poolId action : String)
    (instances : List String) : Handler Flow := do
  let slots ← allocateFromPool services role poolId action instances
  let allocations ← liftExcept (Allocations.register role slots flow.allocations)
  return ⟨flow.slots ++ slots, allocations⟩

/-- The pool for a role of all instances, if there is one and transfer minions are wanted. -/
def Flow.allocateTransferMinions (flow : Flow) (included : Bool) (role : MinionRole)
    (pool : Option String) (action : Action) : Handler Flow :=
  match selected? pool with
  | some poolId =>
    if included then flow.allocate services role poolId action.id action.instances else pure flow
  | none => pure flow

/-- The OSMorphing minions of the instances that are mapped to a pool. If it is the destination
pool as well, the destination minions are used again. -/
def Flow.allocateOsmorphingGroup (flow : Flow) (action : Action) (includeTransferMinions : Bool)
    (poolId : String) (instances : List String) : Handler Flow :=
  if selected? action.destinationMinionPoolId = some poolId ∧ includeTransferMinions then do
    let allocations ← liftExcept (flow.allocations.reuse instances)
    return { flow with allocations }
  else flow.allocate services .osmorphing poolId action.id instances

def Flow.allocateOsmorphingGroups (action : Action) (includeTransferMinions : Bool) :
    List (String × List (String × String)) → Flow → Handler Flow
  | [], flow => pure flow
  | (poolId, mapped) :: groups, flow => do
    let flow ← flow.allocateOsmorphingGroup services action includeTransferMinions poolId
      (mapped.map Prod.fst)
    allocateOsmorphingGroups action includeTransferMinions groups flow

def Flow.allocateOsmorphingMinions (flow : Flow) (action : Action) (mappings : Mappings)
    (includeTransferMinions includeOsmorphingMinions : Bool) : Handler Flow :=
  if includeOsmorphingMinions then
    Flow.allocateOsmorphingGroups services action includeTransferMinions
      (Grouping.group Prod.snd mappings.items) flow
  else pure flow

def runMachineAllocationSubflowForAction (action : Action)
    (includeTransferMinions includeOsmorphingMinions : Bool) : Handler Flow := do
  let flow : Flow := ⟨[], .empty action.instances⟩
  let flow ← flow.allocateTransferMinions services includeTransferMinions .origin
    action.originMinionPoolId action
  let flow ← flow.allocateTransferMinions services includeTransferMinions .destination
    action.destinationMinionPoolId action
  match action.instanceOsmorphingMinionPoolMappings with
  | none => throw .attributeError
  | some mappings => do
    let flow ← flow.allocateOsmorphingMinions services action mappings includeTransferMinions
      includeOsmorphingMinions
    services.call .runFlowInBackground
    return flow

end

section

def cleanupMachinesWithStatusesForAction (action : String) (targeted : List MachineStatus) :
    Handler Unit := do
  let s : Stored ← get
  let machines := (getMinionMachines action s.machines).filter fun m =>
    m.allocationStatus ∈ targeted
  each (fun pool => each (fun m : Machine => deleteMinionMachine m.id) pool.2)
    (Grouping.group Machine.poolId machines)

/-- Gives machines of one pool back. A machine that was never created has its row deleted. -/
def deallocateMinionMachines (machines : List Machine) : Handler Unit := do
  each (fun m : Machine => deleteMinionMachine m.id)
    (machines.filter fun m => m.allocationStatus = .uninitialized)
  setMinionMachinesAllocationStatuses
    ((machines.filter fun m => m.allocationStatus ≠ .uninitialized).map Machine.id)
    none .available none

def deallocateMinionMachinesForAction (action : String) : Handler Unit := do
  let s : Stored ← get
  each (fun pool => deallocateMinionMachines pool.2)
    (Grouping.group Machine.poolId (getMinionMachines action s.machines))

variable (services : Services)

/-- Allocates the machines of an action; if that raises, all of them are given back and the
conductor is told. -/
def allocateMinionMachines (action : Action)
    (includeTransferMinions includeOsmorphingMinions : Bool) : Handler Flow :=
  tryCatch
    (runMachineAllocationSubflowForAction services action includeTransferMinions
      includeOsmorphingMinions)
    fun err => do
      cleanupMachinesWithStatusesForAction action.id [.uninitialized]
      deallocateMinionMachinesForAction action.id
      services.call .reportAllocationError
      throw err

def allocateMinionMachinesForTransfer (transfer : Action) : Handler Flow :=
  allocateMinionMachines services transfer true false

def allocateMinionMachinesForDeployment (deployment : Action)
    (includeTransferMinions includeOsmorphingMinions : Bool) : Handler Flow :=
  allocateMinionMachines services deployment includeTransferMinions includeOsmorphingMinions

end

end Coriolis.Minions

import Coriolis.Conductor.World
import Coriolis.Scheduler.Server

/-!
# A worker service for a task

The class of a task says which provider types it requires of the two platforms. The client of the
scheduler turns that into requirements by platform type, one dictionary for both endpoints, and
asks for a worker until there is one.
-/

namespace Coriolis.Scheduler

open Conductor (TaskType)

/-- The task types of the minion manager. -/
inductive PoolTaskType where
  | validateSourceMinionPoolOptions | validateDestinationMinionPoolOptions
  | createSourceMinionMachine | createDestinationMinionMachine
  | deleteSourceMinionMachine | deleteDestinationMinionMachine
  | setUpSourcePoolSharedResources | setUpDestinationPoolSharedResources
  | tearDownSourcePoolSharedResources | tearDownDestinationPoolSharedResources
  | healthcheckSourceMinion | healthcheckDestinationMinion
  | powerOnSourceMinion | powerOffSourceMinion
  | powerOnDestinationMinion | powerOffDestinationMinion
  deriving DecidableEq

/-- The keys of `_TASKS_MAP`. -/
inductive ScheduledType where
  | execution (type : TaskType)
  | pool (type : PoolTaskType)
  deriving DecidableEq

inductive TaskPlatform where
  | source | destination | bilateral
  deriving DecidableEq

/-- The dictionary `get_required_provider_types` returns. -/
structure RequiredProviderTypes where
  source : Option (List ProviderType)
  destination : Option (List ProviderType)

namespace RequiredProviderTypes

def ofSource (type : ProviderType) : RequiredProviderTypes := ⟨some [type], none⟩

def ofDestination (type : ProviderType) : RequiredProviderTypes := ⟨none, some [type]⟩

/-- `_get_required_minion_pool_provider_types_for_platform`, for the two platforms it takes. -/
def ofMinionPool (isSource : Bool) : RequiredProviderTypes :=
  if isSource then ofSource .sourceMinionPool else ofDestination .destinationMinionPool

end RequiredProviderTypes

/-- `get_required_platform` of the class of a task. -/
def getRequiredPlatform : ScheduledType → TaskPlatform
  | .execution type => match type with
    | .getInstanceInfo | .shutdownInstance | .validateTransferSourceInputs
    | .deployTransferSourceResources | .deleteTransferSourceResources
    | .deleteTransferSourceDiskSnapshots | .updateSourceTransfer
    | .attachVolumesToSourceMinion | .detachVolumesFromSourceMinion
    | .validateSourceMinionPoolCompatibility | .releaseSourceMinion => .source
    | .replicateDisks => .bilateral
    | .deployTransferDisks | .deleteTransferDisks
    | .deployTransferTargetResources | .deleteTransferTargetResources
    | .deployInstanceResources | .finalizeInstanceDeployment | .cleanupFailedInstanceDeployment
    | .createTransferDiskSnapshots | .deleteTransferTargetDiskSnapshots
    | .restoreTransferDiskSnapshots
    | .validateTransferDestinationInputs | .validateDeploymentInputs
    | .updateDestinationTransfer | .getOptimalFlavor
    | .deployOsMorphingResources | .osMorphing | .deleteOsMorphingResources
    | .attachVolumesToDestinationMinion | .detachVolumesFromDestinationMinion
    | .attachVolumesToOsmorphingMinion | .detachVolumesFromOsmorphingMinion
    | .validateDestinationMinionPoolCompatibility | .validateOsmorphingMinionPoolCompatibility
    | .releaseDestinationMinion | .releaseOsmorphingMinion
    | .collectOsmorphingInfo => .destination
  | .pool type => match type with
    | .validateSourceMinionPoolOptions | .createSourceMinionMachine | .deleteSourceMinionMachine
    | .setUpSourcePoolSharedResources | .tearDownSourcePoolSharedResources
    | .healthcheckSourceMinion | .powerOnSourceMinion | .powerOffSourceMinion => .source
    | .validateDestinationMinionPoolOptions | .createDestinationMinionMachine
    | .deleteDestinationMinionMachine
    | .setUpDestinationPoolSharedResources | .tearDownDestinationPoolSharedResources
    | .healthcheckDestinationMinion | .powerOnDestinationMinion
    | .powerOffDestinationMinion => .destination

/-- `get_required_provider_types` of the class of a task. -/
def getRequiredProviderTypes : ScheduledType → RequiredProviderTypes
  | .execution type => match type with
    | .getInstanceInfo | .shutdownInstance | .replicateDisks
    | .deployTransferSourceResources | .deleteTransferSourceResources
    | .deleteTransferSourceDiskSnapshots => .ofSource .transferExport
    | .validateTransferSourceInputs => .ofSource .validateTransferExport
    | .updateSourceTransfer => .ofSource .sourceTransferUpdate
    | .deployTransferDisks | .deleteTransferDisks
    | .deployTransferTargetResources | .deleteTransferTargetResources
    | .deployInstanceResources | .finalizeInstanceDeployment | .cleanupFailedInstanceDeployment
    | .createTransferDiskSnapshots | .deleteTransferTargetDiskSnapshots
    | .restoreTransferDiskSnapshots => .ofDestination .transferImport
    | .validateTransferDestinationInputs
    | .validateDeploymentInputs => .ofDestination .validateTransferImport
    | .updateDestinationTransfer => .ofDestination .destinationTransferUpdate
    | .getOptimalFlavor => .ofDestination .instanceFlavor
    | .deployOsMorphingResources | .deleteOsMorphingResources => .ofDestination .osMorphing
    | .osMorphing => ⟨some [.transferExport], some [.transferImport]⟩
    | .attachVolumesToSourceMinion | .detachVolumesFromSourceMinion
    | .validateSourceMinionPoolCompatibility | .releaseSourceMinion
    | .attachVolumesToDestinationMinion | .detachVolumesFromDestinationMinion
    | .attachVolumesToOsmorphingMinion | .detachVolumesFromOsmorphingMinion
    | .validateDestinationMinionPoolCompatibility | .validateOsmorphingMinionPoolCompatibility
    | .releaseDestinationMinion | .releaseOsmorphingMinion
    | .collectOsmorphingInfo =>
      .ofMinionPool (getRequiredPlatform (.execution type) = .source)
  | .pool type => .ofMinionPool (getRequiredPlatform (.pool type) = .source)

structure Endpoint where
  id : String
  type : String
  mappedRegions : List Region

structure ScheduledTask where
  id : String
  taskType : ScheduledType

inductive ClientError where
  /-- The call to the scheduler failed. -/
  | rpc
  | scheduler (e : SchedulerError)
  | noSuitableWorkerService
  | failedToSchedule (taskId : String) (retryCount : Nat)

/-- `get_worker_service_for_specs`, with the tables the scheduler reads if it can be called. The
choice is the index of the service, modulo their number, where it is random. -/
def getWorkerServiceForSpecs (db : Option Database) (requirements : ProviderRequirements)
    (regionSets : List (List String)) (enabled : Option Bool) (choice : Option Nat) :
    Except ClientError Service :=
  match db with
  | none => .error .rpc
  | some db =>
    match getWorkersForSpecs db requirements regionSets enabled true with
    | .error e => .error (.scheduler e)
    | .ok services =>
      match services[choice.getD 0 % services.length]? with
      | none => .error .noSuitableWorkerService
      | some service => .ok service

def requiredRegionSets (taskType : ScheduledType) (origin destination : Endpoint) :
    List (List String) :=
  let requiredPlatform := getRequiredPlatform taskType
  let ofOrigin := if requiredPlatform ∈ [.source, .bilateral]
    then [origin.mappedRegions.map (·.id)] else []
  let ofDestination := if requiredPlatform ∈ [.destination, .bilateral]
    then [destination.mappedRegions.map (·.id)] else []
  ofOrigin ++ ofDestination

/-- The provider requirements of a task, where the second entry of a type replaces the first. -/
def providerRequirements (taskType : ScheduledType) (origin destination : Endpoint) :
    ProviderRequirements :=
  let requiredProviderTypes := getRequiredProviderTypes taskType
  let requirements := match requiredProviderTypes.source with
    | some types => AList.insert origin.type types ∅
    | none => ∅
  match requiredProviderTypes.destination with
  | some types => requirements.insert destination.type types
  | none => requirements

/-- `get_worker_service_for_task`, with the tables at each attempt and the random choices. -/
def getWorkerServiceForTask (attempts : Nat → Option Database) (choices : Nat → Nat)
    (task : ScheduledTask) (origin destination : Endpoint) (retryCount : Nat)
    (randomChoice : Bool) : Except ClientError Service :=
  let regionSets := requiredRegionSets task.taskType origin destination
  let requirements := providerRequirements task.taskType origin destination
  let granted := (List.range retryCount).findSome? fun i =>
    (getWorkerServiceForSpecs (attempts i) requirements regionSets (some true)
      (if randomChoice then some (choices i) else none)).toOption
  match granted with
  | some service => .ok service
  | none => .error (.failedToSchedule task.id retryCount)

section

variable {service : Service} {taskType : ScheduledType} {origin destination : Endpoint}

lemma Service.meets_iff_lookup : service.Meets requirements ↔
    ∀ platformType types, requirements.lookup platformType = some types →
      service.Offers platformType types := by
  constructor
  · intro h platformType types hlookup
    exact h _ (AList.mem_lookup_iff.mp hlookup)
  · rintro h ⟨platformType, types⟩ hmem
    exact h platformType types (AList.mem_lookup_iff.mpr hmem)

/-- What the class of a task requires of the two platforms, a service offers for the types of the
two endpoints. -/
structure Service.OffersRequired (service : Service) (taskType : ScheduledType)
    (origin destination : Endpoint) : Prop where
  source : ∀ types, (getRequiredProviderTypes taskType).source = some types →
    service.Offers origin.type types
  destination : ∀ types, (getRequiredProviderTypes taskType).destination = some types →
    service.Offers destination.type types

lemma requires_one_side (h : taskType ≠ .execution .osMorphing) :
    (getRequiredProviderTypes taskType).source = none ∨
      (getRequiredProviderTypes taskType).destination = none := by
  rcases taskType with type | type <;> cases type <;> first
    | exact absurd rfl h
    | exact .inl rfl
    | exact .inr rfl

/-- The requirements of both platforms are kept, unless the task is OS morphing between endpoints
of one type. -/
lemma offersRequired_of_meets
    (h : ¬ (taskType = .execution .osMorphing ∧ origin.type = destination.type))
    (hmeets : service.Meets (providerRequirements taskType origin destination)) :
    service.OffersRequired taskType origin destination := by
  rw [Service.meets_iff_lookup] at hmeets
  unfold providerRequirements at hmeets
  constructor
  · intro types hsource
    refine hmeets _ _ ?_
    simp only [hsource]
    rcases hdest : (getRequiredProviderTypes taskType).destination with - | types'
    · exact AList.lookup_insert _
    · have hne : origin.type ≠ destination.type := by
        intro htype
        refine h ⟨?_, htype⟩
        by_contra hother
        rcases requires_one_side hother with hnone | hnone
        · simp [hnone] at hsource
        · simp [hnone] at hdest
      exact (AList.lookup_insert_ne hne).trans (AList.lookup_insert _)
  · intro types hdest
    refine hmeets _ _ ?_
    simp only [hdest, AList.lookup_insert]

lemma getWorkerServiceForSpecs_ok
    (h : getWorkerServiceForSpecs db requirements regionSets enabled choice = .ok service) :
    ∃ db' services, getWorkersForSpecs db' requirements regionSets enabled true = .ok services ∧
      service ∈ services := by
  rcases db with - | db
  · cases h
  rw [getWorkerServiceForSpecs] at h
  rcases hservices : getWorkersForSpecs db requirements regionSets enabled true with e | services
  · simp [hservices] at h
  rcases hchosen : services[choice.getD 0 % services.length]? with - | chosen
  · simp [hservices, hchosen] at h
  · simp only [hservices, hchosen, Except.ok.injEq] at h
    exact ⟨db, services, hservices, h ▸ List.mem_of_getElem? hchosen⟩

lemma getWorkerServiceForSpecs_of_unique {p : Service → Prop}
    (h : ReturnsExactly (getWorkersForSpecs db requirements regionSets enabled true) p)
    (hp : p service) (hunique : ∀ service', p service' → service' = service) :
    getWorkerServiceForSpecs (some db) requirements regionSets enabled choice = .ok service := by
  rw [getWorkerServiceForSpecs]
  revert h
  rcases getWorkersForSpecs db requirements regionSets enabled true with e | services
  · exact fun h => absurd hp (h service)
  · intro h
    have hmem := (h service).mpr hp
    have hlt : choice.getD 0 % services.length < services.length :=
      Nat.mod_lt _ (List.length_pos_of_mem hmem)
    have hchosen := hunique _ ((h _).mp (List.getElem_mem hlt))
    simp only [List.getElem?_eq_getElem hlt, hchosen]

/-- A worker that is granted was selected at one of the attempts. -/
lemma getWorkerServiceForTask_ok
    (h : getWorkerServiceForTask attempts choices task origin destination retryCount
      randomChoice = .ok service) :
    ∃ i choice, getWorkerServiceForSpecs (attempts i)
      (providerRequirements task.taskType origin destination)
      (requiredRegionSets task.taskType origin destination) (some true) choice = .ok service := by
  rw [getWorkerServiceForTask] at h
  split at h
  · rename_i granted hgranted
    cases h
    obtain ⟨i, -, hi⟩ := List.exists_of_findSome?_eq_some hgranted
    refine ⟨i, if randomChoice then some (choices i) else none, ?_⟩
    revert hi
    cases getWorkerServiceForSpecs _ _ _ _ _ with
    | error e => exact fun hi => nomatch hi
    | ok granted => exact fun hi => congrArg _ (Option.some.inj hi)
  · cases h

end

section

/-! OS morphing between endpoints of one type: the export provider is not asked for. -/

variable (destination : Endpoint)

/-- A worker of the regions of the destination that can only import. -/
def importer : Service where
  id := "importer"
  topic := some workerMainMessagingTopic
  enabled := true
  mappedRegions := destination.mappedRegions
  providers := fun platformType =>
    if platformType = destination.type then some ⟨some [.transferImport]⟩ else none

/-- The importer alone, with the regions of the destination, all of them enabled. -/
def importerOnly : Database where
  regions := destination.mappedRegions.map fun region => ⟨region.id, true⟩
  services := [importer destination]

variable {destination}

lemma importerOnly_enabledOf :
    (importerOnly destination).enabledOf (destination.mappedRegions.map (·.id)) =
      destination.mappedRegions.map (·.id) := by
  rw [Database.enabledOf, List.filter_eq_self]
  simp [importerOnly]

/-- If the types are the same, the importer is granted for OS morphing. -/
lemma importer_granted (htype : origin.type = destination.type) (id : String) :
    getWorkerServiceForTask (fun _ => some (importerOnly destination)) (fun _ => 0)
      ⟨id, .execution .osMorphing⟩ origin destination 1 false = .ok (importer destination) := by
  set sets := requiredRegionSets (.execution .osMorphing) origin destination with hsets
  have hregions : sets = [destination.mappedRegions.map (·.id)] := rfl
  set requirements := providerRequirements (.execution .osMorphing) origin destination
    with hrequirements
  have hlookup : ∀ platformType types, requirements.lookup platformType = some types →
      (importer destination).Offers platformType types := by
    intro platformType types hlookup
    simp only [hrequirements, providerRequirements, getRequiredProviderTypes, htype] at hlookup
    by_cases hk : platformType = destination.type
    · subst hk
      rw [AList.lookup_insert] at hlookup
      cases hlookup
      exact ⟨_, if_pos rfl, by simp⟩
    · rw [AList.lookup_insert_ne hk, AList.lookup_insert_ne hk] at hlookup
      cases hlookup
  have hreturns : ReturnsExactly
      (getWorkersForSpecs (importerOnly destination) requirements sets (some true) true)
      (Eligible (importerOnly destination) requirements sets) := by
    refine getWorkersForSpecs_of_usable ?_ ?_
    · simp [hregions, Database.Names, importerOnly]
    · simp [hregions, Database.Usable, importerOnly_enabledOf]
  have heligible : Eligible (importerOnly destination) requirements sets
      (importer destination) := by
    refine ⟨⟨by simp [importerOnly], rfl, rfl, Service.meets_iff_lookup.mpr hlookup⟩, ?_⟩
    rw [hregions, List.forall_mem_singleton]
    intro hne
    obtain ⟨region, hregion⟩ := List.exists_mem_of_ne_nil _ hne
    exact ⟨region, hregion, hregion⟩
  have hgranted := @getWorkerServiceForSpecs_of_unique _ _ _ _ _ none _ hreturns heligible
    fun service h => List.mem_singleton.mp h.mem
  simp [getWorkerServiceForTask, ← hsets, ← hrequirements, hgranted, Except.toOption]

lemma importer_not_offersRequired (htype : origin.type = destination.type) :
    ¬ (importer destination).OffersRequired (.execution .osMorphing) origin destination := by
  intro h
  obtain ⟨provider, hprovider, hexports⟩ := h.source [.transferExport] rfl
  have himport : (importer destination).providers origin.type =
      some ⟨some [.transferImport]⟩ := if_pos htype
  rw [himport] at hprovider
  cases hprovider
  simp at hexports

end

/-- For a task and two endpoints, every worker that is ever granted offers what the task requires
of both platforms, if and only if the task is not OS morphing or the endpoints differ in type. -/
theorem granted_offersRequired_iff (task : ScheduledTask) (origin destination : Endpoint) :
    (∀ attempts choices retryCount randomChoice service,
      getWorkerServiceForTask attempts choices task origin destination retryCount randomChoice =
        .ok service →
      service.OffersRequired task.taskType origin destination) ↔
    ¬ (task.taskType = .execution .osMorphing ∧ origin.type = destination.type) := by
  constructor
  · rintro h ⟨htask, htype⟩
    obtain ⟨id, taskType⟩ := task
    subst htask
    exact importer_not_offersRequired htype (h _ _ _ _ _ (importer_granted htype id))
  · intro h attempts choices retryCount randomChoice service hgranted
    obtain ⟨i, choice, hselected⟩ := getWorkerServiceForTask_ok hgranted
    obtain ⟨db, services, hservices, hmem⟩ := getWorkerServiceForSpecs_ok hselected
    exact offersRequired_of_meets h (meets_of_mem hservices hmem)

/-- For OS morphing between two endpoints of one type, a worker is granted that has no provider to
export with. -/
theorem importer_granted_for_osMorphing :
    let endpoint : String → Endpoint := fun id => ⟨id, "openstack", []⟩
    getWorkerServiceForTask (fun _ => some (importerOnly (endpoint "b"))) (fun _ => 0)
        ⟨"task", .execution .osMorphing⟩ (endpoint "a") (endpoint "b") 1 false =
      .ok (importer (endpoint "b")) ∧
    ¬ (importer (endpoint "b")).OffersRequired (.execution .osMorphing) (endpoint "a")
      (endpoint "b") :=
  ⟨rfl, importer_not_offersRequired rfl⟩

end Coriolis.Scheduler

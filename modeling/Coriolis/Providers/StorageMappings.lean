import Coriolis.Library.Dict

/-!
# Storage mappings

An update of a transfer merges its storage mappings with new ones, as lists. A provider reads the
merged lists as dictionaries and resolves a disk: by its own mapping, by the one of its storage
backend, or by a default. Between the two, a new mapping replaces the old ones of the same disk or
backend, and of several the last one counts.
-/

namespace Coriolis.Providers

structure BackendMapping where
  source : String
  destination : String

structure DiskMapping where
  diskId : String
  destination : String

/-- A section that is not there is `none`. -/
structure StorageMappings where
  backendMappings : Option (List BackendMapping)
  diskMappings : Option (List DiskMapping)
  default : Option String

def truthy : Option String → Bool
  | some s => s != ""
  | none => false

lemma exists_of_truthy (h : truthy a = true) : ∃ s, a = some s := by
  cases a with
  | none => simp [truthy] at h
  | some s => exact ⟨s, rfl⟩

/-- Python's `or` of two optional strings. -/
def orElse (a b : Option String) : Option String := if truthy a then a else b

lemma orElse_of_truthy (h : truthy a = true) : orElse a b = a := if_pos h

lemma orElse_of_not_truthy (h : ¬ truthy a = true) : orElse a b = b :=
  if_neg h

/-- `_update_storage_mappings`. -/
def updateStorageMappings (original new : StorageMappings) : StorageMappings :=
  let backendMappings := original.backendMappings.getD []
  let newBackendMappings := new.backendMappings.getD []
  let newBackendMappingSources := newBackendMappings.map (·.source)
  let diskMappings := original.diskMappings.getD []
  let newDiskMappings := new.diskMappings.getD []
  let newDiskMappingsDiskIds := newDiskMappings.map (·.diskId)
  let nonDuplicatesBackendMapping :=
    backendMappings.filter fun m => !newBackendMappingSources.contains m.source
  let nonDuplicatesDiskMappings :=
    diskMappings.filter fun m => !newDiskMappingsDiskIds.contains m.diskId
  let defaultStorageBackend := orElse new.default original.default
  { backendMappings := some (nonDuplicatesBackendMapping ++ newBackendMappings)
    diskMappings := some (nonDuplicatesDiskMappings ++ newDiskMappings)
    default := if truthy defaultStorageBackend then defaultStorageBackend else none }

/-- The id of a disk, which may be a number. -/
inductive DiskId where
  | text (s : String)
  | number (n : Int)

/-- `str` of the id. -/
def DiskId.str : DiskId → String
  | .text s => s
  | .number n => toString n

structure DiskInfo where
  id : DiskId
  storageBackendIdentifier : Option String

inductive StorageMappingError where
  | diskStorageMappingNotFound (id : String)
  | storageBackendNotFound (storageName : String)
  deriving DecidableEq

namespace StorageMappings

/-- The `disk_mappings` as a dictionary. -/
def diskDict (m : StorageMappings) : String → Option String :=
  Dict.ofPairs ((m.diskMappings.getD []).map fun x => (x.diskId, x.destination))

/-- The `backend_mappings` as a dictionary. -/
def backendDict (m : StorageMappings) : String → Option String :=
  Dict.ofPairs ((m.backendMappings.getD []).map fun x => (x.source, x.destination))

end StorageMappings

/-- The backend `get_storage_mapping_for_disk` maps a disk to, before it is looked for. -/
def mappedBackend (storageMappings : StorageMappings) (diskInfo : DiskInfo)
    (configDefault : Option String) : Option String :=
  let mapped := storageMappings.diskDict diskInfo.id.str
  let mapped :=
    if truthy mapped then mapped
    else
      match diskInfo.storageBackendIdentifier with
      | some identifier =>
        match storageMappings.backendDict identifier with
        | some destination => some destination
        | none => mapped
      | none => mapped
  if truthy mapped then mapped
  else
    match storageMappings.default with
    | some default => some default
    | none => configDefault

/-- `get_storage_mapping_for_disk`, with the names of the storage backends. -/
def getStorageMappingForDisk (storageMappings : StorageMappings) (diskInfo : DiskInfo)
    (storageBackends : List String) (configDefault : Option String)
    (errorOnMissingMapping errorOnBackendNotFound : Bool) :
    Except StorageMappingError (Option String) :=
  let mapped := mappedBackend storageMappings diskInfo configDefault
  match mapped with
  | none =>
    if errorOnMissingMapping then .error (.diskStorageMappingNotFound diskInfo.id.str)
    else .ok none
  | some backend =>
    if truthy mapped && !storageBackends.contains backend && errorOnBackendNotFound then
      .error (.storageBackendNotFound backend)
    else .ok mapped

section

/-! The order of precedence, read off the two mappings. -/

variable (original updated : StorageMappings) (disk : DiskInfo)

/-- The destination of the last mapping of the disk, a new one before an old one. -/
def diskDestination : Option String :=
  let last (m : StorageMappings) :=
    ((m.diskMappings.getD []).filter (·.diskId = disk.id.str)).getLast?.map (·.destination)
  (last updated).or (last original)

/-- The destination of the last mapping of the backend of the disk, a new one before an old one. -/
def backendDestination : Option String :=
  disk.storageBackendIdentifier.bind fun identifier =>
    let last (m : StorageMappings) :=
      ((m.backendMappings.getD []).filter (·.source = identifier)).getLast?.map (·.destination)
    (last updated).or (last original)

/-- What the mappings say about a disk: the first of the destinations and defaults that is not
empty. -/
def mappingFor : Option String :=
  orElse (diskDestination original updated disk)
    (orElse (backendDestination original updated disk)
      (orElse updated.default (orElse original.default none)))

def backendFor (configDefault : Option String) : Option String :=
  (mappingFor original updated disk).or configDefault

/-- The backend of a disk, unless it is missing or not an existing one and that is an error. -/
def resolve (storageBackends : List String) (configDefault : Option String)
    (errorOnMissingMapping errorOnBackendNotFound : Bool) :
    Except StorageMappingError (Option String) :=
  match backendFor original updated disk configDefault with
  | none =>
    if errorOnMissingMapping then .error (.diskStorageMappingNotFound disk.id.str) else .ok none
  | some backend =>
    if backend ∉ storageBackends ∧ errorOnBackendNotFound then
      .error (.storageBackendNotFound backend)
    else .ok (some backend)

end

section

variable {original updated : StorageMappings} {disk : DiskInfo} {configDefault : Option String}

lemma diskDict_update : (updateStorageMappings original updated).diskDict k =
    (updated.diskDict k).or (original.diskDict k) := by
  unfold StorageMappings.diskDict updateStorageMappings
  rw [← Dict.ofPairs_overwrite]
  simp [List.filter_map, Function.comp_def]

lemma backendDict_update : (updateStorageMappings original updated).backendDict k =
    (updated.backendDict k).or (original.backendDict k) := by
  unfold StorageMappings.backendDict updateStorageMappings
  rw [← Dict.ofPairs_overwrite]
  simp [List.filter_map, Function.comp_def]

lemma diskDict_eq_last (m : StorageMappings) : m.diskDict k =
    ((m.diskMappings.getD []).filter (·.diskId = k)).getLast?.map (·.destination) := by
  rw [StorageMappings.diskDict, Dict.ofPairs_eq_getLast?, List.filter_map, List.getLast?_map]
  simp [Function.comp_def]

lemma backendDict_eq_last (m : StorageMappings) : m.backendDict k =
    ((m.backendMappings.getD []).filter (·.source = k)).getLast?.map (·.destination) := by
  rw [StorageMappings.backendDict, Dict.ofPairs_eq_getLast?, List.filter_map, List.getLast?_map]
  simp [Function.comp_def]

lemma diskDestination_eq : diskDestination original updated disk =
    (updateStorageMappings original updated).diskDict disk.id.str := by
  rw [diskDict_update, diskDict_eq_last, diskDict_eq_last]
  rfl

lemma backendDestination_eq : backendDestination original updated disk =
    disk.storageBackendIdentifier.bind (updateStorageMappings original updated).backendDict := by
  unfold backendDestination
  congr 1
  funext identifier
  rw [backendDict_update, backendDict_eq_last, backendDict_eq_last]

lemma default_update : (updateStorageMappings original updated).default =
    orElse updated.default (orElse original.default none) := by
  simp only [updateStorageMappings, orElse]
  split <;> simp_all

lemma fallback_eq (mapped default : Option String) :
    (if truthy mapped then mapped
      else match default with
        | some default => some default
        | none => configDefault) =
      (orElse mapped default).or configDefault := by
  by_cases h : truthy mapped
  · obtain ⟨backend, rfl⟩ := exists_of_truthy h
    rw [if_pos h, orElse_of_truthy h, Option.some_or]
  · rw [if_neg h, orElse_of_not_truthy h]
    cases default <;> rfl

/-- Merging and resolving follow the order of precedence. -/
lemma mappedBackend_update :
    mappedBackend (updateStorageMappings original updated) disk configDefault =
      backendFor original updated disk configDefault := by
  unfold mappedBackend backendFor mappingFor
  simp only [fallback_eq]
  rw [diskDestination_eq, backendDestination_eq, ← default_update]
  congr 1
  by_cases hdisk : truthy ((updateStorageMappings original updated).diskDict disk.id.str)
  · rw [if_pos hdisk, orElse_of_truthy hdisk, orElse_of_truthy hdisk]
  rw [if_neg hdisk, orElse_of_not_truthy hdisk]
  rcases disk.storageBackendIdentifier with - | identifier
  · exact orElse_of_not_truthy hdisk
  simp only [Option.bind_some]
  rcases (updateStorageMappings original updated).backendDict identifier with - | backend
  -- the disk keeps its empty mapping if there is none of the backend
  · exact orElse_of_not_truthy hdisk
  · rfl

lemma truthy_mappingFor (h : mappingFor original updated disk = some backend) : backend ≠ "" := by
  have truthy_of_orElse : ∀ {a b : Option String},
      (∀ s, b = some s → s ≠ "") → ∀ s, orElse a b = some s → s ≠ "" := by
    intro a b hb s hs
    by_cases ha : truthy a
    · rw [orElse_of_truthy ha] at hs
      simpa [hs, truthy] using ha
    · rw [orElse_of_not_truthy ha] at hs
      exact hb s hs
  refine truthy_of_orElse (truthy_of_orElse (truthy_of_orElse (truthy_of_orElse ?_))) _ h
  intro s hs
  cases hs

/-- Resolving the merged mappings follows the order of precedence, but for one case: an empty
default of the configuration is returned although no backend has that name. -/
theorem resolve_update_iff (storageBackends : List String)
    (errorOnMissingMapping errorOnBackendNotFound : Bool) :
    getStorageMappingForDisk (updateStorageMappings original updated) disk storageBackends
        configDefault errorOnMissingMapping errorOnBackendNotFound =
      resolve original updated disk storageBackends configDefault errorOnMissingMapping
        errorOnBackendNotFound ↔
    ¬ (configDefault = some "" ∧ mappingFor original updated disk = none ∧
      "" ∉ storageBackends ∧ errorOnBackendNotFound = true) := by
  unfold getStorageMappingForDisk resolve
  simp only [mappedBackend_update, backendFor]
  rcases hmapping : mappingFor original updated disk with - | backend
  · rcases configDefault with - | backend
    · simp
    · by_cases hempty : backend = ""
      · subst hempty
        simp [truthy]
      · simp [truthy, hempty]
  · simp [truthy, truthy_mappingFor hmapping]

/-- With nothing mapped and an empty default in the configuration, the missing backend is not
reported. -/
theorem empty_default_resolved :
    getStorageMappingForDisk
        (updateStorageMappings ⟨none, none, none⟩ ⟨none, none, none⟩)
        ⟨.text "disk-1", some "datastore1"⟩ ["ceph"] (some "") true true = .ok (some "") ∧
      resolve ⟨none, none, none⟩ ⟨none, none, none⟩ ⟨.text "disk-1", some "datastore1"⟩ ["ceph"]
        (some "") true true = .error (.storageBackendNotFound "") := by
  decide

end

end Coriolis.Providers

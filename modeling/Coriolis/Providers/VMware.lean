import Coriolis.Library.Sorted
import Mathlib.Data.String.Basic

/-!
# The disks of a VMware source

`_attach_disks_to_worker` adds the disks of a VM to the worker VM, on the first SCSI
controller and in the order of the export info. `replicate_disks` does not look at what was
attached: it sorts the names of the devices the replicator lists, leaves `sda` out and deals
them out to the volumes by position. Linux names SCSI disks in the order of their
attachment, so the two agree only for some workers and some orders of the volumes.
-/

namespace Coriolis.Providers.VMware

/-- A device of the worker VM. A controller without `scsiCtlrUnitNumber` has unit 7, a disk
without `unitNumber` has unit 0. -/
inductive Device where
  | scsiController (key unitNumber : Nat)
  | disk (controllerKey unitNumber : Nat)
  | other

/-- A disk of the export info; its datastore path is empty if it has none. -/
structure Disk where
  id : String
  path : String

structure AttachedDisk where
  diskId : String
  vmdkPath : String
  unitNumber : Nat
  controllerKey : Nat
  deriving DecidableEq, Repr

/-- The SCSI controllers and, for each, the units in use, as far as the devices were read. -/
structure Slots where
  controllers : List (Nat × Nat)
  used : Nat → Option (List Nat)

def Slots.read (slots : Slots) : Device → Slots
  | .scsiController key unitNumber =>
    ⟨slots.controllers ++ [(key, unitNumber)], Function.update slots.used key (some [unitNumber])⟩
  | .disk controllerKey unitNumber =>
    ⟨slots.controllers, Function.update slots.used controllerKey
      ((slots.used controllerKey).map (unitNumber :: ·))⟩
  | .other => slots

def usedSlots (devices : List Device) : Slots := devices.foldl Slots.read ⟨[], fun _ => none⟩

/-- The `while` loop that looks for a free unit, which gives up at the sixteenth. It runs at
most sixteen times. -/
def freeUnit (used : List Nat) (controllerUnit : Nat) : Nat → Nat → Option Nat
  | 0, _ => none
  | fuel + 1, next =>
    if next ∈ used ∨ next = controllerUnit then
      if 16 ≤ next + 1 then none else freeUnit used controllerUnit fuel (next + 1)
    else some next

/-- The loop over the disks, with the next unit to try and the units in use. -/
def attachDisks (workerName : String) (key controllerUnit : Nat) :
    List Disk → Nat → List Nat → Except String (List AttachedDisk)
  | [], _, _ => .ok []
  | disk :: disks, next, used =>
    if disk.path = "" then attachDisks workerName key controllerUnit disks next used
    else
      match freeUnit used controllerUnit 16 next with
      | none => .error s!"Worker VM '{workerName}' controller has no free SCSI slots."
      | some unit =>
        (attachDisks workerName key controllerUnit disks (unit + 1) (unit :: used)).map
          (⟨disk.id, disk.path, unit, key⟩ :: ·)

/-- `_attach_disks_to_worker`, for a vCenter that reconfigures the worker VM as it is told. -/
def attachDisksToWorker (workerName : String) (devices : List Device) (disks : List Disk) :
    Except String (List AttachedDisk) :=
  let slots := usedSlots devices
  match slots.controllers with
  | [] => .error s!"Worker VM '{workerName}' has no SCSI controllers."
  | (key, controllerUnit) :: _ =>
    attachDisks workerName key controllerUnit disks 0 ((slots.used key).getD [])

/-- The disks of the worker VM that are on one of its SCSI controllers. -/
def scsiDisks (devices : List Device) : Nat :=
  devices.countP fun
    | .disk controllerKey _ => devices.any fun
      | .scsiController key _ => key == controllerKey
      | _ => false
    | _ => false

/-- The letter of a SCSI disk and, beyond the 26th, those before it. -/
def deviceLetters : Nat → Nat → List Char
  | 0, _ => []
  | fuel + 1, k =>
    (if k < 26 then [] else deviceLetters fuel (k / 26 - 1)) ++ [Char.ofNat (97 + k % 26)]

/-- The name Linux gives to the SCSI disk that was attached as number `k`, from zero: `sda` to
`sdz`, `sdaa` and so on. -/
def deviceName (k : Nat) : String := "sd" ++ String.ofList (deviceLetters (k + 1) k)

def ofLetters (letters : List Char) : Nat :=
  letters.foldl (fun k c => 26 * k + (c.toNat - 96)) 0

lemma ofLetters_deviceLetters (fuel k : Nat) (h : k < fuel) :
    ofLetters (deviceLetters fuel k) = k + 1 := by
  induction fuel generalizing k with
  | zero => omega
  | succ fuel ih =>
    have hc : (Char.ofNat (97 + k % 26)).toNat = 97 + k % 26 :=
      (by decide : ∀ n < 26, (Char.ofNat (97 + n)).toNat = 97 + n) _ (Nat.mod_lt k (by decide))
    rw [deviceLetters, ofLetters, List.foldl_append]
    simp only [List.foldl_cons, List.foldl_nil, hc]
    split
    · rw [List.foldl_nil]
      omega
    · have := ih (k / 26 - 1) (by omega)
      rw [ofLetters] at this
      rw [this]
      omega

lemma deviceName_injective : Function.Injective deviceName := by
  intro k k' h
  have hl : deviceLetters (k + 1) k = deviceLetters (k' + 1) k' := by
    have := congrArg String.toList h
    simpa [deviceName] using this
  have hk := ofLetters_deviceLetters (k + 1) k (by omega)
  rw [hl, ofLetters_deviceLetters (k' + 1) k' (by omega)] at hk
  omega

section

/-- What `replicate_disks` reads of the source resources. -/
structure SourceResources where
  attachedDisks : List AttachedDisk
  diskPaths : List (String × String)

/-- The source resources of `deploy_replica_source_resources`, where the worker VM is found and
disks are attached to it. It stores no disk paths. -/
def deployReplicaSourceResources (workerName : String) (devices : List Device)
    (disks : List Disk) : Except String SourceResources :=
  (attachDisksToWorker workerName devices disks).map (⟨·, []⟩)

/-- `dev_names`: the named devices of a listing but `sda`, sorted. -/
def devNames (listing : List (Option String)) : List String :=
  (listing.filterMap (·.filter fun name => name != "" && name != "sda")).insertionSort (· ≤ ·)

/-- `_resolve_source_disk_path`. -/
def resolveSourceDiskPath (resources : SourceResources) (diskId : String) : String :=
  (resources.diskPaths.lookup diskId).getD ("/dev/mapper/coriolis-" ++ diskId)

/-- The loop of `replicate_disks` over the volumes, which are given by their disk ids: the disk
paths it hands to the replicator. -/
def sourceVolumesInfo (resources : SourceResources) (listing : List (Option String))
    (volumes : List String) : List (String × String) :=
  let names := devNames listing
  volumes.mapIdx fun idx diskId =>
    (diskId, match names[idx % names.length]? with
      | some name => "/dev/" ++ name
      | none => resolveSourceDiskPath resources diskId)

/-- The listing names the first `n` SCSI disks and nothing else, in any order. -/
def Lists (listing : List (Option String)) (n : Nat) : Prop :=
  (listing.filterMap (·.filter (· != ""))).Perm ((List.range n).map deviceName)

/-- The device under which a disk was attached to a worker VM with `previous` SCSI disks. -/
def deviceOf (previous : Nat) (attached : List AttachedDisk) (diskId : String) : String :=
  deviceName (previous + (attached.map (·.diskId)).idxOf diskId)

/-- Every volume gets the device of its disk, and every volume another one. -/
def MapsToOwnDevices (previous : Nat) (resources : SourceResources)
    (listing : List (Option String)) (volumes : List String) : Prop :=
  (∀ v ∈ sourceVolumesInfo resources listing volumes,
      v.2 = "/dev/" ++ deviceOf previous resources.attachedDisks v.1) ∧
    ((sourceVolumesInfo resources listing volumes).map (·.2)).Nodup

/-- The volumes are in the alphabetical order of the devices of their disks, none of which is
`sda`, and no other device but `sda` comes before the last of them. -/
structure InDeviceOrder (previous : Nat) (attached : List AttachedDisk) (volumes : List String) :
    Prop where
  sorted : (volumes.map (deviceOf previous attached)).Pairwise (· < ·)
  notFirst : ∀ v ∈ volumes, deviceOf previous attached v ≠ "sda"
  consecutive : ∀ k < previous + attached.length, deviceName k ≠ "sda" → ∀ v ∈ volumes,
    deviceName k < deviceOf previous attached v →
      ∃ v' ∈ volumes, deviceOf previous attached v' = deviceName k

variable {listing : List (Option String)} {attached : List AttachedDisk} {volumes : List String}

lemma devNames_perm (h : Lists listing n) :
    (devNames listing).Perm (((List.range n).map deviceName).filter (· != "sda")) := by
  refine (List.perm_insertionSort _ _).trans ?_
  have hfilter : listing.filterMap (·.filter fun name => name != "" && name != "sda") =
      (listing.filterMap (·.filter (· != ""))).filter (· != "sda") := by
    rw [List.filter_filterMap]
    congr 1
    funext name
    cases name with
    | none => rfl
    | some name => by_cases h : name = "" <;> simp [Option.filter, h]
  rw [hfilter]
  exact h.filter _

lemma mem_devNames (h : Lists listing n) :
    name ∈ devNames listing ↔ (∃ k < n, deviceName k = name) ∧ name ≠ "sda" := by
  simp [(devNames_perm h).mem_iff]

lemma devNames_sorted (h : Lists listing n) : (devNames listing).Pairwise (· < ·) := by
  have hnodup : (devNames listing).Nodup := (devNames_perm h).nodup_iff.mpr
    ((List.nodup_range.map deviceName_injective).filter _)
  exact (List.pairwise_insertionSort (· ≤ ·) _).imp₂ (fun _ _ hle hne => lt_of_le_of_ne hle hne)
    hnodup

lemma deviceOf_inj (hv : v ∈ attached.map (·.diskId))
    (h : deviceOf previous attached v = deviceOf previous attached v') : v = v' := by
  have hk := deviceName_injective h
  exact (List.idxOf_inj hv).mp (by omega)

lemma deviceOf_nodup (hmem : ∀ v ∈ volumes, v ∈ attached.map (·.diskId))
    (hv : volumes.Nodup) : (volumes.map (deviceOf previous attached)).Nodup :=
  hv.map_on fun v hv' _ _ h => deviceOf_inj (hmem v hv') h

lemma resolveSourceDiskPath_ne (attached : List AttachedDisk) (v : String) (k : Nat) :
    resolveSourceDiskPath ⟨attached, []⟩ v ≠ "/dev/" ++ deviceName k := by
  intro h
  have := congrArg String.toList h
  simp [resolveSourceDiskPath, deviceName] at this

/-- The volumes get the devices of their disks when these are the first ones of the sorted
listing. -/
lemma paths_iff_isPrefix (hmem : ∀ v ∈ volumes, v ∈ attached.map (·.diskId))
    (hv : volumes.Nodup) :
    (∀ v ∈ sourceVolumesInfo ⟨attached, []⟩ listing volumes,
        v.2 = "/dev/" ++ deviceOf previous attached v.1) ↔
      volumes.map (deviceOf previous attached) <+: devNames listing := by
  constructor
  · intro h
    have hpath : ∀ i (hi : i < volumes.length),
        (match (devNames listing)[i % (devNames listing).length]? with
          | some name => "/dev/" ++ name
          | none => resolveSourceDiskPath ⟨attached, []⟩ volumes[i]) =
          "/dev/" ++ deviceOf previous attached volumes[i] := fun i hi =>
      h (volumes[i], _) (List.mem_mapIdx.mpr ⟨i, hi, rfl⟩)
    have hname : ∀ i (hi : i < volumes.length),
        (devNames listing)[i % (devNames listing).length]? =
          some (deviceOf previous attached volumes[i]) := by
      intro i hi
      have := hpath i hi
      split at this
      · rename_i name hname
        rw [hname, Option.some.injEq]
        simpa using this
      · exact absurd this (resolveSourceDiskPath_ne _ _ _)
    rcases List.eq_nil_or_concat volumes with rfl | hne
    · exact List.nil_prefix
    have hpos : 0 < volumes.length := by
      obtain ⟨l, b, rfl⟩ := hne
      simp
    refine Library.isPrefix_of_getElem_mod (deviceOf_nodup hmem hv) (fun hnil => ?_) fun i hi => ?_
    · simp [hnil] at hname
      exact absurd (hname 0) (by omega)
    · rw [List.length_map] at hi
      rw [hname i hi, List.getElem_map]
  · intro h v hv'
    obtain ⟨i, hi, rfl⟩ := List.mem_mapIdx.mp hv'
    have := Library.getElem_mod_of_isPrefix h i (by simpa using hi)
    simp [this]

lemma isPrefix_iff_inDeviceOrder (hl : Lists listing (previous + attached.length))
    (hmem : ∀ v ∈ volumes, v ∈ attached.map (·.diskId)) :
    volumes.map (deviceOf previous attached) <+: devNames listing ↔
      InDeviceOrder previous attached volumes := by
  have hnumber : ∀ v ∈ volumes, ∃ k < previous + attached.length,
      deviceName k = deviceOf previous attached v := fun v hv => by
    have := List.idxOf_lt_length_iff.mpr (hmem v hv)
    rw [List.length_map] at this
    exact ⟨_, Nat.add_lt_add_left this previous, rfl⟩
  rw [Library.isPrefix_iff_of_sorted (devNames_sorted hl)]
  constructor
  · rintro ⟨hsorted, hsub, hclosed⟩
    refine ⟨hsorted, fun v hv => ?_, fun k hk hne v hv hlt => ?_⟩
    · exact ((mem_devNames hl).mp (hsub (List.mem_map_of_mem hv))).2
    · exact List.mem_map.mp (hclosed _ ((mem_devNames hl).mpr ⟨⟨k, hk, rfl⟩, hne⟩) _
        (List.mem_map_of_mem hv) hlt)
  · intro h
    refine ⟨h.sorted, fun name hname => ?_, fun name hname name' hname' hlt => ?_⟩
    · obtain ⟨v, hv, rfl⟩ := List.mem_map.mp hname
      exact (mem_devNames hl).mpr ⟨hnumber v hv, h.notFirst v hv⟩
    · obtain ⟨v, hv, rfl⟩ := List.mem_map.mp hname'
      obtain ⟨⟨k, hk, rfl⟩, hne⟩ := (mem_devNames hl).mp hname
      exact List.mem_map.mpr (h.consecutive k hk hne v hv hlt)

/-- Each volume is read from the device of its own disk exactly when the volumes are in the
alphabetical order of these devices, with `sda` not among them and no other device before. -/
theorem replicate_disks_maps_iff (workerName : String) (devices : List Device)
    (disks : List Disk) (resources : SourceResources)
    (h : deployReplicaSourceResources workerName devices disks = .ok resources)
    (listing : List (Option String))
    (hl : Lists listing (scsiDisks devices + resources.attachedDisks.length))
    (volumes : List String) (hv : volumes.Nodup)
    (hmem : ∀ v ∈ volumes, v ∈ resources.attachedDisks.map (·.diskId)) :
    MapsToOwnDevices (scsiDisks devices) resources listing volumes ↔
      InDeviceOrder (scsiDisks devices) resources.attachedDisks volumes := by
  obtain ⟨attached, rfl⟩ : ∃ attached, resources = ⟨attached, []⟩ := by
    unfold deployReplicaSourceResources at h
    cases hat : attachDisksToWorker workerName devices disks with
    | error err => simp [hat, Except.map] at h
    | ok attached =>
      simp only [hat, Except.map, Except.ok.injEq] at h
      exact ⟨attached, h.symm⟩
  rw [← isPrefix_iff_inDeviceOrder hl hmem, ← paths_iff_isPrefix hmem hv]
  refine ⟨And.left, fun hpaths => ⟨hpaths, ?_⟩⟩
  -- distinct volumes have distinct devices
  have hmap : (sourceVolumesInfo ⟨attached, []⟩ listing volumes).map (·.2) =
      volumes.map fun v => "/dev/" ++ deviceOf (scsiDisks devices) attached v := by
    refine List.ext_getElem (by simp [sourceVolumesInfo]) fun i hi hi' => ?_
    have hi : i < (sourceVolumesInfo ⟨attached, []⟩ listing volumes).length := by simpa using hi
    have := hpaths _ (List.getElem_mem hi)
    simpa [sourceVolumesInfo] using this
  rw [hmap]
  refine hv.map_on fun v hv' v' _ heq => ?_
  have hdev : deviceOf (scsiDisks devices) attached v = deviceOf (scsiDisks devices) attached v' := by
    simpa using heq
  exact deviceOf_inj (hmem v hv') hdev

def worker (disks : Nat) : List Device :=
  .scsiController 1000 7 :: (List.range disks).map (.disk 1000)

def disk : Disk := ⟨"disk-2000", "[datastore1] vm/vm.vmdk"⟩

/-- The disk of a VM that is attached to a worker VM with two disks of its own is `sdc`, and
`sdb` is read in its place. -/
theorem replicate_disks_reads_worker :
    ∃ resources, deployReplicaSourceResources "worker" (worker 2) [disk] = .ok resources ∧
      Lists [some "sda", some "sdb", some "sdc"]
        (scsiDisks (worker 2) + resources.attachedDisks.length) ∧
      resources.attachedDisks.map (·.diskId) = ["disk-2000"] ∧
      deviceOf (scsiDisks (worker 2)) resources.attachedDisks "disk-2000" = "sdc" ∧
      sourceVolumesInfo resources [some "sda", some "sdb", some "sdc"] ["disk-2000"] =
        [("disk-2000", "/dev/sdb")] ∧
      ¬MapsToOwnDevices (scsiDisks (worker 2)) resources
        [some "sda", some "sdb", some "sdc"] ["disk-2000"] := by
  refine ⟨⟨[⟨"disk-2000", "[datastore1] vm/vm.vmdk", 2, 1000⟩], []⟩, rfl, .of_eq (by decide), rfl,
    by decide, by decide, fun h => ?_⟩
  have := h.1 ("disk-2000", "/dev/sdb") (by decide)
  exact absurd this (by decide)

/-- Two disks that are attached to a worker VM with one disk of its own are read as they were
attached. -/
theorem replicate_disks_maps_two :
    MapsToOwnDevices (scsiDisks (worker 1))
      ⟨[⟨"disk-2000", "[datastore1] vm/vm.vmdk", 1, 1000⟩,
        ⟨"disk-2001", "[datastore1] vm/vm_1.vmdk", 2, 1000⟩], []⟩
      [some "sdb", some "sda", none, some "sdc"] ["disk-2000", "disk-2001"] := by
  refine (replicate_disks_maps_iff "worker" (worker 1)
    [disk, ⟨"disk-2001", "[datastore1] vm/vm_1.vmdk"⟩] _ rfl _ ?_ _ (by decide)
    (by decide)).mpr ⟨by decide, by decide, ?_⟩
  · exact List.Perm.swap ..
  · decide

end

end Coriolis.Providers.VMware

import Coriolis.Library.Dict
import Coriolis.Library.Indexed
import Coriolis.Library.Raising
import Mathlib.Algebra.Group.Int.Defs
import Mathlib.Algebra.Group.Nat.Defs

/-!
# Replica disks on Proxmox

Every run of a transfer calls `deploy_replica_disks` with the disks of the instance and the volumes
of the run before. A disk that has a volume keeps it, a disk without one gets a new one, and the
volumes of disks that are gone are deleted.
-/

namespace Coriolis.Providers.Proxmox

open Raising

/-- A disk of the export info. A field that is not there is `none`. -/
structure Disk where
  id : Option String
  path : Option String
  sizeBytes : Int

/-- A volume, whose id is the text `storage:vm-vmid-disk-index`. -/
structure VolumeId where
  storage : String
  vmid : Nat
  index : Nat
  deriving DecidableEq

/-- An entry of `volumes_info`. -/
structure VolumeInfo where
  diskId : String
  volumeId : VolumeId
  targetVmid : Nat
  deriving DecidableEq

abbrev Storage := VolumeId → Option Nat

inductive DeployError where
  /-- There is already a volume of the name. -/
  | volumeExists (volumeId : VolumeId)
  | overflow

/-- A number of bytes as a float: 53 bits of it, of two that are as near the even one. -/
def toFloat (n : Nat) : Nat :=
  if n < 2 ^ 53 then n
  else
    let unit := 2 ^ (Nat.log2 n - 52)
    let floor := n / unit
    let rest := n % unit
    if 2 * rest < unit ∨ 2 * rest = unit ∧ floor % 2 = 0 then floor * unit
    else (floor + 1) * unit

/-- `2 ^ 1024`, above all floats. -/
def floatBound : Nat := (2 ^ 256) ^ 4

/-- `int(size / (1024 ** 3))`, which is an error if the quotient is too large for a float. A
negative size is rounded to a number that is not positive, here to zero. -/
def wholeGigabytes (sizeBytes : Int) : Option Nat :=
  let quotient := toFloat sizeBytes.toNat / 2 ^ 30
  if quotient < floatBound then some quotient else none

/-- The arguments of a call, with the id of the VM: the one that has the name, or the next one. -/
structure Deploy where
  storage : String
  targetVmid : Nat
  disks : List Disk

def Disk.key (disk : Disk) (index : Nat) : String :=
  disk.id.getD (disk.path.getD ("disk-" ++ Nat.repr index))

/-- The volumes by disk id, of which a later one overwrites an earlier one. -/
def existing (volumesInfo : List VolumeInfo) : String → Option VolumeInfo :=
  Dict.ofPairs (volumesInfo.map fun info => (info.diskId, info))

def createVolume (volumeId : VolumeId) (gigabytes : Nat) : EStateM DeployError Storage Unit := do
  let storage ← get
  if (storage volumeId).isSome then throw (.volumeExists volumeId)
  else set (Function.update storage volumeId (some (gigabytes * 2 ^ 30)))

def deployDisk (call : Deploy) (volumesInfo : List VolumeInfo) (disk : Disk) (index : Nat) :
    EStateM DeployError Storage VolumeInfo := do
  let diskId := disk.key index
  let storage ← get
  match (existing volumesInfo diskId).filter fun info => (storage info.volumeId).isSome with
  | some info => return ⟨diskId, info.volumeId, call.targetVmid⟩
  | none =>
    match wholeGigabytes disk.sizeBytes with
    | none => throw .overflow
    | some sizeGb =>
      let sizeGb := if sizeGb = 0 then 1 else sizeGb
      let volumeId := ⟨call.storage, call.targetVmid, index⟩
      createVolume volumeId sizeGb
      return ⟨diskId, volumeId, call.targetVmid⟩

def deployDisks (call : Deploy) (volumesInfo : List VolumeInfo) :
    List (Disk × Nat) → EStateM DeployError Storage (List VolumeInfo)
  | [] => return []
  | (disk, index) :: disks => do
    let info ← deployDisk call volumesInfo disk index
    let newVolumesInfo ← deployDisks call volumesInfo disks
    return info :: newVolumesInfo

/-- `current_disk_ids`, where a disk without an id and a path is `None`. -/
def currentDiskIds (disks : List Disk) : List (Option String) :=
  disks.map fun disk => disk.id.or disk.path

/-- The volumes of the disks that are no longer present: the deletion of one that is not there
raises, and that is caught. -/
def sweep (disks : List Disk) (volumesInfo : List VolumeInfo) (storage : Storage) : Storage :=
  let unused := (volumesInfo.map (·.diskId)).filter fun id => some id ∉ currentDiskIds disks
  (unused.filterMap (existing volumesInfo)).foldl
    (fun storage info => Function.update storage info.volumeId none) storage

/-- `deploy_replica_disks`. -/
def deployReplicaDisks (call : Deploy) (volumesInfo : List VolumeInfo) :
    EStateM DeployError Storage (List VolumeInfo) := do
  let newVolumesInfo ← deployDisks call volumesInfo call.disks.zipIdx
  modify (sweep call.disks volumesInfo)
  return newVolumesInfo

/-- The volumes after a call track the disks. -/
structure Tracks (call : Deploy) (volumesInfo : List VolumeInfo) (storage : Storage)
    (newVolumesInfo : List VolumeInfo) (newStorage : Storage) : Prop where
  /-- One entry per disk, in order, with a volume that is large enough. -/
  entries : List.Forall₂ (fun (disk : Disk × Nat) (info : VolumeInfo) =>
      info.diskId = disk.1.key disk.2 ∧
      ∃ size, newStorage info.volumeId = some size ∧ disk.1.sizeBytes ≤ size)
    call.disks.zipIdx newVolumesInfo
  /-- A disk that is still there keeps its volume. -/
  kept : ∀ info ∈ volumesInfo, ∀ newInfo ∈ newVolumesInfo, newInfo.diskId = info.diskId →
    newInfo.volumeId = info.volumeId
  /-- A volume is deleted if and only if its disk is gone. -/
  deleted : ∀ volumeId, (storage volumeId).isSome → (newStorage volumeId = none ↔
    ∃ info ∈ volumesInfo, info.volumeId = volumeId ∧
      info.diskId ∉ newVolumesInfo.map (·.diskId))

lemma toFloat_of_dvd (h : 2 ^ (Nat.log2 n - 52) ∣ n) : toFloat n = n := by
  unfold toFloat
  split
  · rfl
  · have hpos : 0 < 2 ^ (Nat.log2 n - 52) := Nat.two_pow_pos _
    simp [Nat.mod_eq_zero_of_dvd h, Nat.div_mul_cancel h, hpos]

/-- A size that is lost nothing of when it is rounded: at most one gigabyte, or whole ones. -/
def Whole (sizeBytes : Int) : Prop :=
  sizeBytes ≤ 2 ^ 30 ∨ ∃ n : Nat, n < 2 ^ 53 ∧ sizeBytes = n * 2 ^ 30

lemma lt_floatBound (h : n < 2 ^ 53) : n < floatBound :=
  Nat.lt_trans h (by decide)

lemma toFloat_of_lt (h : n < 2 ^ 53) : toFloat n = n := if_pos h

lemma toFloat_gigabytes (h : n < 2 ^ 53) : toFloat (n * 2 ^ 30) = n * 2 ^ 30 := by
  rcases Nat.eq_zero_or_pos n with rfl | hpos
  · rfl
  refine toFloat_of_dvd (Nat.dvd_trans (Nat.pow_dvd_pow 2 ?_) (Nat.dvd_mul_left _ n))
  have hlt : n * 2 ^ 30 < 2 ^ 83 := by omega
  have hlog : Nat.log2 (n * 2 ^ 30) < 83 := (Nat.log2_lt (by omega)).mpr hlt
  omega

lemma wholeGigabytes_of_whole (h : Whole sizeBytes) :
    ∃ sizeGb, wholeGigabytes sizeBytes = some sizeGb ∧
      sizeBytes ≤ ((if sizeGb = 0 then 1 else sizeGb) * 2 ^ 30 : Nat) := by
  rcases h with hsmall | ⟨n, hn, rfl⟩
  · have hfloat : toFloat sizeBytes.toNat = sizeBytes.toNat := toFloat_of_lt (by omega)
    refine ⟨sizeBytes.toNat / 2 ^ 30, ?_, ?_⟩
    · rw [wholeGigabytes, hfloat, if_pos (lt_floatBound (by omega))]
    · split <;> omega
  · have hnat : ((n : Int) * 2 ^ 30).toNat = n * 2 ^ 30 := by omega
    refine ⟨n, ?_, ?_⟩
    · rw [wholeGigabytes, hnat, toFloat_gigabytes hn, Nat.mul_div_cancel _ (by decide),
        if_pos (lt_floatBound hn)]
    · split <;> omega

section

variable {call : Deploy} {volumesInfo : List VolumeInfo}

def Deploy.volume (call : Deploy) (index : Nat) : VolumeId :=
  ⟨call.storage, call.targetVmid, index⟩

/-- The entry of a disk: with its volume of before, or with a new one. -/
def Entry (call : Deploy) (volumesInfo : List VolumeInfo) (disk : Disk × Nat)
    (info : VolumeInfo) : Prop :=
  info.diskId = disk.1.key disk.2 ∧
    info.volumeId = ((existing volumesInfo (disk.1.key disk.2)).map (·.volumeId)).getD
      (call.volume disk.2)

/-- What the loop needs of a storage: the volumes of before, and room for the new ones. -/
structure Ready (call : Deploy) (volumesInfo : List VolumeInfo) (disks : List (Disk × Nat))
    (storage : Storage) : Prop where
  present : ∀ disk ∈ disks, ∀ info, existing volumesInfo (disk.1.key disk.2) = some info →
    (storage info.volumeId).isSome
  free : ∀ disk ∈ disks, existing volumesInfo (disk.1.key disk.2) = none →
    storage (call.volume disk.2) = none ∧ Whole disk.1.sizeBytes

lemma deployDisk_of_existing {disk : Disk} {index : Nat} {storage : Storage}
    {info : VolumeInfo} (hinfo : existing volumesInfo (disk.key index) = some info)
    (hsome : (storage info.volumeId).isSome) :
    deployDisk call volumesInfo disk index storage =
      .ok ⟨disk.key index, info.volumeId, call.targetVmid⟩ storage := by
  have hfilter : ((some info).filter fun info => (storage info.volumeId).isSome) = some info := by
    simp [Option.filter, hsome]
  have hget : (get : EStateM DeployError Storage Storage) storage = .ok storage storage := rfl
  simp only [deployDisk, hinfo]
  rw [bind_of_ok hget, hfilter]
  rfl

lemma deployDisk_of_new {disk : Disk} {index : Nat} {storage : Storage}
    (hnone : existing volumesInfo (disk.key index) = none)
    (hfree : storage (call.volume index) = none) (hwhole : Whole disk.sizeBytes) :
    ∃ bytes : Nat, disk.sizeBytes ≤ bytes ∧
      deployDisk call volumesInfo disk index storage =
        .ok ⟨disk.key index, call.volume index, call.targetVmid⟩
          (Function.update storage (call.volume index) (some bytes)) := by
  obtain ⟨sizeGb, hsize, hle⟩ := wholeGigabytes_of_whole hwhole
  refine ⟨_, hle, ?_⟩
  unfold Deploy.volume at hfree ⊢
  have hget : (get : EStateM DeployError Storage Storage) storage = .ok storage storage := rfl
  have hcreate (sizeGb : Nat) : createVolume ⟨call.storage, call.targetVmid, index⟩ sizeGb storage =
      .ok () (Function.update storage ⟨call.storage, call.targetVmid, index⟩
        (some (sizeGb * 2 ^ 30))) := by
    rw [createVolume, bind_of_ok hget, if_neg (by simp [hfree])]
    rfl
  simp only [deployDisk, hnone]
  rw [bind_of_ok hget]
  simp only [Option.filter_none, hsize]
  rw [bind_of_ok (hcreate _)]
  rfl

/-- A disk gets its entry, and a disk that had no volume a new one. No other volume is touched. -/
lemma deployDisk_spec {disk : Disk × Nat} (hready : Ready call volumesInfo (disk :: disks) storage) :
    ∃ info storage₁, deployDisk call volumesInfo disk.1 disk.2 storage = .ok info storage₁ ∧
      Entry call volumesInfo disk info ∧
      (existing volumesInfo (disk.1.key disk.2) = none →
        ∃ bytes : Nat, disk.1.sizeBytes ≤ bytes ∧ storage₁ (call.volume disk.2) = some bytes) ∧
      (∀ volumeId, (storage volumeId).isSome → storage₁ volumeId = storage volumeId) ∧
      ∀ volumeId ≠ call.volume disk.2, storage₁ volumeId = storage volumeId := by
  rcases hexisting : existing volumesInfo (disk.1.key disk.2) with - | info
  · obtain ⟨hnone, hwhole⟩ := hready.free disk List.mem_cons_self hexisting
    obtain ⟨bytes, hbytes, hrun⟩ := @deployDisk_of_new call _ _ _ _ hexisting hnone hwhole
    refine ⟨_, _, hrun, ⟨rfl, by simp [hexisting]⟩, fun _ => ⟨bytes, hbytes, by simp⟩,
      fun volumeId hsome => Function.update_of_ne ?_ _ _, fun _ hne => Function.update_of_ne hne _ _⟩
    rintro rfl
    simp [hnone] at hsome
  · have hrun := @deployDisk_of_existing call _ _ _ _ _ hexisting
      (hready.present disk List.mem_cons_self info hexisting)
    exact ⟨_, _, hrun, ⟨rfl, by simp [hexisting]⟩, by simp, fun _ _ => rfl, fun _ _ => rfl⟩

/-- The loop returns an entry for each disk. It creates the volumes of the disks that had none and
touches no volume of before. -/
lemma deployDisks_spec (hready : Ready call volumesInfo disks storage)
    (hnodup : (disks.map (·.2)).Nodup) :
    ∃ infos storage', deployDisks call volumesInfo disks storage = .ok infos storage' ∧
      List.Forall₂ (Entry call volumesInfo) disks infos ∧
      (∀ disk ∈ disks, existing volumesInfo (disk.1.key disk.2) = none →
        ∃ bytes : Nat, disk.1.sizeBytes ≤ bytes ∧ storage' (call.volume disk.2) = some bytes) ∧
      ∀ volumeId, (storage volumeId).isSome → storage' volumeId = storage volumeId := by
  induction disks generalizing storage with
  | nil => exact ⟨[], storage, rfl, .nil, by simp, fun _ _ => rfl⟩
  | cons disk disks ih =>
    rw [List.map_cons, List.nodup_cons] at hnodup
    obtain ⟨info, storage₁, hrun, hentry, hnew, hold, hother⟩ := deployDisk_spec hready
    have hready₁ : Ready call volumesInfo disks storage₁ := by
      refine ⟨fun d hd old hexisting => ?_, fun d hd hexisting => ?_⟩
      · have hsome := hready.present d (List.mem_cons_of_mem _ hd) old hexisting
        rwa [hold _ hsome]
      · rw [hother]
        · exact hready.free d (List.mem_cons_of_mem _ hd) hexisting
        · intro heq
          have hindex : d.2 = disk.2 := congrArg VolumeId.index heq
          exact hnodup.1 (hindex ▸ List.mem_map_of_mem hd)
    obtain ⟨infos, storage', hrest, hentries, hcreated, hkept⟩ := ih hready₁ hnodup.2
    refine ⟨_, storage', ?_, .cons hentry hentries, ?_, fun volumeId hsome => ?_⟩
    · rw [deployDisks, bind_of_ok hrun, bind_of_ok hrest]
      rfl
    · refine List.forall_mem_cons.mpr ⟨fun hexisting => ?_, hcreated⟩
      obtain ⟨bytes, hbytes, hvolume⟩ := hnew hexisting
      exact ⟨bytes, hbytes, by rw [hkept _ (by simp [hvolume]), hvolume]⟩
    · rw [hkept volumeId (by rwa [hold volumeId hsome]), hold volumeId hsome]

end

section

variable {diskId : String}

lemma existing_eq_none :
    existing volumesInfo diskId = none ↔ ∀ info ∈ volumesInfo, info.diskId ≠ diskId := by
  rw [existing, Dict.ofPairs_eq_none]
  simp

lemma existing_eq_some (h : (volumesInfo.map (·.diskId)).Nodup) :
    existing volumesInfo diskId = some info ↔ info ∈ volumesInfo ∧ info.diskId = diskId := by
  rw [existing, Dict.ofPairs_eq_some_iff (by simpa [Function.comp_def] using h)]
  simp [and_comm, eq_comm]

lemma sweep_apply (h : (volumesInfo.map (·.diskId)).Nodup) (volumeId : VolumeId) :
    sweep disks volumesInfo storage volumeId =
      if ∃ info ∈ volumesInfo, info.volumeId = volumeId ∧ some info.diskId ∉ currentDiskIds disks
      then none else storage volumeId := by
  have hfold : ∀ (infos : List VolumeInfo) (storage : Storage),
      (infos.foldl (fun (storage : Storage) info => Function.update storage info.volumeId none)
        storage) volumeId =
          if volumeId ∈ infos.map (·.volumeId) then none else storage volumeId := by
    intro infos
    induction infos with
    | nil => simp
    | cons info infos ih =>
      intro storage
      rw [List.foldl_cons, ih, List.map_cons, Function.update_apply]
      by_cases hv : volumeId = info.volumeId <;> simp [hv]
  rw [sweep, hfold]
  refine if_congr ?_ rfl rfl
  simp only [List.mem_map, List.mem_filterMap, List.mem_filter, existing_eq_some h,
    decide_eq_true_eq]
  constructor
  · rintro ⟨info, ⟨_, ⟨-, hgone⟩, hinfo, rfl⟩, rfl⟩
    exact ⟨info, hinfo, rfl, hgone⟩
  · rintro ⟨info, hinfo, rfl, hgone⟩
    exact ⟨info, ⟨_, ⟨⟨info, hinfo, rfl⟩, hgone⟩, hinfo, rfl⟩, rfl⟩

end

/-- The volumes of before are there, and no two entries share a disk or a volume. -/
structure Consistent (volumesInfo : List VolumeInfo) (storage : Storage) : Prop where
  disks : (volumesInfo.map (·.diskId)).Nodup
  volumes : (volumesInfo.map (·.volumeId)).Nodup
  present : ∀ info ∈ volumesInfo, (storage info.volumeId).isSome

def IsNew (volumesInfo : List VolumeInfo) (disk : Disk × Nat) : Prop :=
  ∀ info ∈ volumesInfo, info.diskId ≠ disk.1.key disk.2

/-- The ids of the disks are distinct, and a disk without an id and a path is a new one. No disk
has outgrown its volume. The size of a new disk is whole, and the name of its volume is free. -/
structure Manageable (call : Deploy) (volumesInfo : List VolumeInfo) (storage : Storage) :
    Prop where
  distinct : (call.disks.zipIdx.map fun disk => disk.1.key disk.2).Nodup
  identified : ∀ disk ∈ call.disks.zipIdx, disk.1.id = none → disk.1.path = none →
    IsNew volumesInfo disk
  fits : ∀ disk ∈ call.disks.zipIdx, ∀ info ∈ volumesInfo, info.diskId = disk.1.key disk.2 →
    ∀ size, storage info.volumeId = some size → disk.1.sizeBytes ≤ size
  whole : ∀ disk ∈ call.disks.zipIdx, IsNew volumesInfo disk → Whole disk.1.sizeBytes
  free : ∀ disk ∈ call.disks.zipIdx, IsNew volumesInfo disk →
    storage ⟨call.storage, call.targetVmid, disk.2⟩ = none

section

variable {call : Deploy} {volumesInfo newVolumesInfo : List VolumeInfo}
  {storage newStorage : Storage}

lemma ready_of_manageable (hconsistent : Consistent volumesInfo storage)
    (hcall : Manageable call volumesInfo storage) :
    Ready call volumesInfo call.disks.zipIdx storage := by
  constructor
  · intro disk _ info hinfo
    exact hconsistent.present info ((existing_eq_some hconsistent.disks).mp hinfo).1
  · intro disk hdisk hnone
    have hnew := existing_eq_none.mp hnone
    exact ⟨hcall.free disk hdisk hnew, hcall.whole disk hdisk hnew⟩

lemma gone_iff (hcall : Manageable call volumesInfo storage) (hinfo : info ∈ volumesInfo)
    : some info.diskId ∉ currentDiskIds call.disks ↔
      info.diskId ∉ call.disks.zipIdx.map fun disk => disk.1.key disk.2 := by
  rw [currentDiskIds, ← Indexed.map_fst]
  refine not_congr ?_
  simp only [List.mem_map]
  refine exists_congr fun disk => and_congr_right fun hdisk => ?_
  rcases hid : disk.1.id with - | id
  · rcases hpath : disk.1.path with - | path
    · have hne := hcall.identified disk hdisk hid hpath info hinfo
      simp [hne.symm]
    · simp [Disk.key, hid, hpath]
  · simp [Disk.key, hid]

variable {disk disk' : Disk × Nat}

lemma Entry.volumeId_of_old (hconsistent : Consistent volumesInfo storage)
    (h : Entry call volumesInfo disk info) (hold : old ∈ volumesInfo)
    (hid : old.diskId = disk.1.key disk.2) :
    info.volumeId = old.volumeId := by
  rw [h.2, (existing_eq_some hconsistent.disks).mpr ⟨hold, hid⟩]
  rfl

lemma Entry.volumeId_of_new (h : Entry call volumesInfo disk info) (hnew : IsNew volumesInfo disk) :
    info.volumeId = call.volume disk.2 := by
  rw [h.2, existing_eq_none.mpr hnew]
  rfl

lemma Entry.diskId_eq (hconsistent : Consistent volumesInfo storage)
    (hcall : Manageable call volumesInfo storage) (hdisk : disk ∈ call.disks.zipIdx)
    (hdisk' : disk' ∈ call.disks.zipIdx) (h : Entry call volumesInfo disk info)
    (h' : Entry call volumesInfo disk' info') (heq : info.volumeId = info'.volumeId) :
    info.diskId = info'.diskId := by
  have hfresh : ∀ {d d' : Disk × Nat} {i i' : VolumeInfo}, d ∈ call.disks.zipIdx →
      Entry call volumesInfo d i → Entry call volumesInfo d' i' → IsNew volumesInfo d →
      ¬ IsNew volumesInfo d' → i.volumeId ≠ i'.volumeId := by
    intro d d' i i' hd he he' hnew hold heq
    simp only [IsNew, not_forall, not_not] at hold
    obtain ⟨old, hmem, hid⟩ := hold
    have hpresent := hconsistent.present old hmem
    rw [← he'.volumeId_of_old hconsistent hmem hid, ← heq, he.volumeId_of_new hnew,
      Deploy.volume, hcall.free d hd hnew] at hpresent
    simp at hpresent
  rw [h.1, h'.1]
  by_cases hnew : IsNew volumesInfo disk <;> by_cases hnew' : IsNew volumesInfo disk'
  · rw [h.volumeId_of_new hnew, h'.volumeId_of_new hnew'] at heq
    have hindex : disk.2 = disk'.2 := congrArg VolumeId.index heq
    rw [Indexed.eq_of_index_eq hdisk hdisk' hindex]
  · exact absurd heq (hfresh hdisk h h' hnew hnew')
  · exact absurd heq.symm (hfresh hdisk' h' h hnew' hnew)
  · simp only [IsNew, not_forall, not_not] at hnew hnew'
    obtain ⟨old, hmem, hid⟩ := hnew
    obtain ⟨old', hmem', hid'⟩ := hnew'
    rw [h.volumeId_of_old hconsistent hmem hid, h'.volumeId_of_old hconsistent hmem' hid'] at heq
    rw [← hid, ← hid', List.inj_on_of_nodup_map hconsistent.volumes hmem hmem' heq]

/-- What the loop over the disks leaves: an entry for each disk, the volumes of the new ones, and
what was there before. -/
structure Created (call : Deploy) (volumesInfo : List VolumeInfo) (storage : Storage)
    (infos : List VolumeInfo) (storage₁ : Storage) : Prop where
  entries : List.Forall₂ (Entry call volumesInfo) call.disks.zipIdx infos
  new : ∀ disk ∈ call.disks.zipIdx, IsNew volumesInfo disk →
    ∃ bytes : Nat, disk.1.sizeBytes ≤ bytes ∧ storage₁ (call.volume disk.2) = some bytes
  old : ∀ volumeId, (storage volumeId).isSome → storage₁ volumeId = storage volumeId

lemma exists_created (hconsistent : Consistent volumesInfo storage)
    (hcall : Manageable call volumesInfo storage) :
    ∃ infos storage₁,
      deployDisks call volumesInfo call.disks.zipIdx storage = .ok infos storage₁ ∧
        Created call volumesInfo storage infos storage₁ := by
  obtain ⟨infos, storage₁, hrun, hentries, hcreated, hold⟩ :=
    deployDisks_spec (ready_of_manageable hconsistent hcall) Indexed.nodup_index
  exact ⟨infos, storage₁, hrun, hentries,
    fun disk hdisk hnew => hcreated disk hdisk (existing_eq_none.mpr hnew), hold⟩

namespace Created

variable {storage₁ : Storage} (h : Created call volumesInfo storage infos storage₁)

include h

lemma ids :
    call.disks.zipIdx.map (fun disk => disk.1.key disk.2) = infos.map (·.diskId) :=
  Indexed.map_eq_map h.entries fun _ _ hentry => hentry.1.symm

variable (hconsistent : Consistent volumesInfo storage)
  (hcall : Manageable call volumesInfo storage)

include hconsistent hcall

lemma sweep_apply (volumeId : VolumeId) :
    sweep call.disks volumesInfo storage₁ volumeId =
      if ∃ info ∈ volumesInfo, info.volumeId = volumeId ∧ info.diskId ∉ infos.map (·.diskId)
      then none else storage₁ volumeId := by
  rw [Proxmox.sweep_apply hconsistent.disks]
  refine if_congr (exists_congr fun info => and_congr_right fun hinfo => ?_) rfl rfl
  rw [gone_iff hcall hinfo, h.ids]

lemma sized (hdisk : disk ∈ call.disks.zipIdx) (hinfo : info ∈ infos)
    (hentry : Entry call volumesInfo disk info) :
    ∃ size, sweep call.disks volumesInfo storage₁ info.volumeId = some size ∧
      disk.1.sizeBytes ≤ (size : Nat) := by
  by_cases hnew : IsNew volumesInfo disk
  · obtain ⟨bytes, hbytes, hsize⟩ := h.new disk hdisk hnew
    rw [hentry.volumeId_of_new hnew]
    refine ⟨bytes, ?_, hbytes⟩
    rw [h.sweep_apply hconsistent hcall, if_neg, hsize]
    -- the name of the new volume was free, so it is not one of the old ones
    rintro ⟨old, hold, heq, -⟩
    have hpresent := hconsistent.present old hold
    rw [heq, Deploy.volume, hcall.free disk hdisk hnew] at hpresent
    simp at hpresent
  · simp only [IsNew, not_forall, not_not] at hnew
    obtain ⟨old, hold, hid⟩ := hnew
    obtain ⟨size, hsize⟩ := Option.isSome_iff_exists.mp (hconsistent.present old hold)
    rw [hentry.volumeId_of_old hconsistent hold hid]
    refine ⟨size, ?_, hcall.fits disk hdisk old hold hid size hsize⟩
    rw [h.sweep_apply hconsistent hcall, if_neg, h.old _ (hconsistent.present old hold), hsize]
    rintro ⟨old', hold', heq, habsent⟩
    obtain rfl := List.inj_on_of_nodup_map hconsistent.volumes hold' hold heq
    exact habsent (List.mem_map.mpr ⟨info, hinfo, hentry.1.trans hid.symm⟩)

lemma tracks : Tracks call volumesInfo storage infos (sweep call.disks volumesInfo storage₁) := by
  refine ⟨?_, ?_, ?_⟩
  · exact Indexed.imp_of_mem h.entries fun disk hdisk info hinfo hentry =>
      ⟨hentry.1, h.sized hconsistent hcall hdisk hinfo hentry⟩
  · intro info hinfo newInfo hnewInfo hid
    obtain ⟨disk, -, hentry⟩ := Indexed.exists_of_mem_right h.entries hnewInfo
    exact hentry.volumeId_of_old hconsistent hinfo (hid.symm.trans hentry.1)
  · intro volumeId hsome
    rw [h.sweep_apply hconsistent hcall, h.old volumeId hsome]
    split
    · next hswept => exact iff_of_true rfl hswept
    · next hswept => exact iff_of_false (Option.isSome_iff_ne_none.mp hsome) hswept

lemma consistent : Consistent infos (sweep call.disks volumesInfo storage₁) := by
  have hdistinct := h.ids ▸ hcall.distinct
  refine ⟨hdistinct, ?_, ?_⟩
  · rw [List.Nodup, List.pairwise_map] at hdistinct ⊢
    refine hdistinct.imp_of_mem fun {a b} ha hb hne heq => hne ?_
    obtain ⟨disk, hdisk, hentry⟩ := Indexed.exists_of_mem_right h.entries ha
    obtain ⟨disk', hdisk', hentry'⟩ := Indexed.exists_of_mem_right h.entries hb
    exact hentry.diskId_eq hconsistent hcall hdisk hdisk' hentry' heq
  · intro info hinfo
    obtain ⟨disk, hdisk, hentry⟩ := Indexed.exists_of_mem_right h.entries hinfo
    obtain ⟨size, hsize, -⟩ := h.sized hconsistent hcall hdisk hinfo hentry
    rw [hsize]
    rfl

end Created

/-- A call that is manageable returns, its volumes track the disks, and they are consistent again. -/
lemma deployReplicaDisks_spec (hconsistent : Consistent volumesInfo storage)
    (hcall : Manageable call volumesInfo storage) :
    ∃ newVolumesInfo newStorage,
      deployReplicaDisks call volumesInfo storage = .ok newVolumesInfo newStorage ∧
      Tracks call volumesInfo storage newVolumesInfo newStorage ∧
      Consistent newVolumesInfo newStorage := by
  obtain ⟨infos, storage₁, hrun, hcreated⟩ := exists_created hconsistent hcall
  refine ⟨infos, sweep call.disks volumesInfo storage₁, ?_, hcreated.tracks hconsistent hcall,
    hcreated.consistent hconsistent hcall⟩
  rw [deployReplicaDisks, bind_of_ok hrun]
  rfl

end

/-- The volumes and the storage after calls that were manageable, each of which received the volumes
of the one before. -/
inductive Reached (start : Storage) : List VolumeInfo → Storage → Prop where
  | start : Reached start [] start
  | call {volumesInfo newVolumesInfo : List VolumeInfo} {storage newStorage : Storage}
      (call : Deploy) (h : Reached start volumesInfo storage)
      (hcall : Manageable call volumesInfo storage)
      (hrun : deployReplicaDisks call volumesInfo storage = .ok newVolumesInfo newStorage) :
      Reached start newVolumesInfo newStorage

lemma Reached.consistent {start storage : Storage} (h : Reached start volumesInfo storage)
    : Consistent volumesInfo storage := by
  induction h with
  | start => exact ⟨by simp, by simp, by simp⟩
  | call call _ hcall hrun ih =>
    obtain ⟨infos, storage', hrun', -, hconsistent⟩ := deployReplicaDisks_spec ih hcall
    cases hrun.symm.trans hrun'
    exact hconsistent

/-- After any sequence of manageable calls, the next one returns and its volumes track the disks. -/
theorem tracks_of_reached {start storage : Storage} {volumesInfo : List VolumeInfo}
    (h : Reached start volumesInfo storage) {call : Deploy}
    (hcall : Manageable call volumesInfo storage) :
    ∃ newVolumesInfo newStorage,
      deployReplicaDisks call volumesInfo storage = .ok newVolumesInfo newStorage ∧
      Tracks call volumesInfo storage newVolumesInfo newStorage := by
  obtain ⟨infos, storage', hrun, htracks, -⟩ := deployReplicaDisks_spec h.consistent hcall
  exact ⟨infos, storage', hrun, htracks⟩

def twoDisks : Deploy :=
  ⟨"local-lvm", 100, [⟨some "a", none, 2 * 2 ^ 30⟩, ⟨some "b", none, 2 ^ 30⟩]⟩

def firstDisk : Deploy := ⟨"local-lvm", 100, [⟨some "a", none, 2 * 2 ^ 30⟩]⟩

def twoVolumes : List VolumeInfo :=
  [⟨"a", ⟨"local-lvm", 100, 0⟩, 100⟩, ⟨"b", ⟨"local-lvm", 100, 1⟩, 100⟩]

lemma manageable_twoDisks : Manageable twoDisks [] fun _ => none := by
  refine ⟨by decide, fun _ _ _ _ => nofun, fun _ _ => nofun, ?_, fun _ _ _ => rfl⟩
  simp only [twoDisks, List.zipIdx_cons, List.forall_mem_cons]
  exact ⟨fun _ => .inr ⟨2, by decide, rfl⟩, fun _ => .inl (by decide), nofun⟩

/-- A second call, in which the first disk keeps its volume, and that of the other one is
deleted. -/
theorem tracks_of_second_call :
    ∃ storage, deployReplicaDisks twoDisks [] (fun _ => none) = .ok twoVolumes storage ∧
      (storage ⟨"local-lvm", 100, 1⟩).isSome ∧ ∃ newVolumesInfo newStorage,
        deployReplicaDisks firstDisk twoVolumes storage = .ok newVolumesInfo newStorage ∧
        Tracks firstDisk twoVolumes storage newVolumesInfo newStorage := by
  refine ⟨_, rfl, rfl, tracks_of_reached (.call twoDisks .start manageable_twoDisks rfl) ?_⟩
  have hnotNew : ∀ disk ∈ firstDisk.disks.zipIdx, ¬ IsNew twoVolumes disk := by
    simp [firstDisk, IsNew, twoVolumes, Disk.key]
  refine ⟨by decide, ?_, ?_, fun disk hdisk hnew => absurd hnew (hnotNew disk hdisk),
    fun disk hdisk hnew => absurd hnew (hnotNew disk hdisk)⟩
  · simp [firstDisk]
  · intro disk hdisk info hinfo hid size hsize
    obtain rfl := List.mem_singleton.mp hdisk
    rcases List.mem_pair.mp hinfo with rfl | rfl
    · cases hsize
      decide
    · exact absurd hid (by decide)

private def sizeAfter (result : EStateM.Result DeployError Storage (List VolumeInfo))
    (volumeId : VolumeId) : Option Nat :=
  match result with
  | .ok _ storage => storage volumeId
  | .error _ _ => none

/-- A disk of one and a half gigabytes gets a volume of one. A disk without an id and a path keeps
its volume in the second call, and that call deletes it. -/
theorem volumes_do_not_track :
    (let call : Deploy := ⟨"local-lvm", 100, [⟨some "disk", none, 3 * 2 ^ 29⟩]⟩
      ∃ storage, deployReplicaDisks call [] (fun _ => none) =
          .ok [⟨"disk", ⟨"local-lvm", 100, 0⟩, 100⟩] storage ∧
        storage ⟨"local-lvm", 100, 0⟩ = some (2 ^ 30) ∧
        ¬ Tracks call [] (fun _ => none) [⟨"disk", ⟨"local-lvm", 100, 0⟩, 100⟩] storage) ∧
    (let call : Deploy := ⟨"local-lvm", 100, [⟨none, none, 2 ^ 30⟩]⟩
      let volumesInfo := [⟨"disk-0", ⟨"local-lvm", 100, 0⟩, 100⟩]
      ∃ storage newStorage,
        deployReplicaDisks call [] (fun _ => none) = .ok volumesInfo storage ∧
        deployReplicaDisks call volumesInfo storage = .ok volumesInfo newStorage ∧
        newStorage ⟨"local-lvm", 100, 0⟩ = none ∧
        ¬ Tracks call volumesInfo storage volumesInfo newStorage) := by
  constructor
  · refine ⟨_, rfl, ?_⟩
    have hsize : sizeAfter (deployReplicaDisks
        ⟨"local-lvm", 100, [⟨some "disk", none, 3 * 2 ^ 29⟩]⟩ [] fun _ => none)
        ⟨"local-lvm", 100, 0⟩ = some (2 ^ 30) := by decide
    refine ⟨hsize, fun h => ?_⟩
    obtain ⟨⟨-, size, hsize', hle⟩, -⟩ := List.forall₂_cons.mp h.entries
    obtain rfl := Option.some.inj (hsize.symm.trans hsize')
    cases hle
  · refine ⟨_, _, rfl, rfl, rfl, fun h => ?_⟩
    obtain ⟨⟨-, size, hsize, -⟩, -⟩ := List.forall₂_cons.mp h.entries
    cases hsize

end Coriolis.Providers.Proxmox

import Mathlib.Data.List.Infix
import Mathlib.Data.List.Nodup
import Mathlib.Data.List.Perm.Basic

/-!
# The disks of a VM during OS morphing

`deploy_os_morphing_resources` moves the disks of the target VM to a minion, and
`delete_os_morphing_resources` moves them back. All calls of the hypervisors succeed here.
-/

namespace Coriolis.Providers

/-- The disks of a VM in order, and those among them it boots from. -/
structure Layout (δ : Type) where
  disks : List δ
  boot : List δ
  deriving DecidableEq

/-- The layouts of the minion during OS morphing, of the minion when it is deleted, and of the
target VM in the end. -/
structure Morphed (δ : Type) where
  minion : Layout δ
  deleted : Layout δ
  target : Layout δ
  deriving DecidableEq

/-- The minion has all and only the disks of the target VM besides its own one, which it keeps, and
the target VM gets its disks back as they were. -/
structure Preserved {δ : Type} (own : δ) (before : Layout δ) (morphed : Morphed δ) : Prop where
  attached : morphed.minion.disks.Perm (own :: before.disks)
  kept : own ∈ morphed.deleted.disks
  restored : morphed.target = before

namespace OLVM

@[ext]
structure Attachment where
  disk : Nat
  bootable : Bool
  deriving DecidableEq

def layout (vm : List Attachment) : Layout Nat where
  disks := vm.map (·.disk)
  boot := (vm.filter (·.bootable)).map (·.disk)

/-- `os_morphing_resources`. -/
structure MorphingResources where
  bootDiskId : Option Nat
  targetDiskIds : List Nat

/-- The two VMs and what is recorded about the disks. -/
structure Morphing where
  resources : MorphingResources
  target : List Attachment
  minion : List Attachment

def detach (vm : List Attachment) (disk : Nat) : List Attachment := vm.filter (·.disk ≠ disk)

def attach (vm : List Attachment) (disk : Nat) (bootable : Bool) : List Attachment :=
  vm ++ [⟨disk, bootable⟩]

def moveToMinion (morphing : Morphing) (attachment : Attachment) : Morphing where
  resources := {
    bootDiskId :=
      if attachment.bootable then some attachment.disk else morphing.resources.bootDiskId
    targetDiskIds := morphing.resources.targetDiskIds ++ [attachment.disk] }
  target := detach morphing.target attachment.disk
  minion := attach morphing.minion attachment.disk false

/-- `deploy_os_morphing_resources`. -/
def deployOsMorphingResources (target minion : List Attachment) : Morphing :=
  target.foldl moveToMinion ⟨⟨none, []⟩, target, minion⟩

def MorphingResources.bootable (resources : MorphingResources) (disk : Nat) : Bool :=
  match resources.bootDiskId with
  | some bootDiskId => disk = bootDiskId
  | none => true

/-- One disk of the minion is moved to the target VM, unless it is the minion's own. -/
def moveToTarget (morphing : Morphing) (attachment : Attachment) : Morphing :=
  let resources := morphing.resources
  if resources.targetDiskIds ≠ [] ∧ attachment.disk ∉ resources.targetDiskIds then morphing
  else { morphing with
    minion := detach morphing.minion attachment.disk
    target := attach morphing.target attachment.disk (resources.bootable attachment.disk) }

/-- `delete_os_morphing_resources`, up to the deletion of the minion. -/
def deleteOsMorphingResources (morphing : Morphing) : Morphing :=
  morphing.minion.foldl moveToTarget morphing

/-- OS morphing with a minion that has one disk, from which it boots. -/
def morph (own : Nat) (target : List Attachment) : Morphed Nat :=
  let deployed := deployOsMorphingResources target [⟨own, true⟩]
  let final := deleteOsMorphingResources deployed
  ⟨layout deployed.minion, layout final.minion, layout final.target⟩

section

variable {morphing : Morphing}

@[simp]
lemma disks_cons (attachment : Attachment) :
    (layout (attachment :: vm)).disks = attachment.disk :: (layout vm).disks := rfl

lemma boot_cons (attachment : Attachment) :
    (layout (attachment :: vm)).boot =
      if attachment.bootable then attachment.disk :: (layout vm).boot else (layout vm).boot := by
  cases hboot : attachment.bootable <;> simp [layout, hboot]

lemma detach_foldl (disks : List Nat) :
    disks.foldl detach vm = vm.filter (·.disk ∉ disks) := by
  induction disks generalizing vm with
  | nil => simp
  | cons disk disks ih =>
    rw [List.foldl_cons, ih, detach, List.filter_filter]
    refine List.filter_congr fun attachment _ => ?_
    simp [Bool.and_comm]

lemma moveToMinion_foldl (l : List Attachment) :
    l.foldl moveToMinion morphing =
      ⟨⟨(layout l).boot.getLast?.or morphing.resources.bootDiskId,
          morphing.resources.targetDiskIds ++ (layout l).disks⟩,
        (layout l).disks.foldl detach morphing.target,
        morphing.minion ++ l.map fun attachment => ⟨attachment.disk, false⟩⟩ := by
  induction l generalizing morphing with
  | nil => simp [layout]
  | cons attachment l ih =>
    have hboot : (layout l).boot.getLast?.or (moveToMinion morphing attachment).resources.bootDiskId
        = (layout (attachment :: l)).boot.getLast?.or morphing.resources.bootDiskId := by
      rw [boot_cons]
      cases hbootable : attachment.bootable with
      | false => simp [moveToMinion, hbootable]
      | true =>
        cases hlast : (layout l).boot.getLast? <;>
          simp [moveToMinion, hbootable, List.getLast?_cons, hlast]
    rw [List.foldl_cons, ih, hboot]
    simp [moveToMinion, attach]

lemma moveToTarget_foldl (morphing : Morphing) (l : List Attachment)
    (hl : ∀ attachment ∈ l, attachment.disk ∈ morphing.resources.targetDiskIds) :
    l.foldl moveToTarget morphing =
      { morphing with
        minion := (layout l).disks.foldl detach morphing.minion
        target := morphing.target ++ l.map fun attachment =>
          ⟨attachment.disk, morphing.resources.bootable attachment.disk⟩ } := by
  induction l generalizing morphing with
  | nil => simp [layout]
  | cons attachment l ih =>
    rw [List.forall_mem_cons] at hl
    have hmove : moveToTarget morphing attachment = { morphing with
        minion := detach morphing.minion attachment.disk
        target := attach morphing.target attachment.disk
          (morphing.resources.bootable attachment.disk) } :=
      if_neg (by simp [hl.1])
    rw [List.foldl_cons, hmove, ih]
    · simp [attach]
    · exact hl.2

lemma deployOsMorphingResources_eq (minion : List Attachment) :
    deployOsMorphingResources target minion =
      ⟨⟨(layout target).boot.getLast?, (layout target).disks⟩, [],
        minion ++ target.map fun attachment => ⟨attachment.disk, false⟩⟩ := by
  have hnone : (layout target).disks.foldl detach target = [] := by
    rw [detach_foldl, List.filter_eq_nil_iff]
    intro attachment hmem
    simpa [layout] using ⟨attachment, hmem, rfl⟩
  rw [deployOsMorphingResources, moveToMinion_foldl, hnone]
  simp

lemma morph_of_ne_nil (hne : target ≠ []) (hown : own ∉ (layout target).disks) :
    morph own target =
      ⟨⟨own :: (layout target).disks, [own]⟩, layout [⟨own, true⟩],
        layout (target.map fun attachment => ⟨attachment.disk,
          MorphingResources.bootable ⟨(layout target).boot.getLast?, (layout target).disks⟩
            attachment.disk⟩)⟩ := by
  set moved : List Attachment := target.map fun attachment => ⟨attachment.disk, false⟩ with hmoved
  have hdisks : (layout moved).disks = (layout target).disks := by simp [layout, hmoved]
  have hnil : (layout target).disks ≠ [] := by simpa [layout] using hne
  have hskip (morphing : Morphing) (h : morphing.resources.targetDiskIds = (layout target).disks) :
      moveToTarget morphing ⟨own, true⟩ = morphing :=
    if_pos ⟨h ▸ hnil, h ▸ hown⟩
  have hback : ∀ attachment ∈ moved, attachment.disk ∈ (layout target).disks := by
    intro attachment hmem
    rw [← hdisks]
    exact List.mem_map_of_mem hmem
  have hkept : (layout moved).disks.foldl detach (⟨own, true⟩ :: moved) = [⟨own, true⟩] := by
    rw [detach_foldl, List.filter_cons_of_pos (by simpa [hdisks] using hown),
      List.filter_eq_nil_iff.mpr]
    intro attachment hmem
    simpa using hdisks ▸ hback attachment hmem
  have hminion : layout (⟨own, true⟩ :: moved) = ⟨own :: (layout target).disks, [own]⟩ := by
    simp [layout, hmoved]
  rw [morph, deployOsMorphingResources_eq, deleteOsMorphingResources]
  simp only [List.singleton_append, List.foldl_cons]
  rw [hskip _ rfl, moveToTarget_foldl _ _ hback, hkept, hminion]
  simp [Function.comp_def]

lemma bootable_iff_mem (hnodup : (layout target).disks.Nodup) (hmem : attachment ∈ target) :
    attachment.bootable = true ↔ attachment.disk ∈ (layout target).boot := by
  constructor
  · intro hbootable
    exact List.mem_map_of_mem (List.mem_filter.mpr ⟨hmem, hbootable⟩)
  · intro hboot
    obtain ⟨other, hother, heq⟩ := List.mem_map.mp hboot
    obtain ⟨hother, hbootable⟩ := List.mem_filter.mp hother
    rwa [← List.inj_on_of_nodup_map hnodup hother hmem heq]

lemma restored_of_boot (hnodup : (layout target).disks.Nodup)
    (hboot : (layout target).boot = [bootDiskId]) (ids : List Nat) :
    (target.map fun attachment =>
      ⟨attachment.disk, MorphingResources.bootable ⟨some bootDiskId, ids⟩ attachment.disk⟩)
      = target := by
  have hsame : ∀ attachment ∈ target,
      Attachment.mk attachment.disk (MorphingResources.bootable ⟨some bootDiskId, ids⟩
        attachment.disk) = attachment := by
    intro attachment hmem
    have hiff := bootable_iff_mem hnodup hmem
    rw [hboot, List.mem_singleton] at hiff
    cases hbootable : attachment.bootable <;>
      simp_all [MorphingResources.bootable, Attachment.ext_iff]
  rw [List.map_congr_left hsame, List.map_id']

lemma morph_preserved_iff (hnodup : (layout target).disks.Nodup)
    (hboot : (layout target).boot.length ≤ 1) (hown : own ∉ (layout target).disks) :
    Preserved own (layout target) (morph own target) ↔ (layout target).boot ≠ [] := by
  constructor
  · intro h hnone
    by_cases hne : target = []
    · subst hne
      exact absurd h.kept (by simp [morph, deployOsMorphingResources, deleteOsMorphingResources,
        moveToTarget, detach, layout])
    · have hrestored := congrArg Layout.boot h.restored
      rw [morph_of_ne_nil hne hown, hnone] at hrestored
      have hall : ∀ attachment, attachment ∉ target := by
        simpa [layout, MorphingResources.bootable, Function.comp_def] using hrestored
      exact hne (List.eq_nil_iff_forall_not_mem.mpr hall)
  · intro hsome
    obtain ⟨bootDiskId, hboot⟩ : ∃ bootDiskId, (layout target).boot = [bootDiskId] := by
      rw [← List.length_eq_one_iff]
      have := List.length_pos_iff.mpr hsome
      omega
    have hne : target ≠ [] := by
      rintro rfl
      simp [layout] at hboot
    rw [morph_of_ne_nil hne hown, hboot]
    refine ⟨.refl _, by simp [layout], ?_⟩
    exact congrArg layout (restored_of_boot hnodup hboot _)

end

end OLVM

namespace Proxmox

inductive Bus where
  | ide
  | sata
  | scsi
  | virtio
  deriving DecidableEq

def Bus.text : Bus → List Char
  | ide => ['i', 'd', 'e']
  | sata => ['s', 'a', 't', 'a']
  | scsi => ['s', 'c', 's', 'i']
  | virtio => ['v', 'i', 'r', 't', 'i', 'o']

/-- The keys of a VM's configuration: those of its drives, and others. -/
inductive Key where
  | slot (bus : Bus) (index : Nat)
  | net (index : Nat)
  | unused (index : Nat)
  | efidisk
  | scsihw
  deriving DecidableEq

def Key.text : Key → List Char
  | slot bus index => bus.text ++ Nat.toDigits 10 index
  | net index => ['n', 'e', 't'] ++ Nat.toDigits 10 index
  | unused index => ['u', 'n', 'u', 's', 'e', 'd'] ++ Nat.toDigits 10 index
  | efidisk => ['e', 'f', 'i', 'd', 'i', 's', 'k', '0']
  | scsihw => ['s', 'c', 's', 'i', 'h', 'w']

def scsi (index : Nat) : Key := .slot .scsi index

/-- The value of a key: for a drive the volume id, which ends at the first comma, and whether the
options after it make it a CD-ROM. -/
structure Item where
  volumeId : String
  cdrom : Bool
  deriving DecidableEq

structure Config where
  items : List (Key × Item)
  bootOrder : List Key

def disk : Key × Item → Option String
  | (.slot _ _, item) => if item.cdrom then none else some item.volumeId
  | _ => none

def Config.layout (config : Config) : Layout String where
  disks := config.items.filterMap disk
  boot := config.bootOrder.filterMap fun key =>
    (config.items.lookup key).bind fun item => disk (key, item)

def Config.set (config : Config) (key : Key) (volumeId : String) : Config :=
  if key ∈ config.items.map (·.1) then
    { config with items := config.items.map fun item =>
        if item.1 = key then (key, ⟨volumeId, false⟩) else item }
  else { config with items := config.items ++ [(key, ⟨volumeId, false⟩)] }

def Config.delete (config : Config) (keys : List Key) : Config :=
  { config with items := config.items.filter (·.1 ∉ keys) }

def Config.setVolumes (config : Config) (start : Nat) : List String → Config
  | [] => config
  | volumeId :: volumeIds =>
    (config.set (scsi start) volumeId).setVolumes (start + 1) volumeIds

/-- `key.startswith("scsi")`. -/
def startsWithScsi (key : Key) : Bool := ['s', 'c', 's', 'i'].isPrefixOf key.text

/-- The keys that `deploy_os_morphing_resources` takes for those of disks:
`key.startswith("scsi") and "disk" in key`. -/
def isDiskKey (key : Key) : Bool :=
  startsWithScsi key && decide (['d', 'i', 's', 'k'] <:+: key.text)

/-- `os_morphing_resources`, and the two VMs. -/
structure Morphing where
  bootDiskId : Option String
  targetDiskIds : List String
  target : Config
  minion : Config

/-- `deploy_os_morphing_resources`. -/
def deployOsMorphingResources (target minion : Config) : Morphing :=
  let found := target.items.filter fun item => isDiskKey item.1
  let targetDiskIds := found.map (·.2.volumeId)
  { bootDiskId := ((found.filter (·.1 = scsi 0)).map (·.2.volumeId)).getLast?
    targetDiskIds := targetDiskIds
    target := if found = [] then target else target.delete (found.map (·.1))
    minion := minion.setVolumes 1 targetDiskIds }

/-- `delete_os_morphing_resources`, up to the deletion of the minion. -/
def deleteOsMorphingResources (morphing : Morphing) : Morphing :=
  let keys := morphing.minion.items.map (·.1)
  let toDelete := keys.filter fun key => startsWithScsi key && key ≠ scsi 0
  { morphing with
    minion := if toDelete = [] then morphing.minion else morphing.minion.delete toDelete
    target := { morphing.target.setVolumes 0 morphing.targetDiskIds with bootOrder := [scsi 0] } }

/-- OS morphing with a minion whose own disk is at `scsi0`, with other keys that are not drives. -/
def morph (own : String) (others : List (Key × Item)) (target : Config) : Morphed String :=
  let deployed := deployOsMorphingResources target ⟨(scsi 0, ⟨own, false⟩) :: others, [scsi 0]⟩
  let final := deleteOsMorphingResources deployed
  ⟨deployed.minion.layout, final.minion.layout, final.target.layout⟩

section

variable {target : Config}

lemma not_mem_slot_text (bus : Bus) (index : Nat) : 'k' ∉ (Key.slot bus index).text := by
  rw [Key.text, List.mem_append, not_or]
  constructor
  · cases bus <;> decide
  · intro hmem
    exact absurd (Nat.isDigit_of_mem_toDigits (by decide) (by decide) hmem) (by decide)

lemma not_isDiskKey (key : Key) : isDiskKey key = false := by
  cases key with
  | slot bus index =>
    have hdisk : ¬ ['d', 'i', 's', 'k'] <:+: (Key.slot bus index).text := fun h =>
      not_mem_slot_text bus index (h.subset (by decide))
    simp [isDiskKey, hdisk]
  | net index | unused index | efidisk => rfl
  | scsihw => decide

lemma deployOsMorphingResources_eq (minion : Config) :
    deployOsMorphingResources target minion = ⟨none, [], target, minion⟩ := by
  have hnone : target.items.filter (fun item => isDiskKey item.1) = [] := by
    simp [not_isDiskKey]
  simp [deployOsMorphingResources, hnone, Config.setVolumes]

lemma boot_eq_nil {config : Config} (h : config.layout.disks = []) : config.layout.boot = [] := by
  simp only [Config.layout, List.filterMap_eq_nil_iff] at h ⊢
  intro key _
  rw [Option.bind_eq_none_iff]
  intro item hitem
  obtain ⟨before, after, hitems, -⟩ := List.lookup_eq_some_iff.mp hitem
  exact h (key, item) (by simp [hitems])

lemma morph_preserved_iff (hothers : others.filterMap disk = []) :
    Preserved own target.layout (morph own others target) ↔ target.layout.disks = [] := by
  rw [morph, deployOsMorphingResources_eq]
  set minion : Config := ⟨(scsi 0, ⟨own, false⟩) :: others, [scsi 0]⟩ with hminion
  have hdisks : minion.layout.disks = [own] := by
    simp [hminion, Config.layout, hothers, disk, scsi]
  constructor
  · intro h
    have hlength := h.attached.length_eq
    simpa [hdisks] using hlength
  · intro hnone
    refine ⟨by simp [hdisks, hnone], ?_, ?_⟩
    · have hmem : (scsi 0, (⟨own, false⟩ : Item)) ∈ minion.items := List.mem_cons_self
      refine List.mem_filterMap.mpr ⟨(scsi 0, ⟨own, false⟩), ?_, rfl⟩
      simp only [deleteOsMorphingResources]
      split
      · exact hmem
      · exact List.mem_filter.mpr ⟨hmem, by simp⟩
    · have hboot : ({ target with bootOrder := [scsi 0] } : Config).layout.boot = [] :=
        boot_eq_nil hnone
      calc ({ target with bootOrder := [scsi 0] } : Config).layout
          = ⟨target.layout.disks, []⟩ := by rw [← hboot]; rfl
        _ = target.layout := by rw [← boot_eq_nil hnone]

end

end Proxmox

namespace HyperV

/-- The drives of a VM, by path, and the one it boots from. -/
structure Drives where
  paths : List String
  boot : Option String
  deriving DecidableEq

def Drives.layout (vm : Drives) : Layout String := ⟨vm.paths, vm.boot.toList⟩

/-- The drive a VM boots from after a drive is attached, and after one is detached. Neither command
names it: the host chooses. -/
structure BootRule where
  attached : Drives → String → Option String
  detached : Drives → String → Option String

/-- A VM without a boot disk boots from the drive it gets, and one that loses its boot disk from
the first drive that is left. -/
structure BootRule.IsFirst (rule : BootRule) : Prop where
  attached : ∀ vm path, rule.attached vm path = vm.boot.or (some path)
  detached : ∀ vm path, rule.detached vm path =
    if vm.boot = some path then (vm.paths.filter (· ≠ path)).head? else vm.boot

/-- `_attach_disk_to_vm`. -/
def attach (rule : BootRule) (vm : Drives) (path : String) : Drives :=
  ⟨vm.paths ++ [path], rule.attached vm path⟩

/-- `_detach_disk_from_vm`. -/
def detach (rule : BootRule) (vm : Drives) (path : String) : Drives :=
  ⟨vm.paths.filter (· ≠ path), rule.detached vm path⟩

/-- `instance_deployment_info`. -/
structure DeploymentInfo where
  diskPaths : List String
  bootDiskPath : Option String

/-- `os_morphing_resources`, and the two VMs. -/
structure Morphing where
  bootDiskPath : Option String
  diskPaths : List String
  target : Drives
  minion : Drives

def orderedPaths (bootDiskPath : Option String) (diskPaths : List String) : List String :=
  match bootDiskPath.filter (· ≠ "") with
  | some path => if path ∈ diskPaths then path :: diskPaths.erase path else diskPaths
  | none => diskPaths

/-- `deploy_os_morphing_resources`. -/
def deployOsMorphingResources (rule : BootRule) (info : DeploymentInfo) (target minion : Drives) :
    Morphing :=
  let attached := target.paths.filter (· ≠ "")
  let diskPaths := if attached = [] then info.diskPaths else attached
  let bootDiskPath := (info.bootDiskPath.filter (· ≠ "")).or diskPaths.head?
  { bootDiskPath := bootDiskPath
    diskPaths := diskPaths
    target := diskPaths.foldl (detach rule) target
    minion := (orderedPaths bootDiskPath diskPaths).foldl (attach rule) minion }

/-- `delete_os_morphing_resources`, up to the deletion of the minion. -/
def deleteOsMorphingResources (rule : BootRule) (morphing : Morphing) : Morphing :=
  { morphing with
    minion := morphing.diskPaths.foldl (detach rule) morphing.minion
    target := (orderedPaths morphing.bootDiskPath morphing.diskPaths).foldl
      (attach rule) morphing.target }

def morph (rule : BootRule) (own : String) (info : DeploymentInfo) (target : Drives) :
    Morphed String :=
  let deployed := deployOsMorphingResources rule info target ⟨[own], some own⟩
  let final := deleteOsMorphingResources rule deployed
  ⟨deployed.minion.layout, final.minion.layout, final.target.layout⟩

section

variable {rule : BootRule} {paths diskPaths : List String} {bootDiskPath : Option String}

lemma foldl_attach (hrule : rule.IsFirst) :
    paths.foldl (attach rule) vm = ⟨vm.paths ++ paths, vm.boot.or paths.head?⟩ := by
  induction paths generalizing vm with
  | nil => simp
  | cons path paths ih =>
    rw [List.foldl_cons, ih]
    cases hboot : vm.boot <;> simp [attach, hrule.attached, hboot]

lemma foldl_detach_paths : (paths.foldl (detach rule) vm).paths = vm.paths.filter (· ∉ paths) := by
  induction paths generalizing vm with
  | nil => simp
  | cons path paths ih =>
    rw [List.foldl_cons, ih, detach, List.filter_filter]
    refine List.filter_congr fun _ _ => ?_
    simp [Bool.and_comm]

lemma detach_boot_mem (hrule : rule.IsFirst) (h : ∀ boot ∈ vm.boot, boot ∈ vm.paths) :
    ∀ boot ∈ (detach rule vm path).boot, boot ∈ (detach rule vm path).paths := by
  intro boot hboot
  simp only [detach, hrule.detached] at hboot ⊢
  split at hboot
  · exact List.mem_of_mem_head? hboot
  · next hne =>
    refine List.mem_filter.mpr ⟨h boot hboot, decide_eq_true ?_⟩
    rintro rfl
    exact hne hboot

lemma foldl_detach_eq (hrule : rule.IsFirst) (h : ∀ boot ∈ vm.boot, boot ∈ vm.paths)
    (hall : vm.paths ⊆ paths) : paths.foldl (detach rule) vm = ⟨[], none⟩ := by
  have hmem : ∀ boot ∈ (paths.foldl (detach rule) vm).boot,
      boot ∈ (paths.foldl (detach rule) vm).paths := by
    clear hall
    induction paths generalizing vm with
    | nil => exact h
    | cons path paths ih => exact ih (detach_boot_mem hrule h)
  have hpaths : (paths.foldl (detach rule) vm).paths = [] := by
    rw [foldl_detach_paths, List.filter_eq_nil_iff]
    intro path hpath
    simpa using hall hpath
  have hboot : (paths.foldl (detach rule) vm).boot = none := by
    rw [Option.eq_none_iff_forall_not_mem]
    intro boot hboot
    simpa [hpaths] using hmem boot hboot
  rw [← hpaths, ← hboot]

lemma orderedPaths_perm : (orderedPaths bootDiskPath diskPaths).Perm diskPaths := by
  unfold orderedPaths
  split
  · split
    · next hmem => exact (List.perm_cons_erase hmem).symm
    · exact .refl _
  · exact .refl _

lemma orderedPaths_eq_iff : orderedPaths bootDiskPath diskPaths = diskPaths ↔
    ∀ path ∈ bootDiskPath, path ≠ "" → path ∈ diskPaths → diskPaths.head? = some path := by
  cases bootDiskPath with
  | none => simp [orderedPaths]
  | some path =>
    by_cases hempty : path = ""
    · simp [orderedPaths, hempty, Option.filter]
    · by_cases hmem : path ∈ diskPaths
      · have hordered : orderedPaths (some path) diskPaths = path :: diskPaths.erase path := by
          simp [orderedPaths, hempty, hmem, Option.filter]
        rw [hordered]
        cases diskPaths with
        | nil => simp at hmem
        | cons first rest =>
          by_cases hfirst : first = path
          · simp [hfirst]
          · have hrest : path ∈ rest := (List.mem_cons.mp hmem).resolve_left (Ne.symm hfirst)
            simp [hfirst, hempty, hrest, Ne.symm hfirst]
      · simp [orderedPaths, hempty, hmem, Option.filter]

lemma morph_eq (hrule : rule.IsFirst) (hempty : "" ∉ target.paths)
    (hboot : ∀ boot ∈ target.boot, boot ∈ target.paths)
    (hdiskPaths : diskPaths = if target.paths = [] then info.diskPaths else target.paths)
    (hpath : bootDiskPath = (info.bootDiskPath.filter (· ≠ "")).or diskPaths.head?) :
    morph rule own info target =
      ⟨⟨own :: orderedPaths bootDiskPath diskPaths, [own]⟩,
        (diskPaths.foldl (detach rule)
          ⟨own :: orderedPaths bootDiskPath diskPaths, some own⟩).layout,
        ⟨orderedPaths bootDiskPath diskPaths,
          (orderedPaths bootDiskPath diskPaths).head?.toList⟩⟩ := by
  have hfilter : target.paths.filter (· ≠ "") = target.paths := by
    rw [List.filter_eq_self]
    intro path hpath
    refine decide_eq_true ?_
    rintro rfl
    exact hempty hpath
  have hall : target.paths ⊆ diskPaths := by
    by_cases hnone : target.paths = []
    · simp [hnone]
    · simp [hdiskPaths, hnone]
  simp only [morph, deployOsMorphingResources, deleteOsMorphingResources, hfilter, ← hdiskPaths,
    ← hpath, foldl_attach hrule, foldl_detach_eq hrule hboot hall]
  simp [Drives.layout]

lemma orderedPaths_recorded_iff (hempty : "" ∉ paths) :
    orderedPaths ((bootDiskPath.filter (· ≠ "")).or paths.head?) paths = paths ↔
      ∀ path ∈ bootDiskPath, path ∈ paths → paths.head? = some path := by
  rw [orderedPaths_eq_iff]
  constructor
  · intro h path hpath hmem
    have hne : path ≠ "" := by
      rintro rfl
      exact hempty hmem
    have hfilter : bootDiskPath.filter (· ≠ "") = some path := by
      rw [Option.mem_def.mp hpath]
      simp [Option.filter, hne]
    exact h path (by rw [hfilter]; rfl) hne hmem
  · intro h path hpath _ hmem
    cases hfilter : bootDiskPath.filter (· ≠ "") with
    | none => rwa [hfilter] at hpath
    | some recorded =>
      rw [hfilter] at hpath
      obtain rfl : recorded = path := Option.some.inj hpath
      exact h recorded (Option.filter_eq_some_iff.mp hfilter).1 hmem

lemma morph_preserved_iff (hrule : rule.IsFirst) (hempty : "" ∉ target.paths)
    (hboot : ∀ boot ∈ target.boot, boot ∈ target.paths) (hown : own ∉ target.paths) :
    Preserved own target.layout (morph rule own info target) ↔
      target.boot = target.paths.head? ∧
      (∀ path ∈ info.bootDiskPath, path ∈ target.paths → target.paths.head? = some path) ∧
      (target.paths = [] → info.diskPaths = []) := by
  set diskPaths := if target.paths = [] then info.diskPaths else target.paths with hdiskPaths
  set bootDiskPath := (info.bootDiskPath.filter (· ≠ "")).or diskPaths.head? with hpath
  rw [morph_eq hrule hempty hboot hdiskPaths hpath]
  by_cases hnone : target.paths = []
  · have hnoBoot : target.boot = none := by
      rw [Option.eq_none_iff_forall_not_mem]
      exact fun boot hmem => by simpa [hnone] using hboot boot hmem
    rw [if_pos hnone] at hdiskPaths
    constructor
    · intro h
      have hordered : (orderedPaths bootDiskPath diskPaths).Perm [] := by
        simpa [Drives.layout, hnone] using h.attached
      have hdisks := orderedPaths_perm.symm.trans hordered
      exact ⟨by simp [hnone, hnoBoot], by simp [hnone], fun _ => hdiskPaths ▸ hdisks.eq_nil⟩
    · intro h
      have hdisks : diskPaths = [] := hdiskPaths.trans (h.2.2 hnone)
      have hordered : orderedPaths bootDiskPath diskPaths = [] := by
        simpa [hdisks] using @orderedPaths_perm diskPaths bootDiskPath
      rw [hordered, hdisks]
      exact ⟨by simp [Drives.layout, hnone], by simp [Drives.layout],
        by simp [Drives.layout, hnone, hnoBoot]⟩
  · rw [if_neg hnone] at hdiskPaths
    rw [hdiskPaths] at hpath
    rw [hdiskPaths, hpath]
    have hiff := @orderedPaths_recorded_iff target.paths info.bootDiskPath hempty
    constructor
    · intro h
      obtain ⟨hordered, hhead⟩ := Layout.mk.inj h.restored
      rw [hordered] at hhead
      have hboot : target.paths.head? = target.boot := by simpa using congrArg List.head? hhead
      exact ⟨hboot.symm, hiff.mp hordered, fun h => absurd h hnone⟩
    · rintro ⟨hhead, hrecorded, -⟩
      rw [hiff.mpr hrecorded]
      refine ⟨.refl _, ?_, by rw [← hhead]; rfl⟩
      simp [Drives.layout, foldl_detach_paths, hown]

end

end HyperV

/-- The VMs whose disks OS morphing leaves as they were: with OLVM those with a boot disk, with
Proxmox those without disks, and with Hyper-V, on a host that boots a VM without its boot disk from
the first drive, those that boot from their first disk, unless the deployment has recorded another
one of their disks as the boot disk, or disks for a VM without. -/
theorem morphing_preserved_iff (disk : Nat) (attachments : List OLVM.Attachment) (own : String)
    (others : List (Proxmox.Key × Proxmox.Item)) (config : Proxmox.Config)
    (rule : HyperV.BootRule) (info : HyperV.DeploymentInfo) (drives : HyperV.Drives) :
    ((OLVM.layout attachments).disks.Nodup → (OLVM.layout attachments).boot.length ≤ 1 →
      disk ∉ (OLVM.layout attachments).disks →
      (Preserved disk (OLVM.layout attachments) (OLVM.morph disk attachments) ↔
        (OLVM.layout attachments).boot ≠ [])) ∧
    (others.filterMap Proxmox.disk = [] →
      (Preserved own config.layout (Proxmox.morph own others config) ↔
        config.layout.disks = [])) ∧
    (rule.IsFirst → "" ∉ drives.paths → (∀ boot ∈ drives.boot, boot ∈ drives.paths) →
      own ∉ drives.paths →
      (Preserved own drives.layout (HyperV.morph rule own info drives) ↔
        drives.boot = drives.paths.head? ∧
        (∀ path ∈ info.bootDiskPath, path ∈ drives.paths → drives.paths.head? = some path) ∧
        (drives.paths = [] → info.diskPaths = []))) :=
  ⟨OLVM.morph_preserved_iff, Proxmox.morph_preserved_iff, HyperV.morph_preserved_iff⟩

def firstDrive : HyperV.BootRule where
  attached := fun vm path => vm.boot.or (some path)
  detached := fun vm path =>
    if vm.boot = some path then (vm.paths.filter (· ≠ path)).head? else vm.boot

theorem morphing_preserved_of_boot :
    Preserved 9 ⟨[1, 2], [2]⟩ (OLVM.morph 9 [⟨1, false⟩, ⟨2, true⟩]) ∧
    Preserved "minion" ⟨[], []⟩ (Proxmox.morph "minion" [] ⟨[(.scsihw, ⟨"virtio", false⟩)], []⟩) ∧
    Preserved "minion" ⟨["a", "b"], ["a"]⟩
      (HyperV.morph firstDrive "minion" ⟨["r", "s"], some "a"⟩ ⟨["a", "b"], some "a"⟩) :=
  have ⟨holvm, hproxmox, hhyperv⟩ := morphing_preserved_iff 9 [⟨1, false⟩, ⟨2, true⟩] "minion" []
    ⟨[(.scsihw, ⟨"virtio", false⟩)], []⟩ firstDrive ⟨["r", "s"], some "a"⟩ ⟨["a", "b"], some "a"⟩
  ⟨(holvm (by decide) (by decide) (by decide)).mpr (by decide), (hproxmox rfl).mpr rfl,
    (hhyperv ⟨fun _ _ => rfl, fun _ _ => rfl⟩ (by decide) (by simp) (by decide)).mpr ⟨rfl, by simp, by simp⟩⟩

/-- With Proxmox, the disk of a VM at `scsi0` is never attached to the minion. With OLVM, the
minion's own disk is moved to a VM without disks, and the disks of a VM without a boot disk all
become bootable. With Hyper-V, a boot disk that is not the first one becomes the first. -/
theorem morphing_not_preserved :
    ¬ Preserved "minion" ⟨["d"], ["d"]⟩
      (Proxmox.morph "minion" [] ⟨[(Proxmox.scsi 0, ⟨"d", false⟩)], [Proxmox.scsi 0]⟩) ∧
    ¬ Preserved 9 ⟨[], []⟩ (OLVM.morph 9 []) ∧
    ¬ Preserved 9 ⟨[1, 2], []⟩ (OLVM.morph 9 [⟨1, false⟩, ⟨2, false⟩]) ∧
    ¬ Preserved "minion" ⟨["a", "b"], ["b"]⟩
      (HyperV.morph firstDrive "minion" ⟨[], some "b"⟩ ⟨["a", "b"], some "b"⟩) := by
  refine ⟨fun h => ?_, fun h => ?_, fun h => ?_, fun h => ?_⟩
  · exact absurd h.attached.length_eq (by decide)
  · exact absurd h.kept (by decide)
  · exact absurd h.restored (by decide)
  · exact absurd h.restored (by decide)

end Coriolis.Providers

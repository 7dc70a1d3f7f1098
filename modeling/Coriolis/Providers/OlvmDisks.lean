import Coriolis.Library.Indexed
import Coriolis.Providers.StorageMappings
import Mathlib.Data.Int.Order.Basic
import Mathlib.Order.Nat

/-!
# The replica disks of an OLVM instance

`deploy_replica_disks` of the OLVM provider keeps the disk of a source disk while it exists, makes it
larger if necessary and creates the others. It waits for a new disk for five minutes and goes on
whatever its status is. It deletes nothing, although the disks of removed source disks should go.
-/

namespace Coriolis.Providers.OLVM.Disks

/-- A disk of the export info. -/
structure ExportDisk where
  id : Option String
  path : Option String
  storageBackendIdentifier : Option String
  sizeBytes : Int

/-- A disk of the storage, with whether its status is OK. -/
structure StoredDisk where
  size : Int
  ok : Bool
  deriving DecidableEq

/-- The disks of the storage. Ids below `next` have been given out. -/
structure Storage where
  disks : Nat → Option StoredDisk
  next : Nat

structure Volume where
  diskId : String
  volumeId : Nat
  size : Int
  deriving DecidableEq

inductive DeployError where
  | keyError (key : String)
  | mapping (err : StorageMappingError)

/-- A call: the target environment, the disks to replicate, after how many polls a disk that is
created is OK, by its index, and whether a disk is OK after it has been resized. -/
structure Deploy where
  storageMappings : StorageMappings
  storageBackends : List String
  storageDomain : String
  disks : List ExportDisk
  pollsUntilOk : Nat → Nat
  okAfterResize : Nat → Bool

def ExportDisk.diskId (disk : ExportDisk) (index : Nat) : String :=
  disk.id.getD (disk.path.getD s!"disk-{index}")

/-- `existing`: the last entry of each disk. -/
def existing (volumesInfo : List Volume) : String → Option Volume :=
  Dict.ofPairs (volumesInfo.map fun v => (v.diskId, v))

def waitForDisk : Nat → Nat → Bool
  | 0, _ => false
  | _ + 1, 0 => true
  | polls + 1, untilOk + 1 => waitForDisk polls untilOk

section

variable (call : Deploy)

def Deploy.mapped (disk : ExportDisk) : Except DeployError Unit :=
  match disk.id with
  | none => .error (.keyError "id")
  | some id =>
    match getStorageMappingForDisk call.storageMappings ⟨.text id, disk.storageBackendIdentifier⟩
      call.storageBackends (some call.storageDomain) true true with
    | .error err => .error (.mapping err)
    | .ok _ => .ok ()

/-- `_ensure_disk_size`. -/
def Deploy.ensureDiskSize (volumeId : Nat) (size : Int) (s : Storage) : Storage :=
  match s.disks volumeId with
  | some d =>
    if d.size < size then
      ⟨Function.update s.disks volumeId (some ⟨size, call.okAfterResize volumeId⟩), s.next⟩
    else s
  | none => s

def Deploy.createDisk (index : Nat) (size : Int) (s : Storage) : Storage :=
  ⟨Function.update s.disks s.next (some ⟨size, waitForDisk 60 (call.pollsUntilOk index)⟩), s.next + 1⟩

/-- The body of the loop of `deploy_replica_disks`. -/
def Deploy.deployDisk (volumes : String → Option Volume) (disk : ExportDisk) (index : Nat)
    (s : Storage) : Except DeployError Volume × Storage :=
  let diskId := disk.diskId index
  match call.mapped disk with
  | .error err => (.error err, s)
  | .ok _ =>
    match (volumes diskId).filter fun old => (s.disks old.volumeId).isSome with
    | some old => (.ok { old with size := disk.sizeBytes },
        call.ensureDiskSize old.volumeId disk.sizeBytes s)
    | none => (.ok ⟨diskId, s.next, disk.sizeBytes⟩, call.createDisk index disk.sizeBytes s)

def Deploy.deployDisks (volumes : String → Option Volume) :
    List (ExportDisk × Nat) → Storage → Except DeployError (List Volume) × Storage
  | [], s => (.ok [], s)
  | (disk, index) :: disks, s =>
    match call.deployDisk volumes disk index s with
    | (.error err, s) => (.error err, s)
    | (.ok vol, s) =>
      let rest := deployDisks volumes disks s
      (rest.1.map (vol :: ·), rest.2)

/-- `deploy_replica_disks`. -/
def Deploy.deployReplicaDisks (volumesInfo : List Volume) :
    Storage → Except DeployError (List Volume) × Storage :=
  call.deployDisks (existing volumesInfo) call.disks.zipIdx

end

/-- The entry of a disk: its volume exists, is OK and large enough, and is the one it had if that
still existed. -/
def Entry (volumes : String → Option Volume) (s s' : Storage) (disk : ExportDisk × Nat)
    (v : Volume) : Prop :=
  v.diskId = disk.1.diskId disk.2 ∧
  (∃ d, s'.disks v.volumeId = some d ∧ d.ok ∧ disk.1.sizeBytes ≤ d.size) ∧
  ∀ old, volumes v.diskId = some old → (s.disks old.volumeId).isSome → v.volumeId = old.volumeId

/-- What a call should do: an entry for each disk, in order, and of the disks of the storage just
those are deleted that belonged to source disks that are gone. -/
def Deploy.Tracks (call : Deploy) (volumesInfo : List Volume) (s : Storage)
    (out : Except DeployError (List Volume) × Storage) : Prop :=
  (∃ infos, out.1 = .ok infos ∧
    List.Forall₂ (Entry (existing volumesInfo) s out.2) call.disks.zipIdx infos) ∧
  ∀ n, (s.disks n).isSome → (out.2.disks n = none ↔ ∃ old ∈ volumesInfo, old.volumeId = n ∧
    old.diskId ∉ call.disks.zipIdx.map fun d => d.1.diskId d.2)

def Keeps (volumes : String → Option Volume) (s : Storage) (disk : ExportDisk × Nat) (n : Nat) :
    Prop :=
  (s.disks n).isSome ∧ ∃ old, volumes (disk.1.diskId disk.2) = some old ∧ old.volumeId = n

/-- A new disk is OK in time. One that is kept is OK, after it has been resized if some disk needs
more of it. -/
def Deploy.DiskManageable (call : Deploy) (volumes : String → Option Volume) (s : Storage)
    (disk : ExportDisk × Nat) : Prop :=
  ((∀ n, ¬ Keeps volumes s disk n) → call.pollsUntilOk disk.2 < 60) ∧
  ∀ n d, Keeps volumes s disk n → s.disks n = some d →
    (∃ disk' ∈ call.disks.zipIdx, Keeps volumes s disk' n ∧ d.size < disk'.1.sizeBytes) ∧
      call.okAfterResize n ∨
    (∀ disk' ∈ call.disks.zipIdx, Keeps volumes s disk' n → disk'.1.sizeBytes ≤ d.size) ∧ d.ok

/-- The storage domains of the disks are found, and no disk is to be deleted. -/
structure Deploy.Manageable (call : Deploy) (volumesInfo : List Volume) (s : Storage) : Prop where
  mapped : ∀ disk ∈ call.disks.zipIdx, call.mapped disk.1 = .ok ()
  exported : ∀ old ∈ volumesInfo, (s.disks old.volumeId).isSome →
    old.diskId ∈ call.disks.zipIdx.map fun d => d.1.diskId d.2
  disks : ∀ disk ∈ call.disks.zipIdx, call.DiskManageable (existing volumesInfo) s disk

section

variable {call : Deploy} {volumes : String → Option Volume} {s : Storage}

lemma waitForDisk_eq (polls untilOk : Nat) : waitForDisk polls untilOk = decide (untilOk < polls) := by
  fun_induction waitForDisk polls untilOk with
  | case1 => simp
  | case2 => simp
  | case3 polls untilOk ih => simp [ih]

lemma keeps_congr (h : (s'.disks n).isSome = (s.disks n).isSome) :
    Keeps volumes s' disk n ↔ Keeps volumes s disk n := by
  rw [Keeps, h, Keeps]

/-- What the disks that keep a volume make of it. -/
structure Grown (call : Deploy) (volumes : String → Option Volume) (s : Storage)
    (disks : List (ExportDisk × Nat)) (n : Nat) (d d' : StoredDisk) : Prop where
  size : d.size ≤ d'.size
  sizes : ∀ disk ∈ disks, Keeps volumes s disk n → disk.1.sizeBytes ≤ d'.size
  status : (∃ disk ∈ disks, Keeps volumes s disk n ∧ d.size < disk.1.sizeBytes) ∧
      d'.ok = call.okAfterResize n ∨
    (∀ disk ∈ disks, Keeps volumes s disk n → disk.1.sizeBytes ≤ d.size) ∧ d' = d

def Deployed (call : Deploy) (volumes : String → Option Volume) (s s' : Storage)
    (disk : ExportDisk × Nat) (v : Volume) : Prop :=
  v.diskId = disk.1.diskId disk.2 ∧ (Keeps volumes s disk v.volumeId ∨
    (∀ n, ¬ Keeps volumes s disk n) ∧ s.next ≤ v.volumeId ∧
      s'.disks v.volumeId = some ⟨disk.1.sizeBytes, decide (call.pollsUntilOk disk.2 < 60)⟩)

lemma deployDisk_cases (hold : ∀ id old, volumes id = some old → old.diskId = id)
    (hmapped : call.mapped disk = .ok ()) (index : Nat) :
    (∃ v, Keeps volumes s (disk, index) v.volumeId ∧ v.diskId = disk.diskId index ∧
      call.deployDisk volumes disk index s =
        (.ok v, call.ensureDiskSize v.volumeId disk.sizeBytes s)) ∨
    (∀ n, ¬ Keeps volumes s (disk, index) n) ∧ call.deployDisk volumes disk index s =
      (.ok ⟨disk.diskId index, s.next, disk.sizeBytes⟩, call.createDisk index disk.sizeBytes s) := by
  unfold Deploy.deployDisk
  rw [hmapped]
  dsimp only
  split
  · next old hfilter =>
    obtain ⟨hsome, hfile⟩ := Option.filter_eq_some_iff.mp hfilter
    exact Or.inl ⟨{ old with size := disk.sizeBytes }, ⟨hfile, old, hsome, rfl⟩,
      hold _ old hsome, rfl⟩
  · next hfilter =>
    refine Or.inr ⟨fun n hn => ?_, rfl⟩
    obtain ⟨hfile, old, hsome, rfl⟩ := hn
    rw [hsome, Option.filter_some, if_pos hfile] at hfilter
    cases hfilter

lemma isSome_ensureDiskSize (call : Deploy) (s : Storage) (volumeId : Nat) (size : Int) (n : Nat) :
    ((call.ensureDiskSize volumeId size s).disks n).isSome = (s.disks n).isSome := by
  unfold Deploy.ensureDiskSize
  split
  · next d hd =>
    split
    · by_cases hn : n = volumeId <;> simp [hn, hd]
    · rfl
  · rfl

lemma next_ensureDiskSize (call : Deploy) (s : Storage) (volumeId : Nat) (size : Int) :
    (call.ensureDiskSize volumeId size s).next = s.next := by
  unfold Deploy.ensureDiskSize
  split
  · split <;> rfl
  · rfl

lemma Keeps.unique (h : Keeps volumes s disk n) (h' : Keeps volumes s disk n') : n = n' := by
  obtain ⟨-, old, hold, rfl⟩ := h
  obtain ⟨-, old', hold', rfl⟩ := h'
  cases hold.symm.trans hold'
  rfl

lemma Grown.cons (hs : (s₁.disks n).isSome = (s.disks n).isSome)
    (hd₁ : Keeps volumes s disk n ∧ d.size < disk.1.sizeBytes ∧
        d₁ = ⟨disk.1.sizeBytes, call.okAfterResize n⟩ ∨
      (Keeps volumes s disk n → disk.1.sizeBytes ≤ d.size) ∧ d₁ = d)
    (h : Grown call volumes s₁ disks n d₁ d') : Grown call volumes s (disk :: disks) n d d' := by
  obtain ⟨hsize, hsizes, hstatus⟩ := h
  simp only [keeps_congr hs] at hsizes hstatus
  rcases hd₁ with ⟨hkeeps, hlt, rfl⟩ | ⟨hle, rfl⟩
  · refine ⟨hlt.le.trans hsize, List.forall_mem_cons.mpr ⟨fun _ => hsize, hsizes⟩,
      Or.inl ⟨⟨disk, List.mem_cons_self, hkeeps, hlt⟩, ?_⟩⟩
    rcases hstatus with ⟨-, hok⟩ | ⟨-, rfl⟩
    · exact hok
    · rfl
  · refine ⟨hsize, List.forall_mem_cons.mpr ⟨fun hk => (hle hk).trans hsize, hsizes⟩, ?_⟩
    rcases hstatus with ⟨⟨disk', hmem, hlarger⟩, hok⟩ | ⟨hall, rfl⟩
    · exact Or.inl ⟨⟨disk', List.mem_cons_of_mem _ hmem, hlarger⟩, hok⟩
    · exact Or.inr ⟨List.forall_mem_cons.mpr ⟨hle, hall⟩, rfl⟩

lemma ensureDiskSize_eq_some (hkeeps : Keeps volumes s disk v) (hd : s.disks n = some d) :
    ∃ d₁, (call.ensureDiskSize v disk.1.sizeBytes s).disks n = some d₁ ∧
      (Keeps volumes s disk n ∧ d.size < disk.1.sizeBytes ∧
          d₁ = ⟨disk.1.sizeBytes, call.okAfterResize n⟩ ∨
        (Keeps volumes s disk n → disk.1.sizeBytes ≤ d.size) ∧ d₁ = d) := by
  by_cases hn : n = v
  · subst hn
    simp only [Deploy.ensureDiskSize, hd]
    split
    · next hlt => exact ⟨_, Function.update_self .., Or.inl ⟨hkeeps, hlt, rfl⟩⟩
    · next hle => exact ⟨d, hd, Or.inr ⟨fun _ => not_lt.mp hle, rfl⟩⟩
  · refine ⟨d, ?_, Or.inr ⟨fun h => absurd (h.unique hkeeps) hn, rfl⟩⟩
    unfold Deploy.ensureDiskSize
    split
    · split
      · exact (Function.update_of_ne hn ..).trans hd
      · exact hd
    · exact hd

lemma Deployed.congr (hs : ∀ n, Keeps volumes s₁ disk n ↔ Keeps volumes s disk n)
    (hnext : s.next ≤ s₁.next) (h : Deployed call volumes s₁ s' disk v) :
    Deployed call volumes s s' disk v := by
  refine ⟨h.1, h.2.imp (hs _).mp ?_⟩
  rintro ⟨hnew, hle, hdisk⟩
  exact ⟨fun n => mt (hs n).mpr (hnew n), hnext.trans hle, hdisk⟩

lemma deployDisks_spec (hold : ∀ id old, volumes id = some old → old.diskId = id ∧
      old.volumeId < bound) (hbound : bound ≤ s.next)
    (hmapped : ∀ disk ∈ disks, call.mapped disk.1 = .ok ()) :
    ∃ infos, (call.deployDisks volumes disks s).1 = .ok infos ∧
      List.Forall₂ (Deployed call volumes s (call.deployDisks volumes disks s).2) disks infos ∧
      ∀ n d, n < s.next → s.disks n = some d →
        ∃ d', (call.deployDisks volumes disks s).2.disks n = some d' ∧
          Grown call volumes s disks n d d' := by
  induction disks generalizing s with
  | nil => exact ⟨[], rfl, .nil, fun n d _ hd => ⟨d, hd, le_rfl, by simp, Or.inr ⟨by simp, rfl⟩⟩⟩
  | cons disk disks ih =>
    obtain ⟨disk, index⟩ := disk
    have hrest : ∀ disk ∈ disks, call.mapped disk.1 = .ok () :=
      fun d hd => hmapped d (List.mem_cons_of_mem _ hd)
    rw [Deploy.deployDisks]
    rcases deployDisk_cases (s := s) (fun id old h => (hold id old h).1)
      (hmapped (disk, index) List.mem_cons_self) index with ⟨v, hkeeps, hid, hdeploy⟩ | ⟨hnew, hdeploy⟩
    · have hsome := isSome_ensureDiskSize call s v.volumeId disk.sizeBytes
      have hnext := next_ensureDiskSize call s v.volumeId disk.sizeBytes
      obtain ⟨infos, hok, hinfos, hgrown⟩ := ih (hbound.trans hnext.ge) hrest
      simp only [hdeploy]
      refine ⟨v :: infos, by rw [hok]; rfl, .cons ⟨hid, Or.inl hkeeps⟩
        (hinfos.imp fun d v => Deployed.congr (fun n => keeps_congr (hsome n)) hnext.ge),
        fun n d hn hd => ?_⟩
      obtain ⟨d₁, hd₁, hcases⟩ := ensureDiskSize_eq_some hkeeps hd
      obtain ⟨d', hd', hg⟩ := hgrown n d₁ (hn.trans_eq hnext.symm) hd₁
      exact ⟨d', hd', hg.cons (hsome n) hcases⟩
    · set s₁ := call.createDisk index disk.sizeBytes s with hs₁
      have hnext : s₁.next = s.next + 1 := rfl
      have hother : ∀ n, n ≠ s.next → s₁.disks n = s.disks n := fun n hn => Function.update_of_ne hn ..
      have hkeep : ∀ disk n, Keeps volumes s₁ disk n ↔ Keeps volumes s disk n := fun disk n => by
        refine and_congr_left fun ⟨old, hsome, hn⟩ => ?_
        rw [hother n (by have := (hold _ _ hsome).2; omega)]
      obtain ⟨infos, hok, hinfos, hgrown⟩ := ih (s := s₁) (hbound.trans (Nat.le_succ _)) hrest
      simp only [hdeploy]
      refine ⟨_ :: infos, by rw [hok]; rfl, .cons ⟨rfl, Or.inr ⟨hnew, le_rfl, ?_⟩⟩
        (hinfos.imp fun d v => Deployed.congr (hkeep d) (by omega)), fun n d hn hd => ?_⟩
      -- no other disk has the new volume
      · obtain ⟨d', hd', hg⟩ := hgrown s.next _ (by omega) (Function.update_self ..)
        rw [hd']
        rcases hg.status with ⟨⟨disk', -, ⟨-, old, hsome, hn⟩, -⟩, -⟩ | ⟨-, rfl⟩
        · have := (hold _ _ hsome).2
          omega
        · rw [waitForDisk_eq]
      · obtain ⟨d', hd', hg⟩ := hgrown n d (by omega) ((hother n (by omega)).trans hd)
        exact ⟨d', hd', hg.cons (by rw [hother n (by omega)]) (Or.inr ⟨fun h => absurd h (hnew n), rfl⟩)⟩

lemma mapped_of_ok (h : (call.deployDisks volumes disks s).1 = .ok infos) :
    ∀ disk ∈ disks, call.mapped disk.1 = .ok () := by
  induction disks generalizing s infos with
  | nil => simp
  | cons disk disks ih =>
    obtain ⟨disk, index⟩ := disk
    rw [Deploy.deployDisks] at h
    rcases hmapped : call.mapped disk with err | _
    · simp [Deploy.deployDisk, hmapped] at h
    · rcases hdeploy : call.deployDisk volumes disk index s with ⟨err | v, s₁⟩
      · simp [hdeploy] at h
      · simp only [hdeploy] at h
        rcases hrest : (call.deployDisks volumes disks s₁).1 with err | infos'
        · simp [hrest, Except.map] at h
        · exact List.forall_mem_cons.mpr ⟨hmapped, ih hrest⟩

/-- Ids below `next` have been given out. -/
def Storage.Valid (s : Storage) : Prop := ∀ n, (s.disks n).isSome → n < s.next

lemma valid_deployDisks (call : Deploy) (volumes : String → Option Volume) (hs : s.Valid)
    (disks : List (ExportDisk × Nat)) :
    (call.deployDisks volumes disks s).2.Valid ∧
      s.next ≤ (call.deployDisks volumes disks s).2.next := by
  induction disks generalizing s with
  | nil => exact ⟨hs, le_rfl⟩
  | cons disk disks ih =>
    obtain ⟨disk, index⟩ := disk
    have hdeploy : (call.deployDisk volumes disk index s).2.Valid ∧
        s.next ≤ (call.deployDisk volumes disk index s).2.next := by
      unfold Deploy.deployDisk
      dsimp only
      split
      · exact ⟨hs, le_rfl⟩
      · split
        · refine ⟨fun n hn => ?_, (next_ensureDiskSize ..).ge⟩
          rw [isSome_ensureDiskSize] at hn
          exact (hs n hn).trans_eq (next_ensureDiskSize ..).symm
        · refine ⟨fun n hn => ?_, Nat.le_succ _⟩
          by_cases heq : n = s.next
          · subst heq
            exact Nat.lt_succ_self s.next
          · simp only [Deploy.createDisk, Function.update_of_ne heq] at hn
            exact (hs n hn).trans (Nat.lt_succ_self _)
    rw [Deploy.deployDisks]
    rcases hout : call.deployDisk volumes disk index s with ⟨err | v, s₁⟩
    · rw [hout] at hdeploy
      exact hdeploy
    · rw [hout] at hdeploy
      obtain ⟨hvalid, hle⟩ := ih hdeploy.1
      exact ⟨hvalid, hdeploy.2.trans hle⟩

end

section

variable {call : Deploy}

lemma existing_eq_some {id : String} (h : existing volumesInfo id = some old) :
    old ∈ volumesInfo ∧ old.diskId = id := by
  obtain ⟨v, hv, ⟨⟩⟩ := List.mem_map.mp (Dict.mem_of_ofPairs_eq_some h)
  exact ⟨hv, rfl⟩

lemma entry_iff (hs : s.Valid)
    (hgrown : ∀ n d, n < s.next → s.disks n = some d → ∃ d', s'.disks n = some d' ∧
      Grown call volumes s call.disks.zipIdx n d d') (hdisk : disk ∈ call.disks.zipIdx) {v : Volume}
    (h : Deployed call volumes s s' disk v) :
    Entry volumes s s' disk v ↔ call.DiskManageable volumes s disk := by
  obtain ⟨hid, hkeeps | ⟨hnew, -, hcreated⟩⟩ := h
  · obtain ⟨d, hd⟩ := Option.isSome_iff_exists.mp hkeeps.1
    obtain ⟨d', hd', hg⟩ := hgrown v.volumeId d (hs _ hkeeps.1) hd
    have hentry : Entry volumes s s' disk v ↔ d'.ok := by
      refine ⟨fun ⟨_, ⟨d'', hd'', hok, _⟩, _⟩ => ?_, fun hok => ⟨hid, ⟨d', hd', hok,
        hg.sizes disk hdisk hkeeps⟩, fun old hsome hold => ?_⟩⟩
      · cases hd'.symm.trans hd''
        exact hok
      · exact hkeeps.unique ⟨hold, old, hid ▸ hsome, rfl⟩
    have hmanageable : call.DiskManageable volumes s disk ↔
        (∃ disk' ∈ call.disks.zipIdx, Keeps volumes s disk' v.volumeId ∧
          d.size < disk'.1.sizeBytes) ∧ call.okAfterResize v.volumeId ∨
        (∀ disk' ∈ call.disks.zipIdx, Keeps volumes s disk' v.volumeId →
          disk'.1.sizeBytes ≤ d.size) ∧ d.ok := by
      refine ⟨fun h => h.2 _ d hkeeps hd, fun h => ⟨fun hnew => absurd hkeeps (hnew _), ?_⟩⟩
      intro n d₁ hn hd₁
      obtain rfl := hn.unique hkeeps
      cases hd.symm.trans hd₁
      exact h
    rw [hentry, hmanageable]
    rcases hg.status with ⟨hlarger, hok⟩ | ⟨hall, rfl⟩
    · rw [hok]
      refine ⟨fun h => Or.inl ⟨hlarger, h⟩, ?_⟩
      rintro (⟨-, h⟩ | ⟨hall, -⟩)
      · exact h
      · obtain ⟨disk', hmem, hk, hlt⟩ := hlarger
        exact absurd (hall disk' hmem hk) hlt.not_ge
    · refine ⟨fun h => Or.inr ⟨hall, h⟩, ?_⟩
      rintro (⟨⟨disk', hmem, hk, hlt⟩, -⟩ | ⟨-, h⟩)
      · exact absurd (hall disk' hmem hk) hlt.not_ge
      · exact h
  · constructor
    · rintro ⟨-, ⟨d, hd, hok, -⟩, -⟩
      cases hcreated.symm.trans hd
      exact ⟨fun _ => by simpa using hok, fun n d hn => absurd hn (hnew n)⟩
    · rintro ⟨hpolls, -⟩
      refine ⟨hid, ⟨_, hcreated, by simpa using hpolls hnew, le_rfl⟩, fun old hsome hold => ?_⟩
      exact absurd ⟨hold, old, hid ▸ hsome, rfl⟩ (hnew old.volumeId)

lemma tracks_iff_manageable (hs : s.Valid) (hvolumes : ∀ v ∈ volumesInfo, v.volumeId < s.next) :
    call.Tracks volumesInfo s (call.deployReplicaDisks volumesInfo s) ↔
      call.Manageable volumesInfo s := by
  by_cases hmapped : ∀ disk ∈ call.disks.zipIdx, call.mapped disk.1 = .ok ()
  · obtain ⟨infos, hok, hinfos, hgrown⟩ := deployDisks_spec (s := s)
      (fun id old h => ⟨(existing_eq_some h).2, hvolumes old (existing_eq_some h).1⟩) le_rfl hmapped
    have hdeleted : ∀ n, (s.disks n).isSome →
        (call.deployReplicaDisks volumesInfo s).2.disks n ≠ none := fun n hn => by
      obtain ⟨d, hd⟩ := Option.isSome_iff_exists.mp hn
      obtain ⟨d', hd', -⟩ := hgrown n d (hs n hn) hd
      rw [Deploy.deployReplicaDisks, hd']
      simp
    have hentries := Indexed.forall₂_iff_forall hinfos fun disk hdisk v h => entry_iff hs hgrown hdisk h
    constructor
    · rintro ⟨⟨infos', hok', hentries'⟩, hdel⟩
      cases hok.symm.trans hok'
      refine ⟨hmapped, fun old hold hsome => ?_, hentries.mp hentries'⟩
      by_contra hnot
      exact hdeleted _ hsome ((hdel _ hsome).mpr ⟨old, hold, rfl, hnot⟩)
    · intro h
      refine ⟨⟨infos, hok, hentries.mpr h.disks⟩, fun n hn => iff_of_false (hdeleted n hn) ?_⟩
      rintro ⟨old, hold, rfl, hnot⟩
      exact hnot (h.exported old hold hn)
  · refine iff_of_false ?_ fun h => hmapped h.mapped
    rintro ⟨⟨infos, hok, -⟩, -⟩
    exact hmapped (mapped_of_ok hok)

end

/-- The volumes the last call has returned, and the storage. -/
structure State where
  volumesInfo : List Volume
  storage : Storage

/-- A call, or a change of disks elsewhere, which may vanish. -/
inductive Step where
  | deploy (call : Deploy)
  | change (disks : Nat → Option StoredDisk)

def Step.run (s : State) : Step → State
  | .deploy call =>
    match call.deployReplicaDisks s.volumesInfo s.storage with
    | (.ok infos, storage) => ⟨infos, storage⟩
    | (.error _, storage) => ⟨s.volumesInfo, storage⟩
  | .change disks => ⟨s.volumesInfo, { s.storage with
      disks := fun n => (s.storage.disks n).bind fun _ => disks n }⟩

structure State.Valid (s : State) : Prop where
  storage : s.storage.Valid
  volumes : ∀ v ∈ s.volumesInfo, v.volumeId < s.storage.next

lemma State.Valid.run (h : s.Valid) (step : Step) : (step.run s).Valid := by
  cases step with
  | change disks =>
    refine ⟨fun n hn => h.storage n ?_, h.volumes⟩
    cases hd : s.storage.disks n with
    | none => simp [Step.run, hd] at hn
    | some d => rfl
  | deploy call =>
    obtain ⟨hvalid, hle⟩ := valid_deployDisks call (existing s.volumesInfo) h.storage
      call.disks.zipIdx
    change (call.deployReplicaDisks s.volumesInfo s.storage).2.Valid at hvalid
    change _ ≤ (call.deployReplicaDisks s.volumesInfo s.storage).2.next at hle
    rcases hout : call.deployReplicaDisks s.volumesInfo s.storage with ⟨err | infos, storage⟩ <;>
      rw [hout] at hvalid hle <;> simp only [Step.run, hout]
    · exact ⟨hvalid, fun v hv => (h.volumes v hv).trans_le hle⟩
    refine ⟨hvalid, fun v hv => ?_⟩
    have hok : (call.deployDisks (existing s.volumesInfo) call.disks.zipIdx s.storage).1 =
        .ok infos := congrArg Prod.fst hout
    obtain ⟨infos', hok', hinfos, -⟩ := deployDisks_spec
      (fun id old hold => ⟨(existing_eq_some hold).2, h.volumes old (existing_eq_some hold).1⟩)
      le_rfl (mapped_of_ok hok)
    cases hok.symm.trans hok'
    obtain ⟨disk, -, -, hkeeps | ⟨-, -, hdisk⟩⟩ := Indexed.exists_of_mem_right hinfos hv
    · exact (h.storage _ hkeeps.1).trans_le hle
    · have hstorage : (call.deployDisks (existing s.volumesInfo) call.disks.zipIdx s.storage).2 =
          storage := congrArg Prod.snd hout
      rw [hstorage] at hdisk
      exact hvalid _ (by simp [hdisk])

lemma valid_foldl {storage : Storage} (hs : storage.Valid) (steps : List Step) :
    (steps.foldl Step.run ⟨[], storage⟩).Valid := by
  induction steps using List.reverseRecOn with
  | nil => exact ⟨hs, by simp⟩
  | append_singleton steps step ih =>
    rw [List.foldl_append]
    exact ih.run step

/-- In a run that begins without volumes, every call does what it should exactly when every call is
manageable. -/
theorem run_tracks_iff (storage : Storage) (hs : storage.Valid) (steps : List Step) :
    (∀ done call rest, steps = done ++ .deploy call :: rest →
      let s := done.foldl Step.run ⟨[], storage⟩
      call.Tracks s.volumesInfo s.storage (call.deployReplicaDisks s.volumesInfo s.storage)) ↔
    ∀ done call rest, steps = done ++ .deploy call :: rest →
      let s := done.foldl Step.run ⟨[], storage⟩
      call.Manageable s.volumesInfo s.storage :=
  forall_congr' fun done => forall_congr' fun _ => forall_congr' fun _ => forall_congr' fun _ =>
    tracks_iff_manageable (valid_foldl hs done).storage (valid_foldl hs done).volumes

/-- A call in which every disk is mapped to the default storage domain. -/
def simpleCall (disks : List ExportDisk) : Deploy :=
  ⟨⟨none, none, none⟩, ["sd1"], "sd1", disks, fun _ => 0, fun _ => true⟩

def diskRemoved : List Step :=
  [.deploy (simpleCall [⟨some "a", none, none, 10⟩]), .deploy (simpleCall [])]

theorem removed_disk_not_deleted :
    (diskRemoved.foldl Step.run ⟨[], ⟨fun _ => none, 0⟩⟩).storage.disks 0 = some ⟨10, true⟩ ∧
    ¬ ∀ done call rest, diskRemoved = done ++ .deploy call :: rest →
      let s := done.foldl Step.run ⟨[], ⟨fun _ => none, 0⟩⟩
      call.Tracks s.volumesInfo s.storage (call.deployReplicaDisks s.volumesInfo s.storage) := by
  have hkept : (diskRemoved.foldl Step.run ⟨[], ⟨fun _ => none, 0⟩⟩).storage.disks 0 =
      some ⟨10, true⟩ := by decide
  refine ⟨hkept, fun h => ?_⟩
  obtain ⟨-, hdeleted⟩ := h [.deploy (simpleCall [⟨some "a", none, none, 10⟩])] (simpleCall []) [] rfl
  have hgone := (hdeleted 0 (by decide)).mpr
    ⟨⟨"a", 0, 10⟩, by decide, rfl, by simp [simpleCall]⟩
  cases hkept.symm.trans hgone

instance (volumes : String → Option Volume) (s : Storage) (disk : ExportDisk × Nat) (n : Nat) :
    Decidable (Keeps volumes s disk n) :=
  decidable_of_iff ((s.disks n).isSome ∧
    ∃ old ∈ volumes (disk.1.diskId disk.2), old.volumeId = n) (by simp [Keeps])

/-- Only ids that were given out have to be looked at. -/
lemma diskManageable_of_valid {call : Deploy} {s : Storage} (hs : s.Valid)
    (hnew : (∀ n < s.next, ¬ Keeps volumes s disk n) → call.pollsUntilOk disk.2 < 60)
    (hkept : ∀ n < s.next, ∀ d ∈ s.disks n, Keeps volumes s disk n →
      (∃ disk' ∈ call.disks.zipIdx, Keeps volumes s disk' n ∧ d.size < disk'.1.sizeBytes) ∧
        call.okAfterResize n ∨
      (∀ disk' ∈ call.disks.zipIdx, Keeps volumes s disk' n → disk'.1.sizeBytes ≤ d.size) ∧ d.ok) :
    call.DiskManageable volumes s disk :=
  ⟨fun h => hnew fun n _ => h n, fun n d hkeeps hd => hkept n (hs n hkeeps.1) d hd hkeeps⟩

def firstCall : Deploy := simpleCall
  [⟨some "a", none, none, 10⟩, ⟨some "b", none, none, 10⟩, ⟨some "c", none, none, 10⟩]

def secondCall : Deploy := simpleCall
  [⟨some "a", none, none, 10⟩, ⟨some "b", none, none, 20⟩, ⟨some "c", none, none, 10⟩]

/-- Between two calls the third disk vanishes from the storage. -/
def diskVanished : List Step :=
  [.deploy firstCall, .change fun n => if n = 2 then none else some ⟨10, true⟩]

/-- The first disk is kept, the second one is resized and the third one is created again. -/
theorem tracks_vanished :
    let s := diskVanished.foldl Step.run ⟨[], ⟨fun _ => none, 0⟩⟩
    secondCall.Tracks s.volumesInfo s.storage (secondCall.deployReplicaDisks s.volumesInfo s.storage) ∧
      (secondCall.deployReplicaDisks s.volumesInfo s.storage).1.toOption =
        some [⟨"a", 0, 10⟩, ⟨"b", 1, 20⟩, ⟨"c", 3, 10⟩] := by
  refine ⟨(run_tracks_iff ⟨fun _ => none, 0⟩ nofun (diskVanished ++ [.deploy secondCall])).mpr ?_
    diskVanished secondCall [] rfl, by decide⟩
  have hempty : Storage.Valid ⟨fun _ => none, 0⟩ := nofun
  rintro (_ | ⟨_, _ | ⟨_, _ | ⟨_, _ | ⟨_, done⟩⟩⟩⟩) call rest h <;> cases h
  · refine ⟨?_, nofun, fun disk _ => diskManageable_of_valid hempty (fun _ => show 0 < 60 by decide) nofun⟩
    simp only [firstCall, simpleCall, List.zipIdx_cons, List.forall_mem_cons]
    exact ⟨rfl, rfl, rfl, nofun⟩
  · refine ⟨?_, by decide, fun disk hdisk => ?_⟩
    · simp only [secondCall, simpleCall, List.zipIdx_cons, List.forall_mem_cons]
      exact ⟨rfl, rfl, rfl, nofun⟩
    · refine diskManageable_of_valid (valid_foldl hempty diskVanished).storage
        (fun _ => show 0 < 60 by decide) ?_
      revert disk
      decide

end Coriolis.Providers.OLVM.Disks

import Coriolis.Providers.StorageMappings
import Mathlib.Data.List.DropRight

/-!
# The VHDX files of replica disks

`deploy_replica_disks` of the Hyper-V provider keeps each disk in a VHDX file whose name is made of
the instance name and the disk id, both with other characters replaced and cut to 32 characters.
Different disks whose names become the same share the file: the second one is not created. Names
also become the same if a part of the id can be moved to the end of the instance name.
-/

namespace Coriolis.Providers.HyperV.Vhdx

deriving instance DecidableEq for DiskId

abbrev Text := List Char

abbrev Key := Text × DiskId

/-- The host and the storage path of the replica disks. -/
structure Target where
  /-- `str.isalnum`. -/
  isalnum : Char → Bool
  /-- One letter for all those that the file system does not tell apart. -/
  fold : Char → Char
  vmPath : Text

namespace Target

variable (t : Target)

def safe (s : Text) : Text :=
  (s.map fun c => if t.isalnum c || c = '-' || c = '_' then c else '_').take 32

def stem (k : Key) : Text := t.safe k.1 ++ '-' :: t.safe k.2.str.toList

/-- `_vhdx_path`. -/
def vhdxPath (k : Key) : Text :=
  t.vmPath.rdropWhile (· = '\\') ++ '\\' :: "coriolis-".toList ++ t.stem k ++ ".vhdx".toList

def file (path : Text) : Text := path.map t.fold

/-- An instance name or a disk id, as far as the file system sees it in a path. -/
def shown (s : Text) : Text := (t.safe s).map t.fold

/-- The name of the second disk begins with that of the first, and what it has more, after a
hyphen, is what its id lacks at the front. -/
def Shifted (k k' : Key) : Prop :=
  ∃ part, t.shown k'.1 = t.shown k.1 ++ t.fold '-' :: part ∧
    t.shown k.2.str.toList = part ++ t.fold '-' :: t.shown k'.2.str.toList

def Collide (k k' : Key) : Prop :=
  t.shown k.1 = t.shown k'.1 ∧ t.shown k.2.str.toList = t.shown k'.2.str.toList ∨
    t.Shifted k k' ∨ t.Shifted k' k

end Target

/-- A VHDX, with the disk it was created for if `deploy_replica_disks` has created it. -/
structure File where
  size : Nat
  owner : Option Key

abbrev Host := Text → Option File

structure Volume where
  diskId : DiskId
  volumeId : Text
  size : Nat
  deriving DecidableEq

structure Disk where
  id : Option DiskId
  path : Option String
  sizeBytes : Nat

def Disk.diskId (disk : Disk) (index : Nat) : DiskId :=
  disk.id.getD (.text (disk.path.getD s!"disk-{index}"))

section

variable (t : Target)

/-- `_ensure_vhdx_size`. -/
def ensureVhdxSize (path : Text) (size : Nat) (host : Host) : Host :=
  match host (t.file path) with
  | some file => if file.size < size
      then Function.update host (t.file path) (some { file with size }) else host
  | none => host

/-- The body of the loop of `deploy_replica_disks`. It fails with a path at which `New-VHD` finds a
file. -/
def deployDisk (instanceName : Text) (existing : DiskId → Option Volume) (diskId : DiskId)
    (size : Nat) (host : Host) : Except Text Volume × Host :=
  match (existing diskId).filter fun old => (host (t.file old.volumeId)).isSome with
  | some old => (.ok { old with size }, ensureVhdxSize t old.volumeId size host)
  | none =>
    let path := t.vhdxPath (instanceName, diskId)
    if (host (t.file path)).isSome then (.error path, host)
    else (.ok ⟨diskId, path, size⟩,
      Function.update host (t.file path) (some ⟨size, some (instanceName, diskId)⟩))

def deployDisks (instanceName : Text) (existing : DiskId → Option Volume) :
    List (DiskId × Nat) → Host → Except Text (List Volume) × Host
  | [], host => (.ok [], host)
  | (diskId, size) :: disks, host =>
    match deployDisk t instanceName existing diskId size host with
    | (.error path, host) => (.error path, host)
    | (.ok vol, host) =>
      let rest := deployDisks instanceName existing disks host
      (rest.1.map (vol :: ·), rest.2)

def keyed (disks : List Disk) : List (DiskId × Nat) :=
  disks.mapIdx fun index disk => (disk.diskId index, disk.sizeBytes)

/-- `deploy_replica_disks`, for disks that are mapped to one storage path. -/
def deployReplicaDisks (instanceName : Text) (disks : List Disk) (volumesInfo : List Volume) :
    Host → Except Text (List Volume) × Host :=
  deployDisks t instanceName (Dict.ofPairs (volumesInfo.map fun v => (v.diskId, v))) (keyed disks)

/-- The host and the volumes that the last call for an instance has returned. -/
structure State where
  host : Host
  volumes : Text → List Volume

inductive Step where
  | deploy (instanceName : Text) (disks : List Disk)
  /-- A file of the host is removed. -/
  | remove (file : Text)

/-- A call that fails leaves the volumes of the instance as they were. -/
def Step.run (s : State) : Step → State
  | .deploy instanceName disks =>
    match deployReplicaDisks t instanceName disks (s.volumes instanceName) s.host with
    | (.ok vols, host) => ⟨host, Function.update s.volumes instanceName vols⟩
    | (.error _, host) => { s with host }
  | .remove file => { s with host := Function.update s.host file none }

def Step.keys : Step → List Key
  | .deploy instanceName disks => (keyed disks).map fun d => (instanceName, d.1)
  | .remove _ => []

/-- A call leaves the files of other disks alone, returns files of its own disks, and fails only
because of one of these or of a file that was there before. -/
structure KeepsApart (host : Host) (instanceName : Text) (diskIds : List DiskId)
    (out : Except Text (List Volume) × Host) : Prop where
  others : ∀ f file k, host f = some file → file.owner = some k →
    (k.1 = instanceName → k.2 ∉ diskIds) → out.2 f = some file
  returned : ∀ vols, out.1 = .ok vols → ∀ v ∈ vols,
    ∃ size, out.2 (t.file v.volumeId) = some ⟨size, some (instanceName, v.diskId)⟩
  failed : ∀ path, out.1 = .error path → ∃ diskId file, path = t.vhdxPath (instanceName, diskId) ∧
    out.2 (t.file path) = some file ∧ file.owner ∈ [none, some (instanceName, diskId)]

/-- Different disks of the run have different files, and its calls keep them apart. -/
def RunKeepsApart (start : State) (steps : List Step) : Prop :=
  (∀ k ∈ steps.flatMap Step.keys, ∀ k' ∈ steps.flatMap Step.keys, k ≠ k' →
    t.file (t.vhdxPath k) ≠ t.file (t.vhdxPath k')) ∧
  ∀ done rest instanceName disks, steps = done ++ .deploy instanceName disks :: rest →
    let s := done.foldl (Step.run t) start
    KeepsApart t s.host instanceName ((keyed disks).map (·.1))
      (deployReplicaDisks t instanceName disks (s.volumes instanceName) s.host)

end

section

variable {t : Target} {host : Host} {instanceName : Text} {keys recorded : Key → Prop} {k : Key}

lemma append_cons_inj {α : Type} {a b a' b' : List α} {c : α} :
    a ++ c :: b = a' ++ c :: b' ↔ a = a' ∧ b = b' ∨ (∃ m, a' = a ++ c :: m ∧ b = m ++ c :: b') ∨
      ∃ m, a = a' ++ c :: m ∧ b' = m ++ c :: b := by
  constructor
  · intro h
    rcases List.append_eq_append_iff.mp h with ⟨_ | ⟨x, m⟩, rfl, heq⟩ | ⟨_ | ⟨x, m⟩, rfl, heq⟩
    · exact .inl ⟨by simp, (List.cons.inj heq).2⟩
    · obtain ⟨rfl, rfl⟩ := List.cons.inj heq
      exact .inr (.inl ⟨m, rfl, rfl⟩)
    · exact .inl ⟨by simp, (List.cons.inj heq).2.symm⟩
    · obtain ⟨rfl, rfl⟩ := List.cons.inj heq
      exact .inr (.inr ⟨m, rfl, rfl⟩)
  · rintro (⟨rfl, rfl⟩ | ⟨m, rfl, rfl⟩ | ⟨m, rfl, rfl⟩) <;> simp

lemma file_vhdxPath_inj :
    t.file (t.vhdxPath k) = t.file (t.vhdxPath k') ↔ t.Collide k k' := by
  have hfile : t.file (t.vhdxPath k) = t.file (t.vhdxPath k') ↔
      (t.stem k).map t.fold = (t.stem k').map t.fold := by
    simp [Target.file, Target.vhdxPath]
  have hstem (k : Key) : (t.stem k).map t.fold =
      t.shown k.1 ++ t.fold '-' :: t.shown k.2.str.toList := by
    simp [Target.stem, Target.shown]
  rw [hfile, hstem, hstem, append_cons_inj]
  rfl

/-- Files of disks are where their paths say, and recorded paths have no other files. -/
structure Owned (t : Target) (keys recorded : Key → Prop) (host : Host) : Prop where
  place : ∀ f file k, host f = some file → file.owner = some k → f = t.file (t.vhdxPath k) ∧ keys k
  own : ∀ k, recorded k → ∀ file, host (t.file (t.vhdxPath k)) = some file → file.owner = some k

/-- `host` with the file of a disk. -/
def withFile (t : Target) (host : Host) (k : Key) (size : Nat) : Host :=
  Function.update host (t.file (t.vhdxPath k)) (some ⟨size, some k⟩)

def HasFile (t : Target) (host : Host) (k : Key) : Prop :=
  ∃ size, host (t.file (t.vhdxPath k)) = some ⟨size, some k⟩

lemma deployDisk_spec (size : Nat) (hown : Owned t keys recorded host)
    (hold : ∀ old, existing diskId = some old → old.diskId = diskId ∧
      old.volumeId = t.vhdxPath (instanceName, diskId) ∧ recorded (instanceName, diskId)) :
    (∃ vol size', deployDisk t instanceName existing diskId size host =
        (.ok vol, withFile t host (instanceName, diskId) size') ∧ vol.diskId = diskId ∧
          vol.volumeId = t.vhdxPath (instanceName, diskId)) ∨
      deployDisk t instanceName existing diskId size host =
        (.error (t.vhdxPath (instanceName, diskId)), host) ∧
      (host (t.file (t.vhdxPath (instanceName, diskId)))).isSome := by
  unfold deployDisk
  split
  · next old hfilter =>
    obtain ⟨hsome, hfile⟩ := Option.filter_eq_some_iff.mp hfilter
    obtain ⟨hid, hpath, hrecorded⟩ := hold old hsome
    rw [hpath] at hfile
    obtain ⟨⟨current, owner⟩, hfile⟩ := Option.isSome_iff_exists.mp hfile
    obtain rfl : owner = some (instanceName, diskId) := hown.own _ hrecorded _ hfile
    refine Or.inl ⟨_, max current size, Prod.ext rfl ?_, hid, hpath⟩
    simp only [ensureVhdxSize, hpath, hfile, withFile]
    split
    · next hlt => rw [max_eq_right hlt.le]
    · next hle => rw [max_eq_left (not_lt.mp hle), ← hfile, Function.update_eq_self]
  · dsimp only
    split
    · next h => exact Or.inr ⟨rfl, h⟩
    · exact Or.inl ⟨_, size, rfl, rfl, rfl⟩

/-- What deploying some disks of an instance does. -/
structure Deployed (t : Target) (keys recorded : Key → Prop) (instanceName : Text)
    (diskIds : List DiskId) (host : Host) (out : Except Text (List Volume) × Host) : Prop where
  owned : Owned t keys recorded out.2
  kept : ∀ k, keys k → HasFile t host k → HasFile t out.2 k
  frame : ∀ f, (∀ id ∈ diskIds, f ≠ t.file (t.vhdxPath (instanceName, id))) → out.2 f = host f
  returned : ∀ vols, out.1 = .ok vols → ∀ v ∈ vols, keys (instanceName, v.diskId) ∧
    v.volumeId = t.vhdxPath (instanceName, v.diskId) ∧ HasFile t out.2 (instanceName, v.diskId)
  failed : ∀ path, out.1 = .error path → ∃ id ∈ diskIds, path = t.vhdxPath (instanceName, id) ∧
    (out.2 (t.file path)).isSome

section

variable
  (hapart : ∀ k k', keys k → keys k' → t.file (t.vhdxPath k) = t.file (t.vhdxPath k') → k = k')
include hapart

lemma Owned.withFile (h : Owned t keys recorded host) (hrecorded : ∀ k, recorded k → keys k)
    (hk : keys k) (size : Nat) : Owned t keys recorded (withFile t host k size) := by
  refine ⟨fun f file k' hf howner => ?_, fun k' hk' file hf => ?_⟩
  · by_cases heq : f = t.file (t.vhdxPath k)
    · subst heq
      rw [Vhdx.withFile, Function.update_self, Option.some.injEq] at hf
      subst hf
      cases howner
      exact ⟨rfl, hk⟩
    · rw [Vhdx.withFile, Function.update_of_ne heq] at hf
      exact h.place f file k' hf howner
  · by_cases heq : t.file (t.vhdxPath k') = t.file (t.vhdxPath k)
    · rw [Vhdx.withFile, heq, Function.update_self, Option.some.injEq] at hf
      rw [← hf, hapart k' k (hrecorded k' hk') hk heq]
    · rw [Vhdx.withFile, Function.update_of_ne heq] at hf
      exact h.own k' hk' file hf

lemma HasFile.withFile (h : HasFile t host k) (hk : keys k) (hk' : keys k') (size : Nat) :
    HasFile t (withFile t host k' size) k := by
  by_cases heq : t.file (t.vhdxPath k) = t.file (t.vhdxPath k')
  · obtain rfl := hapart k k' hk hk' heq
    exact ⟨size, Function.update_self ..⟩
  · obtain ⟨size', hsize⟩ := h
    exact ⟨size', by rw [Vhdx.withFile, Function.update_of_ne heq, hsize]⟩

lemma deployDisks_spec (hown : Owned t keys recorded host) (hrecorded : ∀ k, recorded k → keys k)
    (hkeys : ∀ d ∈ disks, keys (instanceName, d.1))
    (hold : ∀ id old, existing id = some old → old.diskId = id ∧
      old.volumeId = t.vhdxPath (instanceName, id) ∧ recorded (instanceName, id)) :
    Deployed t keys recorded instanceName (disks.map (·.1)) host
      (deployDisks t instanceName existing disks host) := by
  induction disks generalizing host with
  | nil =>
    refine ⟨hown, fun _ _ h => h, fun _ _ => rfl, fun vols hvols v hv => ?_, nofun⟩
    cases hvols
    cases hv
  | cons d disks ih =>
    obtain ⟨id, size⟩ := d
    have hk : keys (instanceName, id) := hkeys (id, size) List.mem_cons_self
    rw [deployDisks]
    rcases deployDisk_spec size hown (hold id) with
      ⟨vol, size', hdeploy, hid, hpath⟩ | ⟨hdeploy, hfile⟩
    · obtain ⟨owned, kept, frame, returned, failed⟩ := ih
        (hown.withFile hapart hrecorded hk size') fun d hd => hkeys d (List.mem_cons_of_mem _ hd)
      rw [hdeploy]
      dsimp only
      rcases hrest : deployDisks t instanceName existing disks
        (withFile t host (instanceName, id) size') with ⟨result, host'⟩
      rw [hrest] at owned kept frame returned failed
      refine ⟨owned, fun k hk' h => kept k hk' (h.withFile hapart hk' hk size'), fun f hf => ?_,
        fun vols hvols v hv => ?_, fun path hresult => ?_⟩
      · rw [frame f fun id' hid' => hf id' (List.mem_cons_of_mem _ hid'), withFile,
          Function.update_of_ne (hf id List.mem_cons_self)]
      · cases result with
        | error path => cases hvols
        | ok rest =>
          cases hvols
          rcases List.mem_cons.mp hv with rfl | hv
          · rw [hid]
            exact ⟨hk, hpath, kept _ hk ⟨size', Function.update_self ..⟩⟩
          · exact returned rest rfl v hv
      · cases result with
        | error path' =>
          cases hresult
          obtain ⟨id', hid', hfailed⟩ := failed _ rfl
          exact ⟨id', List.mem_cons_of_mem _ hid', hfailed⟩
        | ok rest => cases hresult
    · rw [hdeploy]
      refine ⟨hown, fun _ _ h => h, fun _ _ => rfl, nofun, fun path hpath => ?_⟩
      cases hpath
      exact ⟨id, List.mem_cons_self, rfl, hfile⟩

/-- What holds in every state of a run. -/
structure Inv (t : Target) (keys : Key → Prop) (s : State) : Prop where
  owned : Owned t keys (fun k => ∃ v ∈ s.volumes k.1, v.diskId = k.2) s.host
  volumes : ∀ instanceName, ∀ v ∈ s.volumes instanceName,
    keys (instanceName, v.diskId) ∧ v.volumeId = t.vhdxPath (instanceName, v.diskId)

lemma Inv.deployed (h : Inv t keys s)
    (hkeys : ∀ k ∈ (Step.deploy instanceName disks).keys, keys k) :
    Deployed t keys (fun k => ∃ v ∈ s.volumes k.1, v.diskId = k.2) instanceName
      ((keyed disks).map (·.1)) s.host
      (deployReplicaDisks t instanceName disks (s.volumes instanceName) s.host) := by
  refine deployDisks_spec hapart h.owned ?_ (fun d hd => hkeys _ (List.mem_map_of_mem hd)) ?_
  · rintro ⟨name, _⟩ ⟨v, hv, rfl⟩
    exact (h.volumes name v hv).1
  · intro id old hold
    obtain ⟨_, hv, ⟨⟩⟩ := List.mem_map.mp (Dict.mem_of_ofPairs_eq_some hold)
    exact ⟨rfl, (h.volumes instanceName old hv).2, old, hv, rfl⟩

lemma Deployed.keepsApart (h : Deployed t keys recorded instanceName diskIds host out)
    (hown : Owned t keys recorded host) (hkeys : ∀ id ∈ diskIds, keys (instanceName, id)) :
    KeepsApart t host instanceName diskIds out := by
  refine ⟨fun f file k hf howner hk => ?_, fun vols hvols v hv => ?_, fun path hpath => ?_⟩
  · obtain ⟨rfl, hkey⟩ := hown.place f file k hf howner
    rw [h.frame _ fun id hid heq => ?_, hf]
    obtain rfl := hapart _ _ hkey (hkeys id hid) heq
    exact hk rfl hid
  · obtain ⟨-, hpath, hfile⟩ := h.returned vols hvols v hv
    rw [hpath]
    exact hfile
  · obtain ⟨id, hid, rfl, hfile⟩ := h.failed path hpath
    obtain ⟨file, hfile⟩ := Option.isSome_iff_exists.mp hfile
    refine ⟨id, file, rfl, hfile, ?_⟩
    rcases howner : file.owner with _ | k
    · simp
    · obtain ⟨heq, hkey⟩ := h.owned.place _ file k hfile howner
      obtain rfl := hapart _ _ (hkeys id hid) hkey heq
      simp

lemma Inv.run (h : Inv t keys s) {step : Step} (hkeys : ∀ k ∈ step.keys, keys k) :
    Inv t keys (step.run t s) := by
  cases step with
  | remove file =>
    have hsome : ∀ f x, Function.update s.host file none f = some x → s.host f = some x := by
      intro f x hf
      by_cases heq : f = file
      · simp [heq] at hf
      · rwa [Function.update_of_ne heq] at hf
    exact ⟨⟨fun f x k hf => h.owned.place f x k (hsome f x hf),
      fun k hk x hf => h.owned.own k hk x (hsome _ x hf)⟩, h.volumes⟩
  | deploy instanceName disks =>
    have hdeployed := h.deployed hapart hkeys
    rcases hout : deployReplicaDisks t instanceName disks (s.volumes instanceName) s.host with
      ⟨_ | vols, host⟩ <;> rw [hout] at hdeployed <;> simp only [Step.run, hout]
    · exact ⟨hdeployed.owned, h.volumes⟩
    have hvolumes : ∀ name, ∀ v ∈ Function.update s.volumes instanceName vols name,
        name = instanceName ∧ v ∈ vols ∨ name ≠ instanceName ∧ v ∈ s.volumes name := by
      intro name v hv
      by_cases heq : name = instanceName
      · subst heq
        exact Or.inl ⟨rfl, by simpa using hv⟩
      · exact Or.inr ⟨heq, by rwa [Function.update_of_ne heq] at hv⟩
    refine ⟨⟨hdeployed.owned.place, ?_⟩, fun name v hv => ?_⟩
    · rintro ⟨name, _⟩ ⟨v, hv, rfl⟩ file hfile
      rcases hvolumes name v hv with ⟨rfl, hnew⟩ | ⟨-, hkept⟩
      · obtain ⟨-, -, size, hsize⟩ := hdeployed.returned vols rfl v hnew
        cases hsize.symm.trans hfile
        rfl
      · exact hdeployed.owned.own (name, v.diskId) ⟨v, hkept, rfl⟩ file hfile
    · rcases hvolumes name v hv with ⟨rfl, hnew⟩ | ⟨-, hkept⟩
      · obtain ⟨hkey, hpath, -⟩ := hdeployed.returned vols rfl v hnew
        exact ⟨hkey, hpath⟩
      · exact h.volumes name v hkept

end

end

/-- The disks of a run are kept apart exactly when no two of them have instance names and ids that
are the same in a path, or the same up to a part that moves from the id to the name. -/
theorem runKeepsApart_iff (t : Target) (host : Host)
    (hhost : ∀ f file, host f = some file → file.owner = none) (steps : List Step) :
    RunKeepsApart t ⟨host, fun _ => []⟩ steps ↔
      ∀ k ∈ steps.flatMap Step.keys, ∀ k' ∈ steps.flatMap Step.keys, k ≠ k' → ¬ t.Collide k k' := by
  simp only [RunKeepsApart, Ne, file_vhdxPath_inj]
  refine and_iff_left_of_imp fun hstems done rest instanceName disks hsteps => ?_
  have hapart : ∀ k k', k ∈ steps.flatMap Step.keys → k' ∈ steps.flatMap Step.keys →
      t.file (t.vhdxPath k) = t.file (t.vhdxPath k') → k = k' := fun k k' hk hk' heq =>
    not_not.mp fun hne => hstems k hk k' hk' hne (file_vhdxPath_inj.mp heq)
  have hkeys : ∀ step ∈ steps, ∀ k ∈ step.keys, k ∈ steps.flatMap Step.keys :=
    fun step hstep k hk => List.mem_flatMap.mpr ⟨step, hstep, hk⟩
  have hinv : ∀ done' rest', done = done' ++ rest' → Inv t (· ∈ steps.flatMap Step.keys)
      (done'.foldl (Step.run t) ⟨host, fun _ => []⟩) := by
    intro done' rest' hdone
    induction done' using List.reverseRecOn generalizing rest' with
    | nil =>
      refine ⟨⟨fun f file k hf howner => ?_, ?_⟩, by simp⟩
      · rw [hhost f file hf] at howner
        cases howner
      · rintro k ⟨v, hv, -⟩
        cases hv
    | append_singleton done' step ih =>
      rw [List.foldl_append]
      exact (ih (step :: rest') (by simp [hdone])).run hapart (hkeys step (by simp [hsteps, hdone]))
  have hkeys := hkeys (.deploy instanceName disks) (by simp [hsteps])
  have hs := hinv done [] (by simp)
  exact (hs.deployed hapart hkeys).keepsApart hapart hs.owned fun id hid => by
    obtain ⟨d, hd, rfl⟩ := List.mem_map.mp hid
    exact hkeys _ (List.mem_map_of_mem hd)

/-- Names of ASCII letters and digits, on a file system that ignores their case. -/
def asciiTarget : Target := ⟨Char.isAlphanum, Char.toLower, "D:\\VMs".toList⟩

/-- Two instances, whose names differ after their 32nd characters. -/
def longNames : List Step :=
  [.deploy "production-database-server-number-1".toList [⟨some (.text "disk-0"), none, 10⟩],
   .deploy "production-database-server-number-2".toList [⟨some (.text "disk-0"), none, 10⟩]]

theorem second_disk_not_created :
    (deployReplicaDisks asciiTarget "production-database-server-number-2".toList
        [⟨some (.text "disk-0"), none, 10⟩] [] ((longNames.take 1).foldl (Step.run asciiTarget)
          ⟨fun _ => none, fun _ => []⟩).host).1 =
      .error "D:\\VMs\\coriolis-production-database-server-numbe-disk-0.vhdx".toList ∧
    ¬ RunKeepsApart asciiTarget ⟨fun _ => none, fun _ => []⟩ longNames := by
  constructor
  · decide +kernel
  · rintro ⟨hfiles, -⟩
    exact hfiles ("production-database-server-number-1".toList, .text "disk-0") (by decide +kernel)
      ("production-database-server-number-2".toList, .text "disk-0") (by decide +kernel)
      (by decide +kernel) (by decide +kernel)

theorem runKeepsApart_of_short_names :
    RunKeepsApart asciiTarget ⟨fun _ => none, fun _ => []⟩
      [.deploy "db1".toList [⟨some (.text "disk-0"), none, 10⟩, ⟨some (.text "disk-1"), none, 10⟩],
       .deploy "db2".toList [⟨some (.text "disk-0"), none, 10⟩]] :=
  (runKeepsApart_iff asciiTarget (fun _ => none) nofun _).mpr
    (by simp only [← file_vhdxPath_inj]; decide +kernel)

end Coriolis.Providers.HyperV.Vhdx

import Mathlib.Data.List.Basic
import Mathlib.Data.Option.Basic

/-!
# Replicating the disks of an instance

`Replicator.replicate_disks` asks the replicator on the source for the chunks of every volume,
cuts them to the size of the destination and writes them there. The replicator and the backup
writer are services: what they answer is given by `Client` and `BackupWriter`.

The loop over the volumes ends at the first volume without chunks, so the volumes after it are
not replicated. `replicateDisks_complete_iff` says for which inputs that makes no difference.
-/

namespace Coriolis.Providers

structure Chunk where
  offset : Nat
  length : Nat
  deriving DecidableEq, Repr

structure SourceVolume where
  diskId : String
  diskPath : String
  deriving DecidableEq, Repr

/-- What the status of the replicator says about one device. -/
structure VolState where
  deviceName : String
  deriving DecidableEq, Repr

/-- An entry of `volumes_info`. -/
structure VolumeInfo where
  diskId : String
  zeroed : Bool
  size : Option Nat
  sizeBytes : Option Nat
  replicaState : Option VolState
  deriving DecidableEq, Repr

structure Checksum where
  algorithm : String
  checksum : String
  deriving DecidableEq, Repr

inductive ReplicatorError where
  | volumeNotFound (diskId : String)
  | checksumAlgorithmMismatch (disk sourceAlg destAlg : String)
  | checksumMismatch (disk sourceChecksum destChecksum : String)
  /-- An exception of the replicator or of the backup writer. -/
  | raised (text : String)
  deriving DecidableEq, Repr

/-- The answers of the replicator, as `Client` returns or raises them after its retries. -/
structure Client where
  getStatus : Except ReplicatorError (List VolState)
  getChunks : String → Bool → Except ReplicatorError (List Chunk)
  getChanges : String → Except ReplicatorError (List Chunk)
  /-- A GET of the device with the header `Range: bytes=first-last`. -/
  getRange : String → Nat → Int → Except ReplicatorError (List UInt8)
  getDiskChecksum : String → Except ReplicatorError Checksum
  getDiskSize : String → Except ReplicatorError Nat

/-- What the backup writer raises, if anything, and its checksums. -/
structure BackupWriter where
  openRaises : String → Option ReplicatorError
  seekRaises : String → Nat → Option ReplicatorError
  writeRaises : String → Nat → List UInt8 → Option ReplicatorError
  getDiskChecksum : String → String → Nat → Except ReplicatorError (Option Checksum)
  closeRaises : String → Option ReplicatorError

/-- Data written to a destination. -/
structure Write where
  diskId : String
  offset : Nat
  data : List UInt8
  deriving DecidableEq, Repr

structure Replicator where
  volumesInfo : List VolumeInfo
  replState : Option (List VolState)
  writes : List Write

/-- `Client.download_chunk`. -/
def Client.downloadChunk (cli : Client) (disk : String) (chunk : Chunk) :
    Except ReplicatorError (List UInt8) :=
  cli.getRange disk chunk.offset (chunk.offset + chunk.length - 1)

/-- The device of a source volume: its path without `/dev/`. -/
def SourceVolume.devName (volume : SourceVolume) : String :=
  if "/dev".toList.isPrefixOf volume.diskPath.toList then
    String.ofList (volume.diskPath.toList.drop 5)
  else volume.diskPath

/-- `dst_vol.get("size") or dst_vol.get("size_bytes")`, if that is not zero. -/
def VolumeInfo.diskSize (dst : VolumeInfo) : Option Nat :=
  (dst.size.filter (· != 0)).or (dst.sizeBytes.filter (· != 0))

def filterChunks (diskSize : Option Nat) (chunks : List Chunk) : List Chunk :=
  match diskSize with
  | none => chunks
  | some diskSize => chunks.filterMap fun chunk =>
    if chunk.offset < diskSize then
      if diskSize < chunk.offset + chunk.length then
        some { chunk with length := diskSize - chunk.offset }
      else some chunk
    else none

/-- `_find_vol_state`. -/
def findVolState (name : String) (state : List VolState) : Option VolState :=
  state.find? (·.deviceName = name)

/-- `dst_vol["replica_state"] = state`, for the first entry of the disk. -/
def setReplicaState (diskId : String) (state : Option VolState) :
    List VolumeInfo → List VolumeInfo
  | [] => []
  | dst :: rest =>
    if dst.diskId = diskId then { dst with replicaState := state } :: rest
    else dst :: setReplicaState diskId state rest

section

variable (cli : Client) (writer : BackupWriter)

/-- The chunks the replicator is asked for: without the zero ones when the destination is
known to hold zeros. -/
def reportedChunks (isInitial : Bool) (dst : VolumeInfo) (devName : String) :
    Except ReplicatorError (List Chunk) :=
  if isInitial && dst.zeroed then cli.getChunks devName true else cli.getChanges devName

/-- `_verify_disk_checksum`. -/
def verifyDiskChecksum (devName diskId : String) : Except ReplicatorError Unit :=
  match cli.getDiskChecksum devName with
  | .error err => .error err
  | .ok source =>
    match cli.getDiskSize devName with
    | .error err => .error err
    | .ok endOffset =>
      match writer.getDiskChecksum diskId source.algorithm endOffset with
      | .error err => .error err
      | .ok none => .ok ()
      | .ok (some dest) =>
        if source.algorithm ≠ dest.algorithm then
          .error (.checksumAlgorithmMismatch devName source.algorithm dest.algorithm)
        else if source.checksum ≠ dest.checksum then
          .error (.checksumMismatch devName source.checksum dest.checksum)
        else .ok ()

def writeChunks (devName diskId : String) :
    List Chunk → Replicator → Except ReplicatorError Unit × Replicator
  | [], s => (.ok (), s)
  | chunk :: rest, s =>
    match writer.seekRaises diskId chunk.offset with
    | some err => (.error err, s)
    | none =>
      match cli.downloadChunk devName chunk with
      | .error err => (.error err, s)
      | .ok data =>
        match writer.writeRaises diskId chunk.offset data with
        | some err => (.error err, s)
        | none =>
          writeChunks devName diskId rest
            { s with writes := s.writes ++ [⟨diskId, chunk.offset, data⟩] }

/-- The body of the `with backup_writer.open` block of a volume. -/
def writeVolume (verifyChecksum : Bool) (devName diskId : String) (chunks : List Chunk)
    (s : Replicator) : Except ReplicatorError Unit × Replicator :=
  match writer.openRaises diskId with
  | some err => (.error err, s)
  | none =>
    match writeChunks cli writer devName diskId chunks s with
    | (.error err, s) => (.error err, s)
    | (.ok _, s) =>
      match if verifyChecksum then verifyDiskChecksum cli writer devName diskId else .ok () with
      | .error err => (.error err, s)
      | .ok _ =>
        match writer.closeRaises diskId with
        | some err => (.error err, s)
        | none => (.ok (), s)

def replicateVolumes (verifyChecksum isInitial : Bool) (currState : List VolState) :
    List SourceVolume → Replicator → Except ReplicatorError (List VolState) × Replicator
  | [], s => (.ok currState, { s with replState := some currState })
  | volume :: rest, s =>
    match s.volumesInfo.find? (·.diskId = volume.diskId) with
    | none => (.error (.volumeNotFound volume.diskId), s)
    | some dst =>
      match reportedChunks cli isInitial dst volume.devName with
      | .error err => (.error err, s)
      | .ok chunks =>
        let chunks := filterChunks dst.diskSize chunks
        if chunks.isEmpty then
          -- the whole replication ends here
          (.ok currState, { s with replState := some currState })
        else
          match writeVolume cli writer verifyChecksum volume.devName volume.diskId chunks s with
          | (.error err, s) => (.error err, s)
          | (.ok _, s) =>
            let state := findVolState volume.devName currState
            replicateVolumes verifyChecksum isInitial currState rest
              { s with volumesInfo := setReplicaState volume.diskId state s.volumesInfo }

/-- `Replicator.replicate_disks`. -/
def replicateDisks (sourceVolumesInfo : List SourceVolume) (verifyChecksum : Bool)
    (s : Replicator) : Except ReplicatorError (List VolState) × Replicator :=
  let isInitial := (s.replState.getD []).isEmpty
  match cli.getStatus with
  | .error err => (.error err, s)
  | .ok currState =>
    replicateVolumes cli writer verifyChecksum isInitial currState sourceVolumesInfo s

end

section

def Chunk.inside (size : Option Nat) (chunk : Chunk) : Option Chunk :=
  match size with
  | none => some chunk
  | some size =>
    if chunk.offset < size then
      some ⟨chunk.offset, min (chunk.offset + chunk.length) size - chunk.offset⟩
    else none

lemma filterChunks_eq (size : Option Nat) (chunks : List Chunk) :
    filterChunks size chunks = chunks.filterMap (·.inside size) := by
  cases size with
  | none => simp [filterChunks, Chunk.inside]
  | some size =>
    simp only [filterChunks, Chunk.inside]
    congr 1
    funext chunk
    split_ifs with h1 h2
    · rw [Nat.min_eq_right (Nat.le_of_lt h2)]
    · rw [Nat.min_eq_left (Nat.not_lt.mp h2), Nat.add_sub_cancel_left]
    · rfl

variable (cli : Client) (writer : BackupWriter) (verifyChecksum isInitial : Bool)
  (volumesInfo : List VolumeInfo)

/-- The parts of the chunks of a volume that belong on its destination. A volume that has no
entry in `volumes_info` has no known size and is not known to be zeroed; what the replicator
refuses to report is nothing. -/
def parts (volume : SourceVolume) : List Chunk :=
  match volumesInfo.find? (·.diskId = volume.diskId) with
  | none => (cli.getChanges volume.devName).toOption.getD []
  | some dst =>
    ((reportedChunks cli isInitial dst volume.devName).toOption.getD []).filterMap
      (·.inside dst.diskSize)

/-- The data of a part was downloaded and written to the destination of its volume. -/
def Written (writes : List Write) (volume : SourceVolume) (part : Chunk) : Prop :=
  ∃ data, cli.downloadChunk volume.devName part = .ok data ∧
    ⟨volume.diskId, part.offset, data⟩ ∈ writes

/-- What a replication is for: everything reported is on its destination, and nothing else was
written. -/
structure Replicated (volumes : List SourceVolume) (writes : List Write) : Prop where
  written : ∀ volume ∈ volumes, ∀ part ∈ parts cli isInitial volumesInfo volume,
    0 < part.length → Written cli writes volume part
  only : ∀ write ∈ writes, ∃ volume ∈ volumes,
    ∃ part ∈ parts cli isInitial volumesInfo volume, write.diskId = volume.diskId ∧
      write.offset = part.offset ∧ write.data.length ≤ part.length

/-- The destination of a volume is known and the replicator reports its chunks. -/
def Reported (volume : SourceVolume) : Prop :=
  ∃ dst, volumesInfo.find? (·.diskId = volume.diskId) = some dst ∧
    ∃ chunks, reportedChunks cli isInitial dst volume.devName = .ok chunks

/-- Nothing raises while the chunks of a volume are written. -/
structure Writable (volume : SourceVolume) : Prop where
  opens : writer.openRaises volume.diskId = none
  chunks : ∀ part ∈ parts cli isInitial volumesInfo volume,
    writer.seekRaises volume.diskId part.offset = none ∧
      ∃ data, cli.downloadChunk volume.devName part = .ok data ∧
        writer.writeRaises volume.diskId part.offset data = none
  verifies : verifyChecksum = true →
    verifyDiskChecksum cli writer volume.devName volume.diskId = .ok ()
  closes : writer.closeRaises volume.diskId = none

end

section

/-- `volumes_info` without the replica states, which the loop writes but does not read. -/
def eraseStates (volumesInfo : List VolumeInfo) : List VolumeInfo :=
  volumesInfo.map fun dst => { dst with replicaState := none }

lemma eraseStates_setReplicaState (diskId : String) (state : Option VolState)
    (volumesInfo : List VolumeInfo) :
    eraseStates (setReplicaState diskId state volumesInfo) = eraseStates volumesInfo := by
  induction volumesInfo with
  | nil => rfl
  | cons dst rest ih =>
    simp only [setReplicaState]
    split
    · rfl
    · simpa [eraseStates] using ih

variable {volume : SourceVolume}

lemma find?_eraseStates (diskId : String) (volumesInfo : List VolumeInfo) :
    (eraseStates volumesInfo).find? (·.diskId = diskId) =
      (volumesInfo.find? (·.diskId = diskId)).map fun dst => { dst with replicaState := none } := by
  simp only [eraseStates, List.find?_map]
  rfl

lemma parts_eraseStates :
    parts cli isInitial (eraseStates volumesInfo) volume =
      parts cli isInitial volumesInfo volume := by
  simp only [parts, find?_eraseStates]
  cases volumesInfo.find? (·.diskId = volume.diskId) <;> rfl

lemma reported_eraseStates :
    Reported cli isInitial (eraseStates volumesInfo) volume ↔
      Reported cli isInitial volumesInfo volume := by
  simp only [Reported, find?_eraseStates]
  cases volumesInfo.find? (·.diskId = volume.diskId) <;> simp [reportedChunks]

lemma writable_eraseStates :
    Writable cli writer verifyChecksum isInitial (eraseStates volumesInfo) volume ↔
      Writable cli writer verifyChecksum isInitial volumesInfo volume := by
  constructor
  · rintro ⟨h1, h2, h3, h4⟩
    exact ⟨h1, fun part hp => h2 part (by rwa [parts_eraseStates]), h3, h4⟩
  · rintro ⟨h1, h2, h3, h4⟩
    exact ⟨h1, fun part hp => h2 part (by rwa [parts_eraseStates] at hp), h3, h4⟩

end

section

variable {cli : Client} {devName diskId : String} {s s' : Replicator}

def volumeWrites (cli : Client) (devName diskId : String) (chunks : List Chunk) : List Write :=
  chunks.map fun chunk =>
    ⟨diskId, chunk.offset, (cli.downloadChunk devName chunk).toOption.getD []⟩

def Replicator.wrote (s : Replicator) (writes : List Write) : Replicator :=
  { s with writes := s.writes ++ writes }

lemma writeChunks_ok (h : ∀ part ∈ chunks, writer.seekRaises diskId part.offset = none ∧
      ∃ data, cli.downloadChunk devName part = .ok data ∧
        writer.writeRaises diskId part.offset data = none) :
    writeChunks cli writer devName diskId chunks s =
      (.ok (), s.wrote (volumeWrites cli devName diskId chunks)) := by
  induction chunks generalizing s with
  | nil => simp [writeChunks, volumeWrites, Replicator.wrote]
  | cons chunk rest ih =>
    obtain ⟨hseek, data, hdata, hwrite⟩ := h chunk List.mem_cons_self
    rw [writeChunks, hseek]
    simp only [hdata, hwrite]
    rw [ih fun part hp => h part (List.mem_cons_of_mem _ hp)]
    simp [volumeWrites, hdata, Except.toOption, Replicator.wrote]

lemma writeChunks_inv (h : writeChunks cli writer devName diskId chunks s = (.ok u, s')) :
    ∀ part ∈ chunks, writer.seekRaises diskId part.offset = none ∧
      ∃ data, cli.downloadChunk devName part = .ok data ∧
        writer.writeRaises diskId part.offset data = none := by
  induction chunks generalizing s with
  | nil => simp
  | cons chunk rest ih =>
    rw [writeChunks] at h
    split at h
    · simp at h
    rename_i hseek
    split at h
    · simp at h
    rename_i data hdata
    split at h
    · simp at h
    rename_i hwrite
    intro part hp
    rcases List.mem_cons.mp hp with rfl | hp
    · exact ⟨hseek, data, hdata, hwrite⟩
    · exact ih h part hp

lemma writeVolume_ok (h : Writable cli writer verifyChecksum isInitial volumesInfo volume) :
    writeVolume cli writer verifyChecksum volume.devName volume.diskId
        (parts cli isInitial volumesInfo volume) s =
      (.ok (), s.wrote (volumeWrites cli volume.devName volume.diskId
        (parts cli isInitial volumesInfo volume))) := by
  have hverify : (if verifyChecksum then verifyDiskChecksum cli writer volume.devName volume.diskId
      else .ok ()) = .ok () := by
    split
    · rename_i hv
      exact h.verifies hv
    · rfl
  simp only [writeVolume, h.opens, writeChunks_ok h.chunks, hverify, h.closes]

lemma writeVolume_inv (h : writeVolume cli writer verifyChecksum volume.devName volume.diskId
      (parts cli isInitial volumesInfo volume) s = (.ok u, s')) :
    Writable cli writer verifyChecksum isInitial volumesInfo volume := by
  rw [writeVolume] at h
  split at h
  · simp at h
  rename_i hopen
  split at h
  · simp at h
  rename_i hchunks
  split at h
  · simp at h
  rename_i hverify
  split at h
  · simp at h
  rename_i hclose
  refine ⟨hopen, writeChunks_inv hchunks, fun hv => ?_, hclose⟩
  rwa [if_pos hv] at hverify

end

section

variable {cli : Client} {writer : BackupWriter} {verifyChecksum isInitial : Bool}
  {currState : List VolState} {volumesInfo : List VolumeInfo} {s s' : Replicator}
  {volume : SourceVolume}

lemma parts_of_reported (hdst : volumesInfo.find? (·.diskId = volume.diskId) = some dst)
    (hchunks : reportedChunks cli isInitial dst volume.devName = .ok chunks) :
    parts cli isInitial volumesInfo volume = filterChunks dst.diskSize chunks := by
  simp [parts, hdst, hchunks, filterChunks_eq, Except.toOption]

/-- A volume that is replicated, with something to write. -/
structure Replicates (cli : Client) (writer : BackupWriter) (verifyChecksum isInitial : Bool)
    (volumesInfo : List VolumeInfo) (volume : SourceVolume) : Prop where
  reported : Reported cli isInitial volumesInfo volume
  nonempty : parts cli isInitial volumesInfo volume ≠ []
  writable : Writable cli writer verifyChecksum isInitial volumesInfo volume

def volumesWrites (cli : Client) (isInitial : Bool) (volumesInfo : List VolumeInfo)
    (volumes : List SourceVolume) : List Write :=
  volumes.flatMap fun volume =>
    volumeWrites cli volume.devName volume.diskId (parts cli isInitial volumesInfo volume)

lemma replicateVolumes_nothing (h : Reported cli isInitial s.volumesInfo volume)
    (hempty : parts cli isInitial s.volumesInfo volume = []) :
    replicateVolumes cli writer verifyChecksum isInitial currState (volume :: rest) s =
      (.ok currState, { s with replState := some currState }) := by
  obtain ⟨dst, hdst, chunks, hchunks⟩ := h
  rw [parts_of_reported hdst hchunks] at hempty
  simp only [replicateVolumes, hdst, hchunks, hempty, List.isEmpty_nil, if_true]

lemma replicateVolumes_replicates
    (h : Replicates cli writer verifyChecksum isInitial s.volumesInfo volume) :
    replicateVolumes cli writer verifyChecksum isInitial currState (volume :: rest) s =
      replicateVolumes cli writer verifyChecksum isInitial currState rest
        ⟨setReplicaState volume.diskId (findVolState volume.devName currState) s.volumesInfo,
          s.replState, s.writes ++ volumeWrites cli volume.devName volume.diskId
            (parts cli isInitial s.volumesInfo volume)⟩ := by
  obtain ⟨⟨dst, hdst, chunks, hchunks⟩, hne, hw⟩ := h
  have hparts := parts_of_reported hdst hchunks
  have hwrite := writeVolume_ok (s := s) hw
  rw [hparts] at hne hwrite ⊢
  have hempty : (filterChunks dst.diskSize chunks).isEmpty = false := by simpa using hne
  simp only [replicateVolumes, hdst, hchunks, hempty, hwrite]
  rfl

lemma replicateVolumes_cons_inv
    (h : replicateVolumes cli writer verifyChecksum isInitial currState (volume :: rest) s =
      (.ok st, s')) :
    Reported cli isInitial s.volumesInfo volume ∧
      (parts cli isInitial s.volumesInfo volume = [] ∨
        Replicates cli writer verifyChecksum isInitial s.volumesInfo volume) := by
  rw [replicateVolumes] at h
  split at h
  · simp at h
  rename_i dst hdst
  split at h
  · simp at h
  rename_i chunks hchunks
  have hrep : Reported cli isInitial s.volumesInfo volume := ⟨dst, hdst, chunks, hchunks⟩
  have hparts := parts_of_reported hdst hchunks
  refine ⟨hrep, ?_⟩
  simp only at h
  split at h
  · rename_i hempty
    exact .inl (by simpa [hparts] using hempty)
  · rename_i hne
    right
    split at h
    · simp at h
    rename_i hwrite
    refine ⟨hrep, by simpa [hparts] using hne, ?_⟩
    rw [← hparts] at hwrite
    exact writeVolume_inv hwrite

lemma replicates_congr (h : eraseStates volumesInfo = eraseStates volumesInfo')
    (hr : Replicates cli writer verifyChecksum isInitial volumesInfo volume) :
    Replicates cli writer verifyChecksum isInitial volumesInfo' volume := by
  obtain ⟨h1, h2, h3⟩ := hr
  rw [← reported_eraseStates, h, reported_eraseStates] at h1
  rw [← parts_eraseStates, h, parts_eraseStates] at h2
  rw [← writable_eraseStates, h, writable_eraseStates] at h3
  exact ⟨h1, h2, h3⟩

lemma replicateVolumes_append
    (hpre : ∀ u ∈ pre, Replicates cli writer verifyChecksum isInitial volumesInfo u)
    (hs : eraseStates s.volumesInfo = eraseStates volumesInfo) :
    ∃ s₁, eraseStates s₁.volumesInfo = eraseStates volumesInfo ∧
      s₁.writes = s.writes ++ volumesWrites cli isInitial volumesInfo pre ∧
      ∀ rest, replicateVolumes cli writer verifyChecksum isInitial currState (pre ++ rest) s =
        replicateVolumes cli writer verifyChecksum isInitial currState rest s₁ := by
  induction pre generalizing s with
  | nil => exact ⟨s, hs, by simp [volumesWrites], fun rest => rfl⟩
  | cons volume pre ih =>
    have hvol := replicates_congr hs.symm (hpre volume List.mem_cons_self)
    have hparts : parts cli isInitial s.volumesInfo volume =
        parts cli isInitial volumesInfo volume := by
      rw [← parts_eraseStates, hs, parts_eraseStates]
    obtain ⟨s₁, h1, h2, h3⟩ := @ih
      ⟨setReplicaState volume.diskId (findVolState volume.devName currState) s.volumesInfo,
        s.replState, s.writes ++ volumeWrites cli volume.devName volume.diskId
          (parts cli isInitial s.volumesInfo volume)⟩
      (fun u hu => hpre u (List.mem_cons_of_mem _ hu))
      ((eraseStates_setReplicaState _ _ _).trans hs)
    refine ⟨s₁, h1, ?_, fun rest => ?_⟩
    · simp [h2, volumesWrites, hparts]
    · rw [List.cons_append, replicateVolumes_replicates hvol]
      exact h3 rest

/-- Where the loop was when it returned: at the end, or at a volume without chunks. -/
lemma replicateVolumes_inv (hs : eraseStates s.volumesInfo = eraseStates volumesInfo)
    (h : replicateVolumes cli writer verifyChecksum isInitial currState volumes s = (.ok st, s')) :
    ∃ pre post, volumes = pre ++ post ∧
      (∀ u ∈ pre, Replicates cli writer verifyChecksum isInitial volumesInfo u) ∧
      (post = [] ∨ ∃ v rest, post = v :: rest ∧ Reported cli isInitial volumesInfo v ∧
        parts cli isInitial volumesInfo v = []) ∧
      s'.writes = s.writes ++ volumesWrites cli isInitial volumesInfo pre := by
  induction volumes generalizing s with
  | nil =>
    obtain ⟨-, rfl⟩ : _ ∧ { s with replState := some currState } = s' := by
      simpa [replicateVolumes] using h
    exact ⟨[], [], rfl, by simp, .inl rfl, by simp [volumesWrites]⟩
  | cons volume rest ih =>
    obtain ⟨hrep, hempty | hvol⟩ := replicateVolumes_cons_inv h
    · rw [replicateVolumes_nothing hrep hempty] at h
      obtain ⟨-, rfl⟩ : _ ∧ { s with replState := some currState } = s' := by simpa using h
      rw [← reported_eraseStates, hs, reported_eraseStates] at hrep
      rw [← parts_eraseStates, hs, parts_eraseStates] at hempty
      exact ⟨[], volume :: rest, rfl, by simp, .inr ⟨volume, rest, rfl, hrep, hempty⟩,
        by simp [volumesWrites]⟩
    · rw [replicateVolumes_replicates hvol] at h
      obtain ⟨pre, post, rfl, hpre, hpost, hwrites⟩ :=
        ih ((eraseStates_setReplicaState _ _ _).trans hs) h
      have hvol' := replicates_congr hs hvol
      have hparts : parts cli isInitial s.volumesInfo volume =
          parts cli isInitial volumesInfo volume := by
        rw [← parts_eraseStates, hs, parts_eraseStates]
      refine ⟨volume :: pre, post, rfl, ?_, hpost, ?_⟩
      · intro u hu
        rcases List.mem_cons.mp hu with rfl | hu
        · exact hvol'
        · exact hpre u hu
      · simp [hwrites, volumesWrites, hparts]

end

section

variable {cli : Client} {writer : BackupWriter} {verifyChecksum isInitial : Bool}
  {volumesInfo : List VolumeInfo} {volumes pre post : List SourceVolume}

/-- A part of a volume is a part of an earlier entry for the same disk as well. -/
def Covered (cli : Client) (isInitial : Bool) (volumesInfo : List VolumeInfo)
    (pre : List SourceVolume) (volume : SourceVolume) (part : Chunk) : Prop :=
  ∃ u ∈ pre, u.diskId = volume.diskId ∧ ∃ p ∈ parts cli isInitial volumesInfo u,
    p.offset = part.offset ∧ ∃ data, cli.downloadChunk u.devName p = .ok data ∧
      cli.downloadChunk volume.devName part = .ok data

lemma mem_volumesWrites :
    write ∈ volumesWrites cli isInitial volumesInfo volumes ↔
      ∃ u ∈ volumes, ∃ p ∈ parts cli isInitial volumesInfo u,
        write = ⟨u.diskId, p.offset, (cli.downloadChunk u.devName p).toOption.getD []⟩ := by
  simp only [volumesWrites, volumeWrites, List.mem_flatMap, List.mem_map, eq_comm]

lemma covered_iff_written
    (hpre : ∀ u ∈ pre, Replicates cli writer verifyChecksum isInitial volumesInfo u) :
    Covered cli isInitial volumesInfo pre volume part ↔
      Written cli (volumesWrites cli isInitial volumesInfo pre) volume part := by
  constructor
  · rintro ⟨u, hu, hdisk, p, hp, hoff, data, hdata, hpart⟩
    refine ⟨data, hpart, mem_volumesWrites.mpr ⟨u, hu, p, hp, ?_⟩⟩
    simp [hdisk, hoff, hdata, Except.toOption]
  · rintro ⟨data, hpart, hmem⟩
    obtain ⟨u, hu, p, hp, heq⟩ := mem_volumesWrites.mp hmem
    obtain ⟨-, data', hdata', -⟩ := (hpre u hu).writable.chunks p hp
    simp only [hdata', Except.toOption, Option.getD_some, Write.mk.injEq] at heq
    obtain ⟨hdisk, hoff, rfl⟩ := heq
    exact ⟨u, hu, hdisk.symm, p, hp, hoff.symm, data, hdata', hpart⟩

/-- The writes of volumes that are replicated stay inside the parts of their chunks, when the
replicator answers a request with no more bytes than it asks for. -/
lemma volumesWrites_inside (hrange : ∀ disk first length data,
      cli.getRange disk first (first + (length : Nat) - 1) = .ok data → data.length ≤ length)
    (hpre : ∀ u ∈ pre, Replicates cli writer verifyChecksum isInitial volumesInfo u)
    (hw : write ∈ volumesWrites cli isInitial volumesInfo pre) :
    ∃ u ∈ pre, ∃ p ∈ parts cli isInitial volumesInfo u, write.diskId = u.diskId ∧
      write.offset = p.offset ∧ write.data.length ≤ p.length := by
  obtain ⟨u, hu, p, hp, rfl⟩ := mem_volumesWrites.mp hw
  obtain ⟨-, data, hdata, -⟩ := (hpre u hu).writable.chunks p hp
  refine ⟨u, hu, p, hp, rfl, rfl, ?_⟩
  simp only [hdata, Except.toOption, Option.getD_some]
  exact hrange _ _ _ _ hdata

lemma written_of_mem
    (hpre : ∀ u ∈ pre, Replicates cli writer verifyChecksum isInitial volumesInfo u) (hu : u ∈ pre)
    (hp : part ∈ parts cli isInitial volumesInfo u) :
    Written cli (volumesWrites cli isInitial volumesInfo pre) u part := by
  obtain ⟨-, data, hdata, -⟩ := (hpre u hu).writable.chunks part hp
  exact (covered_iff_written hpre).mp ⟨u, hu, rfl, part, hp, rfl, data, hdata, hdata⟩

/-- A replication that returns has written every part of every chunk, and nothing else, exactly
when every volume after one without chunks has nothing to write that an earlier entry for its
disk has not written. -/
theorem replicateDisks_complete_iff (cli : Client) (writer : BackupWriter)
    (volumes : List SourceVolume) (verifyChecksum : Bool) (volumesInfo : List VolumeInfo)
    (replState : Option (List VolState))
    (hrange : ∀ disk first length data,
      cli.getRange disk first (first + (length : Nat) - 1) = .ok data → data.length ≤ length) :
    let isInitial := (replState.getD []).isEmpty
    (∀ st s', replicateDisks cli writer volumes verifyChecksum ⟨volumesInfo, replState, []⟩ =
        (.ok st, s') → Replicated cli isInitial volumesInfo volumes s'.writes) ↔
      ∀ st, cli.getStatus = .ok st → ∀ pre v post, volumes = pre ++ v :: post →
        (∀ u ∈ pre, Replicates cli writer verifyChecksum isInitial volumesInfo u) →
        Reported cli isInitial volumesInfo v → parts cli isInitial volumesInfo v = [] →
        ∀ u ∈ post, ∀ part ∈ parts cli isInitial volumesInfo u, 0 < part.length →
          Covered cli isInitial volumesInfo pre u part := by
  intro isInitial
  constructor
  · rintro h st hst pre v post rfl hpre hrep hempty u hu part hpart hpos
    obtain ⟨s₁, hs₁, hwrites, hrun⟩ := @replicateVolumes_append _ _ _ _ st _
      ⟨volumesInfo, replState, []⟩ _ hpre rfl
    have hret : replicateDisks cli writer (pre ++ v :: post) verifyChecksum
        ⟨volumesInfo, replState, []⟩ = (.ok st, { s₁ with replState := some st }) := by
      simp only [replicateDisks, hst]
      rw [hrun]
      apply replicateVolumes_nothing
      · rwa [← reported_eraseStates, hs₁, reported_eraseStates]
      · rwa [← parts_eraseStates, hs₁, parts_eraseStates]
    have hwritten := (h _ _ hret).written u (by simp [hu]) part hpart hpos
    rw [covered_iff_written hpre]
    simpa [hwrites] using hwritten
  · intro h st s' hret
    rw [replicateDisks] at hret
    split at hret
    · simp at hret
    rename_i currState hstatus
    obtain ⟨pre, post, rfl, hpre, hpost, hwrites⟩ :=
      @replicateVolumes_inv _ _ _ _ _ volumesInfo _ _ _ _ rfl hret
    rw [hwrites, List.nil_append]
    refine ⟨fun u hu part hpart hpos => ?_, fun write hw => ?_⟩
    · rcases List.mem_append.mp hu with hu | hu
      · exact written_of_mem hpre hu hpart
      · rcases hpost with rfl | ⟨v, rest, rfl, hrep, hempty⟩
        · simp at hu
        · rcases List.mem_cons.mp hu with rfl | hu
          · rw [hempty] at hpart
            simp at hpart
          · exact (covered_iff_written hpre).mp
              (h currState hstatus pre v rest rfl hpre hrep hempty u hu part hpart hpos)
    · obtain ⟨u, hu, hin⟩ := volumesWrites_inside hrange hpre hw
      exact ⟨u, List.mem_append_left _ hu, hin⟩

end

/-- A replicator with two devices; only the given one has a changed chunk, of zeros. -/
def changedOnly (device : String) : Client where
  getStatus := .ok []
  getChunks _ _ := .ok []
  getChanges disk := .ok (if disk = device then [⟨0, 2⟩] else [])
  getRange _ first last := .ok (List.replicate (last - first + 1).toNat 0)
  getDiskChecksum _ := .error (.raised "checksums are off")
  getDiskSize _ := .error (.raised "checksums are off")

lemma changedOnly_getRange (device disk : String) (first length : Nat) (data : List UInt8)
    (h : (changedOnly device).getRange disk first (first + (length : Nat) - 1) = .ok data) :
    data.length ≤ length := by
  obtain rfl : List.replicate _ 0 = data := Except.ok.inj h
  rw [List.length_replicate]
  omega

def fileWriter : BackupWriter where
  openRaises _ := none
  seekRaises _ _ := none
  writeRaises _ _ _ := none
  getDiskChecksum _ _ _ := .ok none
  closeRaises _ := none

def twoVolumes : List SourceVolume := [⟨"vol1", "/dev/sdb"⟩, ⟨"vol2", "/dev/sdc"⟩]

def twoDestinations : List VolumeInfo :=
  [⟨"vol1", false, none, none, none⟩, ⟨"vol2", false, none, none, none⟩]

/-- A second sync in which only the second disk has changed replicates nothing. -/
theorem second_disk_not_replicated :
    ∃ st s', replicateDisks (changedOnly "sdc") fileWriter twoVolumes false
        ⟨twoDestinations, some [⟨"sdb"⟩], []⟩ = (.ok st, s') ∧
      ¬Replicated (changedOnly "sdc") false twoDestinations twoVolumes s'.writes := by
  refine ⟨[], ⟨twoDestinations, some [], []⟩, by rfl, fun h => ?_⟩
  obtain ⟨data, -, hmem⟩ := h.written ⟨"vol2", "/dev/sdc"⟩ (by simp [twoVolumes]) ⟨0, 2⟩
    (by decide) (by decide)
  simp at hmem

/-- When only the first disk has changed, the replication is complete. -/
theorem replicateDisks_complete_first :
    ((changedOnly "sdb").getRange "sdb" 0 1 = .ok [0, 0]) ∧
    ∀ st s', replicateDisks (changedOnly "sdb") fileWriter twoVolumes false
        ⟨twoDestinations, some [⟨"sdb"⟩], []⟩ = (.ok st, s') →
      Replicated (changedOnly "sdb") false twoDestinations twoVolumes s'.writes := by
  refine ⟨rfl, (replicateDisks_complete_iff (changedOnly "sdb") fileWriter twoVolumes false
    twoDestinations (some [⟨"sdb"⟩]) (changedOnly_getRange "sdb")).mpr ?_⟩
  rintro st - pre v post hsplit - - hempty u hu
  cases pre with
  | nil =>
    -- the first volume has a chunk
    obtain ⟨rfl, -⟩ : ⟨"vol1", "/dev/sdb"⟩ = v ∧ _ := by simpa [twoVolumes] using hsplit
    cases hempty
  | cons a pre =>
    have hlength := congrArg List.length hsplit
    simp only [twoVolumes, List.length_cons, List.length_append, List.length_nil] at hlength
    obtain rfl : post = [] := List.eq_nil_of_length_eq_zero (by omega)
    simp at hu

end Coriolis.Providers

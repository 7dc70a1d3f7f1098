import Coriolis.Library.Bytes
import Coriolis.Providers.Replicator

/-!
# Replications one after the other

A transfer is replicated again and again. Each run of `replicate_disks` sees its own snapshot of
the source, and writes to the same destinations; a run that fails leaves there what it has
written so far. The state a run returns is given to the next one, and decides what that run
leaves out: zeros if there is no state and the destination was zeroed, and what did not change
since the state was taken otherwise.

A run that fails writes data without leaving a state of it, so the next run may leave out a
chunk that is not what it was. `Replication.destination_of_runs` says when that cannot happen.
-/

namespace Coriolis.Providers

/-- How the replicator divides its devices into chunks. -/
structure Grid where
  size : String → Nat
  chunks : String → List Chunk
  pos : ∀ dev, ∀ chunk ∈ chunks dev, 0 < chunk.length
  inside : ∀ dev, ∀ chunk ∈ chunks dev, chunk.offset + chunk.length ≤ size dev
  covers : ∀ dev i, i < size dev →
    ∃ chunk ∈ chunks dev, chunk.offset ≤ i ∧ i < chunk.offset + chunk.length
  disjoint : ∀ dev, ∀ chunk ∈ chunks dev, ∀ chunk' ∈ chunks dev, chunk ≠ chunk' →
    chunk.offset + chunk.length ≤ chunk'.offset ∨ chunk'.offset + chunk'.length ≤ chunk.offset

def Chunk.of (chunk : Chunk) (disk : List UInt8) : List UInt8 :=
  Bytes.slice disk chunk.offset chunk.length

abbrev Snapshot := String → List UInt8

/-- One run of `replicate_disks`. -/
structure Sync where
  cli : Client
  writer : BackupWriter
  verifyChecksum : Bool
  incremental : Bool
  /-- The source as the run sees it. -/
  source : Snapshot

/-- What is left of the runs so far. -/
structure Replication where
  volumesInfo : List VolumeInfo
  /-- `source_resources["replica_state"]`. -/
  replicaState : Option (List VolState)
  /-- The disks at the destination, by their ids. -/
  destination : String → List UInt8
  /-- The snapshot of which the replica state is the state. -/
  recorded : Option Snapshot
  /-- What was written by the runs that failed after it was recorded. -/
  since : List Write
  /-- Everything that was ever written. -/
  ever : List Write

def Write.apply (disks : String → List UInt8) (write : Write) : String → List UInt8 :=
  Function.update disks write.diskId
    (Bytes.overlay (disks write.diskId) write.offset write.data)

namespace Sync

def replicator (sync : Sync) (t : Replication) : Replicator :=
  ⟨t.volumesInfo, if sync.incremental then t.replicaState else none, []⟩

def base (sync : Sync) (t : Replication) : Option Snapshot :=
  if sync.incremental then t.recorded else none

def run (volumes : List SourceVolume) (sync : Sync) (t : Replication) :
    Except ReplicatorError (List VolState) × Replication :=
  match replicateDisks sync.cli sync.writer volumes sync.verifyChecksum (sync.replicator t) with
  | (.error err, s) =>
    (.error err, { t with
      destination := s.writes.foldl Write.apply t.destination
      since := t.since ++ s.writes
      ever := t.ever ++ s.writes })
  | (.ok st, s) =>
    (.ok st, {
      volumesInfo := s.volumesInfo
      replicaState := s.replState
      destination := s.writes.foldl Write.apply t.destination
      recorded := some sync.source
      since := []
      ever := t.ever ++ s.writes })

/-- The replicator answers for its snapshot: it reports the chunks that are not all zeros, and
those that are not as in the base snapshot. -/
structure Faithful (grid : Grid) (sync : Sync) (base : Option Snapshot) : Prop where
  size : ∀ dev, (sync.source dev).length = grid.size dev
  status : ∀ st, sync.cli.getStatus = .ok st → st ≠ []
  chunks : ∀ dev chunks, sync.cli.getChunks dev true = .ok chunks → ∀ chunk,
    chunk ∈ chunks ↔ chunk ∈ grid.chunks dev ∧ ∃ b ∈ chunk.of (sync.source dev), b ≠ 0
  changes : ∀ dev chunks, sync.cli.getChanges dev = .ok chunks → ∀ chunk,
    chunk ∈ chunks ↔ chunk ∈ grid.chunks dev ∧
      ∀ old, base = some old → chunk.of (old dev) ≠ chunk.of (sync.source dev)
  range : ∀ dev (first length : Nat) data,
    sync.cli.getRange dev first (first + length - 1) = .ok data → 0 < length →
      data = Bytes.slice (sync.source dev) first length

/-- A chunk of a volume that a run has to transfer: one that changed, or any one if there is
nothing to compare it with, without the zeros if the destination was zeroed. -/
def Due (sync : Sync) (t : Replication) (volume : SourceVolume) (chunk : Chunk) : Prop :=
  match sync.base t with
  | some old => chunk.of (old volume.devName) ≠ chunk.of (sync.source volume.devName)
  | none => (∃ dst, t.volumesInfo.find? (·.diskId = volume.diskId) = some dst ∧ dst.zeroed = true) →
      ∃ b ∈ chunk.of (sync.source volume.devName), b ≠ 0

/-- When a run brings the destinations up to date. -/
structure Sound (grid : Grid) (volumes : List SourceVolume) (sync : Sync) (t : Replication) :
    Prop where
  /-- The run does not end at a volume that has nothing to transfer while a later one has. -/
  all : ∀ pre volume post, volumes = pre ++ volume :: post →
    (∀ chunk ∈ grid.chunks volume.devName, ¬sync.Due t volume chunk) →
    ∀ later ∈ post, ∀ chunk ∈ grid.chunks later.devName, ¬sync.Due t later chunk
  /-- A chunk that is not transferred was not written by a run that failed, or, when there is no
  state to compare with, by any run. -/
  clean : ∀ volume ∈ volumes, ∀ chunk ∈ grid.chunks volume.devName, ¬sync.Due t volume chunk →
    ∀ write ∈ if (sync.base t).isSome then t.since else t.ever,
      write.diskId = volume.diskId → write.offset ≠ chunk.offset

end Sync

/-- The destinations are not smaller than the devices, as far as their sizes are known. -/
def Grid.Fits (grid : Grid) (volumes : List SourceVolume) (volumesInfo : List VolumeInfo) : Prop :=
  ∀ volume ∈ volumes, ∀ dst, volumesInfo.find? (·.diskId = volume.diskId) = some dst →
    ∀ size, dst.diskSize = some size → grid.size volume.devName ≤ size

/-- What a replication can be after some runs. The destinations begin as zeros. -/
inductive Replication.Reached (grid : Grid) (volumes : List SourceVolume) : Replication → Prop
  | start {volumesInfo : List VolumeInfo} {destination : String → List UInt8}
      (hfits : grid.Fits volumes volumesInfo)
      (hzeros : ∀ volume ∈ volumes,
        destination volume.diskId = List.replicate (grid.size volume.devName) 0) :
      Reached grid volumes ⟨volumesInfo, none, destination, none, [], []⟩
  | run {t : Replication} {sync : Sync} (h : Reached grid volumes t)
      (hfaithful : sync.Faithful grid (sync.base t))
      (hsound : ∀ st, (sync.run volumes t).1 = .ok st → sync.Sound grid volumes t) :
      Reached grid volumes (sync.run volumes t).2

section

variable {cli : Client} {writer : BackupWriter} {verifyChecksum isInitial : Bool}
  {volumesInfo : List VolumeInfo} {s : Replicator} {devName diskId : String}

def Transfers (cli : Client) (isInitial : Bool) (volumesInfo : List VolumeInfo)
    (volume : SourceVolume) (write : Write) : Prop :=
  ∃ part ∈ parts cli isInitial volumesInfo volume, ∃ data,
    cli.downloadChunk volume.devName part = .ok data ∧ write = ⟨volume.diskId, part.offset, data⟩

lemma writeChunks_frame (chunks : List Chunk) :
    (writeChunks cli writer devName diskId chunks s).2.volumesInfo = s.volumesInfo := by
  induction chunks generalizing s with
  | nil => rfl
  | cons chunk rest ih =>
    rw [writeChunks]
    repeat' split
    all_goals first | rfl | exact ih

lemma writeChunks_writes (chunks : List Chunk)
    (h : write ∈ (writeChunks cli writer devName diskId chunks s).2.writes) :
    write ∈ s.writes ∨ ∃ part ∈ chunks, ∃ data, cli.downloadChunk devName part = .ok data ∧
      write = ⟨diskId, part.offset, data⟩ := by
  induction chunks generalizing s with
  | nil => exact .inl h
  | cons chunk rest ih =>
    rw [writeChunks] at h
    split at h
    · exact .inl h
    split at h
    · exact .inl h
    rename_i data hdata
    split at h
    · exact .inl h
    rcases ih h with h | ⟨part, hpart, hwrite⟩
    · rcases List.mem_append.mp h with h | h
      · exact .inl h
      · exact .inr ⟨chunk, List.mem_cons_self, data, hdata, List.mem_singleton.mp h⟩
    · exact .inr ⟨part, List.mem_cons_of_mem _ hpart, hwrite⟩

lemma writeVolume_eq (chunks : List Chunk) :
    (writeVolume cli writer verifyChecksum devName diskId chunks s).2 = s ∨
      (writeVolume cli writer verifyChecksum devName diskId chunks s).2 =
        (writeChunks cli writer devName diskId chunks s).2 := by
  unfold writeVolume
  repeat' split
  all_goals first | exact .inl rfl | exact .inr (by simp_all)

lemma writeVolume_frame (chunks : List Chunk) :
    (writeVolume cli writer verifyChecksum devName diskId chunks s).2.volumesInfo =
      s.volumesInfo := by
  rcases @writeVolume_eq cli writer verifyChecksum s devName diskId chunks with h | h
  · rw [h]
  · rw [h, writeChunks_frame]

lemma writeVolume_writes (chunks : List Chunk)
    (h : write ∈ (writeVolume cli writer verifyChecksum devName diskId chunks s).2.writes) :
    write ∈ s.writes ∨ ∃ part ∈ chunks, ∃ data, cli.downloadChunk devName part = .ok data ∧
      write = ⟨diskId, part.offset, data⟩ := by
  rcases @writeVolume_eq cli writer verifyChecksum s devName diskId chunks with heq | heq
  · exact .inl (heq ▸ h)
  · exact writeChunks_writes chunks (heq ▸ h)

lemma replicateVolumes_writes (hs : eraseStates s.volumesInfo = eraseStates volumesInfo)
    (h : write ∈ (replicateVolumes cli writer verifyChecksum isInitial currState volumes s).2.writes) :
    write ∈ s.writes ∨ ∃ volume ∈ volumes, Transfers cli isInitial volumesInfo volume write := by
  induction volumes generalizing s with
  | nil => exact .inl h
  | cons volume rest ih =>
    rw [replicateVolumes] at h
    split at h
    · exact .inl h
    rename_i dst hdst
    split at h
    · exact .inl h
    rename_i chunks hchunks
    have hparts : filterChunks dst.diskSize chunks = parts cli isInitial volumesInfo volume := by
      rw [← parts_of_reported hdst hchunks, ← parts_eraseStates, hs, parts_eraseStates]
    simp only [hparts] at h
    split at h
    · exact .inl h
    generalize hres : writeVolume cli writer verifyChecksum volume.devName volume.diskId
      (parts cli isInitial volumesInfo volume) s = res at h
    have hvolume : ∀ write ∈ res.2.writes, write ∈ s.writes ∨
        ∃ u ∈ volume :: rest, Transfers cli isInitial volumesInfo u write := by
      intro write hwrite
      refine (writeVolume_writes _ (hres ▸ hwrite)).imp_right fun hpart => ?_
      exact ⟨volume, List.mem_cons_self, hpart⟩
    have hinfo : res.2.volumesInfo = s.volumesInfo := hres ▸ writeVolume_frame _
    rcases res with ⟨err | u, s₁⟩
    · exact hvolume write h
    · rcases ih ((eraseStates_setReplicaState ..).trans ((congrArg eraseStates hinfo).trans hs)) h
        with h | ⟨u, hu, htransfers⟩
      · exact hvolume write h
      · exact .inr ⟨u, List.mem_cons_of_mem _ hu, htransfers⟩

lemma replicateDisks_writes (h : write ∈ (replicateDisks cli writer volumes verifyChecksum
      ⟨volumesInfo, replState, []⟩).2.writes) :
    ∃ volume ∈ volumes,
      Transfers cli (replState.getD []).isEmpty volumesInfo volume write := by
  rw [replicateDisks] at h
  split at h
  · simp at h
  · exact (replicateVolumes_writes rfl h).resolve_left (by simp)

end

section

variable {grid : Grid} {volumes : List SourceVolume} {source : Snapshot}
  {disks : String → List UInt8} {writes : List Write} {write : Write} {volume : SourceVolume}
  {chunk : Chunk}

def Grid.Writes (grid : Grid) (volumes : List SourceVolume) (source : Snapshot)
    (write : Write) : Prop :=
  ∃ volume ∈ volumes, ∃ chunk ∈ grid.chunks volume.devName,
    write = ⟨volume.diskId, chunk.offset, chunk.of (source volume.devName)⟩

def Grid.Sized (grid : Grid) (volumes : List SourceVolume) (disks : String → List UInt8) : Prop :=
  ∀ volume ∈ volumes, (disks volume.diskId).length = grid.size volume.devName

def Write.Hits (write : Write) (volume : SourceVolume) (chunk : Chunk) : Prop :=
  write.diskId = volume.diskId ∧ write.offset = chunk.offset

def Consistent (volumes : List SourceVolume) : Prop :=
  ∀ u ∈ volumes, ∀ v ∈ volumes, u.diskId = v.diskId → u.devName = v.devName

lemma Grid.eq_of_offset (hc : c ∈ grid.chunks dev) (hc' : c' ∈ grid.chunks dev)
    (h : c.offset = c'.offset) : c = c' := by
  by_contra hne
  have := grid.disjoint dev c hc c' hc' hne
  have := grid.pos dev c hc
  have := grid.pos dev c' hc'
  omega

variable (hsource : ∀ dev, (source dev).length = grid.size dev) (hvolumes : Consistent volumes)

include hsource hvolumes

section

variable (h : grid.Writes volumes source write) (hsized : grid.Sized volumes disks)

include h hsized

lemma Grid.Writes.inside (hvolume : volume ∈ volumes) (hdisk : write.diskId = volume.diskId) :
    ∃ chunk ∈ grid.chunks volume.devName, write.offset = chunk.offset ∧
      write.data = chunk.of (source volume.devName) ∧ write.data.length = chunk.length ∧
      write.offset + write.data.length ≤ (disks volume.diskId).length := by
  obtain ⟨u, hu, chunk, hchunk, rfl⟩ := h
  rw [hvolumes u hu volume hvolume hdisk] at hchunk ⊢
  have hin := grid.inside _ chunk hchunk
  have hlen : (chunk.of (source volume.devName)).length = chunk.length :=
    Bytes.length_slice (by rwa [hsource])
  exact ⟨chunk, hchunk, rfl, rfl, hlen, by rw [hlen, hsized volume hvolume]; exact hin⟩

lemma Grid.Sized.apply : grid.Sized volumes (write.apply disks) := by
  intro volume hvolume
  by_cases hdisk : write.diskId = volume.diskId
  · obtain ⟨chunk, -, -, -, -, hin⟩ := h.inside hsource hvolumes hsized hvolume hdisk
    rw [Write.apply, hdisk, Function.update_self, Bytes.length_overlay hin,
      hsized volume hvolume]
  · rw [Write.apply, Function.update_of_ne (Ne.symm hdisk), hsized volume hvolume]

variable (hvolume : volume ∈ volumes) (hchunk : chunk ∈ grid.chunks volume.devName)

include hvolume hchunk

lemma of_apply_hit (hhit : write.Hits volume chunk) :
    chunk.of (write.apply disks volume.diskId) = chunk.of (source volume.devName) := by
  obtain ⟨hdisk, hoffset⟩ := hhit
  obtain ⟨c, hc, hoffset', hdata, hlen, hin⟩ := h.inside hsource hvolumes hsized hvolume hdisk
  obtain rfl : c = chunk := grid.eq_of_offset hc hchunk (hoffset'.symm.trans hoffset)
  rw [Write.apply, hdisk, Function.update_self, Chunk.of, ← hoffset, ← hlen,
    Bytes.slice_overlay_self hin, hdata]

lemma of_apply_miss (hmiss : ¬write.Hits volume chunk) :
    chunk.of (write.apply disks volume.diskId) = chunk.of (disks volume.diskId) := by
  by_cases hdisk : write.diskId = volume.diskId
  · obtain ⟨c, hc, hoffset, -, hlen, hin⟩ := h.inside hsource hvolumes hsized hvolume hdisk
    have hne : c ≠ chunk := by
      rintro rfl
      exact hmiss ⟨hdisk, hoffset⟩
    have hdisjoint := grid.disjoint _ c hc chunk hchunk hne
    rw [Write.apply, hdisk, Function.update_self]
    exact Bytes.slice_overlay_of_disjoint hin (by omega)
  · rw [Write.apply, Function.update_of_ne (Ne.symm hdisk)]

end

lemma Grid.Sized.foldl (h : ∀ write ∈ writes, grid.Writes volumes source write)
    (hsized : grid.Sized volumes disks) :
    grid.Sized volumes (writes.foldl Write.apply disks) := by
  induction writes generalizing disks with
  | nil => exact hsized
  | cons write writes ih =>
    obtain ⟨hwrite, hwrites⟩ := List.forall_mem_cons.mp h
    exact ih hwrites (hsized.apply hsource hvolumes hwrite)

lemma of_foldl_apply (h : ∀ write ∈ writes, grid.Writes volumes source write)
    (hsized : grid.Sized volumes disks) (hvolume : volume ∈ volumes)
    (hchunk : chunk ∈ grid.chunks volume.devName) :
    ((∀ write ∈ writes, ¬write.Hits volume chunk) →
        chunk.of (writes.foldl Write.apply disks volume.diskId) =
          chunk.of (disks volume.diskId)) ∧
      ((∃ write ∈ writes, write.Hits volume chunk) →
        chunk.of (writes.foldl Write.apply disks volume.diskId) =
          chunk.of (source volume.devName)) := by
  induction writes generalizing disks with
  | nil => exact ⟨fun _ => rfl, by simp⟩
  | cons write writes ih =>
    obtain ⟨hwrite, hwrites⟩ := List.forall_mem_cons.mp h
    obtain ⟨hmiss, hhit⟩ := ih hwrites (hsized.apply hsource hvolumes hwrite)
    refine ⟨fun hnone => ?_, fun hsome => ?_⟩
    · obtain ⟨hnot, hnone⟩ := List.forall_mem_cons.mp hnone
      rw [List.foldl_cons, hmiss hnone]
      exact of_apply_miss hsource hvolumes hwrite hsized hvolume hchunk hnot
    · by_cases hlater : ∃ write ∈ writes, write.Hits volume chunk
      · exact hhit hlater
      · rw [List.foldl_cons, hmiss fun w hw hhits => hlater ⟨w, hw, hhits⟩]
        have hfirst : write.Hits volume chunk := by
          obtain ⟨w, hw, hhits⟩ := hsome
          rcases List.mem_cons.mp hw with rfl | hw
          · exact hhits
          · exact absurd ⟨w, hw, hhits⟩ hlater
        exact of_apply_hit hsource hvolumes hwrite hsized hvolume hchunk hfirst

end

section

variable {grid : Grid} {sync : Sync} {t : Replication}

lemma Grid.Fits.inside (hfits : grid.Fits volumes t.volumesInfo) (hvolume : volume ∈ volumes)
    (hdst : t.volumesInfo.find? (·.diskId = volume.diskId) = some dst)
    (hchunk : chunk ∈ grid.chunks volume.devName) : chunk.inside dst.diskSize = some chunk := by
  have hpos := grid.pos _ chunk hchunk
  have hin := grid.inside _ chunk hchunk
  cases hsize : dst.diskSize with
  | none => rfl
  | some size =>
    have hle := hfits volume hvolume dst hdst size hsize
    simp only [Chunk.inside]
    rw [if_pos (by omega), Nat.min_eq_left (by omega), Nat.add_sub_cancel_left]

lemma filterMap_inside (hfits : grid.Fits volumes t.volumesInfo) (hvolume : volume ∈ volumes)
    (hdst : t.volumesInfo.find? (·.diskId = volume.diskId) = some dst) {chunks : List Chunk}
    (hchunks : ∀ chunk ∈ chunks, chunk ∈ grid.chunks volume.devName) :
    chunks.filterMap (·.inside dst.diskSize) = chunks := by
  rw [List.filterMap_congr fun chunk hchunk => hfits.inside hvolume hdst (hchunks chunk hchunk)]
  exact List.filterMap_some

lemma mem_reported_iff (hfaithful : sync.Faithful grid (sync.base t))
    (hinitial : isInitial = (sync.base t).isNone)
    (hdst : t.volumesInfo.find? (·.diskId = volume.diskId) = some dst)
    (hchunks : reportedChunks sync.cli isInitial dst volume.devName = .ok chunks) :
    chunk ∈ chunks ↔ chunk ∈ grid.chunks volume.devName ∧ sync.Due t volume chunk := by
  unfold reportedChunks at hchunks
  rw [hinitial] at hchunks
  cases hbase : sync.base t with
  | none =>
    simp only [Sync.Due, hbase]
    rw [hbase] at hchunks hfaithful
    cases hzeroed : dst.zeroed with
    | true =>
      simp only [hzeroed, Option.isNone_none, Bool.and_self, if_true] at hchunks
      rw [hfaithful.chunks _ _ hchunks]
      simp [hdst, hzeroed]
    | false =>
      simp only [hzeroed, Bool.and_false, Bool.false_eq_true, if_false] at hchunks
      rw [hfaithful.changes _ _ hchunks]
      simp [hdst, hzeroed]
  | some old =>
    simp only [Sync.Due, hbase]
    rw [hbase] at hchunks hfaithful
    simp only [Option.isNone_some, Bool.false_and, Bool.false_eq_true, if_false] at hchunks
    rw [hfaithful.changes _ _ hchunks]
    simp

variable (hfits : grid.Fits volumes t.volumesInfo) (hvolume : volume ∈ volumes)
  (hfaithful : sync.Faithful grid (sync.base t)) (hinitial : isInitial = (sync.base t).isNone)

include hfits hvolume hfaithful hinitial

lemma mem_parts_iff (hreported : Reported sync.cli isInitial t.volumesInfo volume) :
    chunk ∈ parts sync.cli isInitial t.volumesInfo volume ↔
      chunk ∈ grid.chunks volume.devName ∧ sync.Due t volume chunk := by
  obtain ⟨dst, hdst, chunks, hchunks⟩ := hreported
  have hmem : ∀ chunk, chunk ∈ chunks ↔ _ := fun chunk =>
    mem_reported_iff hfaithful hinitial hdst hchunks
  rw [parts_of_reported hdst hchunks, filterChunks_eq,
    filterMap_inside hfits hvolume hdst fun chunk hchunk => ((hmem chunk).mp hchunk).1]
  exact hmem chunk

lemma mem_grid_of_parts (hpart : chunk ∈ parts sync.cli isInitial t.volumesInfo volume) :
    chunk ∈ grid.chunks volume.devName := by
  cases hdst : t.volumesInfo.find? (·.diskId = volume.diskId) with
  | none =>
    simp only [parts, hdst] at hpart
    cases hchanges : sync.cli.getChanges volume.devName with
    | error err => simp [hchanges, Except.toOption] at hpart
    | ok chunks =>
      rw [hchanges] at hpart
      exact ((hfaithful.changes _ _ hchanges chunk).mp hpart).1
  | some dst =>
    cases hchunks : reportedChunks sync.cli isInitial dst volume.devName with
    | error err => simp [parts, hdst, hchunks, Except.toOption] at hpart
    | ok chunks =>
      exact ((mem_parts_iff hfits hvolume hfaithful hinitial
        ⟨dst, hdst, chunks, hchunks⟩).mp hpart).1

lemma writes_of_transfers (h : Transfers sync.cli isInitial t.volumesInfo volume write) :
    grid.Writes volumes sync.source write := by
  obtain ⟨part, hpart, data, hdata, rfl⟩ := h
  have hgrid := mem_grid_of_parts hfits hvolume hfaithful hinitial hpart
  refine ⟨volume, hvolume, part, hgrid, ?_⟩
  rw [hfaithful.range _ _ _ _ hdata (grid.pos _ part hgrid)]
  rfl

end

section

variable {grid : Grid} {volumes : List SourceVolume} {sync : Sync} {t t' : Replication}
  {st : List VolState}

/-- What holds between two runs: a chunk that no failed run has written is as in the recorded
snapshot, and one that no run has written is zero. -/
structure Replication.Inv (grid : Grid) (volumes : List SourceVolume) (t : Replication) : Prop where
  fits : grid.Fits volumes t.volumesInfo
  sized : grid.Sized volumes t.destination
  state : (t.replicaState.getD []).isEmpty = t.recorded.isNone
  ever : ∀ volume ∈ volumes, ∀ chunk ∈ grid.chunks volume.devName,
    (∀ write ∈ t.ever, ¬write.Hits volume chunk) →
      ∀ b ∈ chunk.of (t.destination volume.diskId), b = 0
  since : ∀ old, t.recorded = some old → ∀ volume ∈ volumes, ∀ chunk ∈ grid.chunks volume.devName,
    (∀ write ∈ t.since, ¬write.Hits volume chunk) →
      chunk.of (t.destination volume.diskId) = chunk.of (old volume.devName)

lemma Replication.Inv.isInitial (h : t.Inv grid volumes) :
    (((sync.replicator t).replState).getD []).isEmpty = (sync.base t).isNone := by
  unfold Sync.replicator Sync.base
  split
  · exact h.state
  · rfl

lemma Grid.Fits.congr (h : grid.Fits volumes volumesInfo)
    (heq : eraseStates volumesInfo' = eraseStates volumesInfo) :
    grid.Fits volumes volumesInfo' := by
  intro volume hvolume dst hdst size hsize
  have hfind := find?_eraseStates volume.diskId volumesInfo'
  rw [heq, find?_eraseStates, hdst] at hfind
  obtain ⟨dst', hdst', heq'⟩ := Option.map_eq_some_iff.mp hfind
  refine h volume hvolume dst' hdst' size ?_
  have : ({ dst' with replicaState := none } : VolumeInfo).diskSize =
      ({ dst with replicaState := none } : VolumeInfo).diskSize := congrArg _ heq'
  exact this.trans hsize

lemma replicateVolumes_ok
    (h : replicateVolumes cli writer verifyChecksum isInitial currState volumes s = (.ok st, s')) :
    st = currState ∧ s'.replState = some currState ∧
      eraseStates s'.volumesInfo = eraseStates s.volumesInfo := by
  induction volumes generalizing s with
  | nil =>
    obtain ⟨rfl, rfl⟩ : currState = st ∧ { s with replState := some currState } = s' := by
      simpa [replicateVolumes] using h
    exact ⟨rfl, rfl, rfl⟩
  | cons volume rest ih =>
    obtain ⟨hrep, hempty | hvol⟩ := replicateVolumes_cons_inv h
    · rw [replicateVolumes_nothing hrep hempty] at h
      obtain ⟨rfl, rfl⟩ : currState = st ∧ { s with replState := some currState } = s' := by
        simpa using h
      exact ⟨rfl, rfl, rfl⟩
    · rw [replicateVolumes_replicates hvol] at h
      obtain ⟨h1, h2, h3⟩ := ih h
      exact ⟨h1, h2, h3.trans (eraseStates_setReplicaState ..)⟩

def Sync.writes (volumes : List SourceVolume) (sync : Sync) (t : Replication) : List Write :=
  (replicateDisks sync.cli sync.writer volumes sync.verifyChecksum (sync.replicator t)).2.writes

lemma Sync.run_destination :
    (sync.run volumes t).2.destination = (sync.writes volumes t).foldl Write.apply t.destination ∧
      (sync.run volumes t).2.ever = t.ever ++ sync.writes volumes t := by
  unfold Sync.run Sync.writes
  split <;> simp_all

lemma Replication.Inv.writes (h : t.Inv grid volumes)
    (hfaithful : sync.Faithful grid (sync.base t)) :
    ∀ write ∈ sync.writes volumes t, grid.Writes volumes sync.source write := by
  intro write hwrite
  obtain ⟨volume, hvolume, htransfers⟩ := replicateDisks_writes hwrite
  exact writes_of_transfers h.fits hvolume hfaithful h.isInitial htransfers

lemma Sync.run_ok (h : sync.run volumes t = (.ok st, t')) :
    ∃ s, sync.cli.getStatus = .ok st ∧
      replicateVolumes sync.cli sync.writer sync.verifyChecksum
        (((sync.replicator t).replState).getD []).isEmpty st volumes (sync.replicator t) =
          (.ok st, s) ∧
      s.writes = sync.writes volumes t ∧
      t' = ⟨s.volumesInfo, s.replState, s.writes.foldl Write.apply t.destination,
        some sync.source, [], t.ever ++ s.writes⟩ := by
  unfold Sync.run at h
  split at h
  · simp at h
  rename_i st' s hrun
  obtain ⟨rfl, rfl⟩ : st' = st ∧ _ = t' := by simpa using h
  refine ⟨s, ?_, ?_, by rw [Sync.writes, hrun], rfl⟩
  all_goals
    rw [replicateDisks] at hrun
    split at hrun
    · simp at hrun
    rename_i currState hstatus
    obtain ⟨rfl, -, -⟩ := replicateVolumes_ok hrun
    assumption

lemma Replication.Inv.written (h : t.Inv grid volumes)
    (hfaithful : sync.Faithful grid (sync.base t)) (hsound : sync.Sound grid volumes t)
    (hrun : sync.run volumes t = (.ok st, t')) (hvolume : volume ∈ volumes)
    (hchunk : chunk ∈ grid.chunks volume.devName) (hdue : sync.Due t volume chunk) :
    ∃ write ∈ sync.writes volumes t, write.Hits volume chunk := by
  obtain ⟨s, -, hvolumes, hwrites, -⟩ := Sync.run_ok hrun
  obtain ⟨pre, post, hsplit, hpre, hpost, hwrites'⟩ :=
    @replicateVolumes_inv _ _ _ _ _ t.volumesInfo _ _ _ _ rfl hvolumes
  have hmem : volume ∈ pre := by
    have hvolume' := hvolume
    rw [hsplit] at hvolume'
    refine (List.mem_append.mp hvolume').resolve_right fun hin => ?_
    rcases hpost with rfl | ⟨first, rest, rfl, hreported, hempty⟩
    · simp at hin
    have hnone : ∀ chunk ∈ grid.chunks first.devName, ¬sync.Due t first chunk := by
      intro c hc hd
      have := (mem_parts_iff h.fits (by simp [hsplit]) hfaithful h.isInitial hreported).mpr
        ⟨hc, hd⟩
      simp [hempty] at this
    rcases List.mem_cons.mp hin with rfl | hin
    · exact hnone chunk hchunk hdue
    · exact hsound.all pre first rest hsplit hnone volume hin chunk hchunk hdue
  have hpart := (mem_parts_iff h.fits hvolume hfaithful h.isInitial (hpre volume hmem).reported).mpr
    ⟨hchunk, hdue⟩
  refine ⟨⟨volume.diskId, chunk.offset,
    (sync.cli.downloadChunk volume.devName chunk).toOption.getD []⟩, ?_, rfl, rfl⟩
  rw [← hwrites, hwrites']
  exact List.mem_append_right _ (mem_volumesWrites.mpr ⟨volume, hmem, chunk, hpart, rfl⟩)

lemma Grid.ext (hlen : disk.length = grid.size dev) (hlen' : disk'.length = grid.size dev)
    (h : ∀ chunk ∈ grid.chunks dev, chunk.of disk = chunk.of disk') : disk = disk' := by
  apply List.ext_getElem?
  intro i
  by_cases hi : i < grid.size dev
  · obtain ⟨chunk, hchunk, hlo, hhi⟩ := grid.covers dev i hi
    have heq := congrArg (·[i - chunk.offset]?) (h chunk hchunk)
    simp only [Chunk.of, Bytes.getElem?_slice] at heq
    rw [if_pos (by omega), if_pos (by omega), Nat.add_sub_cancel' hlo] at heq
    exact heq
  · rw [List.getElem?_eq_none (by omega), List.getElem?_eq_none (by omega)]

lemma Replication.Inv.of_not_due (h : t.Inv grid volumes)
    (hfaithful : sync.Faithful grid (sync.base t)) (hsound : sync.Sound grid volumes t)
    (hvolume : volume ∈ volumes) (hchunk : chunk ∈ grid.chunks volume.devName)
    (hdue : ¬sync.Due t volume chunk) :
    chunk.of (t.destination volume.diskId) = chunk.of (sync.source volume.devName) := by
  have hclean := hsound.clean volume hvolume chunk hchunk hdue
  cases hbase : sync.base t with
  | some old =>
    simp only [Sync.Due, hbase, not_not] at hdue
    simp only [hbase, Option.isSome_some, if_true] at hclean
    have hrecorded : t.recorded = some old := by
      unfold Sync.base at hbase
      split at hbase
      · exact hbase
      · simp at hbase
    rw [h.since old hrecorded volume hvolume chunk hchunk fun w hw hhits =>
      hclean w hw hhits.1 hhits.2, hdue]
  | none =>
    simp only [Sync.Due, hbase, not_forall, not_exists, not_and, not_not] at hdue
    obtain ⟨-, hzeros⟩ := hdue
    simp only [hbase, Option.isSome_none, Bool.false_eq_true, if_false] at hclean
    have hdest := h.ever volume hvolume chunk hchunk fun w hw hhits =>
      hclean w hw hhits.1 hhits.2
    have hin := grid.inside _ chunk hchunk
    have hlen : (chunk.of (t.destination volume.diskId)).length = chunk.length :=
      Bytes.length_slice (by rwa [h.sized volume hvolume])
    have hlen' : (chunk.of (sync.source volume.devName)).length = chunk.length :=
      Bytes.length_slice (by rwa [hfaithful.size])
    rw [List.eq_replicate_iff.mpr ⟨hlen, hdest⟩, List.eq_replicate_iff.mpr ⟨hlen', hzeros⟩]

lemma Replication.Inv.destination (hvolumes : Consistent volumes) (h : t.Inv grid volumes)
    (hfaithful : sync.Faithful grid (sync.base t)) (hsound : sync.Sound grid volumes t)
    (hrun : sync.run volumes t = (.ok st, t')) :
    ∀ volume ∈ volumes, t'.destination volume.diskId = sync.source volume.devName := by
  intro volume hvolume
  have hwrites := h.writes hfaithful
  have hdest : t'.destination = (sync.writes volumes t).foldl Write.apply t.destination := by
    rw [← (@Sync.run_destination volumes sync t).1, hrun]
  have hsized := h.sized.foldl hfaithful.size hvolumes hwrites
  rw [hdest]
  refine grid.ext (hsized volume hvolume) (hfaithful.size _) fun chunk hchunk => ?_
  obtain ⟨hmiss, hhit⟩ := of_foldl_apply hfaithful.size hvolumes hwrites h.sized hvolume hchunk
  by_cases hhits : ∃ write ∈ sync.writes volumes t, write.Hits volume chunk
  · exact hhit hhits
  · rw [hmiss fun w hw hw' => hhits ⟨w, hw, hw'⟩]
    exact h.of_not_due hfaithful hsound hvolume hchunk fun hdue =>
      hhits (h.written hfaithful hsound hrun hvolume hchunk hdue)

lemma Replication.Inv.run (hvolumes : Consistent volumes) (h : t.Inv grid volumes)
    (hfaithful : sync.Faithful grid (sync.base t))
    (hsound : ∀ st, (sync.run volumes t).1 = .ok st → sync.Sound grid volumes t) :
    (sync.run volumes t).2.Inv grid volumes := by
  have hwrites := h.writes hfaithful
  obtain ⟨hdest, hever⟩ := @Sync.run_destination volumes sync t
  have hsized : grid.Sized volumes (sync.run volumes t).2.destination :=
    hdest ▸ h.sized.foldl hfaithful.size hvolumes hwrites
  have hmiss := fun {volume} (hvolume : volume ∈ volumes) {chunk}
      (hchunk : chunk ∈ grid.chunks volume.devName) =>
    (of_foldl_apply hfaithful.size hvolumes hwrites h.sized hvolume hchunk).1
  have hzero : ∀ volume ∈ volumes, ∀ chunk ∈ grid.chunks volume.devName,
      (∀ write ∈ (sync.run volumes t).2.ever, ¬write.Hits volume chunk) →
        ∀ b ∈ chunk.of ((sync.run volumes t).2.destination volume.diskId), b = 0 := by
    intro volume hvolume chunk hchunk hnone
    rw [hever, List.forall_mem_append] at hnone
    rw [hdest, hmiss hvolume hchunk hnone.2]
    exact h.ever volume hvolume chunk hchunk hnone.1
  rcases hres : sync.run volumes t with ⟨err | st, t'⟩
  · rw [hres] at hdest hsized hzero
    have hsince : t'.since = t.since ++ sync.writes volumes t ∧ t'.recorded = t.recorded ∧
        t'.volumesInfo = t.volumesInfo ∧ t'.replicaState = t.replicaState := by
      unfold Sync.run at hres
      split at hres
      · rename_i hrun
        obtain rfl : _ = t' := congrArg Prod.snd hres
        exact ⟨by rw [Sync.writes, hrun], rfl, rfl, rfl⟩
      · simp at hres
    obtain ⟨hsince, hrecorded, hinfo, hstate⟩ := hsince
    refine ⟨hinfo ▸ h.fits, hsized, by rw [hstate, hrecorded]; exact h.state, hzero, ?_⟩
    intro old hold volume hvolume chunk hchunk hnone
    rw [hsince, List.forall_mem_append] at hnone
    rw [hdest, hmiss hvolume hchunk hnone.2]
    exact h.since old (hrecorded ▸ hold) volume hvolume chunk hchunk hnone.1
  · have hsound := hsound st (by rw [hres])
    have heq := h.destination hvolumes hfaithful hsound hres
    obtain ⟨s, hstatus, hloop, -, rfl⟩ := Sync.run_ok hres
    obtain ⟨-, hstate, hinfo⟩ := replicateVolumes_ok hloop
    rw [hres] at hsized hzero
    have hne : st.isEmpty = false := by simpa using hfaithful.status st hstatus
    refine ⟨h.fits.congr hinfo, hsized, by simpa [hstate] using hne, hzero, ?_⟩
    rintro old hold volume hvolume chunk hchunk -
    obtain rfl : sync.source = old := Option.some.inj hold
    rw [heq volume hvolume]

lemma Replication.Reached.inv (hvolumes : Consistent volumes) (h : t.Reached grid volumes) :
    t.Inv grid volumes := by
  induction h with
  | start hfits hzeros =>
    refine ⟨hfits, fun volume hvolume => by simp [hzeros volume hvolume], rfl, ?_, by simp⟩
    intro volume hvolume chunk _ _ b hb
    simp only [hzeros volume hvolume] at hb
    exact List.eq_of_mem_replicate (List.mem_of_mem_drop (List.mem_of_mem_take hb))
  | run _ hfaithful hsound ih => exact ih.run hvolumes hfaithful hsound

/-- After runs that were all sound if they returned, whatever failed in between, every
destination is the device of the source as it was at the snapshot of the last run. -/
theorem Replication.destination_of_runs (grid : Grid) (volumes : List SourceVolume)
    (hvolumes : Consistent volumes) (t : Replication) (hreached : t.Reached grid volumes)
    (sync : Sync) (hfaithful : sync.Faithful grid (sync.base t))
    (hsound : sync.Sound grid volumes t) (st : List VolState) (t' : Replication)
    (hrun : sync.run volumes t = (.ok st, t')) :
    ∀ volume ∈ volumes, t'.destination volume.diskId = sync.source volume.devName :=
  (hreached.inv hvolumes).destination hvolumes hfaithful hsound hrun

end

def Grid.client (grid : Grid) (source : Snapshot) (base : Option Snapshot) : Client where
  getStatus := .ok [⟨"sdb"⟩]
  getChunks dev _ := .ok ((grid.chunks dev).filter fun c => (c.of (source dev)).any (· != 0))
  getChanges dev := .ok ((grid.chunks dev).filter fun c =>
    base.all fun old => c.of (old dev) != c.of (source dev))
  getRange dev first last := .ok (Bytes.slice (source dev) first (last + 1 - first).toNat)
  getDiskChecksum _ := .error (.raised "checksums are off")
  getDiskSize _ := .error (.raised "checksums are off")

lemma Grid.client_faithful {sync : Sync} (hsize : ∀ dev, (sync.source dev).length = grid.size dev)
    (hcli : sync.cli = grid.client sync.source base) : sync.Faithful grid base := by
  refine ⟨hsize, fun st hst => ?_, fun dev chunks hchunks chunk => ?_,
    fun dev chunks hchunks chunk => ?_, fun dev first length data hdata _ => ?_⟩
  · rw [hcli] at hst
    obtain rfl : [⟨"sdb"⟩] = st := Except.ok.inj hst
    simp
  · rw [hcli] at hchunks
    obtain rfl := Except.ok.inj hchunks
    simp
  · rw [hcli] at hchunks
    obtain rfl := Except.ok.inj hchunks
    cases base <;> simp
  · rw [hcli] at hdata
    obtain rfl := Except.ok.inj hdata
    congr 1
    omega

def sdbGrid : Grid where
  size dev := if dev = "sdb" then 4 else 0
  chunks dev := if dev = "sdb" then [⟨0, 2⟩, ⟨2, 2⟩] else []
  pos dev := by split <;> simp
  inside dev := by split <;> simp
  covers dev i := by
    split
    · intro hi
      by_cases h : i < 2
      · exact ⟨⟨0, 2⟩, by simp, by simp, h⟩
      · exact ⟨⟨2, 2⟩, by simp, Nat.not_lt.mp h, hi⟩
    · simp
  disjoint dev := by split <;> simp

def sdbDisk (bytes : List UInt8) : Snapshot := fun dev => if dev = "sdb" then bytes else []

def oneVolume : List SourceVolume := [⟨"vol1", "/dev/sdb"⟩]

def zeroedDisk : Replication :=
  ⟨[⟨"vol1", true, some 4, none, none⟩], none, fun _ => List.replicate 4 0, none, [], []⟩

/-- A run, without a state, that fails at the second chunk if it is made to. -/
def firstSync (bytes : List UInt8) (fails : Bool) : Sync where
  cli := sdbGrid.client (sdbDisk bytes) none
  writer := { fileWriter with
    writeRaises := fun _ offset _ =>
      if fails ∧ offset = 2 then some (.raised "Failed to write data.") else none }
  verifyChecksum := false
  incremental := true
  source := sdbDisk bytes

lemma firstSync_faithful (h : bytes.length = 4) :
    (firstSync bytes fails).Faithful sdbGrid none := by
  refine Grid.client_faithful (fun dev => ?_) rfl
  simp only [firstSync, sdbDisk, sdbGrid]
  split <;> simp [h]

/-- The first run fails after it has written the first chunk. The next one finds zeros there, and
leaves them out as if the destination still held zeros. -/
theorem stale_after_failed_run :
    let first := firstSync [1, 1, 2, 2] true
    let second := firstSync [0, 0, 2, 2] false
    let t := (first.run oneVolume zeroedDisk).2
    first.Faithful sdbGrid (first.base zeroedDisk) ∧ second.Faithful sdbGrid (second.base t) ∧
      (first.run oneVolume zeroedDisk).1 = .error (.raised "Failed to write data.") ∧
      (second.run oneVolume t).1 = .ok [⟨"sdb"⟩] ∧
      (second.run oneVolume t).2.destination "vol1" = [1, 1, 2, 2] ∧
      second.source "sdb" = [0, 0, 2, 2] :=
  ⟨firstSync_faithful rfl, firstSync_faithful rfl, by rfl, by rfl, by decide, rfl⟩

/-- If the chunk is not zero in the next run, the destination is right again. -/
theorem destination_of_runs_retried :
    let t := ((firstSync [1, 1, 2, 2] true).run oneVolume zeroedDisk).2
    ∀ volume ∈ oneVolume, ((firstSync [3, 0, 2, 2] false).run oneVolume t).2.destination
      volume.diskId = sdbDisk [3, 0, 2, 2] volume.devName := by
  intro t
  have hfits : sdbGrid.Fits oneVolume zeroedDisk.volumesInfo := by
    intro volume hvolume dst hdst size hsize
    obtain rfl := List.mem_singleton.mp hvolume
    obtain rfl : ⟨"vol1", true, some 4, none, none⟩ = dst := Option.some.inj hdst
    obtain rfl : 4 = size := Option.some.inj hsize
    decide
  have hzeros : ∀ volume ∈ oneVolume,
      zeroedDisk.destination volume.diskId = List.replicate (sdbGrid.size volume.devName) 0 := by
    intro volume hvolume
    obtain rfl := List.mem_singleton.mp hvolume
    decide
  have hfails : ((firstSync [1, 1, 2, 2] true).run oneVolume zeroedDisk).1 =
      .error (.raised "Failed to write data.") := by rfl
  have hreached : t.Reached sdbGrid oneVolume :=
    .run (.start hfits hzeros) (firstSync_faithful rfl) fun st hst =>
      absurd (hfails.symm.trans hst) (by simp)
  have hdue : ∀ volume ∈ oneVolume, ∀ chunk ∈ sdbGrid.chunks volume.devName,
      (firstSync [3, 0, 2, 2] false).Due t volume chunk := by
    intro volume hvolume chunk hchunk _
    obtain rfl := List.mem_singleton.mp hvolume
    revert chunk
    decide
  exact Replication.destination_of_runs sdbGrid oneVolume
    (by intro u hu v hv _; rw [List.mem_singleton.mp hu, List.mem_singleton.mp hv]) t hreached
    (firstSync [3, 0, 2, 2] false) (firstSync_faithful rfl)
    ⟨fun pre volume post hsplit hnone later hlater => by
      have hlen := congrArg List.length hsplit
      simp only [oneVolume, List.length_append, List.length_cons, List.length_nil] at hlen
      obtain rfl : post = [] := List.length_eq_zero_iff.mp (by omega)
      simp at hlater, fun volume hvolume chunk hchunk hnot =>
        absurd (hdue volume hvolume chunk hchunk) hnot⟩ [⟨"sdb"⟩] _ rfl

end Coriolis.Providers

import Mathlib.Data.List.Dedup
import Mathlib.Data.Option.Basic

/-!
# Which device a newly attached disk is

`Replicator.attach_new_disk` attaches a disk to the worker VM and takes the device that was not
listed before for the new one. The worker may list a device late. If that is the device of an
earlier call, which gave up waiting for it, the next call takes it for its own.
-/

namespace Coriolis.Providers.AttachDisk

/-- What is read and written of an entry of `volumes_info`. -/
structure Volume where
  diskId : String
  diskPath : Option String
  deriving DecidableEq

inductive AttachError where
  | noInformation (diskId : String)
  | multipleVolumes (diskId : String) (volumes : List Volume)
  | noNewDevice (diskId : String)
  | multipleDevices (diskId : String) (devices : List String)

/-- The device paths of an answer of `get_status`, or none if the request fails. -/
abbrev Answer := Option (List String)

/-- The polls for the new devices. A failing one leaves those of the last one, which are none. -/
def waitForDisk (previous : List String) : List Answer → Option (List String) →
    Option (List String)
  | [], new => new
  | poll :: polls, new =>
    let new := match poll with
      | none => new
      | some paths => some (paths.dedup.filter (· ∉ previous))
    if new.getD [] ≠ [] then new else waitForDisk previous polls new

/-- `attach_new_disk` without a given previous status; the polls are as many as `retry_count`. -/
def attachNewDisk (diskId : String) (previous : List String) (polls : List Answer)
    (volumes : List Volume) : Except AttachError Volume × List Volume :=
  match volumes.filter (·.diskId = diskId) with
  | [] => (.error (.noInformation diskId), volumes)
  | [vol] =>
    match (waitForDisk previous polls none).getD [] with
    | [] => (.error (.noNewDevice diskId), volumes)
    | [path] => (.ok { vol with diskPath := path }, volumes.map fun v =>
        if v.diskId = diskId then { v with diskPath := path } else v)
    | devices => (.error (.multipleDevices diskId devices), volumes)
  | vols => (.error (.multipleVolumes diskId vols), volumes)

/-- A call, with the device its attach function makes appear and what `get_status` answers
before the attachment and after it. -/
structure Call where
  diskId : String
  device : String
  before : List String
  polls : List Answer

def runCalls : List Call → List Volume → List (Except AttachError Volume) × List Volume
  | [], volumes => ([], volumes)
  | call :: calls, volumes =>
    let (result, volumes) := attachNewDisk call.diskId call.before call.polls volumes
    let (results, volumes) := runCalls calls volumes
    (result :: results, volumes)

/-- The call adds one device to those that are attached, and the answers list attached devices. -/
structure Call.Attaches (call : Call) (attached : List String) : Prop where
  new : call.device ∉ attached
  before : call.before ⊆ attached
  polls : ∀ paths, some paths ∈ call.polls → paths ⊆ call.device :: attached

def Each (p : Call → List String → Prop) : List String → List Call → Prop
  | _, [] => True
  | attached, call :: calls => p call attached ∧ Each p (call.device :: attached) calls

/-- The path of the device of the call is recorded, or no poll shows it. -/
def Call.Right (call : Call) : Except AttachError Volume → Prop
  | .ok vol => vol = ⟨call.diskId, some call.device⟩
  | .error _ => ∀ paths, some paths ∈ call.polls → call.device ∉ paths

/-- The listing before the attachment shows all devices that are attached. -/
def Call.Shows (call : Call) (attached : List String) : Prop := attached ⊆ call.before

section

variable {call : Call} {attached previous : List String}

lemma filter_eq_nil (hsub : paths ⊆ device :: previous) (hshown : device ∉ paths) :
    paths.dedup.filter (· ∉ previous) = [] := by
  refine List.filter_eq_nil_iff.mpr fun p hp => ?_
  have hp := List.mem_dedup.mp hp
  rcases List.mem_cons.mp (hsub hp) with rfl | hold
  · exact absurd hp hshown
  · simpa using hold

lemma filter_eq_singleton (hsub : paths ⊆ device :: previous) (hdevice : device ∉ previous)
    (hshown : device ∈ paths) :
    paths.dedup.filter (· ∉ previous) = [device] := by
  refine List.perm_singleton.mp ((List.perm_ext_iff_of_nodup
    ((List.nodup_dedup paths).filter _) (List.nodup_singleton device)).mpr fun p => ?_)
  simp only [List.mem_filter, List.mem_dedup, decide_eq_true_eq, List.mem_singleton]
  refine ⟨fun h => (List.mem_cons.mp (hsub h.1)).resolve_right h.2, ?_⟩
  rintro rfl
  exact ⟨hshown, hdevice⟩

lemma waitForDisk_eq (new : Option (List String)) (hdevice : device ∉ previous)
    (hnew : new.getD [] = []) (hpolls : ∀ paths, some paths ∈ polls → paths ⊆ device :: previous) :
    (waitForDisk previous polls new).getD [] = [device] ∨
      (waitForDisk previous polls new).getD [] = [] ∧
        ∀ paths, some paths ∈ polls → device ∉ paths := by
  induction polls generalizing new with
  | nil => exact Or.inr ⟨hnew, by simp⟩
  | cons poll polls ih =>
    have hrest : ∀ paths, some paths ∈ polls → paths ⊆ device :: previous :=
      fun paths h => hpolls paths (List.mem_cons_of_mem _ h)
    cases poll with
    | none => simpa [waitForDisk, hnew] using ih new hnew hrest
    | some paths =>
      have hsub : paths ⊆ device :: previous := hpolls paths List.mem_cons_self
      by_cases hshown : device ∈ paths
      · rw [waitForDisk, filter_eq_singleton hsub hdevice hshown]
        simp
      · rw [waitForDisk, filter_eq_nil hsub hshown]
        simpa [hshown] using ih (some []) rfl hrest

lemma attachNewDisk_eq (honce : volumes.filter (·.diskId = diskId) = [vol]) :
    attachNewDisk diskId previous polls volumes =
      match (waitForDisk previous polls none).getD [] with
      | [] => (.error (.noNewDevice diskId), volumes)
      | [path] => (.ok ⟨diskId, path⟩, volumes.map fun v =>
          if v.diskId = diskId then { v with diskPath := path } else v)
      | devices => (.error (.multipleDevices diskId devices), volumes) := by
  have hid : vol.diskId = diskId := by
    have : vol ∈ volumes.filter (·.diskId = diskId) := by simp [honce]
    simpa using (List.mem_filter.mp this).2
  rw [attachNewDisk, honce]
  subst hid
  rfl

lemma attachNewDisk_right (hcall : call.Attaches attached) (hshows : call.Shows attached)
    (honce : volumes.filter (·.diskId = call.diskId) = [vol]) :
    let attach := attachNewDisk call.diskId call.before call.polls volumes
    call.Right attach.1 ∧ ((∃ error, attach.1 = .error error) ∧ attach.2 = volumes ∨
      attach.1 = .ok ⟨call.diskId, call.device⟩ ∧ attach.2 = volumes.map fun v =>
        if v.diskId = call.diskId then { v with diskPath := call.device } else v) := by
  have hpolls : ∀ paths, some paths ∈ call.polls → paths ⊆ call.device :: call.before :=
    fun paths h => List.Subset.trans (hcall.polls paths h) (List.cons_subset_cons _ hshows)
  have hnew : call.device ∉ call.before := fun h => hcall.new (hcall.before h)
  simp only [attachNewDisk_eq honce]
  rcases waitForDisk_eq none hnew rfl hpolls with hfound | ⟨hnone, hshown⟩
  · rw [hfound]
    exact ⟨rfl, Or.inr ⟨rfl, rfl⟩⟩
  · rw [hnone]
    exact ⟨hshown, Or.inl ⟨⟨_, rfl⟩, rfl⟩⟩

/-- Any answers lead to the device of the call exactly if the listing before it is complete. -/
theorem shows_iff {volumes} (hnew : call.device ∉ attached) (hbefore : call.before ⊆ attached)
    (honce : volumes.filter (·.diskId = call.diskId) = [vol]) :
    (∀ polls, { call with polls }.Attaches attached →
        { call with polls }.Right (attachNewDisk call.diskId call.before polls volumes).1) ↔
      call.Shows attached := by
  refine ⟨fun h device hdevice => ?_, fun h polls hcall => (attachNewDisk_right hcall h honce).1⟩
  by_contra hlate
  have hwait : (waitForDisk call.before [some (device :: call.before)] none).getD [] = [device] := by
    rw [waitForDisk, filter_eq_singleton (by simp) hlate (by simp)]
    rfl
  have hright := h [some (device :: call.before)] ⟨hnew, hbefore, by simp_all⟩
  rw [attachNewDisk_eq honce, hwait] at hright
  have hsame : device = call.device := by simpa [Call.Right] using hright
  exact hnew (hsame ▸ hdevice)

theorem shows_iff_second :
    let call : Call := ⟨"b", "/dev/sdc", ["/dev/sdb"], []⟩
    ∀ polls, { call with polls }.Attaches ["/dev/sdb"] →
      { call with polls }.Right (attachNewDisk "b" ["/dev/sdb"] polls [⟨"b", none⟩]).1 := by
  intro call
  exact (shows_iff (by simp [call]) (by simp [call]) rfl).mpr (by simp [call, Call.Shows])

end

section

variable {call : Call} {calls : List Call} {attached : List String} {volumes : List Volume}

lemma mem_attachNewDisk (hmem : vol ∈ volumes) (hne : vol.diskId ≠ diskId) :
    vol ∈ (attachNewDisk diskId previous polls volumes).2 := by
  unfold attachNewDisk
  split
  · exact hmem
  · split
    · exact hmem
    · exact List.mem_map.mpr ⟨vol, hmem, if_neg hne⟩
    · exact hmem
  · exact hmem

lemma mem_runCalls (hmem : vol ∈ volumes) (hne : vol.diskId ∉ calls.map (·.diskId)) :
    vol ∈ (runCalls calls volumes).2 := by
  induction calls generalizing volumes with
  | nil => exact hmem
  | cons call calls ih =>
    rw [List.map_cons, List.mem_cons, not_or] at hne
    exact ih (mem_attachNewDisk hmem hne.1) hne.2

lemma filter_record {diskId path id : String} (hne : id ≠ diskId) :
    (volumes.map fun v => if v.diskId = diskId then { v with diskPath := some path } else v).filter
      (·.diskId = id) = volumes.filter (·.diskId = id) := by
  induction volumes with
  | nil => rfl
  | cons v volumes ih =>
    by_cases hv : v.diskId = diskId
    · simp [hv, Ne.symm hne, ih]
    · simp [hv, List.filter_cons, ih]

lemma nodup_devices (h : Each Call.Attaches attached calls) :
    (calls.map (·.device)).Nodup ∧ ∀ call ∈ calls, call.device ∉ attached := by
  induction calls generalizing attached with
  | nil => simp
  | cons call calls ih =>
    obtain ⟨hnodup, hnew⟩ := ih h.2
    simp only [List.mem_cons, not_or] at hnew
    refine ⟨List.nodup_cons.mpr ⟨fun hmem => ?_, hnodup⟩, fun c hc => ?_⟩
    · obtain ⟨c, hc, heq⟩ := List.mem_map.mp hmem
      exact (hnew c hc).1 heq
    · rcases List.mem_cons.mp hc with rfl | hc
      · exact h.1.new
      · exact (hnew c hc).2

lemma recorded_sublist (h : List.Forall₂ Call.Right calls results) :
    ((results.filterMap Except.toOption).map (·.diskPath)).Sublist
      (calls.map fun call => some call.device) := by
  induction h with
  | nil => exact .slnil
  | @cons call result calls results hright _ ih =>
    cases result with
    | error err => exact ih.cons _
    | ok vol =>
      cases hright
      exact ih.cons_cons _

/-- If all attached devices are shown before each attachment, then every call that returns records
the device it attached, different volumes get different paths, and a call raises only if no poll
shows its device. -/
theorem runCalls_right (attached : List String) (calls : List Call) (volumes : List Volume)
    (hids : (calls.map (·.diskId)).Nodup)
    (honce : ∀ call ∈ calls, ∃ vol, volumes.filter (·.diskId = call.diskId) = [vol])
    (hcalls : Each Call.Attaches attached calls) (hshows : Each Call.Shows attached calls) :
    List.Forall₂ Call.Right calls (runCalls calls volumes).1 ∧
      (∀ vol, .ok vol ∈ (runCalls calls volumes).1 → vol ∈ (runCalls calls volumes).2) ∧
      (((runCalls calls volumes).1.filterMap Except.toOption).map (·.diskPath)).Nodup := by
  suffices h : List.Forall₂ Call.Right calls (runCalls calls volumes).1 ∧
      ∀ vol, .ok vol ∈ (runCalls calls volumes).1 → vol ∈ (runCalls calls volumes).2 by
    refine ⟨h.1, h.2, List.Nodup.sublist (recorded_sublist h.1) ?_⟩
    have := (nodup_devices hcalls).1.map (Option.some_injective String)
    rwa [List.map_map] at this
  induction calls generalizing attached volumes with
  | nil => exact ⟨.nil, by simp [runCalls]⟩
  | cons call calls ih =>
    obtain ⟨hid, hids⟩ := List.nodup_cons.mp hids
    obtain ⟨vol, hvol⟩ := honce call List.mem_cons_self
    obtain ⟨hright, hcase⟩ := attachNewDisk_right hcalls.1 hshows.1 hvol
    have hid : call.diskId ∉ calls.map (·.diskId) := hid
    have hmem : vol ∈ volumes ∧ vol.diskId = call.diskId := by
      have : vol ∈ volumes.filter (·.diskId = call.diskId) := by simp [hvol]
      simpa using this
    -- the other calls find their volumes as before, and leave the one of this call alone
    have honce' : ∀ c ∈ calls, ∃ v, (attachNewDisk call.diskId call.before call.polls
        volumes).2.filter (·.diskId = c.diskId) = [v] := fun c hc => by
      have hne : c.diskId ≠ call.diskId := fun heq => hid (heq ▸ List.mem_map_of_mem hc)
      rcases hcase with ⟨-, hsame⟩ | ⟨-, hrecord⟩
      · rw [hsame]
        exact honce c (List.mem_cons_of_mem _ hc)
      · rw [hrecord, filter_record hne]
        exact honce c (List.mem_cons_of_mem _ hc)
    obtain ⟨hrights, hrecorded⟩ := ih _ _ hids honce' hcalls.2 hshows.2
    refine ⟨.cons hright hrights, fun v hv => ?_⟩
    rcases List.mem_cons.mp hv with hresult | hv
    · rcases hcase with ⟨⟨err, herr⟩, -⟩ | ⟨hok, hrecord⟩
      · cases hresult.trans herr
      · cases hresult.trans hok
        have hnow : ⟨call.diskId, call.device⟩ ∈
            (attachNewDisk call.diskId call.before call.polls volumes).2 := by
          rw [hrecord]
          exact List.mem_map.mpr ⟨vol, hmem.1, by rw [if_pos hmem.2, ← hmem.2]⟩
        exact (mem_runCalls hnow hid :)
    · exact hrecorded v hv

/-- Two disks: the device of the first one is listed only after its call has given up. -/
def lateDevice : List Call :=
  [⟨"a", "/dev/sdb", [], List.replicate 10 (some [])⟩,
   ⟨"b", "/dev/sdc", [], [some ["/dev/sdb"]]⟩]

theorem lateDevice_recorded_for_next :
    Each Call.Attaches [] lateDevice ∧
      (∀ call ∈ lateDevice, (call.before :: call.polls.filterMap id).Pairwise (· ⊆ ·)) ∧
      (runCalls lateDevice [⟨"a", none⟩, ⟨"b", none⟩]).2 = [⟨"a", none⟩, ⟨"b", "/dev/sdb"⟩] ∧
      ¬ List.Forall₂ Call.Right lateDevice (runCalls lateDevice [⟨"a", none⟩, ⟨"b", none⟩]).1 := by
  refine ⟨⟨⟨by simp, by simp, by simp⟩, ⟨by simp, by simp, by simp⟩, trivial⟩,
    by simp [lateDevice], by decide, fun h => ?_⟩
  cases h with
  | cons _ h =>
    cases h with
    | cons h _ => exact absurd h (by simp [Call.Right])

/-- Two disks whose devices are listed by the last polls of their calls. -/
def promptDevices : List Call :=
  [⟨"a", "/dev/sdb", [], [none, some ["/dev/sdb"]]⟩,
   ⟨"b", "/dev/sdc", ["/dev/sdb"], [some ["/dev/sdb"], some ["/dev/sdc", "/dev/sdb"]]⟩]

theorem runCalls_right_promptDevices :
    List.Forall₂ Call.Right promptDevices (runCalls promptDevices [⟨"a", none⟩, ⟨"b", none⟩]).1 :=
  (runCalls_right [] promptDevices [⟨"a", none⟩, ⟨"b", none⟩] (by decide) (by simp [promptDevices])
    ⟨⟨by simp, by simp, by simp⟩, ⟨by simp, by simp, by simp⟩, trivial⟩
    ⟨by simp [Call.Shows], by simp [Call.Shows], trivial⟩).1

end

end Coriolis.Providers.AttachDisk

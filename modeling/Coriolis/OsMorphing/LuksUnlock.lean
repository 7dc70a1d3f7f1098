import Mathlib.Data.List.Nodup
import Mathlib.Data.List.Zip
import Mathlib.Data.List.DropRight

/-!
# Unlocking LUKS devices

`_unlock_luks_devices` opens the LUKS containers among the devices one after another and, if
something fails, closes those it has recorded. A mapper is recorded after the key file has been
deleted: if this deletion fails, the mapper stays open.
-/

namespace Coriolis.OsMorphing.Luks

/-- The remote commands for one device: writing the key file, `luksOpen`, deleting the key file. -/
inductive Command where
  | writeKey | luksOpen | deleteKey
  deriving DecidableEq

inductive UnlockError where
  | noPassphrase (devPath : String)
  | failed (command : Command) (devPath : String)

/-- The OS morphing worker: which devices are LUKS containers, the passphrase, empty if there is
none, and the command that fails, with the number of its device. -/
structure Worker where
  isLuks : String → Bool
  passphrase : String
  failing : Option (Nat × Command)

/-- `os.path.basename`. -/
def basename (path : String) : String := String.ofList (path.toList.rtakeWhile (· ≠ '/'))

def mapperName (devPath : String) : String := "coriolis_" ++ basename devPath

def mapperPath (devPath : String) : String := "/dev/mapper/" ++ mapperName devPath

/-- Names of mappers with their devices: those recorded, the last one last, and those open. -/
structure Mappers where
  luksOpened : List (String × String)
  opened : List (String × String)

section

variable (w : Worker)

/-- `_unlock_luks_device` for the device of a number, with the mappers that are open. A mapper name
is used once. -/
def unlockLuksDevice (i : Nat) (devPath : String) (opened : List (String × String)) :
    Except UnlockError (Option String) × List (String × String) :=
  if !w.isLuks devPath then (.ok none, opened)
  else if w.passphrase = "" then (.error (.noPassphrase devPath), opened)
  else if w.failing = some (i, .writeKey) then (.error (.failed .writeKey devPath), opened)
  else if w.failing = some (i, .luksOpen) ∨ mapperName devPath ∈ opened.map (·.1) then
    (.error (.failed .luksOpen devPath), opened)
  else if w.failing = some (i, .deleteKey) then
    (.error (.failed .deleteKey devPath), (mapperName devPath, devPath) :: opened)
  else (.ok (some (mapperPath devPath)), (mapperName devPath, devPath) :: opened)

/-- The loop of `_unlock_luks_devices`, with the paths it puts into the list. -/
def unlockLoop : Nat → List String → Mappers → Except UnlockError (List String) × Mappers
  | _, [], s => (.ok [], s)
  | i, devPath :: devPaths, s =>
    match unlockLuksDevice w i devPath s.opened with
    | (.error err, opened) => (.error err, { s with opened })
    | (.ok none, opened) =>
      let rest := unlockLoop (i + 1) devPaths { s with opened }
      (rest.1.map (devPath :: ·), rest.2)
    | (.ok (some path), opened) =>
      let rest := unlockLoop (i + 1) devPaths ⟨s.luksOpened ++ [(basename path, devPath)], opened⟩
      (rest.1.map (path :: ·), rest.2)

/-- `_close_luks_devices`, whose commands succeed. -/
def closeLuksDevices (s : Mappers) : Mappers :=
  ⟨[], s.opened.filter (·.1 ∉ s.luksOpened.map (·.1))⟩

/-- `_unlock_luks_devices` on a worker on which some mappers are open. -/
def unlockLuksDevices (devPaths : List String) (opened : List (String × String)) :
    Except UnlockError (List String) × Mappers :=
  match unlockLoop w 0 devPaths ⟨[], opened⟩ with
  | (.error err, s) => (.error err, closeLuksDevices s)
  | (.ok paths, s) => (.ok paths, s)

end

/-- A call that raises leaves no mapper open or recorded. One that returns has replaced each LUKS
device by the path of a mapper of its own, and no other device. -/
def Unlocks (w : Worker) (devPaths : List String) (opened : List (String × String)) :
    Except UnlockError (List String) × Mappers → Prop
  | (.error _, s) => s.luksOpened = [] ∧ s.opened ⊆ opened
  | (.ok paths, s) =>
    List.Forall₂ (fun devPath path => if w.isLuks devPath
      then ∃ name, path = "/dev/mapper/" ++ name ∧ (name, devPath) ∈ s.opened
      else path = devPath) devPaths paths ∧
    (((devPaths.zip paths).filter (w.isLuks ·.1)).map (·.2)).Nodup

/-- The names of the mappers of these devices are different and not in use. -/
def Fresh (w : Worker) (devPaths : List String) (opened : List (String × String)) : Prop :=
  ((devPaths.filter w.isLuks).map mapperName).Nodup ∧
    ∀ name ∈ (devPaths.filter w.isLuks).map mapperName, name ∉ opened.map (·.1)

/-- The command that fails deletes the key file of a LUKS device that has been opened. -/
def LeavesOpen (w : Worker) (start : Nat) (devPaths : List String)
    (opened : List (String × String)) : Prop :=
  ∃ i devPath, w.failing = some (start + i, .deleteKey) ∧ devPaths[i]? = some devPath ∧
    w.isLuks devPath ∧ w.passphrase ≠ "" ∧ Fresh w (devPaths.take (i + 1)) opened

section

variable {w : Worker} {opened : List (String × String)} {devPaths : List String} {i : Nat}

@[simp] lemma basename_mapperPath : basename (mapperPath devPath) = mapperName devPath := by
  have hname : ∀ c ∈ (mapperName devPath).toList, c ≠ '/' := by
    intro c hc
    simp only [mapperName, basename, String.toList_append, String.toList_ofList,
      List.mem_append] at hc
    rcases hc with hc | hc
    · have hstem : "coriolis_".toList.all (· ≠ '/') = true := by decide
      simpa using List.all_eq_true.mp hstem c hc
    · simpa using List.mem_rtakeWhile_imp hc
  have hpath : (mapperPath devPath).toList =
      "/dev/mapper".toList ++ '/' :: (mapperName devPath).toList := by
    rw [mapperPath, String.toList_append]
    rfl
  rw [basename, hpath, List.rtakeWhile, List.reverse_append, List.reverse_cons, List.append_assoc,
    List.takeWhile_append_of_pos (by simpa using hname)]
  simp

lemma fresh_cons_luks (h : w.isLuks devPath) : Fresh w (devPath :: devPaths) opened ↔
    mapperName devPath ∉ opened.map (·.1) ∧
      Fresh w devPaths ((mapperName devPath, devPath) :: opened) := by
  rw [Fresh, List.filter_cons_of_pos h, List.map_cons, List.nodup_cons, List.forall_mem_cons]
  constructor
  · rintro ⟨⟨hnot, hnodup⟩, hnew, hrest⟩
    refine ⟨hnew, hnodup, fun name hname hmem => ?_⟩
    rcases List.mem_cons.mp hmem with rfl | hmem
    · exact hnot hname
    · exact hrest name hname hmem
  · rintro ⟨hnew, hnodup, hrest⟩
    exact ⟨⟨fun hmem => hrest _ hmem List.mem_cons_self, hnodup⟩, hnew,
      fun name hname hmem => hrest name hname (List.mem_cons_of_mem _ hmem)⟩

lemma fresh_cons_other (h : ¬ w.isLuks devPath) :
    Fresh w (devPath :: devPaths) opened ↔ Fresh w devPaths opened := by
  rw [Fresh, List.filter_cons_of_neg h, Fresh]

lemma leavesOpen_cons_other (h : ¬ w.isLuks devPath) :
    LeavesOpen w i (devPath :: devPaths) opened ↔ LeavesOpen w (i + 1) devPaths opened := by
  constructor
  · rintro ⟨_ | j, d, hfail, hd, hluks, hpass, hfresh⟩
    · cases hd
      exact absurd hluks h
    · exact ⟨j, d, by rw [hfail, Nat.add_right_comm]; rfl, hd, hluks, hpass,
        (fresh_cons_other h).mp hfresh⟩
  · rintro ⟨j, d, hfail, hd, hluks, hpass, hfresh⟩
    exact ⟨j + 1, d, by rw [hfail, Nat.add_right_comm]; rfl, hd, hluks, hpass,
      (fresh_cons_other h).mpr hfresh⟩

lemma leavesOpen_cons_luks (h : w.isLuks devPath) :
    LeavesOpen w i (devPath :: devPaths) opened ↔
      w.passphrase ≠ "" ∧ mapperName devPath ∉ opened.map (·.1) ∧ (w.failing = some (i, .deleteKey) ∨
        LeavesOpen w (i + 1) devPaths ((mapperName devPath, devPath) :: opened)) := by
  constructor
  · rintro ⟨_ | j, d, hfail, hd, hluks, hpass, hfresh⟩
    · exact ⟨hpass, ((fresh_cons_luks h).mp hfresh).1, Or.inl hfail⟩
    · obtain ⟨hnew, hfresh⟩ := (fresh_cons_luks h).mp hfresh
      exact ⟨hpass, hnew, Or.inr ⟨j, d, by rw [hfail, Nat.add_right_comm]; rfl, hd, hluks, hpass,
        hfresh⟩⟩
  · rintro ⟨hpass, hnew, hfail | ⟨j, d, hfail, hd, hluks, -, hfresh⟩⟩
    · exact ⟨0, devPath, hfail, rfl, h, hpass, (fresh_cons_luks h).mpr ⟨hnew, by simp [Fresh]⟩⟩
    · exact ⟨j + 1, d, by rw [hfail, Nat.add_right_comm]; rfl, hd, hluks, hpass,
        (fresh_cons_luks h).mpr ⟨hnew, hfresh⟩⟩

/-- What the loop does: it goes through, with a mapper for each LUKS device, or it fails, with all
the mappers it has opened recorded but perhaps the last one. -/
inductive Looped (w : Worker) (i : Nat) (devPaths : List String) (s : Mappers) :
    Except UnlockError (List String) × Mappers → Prop where
  | returned (luksOpened opened : List (String × String)) (hopened : s.opened ⊆ opened)
      (hnew : ∀ d ∈ devPaths, w.isLuks d → (mapperName d, d) ∈ opened)
      (hfresh : Fresh w devPaths s.opened) (hnot : ¬ LeavesOpen w i devPaths s.opened) :
      Looped w i devPaths s (.ok (devPaths.map fun d => if w.isLuks d then mapperPath d else d),
        ⟨luksOpened, opened⟩)
  | failed (err : UnlockError) (done : List (String × String))
      (hnot : ¬ LeavesOpen w i devPaths s.opened) :
      Looped w i devPaths s (.error err, ⟨s.luksOpened ++ done, done.reverse ++ s.opened⟩)
  | left (err : UnlockError) (done : List (String × String)) (m : String × String)
      (hm : m.1 ∉ (done.reverse ++ s.opened).map (·.1)) (h : LeavesOpen w i devPaths s.opened) :
      Looped w i devPaths s (.error err, ⟨s.luksOpened ++ done, m :: (done.reverse ++ s.opened)⟩)

/-- What `_unlock_luks_device` does with a LUKS device: nothing, or it leaves the mapper open, or the
device is unlocked. -/
lemma unlockLuksDevice_luks (hluks : w.isLuks devPath) :
    (∃ err, unlockLuksDevice w i devPath opened = (.error err, opened) ∧
        ¬ LeavesOpen w i (devPath :: devPaths) opened) ∨
      mapperName devPath ∉ opened.map (·.1) ∧
        ((∃ err, unlockLuksDevice w i devPath opened =
            (.error err, (mapperName devPath, devPath) :: opened) ∧
          LeavesOpen w i (devPath :: devPaths) opened) ∨
        unlockLuksDevice w i devPath opened =
            (.ok (some (mapperPath devPath)), (mapperName devPath, devPath) :: opened) ∧
          (LeavesOpen w i (devPath :: devPaths) opened ↔
            LeavesOpen w (i + 1) devPaths ((mapperName devPath, devPath) :: opened))) := by
  have hleaves : LeavesOpen w i (devPath :: devPaths) opened ↔ _ := leavesOpen_cons_luks hluks
  rw [unlockLuksDevice, hluks]
  simp only [Bool.not_true, Bool.false_eq_true, if_false]
  split_ifs with hpass hwrite hopen hdelete
  · exact .inl ⟨_, rfl, fun h => (hleaves.mp h).1 hpass⟩
  · exact .inl ⟨_, rfl, fun ⟨_, _, hfail, _⟩ => by simp [hfail] at hwrite⟩
  · refine .inl ⟨_, rfl, fun h => ?_⟩
    rcases hopen with hopen | hclash
    · obtain ⟨_, _, hfail, _⟩ := h
      simp [hfail] at hopen
    · exact (hleaves.mp h).2.1 hclash
  · have hnew := fun hmem => hopen (Or.inr hmem)
    exact .inr ⟨hnew, .inl ⟨_, rfl, hleaves.mpr ⟨hpass, hnew, .inl hdelete⟩⟩⟩
  · have hnew := fun hmem => hopen (Or.inr hmem)
    exact .inr ⟨hnew, .inr ⟨rfl, hleaves.trans
      ⟨fun h => h.2.2.resolve_left hdelete, fun h => ⟨hpass, hnew, .inr h⟩⟩⟩⟩

lemma Looped.cons_luks (hluks : w.isLuks devPath) (hnew : mapperName devPath ∉ s.opened.map (·.1))
    (hleaves : LeavesOpen w i (devPath :: devPaths) s.opened ↔
      LeavesOpen w (i + 1) devPaths ((mapperName devPath, devPath) :: s.opened))
    (h : Looped w (i + 1) devPaths ⟨s.luksOpened ++ [(mapperName devPath, devPath)],
      (mapperName devPath, devPath) :: s.opened⟩ out) :
    Looped w i (devPath :: devPaths) s (out.1.map (mapperPath devPath :: ·), out.2) := by
  cases h with
  | returned luksOpened opened hopened hmappers hfresh hnot =>
    have := Looped.returned luksOpened opened (List.Subset.trans (by simp) hopened) ?_
      ((fresh_cons_luks hluks).mpr ⟨hnew, hfresh⟩) (mt hleaves.mp hnot)
    · simpa [hluks, Except.map] using this
    · exact List.forall_mem_cons.mpr ⟨fun _ => hopened List.mem_cons_self, hmappers⟩
  | failed err done hnot =>
    simpa [Except.map] using Looped.failed err ((mapperName devPath, devPath) :: done)
      (mt hleaves.mp hnot)
  | left err done m hm h =>
    simpa [Except.map] using Looped.left err ((mapperName devPath, devPath) :: done) m
      (by simpa using hm) (hleaves.mpr h)

lemma Looped.cons_other (hluks : ¬ w.isLuks devPath) (h : Looped w (i + 1) devPaths s out) :
    Looped w i (devPath :: devPaths) s (out.1.map (devPath :: ·), out.2) := by
  have hleaves : LeavesOpen w i (devPath :: devPaths) s.opened ↔ _ := leavesOpen_cons_other hluks
  cases h with
  | returned luksOpened opened hopened hnew hfresh hnot =>
    have := Looped.returned luksOpened opened hopened
      (List.forall_mem_cons.mpr ⟨fun h => absurd h hluks, hnew⟩)
      ((fresh_cons_other hluks).mpr hfresh) (mt hleaves.mp hnot)
    simpa [hluks, Except.map] using this
  | failed err done hnot => exact .failed err done (mt hleaves.mp hnot)
  | left err done m hm h => exact .left err done m hm (hleaves.mpr h)

lemma unlockLoop_looped (i : Nat) (devPaths : List String) (s : Mappers) :
    Looped w i devPaths s (unlockLoop w i devPaths s) := by
  induction devPaths generalizing i s with
  | nil =>
    refine .returned _ _ (List.Subset.refl _) (by simp) (by simp [Fresh]) ?_
    rintro ⟨j, d, -, hd, -⟩
    simp at hd
  | cons devPath devPaths ih =>
    rw [unlockLoop]
    by_cases hluks : w.isLuks devPath
    · rcases @unlockLuksDevice_luks w s.opened devPaths i devPath hluks with
        ⟨err, hdevice, hnot⟩ | ⟨hnew, ⟨err, hdevice, h⟩ | ⟨hdevice, hleaves⟩⟩ <;>
        simp only [hdevice]
      · simpa using Looped.failed err [] hnot
      · simpa using Looped.left err [] (mapperName devPath, devPath) hnew h
      · rw [basename_mapperPath]
        exact (ih ..).cons_luks hluks hnew hleaves
    · have hdevice : unlockLuksDevice w i devPath s.opened = (.ok none, s.opened) := by
        simp [unlockLuksDevice, hluks]
      simp only [hdevice]
      exact (ih ..).cons_other hluks

end

/-- A call with at most one failing command does what it should exactly when this command does not
delete the key file of a LUKS device that has been opened. -/
theorem unlockLuksDevices_iff (w : Worker) (devPaths : List String)
    (opened : List (String × String)) :
    Unlocks w devPaths opened (unlockLuksDevices w devPaths opened) ↔
      ¬ LeavesOpen w 0 devPaths opened := by
  have hloop := unlockLoop_looped (w := w) 0 devPaths ⟨[], opened⟩
  unfold unlockLuksDevices
  generalize unlockLoop w 0 devPaths ⟨[], opened⟩ = out at hloop ⊢
  cases hloop with
  | returned luksOpened opened' hopened hnew hfresh hnot =>
    refine iff_of_true ⟨?_, ?_⟩ hnot
    · rw [List.forall₂_map_right_iff, List.forall₂_same]
      intro d hd
      by_cases hluks : w.isLuks d
      · rw [if_pos hluks, if_pos hluks]
        exact ⟨mapperName d, rfl, hnew d hd hluks⟩
      · rw [if_neg hluks, if_neg hluks]
    · have hpaths : (devPaths.filter w.isLuks).map (fun d => if w.isLuks d then mapperPath d else d) =
          ((devPaths.filter w.isLuks).map mapperName).map ("/dev/mapper/" ++ ·) := by
        rw [List.map_map]
        exact List.map_congr_left fun d hd => if_pos (List.mem_filter.mp hd).2
      rw [← List.map_prod_left_eq_zip, List.filter_map, List.map_map]
      change ((devPaths.filter w.isLuks).map fun d => if w.isLuks d then mapperPath d else d).Nodup
      rw [hpaths]
      exact hfresh.1.map fun name name' heq => by simpa using heq
  | failed err done hnot =>
    refine iff_of_true ⟨rfl, fun m hm => ?_⟩ hnot
    obtain ⟨hmem, hkept⟩ := List.mem_filter.mp hm
    rcases List.mem_append.mp hmem with hdone | hold
    · have : m.1 ∈ done.map (·.1) := List.mem_map_of_mem (List.mem_reverse.mp hdone)
      simp_all
    · exact hold
  | left err done m hm h =>
    refine iff_of_false (fun hclosed => ?_) (not_not.mpr h)
    rw [List.map_append, List.mem_append, not_or, List.map_reverse, List.mem_reverse] at hm
    have hkept : m ∈ (closeLuksDevices ⟨[] ++ done, m :: (done.reverse ++ opened)⟩).opened :=
      List.mem_filter.mpr ⟨List.mem_cons_self, by simpa using hm.1⟩
    exact hm.2 (List.mem_map_of_mem (hclosed.2 hkept))

/-- The worker on which the key file of the first device cannot be deleted. -/
def keyNotDeleted : Worker := ⟨fun _ => true, "secret", some (0, .deleteKey)⟩

theorem mapper_left_open :
    (unlockLuksDevices keyNotDeleted ["/dev/sdb"] []).2.opened = [("coriolis_sdb", "/dev/sdb")] ∧
      ¬ Unlocks keyNotDeleted ["/dev/sdb"] [] (unlockLuksDevices keyNotDeleted ["/dev/sdb"] []) := by
  have hopened : (unlockLuksDevices keyNotDeleted ["/dev/sdb"] []).2.opened =
      [("coriolis_sdb", "/dev/sdb")] := by decide
  refine ⟨hopened, fun h => ?_⟩
  have hempty : (unlockLuksDevices keyNotDeleted ["/dev/sdb"] []).2.opened ⊆ [] := h.2
  rw [hopened] at hempty
  exact absurd (hempty List.mem_cons_self) List.not_mem_nil

end Coriolis.OsMorphing.Luks

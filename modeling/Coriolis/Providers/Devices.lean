import Coriolis.Library.Indexed
import Coriolis.Library.Raising
import Mathlib.Data.List.Perm.Subperm
import Mathlib.Data.List.Rotate

/-!
# Devices of the volumes on a minion

The volumes of a transfer are attached to a minion, and each of them is written to under the
device it has there. The Proxmox provider looks for it by a serial it made from the index of the
volume. The Hyper-V provider computes the name of the device from the index.
-/

namespace Coriolis.Providers

abbrev Name := List Nat

def codes (chars : List Char) : Name := chars.map Char.toNat

/-- An entry of `volumes_info`. -/
structure Volume where
  volumeId : String
  volumeDev : Option Name
  deriving DecidableEq

/-- What is called before the devices are looked for. -/
inductive TargetCall where
  | createMinionVm | attachDisk (index : Nat) | startVm | waitForVmUp | getVmIp | setupWriter

inductive TargetError where
  | raised (call : TargetCall)
  | deviceNotFound (volumeId : String) (serial : Name)
  | invalidCharacter (code : Nat)

def setupMinion (raises : TargetCall → Bool) (volumes : List Volume) : Except TargetError Unit :=
  let calls := [.createMinionVm] ++ (List.range volumes.length).map .attachDisk ++
    [.startVm, .waitForVmUp, .getVmIp, .setupWriter]
  match calls.find? raises with
  | some call => .error (.raised call)
  | none => .ok ()

/-- The loop that sets `volume_dev` of each volume. -/
def assignDevices (device : Volume → Nat → Except TargetError Name) :
    List (Volume × Nat) → Except TargetError (List Volume)
  | [] => .ok []
  | (volume, index) :: volumes => do
    let dev ← device volume index
    let volumes ← assignDevices device volumes
    return { volume with volumeDev := some dev } :: volumes

namespace Proxmox

def marker : Name := codes ['c', 'v', 'o', 'l', '-']

def serial (index : Nat) : Name := marker ++ codes (Nat.toDigits 10 index)

def attached (volumes : List Volume) : List (String × Name) :=
  volumes.zipIdx.map fun (volume, index) => (volume.volumeId, serial index)

def byId (name : Name) : Name := codes "/dev/disk/by-id/".toList ++ name

/-- The lines of `find`, of a directory with these names: the two patterns are the same. -/
def find (index : Nat) (names : List Name) : List Name :=
  (names.filter fun name => serial index <:+: name ∨ serial index <:+: name).map byId

/-- The device of a volume: the first line of the first of six attempts that prints any. What is in
the directory at an attempt is not known if the command raises. -/
def devPath (index : Nat) (directory : Nat → Option (List Name)) : Option Name :=
  (List.range 6).findSome? fun attempt =>
    (directory attempt).bind fun names => (find index names).head?

def findDevice (directory : Nat → Nat → Option (List Name)) (volume : Volume) (index : Nat) :
    Except TargetError Name :=
  match devPath index (directory index) with
  | none => .error (.deviceNotFound volume.volumeId (serial index))
  | some dev => .ok dev

/-- `deploy_replica_target_resources`, with the directory the attempts for each index see; of its
result the volumes. -/
def deployReplicaTargetResources (raises : TargetCall → Bool)
    (directory : Nat → Nat → Option (List Name)) (volumes : List Volume) :
    Except TargetError (List Volume) := do
  setupMinion raises volumes
  assignDevices (findDevice directory) volumes.zipIdx

end Proxmox

namespace HyperV

/-- `chr`, of which the result stands for itself as a code point. -/
def chr (code : Nat) : Option Nat := if code < 0x110000 then some code else none

def nameDevice (_ : Volume) (index : Nat) : Except TargetError Name :=
  match chr ('b'.toNat + index) with
  | none => .error (.invalidCharacter ('b'.toNat + index))
  | some letter => .ok (codes "/dev/sd".toList ++ [letter])

/-- `deploy_replica_target_resources`; of its result the volumes. -/
def deployReplicaTargetResources (raises : TargetCall → Bool) (volumes : List Volume) :
    Except TargetError (List Volume) := do
  setupMinion raises volumes
  assignDevices nameDevice volumes.zipIdx

end HyperV

/-- Each volume has the device of that very disk, and no two of them share one. -/
structure Mapped (isDevice : String → Name → Prop) (volumes result : List Volume) : Prop where
  ids : result.map (·.volumeId) = volumes.map (·.volumeId)
  own : ∀ volume ∈ result, ∃ dev, volume.volumeDev = some dev ∧ isDevice volume.volumeId dev
  nodup : (result.map (·.volumeDev)).Nodup

namespace Proxmox

/-- A minion with the disks attached. A link of its directory leads to one of them, and its name
ends with the serial and has the marker only there, or it leads to another disk and its name
has no marker; each disk has one link. -/
structure Minion (disks : List (String × Name)) where
  links : List (Name × Option String)
  once : ∀ disk ∈ disks, ∃ name, links.filter (·.2 = some disk.1) = [(name, some disk.1)]
  named : ∀ name volumeId, (name, some volumeId) ∈ links → ∃ serial stem,
    (volumeId, serial) ∈ disks ∧ name = stem ++ serial ∧
      ∀ before after, name = before ++ marker ++ after → before = stem
  others : ∀ name, (name, none) ∈ links → ¬ marker <:+: name

namespace Minion

variable (minion : Minion disks)

/-- The names that are seen in the directory, some of the links in any order. -/
def Lists (directory : Nat → Nat → Option (List Name)) : Prop :=
  ∀ index attempt names, directory index attempt = some names →
    names.Subperm (minion.links.map (·.1))

def isDevice (volumeId : String) (dev : Name) : Prop :=
  ∃ name, (name, some volumeId) ∈ minion.links ∧ dev = byId name

end Minion

end Proxmox

namespace HyperV

/-- The letters of the name of a Linux SCSI disk: `a` to `z`, then `aa` to `zz`, and so on. -/
def letters (index : Nat) : Name :=
  if index < 26 then ['a'.toNat + index]
  else letters (index / 26 - 1) ++ ['a'.toNat + index % 26]
termination_by index
decreasing_by omega

/-- The devices of the disks, in the order they were attached in after the boot disk. -/
def isDevice (volumes : List Volume) (volumeId : String) (dev : Name) : Prop :=
  ∃ volume index, (volume, index) ∈ volumes.zipIdx ∧ volume.volumeId = volumeId ∧
    dev = codes "/dev/sd".toList ++ letters (index + 1)

end HyperV

lemma eq_of_volumeId_eq {volumes : List Volume} (hdistinct : (volumes.map (·.volumeId)).Nodup)
    (hv : v ∈ volumes.zipIdx) (hw : w ∈ volumes.zipIdx) (h : v.1.volumeId = w.1.volumeId) :
    v = w := by
  refine Indexed.eq_of_index_eq hv hw ?_
  have hv' : (volumes.map (·.volumeId))[v.2]? = some v.1.volumeId := by
    simp [List.mk_mem_zipIdx_iff_getElem?.mp hv]
  have hw' : (volumes.map (·.volumeId))[w.2]? = some w.1.volumeId := by
    simp [List.mk_mem_zipIdx_iff_getElem?.mp hw]
  obtain ⟨hlt, -⟩ := List.getElem?_eq_some_iff.mp hv'
  exact (List.getElem?_inj hlt hdistinct).mp (by rw [hv', hw', h])

lemma filter_volumeId {volumes : List Volume} (hdistinct : (volumes.map (·.volumeId)).Nodup)
    (hv : v ∈ volumes.zipIdx) :
    volumes.zipIdx.filter (fun w => w.1.volumeId = v.1.volumeId) = [v] := by
  have hsame : ∀ w ∈ volumes.zipIdx,
      decide (w.1.volumeId = v.1.volumeId) = decide (w = v) := by
    intro w hw
    rw [decide_eq_decide]
    exact ⟨eq_of_volumeId_eq hdistinct hw hv, fun h => h ▸ rfl⟩
  rw [List.filter_congr hsame, List.filter_eq, List.count_eq_one_of_mem Indexed.nodup_zipIdx hv]
  rfl

lemma setupMinion_of_not_raises (volumes : List Volume) :
    setupMinion (fun _ => false) volumes = .ok () := by
  simp only [setupMinion]
  rw [List.find?_eq_none.mpr (by simp)]

section

variable {volumes result : List Volume}

lemma forall₂_of_assignDevices (h : assignDevices device indexed = .ok result) :
    List.Forall₂ (fun v r => ∃ dev, device v.1 v.2 = .ok dev ∧
      r = { v.1 with volumeDev := some dev }) indexed result := by
  induction indexed generalizing result with
  | nil =>
    cases h
    exact .nil
  | cons v indexed ih =>
    obtain ⟨dev, hdev, h⟩ := Raising.bind_eq_ok h
    obtain ⟨rest, hrest, h⟩ := Raising.bind_eq_ok h
    cases h
    exact .cons ⟨dev, hdev, rfl⟩ (ih hrest)

lemma ids_of_assignDevices (h : assignDevices device volumes.zipIdx = .ok result) :
    result.map (·.volumeId) = volumes.map (·.volumeId) := by
  rw [← @Indexed.map_fst _ _ volumes]
  refine (Indexed.map_eq_map (forall₂_of_assignDevices h) ?_).symm
  rintro v r ⟨dev, -, rfl⟩
  rfl

lemma mem_assignDevices_of_mem (h : assignDevices device indexed = .ok result) (hv : v ∈ indexed)
    (hdev : device v.1 v.2 = .ok dev) :
    { v.1 with volumeDev := some dev } ∈ result := by
  obtain ⟨r, hr, dev', hdev', rfl⟩ :=
    Indexed.exists_of_mem_left (forall₂_of_assignDevices h) hv
  cases hdev.symm.trans hdev'
  exact hr

lemma exists_assignDevices (h : ∀ v ∈ indexed, ∃ dev, device v.1 v.2 = .ok dev) :
    ∃ result, assignDevices device indexed = .ok result := by
  induction indexed with
  | nil => exact ⟨[], rfl⟩
  | cons v indexed ih =>
    rw [List.forall_mem_cons] at h
    obtain ⟨⟨dev, hdev⟩, hrest⟩ := h
    obtain ⟨result, hresult⟩ := ih hrest
    exact ⟨{ v.1 with volumeDev := some dev } :: result, by
      simp [assignDevices, hdev, hresult, bind, Except.bind, pure, Except.pure]⟩

/-- If what is found is the device of the very disk, and no device belongs to two disks, then all
is well for volumes with distinct ids. -/
lemma mapped_of_assignDevices (h : assignDevices device volumes.zipIdx = .ok result)
    (hdistinct : (volumes.map (·.volumeId)).Nodup)
    (hown : ∀ v ∈ volumes.zipIdx, ∀ dev, device v.1 v.2 = .ok dev → isDevice v.1.volumeId dev)
    (hinj : ∀ volumeId volumeId' dev, isDevice volumeId dev → isDevice volumeId' dev →
      volumeId = volumeId') :
    Mapped isDevice volumes result := by
  have hids := ids_of_assignDevices h
  have howned : ∀ volume ∈ result, ∃ dev, volume.volumeDev = some dev ∧
      isDevice volume.volumeId dev := by
    intro volume hvolume
    obtain ⟨v, hv, dev, hdev, rfl⟩ :=
      Indexed.exists_of_mem_right (forall₂_of_assignDevices h) hvolume
    exact ⟨dev, rfl, hown v hv dev hdev⟩
  refine ⟨hids, howned, ?_⟩
  rw [← hids, List.Nodup, List.pairwise_map] at hdistinct
  rw [List.Nodup, List.pairwise_map]
  refine hdistinct.imp_of_mem fun {a b} ha hb hne heq => hne ?_
  obtain ⟨dev, hdev, hisdev⟩ := howned a ha
  obtain ⟨dev', hdev', hisdev'⟩ := howned b hb
  obtain rfl : dev = dev' := Option.some.inj (hdev.symm.trans (heq.trans hdev'))
  exact hinj _ _ _ hisdev hisdev'

end

namespace Proxmox

variable {volumes : List Volume}

lemma isPrefix_of_serial (hname : name = stem ++ serial j)
    (hmarker : ∀ before after, name = before ++ marker ++ after → before = stem)
    (h : serial i <:+: name) : codes (Nat.toDigits 10 i) <+: codes (Nat.toDigits 10 j) := by
  obtain ⟨before, after, hab⟩ := h
  obtain rfl : before = stem := hmarker before (codes (Nat.toDigits 10 i) ++ after) (by
    rw [← hab, serial]
    simp)
  refine ⟨after, ?_⟩
  rw [hname, serial, serial] at hab
  simpa using hab

lemma eq_of_prefix_of_lt (hi : i < 10) (hj : j < 10)
    (h : codes (Nat.toDigits 10 i) <+: codes (Nat.toDigits 10 j)) : i = j := by
  have hchars : ∀ i j : Fin 10, i.val.digitChar.toNat = j.val.digitChar.toNat → i = j := by
    decide
  rw [Nat.toDigits_of_lt_base hi, Nat.toDigits_of_lt_base hj] at h
  have hchar : i.digitChar.toNat = j.digitChar.toNat := by simpa [codes] using h
  exact congrArg Fin.val (hchars ⟨i, hi⟩ ⟨j, hj⟩ hchar)

lemma mem_attached (h : (volumeId, name) ∈ attached volumes) :
    ∃ v ∈ volumes.zipIdx, v.1.volumeId = volumeId ∧ serial v.2 = name := by
  obtain ⟨v, hv, heq⟩ := List.mem_map.mp h
  cases heq
  exact ⟨v, hv, rfl, rfl⟩

lemma index_lt (hcount : volumes.length ≤ 10) (hv : v ∈ volumes.zipIdx) :
    v.2 < 10 := by
  have := (List.mem_zipIdx hv).2.1
  omega

lemma findDevice_ok (h : findDevice directory volume i = .ok dev) :
    ∃ attempt names name, directory i attempt = some names ∧ name ∈ names ∧
      serial i <:+: name ∧ dev = byId name := by
  rcases hpath : devPath i (directory i) with - | found
  · simp [findDevice, hpath] at h
  simp only [findDevice, hpath, Except.ok.injEq] at h
  subst h
  obtain ⟨attempt, -, hattempt⟩ := List.exists_of_findSome?_eq_some hpath
  obtain ⟨names, hnames, hhead⟩ := Option.bind_eq_some_iff.mp hattempt
  obtain ⟨name, hname, rfl⟩ := List.mem_map.mp (List.mem_of_head? hhead)
  obtain ⟨hmem, hinfix⟩ := List.mem_filter.mp hname
  exact ⟨attempt, names, name, hnames, hmem, by simpa using hinfix, rfl⟩

variable (minion : Minion (attached volumes))

lemma isDevice_of_findDevice (hcount : volumes.length ≤ 10) (hlists : minion.Lists directory)
    (hv : v ∈ volumes.zipIdx) (h : findDevice directory v.1 v.2 = .ok dev) :
    minion.isDevice v.1.volumeId dev := by
  obtain ⟨attempt, names, name, hnames, hmem, hinfix, rfl⟩ := findDevice_ok h
  obtain ⟨⟨name, disk⟩, hlink, rfl⟩ :=
    List.mem_map.mp ((hlists v.2 attempt names hnames).subset hmem)
  rcases disk with - | volumeId
  · have hmarker : marker <:+: serial v.2 := ⟨[], codes (Nat.toDigits 10 v.2), rfl⟩
    exact absurd (hmarker.trans hinfix) (minion.others _ hlink)
  · obtain ⟨_, stem, hattached, hname, honly⟩ := minion.named _ _ hlink
    obtain ⟨w, hw, rfl, rfl⟩ := mem_attached hattached
    have hindex : v.2 = w.2 := eq_of_prefix_of_lt (index_lt hcount hv) (index_lt hcount hw)
      (isPrefix_of_serial hname honly hinfix)
    exact ⟨_, Indexed.eq_of_index_eq hv hw hindex ▸ hlink, rfl⟩

lemma isDevice_inj (hcount : volumes.length ≤ 10) (h : minion.isDevice volumeId dev)
    (h' : minion.isDevice volumeId' dev) :
    volumeId = volumeId' := by
  obtain ⟨name, hlink, rfl⟩ := h
  obtain ⟨name', hlink', hpath⟩ := h'
  obtain rfl : name = name' := List.append_cancel_left hpath
  obtain ⟨_, stem, hattached, hname, -⟩ := minion.named _ _ hlink
  obtain ⟨_, stem', hattached', hname', honly⟩ := minion.named _ _ hlink'
  obtain ⟨v, hv, rfl, rfl⟩ := mem_attached hattached
  obtain ⟨w, hw, rfl, rfl⟩ := mem_attached hattached'
  have hindex : v.2 = w.2 := eq_of_prefix_of_lt (index_lt hcount hv) (index_lt hcount hw)
    (isPrefix_of_serial hname' honly ⟨stem, [], by simp [hname]⟩)
  rw [Indexed.eq_of_index_eq hv hw hindex]

section

/-! Eleven volumes and more, with the link of the eleventh one in front of the others. -/

omit minion

lemma eq_nil_of_serial (h : serial i = before ++ marker ++ after) :
    before = [] := by
  rcases before with - | ⟨c, before⟩
  · rfl
  have hcount : (serial i).count 'c'.toNat = 1 := by
    have hdigits : 'c'.toNat ∉ codes (Nat.toDigits 10 i) := by
      intro hmem
      obtain ⟨d, hd, heq⟩ := List.mem_map.mp hmem
      have hdigit := Nat.isDigit_of_mem_toDigits (by decide) (by decide) hd
      obtain rfl : d = 'c' := Char.toNat_inj.mp heq
      cases hdigit
    rw [serial, List.count_append, List.count_eq_zero_of_not_mem hdigits]
    decide
  have hmarker : marker.count 'c'.toNat = 1 := by decide
  have hhead : c = 'c'.toNat := by
    have := congrArg List.head? h
    simpa [serial, marker, codes] using this.symm
  rw [h, List.count_append, List.count_append, hmarker, hhead, List.count_cons_self] at hcount
  omega

/-- Each volume has its serial as the name of its link, and the links are rotated by ten. -/
def rotated (hdistinct : (volumes.map (·.volumeId)).Nodup) : Minion (attached volumes) where
  links := (volumes.zipIdx.map fun v => (serial v.2, some v.1.volumeId)).rotate 10
  once := by
    intro disk hdisk
    obtain ⟨v, hv, hid, -⟩ := mem_attached hdisk
    refine ⟨serial v.2, List.perm_singleton.mp ?_⟩
    refine ((List.rotate_perm _ 10).filter _).trans (List.Perm.of_eq ?_)
    rw [← hid, List.filter_map]
    simp only [Function.comp_def, Option.some.injEq]
    rw [filter_volumeId hdistinct hv, List.map_singleton]
  named := by
    intro name volumeId hlink
    obtain ⟨v, hv, heq⟩ := List.mem_map.mp (List.mem_rotate.mp hlink)
    cases heq
    exact ⟨serial v.2, [], List.mem_map.mpr ⟨v, hv, rfl⟩, rfl, fun _ _ => eq_nil_of_serial⟩
  others := by
    intro name hlink
    obtain ⟨v, -, heq⟩ := List.mem_map.mp (List.mem_rotate.mp hlink)
    simp at heq

lemma findDevice_of_head (h : (find i names).head? = some dev) :
    findDevice (fun _ _ => some names) volume i = .ok dev := by
  have hrange : List.range 6 = [0, 1, 2, 3, 4, 5] := rfl
  simp only [findDevice, devPath, hrange, List.findSome?_cons, Option.bind_some, h]

variable (hdistinct : (volumes.map (·.volumeId)).Nodup)

lemma rotated_names (hcount : 10 < volumes.length) :
    ((rotated hdistinct).links.map (·.1)).head? = some (serial 10) := by
  have hlength : 10 < (volumes.zipIdx.map fun v =>
      (serial v.2, some v.1.volumeId)).length := by simpa using hcount
  have hlinks : (rotated hdistinct).links =
      (volumes.zipIdx.map fun v => (serial v.2, some v.1.volumeId)).rotate 10 := rfl
  rw [hlinks, List.rotate_eq_drop_append_take (Nat.le_of_lt hlength),
    List.drop_eq_getElem_cons hlength]
  simp

lemma findDevice_rotated (hv : v ∈ volumes.zipIdx) :
    ∃ dev, findDevice (fun _ _ => some ((rotated hdistinct).links.map (·.1))) v.1 v.2 =
      .ok dev := by
  have hmem : serial v.2 ∈ (rotated hdistinct).links.map (·.1) :=
    List.mem_map.mpr ⟨(serial v.2, some v.1.volumeId),
      List.mem_rotate.mpr (List.mem_map.mpr ⟨v, hv, rfl⟩), rfl⟩
  have hfound : byId (serial v.2) ∈ find v.2 ((rotated hdistinct).links.map (·.1)) :=
    List.mem_map.mpr ⟨_, List.mem_filter.mpr ⟨hmem, by simp⟩, rfl⟩
  rcases hhead : (find v.2 ((rotated hdistinct).links.map (·.1))).head? with - | dev
  · rw [List.head?_eq_none_iff.mp hhead] at hfound
    simp at hfound
  · exact ⟨dev, findDevice_of_head hhead⟩

/-- The second volume finds the device of the eleventh one. -/
lemma findDevice_rotated_one (hcount : 10 < volumes.length) (volume : Volume) :
    findDevice (fun _ _ => some ((rotated hdistinct).links.map (·.1))) volume 1 =
      .ok (byId (serial 10)) := by
  refine findDevice_of_head ?_
  obtain ⟨names, hnames⟩ := List.head?_eq_some_iff.mp (rotated_names hdistinct hcount)
  have hinfix : serial 1 <:+: serial 10 := ⟨[], ['0'.toNat], by decide⟩
  simp [hnames, find, hinfix]

lemma not_mapped_rotated (hcount : 10 < volumes.length) :
    ∃ result, deployReplicaTargetResources (fun _ => false)
        (fun _ _ => some ((rotated hdistinct).links.map (·.1))) volumes = .ok result ∧
      ¬ Mapped (rotated hdistinct).isDevice volumes result := by
  obtain ⟨result, hresult⟩ := exists_assignDevices fun v hv => findDevice_rotated hdistinct hv
  refine ⟨result, ?_, ?_⟩
  · simp [deployReplicaTargetResources, setupMinion_of_not_raises, hresult, bind, Except.bind]
  intro hmapped
  have hone : 1 < volumes.length := by omega
  have hv : (volumes[1], 1) ∈ volumes.zipIdx := List.mk_mem_zipIdx_iff_getElem?.mpr (by simp)
  have hr := mem_assignDevices_of_mem hresult hv (findDevice_rotated_one hdistinct hcount _)
  obtain ⟨dev, hdev, name, hlink, hpath⟩ := hmapped.own _ hr
  cases hdev
  obtain ⟨w, hw, heq⟩ := List.mem_map.mp (List.mem_rotate.mp hlink)
  obtain rfl : name = serial 10 := (List.append_cancel_left hpath).symm
  simp only [Prod.mk.injEq, Option.some.injEq] at heq
  obtain rfl := eq_of_volumeId_eq hdistinct hw hv heq.2
  have hserial : serial 1 ≠ serial 10 := by decide
  exact hserial heq.1

end

end Proxmox

namespace HyperV

variable {volumes : List Volume}

lemma letters_of_lt (h : index < 26) : letters index = ['a'.toNat + index] := by
  rw [letters, if_pos h]

lemma two_le_length_letters (h : 26 ≤ index) : 2 ≤ (letters index).length := by
  have hpos : ∀ index, 1 ≤ (letters index).length := by
    intro index
    unfold letters
    split <;> simp
  rw [letters, if_neg (by omega), List.length_append]
  have := hpos (index / 26 - 1)
  simp only [List.length_singleton]
  omega

lemma nameDevice_of_lt (h : 'b'.toNat + index < 0x110000) :
    nameDevice volume index = .ok (codes "/dev/sd".toList ++ ['b'.toNat + index]) := by
  simp only [nameDevice, chr, if_pos h]

lemma isDevice_of_nameDevice (hcount : volumes.length ≤ 25) (hv : v ∈ volumes.zipIdx)
    (h : nameDevice v.1 v.2 = .ok dev) :
    isDevice volumes v.1.volumeId dev := by
  have hlt : v.2 < 25 := by
    have := (List.mem_zipIdx hv).2.1
    omega
  have hb : 'b'.toNat = 'a'.toNat + 1 := rfl
  have ha : 'a'.toNat = 97 := rfl
  rw [nameDevice_of_lt (by omega)] at h
  cases h
  refine ⟨v.1, v.2, hv, rfl, ?_⟩
  rw [letters_of_lt (by omega), hb, Nat.add_assoc, Nat.add_comm 1]

lemma isDevice_inj (hcount : volumes.length ≤ 25) (h : isDevice volumes volumeId dev)
    (h' : isDevice volumes volumeId' dev) :
    volumeId = volumeId' := by
  obtain ⟨v, i, hv, rfl, rfl⟩ := h
  obtain ⟨w, j, hw, rfl, hdev⟩ := h'
  have hi := (List.mem_zipIdx hv).2.1
  have hj := (List.mem_zipIdx hw).2.1
  have hletters := List.append_cancel_left hdev
  rw [letters_of_lt (by omega), letters_of_lt (by omega)] at hletters
  have hij : i = j := by simpa using hletters
  exact congrArg (·.1.volumeId) (Indexed.eq_of_index_eq hv hw hij)

/-- The volume after the one on `/dev/sdz` has a device that does not exist. -/
lemma not_mapped_of_many (hmany : 25 < volumes.length)
    (hchr : 'b'.toNat + volumes.length ≤ 0x110000)
    (hdistinct : (volumes.map (·.volumeId)).Nodup) :
    ∃ result, deployReplicaTargetResources (fun _ => false) volumes = .ok result ∧
      ¬ Mapped (isDevice volumes) volumes result := by
  have hnamed : ∀ v ∈ volumes.zipIdx, ∃ dev, nameDevice v.1 v.2 = .ok dev := by
    intro v hv
    have := (List.mem_zipIdx hv).2.1
    exact ⟨_, nameDevice_of_lt (by omega)⟩
  obtain ⟨result, hresult⟩ := exists_assignDevices hnamed
  refine ⟨result, ?_, ?_⟩
  · simp [deployReplicaTargetResources, setupMinion_of_not_raises, hresult, bind, Except.bind]
  intro hmapped
  have hv : (volumes[25], 25) ∈ volumes.zipIdx := List.mk_mem_zipIdx_iff_getElem?.mpr (by simp)
  have hr := mem_assignDevices_of_mem hresult hv (nameDevice_of_lt (by omega))
  obtain ⟨dev, hdev, w, index, hw, hid, hletters⟩ := hmapped.own _ hr
  cases hdev
  have hindex : index = 25 := congrArg Prod.snd (eq_of_volumeId_eq hdistinct hw hv hid)
  subst hindex
  have hlength := congrArg List.length (List.append_cancel_left hletters)
  have := @two_le_length_letters (25 + 1) (le_refl _)
  simp only [List.length_singleton] at hlength
  omega

/-- A volume without a character makes the call raise. -/
lemma count_le_of_nameDevices (h : assignDevices nameDevice volumes.zipIdx = .ok result) :
    'b'.toNat + volumes.length ≤ 0x110000 := by
  by_contra hmany
  have hb : 'b'.toNat = 98 := rfl
  have hlast : volumes.length - 1 < volumes.length := by omega
  have hv : (volumes[volumes.length - 1], volumes.length - 1) ∈ volumes.zipIdx :=
    List.mk_mem_zipIdx_iff_getElem?.mpr (by simp)
  obtain ⟨-, -, dev, hdev, -⟩ := Indexed.exists_of_mem_left (forall₂_of_assignDevices h) hv
  have hchr : ¬ 'b'.toNat + (volumes.length - 1) < 0x110000 := by omega
  simp only [nameDevice, chr, if_neg hchr] at hdev
  cases hdev

end HyperV

/-- On every minion on which the disks appear once and under their names, the devices are those of
the very disks: for Proxmox if and only if there are at most ten volumes, and for Hyper-V if and
only if there are at most 25, or so many that there is no character for the last one and the call
raises. -/
theorem devices_mapped_iff {volumes : List Volume}
    (hdistinct : (volumes.map (·.volumeId)).Nodup) :
    ((∀ raises (minion : Proxmox.Minion (Proxmox.attached volumes)) directory result,
        minion.Lists directory →
        Proxmox.deployReplicaTargetResources raises directory volumes = .ok result →
        Mapped minion.isDevice volumes result) ↔ volumes.length ≤ 10) ∧
    ((∀ raises result, HyperV.deployReplicaTargetResources raises volumes = .ok result →
        Mapped (HyperV.isDevice volumes) volumes result) ↔
      volumes.length ≤ 25 ∨ 0x110000 < 'b'.toNat + volumes.length) := by
  refine ⟨⟨fun h => ?_, fun hcount raises minion directory result hlists h => ?_⟩,
    ⟨fun h => ?_, fun hcount raises result h => ?_⟩⟩
  · by_contra hcount
    obtain ⟨result, hresult, hnot⟩ := Proxmox.not_mapped_rotated hdistinct (by omega)
    refine hnot (h _ _ _ _ ?_ hresult)
    rintro index attempt names ⟨⟩
    exact List.Subperm.refl _
  · obtain ⟨-, -, h⟩ := Raising.bind_eq_ok h
    exact mapped_of_assignDevices h hdistinct
      (fun v hv dev => Proxmox.isDevice_of_findDevice minion hcount hlists hv)
      (fun _ _ _ => Proxmox.isDevice_inj minion hcount)
  · by_contra hcount
    have hmany : 25 < volumes.length := by omega
    have hchr : 'b'.toNat + volumes.length ≤ 0x110000 := by omega
    obtain ⟨result, hresult, hnot⟩ := HyperV.not_mapped_of_many hmany hchr hdistinct
    exact hnot (h _ _ hresult)
  · obtain ⟨-, -, h⟩ := Raising.bind_eq_ok h
    have hcount : volumes.length ≤ 25 :=
      hcount.resolve_right (Nat.not_lt.mpr (HyperV.count_le_of_nameDevices h))
    exact mapped_of_assignDevices h hdistinct
      (fun v hv dev => HyperV.isDevice_of_nameDevice hcount hv)
      (fun _ _ _ => HyperV.isDevice_inj hcount)

theorem devices_mapped_of_two :
    let volumes : List Volume := [⟨"vm-100-disk-0", none⟩, ⟨"vm-100-disk-1", none⟩]
    (∀ raises (minion : Proxmox.Minion (Proxmox.attached volumes)) directory result,
      minion.Lists directory →
      Proxmox.deployReplicaTargetResources raises directory volumes = .ok result →
      Mapped minion.isDevice volumes result) ∧
    ∀ raises result, HyperV.deployReplicaTargetResources raises volumes = .ok result →
      Mapped (HyperV.isDevice volumes) volumes result :=
  have h := devices_mapped_iff (by decide)
  ⟨h.1.mpr (by decide), h.2.mpr (.inl (by decide))⟩

/-- Volumes with the ids `0`, `1`, `2` and so on. -/
def numbered (count : Nat) : List Volume :=
  (List.range count).map fun index => ⟨Nat.repr index, none⟩

lemma nodup_eleven : ((numbered 11).map (·.volumeId)).Nodup := by decide

lemma nodup_twentySix : ((numbered 26).map (·.volumeId)).Nodup := by decide

/-- Of eleven volumes on Proxmox, the second one is given the device of the eleventh, whose link
comes first in the directory. Of 26 volumes on Hyper-V, the last one is given `/dev/sd` with
the character after `z`. -/
theorem devices_not_mapped :
    (∃ result, Proxmox.deployReplicaTargetResources (fun _ => false)
        (fun _ _ => some ((Proxmox.rotated nodup_eleven).links.map (·.1))) (numbered 11) =
          .ok result ∧
      (Proxmox.rotated nodup_eleven).Lists
        (fun _ _ => some ((Proxmox.rotated nodup_eleven).links.map (·.1))) ∧
      ⟨"1", some (Proxmox.byId (Proxmox.serial 10))⟩ ∈ result ∧
      ¬ Mapped (Proxmox.rotated nodup_eleven).isDevice (numbered 11) result) ∧
    ∃ result, HyperV.deployReplicaTargetResources (fun _ => false) (numbered 26) = .ok result ∧
      ⟨"25", some (codes "/dev/sd".toList ++ ['z'.toNat + 1])⟩ ∈ result ∧
      ¬ Mapped (HyperV.isDevice (numbered 26)) (numbered 26) result := by
  constructor
  · obtain ⟨result, hresult, hnot⟩ := Proxmox.not_mapped_rotated nodup_eleven (by decide)
    refine ⟨result, hresult, ?_, ?_, hnot⟩
    · rintro index attempt names ⟨⟩
      exact List.Subperm.refl _
    · obtain ⟨-, -, h⟩ := Raising.bind_eq_ok hresult
      have hv : (⟨"1", none⟩, 1) ∈ (numbered 11).zipIdx := by decide
      exact mem_assignDevices_of_mem h hv
        (Proxmox.findDevice_rotated_one nodup_eleven (by decide) ⟨"1", none⟩)
  · obtain ⟨result, hresult, hnot⟩ :=
      HyperV.not_mapped_of_many (by decide) (by decide) nodup_twentySix
    refine ⟨result, hresult, ?_, hnot⟩
    obtain ⟨-, -, h⟩ := Raising.bind_eq_ok hresult
    have hv : (⟨"25", none⟩, 25) ∈ (numbered 26).zipIdx := by decide
    exact mem_assignDevices_of_mem h hv (HyperV.nameDevice_of_lt (by decide))

end Coriolis.Providers

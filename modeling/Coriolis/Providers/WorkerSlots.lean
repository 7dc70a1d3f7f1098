import Coriolis.Providers.VMware
import Mathlib.Data.List.Find
import Mathlib.Data.List.Range

/-!
# The SCSI units of the disks attached to a worker VM

`_attach_disks_to_worker` collects the units in use while it reads the devices, so the disks
listed before their controller are not counted. The end of the units is only tested while it
skips units in use: after unit 15 it goes on with 16.
-/

namespace Coriolis.Providers.VMware

/-- The first SCSI controller of a VM, with the devices listed after it. -/
structure Controller where
  key : Nat
  unitNumber : Nat
  after : List Device

def firstController : List Device → Option Controller
  | [] => none
  | .scsiController key unitNumber :: devices => some ⟨key, unitNumber, devices⟩
  | .disk _ _ :: devices => firstController devices
  | .other :: devices => firstController devices

def Device.controllerKey? : Device → Option Nat
  | .scsiController key _ => some key
  | _ => none

def unitsOn (key : Nat) (devices : List Device) : List Nat :=
  devices.filterMap fun
    | .disk controllerKey unitNumber => if controllerKey = key then some unitNumber else none
    | _ => none

def attachable (disks : List Disk) : List Disk := disks.filter (·.path ≠ "")

/-- Neither the controller nor one of these disks on it has the unit. -/
def Controller.isFree (c : Controller) (devices : List Device) (u : Nat) : Bool :=
  u ∉ unitsOn c.key devices ∧ u ≠ c.unitNumber

def Controller.freeUnits (c : Controller) (devices : List Device) : List Nat :=
  (List.range 16).filter (c.isFree devices)

/-- The disks with a path get, in order, different free units of the first controller, or there
is no controller or there are not enough of these units. -/
def GivesFreeUnits (devices : List Device) (disks : List Disk) :
    Except String (List AttachedDisk) → Prop
  | .ok attached => ∃ c, firstController devices = some c ∧
      attached.map (fun a => (⟨a.diskId, a.vmdkPath⟩ : Disk)) = attachable disks ∧
      (∀ a ∈ attached, a.controllerKey = c.key ∧ a.unitNumber ∈ c.freeUnits devices) ∧
      (attached.map (·.unitNumber)).Nodup
  | .error _ => ∀ c, firstController devices = some c →
      (c.freeUnits devices).length < (attachable disks).length

/-- Of the units that are free as far as the devices after the controller tell, the first ones
are free, if there are enough of them. If not, unit 15 or one of the next ones that would be
given out is in use. -/
def Counted (devices : List Device) (disks : List Disk) : Prop :=
  ∀ c, firstController devices = some c →
    let n := (attachable disks).length
    let free := c.freeUnits c.after
    if n ≤ free.length then ∀ u ∈ free.take n, u ∉ unitsOn c.key devices
    else ∃ u, 15 ≤ u ∧ u < 16 + (n - free.length) ∧ c.isFree c.after u = false

section

variable {free : Nat → Bool} {next n : Nat}

def unitsFrom (free : Nat → Bool) : Nat → Nat → Option (List Nat)
  | 0, _ => some []
  | n + 1, next => do
    let u ← (next :: List.range' (next + 1) (15 - next)).find? free
    return u :: (← unitsFrom free n (u + 1))

lemma freeUnit_eq (h : 16 ≤ fuel + next) (hpos : 0 < fuel) :
    freeUnit used own fuel next = (next :: List.range' (next + 1) (15 - next)).find?
      fun u => !decide (u ∈ used ∨ u = own) := by
  induction fuel generalizing next with
  | zero => omega
  | succ fuel ih =>
    rw [freeUnit]
    by_cases hbusy : next ∈ used ∨ next = own
    · rw [if_pos hbusy, List.find?_cons_of_neg (by simp [hbusy])]
      by_cases hlast : 16 ≤ next + 1
      · rw [if_pos hlast, show 15 - next = 0 by omega]
        rfl
      · rw [if_neg hlast, ih (by omega) (by omega),
          show 15 - next = 15 - (next + 1) + 1 by omega, List.range'_succ]
    · rw [if_neg hbusy, List.find?_cons_of_pos (by simp [hbusy])]

lemma unitsFrom_of_le (h : 16 ≤ next) : unitsFrom free n next =
    if (List.range' next n).all free then some (List.range' next n) else none := by
  induction n generalizing next with
  | zero => rfl
  | succ n ih =>
    rw [unitsFrom, show 15 - next = 0 by omega, List.range'_succ, List.all_cons]
    by_cases hfree : free next
    · have hu : [next].find? free = some next := by simp [hfree]
      change ([next].find? free).bind _ = _
      rw [hu, hfree, Bool.true_and, Option.bind_some, ih (by omega)]
      split <;> rfl
    · simp [hfree]

lemma unitsFrom_eq (h : next ≤ 16) :
    let units := (List.range' next (16 - next)).filter free
    let beyond := List.range' 16 (n - units.length)
    unitsFrom free n next =
      if (n ≤ units.length ∨ next = 16 ∨ free 15) ∧ beyond.all free
      then some ((units ++ beyond).take n) else none := by
  induction n generalizing next with
  | zero => simp [unitsFrom]
  | succ n ih =>
    intro units beyond
    rcases h.eq_or_lt with rfl | hlt
    · have hunits : units = [] := by simp [units]
      have hbeyond : beyond = List.range' 16 (n + 1) := by simp [beyond, hunits]
      rw [unitsFrom_of_le le_rfl, hbeyond, hunits]
      simp [List.take_of_length_le]
    have hrange : next :: List.range' (next + 1) (15 - next) = List.range' next (16 - next) := by
      rw [← List.range'_succ, show 15 - next + 1 = 16 - next by omega]
    rw [unitsFrom, hrange, ← List.head?_filter]
    change (units.head?.bind fun u => _) = _
    rcases hunits : units with _ | ⟨u, rest⟩
    · have h15 : free 15 = false := by
        have := List.filter_eq_nil_iff.mp hunits 15 (by simp; omega)
        simpa using this
      simp [h15, hlt.ne]
    -- the units after the one that is given out are the rest
    · obtain ⟨l₁, l₂, happ, hskip, hu, hrest⟩ := List.filter_eq_cons_iff.mp hunits
      obtain ⟨k, hk, hl₁, hl₂⟩ := List.range'_eq_append_iff.mp happ
      have hne : 16 - next - k ≠ 0 := fun h0 => by simp [h0] at hl₂
      obtain ⟨m, hm⟩ := Nat.exists_eq_succ_of_ne_zero hne
      rw [hm, List.range'_succ, List.cons.injEq, mul_one] at hl₂
      obtain ⟨rfl, rfl⟩ := hl₂
      have hm' : m = 16 - (next + k + 1) := by omega
      subst hm'
      have h15 : (next + k + 1 = 16 ∨ free 15 = true) ↔ free 15 = true :=
        or_iff_right_of_imp fun h16 => (by omega : 15 = next + k) ▸ hu
      have hbeyond : beyond = List.range' 16 (n - rest.length) := by
        simp [beyond, hunits]
      rw [List.head?_cons, Option.bind_some, ih (by omega), hrest, hbeyond]
      simp only [List.length_cons, Nat.add_le_add_iff_right, hlt.ne, false_or, h15]
      split <;> simp

end

variable {devices : List Device} {disks : List Disk}

section

variable {slots : Slots}

lemma attachDisks_eq (free : Nat → Bool)
    (hfree : ∀ u, next ≤ u → free u = !decide (u ∈ used ∨ u = own)) :
    attachDisks workerName key own disks next used =
      match unitsFrom free (attachable disks).length next with
      | none => .error s!"Worker VM '{workerName}' controller has no free SCSI slots."
      | some units => .ok (((attachable disks).zip units).map fun p =>
          ⟨p.1.id, p.1.path, p.2, key⟩) := by
  induction disks generalizing next used with
  | nil => rfl
  | cons disk disks ih =>
    rw [attachDisks]
    by_cases hpath : disk.path = ""
    · have hskip : attachable (disk :: disks) = attachable disks := by simp [attachable, hpath]
      rw [if_pos hpath, ih hfree, hskip]
    have hmore : attachable (disk :: disks) = disk :: attachable disks := by
      simp [attachable, hpath]
    have hle : ∀ u ∈ next :: List.range' (next + 1) (15 - next), next ≤ u := by
      intro u hu
      rcases List.mem_cons.mp hu with rfl | hu
      · exact le_rfl
      · exact (List.mem_range'_1.mp hu).1.trans' (by omega)
    have hfind : freeUnit used own 16 next =
        (next :: List.range' (next + 1) (15 - next)).find? free := by
      rw [freeUnit_eq (by omega) (by decide)]
      exact List.find?_congr fun u hu => (hfree u (hle u hu)).symm
    rw [if_neg hpath, hmore, List.length_cons, unitsFrom, hfind]
    rcases hu : (next :: List.range' (next + 1) (15 - next)).find? free with _ | u
    · rfl
    have hnext : next ≤ u := hle u (List.mem_of_find?_eq_some hu)
    have hrest : ∀ v, u + 1 ≤ v → free v = !decide (v ∈ u :: used ∨ v = own) := fun v hv => by
      rw [hfree v (by omega)]
      simp [show v ≠ u by omega]
    simp only [Option.bind_eq_bind, Option.bind_some, ih hrest]
    cases unitsFrom free (attachable disks).length (u + 1) <;> rfl

lemma used_foldl_read (hkey : key ∉ devices.filterMap Device.controllerKey?) :
    (devices.foldl Slots.read slots).used key =
      (slots.used key).map ((unitsOn key devices).reverse ++ ·) := by
  induction devices generalizing slots with
  | nil => simp [unitsOn]
  | cons device devices ih =>
    have hrest : key ∉ devices.filterMap Device.controllerKey? := fun h => hkey <|
      (List.sublist_cons_self device devices).filterMap _ |>.subset h
    rw [List.foldl_cons, ih hrest]
    cases device with
    | scsiController k u =>
      have hne : key ≠ k := by
        rintro rfl
        simp [Device.controllerKey?] at hkey
      simp [Slots.read, unitsOn, hne]
    | disk k u =>
      by_cases hk : k = key
      · cases hused : slots.used key <;> simp [Slots.read, unitsOn, hk, hused]
      · simp [Slots.read, unitsOn, hk, Ne.symm hk]
    | other => simp [Slots.read, unitsOn]

lemma head?_foldl_read (h : slots.controllers.head? = some c) :
    (devices.foldl Slots.read slots).controllers.head? = some c := by
  induction devices generalizing slots with
  | nil => exact h
  | cons device devices ih =>
    refine ih ?_
    cases device <;> simp [Slots.read, h]

/-- What is read before the first controller is lost. -/
lemma usedSlots_eq : usedSlots devices =
    match firstController devices with
    | none => ⟨[], fun _ => none⟩
    | some c => c.after.foldl Slots.read ⟨[(c.key, c.unitNumber)],
        Function.update (fun _ => none) c.key (some [c.unitNumber])⟩ := by
  induction devices with
  | nil => rfl
  | cons device devices ih =>
    cases device with
    | scsiController k u => rfl
    | disk k u =>
      have hread : Slots.read ⟨[], fun _ => none⟩ (.disk k u) = ⟨[], fun _ => none⟩ := by
        simp [Slots.read]
      rw [usedSlots, List.foldl_cons, hread]
      exact ih
    | other => exact ih

lemma mem_firstController (h : firstController devices = some c) :
    c.after.Sublist devices ∧ ((devices.filterMap Device.controllerKey?).Nodup →
      c.key ∉ c.after.filterMap Device.controllerKey?) := by
  induction devices with
  | nil => cases h
  | cons device devices ih =>
    cases device with
    | scsiController k u =>
      cases h
      exact ⟨List.sublist_cons_self _ _, fun hnodup => (List.nodup_cons.mp hnodup).1⟩
    | disk k u => exact ⟨(ih h).1.cons _, (ih h).2⟩
    | other => exact ⟨(ih h).1.cons _, (ih h).2⟩

lemma attachDisksToWorker_eq (h : firstController devices = some c)
    (hkeys : (devices.filterMap Device.controllerKey?).Nodup) :
    let units := c.freeUnits c.after
    let more := (attachable disks).length - units.length
    attachDisksToWorker workerName devices disks =
      if more = 0 ∨ (List.range' 15 (more + 1)).all (c.isFree c.after) then
        .ok (((attachable disks).zip ((units ++ List.range' 16 more).take
          (attachable disks).length)).map fun p => ⟨p.1.id, p.1.path, p.2, c.key⟩)
      else .error s!"Worker VM '{workerName}' controller has no free SCSI slots." := by
  intro units more
  have hslots : usedSlots devices = c.after.foldl Slots.read ⟨[(c.key, c.unitNumber)],
      Function.update (fun _ => none) c.key (some [c.unitNumber])⟩ := by
    rw [usedSlots_eq, h]
  have hhead : (usedSlots devices).controllers.head? = some (c.key, c.unitNumber) := by
    rw [hslots]
    exact head?_foldl_read rfl
  have hused : (usedSlots devices).used c.key =
      some ((unitsOn c.key c.after).reverse ++ [c.unitNumber]) := by
    rw [hslots, used_foldl_read ((mem_firstController h).2 hkeys)]
    simp
  obtain ⟨others, hothers⟩ := List.head?_eq_some_iff.mp hhead
  have hunits : (List.range' 0 (16 - 0)).filter (c.isFree c.after) = units := rfl
  have henough : ((attachable disks).length ≤ units.length ∨ 0 = 16 ∨ c.isFree c.after 15) ∧
      (List.range' 16 more).all (c.isFree c.after) ↔
        more = 0 ∨ (List.range' 15 (more + 1)).all (c.isFree c.after) := by
    rw [← Nat.sub_eq_zero_iff_le, List.range'_succ, List.all_cons, Bool.and_eq_true]
    rcases Nat.eq_zero_or_pos more with h0 | hpos
    · simp [more, h0]
    · simp [more, hpos.ne']
  simp only [attachDisksToWorker, hothers, hused, Option.getD_some]
  rw [attachDisks_eq (c.isFree c.after) (by simp [Controller.isFree]),
    unitsFrom_eq (Nat.zero_le 16), hunits, if_congr henough rfl rfl]
  by_cases hmore : more = 0 ∨ (List.range' 15 (more + 1)).all (c.isFree c.after)
  · rw [if_pos hmore, if_pos hmore]
  · rw [if_neg hmore, if_neg hmore]

end

lemma gives_ok_iff (h : firstController devices = some c)
    (hlen : units.length = (attachable disks).length) :
    GivesFreeUnits devices disks (.ok (((attachable disks).zip units).map fun p =>
        ⟨p.1.id, p.1.path, p.2, c.key⟩)) ↔
      (∀ u ∈ units, u ∈ c.freeUnits devices) ∧ units.Nodup := by
  have hdisks : ((attachable disks).zip units).map (fun p => (⟨p.1.id, p.1.path⟩ : Disk)) =
      attachable disks := List.map_fst_zip hlen.ge
  have hunits : ((attachable disks).zip units).map (·.2) = units := List.map_snd_zip hlen.le
  have hmem : (∀ u ∈ units, u ∈ c.freeUnits devices) ↔
      ∀ p ∈ (attachable disks).zip units, p.2 ∈ c.freeUnits devices := by
    nth_rewrite 1 [← hunits]
    exact List.forall_mem_map
  rw [hmem]
  simp only [GivesFreeUnits, h, Option.some.injEq, exists_eq_left', List.map_map,
    Function.comp_def, hdisks, hunits, List.forall_mem_map, true_and]

lemma length_freeUnits_le (h : firstController devices = some c) :
    (c.freeUnits devices).length ≤ (c.freeUnits c.after).length := by
  refine (List.monotone_filter_right (List.range 16) fun u hu => ?_).length_le
  have hsub : unitsOn c.key c.after ⊆ unitsOn c.key devices :=
    ((mem_firstController h).1.filterMap _).subset
  simp only [Controller.isFree, decide_eq_true_eq] at hu ⊢
  exact ⟨fun hmem => hu.1 (hsub hmem), hu.2⟩

/-- The disks get free units of the first controller exactly when those listed before it do not
have the units that look free, and when running out of units is noticed. -/
theorem attachDisksToWorker_gives_iff (workerName : String) (devices : List Device)
    (hkeys : (devices.filterMap Device.controllerKey?).Nodup) (disks : List Disk) :
    GivesFreeUnits devices disks (attachDisksToWorker workerName devices disks) ↔
      Counted devices disks := by
  rcases hc : firstController devices with _ | c
  · have herror : attachDisksToWorker workerName devices disks =
        .error s!"Worker VM '{workerName}' has no SCSI controllers." := by
      simp [attachDisksToWorker, usedSlots_eq, hc]
    simp [herror, GivesFreeUnits, Counted, hc]
  rw [attachDisksToWorker_eq hc hkeys]
  simp only [Counted, hc, Option.some.injEq, forall_eq']
  set n := (attachable disks).length with hn
  set units := c.freeUnits c.after with hunits
  by_cases hle : n ≤ units.length
  · rw [if_pos hle, if_pos (Or.inl (Nat.sub_eq_zero_of_le hle)), Nat.sub_eq_zero_of_le hle,
      List.range'_zero, List.append_nil, gives_ok_iff hc (by rw [List.length_take, min_eq_left hle])]
    have hnodup : (units.take n).Nodup := (List.nodup_range.filter _).sublist (List.take_sublist ..)
    refine ⟨fun h u hu => ?_, fun h => ⟨fun u hu => ?_, hnodup⟩⟩
    · have := h.1 u hu
      simp only [Controller.freeUnits, List.mem_filter, Controller.isFree, decide_eq_true_eq] at this
      exact this.2.1
    · have hfree := List.mem_of_mem_take hu
      have := h u hu
      simp_all [Controller.freeUnits, Controller.isFree]
  obtain ⟨more, hmore⟩ : ∃ more, n - units.length = more + 1 :=
    Nat.exists_eq_succ_of_ne_zero (by omega)
  rw [if_neg hle, hmore]
  split
  -- unit 16 is given out
  · next hfree =>
    have hall := hfree.resolve_left (by omega)
    have hlen : (units ++ List.range' 16 (more + 1)).length = n := by
      simp
      omega
    rw [List.take_of_length_le hlen.le, gives_ok_iff hc hlen]
    refine iff_of_false (fun h => ?_) ?_
    · have := h.1 16 (by simp)
      simp [Controller.freeUnits] at this
    · rintro ⟨u, h15, hlt, hbusy⟩
      have := List.all_eq_true.mp hall u (List.mem_range'_1.mpr ⟨h15, by omega⟩)
      simp [hbusy] at this
  · next hbusy =>
    refine iff_of_true (fun c' hc' => ?_) ?_
    · cases hc.symm.trans hc'
      exact (length_freeUnits_le hc).trans_lt (not_le.mp hle)
    · have hall := (not_or.mp hbusy).2
      rw [List.all_eq_true, not_forall] at hall
      obtain ⟨u, hu⟩ := hall
      obtain ⟨hmem, hnot⟩ := Classical.not_imp.mp hu
      obtain ⟨h15, hlt⟩ := List.mem_range'_1.mp hmem
      exact ⟨u, h15, by omega, Bool.eq_false_iff.mpr hnot⟩

/-- A worker VM whose only disk, on unit 0, is listed before its controller. -/
def diskFirst : List Device := [.disk 1000 0, .scsiController 1000 7]

theorem attachDisksToWorker_of_diskFirst :
    (diskFirst.filterMap Device.controllerKey?).Nodup ∧
      attachDisksToWorker "worker" diskFirst [⟨"2000", "[ds] vm/vm.vmdk"⟩] =
        .ok [⟨"2000", "[ds] vm/vm.vmdk", 0, 1000⟩] ∧
      ¬ GivesFreeUnits diskFirst [⟨"2000", "[ds] vm/vm.vmdk"⟩]
        (attachDisksToWorker "worker" diskFirst [⟨"2000", "[ds] vm/vm.vmdk"⟩]) := by
  refine ⟨by decide, rfl, ?_⟩
  rintro ⟨c, hc, -, hfree, -⟩
  cases hc
  exact absurd (hfree _ (List.mem_singleton_self _)).2 (by decide)

/-- The same worker VM with the controller listed first. -/
theorem gives_of_controllerFirst :
    GivesFreeUnits diskFirst.reverse [⟨"2000", "[ds] vm/vm.vmdk"⟩]
      (attachDisksToWorker "worker" diskFirst.reverse [⟨"2000", "[ds] vm/vm.vmdk"⟩]) :=
  (attachDisksToWorker_gives_iff "worker" diskFirst.reverse (by decide) _).mpr <| by
    rintro c ⟨⟩
    exact (if_pos (by decide)).mpr (by decide)

end Coriolis.Providers.VMware

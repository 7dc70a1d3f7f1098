import Coriolis.Minions.Manager

/-!
# Which machines are chosen

A call looks for one machine for each instance in the rows of a pool. It takes the available
machines in their order, and new ones only when none is left.
-/

namespace Coriolis.Minions

variable {machines : List Machine} {newId : Nat → String} {instances exclude : List String}
  {slots slots' : List Slot}

lemma selectMachine_eq_some (h : selectMachine machines exclude = some m) :
    m ∈ machines ∧ m.id ∉ exclude ∧ m.allocationStatus = .available := by
  have hm := List.find?_some h
  exact ⟨List.mem_of_find?_eq_some h, by simpa using hm⟩

lemma selectMachine_eq_none (h : selectMachine machines exclude = none) (hm : m ∈ machines)
    (havailable : m.allocationStatus = .available) : m.id ∈ exclude := by
  by_contra hid
  have := List.find?_eq_none.mp h m hm
  simp [hid, havailable] at this

/-- The slots of a call: existing machines are available ones of the pool, each taken once, and
the ids of the new ones are told apart by their places. -/
structure Chosen (machines : List Machine) (newId : Nat → String) (slots : List Slot) :
    Prop where
  instances_nodup : (slots.map Slot.forInstance).Nodup
  existing : ∀ slot ∈ slots, slot.task ≠ .allocate →
    ∃ m ∈ machines, m.id = slot.machineId ∧ m.allocationStatus = .available
  existing_nodup : (existingMachines slots).Nodup
  new : ∀ k slot, slots[k]? = some slot → slot.task = .allocate → slot.machineId = newId k
  /-- New machines are created only if every available one is taken. -/
  exhausted : newMachines slots ≠ [] → ∀ m ∈ machines, m.allocationStatus = .available →
    m.id ∈ slots.map Slot.machineId

lemma Chosen.nil : Chosen machines newId [] where
  instances_nodup := by simp
  existing := by simp
  existing_nodup := by simp [existingMachines]
  new := by simp
  exhausted := by simp [newMachines]

lemma Chosen.concat (hslots : Chosen machines newId slots)
    (hi : slot.forInstance ∉ slots.map Slot.forInstance)
    (hexisting : slot.task ≠ .allocate → slot.machineId ∉ slots.map Slot.machineId ∧
      ∃ m ∈ machines, m.id = slot.machineId ∧ m.allocationStatus = .available)
    (hnew : slot.task = .allocate → slot.machineId = newId slots.length ∧
      ∀ m ∈ machines, m.allocationStatus = .available → m.id ∈ slots.map Slot.machineId) :
    Chosen machines newId (slots ++ [slot]) := by
  refine ⟨?_, ?_, ?_, ?_, ?_⟩
  · simpa [List.nodup_append, hslots.instances_nodup] using
      fun slot hslot heq => hi (List.mem_map.mpr ⟨slot, hslot, heq⟩)
  · intro slot' hslot htask
    rcases List.mem_append.mp hslot with hslot | hslot
    · exact hslots.existing slot' hslot htask
    · obtain rfl := List.mem_singleton.mp hslot
      exact (hexisting htask).2
  · by_cases htask : slot.task = .allocate
    · simpa [existingMachines, htask] using hslots.existing_nodup
    · have hsplit : existingMachines (slots ++ [slot]) =
          (existingMachines slots).concat slot.machineId := by
        simp [existingMachines, htask]
      rw [hsplit]
      refine hslots.existing_nodup.concat fun hmem => ?_
      obtain ⟨slot', hslot, heq⟩ := List.mem_map.mp hmem
      exact (hexisting htask).1 (List.mem_map.mpr ⟨slot', (List.mem_filter.mp hslot).1, heq⟩)
  · intro k slot' hslot htask
    rcases Nat.lt_trichotomy k slots.length with hk | hk | hk
    · rw [List.getElem?_append_left hk] at hslot
      exact hslots.new k slot' hslot htask
    · rw [hk, List.getElem?_concat_length, Option.some.injEq] at hslot
      subst hslot
      rw [hk, (hnew htask).1]
    · rw [List.getElem?_eq_none (by simp; omega)] at hslot
      cases hslot
  · intro hmade m hm havailable
    by_cases htask : slot.task = .allocate
    · simpa using .inl (by simpa using (hnew htask).2 m hm havailable)
    · have hold : newMachines slots ≠ [] := by simpa [newMachines, htask] using hmade
      simpa using .inl (by simpa using hslots.exhausted hold m hm havailable)

lemma Chosen.concat_existing (hslots : Chosen machines newId slots)
    (hi : i ∉ slots.map Slot.forInstance)
    (hm : selectMachine machines (slots.map Slot.machineId) = some m) :
    Chosen machines newId (slots ++ [⟨i, m.id, .healthcheck powerOn⟩]) := by
  obtain ⟨hmem, hid, havailable⟩ := selectMachine_eq_some hm
  exact hslots.concat hi (fun _ => ⟨hid, m, hmem, rfl, havailable⟩) nofun

lemma Chosen.concat_new (hslots : Chosen machines newId slots)
    (hi : i ∉ slots.map Slot.forInstance)
    (hnone : selectMachine machines (slots.map Slot.machineId) = none) :
    Chosen machines newId (slots ++ [⟨i, newId slots.length, .allocate⟩]) :=
  hslots.concat hi (fun h => absurd rfl h) fun _ =>
    ⟨rfl, fun _ hm havailable => selectMachine_eq_none hnone hm havailable⟩

lemma chooseMachines_ok (h : chooseMachines machines newId twice instances slots = .ok slots')
    (hslots : Chosen machines newId slots) :
    Chosen machines newId slots' ∧
      slots'.map Slot.forInstance = slots.map Slot.forInstance ++ instances := by
  induction instances generalizing slots with
  | nil =>
    cases h
    exact ⟨hslots, by simp⟩
  | cons i rest ih =>
    rw [chooseMachines] at h
    split at h
    · cases h
    · next hi =>
      split at h
      · next m hm =>
        obtain ⟨hchosen, hmap⟩ := ih h (hslots.concat_existing hi hm)
        exact ⟨hchosen, by simpa using hmap⟩
      · next hnone =>
        obtain ⟨hchosen, hmap⟩ := ih h (hslots.concat_new hi hnone)
        exact ⟨hchosen, by simpa using hmap⟩

lemma chooseMachines_of_nodup (h : (slots.map Slot.forInstance ++ instances).Nodup) :
    ∃ slots', chooseMachines machines newId twice instances slots = .ok slots' := by
  induction instances generalizing slots with
  | nil => exact ⟨slots, rfl⟩
  | cons i rest ih =>
    have hi : i ∉ slots.map Slot.forInstance := fun hi =>
      (List.nodup_append.mp h).2.2 i hi i List.mem_cons_self rfl
    rw [chooseMachines, if_neg hi]
    split
    · exact ih (by simpa using h)
    · exact ih (by simpa using h)

/-! ## The choice in closed form -/

def availableMachines (machines : List Machine) : List Machine :=
  machines.filter fun m => m.allocationStatus = .available

def existingSlot (choice : String × Machine) : Slot :=
  ⟨choice.1, choice.2.id, .healthcheck (choice.2.powerStatus = .poweredOff)⟩

/-- The slots of the instances for which machines are created, at places from `k` on. -/
def newSlots (newId : Nat → String) (k : Nat) (instances : List String) : List Slot :=
  (instances.zipIdx k).map fun (i, j) => ⟨i, newId j, .allocate⟩

lemma selectMachine_eq : selectMachine machines exclude =
    (availableMachines machines).find? fun m => m.id ∉ exclude := by
  simp [selectMachine, availableMachines, List.find?_filter, and_comm]

lemma chooseMachines_exhausted (hnodup : (slots.map Slot.forInstance ++ instances).Nodup)
    (h : ∀ m ∈ availableMachines machines, m.id ∈ slots.map Slot.machineId) :
    chooseMachines machines newId twice instances slots =
      .ok (slots ++ newSlots newId slots.length instances) := by
  induction instances generalizing slots with
  | nil => simp [chooseMachines, newSlots]
  | cons i rest ih =>
    have hi : i ∉ slots.map Slot.forInstance := fun hi =>
      (List.nodup_append.mp hnodup).2.2 i hi i List.mem_cons_self rfl
    have hnone : selectMachine machines (slots.map Slot.machineId) = none := by
      rw [selectMachine_eq, List.find?_eq_none]
      simpa using h
    rw [chooseMachines, if_neg hi, hnone]
    simp only
    rw [ih (by simpa using hnodup) fun m hm => by
      rw [List.map_append]
      exact List.mem_append_left _ (h m hm)]
    simp [newSlots, List.zipIdx_cons]

lemma chooseMachines_eq (hids : ((availableMachines machines).map Machine.id).Nodup)
    (hnodup : (slots.map Slot.forInstance ++ instances).Nodup)
    (hsplit : availableMachines machines = used ++ remaining)
    (hslots : slots.map Slot.machineId = used.map Machine.id) :
    chooseMachines machines newId twice instances slots =
      .ok (slots ++ (instances.zip remaining).map existingSlot ++
        newSlots newId (slots.length + remaining.length) (instances.drop remaining.length)) := by
  induction instances generalizing slots used remaining with
  | nil => simp [chooseMachines, newSlots]
  | cons i rest ih =>
    cases remaining with
    | nil =>
      rw [List.append_nil] at hsplit
      rw [chooseMachines_exhausted hnodup fun m hm => hslots ▸ List.mem_map_of_mem (hsplit ▸ hm)]
      simp
    | cons m remaining =>
      have hi : i ∉ slots.map Slot.forInstance := fun hi =>
        (List.nodup_append.mp hnodup).2.2 i hi i List.mem_cons_self rfl
      have hm : m.id ∉ used.map Machine.id := by
        rw [hsplit, List.map_append, List.nodup_append] at hids
        exact fun hmem => hids.2.2 _ hmem _ List.mem_cons_self rfl
      have hselect : selectMachine machines (slots.map Slot.machineId) = some m := by
        rw [selectMachine_eq, hsplit, hslots, List.find?_append, List.find?_eq_none.mpr,
          Option.none_or]
        · exact List.find?_cons_of_pos (by simpa using hm)
        · exact fun m' hm' => by simpa using ⟨m', hm', rfl⟩
      have hsplit' : availableMachines machines = (used ++ [m]) ++ remaining := by simpa using hsplit
      have hslots' : (slots ++ [existingSlot (i, m)]).map Slot.machineId =
          (used ++ [m]).map Machine.id := by simp [hslots, existingSlot]
      rw [chooseMachines, if_neg hi, hselect]
      refine (ih (by simpa [existingSlot] using hnodup) hsplit' hslots').trans ?_
      simp [Nat.add_right_comm, Nat.add_assoc]

lemma machines_of_chooseMachines (hids : ((availableMachines machines).map Machine.id).Nodup)
    (hnodup : instances.Nodup)
    (h : chooseMachines machines newId twice instances [] = .ok slots) :
    existingMachines slots =
        ((availableMachines machines).take instances.length).map Machine.id ∧
      newMachines slots = ((instances.drop (availableMachines machines).length).zipIdx
        (availableMachines machines).length).map (newId ·.2) ∧
      slots.map Slot.machineId = existingMachines slots ++ newMachines slots := by
  rw [chooseMachines_eq hids (by simpa using hnodup) (List.nil_append _).symm rfl] at h
  obtain rfl := Except.ok.inj h
  have htake (l : List String) (m : List Machine) :
      (l.zip m).map (·.2.id) = (m.take l.length).map Machine.id := by
    induction l generalizing m with
    | nil => simp
    | cons _ l ih => cases m <;> simp [ih]
  simp [existingMachines, newMachines, existingSlot, newSlots, List.filter_map, Function.comp_def,
    htake]

lemma Chosen.mem_newMachines (hslots : Chosen machines newId slots) {id : String}
    (hid : id ∈ newMachines slots) : ∃ k, id = newId k := by
  obtain ⟨slot, hslot, rfl⟩ := List.mem_map.mp hid
  obtain ⟨hmem, htask⟩ := List.mem_filter.mp hslot
  obtain ⟨k, hk⟩ := List.mem_iff_getElem?.mp hmem
  exact ⟨k, hslots.new k slot hk (of_decide_eq_true htask)⟩

lemma Chosen.newMachines_nodup (hslots : Chosen machines newId slots)
    (hnew : Function.Injective newId) : (newMachines slots).Nodup := by
  -- two new machines stand at two places
  have hpairwise : slots.Pairwise fun slot slot' => slot.task = .allocate →
      slot'.task = .allocate → slot.machineId ≠ slot'.machineId := by
    rw [List.pairwise_iff_getElem]
    intro j k hj hk hjk htask htask' heq
    rw [hslots.new j _ (List.getElem?_eq_getElem hj) htask,
      hslots.new k _ (List.getElem?_eq_getElem hk) htask'] at heq
    exact absurd (hnew heq) (Nat.ne_of_lt hjk)
  rw [newMachines, List.Nodup, List.pairwise_map, List.pairwise_filter]
  exact hpairwise.imp fun h htask htask' =>
    h (of_decide_eq_true htask) (of_decide_eq_true htask')

lemma Chosen.mem_existingMachines (hslots : Chosen machines newId slots) {id : String}
    (hid : id ∈ existingMachines slots) :
    ∃ m ∈ machines, m.id = id ∧ m.allocationStatus = .available := by
  obtain ⟨slot, hslot, rfl⟩ := List.mem_map.mp hid
  obtain ⟨hmem, htask⟩ := List.mem_filter.mp hslot
  exact hslots.existing slot hmem (of_decide_eq_true htask)

end Coriolis.Minions

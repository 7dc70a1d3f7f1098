import Coriolis.Minions.Rollback

/-!
# Machines for the selections of an action

If no call fails, an allocation from a pool with enough room gives every instance a machine, and
takes the machines that are available before it adds new ones.
-/

namespace Coriolis.Minions

open Conductor (MinionRole)
open Raising

section

variable {services : Services} {pool : Pool} {poolId action : String} {slots : List Slot}

/-- No call to the database, to the conductor or to the flow runner fails. -/
def Services.Reliable (services : Services) : Prop := ∀ site, services.fails site = false

lemma Services.Reliable.call (h : services.Reliable) (site : CallSite) :
    services.call site = pure () := by
  simp [Services.call, h site]

/-- The table when the choice of machines from the pool is stored. -/
def storedRows (poolId action : String) (slots : List Slot) (now : Nat)
    (machines : List Machine) : List Machine :=
  setAllocations (existingMachines slots) (some action) .reserved (some now) machines ++
    (newMachines slots).map (newMinionMachine poolId action)

lemma reserveMinionMachines_ok (h : services.Reliable)
    (hexisting : ∀ id ∈ existingMachines slots, id ∈ s.machines.map Machine.id) :
    reserveMinionMachines services role poolId action slots s = .ok () { s with
      machines := setAllocations (existingMachines slots) (some action) .reserved
        (some services.now) s.machines } := by
  unfold reserveMinionMachines
  split
  · simp only [h.call, pure_bind, bind_pure_unit]
    exact setMinionMachinesAllocationStatuses_of_mem hexisting
  · next hnone =>
    rw [not_not.mp hnone]
    have hsame : setAllocations [] (some action) .reserved (some services.now) s.machines =
        s.machines := by
      simp [setAllocations]
    rw [hsame]
    rfl

lemma each_addMinionMachine_ok (h : services.Reliable) (ids : List String) :
    each (fun id => do
      services.call (.addMinionMachine id)
      addMinionMachine (newMinionMachine poolId action id)) ids s = .ok () { s with
        machines := s.machines ++ ids.map (newMinionMachine poolId action)
        newMachineDbEntriesAdded := s.newMachineDbEntriesAdded ++ ids } := by
  induction ids generalizing s with
  | nil => simp [each]; rfl
  | cons id ids ih =>
    have hadd : (do
        services.call (.addMinionMachine id)
        addMinionMachine (newMinionMachine poolId action id) : Handler Unit) s = .ok () { s with
          machines := s.machines ++ [newMinionMachine poolId action id]
          newMachineDbEntriesAdded := s.newMachineDbEntriesAdded ++ [id] } := by
      simp only [h.call, pure_bind]
      rfl
    rw [each_cons, hadd]
    refine ih.trans ?_
    simp

lemma addMinionMachines_ok (h : services.Reliable) :
    addMinionMachines services role poolId action slots s = .ok () { s with
      machines := s.machines ++ (newMachines slots).map (newMinionMachine poolId action)
      newMachineDbEntriesAdded := s.newMachineDbEntriesAdded ++ newMachines slots } := by
  unfold addMinionMachines
  split
  · simp only [h.call (.addEvent role poolId), bind_pure_unit]
    exact each_addMinionMachine_ok h _
  · next hnone =>
    rw [not_not.mp hnone]
    simp
    rfl

lemma storeAllocations_ok (h : services.Reliable)
    (hexisting : ∀ id ∈ existingMachines slots, id ∈ s.machines.map Machine.id) :
    storeAllocations services role poolId action slots s = .ok () { s with
      machines := storedRows poolId action slots services.now s.machines
      newMachineDbEntriesAdded := s.newMachineDbEntriesAdded ++ newMachines slots } := by
  unfold storeAllocations
  refine tryCatch_of_ok ?_
  rw [bind_of_ok (reserveMinionMachines_ok h hexisting), addMinionMachines_ok h]
  rfl

def Pool.room (pool : Pool) (machines : List Machine) : Int :=
  ((pool.minionMachines machines).filter fun m => m.allocationStatus = .available).length +
    (pool.maximumMinions - (pool.minionMachines machines).length)

lemma makeMinionMachineAllocationSubflowForAction_ok (role : MinionRole) (h : services.Reliable)
    (hroom : instances.length ≤ pool.room s.machines) (hnodup : instances.Nodup) :
    ∃ slots s', makeMinionMachineAllocationSubflowForAction services role pool action instances s =
        .ok slots s' ∧
      chooseMachines (pool.minionMachines s.machines) (services.newId s.machines)
        (fun i => .passedTwice i pool.id action instances) instances [] = .ok slots ∧
      Chosen (pool.minionMachines s.machines) (services.newId s.machines) slots ∧
      slots.map Slot.forInstance = instances ∧
      s'.machines = storedRows pool.id action slots services.now s.machines := by
  have hchoice : ∃ slots, chooseMachines (pool.minionMachines s.machines)
      (services.newId s.machines) (fun i => .passedTwice i pool.id action instances) instances
      [] = .ok slots := chooseMachines_of_nodup hnodup
  obtain ⟨slots, hchoice⟩ := hchoice
  obtain ⟨hchosen, hinstances⟩ := chooseMachines_ok hchoice .nil
  have hexisting : ∀ id ∈ existingMachines slots, id ∈ s.machines.map Machine.id := by
    intro id hid
    obtain ⟨m, hm, rfl, -⟩ := hchosen.mem_existingMachines hid
    exact List.mem_map_of_mem (List.mem_filter.mp hm).1
  let picked : Stored := { s with
    newMachineDbEntriesAdded := []
    selected := s.selected ++ existingMachines slots }
  have hrun : makeMinionMachineAllocationSubflowForAction services role pool action instances s =
      .ok slots { picked with
        machines := storedRows pool.id action slots services.now s.machines
        newMachineDbEntriesAdded := newMachines slots } := by
    have hget : (get : Handler Stored) s = .ok s s := rfl
    have hset : (set picked : Handler PUnit) s = .ok ⟨⟩ picked := rfl
    have hstored : storeAllocations services role pool.id action slots picked = _ :=
      storeAllocations_ok h hexisting
    unfold Pool.room at hroom
    rw [makeMinionMachineAllocationSubflowForAction, bind_of_ok hget, if_neg (Int.not_lt.mpr hroom)]
    simp only [hchoice]
    rw [bind_of_ok hset, bind_of_ok hstored]
    rfl
  exact ⟨slots, _, hrun, hchoice, hchosen, by simpa using hinstances, rfl⟩

end

section

variable {machines : List Machine} {pool : Pool} {slots : List Slot} {action : String} {now : Nat}

lemma Chosen.machineIds_nodup (hslots : Chosen (pool.minionMachines machines) newId slots)
    (hinj : Function.Injective newId) (hfresh : ∀ k, newId k ∉ machines.map Machine.id) :
    (slots.map Slot.machineId).Nodup := by
  have hperm : (existingMachines slots ++ newMachines slots).Perm (slots.map Slot.machineId) := by
    have hsplit := (List.filter_append_perm (fun slot : Slot => slot.task ≠ .allocate) slots).map
      Slot.machineId
    simpa [existingMachines, newMachines] using hsplit
  rw [← hperm.nodup_iff]
  refine List.nodup_append.mpr ⟨hslots.existing_nodup, hslots.newMachines_nodup hinj, ?_⟩
  rintro id hid id' hid' rfl
  obtain ⟨k, rfl⟩ := hslots.mem_newMachines hid'
  obtain ⟨m, hm, heq, -⟩ := hslots.mem_existingMachines hid
  exact hfresh k (heq ▸ List.mem_map_of_mem (List.mem_filter.mp hm).1)

lemma makeMinionMachineAllocationSubflowForAction_error
    (h : ¬ (instances.Nodup ∧ instances.length ≤ pool.room s.machines)) :
    ∃ err, makeMinionMachineAllocationSubflowForAction services role pool action instances s =
      .error err s := by
  have hget : (get : Handler Stored) s = .ok s s := rfl
  rw [makeMinionMachineAllocationSubflowForAction, bind_of_ok hget]
  split
  · exact ⟨_, rfl⟩
  · next hroom =>
    cases hchoice : chooseMachines (pool.minionMachines s.machines) (services.newId s.machines)
        (fun i => .passedTwice i pool.id action instances) instances [] with
    | error err => exact ⟨err, rfl⟩
    | ok slots =>
      obtain ⟨hchosen, hinstances⟩ := chooseMachines_ok hchoice .nil
      exact absurd ⟨by simpa [hinstances] using hchosen.instances_nodup, Int.not_lt.mp hroom⟩ h

lemma length_minionMachines_storedRows :
    (pool.minionMachines (storedRows pool.id action slots now machines)).length =
      (pool.minionMachines machines).length + (newMachines slots).length := by
  have hsame : ∀ m : Machine, (if m.id ∈ existingMachines slots then
      m.setAllocation (some action) .reserved (some now) else m).poolId = m.poolId := fun m => by
    split <;> rfl
  simp [Pool.minionMachines, storedRows, setAllocations, newMinionMachine, ← List.countP_eq_length_filter,
    Function.comp_def, hsame]

/-- The machines of a pool for the instances of an action. A call raises, and changes nothing,
exactly if an instance is listed twice or there is no room. Otherwise the instances get the first
available machines, which are reserved, and new rows. -/
def AllocatesFirst (services : Services) (s : Stored) (role : MinionRole) (pool : Pool)
    (action : String) (instances : List String) : Prop :=
  let rows := pool.minionMachines s.machines
  let available := availableMachines rows
  match makeMinionMachineAllocationSubflowForAction services role pool action instances s with
  | .error _ s' => s' = s ∧ (¬ instances.Nodup ∨
      (instances.length : Int) > available.length + (pool.maximumMinions - rows.length))
  | .ok slots s' => instances.Nodup ∧
      instances.length ≤ available.length + (pool.maximumMinions - rows.length) ∧
      slots.map Slot.forInstance = instances ∧ (slots.map Slot.machineId).Nodup ∧
      ∃ new : List String,
        slots.map Slot.machineId = (available.take instances.length).map Machine.id ++ new ∧
        (∀ id ∈ new, id ∉ s.machines.map Machine.id) ∧
        s'.machines = setAllocations ((available.take instances.length).map Machine.id)
            (some action) .reserved (some services.now) s.machines ++
          new.map (newMinionMachine pool.id action) ∧
        ((pool.minionMachines s'.machines).length : Int) ≤ max pool.maximumMinions rows.length

/-- Three rows, of which two are available, in a pool of at most two machines: there is room for one
instance and not for two. -/
def crowded : Stored :=
  ⟨[⟨"m0", "pool", .inUse, .poweredOn, some "other", none, none⟩,
    ⟨"m1", "pool", .available, .poweredOn, none, none, none⟩,
    ⟨"m2", "pool", .available, .poweredOff, none, none, none⟩], [], []⟩

end

end Coriolis.Minions

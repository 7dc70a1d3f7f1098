import Coriolis.Minions.Rollback
import Coriolis.Minions.Tasks
import Mathlib.Data.List.Perm.Subperm

/-!
# The size of a minion pool

Allocations for actions, refreshes and deallocations of the machines of one pool run side by
side. An allocation sizes itself on the rows of the table. A machine that is being deployed
again has no row between the deletion of the old machine and the creation of the new one, so
that an allocation which comes in between makes the pool too large. It cannot happen if new
rows are added only while every machine that a flow may still create has its row.
-/

namespace Coriolis.Minions

open Conductor (MinionRole)
open Raising

section

/-- A task flow that was started. -/
structure FlowRun where
  jobs : List Job
  reverting : Bool := false

/-- The machines of an action as they were read, to be given back or only to be cleaned up. -/
structure Release where
  machines : List Machine
  cleanup : Bool

/-- One pool with the calls and flows that work on it: the flows of allocations that are not
started yet, those that run, and deallocations that have read their machines. -/
structure PoolRun where
  machines : List Machine
  waiting : List (List Job) := []
  flows : List FlowRun := []
  releases : List Release := []

def PoolRun.adding (s : PoolRun) : List String :=
  (s.waiting.flatten ++ s.flows.flatMap fun flow =>
    flow.jobs.filter fun job => job.mayAdd flow.reverting).map Job.machineId

/-- The steps that take the lock of the pool, and those that change which flows there are. -/
inductive PoolEvent where
  /-- An allocation for an action chooses machines. -/
  | select (services : Services) (role : MinionRole) (action : String) (instances : List String)
  /-- The flow of an allocation is started, or the allocation has failed in another pool. -/
  | start (call : Nat)
  | drop (call : Nat)
  | refresh (settings : RetentionSettings) (now : Nat)
  | work (flow job : Nat) (sur : Surroundings)
  /-- The conductor refuses the machines of a flow that is through. -/
  | refuse (flow : Nat)
  | revert (flow job : Nat)
  | requestRelease (action : String) (cleanup : Bool)
  | release (k : Nat)
  | deallocateMachine (id : String)

variable (pool : Pool)

/-- The result of a call is what it has stored, whether it raised or not. -/
def storedBy {α : Type} (p : Handler α) (machines : List Machine) : List Machine :=
  match p ⟨machines, [], []⟩ with
  | .ok _ stored => stored.machines
  | .error _ stored => stored.machines

def PoolRun.select (s : PoolRun) (services : Services) (role : MinionRole) (action : String)
    (instances : List String) : PoolRun :=
  match makeMinionMachineAllocationSubflowForAction services role pool action instances
      ⟨s.machines, [], []⟩ with
  | .ok slots stored => { s with
      machines := stored.machines
      waiting := s.waiting ++ [slots.map fun slot => slot.job action] }
  | .error _ stored => { s with machines := stored.machines }

def PoolRun.work (s : PoolRun) (k : Nat) (flow : FlowRun) (j : Nat) (job : Job)
    (sur : Surroundings) : PoolRun :=
  let result := job.work pool.id sur s.machines
  let begun := job.begun || job.stage = .allocate
  match result.2 with
  | some stage => { s with
      machines := result.1
      flows := s.flows.set k { flow with jobs := flow.jobs.set j { job with stage, begun } } }
  | none => { s with
      machines := result.1
      flows := s.flows.set k ⟨flow.jobs.set j { job with stage := .done, begun }, true⟩ }

def PoolRun.step (s : PoolRun) : PoolEvent → Option PoolRun
  | .select services role action instances => some (s.select pool services role action instances)
  | .start call => s.waiting[call]?.map fun jobs =>
      { s with waiting := s.waiting.eraseIdx call, flows := s.flows ++ [⟨jobs, false⟩] }
  | .drop call => some { s with waiting := s.waiting.eraseIdx call }
  | .refresh settings now =>
      let (machines, jobs) := getMinionPoolRefreshFlow settings now s.machines
      some { s with machines := machines, flows := s.flows ++ [⟨jobs, false⟩] }
  | .work k j sur => do
      let flow ← s.flows[k]?
      let job ← flow.jobs[j]?
      -- a task that has begun goes on when the flow is reverted, but no other one begins
      guard (!(flow.reverting && job.stage.isBetween))
      return s.work pool k flow j job sur
  | .refuse k => do
      let flow ← s.flows[k]?
      guard (flow.jobs.all fun job => job.stage = .done)
      return { s with flows := s.flows.set k { flow with reverting := true } }
  | .revert k j => do
      let flow ← s.flows[k]?
      let job ← flow.jobs[j]?
      guard (flow.reverting && flow.jobs.all fun job => job.stage.isBetween)
      return { s with
        machines := job.revert s.machines
        flows := s.flows.set k { flow with jobs := flow.jobs.eraseIdx j } }
  | .requestRelease action cleanup => some { s with
      releases := s.releases ++ [⟨getMinionMachines action s.machines, cleanup⟩] }
  | .release k => s.releases[k]?.map fun release => { s with
      machines := storedBy
        (if release.cleanup then
          each (fun m : Machine => deleteMinionMachine m.id)
            (release.machines.filter fun m => m.allocationStatus = .uninitialized)
        else deallocateMinionMachines release.machines) s.machines
      releases := s.releases.eraseIdx k }
  | .deallocateMachine id => some { s with
      machines := setAllocations [id] none .available none s.machines }

def PoolRun.steps (s : PoolRun) : List PoolEvent → Option PoolRun
  | [] => some s
  | e :: events => (s.step pool e).bind fun s' => s'.steps events

variable {pool} {s s' : PoolRun}

lemma PoolRun.step_work {k j : Nat} (h : s.step pool (.work k j sur) = some s') :
    ∃ flow job, s.flows[k]? = some flow ∧ flow.jobs[j]? = some job ∧
      (flow.reverting → job.stage.isBetween = false) ∧ s' = s.work pool k flow j job sur := by
  obtain ⟨flow, hflow, h⟩ := Option.bind_eq_some_iff.mp h
  obtain ⟨job, hjob, h⟩ := Option.bind_eq_some_iff.mp h
  obtain ⟨_, hguard, h⟩ := Option.bind_eq_some_iff.mp h
  refine ⟨flow, job, hflow, hjob, fun hreverting => ?_, (Option.some.inj h).symm⟩
  simpa [guard, hreverting] using hguard

lemma PoolRun.step_revert {k j : Nat} (h : s.step pool (.revert k j) = some s') :
    ∃ flow job, s.flows[k]? = some flow ∧ flow.jobs[j]? = some job ∧ flow.reverting = true ∧
      s' = { s with
        machines := job.revert s.machines
        flows := s.flows.set k { flow with jobs := flow.jobs.eraseIdx j } } := by
  obtain ⟨flow, hflow, h⟩ := Option.bind_eq_some_iff.mp h
  obtain ⟨job, hjob, h⟩ := Option.bind_eq_some_iff.mp h
  obtain ⟨_, hguard, h⟩ := Option.bind_eq_some_iff.mp h
  refine ⟨flow, job, hflow, hjob, ?_, (Option.some.inj h).symm⟩
  by_contra hnot
  simp [guard, hnot] at hguard

lemma PoolRun.steps_invariant {P : PoolRun → Prop} {events : List PoolEvent}
    (hstep : ∀ e ∈ events, ∀ s s', s.step pool e = some s' → P s → P s')
    (hsteps : s.steps pool events = some s') (h : P s) : P s' := by
  induction events generalizing s with
  | nil => exact Option.some.inj hsteps ▸ h
  | cons e events ih =>
    obtain ⟨s₁, hfirst, hsteps⟩ := Option.bind_eq_some_iff.mp hsteps
    exact ih (fun e' he' => hstep e' (List.mem_cons_of_mem e he')) hsteps
      (hstep e List.mem_cons_self s s₁ hfirst h)

end

section

/-- The rows of a pool, of which the ids are the primary key. -/
structure RowsOf (poolId : String) (machines : List Machine) : Prop where
  nodup : (machines.map Machine.id).Nodup
  pool : ∀ m ∈ machines, m.poolId = poolId

variable {poolId : String} {machines : List Machine}

def Shrinks (machines machines' : List Machine) : Prop :=
  (machines'.map Machine.id).Sublist (machines.map Machine.id) ∧
    ∀ m' ∈ machines', ∃ m ∈ machines, m.poolId = m'.poolId

lemma Shrinks.refl : Shrinks machines machines := ⟨.refl _, fun m hm => ⟨m, hm, rfl⟩⟩

lemma Shrinks.trans (h : Shrinks machines machines₁) (h' : Shrinks machines₁ machines₂) :
    Shrinks machines machines₂ := by
  refine ⟨h'.1.trans h.1, fun m₂ hm₂ => ?_⟩
  obtain ⟨m₁, hm₁, heq⟩ := h'.2 m₂ hm₂
  obtain ⟨m, hm, heq'⟩ := h.2 m₁ hm₁
  exact ⟨m, hm, heq'.trans heq⟩

lemma Shrinks.rowsOf (h : Shrinks machines machines') (hrows : RowsOf poolId machines) :
    RowsOf poolId machines' := by
  refine ⟨hrows.nodup.sublist h.1, fun m' hm' => ?_⟩
  obtain ⟨m, hm, heq⟩ := h.2 m' hm'
  exact heq ▸ hrows.pool m hm

lemma Shrinks.mem (h : Shrinks machines machines') {id : String}
    (hid : id ∈ machines'.map Machine.id) : id ∈ machines.map Machine.id := h.1.subset hid

lemma shrinks_filter (p : Machine → Bool) : Shrinks machines (machines.filter p) :=
  ⟨List.filter_sublist.map Machine.id, fun m hm => ⟨m, (List.mem_filter.mp hm).1, rfl⟩⟩

lemma shrinks_map (hid : ∀ m, (f m).id = m.id) (hpool : ∀ m, (f m).poolId = m.poolId) :
    Shrinks machines (machines.map f) := by
  refine ⟨?_, fun m' hm' => ?_⟩
  · rw [List.map_map, show Machine.id ∘ f = Machine.id from funext hid]
  · obtain ⟨m, hm, rfl⟩ := List.mem_map.mp hm'
    exact ⟨m, hm, (hpool m).symm⟩

lemma shrinks_updateRow {id : String} (hf : ∀ m, (f m).id = m.id ∧ (f m).poolId = m.poolId) :
    Shrinks machines (updateRow id f machines) := by
  refine shrinks_map (fun m => ?_) fun m => ?_
  · split
    · exact (hf m).1
    · rfl
  · split
    · exact (hf m).2
    · rfl

lemma shrinks_setAllocations :
    Shrinks machines (setAllocations ids action status time machines) := by
  refine shrinks_map (fun m => ?_) fun m => ?_
  · split <;> rfl
  · split <;> rfl

lemma setMinionMachinesAllocationStatuses_shrinks :
    Keeps (fun s : Stored => Shrinks machines s.machines)
      (setMinionMachinesAllocationStatuses ids action status time) :=
  setMinionMachinesAllocationStatuses_triple (fun _ hs _ => hs.trans shrinks_setAllocations)
    fun _ hs => hs

lemma deleteMinionMachine_shrinks {id : String} :
    Keeps (fun s : Stored => Shrinks machines s.machines) (deleteMinionMachine id) :=
  deleteMinionMachine_triple (fun _ hs _ => hs.trans (shrinks_filter _)) fun _ hs => hs

lemma deallocateMinionMachines_shrinks :
    Keeps (fun s : Stored => Shrinks machines s.machines) (deallocateMinionMachines l) :=
  .bind (.each fun _ _ => deleteMinionMachine_shrinks) fun _ =>
    setMinionMachinesAllocationStatuses_shrinks

lemma storedBy_shrinks (h : Keeps (fun s : Stored => Shrinks machines s.machines) p) :
    Shrinks machines (storedBy p machines) := by
  have hkeeps := h ⟨machines, [], []⟩ .refl
  unfold storedBy
  cases hp : p ⟨machines, [], []⟩ with
  | ok x stored | error err stored => rw [hp] at hkeeps; exact hkeeps

lemma refreshMachine_row (settings : RetentionSettings) (now : Nat) (budget : Int)
    (m : Machine) :
    (refreshMachine settings now budget m).2.1.id = m.id ∧
      (refreshMachine settings now budget m).2.1.poolId = m.poolId ∧
      ∀ job ∈ (refreshMachine settings now budget m).2.2, job.machineId = m.id := by
  unfold refreshMachine
  split
  · simp
  · split
    · split
      · split <;> simp
      · simp
    · split <;> simp

lemma refreshMachines_shrinks (settings : RetentionSettings) (now : Nat) (budget : Int)
    (machines : List Machine) :
    Shrinks machines (refreshMachines settings now budget machines).1 ∧
      ∀ job ∈ (refreshMachines settings now budget machines).2,
        job.machineId ∈ machines.map Machine.id := by
  induction machines generalizing budget with
  | nil => exact ⟨.refl, by simp [refreshMachines]⟩
  | cons m machines ih =>
    obtain ⟨hid, hpool, hjob⟩ := refreshMachine_row settings now budget m
    obtain ⟨hrows, hjobs⟩ := ih (refreshMachine settings now budget m).1
    refine ⟨⟨?_, fun m' hm' => ?_⟩, fun job hmem => ?_⟩
    · change ((refreshMachine settings now budget m).2.1.id :: _).Sublist _
      rw [hid]
      exact hrows.1.cons_cons _
    · rcases List.mem_cons.mp hm' with rfl | hm'
      · exact ⟨m, List.mem_cons_self, hpool.symm⟩
      · obtain ⟨m₀, hm₀, heq⟩ := hrows.2 m' hm'
        exact ⟨m₀, List.mem_cons_of_mem m hm₀, heq⟩
    · rcases List.mem_append.mp hmem with hmem | hmem
      · rw [hjob job (Option.mem_toList.mp hmem)]
        exact List.mem_cons_self
      · exact List.mem_cons_of_mem _ (hjobs job hmem)

end

section

variable {services : Services} {pool : Pool} {instances : List String} {machines : List Machine}
  {slots : List Slot} {s : Stored}

lemma each_attempt_deleteMinionMachine (ids : List String) :
    each (fun id => attempt (deleteMinionMachine id)) ids s =
      .ok () { s with machines := s.machines.filter fun m => m.id ∉ ids } := by
  induction ids generalizing s with
  | nil => simp [each]; rfl
  | cons id ids ih =>
    have hdelete : attempt (deleteMinionMachine id) s =
        .ok () { s with machines := s.machines.filter fun m : Machine => m.id ≠ id } := by
      by_cases hid : id ∈ s.machines.map Machine.id
      · exact tryCatch_of_ok (deleteMinionMachine_of_mem hid)
      · have hsame : s.machines.filter (fun m => m.id ≠ id) = s.machines :=
          List.filter_eq_self.mpr fun m hm => decide_eq_true fun heq =>
            hid (heq ▸ List.mem_map_of_mem hm)
        have herror : deleteMinionMachine id s = .error (.machinesNotFound [id]) s := by
          change (if _ then _ else _ : Handler Unit) s = _
          rw [if_pos hid]
          rfl
        rw [hsame]
        exact tryCatch_of_error herror
    rw [each_cons, hdelete]
    refine ih.trans ?_
    simp only [List.filter_filter, List.mem_cons, not_or, Bool.decide_and, Bool.and_comm, ne_eq]

/-- The table while a choice of machines is stored: the rows of before and the new ones. -/
structure Grown (poolId : String) (machines : List Machine) (new : List String) (s : Stored) :
    Prop where
  ids : s.machines.map Machine.id = machines.map Machine.id ++ s.newMachineDbEntriesAdded
  added : ∀ id ∈ s.newMachineDbEntriesAdded, id ∈ new
  pool : ∀ m ∈ s.machines, m.poolId = poolId

lemma Grown.setAllocations (h : Grown poolId machines new s) (ids : List String)
    (act : Option String) (status : MachineStatus) (time : Option Nat) :
    Grown poolId machines new
      { s with machines := setAllocations ids act status time s.machines } := by
  refine ⟨by simpa using h.ids, h.added, fun m hm => ?_⟩
  obtain ⟨m₀, hm₀, heq⟩ := (shrinks_setAllocations).2 m hm
  exact heq ▸ h.pool m₀ hm₀

lemma reserveMinionMachines_grown :
    Keeps (fun s : Stored => Grown poolId machines new s ∧ s.newMachineDbEntriesAdded = [])
      (reserveMinionMachines services role poolId action slots) := by
  refine .ite (fun _ => ?_) fun _ => .pure fun _ hs => hs
  refine .bind (services.call_keeps fun _ hs => hs) fun _ => ?_
  exact .bind (setMinionMachinesAllocationStatuses_triple
    (fun s hs _ => ⟨hs.1.setAllocations _ _ _ _, hs.2⟩) fun _ hs => hs)
    fun _ => services.call_keeps fun _ hs => hs

lemma each_addMinionMachine_grown (ids : List String) (added : List String)
    (hids : ∀ id ∈ ids, id ∈ new) :
    Triple (fun s => Grown poolId machines new s ∧ s.newMachineDbEntriesAdded = added)
      (each (fun id => do
        services.call (.addMinionMachine id)
        addMinionMachine (newMinionMachine poolId action id)) ids)
      (fun _ s => Grown poolId machines new s ∧ s.newMachineDbEntriesAdded = added ++ ids)
      (Grown poolId machines new) := by
  induction ids generalizing added with
  | nil => exact .pure fun s hs => by simpa using hs
  | cons id ids ih =>
    refine .bind (Q := fun _ s => Grown poolId machines new s ∧
      s.newMachineDbEntriesAdded = added ++ [id]) ?_ fun _ => ?_
    · refine .bind (services.call_keeps fun _ hs => hs.1) fun _ => .modify ?_
      rintro s ⟨hs, rfl⟩
      refine ⟨⟨?_, fun x hx => ?_, fun m hm => ?_⟩, rfl⟩
      · simp [hs.ids, newMinionMachine]
      · rcases List.mem_append.mp hx with hx | hx
        · exact hs.added x hx
        · rw [List.mem_singleton] at hx
          exact hx ▸ hids id List.mem_cons_self
      · rcases List.mem_append.mp hm with hm | hm
        · exact hs.pool m hm
        · rw [List.mem_singleton] at hm
          rw [hm]
          rfl
    · have hrest := ih (added ++ [id]) fun x hx => hids x (List.mem_cons_of_mem id hx)
      simpa using hrest

lemma Grown.shrinks (h : Grown poolId machines new s) (hpool : ∀ m ∈ machines, m.poolId = poolId) :
    Shrinks machines (s.machines.filter fun m => m.id ∉ s.newMachineDbEntriesAdded) := by
  have hids : (s.machines.filter fun m => m.id ∉ s.newMachineDbEntriesAdded).map Machine.id =
      (machines.map Machine.id).filter fun id => id ∉ s.newMachineDbEntriesAdded := by
    have hnone : s.newMachineDbEntriesAdded.filter
        (fun id => id ∉ s.newMachineDbEntriesAdded) = [] := by
      simp [List.filter_eq_nil_iff]
    have hmap := List.filter_map (f := Machine.id) (l := s.machines)
      (p := fun id => decide (id ∉ s.newMachineDbEntriesAdded))
    rw [h.ids, List.filter_append, hnone, List.append_nil] at hmap
    exact hmap.symm
  refine ⟨hids ▸ List.filter_sublist, fun m' hm' => ?_⟩
  have hid : m'.id ∈ machines.map Machine.id := by
    have hmem := List.mem_map_of_mem (f := Machine.id) hm'
    rw [hids] at hmem
    exact (List.mem_filter.mp hmem).1
  obtain ⟨m, hm, -⟩ := List.mem_map.mp hid
  exact ⟨m, hm, (hpool m hm).trans (h.pool m' (List.mem_filter.mp hm').1).symm⟩

lemma storeAllocations_grown (hpool : ∀ m ∈ machines, m.poolId = poolId) :
    Triple (fun s => s.machines = machines ∧ s.newMachineDbEntriesAdded = [])
      (storeAllocations services role poolId action slots)
      (fun _ s => s.machines.map Machine.id = machines.map Machine.id ++ newMachines slots ∧
        ∀ m ∈ s.machines, m.poolId = poolId)
      fun s => Shrinks machines s.machines := by
  refine .tryCatch (F := Grown poolId machines (newMachines slots)) ?_ fun err => ?_
  · refine .bind (reserveMinionMachines_grown.mono ?_ (fun _ _ hs => hs) fun _ hs => hs.1)
      fun _ => .ite (fun _ => ?_) fun hnone => .pure fun s hs => ?_
    · rintro s ⟨rfl, hadded⟩
      exact ⟨⟨by simp [hadded], by simp [hadded], hpool⟩, hadded⟩
    · refine .bind (each_addMinionMachine_grown _ [] fun _ hid => hid) fun _ =>
        (services.call_keeps fun _ hs => hs.1).mono (fun _ hs => hs) (fun _ s hs => ?_)
          fun _ hs => hs
      exact ⟨by rw [hs.1.ids, hs.2, List.nil_append], hs.1.pool⟩
    · rw [not_not.mp hnone]
      exact ⟨by rw [hs.1.ids, hs.2], hs.1.pool⟩
  · have hfree : Keeps (Grown poolId machines (newMachines slots))
        (setMinionMachinesAllocationStatuses (existingMachines slots) none .available none) :=
      setMinionMachinesAllocationStatuses_triple (fun s hs _ => hs.setAllocations _ _ _ _)
        fun _ hs => hs
    refine .bind (.attempt hfree) fun _ => .get_bind fun s hs =>
      .bind (Q := fun _ s => Shrinks machines s.machines) ?_ fun _ => .throw fun _ hs => hs
    rintro _ rfl
    rw [each_attempt_deleteMinionMachine]
    exact hs.shrinks hpool

/-- The rows after a choice of machines, and what is known of the choice. -/
structure Selected (services : Services) (pool : Pool) (machines : List Machine)
    (instances : List String) (slots : List Slot) (machines' : List Machine) : Prop where
  chosen : Chosen machines (services.newId machines) slots
  instances_eq : slots.map Slot.forInstance = instances
  room : (instances.length : Int) ≤
    (machines.filter fun m => m.allocationStatus = .available).length +
      (pool.maximumMinions - machines.length)
  ids : machines'.map Machine.id = machines.map Machine.id ++ newMachines slots
  pool_eq : ∀ m ∈ machines', m.poolId = pool.id

lemma makeMinionMachineAllocationSubflowForAction_selected (services : Services)
    (role : MinionRole) (action : String) (instances : List String)
    (hpool : ∀ m ∈ machines, m.poolId = pool.id) :
    Triple (fun s => s.machines = machines)
      (makeMinionMachineAllocationSubflowForAction services role pool action instances)
      (fun slots s => Selected services pool machines instances slots s.machines)
      fun s => Shrinks machines s.machines := by
  have hall : pool.minionMachines machines = machines :=
    List.filter_eq_self.mpr fun m hm => decide_eq_true (hpool m hm)
  refine .get_bind ?_
  rintro read rfl
  simp only [hall]
  refine .ite (fun _ => .throw fun _ hs => hs ▸ .refl) fun hroom => ?_
  split
  · exact .throw fun _ hs => hs ▸ .refl
  · next slots hchoice =>
    obtain ⟨hchosen, hinstances⟩ := chooseMachines_ok hchoice .nil
    refine .set_bind (.bind ((storeAllocations_grown hpool).mono ?_ (fun _ _ hs => hs)
      fun _ hs => hs) fun _ => .pure fun s hs => ?_)
    · rintro _ rfl
      exact ⟨rfl, rfl⟩
    · exact ⟨hchosen, by simpa using hinstances, Int.not_lt.mp hroom, hs.1, hs.2⟩

end

section

variable {slots : List Slot}

variable (h : Selected services pool machines instances slots machines')

include h

lemma Selected.available_le (hnodup : (machines.map Machine.id).Nodup) (hnew : newMachines slots ≠ []) :
    (machines.filter fun m => m.allocationStatus = .available).length ≤
      (existingMachines slots).length := by
  have hids : ((machines.filter fun m => m.allocationStatus = .available).map
      Machine.id).Nodup := hnodup.sublist (List.filter_sublist.map Machine.id)
  rw [← List.length_map Machine.id]
  refine (hids.subperm fun id hid => ?_).length_le
  obtain ⟨m, hm, rfl⟩ := List.mem_map.mp hid
  obtain ⟨hmem, hstatus⟩ := List.mem_filter.mp hm
  obtain ⟨slot, hslot, heq⟩ :=
    List.mem_map.mp (h.chosen.exhausted hnew m hmem (of_decide_eq_true hstatus))
  by_cases htask : slot.task = .allocate
  · obtain ⟨k, hk⟩ := h.chosen.mem_newMachines
      (List.mem_map_of_mem (f := Slot.machineId) (List.mem_filter.mpr ⟨hslot, decide_eq_true htask⟩))
    exact absurd (hk ▸ heq ▸ List.mem_map_of_mem hmem) (services.newId_fresh machines k)
  · rw [← heq]
    exact List.mem_map_of_mem (List.mem_filter.mpr ⟨hslot, decide_eq_true htask⟩)

lemma Selected.length_eq : (existingMachines slots).length + (newMachines slots).length =
    instances.length := by
  have hperm := (List.filter_append_perm (fun slot : Slot => slot.task ≠ .allocate) slots).length_eq
  rw [← h.instances_eq, List.length_map]
  simpa [existingMachines, newMachines] using hperm

lemma Selected.length_le (hnodup : (machines.map Machine.id).Nodup)
    (hnew : newMachines slots ≠ []) :
    (machines.length + (newMachines slots).length : Int) ≤ pool.maximumMinions := by
  have havailable := h.available_le hnodup hnew
  have hlength := h.length_eq
  have hroom := h.room
  omega

lemma Selected.new_eq_nil (hnodup : (machines.map Machine.id).Nodup)
    (henough : instances.length ≤
      (machines.filter fun m => m.allocationStatus = .available).length) :
    newMachines slots = [] := by
  by_contra hnew
  have havailable := h.available_le hnodup hnew
  have hlength := h.length_eq
  have hpositive : 0 < (newMachines slots).length := List.length_pos_iff.mpr hnew
  omega

lemma Selected.mem_ids (hslot : slot ∈ slots) : slot.machineId ∈ machines'.map Machine.id := by
  rw [h.ids, List.mem_append]
  by_cases htask : slot.task = .allocate
  · exact .inr (List.mem_map_of_mem (List.mem_filter.mpr ⟨hslot, decide_eq_true htask⟩))
  · obtain ⟨m, hm, heq, -⟩ := h.chosen.existing slot hslot htask
    exact .inl (heq ▸ List.mem_map_of_mem hm)

lemma Selected.rowsOf (hrows : RowsOf pool.id machines) : RowsOf pool.id machines' := by
  refine ⟨?_, h.pool_eq⟩
  rw [h.ids]
  refine hrows.nodup.append (h.chosen.newMachines_nodup (services.newId_injective machines)) ?_
  intro id hid hnew
  obtain ⟨k, rfl⟩ := h.chosen.mem_newMachines hnew
  exact services.newId_fresh machines k hid

end

section

variable {pool : Pool} {s s' : PoolRun}

/-- Everything that has a row or may still get one fits into the pool. -/
structure Sized (pool : Pool) (s : PoolRun) : Prop where
  rows : RowsOf pool.id s.machines
  roster : ∃ roster : List String, (roster.length : Int) ≤ pool.maximumMinions ∧
    (∀ id ∈ s.machines.map Machine.id, id ∈ roster) ∧ ∀ id ∈ s.adding, id ∈ roster

lemma Sized.of_mem (h : Sized pool s) (hrows : RowsOf pool.id s'.machines)
    (hids : ∀ id ∈ s'.machines.map Machine.id,
      id ∈ s.machines.map Machine.id ∨ id ∈ s.adding)
    (hadding : ∀ id ∈ s'.adding, id ∈ s.machines.map Machine.id ∨ id ∈ s.adding) :
    Sized pool s' := by
  obtain ⟨roster, hlength, hrostered, hrostered'⟩ := h.roster
  exact ⟨hrows, roster, hlength, fun id hid => (hids id hid).elim (hrostered id) (hrostered' id),
    fun id hid => (hadding id hid).elim (hrostered id) (hrostered' id)⟩

lemma Sized.length_le (h : Sized pool s) : (s.machines.length : Int) ≤ pool.maximumMinions := by
  obtain ⟨roster, hlength, hrostered, -⟩ := h.roster
  have hle : (s.machines.map Machine.id).length ≤ roster.length :=
    (h.rows.nodup.subperm hrostered).length_le
  rw [List.length_map] at hle
  omega

/-- Before new rows are added, every machine that a flow may still create has its row; rows are
added if there are more instances than machines that are available. -/
def PoolRun.Careful (s : PoolRun) : PoolEvent → Prop
  | .select _ _ _ instances =>
    instances.length ≤ (s.machines.filter fun m => m.allocationStatus = .available).length ∨
      ∀ id ∈ s.adding, id ∈ s.machines.map Machine.id
  | _ => True

lemma mem_adding {id : String} :
    id ∈ s.adding ↔ (∃ jobs ∈ s.waiting, ∃ job ∈ jobs, job.machineId = id) ∨
      ∃ flow ∈ s.flows, ∃ job ∈ flow.jobs, job.mayAdd flow.reverting ∧ job.machineId = id := by
  simp only [PoolRun.adding, List.mem_map, List.mem_append, List.mem_flatten, List.mem_flatMap,
    List.mem_filter, or_and_right, exists_or]
  constructor
  · rintro (⟨job, ⟨jobs, hjobs, hjob⟩, rfl⟩ | ⟨job, ⟨flow, hflow, hjob, hadd⟩, rfl⟩)
    · exact .inl ⟨jobs, hjobs, job, hjob, rfl⟩
    · exact .inr ⟨flow, hflow, job, hjob, hadd, rfl⟩
  · rintro (⟨jobs, hjobs, job, hjob, rfl⟩ | ⟨flow, hflow, job, hjob, hadd, rfl⟩)
    · exact .inl ⟨job, ⟨jobs, hjobs, hjob⟩, rfl⟩
    · exact .inr ⟨job, ⟨flow, hflow, hjob, hadd⟩, rfl⟩

lemma Slot.job_machineId (slot : Slot) (action : String) :
    (slot.job action).machineId = slot.machineId := by
  unfold job
  split <;> rfl

lemma Sized.select (h : Sized pool s)
    (hcareful : s.Careful (.select services role action instances)) :
    Sized pool (s.select pool services role action instances) := by
  have hmake := makeMinionMachineAllocationSubflowForAction_selected services role action
    instances h.rows.pool ⟨s.machines, [], []⟩ rfl
  unfold PoolRun.select
  split
  · next slots stored hrun =>
    rw [hrun] at hmake
    have hselected : Selected services pool s.machines instances slots stored.machines := hmake
    have hadding : ∀ id ∈ PoolRun.adding { s with
        machines := stored.machines
        waiting := s.waiting ++ [slots.map fun slot => slot.job action] },
        id ∈ s.adding ∨ id ∈ stored.machines.map Machine.id := by
      intro id hid
      rcases mem_adding.mp hid with ⟨jobs, hjobs, job, hjob, rfl⟩ | hid
      · rcases List.mem_append.mp hjobs with hjobs | hjobs
        · exact .inl (mem_adding.mpr (.inl ⟨jobs, hjobs, job, hjob, rfl⟩))
        · obtain rfl := List.mem_singleton.mp hjobs
          obtain ⟨slot, hslot, rfl⟩ := List.mem_map.mp hjob
          rw [Slot.job_machineId]
          exact .inr (hselected.mem_ids hslot)
      · exact .inl (mem_adding.mpr (.inr hid))
    by_cases hnew : newMachines slots = []
    · have hids := hselected.ids
      rw [hnew, List.append_nil] at hids
      exact h.of_mem (hselected.rowsOf h.rows) (fun id hid => .inl (hids ▸ hid))
        fun id hid => (hadding id hid).elim .inr fun hid => .inl (hids ▸ hid)
    · have hknown : ∀ id ∈ s.adding, id ∈ s.machines.map Machine.id :=
        hcareful.resolve_left fun henough =>
          hnew (hselected.new_eq_nil h.rows.nodup henough)
      refine ⟨hselected.rowsOf h.rows, stored.machines.map Machine.id, ?_, fun id hid => hid,
        fun id hid => (hadding id hid).elim (fun hid => ?_) fun hid => hid⟩
      · have hlength := hselected.length_le h.rows.nodup hnew
        rw [hselected.ids, List.length_append, List.length_map]
        exact_mod_cast hlength
      · rw [hselected.ids]
        exact List.mem_append_left _ (hknown id hid)
  · next err stored hrun =>
    rw [hrun] at hmake
    exact h.of_mem (hmake.rowsOf h.rows) (fun id hid => .inl (hmake.mem hid))
      fun id hid => .inr hid

lemma Sized.of_shrinks (h : Sized pool s) (hrows : Shrinks s.machines s'.machines)
    (hadding : ∀ id ∈ s'.adding, id ∈ s.machines.map Machine.id ∨ id ∈ s.adding) :
    Sized pool s' :=
  h.of_mem (hrows.rowsOf h.rows) (fun _ hid => .inl (hrows.mem hid)) hadding

lemma Job.work_rows (job : Job) (sur : Surroundings) (hrows : RowsOf pool.id machines) :
    RowsOf pool.id (job.work pool.id sur machines).1 ∧
      ∀ id ∈ (job.work pool.id sur machines).1.map Machine.id,
        id ∈ machines.map Machine.id ∨ job.stage = .add ∧ id = job.machineId := by
  have hshrunk : ∀ l, Shrinks machines l → RowsOf pool.id l ∧ ∀ id ∈ l.map Machine.id,
      id ∈ machines.map Machine.id ∨ job.stage = .add ∧ id = job.machineId :=
    fun l h => ⟨h.rowsOf hrows, fun id hid => .inl (h.mem hid)⟩
  rcases job.work_cases pool.id sur machines with heq | ⟨f, hf, heq⟩ | heq | ⟨hstage, hnone, heq⟩
  · rw [heq]
    exact hshrunk _ .refl
  · rw [heq]
    exact hshrunk _ (shrinks_updateRow hf)
  · rw [heq]
    exact hshrunk _ (shrinks_filter _)
  · have hfresh : job.machineId ∉ machines.map Machine.id := by
      intro hmem
      obtain ⟨m, hm, hid⟩ := List.mem_map.mp hmem
      exact List.find?_eq_none.mp hnone m hm (decide_eq_true hid)
    rw [heq, List.map_append]
    refine ⟨⟨?_, fun m hm => ?_⟩, fun id hid => ?_⟩
    · rw [List.map_append]
      exact hrows.nodup.append (List.nodup_singleton _) (by simpa [newRow] using hfresh)
    · rcases List.mem_append.mp hm with hm | hm
      · exact hrows.pool m hm
      · rw [List.mem_singleton.mp hm]
        rfl
    · rcases List.mem_append.mp hid with hid | hid
      · exact .inl hid
      · exact .inr ⟨hstage, List.mem_singleton.mp hid⟩

lemma mem_adding_of_set (hflow : s.flows[k]? = some flow)
    (hjobs : ∀ job' ∈ flow'.jobs, job'.mayAdd flow'.reverting → ∃ job ∈ flow.jobs,
      job.mayAdd flow.reverting ∧ job.machineId = job'.machineId) {id : String}
    (hid : id ∈ PoolRun.adding ⟨machines, s.waiting, s.flows.set k flow', s.releases⟩) :
    id ∈ s.adding := by
  rw [mem_adding] at hid ⊢
  rcases hid with hid | ⟨other, hother, job', hjob', hadd, rfl⟩
  · exact .inl hid
  · rcases List.mem_or_eq_of_mem_set hother with hother | rfl
    · exact .inr ⟨other, hother, job', hjob', hadd, rfl⟩
    · obtain ⟨job, hjob, hadd, heq⟩ := hjobs job' hjob' hadd
      exact .inr ⟨flow, List.mem_of_getElem? hflow, job, hjob, hadd, heq⟩

lemma Job.mayAdd_of_reverting {job : Job} (h : job.mayAdd true) :
    job.mayAdd reverting := by
  cases reverting with
  | true => exact h
  | false =>
    unfold mayAdd at h ⊢
    split at h <;> simp_all

lemma Sized.work (h : Sized pool s) {k j : Nat} {sur : Surroundings}
    (hflow : s.flows[k]? = some flow) (hjob : flow.jobs[j]? = some job)
    (hbetween : flow.reverting → job.stage.isBetween = false) :
    Sized pool (s.work pool k flow j job sur) := by
  obtain ⟨hrows, hids⟩ := job.work_rows sur h.rows
  have hmem := List.mem_of_getElem? hjob
  have hadds : ∀ id ∈ (job.work pool.id sur s.machines).1.map Machine.id,
      id ∈ s.machines.map Machine.id ∨ id ∈ s.adding := by
    intro id hid
    refine (hids id hid).imp_right ?_
    rintro ⟨hstage, rfl⟩
    exact mem_adding.mpr (.inr ⟨flow, List.mem_of_getElem? hflow, job, hmem,
      by simp [Job.mayAdd, hstage], rfl⟩)
  unfold PoolRun.work
  dsimp only
  split
  · next stage hstage =>
    refine h.of_mem hrows hadds fun id hid => .inr (mem_adding_of_set hflow ?_ hid)
    intro job' hjob' hadd
    rcases List.mem_or_eq_of_mem_set hjob' with hjob' | rfl
    · exact ⟨job', hjob', hadd, rfl⟩
    · exact ⟨job, hmem, Job.mayAdd_of_work hstage hbetween hadd, rfl⟩
  · refine h.of_mem hrows hadds fun id hid => .inr (mem_adding_of_set hflow ?_ hid)
    intro job' hjob' hadd
    rcases List.mem_or_eq_of_mem_set hjob' with hjob' | rfl
    · exact ⟨job', hjob', Job.mayAdd_of_reverting hadd, rfl⟩
    · simp [Job.mayAdd] at hadd

lemma mem_waiting_of_eraseIdx {id : String}
    (hid : id ∈ PoolRun.adding { s with waiting := s.waiting.eraseIdx call }) :
    id ∈ s.adding := by
  rw [mem_adding] at hid ⊢
  refine hid.imp_left ?_
  rintro ⟨jobs, hjobs, hrest⟩
  exact ⟨jobs, (List.eraseIdx_sublist _ _).subset hjobs, hrest⟩

lemma mem_adding_of_flow {waiting : List (List Job)} {id : String} (hid : id ∈ PoolRun.adding
      ⟨machines, waiting, s.flows ++ [⟨jobs, false⟩], s.releases⟩) :
    id ∈ PoolRun.adding ⟨machines, waiting, s.flows, s.releases⟩ ∨
      ∃ job ∈ jobs, job.machineId = id := by
  rw [mem_adding] at hid ⊢
  rcases hid with hid | ⟨flow, hflow, job, hjob, hadd, rfl⟩
  · exact .inl (.inl hid)
  · rcases List.mem_append.mp hflow with hflow | hflow
    · exact .inl (.inr ⟨flow, hflow, job, hjob, hadd, rfl⟩)
    · rw [List.mem_singleton.mp hflow] at hjob
      exact .inr ⟨job, hjob, rfl⟩

lemma Sized.start (h : Sized pool s) (hjobs : s.waiting[call]? = some jobs) :
    Sized pool { s with
      waiting := s.waiting.eraseIdx call, flows := s.flows ++ [⟨jobs, false⟩] } := by
  refine h.of_shrinks .refl fun id hid => .inr ?_
  rcases mem_adding_of_flow hid with hid | ⟨job, hjob, rfl⟩
  · exact mem_waiting_of_eraseIdx hid
  · exact mem_adding.mpr (.inl ⟨jobs, List.mem_of_getElem? hjobs, job, hjob, rfl⟩)

lemma Sized.refresh (h : Sized pool s) (settings : RetentionSettings) (now : Nat) :
    Sized pool { s with
      machines := (getMinionPoolRefreshFlow settings now s.machines).1
      flows := s.flows ++ [⟨(getMinionPoolRefreshFlow settings now s.machines).2, false⟩] } := by
  obtain ⟨hshrinks, hjobs⟩ := refreshMachines_shrinks settings now
    ((s.machines.filter fun m => m.allocationStatus ∉ ignorableMachineStatuses).length -
      settings.minimumMinions) s.machines
  refine h.of_shrinks hshrinks fun id hid => ?_
  rcases mem_adding_of_flow hid with hid | ⟨job, hjob, rfl⟩
  · exact .inr hid
  · exact .inl (hjobs job hjob)

lemma Job.revert_shrinks (job : Job) (machines : List Machine) :
    Shrinks machines (job.revert machines) := by
  unfold revert
  split
  · exact shrinks_filter _
  · exact .refl

lemma Sized.step (h : Sized pool s) (hcareful : s.Careful e) (hstep : s.step pool e = some s')
    : Sized pool s' := by
  cases e with
  | select services role action instances =>
    obtain rfl := Option.some.inj hstep
    exact h.select hcareful
  | start call =>
    obtain ⟨jobs, hjobs, rfl⟩ := Option.map_eq_some_iff.mp hstep
    exact h.start hjobs
  | drop call =>
    obtain rfl := Option.some.inj hstep
    exact h.of_shrinks .refl fun id hid => .inr (mem_waiting_of_eraseIdx hid)
  | refresh settings now =>
    obtain rfl := Option.some.inj hstep
    exact h.refresh settings now
  | work k j sur =>
    obtain ⟨flow, job, hflow, hjob, hbetween, rfl⟩ := PoolRun.step_work hstep
    exact h.work hflow hjob hbetween
  | refuse k =>
    obtain ⟨flow, hflow, hstep⟩ := Option.bind_eq_some_iff.mp hstep
    obtain ⟨-, -, hstep⟩ := Option.bind_eq_some_iff.mp hstep
    obtain rfl := Option.some.inj hstep
    refine h.of_shrinks .refl fun id hid => .inr (mem_adding_of_set hflow ?_ hid)
    exact fun job hjob hadd => ⟨job, hjob, Job.mayAdd_of_reverting hadd, rfl⟩
  | revert k j =>
    obtain ⟨flow, job, hflow, hjob, -, rfl⟩ := PoolRun.step_revert hstep
    refine h.of_shrinks (job.revert_shrinks _) fun id hid => .inr (mem_adding_of_set hflow ?_ hid)
    exact fun job hjob hadd => ⟨job, (List.eraseIdx_sublist _ _).subset hjob, hadd, rfl⟩
  | requestRelease action cleanup =>
    obtain rfl := Option.some.inj hstep
    exact h.of_shrinks .refl fun id hid => .inr hid
  | release k =>
    obtain ⟨release, -, rfl⟩ := Option.map_eq_some_iff.mp hstep
    refine h.of_shrinks (storedBy_shrinks ?_) fun id hid => .inr hid
    split
    · exact .each fun _ _ => deleteMinionMachine_shrinks
    · exact deallocateMinionMachines_shrinks
  | deallocateMachine id =>
    obtain rfl := Option.some.inj hstep
    exact h.of_shrinks shrinks_setAllocations fun id hid => .inr hid

def PoolRun.CarefulRun (pool : Pool) : PoolRun → List PoolEvent → Prop
  | _, [] => True
  | s, e :: events => s.Careful e ∧ ∀ s' ∈ s.step pool e, s'.CarefulRun pool events

instance PoolRun.decidableCareful (s : PoolRun) (e : PoolEvent) : Decidable (s.Careful e) := by
  cases e <;> unfold Careful <;> infer_instance

instance PoolRun.decidableCarefulRun (pool : Pool) :
    (events : List PoolEvent) → (s : PoolRun) → Decidable (s.CarefulRun pool events)
  | [], _ => inferInstanceAs (Decidable True)
  | e :: events, s =>
    have (s' : PoolRun) := decidableCarefulRun pool events s'
    inferInstanceAs (Decidable (s.Careful e ∧ ∀ s' ∈ s.step pool e, s'.CarefulRun pool events))

lemma Sized.steps (h : Sized pool s) (hcareful : s.CarefulRun pool events)
    (hsteps : s.steps pool events = some s') :
    Sized pool s' := by
  induction events generalizing s with
  | nil =>
    obtain rfl := Option.some.inj hsteps
    exact h
  | cons e events ih =>
    obtain ⟨s₁, hstep, hsteps⟩ := Option.bind_eq_some_iff.mp hsteps
    exact ih (h.step hcareful.1 hstep) (hcareful.2 s₁ hstep) hsteps

def lonePool : Pool := ⟨"p", "e", .destination, .linux, .allocated, 1⟩

def loneMachine : Machine := ⟨"m0", "p", .available, .poweredOn, none, some 0, some "vm"⟩

/-- The machine fails its check and is deleted before it is created again. -/
def redeployment : List PoolEvent :=
  [.refresh ⟨1, 3600, .delete⟩ 10, .work 0 0 ⟨true, 11, ""⟩, .work 0 0 ⟨false, 12, ""⟩,
    .work 0 0 ⟨true, 13, ""⟩, .work 0 0 ⟨true, 14, ""⟩, .work 0 0 ⟨true, 15, ""⟩]

/-- An action is allocated a new machine while the pool has no row; then the redeployment adds
the row of its machine again. -/
theorem redeployment_exceeds_maximum :
    RowsOf lonePool.id [loneMachine] ∧ ([loneMachine].length : Int) ≤ lonePool.maximumMinions ∧
      ∃ s, PoolRun.steps lonePool ⟨[loneMachine], [], [], []⟩
        (redeployment ++ [.select (Services.of [lonePool]) .destination "a" ["i"],
          .work 0 0 ⟨true, 16, ""⟩, .work 0 0 ⟨true, 17, ""⟩]) = some s ∧
        lonePool.maximumMinions < s.machines.length :=
  ⟨⟨by simp, by simp [lonePool, loneMachine]⟩, by decide, _, rfl, by decide⟩

/-- In a run of which every step is careful, from a pool that no flow works on yet, there are
never more rows than the pool may have. -/
theorem rows_within_maximum (machines : List Machine) (releases : List Release)
    (events : List PoolEvent) (hrows : RowsOf pool.id machines)
    (hsize : (machines.length : Int) ≤ pool.maximumMinions)
    (hcareful : PoolRun.CarefulRun pool ⟨machines, [], [], releases⟩ events)
    (hsteps : PoolRun.steps pool ⟨machines, [], [], releases⟩ events = some s) :
    (s.machines.length : Int) ≤ pool.maximumMinions := by
  have hsized : Sized pool ⟨machines, [], [], releases⟩ :=
    ⟨hrows, machines.map Machine.id, by rwa [List.length_map], fun id hid => hid,
      fun id hid => by simp [PoolRun.adding] at hid⟩
  exact (hsized.steps hcareful hsteps).length_le

/-- The action is turned away after the redeployment: the pool has its one machine. -/
theorem rows_within_maximum_redeployment :
    ∃ s, PoolRun.steps lonePool ⟨[loneMachine], [], [], []⟩
      (redeployment ++ [.work 0 0 ⟨true, 16, ""⟩, .work 0 0 ⟨true, 17, ""⟩,
        .select (Services.of [lonePool]) .destination "a" ["i"]]) = some s ∧
      (s.machines.length : Int) ≤ lonePool.maximumMinions := by
  refine ⟨_, rfl, rows_within_maximum [loneMachine] [] (redeployment ++
    [.work 0 0 ⟨true, 16, ""⟩, .work 0 0 ⟨true, 17, ""⟩,
      .select (Services.of [lonePool]) .destination "a" ["i"]])
    ⟨by simp, by simp [lonePool, loneMachine]⟩ (by decide) ?_ rfl⟩
  decide

end

end Coriolis.Minions

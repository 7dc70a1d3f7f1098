import Coriolis.Minions.Capacity

/-!
# What a refresh keeps and whom it serves

A refresh of a pool gives up idle machines, as many as there are above the minimum, and checks
the others. The budget counts the machines that are not in an error or going down. Under the
power-off strategy these include the machines that are off already, and a machine in an error
may take from the budget without being counted in it. A machine in an error that is not powered
on is neither checked nor powered off.
-/

namespace Coriolis.Minions

variable {settings : RetentionSettings} {now : Nat} {budget : Int} {m : Machine}
  {machines : List Machine}

def Machine.isOff (m : Machine) : Bool := m.powerStatus = .poweredOff || m.powerStatus = .poweringOff

/-- The machines that serve the pool: those that are not ignored and, if idle machines are
powered off, are not off. -/
def RetentionSettings.serves (settings : RetentionSettings) (m : Machine) : Bool :=
  m.allocationStatus ∉ ignorableMachineStatuses &&
    !(settings.minionRetentionStrategy = .poweroff && m.isOff)

def RetentionSettings.idle (settings : RetentionSettings) (now : Nat) (m : Machine) : Bool :=
  m.allocationStatus ∈ healthcheckableMachineStatuses && m.isExpired settings now

def Machine.isFaulty (m : Machine) : Bool :=
  m.allocationStatus ∈ machineErrorStatuses && m.powerStatus = .poweredOn

def RetentionSettings.surplus (settings : RetentionSettings) (machines : List Machine) : Int :=
  (machines.filter fun m => m.allocationStatus ∉ ignorableMachineStatuses).length -
    settings.minimumMinions

def RetentionSettings.spentOn (settings : RetentionSettings) (now : Nat) (budget : Int)
    (machines : List Machine) : List Machine :=
  (machines.filter (settings.idle now)).take budget.toNat

lemma refreshMachine_spent (hidle : settings.idle now m = true) (hbudget : budget > 0) :
    (refreshMachine settings now budget m).1 = budget - 1 ∧
      settings.serves (refreshMachine settings now budget m).2.1 = false := by
  rw [RetentionSettings.idle, Bool.and_eq_true, decide_eq_true_eq] at hidle
  rw [refreshMachine, if_neg (not_not.mpr hidle.1), if_pos ⟨hbudget, hidle.2⟩]
  cases hs : settings.minionRetentionStrategy with
  | delete => simp [RetentionSettings.serves, ignorableMachineStatuses]
  | poweroff =>
    simp only
    split
    · next hoff =>
      have hoff : m.isOff = true := by simpa [Machine.isOff] using hoff
      simp [RetentionSettings.serves, hs, hoff]
    · simp [RetentionSettings.serves, ignorableMachineStatuses]

lemma refreshMachine_kept (h : ¬ (settings.idle now m = true ∧ budget > 0)) :
    (refreshMachine settings now budget m).1 = budget ∧
      (settings.serves (refreshMachine settings now budget m).2.1).toNat =
        (settings.serves m).toNat + m.isFaulty.toNat := by
  rw [refreshMachine]
  split
  · next hstatus =>
    have hfaulty : m.isFaulty = false := by
      cases hm : m.allocationStatus <;> simp_all [Machine.isFaulty, machineErrorStatuses,
        healthcheckableMachineStatuses]
    simp [hfaulty]
  next hstatus =>
  rw [if_neg fun hspent => h ⟨by simp_all [RetentionSettings.idle], hspent.1⟩]
  split
  · next hon =>
    cases hm : m.allocationStatus <;> simp_all [RetentionSettings.serves, Machine.isFaulty,
      Machine.isOff, ignorableMachineStatuses, machineErrorStatuses, healthcheckableMachineStatuses]
  · next hon => simp [Machine.isFaulty, hon]

lemma spentOn_cons : settings.spentOn now budget (m :: machines) =
    if settings.idle now m = true ∧ budget > 0 then m :: settings.spentOn now (budget - 1) machines
    else settings.spentOn now budget machines := by
  unfold RetentionSettings.spentOn
  split
  · next h =>
    obtain ⟨k, hk⟩ : ∃ k : Nat, budget = k + 1 := ⟨(budget - 1).toNat, by omega⟩
    simp [h.1, hk]
  · next h =>
    by_cases hidle : settings.idle now m = true
    · have hnot : budget.toNat = 0 := by
        have : ¬ budget > 0 := fun hpos => h ⟨hidle, hpos⟩
        omega
      simp [hnot]
    · simp [hidle]

/-- The machines that served before a refresh and still do, of the rows before and after it. -/
def RetentionSettings.stillServing (settings : RetentionSettings) (machines after : List Machine) :
    Nat :=
  (machines.zip after).countP fun p => settings.serves p.1 && settings.serves p.2

/-- A refresh takes away the machines on which it spends its budget and brings back the faulty
ones that it checks. -/
lemma countP_refreshMachines (settings : RetentionSettings) (now : Nat) (budget : Int)
    (machines : List Machine) :
    settings.stillServing machines (refreshMachines settings now budget machines).1 +
        (settings.spentOn now budget machines).countP settings.serves =
      machines.countP settings.serves ∧
    (refreshMachines settings now budget machines).1.countP settings.serves +
        (settings.spentOn now budget machines).countP settings.serves +
        (settings.spentOn now budget machines).countP Machine.isFaulty =
      machines.countP settings.serves + machines.countP Machine.isFaulty := by
  induction machines generalizing budget with
  | nil => simp [refreshMachines, RetentionSettings.stillServing, RetentionSettings.spentOn]
  | cons m machines ih =>
    simp only [refreshMachines, spentOn_cons]
    have ih := ih (refreshMachine settings now budget m).1
    unfold RetentionSettings.stillServing at ih ⊢
    by_cases h : settings.idle now m = true ∧ budget > 0
    · obtain ⟨hbudget, hserves⟩ := refreshMachine_spent h.1 h.2
      rw [hbudget] at ih
      simp only [List.zip_cons_cons, List.countP_cons, hserves, if_pos h, hbudget, Bool.and_false,
        Bool.false_eq_true, if_false]
      omega
    · obtain ⟨hbudget, hserves⟩ := refreshMachine_kept h
      rw [hbudget] at ih
      simp only [List.zip_cons_cons, List.countP_cons, if_neg h, hbudget]
      revert hserves
      cases settings.serves m <;> cases m.isFaulty <;>
        cases settings.serves (refreshMachine settings now budget m).2.1 <;> simp <;> omega

def refreshed (settings : RetentionSettings) (now : Nat) (machines : List Machine) : List Machine :=
  (getMinionPoolRefreshFlow settings now machines).1

def spent (settings : RetentionSettings) (now : Nat) (machines : List Machine) : List Machine :=
  settings.spentOn now (settings.surplus machines) machines

lemma countP_refreshed : (refreshed settings now machines).countP settings.serves +
    (spent settings now machines).countP settings.serves +
    (spent settings now machines).countP Machine.isFaulty =
      machines.countP settings.serves + machines.countP Machine.isFaulty :=
  (countP_refreshMachines settings now (settings.surplus machines) machines).2

/-- A refresh leaves the minimum of serving machines, or as many as there were, exactly if among
the first idle machines, up to its budget, there are no more serving ones than are above the
minimum and than faulty ones are checked. -/
theorem refresh_keeps_minimum_iff (settings : RetentionSettings) (now : Nat)
    (machines : List Machine) :
    (min settings.minimumMinions (machines.countP settings.serves) ≤
      (refreshed settings now machines).countP settings.serves) ↔
    ((spent settings now machines).countP settings.serves : Int) ≤
      max (machines.countP settings.serves - settings.minimumMinions) 0 +
        (machines.countP Machine.isFaulty - (spent settings now machines).countP Machine.isFaulty) := by
  have hcount : (refreshed settings now machines).countP settings.serves + _ + _ = _ :=
    countP_refreshed
  omega

/-- Where idle machines are deleted, of the machines that serve the minimum still does after a
refresh, or all of them: faulty machines that are checked do not count for one that is given
up. -/
theorem refresh_keeps_minimum_of_delete (h : settings.minionRetentionStrategy = .delete) :
    min settings.minimumMinions (machines.countP settings.serves) ≤
      settings.stillServing machines (refreshed settings now machines) := by
  have hcount := (countP_refreshMachines settings now (settings.surplus machines) machines).1
  have hspent : (settings.spentOn now (settings.surplus machines) machines).countP
      settings.serves ≤ (settings.surplus machines).toNat :=
    Nat.le_trans List.countP_le_length (List.length_take_le _ _)
  have hserves : settings.serves = fun m => decide (m.allocationStatus ∉ ignorableMachineStatuses) :=
    funext fun m => by simp [RetentionSettings.serves, h]
  have hsurplus : settings.surplus machines =
      machines.countP settings.serves - settings.minimumMinions := by
    rw [RetentionSettings.surplus, hserves, List.countP_eq_length_filter]
  change _ ≤ (settings.stillServing machines (refreshMachines settings now
    (settings.surplus machines) machines).1 : Int)
  omega

/-- One of two idle machines is deleted while a faulty one is checked. -/
theorem refresh_keeps_minimum_delete :
    let settings : RetentionSettings := ⟨1, 0, .delete⟩
    let machines := [loneMachine, { loneMachine with id := "m1" },
      { loneMachine with id := "m2", allocationStatus := .error }]
    min settings.minimumMinions (machines.countP settings.serves) ≤
      settings.stillServing machines (refreshed settings 10 machines) ∧
    (refreshed settings 10 machines).map Machine.allocationStatus =
      [.deallocating, .healthchecking, .healthchecking] :=
  ⟨refresh_keeps_minimum_of_delete rfl, rfl⟩

/-- A machine that is powered on is given up for one that is off already. -/
theorem refresh_powers_last_off :
    let settings : RetentionSettings := ⟨1, 0, .poweroff⟩
    let machines := [loneMachine, { loneMachine with id := "m1", powerStatus := .poweredOff }]
    machines.countP settings.serves = 1 ∧
      (refreshed settings 10 machines).countP settings.serves = 0 := by
  decide

/-- A flow checks a machine, to deploy it again if need be, or deletes it. -/
def Served (flow : List Job) (id : String) : Prop :=
  ∃ job ∈ flow, job.machineId = id ∧
    (job.stage = .deallocate ∨ job.stage = .healthcheck ∧ job.recreate = true)

lemma served_append {id : String} :
    Served (flow ++ flow') id ↔ Served flow id ∨ Served flow' id := by
  simp [Served, or_and_right, exists_or]

lemma jobs_refreshMachines_append (before after : List Machine) :
    (refreshMachines settings now budget (before ++ after)).2 =
      (refreshMachines settings now budget before).2 ++ (refreshMachines settings now
        (budget - (settings.spentOn now budget before).length) after).2 := by
  induction before generalizing budget with
  | nil => simp [refreshMachines, RetentionSettings.spentOn]
  | cons m before ih =>
    simp only [List.cons_append, refreshMachines, ih, List.append_assoc, spentOn_cons]
    by_cases h : settings.idle now m = true ∧ budget > 0
    · have hlength : budget - 1 - ((settings.spentOn now (budget - 1) before).length : Int) =
          budget - (m :: settings.spentOn now (budget - 1) before).length := by
        rw [List.length_cons]
        omega
      rw [(refreshMachine_spent h.1 h.2).1, if_pos h, hlength]
    · rw [(refreshMachine_kept h).1, if_neg h]

/-- Whether a refresh comes to an expired machine with some of its budget left. -/
def RetentionSettings.reaches (settings : RetentionSettings) (now : Nat) (machines : List Machine)
    (m : Machine) : Bool :=
  m.isExpired settings now && decide (((settings.spentOn now (settings.surplus machines)
    (machines.takeWhile fun m' => m'.id ≠ m.id)).length : Int) < settings.surplus machines)

lemma takeWhile_id_ne {before after : List Machine}
    (hids : ((before ++ m :: after).map Machine.id).Nodup) :
    (before ++ m :: after).takeWhile (fun m' => decide (m'.id ≠ m.id)) = before := by
  rw [List.map_append, List.map_cons, List.nodup_middle, List.nodup_cons, List.mem_append,
    not_or] at hids
  have hne : ∀ m' ∈ before, decide (m'.id ≠ m.id) = true := fun m' hm' =>
    decide_eq_true fun heq => hids.1.1 (heq ▸ List.mem_map_of_mem hm')
  rw [List.takeWhile_append_of_pos hne, List.takeWhile_cons_of_neg (by simp), List.append_nil]

/-- A refresh checks or deletes a machine in an error if the machine is powered on; if it has
expired and some of the budget is left, only if idle machines are deleted. -/
lemma served_refresh_iff (settings : RetentionSettings) (now : Nat)
    (hids : (machines.map Machine.id).Nodup) (hm : m ∈ machines)
    (herror : m.allocationStatus ∈ machineErrorStatuses) :
    Served (getMinionPoolRefreshFlow settings now machines).2 m.id ↔
      if settings.reaches now machines m then settings.minionRetentionStrategy = .delete
      else m.powerStatus = .poweredOn := by
  obtain ⟨before, after, rfl⟩ := List.append_of_mem hm
  rw [RetentionSettings.reaches, takeWhile_id_ne hids]
  have hnot : ∀ machines budget, m.id ∉ machines.map Machine.id →
      ¬ Served (refreshMachines settings now budget machines).2 m.id :=
    fun machines budget hid ⟨job, hjob, heq, _⟩ =>
      hid (heq ▸ (refreshMachines_shrinks settings now budget machines).2 job hjob)
  rw [List.map_append, List.map_cons, List.nodup_middle, List.nodup_cons, List.mem_append,
    not_or] at hids
  rw [getMinionPoolRefreshFlow, ← RetentionSettings.surplus, jobs_refreshMachines_append,
    refreshMachines, served_append, or_iff_right (hnot _ _ hids.1.1), served_append,
    or_iff_left (hnot _ _ hids.1.2)]
  generalize settings.surplus (before ++ m :: after) = surplus
  have hserviceable : m.allocationStatus ∈ healthcheckableMachineStatuses :=
    List.mem_cons_of_mem _ herror
  rw [refreshMachine, if_neg (not_not.mpr hserviceable)]
  simp only [Bool.and_eq_true, decide_eq_true_eq]
  by_cases h : m.isExpired settings now = true ∧
      ((settings.spentOn now surplus before).length : Int) < surplus
  · rw [if_pos h, if_pos ⟨by omega, h.1⟩]
    cases settings.minionRetentionStrategy with
    | delete => simp [Served]
    | poweroff =>
      simp only
      split <;> simp [Served]
  · rw [if_neg h, if_neg fun h' => h ⟨h'.2, by omega⟩]
    by_cases hon : m.powerStatus = .poweredOn <;> simp [Served, hon]

section

variable {pool : Pool} {s s' : PoolRun} {e : PoolEvent} {events : List PoolEvent} {id : String}

/-- The steps of flows that were started. -/
def PoolEvent.isTask : PoolEvent → Bool
  | .work .. | .revert .. => true
  | _ => false

/-- The steps of a pool that no action uses. -/
def PoolEvent.isUnattended : PoolEvent → Bool
  | .refresh .. => true
  | e => e.isTask

lemma RowsOf.unattended (h : RowsOf pool.id s.machines) (he : e.isUnattended)
    (hstep : s.step pool e = some s') : RowsOf pool.id s'.machines := by
  cases e <;> simp only [PoolEvent.isUnattended, PoolEvent.isTask, Bool.false_eq_true] at he
  case refresh settings now =>
    obtain rfl := Option.some.inj hstep
    exact (refreshMachines_shrinks settings now _ s.machines).1.rowsOf h
  case work k j sur =>
    obtain ⟨flow, job, -, -, -, rfl⟩ := PoolRun.step_work hstep
    have hrows := (job.work_rows sur h).1
    unfold PoolRun.work
    dsimp only
    split <;> exact hrows
  case revert k j =>
    obtain ⟨flow, job, -, -, -, rfl⟩ := PoolRun.step_revert hstep
    exact (job.revert_shrinks _).rowsOf h

lemma RowsOf.unattended_steps (h : RowsOf pool.id s.machines)
    (hevents : ∀ e ∈ events, e.isUnattended) (hsteps : s.steps pool events = some s') :
    RowsOf pool.id s'.machines :=
  PoolRun.steps_invariant (P := fun s => RowsOf pool.id s.machines)
    (fun e he _ _ hstep h => h.unattended (hevents e he) hstep) hsteps h

/-- A job neither works on its machine any more nor has anything to revert. -/
def Job.isOver (job : Job) : Bool := job.stage = .done && !job.begun

/-- A flow does nothing more about a machine: it is through, or the jobs for the machine are
over. -/
def FlowRun.Leaves (flow : FlowRun) (id : String) : Prop :=
  flow.reverting = false ∧ (∀ job ∈ flow.jobs, job.stage = .done) ∨
    ∀ job ∈ flow.jobs, job.machineId = id → job.isOver

instance FlowRun.decidableLeaves (flow : FlowRun) (id : String) : Decidable (flow.Leaves id) :=
  inferInstanceAs (Decidable (_ ∨ _))

lemma Job.work_of_done {job : Job} (h : job.stage = .done) :
    job.work poolId sur machines = (machines, some .done) := by
  unfold work workOn
  rw [h]

lemma Job.work_other {job : Job} (hid : m.id ≠ job.machineId) :
    m ∈ (job.work poolId sur machines).1 ↔ m ∈ machines := by
  rcases job.work_cases poolId sur machines with heq | ⟨f, hf, heq⟩ | heq | ⟨-, -, heq⟩
  · rw [heq]
  · rw [heq, updateRow, List.mem_map]
    refine ⟨?_, fun hm => ⟨m, hm, if_neg hid⟩⟩
    rintro ⟨m', hm', rfl⟩
    split at hid
    · next heq => exact absurd ((hf m').1.trans heq) hid
    · next hne => rwa [if_neg hne]
  · simp [heq, hid]
  · have hne : m ≠ job.newRow poolId := fun heq => hid (heq ▸ rfl)
    simp [heq, hne]

lemma Job.revert_other {job : Job} (h : m.id = job.machineId → job.begun = false) :
    m ∈ job.revert machines ↔ m ∈ machines := by
  unfold revert
  split
  · next hbegun =>
    have hne : m.id ≠ job.machineId := fun heq => by simp [h heq] at hbegun
    simp [hne]
  · exact .rfl

lemma FlowRun.Leaves.set_job {flow : FlowRun} {job : Job} (h : flow.Leaves id)
    (hjob : flow.jobs[j]? = some job) (stage : Stage) (begun reverting : Bool)
    (hdone : job.stage = .done → stage = .done ∧ begun = job.begun ∧ reverting = flow.reverting) :
    FlowRun.Leaves ⟨flow.jobs.set j { job with stage, begun }, reverting⟩ id := by
  have hmem := List.mem_of_getElem? hjob
  rcases h with ⟨hreverting, hall⟩ | hover
  · obtain ⟨rfl, -, rfl⟩ := hdone (hall job hmem)
    refine .inl ⟨hreverting, fun job' hjob' => ?_⟩
    rcases List.mem_or_eq_of_mem_set hjob' with hjob' | rfl
    · exact hall job' hjob'
    · rfl
  · refine .inr fun job' hjob' hid => ?_
    rcases List.mem_or_eq_of_mem_set hjob' with hjob' | rfl
    · exact hover job' hjob' hid
    · have hover := hover job hmem hid
      rw [Job.isOver, Bool.and_eq_true, decide_eq_true_eq] at hover
      obtain ⟨rfl, rfl, -⟩ := hdone hover.1
      simp [Job.isOver, hover.2]

/-- A step of a flow leaves the row of a machine as it is if no flow does anything more about
it. -/
lemma PoolRun.task_other (h : ∀ flow ∈ s.flows, flow.Leaves m.id) (he : e.isTask)
    (hstep : s.step pool e = some s') :
    (m ∈ s'.machines ↔ m ∈ s.machines) ∧ ∀ flow ∈ s'.flows, flow.Leaves m.id := by
  have hset : ∀ {k flow'}, flow'.Leaves m.id →
      ∀ other ∈ s.flows.set k flow', other.Leaves m.id := by
    intro k flow' hleaves other hother
    rcases List.mem_or_eq_of_mem_set hother with hother | rfl
    · exact h other hother
    · exact hleaves
  cases e <;> simp only [PoolEvent.isTask, Bool.false_eq_true] at he
  case work k j sur =>
    obtain ⟨flow, job, hflow, hjob, -, rfl⟩ := PoolRun.step_work hstep
    have hleaves := h flow (List.mem_of_getElem? hflow)
    have hrow : m ∈ (job.work pool.id sur s.machines).1 ↔ m ∈ s.machines := by
      by_cases hdone : job.stage = .done
      · rw [Job.work_of_done hdone]
      · refine Job.work_other fun hid => ?_
        rcases hleaves with ⟨-, hall⟩ | hover
        · exact hdone (hall job (List.mem_of_getElem? hjob))
        · have hover := hover job (List.mem_of_getElem? hjob) hid.symm
          simp [Job.isOver, hdone] at hover
    unfold PoolRun.work
    dsimp only
    split
    · next stage hstage =>
      refine ⟨hrow, hset (hleaves.set_job hjob stage _ flow.reverting fun hdone => ?_)⟩
      rw [Job.work_of_done hdone, Option.some.injEq] at hstage
      simp [← hstage, hdone]
    · next hstage =>
      refine ⟨hrow, hset (hleaves.set_job hjob .done _ true fun hdone => ?_)⟩
      simp [Job.work_of_done hdone] at hstage
  case revert k j =>
    obtain ⟨flow, job, hflow, hjob, hreverting, rfl⟩ := PoolRun.step_revert hstep
    rcases h flow (List.mem_of_getElem? hflow) with ⟨hnot, -⟩ | hover
    · rw [hreverting] at hnot
      cases hnot
    · refine ⟨Job.revert_other fun hid => ?_, hset (.inr fun job' hjob' =>
        hover job' ((List.eraseIdx_sublist _ _).subset hjob'))⟩
      have hover := hover job (List.mem_of_getElem? hjob) hid.symm
      simp only [Job.isOver, Bool.and_eq_true, Bool.not_eq_true'] at hover
      exact hover.2

lemma PoolRun.tasks_other (h : ∀ flow ∈ s.flows, flow.Leaves m.id)
    (hevents : ∀ e ∈ events, e.isTask) (hsteps : s.steps pool events = some s') :
    m ∈ s'.machines ↔ m ∈ s.machines := by
  refine (steps_invariant (P := fun s₁ => (∀ flow ∈ s₁.flows, flow.Leaves m.id) ∧
    (m ∈ s₁.machines ↔ m ∈ s.machines)) (fun e he s₁ s₂ hstep h => ?_) hsteps ⟨h, .rfl⟩).2
  obtain ⟨hrow, hleaves⟩ := task_other h.1 (hevents e he) hstep
  exact ⟨hleaves, hrow.trans h.2⟩

/-- In a run of a pool that no action uses, a machine is in an error and no flow does anything
more about it. Whatever the other jobs do until then, the next refresh checks or deletes it exactly
if it is powered on; if it has expired and some of the budget is left, exactly if idle machines
are deleted. -/
theorem served_by_next_refresh_iff (machines : List Machine) (events tasks : List PoolEvent)
    (settings : RetentionSettings) (now : Nat) (hrows : RowsOf pool.id machines)
    (hevents : ∀ e ∈ events, e.isUnattended)
    (hsteps : PoolRun.steps pool ⟨machines, [], [], []⟩ events = some s)
    (hm : m ∈ s.machines) (herror : m.allocationStatus ∈ machineErrorStatuses)
    (hleft : ∀ flow ∈ s.flows, flow.Leaves m.id)
    (htasks : ∀ e ∈ tasks, e.isTask) (hnext : s.steps pool tasks = some s') :
    Served (getMinionPoolRefreshFlow settings now s'.machines).2 m.id ↔
      if settings.reaches now s'.machines m then settings.minionRetentionStrategy = .delete
      else m.powerStatus = .poweredOn := by
  have hrows' : RowsOf pool.id s'.machines :=
    (hrows.unattended_steps hevents hsteps).unattended_steps (fun e he => by
      have htask := htasks e he
      cases e <;> simp_all [PoolEvent.isTask, PoolEvent.isUnattended]) hnext
  exact served_refresh_iff settings now hrows'.nodup
    ((PoolRun.tasks_other hleft htasks hnext).mpr hm) herror

/-- One machine is left in an error by the worker that was to power it off, and another one is
still checked. Once idle machines are to be deleted, the next refresh deletes the first one. -/
theorem served_after_power_error :
    let left := { loneMachine with allocationStatus := .powerError, powerStatus := .poweringOff }
    ∃ s s', PoolRun.steps lonePool
        ⟨[loneMachine, { loneMachine with id := "m1", lastUsedAt := some 8 }], [], [], []⟩
        [.refresh ⟨1, 5, .poweroff⟩ 10, .work 0 0 ⟨true, 11, ""⟩, .work 0 0 ⟨false, 12, ""⟩] = some s ∧
      left ∈ s.machines ∧
      s.steps lonePool [.work 0 1 ⟨true, 13, ""⟩, .work 0 1 ⟨true, 14, ""⟩] = some s' ∧
      Served (getMinionPoolRefreshFlow ⟨0, 5, .delete⟩ 12 s'.machines).2 "m0" := by
  refine ⟨_, _, rfl, by decide, rfl, ?_⟩
  exact (served_by_next_refresh_iff
    [loneMachine, { loneMachine with id := "m1", lastUsedAt := some 8 }]
    [.refresh ⟨1, 5, .poweroff⟩ 10, .work 0 0 ⟨true, 11, ""⟩, .work 0 0 ⟨false, 12, ""⟩]
    [.work 0 1 ⟨true, 13, ""⟩, .work 0 1 ⟨true, 14, ""⟩] ⟨0, 5, .delete⟩ 12
    ⟨by decide, by decide⟩ (by simp [PoolEvent.isUnattended, PoolEvent.isTask]) rfl
    (show { loneMachine with allocationStatus := .powerError, powerStatus := .poweringOff } ∈ _
      by decide) (by decide) (by decide) (by simp [PoolEvent.isTask]) rfl).mpr (by decide)

end

/-- An idle machine is to be powered off, and the worker fails. It is left in an error and powering
off, and no later refresh does anything about it. -/
theorem power_error_abandoned :
    let settings : RetentionSettings := ⟨0, 0, .poweroff⟩
    let left := { loneMachine with allocationStatus := .powerError, powerStatus := .poweringOff }
    (∃ s, PoolRun.steps lonePool ⟨[loneMachine], [], [], []⟩
      [.refresh settings 10, .work 0 0 ⟨true, 11, ""⟩, .work 0 0 ⟨false, 12, ""⟩] = some s ∧
      s.machines = [left]) ∧
    ∀ now, getMinionPoolRefreshFlow settings now [left] = ([left], []) :=
  ⟨⟨_, rfl, rfl⟩, fun _ => rfl⟩

end Coriolis.Minions

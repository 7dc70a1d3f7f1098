import Coriolis.Conductor.Accesses
import Coriolis.Conductor.LastStatus

/-!
# Finalizing an execution

When an execution is over, the conductor has the licensing server mark the reservation of the
transfer and the minion manager free the machines, and stores the status of the execution
last. If one of these calls raises, so does the handler: all tasks are over then, and the
execution goes on as if they were not. As long as none raises, an execution of which all tasks are
over is over itself.
-/

namespace Coriolis.Conductor

open Sharing (Prog)

namespace Accesses

section

variable (e : Execution) (conf : Conf) (env : Env)

/-- `task_completed` up to the advancement of the execution, which it goes on with unless the
report is dropped. -/
def storeCompletion (task : Task) (taskResult : TaskInfo) (db : World) : Outcome (Option World) :=
  let row := db.rows task.id
  let db := db.emit (.taskCompleted task.id)
  match completionStatus row with
  | none => (.ok none, db)
  | some (status, details) =>
    match storeTaskResult task taskResult (db.setTaskStatus task.id status details) with
    | (.error err, db) => (.error err, db)
    | (.ok updatedTaskInfo, execution) =>
      match handlePostTaskActions e conf task execution updatedTaskInfo execution with
      | (.error err, db) => (.error err, db)
      | (.ok _, db) => (.ok (some execution), db)

/-- `_advance_execution_state` as the end of a handler. -/
def advanced (execution : World) (inst : Option String) : Prog World (Result Unit) :=
  (advance e env (stackDepth e) execution false inst).orRaise fun _ => pure (.ok ())

/-- `task_completed`. -/
def taskCompleted (task : Task) (taskResult : TaskInfo) : Prog World (Result Unit) :=
  (Prog.atomic (storeCompletion e conf task taskResult)).orRaise fun
    | none => pure (.ok ())
    | some execution => advanced e env execution (some task.inst)

/-- The branch of `set_task_error` for debugging. -/
def cancelForDebugging (task : Task) (finalStatus : TaskStatus) (details : String)
    (execution : World) : Prog World (Result Unit) :=
  (Prog.atomic (cancelExecutionForOsmorphingDebugging execution e.tasks)).orRaise fun _ => do
    setTaskStatus task.id finalStatus (some <|
      s!"An error has occured during OSMorphing. Cleanup will not be performed for debugging " ++
        s!"reasons. Please review the Conductor logs for the debug connection info. Original " ++
        s!"error was: {details}")
    setTasksExecutionStatus execution.status .canceledForDebugging
    pure (.ok ())

/-- `set_task_error`. -/
def setTaskError (task : Task) (exceptionDetails : String) : Prog World (Result Unit) := do
  let new ← Prog.atomic fun db =>
    let new := errorStatus task (db.rows task.id) exceptionDetails
    (new, (db.emit (.taskErrored task.id)).setTaskStatus task.id new.1 (some new.2))
  let execution ← Prog.read
  if task.taskType = .osMorphing ∧ conf.debugOsMorphingErrors ∧
      (e.tasks.filter fun t =>
        (execution.st t.id).isActive && t.taskType != .osMorphing).isEmpty then
    cancelForDebugging e task new.1 new.2 execution
  else cancelTasksExecution e env execution true false

/-- `confirm_task_cancellation`. -/
def confirmTaskCancellation (task : Task) (cancellationDetails : String) :
    Prog World (Result Unit) := do
  let unchanged ← Prog.atomic fun db =>
    let new := cancellationStatus (db.rows task.id) cancellationDetails
    (decide (new.1 = db.st task.id),
      (db.emit (.taskCancelled task.id)).setTaskStatus task.id new.1 (some new.2))
  if unchanged then pure (.ok ())
  else
    let execution ← Prog.read
    advanced e env execution none

/-- `cancel_deployment`. -/
def cancelDeployment (force : Bool) : Prog World (Result Unit) := do
  let execution ← Prog.read
  if !execution.status.isActive then
    pure (.error
      (.invalidDeploymentState s!"Deployment '{e.actionId}' is not currently running"))
  else if execution.status = .cancelling ∧ !force then
    pure (.error (.invalidDeploymentState <|
      "Deployment '%s' is already being cancelled. Please use the force option if you'd like to " ++
        "force-cancel it."))
  else cancelTasksExecution e env execution true force

/-- `confirm_transfer_minions_allocation` and its twin for deployments. -/
def confirmMinionsAllocation (allocations : List (String × MinionAllocation)) :
    Prog World (Result Unit) := do
  let db ← Prog.read
  if db.lastExecutionStatus ≠ .awaitingMinionAllocations then
    pure (.error (notAwaitingMinions e "allocated" db))
  else
    (Prog.atomic (updateTaskInfoForMinionAllocations e allocations)).orRaise fun _ => do
      let execution ← Prog.read
      beginTasks e env execution

/-- `report_transfer_minions_allocation_error` and its twin for deployments. -/
def reportMinionsAllocationError : Prog World (Result Unit) := do
  let execution ← Prog.read
  if execution.lastExecutionStatus ≠ .awaitingMinionAllocations then
    pure (.error (notAwaitingMinions e "allocations fail" execution))
  else
    (cancelTasksExecution e env execution true false).orRaise fun _ => do
      setTasksExecutionStatus execution.status .errorAllocatingMinions
      pure (.ok ())

def handler : Call → Prog World (Result Unit)
  | .setTaskHost task host => Prog.atomic (setTaskHost task host)
  | .setTaskProcess task processId => Prog.atomic (setTaskProcess task processId)
  | .taskCompleted task taskResult => taskCompleted e conf env task taskResult
  | .setTaskError task details => setTaskError e conf env task details
  | .confirmTaskCancellation task details => confirmTaskCancellation e env task details
  | .cancel force =>
    if e.type = .deployment then cancelDeployment e env force
    else cancelTransferTasksExecution e env force
  | .confirmMinionsAllocation allocations => confirmMinionsAllocation e env allocations
  | .reportMinionsAllocationError => reportMinionsAllocationError e env

end

section

variable {w : World}

lemma run_advanced (x : World) (inst : Option String) :
    (advanced e env x inst).run w =
      ((advanceExecutionState e env x false inst w).1.map fun _ => (),
        (advanceExecutionState e env x false inst w).2) := by
  rw [advanced, Prog.run_orRaise, run_advance, advanceExecutionState]
  rcases Conductor.advance e env (stackDepth e) x false inst w with ⟨err | a, w'⟩ <;> rfl

lemma run_taskCompleted (task : Task) (taskResult : TaskInfo) :
    (taskCompleted e conf env task taskResult).run w =
      Conductor.taskCompleted e conf env task taskResult w := by
  rw [taskCompleted, Prog.run_orRaise, Prog.run_atomic, Conductor.taskCompleted, storeCompletion]
  dsimp only
  rcases completionStatus (w.rows task.id) with _ | ⟨status, details⟩
  · rfl
  · dsimp only
    rcases storeTaskResult task taskResult ((w.emit (.taskCompleted task.id)).setTaskStatus task.id
      status details) with ⟨err | info, w₁⟩
    · rfl
    · dsimp only
      rcases handlePostTaskActions e conf task w₁ info w₁ with ⟨err | u, w₂⟩
      · rfl
      · exact run_advanced ..

lemma run_setTaskError (task : Task) (details : String) :
    (setTaskError e conf env task details).run w =
      Conductor.setTaskError e conf env task details w := by
  simp only [setTaskError, Prog.run_bind, Prog.run_atomic, Prog.run_read, Prog.run_ite,
    Conductor.setTaskError, handleTaskError, run_cancelTasksExecution]
  generalize (w.emit (.taskErrored task.id)).setTaskStatus task.id
    (errorStatus task (w.rows task.id) details).1
    (some (errorStatus task (w.rows task.id) details).2) = x
  by_cases hdebug : task.taskType = .osMorphing ∧ conf.debugOsMorphingErrors = true
  · rw [if_pos hdebug]
    by_cases hrunning : (e.tasks.filter fun t =>
        (x.st t.id).isActive && t.taskType != .osMorphing).isEmpty = true
    · rw [if_pos ⟨hdebug.1, hdebug.2, hrunning⟩, if_pos hrunning, cancelForDebugging,
        Prog.run_orRaise, Prog.run_atomic]
      rcases cancelExecutionForOsmorphingDebugging x e.tasks x with ⟨err | u, x'⟩
      · rfl
      · simp only [Prog.run_bind, run_setTaskStatus, run_setTasksExecutionStatus, Prog.run_pure]
    · rw [if_neg fun h => hrunning h.2.2, if_neg hrunning]
  · rw [if_neg fun h => hdebug ⟨h.1, h.2.1⟩, if_neg hdebug]

lemma run_confirmTaskCancellation (task : Task) (details : String) :
    (confirmTaskCancellation e env task details).run w =
      Conductor.confirmTaskCancellation e env task details w := by
  simp only [confirmTaskCancellation, Prog.run_bind, Prog.run_atomic, Prog.run_read, Prog.run_ite,
    Prog.run_pure, run_advanced, decide_eq_true_eq, Conductor.confirmTaskCancellation]

lemma run_cancelDeployment (force : Bool) :
    (cancelDeployment e env force).run w = Conductor.cancelDeployment e env force w := by
  simp only [cancelDeployment, Conductor.cancelDeployment, cancelRunning, Prog.run_bind,
    Prog.run_read, Prog.run_ite, Prog.run_pure, run_cancelTasksExecution]

lemma run_confirmMinionsAllocation (allocations : List (String × MinionAllocation)) :
    (confirmMinionsAllocation e env allocations).run w =
      Conductor.confirmMinionsAllocation e env allocations w := by
  simp only [confirmMinionsAllocation, Conductor.confirmMinionsAllocation, Prog.run_bind,
    Prog.run_read, Prog.run_ite, Prog.run_pure, Prog.run_orRaise, Prog.run_atomic]
  split
  · rfl
  · rcases updateTaskInfoForMinionAllocations e allocations w with ⟨err | u, w'⟩
    · rfl
    · simp only [run_beginTasks]

lemma run_reportMinionsAllocationError :
    (reportMinionsAllocationError e env).run w =
      Conductor.reportMinionsAllocationError e env w := by
  simp only [reportMinionsAllocationError, Conductor.reportMinionsAllocationError, Prog.run_bind,
    Prog.run_read, Prog.run_ite, Prog.run_pure, Prog.run_orRaise, run_cancelTasksExecution,
    run_setTasksExecutionStatus]
  split
  · rfl
  · rcases Conductor.cancelTasksExecution e env w true false w with ⟨err | u, w'⟩ <;> rfl

lemma run_handler (c : Call) : (handler e conf env c).run w = step e conf env c w := by
  cases c with
  | setTaskHost task host | setTaskProcess task processId => exact Prog.run_atomic _
  | taskCompleted task taskResult => exact run_taskCompleted ..
  | setTaskError task details => exact run_setTaskError ..
  | confirmTaskCancellation task details => exact run_confirmTaskCancellation ..
  | cancel force =>
    simp only [handler, step, Prog.run_ite, run_cancelDeployment, run_cancelTransferTasksExecution]
    split <;> rfl
  | confirmMinionsAllocation allocations => exact run_confirmMinionsAllocation ..
  | reportMinionsAllocationError => exact run_reportMinionsAllocationError

end

end Accesses

variable {r : Request} {before : String → Option TaskInfo} {e : Execution} {conf : Conf}
  {raising : Prop} {w w' : World}

/-- The calls of `_set_tasks_execution_status` to other services. -/
def Effect.finalizes : Effect → Bool
  | .updateReservationFulfillment | .deallocateMinionMachinesForAction => true
  | _ => false

def Effect.toLicensing : Effect → Bool
  | .updateReservationFulfillment => true
  | _ => false

/-- An access is one of the calls that finalize an execution, and it is one of those that fail. -/
def raisedBy (fails : Effect → Bool) (w w' : World) : Bool :=
  w'.trace.length = w.trace.length + 1 &&
    w'.trace.head?.any fun ev => ev.effect.finalizes && fails ev.effect

/-- The states of an execution between two handler calls. Calls that finalize it may fail, if
`raising` says so. -/
inductive Reaches (r : Request) (before : String → Option TaskInfo) (e : Execution) (conf : Conf)
    (raising : Prop) : World → Prop
  | begun {w : World} {env : Env} {fails : Effect → Bool} (hb : Built r before e w)
      (hr : r.awaitsMinions = false)
      (hraising : raising ∨
        ((Accesses.beginTasks e env w).runRaising (raisedBy fails) w).1.isSome = true) :
      Reaches r before e conf raising
        ((Accesses.beginTasks e env w).runRaising (raisedBy fails) w).2
  | awaiting {w : World} (hb : Built r before e w) (hr : r.awaitsMinions = true) :
      Reaches r before e conf raising w
  | call {w : World} {env : Env} {fails : Effect → Bool} {c : Call}
      (hw : Reaches r before e conf raising w)
      (hc : ∀ report ∈ c.report?, report.task ∈ e.tasks ∧ castOnly w report)
      (hraising : raising ∨
        ((Accesses.handler e conf env c).runRaising (raisedBy fails) w).1.isSome = true) :
      Reaches r before e conf raising
        ((Accesses.handler e conf env c).runRaising (raisedBy fails) w).2

lemma runRaising_world {p : Prog World α} (h : (p.runRaising raises w).1.isSome = true) :
    (p.runRaising raises w).2 = (p.run w).2 := by
  obtain ⟨a, ha⟩ := Option.isSome_iff_exists.mp h
  rw [Prog.run_of_runRaising (Prod.ext ha rfl : p.runRaising raises w = (some a, _))]

lemma Reaches.launched (h : Reaches r before e conf False w) :
    ∃ w₀, Launched r before e w₀ ∧ Run e conf castOnly w₀ w := by
  induction h with
  | @begun w env fails hb hr hraising =>
    refine ⟨_, @Launched.begun _ _ _ _ env hb hr, ?_⟩
    rw [runRaising_world (hraising.resolve_left id), Accesses.run_beginTasks]
  | awaiting hb hr => exact ⟨_, .awaiting hb hr, .refl⟩
  | @call w env fails c _ hc hraising ih =>
    obtain ⟨w₀, hlaunched, hrun⟩ := ih
    refine ⟨w₀, hlaunched, hrun.tail ⟨env, c, hc, ?_⟩⟩
    rw [runRaising_world (hraising.resolve_left id), Accesses.run_handler]

/-- An execution that has begun or waits for its minions has its status in common with its
action. -/
lemma Launched.status (h : Launched r before e w) (hne : e.instances ≠ []) :
    w.status ≠ .unexecuted ∧ w.status ≠ .pending ∧ w.lastExecutionStatus = w.status := by
  cases h with
  | @begun w env hb hr =>
    obtain ⟨hstatus, hlast⟩ := hb.beginTasks_status env hr hne
    rcases hstatus with hs | hs <;> simp [hs, hlast]
  | awaiting hb hr =>
    rcases hb.status with ⟨hno, -⟩ | ⟨-, hs, hl, -⟩
    · simp [hr] at hno
    · simp [hs, hl]

lemma Launched.run_changes (h : Launched r before e w) (hrun : Run e conf castOnly w w') :
    Changes e conf True reported w w' ∧ Steady e w' := by
  obtain ⟨w₀, hb, -, hsteady⟩ := h.start conf
  induction hrun with
  | refl => exact ⟨.refl, hsteady⟩
  | tail _ hstep ih =>
    obtain ⟨hchanges, hsteady⟩ := ih
    obtain ⟨hlast, hsteady'⟩ := hsteady.step hb.wellFormed hstep
    exact ⟨hchanges.trans hlast, hsteady'⟩

lemma Steady.exists_not_over (h : Steady e w) (hactive : w.status.isActive = true)
    (htasks : e.tasks ≠ []) : ∃ t ∈ e.tasks, (w.st t.id).isFinalized = false := by
  by_cases hawaiting : w.status = .awaitingMinionAllocations
  · obtain ⟨t, ht⟩ := List.exists_mem_of_ne_nil _ htasks
    refine ⟨t, ht, ?_⟩
    rcases (h.awaiting hawaiting).statuses t ht with hs | ⟨hs, -⟩ <;> rw [hs] <;> rfl
  · have hrunning : w.status = .running ∨ w.status = .cancelling := by
      revert hactive hawaiting
      cases w.status <;> simp [ExecutionStatus.isActive, ExecutionStatus.activeExecutionStatuses]
    obtain ⟨t, ht, hact⟩ := (h.running hrunning).2
    exact ⟨t, ht, TaskStatus.isActive_not_isFinalized hact⟩

/-- In a state that is reached without a failure of a call that finalizes the execution, the
execution is over if all of its tasks are. -/
theorem over_of_tasks_over (r : Request) (before : String → Option TaskInfo) (e : Execution)
    (conf : Conf) (w : World) (h : Reaches r before e conf False w) (hne : e.instances ≠ [])
    (hover : ∀ t ∈ e.tasks, (w.st t.id).isFinalized = true) :
    w.status.isFinalized = true ∧ w.lastExecutionStatus = w.status := by
  obtain ⟨w₀, hlaunched, hrun⟩ := h.launched
  obtain ⟨hchanges, hsteady⟩ := hlaunched.run_changes hrun
  obtain ⟨hunexecuted, hpending, hlast⟩ := hlaunched.status hne
  have hunexecuted' : w.status ≠ .unexecuted :=
    hchanges.invariant (fun _ _ hc => hc.status_ne (.inl rfl)) hunexecuted
  have hshared : w.status ≠ .pending ∧ w.lastExecutionStatus = w.status := by
    rcases hchanges.lastExecutionStatus with ⟨hs, hl⟩ | ⟨hl, -, hp⟩
    · rw [hs, hl]
      exact ⟨hpending, hlast⟩
    · exact ⟨hp, hl⟩
  have hinactive : w.status.isActive = false := by
    by_contra hactive
    obtain ⟨w₁, hb, -⟩ := hlaunched.start conf
    obtain ⟨t₀, ht₀⟩ := hb.exists_task hne
    obtain ⟨t, ht, hno⟩ := hsteady.exists_not_over (by simpa using hactive)
      (List.ne_nil_of_mem ht₀)
    simp [hover t ht] at hno
  refine ⟨?_, hshared.2⟩
  revert hinactive hunexecuted' hshared
  cases w.status <;> simp [ExecutionStatus.isActive, ExecutionStatus.activeExecutionStatuses,
    ExecutionStatus.isFinalized, ExecutionStatus.finalizedExecutionStatuses]

/-- Handler calls during which some of the calls that finalize the execution fail. -/
def runRaisingCalls (e : Execution) (conf : Conf) (fails : Effect → Bool)
    (calls : List (Env × Call)) (w : World) : World :=
  calls.foldl (fun w p => ((Accesses.handler e conf p.1 p.2).runRaising (raisedBy fails) w).2) w

def castRaisingCalls (e : Execution) (conf : Conf) (fails : Effect → Bool) :
    List (Env × Call) → World → Bool
  | [], _ => true
  | p :: calls, w =>
    (p.2.report?.all fun r => e.tasks.contains r.task && w.wasCast r.task.id) &&
      castRaisingCalls e conf fails calls
        ((Accesses.handler e conf p.1 p.2).runRaising (raisedBy fails) w).2

lemma raisedBy_of_not_fails {fails : Effect → Bool} (h : ∀ eff, fails eff = false)
    (w w' : World) : raisedBy fails w w' = false := by
  unfold raisedBy
  cases w'.trace <;> simp [h]

lemma Reaches.calls {fails : Effect → Bool} {calls : List (Env × Call)}
    (hfails : raising ∨ ∀ eff, fails eff = false) (h : Reaches r before e conf raising w)
    (hcast : castRaisingCalls e conf fails calls w = true) :
    Reaches r before e conf raising (runRaisingCalls e conf fails calls w) := by
  induction calls generalizing w with
  | nil => exact h
  | cons p calls ih =>
    simp only [castRaisingCalls, Bool.and_eq_true] at hcast
    refine ih (.call h (fun report hreport => ?_) (hfails.imp_right fun hno => ?_)) hcast.2
    · have hreported := (Option.all_eq_true _ _).mp hcast.1 report hreport
      simp only [Bool.and_eq_true, List.contains_iff_mem, wasCast_iff] at hreported
      exact hreported
    · exact Prog.runRaising_isSome (raisedBy_of_not_fails hno) _

def completesTransfer : List (Env × Call) :=
  transfer.tasks.flatMap fun t => completes transfer t.id

def transferBeginning (fails : Effect → Bool) : World :=
  ((Accesses.beginTasks transfer responsive transferStored).runRaising (raisedBy fails)
    transferStored).2

/-- The licensing server cannot be reached when the last task of a transfer is completed. All
tasks are over, and the execution is RUNNING. -/
theorem running_after_licensing_failure :
    ∃ w, Reaches (.executeTransferTasks false false false) (fun _ => none) transfer plainConf True
        w ∧
      (∀ t ∈ transfer.tasks, (w.st t.id).isFinalized = true) ∧ w.status = .running := by
  refine ⟨runRaisingCalls transfer plainConf Effect.toLicensing completesTransfer
    (transferBeginning Effect.toLicensing),
    .calls (.inl trivial) (.begun built_transfer rfl (.inl trivial)) ?_, ?_, ?_⟩
  · decide
  · decide +kernel
  · decide +kernel

/-- The transfer if nothing fails. -/
theorem over_of_tasks_over_transfer :
    let w := runRaisingCalls transfer plainConf (fun _ => false) completesTransfer
      (transferBeginning fun _ => false)
    (∀ t ∈ transfer.tasks, (w.st t.id).isFinalized = true) ∧
      w.status.isFinalized = true ∧ w.lastExecutionStatus = w.status := by
  intro w
  have hover : ∀ t ∈ transfer.tasks, (w.st t.id).isFinalized = true := by decide +kernel
  refine ⟨hover, over_of_tasks_over (.executeTransferTasks false false false) (fun _ => none)
    transfer plainConf w (.calls (.inr fun _ => rfl) (.begun built_transfer rfl (.inr ?_)) ?_)
    (by decide) hover⟩
  · exact Prog.runRaising_isSome (raisedBy_of_not_fails fun _ => rfl) _
  · decide

end Coriolis.Conductor

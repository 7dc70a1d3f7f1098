import Coriolis.Conductor.Lifecycle

/-!
# Handlers as sequences of small changes

`Change` lists once what can happen to an execution: a task is started or fails to start,
a task is unscheduled, the stored status is refreshed, a worker's report is taken, and so
on. The mutual recursion of advancement and cancellation is unrolled here: whatever a
handler does is a path of changes, so that an invariant of executions is checked against
this list and never against the recursive code.

The parameter `strong` turns on what holds for executions the conductor builds itself.
-/

namespace Coriolis.Conductor

/-- The task types that may come before the OSMorphing of an instance. -/
def precedesMorphing : TaskType → Bool
  | .validateDeploymentInputs | .validateOsmorphingMinionPoolCompatibility
  | .createTransferDiskSnapshots | .deployInstanceResources | .attachVolumesToOsmorphingMinion
  | .collectOsmorphingInfo | .deployOsMorphingResources => true
  | _ => false

/-- The shape of the dependencies of a built execution. -/
structure WellFormed (e : Execution) : Prop where
  parent : ∀ t ∈ e.tasks, ∀ d ∈ t.dependsOn,
    ∃ p ∈ e.tasks, p.id = d ∧ p.inst = t.inst ∧ p.index < t.index
  morphing : ∀ t ∈ e.tasks, precedesMorphing t.taskType = true ∨ t.taskType = .osMorphing →
    ∀ p ∈ e.tasks, p.id ∈ t.dependsOn → precedesMorphing p.taskType = true
  onErrorParents : ∀ t ∈ e.tasks, t.onError = true → t.dependsOn ≠ []

lemma task_eq_of_id {e : Execution} (ha : a ∈ e.tasks) (hb : b ∈ e.tasks) (h : a.id = b.id) :
    a = b :=
  List.inj_on_of_nodup_map e.nodup ha hb h

section

variable (e : Execution) (st : TaskId → TaskStatus)

def Released : Prop :=
  ∀ t ∈ e.tasks, st t.id = .scheduled → ∀ d ∈ t.dependsOn, st d ≠ .onErrorOnly

def waiting : Nat := e.tasks.countP fun t => (st t.id).isWaiting

variable {e st}

lemma exists_active_of_scheduled (wf : WellFormed e) (hrel : Released e st)
    (hset : ∀ t ∈ e.tasks, Settled st t) (ht : t ∈ e.tasks) (hs : st t.id = .scheduled) :
    ∃ p ∈ e.tasks, (st p.id).isActive = true := by
  induction h : t.index using Nat.strong_induction_on generalizing t with
  | _ n ih =>
    obtain ⟨d, hd, hfin⟩ := hset t ht hs
    obtain ⟨p, hp, rfl, -, hlt⟩ := wf.parent t ht d hd
    rcases TaskStatus.not_isFinalized hfin with hps | hps | hps
    · exact ih p.index (h ▸ hlt) hp hps rfl
    · exact absurd hps (hrel t ht hs _ hd)
    · exact ⟨p, hp, hps⟩

lemma not_isDeadlocked (wf : WellFormed e) (hrel : Released e st)
    (hset : ∀ t ∈ e.tasks, Settled st t) : isDeadlocked e st = false := by
  by_contra h
  obtain ⟨⟨t, ht, hs⟩, hno⟩ := isDeadlocked_iff.mp (by simpa using h)
  obtain ⟨p, hp, ha⟩ := exists_active_of_scheduled wf hrel hset ht hs
  simp [hno p hp] at ha

lemma Released.update {id : TaskId} (h : Released e st) (h1 : s ≠ .scheduled)
    (h2 : s ≠ .onErrorOnly) : Released e (Function.update st id s) := by
  intro t ht hs d hd
  by_cases hti : t.id = id
  · simp [hti, h1] at hs
  · rw [Function.update_of_ne hti] at hs
    by_cases hdi : d = id
    · simpa [hdi] using h2
    · rw [Function.update_of_ne hdi]
      exact h t ht hs d hd

lemma Settled.update {id : TaskId} (h : Settled st t) (h1 : t.id ≠ id) (h2 : id ∉ t.dependsOn) :
    Settled (Function.update st id s) t := by
  intro hs
  rw [Function.update_of_ne h1] at hs
  obtain ⟨d, hd, hfin⟩ := h hs
  refine ⟨d, hd, ?_⟩
  rwa [Function.update_of_ne (by rintro rfl; exact h2 hd)]

lemma settled_update_self (h : s ≠ .scheduled) :
    Settled (Function.update st t.id s) t := by
  intro hs
  simp [h] at hs

lemma waiting_mono (h : ∀ t ∈ e.tasks, (st' t.id).isWaiting = true → (st t.id).isWaiting = true) :
    waiting e st' ≤ waiting e st :=
  List.countP_mono_left h

lemma waiting_lt (ht : t ∈ e.tasks)
    (h : ∀ t ∈ e.tasks, (st' t.id).isWaiting = true → (st t.id).isWaiting = true)
    (h1 : (st t.id).isWaiting = true) (h2 : (st' t.id).isWaiting = false) :
    waiting e st' < waiting e st := by
  obtain ⟨l₁, l₂, hl⟩ := List.append_of_mem ht
  simp only [waiting, hl, List.countP_append, List.countP_cons, h1, h2]
  have hmem : ∀ x, x ∈ l₁ ∨ x ∈ l₂ → x ∈ e.tasks := by
    intro x hx
    rw [hl]
    rcases hx with hx | hx <;> simp [hx]
  have h3 := List.countP_mono_left (l := l₁) fun x hx => h x (hmem x (.inl hx))
  have h4 := List.countP_mono_left (l := l₂) fun x hx => h x (hmem x (.inr hx))
  simp only [if_true, Bool.false_eq_true, if_false]
  omega

lemma waiting_le_length : waiting e st ≤ e.tasks.length := List.countP_le_length

end

section

variable (e : Execution) (env : Env) (force : Bool)

/-- Whether `_cancel_tasks_execution` gets to its loop. -/
def cancelLoops (s : ExecutionStatus) : Bool :=
  !(s == .cancelling && !force) && !s.inFinalizedTaskStatuses

/-- `_cancel_tasks_execution` up to the advancement it ends with. -/
def enterCancellation (w : World) : World :=
  if cancelLoops force w.status then
    cancelTasks e env w force
      (if w.status = .running then setTasksExecutionStatus .running .cancelling w else w)
  else w

variable {e env force}

lemma cancelWith_requery (adv : World → Bool → World → Outcome (List TaskId)) (x : World) :
    cancelWith e env adv x true force w =
      if w.status.inFinalizedTaskStatuses then (.ok (), w)
      else
        ((adv w (cancelLoops force w.status) (enterCancellation e env force w)).1.map fun _ => (),
          (adv w (cancelLoops force w.status) (enterCancellation e env force w)).2) := by
  by_cases hrun : w.status = .running
  · have h1 : ExecutionStatus.running.inFinalizedTaskStatuses = false := by decide
    have h2 : cancelLoops force .running = true := by cases force <;> decide
    simp [cancelWith, enterCancellation, hrun, h1, h2]
  by_cases hc : w.status = .cancelling
  · have h1 : ExecutionStatus.cancelling.inFinalizedTaskStatuses = false := by decide
    cases force <;> simp [cancelWith, enterCancellation, cancelLoops, hc, h1]
  by_cases hf : w.status.inFinalizedTaskStatuses = true
  · simp [cancelWith, hrun, hc, hf]
  · have h2 : cancelLoops force w.status = true := by
      simp [cancelLoops, hf, beq_eq_false_iff_ne.mpr hc]
    simp [cancelWith, enterCancellation, hrun, hc, hf, h2]

lemma enterCancellation_status :
    (enterCancellation e env force w).status =
      if w.status = .running then .cancelling else w.status := by
  by_cases hrun : w.status = .running
  · have h1 : ExecutionStatus.running.inFinalizedTaskStatuses = false := by decide
    simp [enterCancellation, cancelLoops, hrun, h1]
  · simp only [enterCancellation, hrun, if_false]
    split <;> simp

lemma enterCancellation_isActive (h : w.status.isActive = true) :
    (enterCancellation e env force w).status.isActive = true := by
  rw [enterCancellation_status]
  split
  · decide
  · exact h

lemma enterCancellation_st (ht : t ∈ e.tasks) :
    (enterCancellation e env force w).st t.id =
      if cancelLoops force w.status then cancelledStatus env force t (w.st t.id)
      else w.st t.id := by
  simp only [enterCancellation]
  split
  · rw [cancelTasks_st_of_mem _ ht]
    · split <;> simp
    · split <;> simp
  · rfl

lemma Writes.enterCancellation : Written routine w (enterCancellation e env force w) := by
  simp only [Conductor.enterCancellation]
  split_ifs
  · exact setTasksExecutionStatus.trans cancelTasks
  · exact cancelTasks
  · exact .refl

@[simp] lemma enterCancellation_info : (enterCancellation e env force w).info = w.info :=
  Writes.info .enterCancellation

lemma enterCancellation_trace : w.trace <:+ (enterCancellation e env force w).trace :=
  Writes.suffix .enterCancellation

lemma enterCancellation_event (h : cancelLoops force w.status = true) :
    ⟨.cancelTasks force, (enterCancellation e env force w).status, w.st⟩ ∈
      (enterCancellation e env force w).trace := by
  simp only [enterCancellation, h, if_true]
  have hmem : ∀ db : World, db.st = w.st →
      ⟨.cancelTasks force, (cancelTasks e env w force db).status, w.st⟩ ∈
        (cancelTasks e env w force db).trace := fun db hdb =>
    cancelTasks_event.subset (by simp [hdb])
  apply hmem
  split <;> simp

@[simp] lemma enterCancellation_emitted (h1 : eff.isCancellation = false)
    (h2 : eff ≠ .setExecutionStatus .cancelling) :
    (enterCancellation e env force w).emitted eff ↔ w.emitted eff := by
  simp only [enterCancellation]
  split
  · rw [cancelTasks_emitted h1]
    split
    · simp [setTasksExecutionStatus, ExecutionStatus.isFinalized,
        ExecutionStatus.finalizedExecutionStatuses, h2.symm]
    · rfl
  · rfl

lemma enterCancellation_unscheduled {id : TaskId}
    (h : (enterCancellation e env force w).emitted (.setTaskStatus id .unscheduled)) :
    w.emitted (.setTaskStatus id .unscheduled) ∨
      (enterCancellation e env force w).st id = .unscheduled := by
  by_cases hl : cancelLoops force w.status = true
  · simp only [enterCancellation, hl, if_true] at h ⊢
    by_cases hrun : w.status = .running
    · rw [if_pos hrun] at h ⊢
      apply (cancelTasks_unscheduled (by simp) h).imp_left
      exact (emitted_setTasksExecutionStatus_iff _ _ _ rfl).mp
    · rw [if_neg hrun] at h ⊢
      exact cancelTasks_unscheduled rfl h
  · rw [enterCancellation, if_neg hl] at h
    exact .inl h

@[simp] lemma cancelledStatus_scheduled : cancelledStatus env force t .scheduled =
    if t.dependsOn = [] then .unscheduled else .scheduled := by
  cases force <;> simp [cancelledStatus, TaskStatus.isActive, TaskStatus.activeTaskStatuses]

@[simp] lemma cancelledStatus_onErrorOnly :
    cancelledStatus env force t .onErrorOnly = .scheduled := by
  cases force <;> rfl

lemma cancelledStatus_pending (h : s = .pending ∨ s = .starting) :
    cancelledStatus env force t s = if force then .forceCanceled else .unscheduled := by
  rcases h with rfl | rfl <;> cases force <;> rfl

lemma cancelledStatus_of_isSettled (h : s.isSettled = true) :
    cancelledStatus env force t s = s := by
  revert h
  cases s <;> cases force <;> simp [cancelledStatus, TaskStatus.isSettled, TaskStatus.isFinalized,
    TaskStatus.finalizedTaskStatuses, TaskStatus.isActive, TaskStatus.activeTaskStatuses]

lemma cancelledStatus_ne_onErrorOnly (s : TaskStatus) :
    cancelledStatus env force t s ≠ .onErrorOnly := by
  simp only [cancelledStatus]
  split_ifs <;> simp_all

lemma cancelledStatus_isWaiting (h : (cancelledStatus env force t s).isWaiting = true) :
    s.isWaiting = true := by
  revert h
  simp only [cancelledStatus]
  split_ifs <;> simp_all [TaskStatus.isWaiting]

lemma Released.enterCancellation (wf : WellFormed e) (h : Released e w.st) :
    Released e (enterCancellation e env force w).st := by
  intro t ht hs d hd
  obtain ⟨p, hp, rfl, -⟩ := wf.parent t ht d hd
  rw [enterCancellation_st hp]
  split
  · exact cancelledStatus_ne_onErrorOnly _
  · rename_i hl
    rw [enterCancellation_st ht, if_neg hl] at hs
    exact h t ht hs _ hd

lemma waiting_enterCancellation : waiting e (enterCancellation e env force w).st ≤
    waiting e w.st := by
  refine waiting_mono fun t ht h => ?_
  rw [enterCancellation_st ht] at h
  split at h
  · exact cancelledStatus_isWaiting h
  · exact h

end

section

variable (env : Env) (w : World) (t : Task)

def World.started : World := (w.setTaskStatus t.id .pending none).emit (.beginTask t.id)

def World.notScheduled : World :=
  ((w.setTaskStatus t.id .pending none).emit (.noSuitableWorker t.id)).setTaskStatus t.id
    .failedToSchedule (some (env.schedulingError t.id))

/-- The `begin_task` cast of a task raised. -/
def World.castRaised : World :=
  (w.setTaskStatus t.id .pending none).emit (.beginTaskRaised t.id)

@[simp] lemma started_st : (w.started t).st = Function.update w.st t.id .pending := by
  simp [World.started]
@[simp] lemma started_status : (w.started t).status = w.status := rfl
@[simp] lemma started_last : (w.started t).lastExecutionStatus = w.lastExecutionStatus := rfl
@[simp] lemma started_info : (w.started t).info = w.info := rfl
@[simp] lemma notScheduled_st :
    (w.notScheduled env t).st = Function.update w.st t.id .failedToSchedule := by
  simp [World.notScheduled]
@[simp] lemma notScheduled_status : (w.notScheduled env t).status = w.status := rfl
@[simp] lemma notScheduled_info : (w.notScheduled env t).info = w.info := rfl
@[simp] lemma castRaised_st : (w.castRaised t).st = Function.update w.st t.id .pending := by
  simp [World.castRaised]
@[simp] lemma castRaised_status : (w.castRaised t).status = w.status := rfl
@[simp] lemma castRaised_info : (w.castRaised t).info = w.info := rfl

lemma startTask_cases (cancel : World → Outcome Unit) :
    startTask env cancel t w = (.ok (), w.started t) ∨
      ∃ w₁, (w₁ = w.notScheduled env t ∨ w₁ = w.castRaised t) ∧
        ∃ err, startTask env cancel t w = (.error err, (cancel w₁).2) := by
  have failed : ∀ (err : ConductorError) (w₁ : World), ∃ err',
      startFailed cancel err w₁ = (.error err', (cancel w₁).2) := by
    intro err w₁
    simp only [startFailed]
    split <;> simp_all
  by_cases h1 : env.findsWorker t.id = true
  · by_cases h2 : env.beginTaskGoesOut t.id = true
    · left
      simp [startTask, h1, h2, World.started]
    · right
      refine ⟨_, .inr rfl, ?_⟩
      simpa [startTask, h1, h2, World.castRaised] using failed _ _
  · right
    refine ⟨_, .inl rfl, ?_⟩
    simpa [startTask, h1, World.notScheduled] using failed _ _

end

section

variable {st : TaskId → TaskStatus}

/-- A loop that gives some of the tasks a new status. -/
lemma foldl_mark [DecidablePred mark] {message : Task → Option String} {ts : List Task} (db : World)
    (hnd : (ts.map (·.id)).Nodup) :
    let db' := ts.foldl (fun db t =>
      if mark t then db.setTaskStatus t.id s (message t) else db) db
    (∀ t ∈ ts, db'.st t.id = if mark t then s else db.st t.id) ∧
    (∀ j, (∀ t ∈ ts, j ≠ t.id) → db'.st j = db.st j) ∧
    db'.status = db.status ∧
    ∀ eff : Effect, (∀ id, .setTaskStatus id s ≠ eff) → (db'.emitted eff ↔ db.emitted eff) := by
  induction ts generalizing db with
  | nil => simp
  | cons a ts ih =>
    obtain ⟨hne, hnd⟩ := nodup_ids_cons.mp hnd
    obtain ⟨h1, h2, h3, h4⟩ := ih
      (if mark a then db.setTaskStatus a.id s (message a) else db) hnd
    simp only [List.foldl_cons]
    refine ⟨fun t ht => ?_, fun j hj => ?_, ?_, fun eff heff => ?_⟩
    · rcases List.mem_cons.mp ht with rfl | ht
      · rw [h2 _ fun t ht => (hne t ht).symm]
        split <;> simp
      · rw [h1 t ht]
        split
        · rfl
        · split
          · simp [Function.update_of_ne (hne t ht)]
          · rfl
    · rw [h2 j fun t ht => hj t (List.mem_cons_of_mem _ ht)]
      split
      · simp [Function.update_of_ne (hj a List.mem_cons_self)]
      · rfl
    · rw [h3]
      split <;> rfl
    · rw [h4 eff heff]
      split <;> simp [heff]

lemma cleanDeadlock_st (ht : t ∈ e.tasks) :
    (cleanDeadlock e previous w.st w).st t.id =
      if w.st t.id = .scheduled ∨ w.st t.id = .onErrorOnly then .canceledFromDeadlock
      else w.st t.id := by
  rw [cleanDeadlock, st_setTasksExecutionStatus]
  exact (foldl_mark w e.nodup).1 t ht

@[simp] lemma cleanDeadlock_status : (cleanDeadlock e previous st w).status = .deadlocked := by
  simp [cleanDeadlock]

@[simp] lemma cleanDeadlock_last :
    (cleanDeadlock e previous st w).lastExecutionStatus = .deadlocked := by
  simp [cleanDeadlock]

@[simp] lemma cleanDeadlock_info : (cleanDeadlock e previous st w).info = w.info :=
  Writes.info .cleanDeadlock

lemma cleanDeadlock_emitted (h1 : ∀ id, .setTaskStatus id .canceledFromDeadlock ≠ eff)
    (h2 : eff.isExecutionLevel = false) :
    (cleanDeadlock e previous st w).emitted eff ↔ w.emitted eff := by
  rw [cleanDeadlock, emitted_setTasksExecutionStatus_iff _ _ _ h2]
  exact (foldl_mark w e.nodup).2.2.2 eff h1

lemma checkCleanExecutionDeadlock_eq (hx : x.st = w.st) (hs : x.status = w.status)
    (hts : ∀ f ∈ ts, f = w.st) :
    checkCleanExecutionDeadlock e x ts requery w =
      if isDeadlocked e w.st then (.deadlocked, cleanDeadlock e w.status w.st w)
      else (.running, w) := by
  have h1 : (if requery then w else x).st = w.st := by split <;> simp [hx]
  have h2 : (if requery then w else x).status = w.status := by split <;> simp [hs]
  have h3 : ts.getD (if requery then w else x).st = w.st := by
    cases ts with
    | none => simpa using h1
    | some f => exact hts f rfl
  simp only [checkCleanExecutionDeadlock, h3, h2]

end

section

variable {ts : List Task}

lemma cancelExecutionForOsmorphingDebugging_eq (db : World)
    (hrun : ∀ t ∈ ts, (x.st t.id).isActive = true → t.taskType = .osMorphing) :
    cancelExecutionForOsmorphingDebugging x ts db = (.ok (), ts.foldl (fun db t =>
      if t.taskType ≠ .osMorphing ∧ (x.st t.id = .scheduled ∨ x.st t.id = .onErrorOnly) then
        db.setTaskStatus t.id .canceledForDebugging (some (debuggingMessage t))
      else db) db) := by
  induction ts generalizing db with
  | nil => rfl
  | cons a ts ih =>
    rw [List.forall_mem_cons] at hrun
    rw [List.foldl_cons, ← ih _ hrun.2]
    by_cases hty : a.taskType = .osMorphing
    · simp [cancelExecutionForOsmorphingDebugging, hty]
    · have hact : ¬(x.st a.id).isActive = true := fun h => hty (hrun.1 h)
      by_cases hst : x.st a.id = .scheduled ∨ x.st a.id = .onErrorOnly <;>
        simp [cancelExecutionForOsmorphingDebugging, hty, hact, hst]

end

section

lemma completionStatus_some (h : completionStatus row = some (s, d)) :
    row.status.isFinalized = false ∧
        row.status ≠ .cancelling ∧ row.status ≠ .cancellingAfterCompletion ∧ s = .completed ∨
      (row.status = .cancelling ∨ row.status = .cancellingAfterCompletion ∨
        row.status = .failedToCancel) ∧ s = .canceledAfterCompletion := by
  unfold completionStatus at h
  split_ifs at h with h1 h2 h3 h4 <;> simp_all

lemma completionStatus_none (h : completionStatus row = none) :
    row.status.isSettled = true := by
  unfold completionStatus at h
  split_ifs at h with h1 h2 h3 h4
  simp [TaskStatus.isSettled, h3, h4]

lemma completionStatus_of_isSettled (h : row.status.isSettled = true) :
    completionStatus row = none := by
  have hne : ∀ s, s.isSettled = false → row.status ≠ s := fun s hs hrow => by
    simp [← hrow, h] at hs
  have hfin : row.status.isFinalized = true := TaskStatus.isFinalized_of_isSettled h
  simp [completionStatus, hfin, hne .cancellingAfterCompletion rfl, hne .cancelling rfl,
    hne .failedToCancel rfl]

lemma errorStatus_cases (t : Task) (row : TaskRow) (d : String) :
    row.status = .forceCanceled ∧ (errorStatus t row d).1 = .forceCanceled ∨
    (row.status = .cancelling ∨ row.status = .cancellingAfterCompletion ∨
      row.status = .failedToCancel) ∧ (errorStatus t row d).1 = .canceled ∨
    row.status ≠ .forceCanceled ∧ (errorStatus t row d).1 = .error := by
  unfold errorStatus
  split_ifs <;> simp_all

lemma cancellationStatus_cases (row : TaskRow) (d : String) :
    row.status.isSettled = true ∧ (cancellationStatus row d).1 = row.status ∨
    row.status.isSettled = false ∧ (cancellationStatus row d).1 = .canceled := by
  unfold cancellationStatus
  simp only
  split_ifs with h1 h2 h3 h4
  · rw [h1]; exact .inr ⟨rfl, rfl⟩
  · rw [h2]; exact .inl ⟨rfl, rfl⟩
  · rw [h3]; exact .inr ⟨rfl, rfl⟩
  · left; simp [TaskStatus.isSettled, h3, h4]
  · right; simp [TaskStatus.isSettled, h4]

lemma errorStatus_isSettled (t : Task) (row : TaskRow) (d : String) :
    (errorStatus t row d).1.isSettled = true := by
  rcases errorStatus_cases t row d with ⟨-, h⟩ | ⟨-, h⟩ | ⟨-, h⟩ <;> rw [h] <;> decide

lemma cancellationStatus_isSettled (row : TaskRow) (d : String) :
    (cancellationStatus row d).1.isSettled = true := by
  rcases cancellationStatus_cases row d with ⟨h, h'⟩ | ⟨-, h'⟩ <;> rw [h']
  · exact h
  · decide

lemma completionStatus_isSettled (h : completionStatus row = some (s, d)) :
    s.isSettled = true := by
  rcases completionStatus_some h with ⟨-, -, -, rfl⟩ | ⟨-, rfl⟩ <;> decide

variable (w : World) (t : Task) (details : String)

/-- `set_task_error` stored its status. -/
def World.errored : World :=
  (w.emit (.taskErrored t.id)).setTaskStatus t.id (errorStatus t (w.rows t.id) details).1
    (some (errorStatus t (w.rows t.id) details).2)

/-- `confirm_task_cancellation` stored its status. -/
def World.cancelConfirmed : World :=
  (w.emit (.taskCancelled t.id)).setTaskStatus t.id
    (cancellationStatus (w.rows t.id) details).1
    (some (cancellationStatus (w.rows t.id) details).2)

@[simp] lemma errored_st : (w.errored t details).st =
    Function.update w.st t.id (errorStatus t (w.rows t.id) details).1 := by
  simp [World.errored]
@[simp] lemma errored_status : (w.errored t details).status = w.status := rfl
@[simp] lemma errored_info : (w.errored t details).info = w.info := rfl
@[simp] lemma cancelConfirmed_st : (w.cancelConfirmed t details).st =
    Function.update w.st t.id (cancellationStatus (w.rows t.id) details).1 := by
  simp [World.cancelConfirmed]
@[simp] lemma cancelConfirmed_status : (w.cancelConfirmed t details).status = w.status := rfl
@[simp] lemma cancelConfirmed_info : (w.cancelConfirmed t details).info = w.info := rfl

end

/-- Nothing a status depends on changed: infos were added to and post-task actions done. -/
structure Bookkeeping (w w' : World) : Prop where
  rows : w'.rows = w.rows
  status : w'.status = w.status
  last : w'.lastExecutionStatus = w.lastExecutionStatus
  trace : ∃ evs, w'.trace = evs ++ w.trace ∧ ∀ ev ∈ evs, ∃ a, ev.effect = .postTaskAction a
  info : ∀ inst info, w.info inst = some info → ∃ info', w'.info inst = some info' ∧
    ∀ key, (info.get? key).isSome = true → (info'.get? key).isSome = true

/-- The statuses `set_task_host` and `set_task_process` lead a task through. -/
def moves : List (TaskStatus × TaskStatus) :=
  [(.pending, .starting), (.cancellingAfterCompletion, .cancellingAfterCompletion),
    (.starting, .running), (.cancellingAfterCompletion, .running)]

/-- What can happen to an execution. A worker's report is taken under the condition `ok`. -/
inductive Change (e : Execution) (conf : Conf) (strong : Prop) (ok : World → Report → Prop) :
    World → World → Prop
  | started {w t} (ht : t ∈ e.tasks) (hd : lifecycleDecision e w.st t = .start) :
      Change e conf strong ok w (w.started t)
  | notScheduled {env w t} (ht : t ∈ e.tasks) (hd : lifecycleDecision e w.st t = .start) :
      Change e conf strong ok w (enterCancellation e env false (w.notScheduled env t))
  | castRaised {env w t} (ht : t ∈ e.tasks) (hd : lifecycleDecision e w.st t = .start) :
      Change e conf strong ok w (enterCancellation e env false (w.castRaised t))
  | unscheduled {w t details} (ht : t ∈ e.tasks)
      (hd : lifecycleDecision e w.st t = .unschedule details) :
      Change e conf strong ok w (w.setTaskStatus t.id .unscheduled (some details))
  | refreshed {w} (hact : w.status.isActive = true) (hne : getExecutionStatus e w ≠ w.status)
      (hs : strong → getExecutionStatus e w ≠ .deadlocked) :
      Change e conf strong ok w (setTasksExecutionStatus w.status (getExecutionStatus e w) w)
  | deadlocked {w} (hd : isDeadlocked e w.st = true) (hs : strong → w.status = .unexecuted) :
      Change e conf strong ok w (cleanDeadlock e w.status w.st w)
  | begun {w} (h : w.status = .unexecuted ∨
        w.lastExecutionStatus = .awaitingMinionAllocations) :
      Change e conf strong ok w (setTasksExecutionStatus w.status .running w)
  | moved {w t new host processId details} (ht : t ∈ e.tasks) (hok : ok w (.progress t))
      (hm : (w.st t.id, new) ∈ moves) :
      Change e conf strong ok w
        ((w.setTaskHostProperties t.id host processId).setTaskStatus t.id new details)
  | completed {w t s details} (ht : t ∈ e.tasks) (hok : ok w (.completion t))
      (h : completionStatus (w.rows t.id) = some (s, details)) :
      Change e conf strong ok w ((w.emit (.taskCompleted t.id)).setTaskStatus t.id s details)
  | dropped {w t} (ht : t ∈ e.tasks) (hok : ok w (.completion t))
      (h : completionStatus (w.rows t.id) = none) :
      Change e conf strong ok w (w.emit (.taskCompleted t.id))
  | errored {env w t details} (ht : t ∈ e.tasks) (hok : ok w (.failure t)) :
      Change e conf strong ok w (enterCancellation e env false (w.errored t details))
  | debugged {w w₂ t details} {text : Option String} (ht : t ∈ e.tasks)
      (hok : ok w (.failure t))
      (hty : t.taskType = .osMorphing) (hdebug : conf.debugOsMorphingErrors = true)
      (hrun : ∀ s ∈ e.tasks, ((w.errored t details).st s.id).isActive = true →
        s.taskType = .osMorphing)
      (hw₂ : cancelExecutionForOsmorphingDebugging (w.errored t details) e.tasks
        (w.errored t details) = (.ok (), w₂))
      (hs : strong → ∀ s ∈ e.tasks, w₂.st s.id ≠ .scheduled) :
      Change e conf strong ok w
        (setTasksExecutionStatus w.status .canceledForDebugging
          (w₂.setTaskStatus t.id (errorStatus t (w.rows t.id) details).1 text))
  | cancelConfirmed {w t details} (ht : t ∈ e.tasks) (hok : ok w (.cancellation t)) :
      Change e conf strong ok w (w.cancelConfirmed t details)
  | cancelRequested {env w force} : Change e conf strong ok w (enterCancellation e env force w)
  | kept {w w'} (h : Bookkeeping w w') : Change e conf strong ok w w'
  | allocationFailed {w force previous} (hc : w.emitted (.cancelTasks force))
      (hs : strong → ∀ t ∈ e.tasks, (w.st t.id).isSettled = true ∧
        (w.st t.id).triggersCleanup = false) :
      Change e conf strong ok w (setTasksExecutionStatus previous .errorAllocatingMinions w)

abbrev Changes (e : Execution) (conf : Conf) (strong : Prop) (ok : World → Report → Prop) :
    World → World → Prop :=
  Relation.ReflTransGen (Change e conf strong ok)

section

variable {w w' : World}

lemma Changes.invariant {P : World → Prop}
    (hstep : ∀ w w', Change e conf strong ok w w' → P w → P w')
    (h : Changes e conf strong ok w w') (hw : P w) : P w' := by
  induction h with
  | refl => exact hw
  | tail _ hlast ih => exact hstep _ _ hlast ih

lemma Bookkeeping.st (h : Bookkeeping w w') : w'.st = w.st := by
  funext j
  simp [World.st, h.rows]

lemma Bookkeeping.suffix (h : Bookkeeping w w') : w.trace <:+ w'.trace := by
  obtain ⟨evs, hevs, -⟩ := h.trace
  exact ⟨evs, hevs.symm⟩

lemma Bookkeeping.emitted (h : Bookkeeping w w') (heff : ∀ a, eff ≠ .postTaskAction a) :
    w'.emitted eff ↔ w.emitted eff := by
  obtain ⟨evs, hevs, hpost⟩ := h.trace
  refine ⟨?_, fun he => he.mono h.suffix⟩
  rintro ⟨ev, hev, rfl⟩
  rw [hevs, List.mem_append] at hev
  rcases hev with hev | hev
  · obtain ⟨a, ha⟩ := hpost ev hev
    exact absurd ha (heff a)
  · exact ⟨ev, hev, rfl⟩

lemma ne_of_isSettled {s s' : TaskStatus} (h : s.isSettled = true) (h' : s'.isSettled = false) :
    s ≠ s' := by
  rintro rfl
  simp [h] at h'

end

end Coriolis.Conductor

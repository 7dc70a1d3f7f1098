import Coriolis.Conductor.Handlers
import Mathlib.Logic.Relation

/-!
# What one decision, one status and one cancellation loop say

Specifications of the pieces `_advance_execution_state` and `_cancel_tasks_execution` are
made of, in the form the invariants use them: which tasks `lifecycleDecision` starts or
unschedules, what `_get_execution_status` reads off the tasks, and what the loop of
`_cancel_tasks_execution` does to the status of every task. What they leave alone follows from
the writes they are made of.
-/

namespace Coriolis.Conductor

namespace TaskStatus

def isWaiting (s : TaskStatus) : Bool := s == scheduled || s == onErrorOnly

lemma isActive_ne {s t : TaskStatus} (h : s.isActive = true) (ht : t.isActive = false) :
    s ≠ t := by
  rintro rfl
  simp [h] at ht

lemma not_isFinalized (h : s.isFinalized = false) :
    s = scheduled ∨ s = onErrorOnly ∨ s.isActive = true := by
  rcases s.phases with h' | h' | h' | h'
  · exact .inl h'
  · exact .inr (.inl h')
  · exact .inr (.inr h')
  · simp [h] at h'

end TaskStatus

lemma ExecutionStatus.not_inFinalized_of_isActive {s : ExecutionStatus}
    (h : s.isActive = true) : s.inFinalizedTaskStatuses = false := by
  revert h; cases s <;> decide

section

def World.emitted (w : World) (eff : Effect) : Prop := ∃ ev ∈ w.trace, ev.effect = eff

@[simp] def Effect.isExecutionLevel : Effect → Bool
  | .setExecutionStatus _ | .updateReservationFulfillment
  | .deallocateMinionMachinesForAction => true
  | .setTaskStatus _ _ | .cancelTasks _ | .cancelTask _ | .cancelTaskRaised _ | .beginTask _
  | .beginTaskRaised _ | .noSuitableWorker _ | .taskCompleted _ | .taskErrored _
  | .taskCancelled _ | .postTaskAction _ => false

/-- Effects of the loop of `_cancel_tasks_execution`. -/
@[simp] def Effect.isCancellation : Effect → Bool
  | .setTaskStatus _ s =>
    s == .forceCanceled || s == .unscheduled || s == .cancelling || s == .failedToCancel ||
      s == .cancellingAfterCompletion || s == .scheduled
  | .cancelTasks _ | .cancelTask _ | .cancelTaskRaised _ => true
  | .setExecutionStatus _ | .updateReservationFulfillment | .deallocateMinionMachinesForAction
  | .beginTask _ | .beginTaskRaised _ | .noSuitableWorker _ | .taskCompleted _ | .taskErrored _
  | .taskCancelled _ | .postTaskAction _ => false

variable {w : World} {id : TaskId}

@[simp] lemma emitted_emit : (w.emit eff').emitted eff ↔ eff' = eff ∨ w.emitted eff := by
  simp [World.emitted]

@[simp] lemma emitted_setTaskStatus :
    (w.setTaskStatus id s d).emitted eff ↔ .setTaskStatus id s = eff ∨ w.emitted eff := by
  simp [World.emitted]

@[simp] lemma emitted_setExecutionStatus :
    (w.setExecutionStatus x).emitted eff ↔ .setExecutionStatus x = eff ∨ w.emitted eff := by
  simp [World.emitted]

@[simp] lemma emitted_setTaskHostProperties :
    (w.setTaskHostProperties id h p).emitted eff ↔ w.emitted eff := Iff.rfl

lemma World.emitted.mono {w' : World} (hw : w.emitted eff) (hs : w.trace <:+ w'.trace) :
    w'.emitted eff := by
  obtain ⟨ev, hev, rfl⟩ := hw
  exact ⟨ev, hs.subset hev, rfl⟩

end

/-- Writes of statuses, their consequences for minions, and cancellations. -/
def Effect.isRoutine : Effect → Bool
  | .setTaskStatus _ _ | .setExecutionStatus _ | .updateReservationFulfillment
  | .deallocateMinionMachinesForAction | .cancelTasks _ | .cancelTask _ | .cancelTaskRaised _ =>
    true
  | .beginTask _ | .beginTaskRaised _ | .noSuitableWorker _ | .taskCompleted _ | .taskErrored _
  | .taskCancelled _ | .postTaskAction _ => false

def Effect.isPostTaskAction : Effect → Bool
  | .postTaskAction _ => true
  | _ => false

/-- A write to the tables of tasks and executions, or a message, which has to be routine if asked
for. -/
inductive Write (routine : Bool) : World → World → Prop
  | taskStatus (w : World) (id : TaskId) (s : TaskStatus) (details : Option String) :
      Write routine w (w.setTaskStatus id s details)
  | hostProperties (w : World) (id : TaskId) (host : Option String) (processId : Option Nat) :
      Write routine w (w.setTaskHostProperties id host processId)
  | executionStatus (w : World) (s : ExecutionStatus) : Write routine w (w.setExecutionStatus s)
  | effect (w : World) {eff : Effect}
      (h : eff.isRoutine = true ∨ routine = false ∧ eff.isPostTaskAction = false) :
      Write routine w (w.emit eff)

abbrev Written (routine : Bool) : World → World → Prop := Relation.ReflTransGen (Write routine)

abbrev Writes : World → World → Prop := Written false

namespace Writes

section

variable {w w' : World}

lemma info (h : Writes w w') : w'.info = w.info := by
  induction h with
  | refl => rfl
  | tail _ hlast ih => cases hlast <;> exact ih

lemma suffix (h : Writes w w') : w.trace <:+ w'.trace := by
  induction h with
  | refl => exact List.suffix_rfl
  | tail _ hlast ih =>
    refine ih.trans ?_
    cases hlast <;> simp

end

variable {routine : Bool} {w : World}

lemma taskStatus {id : TaskId} :
    Written routine w (w.setTaskStatus id s details) := .single (.taskStatus ..)

lemma hostProperties {id : TaskId} :
    Written routine w (w.setTaskHostProperties id host processId) := .single (.hostProperties ..)

lemma emit (h : eff.isRoutine = true) : Written routine w (w.emit eff) :=
  .single (.effect w (.inl h))

lemma setTasksExecutionStatus :
    Written routine w (setTasksExecutionStatus previous new w) := by
  simp only [Conductor.setTasksExecutionStatus]
  split <;> split
  · exact ((emit rfl).trans (emit rfl)).tail (.executionStatus ..)
  · exact (emit rfl).tail (.executionStatus ..)
  · exact (emit rfl).tail (.executionStatus ..)
  · exact .single (.executionStatus ..)

lemma foldl {f : World → α → World} (h : ∀ db a, Written routine db (f db a)) (l : List α) :
    Written routine w (l.foldl f w) := by
  induction l generalizing w with
  | nil => exact .refl
  | cons a l ih => exact (h w a).trans ih

lemma cleanDeadlock {e : Execution} : Written routine w (cleanDeadlock e previous st w) := by
  refine (foldl (fun db t => ?_) e.tasks).trans setTasksExecutionStatus
  split
  · exact taskStatus
  · exact .refl

lemma cancelTask {e : Execution} {x : World} :
    Written routine w (cancelTask e env x force w t) := by
  simp only [Conductor.cancelTask]
  split_ifs
  · exact taskStatus
  · exact taskStatus
  · exact taskStatus
  · exact taskStatus.trans (emit rfl)
  · exact taskStatus.trans ((emit rfl).trans taskStatus)
  · exact taskStatus
  · exact taskStatus
  · exact .refl

lemma cancelTasks {e : Execution} {x : World} :
    Written routine w (cancelTasks e env x force w) :=
  (emit rfl).trans (foldl (fun _ _ => cancelTask) _)

lemma debugging {x : World} {ts : List Task} :
    Written routine w (cancelExecutionForOsmorphingDebugging x ts w).2 := by
  induction ts generalizing w with
  | nil => exact .refl
  | cons a ts ih =>
    simp only [cancelExecutionForOsmorphingDebugging]
    split_ifs
    · exact ih
    · exact .refl
    · exact taskStatus.trans ih
    · exact ih

end Writes

section

variable (previous new : ExecutionStatus) (db : World)

@[simp] lemma st_setTasksExecutionStatus :
    (setTasksExecutionStatus previous new db).st = db.st := by
  simp only [setTasksExecutionStatus]; split <;> split <;> rfl

@[simp] lemma status_setTasksExecutionStatus :
    (setTasksExecutionStatus previous new db).status = new := by
  simp only [setTasksExecutionStatus]; split <;> split <;> rfl

@[simp] lemma last_setTasksExecutionStatus :
    (setTasksExecutionStatus previous new db).lastExecutionStatus = new := by
  simp only [setTasksExecutionStatus]; split <;> split <;> rfl

@[simp] lemma info_setTasksExecutionStatus :
    (setTasksExecutionStatus previous new db).info = db.info :=
  Writes.info .setTasksExecutionStatus

lemma trace_setTasksExecutionStatus :
    db.trace <:+ (setTasksExecutionStatus previous new db).trace :=
  Writes.suffix .setTasksExecutionStatus

lemma emitted_setTasksExecutionStatus :
    (setTasksExecutionStatus previous new db).emitted eff →
      db.emitted eff ∨ eff = .setExecutionStatus new ∨ eff = .updateReservationFulfillment ∨
        eff = .deallocateMinionMachinesForAction := by
  simp only [setTasksExecutionStatus, World.emitted]
  split <;> split <;> simp <;> grind

@[simp] lemma emitted_setTasksExecutionStatus_iff
    (h : eff.isExecutionLevel = false) :
    (setTasksExecutionStatus previous new db).emitted eff ↔ db.emitted eff := by
  refine ⟨fun he => ?_, fun he => he.mono (trace_setTasksExecutionStatus _ _ _)⟩
  rcases emitted_setTasksExecutionStatus _ _ _ he with h' | rfl | rfl | rfl
  · exact h'
  all_goals simp at h

end

section

variable {e : Execution} {st : TaskId → TaskStatus} {t : Task}

def Execution.isOnError (e : Execution) (d : TaskId) : Bool :=
  ((e.tasks.filter (·.onError)).map (·.id)).contains d

lemma isOnError_of_mem (ht : t ∈ e.tasks) : e.isOnError t.id = t.onError := by
  have inj := List.inj_on_of_nodup_map e.nodup
  by_cases h : t.onError
  · simp only [Execution.isOnError, h, List.contains_eq_mem, decide_eq_true_eq, List.mem_map,
      List.mem_filter]
    exact ⟨t, ⟨ht, h⟩, rfl⟩
  · simp only [Execution.isOnError, h, List.contains_eq_mem, decide_eq_false_iff_not,
      List.mem_map, List.mem_filter, not_exists, not_and]
    rintro p ⟨hp, hpe⟩ hid
    exact h (inj hp ht hid ▸ hpe)

/-- A task that waits for its parents waits for one that is not over. -/
def Settled (st : TaskId → TaskStatus) (t : Task) : Prop :=
  st t.id = .scheduled → ∃ d ∈ t.dependsOn, (st d).isFinalized = false

lemma settled_of_decision_none (h : lifecycleDecision e st t = .none) : Settled st t := by
  intro hs
  by_contra hall
  have hfin : (t.dependsOn.all fun d => (st d).isFinalized) = true := by
    simpa using hall
  simp only [lifecycleDecision, hs, ne_eq, not_true_eq_false, if_false, hfin, if_true] at h
  revert h
  repeat' split
  all_goals simp

lemma decision_start (h : lifecycleDecision e st t = .start) :
    st t.id = .scheduled ∧
      (t.dependsOn = [] ∨
        (∀ d ∈ t.dependsOn, (st d).isFinalized = true) ∧
          (t.onError = false ∧ (∀ d ∈ t.dependsOn, st d = .completed) ∨
            t.onError = true ∧
              ((∀ d ∈ t.dependsOn, e.isOnError d = true) ∧
                  (∃ d ∈ t.dependsOn, st d = .completed) ∨
                ∃ d ∈ t.dependsOn, e.isOnError d = false ∧ (st d).triggersCleanup = true))) := by
  unfold lifecycleDecision at h
  split at h
  · simp at h
  rename_i hs
  refine ⟨by simpa using hs, ?_⟩
  split at h
  · exact .inl ‹_›
  split at h
  · simp at h
  split at h
  swap
  · simp at h
  rename_i hfin
  refine .inr ⟨by simpa using hfin, ?_⟩
  split at h
  · split at h
    · rename_i hoe hc
      exact .inl ⟨by simpa using hoe, by simpa using hc⟩
    · simp at h
  · refine .inr ⟨by simpa using ‹¬(!t.onError) = true›, ?_⟩
    simp only at h
    split at h
    · rename_i hc
      simp only [Bool.and_eq_true, List.isEmpty_iff, List.filter_eq_nil_iff, List.any_eq_true,
        beq_iff_eq] at hc
      exact .inl ⟨fun d hd => by simpa [Execution.isOnError, and_assoc] using hc.1 d hd, hc.2⟩
    · split at h
      · rename_i hc
        simp only [List.any_eq_true, List.mem_filter] at hc
        obtain ⟨d, ⟨hd, hne⟩, hc⟩ := hc
        exact .inr ⟨d, hd, by simpa [Execution.isOnError] using hne, hc⟩
      · simp at h

lemma decision_unschedule (h : lifecycleDecision e st t = .unschedule details) :
    st t.id = .scheduled ∧ t.dependsOn ≠ [] ∧
      (∀ d ∈ t.dependsOn, (st d).isFinalized = true) ∧
      (t.onError = false → ∃ d ∈ t.dependsOn, st d ≠ .completed) ∧
      (t.onError = true →
        (∀ d ∈ t.dependsOn, e.isOnError d = false → (st d).triggersCleanup = false) ∧
        ((∀ d ∈ t.dependsOn, e.isOnError d = true) → ∀ d ∈ t.dependsOn, st d ≠ .completed)) := by
  unfold lifecycleDecision at h
  split at h
  · simp at h
  rename_i hs
  split at h
  · simp at h
  rename_i hne
  refine ⟨by simpa using hs, hne, ?_⟩
  split at h
  · -- every parent is unscheduled
    rename_i hun
    have hun : ∀ d ∈ t.dependsOn, st d = .unscheduled := by simpa using hun
    obtain ⟨d, hd⟩ := List.exists_mem_of_ne_nil _ hne
    refine ⟨fun d hd => by rw [hun d hd]; rfl, fun _ => ⟨d, hd, by simp [hun d hd]⟩, fun _ => ?_⟩
    exact ⟨fun d hd _ => by rw [hun d hd]; rfl, fun _ d hd => by simp [hun d hd]⟩
  split at h
  swap
  · simp at h
  rename_i hfin
  refine ⟨by simpa using hfin, ?_⟩
  split at h
  · rename_i hoe
    have hoe : t.onError = false := by simpa using hoe
    split at h
    · simp at h
    · rename_i hc
      exact ⟨fun _ => by simpa using hc, by simp [hoe]⟩
  · rename_i hoe
    have hoe : t.onError = true := by simpa using hoe
    simp only at h
    split at h
    · simp at h
    split at h
    · simp at h
    rename_i hc htr
    refine ⟨by simp [hoe], fun _ => ⟨fun d hd hd' => ?_, fun hall d hd hcd => hc ?_⟩⟩
    · simp only [List.any_eq_true, List.mem_filter, not_exists, not_and,
        Bool.not_eq_true] at htr
      exact htr d ⟨hd, by simpa [Execution.isOnError] using hd'⟩
    · simp only [Bool.and_eq_true, List.isEmpty_iff, List.filter_eq_nil_iff, List.any_eq_true,
        beq_iff_eq]
      exact ⟨fun d hd => by simpa [Execution.isOnError, and_assoc] using hall d hd, d, hd, hcd⟩

end

section

variable {st : TaskId → TaskStatus}

lemma anyTask_eq_true :
    anyTask e p st = true ↔ ∃ t ∈ e.tasks, p (st t.id) = true := by
  simp [anyTask]

lemma anyTask_eq_false :
    anyTask e p st = false ↔ ∀ t ∈ e.tasks, p (st t.id) = false := by
  simp [anyTask]

lemma isDeadlocked_iff :
    isDeadlocked e st = true ↔
      (∃ t ∈ e.tasks, st t.id = .scheduled) ∧ ∀ t ∈ e.tasks, (st t.id).isActive = false := by
  simp [isDeadlocked, anyTask]

lemma getExecutionStatus_cases (e : Execution) (w : World) :
    (isDeadlocked e w.st = true ∧ getExecutionStatus e w = .deadlocked) ∨
    (isDeadlocked e w.st = false ∧ (∃ t ∈ e.tasks, (w.st t.id).isActive = true) ∧
      (getExecutionStatus e w = .running ∨ getExecutionStatus e w = .cancelling)) ∨
    ((∀ t ∈ e.tasks, (w.st t.id).isActive = false ∧ w.st t.id ≠ .scheduled) ∧
      (getExecutionStatus e w = .error ∨ getExecutionStatus e w = .canceled ∨
        getExecutionStatus e w = .completed ∧
          ∀ t ∈ e.tasks, w.st t.id = .completed ∨ w.st t.id = .onErrorOnly)) := by
  by_cases hd : isDeadlocked e w.st = true
  · left
    have hd' := hd
    simp only [isDeadlocked] at hd'
    exact ⟨hd, by simp only [getExecutionStatus, hd', if_true]⟩
  right
  have hd : isDeadlocked e w.st = false := by simpa using hd
  have hcond := hd
  simp only [isDeadlocked] at hcond
  by_cases hrun : anyTask e TaskStatus.isActive w.st = true
  · left
    refine ⟨hd, anyTask_eq_true.mp hrun, ?_⟩
    simp only [getExecutionStatus, hrun, Bool.not_true, Bool.and_false, Bool.false_eq_true,
      if_false, if_true]
    split
    · exact .inr rfl
    · split
      · exact .inr rfl
      · exact .inl rfl
  right
  have hrun : anyTask e TaskStatus.isActive w.st = false := by simpa using hrun
  have hsched : anyTask e (· == .scheduled) w.st = false := by simpa [hrun] using hcond
  have hcing : anyTask e (fun s => s == .cancelling || s == .cancellingAfterCompletion) w.st
      = false := by
    rw [anyTask_eq_false] at hrun ⊢
    intro t ht
    have := hrun t ht
    revert this
    cases w.st t.id <;> decide
  refine ⟨fun t ht => ⟨anyTask_eq_false.mp hrun t ht, by simpa using anyTask_eq_false.mp hsched t ht⟩,
    ?_⟩
  simp only [getExecutionStatus, hrun, hsched, hcing, Bool.false_and, Bool.false_eq_true, if_false]
  split
  · exact .inl rfl
  · rename_i herr
    split
    · exact .inr (.inl rfl)
    · rename_i hcan
      refine .inr (.inr ⟨rfl, fun t ht => ?_⟩)
      have h1 := anyTask_eq_false.mp hrun t ht
      have h2 := anyTask_eq_false.mp hsched t ht
      have h3 := anyTask_eq_false.mp (Bool.eq_false_iff.mpr herr) t ht
      have h4 := anyTask_eq_false.mp (Bool.eq_false_iff.mpr hcan) t ht
      revert h1 h2 h3 h4
      cases w.st t.id <;> decide

end

section

variable (e : Execution) (env : Env)

/-- The status the loop of `_cancel_tasks_execution` gives a task. -/
def cancelledStatus (force : Bool) (task : Task) (s : TaskStatus) : TaskStatus :=
  if force && (s.isActive || s == .failedToCancel) then .forceCanceled
  else if s = .scheduled ∧ task.dependsOn = [] then .unscheduled
  else if s = .pending ∨ s = .starting then .unscheduled
  else if s = .running ∨ s = .failedToCancel then
    if task.onError then .cancellingAfterCompletion
    else if env.cancelTaskAccepted task.id then .cancelling else .failedToCancel
  else if s = .onErrorOnly then .scheduled
  else s

variable {e env} {x db : World} {force : Bool}

lemma cancelTask_st_self (h : db.st t.id = x.st t.id) :
    (cancelTask e env x force db t).st t.id = cancelledStatus env force t (x.st t.id) := by
  have hrow : (x.rows t.id).status = x.st t.id := rfl
  simp only [cancelTask, cancelledStatus, hrow, Bool.not_eq_true']
  split_ifs <;> simp_all

lemma cancelTask_st_ne (h : j ≠ t.id) :
    (cancelTask e env x force db t).st j = db.st j := by
  simp only [cancelTask]
  split_ifs <;> simp [h]

lemma cancelTask_fields :
    (cancelTask e env x force db t).status = db.status ∧
    (cancelTask e env x force db t).lastExecutionStatus = db.lastExecutionStatus := by
  simp only [cancelTask]
  split_ifs <;> simp

lemma cancelTask_emitted (h : eff.isCancellation = false) :
    (cancelTask e env x force db t).emitted eff ↔ db.emitted eff := by
  have h1 : ∀ id s, (Effect.setTaskStatus id s).isCancellation = true →
      Effect.setTaskStatus id s ≠ eff := by
    rintro _ _ h' rfl
    exact absurd h (by rw [h']; decide)
  have h2 : ∀ id, Effect.cancelTask id ≠ eff := by rintro _ rfl; simp at h
  have h3 : ∀ id, Effect.cancelTaskRaised id ≠ eff := by rintro _ rfl; simp at h
  simp only [cancelTask]
  split_ifs <;> simp [h1, h2, h3]

lemma cancelTask_unscheduled {id : TaskId}
    (h : (cancelTask e env x force db t).emitted (.setTaskStatus id .unscheduled)) :
    db.emitted (.setTaskStatus id .unscheduled) ∨
      id = t.id ∧ (cancelTask e env x force db t).st id = .unscheduled := by
  revert h
  simp only [cancelTask]
  by_cases hid : id = t.id
  · subst hid
    split_ifs <;> simp +contextual
  · split_ifs <;> simp +contextual [Ne.symm hid]

section

variable {ts : List Task}

lemma nodup_ids_cons : ((a :: ts).map (·.id)).Nodup ↔
    (∀ t ∈ ts, t.id ≠ a.id) ∧ (ts.map (·.id)).Nodup := by
  simp

lemma foldl_cancelTask_st (hnd : (ts.map (·.id)).Nodup) (hdb : ∀ t ∈ ts, db.st t.id = x.st t.id) :
    let db' := ts.foldl (cancelTask e env x force) db
    (∀ t ∈ ts, db'.st t.id = cancelledStatus env force t (x.st t.id)) ∧
      (∀ j, (∀ t ∈ ts, j ≠ t.id) → db'.st j = db.st j) ∧
      ∀ id, db'.emitted (.setTaskStatus id .unscheduled) →
        db.emitted (.setTaskStatus id .unscheduled) ∨ db'.st id = .unscheduled := by
  induction ts generalizing db with
  | nil => exact ⟨by simp, fun _ _ => rfl, fun _ => .inl⟩
  | cons a ts ih =>
    obtain ⟨hne, hnd⟩ := nodup_ids_cons.mp hnd
    have hdb' : ∀ t ∈ ts, (cancelTask e env x force db a).st t.id = x.st t.id := fun t ht => by
      rw [cancelTask_st_ne (hne t ht), hdb t (List.mem_cons_of_mem _ ht)]
    obtain ⟨hin, hout, hemitted⟩ := ih hnd hdb'
    simp only [List.foldl_cons]
    refine ⟨fun t ht => ?_, fun j hj => ?_, fun id h => ?_⟩
    · rcases List.mem_cons.mp ht with rfl | ht
      · rw [hout _ (fun t ht => (hne t ht).symm)]
        exact cancelTask_st_self (hdb _ List.mem_cons_self)
      · exact hin t ht
    · rw [hout j fun t ht => hj t (List.mem_cons_of_mem _ ht)]
      exact cancelTask_st_ne (hj a List.mem_cons_self)
    · rcases hemitted id h with h | h
      · refine (cancelTask_unscheduled h).imp_right ?_
        rintro ⟨rfl, h⟩
        rw [hout _ fun t ht => (hne t ht).symm, h]
      · exact .inr h

lemma foldl_cancelTask_fields :
    (ts.foldl (cancelTask e env x force) db).status = db.status ∧
    (ts.foldl (cancelTask e env x force) db).lastExecutionStatus = db.lastExecutionStatus ∧
    ∀ eff : Effect, eff.isCancellation = false →
      ((ts.foldl (cancelTask e env x force) db).emitted eff ↔ db.emitted eff) := by
  induction ts generalizing db with
  | nil => simp
  | cons a ts ih =>
    obtain ⟨h1, h2, h3⟩ := @ih (cancelTask e env x force db a)
    obtain ⟨g1, g2⟩ := @cancelTask_fields e env x db force a
    exact ⟨h1.trans g1, h2.trans g2, fun eff h => (h3 eff h).trans (cancelTask_emitted h)⟩

end

lemma sortedByIndex_perm (ts : List Task) : (sortedByIndex ts).Perm ts :=
  List.perm_insertionSort _ _

@[simp] lemma mem_sortedByIndex : t ∈ sortedByIndex ts ↔ t ∈ ts :=
  (sortedByIndex_perm ts).mem_iff

lemma nodup_sortedByIndex (h : (ts.map (·.id)).Nodup) :
    ((sortedByIndex ts).map (·.id)).Nodup :=
  ((sortedByIndex_perm ts).map _).nodup_iff.mpr h

lemma cancelTasks_st_of_mem (hx : x.st = db.st) (ht : t ∈ e.tasks) :
    (cancelTasks e env x force db).st t.id = cancelledStatus env force t (db.st t.id) := by
  have h : (cancelTasks e env x force db).st t.id = cancelledStatus env force t (x.st t.id) :=
    (foldl_cancelTask_st (nodup_sortedByIndex e.nodup)
      (fun t _ => by rw [World.st_emit, hx])).1 t (mem_sortedByIndex.mpr ht)
  rwa [hx] at h

@[simp] lemma cancelTasks_status : (cancelTasks e env x force db).status = db.status :=
  foldl_cancelTask_fields.1

@[simp] lemma cancelTasks_last :
    (cancelTasks e env x force db).lastExecutionStatus = db.lastExecutionStatus :=
  foldl_cancelTask_fields.2.1

lemma cancelTasks_event :
    (⟨.cancelTasks force, db.status, db.st⟩ :: db.trace) <:+
      (cancelTasks e env x force db).trace :=
  @Writes.suffix (db.emit (.cancelTasks force)) _ (Writes.foldl (fun _ _ => Writes.cancelTask) _)

lemma cancelTasks_emitted (h : eff.isCancellation = false) :
    (cancelTasks e env x force db).emitted eff ↔ db.emitted eff := by
  refine ((@foldl_cancelTask_fields e env x (db.emit (.cancelTasks force)) force _).2.2
    eff h).trans ?_
  have hne : Effect.cancelTasks force ≠ eff := by rintro rfl; simp at h
  simp [hne]

lemma cancelTasks_unscheduled {id : TaskId} (hx : x.st = db.st)
    (h : (cancelTasks e env x force db).emitted (.setTaskStatus id .unscheduled)) :
    db.emitted (.setTaskStatus id .unscheduled) ∨
      (cancelTasks e env x force db).st id = .unscheduled := by
  have h := (foldl_cancelTask_st (nodup_sortedByIndex e.nodup)
    (fun t _ => by rw [World.st_emit, hx])).2.2 id h
  simpa [cancelTasks] using h

end

end Coriolis.Conductor

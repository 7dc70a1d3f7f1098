import Coriolis.Conductor.Runs

/-!
# What the handlers leave alone

The infos of an action are written by a completed task and by an allocation of minions, and
only a completed task has a post-task action. Everything else a handler does, the
advancement and the cancellation of the execution included, is a sequence of the writes
listed in `Write`, which touch neither.
-/

namespace Coriolis.Conductor

variable {e : Execution} {conf : Conf} {env : Env} {w w' : World} {t : Task} {force : Bool}

def World.posts (w : World) : List Event := w.trace.filter (·.effect.isPostTaskAction)

lemma Writes.posts (h : Writes w w') : w'.posts = w.posts := by
  induction h with
  | refl => rfl
  | tail _ hlast ih =>
    refine .trans ?_ ih
    cases hlast with
    | taskStatus | hostProperties | executionStatus => rfl
    | @effect eff h =>
      have hother : eff.isPostTaskAction = false := by
        rcases h with h | ⟨-, h⟩
        · cases eff <;> first | rfl | cases h
        · exact h
      simp [World.posts, World.emit, hother]

namespace Writes

lemma send (h : eff.isPostTaskAction = false) : Writes w (w.emit eff) :=
  .single (.effect w (.inr ⟨rfl, h⟩))

lemma checkCleanExecutionDeadlock :
    Writes w (checkCleanExecutionDeadlock e x ts requery w).2 := by
  simp only [Conductor.checkCleanExecutionDeadlock]
  generalize (if requery = true then w else x) = y
  split
  · exact cleanDeadlock
  · exact .refl

lemma refreshExecutionStatus : Writes w (refreshExecutionStatus e x w) := by
  simp only [Conductor.refreshExecutionStatus]
  split
  · exact setTasksExecutionStatus
  · exact .refl

lemma finishAdvance :
    Writes w (finishAdvance e x st started w).2 := by
  simp only [Conductor.finishAdvance]
  split
  · have h := @checkCleanExecutionDeadlock e w x (some st) true
    split <;> rename_i heq <;> rw [heq] at h
    · exact h
    · exact h.trans refreshExecutionStatus
  · exact refreshExecutionStatus

section

variable {cancel : World → Outcome Unit} (hcancel : ∀ db, Writes db (cancel db).2)

include hcancel

lemma startFailed : Writes w (startFailed cancel err w).2 := by
  have h := hcancel w
  simp only [Conductor.startFailed]
  split <;> rename_i heq <;> rw [heq] at h <;> exact h

lemma startTask : Writes w (startTask env cancel t w).2 := by
  simp only [Conductor.startTask]
  split_ifs
  · exact (taskStatus.trans ((send rfl).trans taskStatus)).trans (startFailed hcancel)
  · exact (taskStatus.trans (send rfl)).trans (startFailed hcancel)
  · exact taskStatus.trans (send rfl)

lemma advanceLoop (ts : List Task) (st : TaskId → TaskStatus) (started : List TaskId) :
    Writes w (advanceLoop e env cancel ts st started w).2 := by
  induction ts generalizing w st started with
  | nil => exact .refl
  | cons t ts ih =>
    simp only [Conductor.advanceLoop]
    split
    · have h := @startTask env w t cancel hcancel
      split <;> rename_i heq <;> rw [heq] at h
      · exact h
      · exact h.trans (ih _ _)
    · exact taskStatus.trans (ih _ _)
    · exact ih _ _

lemma advanceWith :
    Writes w (advanceWith e env cancel x requery inst w).2 := by
  simp only [Conductor.advanceWith]
  generalize (if requery = true then w else x) = y
  split
  · exact checkCleanExecutionDeadlock
  split
  · exact .refl
  have h := @advanceLoop e env w cancel hcancel (sortedByIndex (tasksToProcess e inst)) y.st []
  split <;> rename_i heq <;> rw [heq] at h
  · exact h
  · exact h.trans finishAdvance

end

lemma cancelWith (hadv : ∀ x r db, Writes db (adv x r db).2) :
    Writes w (cancelWith e env adv x requery force w).2 := by
  simp only [Conductor.cancelWith]
  generalize (if requery = true then w else x) = y
  split
  · exact .trans (setTasksExecutionStatus.trans cancelTasks) (hadv ..)
  split
  · exact hadv ..
  split
  · exact .refl
  · exact .trans cancelTasks (hadv ..)

lemma advance (fuel : Nat) :
    Writes w (advance e env fuel x requery inst w).2 := by
  induction fuel generalizing w x requery inst with
  | zero => exact .refl
  | succ fuel ih => exact advanceWith fun db => cancelWith fun _ _ _ => ih

lemma advanceExecutionState :
    Writes w (advanceExecutionState e env x requery inst w).2 := advance _

lemma cancelTasksExecution :
    Writes w (cancelTasksExecution e env x requery force w).2 :=
  cancelWith fun _ _ _ => advanceExecutionState

lemma beginLoop (ts : List Task) (started : List TaskId) :
    Writes w (beginLoop e env x ts started w).2 := by
  induction ts generalizing w started with
  | nil => exact .refl
  | cons t ts ih =>
    simp only [Conductor.beginLoop]
    split
    · have h := @startTask env w t (Conductor.cancelTasksExecution e env x true false)
        fun _ => cancelTasksExecution
      split <;> rename_i heq <;> rw [heq] at h
      · exact h
      · exact h.trans (ih _)
    · exact ih _

lemma beginTasks : Writes w (beginTasks e env x w).2 := by
  have h := @beginLoop e env w x e.tasks []
  simp only [Conductor.beginTasks]
  split <;> rename_i heq <;> rw [heq] at h
  · exact h
  split
  · exact h
  · exact h.trans setTasksExecutionStatus

lemma setTaskHost : Writes w (setTaskHost t host w).2 := by
  simp only [Conductor.setTaskHost]
  split
  · exact .refl
  split
  · exact .trans hostProperties taskStatus
  split
  · exact .refl
  · exact .trans hostProperties taskStatus

lemma setTaskProcess : Writes w (setTaskProcess t processId w).2 := by
  simp only [Conductor.setTaskProcess]
  split
  · exact .refl
  split
  · exact .refl
  · exact .trans hostProperties taskStatus

lemma setTaskError : Writes w (setTaskError e conf env t details w).2 := by
  have herr : Writes w (w.errored t details) := (send rfl).trans taskStatus
  refine herr.trans ?_
  rcases @setTaskError_cases e conf env w t details with h | ⟨w₂, text, -, -, -, hw₂, h⟩ <;> rw [h]
  · exact cancelTasksExecution
  · exact ((debugging_written hw₂).trans taskStatus).trans setTasksExecutionStatus

lemma confirmTaskCancellation :
    Writes w (confirmTaskCancellation e env t details w).2 := by
  have h : Writes w (w.cancelConfirmed t details) := (send rfl).trans taskStatus
  simp only [Conductor.confirmTaskCancellation]
  split
  · exact h
  · exact h.trans advanceExecutionState

lemma cancelRunning :
    Writes w (cancelRunning e env err err' force w).2 := by
  simp only [Conductor.cancelRunning]
  split
  · exact .refl
  split
  · exact .refl
  · exact cancelTasksExecution

lemma reportMinionsAllocationError : Writes w (reportMinionsAllocationError e env w).2 := by
  simp only [Conductor.reportMinionsAllocationError]
  split
  · exact .refl
  have h := @cancelTasksExecution e env w false w true
  split <;> rename_i heq <;> rw [heq] at h
  · exact h
  · exact h.trans setTasksExecutionStatus

end Writes

/-- The calls that write infos: completions and allocations of minions. -/
def Call.keepsBooks : Call → Bool
  | .taskCompleted _ _ | .confirmMinionsAllocation _ => true
  | _ => false

lemma step_writes (hc : c.keepsBooks = false) : Writes w (step e conf env c w).2 := by
  cases c with
  | setTaskHost => exact .setTaskHost
  | setTaskProcess => exact .setTaskProcess
  | taskCompleted | confirmMinionsAllocation => simp [Call.keepsBooks] at hc
  | setTaskError => exact .setTaskError
  | confirmTaskCancellation => exact .confirmTaskCancellation
  | cancel force =>
    simp only [step]
    split
    · exact .cancelRunning
    · exact .cancelRunning
  | reportMinionsAllocationError => exact .reportMinionsAllocationError

lemma updateInfo_posts (inst : String) (new : TaskInfo) :
    (w.updateTransferActionInfoForInstance inst new).2.posts = w.posts := by
  simp only [World.updateTransferActionInfoForInstance]
  split <;> rfl

lemma storeTaskResult_posts (h : storeTaskResult t result w = (res, w')) : w'.posts = w.posts := by
  obtain rfl : (storeTaskResult t result w).2 = w' := congrArg Prod.snd h
  simp only [storeTaskResult]
  split
  · split <;> rfl
  · exact updateInfo_posts _ _

lemma storeMinionAllocations_posts (l : List (String × MinionAllocation)) :
    (storeMinionAllocations e l w).2.posts = w.posts := by
  induction l generalizing w with
  | nil => rfl
  | cons p l ih =>
    simp only [storeMinionAllocations]
    split
    · split
      · rfl
      · rw [ih, updateInfo_posts]
    · exact ih

lemma confirmMinionsAllocation_posts (l : List (String × MinionAllocation)) :
    (confirmMinionsAllocation e env l w).2.posts = w.posts := by
  have hstored : (updateTaskInfoForMinionAllocations e l w).2.posts = w.posts := by
    simp only [updateTaskInfoForMinionAllocations]
    split
    · rfl
    · exact storeMinionAllocations_posts l
  simp only [confirmMinionsAllocation]
  split
  · rfl
  split <;> rename_i heq <;> rw [heq] at hstored
  · exact hstored
  · exact Writes.beginTasks.posts.trans hstored

lemma taskCompleted_suffix (hc : completionStatus (w.rows t.id) = some (s, details))
    (result : TaskInfo) :
    ((w.emit (.taskCompleted t.id)).setTaskStatus t.id s details).trace <:+
      (taskCompleted e conf env t result w).2.trace := by
  rcases @taskCompleted_cases e conf env w t result with ⟨hc', -⟩ | ⟨_, _, w₁, hc', hkept, h⟩ <;>
    cases hc.symm.trans hc'
  rcases h with ⟨h, -⟩ | ⟨x, -, -, h⟩ <;> rw [h]
  · exact hkept.suffix
  · exact hkept.suffix.trans Writes.advanceExecutionState.suffix

lemma posts_postTaskAction (a : PostTaskAction) :
    (w.emit (.postTaskAction a)).posts = ⟨.postTaskAction a, w.status, w.st⟩ :: w.posts := by
  simp [World.posts, World.emit, Effect.isPostTaskAction]

/-- There is one post-task action more at most, and it stores parameters of the transfer only
after the update of a destination, when no other task is active. -/
lemma taskCompleted_posts (result : TaskInfo) :
    let w' := (taskCompleted e conf env t result w).2
    w'.posts = w.posts ∨ ∃ s details info w₁ a,
      completionStatus (w.rows t.id) = some (s, details) ∧
      storeTaskResult t result
        ((w.emit (.taskCompleted t.id)).setTaskStatus t.id s details) = (.ok info, w₁) ∧
      w'.posts = ⟨.postTaskAction a, w₁.status, w₁.st⟩ :: w.posts ∧
      ∀ v, a = .updateTransfer v → t.taskType = .updateDestinationTransfer ∧
        otherTasksRunning e w₁ t = false ∧ v = info := by
  intro w'
  cases @taskCompleted_completion e conf env w t result with
  | dropped hc h => exact .inl ((congrArg World.posts h).trans rfl)
  | raised hc hres => exact .inl ((storeTaskResult_posts hres).trans rfl)
  | @taken s details info w₁ w₂ hc hres hpost h =>
    have hposts : w₁.posts = w.posts := (storeTaskResult_posts hres).trans rfl
    have hw' : w'.posts = w₂.posts := by
      rcases h with ⟨h, -⟩ | h
      · exact congrArg World.posts h
      · exact (congrArg World.posts h).trans Writes.advanceExecutionState.posts
    have hvolumes : (updateVolumesInfo t info w₁).posts = w₁.posts := updateInfo_posts _ _
    rw [hw', ← hposts]
    cases hpost with
    | nothing => exact .inl rfl
    | @action a ha =>
      exact .inr ⟨s, details, info, w₁, a, hc, hres, posts_postTaskAction a,
        fun v h => absurd h (ha v)⟩
    | volumes => exact .inl hvolumes
    | parameters hty hother =>
      have hkept : Bookkeeping w₁ (updateVolumesInfo t info w₁) := .updateInfo w₁ _ _
      refine .inr ⟨s, details, info, w₁, .updateTransfer info, hc, hres, ?_, fun v h =>
        ⟨hty, hother, by simpa using h.symm⟩⟩
      rw [posts_postTaskAction, hvolumes, hkept.status, hkept.st]

end Coriolis.Conductor

import Coriolis.Conductor.Launch

/-!
# What the status of an execution says about its tasks

Before `_begin_tasks` is through no worker has done anything; in an execution that was given
up as deadlocked or for want of minions every task is over and none did its work; and a task
whose worker refused to cancel it is never looked at by a second cancellation, because the
execution is not RUNNING again before that worker answers.
-/

namespace Coriolis.Conductor

variable {e : Execution} {w w' : World} {t : Task}

def TaskStatus.isFruitless (s : TaskStatus) : Bool := s.isSettled && !s.triggersCleanup

lemma TaskStatus.isSettled_of_isFruitless {s : TaskStatus} (h : s.isFruitless = true) :
    s.isSettled = true := by
  simp only [isFruitless, Bool.and_eq_true] at h
  exact h.1

lemma errorStatus_isFruitless (t : Task) (row : TaskRow) (details : String) :
    (errorStatus t row details).1.isFruitless = true := by
  rcases errorStatus_cases t row details with ⟨-, h⟩ | ⟨-, h⟩ | ⟨-, h⟩ <;> rw [h] <;> decide

lemma cancelledStatus_eq_failedToCancel (h : cancelledStatus env force t s = .failedToCancel) :
    (s = .running ∨ s = .failedToCancel) ∧ force = false := by
  revert h
  cases s <;> cases force <;> simp [cancelledStatus, TaskStatus.isActive,
    TaskStatus.activeTaskStatuses]
  all_goals split <;> simp

namespace TaskStep

lemma isFruitless (h : TaskStep e conf strong ok w w' t) (hw : (w.st t.id).isFruitless = true) :
    (w'.st t.id).isFruitless = true := by
  rcases h.of_isSettled (TaskStatus.isSettled_of_isFruitless hw) with h' | ⟨-, -, details, h'⟩
  · rwa [h']
  · rw [h']
    exact errorStatus_isFruitless _ _ _

end TaskStep

/-- What the status of an execution says about its tasks. -/
structure Staged (e : Execution) (w : World) : Prop where
  last : LastOk w
  early : w.status = .unexecuted ∨ w.status = .awaitingMinionAllocations → ∀ t ∈ e.tasks,
    w.st t.id = .scheduled ∨ w.st t.id = .onErrorOnly ∨ w.st t.id = .pending ∨
      (w.st t.id).isFruitless = true
  stopped : w.status = .deadlocked ∨ w.status = .errorAllocatingMinions ∨ w.status = .pending →
    ∀ t ∈ e.tasks, (w.st t.id).isFruitless = true
  stranded : ∀ t ∈ e.tasks, w.st t.id = .canceledFromDeadlock →
    ∀ s ∈ e.tasks, (w.st s.id).isFruitless = true
  refused : ∀ t ∈ e.tasks, w.st t.id = .failedToCancel → cancelLoops false w.status = false
  ended : w.status.inFinalizedTaskStatuses = true → ∀ t ∈ e.tasks, w.st t.id ≠ .scheduled

namespace Staged

lemma deadlocked (h : Staged e w) (hd : isDeadlocked e w.st = true)
    (hs : w.status = .unexecuted) :
    ∀ t ∈ e.tasks, ((cleanDeadlock e w.status w.st w).st t.id).isFruitless = true := by
  intro t ht
  rw [cleanDeadlock_st ht]
  split
  · rfl
  · rename_i hno
    rcases h.early (.inl hs) t ht with h' | h' | h' | h'
    · exact absurd (.inl h') hno
    · exact absurd (.inr h') hno
    · have := (isDeadlocked_iff.mp hd).2 t ht
      rw [h'] at this
      cases this
    · exact h'

lemma early_change (h : Staged e w) (hc : Change e conf True reported w w')
    (hs : w'.status = .unexecuted ∨ w'.status = .awaitingMinionAllocations) (ht : t ∈ e.tasks) :
    w'.st t.id = .scheduled ∨ w'.st t.id = .onErrorOnly ∨ w'.st t.id = .pending ∨
      (w'.st t.id).isFruitless = true := by
  have hstatus : w.status = w'.status := by
    by_contra hne
    rcases hs with hs | hs
    · exact hc.status_ne (.inl hs) hne rfl
    · exact hc.status_ne (.inr (.inl hs)) hne rfl
  rw [← hstatus] at hs
  have hw := h.early hs t ht
  -- a worker that reports now speaks of a task that is over already
  have hrep : ∀ {r : Report}, reported w r → r.task = t → (w.st t.id).isFruitless = true := by
    rintro r ⟨-, haw, hun⟩ rfl
    have hset := hun (hs.resolve_right haw)
    rcases hw with h' | h' | h' | h'
    · rw [h'] at hset; cases hset
    · rw [h'] at hset; cases hset
    · rw [h'] at hset; cases hset
    · exact h'
  have hstep := hc.task ht
  cases hc.task ht with
  | same h => rwa [h]
  | started _ h => exact .inr (.inr (.inl h))
  | notScheduled _ h | unscheduled _ h | deadlocked _ _ _ _ h | debugged _ _ h =>
    exact .inr (.inr (.inr (h ▸ rfl)))
  | castRaised _ h =>
    rw [h]
    split
    · exact .inr (.inr (.inr rfl))
    · exact .inr (.inr (.inl rfl))
  | @cancelled env force _ h =>
    rcases hw with h' | h' | h' | h'
    · rw [h, h', cancelledStatus_scheduled]
      split
      · exact .inr (.inr (.inr rfl))
      · exact .inl rfl
    · rw [h, h', cancelledStatus_onErrorOnly]
      exact .inl rfl
    · rw [h, cancelledStatus_pending (.inl h')]
      split
      · exact .inr (.inr (.inr rfl))
      · exact .inr (.inr (.inr rfl))
    · exact .inr (.inr (.inr (hstep.isFruitless h')))
  | moved hok | completed hok | errored hok | cancelConfirmed hok =>
    exact .inr (.inr (.inr (hstep.isFruitless (hrep hok rfl))))

lemma stopped_change (h : Staged e w) (hc : Change e conf True reported w w')
    (hs : w'.status = .deadlocked ∨ w'.status = .errorAllocatingMinions ∨ w'.status = .pending) :
    ∀ t ∈ e.tasks, (w'.st t.id).isFruitless = true := by
  cases hc.statusStep with
  | same heq => exact fun t ht => (hc.task ht).isFruitless (h.stopped (heq ▸ hs) t ht)
  | cancelling _ h' | begun _ _ h' | debugged _ _ h' => simp [h'] at hs
  | refreshed _ hd _ h' =>
    rw [h'] at hs
    rcases getExecutionStatus_cases e w with ⟨-, hg⟩ | ⟨-, -, hg | hg⟩ | ⟨-, hg | hg | ⟨hg, -⟩⟩
    · exact absurd hg (hd trivial)
    all_goals simp [hg] at hs
  | deadlocked hd hun hw => exact hw ▸ h.deadlocked hd (hun trivial)
  | allocationFailed hall hst =>
    intro t ht
    rw [hst]
    simpa [TaskStatus.isFruitless] using hall trivial t ht

lemma stranded_change (h : Staged e w) (hc : Change e conf True reported w w') (ht : t ∈ e.tasks)
    (hst : w'.st t.id = .canceledFromDeadlock) :
    ∀ s ∈ e.tasks, (w'.st s.id).isFruitless = true := by
  have hold : w.st t.id = .canceledFromDeadlock → ∀ s ∈ e.tasks, (w'.st s.id).isFruitless = true :=
    fun h' s hs => (hc.task hs).isFruitless (h.stranded t ht h' s hs)
  rcases (hc.task ht).of_isRare (by rw [hst]; rfl) with
    h' | ⟨env, force, -, h', -⟩ | ⟨-, hd, hun, hw⟩ | ⟨h', -⟩
  · exact hold (h' ▸ hst)
  · by_contra hno
    exact cancelledStatus_ne (fun heq => hno (hold heq)) rfl (h'.symm.trans hst)
  · exact hw ▸ h.deadlocked hd (hun trivial)
  · simp [h'] at hst

lemma getExecutionStatus_not_loops (ht : t ∈ e.tasks) (hst : w.st t.id = .failedToCancel)
    (hd : getExecutionStatus e w ≠ .deadlocked) :
    cancelLoops false (getExecutionStatus e w) = false := by
  have hcan : anyTask e TaskStatus.isCanceled w.st = true :=
    anyTask_eq_true.mpr ⟨t, ht, by rw [hst]; decide⟩
  revert hd
  simp only [getExecutionStatus, hcan]
  split_ifs <;> simp <;> decide

lemma refused_change (h : Staged e w) (hc : Change e conf True reported w w') (ht : t ∈ e.tasks)
    (hst : w'.st t.id = .failedToCancel) : cancelLoops false w'.status = false := by
  -- the worker refused before: then no status that is looped through comes back
  have hold : w.st t.id = .failedToCancel → cancelLoops false w'.status = false := by
    intro hw
    have hl := h.refused t ht hw
    cases hc.statusStep with
    | same heq => rwa [heq]
    | cancelling hrun => rw [hrun] at hl; cases hl
    | refreshed _ hd _ heq => rw [heq]; exact getExecutionStatus_not_loops ht hw (hd trivial)
    | deadlocked _ hun => rw [hun trivial] at hl; cases hl
    | begun hs =>
      rcases hs with hs | hs
      · rw [hs] at hl; cases hl
      · rw [h.last hs] at hl; cases hl
    | debugged _ _ heq => rw [heq]; decide
    | allocationFailed hall =>
      have := (hall trivial t ht).1
      rw [hw] at this
      cases this
  rcases (hc.task ht).of_isRare (by rw [hst]; rfl) with
    h' | ⟨env, force, hl, h', hs, -⟩ | ⟨h', -⟩ | ⟨h', -⟩
  · exact hold (h' ▸ hst)
  · by_cases hw : w.st t.id = .failedToCancel
    · exact hold hw
    · -- only a running task is asked to stop, and only a RUNNING execution has one
      have hrun : w.st t.id = .running ∧ force = false := by
        obtain ⟨hs', hf⟩ := cancelledStatus_eq_failedToCancel (h'.symm.trans hst)
        exact ⟨hs'.resolve_right hw, hf⟩
      have hstatus : w.status = .running := by
        have hf : TaskStatus.isFruitless .running = false := by decide
        by_contra hne
        have hs' : (w.status = .unexecuted ∨ w.status = .awaitingMinionAllocations) ∨
            w.status = .deadlocked ∨ w.status = .errorAllocatingMinions ∨ w.status = .pending := by
          rw [hrun.2] at hl
          revert hl hne
          cases w.status <;> decide
        rcases hs' with hs' | hs'
        · have := h.early hs' t ht
          simp [hrun.1, hf] at this
        · have := h.stopped hs' t ht
          simp [hrun.1, hf] at this
      rw [hs, if_pos hstatus]
      decide
  · simp [h'] at hst
  · simp [h'] at hst

lemma over_change (h : Staged e w) (hc : Change e conf True reported w w')
    (hs : w'.status.inFinalizedTaskStatuses = true) (ht : t ∈ e.tasks) :
    w'.st t.id ≠ .scheduled := by
  cases hc.statusStep with
  | same heq =>
    rw [heq] at hs
    intro hst
    rcases (hc.task ht).scheduled hst with h' | ⟨⟨force, hl⟩, -⟩
    · exact h.ended hs t ht h'
    · simp [cancelLoops, hs] at hl
  | refreshed _ hd hst heq =>
    rw [heq] at hs
    rcases getExecutionStatus_cases e w with ⟨-, hg⟩ | ⟨-, -, hg | hg⟩ | ⟨hno, -⟩
    · exact absurd hg (hd trivial)
    · rw [hg] at hs; cases hs
    · rw [hg] at hs; cases hs
    · rw [hst]; exact (hno t ht).2
  | debugged _ hno => exact hno trivial t ht
  | cancelling _ heq | begun _ _ heq | allocationFailed _ _ heq =>
    rw [heq] at hs; cases hs
  | deadlocked _ _ hw => rw [hw, cleanDeadlock_status] at hs; cases hs

lemma change (hc : Change e conf True reported w w') (h : Staged e w) : Staged e w' :=
  ⟨h.last.change hc, fun hs _ ht => h.early_change hc hs ht, h.stopped_change hc,
    fun _ ht hst => h.stranded_change hc ht hst, fun _ ht hst => h.refused_change hc ht hst,
    fun hs _ ht => h.over_change hc hs ht⟩

end Staged

lemma cancelledStatus_triggersCleanup (h : (cancelledStatus env force t s).triggersCleanup = true) :
    s.triggersCleanup = true := by
  rw [TaskStatus.triggersCleanup_iff] at h ⊢
  by_contra hno
  rw [not_or] at hno
  rcases h with h | h
  · exact cancelledStatus_ne hno.1 rfl h
  · exact cancelledStatus_ne hno.2 rfl h

lemma TaskStep.of_triggersCleanup (h : TaskStep e conf strong ok w w' t)
    (htr : (w'.st t.id).triggersCleanup = true) :
    w'.st t.id = w.st t.id ∨
      ok w (.completion t) ∧ ⟨.taskCompleted t.id, w.status, w.st⟩ ∈ w'.trace ∧
        ∃ details, completionStatus (w.rows t.id) = some (w'.st t.id, details) := by
  have hnot : ∀ {s : TaskStatus}, w'.st t.id = s → s.triggersCleanup = false → False := by
    rintro _ rfl hs
    simp [hs] at htr
  cases h with
  | same h => exact .inl h
  | cancelled _ h =>
    have hw := cancelledStatus_triggersCleanup (h ▸ htr)
    refine .inl (h.trans (cancelledStatus_of_isSettled ?_))
    rcases (TaskStatus.triggersCleanup_iff _).mp hw with h' | h' <;> rw [h'] <;> rfl
  | completed hok h he => exact .inr ⟨hok, he, _, h⟩
  | @cancelConfirmed details _ h =>
    rcases cancellationStatus_cases (w.rows t.id) details with ⟨-, h'⟩ | ⟨-, h'⟩
    · exact .inl (h.trans h')
    · exact (hnot (h.trans h') rfl).elim
  | castRaised _ h =>
    split at h
    · exact (hnot h rfl).elim
    · exact (hnot h rfl).elim
  | moved _ hm =>
    have := TaskStatus.isActive_not_isFinalized (active_of_moves hm).2
    rw [TaskStatus.isFinalized_of_triggersCleanup htr] at this
    cases this
  | @errored details _ h =>
    have := errorStatus_isFruitless t (w.rows t.id) details
    rw [← h] at this
    simp [TaskStatus.isFruitless, htr] at this
  | started _ h | notScheduled _ h | unscheduled _ h | deadlocked _ _ _ _ h | debugged _ _ h =>
    exact (hnot h rfl).elim

lemma TaskStep.stays_finalized (h : TaskStep e conf strong ok w w' t) (hs : Staged e w)
    (ht : t ∈ e.tasks) (hw : (w.st t.id).isFinalized = true) :
    (w'.st t.id).isFinalized = true := by
  by_cases hset : (w.st t.id).isSettled = true
  · exact TaskStatus.isFinalized_of_isSettled (h.isSettled hset)
  have hftc : w.st t.id = .failedToCancel := by
    by_contra hne
    exact hset (by simp [TaskStatus.isSettled, hw, hne])
  have hns : w.st t.id ≠ .scheduled := by simp [hftc]
  cases h with
  | same h => rwa [h]
  | started hd | notScheduled hd | castRaised hd => exact (not_start hd hns).elim
  | unscheduled hd => exact (not_unschedule hd hns).elim
  | @cancelled env force hl h =>
    -- only a forced cancellation looks at it again
    cases force
    · rw [hs.refused t ht hftc] at hl
      cases hl
    · rw [h, hftc]
      rfl
  | deadlocked _ _ _ hst | debugged _ hst => simp [hftc] at hst
  | moved _ hm =>
    rw [TaskStatus.isActive_not_isFinalized (active_of_moves hm).1] at hw
    cases hw
  | completed _ h => exact TaskStatus.isFinalized_of_isSettled (completionStatus_isSettled h)
  | errored _ h =>
    rw [h]
    exact TaskStatus.isFinalized_of_isSettled (errorStatus_isSettled _ _ _)
  | cancelConfirmed _ h =>
    rw [h]
    exact TaskStatus.isFinalized_of_isSettled (cancellationStatus_isSettled _ _)

lemma cancelledStatus_isActive (h : (cancelledStatus env force t s).isActive = true) :
    s.isActive = true ∨ s = .failedToCancel ∧ force = false := by
  revert h
  cases s <;> cases force <;> simp [cancelledStatus, TaskStatus.isActive,
    TaskStatus.activeTaskStatuses]
  all_goals split <;> simp

/-- A task becomes active when it starts. A cast that raised left it so only if the cancellation
did not look at the tasks. -/
lemma TaskStep.of_isActive (h : TaskStep e conf strong ok w w' t) (hs : Staged e w)
    (ht : t ∈ e.tasks) (hact : (w'.st t.id).isActive = true) :
    (w.st t.id).isActive = true ∨ lifecycleDecision e w.st t = .start ∧
      (w'.emitted (.beginTask t.id) ∨ cancelLoops false w.status = false ∧
        ∃ ev ∈ w'.trace, ev.effect = .beginTaskRaised t.id ∧ ev.status = w.status) := by
  have hover : ∀ s : TaskStatus, s.isActive = false → w'.st t.id ≠ s := by
    rintro _ hs rfl
    simp [hs] at hact
  cases h with
  | same h => exact .inl (h ▸ hact)
  | started hd _ he => exact .inr ⟨hd, .inl he⟩
  | castRaised hd h he =>
    refine .inr ⟨hd, .inr ⟨?_, he⟩⟩
    by_contra hl
    exact hover _ rfl (h.trans (if_pos (by simpa using hl)))
  | @cancelled env force hl h =>
    rw [h] at hact
    rcases cancelledStatus_isActive hact with h' | ⟨h', rfl⟩
    · exact .inl h'
    · simp [hs.refused t ht h'] at hl
  | moved _ hm => exact .inl (active_of_moves hm).1
  | notScheduled _ h | unscheduled _ h | deadlocked _ _ _ _ h | debugged _ _ h =>
    exact absurd h (hover _ rfl)
  | completed _ h =>
    exact absurd rfl (hover _ (TaskStatus.isActive_of_isSettled (completionStatus_isSettled h)))
  | errored _ h =>
    exact absurd h (hover _ (TaskStatus.isActive_of_isSettled (errorStatus_isSettled _ _ _)))
  | cancelConfirmed _ h =>
    exact absurd h (hover _ (TaskStatus.isActive_of_isSettled (cancellationStatus_isSettled _ _)))

/-- What is over does not do its work after all, unless a worker completes what it refused
to cancel. -/
lemma TaskStep.isFinalized (h : TaskStep e conf strong ok w w' t) (hs : Staged e w)
    (ht : t ∈ e.tasks)
    (hlate : ∀ s, ⟨.taskCompleted t.id, s, w.st⟩ ∈ w'.trace → w.st t.id ≠ .failedToCancel)
    (hw : (w.st t.id).isFinalized = true) :
    (w'.st t.id).isFinalized = true ∧
      ((w'.st t.id).triggersCleanup = true → (w.st t.id).triggersCleanup = true) := by
  refine ⟨h.stays_finalized hs ht hw, fun htr => ?_⟩
  rcases h.of_triggersCleanup htr with h' | ⟨-, he, details, h'⟩
  · rwa [h'] at htr
  · -- a completion is taken late only after a refusal to cancel
    by_cases hset : (w.st t.id).isSettled = true
    · rw [completionStatus_of_isSettled hset] at h'
      exact absurd h' (by simp)
    · refine absurd ?_ (hlate _ he)
      by_contra hne
      exact hset (by simp [TaskStatus.isSettled, hw, hne])

lemma Built.staged (hb : Built r before e w) : Staged e w := by
  refine ⟨hb.ready.last, fun _ t ht => ?_, fun hs => ?_, fun t ht h => ?_, fun t ht h => ?_,
    fun hs => ?_⟩
  · rcases hb.waiting ht with h | h
    · exact .inl h
    · exact .inr (.inl h)
  · rcases hb.ready.status with h | h <;> simp [h] at hs
  · rcases hb.waiting ht with h' | h' <;> simp [h'] at h
  · rcases hb.waiting ht with h' | h' <;> simp [h'] at h
  · rcases hb.ready.status with h | h <;> rw [h] at hs <;> cases hs

/-- An execution that was given up has no task that did its work or is still to do it. -/
theorem given_up_fruitless (h : Launched r before e w) (hrun : Run e conf castOnly w w')
    (hs : w'.status = .deadlocked ∨ w'.status = .errorAllocatingMinions) (ht : t ∈ e.tasks) :
    (w'.st t.id).isSettled = true ∧ (w'.st t.id).triggersCleanup = false := by
  obtain ⟨w₀, hb, hch, -⟩ := h.run hrun
  have hst : Staged e w' := hch.invariant (fun _ _ hc h => h.change hc) hb.staged
  have hfruitless := hst.stopped (hs.imp_right .inl) t ht
  simpa [TaskStatus.isFruitless] using hfruitless

theorem given_up_fruitless_poolTransfer :
    let w' := runCalls poolTransfer plainConf [(responsive, .reportMinionsAllocationError)]
      poolTransferStored
    w'.status = .errorAllocatingMinions ∧
      ∀ t ∈ poolTransfer.tasks, (w'.st t.id).isSettled = true := by
  intro w'
  have hs : w'.status = .errorAllocatingMinions := by decide
  exact ⟨hs, fun t ht => (given_up_fruitless (.awaiting built_poolTransfer rfl)
    (run_of_castCalls (by decide)) (.inr hs) ht).1⟩

end Coriolis.Conductor

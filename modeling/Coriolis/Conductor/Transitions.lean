import Coriolis.Conductor.Changes

/-!
# What one change does to one task

`Change.task` reads a change from the side of a single task: its status stays, or it moves
for one of the listed reasons, and the trace has the event that says so. The invariants of
runs are checked against this list.
-/

namespace Coriolis.Conductor

variable {e : Execution} {conf : Conf} {strong : Prop} {ok : World → Report → Prop} {env : Env}
  {w w' w₁ : World} {t : Task} {force : Bool}

section

variable {details : String} (hrun : ∀ s ∈ e.tasks,
    ((w.errored t details).st s.id).isActive = true → s.taskType = .osMorphing)
  (hw₂ : cancelExecutionForOsmorphingDebugging (w.errored t details) e.tasks
    (w.errored t details) = (.ok (), w₂))

include hw₂

lemma debugging_written : Written routine (w.errored t details) w₂ := by
  have := @Writes.debugging routine (w.errored t details) (w.errored t details) e.tasks
  rwa [hw₂] at this

lemma taskErrored_mem_debugged : ⟨.taskErrored t.id, w.status, w.st⟩ ∈ w₂.trace :=
  (Writes.suffix (debugging_written hw₂)).subset (by simp [World.errored])

include hrun

lemma debugging_st (hs : s ∈ e.tasks) :
    w₂.st s.id =
      if s.taskType ≠ .osMorphing ∧ ((w.errored t details).st s.id = .scheduled ∨
        (w.errored t details).st s.id = .onErrorOnly) then .canceledForDebugging
      else (w.errored t details).st s.id := by
  rw [cancelExecutionForOsmorphingDebugging_eq _ hrun] at hw₂
  cases hw₂
  exact (foldl_mark (w.errored t details) e.nodup).1 s hs

lemma debugging_fields : w₂.status = w.status ∧
      ∀ eff : Effect, (∀ id, .setTaskStatus id .canceledForDebugging ≠ eff) →
        (w₂.emitted eff ↔ (w.errored t details).emitted eff) := by
  rw [cancelExecutionForOsmorphingDebugging_eq _ hrun] at hw₂
  cases hw₂
  exact (foldl_mark (w.errored t details) e.nodup).2.2

end

lemma active_of_moves (h : (s, s') ∈ moves) :
    s.isActive = true ∧ s'.isActive = true := by
  simp only [moves, List.mem_cons, Prod.mk.injEq, List.not_mem_nil, or_false] at h
  rcases h with ⟨rfl, rfl⟩ | ⟨rfl, rfl⟩ | ⟨rfl, rfl⟩ | ⟨rfl, rfl⟩ <;> decide

lemma enterCancellation_eq (h : cancelLoops force w.status = false) :
    enterCancellation e env force w = w := by
  simp [enterCancellation, h]

lemma cancelledStatus_ne (h : s ≠ x) (hx : (Effect.setTaskStatus t.id x).isCancellation = false) :
    cancelledStatus env force t s ≠ x := by
  simp only [cancelledStatus]
  split_ifs <;> rintro rfl <;> simp_all

/-- The status of a task moved, and why. -/
inductive TaskStep (e : Execution) (conf : Conf) (strong : Prop) (ok : World → Report → Prop)
    (w w' : World) (t : Task) : Prop
  | same (h : w'.st t.id = w.st t.id)
  | started (hd : lifecycleDecision e w.st t = .start) (h : w'.st t.id = .pending)
      (he : w'.emitted (.beginTask t.id))
  | notScheduled (hd : lifecycleDecision e w.st t = .start) (h : w'.st t.id = .failedToSchedule)
      (he : w'.emitted (.noSuitableWorker t.id))
  | castRaised (hd : lifecycleDecision e w.st t = .start)
      (h : w'.st t.id = if cancelLoops false w.status then .unscheduled else .pending)
      (he : ∃ ev ∈ w'.trace, ev.effect = .beginTaskRaised t.id ∧ ev.status = w.status)
  | unscheduled {details : String} (hd : lifecycleDecision e w.st t = .unschedule details)
      (h : w'.st t.id = .unscheduled)
  | cancelled {env : Env} {force : Bool} (hl : cancelLoops force w.status = true)
      (h : w'.st t.id = cancelledStatus env force t (w.st t.id))
      (hs : w'.status = if w.status = .running then .cancelling else w.status)
      (he : ∃ ev ∈ w'.trace, ev.effect = .cancelTasks force ∧ ev.tasks t.id = w.st t.id ∧
        ∀ s ∈ e.tasks, w'.st s.id = cancelledStatus env force s (ev.tasks s.id))
  | deadlocked (hd : isDeadlocked e w.st = true) (hs : strong → w.status = .unexecuted)
      (hw : w' = cleanDeadlock e w.status w.st w)
      (hst : w.st t.id = .scheduled ∨ w.st t.id = .onErrorOnly)
      (h : w'.st t.id = .canceledFromDeadlock)
  | moved (hok : ok w (.progress t)) (hm : (w.st t.id, w'.st t.id) ∈ moves)
  | completed {details : Option String} (hok : ok w (.completion t))
      (h : completionStatus (w.rows t.id) = some (w'.st t.id, details))
      (he : ⟨.taskCompleted t.id, w.status, w.st⟩ ∈ w'.trace)
  | errored {details : String} (hok : ok w (.failure t))
      (h : w'.st t.id = (errorStatus t (w.rows t.id) details).1)
      (he : ⟨.taskErrored t.id, w.status, w.st⟩ ∈ w'.trace)
  | debugged (hdebug : conf.debugOsMorphingErrors = true)
      (hs : w.st t.id = .scheduled ∨ w.st t.id = .onErrorOnly)
      (h : w'.st t.id = .canceledForDebugging) (hw : w'.status = .canceledForDebugging)
      (hok : ∃ s, ok w (.failure s))
  | cancelConfirmed {details : String} (hok : ok w (.cancellation t))
      (h : w'.st t.id = (cancellationStatus (w.rows t.id) details).1)
      (he : ⟨.taskCancelled t.id, w.status, w.st⟩ ∈ w'.trace)

lemma taskStep_enterCancellation (ht : t ∈ e.tasks) (hst : w₁.st t.id = w.st t.id)
    (hs : w₁.status = w.status) : TaskStep e conf strong ok w (enterCancellation e env force w₁) t := by
  by_cases hl : cancelLoops force w₁.status = true
  · have h : (enterCancellation e env force w₁).st t.id =
        cancelledStatus env force t (w.st t.id) := by
      rw [enterCancellation_st ht, if_pos hl, hst]
    refine .cancelled (hs ▸ hl) h (by rw [enterCancellation_status, hs])
      ⟨_, enterCancellation_event hl, rfl, hst, fun s hs => ?_⟩
    rw [enterCancellation_st hs, if_pos hl]
  · exact .same (by rw [enterCancellation_eq (by simpa using hl), hst])

lemma enterCancellation_st_of_isSettled (ht : t ∈ e.tasks)
    (hs : (w₁.st t.id).isSettled = true) :
    (enterCancellation e env force w₁).st t.id = w₁.st t.id := by
  rw [enterCancellation_st ht]
  split
  · exact cancelledStatus_of_isSettled hs
  · rfl

section

variable {s : Task} (ht : t ∈ e.tasks) (hs : s ∈ e.tasks)

include ht hs

/-- What changes the status of one task is to be known for that task only. -/
lemma TaskStep.of_update (hst : w'.st = Function.update w.st s.id new)
    (h : TaskStep e conf strong ok w w' s) : TaskStep e conf strong ok w w' t := by
  by_cases hts : t.id = s.id
  · rwa [task_eq_of_id ht hs hts]
  · exact .same (by rw [hst, Function.update_of_ne hts])

lemma TaskStep.of_update_cancelled (hst : w₁.st = Function.update w.st s.id new)
    (hstatus : w₁.status = w.status)
    (h : TaskStep e conf strong ok w (enterCancellation e env force w₁) s) :
    TaskStep e conf strong ok w (enterCancellation e env force w₁) t := by
  by_cases hts : t.id = s.id
  · rwa [task_eq_of_id ht hs hts]
  · exact taskStep_enterCancellation ht (by rw [hst, Function.update_of_ne hts]) hstatus

end

lemma Change.task (h : Change e conf strong ok w w') (ht : t ∈ e.tasks) :
    TaskStep e conf strong ok w w' t := by
  cases h with
  | @started _ s hs hd =>
    exact .of_update ht hs (started_st ..) (.started hd (by simp) (by simp [World.started]))
  | @notScheduled env _ s hs hd =>
    have hst : (w.notScheduled env s).st s.id = .failedToSchedule := by simp
    refine .of_update_cancelled ht hs (notScheduled_st ..) rfl
      (.notScheduled hd ?_ ((enterCancellation_emitted rfl (by simp)).mpr ?_))
    · rw [enterCancellation_st_of_isSettled hs (by rw [hst]; rfl), hst]
    · simp [World.notScheduled]
  | @castRaised env _ s hs hd =>
    refine .of_update_cancelled ht hs (castRaised_st ..) rfl (.castRaised hd ?_ ?_)
    · rw [enterCancellation_st hs]
      simp [cancelledStatus_pending]
    · exact ⟨_, enterCancellation_trace.subset List.mem_cons_self, rfl, rfl⟩
  | unscheduled hs hd =>
    exact .of_update ht hs (World.st_setTaskStatus ..) (.unscheduled hd (by simp))
  | refreshed | begun | dropped | allocationFailed => exact .same (by simp)
  | deadlocked hd hs =>
    by_cases hst : w.st t.id = .scheduled ∨ w.st t.id = .onErrorOnly
    · exact .deadlocked hd hs rfl hst (by rw [cleanDeadlock_st ht, if_pos hst])
    · exact .same (by rw [cleanDeadlock_st ht, if_neg hst])
  | @moved _ s new _ _ _ hs hok hm =>
    exact .of_update ht hs (show _ = Function.update w.st s.id new by simp)
      (.moved hok (by simpa using hm))
  | @completed _ s new details hs hok h =>
    exact .of_update ht hs (show _ = Function.update w.st s.id new by simp)
      (.completed hok (by simpa using h) (by simp))
  | @errored env _ s details hs hok =>
    have hst : (w.errored s details).st s.id = (errorStatus s (w.rows s.id) details).1 := by simp
    refine .of_update_cancelled ht hs (errored_st ..) rfl
      (@TaskStep.errored e conf strong ok w _ s details hok ?_ (enterCancellation_trace.subset ?_))
    · rw [enterCancellation_st_of_isSettled hs (by rw [hst]; exact errorStatus_isSettled _ _ _), hst]
    · simp [World.errored]
  | @debugged _ w₂ s details text hs hok _ hdebug hrun hw₂ _ =>
    by_cases hts : t.id = s.id
    · obtain rfl := task_eq_of_id ht hs hts
      exact @TaskStep.errored e conf strong ok w _ t details hok (by simp)
        ((trace_setTasksExecutionStatus _ _ _).subset
          (List.mem_cons_of_mem _ (taskErrored_mem_debugged hw₂)))
    · have hst := debugging_st hrun hw₂ ht
      rw [errored_st, Function.update_of_ne hts] at hst
      split at hst
      · rename_i hmark
        exact .debugged hdebug hmark.2 (by simp [Function.update_of_ne hts, hst]) (by simp) ⟨s, hok⟩
      · exact .same (by simp [Function.update_of_ne hts, hst])
  | @cancelConfirmed _ s details hs hok =>
    exact .of_update ht hs (cancelConfirmed_st ..) (@TaskStep.cancelConfirmed e conf strong ok w _ s
      details hok (by simp) (by simp [World.cancelConfirmed]))
  | cancelRequested => exact taskStep_enterCancellation ht rfl rfl
  | kept h => exact .same (by rw [h.st])

lemma TaskStep.not_start (hd : lifecycleDecision e w.st t = .start)
    (h : w.st t.id ≠ .scheduled) : False :=
  h (decision_start hd).1

lemma TaskStep.not_unschedule (hd : lifecycleDecision e w.st t = .unschedule details)
    (h : w.st t.id ≠ .scheduled) : False :=
  h (decision_unschedule hd).1

lemma TaskStep.of_isSettled (h : TaskStep e conf strong ok w w' t)
    (hw : (w.st t.id).isSettled = true) :
    w'.st t.id = w.st t.id ∨
      ok w (.failure t) ∧ ⟨.taskErrored t.id, w.status, w.st⟩ ∈ w'.trace ∧
        ∃ details, w'.st t.id = (errorStatus t (w.rows t.id) details).1 := by
  have hns : w.st t.id ≠ .scheduled := ne_of_isSettled hw (by decide)
  have hnoe : w.st t.id ≠ .onErrorOnly := ne_of_isSettled hw (by decide)
  cases h with
  | same h => exact .inl h
  | started hd | notScheduled hd | castRaised hd => exact (not_start hd hns).elim
  | unscheduled hd => exact (not_unschedule hd hns).elim
  | cancelled _ h => exact .inl (h.trans (cancelledStatus_of_isSettled hw))
  | deadlocked _ _ _ hst | debugged _ hst => exact absurd hst (by simp [hns, hnoe])
  | moved _ hm =>
    have := TaskStatus.isActive_of_isSettled hw
    rw [(active_of_moves hm).1] at this
    cases this
  | completed _ h => rw [completionStatus_of_isSettled hw] at h; exact absurd h (by simp)
  | errored hok h he => exact .inr ⟨hok, he, _, h⟩
  | @cancelConfirmed details _ h =>
    rcases cancellationStatus_cases (w.rows t.id) details with ⟨-, h'⟩ | ⟨h', -⟩
    · exact .inl (h.trans h')
    · rw [show (w.rows t.id).status = w.st t.id from rfl, hw] at h'
      cases h'

lemma TaskStep.isSettled (h : TaskStep e conf strong ok w w' t)
    (hw : (w.st t.id).isSettled = true) : (w'.st t.id).isSettled = true := by
  rcases h.of_isSettled hw with h' | ⟨-, -, details, h'⟩
  · rwa [h']
  · rw [h']
    exact errorStatus_isSettled _ _ _

/-- The statuses that neither a start nor a report of a worker gives to a task. -/
def TaskStatus.isRare : TaskStatus → Bool
  | .scheduled | .onErrorOnly | .failedToCancel | .canceledFromDeadlock
  | .canceledForDebugging => true
  | _ => false

lemma TaskStep.of_isRare (h : TaskStep e conf strong ok w w' t)
    (hr : (w'.st t.id).isRare = true) :
    w'.st t.id = w.st t.id ∨
      (∃ env force, cancelLoops force w.status = true ∧
        w'.st t.id = cancelledStatus env force t (w.st t.id) ∧
        (w'.status = if w.status = .running then .cancelling else w.status) ∧
        ∀ s ∈ e.tasks, w'.st s.id ≠ .onErrorOnly) ∨
      (w'.st t.id = .canceledFromDeadlock ∧ isDeadlocked e w.st = true ∧
        (strong → w.status = .unexecuted) ∧ w' = cleanDeadlock e w.status w.st w) ∨
      w'.st t.id = .canceledForDebugging ∧ w'.status = .canceledForDebugging := by
  cases h with
  | same h => exact .inl h
  | cancelled hl h hs he =>
    obtain ⟨ev, -, -, -, hall⟩ := he
    exact .inr (.inl ⟨_, _, hl, h, hs, fun s hs' => hall s hs' ▸ cancelledStatus_ne_onErrorOnly _⟩)
  | deadlocked hd hs hw _ h => exact .inr (.inr (.inl ⟨h, hd, hs, hw⟩))
  | debugged _ _ h hw => exact .inr (.inr (.inr ⟨h, hw⟩))
  | started _ h | notScheduled _ h | unscheduled _ h => simp [h, TaskStatus.isRare] at hr
  | castRaised _ h =>
    rw [h] at hr
    split at hr <;> simp [TaskStatus.isRare] at hr
  | moved _ hm =>
    simp only [moves, List.mem_cons, Prod.mk.injEq, List.not_mem_nil, or_false] at hm
    rcases hm with ⟨-, h⟩ | ⟨-, h⟩ | ⟨-, h⟩ | ⟨-, h⟩ <;> simp [h, TaskStatus.isRare] at hr
  | completed _ h =>
    rcases completionStatus_some h with ⟨-, -, -, h'⟩ | ⟨-, h'⟩ <;>
      simp [h', TaskStatus.isRare] at hr
  | @errored details _ h =>
    rcases errorStatus_cases t (w.rows t.id) details with ⟨-, h'⟩ | ⟨-, h'⟩ | ⟨-, h'⟩ <;>
      simp [h, h', TaskStatus.isRare] at hr
  | @cancelConfirmed details _ h =>
    rcases cancellationStatus_cases (w.rows t.id) details with ⟨-, h'⟩ | ⟨-, h'⟩
    · exact .inl (h.trans h')
    · simp [h, h', TaskStatus.isRare] at hr

lemma TaskStep.onErrorOnly (h : TaskStep e conf strong ok w w' t)
    (hst : w'.st t.id = .onErrorOnly) : w.st t.id = .onErrorOnly := by
  rcases h.of_isRare (by rw [hst]; rfl) with h' | ⟨env, force, -, h', -⟩ | ⟨h', -⟩ | ⟨h', -⟩
  · exact h' ▸ hst
  · exact absurd (h'.symm.trans hst) (cancelledStatus_ne_onErrorOnly _)
  · simp [h'] at hst
  · simp [h'] at hst

lemma cancelledStatus_eq_scheduled (h : cancelledStatus env force t s = .scheduled) :
    s = .scheduled ∨ s = .onErrorOnly := by
  simp only [cancelledStatus] at h
  split_ifs at h <;> simp_all

/-- A task is only ever put to wait by a cancellation, if it waited for an error. -/
lemma TaskStep.scheduled (h : TaskStep e conf strong ok w w' t)
    (hst : w'.st t.id = .scheduled) :
    w.st t.id = .scheduled ∨
      (∃ force, cancelLoops force w.status = true) ∧ w.st t.id = .onErrorOnly ∧
        ∀ s ∈ e.tasks, w'.st s.id ≠ .onErrorOnly := by
  rcases h.of_isRare (by rw [hst]; rfl) with h' | ⟨env, force, hl, h', -, hall⟩ | ⟨h', -⟩ | ⟨h', -⟩
  · exact .inl (h' ▸ hst)
  · exact (cancelledStatus_eq_scheduled (h'.symm.trans hst)).imp_right fun h => ⟨⟨_, hl⟩, h, hall⟩
  · simp [h'] at hst
  · simp [h'] at hst

lemma TaskStep.not_waiting (h : TaskStep e conf strong ok w w' t)
    (h1 : w.st t.id ≠ .scheduled) (h2 : w.st t.id ≠ .onErrorOnly) :
    w'.st t.id ≠ .scheduled ∧ w'.st t.id ≠ .onErrorOnly := by
  refine ⟨fun hst => ?_, fun hst => h2 (h.onErrorOnly hst)⟩
  rcases h.scheduled hst with h | ⟨-, h, -⟩
  · exact h1 h
  · exact h2 h

lemma Changes.onErrorOnly (h : Changes e conf strong ok w w') (ht : t ∈ e.tasks)
    (hst : w'.st t.id = .onErrorOnly) : w.st t.id = .onErrorOnly := by
  induction h with
  | refl => exact hst
  | tail _ hlast ih => exact ih ((hlast.task ht).onErrorOnly hst)

/-- The status of the execution moved, and why. -/
inductive StatusStep (e : Execution) (conf : Conf) (strong : Prop) (w w' : World) : Prop
  | same (h : w'.status = w.status)
  | cancelling (hs : w.status = .running) (h : w'.status = .cancelling)
  | refreshed (hact : w.status.isActive = true)
      (hs : strong → getExecutionStatus e w ≠ .deadlocked) (hst : w'.st = w.st)
      (h : w'.status = getExecutionStatus e w)
  | deadlocked (hd : isDeadlocked e w.st = true) (hs : strong → w.status = .unexecuted)
      (hw : w' = cleanDeadlock e w.status w.st w)
  | begun (hs : w.status = .unexecuted ∨ w.lastExecutionStatus = .awaitingMinionAllocations)
      (hst : w'.st = w.st) (h : w'.status = .running)
  | debugged (hdebug : conf.debugOsMorphingErrors = true)
      (hs : strong → ∀ t ∈ e.tasks, w'.st t.id ≠ .scheduled)
      (h : w'.status = .canceledForDebugging) (hm : ∃ t ∈ e.tasks, t.taskType = .osMorphing)
  | allocationFailed (hs : strong → ∀ t ∈ e.tasks, (w.st t.id).isSettled = true ∧
        (w.st t.id).triggersCleanup = false)
      (hst : w'.st = w.st) (h : w'.status = .errorAllocatingMinions)

lemma Change.statusStep (h : Change e conf strong ok w w') :
    StatusStep e conf strong w w' := by
  have henter : ∀ {env : Env} {force : Bool} {w₁ : World}, w₁.status = w.status →
      StatusStep e conf strong w (enterCancellation e env force w₁) := by
    intro env force w₁ h
    by_cases hrun : w.status = .running
    · exact .cancelling hrun (by rw [enterCancellation_status, h, if_pos hrun])
    · exact .same (by rw [enterCancellation_status, h, if_neg hrun])
  cases h with
  | notScheduled | castRaised | errored | cancelRequested => exact henter rfl
  | refreshed hact _ hs => exact .refreshed hact hs (by simp) (by simp)
  | deadlocked hd hs => exact .deadlocked hd hs rfl
  | begun hb => exact .begun hb (by simp) (by simp)
  | @debugged _ _ s details _ hsm _ hty hdebug _ _ hs =>
    refine .debugged hdebug (fun hstrong t ht => ?_) (by simp) ⟨s, hsm, hty⟩
    simp only [st_setTasksExecutionStatus, World.st_setTaskStatus]
    by_cases hts : t.id = s.id
    · rw [hts, Function.update_self]
      exact ne_of_isSettled (errorStatus_isSettled _ _ _) (by decide)
    · rw [Function.update_of_ne hts]
      exact hs hstrong t ht
  | allocationFailed _ hs => exact .allocationFailed hs (by simp) (by simp)
  | kept h => exact .same h.status
  | started | unscheduled | moved | completed | dropped | cancelConfirmed => exact .same rfl

/-- Nothing brings back the statuses an execution has before `_begin_tasks` is through, nor does
an execution wait for a debugger who is not asked for. -/
lemma Change.status_ne (hs : s = .unexecuted ∨ s = .awaitingMinionAllocations ∨
      s = .canceledForDebugging ∧ conf.debugOsMorphingErrors = false)
    (h : Change e conf strong ok w w') (hne : w.status ≠ s) : w'.status ≠ s := by
  have hnew : ∀ x : ExecutionStatus, x ≠ .unexecuted → x ≠ .awaitingMinionAllocations →
      (x = .canceledForDebugging → conf.debugOsMorphingErrors = true) → x ≠ s := by
    rintro x h1 h2 h3 rfl
    rcases hs with rfl | rfl | ⟨rfl, hconf⟩
    · exact h1 rfl
    · exact h2 rfl
    · simp [hconf] at h3
  cases h.statusStep with
  | same h => rwa [h]
  | cancelling _ h | begun _ _ h | allocationFailed _ _ h =>
    rw [h]; exact hnew _ (by decide) (by decide) (by simp)
  | debugged hdebug _ h => rw [h]; exact hnew _ (by decide) (by decide) fun _ => hdebug
  | refreshed _ _ _ h =>
    rw [h]
    rcases getExecutionStatus_cases e w with ⟨-, h⟩ | ⟨-, -, h | h⟩ | ⟨-, h | h | ⟨h, -⟩⟩ <;>
      rw [h] <;> exact hnew _ (by decide) (by decide) (by simp)
  | deadlocked _ _ hw =>
    rw [hw, cleanDeadlock_status]; exact hnew _ (by decide) (by decide) (by simp)

/-- A COMPLETED execution was COMPLETED before, or its status was just read off its tasks. -/
lemma Change.of_completed (h : Change e conf strong ok w w') (hs : w'.status = .completed) :
    w.status = .completed ∨
      w'.st = w.st ∧ ∀ t ∈ e.tasks, w.st t.id = .completed ∨ w.st t.id = .onErrorOnly := by
  cases h.statusStep with
  | same heq => exact .inl (heq ▸ hs)
  | refreshed _ _ hst heq =>
    rw [heq] at hs
    rcases getExecutionStatus_cases e w with ⟨-, h⟩ | ⟨-, -, h | h⟩ | ⟨-, h | h | ⟨-, hall⟩⟩
    iterate 5 simp [h] at hs
    exact .inr ⟨hst, hall⟩
  | cancelling _ heq | begun _ _ heq | debugged _ _ heq | allocationFailed _ _ heq =>
    simp [heq] at hs
  | deadlocked _ _ hw => simp [hw] at hs

lemma Change.unscheduled_emitted {id : TaskId} (h : Change e conf strong ok w w')
    (he : w'.emitted (.setTaskStatus id .unscheduled)) :
    w.emitted (.setTaskStatus id .unscheduled) ∨ w'.st id = .unscheduled := by
  have hset : ∀ {previous new : ExecutionStatus} {w₁ : World},
      (setTasksExecutionStatus previous new w₁).emitted (.setTaskStatus id .unscheduled) →
        w₁.emitted (.setTaskStatus id .unscheduled) :=
    (emitted_setTasksExecutionStatus_iff _ _ _ rfl).mp
  have herror : ∀ (t : Task) (details : String),
      (errorStatus t (w.rows t.id) details).1 ≠ .unscheduled := fun t details => by
    rcases errorStatus_cases t (w.rows t.id) details with ⟨-, h⟩ | ⟨-, h⟩ | ⟨-, h⟩ <;> simp [h]
  cases h with
  | started => exact .inl (by simpa [World.started] using he)
  | notScheduled =>
    exact (enterCancellation_unscheduled he).imp_left fun he => by
      simpa [World.notScheduled] using he
  | castRaised =>
    exact (enterCancellation_unscheduled he).imp_left fun he => by
      simpa [World.castRaised] using he
  | @unscheduled _ s =>
    by_cases hs : s.id = id
    · exact .inr (by simp [hs])
    · exact .inl (by simpa [hs] using he)
  | refreshed | begun | allocationFailed => exact .inl (hset he)
  | deadlocked => exact .inl ((cleanDeadlock_emitted (by simp) rfl).mp he)
  | @moved _ s new _ _ _ _ _ hm =>
    have hnew : new ≠ .unscheduled := TaskStatus.isActive_ne (active_of_moves hm).2 (by decide)
    exact .inl (by simpa [hnew] using he)
  | completed _ _ h =>
    rcases completionStatus_some h with ⟨-, -, -, rfl⟩ | ⟨-, rfl⟩ <;>
      exact .inl (by simpa using he)
  | dropped => exact .inl (by simpa using he)
  | @errored _ _ s details =>
    exact (enterCancellation_unscheduled he).imp_left fun he => by
      simpa [World.errored, herror s details] using he
  | @debugged _ _ s details _ _ _ _ _ hrun hw₂ _ =>
    have he := hset he
    simp only [emitted_setTaskStatus, Effect.setTaskStatus.injEq, herror s details, and_false,
      false_or] at he
    rw [(debugging_fields hrun hw₂).2 _ (by simp)] at he
    exact .inl (by simpa [World.errored, herror s details] using he)
  | @cancelConfirmed _ s details =>
    -- a confirmation that comes late stores the status it finds
    by_cases hs : s.id = id
    · by_cases hst : (cancellationStatus (w.rows s.id) details).1 = .unscheduled
      · exact .inr (by simp [← hs, hst])
      · exact .inl (by simpa [World.cancelConfirmed, hst] using he)
    · exact .inl (by simpa [World.cancelConfirmed, hs] using he)
  | cancelRequested => exact enterCancellation_unscheduled he
  | kept h => exact .inl ((h.emitted (by simp)).mp he)

end Coriolis.Conductor

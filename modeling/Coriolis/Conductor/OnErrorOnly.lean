import Coriolis.Conductor.Launch

/-!
# Tasks that wait for an error

The cleanup of a deployment is created ON_ERROR_ONLY and released by the loop of
`_cancel_tasks_execution` alone. As long as one is not released the execution is
undisturbed: no task failed, none was cancelled. What can break this is a worker that
confirms the cancellation of a task nobody cancelled, as it does for a task process that
died without a result: `confirm_task_cancellation` advances the execution without cancelling
it.
-/

namespace Coriolis.Conductor

variable {r : Request} {before : String → Option TaskInfo} {e : Execution} {conf : Conf}
  {w w' w₁ : World} {t : Task} {force : Bool}

/-- A status a task has when nothing failed and nothing was cancelled. -/
def TaskStatus.isUndisturbed (s : TaskStatus) : Bool :=
  s == .scheduled || s == .onErrorOnly || s == .pending || s == .starting || s == .running ||
    s == .completed

/-- Nothing failed and nothing was cancelled, or the execution is over all the same. -/
def Unhurt (e : Execution) (w : World) : Prop :=
  ((w.status = .unexecuted ∨ w.status = .awaitingMinionAllocations ∨ w.status = .running) ∧
      ∀ s ∈ e.tasks, (w.st s.id).isUndisturbed = true) ∨
    w.status = .completed ∨ w.status = .canceledForDebugging

/-- While a task waits for an error, nothing has gone wrong that would have released it. -/
structure Undisturbed (e : Execution) (w : World) : Prop where
  last : LastOk w
  status : ∀ t ∈ e.tasks, w.st t.id = .onErrorOnly → Unhurt e w

lemma getExecutionStatus_undisturbed
    (h : ∀ t ∈ e.tasks, (w.st t.id).isUndisturbed = true) :
    getExecutionStatus e w = .deadlocked ∨ getExecutionStatus e w = .running ∨
      getExecutionStatus e w = .completed := by
  have hno : ∀ p : TaskStatus → Bool, (∀ s, s.isUndisturbed = true → p s = false) →
      anyTask e p w.st = false := fun p hp => anyTask_eq_false.mpr fun t ht => hp _ (h t ht)
  have h1 := hno TaskStatus.isCanceled (by intro s; cases s <;> decide)
  have h2 := hno (fun s => s == .error || s == .failedToSchedule) (by intro s; cases s <;> decide)
  have h3 := hno (fun s => s == .cancelling || s == .cancellingAfterCompletion)
    (by intro s; cases s <;> decide)
  simp only [getExecutionStatus, h1, h2, h3, Bool.false_eq_true, if_false]
  split_ifs <;> simp

namespace Unhurt

lemma update (h : Unhurt e w) (hst : w'.st = Function.update w.st t.id s)
    (hstatus : w'.status = w.status)
    (hs : (∀ j ∈ e.tasks, (w.st j.id).isUndisturbed = true) → s.isUndisturbed = true) :
    Unhurt e w' := by
  rw [Unhurt, hstatus]
  refine h.imp_left fun ⟨hrun, hall⟩ => ⟨hrun, fun i hi => ?_⟩
  rw [hst]
  by_cases hit : i.id = t.id
  · rw [hit, Function.update_self]
    exact hs hall
  · rw [Function.update_of_ne hit]
    exact hall i hi

/-- The loop of a cancellation releases every task, so it was not reached. -/
lemma enterCancellation (h : Unhurt e w) (hs : w₁.status = w.status) (ht : t ∈ e.tasks)
    (hoe : (enterCancellation e env force w₁).st t.id = .onErrorOnly) :
    Unhurt e (enterCancellation e env force w₁) := by
  have hloops : ¬cancelLoops force w₁.status = true := by
    intro hl
    rw [enterCancellation_st ht, if_pos hl] at hoe
    exact cancelledStatus_ne_onErrorOnly _ hoe
  rw [enterCancellation_eq (by simpa using hloops)]
  rw [hs] at hloops
  rcases h with ⟨hrun, -⟩ | hover
  · -- an execution that is not over is always looped through
    refine absurd ?_ hloops
    rcases hrun with h' | h' | h' <;> rw [h'] <;> cases force <;> decide
  · exact .inr (hs ▸ hover)

/-- A confirmation leaves a task that is over as it is. -/
lemma cancelConfirmed (h : Unhurt e w) (hs : t ∈ e.tasks) (hfin : (w.st t.id).isFinalized = true) :
    Unhurt e (w.cancelConfirmed t details) := by
  refine h.update (cancelConfirmed_st ..) rfl fun hall => ?_
  have hgood := hall t hs
  have hcompleted : (w.rows t.id).status = .completed := by
    revert hfin hgood
    change (w.rows t.id).status.isFinalized = true → (w.rows t.id).status.isUndisturbed = true → _
    cases (w.rows t.id).status <;> decide
  rcases cancellationStatus_cases (w.rows t.id) details with ⟨-, h'⟩ | ⟨h', -⟩
  · rw [h']
    exact hgood
  · rw [hcompleted] at h'
    cases h'

end Unhurt

/-- No worker confirms the cancellation of a task that is not over while another task still
waits for an error. -/
def confirmsReleased (e : Execution) (ev : Event) : Bool :=
  match ev.effect with
  | .taskCancelled id => (ev.tasks id).isFinalized || !anyTask e (· == .onErrorOnly) ev.tasks
  | _ => true

lemma not_unschedule_of_undisturbed (wf : WellFormed e) (ht : t ∈ e.tasks)
    (h : ∀ s ∈ e.tasks, (w.st s.id).isUndisturbed = true) (details : String) :
    lifecycleDecision e w.st t ≠ .unschedule details := by
  intro hd
  obtain ⟨-, hne, hfin, hplain, hcleanup⟩ := decision_unschedule hd
  have hc : ∀ d ∈ t.dependsOn, w.st d = .completed := by
    intro d hdep
    obtain ⟨p, hp, rfl, -⟩ := wf.parent t ht d hdep
    have h1 := hfin _ hdep
    have h2 := h p hp
    revert h1 h2
    cases w.st p.id <;> decide
  obtain ⟨d, hdep⟩ := List.exists_mem_of_ne_nil _ hne
  cases hoe : t.onError with
  | false =>
    obtain ⟨d', hd', hnc⟩ := hplain hoe
    exact hnc (hc d' hd')
  | true =>
    obtain ⟨htrigger, hall⟩ := hcleanup hoe
    by_cases hmixed : ∃ d' ∈ t.dependsOn, e.isOnError d' = false
    · obtain ⟨d', hd', hno⟩ := hmixed
      have := htrigger d' hd' hno
      rw [hc d' hd'] at this
      cases this
    · refine hall (fun d' hd' => ?_) d hdep (hc d hdep)
      by_contra hno
      exact hmixed ⟨d', hd', by simpa using hno⟩

lemma Undisturbed.change (wf : WellFormed e) (hc : Change e conf True reported w w')
    (hcond : ∀ ev ∈ w'.trace, confirmsReleased e ev = true) (h : Undisturbed e w) :
    Undisturbed e w' := by
  refine ⟨h.last.change hc, fun t ht hoe' => ?_⟩
  have hoe : w.st t.id = .onErrorOnly := (hc.task ht).onErrorOnly hoe'
  have hun := h.status t ht hoe
  cases hc with
  | started => exact hun.update (started_st ..) rfl fun _ => rfl
  | notScheduled | castRaised | errored | cancelRequested => exact hun.enterCancellation rfl ht hoe'
  | @unscheduled _ s details hs hd =>
    refine hun.update (World.st_setTaskStatus ..) rfl fun hall => ?_
    exact absurd hd (not_unschedule_of_undisturbed wf hs hall details)
  | refreshed hact _ hs =>
    simp only [Unhurt, status_setTasksExecutionStatus, st_setTasksExecutionStatus]
    rcases hun with ⟨-, hall⟩ | h' | h'
    · rcases getExecutionStatus_undisturbed hall with hg | hg | hg
      · exact absurd hg (hs trivial)
      · exact .inl ⟨.inr (.inr hg), hall⟩
      · exact .inr (.inl hg)
    all_goals rw [h'] at hact; cases hact
  | deadlocked => simp [cleanDeadlock_st ht, hoe] at hoe'
  | begun hb =>
    have hstatus : w.status = .unexecuted ∨ w.status = .awaitingMinionAllocations :=
      hb.imp_right fun hl => h.last hl
    rcases hun with ⟨-, hall⟩ | h' | h'
    · exact .inl ⟨.inr (.inr (by simp)), by simpa using hall⟩
    all_goals rcases hstatus with hs | hs <;> simp [hs] at h'
  | @moved _ s new _ _ _ hs _ hm =>
    refine hun.update (t := s) (s := new) (by simp) rfl fun hall => ?_
    have hgood := hall s hs
    simp only [moves, List.mem_cons, Prod.mk.injEq, List.not_mem_nil, or_false] at hm
    rcases hm with ⟨h', rfl⟩ | ⟨h', rfl⟩ | ⟨h', rfl⟩ | ⟨h', rfl⟩ <;> rw [h'] at hgood <;>
      first | rfl | cases hgood
  | @completed _ s new details hs _ hsome =>
    refine hun.update (World.st_setTaskStatus ..) rfl fun hall => ?_
    have hgood : (w.rows s.id).status.isUndisturbed = true := hall s hs
    rcases completionStatus_some hsome with ⟨-, -, -, rfl⟩ | ⟨h' | h' | h', -⟩
    · rfl
    all_goals rw [h'] at hgood; cases hgood
  | dropped => exact hun
  | debugged => exact .inr (.inr (by simp))
  | @cancelConfirmed _ s details hs =>
    have hev := hcond ⟨.taskCancelled s.id, w.status, w.st⟩ (by simp [World.cancelConfirmed])
    simp only [confirmsReleased, Bool.or_eq_true, Bool.not_eq_true', anyTask_eq_false,
      beq_eq_false_iff_ne] at hev
    exact hun.cancelConfirmed hs (hev.resolve_right fun hno => hno t ht hoe)
  | kept hk => simpa [Unhurt, hk.st, hk.status] using hun
  | allocationFailed _ hs => exact absurd hoe (ne_of_isSettled (hs trivial t ht).1 rfl)

lemma Built.undisturbed (hb : Built r before e w) : Undisturbed e w := by
  refine ⟨hb.ready.last, fun t _ _ => .inl ⟨?_, fun s hs => ?_⟩⟩
  · rcases hb.ready.status with h | h
    · exact .inl h
    · exact .inr (.inl h)
  · rcases hb.waiting hs with h | h <;> rw [h] <;> rfl

/-- In a run in which no worker confirms the cancellation of an unfinished task while
another task waits for an error, an execution that is over and neither COMPLETED nor
CANCELED_FOR_DEBUGGING has released every task that waited for an error. -/
theorem onErrorOnly_released (r : Request) (before : String → Option TaskInfo) (e : Execution)
    (conf : Conf) (w w' : World) (h : Launched r before e w) (hrun : Run e conf castOnly w w')
    (hcond : ∀ ev ∈ w'.trace, confirmsReleased e ev = true) (hfin : w'.status.isFinalized = true)
    (hcompleted : w'.status ≠ .completed) (hdebug : w'.status ≠ .canceledForDebugging) :
    ∀ t ∈ e.tasks, w'.st t.id ≠ .onErrorOnly := by
  obtain ⟨w₀, hb, hch, -⟩ := h.run hrun
  have hu := hch.invariant_of_trace (fun _ _ h hcond => Undisturbed.change hb.wellFormed h hcond)
    hcond hb.undisturbed
  intro t ht hoe
  rcases hu.status t ht hoe with ⟨h' | h' | h', -⟩ | h' | h'
  · rw [h'] at hfin
    cases hfin
  · rw [h'] at hfin
    cases hfin
  · rw [h'] at hfin
    cases hfin
  · exact hcompleted h'
  · exact hdebug h'

/-- The calls of a worker whose task process dies without a result. -/
def dies (e : Execution) (id : TaskId) : List (Env × Call) :=
  runs e id ++ (e.tasks.filter (·.id = id)).map fun t =>
    (responsive, .confirmTaskCancellation t "died")

def deploymentBegun : World :=
  (beginTasks deployment responsive deploymentStored deploymentStored).2

/-- The finalization of a deployment dies: the execution is CANCELED and the cleanup of what
was deployed still waits for an error. -/
theorem onErrorOnly_left_after_death :
    ∃ w', Launched (.executeDeployment true false false []) replicated deployment
        deploymentBegun ∧
      Run deployment plainConf castOnly deploymentBegun w' ∧ w'.status = .canceled ∧
      w'.st 2 = .completed ∧ w'.st 5 = .onErrorOnly :=
  ⟨runCalls deployment plainConf (completes deployment 0 ++ completes deployment 1 ++
      completes deployment 2 ++ dies deployment 3) deploymentBegun,
    .begun built_deployment rfl, run_of_castCalls (by decide), by decide,
    by decide, by decide⟩

/-- The finalization of a deployment fails: its cleanup is released. -/
theorem onErrorOnly_released_deployment :
    let w' := runCalls deployment plainConf (completes deployment 0 ++ completes deployment 1 ++
      completes deployment 2 ++ runs deployment 3 ++ fails deployment 3 ++ completes deployment 5 ++
      completes deployment 6) deploymentBegun
    w'.status = .error ∧ ∀ t ∈ deployment.tasks, w'.st t.id ≠ .onErrorOnly := by
  intro w'
  have hstatus : w'.status = .error := by decide
  exact ⟨hstatus, onErrorOnly_released (.executeDeployment true false false []) _ deployment
    plainConf deploymentBegun w' (.begun built_deployment rfl)
    (run_of_castCalls (by decide)) (by decide) (by rw [hstatus]; rfl)
    (by rw [hstatus]; decide) (by rw [hstatus]; decide)⟩

end Coriolis.Conductor

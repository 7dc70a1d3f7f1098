import Coriolis.Conductor.OnErrorOnly
import Coriolis.Conductor.Stages

/-!
# Cleanup tasks get their turn

An on-error task is the cleanup of what a parent did. `_advance_execution_state` decides on
it when all its parents are over: it is started if one that is not itself a cleanup did its
work, and unscheduled otherwise. Two things undo that decision. A cancellation unschedules
every task that is PENDING or STARTING, a cleanup that was just handed to a worker among
them, and an execution with an error goes on RUNNING while its cleanup does, so that a
second error cancels it. And a worker that refused a cancellation may complete its task
after the cleanup was given up.
-/

namespace Coriolis.Conductor

variable {r : Request} {before : String → Option TaskInfo} {e : Execution} {conf : Conf}
  {w w' : World} {t : Task}

/-- An event that costs no cleanup: a cancellation that finds none on its way to a worker, a
failed start of another task, a completion nobody gave up on, an error in an execution that
is not COMPLETED with a cleanup left out. -/
def sparesCleanup (e : Execution) (ev : Event) : Bool :=
  confirmsReleased e ev &&
  match ev.effect with
  | .cancelTasks _ => e.tasks.all fun t =>
    !(t.onError && (ev.tasks t.id == .pending || ev.tasks t.id == .starting))
  | .noSuitableWorker id => !e.isOnError id
  | .beginTaskRaised id => !e.isOnError id
  | .taskCompleted id => ev.tasks id != .failedToCancel
  | .taskErrored _ => ev.status != .completed || !anyTask e (· == .onErrorOnly) ev.tasks
  | _ => true

lemma sparesCleanup_confirms (h : sparesCleanup e ev = true) :
    confirmsReleased e ev = true := by
  simp only [sparesCleanup, Bool.and_eq_true] at h
  exact h.1

section

variable (hcond : ∀ ev ∈ w'.trace, sparesCleanup e ev = true)
include hcond

lemma not_noSuitableWorker (ht : t ∈ e.tasks) (hoe : t.onError = true) :
    ¬w'.emitted (.noSuitableWorker t.id) := by
  rintro ⟨ev, hev, heff⟩
  have := hcond ev hev
  simp [sparesCleanup, heff, isOnError_of_mem ht, hoe] at this

lemma not_beginTaskRaised (ht : t ∈ e.tasks) (hoe : t.onError = true)
    (he : ∃ ev ∈ w'.trace, ev.effect = .beginTaskRaised t.id ∧ ev.status = s) : False := by
  obtain ⟨ev, hev, heff, -⟩ := he
  have := hcond ev hev
  simp [sparesCleanup, heff, isOnError_of_mem ht, hoe] at this

lemma not_cancelled_on_its_way (ht : t ∈ e.tasks) (hoe : t.onError = true) {P : Event → Prop}
    (he : ∃ ev ∈ w'.trace, ev.effect = .cancelTasks force ∧ ev.tasks t.id = w.st t.id ∧ P ev) :
    w.st t.id ≠ .pending ∧ w.st t.id ≠ .starting := by
  obtain ⟨ev, hev, heff, hst, -⟩ := he
  have := hcond ev hev
  simp only [sparesCleanup, heff, Bool.and_eq_true, List.all_eq_true] at this
  have := this.2 t ht
  rw [hst, hoe] at this
  simpa using this

lemma not_failedToCancel_completed {id : TaskId} (he : ⟨.taskCompleted id, s, w.st⟩ ∈ w'.trace) :
    w.st id ≠ .failedToCancel := by
  have := hcond _ he
  simp only [sparesCleanup, Bool.and_eq_true] at this
  simpa using this.2

lemma not_errored_completed {id : TaskId} (hoe : ∃ j ∈ e.tasks, w.st j.id = .onErrorOnly)
    (he : ⟨.taskErrored id, w.status, w.st⟩ ∈ w'.trace) : w.status ≠ .completed := by
  have := hcond _ he
  simp only [sparesCleanup, Bool.and_eq_true, Bool.or_eq_true] at this
  rcases this.2 with h | h
  · simpa using h
  · obtain ⟨j, hj, hjo⟩ := hoe
    have := anyTask_eq_false.mp (by simpa using h) j hj
    simp [hjo] at this

end

/-- An on-error task leaves its waiting statuses in a worker's hands, or is given up. -/
def HandedOver (e : Execution) (w : World) : Prop :=
  ∀ t ∈ e.tasks, t.onError = true →
    (w.st t.id = .scheduled ∨ w.st t.id = .onErrorOnly ∨ w.st t.id = .unscheduled ∨
      w.st t.id = .canceledFromDeadlock) ∨ w.emitted (.beginTask t.id)

lemma HandedOver.change (hconf : conf.debugOsMorphingErrors = false)
    (hc : Change e conf True reported w w')
    (hcond : ∀ ev ∈ w'.trace, sparesCleanup e ev = true) (h : HandedOver e w) :
    HandedOver e w' := by
  intro t ht hoe
  have hmono : w.emitted (.beginTask t.id) → w'.emitted (.beginTask t.id) := fun he =>
    he.mono hc.suffix
  rcases h t ht hoe with hst | he
  swap
  · exact .inr (hmono he)
  cases hc.task ht with
  | same h => exact .inl (h ▸ hst)
  | started _ _ he => exact .inr he
  | notScheduled _ _ he => exact absurd he (not_noSuitableWorker hcond ht hoe)
  | castRaised _ _ he => exact (not_beginTaskRaised hcond ht hoe he).elim
  | unscheduled _ h => exact .inl (.inr (.inr (.inl h)))
  | cancelled _ h =>
    left
    rcases hst with hst | hst | hst | hst <;> rw [h, hst]
    · rw [cancelledStatus_scheduled]
      split <;> simp
    · simp
    · rw [cancelledStatus_of_isSettled rfl]; simp
    · rw [cancelledStatus_of_isSettled rfl]; simp
  | deadlocked _ _ _ _ h => exact .inl (.inr (.inr (.inr h)))
  | moved hok | completed hok | errored hok | cancelConfirmed hok => exact .inr (hmono hok.1)
  | debugged hdebug => simp [hconf] at hdebug

/-- An on-error task is only given up when none of its parents left anything to clean up. -/
def GivenUp (e : Execution) (w : World) : Prop :=
  ∀ t ∈ e.tasks, t.onError = true → w.st t.id = .unscheduled → ∀ d ∈ t.dependsOn,
    (w.st d).isFinalized = true ∧ (e.isOnError d = false → (w.st d).triggersCleanup = false)

lemma GivenUp.change (wf : WellFormed e) (hs : Staged e w)
    (hc : Change e conf True reported w w')
    (hcond : ∀ ev ∈ w'.trace, sparesCleanup e ev = true) (h : GivenUp e w) : GivenUp e w' := by
  intro t ht hoe hst
  -- the parents were over before this change, which cannot bring one of them back
  have hparents : (∀ d ∈ t.dependsOn, (w.st d).isFinalized = true ∧
      (e.isOnError d = false → (w.st d).triggersCleanup = false)) → ∀ d ∈ t.dependsOn,
      (w'.st d).isFinalized = true ∧ (e.isOnError d = false → (w'.st d).triggersCleanup = false) := by
    intro hw d hd
    obtain ⟨p, hp, rfl, -⟩ := wf.parent t ht d hd
    obtain ⟨hfin, htr⟩ := hw p.id hd
    obtain ⟨h1, h2⟩ := (hc.task hp).isFinalized hs hp (fun _ => not_failedToCancel_completed hcond) hfin
    refine ⟨h1, fun hno => ?_⟩
    by_contra htr'
    simp [h2 (by simpa using htr')] at htr
    simp [hno] at htr
  have hold : w.st t.id = .unscheduled → ∀ d ∈ t.dependsOn, (w'.st d).isFinalized = true ∧
      (e.isOnError d = false → (w'.st d).triggersCleanup = false) := fun h' =>
    hparents (h t ht hoe h')
  cases hc.task ht with
  | same h' => exact hold (h' ▸ hst)
  | unscheduled hd =>
    obtain ⟨-, -, hfin, -, hcleanup⟩ := decision_unschedule hd
    exact hparents fun d hdep => ⟨hfin d hdep, (hcleanup hoe).1 d hdep⟩
  | castRaised _ _ he => exact (not_beginTaskRaised hcond ht hoe he).elim
  | @cancelled env force _ h' _ he =>
    obtain ⟨hp, hstart⟩ := not_cancelled_on_its_way hcond ht hoe he
    refine hold ?_
    have hdeps := wf.onErrorParents t ht hoe
    rw [h'] at hst
    revert hst hp hstart
    cases w.st t.id <;> cases force <;>
      simp [cancelledStatus, hoe, hdeps, TaskStatus.isActive, TaskStatus.activeTaskStatuses]
  | @cancelConfirmed details _ h' =>
    rcases cancellationStatus_cases (w.rows t.id) details with ⟨-, h''⟩ | ⟨-, h''⟩
    · exact hold (h''.symm.trans (h'.symm.trans hst))
    · simp [h', h''] at hst
  | started _ h' | notScheduled _ h' | deadlocked _ _ _ _ h' | debugged _ _ h' => simp [h'] at hst
  | moved _ hm => exact absurd hst (TaskStatus.isActive_ne (active_of_moves hm).2 (by decide))
  | completed _ h' =>
    rcases completionStatus_some h' with ⟨-, -, -, h'⟩ | ⟨-, h'⟩ <;> simp [h'] at hst
  | @errored details _ h' =>
    rcases errorStatus_cases t (w.rows t.id) details with ⟨-, h''⟩ | ⟨-, h''⟩ | ⟨-, h''⟩ <;>
      simp [h', h''] at hst

/-- A COMPLETED execution that left a task waiting for an error completed all the others. -/
def Finished (e : Execution) (w : World) : Prop :=
  w.status = .completed → (∃ t ∈ e.tasks, w.st t.id = .onErrorOnly) →
    ∀ s ∈ e.tasks, w.st s.id = .completed ∨ w.st s.id = .onErrorOnly

lemma Finished.change (hconf : conf.debugOsMorphingErrors = false)
    (hc : Change e conf True reported w w')
    (hcond : ∀ ev ∈ w'.trace, sparesCleanup e ev = true) (h : Finished e w) : Finished e w' := by
  rintro hs ⟨t, ht, hoe⟩ s hsm
  have hex : ∃ j ∈ e.tasks, w.st j.id = .onErrorOnly := ⟨t, ht, (hc.task ht).onErrorOnly hoe⟩
  rcases hc.of_completed hs with hcompleted | ⟨hst, hall⟩
  swap
  · rw [hst]
    exact hall s hsm
  have hw := h hcompleted hex s hsm
  have hns : w.st s.id ≠ .scheduled := by rcases hw with h' | h' <;> simp [h']
  cases hc.task hsm with
  | same h' => rwa [h']
  | started hd | notScheduled hd | castRaised hd => exact (TaskStep.not_start hd hns).elim
  | unscheduled hd => exact (TaskStep.not_unschedule hd hns).elim
  | @cancelled env force hl =>
    rw [hcompleted] at hl
    cases force <;> cases hl
  | deadlocked _ hun => simp [hun trivial] at hcompleted
  | moved _ hm =>
    have := (active_of_moves hm).1
    rcases hw with h' | h' <;> rw [h'] at this <;> cases this
  | completed _ h' =>
    rcases completionStatus_some h' with ⟨-, -, -, h'⟩ | ⟨h' | h' | h', -⟩
    · exact .inl h'
    all_goals rcases hw with hw | hw <;> rw [World.st, h'] at hw <;> simp at hw
  | errored _ _ he => exact absurd hcompleted (not_errored_completed hcond hex he)
  | debugged hdebug => simp [hconf] at hdebug
  | @cancelConfirmed details _ h' he =>
    have hev := sparesCleanup_confirms (hcond _ he)
    simp only [confirmsReleased, Bool.or_eq_true, Bool.not_eq_true', anyTask_eq_false,
      beq_eq_false_iff_ne] at hev
    obtain ⟨j, hj, hjo⟩ := hex
    rcases hev with hfin | hno
    · rcases hw with hw | hw
      · rcases cancellationStatus_cases (w.rows s.id) details with ⟨-, h''⟩ | ⟨h'', -⟩
        · exact .inl (h'.trans (h''.trans hw))
        · rw [show (w.rows s.id).status = .completed from hw] at h''
          cases h''
      · rw [hw] at hfin
        cases hfin
    · exact absurd hjo (hno j hj)

/-- What runs that spare the cleanup keep. -/
structure Tidy (e : Execution) (w : World) : Prop where
  staged : Staged e w
  undisturbed : Undisturbed e w
  handedOver : HandedOver e w
  givenUp : GivenUp e w
  finished : Finished e w
  status : w.status ≠ .canceledForDebugging

lemma Tidy.change (wf : WellFormed e) (hconf : conf.debugOsMorphingErrors = false)
    (hc : Change e conf True reported w w')
    (hcond : ∀ ev ∈ w'.trace, sparesCleanup e ev = true ∧ ev.effect ≠ .cancelTasks true)
    (h : Tidy e w) : Tidy e w' := by
  have hspares : ∀ ev ∈ w'.trace, sparesCleanup e ev = true := fun ev hev => (hcond ev hev).1
  have hforce : ¬w'.emitted (.cancelTasks true) := fun ⟨ev, hev, heff⟩ => (hcond ev hev).2 heff
  exact ⟨h.staged.change hc,
    h.undisturbed.change wf hc fun ev hev => sparesCleanup_confirms (hspares ev hev),
    h.handedOver.change hconf hc hspares, h.givenUp.change wf h.staged hc hspares,
    h.finished.change hconf hc hspares, hc.status_ne (.inr (.inr ⟨rfl, hconf⟩)) h.status⟩

lemma Built.tidy (hb : Built r before e w) : Tidy e w := by
  refine ⟨hb.staged, hb.undisturbed, fun t ht _ => .inl ?_, fun t ht _ h => ?_, fun hs => ?_, ?_⟩
  · rcases hb.waiting ht with h | h
    · exact .inl h
    · exact .inr (.inl h)
  · rcases hb.waiting ht with h' | h' <;> simp [h'] at h
  · rcases hb.ready.status with h | h <;> simp [h] at hs
  · rcases hb.ready.status with h | h <;> simp [h]

/-- In a run without force or debugging whose events spare the cleanup, an execution that is
over has handed to a worker, and not taken back, every on-error task one of whose plain
parents did its work while another parent did not complete. -/
theorem cleanup_never_lost (r : Request) (before : String → Option TaskInfo) (e : Execution)
    (conf : Conf) (w w' : World) (hconf : conf.debugOsMorphingErrors = false)
    (h : Launched r before e w) (hrun : Run e conf castOnly w w')
    (hforce : ¬w'.emitted (.cancelTasks true))
    (hcond : ∀ ev ∈ w'.trace, sparesCleanup e ev = true) (hfin : w'.status.isFinalized = true) :
    ∀ o ∈ e.tasks, o.onError = true → ∀ p ∈ e.tasks, p.id ∈ o.dependsOn → p.onError = false →
      w'.st p.id = .completed ∨ w'.st p.id = .canceledAfterCompletion →
      ∀ q ∈ o.dependsOn, q ≠ p.id → w'.st q ≠ .completed →
        w'.emitted (.beginTask o.id) ∧ w'.st o.id ≠ .unscheduled := by
  obtain ⟨w₀, hb, hch, hsteady⟩ := h.run hrun
  have htidy := hch.invariant_of_trace (fun _ _ h hcond => Tidy.change hb.wellFormed hconf h hcond)
    (fun ev hev => ⟨hcond ev hev, fun heff => hforce ⟨ev, hev, heff⟩⟩) hb.tidy
  intro o ho hoe p hp hpo hpe hdone q hq hqp hnc
  have htrigger : (w'.st p.id).triggersCleanup = true := by
    rcases hdone with h' | h' <;> rw [h'] <;> decide
  have hup : w'.st o.id ≠ .unscheduled := fun hst => by
    have := (htidy.givenUp o ho hoe hst p.id hpo).2 (by rw [isOnError_of_mem hp, hpe])
    simp [htrigger] at this
  refine ⟨?_, hup⟩
  rcases htidy.handedOver o ho hoe with (hst | hst | hst | hst) | he
  · -- nothing waits in an execution that is over
    have hidle : w'.status.isActive = false := by
      revert hfin
      cases w'.status <;> decide
    exact absurd hst ((hsteady.ended hidle).1 o ho)
  · -- an execution that never released it is COMPLETED, and so is every parent
    have hcompleted : w'.status = .completed := by
      rcases htidy.undisturbed.status o ho hst with ⟨h' | h' | h', -⟩ | h' | h'
      · rw [h'] at hfin; cases hfin
      · rw [h'] at hfin; cases hfin
      · rw [h'] at hfin; cases hfin
      · exact h'
      · exact absurd h' htidy.status
    obtain ⟨s, hs, rfl, -⟩ := hb.wellFormed.parent o ho q hq
    rcases htidy.finished hcompleted ⟨o, ho, hst⟩ s hs with h' | h'
    · exact absurd h' hnc
    · exact absurd (hch.onErrorOnly hs h') (hb.mixed_parents ho hp hpo hpe hq)
  · exact absurd hst hup
  · -- a deadlock leaves nothing to clean up
    have := htidy.staged.stranded o ho hst p hp
    simp [TaskStatus.isFruitless, htrigger] at this
  · exact he

def transferBegun : World := (beginTasks transfer responsive transferStored transferStored).2

def deployed : List (Env × Call) :=
  completes transfer 0 ++ completes transfer 1 ++ completes transfer 2 ++ completes transfer 3 ++
    completes transfer 4 ++ completes transfer 5

/-- The replication fails, and the user cancels while the deletion of the resources is on its
way to its workers: both deletions are unscheduled and the resources stay. -/
theorem cleanup_lost_in_second_cancellation :
    ∃ w', Launched (.executeTransferTasks false false false) (fun _ => none) transfer
        transferBegun ∧
      Run transfer plainConf castOnly transferBegun w' ∧ ¬w'.emitted (.cancelTasks true) ∧
      w'.status = .error ∧ w'.st 4 = .completed ∧ w'.st 5 = .completed ∧ w'.st 6 = .error ∧
      w'.st 7 = .unscheduled ∧ w'.st 8 = .unscheduled := by
  refine ⟨runCalls transfer plainConf (deployed ++ runs transfer 6 ++ fails transfer 6 ++
    [(responsive, .cancel false)]) transferBegun, .begun built_transfer rfl,
    run_of_castCalls (by decide +kernel), ?_, by decide +kernel, by decide +kernel,
    by decide +kernel, by decide +kernel, by decide +kernel, by decide +kernel⟩
  rw [← wasForced_iff]
  decide +kernel

/-- Without the second cancellation both deletions are handed to a worker. -/
theorem cleanup_never_lost_transfer :
    let w' := runCalls transfer plainConf (deployed ++ runs transfer 6 ++ fails transfer 6 ++
      completes transfer 7 ++ completes transfer 8) transferBegun
    w'.status = .error ∧ w'.emitted (.beginTask 7) ∧ w'.st 7 ≠ .unscheduled := by
  intro w'
  have hstatus : w'.status = .error := by decide +kernel
  have hforce : ¬w'.emitted (.cancelTasks true) := by
    rw [← wasForced_iff]
    decide +kernel
  have hlost := cleanup_never_lost (.executeTransferTasks false false false) _ transfer plainConf
    transferBegun w' rfl (.begun built_transfer rfl) (run_of_castCalls (by decide)) hforce
    (by decide +kernel) (by rw [hstatus]; rfl)
    ⟨7, "vm", .deleteTransferSourceResources, [4, 6], true, 9⟩ (by decide) rfl
    ⟨4, "vm", .deployTransferSourceResources, [3], false, 6⟩ (by decide) (by decide) rfl
    (.inl (by decide +kernel)) 6 (by decide) (by decide) (by decide +kernel)
  exact ⟨hstatus, hlost⟩

end Coriolis.Conductor

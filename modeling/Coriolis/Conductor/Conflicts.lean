import Coriolis.Conductor.Ancestry
import Coriolis.Conductor.Stranded

/-!
# Tasks that return the same field

The fields a task returns overwrite those in the info of its instance, so two tasks that
return the same one should not be at work together. In every block such tasks rest on one
another, with one exception: without clones, the deletion of the disk snapshots follows the
finalization of an instance and their restoration follows the cleanup of a failed one. A
deployment that is cancelled while the snapshots are being deleted does both.
-/

namespace Coriolis.Conductor

open Dependencies

variable {r : Request} {before : String → Option TaskInfo} {e : Execution} {conf : Conf}
  {w w' : World} {t u : Task}

def TaskType.conflicts (a b : TaskType) : Bool :=
  a.returnedProperties.any fun f => b.returnedProperties.contains f

def ConflictFree (e : Execution) (w : World) : Prop :=
  ∀ t ∈ e.tasks, ∀ u ∈ e.tasks, t.id ≠ u.id → t.inst = u.inst → (w.st t.id).isActive = true →
    (w.st u.id).isActive = true → ∀ f ∈ t.taskType.returnedProperties,
      f ∉ u.taskType.returnedProperties

lemma blockShapes_conflicts : ∀ l ∈ blockShapes, ∀ b ∈ l, ∀ c ∈ l, b.task.id ≠ c.task.id →
    b.task.taskType.conflicts c.task.taskType = true →
    b.task.id ∈ ancestors l c.task.id ∨ c.task.id ∈ ancestors l b.task.id ∨
      b.task.taskType = .deleteTransferTargetDiskSnapshots ∧
        c.task.taskType = .restoreTransferDiskSnapshots ∨
      b.task.taskType = .restoreTransferDiskSnapshots ∧
        c.task.taskType = .deleteTransferTargetDiskSnapshots := by
  decide

lemma blockShapes_restore : ∀ l ∈ blockShapes, ∀ b ∈ l,
    b.task.taskType = .restoreTransferDiskSnapshots →
      b.task.onError = true ∧ ∃ c ∈ l, b.task.dependsOn = [c.task.id] ∧
        c.task.onError = true ∧ c.task.taskType = .cleanupFailedInstanceDeployment := by
  decide

lemma Built.same_block (hb : Built r before e w) (ht : t ∈ e.tasks) (hu : u ∈ e.tasks)
    (hi : t.inst = u.inst) :
    ∃ inst n, (∀ b ∈ r.block inst, (b.place inst n).task ∈ e.tasks) ∧
      ∃ b ∈ r.block inst, ∃ c ∈ r.block inst,
        t = (b.place inst n).task ∧ u = (c.place inst n).task := by
  obtain ⟨inst, -, n, hall, b, hbm, rfl⟩ := hb.task ht
  obtain ⟨inst', -, n', -, c, hcm, rfl⟩ := hb.task hu
  obtain rfl : inst = inst' := hi
  exact ⟨inst, n, fun b hbm => (hall b hbm).1, b, hbm, c, hcm, rfl,
    hb.task_unique hu (hall c hcm).1 rfl rfl⟩

/-- Tasks of an instance that return the same field rest on one another, or they are the
deletion and the restoration of its snapshots. -/
lemma Built.conflict (hb : Built r before e w) (ht : t ∈ e.tasks) (hu : u ∈ e.tasks)
    (hi : t.inst = u.inst) (hne : t.id ≠ u.id)
    (hconf : t.taskType.conflicts u.taskType = true) :
    Below e.parents t.id u.id ∨ Below e.parents u.id t.id ∨
      t.taskType = .deleteTransferTargetDiskSnapshots ∧
        u.taskType = .restoreTransferDiskSnapshots ∨
      t.taskType = .restoreTransferDiskSnapshots ∧
        u.taskType = .deleteTransferTargetDiskSnapshots := by
  obtain ⟨inst, n, hall, b, hbm, c, hcm, rfl, rfl⟩ := hb.same_block ht hu hi
  have hne' : b.task.id ≠ c.task.id := fun h => hne (by simp [Draft.place, h])
  rcases blockShapes_conflicts _ (r.block_mem inst) b hbm c hcm hne' hconf with h | h | h
  · exact .inl (below_of_mem_ancestors hall h)
  · exact .inr (.inl (below_of_mem_ancestors hall h))
  · exact .inr (.inr h)

lemma Built.restore_parent (hb : Built r before e w) (ht : t ∈ e.tasks)
    (hty : t.taskType = .restoreTransferDiskSnapshots) :
    t.onError = true ∧ ∃ c ∈ e.tasks, t.dependsOn = [c.id] ∧ c.inst = t.inst ∧
      c.onError = true ∧ c.taskType = .cleanupFailedInstanceDeployment := by
  obtain ⟨inst, -, n, hall, b, hbm, rfl⟩ := hb.task ht
  obtain ⟨hoe, c, hcm, hdeps, hcoe, hcty⟩ := blockShapes_restore _ (r.block_mem inst) b hbm hty
  exact ⟨hoe, _, (hall c hcm).1, by simp [Draft.place, hdeps], rfl, hcoe, hcty⟩

/-- A worker reports the end of a cleanup that is neither over nor being cancelled when the
snapshots of the instance are not being deleted any more. -/
def restoresAlone (e : Execution) (ev : Event) : Bool :=
  match ev.effect with
  | .taskCompleted id =>
    e.tasks.all fun c => e.tasks.all fun d =>
      !(c.id == id && c.taskType == .cleanupFailedInstanceDeployment && d.inst == c.inst &&
          d.taskType == .deleteTransferTargetDiskSnapshots && (ev.tasks id).isUndisturbed) ||
        (ev.tasks d.id).isFinalized
  | _ => true

/-- Once the cleanup of an instance completed, the deletion of its snapshots is over. -/
structure Exclusive (e : Execution) (w : World) : Prop where
  decided : Decided e w
  cleanup : ∀ c ∈ e.tasks, c.taskType = .cleanupFailedInstanceDeployment →
    w.st c.id = .completed → ∀ d ∈ e.tasks, d.inst = c.inst →
      d.taskType = .deleteTransferTargetDiskSnapshots → (w.st d.id).isFinalized = true
  restore : ∀ t ∈ e.tasks, t.taskType = .restoreTransferDiskSnapshots →
    (w.st t.id).isActive = true → ∀ d ∈ e.tasks, d.inst = t.inst →
      d.taskType = .deleteTransferTargetDiskSnapshots → (w.st d.id).isFinalized = true

lemma TaskStatus.isUndisturbed_of_completion
    (h : completionStatus row = some (.completed, details)) : row.status.isUndisturbed = true := by
  rcases completionStatus_some h with ⟨hfin, h1, h2, -⟩ | ⟨-, h⟩
  · revert hfin h1 h2
    cases row.status <;> decide
  · simp at h

namespace Exclusive

lemma cleanup_change (h : Exclusive e w) (hc : Change e conf True reported w w')
    (hcond : ∀ ev ∈ w'.trace, restoresAlone e ev = true) (hcm : c ∈ e.tasks)
    (hcty : c.taskType = .cleanupFailedInstanceDeployment) (hst : w'.st c.id = .completed)
    (hd : d ∈ e.tasks) (hi : d.inst = c.inst)
    (hdty : d.taskType = .deleteTransferTargetDiskSnapshots) :
    (w'.st d.id).isFinalized = true := by
  refine (hc.task hd).stays_finalized h.decided.staged hd ?_
  rcases (hc.task hcm).of_triggersCleanup (by rw [hst]; rfl) with heq | ⟨-, he, details, hdone⟩
  · exact h.cleanup c hcm hcty (heq.symm.trans hst) d hd hi hdty
  · have hev := hcond _ he
    rw [hst] at hdone
    simp only [restoresAlone, List.all_eq_true] at hev
    have := hev c hcm d hd
    simpa [hcty, hi, hdty, show (w.st c.id).isUndisturbed = true from
      TaskStatus.isUndisturbed_of_completion hdone] using this

lemma restore_change (h : Exclusive e w) (hb : Built r before e w₀)
    (hc : Change e conf True reported w w') (ht : t ∈ e.tasks)
    (hty : t.taskType = .restoreTransferDiskSnapshots) (hact : (w'.st t.id).isActive = true)
    (hd : d ∈ e.tasks) (hi : d.inst = t.inst)
    (hdty : d.taskType = .deleteTransferTargetDiskSnapshots) :
    (w'.st d.id).isFinalized = true := by
  refine (hc.task hd).stays_finalized h.decided.staged hd ?_
  rcases (hc.task ht).of_isActive h.decided.staged ht hact with hold | ⟨hstart, -⟩
  · exact h.restore t ht hty hold d hd hi hdty
  -- it is started by the completion of the cleanup, its only parent
  obtain ⟨hoe, c, hcm, hdeps, hci, hcoe, hcty⟩ := hb.restore_parent ht hty
  refine h.cleanup c hcm hcty ?_ d hd (hi.trans hci.symm) hdty
  have hpar := (decision_start hstart).2
  simp only [hdeps, hoe, isOnError_of_mem hcm, hcoe, List.mem_singleton, forall_eq,
    exists_eq_left, false_and, or_false, false_or, true_and, Bool.true_eq_false,
    List.cons_ne_nil] at hpar
  exact hpar.2

lemma change (hb : Built r before e w₀) (hc : Change e conf True reported w w')
    (hcond : ∀ ev ∈ w'.trace, restoresAlone e ev = true) (h : Exclusive e w) : Exclusive e w' :=
  ⟨h.decided.change hc,
    fun _ hcm hcty hst _ hd hi hdty => h.cleanup_change hc hcond hcm hcty hst hd hi hdty,
    fun _ ht hty hact _ hd hi hdty => h.restore_change hb hc ht hty hact hd hi hdty⟩

lemma conflictFree (h : Exclusive e w) (hb : Built r before e w₀) :
    ConflictFree e w := by
  intro t ht u hu hne hi htact huact f hft hfu
  have hconf : t.taskType.conflicts u.taskType = true :=
    List.any_eq_true.mpr ⟨f, hft, by simpa using hfu⟩
  rcases hb.conflict ht hu hi hne hconf with hb' | hb' | ⟨h1, h2⟩ | ⟨h1, h2⟩
  · exact h.decided.not_below hb.wellFormed hu ht huact htact hb'
  · exact h.decided.not_below hb.wellFormed ht hu htact huact hb'
  · have := h.restore u hu h2 huact t ht hi h1
    simp [TaskStatus.isActive_not_isFinalized htact] at this
  · have := h.restore t ht h1 htact u hu hi.symm h2
    simp [TaskStatus.isActive_not_isFinalized huact] at this

end Exclusive

lemma Built.exclusive (hb : Built r before e w) : Exclusive e w := by
  refine ⟨hb.decided, fun c hc _ h => ?_, fun t ht _ h => ?_⟩
  · rcases hb.waiting hc with h' | h' <;> simp [h'] at h
  · rcases hb.waiting ht with h' | h' <;> rw [h'] at h <;> cases h

/-- In a run whose cleanups end with the deletion of the snapshots out of the way, no two
active tasks of an instance ever return the same field. -/
theorem active_tasks_return_apart (r : Request) (before : String → Option TaskInfo)
    (e : Execution) (conf : Conf) (w w' : World) (h : Launched r before e w)
    (hrun : Run e conf castOnly w w') (hcond : ∀ ev ∈ w'.trace, restoresAlone e ev = true) :
    ConflictFree e w' := by
  obtain ⟨w₀, hb, hch, -⟩ := h.run hrun
  have hex : Exclusive e w' := hch.invariant_of_trace
    (fun _ _ hc hcond => Exclusive.change hb hc hcond) hcond hb.exclusive
  exact hex.conflictFree hb

/-- A deployment is cancelled while its snapshots are being deleted: the cleanup completes
first, and the snapshots are restored and deleted at once. -/
theorem snapshots_deleted_and_restored_at_once :
    ∃ w', Launched (.executeDeployment true false false []) replicated deployment
        deploymentBegun ∧
      Run deployment plainConf castOnly deploymentBegun w' ∧
      ∃ d ∈ deployment.tasks, ∃ t ∈ deployment.tasks,
        d.taskType = .deleteTransferTargetDiskSnapshots ∧
        t.taskType = .restoreTransferDiskSnapshots ∧ d.inst = t.inst ∧
        w'.st d.id = .cancelling ∧ w'.st t.id = .pending ∧ ¬ConflictFree deployment w' := by
  refine ⟨runCalls deployment plainConf (completes deployment 0 ++ completes deployment 1 ++
      completes deployment 2 ++ completes deployment 3 ++ runs deployment 4 ++
      [(responsive, .cancel false)] ++ completes deployment 5) deploymentBegun,
    .begun built_deployment rfl, run_of_castCalls (by decide),
    ⟨4, "vm", .deleteTransferTargetDiskSnapshots, [1, 3], false, 6⟩, by decide,
    ⟨6, "vm", .restoreTransferDiskSnapshots, [5], true, 8⟩, by decide, rfl, rfl, rfl,
    by decide, by decide, fun hfree => ?_⟩
  exact hfree ⟨4, "vm", .deleteTransferTargetDiskSnapshots, [1, 3], false, 6⟩ (by decide)
    ⟨6, "vm", .restoreTransferDiskSnapshots, [5], true, 8⟩ (by decide) (by decide) rfl
    (by decide) (by decide) "volumes_info" (by decide) (by decide)

/-- The same deployment when the deletion confirms its cancellation first. -/
theorem active_tasks_return_apart_deployment :
    let w' := runCalls deployment plainConf (completes deployment 0 ++ completes deployment 1 ++
      completes deployment 2 ++ completes deployment 3 ++ runs deployment 4 ++
      [(responsive, .cancel false)] ++ confirms responsive deployment 4 ++
      completes deployment 5) deploymentBegun
    w'.st 6 = .pending ∧ ConflictFree deployment w' := by
  intro w'
  exact ⟨by decide, active_tasks_return_apart _ _ deployment plainConf deploymentBegun w'
    (.begun built_deployment rfl) (run_of_castCalls (by decide)) (by decide)⟩

end Coriolis.Conductor

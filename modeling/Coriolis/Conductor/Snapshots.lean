import Coriolis.Conductor.OnErrorOnly
import Coriolis.Conductor.Stages

/-!
# The disk snapshots of a deployment

A deployment takes snapshots of the disks of an instance before it touches them, and later
deletes or restores them. With clones the deletion is an on-error task, and there is nothing
to restore. Without clones the deletion needs the finalization to be COMPLETED, and the
snapshots are restored after the cleanup of a failed deployment: which of the two is started
depends on where each task of the instance stands when the cleanup is released.
-/

namespace Coriolis.Conductor

variable {before : String → Option TaskInfo} {e : Execution} {conf : Conf} {w w' : World} {t : Task}

/-- The tasks of an instance of a deployment that bear on its disk snapshots. -/
structure SnapshotTasks where
  create : Task
  deploy : Task
  finalize : Task
  delete : Task
  cleanup : Task
  restore : Option Task

def Execution.taskOf (e : Execution) (inst : String) (taskType : TaskType) : Option Task :=
  e.tasks.find? fun t => t.inst == inst && t.taskType == taskType

def Execution.snapshotTasks (e : Execution) (inst : String) : Option SnapshotTasks := do
  let create ← e.taskOf inst .createTransferDiskSnapshots
  let deploy ← e.taskOf inst .deployInstanceResources
  let finalize ← e.taskOf inst .finalizeInstanceDeployment
  let delete ← e.taskOf inst .deleteTransferTargetDiskSnapshots
  let cleanup ← e.taskOf inst .cleanupFailedInstanceDeployment
  return ⟨create, deploy, finalize, delete, cleanup,
    e.taskOf inst .restoreTransferDiskSnapshots⟩

/-- How the tasks of a deployment hang together. -/
structure SnapshotTasks.Of (e : Execution) (g : SnapshotTasks) : Prop where
  create_mem : g.create ∈ e.tasks
  deploy_mem : g.deploy ∈ e.tasks
  finalize_mem : g.finalize ∈ e.tasks
  delete_mem : g.delete ∈ e.tasks
  cleanup_mem : g.cleanup ∈ e.tasks
  create_plain : g.create.onError = false
  deploy_plain : g.deploy.onError = false
  delete_onError : g.delete.onError = g.restore.isNone
  create_delete : g.create.id ∈ g.delete.dependsOn
  finalize_delete : g.finalize.id ∈ g.delete.dependsOn
  deploy_cleanup : g.deploy.id ∈ g.cleanup.dependsOn
  cleanup_onError : g.cleanup.onError = true
  restore : ∀ s ∈ g.restore, s ∈ e.tasks ∧ s.onError = true ∧ s.dependsOn = [g.cleanup.id]

/-- What the block of an instance says about its snapshots. -/
structure SnapshotBlock (cloneDisks : Bool) (l : List Draft) : Prop where
  present : ∀ ty ∈ [TaskType.createTransferDiskSnapshots, .deployInstanceResources,
    .finalizeInstanceDeployment, .deleteTransferTargetDiskSnapshots,
    .cleanupFailedInstanceDeployment], ∃ b ∈ l, b.task.taskType = ty
  restorable : cloneDisks = false → ∃ b ∈ l, b.task.taskType = .restoreTransferDiskSnapshots
  plain : ∀ b ∈ l, b.task.taskType = .createTransferDiskSnapshots ∨
    b.task.taskType = .deployInstanceResources → b.task.onError = false
  delete : ∀ b ∈ l, b.task.taskType = .deleteTransferTargetDiskSnapshots →
    b.status = .scheduled ∧ b.task.onError = cloneDisks ∧
      ∀ p ∈ l, p.task.taskType = .createTransferDiskSnapshots ∨
        p.task.taskType = .finalizeInstanceDeployment → p.task.id ∈ b.task.dependsOn
  cleanup : ∀ b ∈ l, b.task.taskType = .cleanupFailedInstanceDeployment →
    b.status = .onErrorOnly ∧ b.task.onError = true ∧
      ∀ p ∈ l, p.task.taskType = .deployInstanceResources → p.task.id ∈ b.task.dependsOn
  restore : ∀ b ∈ l, b.task.taskType = .restoreTransferDiskSnapshots →
    cloneDisks = false ∧ b.status = .onErrorOnly ∧ b.task.onError = true ∧
      ∀ p ∈ l, p.task.taskType = .cleanupFailedInstanceDeployment →
        b.task.dependsOn = [p.task.id]

lemma Request.snapshotBlock (skip clone flavor : Bool) (pools : List String) (inst : String) :
    SnapshotBlock clone ((Request.executeDeployment skip clone flavor pools).block inst) := by
  simp only [block]
  generalize pools.contains inst = onMinion
  constructor
  all_goals revert skip clone flavor onMinion; decide

lemma Execution.taskOf_spec (h : e.taskOf inst ty = some t) :
    t ∈ e.tasks ∧ t.inst = inst ∧ t.taskType = ty := by
  have hkeys := List.find?_some h
  simp only [Bool.and_eq_true, beq_iff_eq] at hkeys
  exact ⟨List.mem_of_find?_eq_some h, hkeys⟩

lemma Built.taskOf (hb : Built r before e w) (ht : t ∈ e.tasks) :
    e.taskOf t.inst t.taskType = some t := by
  obtain ⟨s, hs⟩ : ∃ s, e.taskOf t.inst t.taskType = some s :=
    Option.isSome_iff_exists.mp (List.find?_isSome.mpr ⟨t, ht, by simp⟩)
  obtain ⟨hmem, hinst, hty⟩ := Execution.taskOf_spec hs
  rw [hs, hb.task_unique hmem ht hinst hty]

lemma Built.restore_cases (hb : Built (.executeDeployment skip clone flavor pools) before e w)
    (hall : ∀ b ∈ (Request.executeDeployment skip clone flavor pools).block inst,
      (b.place inst n).task ∈ e.tasks ∧ w.st (b.place inst n).task.id = b.status) :
    clone = true ∧ e.taskOf inst .restoreTransferDiskSnapshots = none ∨
      clone = false ∧ ∃ b ∈ (Request.executeDeployment skip clone flavor pools).block inst,
        b.task.taskType = .restoreTransferDiskSnapshots ∧
        e.taskOf inst .restoreTransferDiskSnapshots = some (b.place inst n).task := by
  cases hclone : clone with
  | true =>
    refine .inl ⟨rfl, List.find?_eq_none.mpr fun s hs => ?_⟩
    obtain ⟨inst', -, n', -, b, hbm, rfl⟩ := hb.task hs
    intro hty
    simp only [Bool.and_eq_true, beq_iff_eq] at hty
    have := ((Request.snapshotBlock skip clone flavor pools inst').restore b hbm hty.2).1
    simp [hclone] at this
  | false =>
    subst hclone
    obtain ⟨b, hbm, hbty⟩ := (Request.snapshotBlock skip false flavor pools inst).restorable rfl
    have := hb.taskOf (hall b hbm).1
    exact .inr ⟨rfl, b, hbm, hbty, by rw [← hbty]; exact this⟩

lemma Built.snapshotTasks (hb : Built (.executeDeployment skip clone flavor pools) before e w)
    (ht : t ∈ e.tasks) (hty : t.taskType = .createTransferDiskSnapshots) :
    t.inst ∈ e.instances ∧ ∃ g, e.snapshotTasks t.inst = some g ∧ g.create = t ∧ g.Of e ∧
      e.taskOf t.inst .deleteTransferTargetDiskSnapshots = some g.delete ∧
      e.taskOf t.inst .restoreTransferDiskSnapshots = g.restore ∧
      w.st g.delete.id = .scheduled ∧ w.st g.cleanup.id = .onErrorOnly ∧
      ∀ s ∈ g.restore, w.st s.id = .onErrorOnly := by
  obtain ⟨inst, hi, n, hall, b, hbm, rfl⟩ := hb.task ht
  have hblock := Request.snapshotBlock skip clone flavor pools inst
  have hof : ∀ {ty : TaskType}, ∀ b ∈ (Request.executeDeployment skip clone flavor pools).block inst,
      b.task.taskType = ty → e.taskOf inst ty = some (b.place inst n).task := by
    rintro _ b hbm rfl
    exact hb.taskOf (hall b hbm).1
  obtain ⟨c, hcm, hc⟩ := hblock.present .createTransferDiskSnapshots (by simp)
  obtain ⟨d, hdm, hd⟩ := hblock.present .deployInstanceResources (by simp)
  obtain ⟨f, hfm, hf⟩ := hblock.present .finalizeInstanceDeployment (by simp)
  obtain ⟨x, hxm, hx⟩ := hblock.present .deleteTransferTargetDiskSnapshots (by simp)
  obtain ⟨k, hkm, hk⟩ := hblock.present .cleanupFailedInstanceDeployment (by simp)
  obtain ⟨hxs, hxo, hxd⟩ := hblock.delete x hxm hx
  obtain ⟨hks, hko, hkd⟩ := hblock.cleanup k hkm hk
  have hplace : ∀ {p q : Draft}, p.task.id ∈ q.task.dependsOn →
      (p.place inst n).task.id ∈ (q.place inst n).task.dependsOn := fun h =>
    List.mem_map_of_mem h
  have hrest : ∀ s ∈ e.taskOf inst .restoreTransferDiskSnapshots,
      (s ∈ e.tasks ∧ s.onError = true ∧ s.dependsOn = [(k.place inst n).task.id]) ∧
        w.st s.id = .onErrorOnly := by
    intro s hs
    rcases hb.restore_cases hall with ⟨-, hnone⟩ | ⟨-, b, hbm, hbty, hsome⟩
    · simp [hnone] at hs
    · obtain rfl : (b.place inst n).task = s := by simpa [hsome] using hs
      obtain ⟨-, hbs, hbo, hbd⟩ := hblock.restore b hbm hbty
      exact ⟨⟨(hall b hbm).1, hbo, by simp [Draft.place, hbd k hkm hk]⟩,
        (hall b hbm).2.trans hbs⟩
  refine ⟨hi, ⟨(c.place inst n).task, (d.place inst n).task, (f.place inst n).task,
    (x.place inst n).task, (k.place inst n).task, e.taskOf inst .restoreTransferDiskSnapshots⟩,
    ?_, ?_, ?_, hof x hxm hx, rfl, (hall x hxm).2.trans hxs, (hall k hkm).2.trans hks,
    fun s hs => (hrest s hs).2⟩
  · change e.snapshotTasks inst = _
    simp only [Execution.snapshotTasks, hof c hcm hc, hof d hdm hd, hof f hfm hf, hof x hxm hx,
      hof k hkm hk]
    rfl
  · exact Option.some.inj ((hof c hcm hc).symm.trans (hof b hbm hty))
  · refine ⟨(hall c hcm).1, (hall d hdm).1, (hall f hfm).1, (hall x hxm).1, (hall k hkm).1,
      hblock.plain c hcm (.inl hc), hblock.plain d hdm (.inr hd), ?_,
      hplace (hxd c hcm (.inl hc)), hplace (hxd f hfm (.inr hf)), hplace (hkd d hdm hd), hko,
      fun s hs => (hrest s hs).1⟩
    rcases hb.restore_cases hall with ⟨hclone, hnone⟩ | ⟨hclone, b, -, -, hsome⟩
    · simp [Draft.place, hxo, hclone, hnone]
    · simp [Draft.place, hxo, hclone, hsome]

section

variable (g : SnapshotTasks) (e : Execution) (ev : Event)

/-- With clones: the deletion finds its worker, and the snapshots are not taken by a worker
that was given up on. -/
def SnapshotTasks.deletes : Bool :=
  match ev.effect with
  | .noSuitableWorker id => id != g.delete.id
  | .beginTaskRaised id => id != g.delete.id
  | .taskCompleted id => !(id == g.create.id && ev.tasks id == .failedToCancel)
  | _ => true

/-- Without clones: the first cancellation finds the instance not finalized and, if it has
snapshots, deployed; later ones do not find the cleanup at work. After the first one no
snapshots are taken and nothing is finalized that was not itself cancelled; the cleanup and
the restoration find their workers and the cleanup succeeds; and what was deployed or
finalized is not reported as failed afterwards. -/
def SnapshotTasks.restores (restore : Task) : Bool :=
  confirmsReleased e ev &&
  match ev.effect with
  | .cancelTasks _ =>
    !(ev.tasks g.cleanup.id).isActive &&
      (ev.tasks g.cleanup.id != .onErrorOnly ||
        ev.tasks g.finalize.id != .completed &&
          (!(ev.tasks g.create.id).triggersCleanup || ev.tasks g.deploy.id == .completed))
  | .noSuitableWorker id => id != g.cleanup.id && id != restore.id
  | .beginTaskRaised id => id != g.cleanup.id && id != restore.id
  | .taskCompleted id =>
    ev.tasks g.cleanup.id == .onErrorOnly ||
      (id != g.create.id || (ev.tasks id).isSettled) &&
        (id != g.finalize.id || !(ev.tasks id).isUndisturbed)
  | .taskErrored id =>
    id != g.cleanup.id && !((id == g.deploy.id || id == g.finalize.id) && ev.tasks id == .completed)
  | .taskCancelled id => id != g.cleanup.id || (ev.tasks id).isSettled
  | _ => true

def SnapshotTasks.settles : Bool :=
  match g.restore with
  | none => g.deletes ev
  | some restore => g.restores e ev restore

end

/-- The deletion waits, was handed to a worker, or has nothing to delete. -/
def Deletable (g : SnapshotTasks) (w : World) : Prop :=
  w.st g.delete.id = .scheduled ∨ w.emitted (.beginTask g.delete.id) ∨
    (w.st g.create.id).isFinalized = true ∧ (w.st g.create.id).triggersCleanup = false

lemma Deletable.change (hg : g.Of e) (hclone : g.restore = none)
    (hconf : conf.debugOsMorphingErrors = false) (hs : Staged e w)
    (hc : Change e conf True reported w w') (hcond : ∀ ev ∈ w'.trace, g.deletes ev = true)
    (h : Deletable g w) : Deletable g w' := by
  have hoe : g.delete.onError = true := by rw [hg.delete_onError, hclone]; rfl
  have hcast : w.emitted (.beginTask g.delete.id) → Deletable g w' := fun he =>
    .inr (.inl (he.mono hc.suffix))
  have hnothing : (w.st g.create.id).isFinalized = true →
      (w.st g.create.id).triggersCleanup = false → Deletable g w' := by
    intro hfin htr
    obtain ⟨h1, h2⟩ := (hc.task hg.create_mem).isFinalized hs hg.create_mem
      (fun s he hst => by simpa [SnapshotTasks.deletes, hst] using hcond _ he) hfin
    refine .inr (.inr ⟨h1, ?_⟩)
    by_contra htr'
    simp [h2 (by simpa using htr')] at htr
  rcases h with hst | he | ⟨hfin, htr⟩
  rotate_left
  · exact hcast he
  · exact hnothing hfin htr
  cases hc.task hg.delete_mem with
  | same h' => exact .inl (h'.trans hst)
  | started _ _ he => exact .inr (.inl he)
  | notScheduled _ _ he =>
    obtain ⟨ev, hev, heff⟩ := he
    have := hcond ev hev
    simp [SnapshotTasks.deletes, heff] at this
  | castRaised _ _ he =>
    obtain ⟨ev, hev, heff, -⟩ := he
    have := hcond ev hev
    simp [SnapshotTasks.deletes, heff] at this
  | unscheduled hd =>
    obtain ⟨-, -, hfin, -, hcleanup⟩ := decision_unschedule hd
    exact hnothing (hfin _ hg.create_delete) ((hcleanup hoe).1 _ hg.create_delete
      (by rw [isOnError_of_mem hg.create_mem, hg.create_plain]))
  | cancelled _ h' =>
    have hdeps : g.delete.dependsOn ≠ [] := List.ne_nil_of_mem hg.create_delete
    rw [hst, cancelledStatus_scheduled, if_neg hdeps] at h'
    exact .inl h'
  | deadlocked _ _ _ _ h' =>
    have := (hs.change hc).stranded _ hg.delete_mem h' _ hg.create_mem
    simp only [TaskStatus.isFruitless, Bool.and_eq_true, Bool.not_eq_true'] at this
    exact .inr (.inr ⟨TaskStatus.isFinalized_of_isSettled this.1, this.2⟩)
  | moved hok | completed hok | errored hok | cancelConfirmed hok => exact hcast hok.1
  | debugged hdebug => simp [hconf] at hdebug

lemma Change.not_cast (hc : Change e conf True reported w w') (ht : t ∈ e.tasks)
    (hst : w.st t.id ≠ .scheduled) (hno : ¬w.emitted (.beginTask t.id)) :
    ¬w'.emitted (.beginTask t.id) := by
  intro he
  rcases hc.beginTask he with he | ⟨s, hs, hid, hd, -⟩
  · exact hno he
  · obtain rfl := task_eq_of_id hs ht hid
    exact TaskStep.not_start hd hst

/-- What waits for an error goes on waiting, is released together with all the others, or
falls to a deadlock. -/
lemma TaskStep.of_onErrorOnly (h : TaskStep e conf True reported w w' t)
    (hconf : conf.debugOsMorphingErrors = false) (hoe : w.st t.id = .onErrorOnly)
    (hno : ¬w.emitted (.beginTask t.id)) :
    w'.st t.id = .onErrorOnly ∨ w'.st t.id = .canceledFromDeadlock ∨
      w'.st t.id = .scheduled ∧ ∃ env force, ∃ ev ∈ w'.trace, ev.effect = .cancelTasks force ∧
        ev.tasks t.id = .onErrorOnly ∧
        ∀ s ∈ e.tasks, w'.st s.id = cancelledStatus env force s (ev.tasks s.id) := by
  have hns : w.st t.id ≠ .scheduled := by simp [hoe]
  cases h with
  | same h => exact .inl (h.trans hoe)
  | started hd | notScheduled hd | castRaised hd => exact (not_start hd hns).elim
  | unscheduled hd => exact (not_unschedule hd hns).elim
  | cancelled _ h _ he =>
    obtain ⟨ev, hev, heff, htask, hall⟩ := he
    exact .inr (.inr ⟨by rw [h, hoe, cancelledStatus_onErrorOnly], _, _, ev, hev, heff,
      htask.trans hoe, hall⟩)
  | deadlocked _ _ _ _ h => exact .inr (.inl h)
  | moved hok | completed hok | errored hok | cancelConfirmed hok => exact absurd hok.1 hno
  | debugged hdebug => simp [hconf] at hdebug

/-- Before the cleanup is released nothing is restored, and the snapshots are deleted once
the instance is finalized; afterwards nothing is deleted, and snapshots that were taken are
those of a deployed instance, whose cleanup succeeds and whose restoration waits for it. -/
structure Restorable (g : SnapshotTasks) (restore : Task) (w : World) : Prop where
  delete : w.st g.delete.id ≠ .onErrorOnly
  delivered : w.st g.delete.id = .completed → w.emitted (.beginTask g.delete.id)
  waiting : w.st g.cleanup.id = .onErrorOnly →
    w.st restore.id = .onErrorOnly ∧ ¬w.emitted (.beginTask g.cleanup.id) ∧
      ¬w.emitted (.beginTask restore.id) ∧
      (w.emitted (.beginTask g.delete.id) → w.st g.finalize.id = .completed) ∧
      (w.status = .completed → w.emitted (.beginTask g.delete.id))
  released : w.st g.cleanup.id ≠ .onErrorOnly →
    w.st g.finalize.id ≠ .completed ∧ ¬w.emitted (.beginTask g.delete.id) ∧
      ((w.st g.create.id).triggersCleanup = true → w.st g.deploy.id = .completed ∧
        (w.st g.cleanup.id).isUndisturbed = true ∧
        (w.st restore.id = .scheduled ∨ w.emitted (.beginTask restore.id)))

namespace Restorable

variable {g : SnapshotTasks} (hcond : ∀ ev ∈ w'.trace, g.restores e ev restore = true)

section

include hcond

lemma finds_worker {id : TaskId} (hid : id = g.cleanup.id ∨ id = restore.id) :
    ¬w'.emitted (.noSuitableWorker id) ∧ ¬w'.emitted (.beginTaskRaised id) := by
  constructor <;>
  · rintro ⟨ev, hev, heff⟩
    have := hcond ev hev
    rcases hid with rfl | rfl <;> simp [SnapshotTasks.restores, heff] at this

lemma at_cancellation (hev : ev ∈ w'.trace) (heff : ev.effect = .cancelTasks force) :
    (ev.tasks g.cleanup.id).isActive = false ∧
      (ev.tasks g.cleanup.id = .onErrorOnly → ev.tasks g.finalize.id ≠ .completed ∧
        ((ev.tasks g.create.id).triggersCleanup = true →
          ev.tasks g.deploy.id = .completed)) := by
  have := hcond ev hev
  simp only [SnapshotTasks.restores, heff, Bool.and_eq_true, Bool.or_eq_true, bne_iff_ne,
    Bool.not_eq_true', beq_iff_eq] at this
  obtain ⟨-, hact, hrel⟩ := this
  refine ⟨hact, fun hoe => ?_⟩
  obtain ⟨hf, hd⟩ := hrel.resolve_left (not_not.mpr hoe)
  exact ⟨hf, fun htr => hd.resolve_left (by simp [htr])⟩

lemma at_completion {id : TaskId} (he : ⟨.taskCompleted id, s, w.st⟩ ∈ w'.trace)
    (hk : w.st g.cleanup.id ≠ .onErrorOnly) :
    (id = g.create.id → (w.st id).isSettled = true) ∧
      (id = g.finalize.id → (w.st id).isUndisturbed = false) := by
  have := hcond _ he
  simp only [SnapshotTasks.restores, Bool.and_eq_true, Bool.or_eq_true, bne_iff_ne,
    Bool.not_eq_true', beq_iff_eq, hk, false_or] at this
  obtain ⟨-, h1, h2⟩ := this
  exact ⟨fun h => h1.resolve_left (not_not.mpr h), fun h => h2.resolve_left (not_not.mpr h)⟩

lemma at_error {id : TaskId} (he : ⟨.taskErrored id, s, w.st⟩ ∈ w'.trace) :
    id ≠ g.cleanup.id ∧ (id = g.deploy.id ∨ id = g.finalize.id → w.st id ≠ .completed) := by
  have := hcond _ he
  simp only [SnapshotTasks.restores, Bool.and_eq_true, bne_iff_ne] at this
  refine ⟨this.2.1, fun hid hst => ?_⟩
  have := this.2.2
  rcases hid with rfl | rfl <;> simp [hst] at this

lemma at_confirmation (he : ⟨.taskCancelled g.cleanup.id, s, w.st⟩ ∈ w'.trace) :
    (w.st g.cleanup.id).isSettled = true := by
  have := hcond _ he
  simp only [SnapshotTasks.restores, Bool.and_eq_true] at this
  simpa using this.2

lemma completed_kept (ht : t ∈ e.tasks) (hid : t.id = g.deploy.id ∨ t.id = g.finalize.id)
    (hc : Change e conf True reported w w') (hst : w.st t.id = .completed) :
    w'.st t.id = .completed := by
  rcases (hc.task ht).of_isSettled (by rw [hst]; rfl) with h | ⟨-, he, -⟩
  · exact h.trans hst
  · exact absurd hst ((at_error hcond he).2 hid)

end

section

variable (hg : g.Of e) (hr : g.restore = some restore) (hconf : conf.debugOsMorphingErrors = false)
  (hs : Staged e w) (hc : Change e conf True reported w w')

include hg hr in
lemma deletion_start (hd : lifecycleDecision e w.st g.delete = .start) :
    w.st g.delete.id = .scheduled ∧ w.st g.finalize.id = .completed := by
  obtain ⟨hsch, hdeps⟩ := decision_start hd
  have hplain : g.delete.onError = false := by rw [hg.delete_onError, hr]; rfl
  refine ⟨hsch, ?_⟩
  rcases hdeps with hdeps | ⟨-, ⟨-, hall⟩ | ⟨hoe, -⟩⟩
  · exact absurd hdeps (List.ne_nil_of_mem hg.finalize_delete)
  · exact hall _ hg.finalize_delete
  · simp [hplain] at hoe

include hg hc in
lemma deletion_delivered (h : Restorable g restore w)
    (hk : w'.st g.cleanup.id = .onErrorOnly) (hstatus : w'.status = .completed) :
    w'.emitted (.beginTask g.delete.id) := by
  have hkw := (hc.task hg.cleanup_mem).onErrorOnly hk
  rcases hc.of_completed hstatus with hcompleted | ⟨-, hall⟩
  · exact ((h.waiting hkw).2.2.2.2 hcompleted).mono hc.suffix
  · exact (h.delivered ((hall _ hg.delete_mem).resolve_right h.delete)).mono hc.suffix

include hg hr hc hcond

lemma deletion_needs_finalization (h : Restorable g restore w)
    (hk : w.st g.cleanup.id = .onErrorOnly) (he : w'.emitted (.beginTask g.delete.id)) :
    w'.st g.finalize.id = .completed := by
  rcases hc.beginTask he with he | ⟨x, hx, hid, hd, rfl⟩
  · exact completed_kept hcond hg.finalize_mem (.inr rfl) hc ((h.waiting hk).2.2.2.1 he)
  · obtain rfl := task_eq_of_id hx hg.delete_mem hid
    obtain ⟨hsch, hf⟩ := deletion_start hg hr hd
    have hne : g.finalize.id ≠ g.delete.id := fun heq => by simp [heq, hsch] at hf
    simp [Function.update_of_ne hne, hf]

include hconf hs in
lemma waiting_change (h : Restorable g restore w) (hk : w'.st g.cleanup.id = .onErrorOnly) :
    w'.st restore.id = .onErrorOnly ∧ ¬w'.emitted (.beginTask g.cleanup.id) ∧
      ¬w'.emitted (.beginTask restore.id) ∧
      (w'.emitted (.beginTask g.delete.id) → w'.st g.finalize.id = .completed) ∧
      (w'.status = .completed → w'.emitted (.beginTask g.delete.id)) := by
  have hkw := (hc.task hg.cleanup_mem).onErrorOnly hk
  obtain ⟨hoe, hnk, hnr, -, -⟩ := h.waiting hkw
  have hrm := (hg.restore restore hr).1
  refine ⟨?_, hc.not_cast hg.cleanup_mem (by simp [hkw]) hnk, hc.not_cast hrm (by simp [hoe]) hnr,
    deletion_needs_finalization hcond hg hr hc h hkw, deletion_delivered hg hc h hk⟩
  rcases (hc.task hrm).of_onErrorOnly hconf hoe hnr with h' | h' | ⟨-, env, force, ev, -, -, -, hall⟩
  · exact h'
  · have := (hs.change hc).stranded _ hrm h' _ hg.cleanup_mem
    rw [hk] at this
    cases this
  · exact absurd (hall _ hg.cleanup_mem ▸ hk) (cancelledStatus_ne_onErrorOnly _)

include hconf hs in
lemma release (h : Restorable g restore w) (hkw : w.st g.cleanup.id = .onErrorOnly)
    (hk : w'.st g.cleanup.id ≠ .onErrorOnly) :
    w'.st g.finalize.id ≠ .completed ∧ ¬w'.emitted (.beginTask g.delete.id) ∧
      ((w'.st g.create.id).triggersCleanup = true → w'.st g.deploy.id = .completed ∧
        (w'.st g.cleanup.id).isUndisturbed = true ∧
        (w'.st restore.id = .scheduled ∨ w'.emitted (.beginTask restore.id))) := by
  obtain ⟨hoe, hnk, hnr, -, -⟩ := h.waiting hkw
  have hrm := (hg.restore restore hr).1
  have hno : w'.st g.finalize.id ≠ .completed → ¬w'.emitted (.beginTask g.delete.id) :=
    fun hf he => hf (deletion_needs_finalization hcond hg hr hc h hkw he)
  have hdead : w'.st g.cleanup.id = .canceledFromDeadlock ∨
      w'.st restore.id = .canceledFromDeadlock →
      ∀ s ∈ e.tasks, (w'.st s.id).isFruitless = true := by
    rintro (h' | h')
    · exact (hs.change hc).stranded _ hg.cleanup_mem h'
    · exact (hs.change hc).stranded _ hrm h'
  rcases (hc.task hg.cleanup_mem).of_onErrorOnly hconf hkw hnk with
    h' | h' | ⟨h', env, force, ev, hev, heff, htask, hall⟩
  · exact absurd h' hk
  · have hf : w'.st g.finalize.id ≠ .completed := fun heq => by
      have := hdead (.inl h') _ hg.finalize_mem
      rw [heq] at this
      cases this
    refine ⟨hf, hno hf, fun htr => ?_⟩
    have := hdead (.inl h') _ hg.create_mem
    simp [TaskStatus.isFruitless, htr] at this
  · obtain ⟨hf, hd⟩ := (at_cancellation hcond hev heff).2 htask
    have hf : w'.st g.finalize.id ≠ .completed := by
      rw [hall _ hg.finalize_mem]
      exact cancelledStatus_ne hf rfl
    refine ⟨hf, hno hf, fun htr => ⟨?_, by rw [h']; rfl, ?_⟩⟩
    · rw [hall _ hg.create_mem] at htr
      rw [hall _ hg.deploy_mem, hd (cancelledStatus_triggersCleanup htr)]
      exact cancelledStatus_of_isSettled rfl
    · rcases (hc.task hrm).of_onErrorOnly hconf hoe hnr with h'' | h'' | ⟨h'', -⟩
      · exact absurd (hall _ hrm ▸ h'') (cancelledStatus_ne_onErrorOnly _)
      · have := hdead (.inr h'') _ hg.create_mem
        simp [TaskStatus.isFruitless, htr] at this
      · exact .inl h''

omit hr in
include hconf hs in
lemma cleanup_kept (hd : w.st g.deploy.id = .completed)
    (htr : (w'.st g.create.id).triggersCleanup = true)
    (hkw : w.st g.cleanup.id ≠ .onErrorOnly) (hk : (w.st g.cleanup.id).isUndisturbed = true) :
    (w'.st g.cleanup.id).isUndisturbed = true := by
  cases hc.task hg.cleanup_mem with
  | same h => rwa [h]
  | started _ h => rw [h]; rfl
  | notScheduled _ _ he => exact absurd he (finds_worker hcond (.inl rfl)).1
  | castRaised _ _ he =>
    obtain ⟨ev, hev, heff, -⟩ := he
    exact absurd ⟨ev, hev, heff⟩ (finds_worker hcond (.inl rfl)).2
  | unscheduled hdec =>
    have := ((decision_unschedule hdec).2.2.2.2 hg.cleanup_onError).1 _ hg.deploy_cleanup
      (by rw [isOnError_of_mem hg.deploy_mem, hg.deploy_plain])
    rw [hd] at this
    cases this
  | cancelled _ h _ he =>
    obtain ⟨ev, hev, heff, htask, -⟩ := he
    have hact := (at_cancellation hcond hev heff).1
    have hdeps : g.cleanup.dependsOn ≠ [] := List.ne_nil_of_mem hg.deploy_cleanup
    rw [htask] at hact
    have hcases : w.st g.cleanup.id = .scheduled ∨ w.st g.cleanup.id = .completed := by
      revert hact hk hkw
      cases w.st g.cleanup.id <;> decide
    rcases hcases with h' | h'
    · rw [h, h', cancelledStatus_scheduled, if_neg hdeps]; rfl
    · rw [h, h', cancelledStatus_of_isSettled rfl]; rfl
  | deadlocked _ _ _ _ h =>
    have := (hs.change hc).stranded _ hg.cleanup_mem h _ hg.create_mem
    simp [TaskStatus.isFruitless, htr] at this
  | moved _ hm =>
    revert hm hk
    generalize w.st g.cleanup.id = s
    generalize w'.st g.cleanup.id = s'
    simp only [moves, List.mem_cons, Prod.mk.injEq, List.not_mem_nil, or_false]
    rintro hk (⟨rfl, rfl⟩ | ⟨rfl, rfl⟩ | ⟨rfl, rfl⟩ | ⟨rfl, rfl⟩) <;> revert hk <;> decide
  | completed _ h =>
    rcases completionStatus_some h with ⟨-, -, -, h'⟩ | ⟨h' | h' | h', -⟩
    · rw [h']; rfl
    all_goals rw [World.st, h'] at hk; cases hk
  | errored _ _ he => exact absurd rfl (at_error hcond he).1
  | debugged hdebug => simp [hconf] at hdebug
  | @cancelConfirmed details _ h he =>
    rcases cancellationStatus_cases (w.rows g.cleanup.id) details with ⟨-, h'⟩ | ⟨h', -⟩
    · rw [h, h']
      exact hk
    · have := at_confirmation hcond he
      rw [World.st, h'] at this
      cases this

include hconf hs in
lemma restoration_kept (htr : (w'.st g.create.id).triggersCleanup = true)
    (hk : (w.st g.cleanup.id).isUndisturbed = true)
    (hst : w.st restore.id = .scheduled ∨ w.emitted (.beginTask restore.id)) :
    w'.st restore.id = .scheduled ∨ w'.emitted (.beginTask restore.id) := by
  obtain ⟨hrm, hoe, hdeps⟩ := hg.restore restore hr
  have hcast : w.emitted (.beginTask restore.id) →
      w'.st restore.id = .scheduled ∨ w'.emitted (.beginTask restore.id) := fun he =>
    .inr (he.mono hc.suffix)
  rcases hst with hst | he
  swap
  · exact hcast he
  cases hc.task hrm with
  | same h => exact .inl (h.trans hst)
  | started _ _ he => exact .inr he
  | notScheduled _ _ he => exact absurd he (finds_worker hcond (.inr rfl)).1
  | castRaised _ _ he =>
    obtain ⟨ev, hev, heff, -⟩ := he
    exact absurd ⟨ev, hev, heff⟩ (finds_worker hcond (.inr rfl)).2
  | unscheduled hdec =>
    -- the cleanup is over and undisturbed, so it is COMPLETED
    obtain ⟨-, -, hfin, -, hcleanup⟩ := decision_unschedule hdec
    have hk' := (hcleanup hoe).2 (by simp [hdeps, isOnError_of_mem hg.cleanup_mem,
      hg.cleanup_onError]) g.cleanup.id (by simp [hdeps])
    have hfin := hfin g.cleanup.id (by simp [hdeps])
    exfalso
    revert hk hk' hfin
    cases w.st g.cleanup.id <;> decide
  | cancelled _ h => exact .inl (by rw [h, hst, cancelledStatus_scheduled, hdeps]; rfl)
  | deadlocked _ _ _ _ h =>
    have := (hs.change hc).stranded _ hrm h _ hg.create_mem
    simp [TaskStatus.isFruitless, htr] at this
  | moved hok | completed hok | errored hok | cancelConfirmed hok => exact hcast hok.1
  | debugged hdebug => simp [hconf] at hdebug

include hconf hs in
lemma released_change (h : Restorable g restore w) (hkw : w.st g.cleanup.id ≠ .onErrorOnly) :
    w'.st g.finalize.id ≠ .completed ∧ ¬w'.emitted (.beginTask g.delete.id) ∧
      ((w'.st g.create.id).triggersCleanup = true → w'.st g.deploy.id = .completed ∧
        (w'.st g.cleanup.id).isUndisturbed = true ∧
        (w'.st restore.id = .scheduled ∨ w'.emitted (.beginTask restore.id))) := by
  obtain ⟨hf, hnx, hsnap⟩ := h.released hkw
  refine ⟨fun hf' => ?_, fun he => ?_, fun htr => ?_⟩
  · rcases (hc.task hg.finalize_mem).of_triggersCleanup (by rw [hf']; rfl) with
      h' | ⟨-, he, details, h'⟩
    · exact hf (h'.symm.trans hf')
    · have hdist := (at_completion hcond he hkw).2 rfl
      rcases completionStatus_some h' with ⟨h1, h2, h3, -⟩ | ⟨-, h'⟩
      · revert hdist h1 h2 h3
        rw [World.st]
        cases (w.rows g.finalize.id).status <;> decide
      · simp [hf'] at h'
  · rcases hc.beginTask he with he | ⟨x, hx, hid, hd, -⟩
    · exact hnx he
    · obtain rfl := task_eq_of_id hx hg.delete_mem hid
      exact hf (deletion_start hg hr hd).2
  · have htrw : (w.st g.create.id).triggersCleanup = true := by
      rcases (hc.task hg.create_mem).of_triggersCleanup htr with h' | ⟨-, he, details, h'⟩
      · rwa [← h']
      · rw [completionStatus_of_isSettled ((at_completion hcond he hkw).1 rfl)] at h'
        exact absurd h' (by simp)
    obtain ⟨hd, hk, hst⟩ := hsnap htrw
    exact ⟨completed_kept hcond hg.deploy_mem (.inl rfl) hc hd,
      cleanup_kept hcond hg hconf hs hc hd htr hkw hk,
      restoration_kept hcond hg hr hconf hs hc htr hk hst⟩

include hconf hs in
lemma change (h : Restorable g restore w) : Restorable g restore w' := by
  refine ⟨fun h' => h.delete ((hc.task hg.delete_mem).onErrorOnly h'), fun h' => ?_,
    waiting_change hcond hg hr hconf hs hc h, fun hk => ?_⟩
  · rcases (hc.task hg.delete_mem).of_triggersCleanup (by rw [h']; rfl) with heq | ⟨he, -⟩
    · exact (h.delivered (heq.symm.trans h')).mono hc.suffix
    · exact he.1.mono hc.suffix
  · by_cases hkw : w.st g.cleanup.id = .onErrorOnly
    · exact release hcond hg hr hconf hs hc h hkw hk
    · exact released_change hcond hg hr hconf hs hc h hkw

end

end Restorable

lemma Built.restorable (hb : Built r before e w) (hg : g.Of e) (hr : g.restore = some restore)
    (hx : w.st g.delete.id = .scheduled) (hk : w.st g.cleanup.id = .onErrorOnly)
    (hres : w.st restore.id = .onErrorOnly) :
    Restorable g restore w := by
  have hno : ∀ t ∈ e.tasks, ¬w.emitted (.beginTask t.id) := hb.ready.fresh.notCast
  have hst : w.status ≠ .completed := by rcases hb.ready.status with h | h <;> simp [h]
  exact ⟨by simp [hx], by simp [hx], fun _ => ⟨hres, hno _ hg.cleanup_mem,
    hno _ (hg.restore restore hr).1, fun he => absurd he (hno _ hg.delete_mem),
    fun h => absurd h hst⟩, fun h => absurd hk h⟩

section

variable {g : SnapshotTasks}

lemma Changes.deletable (hb : Built r before e w₀) (hg : g.Of e) (hclone : g.restore = none)
    (hconf : conf.debugOsMorphingErrors = false) (hx : w₀.st g.delete.id = .scheduled)
    (hch : Changes e conf True reported w₀ w') (hcond : ∀ ev ∈ w'.trace, g.deletes ev = true) :
    Deletable g w' := by
  have h := hch.invariant_of_trace (P := fun w => Staged e w ∧ Deletable g w)
    (fun _ _ hc hcond h => ⟨h.1.change hc, h.2.change hg hclone hconf h.1 hc hcond⟩) hcond
    ⟨hb.staged, .inl hx⟩
  exact h.2

lemma Changes.restorable (hb : Built r before e w₀) (hg : g.Of e) (hr : g.restore = some restore)
    (hconf : conf.debugOsMorphingErrors = false) (hx : w₀.st g.delete.id = .scheduled)
    (hk : w₀.st g.cleanup.id = .onErrorOnly) (hres : w₀.st restore.id = .onErrorOnly)
    (hch : Changes e conf True reported w₀ w')
    (hcond : ∀ ev ∈ w'.trace, g.restores e ev restore = true) :
    Undisturbed e w' ∧ w'.status ≠ .canceledForDebugging ∧ Restorable g restore w' := by
  refine And.right <| hch.invariant_of_trace (P := fun w => Staged e w ∧ Undisturbed e w ∧
    w.status ≠ .canceledForDebugging ∧ Restorable g restore w) (fun _ _ hc hcond h => ?_) hcond
    ⟨hb.staged, hb.undisturbed, ?_, hb.restorable hg hr hx hk hres⟩
  · obtain ⟨hs, hu, hd, h⟩ := h
    refine ⟨hs.change hc, hu.change hb.wellFormed hc fun ev hev => ?_,
      hc.status_ne (.inr (.inr ⟨rfl, hconf⟩)) hd, h.change hcond hg hr hconf hs hc⟩
    have := hcond ev hev
    simp only [SnapshotTasks.restores, Bool.and_eq_true] at this
    exact this.1
  · rcases hb.ready.status with h | h <;> simp [h]

/-- In an execution that is over, snapshots that were taken are deleted or restored, and not
both. -/
lemma Restorable.ended (h : Restorable g restore w) (hg : g.Of e) (hr : g.restore = some restore)
    (hu : Undisturbed e w) (hsteady : Steady e w) (hdebug : w.status ≠ .canceledForDebugging)
    (hfin : w.status.isFinalized = true) (htr : (w.st g.create.id).triggersCleanup = true) :
    w.emitted (.beginTask g.delete.id) ∧ ¬w.emitted (.beginTask restore.id) ∨
      ¬w.emitted (.beginTask g.delete.id) ∧ w.emitted (.beginTask restore.id) := by
  by_cases hk : w.st g.cleanup.id = .onErrorOnly
  · obtain ⟨-, -, hnr, -, hdel⟩ := h.waiting hk
    refine .inl ⟨hdel ?_, hnr⟩
    rcases hu.status _ hg.cleanup_mem hk with ⟨h' | h' | h', -⟩ | h' | h'
    · rw [h'] at hfin; cases hfin
    · rw [h'] at hfin; cases hfin
    · rw [h'] at hfin; cases hfin
    · exact h'
    · exact absurd h' hdebug
  · obtain ⟨-, hnx, hsnap⟩ := h.released hk
    obtain ⟨-, -, hres⟩ := hsnap htr
    have hidle : w.status.isActive = false := by
      revert hfin
      cases w.status <;> decide
    exact .inr ⟨hnx, hres.resolve_left ((hsteady.ended hidle).1 _ (hg.restore restore hr).1)⟩

lemma Built.snapshot_settler (hb : Built r before e w)
    (hdel : e.taskOf inst .deleteTransferTargetDiskSnapshots = some g.delete)
    (hres : e.taskOf inst .restoreTransferDiskSnapshots = g.restore) (ht : t ∈ e.tasks)
    (hi : t.inst = inst) (hty : t.taskType = .deleteTransferTargetDiskSnapshots ∨
      t.taskType = .restoreTransferDiskSnapshots) : t = g.delete ∨ g.restore = some t := by
  have hof := hb.taskOf ht
  rcases hty with hty | hty <;> rw [hi, hty] at hof
  · exact .inl (Option.some.inj (hof.symm.trans hdel))
  · exact .inr (hres.symm.trans hof)

end

/-- In a run without debugging whose events let the snapshots of every instance be settled, a
deployment that is over has started exactly one of the deletion and the restoration of the
snapshots of every instance that has any. -/
theorem snapshots_settled_once (skip clone flavor : Bool) (pools : List String)
    (before : String → Option TaskInfo) (e : Execution) (conf : Conf) (w w' : World)
    (hconf : conf.debugOsMorphingErrors = false)
    (h : Launched (.executeDeployment skip clone flavor pools) before e w)
    (hrun : Run e conf castOnly w w')
    (hcond : ∀ ev ∈ w'.trace, ∀ inst ∈ e.instances, ∀ g ∈ e.snapshotTasks inst,
      g.settles e ev = true)
    (hfin : w'.status.isFinalized = true) :
    ∀ c ∈ e.tasks, c.taskType = .createTransferDiskSnapshots →
      w'.st c.id = .completed ∨ w'.st c.id = .canceledAfterCompletion →
      ∃! t, t ∈ e.tasks ∧ t.inst = c.inst ∧ (t.taskType = .deleteTransferTargetDiskSnapshots ∨
        t.taskType = .restoreTransferDiskSnapshots) ∧ w'.emitted (.beginTask t.id) := by
  obtain ⟨w₀, hb, hch, hsteady⟩ := h.run hrun
  intro c hc hty hdone
  have htr : (w'.st c.id).triggersCleanup = true := (TaskStatus.triggersCleanup_iff _).mpr hdone
  obtain ⟨hi, g, hg, rfl, hof, hdel, hres, hx, hk, hrs⟩ := hb.snapshotTasks hc hty
  have hsettles : ∀ ev ∈ w'.trace, g.settles e ev = true := fun ev hev => hcond ev hev _ hi g hg
  obtain ⟨hxm, hxi, hxty⟩ := Execution.taskOf_spec hdel
  simp only [SnapshotTasks.settles] at hsettles
  cases hr : g.restore with
  | none =>
    rw [hr] at hsettles
    have hcast : w'.emitted (.beginTask g.delete.id) := by
      have hidle : w'.status.isActive = false := by
        revert hfin
        cases w'.status <;> decide
      rcases hch.deletable hb hof hr hconf hx hsettles with h' | h' | ⟨-, h'⟩
      · exact absurd h' ((hsteady.ended hidle).1 _ hxm)
      · exact h'
      · simp [htr] at h'
    refine ⟨g.delete, ⟨hxm, hxi, .inl hxty, hcast⟩, ?_⟩
    rintro t ⟨ht, hti, htty, -⟩
    exact (hb.snapshot_settler hdel hres ht hti htty).resolve_right (by simp [hr])
  | some restore =>
    rw [hr] at hsettles
    obtain ⟨hu, hdebug, hrest⟩ := hch.restorable hb hof hr hconf hx hk (hrs restore hr) hsettles
    obtain ⟨hrm, hri, hrty⟩ := Execution.taskOf_spec (hres.trans hr)
    have hcases : ∀ t ∈ e.tasks, t.inst = g.create.inst →
        t.taskType = .deleteTransferTargetDiskSnapshots ∨
          t.taskType = .restoreTransferDiskSnapshots → t = g.delete ∨ t = restore := by
      intro t ht hti htty
      refine (hb.snapshot_settler hdel hres ht hti htty).imp_right fun h' => ?_
      exact Option.some.inj (h'.symm.trans hr)
    rcases hrest.ended hof hr hu hsteady hdebug hfin htr with ⟨he, hno⟩ | ⟨hno, he⟩
    · refine ⟨g.delete, ⟨hxm, hxi, .inl hxty, he⟩, ?_⟩
      rintro t ⟨ht, hti, htty, het⟩
      rcases hcases t ht hti htty with rfl | rfl
      · rfl
      · exact absurd het hno
    · refine ⟨restore, ⟨hrm, hri, .inr hrty, he⟩, ?_⟩
      rintro t ⟨ht, hti, htty, het⟩
      rcases hcases t ht hti htty with rfl | rfl
      · exact absurd het hno
      · rfl

/-- The deployment of the resources fails after the snapshots were taken: they are neither
deleted nor restored. -/
theorem snapshots_left_after_failed_deployment :
    ∃ w', Launched (.executeDeployment true false false []) replicated deployment
        deploymentBegun ∧
      Run deployment plainConf castOnly deploymentBegun w' ∧ ¬w'.emitted (.cancelTasks true) ∧
      w'.status = .error ∧
      (∃ c ∈ deployment.tasks, c.taskType = .createTransferDiskSnapshots ∧
        w'.st c.id = .completed) ∧
      ∀ t ∈ deployment.tasks, t.taskType = .deleteTransferTargetDiskSnapshots ∨
        t.taskType = .restoreTransferDiskSnapshots → ¬w'.emitted (.beginTask t.id) := by
  refine ⟨runCalls deployment plainConf (completes deployment 0 ++ completes deployment 1 ++
      runs deployment 2 ++ fails deployment 2) deploymentBegun, .begun built_deployment rfl,
    run_of_castCalls (by decide), ?_, by decide, by decide, ?_⟩
  · rw [← wasForced_iff]
    decide
  · simp only [← wasCast_iff]
    decide

/-- The finalization fails: the cleanup runs and the snapshots are restored. -/
theorem snapshots_settled_once_deployment :
    let w' := runCalls deployment plainConf (completes deployment 0 ++ completes deployment 1 ++
      completes deployment 2 ++ runs deployment 3 ++ fails deployment 3 ++ completes deployment 5 ++
      completes deployment 6) deploymentBegun
    w'.status = .error ∧ ∃! t, t ∈ deployment.tasks ∧ t.inst = "vm" ∧
      (t.taskType = .deleteTransferTargetDiskSnapshots ∨
        t.taskType = .restoreTransferDiskSnapshots) ∧ w'.emitted (.beginTask t.id) := by
  intro w'
  have hstatus : w'.status = .error := by decide
  exact ⟨hstatus, snapshots_settled_once true false false [] _ deployment plainConf
    deploymentBegun w' rfl (.begun built_deployment rfl) (run_of_castCalls (by decide))
    (by decide) (by rw [hstatus]; rfl)
    ⟨1, "vm", .createTransferDiskSnapshots, [0], false, 3⟩ (by decide) rfl
    (.inl (by decide))⟩

end Coriolis.Conductor

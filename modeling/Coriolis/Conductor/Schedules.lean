import Coriolis.Conductor.OnErrorOnly
import Coriolis.Conductor.Writes
import Coriolis.Conductor.Ancestry

/-!
# Schedules in which everything succeeds

`_begin_tasks` and `_advance_execution_state` start a task as soon as its own parents are
done, not when a whole round of tasks is. In a run where every task that was started
completes, what is done at any time is therefore an `Order` of the dependencies, and each of
them occurs. The sanity check knows the rounds only, so what it accepts can still go wrong;
`sane_schedules_safe_iff` says for which executions it does not.
-/

namespace Coriolis.Conductor

open Dependencies

variable {e : Execution} {w w' w₀ db : World} {t : Task} {l : List TaskId}
  {required returned : Task → List String} {st : TaskId → TaskStatus}

/-- The part of `task_completed` the check simulates: the task is COMPLETED, its result is
merged into the info of its instance and the execution advances. -/
def completeTask (e : Execution) (t : Task) (result : TaskInfo) (w : World) : World :=
  let w := w.setTaskStatus t.id .completed none
  let w := (w.updateTransferActionInfoForInstance t.inst result).2
  (advanceExecutionState e responsive w false (some t.inst) w).2

/-- An active task completes and returns exactly what it declares. -/
def Success (e : Execution) (returned : Task → List String) (w w' : World) : Prop :=
  ∃ t ∈ e.tasks, (w.st t.id).isActive = true ∧
    ∃ result : TaskInfo, (∀ f, f ∈ result.map (·.1) ↔ f ∈ returned t) ∧
      w' = completeTask e t result w

/-- The states of the runs of an execution in which everything succeeds. -/
def Scheduled (e : Execution) (returned : Task → List String) (w₀ : World) : World → Prop :=
  Relation.ReflTransGen (Success e returned) (beginTasks e responsive w₀ w₀).2

/-- Every active task has what it requires, and no two of one instance return the same. -/
def Safe (e : Execution) (required returned : Task → List String) (w : World) : Prop :=
  (∀ t ∈ e.tasks, (w.st t.id).isActive = true →
    ∀ f ∈ required t, f ∈ TaskInfo.keys (w.info t.inst)) ∧
  ∀ t ∈ e.tasks, ∀ u ∈ e.tasks, t.id ≠ u.id → t.inst = u.inst → (w.st t.id).isActive = true →
    (w.st u.id).isActive = true → ∀ f ∈ returned t, f ∉ returned u

/-- A task that may be started while nothing fails: it and all it rests on are SCHEDULED. -/
def Startable (e : Execution) (st : TaskId → TaskStatus) (t : Task) : Prop :=
  st t.id = .scheduled ∧ ∀ d, Below e.parents d t.id → st d = .scheduled

/-- Among the tasks that may be started, each one rests on tasks that return what it requires
and was not there from the beginning, and two of an instance that return the same field rest
on one another. -/
def Ordered (e : Execution) (required returned : Task → List String) (st : TaskId → TaskStatus)
    (info : String → Option TaskInfo) : Prop :=
  ∀ t ∈ e.tasks, Startable e st t →
    (∀ f ∈ required t, f ∈ TaskInfo.keys (info t.inst) ∨
      ∃ u ∈ e.tasks, Below e.parents u.id t.id ∧ f ∈ returned u) ∧
    ∀ u ∈ e.tasks, Startable e st u → t.id ≠ u.id → t.inst = u.inst →
      (∃ f ∈ returned t, f ∈ returned u) →
      Below e.parents t.id u.id ∨ Below e.parents u.id t.id

/-- The parents of a task completed and it waits for nothing else. -/
def IsReady (st : TaskId → TaskStatus) (t : Task) : Prop :=
  st t.id = .scheduled ∧ ∀ d ∈ t.dependsOn, st d = .completed

lemma startTask_responsive :
    startTask responsive cancel t w = (.ok (), w.started t) := by
  simp [startTask, responsive, World.started]

lemma lifecycleDecision_undisturbed
    (h : ∀ d ∈ t.dependsOn, (st d).isUndisturbed = true) :
    lifecycleDecision e st t = .start ∧ IsReady st t ∨
      lifecycleDecision e st t = .none ∧ ¬IsReady st t := by
  by_cases hst : st t.id = .scheduled
  swap
  · exact .inr ⟨by simp [lifecycleDecision, hst], fun h => hst h.1⟩
  by_cases hnil : t.dependsOn = []
  · exact .inl ⟨by simp [lifecycleDecision, hst, hnil], hst, by simp [hnil]⟩
  obtain ⟨d₀, hd₀⟩ := List.exists_mem_of_ne_nil _ hnil
  have hun : (t.dependsOn.all (st · == .unscheduled)) = false := by
    refine List.all_eq_false.mpr ⟨d₀, hd₀, ?_⟩
    have := h d₀ hd₀
    revert this
    cases st d₀ <;> decide
  by_cases hall : ∀ d ∈ t.dependsOn, st d = .completed
  · refine .inl ⟨?_, hst, hall⟩
    have hfin : (t.dependsOn.all (st · |>.isFinalized)) = true :=
      List.all_eq_true.mpr fun d hd => by rw [hall d hd]; rfl
    have hcomp : (t.dependsOn.all (st · == .completed)) = true :=
      List.all_eq_true.mpr fun d hd => by simp [hall d hd]
    simp only [lifecycleDecision, hst, ne_eq, not_true_eq_false, if_false, hnil, hun,
      Bool.false_eq_true, hfin, if_true, hcomp]
    split
    · rfl
    have hany : (t.dependsOn.any (st · == .completed)) = true :=
      List.any_eq_true.mpr ⟨d₀, hd₀, by simp [hall d₀ hd₀]⟩
    simp only [hany, Bool.and_true]
    split
    · rfl
    rename_i hne
    obtain ⟨d, hd⟩ := List.exists_mem_of_ne_nil _ (by simpa [List.isEmpty_iff] using hne :
      t.dependsOn.filter (!((e.tasks.filter (·.onError)).map (·.id)).contains ·) ≠ [])
    have htr : ((t.dependsOn.filter
        (!((e.tasks.filter (·.onError)).map (·.id)).contains ·)).any
          (st · |>.triggersCleanup)) = true :=
      List.any_eq_true.mpr ⟨d, hd, by rw [hall d (List.mem_of_mem_filter hd)]; rfl⟩
    rw [if_pos htr]
  · refine .inr ⟨?_, fun h => hall h.2⟩
    have hfin : (t.dependsOn.all (st · |>.isFinalized)) = false := by
      obtain ⟨d, hd, hne⟩ := by simpa using hall
      refine List.all_eq_false.mpr ⟨d, hd, ?_⟩
      have := h d hd
      revert this hne
      cases st d <;> decide
    simp [lifecycleDecision, hst, hnil, hun, hfin]

lemma isReady_update (ha : IsReady st a) (hne : t.id ≠ a.id) :
    IsReady (Function.update st a.id .pending) t ↔ IsReady st t := by
  refine and_congr (by rw [Function.update_of_ne hne]) (forall₂_congr fun d _ => ?_)
  by_cases hd : d = a.id
  · subst hd
    simp [ha.1]
  · rw [Function.update_of_ne hd]

lemma advanceLoop_responsive {ts : List Task} {started : List TaskId}
    (hnd : (ts.map (·.id)).Nodup) (hdeps : ∀ t ∈ ts, ∀ d ∈ t.dependsOn, (st d).isUndisturbed = true)
    (hst : db.st = st) :
    ∃ st' started' db',
      advanceLoop e responsive cancel ts st started db = (.ok (st', started'), db') ∧
      db'.st = st' ∧ db'.status = db.status ∧
      (∀ t ∈ ts, IsReady st t → st' t.id = .pending) ∧
      (∀ j, (∀ t ∈ ts, t.id = j → ¬IsReady st t) → st' j = st j) := by
  induction ts generalizing st started db with
  | nil => exact ⟨st, started, db, rfl, hst, rfl, by simp, by simp⟩
  | cons a ts ih =>
    obtain ⟨hne, hnd⟩ := nodup_ids_cons.mp hnd
    have hrest : ∀ t ∈ ts, ∀ d ∈ t.dependsOn, (st d).isUndisturbed = true :=
      fun t ht => hdeps t (List.mem_cons_of_mem _ ht)
    rcases lifecycleDecision_undisturbed (e := e) (hdeps a List.mem_cons_self) with
      ⟨hdec, hready⟩ | ⟨hdec, hready⟩
    · have hiff : ∀ t ∈ ts, IsReady (Function.update st a.id .pending) t ↔ IsReady st t :=
        fun t ht => isReady_update hready (hne t ht)
      obtain ⟨st', started', db', hloop, h1, h2, h3, h4⟩ :=
        @ih (db.started a) (Function.update st a.id .pending) (started ++ [a.id]) hnd
        (fun t ht d hd => by
          by_cases hda : d = a.id
          · rw [hda, Function.update_self]
            rfl
          · rw [Function.update_of_ne hda]
            exact hrest t ht d hd)
        (by rw [started_st, hst])
      refine ⟨st', started', db', ?_, h1, h2, fun t ht hr => ?_, fun j hj => ?_⟩
      · simp only [advanceLoop, hdec, startTask_responsive, hloop]
      · rcases List.mem_cons.mp ht with rfl | ht
        · rw [h4 t.id fun s hs h => absurd h (hne s hs), Function.update_self]
        · exact h3 t ht ((hiff t ht).mpr hr)
      · rw [h4 j fun s hs h => (hiff s hs).not.mpr (hj s (List.mem_cons_of_mem _ hs) h),
          Function.update_of_ne fun h => hj a List.mem_cons_self h.symm hready]
    · obtain ⟨st', started', db', hloop, h1, h2, h3, h4⟩ :=
        @ih db st started hnd hrest hst
      refine ⟨st', started', db', ?_, h1, h2, fun t ht hr => ?_, fun j hj => ?_⟩
      · simp only [advanceLoop, hdec, hloop]
      · rcases List.mem_cons.mp ht with rfl | ht
        · exact absurd hr hready
        · exact h3 t ht hr
      · exact h4 j fun s hs => hj s (List.mem_cons_of_mem _ hs)

lemma finishAdvance_undisturbed (hun : ∀ t ∈ e.tasks, (db.st t.id).isUndisturbed = true)
    (hx : x.status = .running) :
    (∃ t ∈ e.tasks, (db.st t.id).isActive = true) ∧
        (finishAdvance e x db.st started db).2 = db ∨
      ∀ t ∈ e.tasks, (db.st t.id).isActive = false ∧
        ((finishAdvance e x db.st started db).2.st t.id).isActive = false := by
  have hcheck : checkCleanExecutionDeadlock e db (some db.st) true db = _ :=
    checkCleanExecutionDeadlock_eq rfl rfl (by simp)
  by_cases hact : ∃ t ∈ e.tasks, (db.st t.id).isActive = true
  · refine .inl ⟨hact, ?_⟩
    obtain ⟨t, ht, hta⟩ := hact
    have hd : isDeadlocked e db.st = false := by
      refine Bool.eq_false_iff.mpr fun h => ?_
      simp [(isDeadlocked_iff.mp h).2 t ht] at hta
    have hrun : getExecutionStatus e db = .running := by
      rcases getExecutionStatus_cases e db with ⟨h, -⟩ | ⟨-, -, h⟩ | ⟨h, -⟩
      · simp [h] at hd
      · rcases getExecutionStatus_undisturbed hun with h' | h' | h' <;> simp [h'] at h ⊢
      · simp [(h t ht).1] at hta
    have hrefresh : refreshExecutionStatus e x db = db := by
      simp [refreshExecutionStatus, hrun, hx]
    simp only [checkCleanExecutionDeadlock, if_true] at hcheck
    simp only [finishAdvance, checkCleanExecutionDeadlock, if_true, hcheck, hd,
      Bool.false_eq_true, if_false, hrefresh, ite_self]
  · have hno : ∀ t ∈ e.tasks, (db.st t.id).isActive = false := by simpa using hact
    refine .inr fun t ht => ⟨hno t ht, ?_⟩
    have hrefresh : ((refreshExecutionStatus e x db).st t.id).isActive = false := by
      simp only [refreshExecutionStatus]
      split <;> simp [hno t ht]
    have hclean : ((cleanDeadlock e db.status db.st db).st t.id).isActive = false := by
      rw [cleanDeadlock_st ht]
      split
      · rfl
      · exact hno t ht
    simp only [checkCleanExecutionDeadlock, if_true] at hcheck
    simp only [finishAdvance, checkCleanExecutionDeadlock, if_true, hcheck]
    by_cases hs : started = []
    · by_cases hd : isDeadlocked e db.st = true
      · simpa [hs, hd] using hclean
      · simpa [hs, hd] using hrefresh
    · simpa [hs] using hrefresh

lemma advanceExecutionState_undisturbed (hs : w.status = .running)
    (hun : ∀ t ∈ e.tasks, (w.st t.id).isUndisturbed = true)
    (hdeps : ∀ t ∈ e.tasks, ∀ d ∈ t.dependsOn, ∃ p ∈ e.tasks, p.id = d)
    (hproc : tasksToProcess e inst ≠ []) :
    (∀ t ∈ tasksToProcess e inst, IsReady w.st t →
        ((advanceExecutionState e responsive w false inst w).2.st t.id) = .pending) ∧
      (∀ t ∈ e.tasks, ¬(t ∈ tasksToProcess e inst ∧ IsReady w.st t) →
        ((advanceExecutionState e responsive w false inst w).2.st t.id) = w.st t.id) ∧
      (advanceExecutionState e responsive w false inst w).2.status = .running ∨
    (∀ t ∈ e.tasks,
        ((advanceExecutionState e responsive w false inst w).2.st t.id).isActive = false ∧
        (w.st t.id).isActive = false) ∧
      ∀ t ∈ tasksToProcess e inst, ¬IsReady w.st t := by
  have hmem : ∀ t ∈ sortedByIndex (tasksToProcess e inst), t ∈ e.tasks := fun t ht =>
    mem_tasksToProcess (mem_sortedByIndex.mp ht)
  obtain ⟨st', started, db, hloop, rfl, hstatus, hstarted, hother⟩ :=
    @advanceLoop_responsive e w w.st
      (fun db => cancelWith e responsive
        (fun x r d => advance e responsive e.tasks.length x r none d) db true false db)
      _ [] (nodup_sortedByIndex (nodup_tasksToProcess e inst))
      (fun t ht d hd => by
        obtain ⟨p, hp, rfl⟩ := hdeps t (hmem t ht) d hd
        exact hun p hp) rfl
  have hrest : ∀ t ∈ e.tasks, ¬(t ∈ tasksToProcess e inst ∧ IsReady w.st t) →
      db.st t.id = w.st t.id := fun t ht hnot => hother t.id fun s hs hid hr => by
    obtain rfl := task_eq_of_id (hmem s hs) ht hid
    exact hnot ⟨mem_sortedByIndex.mp hs, hr⟩
  have hfinish : (advanceExecutionState e responsive w false inst w).2 =
      (finishAdvance e w db.st started db).2 := by
    have hrun : ExecutionStatus.running.isActive = true := rfl
    simp only [advanceExecutionState, stackDepth, advance, advanceWith_eq rfl rfl, hloop, hs]
    simp [hrun, hproc]
  have hun' : ∀ t ∈ e.tasks, (db.st t.id).isUndisturbed = true := by
    intro t ht
    by_cases hr : t ∈ tasksToProcess e inst ∧ IsReady w.st t
    · rw [hstarted t (mem_sortedByIndex.mpr hr.1) hr.2]
      rfl
    · rw [hrest t ht hr]
      exact hun t ht
  rw [hfinish]
  rcases finishAdvance_undisturbed hun' hs with ⟨-, heq⟩ | hno
  · rw [heq]
    exact .inl ⟨fun t ht => hstarted t (mem_sortedByIndex.mpr ht), hrest, hstatus.trans hs⟩
  · have hnot : ∀ t ∈ tasksToProcess e inst, ¬IsReady w.st t := by
      intro t ht hr
      have := (hno t (mem_tasksToProcess ht)).1
      rw [hstarted t (mem_sortedByIndex.mpr ht) hr] at this
      cases this
    refine .inr ⟨fun t ht => ⟨(hno t ht).2, ?_⟩, hnot⟩
    rw [← hrest t ht fun h => hnot t h.1 h.2]
    exact (hno t ht).1

abbrev Due (st : TaskId → TaskStatus) (l : List TaskId) (t : Task) : Prop :=
  st t.id = .scheduled ∧ ∀ d ∈ t.dependsOn, d ∈ l

/-- The status of a task of a RUNNING execution when the tasks in `l` are done. -/
def progressStatus (st : TaskId → TaskStatus) (l : List TaskId) (t : Task) : TaskStatus :=
  if t.id ∈ l then .completed else if Due st l t then .pending else st t.id

/-- The tasks in `l` are done, the last one first. -/
structure Progress (e : Execution) (returned : Task → List String) (w₀ : World)
    (l : List TaskId) (w : World) : Prop where
  order : Order e.parents (fun id => (∃ t ∈ e.tasks, t.id = id) ∧ w₀.st id = .scheduled) l
  state : w.status = .running ∧ (∀ t ∈ e.tasks, w.st t.id = progressStatus w₀.st l t) ∨
    ∀ t ∈ e.tasks, (w.st t.id).isActive = false ∧ (t.id ∉ l → ¬Due w₀.st l t)
  info : ∀ inst f, f ∈ TaskInfo.keys (w.info inst) ↔ f ∈ TaskInfo.keys (w₀.info inst) ∨
    ∃ t ∈ e.tasks, t.id ∈ l ∧ t.inst = inst ∧ f ∈ returned t

/-- What the check knows of the tasks, whatever they require and return. -/
structure Created (e : Execution) (st : TaskId → TaskStatus) : Prop where
  status : ∀ t ∈ e.tasks, st t.id = .scheduled ∨ st t.id = .onErrorOnly
  parent : ∀ t ∈ e.tasks, ∀ d ∈ t.dependsOn, ∃ p ∈ e.tasks, p.id = d ∧ p.inst = t.inst

lemma Created.of_sane (h : checkTasksSanity required returned st e info = .ok ()) :
    Created e st := by
  refine ⟨fun t ht => ?_, fun t ht d hd => ?_⟩
  · obtain ⟨rank, hrank⟩ := checkTasksSanity_ok h t.inst
    exact (hrank t ht rfl).1
  · obtain ⟨rank, hrank⟩ := checkTasksSanity_ok h t.inst
    obtain ⟨p, hp, hpd, hpi, -⟩ := (hrank t ht rfl).2.1 d hd
    exact ⟨p, hp, hpd, hpi⟩

lemma progressStatus_isUndisturbed (hc : Created e st) (ht : t ∈ e.tasks) :
    (progressStatus st l t).isUndisturbed = true := by
  simp only [progressStatus]
  split_ifs
  · rfl
  · rfl
  · rcases hc.status t ht with h | h <;> rw [h] <;> rfl

lemma progressStatus_eq_completed (hc : Created e st) (ht : t ∈ e.tasks) :
    progressStatus st l t = .completed ↔ t.id ∈ l := by
  refine ⟨fun h => ?_, fun h => if_pos h⟩
  by_contra hl
  rw [progressStatus, if_neg hl] at h
  split_ifs at h
  rcases hc.status t ht with h' | h' <;> simp [h'] at h

lemma progressStatus_isActive (hc : Created e st) (ht : t ∈ e.tasks) :
    (progressStatus st l t).isActive = true ↔ t.id ∉ l ∧ Due st l t := by
  by_cases hl : t.id ∈ l
  · rw [progressStatus, if_pos hl]
    exact ⟨fun h => absurd h (by decide), fun h => absurd hl h.1⟩
  by_cases hdue : Due st l t
  · rw [progressStatus, if_neg hl, if_pos hdue]
    exact ⟨fun _ => ⟨hl, hdue⟩, fun _ => rfl⟩
  · rw [progressStatus, if_neg hl, if_neg hdue]
    rcases hc.status t ht with h | h <;> rw [h] <;>
      exact ⟨fun h => absurd h (by decide), fun h => absurd h.2 hdue⟩

lemma Progress.isActive_imp (hp : Progress e returned w₀ l w) (hc : Created e w₀.st)
    (ht : t ∈ e.tasks) (hact : (w.st t.id).isActive = true) : t.id ∉ l ∧ Due w₀.st l t := by
  rcases hp.state with ⟨-, hst⟩ | hno
  · rw [hst t ht] at hact
    exact (progressStatus_isActive hc ht).mp hact
  · simp [(hno t ht).1] at hact

lemma Progress.isActive_of_due (hp : Progress e returned w₀ l w) (hc : Created e w₀.st)
    (ht : t ∈ e.tasks) (hl : t.id ∉ l) (hdue : Due w₀.st l t) : (w.st t.id).isActive = true := by
  rcases hp.state with ⟨-, hst⟩ | hno
  · rw [hst t ht]
    exact (progressStatus_isActive hc ht).mpr ⟨hl, hdue⟩
  · exact absurd hdue ((hno t ht).2 hl)

lemma mem_keys_update :
    f ∈ TaskInfo.keys ((w.updateTransferActionInfoForInstance inst new).2.info i) ↔
      f ∈ TaskInfo.keys (w.info i) ∨ i = inst ∧ f ∈ new.map (·.1) := by
  simp only [World.updateTransferActionInfoForInstance]
  split
  · rename_i hnil
    simp [List.isEmpty_iff.mp hnil]
  · by_cases hi : i = inst
    · subst hi
      simp only [TaskInfo.keys, Function.update_self, Option.getD_some, TaskInfo.update,
        List.map_append, List.mem_append, true_and]
      exact or_comm
    · simp [TaskInfo.keys, hi]

section

variable (hc : Created e st) (ht : t ∈ e.tasks) (hrun : w.status = .running)
  (hst : ∀ u ∈ e.tasks, w.st u.id = if u.id = t.id then .completed else progressStatus st l u)

include hc hst

lemma completed_iff_of_progress (hu : u ∈ e.tasks) :
    w.st u.id = .completed ↔ u.id ∈ t.id :: l := by
  rw [hst u hu]
  by_cases hut : u.id = t.id
  · simp [hut]
  · rw [if_neg hut, progressStatus_eq_completed hc hu]
    simp [hut]

lemma isReady_iff_of_progress (hu : u ∈ e.tasks) :
    IsReady w.st u ↔ u.id ∉ t.id :: l ∧ Due st (t.id :: l) u ∧ ¬Due st l u := by
  have hdeps : (∀ d ∈ u.dependsOn, w.st d = .completed) ↔
      ∀ d ∈ u.dependsOn, d ∈ t.id :: l := by
    refine forall₂_congr fun d hd => ?_
    obtain ⟨p, hp, rfl, -⟩ := hc.parent u hu d hd
    exact completed_iff_of_progress hc hst hp
  by_cases hul : u.id ∈ t.id :: l
  · rw [← completed_iff_of_progress hc hst hu] at hul
    simp [IsReady, hul, ← completed_iff_of_progress hc hst hu]
  have hold : w.st u.id = if Due st l u then .pending else st u.id := by
    rw [hst u hu, if_neg fun h => hul (by simp [h]), progressStatus,
      if_neg fun h => hul (List.mem_cons_of_mem _ h)]
  by_cases hdue : Due st l u
  · rw [if_pos hdue] at hold
    exact ⟨fun h => absurd (hold.symm.trans h.1) (by decide), fun h => absurd hdue h.2.2⟩
  · simp [IsReady, hold, hdue, hdeps, hul, Due]

include ht hrun

lemma advance_progress :
    ((advanceExecutionState e responsive w false (some t.inst) w).2.status = .running ∧
      ∀ u ∈ e.tasks, (advanceExecutionState e responsive w false (some t.inst) w).2.st u.id =
        progressStatus st (t.id :: l) u) ∨
    ∀ u ∈ e.tasks,
      ((advanceExecutionState e responsive w false (some t.inst) w).2.st u.id).isActive = false ∧
        (u.id ∉ t.id :: l → ¬Due st (t.id :: l) u) := by
  have hun : ∀ u ∈ e.tasks, (w.st u.id).isUndisturbed = true := by
    intro u hu
    rw [hst u hu]
    split
    · rfl
    · exact progressStatus_isUndisturbed hc hu
  have hready := fun u hu => @isReady_iff_of_progress _ _ _ _ _ hc hst u hu
  -- what became due depends on the new one, so it is of the same instance
  have hproc : ∀ u ∈ e.tasks, IsReady w.st u → u ∈ tasksToProcess e (some t.inst) := by
    intro u hu hr
    obtain ⟨-, hnew, hold⟩ := (hready u hu).mp hr
    have hdep : t.id ∈ u.dependsOn := by
      by_contra hnot
      refine hold ⟨hnew.1, fun d hd => ?_⟩
      rcases List.mem_cons.mp (hnew.2 d hd) with rfl | h
      · exact absurd hd hnot
      · exact h
    obtain ⟨p, hp, hpt, hpi⟩ := hc.parent u hu _ hdep
    obtain rfl := task_eq_of_id hp ht hpt
    exact hpi ▸ self_mem_tasksToProcess hu
  have hold : ∀ u ∈ e.tasks, u.id ∉ t.id :: l → ¬IsReady w.st u →
      w.st u.id = progressStatus st (t.id :: l) u := by
    intro u hu hul hnot
    have hdue : Due st (t.id :: l) u ↔ Due st l u := by
      refine ⟨fun h => ?_, fun h => ⟨h.1, fun d hd => List.mem_cons_of_mem _ (h.2 d hd)⟩⟩
      by_contra hn
      exact hnot ((hready u hu).mpr ⟨hul, h, hn⟩)
    rw [hst u hu, if_neg fun h => hul (by simp [h]), progressStatus, progressStatus, if_neg hul,
      if_neg fun h => hul (List.mem_cons_of_mem _ h)]
    simp only [hdue]
  rcases advanceExecutionState_undisturbed hrun hun
    (fun u hu d hd => (hc.parent u hu d hd).imp fun p hp => ⟨hp.1, hp.2.1⟩)
    (List.ne_nil_of_mem (self_mem_tasksToProcess ht)) with ⟨hstart, hrest, hrun'⟩ | ⟨hno, hnot⟩
  · refine .inl ⟨hrun', fun u hu => ?_⟩
    by_cases hr : IsReady w.st u
    · obtain ⟨hul, hdue, -⟩ := (hready u hu).mp hr
      rw [hstart u (hproc u hu hr) hr, progressStatus, if_neg hul, if_pos hdue]
    rw [hrest u hu fun h => hr h.2]
    by_cases hul : u.id ∈ t.id :: l
    · rw [(completed_iff_of_progress hc hst hu).mpr hul, progressStatus, if_pos hul]
    · exact hold u hu hul hr
  · refine .inr fun u hu => ⟨(hno u hu).1, fun hul hdue => ?_⟩
    have hact := (hno u hu).2
    rw [hold u hu hul fun hr => hnot u (hproc u hu hr) hr] at hact
    rw [(progressStatus_isActive hc hu).mpr ⟨hul, hdue⟩] at hact
    cases hact

end

lemma Progress.complete (hp : Progress e returned w₀ l w) (hc : Created e w₀.st)
    (ht : t ∈ e.tasks) (hact : (w.st t.id).isActive = true)
    (hresult : ∀ f, f ∈ result.map (·.1) ↔ f ∈ returned t) :
    Progress e returned w₀ (t.id :: l) (completeTask e t result w) := by
  obtain ⟨hl, hdue⟩ := hp.isActive_imp hc ht hact
  obtain ⟨hrun, hst⟩ : w.status = .running ∧
      ∀ u ∈ e.tasks, w.st u.id = progressStatus w₀.st l u :=
    hp.state.resolve_right fun hno => by simp [(hno t ht).1] at hact
  refine ⟨.cons hp.order hl ⟨⟨t, ht, rfl⟩, hdue.1⟩ ?_, ?_, fun inst f => ?_⟩
  · rw [Execution.parents_of_mem ht]
    exact hdue.2
  · refine advance_progress hc ht ?_ fun u hu => ?_
    · exact (Bookkeeping.updateInfo _ _ _).status.trans hrun
    · rw [(Bookkeeping.updateInfo _ _ _).st, World.st_setTaskStatus, Function.update_apply,
        hst u hu]
  · have hframe : (completeTask e t result w).info = _ := Writes.advanceExecutionState.info
    rw [hframe, mem_keys_update, World.info_setTaskStatus, hp.info, or_assoc, hresult]
    refine or_congr_right ⟨?_, ?_⟩
    · rintro (⟨u, hu, hul, hui, hf⟩ | ⟨rfl, hf⟩)
      · exact ⟨u, hu, List.mem_cons_of_mem _ hul, hui, hf⟩
      · exact ⟨t, ht, List.mem_cons_self, rfl, hf⟩
    · rintro ⟨u, hu, hul, hui, hf⟩
      rcases List.mem_cons.mp hul with h | hul
      · obtain rfl := task_eq_of_id hu ht h
        exact .inr ⟨hui.symm, hf⟩
      · exact .inl ⟨u, hu, hul, hui, hf⟩

lemma beginLoop_responsive :
    ∃ started' db', beginLoop e responsive x ts started db = (.ok started', db') := by
  induction ts generalizing started db with
  | nil => exact ⟨_, _, rfl⟩
  | cons a ts ih =>
    simp only [beginLoop]
    split
    · simp only [startTask_responsive]
      exact ih
    · exact ih

lemma Progress.begin (hc : Created e w₀.st) :
    Progress e returned w₀ [] (beginTasks e responsive w₀ w₀).2 := by
  refine ⟨.nil, ?_, fun inst f => ?_⟩
  · obtain ⟨started, db, hloop⟩ := @beginLoop_responsive e w₀ w₀ e.tasks []
    rcases @beginLoop_spec e plainConf False (fun _ _ => False) responsive w₀ w₀ _ [] e.nodup
      (fun t ht => ht) (fun t _ => rfl) with
      ⟨started', db', hres, -, hb, hnil⟩ | ⟨err, db₁, w₁, done, -, -, -, -, hres⟩
    swap
    · simp [hloop] at hres
    have hdue : ∀ t : Task, Due w₀.st [] t ↔ t.dependsOn = [] ∧ w₀.st t.id = .scheduled := by
      simp [Due, List.eq_nil_iff_forall_not_mem, and_comm]
    simp only [beginTasks, hres]
    split
    · rename_i hempty
      refine .inr fun t ht => ?_
      have hnot := (hnil.mp hempty).2 t ht
      refine ⟨?_, fun _ h => hnot ((hdue t).mp h)⟩
      show (db'.st t.id).isActive = false
      rw [hb.mem t ht, if_neg hnot]
      rcases hc.status t ht with h | h <;> rw [h] <;> rfl
    · refine .inl ⟨by simp, fun t ht => ?_⟩
      rw [st_setTasksExecutionStatus, hb.mem t ht]
      simp [progressStatus, ← hdue]
  · rw [(Writes.beginTasks).info]
    simp

/-- In a run in which everything succeeds, what is done is an order of the dependencies. -/
lemma Scheduled.progress (hc : Created e w₀.st) (h : Scheduled e returned w₀ w) :
    ∃ l, Progress e returned w₀ l w := by
  induction h with
  | refl => exact ⟨[], .begin hc⟩
  | tail _ hstep ih =>
    obtain ⟨l, hp⟩ := ih
    obtain ⟨t, ht, hact, result, hresult, rfl⟩ := hstep
    exact ⟨t.id :: l, hp.complete hc ht hact hresult⟩

lemma Progress.exists_scheduled (hc : Created e w₀.st)
    (hl : Order e.parents (fun id => (∃ t ∈ e.tasks, t.id = id) ∧ w₀.st id = .scheduled) l) :
    ∃ w, Scheduled e returned w₀ w ∧ Progress e returned w₀ l w := by
  induction hl with
  | nil => exact ⟨_, .refl, .begin hc⟩
  | @cons l a _ hnew ha hdeps ih =>
    obtain ⟨w, hw, hp⟩ := ih
    obtain ⟨⟨t, ht, rfl⟩, hsched⟩ := ha
    rw [Execution.parents_of_mem ht] at hdeps
    have hact := hp.isActive_of_due hc ht hnew ⟨hsched, hdeps⟩
    have hresult : ∀ f, f ∈ ((returned t).map fun f => (f, Json.null)).map (·.1) ↔
        f ∈ returned t := by simp
    exact ⟨_, hw.tail ⟨t, ht, hact, _, hresult, rfl⟩, hp.complete hc ht hact hresult⟩

lemma Created.exists_of_below (hc : Created e st) (hb : Below e.parents d t.id) (ht : t ∈ e.tasks) :
    ∃ p ∈ e.tasks, p.id = d ∧ p.inst = t.inst := by
  generalize hid : t.id = a at hb
  induction hb generalizing t with
  | single hd =>
    subst hid
    rw [Execution.parents_of_mem ht] at hd
    exact hc.parent t ht _ hd
  | tail _ hd ih =>
    subst hid
    rw [Execution.parents_of_mem ht] at hd
    obtain ⟨p, hp, hpb, hpi⟩ := hc.parent t ht _ hd
    exact hpi ▸ ih hp hpb

lemma Created.exists_order_below {rank : TaskId → ℕ} {T : Set Task} (hc : Created e st)
    (hrank : ∀ t ∈ e.tasks, t.inst = inst → ∀ d ∈ t.dependsOn, rank d < rank t.id)
    (hT : ∀ t ∈ T, t ∈ e.tasks ∧ t.inst = inst ∧ Startable e st t) :
    ∃ l, Order e.parents (fun id => (∃ t ∈ e.tasks, t.id = id) ∧ st id = .scheduled) l ∧
      ∀ id, id ∈ l ↔ ∃ t ∈ T, Below e.parents id t.id := by
  classical
  have hbelow : ∀ a, (∃ t ∈ T, Below e.parents a t.id) →
      ∃ p ∈ e.tasks, p.id = a ∧ p.inst = inst ∧ st a = .scheduled := by
    rintro a ⟨t, ht, hb⟩
    obtain ⟨hte, hti, hstart⟩ := hT t ht
    obtain ⟨p, hp, hpa, hpi⟩ := hc.exists_of_below hb hte
    exact ⟨p, hp, hpa, hpi.trans hti, hstart.2 a hb⟩
  have hmem : ∀ a, a ∈ (e.tasks.map (·.id)).toFinset.filter
      (fun a => ∃ t ∈ T, Below e.parents a t.id) ↔ ∃ t ∈ T, Below e.parents a t.id := by
    intro a
    rw [Finset.mem_filter, and_iff_right_iff_imp]
    intro h
    obtain ⟨p, hp, hpa, -⟩ := hbelow a h
    exact List.mem_toFinset.mpr (List.mem_map.mpr ⟨p, hp, hpa⟩)
  obtain ⟨l, hl, hiff⟩ := @exists_order _ e.parents
    (fun id => (∃ t ∈ e.tasks, t.id = id) ∧ st id = .scheduled) _ rank _
    (fun a ha d hd => by
      obtain ⟨t, ht, hb⟩ := (hmem a).mp ha
      exact (hmem d).mpr ⟨t, ht, .head hd hb⟩)
    (fun a ha d hd => by
      obtain ⟨p, hp, rfl, hpi, -⟩ := hbelow a ((hmem a).mp ha)
      rw [Execution.parents_of_mem hp] at hd
      exact hrank p hp hpi d hd)
    (fun a ha => by
      obtain ⟨p, hp, hpa, -, hs⟩ := hbelow a ((hmem a).mp ha)
      exact ⟨⟨p, hp, hpa⟩, hs⟩)
  exact ⟨l, hl, fun a => (hiff a).trans (hmem a)⟩

/-- Tasks that none of them rests on are active together at some time. -/
lemma Created.exists_active {rank : TaskId → ℕ} {T : Set Task} (hc : Created e w₀.st)
    (hrank : ∀ t ∈ e.tasks, t.inst = inst → ∀ d ∈ t.dependsOn, rank d < rank t.id)
    (hT : ∀ t ∈ T, t ∈ e.tasks ∧ t.inst = inst ∧ Startable e w₀.st t)
    (hfree : ∀ t ∈ T, ∀ u ∈ T, ¬Below e.parents t.id u.id) :
    ∃ w l, Scheduled e returned w₀ w ∧ Progress e returned w₀ l w ∧
      (∀ id ∈ l, ∃ t ∈ T, Below e.parents id t.id) ∧ ∀ t ∈ T, (w.st t.id).isActive = true := by
  obtain ⟨l, hl, hmem⟩ := hc.exists_order_below hrank hT
  obtain ⟨w, hw, hp⟩ := Progress.exists_scheduled hc hl
  refine ⟨w, l, hw, hp, fun id h => (hmem id).mp h, fun t ht => ?_⟩
  obtain ⟨hte, -, hstart⟩ := hT t ht
  refine hp.isActive_of_due hc hte (fun h => ?_) ⟨hstart.1, fun d hd => (hmem d).mpr ⟨t, ht, ?_⟩⟩
  · obtain ⟨u, hu, hb⟩ := (hmem _).mp h
    exact hfree t ht u hu hb
  · exact .single (by rwa [Execution.parents_of_mem hte])

/-- What is active in a run in which everything succeeds was startable from the beginning. -/
lemma Progress.startable (hp : Progress e returned w₀ l w) (hc : Created e w₀.st)
    (ht : t ∈ e.tasks) (hact : (w.st t.id).isActive = true) :
    Startable e w₀.st t ∧ t.id ∉ l ∧ ∀ d, Below e.parents d t.id → d ∈ l := by
  obtain ⟨hl, hdue⟩ := hp.isActive_imp hc ht hact
  have hbelow : ∀ d, Below e.parents d t.id → d ∈ l := fun d hb =>
    hp.order.mem_of_below hb (by rw [Execution.parents_of_mem ht]; exact hdue.2)
  exact ⟨⟨hdue.1, fun d hb => (hp.order.eligible_of_mem (hbelow d hb)).2⟩, hl, hbelow⟩

/-- Where the sanity check accepts an execution, the runs in which everything succeeds are
safe if the tasks are ordered, and only then. -/
theorem sane_schedules_safe_iff (e : Execution) (required returned : Task → List String)
    (w₀ : World) (hsane : checkTasksSanity required returned w₀.st e w₀.info = .ok ()) :
    (∀ w, Scheduled e returned w₀ w → Safe e required returned w) ↔
      Ordered e required returned w₀.st w₀.info := by
  have hc := Created.of_sane hsane
  constructor
  · intro hsafe t ht hstart
    obtain ⟨rank, hsane⟩ := checkTasksSanity_ok hsane t.inst
    have hrank : ∀ u ∈ e.tasks, u.inst = t.inst → ∀ d ∈ u.dependsOn, rank d < rank u.id := by
      intro u hu hui d hd
      obtain ⟨p, -, -, -, hlt⟩ := (hsane u hu hui).2.1 d hd
      exact hlt
    have hirrefl : ∀ u ∈ e.tasks, u.inst = t.inst → ¬Below e.parents u.id u.id :=
      fun u hu hui hb => lt_irrefl (rank u.id)
        (rank_lt_of_below (fun u hu hui => (hsane u hu hui).2.1) hu hui hb)
    refine ⟨fun f hf => ?_, fun u hu hustart hne hinst hcommon => ?_⟩
    · -- do what the task rests on, and nothing else
      obtain ⟨w, l, hw, hp, hl, hact⟩ := hc.exists_active (T := {t}) hrank
        (by rintro _ rfl; exact ⟨ht, rfl, hstart⟩)
        (by rintro _ rfl _ rfl; exact hirrefl _ ht rfl)
      refine ((hp.info _ _).mp ((hsafe w hw).1 t ht (hact t rfl) f hf)).imp_right ?_
      rintro ⟨u, hu, hul, -, hfu⟩
      obtain ⟨_, rfl, hb⟩ := hl _ hul
      exact ⟨u, hu, hb, hfu⟩
    · by_contra hfree
      rw [not_or] at hfree
      obtain ⟨w, l, hw, -, -, hact⟩ := hc.exists_active (T := {t, u}) hrank
        (by rintro _ (rfl | rfl); exacts [⟨ht, rfl, hstart⟩, ⟨hu, hinst.symm, hustart⟩])
        (by
          rintro _ (rfl | rfl) _ (rfl | rfl)
          exacts [hirrefl _ ht rfl, hfree.1, hfree.2, hirrefl _ hu hinst.symm])
      obtain ⟨f, hft, hfu⟩ := hcommon
      exact (hsafe w hw).2 t ht u hu hne hinst (hact t (.inl rfl)) (hact u (.inr rfl)) f hft hfu
  · intro hord w hw
    obtain ⟨l, hp⟩ := hw.progress hc
    refine ⟨fun t ht hact f hf => ?_, fun t ht u hu hne hinst htact huact f hft hfu => ?_⟩
    · obtain ⟨hstart, -, hbelow⟩ := hp.startable hc ht hact
      refine (hp.info _ _).mpr (((hord t ht hstart).1 f hf).imp_right ?_)
      rintro ⟨u, hu, hb, hfu⟩
      obtain ⟨p, hp', hpu, hpi⟩ := hc.exists_of_below hb ht
      obtain rfl := task_eq_of_id hp' hu hpu
      exact ⟨p, hp', hbelow _ hb, hpi, hfu⟩
    · obtain ⟨htstart, htl, htbelow⟩ := hp.startable hc ht htact
      obtain ⟨hustart, hul, hubelow⟩ := hp.startable hc hu huact
      rcases (hord t ht htstart).2 u hu hustart hne hinst ⟨f, hft, hfu⟩ with hb | hb
      · exact htl (hubelow _ hb)
      · exact hul (htbelow _ hb)

/-- Two tasks that can start at once and one that validates what the first of them found. -/
def discovery (dependsOn : List TaskId) : Execution where
  id := "execution"
  actionId := "transfer"
  type := .transferExecution
  instances := ["vm"]
  tasks := [⟨0, "vm", .getInstanceInfo, [], false, 0⟩,
    ⟨1, "vm", .validateTransferSourceInputs, [], false, 1⟩,
    ⟨2, "vm", .validateTransferDestinationInputs, dependsOn, false, 2⟩]
  nodup := by simp

def discoveryStored : World where
  status := .unexecuted
  lastExecutionStatus := .unexecuted
  rows _ := ⟨.scheduled, none, none, none⟩
  info _ := some [("source_environment", .obj []), ("target_environment", .obj [])]
  trace := []

/-- A task that depends on one of the first round only can start before the other one of that
round returned what it requires. -/
theorem sane_schedule_unsafe :
    checkExecutionTasksSanity discoveryStored.st (discovery [1]) discoveryStored.info = .ok () ∧
      ∃ w, Scheduled (discovery [1]) (·.taskType.returnedProperties) discoveryStored w ∧
        w.st 2 = .pending ∧
        "export_info" ∈ TaskType.validateTransferDestinationInputs.requiredProperties ∧
        "export_info" ∉ TaskInfo.keys (w.info "vm") ∧
        ¬Safe (discovery [1]) (·.taskType.requiredProperties) (·.taskType.returnedProperties) w := by
  refine ⟨by decide,
    completeTask (discovery [1]) ⟨1, "vm", .validateTransferSourceInputs, [], false, 1⟩ []
      (beginTasks (discovery [1]) responsive discoveryStored discoveryStored).2,
    .single ⟨_, by decide, by decide, [], fun _ => .rfl, rfl⟩, by decide, by decide,
    by decide, fun hsafe => ?_⟩
  have := hsafe.1 ⟨2, "vm", .validateTransferDestinationInputs, [1], false, 2⟩ (by decide)
    (by decide) "export_info" (by decide)
  exact absurd this (by decide)

/-- With both tasks as parents every schedule is safe. -/
theorem sane_schedules_safe_discovery :
    checkExecutionTasksSanity discoveryStored.st (discovery [0, 1]) discoveryStored.info = .ok () ∧
      ∀ w, Scheduled (discovery [0, 1]) (·.taskType.returnedProperties) discoveryStored w →
        Safe (discovery [0, 1]) (·.taskType.requiredProperties) (·.taskType.returnedProperties) w := by
  have hsane : checkExecutionTasksSanity discoveryStored.st (discovery [0, 1])
    discoveryStored.info = .ok () := by decide
  -- what is not there from the beginning is the export info, which the last task requires
  have hlast : ∀ t ∈ (discovery [0, 1]).tasks, ∀ f ∈ t.taskType.requiredProperties,
      f ∉ TaskInfo.keys (discoveryStored.info t.inst) → t.id = 2 ∧ f = "export_info" := by
    decide
  have hdisjoint : ∀ t ∈ (discovery [0, 1]).tasks, ∀ u ∈ (discovery [0, 1]).tasks, t.id ≠ u.id →
      ¬∃ f ∈ t.taskType.returnedProperties, f ∈ u.taskType.returnedProperties := by
    decide
  refine ⟨hsane, (sane_schedules_safe_iff _ _ _ _ hsane).mpr fun t ht _ => ⟨fun f hf => ?_,
    fun u hu _ hne _ hcommon => absurd hcommon (hdisjoint t ht u hu hne)⟩⟩
  by_cases hkey : f ∈ TaskInfo.keys (discoveryStored.info t.inst)
  · exact .inl hkey
  · obtain ⟨hid, rfl⟩ := hlast t ht f hf hkey
    exact .inr ⟨_, List.mem_cons_self, .single (by rw [hid]; decide), by decide⟩

end Coriolis.Conductor

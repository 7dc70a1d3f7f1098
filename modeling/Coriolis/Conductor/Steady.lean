import Coriolis.Conductor.Paths

/-!
# What holds between two handler calls

`Steady` is the invariant of built executions that handlers find and leave behind: a
running execution has an active task and every waiting task waits for a live parent, an
execution that is over has nothing waiting. `Fresh` is its part for an execution that has
not begun, and `Barren` describes one that was cancelled before it began: nothing in it
can be started any more.
-/

namespace Coriolis.Conductor

variable {e : Execution} {conf : Conf} {strong : Prop} {ok : World → Report → Prop} {env : Env}
  {w w' db : World}

/-- The entries of the info of its instance that a task's post-task action reads. -/
def requiredKeys : TaskType → List String
  | .attachVolumesToSourceMinion | .detachVolumesFromSourceMinion =>
    ["origin_minion_provider_properties", "origin_minion_machine_id"]
  | .attachVolumesToDestinationMinion | .detachVolumesFromDestinationMinion =>
    ["destination_minion_provider_properties", "destination_minion_machine_id"]
  | .attachVolumesToOsmorphingMinion | .detachVolumesFromOsmorphingMinion =>
    ["osmorphing_minion_provider_properties", "osmorphing_minion_machine_id"]
  | .releaseSourceMinion => ["origin_minion_machine_id"]
  | .releaseDestinationMinion => ["destination_minion_machine_id"]
  | .releaseOsmorphingMinion => ["osmorphing_minion_machine_id"]
  | _ => []

def InfoReady (e : Execution) (w : World) : Prop :=
  ∀ t ∈ e.tasks, ∃ info, w.info t.inst = some info ∧
    ∀ key ∈ requiredKeys t.taskType, (info.get? key).isSome = true

/-- No key is taken out of an info. -/
def KeepsKeys (infos infos' : String → Option TaskInfo) : Prop :=
  ∀ inst info, infos inst = some info → ∃ info', infos' inst = some info' ∧
    ∀ key, (info.get? key).isSome = true → (info'.get? key).isSome = true

lemma KeepsKeys.refl : KeepsKeys infos infos := fun _ info hi => ⟨info, hi, fun _ h => h⟩

lemma KeepsKeys.trans (h : KeepsKeys a b) (h₁ : KeepsKeys b c) : KeepsKeys a c := by
  intro inst info hi
  obtain ⟨info₁, hi₁, hk₁⟩ := h inst info hi
  obtain ⟨info₂, hi₂, hk₂⟩ := h₁ inst info₁ hi₁
  exact ⟨info₂, hi₂, fun key hkey => hk₂ key (hk₁ key hkey)⟩

lemma KeepsKeys.update (infos : String → Option TaskInfo) (inst : String) (new : TaskInfo) :
    KeepsKeys infos (Function.update infos inst (some (((infos inst).getD []).update new))) := by
  intro i info hi
  by_cases h : i = inst
  · subst h
    refine ⟨_, Function.update_self .., fun key hkey => ?_⟩
    simp [hi, TaskInfo.get?_update, hkey]
  · exact ⟨info, by rw [Function.update_of_ne h, hi], fun _ h => h⟩

lemma Bookkeeping.refl (w : World) : Bookkeeping w w :=
  ⟨rfl, rfl, rfl, ⟨[], rfl, by simp⟩, KeepsKeys.refl⟩

lemma Bookkeeping.trans (h : Bookkeeping w w') (h' : Bookkeeping w' w'') :
    Bookkeeping w w'' := by
  obtain ⟨evs, hevs, hpost⟩ := h.trace
  obtain ⟨evs', hevs', hpost'⟩ := h'.trace
  refine ⟨h'.rows.trans h.rows, h'.status.trans h.status, h'.last.trans h.last,
    ⟨evs' ++ evs, by rw [hevs', hevs, List.append_assoc], fun ev hev => ?_⟩,
    KeepsKeys.trans h.info h'.info⟩
  rcases List.mem_append.mp hev with hev | hev
  · exact hpost' ev hev
  · exact hpost ev hev

lemma Bookkeeping.postTaskAction (w : World) (a : PostTaskAction) :
    Bookkeeping w (w.emit (.postTaskAction a)) :=
  ⟨rfl, rfl, rfl, ⟨[_], rfl, by simp⟩, KeepsKeys.refl⟩

lemma Bookkeeping.updateInfo (w : World) (inst : String) (new : TaskInfo) :
    Bookkeeping w (w.updateTransferActionInfoForInstance inst new).2 := by
  simp only [World.updateTransferActionInfoForInstance]
  split
  · exact .refl w
  · exact ⟨rfl, rfl, rfl, ⟨[], rfl, by simp⟩, KeepsKeys.update w.info inst new⟩

lemma Change.info (h : Change e conf strong ok w w') : KeepsKeys w.info w'.info := by
  have same (heq : w'.info = w.info) : KeepsKeys w.info w'.info := heq ▸ .refl
  cases h with
  | kept h => exact h.info
  | debugged _ _ _ _ _ hw₂ _ => exact same (by simpa using Writes.info (debugging_written hw₂))
  | _ => exact same (by simp)

lemma InfoReady.mono (hi : InfoReady e w) (h : KeepsKeys w.info w'.info) : InfoReady e w' := by
  intro t ht
  obtain ⟨info, hinfo, hkeys⟩ := hi t ht
  obtain ⟨info', hinfo', hk⟩ := h _ _ hinfo
  exact ⟨info', hinfo', fun key hkey => hk key (hkeys key hkey)⟩

lemma InfoReady.change (h : Change e conf strong ok w w') (hi : InfoReady e w) :
    InfoReady e w' :=
  hi.mono h.info

/-- The status of the action is the one of its execution while that waits for minions. -/
def LastOk (w : World) : Prop :=
  w.lastExecutionStatus = .awaitingMinionAllocations → w.status = .awaitingMinionAllocations

lemma enterCancellation_last :
    (enterCancellation e env force w).lastExecutionStatus =
      if w.status = .running then .cancelling else w.lastExecutionStatus := by
  by_cases hrun : w.status = .running
  · have h1 : cancelLoops force .running = true := by cases force <;> decide
    simp [enterCancellation, hrun, h1]
  · simp only [enterCancellation, hrun, if_false]
    split <;> simp

lemma LastOk.enterCancellation (h : LastOk w) :
    LastOk (enterCancellation e env force w) := by
  simp only [LastOk, enterCancellation_last, enterCancellation_status]
  split
  · simp
  · exact h

lemma LastOk.change (h : Change e conf strong ok w w') (hl : LastOk w) : LastOk w' := by
  cases h with
  | started | unscheduled | moved | completed | dropped | cancelConfirmed => exact hl
  | notScheduled => exact LastOk.enterCancellation (w := w.notScheduled _ _) hl
  | castRaised => exact LastOk.enterCancellation (w := w.castRaised _) hl
  | refreshed | deadlocked | begun | debugged | allocationFailed => simp [LastOk]
  | errored => exact LastOk.enterCancellation (w := w.errored _ _) hl
  | cancelRequested => exact hl.enterCancellation
  | kept h => exact fun hlast => h.status.trans (hl (h.last ▸ hlast))

/-- An execution whose tasks were created and none of them started. -/
structure Fresh (e : Execution) (w : World) : Prop where
  statuses : ∀ t ∈ e.tasks, w.st t.id = .scheduled ∨ w.st t.id = .onErrorOnly ∧ t.onError = true
  notCast : ∀ t ∈ e.tasks, ¬w.emitted (.beginTask t.id)

def Barren (e : Execution) (w : World) : Prop :=
  ∀ t ∈ e.tasks, w.st t.id = .scheduled ∧ t.dependsOn ≠ [] ∨ w.st t.id = .unscheduled ∨
    w.st t.id = .failedToSchedule ∨ w.st t.id = .canceledFromDeadlock

lemma Fresh.kept (hf : Fresh e w) (h : Bookkeeping w w') : Fresh e w' := by
  refine ⟨by simpa [h.st] using hf.statuses, fun t ht => ?_⟩
  rw [h.emitted (by simp)]
  exact hf.notCast t ht

lemma Barren.not_start (wf : WellFormed e) (h : Barren e w) (ht : t ∈ e.tasks) :
    lifecycleDecision e w.st t ≠ .start := by
  intro hd
  have hdep : ∀ d ∈ t.dependsOn, w.st d ≠ .completed ∧ (w.st d).triggersCleanup = false := by
    intro d hd
    obtain ⟨p, hp, rfl, -⟩ := wf.parent t ht d hd
    rcases h p hp with ⟨h, -⟩ | h | h | h <;> rw [h] <;> decide
  obtain ⟨hs, hempty | ⟨-, ⟨-, hc⟩ | ⟨-, ⟨-, d, hd, hc⟩ | ⟨d, hd, -, hc⟩⟩⟩⟩ := decision_start hd
  · rcases h t ht with ⟨-, h⟩ | h | h | h
    · exact h hempty
    all_goals simp [hs] at h
  · rcases h t ht with ⟨-, h⟩ | h | h | h
    · obtain ⟨d, hd⟩ := List.exists_mem_of_ne_nil _ h
      exact (hdep d hd).1 (hc d hd)
    all_goals simp [hs] at h
  · exact (hdep d hd).1 hc
  · simp [(hdep d hd).2] at hc

lemma Barren.change (wf : WellFormed e)
    (h : Change e conf strong (fun _ _ => False) w w') (hb : Barren e w) : Barren e w' := by
  intro t ht
  cases h.task ht with
  | same h => exact h ▸ hb t ht
  | started hd | notScheduled hd | castRaised hd => exact absurd hd (hb.not_start wf ht)
  | unscheduled _ h => exact .inr (.inl h)
  | cancelled _ h =>
    rcases hb t ht with ⟨hst, hne⟩ | hst | hst | hst <;> rw [hst] at h
    · exact .inl ⟨by simp [h, hne], hne⟩
    · exact .inr (.inl (h.trans (cancelledStatus_of_isSettled rfl)))
    · exact .inr (.inr (.inl (h.trans (cancelledStatus_of_isSettled rfl))))
    · exact .inr (.inr (.inr (h.trans (cancelledStatus_of_isSettled rfl))))
  | deadlocked _ _ _ _ h => exact .inr (.inr (.inr h))
  | debugged _ _ _ _ h =>
    obtain ⟨_, h⟩ := h
    exact h.elim
  | moved h | completed h | errored h | cancelConfirmed h => exact h.elim

lemma Barren.changes (wf : WellFormed e)
    (h : Changes e conf strong (fun _ _ => False) w w') (hb : Barren e w) : Barren e w' :=
  h.invariant (fun _ _ => Barren.change wf) hb

lemma Barren.not_active (hb : Barren e w) (ht : t ∈ e.tasks) :
    (w.st t.id).isActive = false := by
  rcases hb t ht with ⟨h, -⟩ | h | h | h <;> rw [h] <;> decide

lemma Barren.isSettled (hb : Barren e w) (ht : t ∈ e.tasks) (hs : w.st t.id ≠ .scheduled)
    : (w.st t.id).isSettled = true := by
  rcases hb t ht with ⟨h, -⟩ | h | h | h
  · exact absurd h hs
  all_goals rw [h]; decide

/-- The invariant of built executions between handler calls. -/
structure Steady (e : Execution) (w : World) : Prop where
  released : Released e w.st
  running : w.status = .running ∨ w.status = .cancelling →
    (∀ t ∈ e.tasks, Settled w.st t) ∧ ∃ t ∈ e.tasks, (w.st t.id).isActive = true
  awaiting : w.status = .awaitingMinionAllocations → Fresh e w
  ended : w.status.isActive = false →
    (∀ t ∈ e.tasks, w.st t.id ≠ .scheduled) ∧
      (w.status.inFinalizedTaskStatuses = false → ∀ t ∈ e.tasks, w.st t.id ≠ .onErrorOnly)
  unexecuted : w.status = .unexecuted → ∀ t ∈ e.tasks, (w.st t.id).isSettled = true
  last : LastOk w
  info : InfoReady e w

lemma Steady.of_empty (hempty : e.tasks = []) (hrun : w.status ≠ .running)
    (hcan : w.status ≠ .cancelling) (hlast : LastOk w) : Steady e w := by
  have hno : ∀ t, t ∉ e.tasks := by simp [hempty]
  exact ⟨fun t ht => absurd ht (hno t), fun h => absurd h (not_or.mpr ⟨hrun, hcan⟩),
    fun _ => ⟨fun t ht => absurd ht (hno t), fun t ht => absurd ht (hno t)⟩,
    fun _ => ⟨fun t ht => absurd ht (hno t), fun _ t ht => absurd ht (hno t)⟩,
    fun _ t ht => absurd ht (hno t), hlast, fun t ht => absurd ht (hno t)⟩

/-- An execution that is over, of which nothing waits. -/
lemma Steady.of_over (hover : w.status.isActive = false)
    (hns : ∀ t ∈ e.tasks, w.st t.id ≠ .scheduled)
    (hnoe : w.status.inFinalizedTaskStatuses = false → ∀ t ∈ e.tasks, w.st t.id ≠ .onErrorOnly)
    (hun : w.status = .unexecuted → ∀ t ∈ e.tasks, (w.st t.id).isSettled = true)
    (hlast : LastOk w) (hinfo : InfoReady e w) : Steady e w := by
  have hactive : ∀ s : ExecutionStatus, s.isActive = true → w.status ≠ s := by
    rintro s h rfl
    simp [hover] at h
  refine ⟨.of_no_scheduled hns, fun h => ?_, fun h => absurd h (hactive _ (by decide)),
    fun _ => ⟨hns, hnoe⟩, hun, hlast, hinfo⟩
  rcases h with h | h <;> exact absurd h (hactive _ (by decide))

section

lemma LastOk.changes (h : Changes e conf strong ok w w') (hl : LastOk w) : LastOk w' :=
  h.invariant (fun _ _ => LastOk.change) hl

lemma InfoReady.changes (h : Changes e conf strong ok w w') (hi : InfoReady e w) :
    InfoReady e w' :=
  h.invariant (fun _ _ => InfoReady.change) hi

lemma Calm.cases (h : Calm e w) :
    (w.status = .running ∨ w.status = .cancelling) ∧
        (∃ t ∈ e.tasks, (w.st t.id).isActive = true) ∨
      (w.status = .error ∨ w.status = .canceled ∨ w.status = .completed) ∧
        ∀ t ∈ e.tasks, (w.st t.id).isActive = false ∧ w.st t.id ≠ .scheduled := by
  rcases getExecutionStatus_cases e w with ⟨-, hg⟩ | ⟨-, ha, hg⟩ | ⟨hno, hg⟩
  · exact absurd (h.status.trans hg) h.notDeadlocked
  · exact .inl ⟨by rwa [h.status], ha⟩
  · refine .inr ⟨?_, hno⟩
    rw [h.status]
    rcases hg with hg | hg | ⟨hg, -⟩
    · exact .inl hg
    · exact .inr (.inl hg)
    · exact .inr (.inr hg)

lemma Calm.steady (h : Calm e w) (hrel : Released e w.st) (hlast : LastOk w)
    (hinfo : InfoReady e w) : Steady e w := by
  refine ⟨hrel, fun hs => ?_, fun hs => ?_, fun hs => ?_, fun hs => ?_, hlast, hinfo⟩ <;>
    rcases h.cases with ⟨hst, hact⟩ | ⟨hst, hno⟩
  · exact ⟨h.settled, hact⟩
  · rcases hs with hs | hs <;> simp [hs] at hst
  · simp [hs] at hst
  · simp [hs] at hst
  · rcases hst with hst | hst <;> rw [hst] at hs <;> cases hs
  · refine ⟨fun t ht => (hno t ht).2, fun hf => ?_⟩
    rcases hst with hst | hst | hst <;> rw [hst] at hf <;> cases hf
  · simp [hs] at hst
  · simp [hs] at hst

variable (wf : strong → WellFormed e) {inst : Option String}
include wf

lemma advanceExecutionState_active (hact : w.status.isActive = true)
    (hx : x.st = w.st) (hxs : x.status = w.status) (hrel : strong → Released e w.st)
    (hother : strong → ∀ t ∈ e.tasks, t ∉ tasksToProcess e inst → Settled w.st t) :
    Changes e conf strong ok w (advanceExecutionState e env x requery inst w).2 ∧
      (strong → tasksToProcess e inst ≠ [] →
        Calm e (advanceExecutionState e env x requery inst w).2) := by
  rw [advanceExecutionState, advance_eq hx hxs]
  obtain ⟨h1, h2⟩ := @advance_spec e conf strong ok env wf (stackDepth e) inst w hact hrel hother
  exact ⟨h1, fun hs => h2 hs (Nat.lt_succ_of_le waiting_le_length)⟩

omit wf in
lemma advanceExecutionState_inactive (hact : w.status.isActive = false)
    (hx : x.st = w.st) (hxs : x.status = w.status) :
    (advanceExecutionState e env x requery inst w).2 =
      if isDeadlocked e w.st then cleanDeadlock e w.status w.st w else w := by
  rw [advanceExecutionState, stackDepth, advance, advanceWith_eq hx hxs]
  simp [hact]

omit wf in
lemma isDeadlocked_of_no_scheduled (h : ∀ t ∈ e.tasks, st t.id ≠ .scheduled)
    : isDeadlocked e st = false := by
  by_contra hd
  obtain ⟨⟨t, ht, hs⟩, -⟩ := isDeadlocked_iff.mp (by simpa using hd)
  exact h t ht hs

omit wf in
lemma cancelTasksExecution_world {force : Bool}
    (h : w.status.inFinalizedTaskStatuses = false) :
    (cancelTasksExecution e env x true force w).2 =
      (advanceExecutionState e env (enterCancellation e env force w) true none
        (enterCancellation e env force w)).2 :=
  cancelWith_advance h

omit wf in
lemma cancelTasksExecution_finalized (h : w.status.inFinalizedTaskStatuses = true) :
    cancelTasksExecution e env x true force w = (.ok (), w) := by
  rw [cancelTasksExecution, cancelWith_requery, if_pos h]

/-- `_cancel_tasks_execution` for an active execution: after the change that enters the
cancellation, the advancement calms everything. -/
lemma cancelTasksExecution_active {force : Bool} (hact : w.status.isActive = true)
    (hrel : strong → Released e w.st) :
    Changes e conf strong ok (enterCancellation e env force w)
        (cancelTasksExecution e env x true force w).2 ∧
      (strong → e.tasks ≠ [] → Calm e (cancelTasksExecution e env x true force w).2) := by
  rw [cancelTasksExecution_world (ExecutionStatus.not_inFinalized_of_isActive hact)]
  exact @advanceExecutionState_active e conf strong ok env _ wf none _ _
    (enterCancellation_isActive hact) rfl rfl (fun hs => (hrel hs).enterCancellation (wf hs)) (fun _ t ht hnot => absurd ht hnot)

lemma cancelTasksExecution_changes (hrel : strong → Released e w.st)
    (hidle : strong → w.status.isActive = false → w.status = .unexecuted ∨
      isDeadlocked e (enterCancellation e env force w).st = false) :
    Changes e conf strong ok (enterCancellation e env force w)
      (cancelTasksExecution e env x true force w).2 := by
  by_cases hact : w.status.isActive = true
  · exact (cancelTasksExecution_active wf hact hrel).1
  by_cases hfin : w.status.inFinalizedTaskStatuses = true
  · rw [cancelTasksExecution_finalized hfin]
    have : enterCancellation e env force w = w := by simp [enterCancellation, cancelLoops, hfin]
    rw [this]
  have hact : w.status.isActive = false := by simpa using hact
  have hrun : w.status ≠ .running := by rintro h; simp [h] at hact; cases hact
  have hst : (enterCancellation e env force w).status = w.status := by
    rw [enterCancellation_status, if_neg hrun]
  rw [cancelTasksExecution_world (by simpa using hfin),
    advanceExecutionState_inactive (hst ▸ hact) rfl rfl]
  split
  · rename_i hd
    refine .single (.deadlocked hd fun hs => ?_)
    rcases hidle hs hact with h | h
    · rw [hst, h]
    · simp [h] at hd
  · exact .refl

end

/-- No worker has begun a task, though some may have been told to. -/
def Unbegun (e : Execution) (w : World) : Prop :=
  ∀ t ∈ e.tasks, w.st t.id = .scheduled ∨ w.st t.id = .onErrorOnly ∧ t.onError = true ∨
    w.st t.id = .pending ∨ w.st t.id = .failedToSchedule

lemma barren_enterCancellation (wf : WellFormed e) (hloops : cancelLoops false w.status = true)
    (h : Unbegun e w) : Barren e (enterCancellation e env false w) := by
  intro t ht
  rw [enterCancellation_st ht, if_pos hloops]
  rcases h t ht with hst | ⟨hst, hoe⟩ | hst | hst <;> rw [hst]
  · by_cases hd : t.dependsOn = []
    · exact .inr (.inl (by simp [hd]))
    · exact .inl ⟨by simp [hd], hd⟩
  · exact .inl ⟨cancelledStatus_onErrorOnly, wf.onErrorParents t ht hoe⟩
  · exact .inr (.inl (cancelledStatus_pending (.inl rfl)))
  · exact .inr (.inr (.inl (cancelledStatus_of_isSettled rfl)))

/-- What a successful start did so far. -/
structure Began (env : Env) (x : World) (l : List Task) (db db' : World) : Prop where
  status : db'.status = db.status
  last : db'.lastExecutionStatus = db.lastExecutionStatus
  mem : ∀ t ∈ l, db'.st t.id =
    if t.dependsOn = [] ∧ x.st t.id = .scheduled then .pending else db.st t.id
  other : ∀ j, (∀ t ∈ l, j ≠ t.id) → db'.st j = db.st j
  cast : ∀ t ∈ l, t.dependsOn = [] → x.st t.id = .scheduled →
    env.findsWorker t.id = true ∧ env.beginTaskGoesOut t.id = true
  emitted : ∀ eff, db'.emitted eff →
    db.emitted eff ∨ ∃ t ∈ l, t.dependsOn = [] ∧
      (eff = .setTaskStatus t.id .pending ∨ eff = .beginTask t.id)

lemma Began.st_cases (hb : Began env x l db w') (j : TaskId) :
    (∃ t ∈ l, t.id = j ∧ t.dependsOn = [] ∧ w'.st j = .pending) ∨ w'.st j = db.st j := by
  by_cases hmem : ∃ s ∈ l, j = s.id
  · obtain ⟨s, hs, rfl⟩ := hmem
    rw [hb.mem s hs]
    split
    · rename_i h
      exact .inl ⟨s, hs, rfl, h.1, rfl⟩
    · exact .inr rfl
  · exact .inr (hb.other _ fun s hs hid => hmem ⟨s, hs, hid⟩)

lemma startTask_ok (h : startTask env cancel t w = (.ok (), w')) :
    env.findsWorker t.id = true ∧ env.beginTaskGoesOut t.id = true := by
  have failed : ∀ err (w₁ : World), startFailed cancel err w₁ ≠ (.ok (), w') := by
    intro err w₁ heq
    simp only [startFailed] at heq
    split at heq <;> simp at heq
  simp only [startTask] at h
  split_ifs at h with h1 h2
  · exact absurd h (failed _ _)
  · exact absurd h (failed _ _)
  · exact ⟨by simpa using h1, by simpa using h2⟩

lemma Began.nil : Began env x [] db db :=
  ⟨rfl, rfl, by simp, by simp, by simp, fun _ h => .inl h⟩

lemma Began.cons {x db₀ : World} {done : List Task} {a : Task} (ha : Began env x [a] db db₀)
    (hb : Began env x done db₀ w') (hne : ∀ t ∈ done, t.id ≠ a.id) :
    Began env x (a :: done) db w' := by
  refine ⟨hb.status.trans ha.status, hb.last.trans ha.last, fun t ht => ?_, fun j hj => ?_,
    fun t ht h1 h2 => ?_, fun eff heff => ?_⟩
  · rcases List.mem_cons.mp ht with rfl | ht
    · rw [hb.other _ fun s hs => (hne s hs).symm, ha.mem t List.mem_cons_self]
    · rw [hb.mem t ht, ha.other _ (by simpa using hne t ht)]
  · rw [hb.other j fun s hs => hj s (List.mem_cons_of_mem _ hs),
      ha.other j (by simpa using hj a List.mem_cons_self)]
  · rcases List.mem_cons.mp ht with rfl | ht
    · exact ha.cast t List.mem_cons_self h1 h2
    · exact hb.cast t ht h1 h2
  · rcases hb.emitted eff heff with h | ⟨t, ht, h⟩
    · refine (ha.emitted eff h).imp_right fun ⟨t, ht, h⟩ => ⟨t, ?_, h⟩
      exact List.mem_singleton.mp ht ▸ List.mem_cons_self
    · exact .inr ⟨t, List.mem_cons_of_mem _ ht, h⟩

lemma beginLoop_cons (l : List Task) (started : List TaskId) (ha : a ∈ e.tasks)
    (hx : db.st a.id = x.st a.id) :
    (∃ started₀ db₀, beginLoop e env x (a :: l) started db = beginLoop e env x l started₀ db₀ ∧
      Changes e conf strong ok db db₀ ∧ Began env x [a] db db₀ ∧
      (started₀ = [] ↔ started = [] ∧ ¬(a.dependsOn = [] ∧ x.st a.id = .scheduled))) ∨
    ∃ err w₁, (a.dependsOn = [] ∧ lifecycleDecision e db.st a = .start ∧
        (w₁ = db.notScheduled env a ∨ w₁ = db.castRaised a)) ∧
      beginLoop e env x (a :: l) started db =
        (.error err, (cancelTasksExecution e env x true false w₁).2) := by
  by_cases hgo : a.dependsOn = [] ∧ x.st a.id = .scheduled
  · have hdec : lifecycleDecision e db.st a = .start := by
      simp [lifecycleDecision, hx, hgo.1, hgo.2]
    rcases startTask_cases env db a
      (fun db => cancelTasksExecution e env x true false db) with hstart | ⟨w₁, hw₁, err, hstart⟩
    · refine .inl ⟨started ++ [a.id], db.started a, by simp [beginLoop, hgo, hstart],
        .single (.started ha hdec), ⟨rfl, rfl, by simp [hgo], fun j hj => ?_, ?_,
          fun eff heff => ?_⟩, by simp [hgo]⟩
      · simp [Function.update_of_ne (hj a List.mem_cons_self)]
      · simpa using fun _ _ => startTask_ok hstart
      · simp only [World.started, emitted_emit, emitted_setTaskStatus] at heff
        rcases heff with h | h | h
        · exact .inr ⟨a, List.mem_cons_self, hgo.1, .inr h.symm⟩
        · exact .inr ⟨a, List.mem_cons_self, hgo.1, .inl h.symm⟩
        · exact .inl h
    · exact .inr ⟨err, w₁, ⟨hgo.1, hdec, hw₁⟩, by simp [beginLoop, hgo, hstart]⟩
  · exact .inl ⟨started, db, by simp [beginLoop, hgo], .refl, ⟨rfl, rfl,
      by simpa using fun h1 h2 => absurd ⟨h1, h2⟩ hgo, fun _ _ => rfl,
      by simpa using fun h1 h2 => absurd ⟨h1, h2⟩ hgo, fun _ h => .inl h⟩, by simp [hgo]⟩

/-- The loop of `_begin_tasks` starts every task without parents, or breaks off in a
cancellation at the first one that cannot be started. -/
lemma beginLoop_spec {x : World} {l : List Task} {started : List TaskId}
    (hnd : (l.map (·.id)).Nodup) (hl : ∀ t ∈ l, t ∈ e.tasks)
    (hx : ∀ t ∈ l, db.st t.id = x.st t.id) :
    (∃ started' db', beginLoop e env x l started db = (.ok started', db') ∧
      Changes e conf strong ok db db' ∧ Began env x l db db' ∧
      (started' = [] ↔ started = [] ∧ ∀ t ∈ l, ¬(t.dependsOn = [] ∧ x.st t.id = .scheduled))) ∨
    ∃ err db₁ w₁ done, done <+: l ∧ Changes e conf strong ok db db₁ ∧ Began env x done db db₁ ∧
      (∃ a ∈ e.tasks, a.dependsOn = [] ∧ lifecycleDecision e db₁.st a = .start ∧
        (w₁ = db₁.notScheduled env a ∨ w₁ = db₁.castRaised a)) ∧
      beginLoop e env x l started db =
        (.error err, (cancelTasksExecution e env x true false w₁).2) := by
  induction l generalizing db started with
  | nil => exact .inl ⟨started, db, rfl, .refl, .nil, by simp⟩
  | cons a l ih =>
    obtain ⟨hne, hnd⟩ := nodup_ids_cons.mp hnd
    have ha := hl a List.mem_cons_self
    rcases beginLoop_cons l started ha (hx a List.mem_cons_self) with
      ⟨started₀, db₀, hloop, hch, hfirst, hstarted⟩ | ⟨err, w₁, hfail, hloop⟩ <;> rw [hloop]
    · have hx' : ∀ t ∈ l, db₀.st t.id = x.st t.id := fun t ht => by
        rw [hfirst.other _ (by simpa using hne t ht), hx t (List.mem_cons_of_mem _ ht)]
      rcases @ih db₀ started₀ hnd (fun t ht => hl t (List.mem_cons_of_mem _ ht)) hx' with
        ⟨started', db', h1, h2, h3, h4⟩ | ⟨err, db₁, w₁, done, hpre, h1, h2, h3, h4⟩
      · refine .inl ⟨started', db', h1, hch.trans h2, hfirst.cons h3 hne, ?_⟩
        rw [h4, hstarted, List.forall_mem_cons, and_assoc]
      · exact .inr ⟨err, db₁, w₁, a :: done, List.cons_prefix_cons.mpr ⟨rfl, hpre⟩, hch.trans h1,
          hfirst.cons h2 fun t ht => hne t (hpre.subset ht), h3, h4⟩
    · exact .inr ⟨err, db, w₁, [], List.nil_prefix, .refl, .nil, ⟨a, ha, hfail⟩, rfl⟩

/-- What a built execution is before `_begin_tasks`. -/
structure Ready (e : Execution) (w : World) : Prop where
  fresh : Fresh e w
  released : Released e w.st
  status : w.status = .unexecuted ∨ w.status = .awaitingMinionAllocations
  last : LastOk w
  info : InfoReady e w

lemma Ready.cancelLoops (h : Ready e w) : cancelLoops false w.status = true := by
  rcases h.status with h | h <;> rw [h] <;> decide

lemma Ready.failed_unbegun (h : Ready e w) (hb : Began env w done w db₁)
    (hw₁ : w₁ = db₁.notScheduled env a ∨ w₁ = db₁.castRaised a) : Unbegun e w₁ := by
  intro t ht
  have hdb : db₁.st t.id = .pending ∨ db₁.st t.id = w.st t.id :=
    (hb.st_cases t.id).imp_left fun ⟨_, _, _, _, h⟩ => h
  by_cases hta : t.id = a.id
  · rcases hw₁ with rfl | rfl
    · simp [hta]
    · simp [hta]
  · have hst : w₁.st t.id = db₁.st t.id := by
      rcases hw₁ with rfl | rfl <;> simp [Function.update_of_ne hta]
    rw [hst]
    rcases hdb with hdb | hdb <;> rw [hdb]
    · simp
    · rcases h.fresh.statuses t ht with h | h
      · exact .inl h
      · exact .inr (.inl h)

lemma Ready.failed_kept (wf : WellFormed e) (h : Ready e w) (hch : Changes e conf strong ok w db₁)
    (hb : Began env w done w db₁) (hw₁ : w₁ = db₁.notScheduled env a ∨ w₁ = db₁.castRaised a) :
    Released e w₁.st ∧ LastOk w₁ ∧ InfoReady e w₁ := by
  have hstatus : w₁.status = w.status := by rcases hw₁ with rfl | rfl <;> simpa using hb.status
  have hlast : w₁.lastExecutionStatus = w.lastExecutionStatus := by
    rcases hw₁ with rfl | rfl <;> exact hb.last
  refine ⟨?_, fun hl => ?_, ?_⟩
  · have := h.released.changes wf hch
    rcases hw₁ with rfl | rfl <;> simpa using this.update (by decide) (by decide)
  · rw [hstatus]
    exact h.last (hlast ▸ hl)
  · have := h.info.changes hch
    rcases hw₁ with rfl | rfl <;> exact fun t ht => this t ht

lemma Ready.failed_steady (wf : WellFormed e) (h : Ready e w) {w₁ x : World}
    (htasks : e.tasks ≠ []) (hstatus : w₁.status = w.status) (hrel : Released e w₁.st)
    (hlast : LastOk w₁) (hinfo : InfoReady e w₁) (hst : Unbegun e w₁) :
    Barren e (cancelTasksExecution e env x true false w₁).2 ∧
    (∀ t ∈ e.tasks, (cancelTasksExecution e env x true false w₁).2.st t.id ≠ .scheduled) ∧
    Steady e (cancelTasksExecution e env x true false w₁).2 := by
  have hloops : Conductor.cancelLoops false w₁.status = true := hstatus ▸ h.cancelLoops
  have hbar : Barren e (enterCancellation e env false w₁) :=
    barren_enterCancellation wf hloops hst
  have hpath : Changes e (⟨false, fun _ => false⟩ : Conf) True (fun _ _ => False)
      (enterCancellation e env false w₁) (cancelTasksExecution e env x true false w₁).2 :=
    cancelTasksExecution_changes (fun _ => wf) (fun _ => hrel) fun _ hact => by
      rcases h.status with h | h
      · exact .inl (hstatus.trans h)
      · rw [hstatus, h] at hact
        cases hact
  have hbar' := hbar.changes wf hpath
  have hrel' := (hrel.enterCancellation wf).changes wf hpath
  have hlast' := hlast.enterCancellation.changes hpath
  have hinfo' : InfoReady e (cancelTasksExecution e env x true false w₁).2 :=
    InfoReady.changes hpath fun t ht => by simpa using hinfo t ht
  refine ⟨hbar', ?_⟩
  rcases h.status with hun | haw
  · -- the execution is still UNEXECUTED: the advancement only looks for a deadlock
    have hact : (enterCancellation e env false w₁).status = .unexecuted := by
      rw [enterCancellation_status, hstatus, hun]
      rfl
    have hworld := @cancelTasksExecution_world e env w₁ x false
      (by rw [hstatus, hun]; decide)
    rw [advanceExecutionState_inactive (by rw [hact]; decide) rfl rfl] at hworld
    have hno : ∀ t ∈ e.tasks,
        (cancelTasksExecution e env x true false w₁).2.st t.id ≠ .scheduled := by
      intro t ht hs
      rw [hworld] at hs
      split at hs
      · rw [cleanDeadlock_st ht] at hs
        split at hs
        · simp at hs
        · simp_all
      · rename_i hd
        refine hd (isDeadlocked_iff.mpr ⟨⟨t, ht, hs⟩, fun s hs => hbar.not_active hs⟩)
    refine ⟨hno, .of_over ?_ hno (fun _ t ht hoe => ?_)
      (fun _ t ht => hbar'.isSettled ht (hno t ht)) hlast' hinfo'⟩
    · rw [hworld]
      split
      · rw [cleanDeadlock_status]
        rfl
      · rw [hact]
        rfl
    · rcases hbar' t ht with ⟨h, -⟩ | h | h | h <;> simp [hoe] at h
  · have hactive : w₁.status.isActive = true := by rw [hstatus, haw]; decide
    have hcalm := (@cancelTasksExecution_active e ⟨false, fun _ => false⟩ True (fun _ _ => False) env
      w₁ (fun _ => wf) x false hactive
      fun _ => hrel).2 trivial htasks
    have hno : ∀ t ∈ e.tasks,
        (cancelTasksExecution e env x true false w₁).2.st t.id ≠ .scheduled := by
      rcases hcalm.cases with ⟨-, t, ht, hact⟩ | ⟨-, hno⟩
      · simp [hbar'.not_active ht] at hact
      · exact fun t ht => (hno t ht).2
    exact ⟨hno, hcalm.steady hrel' hlast' hinfo'⟩

lemma WellFormed.exists_root (wf : WellFormed e) (ht : t ∈ e.tasks) :
    ∃ r ∈ e.tasks, r.dependsOn = [] := by
  induction h : t.index using Nat.strong_induction_on generalizing t with
  | _ n ih =>
    by_cases hd : t.dependsOn = []
    · exact ⟨t, ht, hd⟩
    · obtain ⟨d, hd⟩ := List.exists_mem_of_ne_nil _ hd
      obtain ⟨p, hp, -, -, hlt⟩ := wf.parent t ht d hd
      exact ih p.index (h ▸ hlt) hp rfl

lemma Ready.began_steady (wf : WellFormed e) (h : Ready e w) (hb : Began env w e.tasks w w')
    (hgo : ∃ t ∈ e.tasks, t.dependsOn = [] ∧ w.st t.id = .scheduled)
    (hinfo : InfoReady e w') (hrel : Released e w'.st) (previous : ExecutionStatus) :
    Steady e (setTasksExecutionStatus previous .running w') := by
  have hlive : ∀ t ∈ e.tasks, (w'.st t.id).isFinalized = false := by
    intro t ht
    rw [hb.mem t ht]
    split
    · rfl
    · rcases h.fresh.statuses t ht with h | ⟨h, -⟩ <;> rw [h] <;> rfl
  refine ⟨by simpa using hrel, fun _ => ⟨fun t ht hs => ?_, ?_⟩, by simp, fun hs => ?_, by simp,
    by simp [LastOk], fun t ht => by simpa using hinfo t ht⟩
  · rw [st_setTasksExecutionStatus] at hs ⊢
    have hne : t.dependsOn ≠ [] := by
      intro hd
      have hst := hs
      rw [hb.mem t ht] at hst
      split at hst
      · simp at hst
      · rename_i hno
        exact hno ⟨hd, hst⟩
    obtain ⟨d, hd⟩ := List.exists_mem_of_ne_nil _ hne
    obtain ⟨p, hp, rfl, -⟩ := wf.parent t ht d hd
    exact ⟨_, hd, hlive p hp⟩
  · obtain ⟨t, ht, hgo⟩ := hgo
    refine ⟨t, ht, ?_⟩
    rw [st_setTasksExecutionStatus, hb.mem t ht, if_pos hgo]
    rfl
  · simp only [status_setTasksExecutionStatus] at hs
    cases hs

lemma beginTasks_spec (wf : strong → WellFormed e) (hready : strong → Ready e w)
    (hlast : w.status = .unexecuted ∨ w.lastExecutionStatus = .awaitingMinionAllocations) :
    Changes e conf strong ok w (beginTasks e env w w).2 ∧
      (strong → Steady e (beginTasks e env w w).2) := by
  rcases @beginLoop_spec e conf strong ok env w w _ [] e.nodup (fun t ht => ht) (fun t _ => rfl) with
    ⟨started, db', hres, hch, hb, hst⟩ |
      ⟨err, db₁, w₁, done, -, hch, hb, ⟨a, ha, -, hd, hw₁⟩, hres⟩
  · simp only [beginTasks, hres]
    split
    · rename_i hnil
      refine ⟨hch, fun hs => ?_⟩
      have hempty : ∀ t, t ∉ e.tasks := by
        intro t ht
        obtain ⟨r, hr, hroot⟩ := (wf hs).exists_root ht
        rcases (hready hs).fresh.statuses r hr with h | ⟨-, h⟩
        · exact (hst.mp hnil).2 r hr ⟨hroot, h⟩
        · exact (wf hs).onErrorParents r hr h hroot
      refine .of_empty (List.eq_nil_iff_forall_not_mem.mpr hempty) ?_ ?_
        ((hready hs).last.changes hch) <;> rw [hb.status] <;>
        rcases (hready hs).status with h | h <;> simp [h]
    · rename_i hne
      have hstep : Change e conf strong ok db' (setTasksExecutionStatus w.status .running db') := by
        rw [← hb.status]
        refine .begun ?_
        rwa [hb.status, hb.last]
      refine ⟨hch.tail hstep, fun hs => ?_⟩
      have hgo : ∃ t ∈ e.tasks, t.dependsOn = [] ∧ w.st t.id = .scheduled := by
        by_contra hno
        exact hne (hst.mpr ⟨rfl, fun t ht hgo => hno ⟨t, ht, hgo⟩⟩)
      exact (hready hs).began_steady (wf hs) hb hgo ((hready hs).info.changes hch)
        ((hready hs).released.changes (wf hs) hch) _
  · simp only [beginTasks, hres]
    have hchange : Change e conf strong ok db₁ (enterCancellation e env false w₁) := by
      rcases hw₁ with rfl | rfl
      · exact .notScheduled ha hd
      · exact .castRaised ha hd
    have hstatus : w₁.status = w.status := by
      rcases hw₁ with rfl | rfl <;> simpa using hb.status
    have hkept := fun hs => (hready hs).failed_kept (wf hs) hch hb hw₁
    refine ⟨hch.trans (.head hchange
      (cancelTasksExecution_changes wf (fun hs => (hkept hs).1) fun hs hact => ?_)), fun hs => ?_⟩
    · rcases (hready hs).status with h | h
      · exact .inl (hstatus.trans h)
      · rw [hstatus, h] at hact
        cases hact
    · obtain ⟨hrel, hlast, hinfo⟩ := hkept hs
      exact ((hready hs).failed_steady (wf hs) (List.ne_nil_of_mem ha) hstatus hrel hlast hinfo
        ((hready hs).failed_unbegun hb hw₁)).2.2

end Coriolis.Conductor

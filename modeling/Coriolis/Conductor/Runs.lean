import Coriolis.Conductor.Steady

/-!
# Runs of handler calls

`step_spec`: every handler call is a path of changes and keeps `Steady`. A run is any
finite sequence of calls on an execution, each with its own answers from the services the
conductor talks to; an invariant of changes is then an invariant of runs.
-/

namespace Coriolis.Conductor

variable {e : Execution} {conf : Conf} {strong : Prop} {ok : World → Report → Prop} {env : Env}
  {w w' : World}

/-- What a worker says of the progress of its task is ignored, or the task is moved. -/
lemma step_progress (hc : c.report? = some (.progress t)) :
    (step e conf env c w).2 = w ∨ ∃ new host processId details, (w.st t.id, new) ∈ moves ∧
      (step e conf env c w).2 =
        (w.setTaskHostProperties t.id host processId).setTaskStatus t.id new details := by
  cases c with
  | setTaskHost t' host =>
    cases hc
    simp only [step, setTaskHost]
    split_ifs with h1 h2 h3
    · exact .inl rfl
    · exact .inr ⟨_, _, _, _, by simp [h2, moves], rfl⟩
    · exact .inl rfl
    · exact .inr ⟨_, _, _, _, by simp [not_not.mp h3, moves], rfl⟩
  | setTaskProcess t' processId =>
    cases hc
    simp only [step, setTaskProcess]
    split_ifs with h1 h2
    · exact .inl rfl
    · exact .inl rfl
    · refine .inr ⟨_, _, _, _, ?_, rfl⟩
      have hst : w.st t.id = .starting ∨ w.st t.id = .cancellingAfterCompletion := by
        by_contra h
        exact h2 (not_or.mp h)
      rcases hst with hst | hst <;> simp [hst, moves]
  | _ => cases hc

lemma step_progress_of_idle (hc : c.report? = some (.progress t))
    (hidle : (w.st t.id).isActive = false) : (step e conf env c w).2 = w := by
  refine (step_progress hc).resolve_right ?_
  rintro ⟨new, host, processId, details, hm, -⟩
  simp [(active_of_moves hm).1] at hidle

lemma Steady.moved (hs : Steady e w) (ht : t ∈ e.tasks)
    (haw : w.status ≠ .awaitingMinionAllocations) (hm : (w.st t.id, new) ∈ moves)
    (host : Option String) (processId : Option Nat) (details : Option String) :
    Steady e ((w.setTaskHostProperties t.id host processId).setTaskStatus t.id new details) := by
  obtain ⟨hold, hnew⟩ := active_of_moves hm
  have hst : ((w.setTaskHostProperties t.id host processId).setTaskStatus t.id new details).st =
      Function.update w.st t.id new := by simp
  have hno : new ≠ .scheduled := TaskStatus.isActive_ne hnew (by decide)
  have hno' : new ≠ .onErrorOnly := TaskStatus.isActive_ne hnew (by decide)
  refine ⟨hst ▸ hs.released.update hno hno', fun hrun => ⟨fun s hs' hsch => ?_, t, ht, ?_⟩,
    fun h => absurd h haw, fun hover => ⟨fun s hs' => ?_, fun hf s hs' => ?_⟩, fun hun => ?_,
    hs.last, hs.info⟩
  · rw [hst] at hsch ⊢
    have hne : s.id ≠ t.id := fun h => by simp [h, hno] at hsch
    rw [Function.update_of_ne hne] at hsch
    obtain ⟨d, hd, hfin⟩ := (hs.running hrun).1 s hs' hsch
    refine ⟨d, hd, ?_⟩
    by_cases hdt : d = t.id
    · simpa [hdt] using TaskStatus.isActive_not_isFinalized hnew
    · rwa [Function.update_of_ne hdt]
  · simpa [hst] using hnew
  · rw [hst]
    by_cases hne : s.id = t.id
    · simpa [hne] using hno
    · simpa [Function.update_of_ne hne] using (hs.ended hover).1 s hs'
  · rw [hst]
    by_cases hne : s.id = t.id
    · simpa [hne] using hno'
    · simpa [Function.update_of_ne hne] using (hs.ended hover).2 hf s hs'
  · have := TaskStatus.isFinalized_of_isSettled (hs.unexecuted hun t ht)
    simp [TaskStatus.isActive_not_isFinalized hold] at this

/-- What `_handle_post_task_actions` does to the database: nothing, an action, new volumes of the
instance or, after the update of a destination beside which no task is active, also the new
parameters of the transfer. -/
inductive PostTask (e : Execution) (t : Task) (x : World) (info : TaskInfo) (w : World) :
    World → Prop
  | nothing : PostTask e t x info w w
  | action {a} (ha : ∀ v, a ≠ .updateTransfer v) :
      PostTask e t x info w (w.emit (.postTaskAction a))
  | volumes : PostTask e t x info w (updateVolumesInfo t info w)
  | parameters (hty : t.taskType = .updateDestinationTransfer)
      (hother : otherTasksRunning e x t = false) :
      PostTask e t x info w
        ((updateVolumesInfo t info w).emit (.postTaskAction (.updateTransfer info)))

lemma PostTask.kept (h : PostTask e t x info w w') : Bookkeeping w w' := by
  cases h with
  | nothing => exact .refl w
  | action => exact .postTaskAction w _
  | volumes => exact .updateInfo w _ _
  | parameters => exact (Bookkeeping.updateInfo w _ _).trans (.postTaskAction _ _)

lemma PostTask.updateMinionMachine (pool : String) :
    PostTask e t x info w (updateMinionMachine pool info w).2 := by
  simp only [Conductor.updateMinionMachine]
  split
  · exact .nothing
  · split
    · exact .nothing
    · exact .action (by simp)

lemma updateMinionMachine_ok
    (h1 : (info.get? (pool ++ "_minion_provider_properties")).isSome = true)
    (h2 : (info.get? (pool ++ "_minion_machine_id")).isSome = true) :
    (updateMinionMachine pool info w).1 = .ok () := by
  obtain ⟨v, hv⟩ := Option.isSome_iff_exists.mp h1
  obtain ⟨v', hv'⟩ := Option.isSome_iff_exists.mp h2
  simp [updateMinionMachine, hv, hv']

lemma PostTask.releaseMinion (pool : String) :
    PostTask e t x info w (releaseMinion pool info w).2 := by
  simp only [Conductor.releaseMinion]
  split
  · exact .nothing
  · exact .action (by simp)

lemma releaseMinion_ok (h : (info.get? (pool ++ "_minion_machine_id")).isSome = true) :
    (releaseMinion pool info w).1 = .ok () := by
  obtain ⟨v, hv⟩ := Option.isSome_iff_exists.mp h
  simp [releaseMinion, hv]

lemma PostTask.releaseDestinationMinion :
    PostTask e t x info w (releaseDestinationMinion info w).2 := by
  simp only [Conductor.releaseDestinationMinion]
  split
  · exact .nothing
  · split
    · exact .nothing
    · exact .action (by simp)

lemma releaseDestinationMinion_ok (h : (info.get? "destination_minion_machine_id").isSome = true) :
    (releaseDestinationMinion info w).1 = .ok () := by
  obtain ⟨v, hv⟩ := Option.isSome_iff_exists.mp h
  simp only [releaseDestinationMinion, hv]
  split <;> rfl

lemma handlePostTaskActions_postTask (x : World) (info : TaskInfo) :
    PostTask e t x info w (handlePostTaskActions e conf t x info w).2 := by
  unfold handlePostTaskActions
  split
  · split
    · split
      · exact .action (by simp)
      · exact .nothing
    · exact .nothing
  · split
    · exact .nothing
    · exact .action (by simp)
  · split
    · split
      · exact .action (by simp)
      · exact .nothing
    · exact .nothing
  · exact .volumes
  · rename_i hty
    simp only
    split
    · exact .volumes
    · rename_i hother
      exact .parameters hty (by simpa using hother)
  iterate 6 exact .updateMinionMachine _
  · exact .releaseMinion _
  · exact .releaseDestinationMinion
  · exact .releaseMinion _
  · exact .nothing

lemma handlePostTaskActions_ok
    (h : ∀ key ∈ requiredKeys t.taskType, (info.get? key).isSome = true) :
    (handlePostTaskActions e conf t x info w).1 = .ok () := by
  unfold handlePostTaskActions
  split <;> rename_i hty <;> simp only [hty, requiredKeys, List.mem_cons, List.not_mem_nil,
    or_false, forall_eq_or_imp, forall_eq] at h
  · split
    · split <;> rfl
    · rfl
  · split <;> rfl
  · split
    · split <;> rfl
    · rfl
  · rfl
  · simp only
    split <;> rfl
  iterate 6 exact updateMinionMachine_ok h.1 h.2
  · exact releaseMinion_ok h
  · exact releaseDestinationMinion_ok h
  · exact releaseMinion_ok h
  · rfl

lemma storeTaskResult_kept (h : storeTaskResult t result w = (res, w')) : Bookkeeping w w' := by
  obtain rfl : (storeTaskResult t result w).2 = w' := congrArg Prod.snd h
  simp only [storeTaskResult]
  split
  · split <;> exact .refl w
  · exact .updateInfo w _ _

lemma storeTaskResult_ok (hi : InfoReady e w) (ht : t ∈ e.tasks) (result : TaskInfo) :
    ∃ info, (storeTaskResult t result w).1 = .ok info ∧
      ∀ key ∈ requiredKeys t.taskType, (info.get? key).isSome = true := by
  obtain ⟨info, hinfo, hkeys⟩ := hi t ht
  simp only [storeTaskResult]
  split
  · exact ⟨info, by simp [hinfo], hkeys⟩
  · rename_i hne
    refine ⟨info.update result, ?_, fun key hkey => ?_⟩
    · simp [World.updateTransferActionInfoForInstance, hne, hinfo]
    · simp [TaskInfo.get?_update, hkeys key hkey]

/-- What `task_completed` is made of: nothing but a note of the report when the task is over, else
the new status and the stored result, the post-task action, and the advance of the execution. What
makes it raise is the want of an info. -/
inductive Completion (e : Execution) (env : Env) (t : Task) (result : TaskInfo) (w w' : World) : Prop
  | dropped (hc : completionStatus (w.rows t.id) = none) (h : w' = w.emit (.taskCompleted t.id))
  | raised {s details err} (hc : completionStatus (w.rows t.id) = some (s, details))
      (hres : storeTaskResult t result
        ((w.emit (.taskCompleted t.id)).setTaskStatus t.id s details) = (.error err, w'))
      (hnot : t ∈ e.tasks → ¬InfoReady e w)
  | taken {s details info w₁ w₂} (hc : completionStatus (w.rows t.id) = some (s, details))
      (hres : storeTaskResult t result
        ((w.emit (.taskCompleted t.id)).setTaskStatus t.id s details) = (.ok info, w₁))
      (hpost : PostTask e t w₁ info w₁ w₂)
      (h : w' = w₂ ∧ (t ∈ e.tasks → ¬InfoReady e w) ∨
        w' = (advanceExecutionState e env w₁ false (some t.inst) w₂).2)

lemma taskCompleted_completion (result : TaskInfo) :
    Completion e env t result w (taskCompleted e conf env t result w).2 := by
  simp only [taskCompleted]
  split
  · exact .dropped ‹_› rfl
  rename_i s details hc
  have hstored (ht : t ∈ e.tasks) (hready : InfoReady e w) := storeTaskResult_ok
    (w := (w.emit (.taskCompleted t.id)).setTaskStatus t.id s details) hready ht result
  split <;> rename_i hres <;> rw [hres] at hstored
  · refine .raised hc hres fun ht hready => ?_
    obtain ⟨info, hinfo, -⟩ := hstored ht hready
    cases hinfo
  rename_i info w₁
  refine .taken hc hres (@handlePostTaskActions_postTask e conf w₁ t w₁ info) ?_
  rcases hpost : handlePostTaskActions e conf t w₁ info w₁ with ⟨err | u, w₂⟩
  · refine .inl ⟨rfl, fun ht hready => ?_⟩
    obtain ⟨_, hinfo, hkeys⟩ := hstored ht hready
    cases hinfo
    have := @handlePostTaskActions_ok e conf w₁ t w₁ _ hkeys
    rw [hpost] at this
    cases this
  · exact .inr rfl

/-- How a completion ends: the report is dropped, or the books are kept and what follows raises,
for want of an info, or the execution is advanced. -/
lemma taskCompleted_cases (result : TaskInfo) :
    completionStatus (w.rows t.id) = none ∧
        (taskCompleted e conf env t result w).2 = w.emit (.taskCompleted t.id) ∨
      ∃ s details w₁, completionStatus (w.rows t.id) = some (s, details) ∧
        Bookkeeping ((w.emit (.taskCompleted t.id)).setTaskStatus t.id s details) w₁ ∧
        ((taskCompleted e conf env t result w).2 = w₁ ∧ (t ∈ e.tasks → ¬InfoReady e w) ∨
          ∃ x : World, x.st = w₁.st ∧ x.status = w₁.status ∧
            (taskCompleted e conf env t result w).2 =
              (advanceExecutionState e env x false (some t.inst) w₁).2) := by
  cases @taskCompleted_completion e conf env w t result with
  | dropped hc h => exact .inl ⟨hc, h⟩
  | raised hc hres hnot => exact .inr ⟨_, _, _, hc, storeTaskResult_kept hres, .inl ⟨rfl, hnot⟩⟩
  | @taken s details info w₁ w₂ hc hres hpost h =>
    exact .inr ⟨s, details, w₂, hc, (storeTaskResult_kept hres).trans hpost.kept, h.imp_right fun h =>
      ⟨w₁, hpost.kept.st.symm, hpost.kept.status.symm, h⟩⟩

lemma Steady.of_st_eq (hs : Steady e w) (haw : w.status ≠ .awaitingMinionAllocations)
    (hst : w'.st = w.st) (hstatus : w'.status = w.status) (hlast : LastOk w')
    (hinfo : InfoReady e w') : Steady e w' := by
  refine ⟨hst ▸ hs.released, ?_, fun h => absurd (hstatus ▸ h) haw, ?_, ?_, hlast, hinfo⟩ <;>
    rw [hst, hstatus]
  · exact hs.running
  · exact hs.ended
  · exact hs.unexecuted

lemma Steady.settle (hs : Steady e w) (hover : w.status.isActive = false) {id : TaskId}
    (hset : s.isSettled = true) (hst : w'.st = Function.update w.st id s)
    (hstatus : w'.status = w.status) (hlast : LastOk w') (hinfo : InfoReady e w') :
    Steady e w' := by
  have hne : ∀ {s'}, s'.isSettled = false → ∀ t ∈ e.tasks, w.st t.id ≠ s' → w'.st t.id ≠ s' := by
    intro s' hs' t _ h
    rw [hst]
    by_cases hti : t.id = id
    · simpa [hti] using ne_of_isSettled hset hs'
    · rwa [Function.update_of_ne hti]
  refine .of_over (hstatus ▸ hover) (fun t ht => hne rfl t ht ((hs.ended hover).1 t ht))
    (fun hf t ht => hne rfl t ht ((hs.ended hover).2 (hstatus ▸ hf) t ht)) (fun hun t ht => ?_)
    hlast hinfo
  rw [hst]
  by_cases hti : t.id = id
  · simpa [hti] using hset
  · simpa [Function.update_of_ne hti] using hs.unexecuted (hstatus ▸ hun) t ht

lemma advance_over (hact : w.status.isActive = false) (hx : x.st = w.st)
    (hxs : x.status = w.status) (hno : ∀ t ∈ e.tasks, w.st t.id ≠ .scheduled) :
    (advanceExecutionState e env x requery inst w).2 = w := by
  rw [advanceExecutionState_inactive hact hx hxs, isDeadlocked_of_no_scheduled hno]
  simp

lemma self_mem_tasksToProcess (ht : t ∈ e.tasks) : t ∈ tasksToProcess e (some t.inst) := by
  simp only [tasksToProcess]
  split
  · exact ht
  · simp [ht]

section

variable (wf : strong → WellFormed e) (hst : strong → Steady e w)
  (haw : strong → w.status ≠ .awaitingMinionAllocations) (ht : t ∈ e.tasks)

include wf hst haw ht

lemma advance_report {inst : Option String} (hinst : inst = none ∨ inst = some t.inst) {x : World}
    {requery : Bool} {s : TaskStatus} (hset : s.isSettled = true)
    (hw' : w'.st = Function.update w.st t.id s) (hstatus : w'.status = w.status) (hx : x.st = w'.st)
    (hxs : x.status = w'.status) (hlast : strong → LastOk w') (hinfo : strong → InfoReady e w') :
    Changes e conf strong ok w' (advanceExecutionState e env x requery inst w').2 ∧
      (strong → Steady e (advanceExecutionState e env x requery inst w').2) := by
  have hmem : t ∈ tasksToProcess e inst := by
    rcases hinst with rfl | rfl
    · exact ht
    · exact self_mem_tasksToProcess ht
  have hrel : strong → Released e w'.st := fun hs => hw' ▸ (hst hs).released.of_isSettled hset
  by_cases hact : w'.status.isActive = true
  · have hother : strong → ∀ u ∈ e.tasks, u ∉ tasksToProcess e inst → Settled w'.st u := by
      intro hs u hu hnot
      have hrun : w.status = .running ∨ w.status = .cancelling := by
        have h1 := haw hs
        rw [hstatus] at hact
        revert h1 hact
        cases w.status <;> decide
      obtain ⟨h1, h2⟩ := not_mem_dependsOn_of_not_mem (wf hs) hu hnot hmem
      rw [hw']
      exact (((hst hs).running hrun).1 u hu).update h2 h1
    obtain ⟨h1, h2⟩ := @advanceExecutionState_active e conf strong ok env w' wf inst x
      requery hact hx hxs hrel hother
    refine ⟨h1, fun hs => (h2 hs (List.ne_nil_of_mem hmem)).steady
      ((hrel hs).changes (wf hs) h1) ((hlast hs).changes h1) ((hinfo hs).changes h1)⟩
  · have hact : w'.status.isActive = false := by simpa using hact
    refine ⟨?_, fun hs => ?_⟩
    · rw [advanceExecutionState_inactive hact hx hxs]
      split
      · rename_i hd
        refine .single (.deadlocked hd fun hs => ?_)
        have := (hst hs).settle (hstatus ▸ hact) hset hw' hstatus (hlast hs) (hinfo hs)
        simp [isDeadlocked_of_no_scheduled (this.ended hact).1] at hd
      · exact .refl
    · have := (hst hs).settle (hstatus ▸ hact) hset hw' hstatus (hlast hs) (hinfo hs)
      rwa [advance_over hact hx hxs (this.ended hact).1]

lemma taskCompleted_spec (hok : ok w (.completion t)) (result : TaskInfo) :
    Changes e conf strong ok w (taskCompleted e conf env t result w).2 ∧
      (strong → Steady e (taskCompleted e conf env t result w).2) := by
  rcases @taskCompleted_cases e conf env w t result with ⟨hc, h⟩ | ⟨s, details, w₁, hc, hkept, h⟩
  · rw [h]
    exact ⟨.single (.dropped ht hok hc), fun hs => (hst hs).of_st_eq (haw hs) rfl rfl (hst hs).last
      (hst hs).info⟩
  have hch₁ : Changes e conf strong ok w w₁ :=
    (Relation.ReflTransGen.single (.completed ht hok hc)).tail (.kept hkept)
  rcases h with ⟨h, hnot⟩ | ⟨x, hx, hxs, h⟩ <;> rw [h]
  · exact ⟨hch₁, fun hs => absurd (hst hs).info (hnot ht)⟩
  have hst₁ : w₁.st = Function.update w.st t.id s := by
    rw [hkept.st]
    simp
  obtain ⟨h1, h2⟩ := @advance_report t e conf strong ok env w w₁ wf hst haw ht _ (.inr rfl)
    x false _ (completionStatus_isSettled hc) hst₁ hkept.status hx hxs
    (fun hs => (hst hs).last.changes hch₁) (fun hs => (hst hs).info.changes hch₁)
  exact ⟨hch₁.trans h1, h2⟩

lemma confirmTaskCancellation_spec (hok : ok w (.cancellation t)) (details : String) :
    Changes e conf strong ok w (confirmTaskCancellation e env t details w).2 ∧
      (strong → Steady e (confirmTaskCancellation e env t details w).2) := by
  have hch : Changes e conf strong ok w (w.cancelConfirmed t details) :=
    .single (.cancelConfirmed ht hok)
  have hset := cancellationStatus_isSettled (w.rows t.id) details
  simp only [confirmTaskCancellation]
  split
  · rename_i hsame
    have hst' : (w.cancelConfirmed t details).st = w.st := by
      rw [cancelConfirmed_st, hsame, Function.update_eq_self]
    exact ⟨hch, fun hs => (hst hs).of_st_eq (haw hs) hst' rfl (hst hs).last (hst hs).info⟩
  · obtain ⟨h1, h2⟩ := @advance_report t e conf strong ok env w (w.cancelConfirmed t details)
      wf hst haw ht none (.inl rfl) (w.cancelConfirmed t details) false _ hset (cancelConfirmed_st w t details) rfl rfl rfl
      (fun hs => (hst hs).last.changes hch) (fun hs => (hst hs).info.changes hch)
    exact ⟨hch.trans h1, h2⟩

end

lemma not_precedesMorphing_osMorphing (h : precedesMorphing ty = true) :
    ty ≠ .osMorphing := by
  rintro rfl
  simp [precedesMorphing] at h

/-- When only OSMorphing tasks are active, no task up to the OSMorphing waits: following
its parents would lead to an active one. -/
lemma Steady.no_morphing_scheduled (wf : WellFormed e) (hs : Steady e w)
    (hrun : w.status = .running ∨ w.status = .cancelling)
    (honly : ∀ p ∈ e.tasks, precedesMorphing p.taskType = true → (w.st p.id).isActive = false)
    (hs' : s ∈ e.tasks) (hty : precedesMorphing s.taskType = true ∨ s.taskType = .osMorphing) :
    w.st s.id ≠ .scheduled := by
  induction h : s.index using Nat.strong_induction_on generalizing s with
  | _ n ih =>
    intro hsch
    obtain ⟨d, hd, hfin⟩ := (hs.running hrun).1 s hs' hsch
    obtain ⟨p, hp, rfl, -, hlt⟩ := wf.parent s hs' d hd
    have hpre := wf.morphing s hs' hty p hp hd
    rcases TaskStatus.not_isFinalized hfin with hps | hps | hps
    · exact ih p.index (h ▸ hlt) hp (.inl hpre) rfl hps
    · exact hs.released s hs' hsch _ hd hps
    · simp [honly p hp hpre] at hps

lemma Steady.no_scheduled_debugging (wf : WellFormed e) (hs : Steady e w)
    (haw : w.status ≠ .awaitingMinionAllocations) (ht : t ∈ e.tasks)
    (hty : t.taskType = .osMorphing)
    (hrun : ∀ s ∈ e.tasks, ((w.errored t details).st s.id).isActive = true →
      s.taskType = .osMorphing)
    (hw₂ : cancelExecutionForOsmorphingDebugging (w.errored t details) e.tasks
      (w.errored t details) = (.ok (), w₂)) :
    ∀ s ∈ e.tasks, w₂.st s.id ≠ .scheduled := by
  intro s hs' hsch
  rw [debugging_st hrun hw₂ hs'] at hsch
  split at hsch
  · simp at hsch
  rename_i hmark
  have hmor : s.taskType = .osMorphing := by
    by_contra h
    exact hmark ⟨h, .inl hsch⟩
  have hsch : w.st s.id = .scheduled := by
    rw [errored_st] at hsch
    by_cases hst : s.id = t.id
    · rw [hst, Function.update_self] at hsch
      exact absurd hsch (ne_of_isSettled (errorStatus_isSettled _ _ _) (by decide))
    · rwa [Function.update_of_ne hst] at hsch
  by_cases hact : w.status.isActive = true
  · have hst : w.status = .running ∨ w.status = .cancelling := by
      revert haw hact
      cases w.status <;> decide
    refine hs.no_morphing_scheduled wf hst (fun p hp hpre => ?_) hs' (.inr hmor) hsch
    by_contra hpa
    have hpt : p.id ≠ t.id := fun h =>
      not_precedesMorphing_osMorphing hpre (task_eq_of_id hp ht h ▸ hty)
    refine not_precedesMorphing_osMorphing hpre (hrun p hp ?_)
    rw [errored_st, Function.update_of_ne hpt]
    simpa using hpa
  · exact (hs.ended (by simpa using hact)).1 s hs' hsch

/-- A cancellation of an execution that is over but not in one of the statuses the guard
of `_cancel_tasks_execution` knows: the loop finds nothing to do. -/
lemma Steady.cancel_over (hs : Steady e w) (hover : w.status.isActive = false)
    (hfin : w.status.inFinalizedTaskStatuses = false)
    (hlast : LastOk (enterCancellation e env force w))
    (hinfo : InfoReady e (enterCancellation e env force w)) :
    isDeadlocked e (enterCancellation e env force w).st = false ∧
      Steady e (cancelTasksExecution e env x true force w).2 := by
  obtain ⟨hno, hno'⟩ := hs.ended hover
  have hrun : w.status ≠ .running := by
    rintro h
    rw [h] at hover
    cases hover
  have hstatus : (enterCancellation e env force w).status = w.status := by
    rw [enterCancellation_status, if_neg hrun]
  have hwait : ∀ t ∈ e.tasks, ((enterCancellation e env force w).st t.id).isWaiting = false := by
    intro t ht
    by_contra h
    have h' : (w.st t.id).isWaiting = true := by
      rw [enterCancellation_st ht] at h
      split at h
      · exact cancelledStatus_isWaiting (by simpa using h)
      · simpa using h
    simp [TaskStatus.isWaiting, hno t ht, hno' hfin t ht] at h'
  have hns : ∀ t ∈ e.tasks, (enterCancellation e env force w).st t.id ≠ .scheduled := by
    intro t ht h
    have := hwait t ht
    simp [h, TaskStatus.isWaiting] at this
  have hnoe : ∀ t ∈ e.tasks, (enterCancellation e env force w).st t.id ≠ .onErrorOnly := by
    intro t ht h
    have := hwait t ht
    simp [h, TaskStatus.isWaiting] at this
  refine ⟨isDeadlocked_of_no_scheduled hns, ?_⟩
  rw [cancelTasksExecution_world hfin, advance_over (hstatus ▸ hover) rfl rfl hns]
  refine .of_over (hstatus ▸ hover) hns (fun _ => hnoe) (fun hun t ht => ?_) hlast hinfo
  have hset := hs.unexecuted (hstatus ▸ hun) t ht
  rw [enterCancellation_st ht]
  split
  · rwa [cancelledStatus_of_isSettled hset]
  · exact hset

lemma errored_spec (wf : strong → WellFormed e) (hst : strong → Steady e w)
    (ht : t ∈ e.tasks) (hok : ok w (.failure t)) (details : String) (x : World) :
    Changes e conf strong ok w
        (cancelTasksExecution e env x true false (w.errored t details)).2 ∧
      (strong → Steady e
        (cancelTasksExecution e env x true false (w.errored t details)).2) := by
  have hset := errorStatus_isSettled t (w.rows t.id) details
  have hch : Change e conf strong ok w
      (enterCancellation e env false (w.errored t details)) := .errored ht hok
  have hrel : strong → Released e (w.errored t details).st := fun hs => by
    rw [errored_st]
    exact (hst hs).released.of_isSettled hset
  have hlast : strong → LastOk (w.errored t details) := fun hs => (hst hs).last
  have hinfo : strong → InfoReady e (w.errored t details) := fun hs => (hst hs).info
  have hsteady : strong → w.status.isActive = false → Steady e (w.errored t details) :=
    fun hs hover => (hst hs).settle hover hset (errored_st w t details) rfl (hlast hs) (hinfo hs)
  have hover : strong → w.status.isActive = false → w.status.inFinalizedTaskStatuses = false →
      isDeadlocked e (enterCancellation e env false (w.errored t details)).st = false ∧
        Steady e (cancelTasksExecution e env x true false (w.errored t details)).2 :=
    fun hs h1 h2 => (hsteady hs h1).cancel_over h1 h2 (hlast hs).enterCancellation
      fun u hu => by simpa using hinfo hs u hu
  have hfinal : w.status.inFinalizedTaskStatuses = true →
      enterCancellation e env false (w.errored t details) = w.errored t details := fun hfin => by
    simp [enterCancellation, cancelLoops, hfin]
  refine ⟨.head hch (cancelTasksExecution_changes wf hrel fun hs hact => .inr ?_), fun hs => ?_⟩
  · by_cases hfin : w.status.inFinalizedTaskStatuses = true
    · rw [hfinal hfin]
      exact isDeadlocked_of_no_scheduled ((hsteady hs hact).ended hact).1
    · exact (hover hs hact (by simpa using hfin)).1
  · by_cases hact : w.status.isActive = true
    · obtain ⟨h1, h2⟩ := @cancelTasksExecution_active e conf strong ok env (w.errored t details)
        wf x false hact hrel
      exact (h2 hs (List.ne_nil_of_mem ht)).steady
        (((hrel hs).enterCancellation (wf hs)).changes (wf hs) h1)
        ((hlast hs).enterCancellation.changes h1)
        (InfoReady.changes h1 fun u hu => by simpa using hinfo hs u hu)
    · have hact : w.status.isActive = false := by simpa using hact
      by_cases hfin : w.status.inFinalizedTaskStatuses = true
      · rw [cancelTasksExecution_finalized (w := w.errored t details) hfin]
        exact hsteady hs hact
      · exact (hover hs hact (by simpa using hfin)).2

lemma setTaskError_cases (details : String) :
    (setTaskError e conf env t details w).2 =
        (cancelTasksExecution e env (w.errored t details) true false (w.errored t details)).2 ∨
      ∃ w₂ text, t.taskType = .osMorphing ∧ conf.debugOsMorphingErrors = true ∧
        (∀ s ∈ e.tasks, ((w.errored t details).st s.id).isActive = true →
          s.taskType = .osMorphing) ∧
        cancelExecutionForOsmorphingDebugging (w.errored t details) e.tasks (w.errored t details) =
          (.ok (), w₂) ∧
        (setTaskError e conf env t details w).2 =
          setTasksExecutionStatus w.status .canceledForDebugging
            (w₂.setTaskStatus t.id (errorStatus t (w.rows t.id) details).1 text) := by
  change (handleTaskError e conf env t _ _ (w.errored t details)).2 = _ ∨
    ∃ w₂ text, _ ∧ _ ∧ _ ∧ _ ∧ (handleTaskError e conf env t _ _ (w.errored t details)).2 = _
  simp only [handleTaskError]
  split
  · rename_i hdebug
    split
    · rename_i hempty
      have hrun : ∀ s ∈ e.tasks, ((w.errored t details).st s.id).isActive = true →
          s.taskType = .osMorphing := by
        intro s hs hact
        by_contra hne
        exact List.filter_eq_nil_iff.mp (List.isEmpty_iff.mp hempty) s hs
          (by rw [hact]; simpa using hne)
      have hw₂ := cancelExecutionForOsmorphingDebugging_eq (w.errored t details) hrun
      refine .inr ⟨_, ?text, hdebug.1, hdebug.2, hrun, hw₂, ?ends⟩
      case ends =>
        simp only [hw₂]
        rfl
    · exact .inl rfl
  · exact .inl rfl

lemma setTaskError_spec (wf : strong → WellFormed e) (hst : strong → Steady e w)
    (haw : strong → w.status ≠ .awaitingMinionAllocations) (ht : t ∈ e.tasks) (hok : ok w (.failure t))
    (details : String) :
    Changes e conf strong ok w (setTaskError e conf env t details w).2 ∧
      (strong → Steady e (setTaskError e conf env t details w).2) := by
  rcases @setTaskError_cases e conf env w t details with
    h | ⟨w₂, text, hty, hdebug, hrun, hw₂, h⟩ <;> rw [h]
  · exact errored_spec wf hst ht hok details _
  have hno : strong → ∀ s ∈ e.tasks, w₂.st s.id ≠ .scheduled := fun hs =>
    (hst hs).no_scheduled_debugging (wf hs) (haw hs) ht hty hrun hw₂
  have hch := @Change.debugged e conf strong ok w w₂ t details text ht hok hty hdebug hrun hw₂ hno
  refine ⟨.single hch, fun hs => ?_⟩
  have hset := errorStatus_isSettled t (w.rows t.id) details
  have hns : ∀ s ∈ e.tasks,
      Function.update w₂.st t.id (errorStatus t (w.rows t.id) details).1 s.id ≠ .scheduled := by
    intro s hs'
    by_cases hst : s.id = t.id
    · simpa [hst] using ne_of_isSettled hset (by decide)
    · simpa [Function.update_of_ne hst] using hno hs s hs'
  refine .of_over (by simp; rfl) (by simpa using hns) (fun h => ?_) (by simp) (by simp [LastOk])
    (InfoReady.change hch (hst hs).info)
  simp only [status_setTasksExecutionStatus] at h
  cases h

lemma advance_empty (hempty : e.tasks = []) (hact : w.status.isActive = true) :
    (advanceExecutionState e env w true none w).2 = w := by
  rw [advanceExecutionState, stackDepth, advance, advanceWith_eq rfl rfl]
  simp [hact, tasksToProcess, hempty]

lemma cancel_spec (wf : strong → WellFormed e) (hst : strong → Steady e w) {force : Bool}
    {x : World} (hact : w.status.isActive = true) :
    Changes e conf strong ok w (cancelTasksExecution e env x true force w).2 ∧
      (strong → Steady e (cancelTasksExecution e env x true force w).2) := by
  have hrel : strong → Released e w.st := fun hs => (hst hs).released
  obtain ⟨h1, h2⟩ := @cancelTasksExecution_active e conf strong ok env w wf x force hact hrel
  have hch := Relation.ReflTransGen.head Change.cancelRequested h1
  refine ⟨hch, fun hs => ?_⟩
  by_cases hempty : e.tasks = []
  · have hrun : ¬(w.status = .running ∨ w.status = .cancelling) := by
      intro h
      obtain ⟨t, ht, -⟩ := ((hst hs).running h).2
      simp [hempty] at ht
    obtain ⟨hrun, hcan⟩ := not_or.mp hrun
    have hworld : (cancelTasksExecution e env x true force w).2 =
        enterCancellation e env force w := by
      rw [cancelTasksExecution_world (ExecutionStatus.not_inFinalized_of_isActive hact)]
      exact advance_empty hempty (enterCancellation_isActive hact)
    refine .of_empty hempty ?_ ?_ ((hst hs).last.changes hch) <;>
      rw [hworld, enterCancellation_status, if_neg hrun]
    · exact hrun
    · exact hcan
  · exact (h2 hs hempty).steady ((hrel hs).changes (wf hs) hch) ((hst hs).last.changes hch)
      ((hst hs).info.changes hch)

lemma cancelRunning_spec (wf : strong → WellFormed e) (hst : strong → Steady e w)
    (err err' : ConductorError) (force : Bool) :
    Changes e conf strong ok w (cancelRunning e env err err' force w).2 ∧
      (strong → Steady e (cancelRunning e env err err' force w).2) := by
  simp only [cancelRunning]
  split
  · exact ⟨.refl, hst⟩
  · rename_i hact
    split
    · exact ⟨.refl, hst⟩
    · exact cancel_spec wf hst (by simpa using hact)

lemma storeMinionAllocations_kept (l : List (String × MinionAllocation)) :
    Bookkeeping w (storeMinionAllocations e l w).2 := by
  induction l generalizing w with
  | nil => exact .refl w
  | cons p l ih =>
    obtain ⟨inst, allocation⟩ := p
    simp only [storeMinionAllocations]
    split
    · split
      · exact .refl w
      · exact (Bookkeeping.updateInfo w _ _).trans ih
    · exact ih

lemma updateTaskInfoForMinionAllocations_kept (l : List (String × MinionAllocation)) :
    Bookkeeping w (updateTaskInfoForMinionAllocations e l w).2 := by
  simp only [updateTaskInfoForMinionAllocations]
  split
  · exact .refl w
  · exact storeMinionAllocations_kept l

lemma Steady.ready (hs : Steady e w) (h : w.status = .awaitingMinionAllocations) :
    Ready e w :=
  ⟨hs.awaiting h, hs.released, .inr h, hs.last, hs.info⟩

lemma Ready.kept (hr : Ready e w) (h : Bookkeeping w w') : Ready e w' := by
  refine ⟨hr.fresh.kept h, ?_, ?_, ?_, InfoReady.mono hr.info h.info⟩
  · rw [h.st]
    exact hr.released
  · rw [h.status]
    exact hr.status
  · intro hlast
    rw [h.status]
    exact hr.last (h.last ▸ hlast)

lemma confirmMinionsAllocation_spec (wf : strong → WellFormed e) (hst : strong → Steady e w)
    (l : List (String × MinionAllocation)) :
    Changes e conf strong ok w (confirmMinionsAllocation e env l w).2 ∧
      (strong → Steady e (confirmMinionsAllocation e env l w).2) := by
  simp only [confirmMinionsAllocation]
  split
  · exact ⟨.refl, hst⟩
  rename_i hlast
  have hlast : w.lastExecutionStatus = .awaitingMinionAllocations := not_not.mp hlast
  have hkept := updateTaskInfoForMinionAllocations_kept (e := e) (w := w) l
  have hready : strong → Ready e (updateTaskInfoForMinionAllocations e l w).2 := fun hs =>
    ((hst hs).ready ((hst hs).last hlast)).kept hkept
  rcases hres : updateTaskInfoForMinionAllocations e l w with ⟨err | u, w₁⟩
  · rw [hres] at hkept hready
    refine ⟨.single (.kept hkept), fun hs => ?_⟩
    have haw : w₁.status = .awaitingMinionAllocations := by
      rw [hkept.status]
      exact (hst hs).last hlast
    have hr := hready hs
    refine ⟨hr.released, by simp [haw], fun _ => hr.fresh, fun h => ?_, by simp [haw], hr.last,
      hr.info⟩
    rw [haw] at h
    cases h
  · rw [hres] at hkept hready
    obtain ⟨h1, h2⟩ := @beginTasks_spec e conf strong ok env _ wf hready
      (.inr (hkept.last.trans hlast))
    exact ⟨.head (.kept hkept) h1, h2⟩

lemma reportMinionsAllocationError_spec (wf : strong → WellFormed e)
    (hst : strong → Steady e w) (hl : LastOk w) :
    Changes e conf strong ok w (reportMinionsAllocationError e env w).2 ∧
      (strong → Steady e (reportMinionsAllocationError e env w).2) := by
  simp only [reportMinionsAllocationError]
  split
  · exact ⟨.refl, hst⟩
  rename_i hlast
  have haw : w.status = .awaitingMinionAllocations := hl (not_not.mp hlast)
  have hact : w.status.isActive = true := by rw [haw]; decide
  obtain ⟨h1, h2⟩ := @cancel_spec e conf strong ok env w wf hst false w hact
  have hemitted : (cancelTasksExecution e env w true false w).2.emitted (.cancelTasks false) := by
    have hpath := (@cancelTasksExecution_active e conf False ok env w (fun h => h.elim) w false
      hact fun h => h.elim).1
    refine ⟨_, hpath.suffix.subset (enterCancellation_event (by rw [haw]; decide)), rfl⟩
  rcases hres : cancelTasksExecution e env w true false w with ⟨err | u, w₁⟩
  · rw [hres] at h1 h2
    exact ⟨h1, h2⟩
  rw [hres] at h1 h2 hemitted
  -- nothing of the execution had begun, so the cancellation left nothing waiting
  have hbarren : strong → ∀ t ∈ e.tasks, (w₁.st t.id).isSettled = true ∧
      (w₁.st t.id).triggersCleanup = false := by
    intro hs
    by_cases hempty : e.tasks = []
    · simp [hempty]
    have hready := (hst hs).ready haw
    obtain ⟨hbar, hno, -⟩ := @Ready.failed_steady e env w (wf hs) hready w w hempty rfl
      hready.released hready.last hready.info fun t ht => by
        rcases hready.fresh.statuses t ht with h | h
        · exact .inl h
        · exact .inr (.inl h)
    rw [hres] at hbar hno
    intro t ht
    refine ⟨hbar.isSettled ht (hno t ht), ?_⟩
    rcases hbar t ht with ⟨h, -⟩ | h | h | h <;> rw [h] <;> decide
  have hne : strong → ∀ s : TaskStatus, s.isSettled = false → ∀ t ∈ e.tasks, w₁.st t.id ≠ s :=
    fun hs s h t ht => ne_of_isSettled (hbarren hs t ht).1 h
  refine ⟨h1.tail (.allocationFailed hemitted hbarren), fun hs => ?_⟩
  exact .of_over (by simp; rfl) (by simpa using hne hs .scheduled rfl)
    (fun _ => by simpa using hne hs .onErrorOnly rfl) (by simp) (by simp [LastOk])
    fun t ht => by simpa using (h2 hs).info t ht

/-- Every handler call is a path of changes, and leaves a built execution steady. -/
lemma step_spec (wf : strong → WellFormed e) (hst : strong → Steady e w) (c : Call)
    (hc : ∀ r ∈ c.report?, r.task ∈ e.tasks ∧ ok w r ∧
      (strong → w.status ≠ .awaitingMinionAllocations))
    (hl : c = .reportMinionsAllocationError → LastOk w) :
    Changes e conf strong ok w (step e conf env c w).2 ∧
      (strong → Steady e (step e conf env c w).2) := by
  have hprogress := @step_progress e conf env w c
  cases c with
  | setTaskHost t _ | setTaskProcess t _ =>
    obtain ⟨ht, hok, haw⟩ := hc _ rfl
    rcases hprogress rfl with h | ⟨new, host, processId, details, hm, h⟩ <;> rw [h]
    · exact ⟨.refl, hst⟩
    · exact ⟨.single (.moved ht hok hm), fun hs => (hst hs).moved ht (haw hs) hm _ _ _⟩
  | taskCompleted t result =>
    obtain ⟨ht, hok, haw⟩ := hc _ rfl
    exact taskCompleted_spec wf hst haw ht hok result
  | setTaskError t details =>
    obtain ⟨ht, hok, haw⟩ := hc _ rfl
    exact setTaskError_spec wf hst haw ht hok details
  | confirmTaskCancellation t details =>
    obtain ⟨ht, hok, haw⟩ := hc _ rfl
    exact confirmTaskCancellation_spec wf hst haw ht hok details
  | cancel force =>
    simp only [step]
    split <;> exact cancelRunning_spec wf hst _ _ force
  | confirmMinionsAllocation l => exact confirmMinionsAllocation_spec wf hst l
  | reportMinionsAllocationError => exact reportMinionsAllocationError_spec wf hst (hl rfl)

/-- The calls of the minion manager, which look at the action's status. -/
def Call.forMinions : Call → Bool
  | confirmMinionsAllocation _ | reportMinionsAllocationError => true
  | _ => false

lemma step_forMinions (hm : c.forMinions = true)
    (hl : w.lastExecutionStatus ≠ .awaitingMinionAllocations) : (step e conf env c w).2 = w := by
  cases c with
  | confirmMinionsAllocation l => simp [step, confirmMinionsAllocation, hl]
  | reportMinionsAllocationError => simp [step, reportMinionsAllocationError, hl]
  | _ => simp [Call.forMinions] at hm

lemma step_cancel_of_inactive (hact : w.status.isActive = false) :
    (step e conf env (.cancel force) w).2 = w := by
  simp only [step]
  split <;> simp [cancelDeployment, cancelTransferTasksExecution, cancelRunning, hact]

/-- Nothing has come of a call but that a task is settled. -/
structure OnlyReports (w w' : World) : Prop where
  st : ∀ id, w'.st id = w.st id ∨ (w'.st id).isSettled = true
  status : w'.status = w.status
  last : w'.lastExecutionStatus = w.lastExecutionStatus
  cast : ∀ id, w'.emitted (.beginTask id) → w.emitted (.beginTask id)
  set : ∀ s, w'.emitted (.setExecutionStatus s) → w.emitted (.setExecutionStatus s)

namespace OnlyReports

lemma refl (w : World) : OnlyReports w w :=
  ⟨fun _ => .inl rfl, rfl, rfl, fun _ => id, fun _ => id⟩

lemma of_update {id : TaskId} (hst : w'.st = Function.update w.st id s) (hs : s.isSettled = true)
    (hstatus : w'.status = w.status) (hlast : w'.lastExecutionStatus = w.lastExecutionStatus)
    (hcast : ∀ id, w'.emitted (.beginTask id) → w.emitted (.beginTask id))
    (hset : ∀ s, w'.emitted (.setExecutionStatus s) → w.emitted (.setExecutionStatus s)) :
    OnlyReports w w' := by
  refine ⟨fun i => ?_, hstatus, hlast, hcast, hset⟩
  rw [hst]
  by_cases h : i = id
  · exact .inr (by simpa [h] using hs)
  · exact .inl (Function.update_of_ne h ..)

lemma advance (h : OnlyReports w w') (hact : w.status.isActive = false)
    (hns : ∀ t ∈ e.tasks, w.st t.id ≠ .scheduled) (hx : x.st = w'.st) (hxs : x.status = w'.status) :
    (advanceExecutionState e env x requery inst w').2 = w' := by
  refine advance_over (h.status ▸ hact) hx hxs fun t ht => ?_
  rcases h.st t.id with heq | hset
  · exact heq ▸ hns t ht
  · exact ne_of_isSettled hset rfl

end OnlyReports

/-- A call on an execution that is over, of which nothing waits to be started. -/
lemma step_over (hact : w.status.isActive = false) (hns : ∀ t ∈ e.tasks, w.st t.id ≠ .scheduled)
    (hidle : ∀ t, c.report? = some (.progress t) → (w.st t.id).isActive = false)
    (herr : ∀ t details, c = .setTaskError t details →
      t.taskType ≠ .osMorphing ∧ w.status.inFinalizedTaskStatuses = true)
    (hl : c.forMinions = true → w.lastExecutionStatus ≠ .awaitingMinionAllocations) :
    OnlyReports w (step e conf env c w).2 := by
  cases c with
  | setTaskHost t _ | setTaskProcess t _ =>
    rw [step_progress_of_idle rfl (hidle t rfl)]
    exact .refl w
  | taskCompleted t result =>
    simp only [step]
    rcases @taskCompleted_cases e conf env w t result with
      ⟨-, h⟩ | ⟨s, details, w₁, hc, hkept, h⟩
    · rw [h]
      exact ⟨fun _ => .inl rfl, rfl, rfl, by simp, by simp⟩
    have h₁ : OnlyReports w w₁ := by
      refine .of_update (hkept.st.trans (World.st_setTaskStatus ..)) (completionStatus_isSettled hc)
        hkept.status hkept.last (fun id he => ?_) fun s he => ?_
      · simpa using (hkept.emitted (by simp)).mp he
      · simpa using (hkept.emitted (by simp)).mp he
    rcases h with ⟨h, -⟩ | ⟨x, hx, hxs, h⟩ <;> rw [h]
    · exact h₁
    · rwa [h₁.advance hact hns hx hxs]
  | setTaskError t details =>
    obtain ⟨hty, hfin⟩ := herr t details rfl
    have hworld : (step e conf env (.setTaskError t details) w).2 = w.errored t details := by
      rcases @setTaskError_cases e conf env w t details with h | ⟨w₂, text, h, -⟩
      · exact h.trans (by rw [cancelTasksExecution_finalized (by simpa using hfin)])
      · exact absurd h hty
    rw [hworld]
    exact .of_update (errored_st ..) (errorStatus_isSettled _ _ _) rfl rfl (by simp [World.errored])
      (by simp [World.errored])
  | confirmTaskCancellation t details =>
    have h₁ : OnlyReports w (w.cancelConfirmed t details) :=
      .of_update (cancelConfirmed_st ..) (cancellationStatus_isSettled _ _) rfl rfl
        (by simp [World.cancelConfirmed]) (by simp [World.cancelConfirmed])
    simp only [step, confirmTaskCancellation]
    split
    · exact h₁
    · change OnlyReports w (advanceExecutionState e env (w.cancelConfirmed t details) false none
        (w.cancelConfirmed t details)).2
      rwa [h₁.advance hact hns rfl rfl]
  | cancel force =>
    rw [step_cancel_of_inactive hact]
    exact .refl w
  | confirmMinionsAllocation | reportMinionsAllocationError =>
    rw [step_forMinions rfl (hl rfl)]
    exact .refl w

/-- One handler call on the execution; `ok` says which reports workers may make. -/
def Step (e : Execution) (conf : Conf) (ok : World → Report → Prop) (w w' : World) : Prop :=
  ∃ env c, (∀ r ∈ c.report?, r.task ∈ e.tasks ∧ ok w r) ∧ w' = (step e conf env c w).2

abbrev Run (e : Execution) (conf : Conf) (ok : World → Report → Prop) : World → World → Prop :=
  Relation.ReflTransGen (Step e conf ok)

/-- Workers speak of the tasks that were handed to them, and of no others. -/
def castOnly (w : World) (r : Report) : Prop := w.emitted (.beginTask r.task.id)

/-- A sequence of calls, each with what the services answered during it. -/
def runCalls (e : Execution) (conf : Conf) (calls : List (Env × Call)) (w : World) : World :=
  calls.foldl (fun w p => (step e conf p.1 p.2 w).2) w

def World.wasCast (w : World) (id : TaskId) : Bool :=
  w.trace.any fun ev => match ev.effect with
    | .beginTask i => i == id
    | _ => false

lemma wasCast_iff {id : TaskId} : w.wasCast id = true ↔ w.emitted (.beginTask id) := by
  simp only [World.wasCast, World.emitted, List.any_eq_true]
  refine exists_congr fun ev => and_congr_right fun _ => ?_
  cases ev.effect <;> simp

def World.wasForced (w : World) : Bool :=
  w.trace.any fun ev => match ev.effect with
    | .cancelTasks force => force
    | _ => false

lemma wasForced_iff : w.wasForced = true ↔ w.emitted (.cancelTasks true) := by
  simp only [World.wasForced, World.emitted, List.any_eq_true]
  refine exists_congr fun ev => and_congr_right fun _ => ?_
  cases ev.effect <;> simp

/-- Every report in a sequence of calls is about a task that was cast before it. -/
def castCalls (e : Execution) (conf : Conf) : List (Env × Call) → World → Bool
  | [], _ => true
  | (env, c) :: rest, w =>
    c.report?.all (fun r => e.tasks.contains r.task && w.wasCast r.task.id) &&
      castCalls e conf rest (step e conf env c w).2

lemma run_of_castCalls (h : castCalls e conf calls w = true) :
    Run e conf castOnly w (runCalls e conf calls w) := by
  induction calls generalizing w with
  | nil => exact .refl
  | cons p calls ih =>
    simp only [castCalls, Bool.and_eq_true] at h
    refine .head ⟨p.1, p.2, fun r hr => ?_, rfl⟩ (ih h.2)
    have := (Option.all_eq_true _ _).mp h.1 r hr
    simp only [Bool.and_eq_true, List.contains_iff_mem, wasCast_iff] at this
    exact this

end Coriolis.Conductor

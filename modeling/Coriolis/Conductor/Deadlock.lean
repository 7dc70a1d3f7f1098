import Coriolis.Conductor.Launch

/-!
# Deadlocks

`_check_clean_execution_deadlock` is a safety net: it gives up on an execution in which
tasks wait and none is active. A built execution never gets there once `_begin_tasks` has
started it. A start that fails inside `_begin_tasks` is another matter. An execution that
waited for minions is active at that point and ends in ERROR or CANCELED; any other is
still UNEXECUTED, for which the cancellation unschedules only the tasks without parents
and the advancement does nothing but find the deadlock.
-/

namespace Coriolis.Conductor

variable {r : Request} {before : String → Option TaskInfo} {e : Execution} {conf : Conf}
  {ok : World → Report → Prop} {env : Env} {w w' : World} {t : Task}

def Effect.isDeadlock : Effect → Bool
  | .setExecutionStatus s => s == .deadlocked
  | .setTaskStatus _ s => s == .canceledFromDeadlock
  | _ => false

/-- No deadlock was found so far. -/
structure NeverDeadlocked (e : Execution) (w : World) : Prop where
  execution : w.status ≠ .deadlocked
  trace : ∀ eff, w.emitted eff → eff.isDeadlock = false
  status : ∀ t ∈ e.tasks, w.st t.id ≠ .canceledFromDeadlock

namespace NeverDeadlocked

lemma emit (h : NeverDeadlocked e w) (heff : eff.isDeadlock = false) :
    NeverDeadlocked e (w.emit eff) := by
  refine ⟨h.execution, fun eff' he => ?_, h.status⟩
  rcases emitted_emit.mp he with rfl | he
  · exact heff
  · exact h.trace _ he

lemma setTaskStatus {id : TaskId} (h : NeverDeadlocked e w) (hs : s ≠ .canceledFromDeadlock) :
    NeverDeadlocked e (w.setTaskStatus id s details) := by
  refine ⟨h.execution, fun eff he => ?_, fun t ht => ?_⟩
  · rcases emitted_setTaskStatus.mp he with rfl | he
    · simpa [Effect.isDeadlock] using hs
    · exact h.trace _ he
  · rw [World.st_setTaskStatus]
    by_cases hti : t.id = id
    · simpa [hti] using hs
    · rw [Function.update_of_ne hti]
      exact h.status t ht

lemma setTasksExecutionStatus (h : NeverDeadlocked e w) (hnew : new ≠ .deadlocked) :
    NeverDeadlocked e (setTasksExecutionStatus previous new w) := by
  refine ⟨by simpa using hnew, fun eff he => ?_, by simpa using h.status⟩
  rcases emitted_setTasksExecutionStatus _ _ _ he with he | rfl | rfl | rfl
  · exact h.trace _ he
  · simpa [Effect.isDeadlock] using hnew
  all_goals rfl

lemma enterCancellation (h : NeverDeadlocked e w) :
    NeverDeadlocked e (enterCancellation e env force w) := by
  refine ⟨?_, fun eff he => ?_, fun t ht => ?_⟩
  · rw [enterCancellation_status]
    split
    · decide
    · exact h.execution
  · by_contra hd
    rw [enterCancellation_emitted] at he
    · exact hd (h.trace _ he)
    all_goals revert hd; cases eff <;> simp [Effect.isDeadlock]
    all_goals rintro rfl; simp
  · rw [enterCancellation_st ht]
    split
    · exact cancelledStatus_ne (h.status t ht) rfl
    · exact h.status t ht

lemma kept (h : NeverDeadlocked e w) (hk : Bookkeeping w w') : NeverDeadlocked e w' := by
  refine ⟨hk.status ▸ h.execution, fun eff he => ?_, by simpa [hk.st] using h.status⟩
  by_cases hpost : ∃ a, eff = .postTaskAction a
  · obtain ⟨a, rfl⟩ := hpost
    rfl
  · exact h.trace _ ((hk.emitted fun a ha => hpost ⟨a, ha⟩).mp he)

lemma errorStatus_ne_canceledFromDeadlock (t : Task) (row : TaskRow) (details : String) :
    (errorStatus t row details).1 ≠ .canceledFromDeadlock := by
  rcases errorStatus_cases t row details with ⟨-, h⟩ | ⟨-, h⟩ | ⟨-, h⟩ <;> rw [h] <;> decide

lemma errored (h : NeverDeadlocked e w) (t : Task) (details : String) :
    NeverDeadlocked e (w.errored t details) :=
  (h.emit rfl).setTaskStatus (errorStatus_ne_canceledFromDeadlock _ _ _)

/-- Only the advancement of an UNEXECUTED execution can find a deadlock. -/
lemma change (h : Change e conf True ok w w') (hb : w.status ≠ .unexecuted)
    (hn : NeverDeadlocked e w) : NeverDeadlocked e w' := by
  cases h with
  | started => exact (hn.setTaskStatus (by decide)).emit rfl
  | notScheduled =>
    exact (((hn.setTaskStatus (by decide)).emit rfl).setTaskStatus (by decide)).enterCancellation
  | castRaised => exact ((hn.setTaskStatus (by decide)).emit rfl).enterCancellation
  | unscheduled => exact hn.setTaskStatus (by decide)
  | refreshed _ _ hs => exact hn.setTasksExecutionStatus (hs trivial)
  | deadlocked _ hs => exact absurd (hs trivial) hb
  | begun | allocationFailed => exact hn.setTasksExecutionStatus (by decide)
  | moved _ _ hm =>
    refine NeverDeadlocked.setTaskStatus ⟨hn.execution, hn.trace, by simpa using hn.status⟩ ?_
    exact TaskStatus.isActive_ne (active_of_moves hm).2 (by decide)
  | completed _ _ h =>
    refine (hn.emit rfl).setTaskStatus ?_
    rcases completionStatus_some h with ⟨-, -, -, rfl⟩ | ⟨-, rfl⟩ <;> decide
  | dropped => exact hn.emit rfl
  | errored => exact (hn.errored _ _).enterCancellation
  | @debugged _ w₂ t details _ _ _ _ _ hrun hw₂ _ =>
    refine NeverDeadlocked.setTasksExecutionStatus (NeverDeadlocked.setTaskStatus ?_ ?_) (by decide)
    · have hn' := hn.errored t details
      refine ⟨?_, fun eff he => ?_, fun s hs => ?_⟩
      · rw [(debugging_fields hrun hw₂).1]
        exact hn.execution
      · by_cases hdbg : ∃ id, Effect.setTaskStatus id .canceledForDebugging = eff
        · obtain ⟨id, rfl⟩ := hdbg
          rfl
        · exact hn'.trace _ (((debugging_fields hrun hw₂).2 _ fun id h => hdbg ⟨id, h⟩).mp he)
      · rw [debugging_st hrun hw₂ hs]
        split
        · decide
        · exact hn'.status s hs
    · exact errorStatus_ne_canceledFromDeadlock _ _ _
  | @cancelConfirmed _ t details ht =>
    refine (hn.emit rfl).setTaskStatus ?_
    rcases cancellationStatus_cases (w.rows t.id) details with ⟨-, h⟩ | ⟨-, h⟩ <;> rw [h]
    · exact hn.status t ht
    · decide
  | cancelRequested => exact hn.enterCancellation
  | kept h => exact hn.kept h

lemma changes (h : Changes e conf True ok w w') (hb : w.status ≠ .unexecuted)
    (hn : NeverDeadlocked e w) : NeverDeadlocked e w' :=
  (h.invariant (P := fun w => w.status ≠ .unexecuted ∧ NeverDeadlocked e w)
    (fun _ _ h hw => ⟨h.status_ne (.inl rfl) hw.1, hw.2.change h hw.1⟩) ⟨hb, hn⟩).2

end NeverDeadlocked

lemma Built.neverDeadlocked (hb : Built r before e w) : NeverDeadlocked e w := by
  refine ⟨?_, fun eff he => ?_, fun t ht => ?_⟩
  · rw [hb.status_eq]
    split <;> decide
  · rcases hb.status with ⟨-, -, -, htr⟩ | ⟨-, -, -, htr⟩
    · simp [World.emitted, htr] at he
    · simp only [World.emitted, htr, List.mem_singleton, exists_eq_left] at he
      exact he ▸ rfl
  · rcases hb.waiting ht with h | h <;> simp [h]

lemma NeverDeadlocked.began (hn : NeverDeadlocked e w) (hb : Began env w l w w') :
    NeverDeadlocked e w' := by
  refine ⟨hb.status ▸ hn.execution, fun eff he => ?_, fun t ht => ?_⟩
  · rcases hb.emitted eff he with h | ⟨t, -, -, rfl | rfl⟩
    · exact hn.trace eff h
    · rfl
    · rfl
  · rcases hb.st_cases t.id with ⟨_, _, _, _, h⟩ | h <;> rw [h]
    · decide
    · exact hn.status t ht

lemma Beginning.began (h : Beginning r before e w)
    (hok : beginTasks e env w w = (.ok (), w')) :
    Steady e w' ∧ w'.status = .running ∧ NeverDeadlocked e w' := by
  have hsteady := (@beginTasks_spec e plainConf True (fun _ _ => True) env w
    (fun _ => h.wellFormed) (fun _ => h.ready) h.begin_ok).2 trivial
  rw [hok] at hsteady
  obtain ⟨w₀, hb, hkept⟩ := h.kept
  have hn := hb.neverDeadlocked.kept hkept
  rcases @beginLoop_spec e plainConf True (fun _ _ => True) env w w _ [] e.nodup
    (fun t ht => ht) (fun t _ => rfl) with
    ⟨started, db, hres, -, hbegan, -⟩ | ⟨err, db, w₁, done, -, -, -, -, hres⟩
  · simp only [beginTasks, hres] at hok
    split at hok
    · simp at hok
    · simp only [Prod.mk.injEq, true_and] at hok
      subst hok
      exact ⟨hsteady, by simp,
        (hn.began hbegan).setTasksExecutionStatus (by decide)⟩
  · simp [beginTasks, hres] at hok

/-- Once `_begin_tasks` has started a built execution, no sequence of calls, whoever makes
them and whatever fails during them, runs into a deadlock. -/
theorem begun_execution_never_deadlocks (r : Request) (before : String → Option TaskInfo)
    (e : Execution) (conf : Conf) (env : Env) (w w₁ w₂ : World) (h : Beginning r before e w)
    (hok : beginTasks e env w w = (.ok (), w₁))
    (hrun : Run e conf (fun _ _ => True) w₁ w₂) :
    w₂.status ≠ .deadlocked ∧ (∀ t ∈ e.tasks, w₂.st t.id ≠ .canceledFromDeadlock) ∧
      ¬w₂.emitted (.setExecutionStatus .deadlocked) ∧
      ∀ id, ¬w₂.emitted (.setTaskStatus id .canceledFromDeadlock) := by
  -- every call is a path of changes, and of the changes only one that finds an UNEXECUTED
  -- execution marks a deadlock
  have hall : Steady e w₂ ∧ (w₂.status ≠ .unexecuted ∧ w₂.status ≠ .awaitingMinionAllocations) ∧
      NeverDeadlocked e w₂ := by
    induction hrun with
    | refl =>
      obtain ⟨hst, hrunning, hn⟩ := h.began hok
      exact ⟨hst, by simp [hrunning], hn⟩
    | @tail w' w'' _ hstep ih =>
      obtain ⟨hst, ⟨hun, haw⟩, hn⟩ := ih
      obtain ⟨env, c, hc, rfl⟩ := hstep
      obtain ⟨h1, h2⟩ := @step_spec e conf True (fun _ _ => True) env w' (fun _ => h.wellFormed)
        (fun _ => hst) c (fun r hr => ⟨(hc r hr).1, trivial, fun _ => haw⟩) fun _ => hst.last
      exact ⟨h2 trivial, ⟨h1.invariant (fun _ _ h => h.status_ne (.inl rfl)) hun,
        h1.invariant (fun _ _ h => h.status_ne (.inr (.inl rfl))) haw⟩, hn.changes h1 hun⟩
  obtain ⟨-, -, hn⟩ := hall
  exact ⟨hn.execution, hn.status, fun he => by simpa [Effect.isDeadlock] using hn.trace _ he,
    fun id he => by simpa [Effect.isDeadlock] using hn.trace _ he⟩

/-- A force-cancelled deletion of disks. -/
theorem begun_execution_never_deadlocks_deleteDisks :
    let w₁ := (beginTasks deleteDisks responsive deleteDisksStored deleteDisksStored).2
    let w₂ := (step deleteDisks plainConf responsive (.cancel true) w₁).2
    w₁.status = .running ∧ w₂.status ≠ .deadlocked ∧
      ¬w₂.emitted (.setExecutionStatus .deadlocked) := by
  intro w₁ w₂
  have hok : (beginTasks deleteDisks responsive deleteDisksStored deleteDisksStored) =
      (.ok (), w₁) := Prod.ext (by rfl) rfl
  have h := begun_execution_never_deadlocks .deleteTransferDisks _ deleteDisks plainConf responsive
    deleteDisksStored w₁ w₂ ⟨_, built_deleteDisks, .inl ⟨rfl, rfl⟩⟩ hok
    (.single ⟨responsive, .cancel true, by simp [Call.report?], rfl⟩)
  exact ⟨by decide, h.1, h.2.2.1⟩

def AllReported (e : Execution) (w : World) : Prop :=
  ∀ t ∈ e.tasks, w.emitted (.beginTask t.id) →
    w.emitted (.taskCompleted t.id) ∨ w.emitted (.taskErrored t.id) ∨ w.emitted (.taskCancelled t.id)

/-- What a start that fails should come to, whatever the workers report afterwards. -/
def EndsCleanly (e : Execution) (conf : Conf) (w : World) : Prop :=
  ∀ w', Run e conf castOnly w w' →
    ¬w'.emitted (.setExecutionStatus .deadlocked) ∧
    (AllReported e w' →
      (w'.status = .error ∨ w'.status = .canceled) ∧
      ∀ t ∈ e.tasks, w'.st t.id ≠ .scheduled ∧ w'.st t.id ≠ .onErrorOnly ∧
        (w'.st t.id).isActive = false)

/-- An execution that was given up and whose workers can do it no harm. -/
structure Abandoned (e : Execution) (w : World) : Prop where
  status : w.status = .error ∨ w.status = .canceled
  settled : ∀ t ∈ e.tasks, (w.st t.id).isSettled = true
  last : LastOk w
  cast : ∀ t ∈ e.tasks, w.emitted (.beginTask t.id) → t.taskType ≠ .osMorphing
  trace : ¬w.emitted (.setExecutionStatus .deadlocked)

lemma Abandoned.reported (h : Abandoned e w) (hr : OnlyReports w w') : Abandoned e w' := by
  refine ⟨hr.status ▸ h.status, fun t ht => ?_, fun hl => ?_,
    fun t ht he => h.cast t ht (hr.cast _ he), fun he => h.trace (hr.set _ he)⟩
  · rcases hr.st t.id with heq | hset
    · exact heq ▸ h.settled t ht
    · exact hset
  · rw [hr.status]
    exact h.last (hr.last ▸ hl)

lemma Abandoned.step (h : Abandoned e w) (hstep : Step e conf castOnly w w') :
    Abandoned e w' := by
  obtain ⟨env, c, hc, rfl⟩ := hstep
  refine h.reported (step_over ?_ (fun t ht => ne_of_isSettled (h.settled t ht) rfl) (fun t ht => ?_)
    (fun t details hc' => ?_) fun _ hl => ?_)
  · rcases h.status with h | h <;> rw [h] <;> decide
  · by_contra hact
    have := h.settled t (hc _ ht).1
    simp [TaskStatus.isSettled, TaskStatus.isActive_not_isFinalized (by simpa using hact)] at this
  · subst hc'
    obtain ⟨ht, hcast⟩ := hc _ rfl
    exact ⟨h.cast t ht hcast, by rcases h.status with h | h <;> rw [h] <;> decide⟩
  · have haw := h.last hl
    rcases h.status with hs | hs <;> simp [hs] at haw

lemma Abandoned.run (h : Abandoned e w) (hrun : Run e conf castOnly w w') :
    Abandoned e w' := by
  induction hrun with
  | refl => exact h
  | tail _ hstep ih => exact ih.step hstep

/-- Where `_begin_tasks` breaks off: `w₁` is the database when the cancellation is called. -/
structure BrokenOff (e : Execution) (env : Env) (w w₁ : World) : Prop where
  result : (beginTasks e env w w).2 = (cancelTasksExecution e env w true false w₁).2
  status : w₁.status = w.status
  kept : Released e w₁.st ∧ LastOk w₁ ∧ InfoReady e w₁
  unbegun : Unbegun e w₁
  waiting : ∀ t ∈ e.tasks, t.dependsOn ≠ [] → w₁.st t.id = w.st t.id
  cast : ∀ t ∈ e.tasks, w₁.emitted (.beginTask t.id) → t.dependsOn = []
  trace : NeverDeadlocked e w → NeverDeadlocked e w₁

lemma Beginning.brokenOff (h : Beginning r before e w)
    (hfail : ∃ t ∈ e.tasks, t.dependsOn = [] ∧
      (env.findsWorker t.id = false ∨ env.beginTaskGoesOut t.id = false)) :
    ∃ w₁, BrokenOff e env w w₁ := by
  have hready := h.ready
  rcases @beginLoop_spec e plainConf True (fun _ _ => True) env w w _ [] e.nodup
    (fun t ht => ht) (fun t _ => rfl) with
    ⟨started, db, -, -, hb, -⟩ | ⟨err, db, w₁, done, hpre, hch, hb, ⟨a, ha, hroot, -, hw₁⟩, hres⟩
  · obtain ⟨t, ht, hroot, hno⟩ := hfail
    have hs : w.st t.id = .scheduled := by
      rcases hready.fresh.statuses t ht with h' | ⟨-, h'⟩
      · exact h'
      · exact absurd hroot (h.wellFormed.onErrorParents t ht h')
    obtain ⟨h1, h2⟩ := hb.cast t ht hroot hs
    simp [h1, h2] at hno
  · refine ⟨w₁, by simp [beginTasks, hres], ?_, hready.failed_kept h.wellFormed hch hb hw₁,
      hready.failed_unbegun hb hw₁, fun t ht hne => ?_, fun t ht he => ?_, fun hn => ?_⟩
    · rcases hw₁ with rfl | rfl <;> simpa using hb.status
    · have hta : t.id ≠ a.id := fun hid => hne (task_eq_of_id ht ha hid ▸ hroot)
      have hdb : db.st t.id = w.st t.id := by
        rcases hb.st_cases t.id with ⟨s, hs, hid, hroot', -⟩ | h'
        · exact absurd (task_eq_of_id (hpre.subset hs) ht hid ▸ hroot') hne
        · exact h'
      rcases hw₁ with rfl | rfl <;> simp [Function.update_of_ne hta, hdb]
    · have he : db.emitted (.beginTask t.id) := by
        rcases hw₁ with rfl | rfl
        · simpa [World.notScheduled] using he
        · simpa [World.castRaised] using he
      rcases hb.emitted _ he with he | ⟨s, hs, hroot', he⟩
      · exact absurd he (hready.fresh.notCast t ht)
      · have hid : t.id = s.id := by simpa using he
        exact task_eq_of_id ht (hpre.subset hs) hid ▸ hroot'
    · have hdb := hn.began hb
      rcases hw₁ with rfl | rfl
      · exact ((hdb.setTaskStatus (by decide)).emit rfl).setTaskStatus (by decide)
      · exact (hdb.setTaskStatus (by decide)).emit rfl

lemma BrokenOff.barren (h : BrokenOff e env w w₁) (wf : WellFormed e) (hready : Ready e w) :
    Barren e (enterCancellation e env false w₁) :=
  barren_enterCancellation wf (h.status ▸ hready.cancelLoops) h.unbegun

/-- An execution that waited for minions is cancelled like a running one. -/
lemma BrokenOff.abandoned (h : BrokenOff e env w w₁) (hbeg : Beginning r before e w)
    (ht : t ∈ e.tasks) (haw : w.status = .awaitingMinionAllocations) :
    Abandoned e (beginTasks e env w w).2 := by
  have wf := hbeg.wellFormed
  have hbar := h.barren wf hbeg.ready
  obtain ⟨hrel, hlast, hinfo⟩ := h.kept
  have hact : w₁.status.isActive = true := by rw [h.status, haw]; decide
  obtain ⟨hpath, hcalm⟩ := @cancelTasksExecution_active e plainConf True (fun _ _ => False) env w₁
    (fun _ => wf) w false hact fun _ => hrel
  have hcalm := hcalm trivial (List.ne_nil_of_mem ht)
  obtain ⟨hbar', hno, hst⟩ := @Ready.failed_steady e env w wf hbeg.ready w₁ w
    (List.ne_nil_of_mem ht) h.status hrel hlast hinfo h.unbegun
  rw [h.result]
  refine ⟨?_, fun s hs => hbar'.isSettled hs (hno s hs), hst.last, fun s hs he => ?_, ?_⟩
  · rw [hcalm.status]
    rcases getExecutionStatus_cases e _ with ⟨-, hg⟩ | ⟨-, ⟨s, hs, ha⟩, -⟩ | ⟨-, hg | hg | ⟨-, hall⟩⟩
    · exact absurd (hcalm.status.trans hg) hcalm.notDeadlocked
    · simp [hbar'.not_active hs] at ha
    · exact .inl hg
    · exact .inr hg
    · rcases hall t ht with hst | hst <;> rcases hbar' t ht with ⟨h', -⟩ | h' | h' | h' <;>
        simp [hst] at h'
  · -- nothing was started after the cancellation, and before it only tasks without parents
    have hcast : w₁.emitted (.beginTask s.id) := by
      have hinv := hpath.invariant
        (P := fun w => Barren e w ∧ (w.emitted (.beginTask s.id) → w₁.emitted (.beginTask s.id)))
        (fun _ _ hc hw => ⟨hw.1.change wf hc, fun he' => by
          rcases hc.beginTask he' with he' | ⟨s', hs', -, hd, -⟩
          · exact hw.2 he'
          · exact absurd hd (hw.1.not_start wf hs')⟩)
        ⟨hbar, (enterCancellation_emitted rfl (by simp)).mp⟩
      exact hinv.2 he
    obtain ⟨w₀, hb, -⟩ := hbeg
    exact fun hty => hb.morphing_parents hs hty (h.cast s hs hcast)
  · obtain ⟨w₀, hb, hkept⟩ := hbeg.kept
    have hn : NeverDeadlocked e (enterCancellation e env false w₁) :=
      (h.trace (hb.neverDeadlocked.kept hkept)).enterCancellation
    have hun : (enterCancellation e env false w₁).status ≠ .unexecuted := by
      rw [enterCancellation_status, h.status, haw]
      decide
    intro he
    simpa [Effect.isDeadlock] using (hn.changes hpath hun).trace _ he

lemma BrokenOff.cleaned (h : BrokenOff e env w w₁) (hbeg : Beginning r before e w)
    (ht : t ∈ e.tasks) (hun : w.status = .unexecuted) :
    ∃ previous st w₂, (beginTasks e env w w).2 = cleanDeadlock e previous st w₂ := by
  have hbar := h.barren hbeg.wellFormed hbeg.ready
  have hstatus : (enterCancellation e env false w₁).status = .unexecuted := by
    rw [enterCancellation_status, h.status, hun]
    rfl
  have hdead : isDeadlocked e (enterCancellation e env false w₁).st = true := by
    obtain ⟨w₀, hb, hkept⟩ := hbeg.kept
    obtain ⟨s, hs, hsched, hne⟩ := hb.exists_chained ht
    refine isDeadlocked_iff.mpr ⟨⟨s, hs, ?_⟩, fun s hs => hbar.not_active hs⟩
    rw [enterCancellation_st hs, h.waiting s hs hne, hkept.st, hsched, h.status, hun]
    simp [hne, cancelLoops]
  rw [h.result, cancelTasksExecution_world (by rw [h.status, hun]; decide),
    advanceExecutionState_inactive (by rw [hstatus]; decide) rfl rfl, if_pos hdead]
  exact ⟨_, _, _, rfl⟩

lemma BrokenOff.deadlocked (h : BrokenOff e env w w₁) (hbeg : Beginning r before e w)
    (ht : t ∈ e.tasks) (hun : w.status = .unexecuted) :
    (beginTasks e env w w).2.emitted (.setExecutionStatus .deadlocked) := by
  obtain ⟨previous, st, w₂, hclean⟩ := h.cleaned hbeg ht hun
  rw [hclean]
  simp [cleanDeadlock, setTasksExecutionStatus]

/-- A start that fails inside `_begin_tasks` ends in ERROR or CANCELED, with nothing left
waiting and no deadlock on the way, exactly for the executions that waited for minions. -/
theorem failed_start_ends_cleanly_iff (r : Request) (before : String → Option TaskInfo)
    (e : Execution) (conf : Conf) (env : Env) (w : World) (h : Beginning r before e w)
    (hfail : ∃ t ∈ e.tasks, t.dependsOn = [] ∧
      (env.findsWorker t.id = false ∨ env.beginTaskGoesOut t.id = false)) :
    EndsCleanly e conf (beginTasks e env w w).2 ↔ r.awaitsMinions = true := by
  obtain ⟨w₁, hbroken⟩ := h.brokenOff hfail
  obtain ⟨t, ht, -⟩ := hfail
  constructor
  · intro hclean
    by_contra hno
    have hun : w.status = .unexecuted := by rw [h.status, if_neg hno]
    exact (hclean _ .refl).1 (hbroken.deadlocked h ht hun)
  · intro haw w' hrun
    have habandoned := (hbroken.abandoned h ht (by rw [h.status, if_pos haw])).run hrun
    refine ⟨habandoned.trace, fun _ => ⟨habandoned.status, fun s hs => ?_⟩⟩
    have hset := habandoned.settled s hs
    refine ⟨ne_of_isSettled hset (by decide), ne_of_isSettled hset (by decide), ?_⟩
    revert hset
    cases w'.st s.id <;> decide

def noWorkers : Env := ⟨fun _ => false, fun _ => "no worker", fun _ => true, fun _ => true⟩

/-- The deletion of disks is deadlocked at once, with nothing to wait for. -/
theorem failed_start_deadlocks_deleteDisks :
    Beginning .deleteTransferDisks replicated deleteDisks
        deleteDisksStored ∧
      (∃ t ∈ deleteDisks.tasks, t.dependsOn = [] ∧ noWorkers.findsWorker t.id = false) ∧
      ¬EndsCleanly deleteDisks plainConf
        (beginTasks deleteDisks noWorkers deleteDisksStored deleteDisksStored).2 := by
  refine ⟨⟨_, built_deleteDisks, .inl ⟨rfl, rfl⟩⟩, by decide, fun hclean => ?_⟩
  have hcast : ∀ t ∈ deleteDisks.tasks,
      (beginTasks deleteDisks noWorkers deleteDisksStored deleteDisksStored).2.wasCast t.id =
        false := by decide
  have hdead : (beginTasks deleteDisks noWorkers deleteDisksStored deleteDisksStored).2.status =
      .deadlocked := by decide
  have hover := ((hclean _ .refl).2 fun t ht he =>
    absurd (wasCast_iff.mpr he) (by simp [hcast t ht])).1
  simp [hdead] at hover

/-- A transfer that waited for its source minion ends cleanly without workers. -/
theorem failed_start_ends_cleanly_poolTransfer :
    EndsCleanly poolTransfer plainConf
      (beginTasks poolTransfer noWorkers poolTransferStored poolTransferStored).2 :=
  (failed_start_ends_cleanly_iff (.executeTransferTasks true false false) (fun _ => none)
    poolTransfer plainConf noWorkers poolTransferStored
    ⟨_, built_poolTransfer, .inr ⟨rfl, [], rfl⟩⟩ (by decide)).mpr rfl

end Coriolis.Conductor

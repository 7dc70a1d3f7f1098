import Coriolis.Conductor.Build

/-!
# Finalized tasks stay finalized

A task whose status is finalized, other than FAILED_TO_CANCEL, keeps it, with one
exception the source writes out: an error report turns every such status but
FORCE_CANCELED into ERROR. Nothing is assumed about the execution or about where the calls
come from.
-/

namespace Coriolis.Conductor

variable {e : Execution} {conf : Conf} {env : Env} {w w' : World} {t : Task}

lemma Change.settled (h : Change e conf strong ok w w') (ht : t ∈ e.tasks)
    (hs : (w.st t.id).isSettled = true) (hno : ∀ w, ¬ok w (.failure t)) :
    w'.st t.id = w.st t.id :=
  ((h.task ht).of_isSettled hs).resolve_right fun h' => hno w h'.1

lemma Changes.settled (h : Changes e conf strong ok w w') (ht : t ∈ e.tasks)
    (hs : (w.st t.id).isSettled = true) (hno : ∀ w, ¬ok w (.failure t)) :
    w'.st t.id = w.st t.id := by
  induction h with
  | refl => rfl
  | tail _ hlast ih => rw [hlast.settled ht (ih ▸ hs) hno, ih]

lemma cancelTasksExecution_settled (ht : t ∈ e.tasks) (hs : (w.st t.id).isSettled = true) :
    (cancelTasksExecution e env x true force w).2.st t.id = w.st t.id := by
  have hpath : Changes e ⟨false, fun _ => false⟩ False (fun _ _ => False)
      (enterCancellation e env force w) (cancelTasksExecution e env x true force w).2 :=
    cancelTasksExecution_changes (fun h => h.elim) (fun h => h.elim) fun h => h.elim
  have henter := @enterCancellation_st_of_isSettled e env w t force ht hs
  rw [hpath.settled ht (henter ▸ hs) fun _ h => h, henter]

lemma setTaskError_st (ht : t ∈ e.tasks) (details : String) :
    (setTaskError e conf env t details w).2.st t.id = (errorStatus t (w.rows t.id) details).1 := by
  have hset := errorStatus_isSettled t (w.rows t.id) details
  have hst : (w.errored t details).st t.id = (errorStatus t (w.rows t.id) details).1 := by simp
  rcases @setTaskError_cases e conf env w t details with h | ⟨w₂, text, -, -, -, -, h⟩ <;> rw [h]
  · rw [cancelTasksExecution_settled ht (hst ▸ hset), hst]
  · simp

lemma step_settled (c : Call) (hc : ∀ r ∈ c.report?, r.task ∈ e.tasks) (ht : t ∈ e.tasks)
    (hs : (w.st t.id).isSettled = true) (hno : ∀ details, c ≠ .setTaskError t details) :
    (step e conf env c w).2.st t.id = w.st t.id := by
  by_cases hrep : c = .reportMinionsAllocationError
  · subst hrep
    simp only [step, reportMinionsAllocationError]
    split
    · rfl
    · have hcancel := @cancelTasksExecution_settled e env w t w false ht hs
      split <;> rename_i heq <;> rw [heq] at hcancel
      · exact hcancel
      · simpa using hcancel
  · have hpath := (@step_spec e conf False (fun _ r => some r = c.report?) env w (fun h => h.elim)
      (fun h => h.elim) c
      (fun r hr => ⟨hc r hr, (Option.mem_def.mp hr).symm, fun h => h.elim⟩)
      fun h => absurd h hrep).1
    refine hpath.settled ht hs fun _ hok => ?_
    cases c with
    | setTaskError s details =>
      simp only [Call.report?, Option.some.injEq, Report.failure.injEq] at hok
      exact hno details (hok ▸ rfl)
    | _ => simp [Call.report?] at hok

/-- Over any sequence of calls a finalized task keeps its status, unless an error is
reported for it: then it is ERROR, or FORCE_CANCELED if it was that. -/
theorem finalized_status_kept_or_error (e : Execution) (conf : Conf)
    (calls : List (Env × Call)) (w : World) (t : Task)
    (hcalls : ∀ p ∈ calls, ∀ r ∈ p.2.report?, r.task ∈ e.tasks) (ht : t ∈ e.tasks)
    (hs : (w.st t.id).isFinalized = true) (hftc : w.st t.id ≠ .failedToCancel) :
    ((w.st t.id = .forceCanceled ∨ ∀ p ∈ calls, ∀ details, p.2 ≠ .setTaskError t details) →
      (runCalls e conf calls w).st t.id = w.st t.id) ∧
    ((w.st t.id ≠ .forceCanceled ∧ ∃ p ∈ calls, ∃ details, p.2 = .setTaskError t details) →
      (runCalls e conf calls w).st t.id = .error) := by
  have hset : (w.st t.id).isSettled = true := by simp [TaskStatus.isSettled, hs, hftc]
  clear hs hftc
  induction calls generalizing w with
  | nil => simp [runCalls]
  | cons p calls ih =>
    have hcalls' : ∀ p ∈ calls, ∀ r ∈ p.2.report?, r.task ∈ e.tasks := fun q hq =>
      hcalls q (List.mem_cons_of_mem _ hq)
    simp only [runCalls, List.foldl_cons]
    by_cases herr : ∃ details, p.2 = .setTaskError t details
    · obtain ⟨details, herr⟩ := herr
      have hst : (step e conf p.1 p.2 w).2.st t.id = (errorStatus t (w.rows t.id) details).1 := by
        rw [herr]
        exact setTaskError_st ht details
      obtain ⟨ih1, ih2⟩ := ih (w := (step e conf p.1 p.2 w).2) hcalls'
        (hst ▸ errorStatus_isSettled _ _ _)
      rcases errorStatus_cases t (w.rows t.id) details with ⟨hfc, h⟩ | ⟨hbad, -⟩ | ⟨hfc, h⟩
      · refine ⟨fun _ => ?_, fun hh => absurd hfc hh.1⟩
        have h1 := ih1 (.inl (hst.trans h))
        exact h1.trans ((hst.trans h).trans hfc.symm)
      · have hbad : w.st t.id = .cancelling ∨ w.st t.id = .cancellingAfterCompletion ∨
            w.st t.id = .failedToCancel := hbad
        rcases hbad with hb | hb | hb <;> rw [hb] at hset <;> cases hset
      · refine ⟨fun hh => ?_, fun _ => ?_⟩
        · rcases hh with hh | hh
          · exact absurd hh hfc
          · exact absurd herr (hh p List.mem_cons_self details)
        · have herr' := hst.trans h
          by_cases hmore : ∃ q ∈ calls, ∃ details, q.2 = .setTaskError t details
          · exact ih2 ⟨by rw [herr']; decide, hmore⟩
          · refine (ih1 (.inr fun q hq d hd => hmore ⟨q, hq, d, hd⟩)).trans herr'
    · have hst : (step e conf p.1 p.2 w).2.st t.id = w.st t.id :=
        step_settled p.2 (hcalls p List.mem_cons_self) ht hset fun d h => herr ⟨d, h⟩
      obtain ⟨ih1, ih2⟩ := ih (w := (step e conf p.1 p.2 w).2) hcalls' (hst ▸ hset)
      rw [hst] at ih1 ih2
      constructor
      · rintro (hh | hh)
        · exact ih1 (.inl hh)
        · exact ih1 (.inr fun q hq => hh q (List.mem_cons_of_mem _ hq))
      · rintro ⟨hfc, q, hq, d, hd⟩
        rcases List.mem_cons.mp hq with rfl | hq
        · exact absurd ⟨d, hd⟩ herr
        · exact ih2 ⟨hfc, q, hq, d, hd⟩

/-- The deletion of the disks of one instance, after `_begin_tasks`. -/
def deleteDisksBegun : World :=
  (beginTasks deleteDisks responsive deleteDisksStored deleteDisksStored).2

/-- A completed task whose worker reports an error as well, as `exec_task` can, is errored. -/
theorem completed_task_turns_error :
    let w := runCalls deleteDisks plainConf (completes deleteDisks 0) deleteDisksBegun
    (w.st 0).isFinalized = true ∧ w.st 0 ≠ .failedToCancel ∧
      (runCalls deleteDisks plainConf (fails deleteDisks 0) w).st 0 ≠ w.st 0 := by
  decide

/-- The completed deletion of the snapshots keeps its status when its cancellation is
confirmed, and loses it when an error is reported. -/
theorem finalized_status_kept_or_error_deleteDisks :
    let t : Task := ⟨0, "vm", .deleteTransferSourceDiskSnapshots, [], false, 2⟩
    let w := runCalls deleteDisks plainConf (completes deleteDisks 0) deleteDisksBegun
    (runCalls deleteDisks plainConf [(responsive, .confirmTaskCancellation t "")] w).st 0 =
        .completed ∧
      (runCalls deleteDisks plainConf [(responsive, .setTaskError t "error")] w).st 0 = .error := by
  intro t w
  have hst : w.st t.id = .completed := by decide
  have hmem : t ∈ deleteDisks.tasks := by decide
  have hfin : (w.st t.id).isFinalized = true := by rw [hst]; decide
  have hftc : w.st t.id ≠ .failedToCancel := by rw [hst]; decide
  constructor
  · have h := finalized_status_kept_or_error deleteDisks plainConf
      [(responsive, .confirmTaskCancellation t "")] w t (by simpa [Call.report?, Report.task] using hmem) hmem
      hfin hftc
    exact (h.1 (.inr (by simp))).trans hst
  · have h := finalized_status_kept_or_error deleteDisks plainConf
      [(responsive, .setTaskError t "error")] w t (by simpa [Call.report?, Report.task] using hmem) hmem
      hfin hftc
    exact h.2 ⟨by rw [hst]; decide, by simp⟩

end Coriolis.Conductor

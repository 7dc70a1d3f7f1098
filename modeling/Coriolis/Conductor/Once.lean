import Coriolis.Conductor.Absorption
import Coriolis.Conductor.Launch
import Coriolis.Conductor.Writes

/-!
# At most once

A worker's report may reach the conductor any number of times. The result of a task is
merged, and its post-task action done, when a completion finds the task not over, and it is
over from then on; a task is handed to a worker when it waits, and it never waits again.
-/

namespace Coriolis.Conductor

variable {r : Request} {before : String → Option TaskInfo} {e : Execution} {conf : Conf}
  {ok : World → Report → Prop} {env : Env} {w w' : World} {t : Task}

def Event.takesResult (id : TaskId) (ev : Event) : Bool :=
  match ev.effect with
  | .taskCompleted id' => id' == id && !(ev.tasks id).isSettled
  | _ => false

/-- A `begin_task` cast, also one that raised. -/
def Event.castsTask (id : TaskId) (ev : Event) : Bool :=
  match ev.effect with
  | .beginTask id' | .beginTaskRaised id' => id' == id
  | _ => false

lemma takesResult_once_change (ht : t ∈ e.tasks) (h : Change e conf strong ok w w')
    (hw : w.trace.countP (·.takesResult t.id) = 0 ∨
      w.trace.countP (·.takesResult t.id) = 1 ∧ (w.st t.id).isSettled = true) :
    w'.trace.countP (·.takesResult t.id) = 0 ∨
      w'.trace.countP (·.takesResult t.id) = 1 ∧ (w'.st t.id).isSettled = true := by
  have hr : ∀ ev : Event, ev.effect.isRoutine = true → ev.takesResult t.id = false := by
    rintro ⟨eff, s, ts⟩ h
    cases eff <;> simp_all [Effect.isRoutine, Event.takesResult]
  have hk : ∀ (ev : Event) a, ev.effect = .postTaskAction a → ev.takesResult t.id = false := by
    intro ev a ha
    simp [Event.takesResult, ha]
  rcases h.events.countP hr hk with heq | ⟨heq, ev, hev, hcase⟩
  · rw [heq]
    exact hw.imp_right fun hw => ⟨hw.1, (h.task ht).isSettled hw.2⟩
  rcases hcase with ⟨s, -, -, heff, -⟩ | ⟨rep, eff, -, -, heff, hset, rfl⟩
  · rcases heff with heff | heff | heff <;> simp [Event.takesResult, heff] at hev
  cases eff with
  | taskCompleted id =>
    simp only [Event.takesResult, Bool.and_eq_true, beq_iff_eq, Bool.not_eq_true'] at hev
    obtain ⟨rfl, hnot⟩ := hev
    have hid : rep.task.id = t.id := by
      cases rep <;> simp_all [Report.effect, Report.task]
    rw [hid] at hset
    rcases hw with h0 | ⟨-, hw⟩
    · exact .inr ⟨by rw [heq, h0], hset⟩
    · simp [hw] at hnot
  | _ => simp [Event.takesResult] at hev

lemma castsTask_once_change (ht : t ∈ e.tasks) (h : Change e conf strong ok w w')
    (hw : w.trace.countP (·.castsTask t.id) = 0 ∨
      w.trace.countP (·.castsTask t.id) = 1 ∧ w.st t.id ≠ .scheduled ∧ w.st t.id ≠ .onErrorOnly) :
    w'.trace.countP (·.castsTask t.id) = 0 ∨
      w'.trace.countP (·.castsTask t.id) = 1 ∧
        w'.st t.id ≠ .scheduled ∧ w'.st t.id ≠ .onErrorOnly := by
  have hr : ∀ ev : Event, ev.effect.isRoutine = true → ev.castsTask t.id = false := by
    rintro ⟨eff, s, ts⟩ h
    cases eff <;> simp_all [Effect.isRoutine, Event.castsTask]
  have hk : ∀ (ev : Event) a, ev.effect = .postTaskAction a → ev.castsTask t.id = false := by
    intro ev a ha
    simp [Event.castsTask, ha]
  rcases h.events.countP hr hk with heq | ⟨heq, ev, hev, hcase⟩
  · rw [heq]
    exact hw.imp_right fun hw => ⟨hw.1, (h.task ht).not_waiting hw.2.1 hw.2.2⟩
  rcases hcase with ⟨s, hs, hd, heff, hst⟩ | ⟨rep, eff, -, -, heff, -, rfl⟩
  · have hid : s.id = t.id := by
      rcases heff with heff | heff | heff <;> simp [Event.castsTask, heff] at hev
      · exact hev
      · exact hev
    obtain rfl := task_eq_of_id hs ht hid
    rcases hw with h0 | ⟨-, hw, -⟩
    · exact .inr ⟨by rw [heq, h0], hst⟩
    · exact absurd (decision_start hd).1 hw
  · cases rep <;> simp only [Report.effect, Option.some.injEq, reduceCtorEq] at heff <;>
      subst heff <;> simp [Event.castsTask] at hev

/-- Whatever workers report, and whatever the execution looks like, a run is a path of
changes. -/
lemma Launched.changes (h : Launched r before e w) (hrun : Run e conf ok w w') :
    ∃ w₀, Built r before e w₀ ∧ Changes e conf False ok w₀ w' ∧ LastOk w' := by
  induction hrun with
  | refl =>
    cases h with
    | @begun w₀ env hb h =>
      have hch := (@beginTasks_spec e conf False ok env w₀ (fun h => h.elim) (fun h => h.elim)
        (.inl (by rw [hb.status_eq, h]; rfl))).1
      exact ⟨w₀, hb, hch, hb.ready.last.changes hch⟩
    | awaiting hb h => exact ⟨w, hb, .refl, hb.ready.last⟩
  | tail _ hstep ih =>
    obtain ⟨w₀, hb, hch, hlast⟩ := ih
    obtain ⟨env, c, hc, rfl⟩ := hstep
    have hch' := (@step_spec e conf False ok env _ (fun h => h.elim) (fun h => h.elim) c
      (fun rep hrep => ⟨(hc rep hrep).1, (hc rep hrep).2, fun h => h.elim⟩) fun _ => hlast).1
    exact ⟨w₀, hb, hch.trans hch', hlast.changes hch'⟩

/-- A call leaves infos and post-task actions alone, allocates minions, or takes the result
of one task. -/
lemma step_takesResult (c : Call) :
    let w' := (step e conf env c w).2
    w'.info = w.info ∧ w'.posts = w.posts ∨
      (∃ l, c = .confirmMinionsAllocation l) ∧ w'.posts = w.posts ∨
      ∃ t result, c = .taskCompleted t result ∧
        w.trace.countP (·.takesResult t.id) < w'.trace.countP (·.takesResult t.id) ∧
        w'.posts.length ≤ w.posts.length + 1 := by
  by_cases hc : c.keepsBooks = false
  · exact .inl ⟨(step_writes hc).info, (step_writes hc).posts⟩
  cases c with
  | confirmMinionsAllocation l => exact .inr (.inl ⟨⟨l, rfl⟩, confirmMinionsAllocation_posts l⟩)
  | taskCompleted t result =>
    cases hcs : completionStatus (w.rows t.id) with
    | none => exact .inl (by simp [step, taskCompleted, hcs, World.posts, World.emit,
        Effect.isPostTaskAction])
    | some p =>
      refine .inr (.inr ⟨t, result, rfl, ?_, ?_⟩)
      · have hnot : (w.st t.id).isSettled = false := by
          by_contra hset
          have hset : (w.rows t.id).status.isSettled = true := Bool.not_eq_false _ ▸ hset
          simp [completionStatus_of_isSettled hset] at hcs
        have hle := (@taskCompleted_suffix e conf env w t p.1 p.2 hcs result).sublist.countP_le
          (p := (·.takesResult t.id))
        simp [World.setTaskStatus, World.emit, Event.takesResult, hnot] at hle
        exact hle
      · rcases @taskCompleted_posts e conf env w t result with h | ⟨_, _, _, _, _, -, -, h, -⟩
        · exact (congrArg List.length h).le.trans (Nat.le_succ _)
        · exact (congrArg List.length h).le
  | _ => simp [Call.keepsBooks] at hc

/-- Each task is cast once at most and its result taken once at most, and nothing but taking a
result, minions apart, writes infos or does post-task actions, one for each result. -/
theorem merged_and_cast_once (h : Launched r before e w) (hrun : Run e conf ok w w')
    (ht : t ∈ e.tasks) :
    w'.trace.countP (·.takesResult t.id) ≤ 1 ∧ w'.trace.countP (·.castsTask t.id) ≤ 1 ∧
      ∀ env c, let w'' := (step e conf env c w').2
        w''.info = w'.info ∧ w''.posts = w'.posts ∨
          (∃ l, c = .confirmMinionsAllocation l) ∧ w''.posts = w'.posts ∨
          ∃ t result, c = .taskCompleted t result ∧
            w'.trace.countP (·.takesResult t.id) < w''.trace.countP (·.takesResult t.id) ∧
            w''.posts.length ≤ w'.posts.length + 1 := by
  obtain ⟨w₀, hb, hch, -⟩ := h.changes hrun
  have h0 : w₀.trace.countP (·.takesResult t.id) = 0 ∧ w₀.trace.countP (·.castsTask t.id) = 0 := by
    rcases hb.status with ⟨-, -, -, htr⟩ | ⟨-, -, -, htr⟩ <;>
      simp [htr, Event.takesResult, Event.castsTask]
  have h1 := hch.invariant (fun _ _ => takesResult_once_change ht) (.inl h0.1)
  have h2 := hch.invariant (fun _ _ => castsTask_once_change ht) (.inl h0.2)
  exact ⟨by omega, by omega, fun env c => step_takesResult c⟩

/-- A completion that is delivered three times is taken once. -/
theorem merged_and_cast_once_deleteDisks :
    let t := deleteDisks.tasks.head (by decide)
    let w := runCalls deleteDisks plainConf
      (completes deleteDisks t.id ++ List.replicate 2 (responsive, .taskCompleted t []))
      deleteDisksBegun
    0 < w.trace.countP (·.takesResult t.id) ∧ w.trace.countP (·.takesResult t.id) ≤ 1 := by
  intro t w
  have hrun : Run deleteDisks plainConf castOnly deleteDisksBegun w :=
    run_of_castCalls (by decide)
  exact ⟨by decide,
    (merged_and_cast_once (.begun built_deleteDisks rfl) hrun (by decide)).1⟩

end Coriolis.Conductor

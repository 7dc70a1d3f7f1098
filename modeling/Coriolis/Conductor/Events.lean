import Coriolis.Conductor.Transitions

/-!
# What one change adds to the trace

`Change.events` reads a change from the side of the trace. Most changes add writes of
statuses and cancellations only, which `Adds` leaves unnamed; the others hand a task to a
worker, take a worker's report or keep the books of a completed task, and add the one event
that says so.
-/

namespace Coriolis.Conductor

variable {e : Execution} {ok : World → Report → Prop} {w w' w'' : World} {t : Task}
  {mark : List Event}

/-- The trace grew by the events `mark` and by routine ones around them. -/
def Adds (mark : List Event) (w w' : World) : Prop :=
  ∃ late early, w'.trace = late ++ mark ++ early ++ w.trace ∧
    (∀ ev ∈ late, ev.effect.isRoutine = true) ∧ ∀ ev ∈ early, ev.effect.isRoutine = true

namespace Adds

lemma of_written (h : Written true w w') : Adds [] w w' := by
  induction h with
  | refl => exact ⟨[], [], by simp⟩
  | @tail w₁ w₂ _ hlast ih =>
    obtain ⟨late, early, ht, hl, he⟩ := ih
    have hgrown : w₂.trace = w₁.trace ∨
        ∃ ev : Event, ev.effect.isRoutine = true ∧ w₂.trace = ev :: w₁.trace := by
      cases hlast with
      | taskStatus | executionStatus => exact .inr ⟨_, rfl, rfl⟩
      | hostProperties => exact .inl rfl
      | effect h => exact .inr ⟨_, h.resolve_right (by simp), rfl⟩
    rcases hgrown with h | ⟨ev, hev, h⟩
    · exact ⟨late, early, h.trans ht, hl, he⟩
    · exact ⟨ev :: late, early, by rw [h, ht]; rfl, List.forall_mem_cons.mpr ⟨hev, hl⟩, he⟩

lemma trans (h : Adds mark w w') (h' : Written true w' w'') : Adds mark w w'' := by
  obtain ⟨late, early, ht, hl, he⟩ := h
  obtain ⟨late', early', ht', hl', he'⟩ := of_written h'
  refine ⟨late' ++ early' ++ late, early, by simp [ht', ht], fun ev hev => ?_, he⟩
  simp only [List.mem_append] at hev
  rcases hev with (hev | hev) | hev
  · exact hl' ev hev
  · exact he' ev hev
  · exact hl ev hev

lemma head (h : Written true w w') (h' : Adds mark w' w'') : Adds mark w w'' := by
  obtain ⟨late, early, ht, hl, he⟩ := of_written h
  obtain ⟨late', early', ht', hl', he'⟩ := h'
  refine ⟨late', early' ++ late ++ early, by simp [ht', ht], hl', fun ev hev => ?_⟩
  simp only [List.mem_append] at hev
  rcases hev with (hev | hev) | hev
  · exact he' ev hev
  · exact hl ev hev
  · exact he ev hev

lemma event (eff : Effect) : Adds [⟨eff, w.status, w.st⟩] w (w.emit eff) :=
  ⟨[], [], by simp [World.emit]⟩

lemma suffix (h : Adds mark w w') : w.trace <:+ w'.trace := by
  obtain ⟨late, early, ht, -⟩ := h
  exact ⟨_, ht.symm⟩

lemma emitted (h : Adds mark w w') (heff : eff.isRoutine = false) (he : w'.emitted eff) :
    w.emitted eff ∨ ∃ ev ∈ mark, ev.effect = eff := by
  obtain ⟨late, early, ht, hl, hearly⟩ := h
  obtain ⟨ev, hev, rfl⟩ := he
  simp only [ht, List.mem_append] at hev
  rcases hev with ((hev | hev) | hev) | hev
  · simp [hl ev hev] at heff
  · exact .inr ⟨ev, hev, rfl⟩
  · simp [hearly ev hev] at heff
  · exact .inl ⟨ev, hev, rfl⟩

lemma countP (h : Adds mark w w') (hp : ∀ ev, ev.effect.isRoutine = true → p ev = false) :
    w'.trace.countP p = mark.countP p + w.trace.countP p := by
  obtain ⟨late, early, ht, hl, he⟩ := h
  have h1 : late.countP p = 0 := List.countP_eq_zero.mpr fun ev hev => by simp [hp ev (hl ev hev)]
  have h2 : early.countP p = 0 := List.countP_eq_zero.mpr fun ev hev => by simp [hp ev (he ev hev)]
  simp [ht, h1, h2]

end Adds

def Report.effect : Report → Option Effect
  | .progress _ => none
  | .completion t => some (.taskCompleted t.id)
  | .failure t => some (.taskErrored t.id)
  | .cancellation t => some (.taskCancelled t.id)

/-- The trace grew, and by what. -/
inductive EventStep (e : Execution) (ok : World → Report → Prop) (w w' : World) : Prop
  | routine (h : Adds [] w w')
  | handed {t : Task} {ev : Event} (ht : t ∈ e.tasks) (hd : lifecycleDecision e w.st t = .start)
      (hev : ev.effect = .beginTask t.id ∨ ev.effect = .beginTaskRaised t.id ∨
        ev.effect = .noSuitableWorker t.id)
      (hst : w'.st t.id ≠ .scheduled ∧ w'.st t.id ≠ .onErrorOnly) (h : Adds [ev] w w')
      (hw : ev.effect = .beginTask t.id → w' = w.started t)
  | reported {r : Report} {eff : Effect} (ht : r.task ∈ e.tasks) (hok : ok w r)
      (hr : r.effect = some eff) (hst : (w'.st r.task.id).isSettled = true)
      (h : Adds [⟨eff, w.status, w.st⟩] w w')
  | kept (h : Bookkeeping w w')

lemma Change.events (h : Change e conf strong ok w w') : EventStep e ok w w' := by
  cases h with
  | @started _ t ht hd =>
    exact .handed ht hd (.inl rfl) (by simp) (.head Writes.taskStatus (.event _)) fun _ => rfl
  | @notScheduled env _ t ht hd =>
    have hst : (enterCancellation e env false (w.notScheduled env t)).st t.id =
        .failedToSchedule := by
      rw [enterCancellation_st_of_isSettled ht (by simp; rfl), notScheduled_st, Function.update_self]
    exact .handed ht hd (.inr (.inr rfl)) (by simp [hst]) (.head Writes.taskStatus
      (((Adds.event _).trans Writes.taskStatus).trans Writes.enterCancellation)) nofun
  | @castRaised env _ t ht hd =>
    have hst : (enterCancellation e env false (w.castRaised t)).st t.id ≠ .scheduled ∧
        (enterCancellation e env false (w.castRaised t)).st t.id ≠ .onErrorOnly := by
      rw [enterCancellation_st ht]
      split_ifs <;> simp [cancelledStatus_pending]
    exact .handed ht hd (.inr (.inl rfl)) hst
      (.head Writes.taskStatus ((Adds.event _).trans Writes.enterCancellation)) nofun
  | unscheduled => exact .routine (.of_written Writes.taskStatus)
  | refreshed | begun | allocationFailed =>
    exact .routine (.of_written Writes.setTasksExecutionStatus)
  | deadlocked => exact .routine (.of_written Writes.cleanDeadlock)
  | moved => exact .routine (.of_written (Writes.hostProperties.trans Writes.taskStatus))
  | @completed _ t _ _ ht hok hc =>
    exact .reported (r := .completion t) ht hok rfl
      (by simpa [Report.task] using completionStatus_isSettled hc)
      ((Adds.event _).trans Writes.taskStatus)
  | @dropped _ t ht hok hc =>
    exact .reported (r := .completion t) ht hok rfl
      (completionStatus_none hc) (.event _)
  | @errored env _ t details ht hok =>
    have hset : ((w.errored t details).st t.id).isSettled = true := by
      simpa using errorStatus_isSettled _ _ _
    refine .reported (r := .failure t) ht hok rfl ?_
      (((Adds.event _).trans Writes.taskStatus).trans Writes.enterCancellation)
    rwa [show (Report.failure t).task = t from rfl, enterCancellation_st_of_isSettled ht hset]
  | @debugged _ w₂ t details text ht hok _ _ _ hw₂ _ =>
    refine .reported (r := .failure t) ht hok rfl
      (by simpa [Report.task] using errorStatus_isSettled _ _ _) (Adds.trans ?_
        ((debugging_written hw₂).trans (Writes.taskStatus.trans Writes.setTasksExecutionStatus)))
    exact (Adds.event _).trans Writes.taskStatus
  | @cancelConfirmed _ t details ht hok =>
    exact .reported (r := .cancellation t) ht hok rfl
      (by simpa [Report.task] using cancellationStatus_isSettled _ _)
      ((Adds.event _).trans Writes.taskStatus)
  | cancelRequested => exact .routine (.of_written Writes.enterCancellation)
  | kept h => exact .kept h

lemma Change.suffix (h : Change e conf strong ok w w') : w.trace <:+ w'.trace := by
  cases h.events with
  | routine h | handed _ _ _ _ h | reported _ _ _ _ h => exact h.suffix
  | kept h => exact h.suffix

lemma Changes.suffix (h : Changes e conf strong ok w w') : w.trace <:+ w'.trace := by
  induction h with
  | refl => exact List.suffix_rfl
  | tail _ hlast ih => exact ih.trans hlast.suffix

/-- An invariant of the paths on which every event meets a condition. -/
lemma Changes.invariant_of_trace {P : World → Prop} {C : Event → Prop}
    (hstep : ∀ w w', Change e conf strong ok w w' → (∀ ev ∈ w'.trace, C ev) → P w → P w')
    (h : Changes e conf strong ok w w') (hcond : ∀ ev ∈ w'.trace, C ev) (hw : P w) : P w' := by
  induction h with
  | refl => exact hw
  | tail _ hlast ih =>
    exact hstep _ _ hlast hcond (ih fun ev hev => hcond ev (hlast.suffix.subset hev))

lemma Change.beginTask (h : Change e conf strong ok w w') {id : TaskId}
    (he : w'.emitted (.beginTask id)) :
    w.emitted (.beginTask id) ∨
      ∃ t ∈ e.tasks, t.id = id ∧ lifecycleDecision e w.st t = .start ∧ w' = w.started t := by
  cases h.events with
  | routine h => exact (h.emitted rfl he).imp_right (by simp)
  | @handed t ev ht hd hev _ h hw =>
    refine (h.emitted rfl he).imp_right fun ⟨_, hmem, heff⟩ => ?_
    obtain rfl := List.mem_singleton.mp hmem
    obtain rfl : t.id = id := by
      rcases hev with h | h | h <;> cases heff.symm.trans h
      rfl
    exact ⟨t, ht, rfl, hd, hw heff⟩
  | @reported r eff _ _ hr _ h =>
    refine (h.emitted rfl he).imp_right fun ⟨_, hmem, heff⟩ => ?_
    obtain rfl := List.mem_singleton.mp hmem
    obtain rfl : eff = .beginTask id := heff
    cases r <;> simp [Report.effect] at hr
  | kept h => exact .inl ((h.emitted (by simp)).mp he)

lemma EventStep.countP (h : EventStep e ok w w')
    (hr : ∀ ev, ev.effect.isRoutine = true → p ev = false)
    (hk : ∀ ev a, ev.effect = .postTaskAction a → p ev = false) :
    w'.trace.countP p = w.trace.countP p ∨
      w'.trace.countP p = w.trace.countP p + 1 ∧ ∃ ev, p ev = true ∧
        ((∃ t ∈ e.tasks, lifecycleDecision e w.st t = .start ∧
            (ev.effect = .beginTask t.id ∨ ev.effect = .beginTaskRaised t.id ∨
              ev.effect = .noSuitableWorker t.id) ∧
            w'.st t.id ≠ .scheduled ∧ w'.st t.id ≠ .onErrorOnly) ∨
          ∃ r eff, r.task ∈ e.tasks ∧ ok w r ∧ Report.effect r = some eff ∧
            (w'.st r.task.id).isSettled = true ∧ ev = ⟨eff, w.status, w.st⟩) := by
  have one : ∀ {ev}, Adds [ev] w w' → w'.trace.countP p = w.trace.countP p ∨
      w'.trace.countP p = w.trace.countP p + 1 ∧ p ev = true := by
    intro ev h
    have := h.countP hr
    by_cases hp : p ev = true
    · exact .inr ⟨by rw [this]; simp [hp, Nat.add_comm], hp⟩
    · exact .inl (by rw [this]; simp [hp])
  cases h with
  | routine h => exact .inl (by simpa using h.countP hr)
  | @handed t ev ht hd hev hst h =>
    rcases one h with h | ⟨h, hp⟩
    · exact .inl h
    · exact .inr ⟨h, ev, hp, .inl ⟨t, ht, hd, hev, hst⟩⟩
  | @reported r eff ht hok hre hst h =>
    rcases one h with h | ⟨h, hp⟩
    · exact .inl h
    · exact .inr ⟨h, _, hp, .inr ⟨r, eff, ht, hok, hre, hst, rfl⟩⟩
  | kept h =>
    obtain ⟨evs, htrace, hevs⟩ := h.trace
    have h0 : evs.countP p = 0 := List.countP_eq_zero.mpr fun ev hev => by
      obtain ⟨a, ha⟩ := hevs ev hev
      simp [hk ev a ha]
    exact .inl (by simp [htrace, h0])

end Coriolis.Conductor

import Coriolis.Conductor.Stages

/-!
# What a task rests on

The scheduler looks at a task when all its parents are over, and what is over stays so. A
task it started or unscheduled therefore has nothing but finished tasks below it
(`Decided.below`), and two tasks are active together only if neither rests on the other.
-/

namespace Coriolis.Conductor

open Dependencies

variable {e : Execution} {w w' : World} {t u : Task}

def Execution.parents (e : Execution) (id : TaskId) : List TaskId :=
  ((e.tasks.find? (·.id == id)).map (·.dependsOn)).getD []

lemma Execution.parents_of_mem (ht : t ∈ e.tasks) : e.parents t.id = t.dependsOn :=
  valueOf_of_mem e.nodup ht

/-- Ranks that grow from the parents to a task grow along all it rests on. -/
lemma rank_lt_of_below {rank : TaskId → ℕ}
    (hrank : ∀ t ∈ e.tasks, t.inst = inst → ∀ d ∈ t.dependsOn,
      ∃ p ∈ e.tasks, p.id = d ∧ p.inst = inst ∧ rank d < rank t.id) (ht : t ∈ e.tasks)
    (hi : t.inst = inst) (hb : Below e.parents d t.id) :
    rank d < rank t.id := by
  refine Below.rank_lt (S := {a | ∃ p ∈ e.tasks, p.id = a ∧ p.inst = inst}) hb ⟨t, ht, rfl, hi⟩
    ?_ ?_
  · rintro _ ⟨p, hp, rfl, hpi⟩ d hd
    rw [Execution.parents_of_mem hp] at hd
    obtain ⟨q, hq, hqd, hqi, -⟩ := hrank p hp hpi d hd
    exact ⟨q, hq, hqd, hqi⟩
  · rintro _ ⟨p, hp, rfl, hpi⟩ d hd
    rw [Execution.parents_of_mem hp] at hd
    obtain ⟨-, -, -, -, hlt⟩ := hrank p hp hpi d hd
    exact hlt

/-- The ids of what a task of a block rests on. A block has the newest task first. -/
def ancestors : List Draft → TaskId → List TaskId
  | [], _ => []
  | d :: rest, id =>
    if d.task.id = id then d.task.dependsOn ++ d.task.dependsOn.flatMap (ancestors rest)
    else ancestors rest id

lemma below_of_mem_ancestors {a id : TaskId} (hall : ∀ b ∈ l, (b.place inst n).task ∈ e.tasks)
    (h : a ∈ ancestors l id) :
    Below e.parents (n + a) (n + id) := by
  induction l generalizing a id with
  | nil => simp [ancestors] at h
  | cons d rest ih =>
    have hrest : ∀ b ∈ rest, (b.place inst n).task ∈ e.tasks := fun b hb =>
      hall b (List.mem_cons_of_mem _ hb)
    simp only [ancestors] at h
    split at h
    swap
    · exact ih hrest h
    rename_i hid
    have hparent : ∀ p ∈ d.task.dependsOn, n + p ∈ e.parents (n + id) := by
      intro p hp
      rw [← hid]
      have := Execution.parents_of_mem (hall d List.mem_cons_self)
      rw [show n + d.task.id = (d.place inst n).task.id from rfl, this]
      exact List.mem_map_of_mem hp
    rcases List.mem_append.mp h with h | h
    · exact .single (hparent a h)
    · obtain ⟨p, hp, ha⟩ := List.mem_flatMap.mp h
      exact (ih hrest ha).tail (hparent p hp)

def TaskStatus.isDecided (s : TaskStatus) : Bool :=
  !(s == .scheduled || s == .onErrorOnly || s == .canceledFromDeadlock ||
    s == .canceledForDebugging)

lemma TaskStatus.isDecided_of_isActive {s : TaskStatus} (h : s.isActive = true) :
    s.isDecided = true := by
  revert h
  cases s <;> decide

lemma TaskStatus.isDecided_iff {s : TaskStatus} :
    s.isDecided = true ↔ s ≠ .scheduled ∧ s ≠ .onErrorOnly ∧ s ≠ .canceledFromDeadlock ∧
      s ≠ .canceledForDebugging := by
  cases s <;> decide

lemma TaskStep.isDecided (h : TaskStep e conf strong ok w w' t)
    (hw : (w.st t.id).isDecided = true) : (w'.st t.id).isDecided = true := by
  obtain ⟨hns, hnoe, hnd, hnb⟩ := TaskStatus.isDecided_iff.mp hw
  cases h with
  | same h => rwa [h]
  | started hd | notScheduled hd | castRaised hd => exact (not_start hd hns).elim
  | unscheduled hd => exact (not_unschedule hd hns).elim
  | @cancelled env force _ h =>
    rw [h]
    refine TaskStatus.isDecided_iff.mpr ⟨fun hst => ?_, cancelledStatus_ne_onErrorOnly _,
      cancelledStatus_ne hnd rfl, cancelledStatus_ne hnb rfl⟩
    rcases cancelledStatus_eq_scheduled hst with h' | h'
    · exact hns h'
    · exact hnoe h'
  | deadlocked _ _ _ hst | debugged _ hst => exact absurd hst (by simp [hns, hnoe])
  | moved _ hm => exact TaskStatus.isDecided_of_isActive (active_of_moves hm).2
  | completed _ h =>
    rcases completionStatus_some h with ⟨-, -, -, h'⟩ | ⟨-, h'⟩ <;> rw [h'] <;> rfl
  | @errored details _ h =>
    rcases errorStatus_cases t (w.rows t.id) details with ⟨-, h'⟩ | ⟨-, h'⟩ | ⟨-, h'⟩ <;>
      rw [h, h'] <;> rfl
  | @cancelConfirmed details _ h =>
    rcases cancellationStatus_cases (w.rows t.id) details with ⟨-, h'⟩ | ⟨-, h'⟩
    · rw [h, h']
      exact hw
    · rw [h, h']
      rfl

/-- What was decided rests on tasks that are over and were decided before. -/
structure Decided (e : Execution) (w : World) : Prop where
  staged : Staged e w
  cast : ∀ t ∈ e.tasks, w.emitted (.beginTask t.id) → (w.st t.id).isDecided = true
  debugged : ∀ t ∈ e.tasks, w.st t.id = .canceledForDebugging →
    w.status = .canceledForDebugging ∨ ∀ s ∈ e.tasks, (w.st s.id).isSettled = true
  parents : ∀ t ∈ e.tasks, (w.st t.id).isDecided = true → ∀ p ∈ e.tasks, p.id ∈ t.dependsOn →
    (w.st p.id).isFinalized = true ∧ (w.st p.id).isDecided = true

namespace Decided

lemma isDecided_of_scheduled (h : Decided e w) (ht : t ∈ e.tasks)
    (hst : w.st t.id = .scheduled) (hu : u ∈ e.tasks) (hfin : (w.st u.id).isFinalized = true) :
    (w.st u.id).isDecided = true := by
  refine TaskStatus.isDecided_iff.mpr ⟨fun h' => ?_, fun h' => ?_, fun h' => ?_, fun h' => ?_⟩
  · rw [h'] at hfin
    cases hfin
  · rw [h'] at hfin
    cases hfin
  · have := TaskStatus.isSettled_of_isFruitless (h.staged.stranded u hu h' t ht)
    rw [hst] at this
    cases this
  · rcases h.debugged u hu h' with hs | hall
    · exact h.staged.ended (by rw [hs]; rfl) t ht hst
    · have := hall t ht
      rw [hst] at this
      cases this

lemma cast_change (h : Decided e w) (hc : Change e conf True reported w w') (ht : t ∈ e.tasks)
    (he : w'.emitted (.beginTask t.id)) : (w'.st t.id).isDecided = true := by
  rcases hc.beginTask he with he | ⟨s, -, hid, -, rfl⟩
  · exact (hc.task ht).isDecided (h.cast t ht he)
  · simp [← hid, TaskStatus.isDecided]

lemma debugged_change (h : Decided e w) (hc : Change e conf True reported w w')
    (ht : t ∈ e.tasks) (hst : w'.st t.id = .canceledForDebugging) :
    w'.status = .canceledForDebugging ∨ ∀ s ∈ e.tasks, (w'.st s.id).isSettled = true := by
  have hold : w.st t.id = .canceledForDebugging → w'.status = .canceledForDebugging ∨
      ∀ s ∈ e.tasks, (w'.st s.id).isSettled = true := by
    intro hw
    rcases h.debugged t ht hw with hs | hall
    swap
    · exact .inr fun s hs => (hc.task hs).isSettled (hall s hs)
    cases hc.statusStep with
    | same heq => exact .inl (heq.trans hs)
    | cancelling hrun => simp [hs] at hrun
    | refreshed hact => rw [hs] at hact; cases hact
    | deadlocked _ hun => simp [hs] at hun
    | begun hb =>
      rcases hb with hb | hb
      · simp [hs] at hb
      · have := h.staged.last hb
        simp [hs] at this
    | debugged _ _ heq => exact .inl heq
    | allocationFailed hall hst => exact .inr fun s hs => by rw [hst]; exact (hall trivial s hs).1
  rcases (hc.task ht).of_isRare (by rw [hst]; rfl) with
    h' | ⟨env, force, -, h', -⟩ | ⟨h', -⟩ | ⟨-, hs⟩
  · exact hold (h' ▸ hst)
  · by_contra hno
    exact cancelledStatus_ne (fun heq => hno (hold heq)) rfl (h'.symm.trans hst)
  · simp [h'] at hst
  · exact .inl hs

lemma parents_finalized (h : Decided e w) (hc : Change e conf True reported w w')
    (ht : t ∈ e.tasks) (hw : (w.st t.id).isDecided = false) (hw' : (w'.st t.id).isDecided = true) :
    t.dependsOn = [] ∨ w.st t.id = .scheduled ∧
      ∀ d ∈ t.dependsOn, (w.st d).isFinalized = true := by
  have hno : ¬w.emitted (.beginTask t.id) := fun he => by simp [h.cast t ht he] at hw
  have hstart : lifecycleDecision e w.st t = .start → t.dependsOn = [] ∨ w.st t.id = .scheduled ∧
      ∀ d ∈ t.dependsOn, (w.st d).isFinalized = true := fun hd =>
    (decision_start hd).2.imp_right fun hpar => ⟨(decision_start hd).1, hpar.1⟩
  cases hc.task ht with
  | same h' => simp [h', hw] at hw'
  | started hd | notScheduled hd | castRaised hd => exact hstart hd
  | unscheduled hd =>
    exact .inr ⟨(decision_unschedule hd).1, (decision_unschedule hd).2.2.1⟩
  | @cancelled env force _ h' =>
    by_contra hcon
    rw [not_or] at hcon
    rw [h'] at hw'
    have hsame : (cancelledStatus env force t (w.st t.id)).isDecided = false := by
      have hwf := hw
      revert hwf
      cases hst : w.st t.id <;> intro hwf <;>
        first
        | (rw [cancelledStatus_scheduled, if_neg hcon.1]; rfl)
        | (rw [cancelledStatus_onErrorOnly]; rfl)
        | (rw [cancelledStatus_of_isSettled rfl]; rfl)
        | cases hwf
    simp [hsame] at hw'
  | deadlocked _ _ _ _ h' | debugged _ _ h' => simp [h', TaskStatus.isDecided] at hw'
  | moved hok | completed hok | errored hok | cancelConfirmed hok => exact absurd hok.1 hno

lemma change (hc : Change e conf True reported w w') (h : Decided e w) : Decided e w' := by
  refine ⟨h.staged.change hc, fun t ht he => h.cast_change hc ht he,
    fun t ht hst => h.debugged_change hc ht hst, fun t ht hdec p hp hpt => ?_⟩
  have hp' : (w.st p.id).isFinalized = true ∧ (w.st p.id).isDecided = true := by
    by_cases hw : (w.st t.id).isDecided = true
    · exact h.parents t ht hw p hp hpt
    rcases h.parents_finalized hc ht (by simpa using hw) hdec with hnil | ⟨hst, hfin⟩
    · simp [hnil] at hpt
    · exact ⟨hfin _ hpt, h.isDecided_of_scheduled ht hst hp (hfin _ hpt)⟩
  exact ⟨(hc.task hp).stays_finalized h.staged hp hp'.1, (hc.task hp).isDecided hp'.2⟩

lemma below (h : Decided e w) (wf : WellFormed e) (ht : t ∈ e.tasks) (hu : u ∈ e.tasks)
    (hb : Below e.parents u.id t.id) (hdec : (w.st t.id).isDecided = true) :
    (w.st u.id).isFinalized = true := by
  generalize hid : t.id = a at hb
  induction hb generalizing t with
  | single hd =>
    rw [← hid, Execution.parents_of_mem ht] at hd
    exact (h.parents t ht hdec u hu hd).1
  | tail _ hd ih =>
    rw [← hid, Execution.parents_of_mem ht] at hd
    obtain ⟨p, hp, rfl, -⟩ := wf.parent t ht _ hd
    exact ih hp (h.parents t ht hdec p hp hd).2 rfl

lemma not_below (h : Decided e w) (wf : WellFormed e) (ht : t ∈ e.tasks) (hu : u ∈ e.tasks)
    (htact : (w.st t.id).isActive = true) (huact : (w.st u.id).isActive = true) :
    ¬Below e.parents u.id t.id := by
  intro hb
  have := h.below wf ht hu hb (TaskStatus.isDecided_of_isActive htact)
  simp [TaskStatus.isActive_not_isFinalized huact] at this

end Decided

lemma Built.decided (hb : Built r before e w) : Decided e w := by
  have hst : ∀ t ∈ e.tasks, (w.st t.id).isDecided = false := fun t ht => by
    rcases hb.waiting ht with h | h <;> rw [h] <;> rfl
  refine ⟨hb.staged, fun t ht he => absurd he (hb.ready.fresh.notCast t ht), fun t ht h => ?_,
    fun t ht h => by simp [hst t ht] at h⟩
  rcases hb.waiting ht with h' | h' <;> simp [h'] at h

/-- In every run, there are only finished tasks below a task that was handed to a worker. -/
theorem cast_rests_on_finalized (h : Launched r before e w) (hrun : Run e conf castOnly w w')
    (ht : t ∈ e.tasks) (hu : u ∈ e.tasks) (hb : Below e.parents u.id t.id)
    (hcast : w'.emitted (.beginTask t.id)) : (w'.st u.id).isFinalized = true := by
  obtain ⟨w₀, hbuilt, hch, -⟩ := h.run hrun
  have hdec : Decided e w' := hch.invariant (fun _ _ => Decided.change) hbuilt.decided
  exact hdec.below hbuilt.wellFormed ht hu hb (hdec.cast t ht hcast)

theorem cast_rests_on_finalized_deployment :
    let w' := runCalls deployment plainConf (completes deployment 0)
      (beginTasks deployment responsive deploymentStored deploymentStored).2
    w'.emitted (.beginTask 1) ∧ (w'.st 0).isFinalized = true := by
  intro w'
  have hcast : w'.emitted (.beginTask 1) := wasCast_iff.mp (by decide)
  exact ⟨hcast, cast_rests_on_finalized (t := deployment.tasks[1]) (u := deployment.tasks[0])
    (.begun built_deployment rfl) (run_of_castCalls (by decide)) (by decide) (by decide)
    (.single (by decide)) hcast⟩

end Coriolis.Conductor

import Coriolis.Conductor.OnErrorOnly
import Coriolis.Conductor.Writes

/-!
# Updates of a transfer

The last task of an update execution that completes makes `_handle_post_task_actions` store
the new parameters on the transfer. It is told by no other task being active, which is not
the same as every other task having completed.
-/

namespace Coriolis.Conductor

variable {before : String → Option TaskInfo} {e : Execution} {conf : Conf} {env : Env}
  {w w' : World} {t : Task} {updatedProperties : TaskInfo}

/-- No task of an update is a cleanup, and none follows the update of the destination. -/
lemma Built.update_parents (hb : Built (.updateTransfer updatedProperties) before e w)
    (ht : t ∈ e.tasks) :
    t.onError = false ∧ ∀ p ∈ e.tasks, p.id ∈ t.dependsOn →
      p.taskType ≠ .updateDestinationTransfer := by
  have hblock : ∀ b ∈ (Request.updateTransfer updatedProperties).block "", b.task.onError = false ∧
      ∀ p ∈ (Request.updateTransfer updatedProperties).block "", p.task.id ∈ b.task.dependsOn →
        p.task.taskType ≠ .updateDestinationTransfer := by
    simp only [Request.block]
    decide
  obtain ⟨inst, -, n, hall, b, hbm, rfl⟩ := hb.task ht
  obtain ⟨h1, h2⟩ := hblock b hbm
  refine ⟨h1, fun p hp hd => ?_⟩
  obtain ⟨q, hq, hqd, hqe, hid, -⟩ := parent_of_mem_dependsOn hall hbm hd
  obtain rfl := task_eq_of_id hqe hp hid
  exact h2 q hq hqd

lemma mem_posts :
    ev ∈ w.posts ↔ ev ∈ w.trace ∧ ev.effect.isPostTaskAction = true := by
  simp [World.posts]

/-- Everything but one task of an update completed when nothing went wrong and no other is
active: what waits would wait for an active task. -/
lemma Steady.update_completed (hs : Steady e w) (wf : WellFormed e)
    (hno : ∀ s ∈ e.tasks, w.st s.id ≠ .onErrorOnly) (hchild : ∀ s ∈ e.tasks, t.id ∉ s.dependsOn)
    (haw : w.status ≠ .awaitingMinionAllocations)
    (hun : ∀ s ∈ e.tasks, (w.st s.id).isUndisturbed = true)
    (hother : ∀ s ∈ e.tasks, s.id ≠ t.id → (w.st s.id).isActive = false) (hs' : s ∈ e.tasks)
    (hst : s.id ≠ t.id) : w.st s.id = .completed := by
  have hsched : ∀ s ∈ e.tasks, s.id ≠ t.id → w.st s.id ≠ .scheduled := by
    by_cases hact : w.status.isActive = true
    · have hrun : w.status = .running ∨ w.status = .cancelling := by
        revert hact haw
        cases w.status <;> decide
      intro s hs' hst hsch
      induction h : s.index using Nat.strong_induction_on generalizing s with
      | _ n ih =>
        obtain ⟨d, hd, hfin⟩ := (hs.running hrun).1 s hs' hsch
        obtain ⟨p, hp, rfl, -, hlt⟩ := wf.parent s hs' d hd
        have hne : p.id ≠ t.id := fun h => hchild s hs' (h ▸ hd)
        rcases TaskStatus.not_isFinalized hfin with h' | h' | h'
        · exact ih p.index (h ▸ hlt) p hp hne h' rfl
        · exact hno p hp h'
        · simp [hother p hp hne] at h'
    · exact fun s hs' _ => (hs.ended (by simpa using hact)).1 s hs'
  have h1 := hun s hs'
  have h2 := hother s hs' hst
  have h3 := hsched s hs' hst
  have h4 := hno s hs'
  revert h1 h2 h3 h4
  cases w.st s.id <;> decide

/-- A completed update of a destination finds another task active, or nothing of its
execution failed, cancelled or unscheduled. -/
def updatesUndisturbed (e : Execution) (ev : Event) : Bool :=
  match ev.effect with
  | .taskCompleted id =>
    e.tasks.all fun t => !(t.id == id && t.taskType == .updateDestinationTransfer) ||
      (ev.tasks t.id).isSettled ||
      (e.tasks.any fun s => s.id != t.id && (ev.tasks s.id).isActive) ||
      e.tasks.all fun s => (ev.tasks s.id).isUndisturbed
  | _ => true

lemma updatesUndisturbed_cases (ht : t ∈ e.tasks)
    (hty : t.taskType = .updateDestinationTransfer)
    (h : updatesUndisturbed e ⟨.taskCompleted t.id, w.status, w.st⟩ = true) :
    (w.st t.id).isSettled = true ∨
      (∃ u ∈ e.tasks, u.id ≠ t.id ∧ (w.st u.id).isActive = true) ∨
      ∀ u ∈ e.tasks, (w.st u.id).isUndisturbed = true := by
  simp only [updatesUndisturbed, List.all_eq_true] at h
  simpa [hty, or_assoc] using h t ht

lemma Launched.posts (h : Launched r before e w) : w.posts = [] := by
  have hbuilt : ∀ {w₀}, Built r before e w₀ → w₀.posts = [] := by
    intro w₀ hb
    rcases hb.status with ⟨-, -, -, htr⟩ | ⟨-, -, -, htr⟩ <;>
      simp [World.posts, htr, Effect.isPostTaskAction]
  cases h with
  | begun hb => exact Writes.beginTasks.posts.trans (hbuilt hb)
  | awaiting hb => exact hbuilt hb

lemma taskCompleted_mem_trace (result : TaskInfo) :
    ⟨.taskCompleted t.id, w.status, w.st⟩ ∈ (taskCompleted e conf env t result w).2.trace := by
  cases hc : completionStatus (w.rows t.id) with
  | none => simp [taskCompleted, hc, World.emit]
  | some p =>
    obtain ⟨s, details⟩ := p
    refine (taskCompleted_suffix hc result).subset ?_
    simp [World.setTaskStatus, World.emit]

/-- A completed update of a destination that finds no other task active is the last one to
complete, if nothing of its execution went wrong by then. -/
lemma Steady.update_last (hs : Steady e w) (wf : WellFormed e)
    (hno : ∀ s ∈ e.tasks, w.st s.id ≠ .onErrorOnly) (hty : t.taskType = .updateDestinationTransfer)
    (hchild : ∀ s ∈ e.tasks, t.id ∉ s.dependsOn) (ht : t ∈ e.tasks)
    (hcast : castOnly w (.completion t))
    (hcond : updatesUndisturbed e ⟨.taskCompleted t.id, w.status, w.st⟩ = true)
    (hc : completionStatus (w.rows t.id) = some (s, details))
    (hst : w'.st = Function.update w.st t.id s) (hother : otherTasksRunning e w' t = false) :
    ∀ u ∈ e.tasks, w'.st u.id = .completed := by
  have hother : ∀ u ∈ e.tasks, u.id ≠ t.id → (w.st u.id).isActive = false := by
    intro u hu hne
    have := List.any_eq_false.mp hother u hu
    simpa [hst, hne, Function.update_of_ne hne] using this
  have hun : ∀ u ∈ e.tasks, (w.st u.id).isUndisturbed = true := by
    rcases updatesUndisturbed_cases ht hty hcond with hset | ⟨u, hu, hne, hact⟩ | hun
    · rw [completionStatus_of_isSettled hset] at hc
      simp at hc
    · simp [hother u hu hne] at hact
    · exact hun
  have haw : w.status ≠ .awaitingMinionAllocations := fun haw =>
    (hs.awaiting haw).notCast _ ht hcast
  intro u hu
  rw [hst]
  by_cases hut : u.id = t.id
  · rw [hut, Function.update_self]
    rcases completionStatus_some hc with ⟨-, -, -, h⟩ | ⟨h, -⟩
    · exact h
    · have := hun t ht
      rcases h with h | h | h <;>
        rw [show w.st t.id = (w.rows t.id).status from rfl, h] at this <;>
        cases this
  · rw [Function.update_of_ne hut]
    exact hs.update_completed wf hno hchild haw hun hother hu hut

lemma Steady.update_stored (hs : Steady e w) (wf : WellFormed e)
    (hno : ∀ s ∈ e.tasks, w.st s.id ≠ .onErrorOnly)
    (hchild : t.taskType = .updateDestinationTransfer → ∀ s ∈ e.tasks, t.id ∉ s.dependsOn)
    (ht : t ∈ e.tasks) (hcast : castOnly w (.completion t))
    (hcond : updatesUndisturbed e ⟨.taskCompleted t.id, w.status, w.st⟩ = true)
    (hev : ev ∈ (taskCompleted e conf env t result w).2.posts)
    (heff : ev.effect = .postTaskAction (.updateTransfer v)) :
    ev ∈ w.posts ∨ ∀ s ∈ e.tasks, ev.tasks s.id = .completed := by
  rcases @taskCompleted_posts e conf env w t result with
    h | ⟨s, details, info, w₁, a, hc, hres, h, ha⟩ <;> rw [h] at hev
  · exact .inl hev
  rcases List.mem_cons.mp hev with rfl | hev
  swap
  · exact .inl hev
  obtain ⟨hty, hother, -⟩ := ha v (by simpa using heff)
  have hst : w₁.st = Function.update w.st t.id s :=
    (storeTaskResult_kept hres).st.trans (World.st_setTaskStatus ..)
  exact .inr (hs.update_last wf hno hty (hchild hty) ht hcast hcond hc hst hother)

/-- The parameters of a transfer are stored in states only where all of the update completed,
if nothing of it went wrong by then. -/
theorem parameters_stored_after_completion (updatedProperties : TaskInfo)
    (before : String → Option TaskInfo) (e : Execution) (conf : Conf) (w w' : World)
    (h : Launched (.updateTransfer updatedProperties) before e w)
    (hrun : Run e conf castOnly w w')
    (hcond : ∀ ev ∈ w'.trace, updatesUndisturbed e ev = true) :
    ∀ ev ∈ w'.trace, ∀ v, ev.effect = .postTaskAction (.updateTransfer v) →
      ∀ t ∈ e.tasks, ev.tasks t.id = .completed := by
  suffices hposts : ∀ ev ∈ w'.posts, ∀ v, ev.effect = .postTaskAction (.updateTransfer v) →
      ∀ t ∈ e.tasks, ev.tasks t.id = .completed from
    fun ev hev v heff => hposts ev (mem_posts.mpr ⟨hev, by rw [heff]; rfl⟩) v heff
  induction hrun with
  | refl => simp [h.posts]
  | @tail w₁ w₂ hrun hstep ih =>
    obtain ⟨w₀, hb, hch, hst⟩ := h.run hrun
    have hsuf := (hst.step hb.wellFormed hstep).1.suffix
    have ih := ih fun ev hev => hcond ev (hsuf.subset hev)
    have hno : ∀ s ∈ e.tasks, w₁.st s.id ≠ .onErrorOnly := by
      intro s hs hoe
      rcases hb.statuses hs with h' | ⟨-, h'⟩
      · rw [hch.onErrorOnly hs hoe] at h'
        cases h'
      · simp [(hb.update_parents hs).1] at h'
    obtain ⟨env, c, hc, rfl⟩ := hstep
    by_cases hbooks : c.keepsBooks = false
    · rwa [(step_writes hbooks).posts]
    cases c with
    | taskCompleted t result =>
      obtain ⟨ht, hcast⟩ := hc _ rfl
      intro ev hev v heff
      rcases hst.update_stored hb.wellFormed hno
        (fun hty s hs hd => (hb.update_parents hs).2 t ht hd hty) ht hcast
        (hcond _ (taskCompleted_mem_trace result)) hev heff with
        hev | hall
      · exact ih ev hev v heff
      · exact hall
    | confirmMinionsAllocation l =>
      rw [show (step e conf env (.confirmMinionsAllocation l) w₁).2.posts = w₁.posts from
        confirmMinionsAllocation_posts l]
      exact ih
    | _ => simp [Call.keepsBooks] at hbooks

/-- The update of the notes of a transfer of two instances. The tasks of each are the query of
its info, the update of the source and the update of the destination. -/
def update : Execution :=
  (Request.updateTransfer [("notes", .str "new")]).execution replicated ["vm1", "vm2"] "execution"
    "transfer"

def updateStored : World :=
  (Request.updateTransfer [("notes", .str "new")]).stored replicated ["vm1", "vm2"]

lemma built_update :
    Built (.updateTransfer [("notes", .str "new")]) replicated update updateStored :=
  Request.built _ _ _ _ _ (by simp [Request.accepts, replicated]) (by decide) (by decide)

def updateBegun : World := (beginTasks update responsive updateStored updateStored).2

/-- The calls of a worker that completes a task it had already started. -/
def finishes (e : Execution) (id : TaskId) : List (Env × Call) :=
  (e.tasks.filter (·.id = id)).map fun t => (responsive, .taskCompleted t [])

/-- Whether the parameters of the transfer were stored in a state where a task had the given
status. -/
def World.storedWhile (w : World) (id : TaskId) (s : TaskStatus) : Bool :=
  w.trace.any fun ev => match ev.effect with
    | .postTaskAction (.updateTransfer _) => ev.tasks id == s
    | _ => false

lemma exists_of_storedWhile {id : TaskId} (h : w.storedWhile id s = true) :
    ∃ ev ∈ w.trace, (∃ v, ev.effect = .postTaskAction (.updateTransfer v)) ∧ ev.tasks id = s := by
  obtain ⟨ev, hev, h⟩ := List.any_eq_true.mp h
  refine ⟨ev, hev, ?_⟩
  split at h
  · exact ⟨⟨_, ‹_›⟩, by simpa using h⟩
  · simp at h

/-- The query for the second instance fails while the destination of the first is updated.
That worker completes all the same, and the new parameters are stored. -/
theorem parameters_stored_after_failure :
    ∃ w', Launched (.updateTransfer [("notes", .str "new")]) replicated update updateBegun ∧
      Run update plainConf castOnly updateBegun w' ∧
      ∃ ev ∈ w'.trace, (∃ v, ev.effect = .postTaskAction (.updateTransfer v)) ∧
        ev.tasks 3 = .error :=
  ⟨runCalls update plainConf (completes update 0 ++ completes update 1 ++ runs update 2 ++
      runs update 3 ++ fails update 3 ++ finishes update 2) updateBegun,
    .begun built_update rfl, run_of_castCalls (by decide),
    exists_of_storedWhile (by decide)⟩

/-- Everything completes, and then the parameters are stored. -/
theorem parameters_stored_update :
    let w' := runCalls update plainConf ((List.range 6).flatMap (completes update)) updateBegun
    w'.storedWhile 2 .completed = true ∧
      ∀ ev ∈ w'.trace, ∀ v, ev.effect = .postTaskAction (.updateTransfer v) →
        ∀ t ∈ update.tasks, ev.tasks t.id = .completed := by
  intro w'
  exact ⟨by decide, parameters_stored_after_completion _ _ update plainConf updateBegun w'
    (.begun built_update rfl) (run_of_castCalls (by decide)) (by decide)⟩

end Coriolis.Conductor

import Coriolis.Conductor.Build

/-!
# Runs of built executions

A request stores its execution and begins it, unless it waits for minions first: then
`confirm_transfer_minions_allocation` begins it, which is a call of the run. `Launched` is
what a request leaves behind. In a run from there workers speak of the tasks that were
handed to them, and `Launched.run` says what every such run is: a path of changes from the
stored execution to a steady one.
-/

namespace Coriolis.Conductor

variable {r : Request} {before : String → Option TaskInfo} {e : Execution}
  {ok : World → Report → Prop} {env : Env} {w w' : World}

/-- The database `_begin_tasks` finds: the one the request stored, or the one with the
minions written into it. -/
def Beginning (r : Request) (before : String → Option TaskInfo) (e : Execution) (w : World) :
    Prop :=
  ∃ w₀, Built r before e w₀ ∧
    (r.awaitsMinions = false ∧ w = w₀ ∨
      r.awaitsMinions = true ∧
        ∃ allocations, updateTaskInfoForMinionAllocations e allocations w₀ = (.ok (), w))

lemma Beginning.wellFormed (h : Beginning r before e w) : WellFormed e := by
  obtain ⟨w₀, hb, -⟩ := h
  exact hb.wellFormed

lemma Built.status_eq (hb : Built r before e w) :
    w.status = if r.awaitsMinions then .awaitingMinionAllocations else .unexecuted := by
  rcases hb.status with ⟨h, hs, -⟩ | ⟨h, hs, -⟩ <;> simp [h, hs]

lemma Beginning.kept (h : Beginning r before e w) :
    ∃ w₀, Built r before e w₀ ∧ Bookkeeping w₀ w := by
  obtain ⟨w₀, hb, ⟨-, rfl⟩ | ⟨-, allocations, hres⟩⟩ := h
  · exact ⟨w, hb, .refl w⟩
  · have hkept := @updateTaskInfoForMinionAllocations_kept e w₀ allocations
    rw [hres] at hkept
    exact ⟨w₀, hb, hkept⟩

lemma Beginning.ready (h : Beginning r before e w) : Ready e w := by
  obtain ⟨w₀, hb, hkept⟩ := h.kept
  exact hb.ready.kept hkept

lemma Beginning.status (h : Beginning r before e w) :
    w.status = if r.awaitsMinions then .awaitingMinionAllocations else .unexecuted := by
  obtain ⟨w₀, hb, hkept⟩ := h.kept
  rw [hkept.status, hb.status_eq]

lemma Beginning.begin_ok (h : Beginning r before e w) :
    w.status = .unexecuted ∨ w.lastExecutionStatus = .awaitingMinionAllocations := by
  obtain ⟨w₀, hb, hkept⟩ := h.kept
  rw [hkept.status, hkept.last]
  rcases hb.status with ⟨-, h, -⟩ | ⟨-, -, h, -⟩
  · exact .inl h
  · exact .inr h

/-- What a request leaves behind: an execution that began, whatever came of it, or one that
waits for its minions. -/
inductive Launched (r : Request) (before : String → Option TaskInfo) (e : Execution) :
    World → Prop
  | begun {w : World} {env : Env} (hb : Built r before e w) (h : r.awaitsMinions = false) :
      Launched r before e (beginTasks e env w w).2
  | awaiting {w : World} (hb : Built r before e w) (h : r.awaitsMinions = true) : Launched r before e w

def reported (w : World) (r : Report) : Prop :=
  castOnly w r ∧ w.status ≠ .awaitingMinionAllocations ∧
    (w.status = .unexecuted → (w.st r.task.id).isSettled = true)

lemma Launched.start (h : Launched r before e w) (conf : Conf) :
    ∃ w₀, Built r before e w₀ ∧ Changes e conf True reported w₀ w ∧ Steady e w := by
  cases h with
  | @begun w₀ env hb h =>
    obtain ⟨h1, h2⟩ := @beginTasks_spec e conf True reported env w₀ (fun _ => hb.wellFormed)
      (fun _ => hb.ready) (.inl (by rw [hb.status_eq, h]; rfl))
    exact ⟨w₀, hb, h1, h2 trivial⟩
  | awaiting hb h =>
    have hr := hb.ready
    have haw : w.status = .awaitingMinionAllocations := by rw [hb.status_eq, h]; rfl
    refine ⟨w, hb, .refl, hr.released, by simp [haw], fun _ => hr.fresh, fun hi => ?_, by simp [haw],
      hr.last, hr.info⟩
    rw [haw] at hi
    cases hi

lemma Steady.step (wf : WellFormed e) (hst : Steady e w) (h : Step e conf castOnly w w') :
    Changes e conf True reported w w' ∧ Steady e w' := by
  obtain ⟨env, c, hc, rfl⟩ := h
  have hreport : ∀ r ∈ c.report?, r.task ∈ e.tasks ∧ reported w r ∧
      (True → w.status ≠ .awaitingMinionAllocations) := by
    intro r hr
    obtain ⟨ht, hcast⟩ := hc r hr
    have haw : w.status ≠ .awaitingMinionAllocations := fun haw =>
      (hst.awaiting haw).notCast _ ht hcast
    exact ⟨ht, ⟨hcast, haw, fun hun => hst.unexecuted hun _ ht⟩, fun _ => haw⟩
  obtain ⟨h1, h2⟩ := @step_spec e conf True reported env w (fun _ => wf) (fun _ => hst) c hreport
    fun _ => hst.last
  exact ⟨h1, h2 trivial⟩

lemma Launched.run (h : Launched r before e w) (hrun : Run e conf castOnly w w') :
    ∃ w₀, Built r before e w₀ ∧ Changes e conf True reported w₀ w' ∧ Steady e w' := by
  induction hrun with
  | refl => exact h.start conf
  | tail _ hstep ih =>
    obtain ⟨w₀, hb, hch, hst⟩ := ih
    obtain ⟨h1, h2⟩ := hst.step hb.wellFormed hstep
    exact ⟨w₀, hb, hch.trans h1, h2⟩

end Coriolis.Conductor

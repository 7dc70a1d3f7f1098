import Mathlib.Data.List.Perm.Basic
import Mathlib.Order.MinMax

/-!
# Progress of a task

A worker reports the progress of a step only when its percentage grows, and the conductor may
process the updates in another order. What is stored is the largest one, which has the percentage
of the largest value the worker has seen.
-/

namespace Coriolis.Progress

/-- `_PercStepData` of one step. -/
structure PercStepData where
  lastPerc : Int
  lastValue : Int
  totalSteps : Int

def perc (step totalSteps : Int) : Int :=
  if 0 < step ∧ 0 < totalSteps then step * 100 / totalSteps else 0

/-- `add_percentage_step`, where the progress update is stored with the initial step. -/
def addPercentageStep (totalSteps initialStep : Int) : Except String PercStepData :=
  let totalSteps := if totalSteps < 0 then 0 else totalSteps
  if initialStep > totalSteps then
    .error (s!"Provided percent step initial value '{initialStep}' is larger than the " ++
      s!"maximum value '{totalSteps}'")
  else .ok ⟨perc initialStep totalSteps, initialStep, totalSteps⟩

/-- `set_percentage_step`, with the value of the update if one is sent. -/
def setPercentageStep (step : PercStepData) (newCurrentStep : Int) : PercStepData × Option Int :=
  if step.lastValue > newCurrentStep then (step, none)
  else if perc newCurrentStep step.totalSteps > step.lastPerc then
    (⟨perc newCurrentStep step.totalSteps, 0, step.totalSteps⟩, some newCurrentStep)
  else (step, none)

/-- The updates that a sequence of values sends. -/
def updates (step : PercStepData) : List Int → List Int
  | [] => []
  | value :: values =>
    (setPercentageStep step value).2.toList ++ updates (setPercentageStep step value).1 values

/-- `update_task_progress_update`. -/
def updateTaskProgressUpdate (currentStep newCurrentStep : Int) : Int :=
  if newCurrentStep < currentStep then currentStep else newCurrentStep

def stored (initialStep : Int) (processed : List Int) : Int :=
  processed.foldl updateTaskProgressUpdate initialStep

lemma stored_eq (s : Int) (processed : List Int) : stored s processed = processed.foldl max s := by
  have hmax : updateTaskProgressUpdate = max := by
    funext s n
    unfold updateTaskProgressUpdate
    omega
  rw [stored, hmax]

section

variable {total : Int} (htotal : 0 < total)

include htotal

lemma percentage_le (h : a ≤ b) : 100 * a / total ≤ 100 * b / total :=
  Int.ediv_le_ediv htotal (by omega)

lemma perc_eq (step : Int) : perc step total = max 0 (100 * step / total) := by
  unfold perc
  split
  · next h =>
    rw [Int.mul_comm, max_eq_right]
    simpa using percentage_le htotal h.1.le
  · next h =>
    rw [max_eq_left]
    simpa using percentage_le htotal (show step ≤ 0 by omega)

/-- `s` is what the updates so far store, `m` the largest value so far. -/
lemma percentage_updates (values : List Int) (hs : 0 ≤ s) (htot : step.totalSteps = total)
    (hperc : step.lastPerc = 100 * s / total) (hvalue : step.lastValue ≤ s)
    (hm : 100 * s / total = 100 * m / total) :
    100 * (updates step values).foldl max s / total = 100 * values.foldl max m / total := by
  have hmono : Monotone fun step : Int => 100 * step / total := fun _ _ => percentage_le htotal
  induction values generalizing step s m with
  | nil => exact hm
  | cons v values ih =>
    have hpos : 0 ≤ 100 * s / total := by simpa using hmono hs
    -- a value that sends nothing does not have a larger percentage
    have hkept (hle : 100 * v / total ≤ 100 * s / total) :
        100 * s / total = 100 * max m v / total := by
      rw [hmono.map_max, ← hm, max_eq_left hle]
    simp only [updates, setPercentageStep, List.foldl_cons]
    split
    · next hback =>
      exact ih hs htot hperc hvalue (hkept (hmono (by omega)))
    · split
      · next hsent =>
        rw [htot, perc_eq htotal, hperc] at hsent
        have hlt : 100 * s / total < 100 * v / total := by omega
        have hsv : s < v := hmono.reflect_lt hlt
        refine ih (le_max_of_le_left hs) htot ?_ (le_max_of_le_left hs) ?_
        · change perc v step.totalSteps = _
          rw [htot, perc_eq htotal, max_eq_right hsv.le, max_eq_right (by omega)]
        · rw [hmono.map_max, hmono.map_max, hm]
      · next hsent =>
        rw [htot, perc_eq htotal, hperc] at hsent
        exact ih hs htot hperc hvalue (hkept (by omega))

end

/-- The stored step only grows, in whatever order the updates are processed, and has in the end the
percentage of the largest value. -/
theorem progress_kept (totalSteps initialStep : Int) (hpos : 0 < totalSteps)
    (hinit : 0 ≤ initialStep) (hle : initialStep ≤ totalSteps) :
    ∃ step, addPercentageStep totalSteps initialStep = .ok step ∧
      ∀ values processed : List Int, processed.Perm (updates step values) →
        (∀ done new rest, processed = done ++ new :: rest →
          stored initialStep done ≤ stored initialStep (done ++ [new])) ∧
        100 * stored initialStep processed / totalSteps =
          100 * values.foldl max initialStep / totalSteps := by
  refine ⟨⟨perc initialStep totalSteps, initialStep, totalSteps⟩, ?_, ?_⟩
  · rw [addPercentageStep, if_neg (by omega), if_neg (by omega)]
  intro values processed hperm
  constructor
  · intro done new rest _
    rw [stored_eq, stored_eq, List.foldl_append]
    exact le_max_left _ _
  · rw [stored_eq, hperm.foldl_eq]
    refine percentage_updates hpos values hinit rfl ?_ le_rfl rfl
    rw [perc_eq hpos, max_eq_right]
    simpa using percentage_le hpos hinit

theorem progress_kept_half : ∃ step, addPercentageStep 200 0 = .ok step ∧
    ∀ values processed : List Int, processed.Perm (updates step values) →
      (∀ done new rest, processed = done ++ new :: rest →
        stored 0 done ≤ stored 0 (done ++ [new])) ∧
      100 * stored 0 processed / 200 = 100 * values.foldl max 0 / 200 :=
  progress_kept 200 0 (by decide) (by decide) (by decide)

end Coriolis.Progress

import Coriolis.Conductor.System

/-!
# Deployments that wait for an execution

The deployer manager polls the execution a deployment waits for, and sends a confirmation or
a failure. Both are casts, so they can be repeated and cross each other.
`report_deployer_failure` looks at the status of the deployment, `confirm_deployer_completed`
does not: a second confirmation, or one that comes after a failure, creates an execution.
-/

namespace Coriolis.Conductor

variable {conf : Conf} {ok : World → Report → Prop}

lemma beginTasks_last (h : (beginTasks e env w w).1 = .ok ()) :
    (beginTasks e env w w).2.lastExecutionStatus = .running := by
  simp only [beginTasks] at h ⊢
  split at h
  · simp at h
  · split at h
    · simp at h
    · rename_i hne
      simp [hne]

namespace System

variable {s s' : System} {j : Nat} {d d' : Deployment} {a a' : TransferAction}

lemma launched_ne_pending (h : a.Starts r before res a') :
    (launched res a').lastExecutionStatus ≠ .pending := by
  cases h with
  | @begun e w env hb hi hr hl =>
    rcases hres : (beginTasks e env w w).1 with err | u
    · simp [launched, TransferAction.setLastExecutionStatus]
    · have := beginTasks_last hres
      simp [launched, TransferAction.add, this]
  | awaiting hb hi hr =>
    rcases hb.status with ⟨hr', -⟩ | ⟨-, -, hl, -⟩
    · simp [hr] at hr'
    · simp [launched, TransferAction.add, hl]

/-- An action gets at most one execution more and is not PENDING then, and it is PENDING
only if it was. -/
def Proceeds (a a' : TransferAction) : Prop :=
  a'.records.length = a.records.length ∧
      (a'.lastExecutionStatus = .pending → a.lastExecutionStatus = .pending) ∨
    a'.records.length = a.records.length + 1 ∧ a'.lastExecutionStatus ≠ .pending

lemma Step.deployment (h : Step conf ok s s') (hs : s.Sound)
    (hd : s.deployments[j]? = some d) :
    ∃ d', s'.deployments[j]? = some d' ∧ d'.deployerId = d.deployerId ∧
      Proceeds d.action d'.action := by
  have hj : j < s.deployments.length := (List.getElem?_eq_some_iff.mp hd).1
  have hsame : ∃ d', s.deployments[j]? = some d' ∧ d'.deployerId = d.deployerId ∧
      Proceeds d.action d'.action := ⟨d, hd, rfl, .inl ⟨rfl, id⟩⟩
  have hadd : ∀ {d₀ : Deployment}, (s.addDeployment d₀).deployments[j]? = s.deployments[j]? :=
    fun {d₀} => List.getElem?_append_left hj
  -- a call on deployment `k` leaves the others alone
  have hput : ∀ {k : Nat} {d₀ : Deployment} {a : TransferAction}, s.deployments[k]? = some d₀ →
      Proceeds d₀.action a → ∃ d', (s.putDeployment k d₀ a).deployments[j]? = some d' ∧
        d'.deployerId = d.deployerId ∧ Proceeds d.action d'.action := by
    intro k d₀ a hk ha
    by_cases hkj : k = j
    · subst hkj
      rw [hd, Option.some.injEq] at hk
      subst hk
      exact ⟨_, List.getElem?_set_self hj, rfl, ha⟩
    · rw [show (s.putDeployment k d₀ a).deployments[j]? = s.deployments[j]? from
        List.getElem?_set_ne hkj]
      exact hsame
  have herror : ∀ {a : TransferAction}, Proceeds a (a.setLastExecutionStatus .error) := fun {a} =>
    .inl ⟨rfl, fun hp => by simp [TransferAction.setLastExecutionStatus] at hp⟩
  cases h with
  | callDeployment hk hc =>
    refine hput hk (.inl ⟨TransferAction.length_call, fun hp => ?_⟩)
    rcases ((hs.deployment hk).step_changes hc).lastExecutionStatus with ⟨-, hl⟩ | ⟨hl, -, hne⟩
    · exact hl.symm.trans hp
    · exact absurd (hl.symm.trans hp) hne
  | confirmDeployerCompleted hk _ _ _ h =>
    exact hput hk (.inr ⟨by rw [launched_records, h.keeps.2], launched_ne_pending h⟩)
  | confirmDeployerFailed hk | reportDeployerFailure hk => exact hput hk herror
  | callTransfer | execute => exact hsame
  | deployLater | deploy | deployFailed => rw [hadd]; exact hsame

lemma Step.new_deployment (h : Step conf ok s s') (hd : s.deployments[j]? = none)
    (hd' : s'.deployments[j]? = some d') (hw : d'.deployerId.isSome = true) :
    d'.action.records = [] := by
  have hj : s.deployments.length ≤ j := List.getElem?_eq_none_iff.mp hd
  have hnone : s.deployments[j]? ≠ some d' := by simp [hd]
  have hput : ∀ {k : Nat} {d₀ : Deployment} {a : TransferAction},
      (s.putDeployment k d₀ a).deployments[j]? = none := by
    intro k d₀ a
    rw [List.getElem?_eq_none_iff]
    simpa [putDeployment] using hj
  have hadd : ∀ {d₀ : Deployment}, (s.addDeployment d₀).deployments[j]? = some d' → d' = d₀ := by
    intro d₀ h
    rw [addDeployment, List.getElem?_append_right hj, List.getElem?_singleton] at h
    split at h
    · simpa using h.symm
    · simp at h
  cases h with
  | deployLater =>
    rw [hadd hd']
    rfl
  | deploy | deployFailed => simp [hadd hd'] at hw
  | callTransfer | execute => exact absurd hd' hnone
  | callDeployment => exact absurd hd' (by simp [System.callDeployment, storeVolumesInfo, hput])
  | confirmDeployerCompleted | confirmDeployerFailed | reportDeployerFailure =>
    exact absurd hd' (by simp [hput])

/-- Where a deployment that waits gets an execution, it is PENDING. -/
def ConfirmsPending (s s' : System) : Prop :=
  ∀ (j : Nat) (d d' : Deployment), s.deployments[j]? = some d →
    s'.deployments[j]? = some d' → d.deployerId.isSome = true →
    d.action.records.length < d'.action.records.length →
    d.action.lastExecutionStatus = .pending

/-- A handler call of a run in which confirmations come once and in time. -/
def PromptStep (conf : Conf) (ok : World → Report → Prop) (s s' : System) : Prop :=
  Step conf ok s s' ∧ ConfirmsPending s s'

/-- Every deployment that waits has at most one execution, and none while it is PENDING. -/
def Awaited (s : System) : Prop :=
  ∀ (j : Nat) (d : Deployment), s.deployments[j]? = some d → d.deployerId.isSome = true →
    d.action.records.length ≤ 1 ∧
      (d.action.lastExecutionStatus = .pending → d.action.records.length = 0)

lemma Awaited.step (h : s.Awaited) (hs : s.Sound) (hstep : PromptStep conf ok s s') :
    s'.Awaited := by
  obtain ⟨hstep, hprompt⟩ := hstep
  intro j d' hd' hw
  rcases hd : s.deployments[j]? with - | d
  · have hnil := hstep.new_deployment hd hd' hw
    simp [hnil]
  obtain ⟨d₁, hd₁, hid, hproceeds⟩ := hstep.deployment hs hd
  rw [hd', Option.some.injEq] at hd₁
  subst hd₁
  have hw' : d.deployerId.isSome = true := hid ▸ hw
  obtain ⟨hlen, hpending⟩ := h j d hd hw'
  rcases hproceeds with ⟨hn, hp⟩ | ⟨hn, hp⟩
  · exact ⟨hn ▸ hlen, fun hl => hn.trans (hpending (hp hl))⟩
  · have hzero := hpending (hprompt j d d' hd hd' hw' (by omega))
    exact ⟨by omega, fun hl => absurd hl hp⟩

lemma PromptRun.awaited (h : Relation.ReflTransGen (PromptStep conf ok) (new instances) s) :
    s.Sound ∧ s.Awaited := by
  induction h with
  | refl => exact ⟨sound_new _, fun j d hd => by simp [new] at hd⟩
  | tail _ hstep ih => exact ⟨(hstep.1.sound_follows ih.1).1, ih.2.step ih.1 hstep⟩

/-- A deployment that waits and is not PENDING keeps the executions it has. -/
lemma PromptRun.records_kept (h : Relation.ReflTransGen (PromptStep conf ok) s s')
    (hs : s.Sound) (hd : s.deployments[j]? = some d) (hw : d.deployerId.isSome = true)
    (hl : d.action.lastExecutionStatus ≠ .pending) :
    ∃ d', s'.deployments[j]? = some d' ∧
      d'.action.records.length = d.action.records.length := by
  suffices s'.Sound ∧ ∃ d', s'.deployments[j]? = some d' ∧ d'.deployerId.isSome = true ∧
      d'.action.lastExecutionStatus ≠ .pending ∧
      d'.action.records.length = d.action.records.length by
    obtain ⟨-, d', hd', -, -, hn⟩ := this
    exact ⟨d', hd', hn⟩
  induction h with
  | refl => exact ⟨hs, d, hd, hw, hl, rfl⟩
  | tail _ hstep ih =>
    obtain ⟨hs₁, d₁, hd₁, hw₁, hl₁, hn₁⟩ := ih
    obtain ⟨d₂, hd₂, hid, hproceeds⟩ := hstep.1.deployment hs₁ hd₁
    refine ⟨(hstep.1.sound_follows hs₁).1, d₂, hd₂, hid ▸ hw₁, ?_⟩
    rcases hproceeds with ⟨hn, hp⟩ | ⟨hn, hp⟩
    · exact ⟨fun h => hl₁ (hp h), hn.trans hn₁⟩
    · exact absurd (hstep.2 _ _ _ hd₁ hd₂ hw₁ (by omega)) hl₁

/-- In a run where confirmations find their deployments PENDING, a deployment that waits
gets at most one execution, and none once a failure of its deployer was reported. -/
theorem deployment_executed_at_most_once (conf : Conf) (ok : World → Report → Prop)
    (instances : List String) (s : System)
    (h : Relation.ReflTransGen (PromptStep conf ok) (new instances) s) (j : Nat) (d : Deployment)
    (hd : s.deployments[j]? = some d) (hw : d.deployerId.isSome = true) :
    d.action.records.length ≤ 1 ∧
      ∀ s', Relation.ReflTransGen (PromptStep conf ok)
          (s.putDeployment j d (d.action.setLastExecutionStatus .error)) s' →
        ∃ d', s'.deployments[j]? = some d' ∧
          d'.action.records.length = d.action.records.length := by
  obtain ⟨hs, hawaited⟩ := PromptRun.awaited h
  refine ⟨(hawaited j d hd hw).1, fun s' h' => ?_⟩
  have hfailed : Step conf ok s (s.putDeployment j d (d.action.setLastExecutionStatus .error)) :=
    .reportDeployerFailure hd hw
  have hd' : (s.putDeployment j d (d.action.setLastExecutionStatus .error)).deployments[j]? =
      some { d with action := d.action.setLastExecutionStatus .error } :=
    List.getElem?_set_self (List.getElem?_eq_some_iff.mp hd).1
  obtain ⟨d', hd'', hn⟩ := PromptRun.records_kept h' (hfailed.sound_follows hs).1 hd' hw
    (by simp [TransferAction.setLastExecutionStatus])
  exact ⟨d', hd'', hn⟩

def waiting : Deployment := ⟨some "execution", executing.newDeployment .pending⟩

lemma executed_deployments : executed.deployments[0]? = some waiting := rfl

def failed : System :=
  executed.putDeployment 0 waiting (waiting.action.setLastExecutionStatus .error)

/-- The execution of the deployment fails at its first task, and the confirmation comes a
second time. -/
def confirmedTwice : System :=
  (executed.confirm.handleAll plainConf (1, 0) (runs deployment 0 ++ fails deployment 0)).confirm

/-- A repeated confirmation creates a second execution, and one that comes after a failure
creates an execution too. -/
theorem deployment_executed_again :
    Run plainConf castOnly (new ["vm"]) confirmedTwice ∧
      (confirmedTwice.deployments[0]?.map fun d => (d.deployerId, d.action.records.length)) =
        some (some "execution", 2) ∧
      Run plainConf castOnly (new ["vm"]) executed ∧
      Step plainConf castOnly executed failed ∧ Step plainConf castOnly failed failed.confirm ∧
      (failed.deployments[0]?.map fun d => (d.action.lastExecutionStatus,
        d.action.records.length)) = some (.error, 0) ∧
      (failed.confirm.deployments[0]?.map fun d => d.action.records.length) = some 1 := by
  refine ⟨?_, by decide, run_executed, .reportDeployerFailure executed_deployments rfl,
    step_confirm (by decide +kernel), by decide +kernel, by decide +kernel⟩
  refine ((run_executed.tail (step_confirm (by decide +kernel))).trans
    (run_handleAll (by decide +kernel))).tail (step_confirm (by decide +kernel))

lemma ConfirmsPending.of_eq (h : s'.deployments = s.deployments) : ConfirmsPending s s' := by
  intro j d d' hd hd' _ hlt
  rw [h, hd, Option.some.injEq] at hd'
  simp [hd'] at hlt

lemma promptRun_handleAll (h : takesAll conf (0, i) calls s = true) :
    Relation.ReflTransGen (PromptStep conf castOnly) s (s.handleAll conf (0, i) calls) := by
  induction calls generalizing s with
  | nil => exact .refl
  | cons call calls ih =>
    simp only [takesAll, Bool.and_eq_true] at h
    refine .head ⟨step_handle h.1.1 h.1.2, .of_eq ?_⟩ (ih h.2)
    simp only [handle]
    split <;> rfl

lemma promptRun_executed :
    Relation.ReflTransGen (PromptStep plainConf castOnly) (new ["vm"]) executed := by
  have hexecute : PromptStep plainConf castOnly (new ["vm"]) executing :=
    ⟨.execute (by decide) rfl (TransferAction.starts_start trivial (by decide)), .of_eq rfl⟩
  have hlater : PromptStep plainConf castOnly executing (executing.addDeployment waiting) :=
    ⟨.deployLater, fun j d d' hd => by simp [executing, new] at hd⟩
  exact (Relation.ReflTransGen.single hexecute).trans
    (.head hlater (promptRun_handleAll (by decide)))

/-- The deployment is confirmed in time and has its one execution. -/
theorem deployment_executed_at_most_once_confirmed :
    ∃ d, executed.confirm.deployments[0]? = some d ∧ d.action.records.length = 1 ∧
      ∀ s', Relation.ReflTransGen (PromptStep plainConf castOnly)
          (executed.confirm.putDeployment 0 d (d.action.setLastExecutionStatus .error)) s' →
        ∃ d', s'.deployments[0]? = some d' ∧
          d'.action.records.length = d.action.records.length := by
  have hconfirm : PromptStep plainConf castOnly executed executed.confirm := by
    refine ⟨step_confirm (by decide +kernel), fun j d d' hd _ _ _ => ?_⟩
    obtain rfl : j = 0 := by
      have hlen : executed.deployments.length = 1 := rfl
      have := (List.getElem?_eq_some_iff.mp hd).1
      omega
    rw [executed_deployments, Option.some.injEq] at hd
    subst hd
    rfl
  exact ⟨_, rfl, by decide,
    (deployment_executed_at_most_once plainConf castOnly ["vm"] executed.confirm
      (promptRun_executed.tail hconfirm) 0 _ rfl rfl).2⟩

end System

end Coriolis.Conductor

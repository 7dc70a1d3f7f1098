import Coriolis.Conductor.Actions

/-!
# A transfer and its deployments

Requests for a transfer and for deployments of it are refused while any of their executions
is active. Each entry point makes that check on its own, and a deployment may be created to
wait for an execution of the transfer: the deployer manager then asks for its execution, by
`confirm_deployer_completed`, or gives it up, by `report_deployer_failure`.
-/

namespace Coriolis.Conductor

variable {r : Request} {before : String → Option TaskInfo} {e : Execution} {conf : Conf}
  {ok : World → Report → Prop} {env : Env}

structure Deployment where
  /-- The execution of the transfer that the deployment waits for. -/
  deployerId : Option String
  action : TransferAction

structure System where
  transfer : TransferAction
  deployments : List Deployment

namespace System

/-- `_check_transfer_running_executions`. A deployment with more than one execution makes
`_get_execution_for_deployment` raise. -/
def isIdle (s : System) : Bool :=
  s.transfer.isIdle &&
    s.deployments.all fun d => decide (d.action.records.length ≤ 1) && d.action.isIdle

/-- `_check_valid_transfer_tasks_execution`. -/
def isValid (s : System) (force : Bool) : Bool :=
  force || s.transfer.records.any fun x =>
    x.execution.type == .transferExecution && x.status == .completed

/-- What `_validate_deployment_inputs` reads in the database. -/
def acceptsDeployment (s : System) (force : Bool) : Bool :=
  s.isIdle && s.isValid force && s.transfer.instances.all fun inst =>
    match s.transfer.info inst with
    | some info => ((info.get? "volumes_info").getD .null).truthy
    | none => true

/-- The row `deploy_transfer_instances` stores, before it has any execution. -/
def newDeployment (s : System) (status : ExecutionStatus) : TransferAction :=
  ⟨s.transfer.instances, status, fun _ => none, []⟩

def addDeployment (s : System) (d : Deployment) : System :=
  { s with deployments := s.deployments ++ [d] }

def putDeployment (s : System) (j : Nat) (d : Deployment) (a : TransferAction) : System :=
  { s with deployments := s.deployments.set j { d with action := a } }

/-- `_update_volumes_info_for_deployment_parent_transfer`, if an event is a call of it. -/
def parentInfo (ev : Event) (info : String → Option TaskInfo) : String → Option TaskInfo :=
  match ev.effect with
  | .postTaskAction (.updateTransferVolumesInfo inst volumesInfo) =>
    Function.update info inst
      (some (((info inst).getD []).update [("volumes_info", volumesInfo)]))
  | _ => info

/-- What events of a deployment, the newest one first, do to its transfer. -/
def storeVolumesInfo (events : List Event) (s : System) : System :=
  { s with transfer := { s.transfer with info := events.foldr parentInfo s.transfer.info } }

/-- A call on an execution of a deployment. What it does to the volumes of the transfer is
among the newest events. -/
def callDeployment (conf : Conf) (env : Env) (j : Nat) (d : Deployment) (i : Nat) (x : Record)
    (c : Call) (s : System) : System :=
  let after := (step x.execution conf env c (d.action.world x)).2
  (s.putDeployment j d (d.action.call conf env i x c)).storeVolumesInfo
    (after.trace.take (after.trace.length - x.trace.length))

/-- The deployment after `confirm_deployer_completed` launched it: an exception of
`_begin_tasks` is recorded as an error of the deployment. -/
def launched (res : Except ConductorError Unit) (a : TransferAction) : TransferAction :=
  match res with
  | .ok _ => a
  | .error _ => a.setLastExecutionStatus .error

/-- A handler call on the transfer or on one of its deployments. A call that is refused
changes nothing, except that the refusal of `confirm_deployer_completed` is recorded. The
deployer manager speaks of the deployments that wait. -/
inductive Step (conf : Conf) (ok : World → Report → Prop) : System → System → Prop
  | callTransfer {s env i x c} (hc : s.transfer.Takes ok i x c) :
      Step conf ok s { s with transfer := s.transfer.call conf env i x c }
  /-- A deployment is cancelled, or given its minions, only if it has one execution. -/
  | callDeployment {s env j d i x c} (hd : s.deployments[j]? = some d)
      (hc : d.action.Takes ok i x c) (hone : c.report? = none → d.action.records.length = 1) :
      Step conf ok s (s.callDeployment conf env j d i x c)
  /-- `execute_transfer_tasks`, `delete_transfer_disks` or `update_transfer`. -/
  | execute {s r res a} (hr : r.type ≠ .deployment) (hidle : s.isIdle = true)
      (h : s.transfer.Starts r s.transfer.info res a) :
      Step conf ok s { s with transfer := a }
  /-- `deploy_transfer_instances` with an execution to wait for. -/
  | deployLater {s executionId} :
      Step conf ok s (s.addDeployment ⟨some executionId, s.newDeployment .pending⟩)
  | deploy {s force r res a} (hr : r.type = .deployment)
      (haccepts : s.acceptsDeployment force = true)
      (h : (s.newDeployment .unexecuted).Starts r s.transfer.info res a) :
      Step conf ok s (s.addDeployment ⟨none, a⟩)
  /-- `_execute_deployment` raised after the deployment was stored. -/
  | deployFailed {s force} (haccepts : s.acceptsDeployment force = true) :
      Step conf ok s (s.addDeployment ⟨none, s.newDeployment .unexecuted⟩)
  | confirmDeployerCompleted {s j d force r res a} (hd : s.deployments[j]? = some d)
      (hwaits : d.deployerId.isSome = true) (hr : r.type = .deployment)
      (haccepts : s.acceptsDeployment force = true)
      (h : d.action.Starts r s.transfer.info res a) :
      Step conf ok s (s.putDeployment j d (launched res a))
  /-- `confirm_deployer_completed` raised before an execution was stored. -/
  | confirmDeployerFailed {s j d} (hd : s.deployments[j]? = some d)
      (hwaits : d.deployerId.isSome = true) :
      Step conf ok s (s.putDeployment j d (d.action.setLastExecutionStatus .error))
  /-- `report_deployer_failure`, whether or not the deployment was PENDING. -/
  | reportDeployerFailure {s j d} (hd : s.deployments[j]? = some d)
      (hwaits : d.deployerId.isSome = true) :
      Step conf ok s (s.putDeployment j d (d.action.setLastExecutionStatus .error))

section

variable {s s' : System} {a a' : TransferAction}

/-- The transfer and its deployments, in the order they were created. -/
def actions (s : System) : List TransferAction := s.transfer :: s.deployments.map (·.action)

/-- The execution at a place: the number of the action and the number of the execution. -/
def record? (s : System) (p : Nat × Nat) : Option Record :=
  s.actions[p.1]?.bind (·.records[p.2]?)

lemma actions_putDeployment : (s.putDeployment j d a).actions = s.actions.set (j + 1) a := by
  simp [actions, putDeployment, List.map_set]

lemma actions_addDeployment : (s.addDeployment d).actions = s.actions ++ [d.action] := by
  simp [actions, addDeployment]

lemma actions_transfer : ({ s with transfer := a } : System).actions = s.actions.set 0 a := rfl

lemma actions_of_deployment (hd : s.deployments[j]? = some d) :
    s.actions[j + 1]? = some d.action := by
  simp [actions, hd]

lemma record?_storeVolumesInfo :
    (s.storeVolumesInfo events).record? = s.record? := by
  funext ⟨j, i⟩
  cases j <;> rfl

lemma inactive_of_isIdle (h : s.isIdle = true) (hx : s.record? p = some x) :
    x.status.isActive = false := by
  have hall : ∀ a ∈ s.actions, a.isIdle = true := by
    simp only [isIdle, Bool.and_eq_true, List.all_eq_true] at h
    intro a ha
    rcases List.mem_cons.mp ha with rfl | ha
    · exact h.1
    · obtain ⟨d, hd, rfl⟩ := List.mem_map.mp ha
      exact (h.2 d hd).2
  obtain ⟨a, ha, hx⟩ := Option.bind_eq_some_iff.mp hx
  have := List.all_eq_true.mp (hall a (List.mem_of_getElem? ha)) x (List.mem_of_getElem? hx)
  simpa using this

/-- What a handler call does to the executions: those that are there stay, none becomes
active again, and a new one comes only when none is active. -/
structure Follows (s s' : System) : Prop where
  kept : ∀ p x, s.record? p = some x → ∃ x', s'.record? p = some x' ∧
    x'.execution = x.execution ∧ (x.status.isActive = false → x'.status.isActive = false)
  fresh : ∃ q, ∀ p, s.record? p = none → s'.record? p ≠ none → p = q ∧ s.isIdle = true

lemma Follows.of_set (ha : s.actions[j]? = some a) (hs : s'.actions = s.actions.set j a')
    (hk : a.Keeps a') (hn : a'.records.length = a.records.length ∨
      s.isIdle = true ∧ a'.records.length = a.records.length + 1) : s.Follows s' := by
  have hj : j < s.actions.length := (List.getElem?_eq_some_iff.mp ha).1
  have hself : ∀ i, s.record? (j, i) = a.records[i]? ∧ s'.record? (j, i) = a'.records[i]? := by
    intro i
    simp [record?, ha, hs, List.getElem?_set_self hj]
  have hother : ∀ k i, k ≠ j → s'.record? (k, i) = s.record? (k, i) := by
    intro k i hk
    simp [record?, hs, List.getElem?_set_ne hk.symm]
  refine ⟨fun ⟨k, i⟩ x hx => ?_, (j, a.records.length), fun ⟨k, i⟩ hnone hsome => ?_⟩
  · by_cases hkj : k = j
    · subst hkj
      rw [(hself i).1] at hx
      rw [(hself i).2]
      exact hk i x hx
    · exact ⟨x, by rw [hother k i hkj, hx], rfl, id⟩
  · by_cases hkj : k = j
    · subst hkj
      rw [(hself i).1, List.getElem?_eq_none_iff] at hnone
      rw [(hself i).2, ne_eq, List.getElem?_eq_none_iff, not_le] at hsome
      rcases hn with hn | ⟨hidle, hn⟩
      · omega
      · exact ⟨by simp; omega, hidle⟩
    · exact absurd (by rw [hother k i hkj, hnone]) hsome

lemma Follows.of_append (hs : s'.actions = s.actions ++ [a])
    (hn : a.records = [] ∨ s.isIdle = true ∧ a.records.length = 1) : s.Follows s' := by
  have hold : ∀ p : Nat × Nat, p.1 < s.actions.length → s'.record? p = s.record? p := by
    intro p hp
    simp [record?, hs, List.getElem?_append_left hp]
  refine ⟨fun p x hx => ?_, (s.actions.length, 0), fun ⟨k, i⟩ hnone hsome => ?_⟩
  · obtain ⟨b, hb, -⟩ := Option.bind_eq_some_iff.mp hx
    exact ⟨x, by rw [hold p (List.getElem?_eq_some_iff.mp hb).1, hx], rfl, id⟩
  · by_cases hk : k < s.actions.length
    · exact absurd (by rw [hold _ hk, hnone]) hsome
    · obtain ⟨x, hx⟩ := Option.ne_none_iff_exists'.mp hsome
      obtain ⟨b, hb, hx⟩ := Option.bind_eq_some_iff.mp hx
      have hlen := (List.getElem?_eq_some_iff.mp hb).1
      simp only [hs, List.length_append, List.length_singleton] at hlen
      obtain rfl : k = s.actions.length := by omega
      simp only [hs, List.getElem?_concat_length, Option.some.injEq] at hb
      subst hb
      have hi := (List.getElem?_eq_some_iff.mp hx).1
      rcases hn with hn | ⟨hidle, hn⟩
      · simp [hn] at hi
      · exact ⟨by simp; omega, hidle⟩

lemma Follows.storeVolumesInfo (h : s.Follows s') :
    s.Follows (s'.storeVolumesInfo events) := by
  refine ⟨?_, ?_⟩ <;> rw [record?_storeVolumesInfo]
  · exact h.kept
  · exact h.fresh

end

section

variable {s s' : System} {a : TransferAction} {j : Nat}

def Sound (s : System) : Prop := ∀ a ∈ s.actions, a.Sound

def Exclusive (s : System) : Prop :=
  ∀ p q x y, s.record? p = some x → s.record? q = some y → x.status.isActive = true →
    y.status.isActive = true → p = q

lemma Sound.transfer (h : s.Sound) : s.transfer.Sound := h _ (List.mem_cons_self ..)

lemma Sound.deployment (h : s.Sound) (hd : s.deployments[j]? = some d) : d.action.Sound :=
  h _ (List.mem_of_getElem? (actions_of_deployment hd))

lemma Sound.of_set (h : s.Sound) (ha : a.Sound) (hs : s'.actions = s.actions.set j a) :
    s'.Sound := by
  intro b hb
  rw [hs] at hb
  rcases List.mem_or_eq_of_mem_set hb with hb | rfl
  · exact h b hb
  · exact ha

lemma Sound.of_append (h : s.Sound) (ha : a.Sound) (hs : s'.actions = s.actions ++ [a]) :
    s'.Sound := by
  intro b hb
  rw [hs, List.mem_append, List.mem_singleton] at hb
  rcases hb with hb | rfl
  · exact h b hb
  · exact ha

lemma Sound.storeVolumesInfo (h : s.Sound) :
    (s.storeVolumesInfo events).Sound := by
  have ht : (s.storeVolumesInfo events).transfer.Sound := ⟨h.transfer.older, h.transfer.last⟩
  exact h.of_set (j := 0) ht rfl

lemma sound_newDeployment (h : status.isActive = false) :
    (s.newDeployment status).Sound :=
  ⟨fun _ _ hx => by simp [newDeployment] at hx, fun hact => by simp [newDeployment, h] at hact⟩

lemma isIdle_of_acceptsDeployment (h : s.acceptsDeployment force = true) :
    s.isIdle = true := by
  simp only [acceptsDeployment, Bool.and_eq_true] at h
  exact h.1.1

lemma isIdle_transfer (h : s.isIdle = true) : s.transfer.isIdle = true := by
  simp only [isIdle, Bool.and_eq_true] at h
  exact h.1

lemma isIdle_deployment (h : s.isIdle = true) (hd : s.deployments[j]? = some d) :
    d.action.isIdle = true := by
  simp only [isIdle, Bool.and_eq_true, List.all_eq_true] at h
  exact (h.2 d (List.mem_of_getElem? hd)).2

lemma launched_records :
    (launched res a).records = a.records := by
  cases res <;> rfl

lemma sound_launched (h : a.Sound) :
    (launched res a).Sound := by
  cases res
  · exact h.setLastExecutionStatus rfl
  · exact h

lemma Step.sound_follows (h : Step conf ok s s') (hs : s.Sound) : s'.Sound ∧ s.Follows s' := by
  cases h with
  | callTransfer hc =>
    have ht := hs.transfer
    exact ⟨hs.of_set (ht.call hc) actions_transfer,
      .of_set rfl actions_transfer (ht.keeps_call hc) (.inl TransferAction.length_call)⟩
  | callDeployment hd hc =>
    have hsound := hs.deployment hd
    exact ⟨(hs.of_set (hsound.call hc) actions_putDeployment).storeVolumesInfo,
      (Follows.of_set (actions_of_deployment hd) actions_putDeployment (hsound.keeps_call hc)
        (.inl TransferAction.length_call)).storeVolumesInfo⟩
  | execute _ hidle h =>
    exact ⟨hs.of_set (hs.transfer.starts (isIdle_transfer hidle) h) actions_transfer,
      .of_set rfl actions_transfer h.keeps.1 (.inr ⟨hidle, h.keeps.2⟩)⟩
  | deployLater | deployFailed =>
    exact ⟨hs.of_append (sound_newDeployment rfl) actions_addDeployment,
      .of_append actions_addDeployment (.inl rfl)⟩
  | deploy _ haccepts h =>
    have hidle := isIdle_of_acceptsDeployment haccepts
    exact ⟨hs.of_append ((sound_newDeployment rfl).starts rfl h) actions_addDeployment,
      .of_append actions_addDeployment (.inr ⟨hidle, h.keeps.2⟩)⟩
  | confirmDeployerCompleted hd _ _ haccepts h =>
    have hidle := isIdle_of_acceptsDeployment haccepts
    have hsound := (hs.deployment hd).starts (isIdle_deployment hidle hd) h
    refine ⟨hs.of_set (sound_launched hsound) actions_putDeployment,
      .of_set (actions_of_deployment hd) actions_putDeployment ?_ (.inr ⟨hidle, ?_⟩)⟩
    · intro i x hx
      rw [launched_records]
      exact h.keeps.1 i x hx
    · rw [launched_records, h.keeps.2]
  | confirmDeployerFailed hd | reportDeployerFailure hd =>
    exact ⟨hs.of_set ((hs.deployment hd).setLastExecutionStatus rfl) actions_putDeployment,
      .of_set (actions_of_deployment hd) actions_putDeployment (.of_eq rfl) (.inl rfl)⟩

lemma Follows.exclusive (h : s.Follows s') (hs : s.Exclusive) : s'.Exclusive := by
  obtain ⟨q₀, hfresh⟩ := h.fresh
  -- an active execution was active before, or it is the new one and nothing was active
  have hcases : ∀ p x', s'.record? p = some x' → x'.status.isActive = true →
      (∃ x, s.record? p = some x ∧ x.status.isActive = true) ∨ p = q₀ ∧ s.isIdle = true := by
    intro p x' hx' hact
    rcases hx : s.record? p with - | x
    · exact .inr (hfresh p hx (by simp [hx']))
    · refine .inl ⟨x, rfl, ?_⟩
      obtain ⟨y, hy, -, hin⟩ := h.kept p x hx
      rw [hx', Option.some.injEq] at hy
      by_contra hno
      rw [hy, hin (by simpa using hno)] at hact
      cases hact
  have hidle : s.isIdle = true → ∀ p x, s.record? p = some x → x.status.isActive ≠ true := by
    intro hidle p x hx hact
    rw [inactive_of_isIdle hidle hx] at hact
    cases hact
  intro p q x y hx hy hxa hya
  rcases hcases p x hx hxa with ⟨x₀, hx₀, hx₀a⟩ | ⟨rfl, hi⟩ <;>
    rcases hcases q y hy hya with ⟨y₀, hy₀, hy₀a⟩ | ⟨rfl, hi'⟩
  · exact hs p q x₀ y₀ hx₀ hy₀ hx₀a hy₀a
  · exact (hidle hi' p x₀ hx₀ hx₀a).elim
  · exact (hidle hi q y₀ hy₀ hy₀a).elim
  · rfl

def new (instances : List String) : System :=
  ⟨⟨instances, .unexecuted,
    fun inst => if inst ∈ instances then some [("volumes_info", .arr [])] else none, []⟩, []⟩

abbrev Run (conf : Conf) (ok : World → Report → Prop) : System → System → Prop :=
  Relation.ReflTransGen (Step conf ok)

lemma sound_new (instances : List String) : (new instances).Sound := by
  intro a ha
  obtain rfl : a = (new instances).transfer := by simpa [actions, new] using ha
  exact ⟨fun _ _ hx => by simp [new] at hx, fun hact => absurd hact (by simp [new]; decide)⟩

lemma exclusive_new (instances : List String) : (new instances).Exclusive := by
  rintro ⟨j, i⟩ q x y hx
  cases j <;> simp [record?, actions, new] at hx

lemma Run.sound_exclusive (h : Run conf ok (new instances) s) :
    s.Sound ∧ s.Exclusive := by
  induction h with
  | refl => exact ⟨sound_new _, exclusive_new _⟩
  | tail _ hstep ih =>
    obtain ⟨hsound, hfollows⟩ := hstep.sound_follows ih.1
    exact ⟨hsound, hfollows.exclusive ih.2⟩

/-- At any time at most one of the executions of a transfer and of its deployments is active,
and one that is not active is never active again. -/
theorem one_execution_active (conf : Conf) (ok : World → Report → Prop) (instances : List String)
    (s s' : System) (h : Run conf ok (new instances) s) (h' : Run conf ok s s') :
    (∀ p q x y, s.record? p = some x → s.record? q = some y → x.status.isActive = true →
        y.status.isActive = true → p = q) ∧
      ∀ p x, s.record? p = some x → x.status.isActive = false →
        ∃ x', s'.record? p = some x' ∧ x'.execution = x.execution ∧
          x'.status.isActive = false := by
  refine ⟨h.sound_exclusive.2, fun p x hx hact => ?_⟩
  have hsound := h.sound_exclusive.1
  -- the invariant that goes along: the system is sound and the execution is where it was
  suffices s'.Sound ∧ ∃ x', s'.record? p = some x' ∧ x'.execution = x.execution ∧
      x'.status.isActive = false from this.2
  clear h
  induction h' with
  | refl => exact ⟨hsound, x, hx, rfl, hact⟩
  | tail _ hstep ih =>
    obtain ⟨hs, y, hy, hye, hya⟩ := ih
    obtain ⟨hs', hfollows⟩ := hstep.sound_follows hs
    obtain ⟨z, hz, hze, hza⟩ := hfollows.kept p y hy
    exact ⟨hs', z, hz, hze.trans hye, hza hya⟩

end

def handle (conf : Conf) (p : Nat × Nat) (env : Env) (c : Call) (s : System) : System :=
  match p with
  | (0, i) =>
    match s.transfer.records[i]? with
    | some x => { s with transfer := s.transfer.call conf env i x c }
    | none => s
  | (j + 1, i) =>
    match s.deployments[j]? with
    | some d =>
      match d.action.records[i]? with
      | some x => s.callDeployment conf env j d i x c
      | none => s
    | none => s

def handleAll (conf : Conf) (p : Nat × Nat) (calls : List (Env × Call)) (s : System) : System :=
  calls.foldl (fun s call => s.handle conf p call.1 call.2) s

def takesAll (conf : Conf) (p : Nat × Nat) : List (Env × Call) → System → Bool
  | [], _ => true
  | (env, c) :: calls, s =>
    (p.1 == 0 || c.report?.isSome) && s.actions[p.1]?.any (·.takes p.2 c) &&
      takesAll conf p calls (s.handle conf p env c)

lemma step_handle (hr : (p.1 == 0 || c.report?.isSome) = true)
    (h : s.actions[p.1]?.any (·.takes p.2 c) = true) :
    Step conf castOnly s (s.handle conf p env c) := by
  obtain ⟨a, ha, hc⟩ := (Option.any_eq_true _ _).mp h
  have hx := (Option.any_eq_true _ _).mp hc
  obtain ⟨x, hx, -⟩ := hx
  obtain ⟨j, i⟩ := p
  cases j with
  | zero =>
    obtain rfl : s.transfer = a := by simpa [actions] using ha
    have : s.handle conf (0, i) env c = { s with transfer := s.transfer.call conf env i x c } := by
      simp only [handle, show s.transfer.records[i]? = some x from hx]
    rw [this]
    exact .callTransfer (.of_takes hx hc)
  | succ j =>
    simp only [actions, List.getElem?_cons_succ, List.getElem?_map, Option.map_eq_some_iff] at ha
    obtain ⟨d, hd, rfl⟩ := ha
    have : s.handle conf (j + 1, i) env c = s.callDeployment conf env j d i x c := by
      simp only [handle, hd, show d.action.records[i]? = some x from hx]
    rw [this]
    exact .callDeployment hd (.of_takes hx hc) fun hnone => by simp [hnone] at hr

lemma run_handleAll (h : takesAll conf p calls s = true) :
    Run conf castOnly s (s.handleAll conf p calls) := by
  induction calls generalizing s with
  | nil => exact .refl
  | cons call calls ih =>
    simp only [takesAll, Bool.and_eq_true] at h
    exact .head (step_handle h.1.1 h.1.2) (ih h.2)

def executing : System :=
  let s := new ["vm"]
  { s with transfer := s.transfer.start (.executeTransferTasks false false false) s.transfer.info }

lemma run_executing : Run plainConf castOnly (new ["vm"]) executing :=
  .single (.execute (by decide) rfl (TransferAction.starts_start trivial (by decide)))

/-- The worker of a task completes it and returns what the tasks of a transfer return. -/
def returns (e : Execution) (id : TaskId) : List (Env × Call) :=
  runs e id ++ (e.tasks.filter (·.id = id)).map fun t =>
    (responsive, .taskCompleted t [("export_info", .obj []), ("volumes_info", .arr [.null])])

/-- A deployment waits for the execution, and then the execution completes. -/
def executed : System :=
  (executing.addDeployment ⟨some "execution", executing.newDeployment .pending⟩).handleAll
    plainConf (0, 0) ((List.range 9).flatMap (returns Conductor.transfer))

lemma run_executed : Run plainConf castOnly (new ["vm"]) executed :=
  (run_executing.tail .deployLater).trans (run_handleAll (by decide))

/-- The deployment of one instance without OSMorphing, whose disks are not cloned. -/
def plainDeployment : Request := .executeDeployment true false false []

/-- `confirm_deployer_completed` for the first deployment. -/
def confirm (s : System) : System :=
  match s.deployments[0]? with
  | some d => s.putDeployment 0 d (launched (d.action.begin plainDeployment s.transfer.info).1
      (d.action.start plainDeployment s.transfer.info))
  | none => s

def confirms (s : System) : Bool :=
  s.acceptsDeployment false && s.deployments[0]?.any fun d =>
    d.deployerId.isSome && (d.action.instances.all fun inst => (s.transfer.info inst).isSome) &&
      d.action.startable plainDeployment s.transfer.info

lemma step_confirm (h : s.confirms = true) : Step conf castOnly s s.confirm := by
  simp only [confirms, Bool.and_eq_true] at h
  obtain ⟨haccepts, hd⟩ := h
  obtain ⟨d, hd, h⟩ := (Option.any_eq_true _ _).mp hd
  simp only [Bool.and_eq_true, List.all_eq_true] at h
  have : s.confirm = s.putDeployment 0 d
      (launched (d.action.begin plainDeployment s.transfer.info).1
        (d.action.start plainDeployment s.transfer.info)) := by
    simp only [confirm, show s.deployments[0]? = some d from hd]
  rw [this]
  exact .confirmDeployerCompleted hd h.1.1 rfl haccepts (TransferAction.starts_start h.1.2 h.2)

/-- The deployment that waited for the transfer runs, and the transfer stays as it ended. -/
theorem one_execution_active_executed :
    (executed.record? (0, 0)).map (·.status) = some .completed ∧
      (executed.confirm.record? (1, 0)).map (·.status) = some .running ∧
      (∀ p q x y, executed.record? p = some x → executed.record? q = some y →
        x.status.isActive = true → y.status.isActive = true → p = q) ∧
      ∀ p x, executed.record? p = some x → x.status.isActive = false →
        ∃ x', executed.confirm.record? p = some x' ∧ x'.execution = x.execution ∧
          x'.status.isActive = false :=
  ⟨by decide +kernel, by decide +kernel,
    one_execution_active plainConf castOnly ["vm"] executed executed.confirm run_executed
      (.single (step_confirm (by decide +kernel)))⟩

end System

end Coriolis.Conductor

import Coriolis.Conductor.Deadlock
import Coriolis.Conductor.Deployer
import Coriolis.Conductor.Late

/-!
# The status of an action and the status of its newest execution

`set_execution_status` stores the status of an execution and `last_execution_status` of its
action together, and an execution that is over stores neither. Three handlers take the two
apart. `confirm_deployer_completed` and `report_deployer_failure` set the status of a deployment
to ERROR whatever its execution does, the latter in a `finally` block that also runs when the
call is refused. And the deletion of the newest execution leaves its status behind.
-/

namespace Coriolis.Conductor

variable {r : Request} {before : String → Option TaskInfo} {e : Execution} {conf : Conf}
  {ok : World → Report → Prop} {env : Env} {w w' : World} {t : Task} {c : Call}

namespace Closed

lemma setTaskError_last (h : Closed e w) (ht : t ∈ e.tasks)
    (hfin : w.status.inFinalizedTaskStatuses = false) (details : String) :
    (Conductor.setTaskError e conf env t details w).2.lastExecutionStatus =
      w.lastExecutionStatus := by
  rcases @setTaskError_cases e conf env w t details with h' | ⟨w₂, text, hty, -⟩
  swap
  · exact absurd hty (h.plain t ht)
  have hno : (w.errored t details).status.inFinalizedTaskStatuses = false := hfin
  have hrun : (w.errored t details).status ≠ .running := fun hr => by
    have := h.ended
    rw [show w.status = .running from hr] at this
    cases this
  have hset : ∀ u ∈ e.tasks, ((w.errored t details).st u.id).isSettled = true := by
    intro u hu
    rw [errored_st]
    by_cases hut : u.id = t.id
    · rw [hut, Function.update_self]
      exact errorStatus_isSettled _ _ _
    · rw [Function.update_of_ne hut]
      exact h.settled hfin u hu
  rw [h', cancelTasksExecution_world hno, advance_over _ rfl rfl _, enterCancellation_last,
    if_neg hrun]
  · rfl
  · rw [enterCancellation_status, if_neg hrun]
    exact h.ended
  · intro u hu hs
    have := hset u hu
    rw [← @enterCancellation_st_of_isSettled e env _ u false hu this, hs] at this
    cases this

lemma step_last (h : Closed e w) (hc : ∀ r ∈ c.report?, r.task ∈ e.tasks)
    (hm : c.forMinions = false) :
    (Conductor.step e conf env c w).2.lastExecutionStatus = w.lastExecutionStatus := by
  by_cases hfin : w.status.inFinalizedTaskStatuses = true
  · exact (h.step_over hc hm fun _ _ _ => hfin).last
  cases c with
  | setTaskError t details => exact h.setTaskError_last (hc _ rfl) (by simpa using hfin) details
  | _ => exact (h.step_over hc hm (by simp)).last

end Closed

def Env.Starts (env : Env) (e : Execution) : Prop :=
  ∀ t ∈ e.tasks, t.dependsOn = [] →
    env.findsWorker t.id = true ∧ env.beginTaskGoesOut t.id = true

lemma beginLoop_starts (hl : ∀ t ∈ l, t ∈ e.tasks) (henv : env.Starts e) (hfirst : started ≠ [] ∨
      ∃ t ∈ l, t.dependsOn = [] ∧ x.st t.id = .scheduled) :
    ∃ started' w', beginLoop e env x l started w = (.ok started', w') ∧ started' ≠ [] := by
  induction l generalizing started w with
  | nil => exact ⟨started, w, rfl, hfirst.resolve_right (by simp)⟩
  | cons t l ih =>
    have hl' : ∀ u ∈ l, u ∈ e.tasks := fun u hu => hl u (List.mem_cons_of_mem _ hu)
    by_cases hgo : t.dependsOn = [] ∧ x.st t.id = .scheduled
    · obtain ⟨hworker, hcast⟩ := henv t (hl t List.mem_cons_self) hgo.1
      simp only [beginLoop, hgo, and_self, if_true, startTask, hworker, hcast, Bool.not_true,
        Bool.false_eq_true, if_false]
      exact ih hl' (.inl (by simp))
    · simp only [beginLoop, hgo, if_false]
      refine ih hl' (hfirst.imp_right ?_)
      rintro ⟨u, hu, hgo'⟩
      rcases List.mem_cons.mp hu with rfl | hu
      · exact absurd hgo' hgo
      · exact ⟨u, hu, hgo'⟩

lemma beginTasks_starts (henv : env.Starts e)
    (hfirst : ∃ t ∈ e.tasks, t.dependsOn = [] ∧ w.st t.id = .scheduled) :
    (beginTasks e env w w).1 = .ok () ∧ (beginTasks e env w w).2.status = .running ∧
      (beginTasks e env w w).2.lastExecutionStatus = .running := by
  obtain ⟨started, w', hloop, hne⟩ : ∃ started w',
      beginLoop e env w e.tasks [] w = (.ok started, w') ∧ started ≠ [] :=
    beginLoop_starts (fun t ht => ht) henv (.inr hfirst)
  simp [beginTasks, hloop, hne]

lemma Built.exists_first (hb : Built r before e w) (ht : t ∈ e.tasks) :
    ∃ u ∈ e.tasks, u.dependsOn = [] ∧ w.st u.id = .scheduled := by
  obtain ⟨u, hu, hroot⟩ := hb.wellFormed.exists_root ht
  rcases hb.ready.fresh.statuses u hu with h | ⟨-, h⟩
  · exact ⟨u, hu, hroot, h⟩
  · exact absurd hroot (hb.wellFormed.onErrorParents u hu h)

lemma Built.beginTasks_status (hb : Built r before e w) (env : Env)
    (hr : r.awaitsMinions = false) (hne : e.instances ≠ []) :
    ((beginTasks e env w w).2.status = .running ∨ (beginTasks e env w w).2.status = .deadlocked) ∧
      (beginTasks e env w w).2.lastExecutionStatus = (beginTasks e env w w).2.status := by
  obtain ⟨t, ht⟩ := hb.exists_task hne
  have hun : w.status = .unexecuted := by simp [hb.status_eq, hr]
  have hbeg : Beginning r before e w := ⟨w, hb, .inl ⟨hr, rfl⟩⟩
  by_cases henv : env.Starts e
  · obtain ⟨-, hstatus, hlast⟩ := beginTasks_starts henv (hb.exists_first ht)
    simp [hstatus, hlast]
  · simp only [Env.Starts, not_forall] at henv
    obtain ⟨u, hu, hroot, hno⟩ := henv
    have hno : env.findsWorker u.id = false ∨ env.beginTaskGoesOut u.id = false := by
      simpa [Classical.or_iff_not_imp_left] using hno
    obtain ⟨w₁, hbroken⟩ := hbeg.brokenOff ⟨u, hu, hroot, hno⟩
    obtain ⟨previous, st, w₂, hclean⟩ := hbroken.cleaned hbeg hu hun
    simp [hclean]

lemma Built.beginTasks_matches (hb : Built r before e w) (hr : r.awaitsMinions = false)
    (hne : e.instances ≠ []) :
    (beginTasks e env w w).2.lastExecutionStatus = (beginTasks e env w w).2.status ∧
      (beginTasks e env w w).2.lastExecutionStatus ≠ .pending := by
  obtain ⟨hstatus, hlast⟩ := hb.beginTasks_status env hr hne
  refine ⟨hlast, ?_⟩
  rw [hlast]
  rcases hstatus with h | h <;> rw [h] <;> decide

namespace TransferAction

variable {a a' : TransferAction} {i : Nat} {x : Record}

/-- The status of the action is the one of its newest execution, if there is any. -/
def Matches (a : TransferAction) : Prop :=
  ∀ i x, a.records[i]? = some x → a.records.length = i + 1 → a.lastExecutionStatus = x.status

lemma Matches.of_nil (h : a.records = []) : a.Matches := fun _ _ hx => by simp [h] at hx

lemma Matches.add (h : w.lastExecutionStatus = w.status) : (a.add e w).Matches := by
  intro i x hx hi
  have hlen : (a.add e w).records.length = a.records.length + 1 := by
    simp [TransferAction.add]
  rcases records_add hx with ⟨-, rfl⟩ | hx
  · exact h
  · have := (List.getElem?_eq_some_iff.mp hx).1
    omega

lemma Starts.matching (h : a.Starts r before res a') (hne : a.instances ≠ []) :
    a'.Matches ∧ a'.lastExecutionStatus ≠ .pending := by
  cases h with
  | begun hb hi hr =>
    obtain ⟨hmatches, hne⟩ := hb.beginTasks_matches hr (hi ▸ hne)
    exact ⟨.add hmatches, hne⟩
  | @awaiting e w hb hi hr =>
    rcases hb.status with ⟨h', -⟩ | ⟨-, hs, hl, -⟩
    · simp [hr] at h'
    · refine ⟨.add (hl.trans hs.symm), ?_⟩
      rw [show (a.add e w).lastExecutionStatus = _ from hl]
      decide

/-- A call on the newest execution sets both, and one on an older execution none. -/
lemma Matches.call (h : a.Matches) (hsound : a.Sound) (hc : a.Takes ok i x c)
    (holder : i + 1 < a.records.length → Closed x.execution (a.world x)) :
    (a.call conf env i x c).Matches := by
  intro j y hy hj
  rw [length_call] at hj
  rcases records_call hc.found hy with ⟨rfl, rfl⟩ | ⟨hne, hy⟩
  · have hpath : Changes x.execution conf False ok (a.world x)
        (Conductor.step x.execution conf env c (a.world x)).2 := hsound.step_changes hc
    rcases hpath.lastExecutionStatus with ⟨hs, hl⟩ | ⟨hl, -⟩
    · exact hl.trans ((h j x hc.found hj).trans hs.symm)
    · exact hl
  · have hi := (List.getElem?_eq_some_iff.mp hc.found).1
    have hm : c.forMinions = false := by
      by_contra hm
      have := hc.newest (by simpa using hm)
      omega
    exact ((holder (by omega)).step_last (fun r hr => (hc.report r hr).1) hm).trans (h j y hy hj)

lemma Takes.records_ne_nil (h : a.Takes ok i x c) : a.records ≠ [] := by
  intro hnil
  have := h.found
  simp [hnil] at this

lemma Matches.last_eq (h : a.Matches) (h' : a'.Matches) (hr : a'.records = a.records)
    (hne : a.records ≠ []) : a'.lastExecutionStatus = a.lastExecutionStatus := by
  have hpos : 0 < a.records.length := List.length_pos_iff.mpr hne
  have hx : a.records[a.records.length - 1]? = some a.records[a.records.length - 1] :=
    List.getElem?_eq_getElem (by omega)
  have hx' : a'.records[a.records.length - 1]? = some a.records[a.records.length - 1] := by
    rw [hr, hx]
  rw [h _ _ hx (by omega), h' _ _ hx' (by rw [hr]; omega)]

/-- `_begin_tasks` of a new execution cannot fail. -/
inductive Begins (r : Request) (before : String → Option TaskInfo) (a : TransferAction) :
    Except ConductorError Unit → TransferAction → Prop
  | begun {e : Execution} {w : World} {env : Env} (hb : Built r before e w)
      (hi : e.instances = a.instances) (hr : r.awaitsMinions = false)
      (hl : w.lastExecutionStatus = a.lastExecutionStatus) (henv : env.Starts e) :
      Begins r before a (beginTasks e env w w).1 (a.add e (beginTasks e env w w).2)
  | awaiting {e : Execution} {w : World} (hb : Built r before e w)
      (hi : e.instances = a.instances) (hr : r.awaitsMinions = true) :
      Begins r before a (.ok ()) (a.add e w)

lemma Begins.succeeds (h : a.Begins r before res a') (hne : a.instances ≠ []) : res = .ok () := by
  cases h with
  | begun hb hi hr hl henv =>
    obtain ⟨t, ht⟩ := hb.exists_task (hi ▸ hne)
    exact (beginTasks_starts henv (hb.exists_first ht)).1
  | awaiting => rfl

/-- `db_api.delete_transfer_tasks_execution`. -/
def deleteExecution (a : TransferAction) (i : Nat) : TransferAction :=
  { a with records := a.records.eraseIdx i }

lemma records_delete (hi : i + 1 < a.records.length)
    (hx : (a.deleteExecution i).records[j]? = some x) :
    ∃ k, a.records[k]? = some x ∧
      (j + 1 < (a.deleteExecution i).records.length → k + 1 < a.records.length) ∧
      ((a.deleteExecution i).records.length = j + 1 → a.records.length = k + 1) := by
  simp only [deleteExecution, List.length_eraseIdx_of_lt (Nat.lt_of_succ_lt hi)] at hx ⊢
  rw [List.getElem?_eraseIdx] at hx
  split at hx
  · exact ⟨j, hx, by omega, by omega⟩
  · exact ⟨j + 1, hx, by omega, by omega⟩

lemma Sound.deleteExecution (h : a.Sound) (hi : i + 1 < a.records.length) :
    (a.deleteExecution i).Sound := by
  refine ⟨fun j x hx hj => ?_, fun hact => ?_⟩
  · obtain ⟨k, hk, holder, -⟩ := records_delete hi hx
    exact h.older k x hk (holder hj)
  · obtain ⟨k, x, hk, hlen, hs⟩ := h.last hact
    refine ⟨k - 1, x, ?_, ?_, hs⟩
    · rw [TransferAction.deleteExecution, List.getElem?_eraseIdx_of_ge (by omega),
        Nat.sub_add_cancel (by omega), hk]
    · simp only [TransferAction.deleteExecution,
        List.length_eraseIdx_of_lt (Nat.lt_of_succ_lt hi)]
      omega

lemma Orderly.deleteExecution (h : a.Orderly) (hi : i + 1 < a.records.length) :
    (a.deleteExecution i).Orderly := by
  refine ⟨h.sound.deleteExecution hi, fun j x hx hj => ?_, fun j x hx hj => ?_⟩ <;>
    obtain ⟨k, hk, holder, hnewest⟩ := records_delete hi hx
  · exact h.newest k x hk (hnewest hj)
  · exact h.older k x hk (holder hj)

lemma Matches.deleteExecution (h : a.Matches) (hi : i + 1 < a.records.length) :
    (a.deleteExecution i).Matches := by
  intro j x hx hj
  obtain ⟨k, hk, -, hnewest⟩ := records_delete hi hx
  exact h k x hk (hnewest hj)

lemma Orderly.deleteOnly (h : a.Orderly) (hidle : a.isIdle = true)
    (hr : (a.deleteExecution i).records = []) : (a.deleteExecution i).Orderly := by
  refine ⟨⟨fun j x hx => by simp [hr] at hx, fun hact => ?_⟩, fun j x hx => by simp [hr] at hx,
    fun j x hx => by simp [hr] at hx⟩
  have := h.sound.last_inactive hidle
  rw [show a.lastExecutionStatus.isActive = true from hact] at this
  cases this

/-- What holds of a transfer, and of a deployment, between calls. -/
structure Tracked (a : TransferAction) : Prop where
  sound : a.Sound
  matching : a.Matches
  instances : a.instances ≠ []

lemma Tracked.call (h : a.Tracked) (hc : a.Takes ok i x c)
    (holder : i + 1 < a.records.length → Closed x.execution (a.world x)) :
    (a.call conf env i x c).Tracked :=
  ⟨h.sound.call hc, h.matching.call h.sound hc holder, h.instances⟩

lemma Tracked.starts (h : a.Tracked) (hidle : a.isIdle = true)
    (hs : a.Starts r before res a') : a'.Tracked := by
  refine ⟨h.sound.starts hidle hs, (hs.matching h.instances).1, ?_⟩
  obtain ⟨e, w, -, -, rfl⟩ := hs.launched
  exact h.instances

/-- A deployment has one execution, and none while it is PENDING. -/
structure TrackedOnce (a : TransferAction) : Prop extends Tracked a where
  single : a.records.length ≤ 1
  pending : a.lastExecutionStatus = .pending → a.records = []

lemma TrackedOnce.call (h : a.TrackedOnce) (hc : a.Takes ok i x c) :
    (a.call conf env i x c).TrackedOnce := by
  have hi := (List.getElem?_eq_some_iff.mp hc.found).1
  refine ⟨h.toTracked.call hc fun hlt => ?_, length_call.trans_le h.single, fun hpending => ?_⟩
  · exact absurd h.single (by omega)
  have hpath : Changes x.execution conf False ok (a.world x)
      (Conductor.step x.execution conf env c (a.world x)).2 := h.sound.step_changes hc
  rcases hpath.lastExecutionStatus with ⟨-, hl⟩ | ⟨hl, -, hne⟩
  · have := h.pending (hl.symm.trans hpending)
    simp [this] at hi
  · exact absurd (hl.symm.trans hpending) hne

lemma TrackedOnce.starts (h : a.Tracked) (hnil : a.records = [])
    (hs : a.Starts r before res a') : a'.TrackedOnce := by
  refine ⟨h.starts (by simp [isIdle, hnil]) hs, ?_, fun hpending => ?_⟩
  · rw [hs.keeps.2, hnil]
    rfl
  · exact absurd hpending (hs.matching h.instances).2

lemma TrackedOnce.of_nil (hnil : a.records = []) (hne : a.instances ≠ [])
    (hl : a.lastExecutionStatus.isActive = false) : a.TrackedOnce :=
  ⟨⟨⟨fun _ _ hx => by simp [hnil] at hx, fun hact => by simp [hl] at hact⟩, .of_nil hnil, hne⟩,
    by simp [hnil], fun _ => hnil⟩

end TransferAction

namespace System

/-- A handler call, and whether it raises. In a careful run `_begin_tasks` does not fail for a
deployment that waited, such a deployment is executed once, the deployer manager speaks of
deployments that are PENDING, or given up already, and the newest execution is not deleted
while there are older ones. -/
inductive Handled (conf : Conf) (careful : Prop) : Bool → System → System → Prop
  /-- The call is refused, or it only reads. -/
  | unchanged {raised s} : Handled conf careful raised s s
  | callTransfer {s env i x c} (hc : s.transfer.Takes castOnly i x c) :
      Handled conf careful (!(step x.execution conf env c (s.transfer.world x)).1.isOk) s
        { s with transfer := s.transfer.call conf env i x c }
  | callDeployment {s env j d i x c} (hd : s.deployments[j]? = some d)
      (hc : d.action.Takes castOnly i x c)
      (hone : c.report? = none → d.action.records.length = 1) :
      Handled conf careful (!(step x.execution conf env c (d.action.world x)).1.isOk) s
        (s.callDeployment conf env j d i x c)
  | execute {s r res a} (hr : r.type ≠ .deployment) (hidle : s.isIdle = true)
      (h : s.transfer.Starts r s.transfer.info res a) :
      Handled conf careful (!res.isOk) s { s with transfer := a }
  | deployLater {s executionId} :
      Handled conf careful false s (s.addDeployment ⟨some executionId, s.newDeployment .pending⟩)
  | deploy {s force r res a} (hr : r.type = .deployment)
      (haccepts : s.acceptsDeployment force = true)
      (h : (s.newDeployment .unexecuted).Starts r s.transfer.info res a) :
      Handled conf careful (!res.isOk) s (s.addDeployment ⟨none, a⟩)
  | deployFailed {s force} (haccepts : s.acceptsDeployment force = true) :
      Handled conf careful true s (s.addDeployment ⟨none, s.newDeployment .unexecuted⟩)
  | confirmDeployerCompleted {s j d force r res a} (hd : s.deployments[j]? = some d)
      (hwaits : d.deployerId.isSome = true) (hr : r.type = .deployment)
      (haccepts : s.acceptsDeployment force = true)
      (h : d.action.Starts r s.transfer.info res a)
      (hbegins : careful → d.action.Begins r s.transfer.info res a)
      (hfirst : careful → d.action.records = []) :
      Handled conf careful (!res.isOk) s (s.putDeployment j d (launched res a))
  | confirmDeployerFailed {s j d} (hd : s.deployments[j]? = some d)
      (hwaits : d.deployerId.isSome = true)
      (herror : careful → d.action.lastExecutionStatus = .error) :
      Handled conf careful true s (s.putDeployment j d (d.action.setLastExecutionStatus .error))
  /-- The status is set in a `finally` block, after the refusal as well. -/
  | reportDeployerFailure {s j d} (hd : s.deployments[j]? = some d)
      (hwaits : d.deployerId.isSome = true)
      (hpending : careful → d.action.lastExecutionStatus = .pending ∨
        d.action.lastExecutionStatus = .error) :
      Handled conf careful (decide (d.action.lastExecutionStatus ≠ .pending)) s
        (s.putDeployment j d (d.action.setLastExecutionStatus .error))
  /-- `delete_transfer_tasks_execution`. -/
  | deleteExecution {s i x} (hx : s.transfer.records[i]? = some x)
      (hact : x.status.isActive = false)
      (hnewest : careful → i + 1 < s.transfer.records.length ∨ s.transfer.records.length = 1) :
      Handled conf careful false s { s with transfer := s.transfer.deleteExecution i }
  | deleteDeployment {s j d} (hd : s.deployments[j]? = some d) (hidle : d.action.isIdle = true) :
      Handled conf careful false s { s with deployments := s.deployments.eraseIdx j }

abbrev HandledRun (conf : Conf) (careful : Prop) : System → System → Prop :=
  Relation.ReflTransGen fun s s' => ∃ raised, Handled conf careful raised s s'

variable {s s' : System} {a a' : TransferAction} {j : Nat} {d : Deployment}

/-- The invariant of careful runs. -/
structure Tracked (s : System) : Prop where
  orderly : s.transfer.Orderly
  transfer : s.transfer.Tracked
  deployments : ∀ d ∈ s.deployments, d.action.TrackedOnce

namespace Tracked

lemma new (h : instances ≠ []) : (new instances).Tracked :=
  ⟨⟨(sound_new instances).transfer, fun _ _ hx => by simp [System.new] at hx,
      fun _ _ hx => by simp [System.new] at hx⟩,
    ⟨(sound_new instances).transfer, .of_nil rfl, h⟩, fun d hd => by simp [System.new] at hd⟩

lemma deployment (h : s.Tracked) (hd : s.deployments[j]? = some d) : d.action.TrackedOnce :=
  h.deployments d (List.mem_of_getElem? hd)

lemma matching (h : s.Tracked) : ∀ a ∈ s.actions, a.Matches := by
  intro a ha
  rcases List.mem_cons.mp ha with rfl | ha
  · exact h.transfer.matching
  · obtain ⟨d, hd, rfl⟩ := List.mem_map.mp ha
    exact (h.deployments d hd).matching

lemma putDeployment (h : s.Tracked) (ha : a.TrackedOnce) : (s.putDeployment j d a).Tracked := by
  refine ⟨h.orderly, h.transfer, fun d' hd' => ?_⟩
  rcases List.mem_or_eq_of_mem_set hd' with hd' | rfl
  · exact h.deployments d' hd'
  · exact ha

lemma addDeployment (h : s.Tracked) (ha : d.action.TrackedOnce) :
    (s.addDeployment d).Tracked := by
  refine ⟨h.orderly, h.transfer, fun d' hd' => ?_⟩
  rcases List.mem_append.mp hd' with hd' | hd'
  · exact h.deployments d' hd'
  · rw [List.mem_singleton.mp hd']
    exact ha

lemma storeVolumesInfo (h : s.Tracked) :
    (s.storeVolumesInfo events).Tracked :=
  ⟨h.orderly.interfere ⟨h.transfer.sound.older, h.transfer.sound.last⟩ rfl
      (storeVolumesInfo_info (s := s) _),
    ⟨⟨h.transfer.sound.older, h.transfer.sound.last⟩, h.transfer.matching, h.transfer.instances⟩,
    h.deployments⟩

lemma newDeployment (h : s.Tracked) (hs : status.isActive = false) :
    (s.newDeployment status).TrackedOnce :=
  .of_nil rfl h.transfer.instances hs

lemma giveUp (h : s.Tracked) (hd : s.deployments[j]? = some d)
    (hl : d.action.lastExecutionStatus = .pending ∨ d.action.lastExecutionStatus = .error) :
    (s.putDeployment j d (d.action.setLastExecutionStatus .error)).Tracked := by
  have hdep := h.deployment hd
  refine h.putDeployment ?_
  rcases hl with hl | hl
  · exact .of_nil (hdep.pending hl) hdep.instances rfl
  · rwa [show d.action.setLastExecutionStatus .error = d.action by
      rw [TransferAction.setLastExecutionStatus, ← hl]]

lemma deleteExecution (h : s.Tracked) (hx : s.transfer.records[i]? = some x)
    (hact : x.status.isActive = false)
    (hi : i + 1 < s.transfer.records.length ∨ s.transfer.records.length = 1) :
    ({ s with transfer := s.transfer.deleteExecution i } : System).Tracked := by
  rcases hi with hi | hi
  · exact ⟨h.orderly.deleteExecution hi, ⟨h.transfer.sound.deleteExecution hi,
      h.transfer.matching.deleteExecution hi, h.transfer.instances⟩, h.deployments⟩
  · obtain ⟨y, hy⟩ := List.length_eq_one_iff.mp hi
    obtain ⟨rfl, rfl⟩ : i = 0 ∧ x = y := by
      have := (List.getElem?_eq_some_iff.mp hx).1
      obtain rfl : i = 0 := by omega
      simpa [hy, eq_comm] using hx
    have hnil : (s.transfer.deleteExecution 0).records = [] := by
      simp [TransferAction.deleteExecution, hy]
    have horderly := h.orderly.deleteOnly (by simp [TransferAction.isIdle, hy, hact]) hnil
    exact ⟨horderly, ⟨horderly.sound, .of_nil hnil, h.transfer.instances⟩, h.deployments⟩

end Tracked

lemma Handled.tracked (h : Handled conf True raised s s') (hs : s.Tracked) : s'.Tracked := by
  cases h with
  | unchanged => exact hs
  | callTransfer hc =>
    exact ⟨hs.orderly.call hc, hs.transfer.call hc (hs.orderly.older _ _ hc.found), hs.deployments⟩
  | callDeployment hd hc => exact (hs.putDeployment ((hs.deployment hd).call hc)).storeVolumesInfo
  | execute hr hidle h =>
    have hidle := isIdle_transfer hidle
    exact ⟨hs.orderly.starts hr hidle h, hs.transfer.starts hidle h, hs.deployments⟩
  | deployLater | deployFailed => exact hs.addDeployment (hs.newDeployment rfl)
  | deploy _ _ h => exact hs.addDeployment (.starts (hs.newDeployment rfl).toTracked rfl h)
  | confirmDeployerCompleted hd _ _ _ h hbegins hfirst =>
    have hdep := (hs.deployment hd).toTracked
    obtain rfl := (hbegins trivial).succeeds hdep.instances
    exact hs.putDeployment (.starts hdep (hfirst trivial) h)
  | confirmDeployerFailed hd _ herror => exact hs.giveUp hd (.inr (herror trivial))
  | reportDeployerFailure hd _ hpending => exact hs.giveUp hd (hpending trivial)
  | deleteExecution hx hact hnewest => exact hs.deleteExecution hx hact (hnewest trivial)
  | deleteDeployment =>
    exact ⟨hs.orderly, hs.transfer, fun d hd => hs.deployments d (List.mem_of_mem_eraseIdx hd)⟩

lemma HandledRun.tracked (hne : instances ≠ []) (h : HandledRun conf True (new instances) s) :
    s.Tracked := by
  induction h with
  | refl => exact .new hne
  | tail _ hstep ih =>
    obtain ⟨_, hstep⟩ := hstep
    exact hstep.tracked ih

section

variable {k : Nat}

lemma last_eq_of_set (hs : s'.actions = s.actions.set j b') (hb : s.actions[j]? = some b)
    (hl : b'.records = b.records → b'.lastExecutionStatus = b.lastExecutionStatus)
    (ha : s.actions[k]? = some a) (ha' : s'.actions[k]? = some a')
    (hr : a'.records = a.records) : a'.lastExecutionStatus = a.lastExecutionStatus := by
  rw [hs] at ha'
  by_cases hkj : j = k
  · subst hkj
    rw [List.getElem?_set_self (List.getElem?_eq_some_iff.mp ha).1, Option.some.injEq] at ha'
    rw [hb, Option.some.injEq] at ha
    subst ha ha'
    exact hl hr
  · rw [List.getElem?_set_ne hkj, ha, Option.some.injEq] at ha'
    rw [ha']

lemma last_eq_of_append (hs : s'.actions = s.actions ++ [b]) (ha : s.actions[k]? = some a)
    (ha' : s'.actions[k]? = some a') : a'.lastExecutionStatus = a.lastExecutionStatus := by
  rw [hs, List.getElem?_append_left (List.getElem?_eq_some_iff.mp ha).1, ha,
    Option.some.injEq] at ha'
  rw [ha']

lemma actions_storeVolumesInfo (ha : (s.storeVolumesInfo events).actions[k]? = some a) :
    ∃ b, s.actions[k]? = some b ∧ b.records = a.records ∧
      b.lastExecutionStatus = a.lastExecutionStatus := by
  cases k with
  | zero =>
    obtain rfl : (s.storeVolumesInfo events).transfer = a := by simpa [actions] using ha
    exact ⟨s.transfer, rfl, rfl, rfl⟩
  | succ k => exact ⟨a, ha, rfl, rfl⟩

/-- A call that raises and changes no execution of an action leaves its status. -/
lemma Handled.last_eq (h : Handled conf True raised s s') (hs : s.Tracked)
    (hraised : raised = true) (ha : s.actions[k]? = some a) (ha' : s'.actions[k]? = some a')
    (hr : a'.records = a.records) : a'.lastExecutionStatus = a.lastExecutionStatus := by
  cases h with
  | unchanged =>
    rw [ha, Option.some.injEq] at ha'
    rw [ha']
  | callTransfer hc =>
    refine last_eq_of_set actions_transfer rfl (fun hr => ?_) ha ha' hr
    have holder := hs.orderly.older _ _ hc.found
    exact hs.transfer.matching.last_eq (hs.transfer.call hc holder).matching hr hc.records_ne_nil
  | callDeployment hd hc =>
    obtain ⟨b, hb, hbr, hbl⟩ := actions_storeVolumesInfo ha'
    rw [← hbl]
    refine last_eq_of_set actions_putDeployment (actions_of_deployment hd) (fun hr => ?_) ha hb
      (hbr.trans hr)
    have hdep := hs.deployment hd
    exact hdep.matching.last_eq (hdep.call hc).matching hr hc.records_ne_nil
  | execute _ _ h =>
    refine last_eq_of_set actions_transfer rfl (fun hr => ?_) ha ha' hr
    have := h.keeps.2
    simp [hr] at this
  | deployLater | deleteExecution | deleteDeployment => simp at hraised
  | deploy | deployFailed => exact last_eq_of_append actions_addDeployment ha ha'
  | confirmDeployerCompleted hd _ _ _ h =>
    refine last_eq_of_set actions_putDeployment (actions_of_deployment hd) (fun hr => ?_) ha ha' hr
    have := h.keeps.2
    rw [← launched_records, hr] at this
    simp at this
  | confirmDeployerFailed hd _ herror =>
    exact last_eq_of_set actions_putDeployment (actions_of_deployment hd)
      (fun _ => (herror trivial).symm) ha ha' hr
  | reportDeployerFailure hd _ hpending =>
    refine last_eq_of_set actions_putDeployment (actions_of_deployment hd) (fun _ => ?_) ha ha' hr
    exact ((hpending trivial).resolve_left (by simpa using hraised)).symm

end

lemma Step.handled (h : Step conf castOnly s s') : HandledRun conf False s s' := by
  refine .single ?_
  cases h with
  | callTransfer hc => exact ⟨_, .callTransfer hc⟩
  | callDeployment hd hc hone => exact ⟨_, .callDeployment hd hc hone⟩
  | execute hr hidle h => exact ⟨_, .execute hr hidle h⟩
  | deployLater => exact ⟨_, .deployLater⟩
  | deploy hr haccepts h => exact ⟨_, .deploy hr haccepts h⟩
  | deployFailed haccepts => exact ⟨_, .deployFailed haccepts⟩
  | confirmDeployerCompleted hd hwaits hr haccepts h =>
    exact ⟨_, .confirmDeployerCompleted hd hwaits hr haccepts h (fun h => h.elim) fun h => h.elim⟩
  | confirmDeployerFailed hd hwaits =>
    exact ⟨_, .confirmDeployerFailed hd hwaits fun h => h.elim⟩
  | reportDeployerFailure hd hwaits =>
    exact ⟨_, .reportDeployerFailure hd hwaits fun h => h.elim⟩

lemma Run.handled (h : Run conf castOnly s s') : HandledRun conf False s s' := by
  induction h with
  | refl => exact .refl
  | tail _ hstep ih => exact ih.trans hstep.handled

/-- The deployment that `confirm_deployer_completed` launched. -/
def launchedDeployment : Deployment := (executed.confirm.deployments[0]?).get (by decide)

lemma confirm_deployments : executed.confirm.deployments[0]? = some launchedDeployment :=
  (Option.some_get _).symm

/-- A deployment waits for the execution of the transfer and is given up. -/
def givenUp : System :=
  executing.addDeployment ⟨some "execution", executing.newDeployment .error⟩

end System

end Coriolis.Conductor

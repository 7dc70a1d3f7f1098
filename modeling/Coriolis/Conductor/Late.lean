import Coriolis.Conductor.Ancestry
import Coriolis.Conductor.System

/-!
# Reports that come when an execution is over

Workers of an execution may answer after it ended, and after later executions of the same
transfer began. `Closed` is what an ended execution looks like: all it handed out is over.
Such an execution drops every report but the completion of a task whose worker refused to
cancel it, which is processed as if it had come in time.
-/

namespace Coriolis.Conductor

variable {e : Execution} {conf : Conf} {env : Env} {w w' : World} {t : Task} {c : Call}

/-- Without OSMorphing, nothing is active in an execution that ended. -/
def Idled (e : Execution) (w : World) : Prop :=
  w.status.isFinalized = true → ∀ t ∈ e.tasks, (w.st t.id).isActive = false

lemma TaskStatus.not_isActive_of_isFinalized {s : TaskStatus} (h : s.isFinalized = true) :
    s.isActive = false := by
  revert h
  cases s <;> decide

lemma ExecutionStatus.isFinalized_cases {s : ExecutionStatus} (h : s.isFinalized = true) :
    s.inFinalizedTaskStatuses = true ∨ s = .deadlocked ∨ s = .errorAllocatingMinions := by
  revert h
  cases s <;> decide

lemma Staged.not_activated (h : Staged e w) (hs : w.status.isFinalized = true)
    (ht : t ∈ e.tasks) (hstep : TaskStep e conf strong ok w w' t)
    (hw : (w.st t.id).isActive = false) : (w'.st t.id).isActive = false := by
  have hns : w.st t.id ≠ .scheduled := by
    rcases ExecutionStatus.isFinalized_cases hs with hs | hs
    · exact h.ended hs t ht
    · have hst := h.stopped (hs.imp_right .inl) t ht
      exact ne_of_isSettled (TaskStatus.isSettled_of_isFruitless hst) (by decide)
  by_contra hact
  rcases hstep.of_isActive h ht (by simpa using hact) with h' | ⟨hd, -⟩
  · simp [h'] at hw
  · exact TaskStep.not_start hd hns

lemma Idled.change (hm : ∀ t ∈ e.tasks, t.taskType ≠ .osMorphing) (hst : Staged e w)
    (hc : Change e conf True reported w w') (h : Idled e w) : Idled e w' := by
  intro hs t ht
  cases hc.statusStep with
  | same heq =>
    rw [heq] at hs
    exact hst.not_activated hs ht (hc.task ht) (h hs t ht)
  | cancelling _ heq | begun _ _ heq => rw [heq] at hs; cases hs
  | refreshed _ hd hst' heq =>
    rw [heq] at hs
    rcases getExecutionStatus_cases e w with ⟨-, hg⟩ | ⟨-, -, hg | hg⟩ | ⟨hno, -⟩
    · exact absurd hg (hd trivial)
    · rw [hg] at hs; cases hs
    · rw [hg] at hs; cases hs
    · rw [hst']; exact (hno t ht).1
  | deadlocked hd hun hw =>
    rw [hw]
    exact TaskStatus.not_isActive_of_isFinalized (TaskStatus.isFinalized_of_isSettled
      (TaskStatus.isSettled_of_isFruitless (hst.deadlocked hd (hun trivial) t ht)))
  | debugged _ _ _ hex =>
    obtain ⟨s, hs, hty⟩ := hex
    exact absurd hty (hm s hs)
  | allocationFailed hall hst' =>
    rw [hst']
    exact TaskStatus.not_isActive_of_isFinalized
      (TaskStatus.isFinalized_of_isSettled (hall trivial t ht).1)

/-- An execution without OSMorphing that is over: what was handed out is over too, and where
a late error is not ignored, nothing can come of it. -/
structure Closed (e : Execution) (w : World) : Prop where
  plain : ∀ t ∈ e.tasks, t.taskType ≠ .osMorphing
  ended : w.status.isActive = false
  settled : w.status.inFinalizedTaskStatuses = false →
    ∀ t ∈ e.tasks, (w.st t.id).isSettled = true
  tasks : ∀ t ∈ e.tasks, (w.st t.id).isFinalized = true ∨
    w.st t.id = .onErrorOnly ∧ ¬w.emitted (.beginTask t.id)

namespace Closed

lemma not_scheduled (h : Closed e w) (ht : t ∈ e.tasks) : w.st t.id ≠ .scheduled := by
  intro hst
  rcases h.tasks t ht with h' | ⟨h', -⟩ <;> rw [hst] at h' <;> cases h'

lemma kept (h : Closed e w) (hst : w'.st = w.st) (hs : w'.status = w.status)
    (hcast : ∀ id, w'.emitted (.beginTask id) → w.emitted (.beginTask id)) : Closed e w' :=
  ⟨h.plain, hs ▸ h.ended, by rw [hs, hst]; exact h.settled, fun t ht => by
    rw [hst]
    exact (h.tasks t ht).imp_right fun h' => ⟨h'.1, fun he => h'.2 (hcast _ he)⟩⟩

lemma step_of_settled (h : Closed e w) (hset : ∀ t ∈ e.tasks, (w.st t.id).isSettled = true)
    (hc : ∀ r ∈ c.report?, r.task ∈ e.tasks) (hm : c.forMinions = false) :
    Closed e (step e conf env c w).2 := by
  have hset' : ∀ t ∈ e.tasks, ((step e conf env c w).2.st t.id).isSettled = true := by
    intro t ht
    by_cases hno : ∀ details, c ≠ .setTaskError t details
    · rw [step_settled c hc ht (hset t ht) hno]
      exact hset t ht
    · obtain ⟨details, rfl⟩ := not_forall_not.mp hno
      simp only [step, setTaskError_st ht details]
      exact errorStatus_isSettled _ _ _
  exact ⟨h.plain, step_stays_inactive c h.ended fun hm' => by simp [hm] at hm', fun _ => hset',
    fun t ht => .inl (TaskStatus.isFinalized_of_isSettled (hset' t ht))⟩

lemma step_over (h : Closed e w) (hc : ∀ r ∈ c.report?, r.task ∈ e.tasks)
    (hm : c.forMinions = false) (herr : ∀ t details, c = .setTaskError t details →
      w.status.inFinalizedTaskStatuses = true) : OnlyReports w (step e conf env c w).2 := by
  refine Conductor.step_over h.ended (fun _ => h.not_scheduled) (fun t ht => ?_)
    (fun t details hc' => ?_) (by simp [hm])
  · rcases h.tasks t (hc _ ht) with h' | ⟨h', -⟩
    · exact TaskStatus.not_isActive_of_isFinalized h'
    · rw [h']
      rfl
  · subst hc'
    exact ⟨h.plain t (hc _ rfl), herr t details rfl⟩

lemma reported (h : Closed e w) (hr : OnlyReports w w') : Closed e w' := by
  refine ⟨h.plain, hr.status ▸ h.ended, fun hno t ht => ?_, fun t ht => ?_⟩ <;>
    rcases hr.st t.id with heq | hset
  · exact heq ▸ h.settled (hr.status ▸ hno) t ht
  · exact hset
  · rw [heq]
    exact (h.tasks t ht).imp_right fun h' => ⟨h'.1, fun he => h'.2 (hr.cast _ he)⟩
  · exact .inl (TaskStatus.isFinalized_of_isSettled hset)

/-- Whatever a worker says about a task that was handed to it, and whoever cancels: an
execution that is over stays as it is. -/
lemma step (h : Closed e w) (hc : ∀ r ∈ c.report?, r.task ∈ e.tasks)
    (hm : c.forMinions = false) : Closed e (step e conf env c w).2 := by
  by_cases hfin : w.status.inFinalizedTaskStatuses = true
  · exact h.reported (h.step_over hc hm fun _ _ _ => hfin)
  · exact h.step_of_settled (h.settled (by simpa using hfin)) hc hm

end Closed

lemma Request.block_plain (r : Request) (hr : r.type ≠ .deployment) (inst : String) :
    ∀ b ∈ r.block inst, b.task.taskType ≠ .osMorphing := by
  cases r with
  | executeTransferTasks origin destination shutdown =>
    clear hr
    revert origin destination shutdown
    simp only [Request.block]
    decide
  | deleteTransferDisks | updateTransfer =>
    simp only [Request.block]
    decide
  | executeDeployment => exact absurd rfl hr

lemma Built.plain (hb : Built r before e w) (hr : r.type ≠ .deployment) (ht : t ∈ e.tasks) :
    t.taskType ≠ .osMorphing := by
  obtain ⟨inst, -, n, -, b, hbm, rfl⟩ := hb.task ht
  exact r.block_plain hr inst b hbm

/-- What holds of the newest execution of a transfer, which may be running. -/
structure Live (e : Execution) (w : World) : Prop where
  wellFormed : WellFormed e
  plain : ∀ t ∈ e.tasks, t.taskType ≠ .osMorphing
  steady : Steady e w
  decided : Decided e w
  idled : Idled e w

namespace Live

lemma of_launched (h : Launched r before e w) (hr : r.type ≠ .deployment) : Live e w := by
  obtain ⟨w₀, hb, hpath, hst⟩ := h.start plainConf
  have hplain : ∀ t ∈ e.tasks, t.taskType ≠ .osMorphing := fun t ht => hb.plain hr ht
  have hidled : Idled e w₀ := by
    intro hs
    rcases hb.ready.status with h | h <;> rw [h] at hs <;> cases hs
  have hinv := hpath.invariant (P := fun w => Decided e w ∧ Idled e w)
    (fun _ _ hc h => ⟨h.1.change hc, h.2.change hplain h.1.staged hc⟩) ⟨hb.decided, hidled⟩
  exact ⟨hb.wellFormed, hplain, hst, hinv.1, hinv.2⟩

lemma step (h : Live e w) (hstep : Step e conf castOnly w w') : Live e w' := by
  obtain ⟨hpath, hst⟩ := h.steady.step h.wellFormed hstep
  have hinv := hpath.invariant (P := fun w => Decided e w ∧ Idled e w)
    (fun _ _ hc h' => ⟨h'.1.change hc, h'.2.change h.plain h'.1.staged hc⟩) ⟨h.decided, h.idled⟩
  exact ⟨h.wellFormed, h.plain, hst, hinv.1, hinv.2⟩

lemma interfere (h : Live e w) (hl : LastOk { w with lastExecutionStatus := last, info := info })
    (hi : InfoReady e { w with lastExecutionStatus := last, info := info }) :
    Live e { w with lastExecutionStatus := last, info := info } :=
  ⟨h.wellFormed, h.plain,
    ⟨h.steady.released, h.steady.running,
      fun hs => ⟨(h.steady.awaiting hs).statuses, (h.steady.awaiting hs).notCast⟩,
      h.steady.ended, h.steady.unexecuted, hl, hi⟩,
    ⟨⟨hl, h.decided.staged.early, h.decided.staged.stopped, h.decided.staged.stranded,
      h.decided.staged.refused, h.decided.staged.ended⟩, h.decided.cast, h.decided.debugged,
      h.decided.parents⟩, h.idled⟩

lemma closed (h : Live e w) (hover : w.status.isActive = false) : Closed e w := by
  have hsettled : w.status.inFinalizedTaskStatuses = false →
      ∀ t ∈ e.tasks, (w.st t.id).isSettled = true := by
    intro hfin t ht
    have hcases : w.status = .unexecuted ∨
        w.status = .deadlocked ∨ w.status = .errorAllocatingMinions ∨ w.status = .pending := by
      revert hover hfin
      cases w.status <;> decide
    rcases hcases with hs | hs
    · exact h.steady.unexecuted hs t ht
    · exact TaskStatus.isSettled_of_isFruitless (h.decided.staged.stopped hs t ht)
  refine ⟨h.plain, hover, hsettled, fun t ht => ?_⟩
  by_cases hfin : w.status.inFinalizedTaskStatuses = true
  swap
  · exact .inl (TaskStatus.isFinalized_of_isSettled (hsettled (by simpa using hfin) t ht))
  have hstatus : w.status.isFinalized = true := by
    revert hfin
    cases w.status <;> decide
  rcases TaskStatus.phases (w.st t.id) with hst | hst | hst | hst
  · exact absurd hst ((h.steady.ended hover).1 t ht)
  · refine .inr ⟨hst, fun hcast => ?_⟩
    have := h.decided.cast t ht hcast
    rw [hst] at this
    cases this
  · rw [h.idled hstatus t ht] at hst
    cases hst
  · exact .inl hst

end Live

lemma Changes.info (h : Changes e conf strong ok w w') : KeepsKeys w.info w'.info := by
  induction h with
  | refl => exact .refl
  | tail _ hc ih => exact ih.trans hc.info

namespace TransferAction

variable {a a' : TransferAction} {i : Nat} {x : Record}

/-- What holds of a transfer and all its executions between calls. -/
structure Orderly (a : TransferAction) : Prop where
  sound : a.Sound
  newest : ∀ i x, a.records[i]? = some x → a.records.length = i + 1 →
    Live x.execution (a.world x)
  older : ∀ i x, a.records[i]? = some x → i + 1 < a.records.length →
    Closed x.execution (a.world x)

namespace Orderly

lemma closed (h : a.Orderly) (hx : a.records[i]? = some x) (hover : x.status.isActive = false) :
    Closed x.execution (a.world x) := by
  have hi := (List.getElem?_eq_some_iff.mp hx).1
  by_cases hlast : a.records.length = i + 1
  · exact (h.newest i x hx hlast).closed hover
  · exact h.older i x hx (by omega)

lemma interfere (h : a.Orderly) (hs : a'.Sound) (hr : a'.records = a.records)
    (hinfo : KeepsKeys a.info a'.info) : a'.Orderly := by
  refine ⟨hs, fun i x hx hi => ?_, fun i x hx hi => ?_⟩
  · have hlive := h.newest i x (hr ▸ hx) (hr ▸ hi)
    exact hlive.interfere (hs.lastOk hx hi) (hlive.steady.info.mono hinfo)
  · exact (h.older i x (hr ▸ hx) (hr ▸ hi)).kept rfl rfl fun _ he => he

lemma call (h : a.Orderly) (hc : a.Takes castOnly i x c) :
    (a.call conf env i x c).Orderly := by
  have hi : i < a.records.length := (List.getElem?_eq_some_iff.mp hc.found).1
  have hsound : (a.call conf env i x c).Sound := h.sound.call hc
  have hpath : Changes x.execution conf False castOnly (a.world x)
      (Conductor.step x.execution conf env c (a.world x)).2 := h.sound.step_changes hc
  have hself : (a.call conf env i x c).records[i]? =
      some ((Conductor.step x.execution conf env c (a.world x)).2.record x.execution) :=
    List.getElem?_set_self hi
  have hother : ∀ {j : Nat}, j ≠ i → (a.call conf env i x c).records[j]? = a.records[j]? :=
    fun hj => List.getElem?_set_ne hj.symm
  have hlen : (a.call conf env i x c).records.length = a.records.length := length_call
  refine ⟨hsound, fun j y hy hj => ?_, fun j y hy hj => ?_⟩ <;> by_cases hij : j = i
  · subst hij
    rw [hself, Option.some.injEq] at hy
    subst hy
    exact (h.newest j x hc.found (hlen ▸ hj)).step ⟨env, c, hc.report, rfl⟩
  · have hlive := h.newest j y (hother hij ▸ hy) (hlen ▸ hj)
    exact hlive.interfere (hsound.lastOk hy hj) (hlive.steady.info.mono hpath.info)
  · subst hij
    rw [hself, Option.some.injEq] at hy
    subst hy
    rw [hlen] at hj
    refine (h.older j x hc.found hj).step (fun r hr => (hc.report r hr).1) ?_
    by_contra hm
    have := hc.newest (by simpa using hm)
    omega
  · exact (h.older j y (hother hij ▸ hy) (hlen ▸ hj)).kept rfl rfl fun _ he => he

lemma status_call (h : a.Orderly) (hc : a.Takes castOnly i x c)
    (hfin : x.status.inFinalizedTaskStatuses = true) :
    (step x.execution conf env c (a.world x)).2.status = x.status := by
  have hover : x.status.isActive = false := by
    revert hfin
    cases x.status <;> decide
  by_cases hm : c.forMinions = false
  · exact ((h.closed hc.found hover).step_over (fun r hr => (hc.report r hr).1) hm
      fun _ _ _ => hfin).status
  have hm : c.forMinions = true := by simpa using hm
  rw [step_forMinions hm fun hl => ?_]
  · rfl
  · have haw : x.status = .awaitingMinionAllocations :=
      h.sound.lastOk hc.found (hc.newest hm) hl
    rw [haw] at hover
    cases hover

lemma starts (h : a.Orderly) (hr : r.type ≠ .deployment) (hidle : a.isIdle = true)
    (hs : a.Starts r before res a') : a'.Orderly := by
  obtain ⟨e, w, hl, -, rfl⟩ := hs.launched
  have hlen : (a.add e w).records.length = a.records.length + 1 := by simp [add]
  refine ⟨h.sound.starts hidle hs, fun i x hx hi => ?_, fun i x hx hi => ?_⟩ <;>
    rcases records_add hx with ⟨rfl, rfl⟩ | hx
  · exact .of_launched hl hr
  · have := (List.getElem?_eq_some_iff.mp hx).1
    omega
  · omega
  · have hact := List.all_eq_true.mp hidle x (List.mem_of_getElem? hx)
    exact (h.closed hx (by simpa using hact)).kept rfl rfl fun _ he => he

end Orderly

end TransferAction

/-- A closed execution drops every report, unless a worker completes what it refused to
cancel. -/
lemma Closed.report_dropped (h : Closed e w)
    (hc : ∀ r ∈ c.report?, r.task ∈ e.tasks ∧ castOnly w r) (hreport : c.report? ≠ none)
    (hlate : ∀ t result, c = .taskCompleted t result → w.st t.id ≠ .failedToCancel) :
    (Conductor.step e conf env c w).2.info = w.info ∧
      (Conductor.step e conf env c w).2.posts = w.posts := by
  by_cases hbooks : c.keepsBooks = true
  swap
  · have h := @step_writes e conf env w c (by simpa using hbooks)
    exact ⟨h.info, h.posts⟩
  cases c with
  | taskCompleted t result =>
    obtain ⟨ht, hcast⟩ := hc _ rfl
    have hfin : (w.st t.id).isFinalized = true :=
      (h.tasks t ht).resolve_right fun h' => h'.2 hcast
    have hset : (w.st t.id).isSettled = true := by
      simp [TaskStatus.isSettled, hfin, hlate t result rfl]
    simp only [Conductor.step, Conductor.taskCompleted, completionStatus_of_isSettled hset]
    exact ⟨rfl, rfl⟩
  | confirmMinionsAllocation => exact absurd rfl hreport
  | _ => simp [Call.keepsBooks] at hbooks

namespace System

variable {s s' : System}

lemma parentInfo_cases (ev : Event) (info : String → Option TaskInfo) :
    parentInfo ev info = info ∨ ∃ inst volumesInfo, parentInfo ev info = Function.update info inst
      (some (((info inst).getD []).update [("volumes_info", volumesInfo)])) := by
  unfold parentInfo
  split
  · exact .inr ⟨_, _, rfl⟩
  · exact .inl rfl

lemma parentInfo_info (ev : Event) : KeepsKeys infos (parentInfo ev infos) := by
  rcases parentInfo_cases ev infos with h | ⟨inst', volumesInfo, h⟩ <;> rw [h]
  · exact .refl
  · exact .update _ _ _

lemma storeVolumesInfo_info (events : List Event) :
    KeepsKeys s.transfer.info (s.storeVolumesInfo events).transfer.info := by
  induction events with
  | nil => exact .refl
  | cons ev events ih => exact ih.trans (parentInfo_info ev)

lemma Step.orderly (h : Step conf castOnly s s') (hs : s.transfer.Orderly) :
    s'.transfer.Orderly := by
  cases h with
  | callTransfer hc => exact hs.call hc
  | callDeployment =>
    exact hs.interfere ⟨hs.sound.older, hs.sound.last⟩ rfl (storeVolumesInfo_info (s := s) _)
  | execute hr hidle h => exact hs.starts hr (isIdle_transfer hidle) h
  | deployLater | deploy | deployFailed | confirmDeployerCompleted | confirmDeployerFailed
  | reportDeployerFailure => exact hs

lemma Run.orderly (h : Run conf castOnly (new instances) s) :
    s.transfer.Orderly := by
  induction h with
  | refl => exact ⟨(sound_new instances).transfer, fun _ _ hx => by simp [new] at hx,
      fun _ _ hx => by simp [new] at hx⟩
  | tail _ hstep ih => exact hstep.orderly ih

/-- Once an execution of a transfer has ended, a report about one of its tasks changes no info
of the transfer and triggers no post-task action, whatever was executed since, unless it is
the completion of a task whose worker had refused to cancel it. -/
theorem late_report_dropped (conf : Conf) (instances : List String) (s : System)
    (h : Run conf castOnly (new instances) s) (i : Nat) (x : Record) (env : Env) (c : Call)
    (hc : s.transfer.Takes castOnly i x c) (hover : x.status.isFinalized = true)
    (hreport : c.report? ≠ none)
    (hlate : ∀ t result, c = .taskCompleted t result →
      (x.rows t.id).status ≠ .failedToCancel) :
    (s.transfer.call conf env i x c).info = s.transfer.info ∧
      (step x.execution conf env c (s.transfer.world x)).2.posts =
        (s.transfer.world x).posts := by
  have hact : x.status.isActive = false := by
    revert hover
    cases x.status <;> decide
  exact (h.orderly.closed hc.found hact).report_dropped hc.report hreport hlate

def refusing : Env := ⟨fun _ => true, fun _ => "", fun _ => true, fun _ => false⟩

/-- The update of the notes of a transfer with one instance. Its tasks in order: the query
of the instance and the updates of the source and of the destination. -/
def updateNotes : Request := .updateTransfer [("notes", .str "new")]

def updateTasks : Execution := updateNotes.execution (fun _ => none) ["vm"] "execution" "action"

def updating : System :=
  { executed with transfer := executed.transfer.start updateNotes executed.transfer.info }

/-- The update is cancelled while the worker of its last task is busy and refuses, which ends
the update, and the transfer is executed again. -/
def overtaken : System :=
  let s := updating.handleAll plainConf (0, 1) (completes updateTasks 0 ++
    completes updateTasks 1 ++ runs updateTasks 2 ++ [(refusing, .cancel false)])
  { s with transfer :=
      s.transfer.start (.executeTransferTasks false false false) s.transfer.info }

lemma run_overtaken : Run plainConf castOnly (new ["vm"]) overtaken := by
  have hupdate : Step plainConf castOnly executed updating :=
    .execute (by decide) (by decide +kernel) (TransferAction.starts_start
      (show ∀ inst ∈ ["vm"], (executed.transfer.info inst).isSome = true by decide +kernel)
      (by decide +kernel))
  exact ((run_executed.tail hupdate).trans (run_handleAll (by decide))).tail
    (.execute (by decide) (by decide +kernel)
      (TransferAction.starts_start trivial (by decide +kernel)))

def endedUpdate : Record := (overtaken.transfer.records[1]?).get (by decide)

lemma overtaken_records : overtaken.transfer.records[1]? = some endedUpdate :=
  (Option.some_get _).symm

def refusedTask : Task :=
  { id := 2, inst := "vm", taskType := .updateDestinationTransfer, dependsOn := [0, 1],
    onError := false, index := 4 }

def hasVolumes (a : TransferAction) (inst : String) : Bool :=
  (((a.info inst).bind (·.get? "volumes_info")).getD .null).truthy

/-- While the transfer is executed again, the worker of the ended update completes: the
volumes of the instance are replaced, and the parameters of the update are stored. -/
theorem late_completion_processed :
    Run plainConf castOnly (new ["vm"]) overtaken ∧
      (overtaken.record? (0, 2)).map (·.status) = some .running ∧
      overtaken.transfer.Takes castOnly 1 endedUpdate
        (.taskCompleted refusedTask [("volumes_info", .arr [])]) ∧
      endedUpdate.status = .canceled ∧
      (endedUpdate.rows refusedTask.id).status = .failedToCancel ∧
      hasVolumes overtaken.transfer "vm" = true ∧
      hasVolumes (overtaken.transfer.call plainConf responsive 1 endedUpdate
        (.taskCompleted refusedTask [("volumes_info", .arr [])])) "vm" = false ∧
      (step endedUpdate.execution plainConf responsive
        (.taskCompleted refusedTask [("volumes_info", .arr [])])
        (overtaken.transfer.world endedUpdate)).2.posts.length =
          (overtaken.transfer.world endedUpdate).posts.length + 1 :=
  ⟨run_overtaken, by decide, .of_takes overtaken_records (by decide),
    by decide +kernel, by decide +kernel, by decide +kernel, by decide +kernel,
    by decide⟩

/-- An error that the worker of the ended update reports then is dropped. -/
theorem late_report_dropped_overtaken :
    overtaken.transfer.Takes castOnly 1 endedUpdate (.setTaskError refusedTask "late") ∧
      (overtaken.transfer.call plainConf responsive 1 endedUpdate
        (.setTaskError refusedTask "late")).info = overtaken.transfer.info ∧
      (step endedUpdate.execution plainConf responsive (.setTaskError refusedTask "late")
        (overtaken.transfer.world endedUpdate)).2.posts =
          (overtaken.transfer.world endedUpdate).posts := by
  have hc : overtaken.transfer.Takes castOnly 1 endedUpdate (.setTaskError refusedTask "late") :=
    .of_takes overtaken_records (by decide)
  exact ⟨hc, late_report_dropped plainConf ["vm"] overtaken run_overtaken 1 endedUpdate responsive
    _ hc (by decide) (by simp [Call.report?]) (fun _ _ h => nomatch h)⟩

end System

end Coriolis.Conductor

import Coriolis.Conductor.Over

/-!
# Actions and their executions

A transfer is executed again and again, and so it has many executions that share its info
and its `last_execution_status`. A call works on one of them; workers of an earlier one may
still answer while a later one runs. `TransferAction.Sound` is what holds of an action between
calls: every execution but the newest is over, and the status of the action is an active one
only if it is the status of the newest execution.
-/

namespace Coriolis.Conductor

variable {r : Request} {before : String → Option TaskInfo} {e : Execution} {conf : Conf}
  {ok : World → Report → Prop} {env : Env} {w w' : World}

/-- An execution with what the database holds for it alone. -/
structure Record where
  execution : Execution
  status : ExecutionStatus
  rows : TaskId → TaskRow
  trace : List Event

def World.record (e : Execution) (w : World) : Record := ⟨e, w.status, w.rows, w.trace⟩

/-- A transfer or a deployment with its executions, the oldest one first. -/
structure TransferAction where
  instances : List String
  lastExecutionStatus : ExecutionStatus
  info : String → Option TaskInfo
  records : List Record

namespace TransferAction

/-- What a handler finds that works on an execution of the action. -/
def world (a : TransferAction) (x : Record) : World :=
  ⟨x.status, a.lastExecutionStatus, x.rows, a.info, x.trace⟩

/-- What a handler leaves that worked on the execution at place `i`. -/
def put (a : TransferAction) (i : Nat) (e : Execution) (w : World) : TransferAction :=
  ⟨a.instances, w.lastExecutionStatus, w.info, a.records.set i (w.record e)⟩

/-- `db_api.add_transfer_tasks_execution`. -/
def add (a : TransferAction) (e : Execution) (w : World) : TransferAction :=
  ⟨a.instances, w.lastExecutionStatus, w.info, a.records ++ [w.record e]⟩

/-- `db_api.set_action_last_execution_status`. -/
def setLastExecutionStatus (a : TransferAction) (status : ExecutionStatus) : TransferAction :=
  { a with lastExecutionStatus := status }

/-- No execution of the action is active, which `_check_running_executions` checks. -/
def isIdle (a : TransferAction) : Bool := a.records.all fun x => !x.status.isActive

/-- A call finds the execution it is about. The minion manager knows the action only, and
means its newest execution. -/
structure Takes (ok : World → Report → Prop) (a : TransferAction) (i : Nat) (x : Record)
    (c : Call) : Prop where
  found : a.records[i]? = some x
  newest : c.forMinions = true → a.records.length = i + 1
  report : ∀ r ∈ c.report?, r.task ∈ x.execution.tasks ∧ ok (a.world x) r

/-- A call on the execution `x` at place `i`. -/
def call (conf : Conf) (env : Env) (i : Nat) (x : Record) (c : Call) (a : TransferAction) :
    TransferAction :=
  a.put i x.execution (step x.execution conf env c (a.world x)).2

/-- A request that was accepted stores an execution and begins it, or leaves it waiting for
minions. -/
inductive Starts (r : Request) (before : String → Option TaskInfo) (a : TransferAction) :
    Except ConductorError Unit → TransferAction → Prop
  | begun {e : Execution} {w : World} {env : Env} (hb : Built r before e w)
      (hi : e.instances = a.instances) (hr : r.awaitsMinions = false)
      (hl : w.lastExecutionStatus = a.lastExecutionStatus) :
      Starts r before a (beginTasks e env w w).1 (a.add e (beginTasks e env w w).2)
  | awaiting {e : Execution} {w : World} (hb : Built r before e w)
      (hi : e.instances = a.instances) (hr : r.awaitsMinions = true) :
      Starts r before a (.ok ()) (a.add e w)

end TransferAction

lemma Change.lastExecutionStatus (h : Change e conf strong ok w w') :
    w'.status = w.status ∧ w'.lastExecutionStatus = w.lastExecutionStatus ∨
      w'.lastExecutionStatus = w'.status ∧ w'.status ≠ .awaitingMinionAllocations ∧
        w'.status ≠ .pending := by
  have henter : ∀ {env : Env} {force : Bool} {w₁ : World}, w₁.status = w.status →
      w₁.lastExecutionStatus = w.lastExecutionStatus →
      (enterCancellation e env force w₁).status = w.status ∧
          (enterCancellation e env force w₁).lastExecutionStatus = w.lastExecutionStatus ∨
        (enterCancellation e env force w₁).lastExecutionStatus =
            (enterCancellation e env force w₁).status ∧
          (enterCancellation e env force w₁).status ≠ .awaitingMinionAllocations ∧
          (enterCancellation e env force w₁).status ≠ .pending := by
    intro env force w₁ hs hl
    rw [enterCancellation_status, enterCancellation_last]
    split
    · exact .inr ⟨rfl, by decide, by decide⟩
    · exact .inl ⟨hs, hl⟩
  cases h with
  | notScheduled | castRaised | errored | cancelRequested => exact henter rfl rfl
  | refreshed =>
    refine .inr ⟨by simp, ?_⟩
    rw [status_setTasksExecutionStatus]
    rcases getExecutionStatus_cases e w with ⟨-, h⟩ | ⟨-, -, h | h⟩ | ⟨-, h | h | ⟨h, -⟩⟩ <;>
      rw [h] <;> decide
  | deadlocked | begun | debugged | allocationFailed => exact .inr (by simp)
  | kept h => exact .inl ⟨h.status, h.last⟩
  | started | unscheduled | moved | completed | dropped | cancelConfirmed => exact .inl ⟨rfl, rfl⟩

lemma Changes.lastExecutionStatus (h : Changes e conf strong ok w w') :
    w'.status = w.status ∧ w'.lastExecutionStatus = w.lastExecutionStatus ∨
      w'.lastExecutionStatus = w'.status ∧ w'.status ≠ .awaitingMinionAllocations ∧
        w'.status ≠ .pending := by
  induction h with
  | refl => exact .inl ⟨rfl, rfl⟩
  | tail _ hlast ih =>
    rcases hlast.lastExecutionStatus with ⟨hs, hl⟩ | h
    · rw [hs, hl]
      exact ih
    · exact .inr h

namespace TransferAction

variable {a a' a'' : TransferAction} {i : Nat} {x : Record} {c : Call}

/-- Every execution but the newest is over, and the status of the action is an active one
only if it is the status of the newest execution. -/
structure Sound (a : TransferAction) : Prop where
  older : ∀ i x, a.records[i]? = some x → i + 1 < a.records.length → x.status.isActive = false
  last : a.lastExecutionStatus.isActive = true → ∃ i x, a.records[i]? = some x ∧
    a.records.length = i + 1 ∧ x.status = a.lastExecutionStatus

namespace Sound

lemma lastOk (h : a.Sound) (hx : a.records[i]? = some x) (hi : a.records.length = i + 1) :
    LastOk (a.world x) := by
  intro hl
  have hact : a.lastExecutionStatus.isActive = true := by
    rw [show a.lastExecutionStatus = _ from hl]
    rfl
  obtain ⟨j, y, hy, hj, hs⟩ := h.last hact
  obtain rfl : i = j := by omega
  rw [hx, Option.some.injEq] at hy
  exact (hy ▸ hs).trans hl

lemma newest (h : a.Sound) (hx : a.records[i]? = some x) (hact : x.status.isActive = true) :
    a.records.length = i + 1 := by
  have hi := (List.getElem?_eq_some_iff.mp hx).1
  by_contra hne
  rw [h.older i x hx (by omega)] at hact
  cases hact

lemma step_changes (h : a.Sound) (hc : a.Takes ok i x c) :
    Changes x.execution conf False ok (a.world x)
      (step x.execution conf env c (a.world x)).2 := by
  refine (step_spec (fun hf => hf.elim) (fun hf => hf.elim) c (fun r hr => ?_) fun hm => ?_).1
  · obtain ⟨ht, hok⟩ := hc.report r hr
    exact ⟨ht, hok, fun hf => hf.elim⟩
  · exact h.lastOk hc.found (hc.newest (by rw [hm]; rfl))

lemma step_inactive (h : a.Sound) (hc : a.Takes ok i x c)
    (hact : x.status.isActive = false) :
    (step x.execution conf env c (a.world x)).2.status.isActive = false := by
  refine step_stays_inactive c hact fun hm hl => ?_
  have haw : x.status = .awaitingMinionAllocations := h.lastOk hc.found (hc.newest hm) hl
  rw [haw] at hact
  cases hact

/-- An execution that stays inactive if it is, and sets the status of the action to its own
if at all, keeps its action sound. -/
lemma put (h : a.Sound) (hx : a.records[i]? = some x)
    (hin : x.status.isActive = false → w.status.isActive = false)
    (hl : w.status = x.status ∧ w.lastExecutionStatus = a.lastExecutionStatus ∨
      w.lastExecutionStatus = w.status) : (a.put i e w).Sound := by
  have hi : i < a.records.length := (List.getElem?_eq_some_iff.mp hx).1
  have hself : (a.put i e w).records[i]? = some (w.record e) := by
    simp [TransferAction.put, List.getElem?_set_self hi]
  have hother : ∀ {j : Nat}, j ≠ i → (a.put i e w).records[j]? = a.records[j]? := by
    intro j hj
    simp [TransferAction.put, List.getElem?_set_ne hj.symm]
  have hlen : (a.put i e w).records.length = a.records.length := by simp [TransferAction.put]
  refine ⟨fun j y hy hj => ?_, fun hact => ?_⟩
  · rw [hlen] at hj
    by_cases hij : j = i
    · rw [hij, hself, Option.some.injEq] at hy
      rw [← hy]
      exact hin (h.older i x hx (hij ▸ hj))
    · exact h.older j y (by rwa [hother hij] at hy) hj
  have hact : w.lastExecutionStatus.isActive = true := hact
  rw [hlen]
  rcases hl with ⟨hs, hlast⟩ | hlast
  · -- nothing was written: the newest execution has the status it had
    obtain ⟨j, y, hy, hj, hys⟩ := h.last (hlast ▸ hact)
    by_cases hij : j = i
    · rw [hij, hx, Option.some.injEq] at hy
      exact ⟨i, _, hself, hij ▸ hj, hs.trans (hy ▸ hys.trans hlast.symm)⟩
    · exact ⟨j, y, by rw [hother hij, hy], hj, hys.trans hlast.symm⟩
  · -- an active status is written by the newest execution only
    refine ⟨i, _, hself, ?_, hlast.symm⟩
    by_contra hne
    have := hin (h.older i x hx (by omega))
    rw [← hlast, hact] at this
    cases this

lemma call (h : a.Sound) (hc : a.Takes ok i x c) : (a.call conf env i x c).Sound :=
  h.put hc.found (h.step_inactive hc)
    ((h.step_changes hc).lastExecutionStatus.imp_right And.left)

lemma last_inactive (h : a.Sound) (hidle : a.isIdle = true) :
    a.lastExecutionStatus.isActive = false := by
  by_contra hact
  obtain ⟨i, x, hx, -, hs⟩ := h.last (by simpa using hact)
  have := List.all_eq_true.mp hidle x (List.mem_of_getElem? hx)
  rw [hs] at this
  simp [hact] at this

lemma add (hidle : a.isIdle = true)
    (hl : w.lastExecutionStatus.isActive = true → w.status = w.lastExecutionStatus) :
    (a.add e w).Sound := by
  refine ⟨fun i x hx hi => ?_, fun hact => ?_⟩
  · simp only [TransferAction.add, List.length_append, List.length_singleton] at hi
    rw [show (a.add e w).records = a.records ++ [w.record e] from rfl,
      List.getElem?_append_left (by omega)] at hx
    simpa using List.all_eq_true.mp hidle x (List.mem_of_getElem? hx)
  · exact ⟨a.records.length, w.record e, by simp [TransferAction.add],
      by simp [TransferAction.add], hl hact⟩

lemma starts (h : a.Sound) (hidle : a.isIdle = true) (hs : a.Starts r before res a') :
    a'.Sound := by
  cases hs with
  | @begun e w env hb hi hr hl =>
    refine Sound.add hidle fun hact => ?_
    have hpath := (@beginTasks_spec e plainConf True reported env w (fun _ => hb.wellFormed)
      (fun _ => hb.ready) (.inl (by rw [hb.status_eq, hr]; rfl))).1
    rcases hpath.lastExecutionStatus with ⟨-, hlast⟩ | ⟨hlast, -⟩
    · rw [hlast, hl, h.last_inactive hidle] at hact
      cases hact
    · exact hlast.symm
  | awaiting hb hi hr =>
    refine Sound.add hidle fun _ => ?_
    rcases hb.status with ⟨h', -⟩ | ⟨-, hs, hl, -⟩
    · simp [hr] at h'
    · rw [hs, hl]

lemma setLastExecutionStatus (h : a.Sound) (hs : status.isActive = false) :
    (a.setLastExecutionStatus status).Sound :=
  ⟨h.older, fun hact => by
    rw [show (a.setLastExecutionStatus status).lastExecutionStatus = status from rfl, hs] at hact
    cases hact⟩

end Sound

/-- Every execution is at its place still, and active only if it was. -/
def Keeps (a a' : TransferAction) : Prop :=
  ∀ (i : Nat) (x : Record), a.records[i]? = some x → ∃ x', a'.records[i]? = some x' ∧
    x'.execution = x.execution ∧ (x.status.isActive = false → x'.status.isActive = false)

lemma Keeps.of_eq (h : a'.records = a.records) : a.Keeps a' :=
  fun _ x hx => ⟨x, h ▸ hx, rfl, id⟩

lemma Sound.keeps_call (h : a.Sound) (hc : a.Takes ok i x c) :
    a.Keeps (a.call conf env i x c) := by
  have hi : i < a.records.length := (List.getElem?_eq_some_iff.mp hc.found).1
  intro j y hy
  by_cases hij : i = j
  · subst hij
    rw [hc.found, Option.some.injEq] at hy
    subst hy
    exact ⟨_, List.getElem?_set_self hi, rfl, h.step_inactive hc⟩
  · exact ⟨y, (List.getElem?_set_ne hij).trans hy, rfl, id⟩

lemma Keeps.add : a.Keeps (a.add e w) :=
  fun i x hx => ⟨x, by
    rw [← hx]
    exact List.getElem?_append_left (List.getElem?_eq_some_iff.mp hx).1, rfl, id⟩

lemma Starts.keeps (h : a.Starts r before res a') :
    a.Keeps a' ∧ a'.records.length = a.records.length + 1 := by
  cases h with
  | begun | awaiting => exact ⟨.add, by simp [TransferAction.add]⟩

lemma records_call (hx : a.records[i]? = some x)
    (hy : (a.call conf env i x c).records[j]? = some y) :
    j = i ∧ y = (step x.execution conf env c (a.world x)).2.record x.execution ∨
      j ≠ i ∧ a.records[j]? = some y := by
  have hi : i < a.records.length := (List.getElem?_eq_some_iff.mp hx).1
  by_cases hij : j = i
  · subst hij
    refine .inl ⟨rfl, ?_⟩
    rw [← Option.some.injEq, ← hy]
    exact List.getElem?_set_self hi
  · exact .inr ⟨hij, (List.getElem?_set_ne (Ne.symm hij)).symm.trans hy⟩

lemma records_add (hx : (a.add e w).records[i]? = some x) :
    i = a.records.length ∧ x = w.record e ∨ a.records[i]? = some x := by
  have hi := (List.getElem?_eq_some_iff.mp hx).1
  simp only [add, List.length_append, List.length_singleton] at hi
  by_cases h : i = a.records.length
  · subst h
    exact .inl ⟨rfl, by simpa [add] using hx.symm⟩
  · refine .inr ?_
    rw [← hx]
    exact (List.getElem?_append_left (by omega)).symm

lemma Starts.launched (h : a.Starts r before res a') :
    ∃ e w, Launched r before e w ∧ e.instances = a.instances ∧ a' = a.add e w := by
  cases h with
  | begun hb hi hr => exact ⟨_, _, .begun hb hr, hi, rfl⟩
  | awaiting hb hi hr => exact ⟨_, _, .awaiting hb hr, hi, rfl⟩

lemma length_call : (a.call conf env i x c).records.length = a.records.length := by
  simp [call, put]

/-- The execution a request builds for the action, and the database it begins with. -/
def execution (r : Request) (before : String → Option TaskInfo) (a : TransferAction) : Execution :=
  r.execution before a.instances "execution" "action"

def stored (r : Request) (before : String → Option TaskInfo) (a : TransferAction) : World :=
  { r.stored before a.instances with lastExecutionStatus := a.lastExecutionStatus }

/-- `_begin_tasks` for the request, with every service answering. -/
def begin (r : Request) (before : String → Option TaskInfo) (a : TransferAction) : Outcome Unit :=
  beginTasks (a.execution r before) responsive (a.stored r before) (a.stored r before)

def start (r : Request) (before : String → Option TaskInfo) (a : TransferAction) : TransferAction :=
  a.add (a.execution r before) (a.begin r before).2

def startable (r : Request) (before : String → Option TaskInfo) (a : TransferAction) : Bool :=
  decide a.instances.Nodup && !r.awaitsMinions && !a.lastExecutionStatus.isActive &&
    match checkExecutionTasksSanity (a.stored r before).st (a.execution r before)
      (a.stored r before).info with
    | .ok _ => true
    | .error _ => false

lemma starts_start (ha : r.accepts before a.instances) (h : a.startable r before = true) :
    a.Starts r before (a.begin r before).1 (a.start r before) := by
  simp only [startable, Bool.and_eq_true, decide_eq_true_eq, Bool.not_eq_true'] at h
  obtain ⟨⟨⟨hnd, hr⟩, hl⟩, hsane⟩ := h
  have hsane : checkExecutionTasksSanity (a.stored r before).st (a.execution r before)
      (a.stored r before).info = .ok () := by
    split at hsane
    · assumption
    · simp at hsane
  have hb := r.built before a.instances "execution" "action" ha hnd hsane
  refine .begun ⟨hb.accepts, hb.instances, hb.type, hb.tasks, hb.rows, hb.info, hb.sane, ?_⟩
    rfl hr rfl
  rcases hb.status with ⟨-, hs, -, ht⟩ | ⟨hr', -⟩
  · exact .inl ⟨hr, hs, hl, ht⟩
  · simp [hr] at hr'

/-- Whether a call is taken by an action, with a report of a task that was cast. -/
def takes (a : TransferAction) (i : Nat) (c : Call) : Bool :=
  a.records[i]?.any fun x => (!c.forMinions || a.records.length == i + 1) &&
    c.report?.all fun r => x.execution.tasks.contains r.task && (a.world x).wasCast r.task.id

lemma Takes.of_takes (hx : a.records[i]? = some x) (h : a.takes i c = true) :
    a.Takes castOnly i x c := by
  simp only [takes, hx, Option.any_some, Bool.and_eq_true, Bool.or_eq_true, Bool.not_eq_true',
    beq_iff_eq] at h
  refine ⟨hx, fun hm => h.1.resolve_left (by simp [hm]), fun r hr => ?_⟩
  have := (Option.all_eq_true _ _).mp h.2 r hr
  simp only [Bool.and_eq_true, List.contains_iff_mem, wasCast_iff] at this
  exact this

end TransferAction

end Coriolis.Conductor

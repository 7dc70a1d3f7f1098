import Coriolis.Library.Locks

/-!
# The locks of the conductor's handlers

Every handler locks what it works on: a transfer, a deployment, an execution, a task. The
handlers a worker calls lock the execution and the task first and then, inside, the action of
the execution; a completed snapshot task of a deployment locks the parent transfer on top of
that. The handlers a user calls go the other way: from the action to its execution, and from
the transfer to a deployment of it.
-/

namespace Coriolis.Conductor

open Locking

/-- The named locks the handlers share: the formats of `constants.*_LOCK_NAME_FORMAT`. -/
inductive Lock where
  | transfer (id : String)
  | deployment (id : String)
  | execution (id : String)
  | task (id : String)
  deriving DecidableEq, Repr

/-- What an execution belongs to, by its type. -/
inductive Action where
  | transfer (id : String)
  | deployment (id : String)
  deriving DecidableEq, Repr

/-- `constants.EXECUTION_TYPE_TO_ACTION_LOCK_NAME_FORMAT_MAP`. -/
def Action.lock : Action → Lock
  | transfer id => .transfer id
  | deployment id => .deployment id

@[simp] lemma Action.task_ne_lock (a : Action) (t : String) : Lock.task t ≠ a.lock := by
  cases a <;> simp [Action.lock]

@[simp] lemma Action.execution_ne_lock (a : Action) (e : String) :
    Lock.execution e ≠ a.lock := by
  cases a <;> simp [Action.lock]

/-- What the database says about the ids: the execution of a task, the action of an
execution and the transfer of a deployment. -/
structure Records where
  execution : String → String
  action : String → Action
  transfer : String → String

/-- A call of a handler, with what decides which locks it takes. -/
inductive Handler (db : Records) where
  | setTaskHost (taskId : String)
  | setTaskProcess (taskId : String)
  | confirmTaskCancellation (taskId : String)
  | taskCompleted (taskId : String) (alreadyFinalized updatesVolumesInfo : Bool)
  | setTaskError (taskId : String)
  | cancelTransferTasksExecution (executionId : String)
  | cancelDeployment (deploymentId executionId : String)
      (h : db.action executionId = .deployment deploymentId)
  | executeTransferTasks (transferId : String)
  | deleteTransferDisks (transferId executionId : String)
      (h : db.action executionId = .transfer transferId)
  | updateTransfer (transferId executionId : String)
      (h : db.action executionId = .transfer transferId)
  | deployTransferInstances (transferId deploymentId : String) (waitForExecution onMinions : Bool)
      (h : db.transfer deploymentId = transferId)
  | confirmDeployerCompleted (deploymentId : String) (onMinions : Bool)
  | confirmTransferMinionsAllocation (transferId : String)
  | reportTransferMinionsAllocationError (transferId : String)
  | confirmDeploymentMinionsAllocation (deploymentId : String)
  | reportDeploymentMinionsAllocationError (deploymentId : String)

section

variable (db : Records)

def transferSynchronized (transferId : String) (body : List (Op Lock)) : List (Op Lock) :=
  withLock (.transfer transferId) body

def deploymentSynchronized (deploymentId : String) (body : List (Op Lock)) : List (Op Lock) :=
  withLock (.deployment deploymentId) body

def tasksExecutionSynchronized (executionId : String) (body : List (Op Lock)) :
    List (Op Lock) :=
  withLock (.execution executionId) body

def parentTasksExecutionSynchronized (taskId : String) (body : List (Op Lock)) :
    List (Op Lock) :=
  withLock (.execution (db.execution taskId)) (withLock (.task taskId) body)

def updateVolumesInfoForDeploymentParentTransfer (deploymentId : String) : List (Op Lock) :=
  withLock (.transfer (db.transfer deploymentId)) []

/-- The locks of `_handle_post_task_actions`: the snapshot tasks, which only deployments
have, update the volumes of the parent transfer. -/
def lockedPostTaskActions (action : Action) (updatesVolumesInfo : Bool) : List (Op Lock) :=
  match action with
  | .deployment id =>
    if updatesVolumesInfo then updateVolumesInfoForDeploymentParentTransfer db id else []
  | .transfer _ => []

/-- The locks of `_execute_deployment`: the allocation of minions is asked for under the
lock of the deployment. -/
def lockedExecuteDeployment (deploymentId : String) (onMinions : Bool) : List (Op Lock) :=
  if onMinions then withLock (.deployment deploymentId) [] else []

end

namespace Handler

variable {db : Records}

def script : Handler db → List (Op Lock)
  | setTaskHost taskId => parentTasksExecutionSynchronized db taskId []
  | setTaskProcess taskId => parentTasksExecutionSynchronized db taskId []
  | confirmTaskCancellation taskId => parentTasksExecutionSynchronized db taskId []
  | taskCompleted taskId alreadyFinalized updatesVolumesInfo =>
    let action := db.action (db.execution taskId)
    parentTasksExecutionSynchronized db taskId
      (if alreadyFinalized then []
      else withLock action.lock (lockedPostTaskActions db action updatesVolumesInfo))
  | setTaskError taskId =>
    parentTasksExecutionSynchronized db taskId
      (withLock (db.action (db.execution taskId)).lock [])
  | cancelTransferTasksExecution executionId => tasksExecutionSynchronized executionId []
  | cancelDeployment deploymentId executionId _ =>
    deploymentSynchronized deploymentId (withLock (.execution executionId) [])
  | executeTransferTasks transferId => transferSynchronized transferId []
  | deleteTransferDisks transferId executionId _ =>
    -- `get_transfer_tasks_execution`, of the execution just begun
    transferSynchronized transferId (tasksExecutionSynchronized executionId [])
  | updateTransfer transferId executionId _ =>
    transferSynchronized transferId (tasksExecutionSynchronized executionId [])
  | deployTransferInstances transferId deploymentId waitForExecution onMinions _ =>
    -- `get_deployment`, of the deployment just created
    transferSynchronized transferId
      ((if waitForExecution then [] else lockedExecuteDeployment deploymentId onMinions) ++
        deploymentSynchronized deploymentId [])
  | confirmDeployerCompleted deploymentId onMinions =>
    withLock (.deployment deploymentId) [] ++
      withLock (.transfer (db.transfer deploymentId))
        (lockedExecuteDeployment deploymentId onMinions)
  | confirmTransferMinionsAllocation transferId => transferSynchronized transferId []
  | reportTransferMinionsAllocationError transferId => transferSynchronized transferId []
  | confirmDeploymentMinionsAllocation deploymentId => deploymentSynchronized deploymentId []
  | reportDeploymentMinionsAllocationError deploymentId =>
    deploymentSynchronized deploymentId []

/-- The task under whose lock the action of its execution is locked. -/
def actionTask? : Handler db → Option String
  | taskCompleted taskId false _ => some taskId
  | setTaskError taskId => some taskId
  | _ => none

/-- The task under whose lock the parent transfer of a deployment is locked. -/
def volumesTask? : Handler db → Option String
  | taskCompleted taskId false true => some taskId
  | _ => none

def lockedExecution? : Handler db → Option String
  | cancelDeployment _ executionId _ => some executionId
  | deleteTransferDisks _ executionId _ => some executionId
  | updateTransfer _ executionId _ => some executionId
  | _ => none

def lockedDeployment? : Handler db → Option String
  | deployTransferInstances _ deploymentId _ _ _ => some deploymentId
  | confirmDeployerCompleted deploymentId true => some deploymentId
  | _ => none

/-- Two handlers that take two locks in opposite orders: an execution and its action, or a
deployment and its transfer. -/
def clashes (c c' : Handler db) : Prop :=
  (∃ e ∈ c.lockedExecution?, ∃ t ∈ c'.actionTask?, db.execution t = e) ∨
    ∃ d ∈ c.lockedDeployment?, ∃ t ∈ c'.volumesTask?,
      db.action (db.execution t) = .deployment d

/-- Where a handler can be waiting: the locks it holds, and the lock it wants. -/
inductive Blocked : Handler db → List Lock → Lock → Prop
  | first {c : Handler db} {l : Lock} : Blocked c [] l
  | task {c : Handler db} (t : String) : Blocked c [.execution (db.execution t)] (.task t)
  | action {c : Handler db} {t : String} (h : t ∈ c.actionTask?) :
      Blocked c [.task t, .execution (db.execution t)] (db.action (db.execution t)).lock
  | volumes {c : Handler db} {t d : String} (h : t ∈ c.volumesTask?)
      (hd : db.action (db.execution t) = .deployment d) :
      Blocked c [.deployment d, .task t, .execution (db.execution t)] (.transfer (db.transfer d))
  | execution {c : Handler db} {e : String} (h : e ∈ c.lockedExecution?) :
      Blocked c [(db.action e).lock] (.execution e)
  | deployment {c : Handler db} {d : String} (h : d ∈ c.lockedDeployment?) :
      Blocked c [.transfer (db.transfer d)] (.deployment d)

section

variable {c : Handler db}

lemma Blocked.execution_of_task (h : Blocked c held l) (ht : .task t ∈ held) :
    .execution (db.execution t) ∈ held := by
  cases h <;> simp_all

lemma Blocked.of_execution (h : Blocked c held l) (he : .execution e ∈ held) :
    (∃ t, db.execution t = e ∧ held = [.execution (db.execution t)] ∧ l = .task t) ∨
      (∃ t ∈ c.actionTask?, db.execution t = e) ∨ (db.action e).lock ∈ held := by
  cases h with
  | first | execution | deployment => simp at he
  | task t => exact .inl ⟨t, by simpa [eq_comm] using he, rfl, rfl⟩
  | @action t h => exact .inr (.inl ⟨t, h, by simpa [eq_comm] using he⟩)
  | @volumes t d h hd =>
    obtain rfl : e = db.execution t := by simpa using he
    exact .inr (.inr (by simp [hd, Action.lock]))

lemma Blocked.of_deployment (h : Blocked c held l) (hd : .deployment d ∈ held) :
    (∃ t ∈ c.volumesTask?, db.action (db.execution t) = .deployment d ∧
        l = .transfer (db.transfer d)) ∨
      ∃ e ∈ c.lockedExecution?, held = [(db.action e).lock] ∧ l = .execution e := by
  cases h with
  | first | task | action | deployment => simp at hd
  | @volumes t d' h hd' =>
    obtain rfl : d = d' := by simpa using hd
    exact .inl ⟨t, h, hd', rfl⟩
  | @execution e h => exact .inr ⟨e, h, rfl, rfl⟩

lemma Blocked.of_transfer (h : Blocked c held l) (hx : .transfer x ∈ held) :
    (∃ e ∈ c.lockedExecution?, held = [(db.action e).lock] ∧ l = .execution e) ∨
      ∃ d ∈ c.lockedDeployment?, l = .deployment d := by
  cases h with
  | first | task | action | volumes => simp at hx
  | @execution e h => exact .inl ⟨e, h, rfl, rfl⟩
  | @deployment d h => exact .inr ⟨d, h, rfl⟩

variable {body : List (Op Lock)}

lemma Blocked.of_mem_withLock (h : (held, l) ∈ waits [] (withLock k body)) :
    Blocked c held l ∨ (held, l) ∈ waits [k] body := by
  rw [waits_withLock, List.mem_cons, Prod.mk.injEq] at h
  rcases h with ⟨rfl, -⟩ | h
  · exact .inl .first
  · exact .inr h

lemma Blocked.of_mem_parent
    (h : (held, l) ∈ waits [] (parentTasksExecutionSynchronized db t body)) :
    Blocked c held l ∨ (held, l) ∈ waits [.task t, .execution (db.execution t)] body := by
  refine (Blocked.of_mem_withLock h).elim .inl fun h => ?_
  rw [waits_withLock, List.mem_cons, Prod.mk.injEq] at h
  rcases h with ⟨rfl, rfl⟩ | h
  · exact .inl (.task t)
  · exact .inr h

lemma Blocked.of_mem_action (ha : (db.action e).lock = k) (he : e ∈ c.lockedExecution?)
    (h : (held, l) ∈ waits [] (withLock k (withLock (.execution e) []))) : Blocked c held l := by
  refine (Blocked.of_mem_withLock h).elim id fun h => ?_
  obtain ⟨rfl, rfl⟩ : held = [k] ∧ l = .execution e := by simpa using h
  exact ha ▸ .execution he

end

lemma blocked_of_mem_waits {c : Handler db} (h : (held, l) ∈ waits [] c.script) :
    Blocked c held l := by
  cases c with
  | setTaskHost t | setTaskProcess t | confirmTaskCancellation t =>
    exact (Blocked.of_mem_parent h).resolve_right (by simp)
  | taskCompleted t finalized updates =>
    refine (Blocked.of_mem_parent h).elim id fun h => ?_
    cases finalized with
    | true => simp at h
    | false =>
      simp only [Bool.false_eq_true, if_false, waits_withLock, List.mem_cons, Prod.mk.injEq] at h
      rcases h with ⟨rfl, rfl⟩ | h
      · exact .action rfl
      cases ha : db.action (db.execution t) with
      | transfer x => simp [ha, lockedPostTaskActions] at h
      | deployment d =>
        cases updates with
        | false => simp [ha, lockedPostTaskActions] at h
        | true =>
          obtain ⟨rfl, rfl⟩ : held = _ ∧ l = _ := by
            simpa [ha, lockedPostTaskActions, updateVolumesInfoForDeploymentParentTransfer,
              Action.lock] using h
          exact .volumes rfl ha
  | setTaskError t =>
    refine (Blocked.of_mem_parent h).elim id fun h => ?_
    obtain ⟨rfl, rfl⟩ : held = _ ∧ l = _ := by simpa using h
    exact .action rfl
  | cancelDeployment d e ha => exact .of_mem_action (by rw [ha]; rfl) rfl h
  | deleteTransferDisks x e ha | updateTransfer x e ha =>
    exact .of_mem_action (by rw [ha]; rfl) rfl h
  | deployTransferInstances x d wait minions hx =>
    subst hx
    refine (Blocked.of_mem_withLock h).elim id fun h => ?_
    obtain ⟨rfl, rfl⟩ : held = [.transfer (db.transfer d)] ∧ l = .deployment d := by
      cases wait <;> cases minions <;>
        simpa [deploymentSynchronized, lockedExecuteDeployment] using h
    exact .deployment rfl
  | confirmDeployerCompleted d minions =>
    rw [script, waits_append, List.mem_append] at h
    rcases h with h | h
    · exact (Blocked.of_mem_withLock h).resolve_right (by simp)
    rw [show heldAfter [] (withLock (Lock.deployment d) []) = [] by simp [heldAfter]] at h
    refine (Blocked.of_mem_withLock h).elim id fun h => ?_
    cases minions with
    | false => simp [lockedExecuteDeployment] at h
    | true =>
      obtain ⟨rfl, rfl⟩ : held = _ ∧ l = _ := by simpa [lockedExecuteDeployment] using h
      exact .deployment rfl
  | cancelTransferTasksExecution | executeTransferTasks | confirmTransferMinionsAllocation
  | reportTransferMinionsAllocationError | confirmDeploymentMinionsAllocation
  | reportDeploymentMinionsAllocationError =>
    exact (Blocked.of_mem_withLock h).resolve_right (by simp)

end Handler

section

variable {db : Records} {handlers : List (Handler db)} {s : State (Fin handlers.length) Lock}
  {S : Set (Fin handlers.length)} {i : Fin handlers.length}

def scripts (handlers : List (Handler db)) (i : Fin handlers.length) : List (Op Lock) :=
  (handlers.get i).script

lemma exists_holder (hr : Reachable (scripts handlers) s) (hd : Deadlocked s S) (hi : i ∈ S) :
    ∃ l, (handlers.get i).Blocked (s.held i) l ∧ ∃ j ∈ S, l ∈ s.held j := by
  obtain ⟨l, hl, hj⟩ := hd.waits hr hi
  exact ⟨l, Handler.blocked_of_mem_waits hl, hj⟩

variable (hr : Reachable (scripts handlers) s) (hd : Deadlocked s S)
include hr hd

lemma not_waiting_for_task (h : s.held i = [.execution (db.execution t)])
    (hj : ∃ j ∈ S, .task t ∈ s.held j) :
    False := by
  obtain ⟨j, hj, ht⟩ := hj
  obtain ⟨l, hb, -⟩ := exists_holder hr hd hj
  obtain rfl : i = j := hr.sound.exclusive i j _ (by simp [h]) (hb.execution_of_task ht)
  simp [h] at ht

variable (hno : ∀ i j, ¬(handlers.get i).clashes (handlers.get j))
include hno

lemma not_waiting_for_execution (he : e ∈ (handlers.get i).lockedExecution?)
    (h : s.held i = [(db.action e).lock]) (hj : ∃ j ∈ S, .execution e ∈ s.held j) : False := by
  obtain ⟨j, hj, hej⟩ := hj
  obtain ⟨l, hb, hk⟩ := exists_holder hr hd hj
  rcases hb.of_execution hej with ⟨t, rfl, hheld, rfl⟩ | ⟨t, ht, hte⟩ | hlock
  · exact not_waiting_for_task hr hd hheld hk
  · exact hno i j (.inl ⟨e, he, t, ht, hte⟩)
  · obtain rfl : i = j := hr.sound.exclusive i j _ (by simp [h]) hlock
    simp [h] at hej

lemma not_waiting_for_deployment (hd' : d ∈ (handlers.get i).lockedDeployment?)
    (hj : ∃ j ∈ S, .deployment d ∈ s.held j) : False := by
  obtain ⟨j, hj, hdj⟩ := hj
  obtain ⟨l, hb, hk⟩ := exists_holder hr hd hj
  rcases hb.of_deployment hdj with ⟨t, ht, hact, -⟩ | ⟨e, he, hheld, rfl⟩
  · exact hno i j (.inr ⟨d, hd', t, ht, hact⟩)
  · exact not_waiting_for_execution hr hd hno he hheld hk

lemma not_holding_action (hi : i ∈ S) (a : Action) : a.lock ∉ s.held i := by
  have htransfer : ∀ j ∈ S, ∀ x, .transfer x ∉ s.held j := by
    intro j hj x hx
    obtain ⟨l, hb, hk⟩ := exists_holder hr hd hj
    rcases hb.of_transfer hx with ⟨e, he, hheld, rfl⟩ | ⟨d, hd', rfl⟩
    · exact not_waiting_for_execution hr hd hno he hheld hk
    · exact not_waiting_for_deployment hr hd hno hd' hk
  intro ha
  cases a with
  | transfer x => exact htransfer i hi x ha
  | deployment d =>
    obtain ⟨l, hb, hk⟩ := exists_holder hr hd hi
    rcases hb.of_deployment ha with ⟨t, ht, hact, rfl⟩ | ⟨e, he, hheld, rfl⟩
    · obtain ⟨k, hk, hx⟩ := hk
      exact htransfer k hk _ hx
    · exact not_waiting_for_execution hr hd hno he hheld hk

/-- Handlers that do not clash never deadlock: nobody who waits holds anything. -/
lemma not_deadlocked : False := by
  have hheld : ∀ i ∈ S, s.held i = [] := by
    intro i hi
    obtain ⟨l, hb, hk⟩ := exists_holder hr hd hi
    have hact := not_holding_action hr hd hno hi
    generalize hheld : s.held i = held at hb hact
    cases hb with
    | first => rfl
    | task t => exact (not_waiting_for_task hr hd hheld hk).elim
    | action =>
      obtain ⟨k, hk, ha⟩ := hk
      exact absurd ha (not_holding_action hr hd hno hk _)
    | @volumes _ d => exact absurd (by simp [Action.lock]) (hact (.deployment d))
    | @execution e => exact absurd (by simp) (hact (db.action e))
    | @deployment d => exact absurd (by simp [Action.lock]) (hact (.transfer (db.transfer d)))
  obtain ⟨i, hi⟩ := hd.1
  obtain ⟨l, -, j, hj, hl⟩ := exists_holder hr hd hi
  simp [hheld j hj] at hl

end

section

variable {c : Handler db}

lemma Handler.script_of_lockedExecution (h : e ∈ c.lockedExecution?) :
    ∃ rest, c.script = [.acquire (db.action e).lock] ++ .acquire (.execution e) :: rest := by
  cases c <;> simp only [lockedExecution?, Option.mem_def, Option.some.injEq, reduceCtorEq] at h
  case cancelDeployment d e' ha => subst h; rw [ha]; exact ⟨_, rfl⟩
  case deleteTransferDisks x e' ha => subst h; rw [ha]; exact ⟨_, rfl⟩
  case updateTransfer x e' ha => subst h; rw [ha]; exact ⟨_, rfl⟩

lemma Handler.script_of_actionTask (h : t ∈ c.actionTask?) :
    ∃ rest, c.script = [.acquire (.execution (db.execution t)), .acquire (.task t)] ++
      .acquire (db.action (db.execution t)).lock :: rest := by
  cases c with
  | taskCompleted t' finalized updates =>
    cases finalized with
    | true => simp [actionTask?] at h
    | false =>
      obtain rfl : t' = t := by simpa [actionTask?] using h
      exact ⟨_, rfl⟩
  | setTaskError t' =>
    obtain rfl : t' = t := by simpa [actionTask?] using h
    exact ⟨_, rfl⟩
  | _ => simp [actionTask?] at h

lemma Handler.script_of_volumesTask (h : t ∈ c.volumesTask?)
    (hd : db.action (db.execution t) = .deployment d) :
    ∃ rest, c.script = [.acquire (.execution (db.execution t)), .acquire (.task t),
      .acquire (.deployment d)] ++ .acquire (.transfer (db.transfer d)) :: rest := by
  cases c with
  | taskCompleted t' finalized updates =>
    cases finalized <;> cases updates <;> simp only [volumesTask?, Option.mem_def, reduceCtorEq,
      Option.some.injEq] at h
    subst h
    simp only [script, hd]
    exact ⟨_, rfl⟩
  | _ => simp [volumesTask?] at h

lemma Handler.script_of_lockedDeployment (h : d ∈ c.lockedDeployment?) :
    ∃ before rest, c.script = before ++ .acquire (.deployment d) :: rest ∧
      Unhindered [] [] before ∧ heldAfter [] before = [.transfer (db.transfer d)] := by
  cases c with
  | deployTransferInstances x d' wait minions hx =>
    obtain rfl : d' = d := by simpa [lockedDeployment?] using h
    subst hx
    refine ⟨[.acquire (.transfer (db.transfer d'))], ?_⟩
    cases wait <;> cases minions <;> exact ⟨_, rfl, by simp [Unhindered], rfl⟩
  | confirmDeployerCompleted d' minions =>
    cases minions with
    | false => simp [lockedDeployment?] at h
    | true =>
      obtain rfl : d' = d := by simpa [lockedDeployment?] using h
      exact ⟨[.acquire (.deployment d'), .release (.deployment d'),
        .acquire (.transfer (db.transfer d'))], _, rfl, by simp [Unhindered], by simp [heldAfter]⟩
  | _ => simp [lockedDeployment?] at h

lemma exists_deadlock_of_clash (h : (handlers.get i).clashes (handlers.get j)) :
    ∃ s S, Reachable (scripts handlers) s ∧ Deadlocked s S := by
  have hij : i ≠ j := by
    rintro rfl
    rcases h with ⟨e, he, t, ht, -⟩ | ⟨d, hd, t, ht, -⟩
    · generalize handlers.get i = c at he ht
      cases c <;> simp [Handler.lockedExecution?, Handler.actionTask?] at he ht
    · generalize handlers.get i = c at hd ht
      cases c <;> simp [Handler.lockedDeployment?, Handler.volumesTask?] at hd ht
  rcases h with ⟨e, he, t, ht, rfl⟩ | ⟨d, hd, t, ht, hact⟩
  · obtain ⟨r, hr⟩ := Handler.script_of_lockedExecution he
    obtain ⟨r', hr'⟩ := Handler.script_of_actionTask ht
    obtain ⟨s, hs⟩ := exists_deadlock (scripts handlers) hij hr hr'
      (by simp [Unhindered]) (by simp [Unhindered, heldAfter]) (by simp [heldAfter])
      (by simp [heldAfter])
    exact ⟨s, _, hs⟩
  · obtain ⟨before, r, hr, hbefore, hheld⟩ := Handler.script_of_lockedDeployment hd
    obtain ⟨r', hr'⟩ := Handler.script_of_volumesTask ht hact
    obtain ⟨s, hs⟩ := exists_deadlock (scripts handlers) hij hr hr'
      hbefore (by simp [Unhindered, hheld]) (by simp [heldAfter]) (by simp [hheld])
    exact ⟨s, _, hs⟩

end

/-- Handlers that run at the same time are free of deadlocks, in every interleaving and
wherever they raise, exactly if no two of them clash: a handler that locks an execution under
its action with one that locks the action under the execution, or one that locks a deployment
under its transfer with one that locks the transfer under the deployment. -/
theorem deadlock_free_iff (db : Records) (handlers : List (Handler db)) :
    (∀ s S, Reachable (scripts handlers) s → ¬Deadlocked s S) ↔
      ∀ i j, ¬(handlers.get i).clashes (handlers.get j) := by
  constructor
  · intro h i j hclash
    obtain ⟨s, S, hr, hd⟩ := exists_deadlock_of_clash hclash
    exact h s S hr hd
  · exact fun hno s S hr hd => not_deadlocked hr hd hno

/-- A transfer and a deployment of it, each with one execution of one task. -/
def records : Records where
  execution t := if t = "deploy" then "deployment execution" else "transfer execution"
  action e := if e = "deployment execution" then .deployment "deployment" else .transfer "transfer"
  transfer _ := "transfer"

/-- The user cancels a deployment while one of its tasks is reported as completed: one has
the deployment and waits for the execution, the other the execution and waits for the
deployment. -/
theorem cancelled_deployment_deadlocks :
    ∃ s S, Reachable (scripts [.cancelDeployment "deployment" "deployment execution" rfl,
        (.taskCompleted "deploy" false false : Handler records)]) s ∧ Deadlocked s S := by
  obtain ⟨s, hs⟩ := @exists_deadlock _ _ _ _ 0 1
    (scripts [.cancelDeployment "deployment" "deployment execution" rfl,
      (.taskCompleted "deploy" false false : Handler records)])
    [.acquire (.deployment "deployment")]
    [.acquire (.execution "deployment execution"), .acquire (.task "deploy")] _ _
    (.execution "deployment execution") (.deployment "deployment") (by decide) rfl rfl
    (by simp [Unhindered]) (by simp [Unhindered, heldAfter]) (by simp [heldAfter])
    (by simp [heldAfter])
  exact ⟨s, _, hs⟩

end Coriolis.Conductor

import Coriolis.Conductor.World
import Coriolis.Library.Dependencies

/-!
# The sanity check of new executions

Every task class declares the entries of the info of its instance that it requires and the
ones it returns. `_check_execution_tasks_sanity` simulates an execution with these before it
is stored: round by round it takes all tasks whose parents were taken before, as if they
ran at the same time and the next round began when all of them are done. The rounds are the
levels of the graph of the tasks, and what passes is described by the levels alone
(`checkTasksSanity_iff_sane`).
-/

namespace Coriolis.Conductor

open Dependencies

/-- `SOURCE_MINION_TASK_INFO_FIELD_MAPPINGS`. -/
def sourceMinionTaskInfoFieldMappings : List (String × String) :=
  [("origin_minion_provider_properties", "source_resources"),
    ("origin_minion_connection_info", "source_resources_connection_info")]

/-- `TARGET_MINION_TASK_INFO_FIELD_MAPPINGS`. -/
def targetMinionTaskInfoFieldMappings : List (String × String) :=
  [("destination_minion_provider_properties", "target_resources"),
    ("destination_minion_backup_writer_connection_info", "target_resources_connection_info")]

/-- `OSMOPRHING_MINION_TASK_INFO_FIELD_MAPPINGS`. -/
def osmorphingMinionTaskInfoFieldMappings : List (String × String) :=
  [("osmorphing_minion_provider_properties", "os_morphing_resources"),
    ("osmorphing_minion_connection_info", "osmorphing_connection_info")]

/-- The required properties of the tasks that attach or detach the volumes of a minion. -/
def attachmentRequired (mappings : List (String × String)) (volumes : String) : List String :=
  mappings.map (·.1) ++ [volumes]

/-- The returned properties of the tasks that attach or detach the volumes of a minion. -/
def attachmentReturned (mappings : List (String × String)) (properties volumes : String) :
    List String :=
  mappings.map (·.2) ++ [properties, volumes]

def validationRequired (mappings : List (String × String)) (transferProperties properties : String) :
    List String :=
  (["export_info", transferProperties, properties] ++ mappings.map (·.1)).dedup

/-- The properties of the tasks that release a minion, which return what they require. -/
def releaseProperties (mappings : List (String × String)) : List String :=
  mappings.map (·.1) ++ mappings.map (·.2)

/-- `get_required_task_info_properties` of the class of a task type. -/
def TaskType.requiredProperties : TaskType → List String
  | validateTransferSourceInputs => ["source_environment"]
  | getInstanceInfo => ["source_environment"]
  | validateTransferDestinationInputs => ["export_info", "target_environment"]
  | validateSourceMinionPoolCompatibility =>
    validationRequired sourceMinionTaskInfoFieldMappings "source_environment"
      "origin_minion_provider_properties"
  | validateDestinationMinionPoolCompatibility =>
    validationRequired targetMinionTaskInfoFieldMappings "target_environment"
      "destination_minion_provider_properties"
  | deployTransferDisks => ["export_info", "volumes_info", "target_environment"]
  | deployTransferSourceResources => ["source_environment", "export_info"]
  | deployTransferTargetResources => ["export_info", "volumes_info", "target_environment"]
  | attachVolumesToSourceMinion | detachVolumesFromSourceMinion =>
    attachmentRequired sourceMinionTaskInfoFieldMappings "volumes_info"
  | attachVolumesToDestinationMinion | detachVolumesFromDestinationMinion =>
    attachmentRequired targetMinionTaskInfoFieldMappings "volumes_info"
  | shutdownInstance => ["source_environment"]
  | replicateDisks =>
    ["export_info", "volumes_info", "source_environment", "source_resources",
      "source_resources_connection_info", "target_resources_connection_info"]
  | releaseSourceMinion => releaseProperties sourceMinionTaskInfoFieldMappings
  | releaseDestinationMinion => releaseProperties targetMinionTaskInfoFieldMappings
  | deleteTransferSourceResources => ["source_environment", "source_resources"]
  | deleteTransferTargetResources => ["target_resources", "target_environment"]
  | deleteTransferSourceDiskSnapshots => ["volumes_info", "source_environment"]
  | deleteTransferDisks => ["volumes_info", "target_environment"]
  | updateSourceTransfer => ["volumes_info", "source_environment"]
  | updateDestinationTransfer => ["export_info", "volumes_info", "target_environment"]
  | validateDeploymentInputs => ["export_info", "target_environment"]
  | validateOsmorphingMinionPoolCompatibility =>
    validationRequired osmorphingMinionTaskInfoFieldMappings "target_environment"
      "osmorphing_minion_provider_properties"
  | createTransferDiskSnapshots => ["target_environment", "export_info", "volumes_info"]
  | deployInstanceResources =>
    ["export_info", "target_environment", "clone_disks", "volumes_info"]
  | attachVolumesToOsmorphingMinion | detachVolumesFromOsmorphingMinion =>
    attachmentRequired osmorphingMinionTaskInfoFieldMappings "instance_deployment_info"
  | collectOsmorphingInfo => ["target_environment", "instance_deployment_info"]
  | deployOsMorphingResources => ["target_environment", "instance_deployment_info"]
  | osMorphing => ["osmorphing_info", "osmorphing_connection_info", "user_scripts"]
  | deleteOsMorphingResources => ["target_environment", "os_morphing_resources"]
  | releaseOsmorphingMinion => releaseProperties osmorphingMinionTaskInfoFieldMappings
  | getOptimalFlavor => ["export_info", "target_environment"]
  | finalizeInstanceDeployment => ["target_environment", "instance_deployment_info"]
  | deleteTransferTargetDiskSnapshots => ["target_environment", "export_info", "volumes_info"]
  | cleanupFailedInstanceDeployment => ["target_environment", "instance_deployment_info"]
  | restoreTransferDiskSnapshots => ["target_environment", "export_info", "volumes_info"]

/-- `get_returned_task_info_properties` of the class of a task type. -/
def TaskType.returnedProperties : TaskType → List String
  | validateTransferSourceInputs | validateTransferDestinationInputs | shutdownInstance
  | validateDeploymentInputs | osMorphing => []
  | getInstanceInfo => ["export_info"]
  | validateSourceMinionPoolCompatibility => sourceMinionTaskInfoFieldMappings.map (·.2)
  | validateDestinationMinionPoolCompatibility => targetMinionTaskInfoFieldMappings.map (·.2)
  | deployTransferDisks | replicateDisks | deleteTransferSourceDiskSnapshots
  | deleteTransferDisks | createTransferDiskSnapshots | deleteTransferTargetDiskSnapshots
  | restoreTransferDiskSnapshots => ["volumes_info"]
  | deployTransferSourceResources | deleteTransferSourceResources =>
    ["source_resources", "source_resources_connection_info"]
  | deployTransferTargetResources =>
    ["volumes_info", "target_resources", "target_resources_connection_info"]
  | deleteTransferTargetResources => ["target_resources", "target_resources_connection_info"]
  | attachVolumesToSourceMinion | detachVolumesFromSourceMinion =>
    attachmentReturned sourceMinionTaskInfoFieldMappings "origin_minion_provider_properties"
      "volumes_info"
  | attachVolumesToDestinationMinion | detachVolumesFromDestinationMinion =>
    attachmentReturned targetMinionTaskInfoFieldMappings "destination_minion_provider_properties"
      "volumes_info"
  | releaseSourceMinion => releaseProperties sourceMinionTaskInfoFieldMappings
  | releaseDestinationMinion => releaseProperties targetMinionTaskInfoFieldMappings
  | updateSourceTransfer => ["volumes_info", "source_environment"]
  | updateDestinationTransfer => ["volumes_info", "target_environment"]
  | validateOsmorphingMinionPoolCompatibility => osmorphingMinionTaskInfoFieldMappings.map (·.2)
  | deployInstanceResources | getOptimalFlavor | cleanupFailedInstanceDeployment =>
    ["instance_deployment_info"]
  | attachVolumesToOsmorphingMinion | detachVolumesFromOsmorphingMinion =>
    attachmentReturned osmorphingMinionTaskInfoFieldMappings
      "osmorphing_minion_provider_properties" "instance_deployment_info"
  | collectOsmorphingInfo => ["osmorphing_info"]
  | deployOsMorphingResources =>
    ["os_morphing_resources", "osmorphing_info", "osmorphing_connection_info"]
  | deleteOsMorphingResources => ["os_morphing_resources", "osmorphing_connection_info"]
  | releaseOsmorphingMinion => releaseProperties osmorphingMinionTaskInfoFieldMappings
  | finalizeInstanceDeployment => ["transfer_result"]

/-- The exceptions of `_check_execution_tasks_sanity`, with what their messages name. -/
inductive SanityError where
  | taskParameters (inst : String) (id : TaskId) (taskType : TaskType) (missingParams : List String)
  | taskDependency (id : TaskId) (taskType : TaskType) (inst : String) (missingDeps : List TaskId)
  | invalidTaskState (status : TaskStatus) (id : TaskId) (taskType : TaskType)
  | executionDeadlock (inst : String) (processed left : List TaskId)
  | taskFieldsConflict (inst : String) (fields : List String)
  deriving DecidableEq, Repr

section

variable (required returned : Task → List String) (st : TaskId → TaskStatus)

def isQueued (processed tasksToProcess : List Task) (task : Task) : Except SanityError Bool :=
  if st task.id = .scheduled ∨ st task.id = .onErrorOnly then
    if task.dependsOn = [] then .ok true
    else
      let missingDeps := task.dependsOn.filter fun d =>
        !(tasksToProcess.any (·.id == d)) && !(processed.any (·.id == d))
      if missingDeps = [] then .ok (task.dependsOn.all fun d => processed.any (·.id == d))
      else .error (.taskDependency task.id task.taskType task.inst missingDeps)
  else .error (.invalidTaskState (st task.id) task.id task.taskType)

def gatherQueued (processed tasksToProcess : List Task) : List Task → Except SanityError (List Task)
  | [] => .ok []
  | task :: rest =>
    match isQueued st processed tasksToProcess task with
    | .error err => .error err
    | .ok queued =>
      match gatherQueued processed tasksToProcess rest with
      | .error err => .error err
      | .ok queuedTasks => .ok (if queued then task :: queuedTasks else queuedTasks)

/-- The fields the queued tasks return, each of which must have what it requires. -/
def modifiedFields (taskInfoKeys : List String) : List Task → Except SanityError (List String)
  | [] => .ok []
  | task :: rest =>
    let missingParams := (required task).filter (!taskInfoKeys.contains ·)
    if missingParams = [] then
      match modifiedFields taskInfoKeys rest with
      | .error err => .error err
      | .ok fields => .ok (returned task ++ fields)
    else .error (.taskParameters task.inst task.id task.taskType missingParams)

/-- The rounds for one instance. A round takes at least one task, so the number of tasks is
enough of them. -/
def checkInstanceTasks (inst : String) :
    Nat → List String → List Task → List Task → Except SanityError Unit
  | 0, _, _, _ => .ok ()
  | rounds + 1, taskInfoKeys, processed, tasksToProcess =>
    if tasksToProcess = [] then .ok ()
    else
      match gatherQueued st processed tasksToProcess tasksToProcess with
      | .error err => .error err
      | .ok [] =>
        .error (.executionDeadlock inst (processed.map (·.id)) (tasksToProcess.map (·.id)))
      | .ok queuedTasks =>
        match modifiedFields required returned taskInfoKeys queuedTasks with
        | .error err => .error err
        | .ok fields =>
          let conflictingFields := fields.filter fun f => 1 < fields.count f
          if conflictingFields = [] then
            checkInstanceTasks inst rounds (taskInfoKeys ++ fields) (processed ++ queuedTasks)
              (tasksToProcess.filter fun t => !(queuedTasks.any (·.id == t.id)))
          else .error (.taskFieldsConflict inst conflictingFields)

variable (e : Execution) (initialTaskInfo : String → Option TaskInfo)

def TaskInfo.keys (info : Option TaskInfo) : List String := (info.getD []).map (·.1)

/-- The loop of `_check_execution_tasks_sanity` over the instances. -/
def checkInstances : List String → Except SanityError Unit
  | [] => .ok ()
  | inst :: rest =>
    let instanceTasks := e.tasks.filter (·.inst == inst)
    match checkInstanceTasks required returned st inst instanceTasks.length
      (TaskInfo.keys (initialTaskInfo inst)) [] instanceTasks with
    | .error err => .error err
    | .ok _ => checkInstances rest

/-- `_check_execution_tasks_sanity`, for any required and returned properties. -/
def checkTasksSanity : Except SanityError Unit :=
  checkInstances required returned st e initialTaskInfo (e.tasks.map (·.inst)).dedup

/-- `_check_execution_tasks_sanity`. -/
def checkExecutionTasksSanity : Except SanityError Unit :=
  checkTasksSanity (·.taskType.requiredProperties) (·.taskType.returnedProperties) st e
    initialTaskInfo

end

section

variable (required returned : Task → List String) (st : TaskId → TaskStatus)

def checkRound (inst : String) (taskInfoKeys : List String) (processed tasksToProcess : List Task) :
    Except SanityError (List Task) :=
  match gatherQueued st processed tasksToProcess tasksToProcess with
  | .error err => .error err
  | .ok [] =>
    .error (.executionDeadlock inst (processed.map (·.id)) (tasksToProcess.map (·.id)))
  | .ok queuedTasks =>
    match modifiedFields required returned taskInfoKeys queuedTasks with
    | .error err => .error err
    | .ok fields =>
      let conflictingFields := fields.filter fun f => 1 < fields.count f
      if conflictingFields = [] then .ok queuedTasks
      else .error (.taskFieldsConflict inst conflictingFields)

/-- The `while` loop for an instance ends in a result. -/
inductive Ends (inst : String) :
    List String → List Task → List Task → Except SanityError Unit → Prop
  | done {keys : List String} {processed : List Task} : Ends inst keys processed [] (.ok ())
  | failed {keys : List String} {processed tasks : List Task} {err : SanityError}
      (hne : tasks ≠ []) (h : checkRound required returned st inst keys processed tasks = .error err) :
      Ends inst keys processed tasks (.error err)
  | round {keys : List String} {processed tasks queued : List Task} {r : Except SanityError Unit}
      (hne : tasks ≠ []) (h : checkRound required returned st inst keys processed tasks = .ok queued)
      (hr : Ends inst (keys ++ queued.flatMap returned) (processed ++ queued)
        (tasks.filter fun t => !(queued.any (·.id == t.id))) r) :
      Ends inst keys processed tasks r

def Task.isReady (processed : List Task) (t : Task) : Bool :=
  t.dependsOn.all fun d => processed.any (·.id == d)

variable {required returned st} {keys fields : List String} {t : Task}

lemma Task.isReady_iff :
    t.isReady processed = true ↔ ∀ d ∈ t.dependsOn, ∃ p ∈ processed, p.id = d := by
  simp [isReady]

lemma isQueued_eq_ok : isQueued st processed tasks t = .ok b ↔
    (st t.id = .scheduled ∨ st t.id = .onErrorOnly) ∧
      (∀ d ∈ t.dependsOn, (∃ p ∈ tasks, p.id = d) ∨ ∃ p ∈ processed, p.id = d) ∧
      t.isReady processed = b := by
  unfold isQueued
  split
  · rename_i hst
    split
    · rename_i hnil
      simp [hst, hnil, Task.isReady]
    · simp only [List.filter_eq_nil_iff, Bool.and_eq_true, Bool.not_eq_true', not_and_or,
        Bool.not_eq_false, List.any_eq_true, beq_iff_eq]
      split
      · rename_i hdeps
        simpa [hst, Task.isReady] using fun _ => hdeps
      · rename_i hdeps
        simp [hst, hdeps]
  · rename_i hst
    simp [hst]

lemma gatherQueued_eq_ok : gatherQueued st processed tasks l = .ok queued ↔
    (∀ t ∈ l, (st t.id = .scheduled ∨ st t.id = .onErrorOnly) ∧
      ∀ d ∈ t.dependsOn, (∃ p ∈ tasks, p.id = d) ∨ ∃ p ∈ processed, p.id = d) ∧
      l.filter (·.isReady processed) = queued := by
  induction l generalizing queued with
  | nil => simp [gatherQueued]
  | cons a l ih =>
    simp only [gatherQueued, List.forall_mem_cons, List.filter_cons]
    cases hq : isQueued st processed tasks a with
    | error err =>
      have hne : ∀ b, isQueued st processed tasks a ≠ .ok b := by simp [hq]
      simp only [reduceCtorEq, false_iff]
      exact fun h => hne _ (isQueued_eq_ok.mpr ⟨h.1.1.1, h.1.1.2, rfl⟩)
    | ok b =>
      obtain ⟨hst, hdeps, rfl⟩ := isQueued_eq_ok.mp hq
      cases hrest : gatherQueued st processed tasks l with
      | error err =>
        simp only [reduceCtorEq, false_iff]
        exact fun h => absurd (ih.mpr ⟨h.1.2, rfl⟩) (by simp [hrest])
      | ok rest =>
        obtain ⟨hall, rfl⟩ := ih.mp hrest
        simpa only [Except.ok.injEq, iff_and_self] using fun _ => ⟨⟨hst, hdeps⟩, hall⟩

lemma modifiedFields_eq_ok : modifiedFields required returned keys l = .ok fields ↔
    (∀ t ∈ l, ∀ f ∈ required t, f ∈ keys) ∧ l.flatMap returned = fields := by
  induction l generalizing fields with
  | nil => simp [modifiedFields]
  | cons a l ih =>
    have hmissing : (required a).filter (!keys.contains ·) = [] ↔ ∀ f ∈ required a, f ∈ keys := by
      simp
    simp only [modifiedFields, hmissing, List.forall_mem_cons, List.flatMap_cons]
    split
    · rename_i hreq
      cases hrest : modifiedFields required returned keys l with
      | error err =>
        simp only [reduceCtorEq, false_iff]
        exact fun h => absurd (ih.mpr ⟨h.1.2, rfl⟩) (by simp [hrest])
      | ok rest =>
        obtain ⟨hall, rfl⟩ := ih.mp hrest
        simpa only [Except.ok.injEq, iff_and_self] using fun _ => ⟨hreq, hall⟩
    · rename_i hreq
      simp [hreq]

lemma conflicting_eq_nil : fields.filter (fun f => 1 < fields.count f) = [] ↔ fields.Nodup := by
  simp only [List.filter_eq_nil_iff, decide_eq_true_eq, Nat.not_lt, List.nodup_iff_count_le_one]
  refine ⟨fun h f => ?_, fun h f _ => h f⟩
  by_cases hf : f ∈ fields
  · exact h f hf
  · simp [List.count_eq_zero_of_not_mem hf]

lemma checkRound_eq_ok : checkRound required returned st inst keys processed tasks = .ok queued ↔
    (∀ t ∈ tasks, (st t.id = .scheduled ∨ st t.id = .onErrorOnly) ∧
      ∀ d ∈ t.dependsOn, (∃ p ∈ tasks, p.id = d) ∨ ∃ p ∈ processed, p.id = d) ∧
      tasks.filter (·.isReady processed) = queued ∧ queued ≠ [] ∧
      (∀ t ∈ queued, ∀ f ∈ required t, f ∈ keys) ∧ (queued.flatMap returned).Nodup := by
  rw [← and_assoc, ← gatherQueued_eq_ok]
  unfold checkRound
  split
  · simp [*]
  · rename_i hg
    simp only [hg, reduceCtorEq, Except.ok.injEq, false_iff]
    exact fun h => h.2.1 h.1.symm
  · rename_i queued' hne hg
    simp only [hg, Except.ok.injEq]
    split
    · rename_i hm
      simp only [reduceCtorEq, false_iff]
      rintro ⟨rfl, -, hreq, -⟩
      exact nomatch hm.symm.trans (modifiedFields_eq_ok.mpr ⟨hreq, rfl⟩)
    · rename_i hm
      obtain ⟨hreq, rfl⟩ := modifiedFields_eq_ok.mp hm
      simp only [conflicting_eq_nil]
      split
      · rename_i hnd
        simp only [Except.ok.injEq, iff_self_and]
        rintro rfl
        exact ⟨hne, hreq, hnd⟩
      · rename_i hnd
        simp only [reduceCtorEq, false_iff]
        rintro ⟨rfl, -, -, h⟩
        exact hnd h

lemma checkInstanceTasks_succ (hne : tasks ≠ []) :
    checkInstanceTasks required returned st inst (n + 1) keys processed tasks =
      match checkRound required returned st inst keys processed tasks with
      | .error err => .error err
      | .ok queued => checkInstanceTasks required returned st inst n
          (keys ++ queued.flatMap returned) (processed ++ queued)
          (tasks.filter fun t => !(queued.any (·.id == t.id))) := by
  simp only [checkInstanceTasks, hne, if_false, checkRound]
  split
  · rfl
  · rfl
  · split
    · rfl
    · rename_i hm
      obtain ⟨-, rfl⟩ := modifiedFields_eq_ok.mp hm
      split <;> rfl

lemma length_remaining_lt
    (h : checkRound required returned st inst keys processed tasks = .ok queued) :
    (tasks.filter fun t => !(queued.any (·.id == t.id))).length < tasks.length := by
  obtain ⟨-, rfl, hne, -⟩ := checkRound_eq_ok.mp h
  obtain ⟨q, hq⟩ := List.exists_mem_of_ne_nil _ hne
  refine List.length_filter_lt_length_iff_exists.mpr ⟨q, (List.mem_filter.mp hq).1, ?_⟩
  rw [List.any_eq_true.mpr ⟨q, hq, beq_self_eq_true q.id⟩]
  simp

lemma ends_checkInstanceTasks (hlen : tasks.length ≤ n) :
    Ends required returned st inst keys processed tasks
      (checkInstanceTasks required returned st inst n keys processed tasks) := by
  induction n generalizing keys processed tasks with
  | zero =>
    obtain rfl := List.eq_nil_of_length_eq_zero (Nat.le_zero.mp hlen)
    exact .done
  | succ n ih =>
    by_cases hne : tasks = []
    · subst hne
      simpa [checkInstanceTasks] using Ends.done
    rw [checkInstanceTasks_succ hne]
    split
    · exact .failed hne ‹_›
    · rename_i h
      have hlt := length_remaining_lt h
      exact .round hne h (ih (by omega))

end

section

variable {required returned : Task → List String} {keys : List String} {processed tasks : List Task}
  {rank : Task → ℕ} {t : Task}

/-- The rank of a task is the round that takes it. A task that still has to wait for a parent
is taken right after the last one, what it requires was there from the beginning or is
returned below it, and tasks of one round do not return the same. -/
structure Layered (required returned : Task → List String) (keys : List String)
    (processed tasks : List Task) (rank : Task → ℕ) : Prop where
  parent : ∀ t ∈ tasks, ∀ d ∈ t.dependsOn, (∃ p ∈ processed, p.id = d) ∨
    ∃ p ∈ tasks, p.id = d ∧ rank p < rank t
  tight : ∀ t ∈ tasks, rank t ≠ 0 → ∃ p ∈ tasks, p.id ∈ t.dependsOn ∧ rank p + 1 = rank t
  required : ∀ t ∈ tasks, ∀ f ∈ required t, f ∈ keys ∨
    ∃ u ∈ tasks, rank u < rank t ∧ f ∈ returned u
  disjoint : ∀ t ∈ tasks, ∀ u ∈ tasks, t.id ≠ u.id → rank t = rank u →
    (returned t).Disjoint (returned u)

namespace Layered

lemma nil : Layered required returned keys processed [] rank := by
  constructor <;> simp

section

variable (h : Layered required returned keys processed tasks rank)

include h

lemma congr (hmem : ∀ t, t ∈ tasks ↔ t ∈ tasks') :
    Layered required returned keys processed tasks' rank where
  parent := by simpa only [hmem] using h.parent
  tight := by simpa only [hmem] using h.tight
  required := by simpa only [hmem] using h.required
  disjoint := by simpa only [hmem] using h.disjoint

lemma isReady_iff (hnew : ∀ t ∈ tasks, ∀ p ∈ processed, p.id ≠ t.id) (ht : t ∈ tasks) :
    t.isReady processed = true ↔ rank t = 0 := by
  rw [Task.isReady_iff]
  constructor
  · intro hready
    by_contra hne
    obtain ⟨p, hp, hd, -⟩ := h.tight t ht hne
    obtain ⟨q, hq, hid⟩ := hready _ hd
    exact hnew p hp q hq hid
  · intro hzero d hd
    refine (h.parent t ht d hd).resolve_right ?_
    rintro ⟨p, -, -, hlt⟩
    omega

lemma exists_rank_zero (ht : t ∈ tasks) : ∃ u ∈ tasks, rank u = 0 := by
  induction hn : rank t generalizing t with
  | zero => exact ⟨t, ht, hn⟩
  | succ n ih =>
    obtain ⟨p, hp, -, hrank⟩ := h.tight t ht (by omega)
    exact ih hp (by omega)

lemma later (hready : ∀ t ∈ tasks, t.isReady processed = true ↔ rank t = 0) :
    Layered required returned (keys ++ (tasks.filter (·.isReady processed)).flatMap returned)
      (processed ++ tasks.filter (·.isReady processed)) (tasks.filter (!·.isReady processed))
      (rank · - 1) := by
  have hlater : ∀ {t}, t ∈ tasks.filter (!·.isReady processed) ↔ t ∈ tasks ∧ rank t ≠ 0 := by
    intro t
    rw [List.mem_filter, Bool.not_eq_true', ← Bool.not_eq_true]
    exact and_congr_right fun ht => not_congr (hready t ht)
  have hnow : ∀ {t}, t ∈ tasks.filter (·.isReady processed) ↔ t ∈ tasks ∧ rank t = 0 := by
    intro t
    rw [List.mem_filter]
    exact and_congr_right (hready t)
  constructor
  · intro t ht d hd
    obtain ⟨ht, hne⟩ := hlater.mp ht
    rcases h.parent t ht d hd with ⟨p, hp, hid⟩ | ⟨p, hp, hid, hlt⟩
    · exact .inl ⟨p, List.mem_append_left _ hp, hid⟩
    by_cases hzero : rank p = 0
    · exact .inl ⟨p, List.mem_append_right _ (hnow.mpr ⟨hp, hzero⟩), hid⟩
    · exact .inr ⟨p, hlater.mpr ⟨hp, hzero⟩, hid, by omega⟩
  · intro t ht hpos
    obtain ⟨p, hp, hd, hrank⟩ := h.tight t (hlater.mp ht).1 (by omega)
    exact ⟨p, hlater.mpr ⟨hp, by omega⟩, hd, by omega⟩
  · intro t ht f hf
    obtain ⟨ht, hne⟩ := hlater.mp ht
    rcases h.required t ht f hf with hk | ⟨u, hu, hlt, hfu⟩
    · exact .inl (List.mem_append_left _ hk)
    by_cases hzero : rank u = 0
    · exact .inl (List.mem_append_right _ (List.mem_flatMap.mpr ⟨u, hnow.mpr ⟨hu, hzero⟩, hfu⟩))
    · exact .inr ⟨u, hlater.mpr ⟨hu, hzero⟩, by omega, hfu⟩
  · intro t ht u hu hid hrank
    obtain ⟨ht, hpos⟩ := hlater.mp ht
    obtain ⟨hu, hpos'⟩ := hlater.mp hu
    exact h.disjoint t ht u hu hid (by omega)

end

lemma below_later (hreq : ∀ t ∈ tasks.filter (·.isReady processed), ∀ f ∈ required t, f ∈ keys)
    (hnd : ((tasks.filter (·.isReady processed)).flatMap returned).Nodup)
    (h : Layered required returned (keys ++ (tasks.filter (·.isReady processed)).flatMap returned)
      (processed ++ tasks.filter (·.isReady processed)) (tasks.filter (!·.isReady processed)) rank) :
    Layered required returned keys processed tasks
      (fun t => if t.isReady processed then 0 else rank t + 1) := by
  have hlater : ∀ {t}, t ∈ tasks → t.isReady processed = false →
      t ∈ tasks.filter (!·.isReady processed) := fun ht hr => List.mem_filter.mpr ⟨ht, by simp [hr]⟩
  have hof : ∀ {t}, t ∈ tasks.filter (!·.isReady processed) →
      t ∈ tasks ∧ t.isReady processed = false := fun ht => by simpa using ht
  have hnow : ∀ {t}, t ∈ tasks.filter (·.isReady processed) →
      t ∈ tasks ∧ t.isReady processed = true := fun ht => by simpa using ht
  constructor
  · intro t ht d hd
    cases hr : t.isReady processed with
    | true => exact .inl (Task.isReady_iff.mp hr d hd)
    | false =>
      rcases h.parent t (hlater ht hr) d hd with ⟨p, hp, hid⟩ | ⟨p, hp, hid, hlt⟩
      · rcases List.mem_append.mp hp with hp | hp
        · exact .inl ⟨p, hp, hid⟩
        · exact .inr ⟨p, (hnow hp).1, hid, by simp [(hnow hp).2]⟩
      · exact .inr ⟨p, (hof hp).1, hid, by simpa [hof hp, hr] using hlt⟩
  · intro t ht hpos
    cases hr : t.isReady processed with
    | true => simp [hr] at hpos
    | false =>
      by_cases hzero : rank t = 0
      · -- the parent the task waits for is in this round
        obtain ⟨d, hd, hnot⟩ : ∃ d ∈ t.dependsOn, ∀ p ∈ processed, p.id ≠ d := by
          by_contra hall
          push Not at hall
          exact absurd (Task.isReady_iff.mpr hall) (by simp [hr])
        rcases h.parent t (hlater ht hr) d hd with ⟨p, hp, rfl⟩ | ⟨p, -, -, hlt⟩
        · have hp := (List.mem_append.mp hp).resolve_left fun hp => hnot p hp rfl
          exact ⟨p, (hnow hp).1, hd, by simp [(hnow hp).2, hzero]⟩
        · omega
      · obtain ⟨p, hp, hd, hrank⟩ := h.tight t (hlater ht hr) hzero
        exact ⟨p, (hof hp).1, hd, by simpa [hof hp, hr] using hrank⟩
  · intro t ht f hf
    cases hr : t.isReady processed with
    | true => exact .inl (hreq t (List.mem_filter.mpr ⟨ht, hr⟩) f hf)
    | false =>
      rcases h.required t (hlater ht hr) f hf with hk | ⟨u, hu, hlt, hfu⟩
      · rcases List.mem_append.mp hk with hk | hk
        · exact .inl hk
        · obtain ⟨u, hu, hfu⟩ := List.mem_flatMap.mp hk
          exact .inr ⟨u, (hnow hu).1, by simp [(hnow hu).2], hfu⟩
      · exact .inr ⟨u, (hof hu).1, by simpa [hof hu, hr] using hlt, hfu⟩
  · intro t ht u hu hid hrank
    cases hr : t.isReady processed <;> cases hr' : u.isReady processed <;>
      simp only [hr, hr', Bool.false_eq_true, if_false, if_true, Nat.add_right_cancel_iff,
        Nat.succ_ne_zero, Nat.zero_ne_add_one] at hrank
    · exact h.disjoint t (hlater ht hr) u (hlater hu hr') hid hrank
    · have : Std.Symm (Function.onFun List.Disjoint returned) := ⟨fun _ _ h => h.symm⟩
      exact (List.nodup_flatMap.mp hnd).2.forall (List.mem_filter.mpr ⟨ht, hr⟩)
        (List.mem_filter.mpr ⟨hu, hr'⟩) (fun h => hid (by rw [h]))

end Layered

/-- What a round leaves are the tasks that were not ready. -/
lemma remaining_eq (hids : (tasks.map (·.id)).Nodup) :
    (tasks.filter fun t => !((tasks.filter (·.isReady processed)).any (·.id == t.id))) =
      tasks.filter (!·.isReady processed) := by
  refine List.filter_congr fun t ht => congrArg not (Bool.eq_iff_iff.mpr ?_)
  simp only [List.any_filter, List.any_eq_true, Bool.and_eq_true, beq_iff_eq]
  refine ⟨?_, fun hr => ⟨t, ht, hr, rfl⟩⟩
  rintro ⟨q, hq, hr, hid⟩
  exact List.inj_on_of_nodup_map hids hq ht hid ▸ hr

lemma remaining_new (hids : (tasks.map (·.id)).Nodup)
    (hnew : ∀ t ∈ tasks, ∀ p ∈ processed, p.id ≠ t.id) :
    ∀ t ∈ tasks.filter (!·.isReady processed),
      ∀ p ∈ processed ++ tasks.filter (·.isReady processed), p.id ≠ t.id := by
  intro t ht p hp hid
  obtain ⟨ht, hr⟩ := List.mem_filter.mp ht
  rcases List.mem_append.mp hp with hp | hp
  · exact hnew t ht p hp hid
  · obtain ⟨hp, hr'⟩ := List.mem_filter.mp hp
    obtain rfl := List.inj_on_of_nodup_map hids hp ht hid
    simp [hr'] at hr

/-- A round takes the tasks of rank 0. -/
lemma Layered.checkRound_eq (h : Layered required returned keys processed tasks rank)
    (hready : ∀ t ∈ tasks, t.isReady processed = true ↔ rank t = 0)
    (hids : (tasks.map (·.id)).Nodup) (hne : tasks ≠ [])
    (hret : ∀ t ∈ tasks, (st t.id = .scheduled ∨ st t.id = .onErrorOnly) ∧ (returned t).Nodup) :
    checkRound required returned st inst keys processed tasks =
      .ok (tasks.filter (·.isReady processed)) := by
  have hzero : ∀ {t}, t ∈ tasks.filter (·.isReady processed) → t ∈ tasks ∧ rank t = 0 := by
    intro t ht
    obtain ⟨ht, hr⟩ := List.mem_filter.mp ht
    exact ⟨ht, (hready t ht).mp hr⟩
  refine checkRound_eq_ok.mpr ⟨fun t ht => ⟨(hret t ht).1, fun d hd => ?_⟩, rfl, ?_, ?_, ?_⟩
  · rcases h.parent t ht d hd with hp | ⟨p, hp, hid, -⟩
    · exact .inr hp
    · exact .inl ⟨p, hp, hid⟩
  · obtain ⟨t, ht⟩ := List.exists_mem_of_ne_nil _ hne
    obtain ⟨u, hu, hrank⟩ := h.exists_rank_zero ht
    exact List.ne_nil_of_mem (List.mem_filter.mpr ⟨hu, (hready u hu).mpr hrank⟩)
  · intro t ht f hf
    obtain ⟨ht, hrank⟩ := hzero ht
    refine (h.required t ht f hf).resolve_right ?_
    rintro ⟨u, -, hlt, -⟩
    omega
  · refine List.nodup_flatMap.mpr ⟨fun t ht => (hret t (hzero ht).1).2, ?_⟩
    refine (List.pairwise_map.mp (hids.sublist (List.filter_sublist.map _))).imp_of_mem ?_
    intro t u ht hu hid
    exact h.disjoint t (hzero ht).1 u (hzero hu).1 hid ((hzero ht).2.trans (hzero hu).2.symm)

lemma checkInstanceTasks_iff (hlen : tasks.length ≤ n) (hids : (tasks.map (·.id)).Nodup)
    (hnew : ∀ t ∈ tasks, ∀ p ∈ processed, p.id ≠ t.id) :
    checkInstanceTasks required returned st inst n keys processed tasks = .ok () ↔
      (∀ t ∈ tasks, (st t.id = .scheduled ∨ st t.id = .onErrorOnly) ∧ (returned t).Nodup) ∧
        ∃ rank, Layered required returned keys processed tasks rank := by
  induction n generalizing keys processed tasks with
  | zero =>
    obtain rfl := List.eq_nil_of_length_eq_zero (Nat.le_zero.mp hlen)
    exact iff_of_true rfl ⟨by simp, fun _ => 0, .nil⟩
  | succ n ih =>
    by_cases hne : tasks = []
    · subst hne
      exact iff_of_true (by simp [checkInstanceTasks]) ⟨by simp, fun _ => 0, .nil⟩
    have hids' : ((tasks.filter (!·.isReady processed)).map (·.id)).Nodup :=
      (List.filter_sublist.map _).nodup hids
    rw [checkInstanceTasks_succ hne]
    constructor
    · intro h
      split at h
      · simp at h
      rename_i queued hround
      have hlt := length_remaining_lt hround
      obtain ⟨hall, rfl, -, hreq, hnd⟩ := checkRound_eq_ok.mp hround
      rw [remaining_eq hids] at h hlt
      obtain ⟨hret, rank, hrank⟩ := (ih (by omega) hids' (remaining_new hids hnew)).mp h
      refine ⟨fun t ht => ⟨(hall t ht).1, ?_⟩, _, hrank.below_later hreq hnd⟩
      cases hr : t.isReady processed with
      | true => exact (List.nodup_flatMap.mp hnd).1 t (List.mem_filter.mpr ⟨ht, hr⟩)
      | false => exact (hret t (List.mem_filter.mpr ⟨ht, by simp [hr]⟩)).2
    · rintro ⟨hret, rank, h⟩
      have hready : ∀ t ∈ tasks, t.isReady processed = true ↔ rank t = 0 := fun t =>
        h.isReady_iff hnew
      have hround : checkRound required returned st inst keys processed tasks = _ :=
        h.checkRound_eq hready hids hne hret
      have hlt := length_remaining_lt hround
      rw [hround]
      simp only
      rw [remaining_eq hids] at hlt ⊢
      exact (ih (by omega) hids' (remaining_new hids hnew)).mpr
        ⟨fun t ht => hret t (List.mem_filter.mp ht).1, _, h.later hready⟩

end

section

variable {required returned : Task → List String} {st : TaskId → TaskStatus} {keys l : List String}
  {tasks : List Task} {t : Task} {e : Execution} {info : String → Option TaskInfo}

def valueOf {β : Type} (tasks : List Task) (f : Task → β) (default : β) (id : TaskId) : β :=
  ((tasks.find? (·.id == id)).map f).getD default

lemma valueOf_of_mem {default : β} (hids : (tasks.map (·.id)).Nodup) (ht : t ∈ tasks)
    : valueOf tasks f default t.id = f t := by
  obtain ⟨s, hs⟩ := Option.isSome_iff_exists.mp
    (List.find?_isSome.mpr ⟨t, ht, beq_self_eq_true t.id⟩ :
      (tasks.find? (·.id == t.id)).isSome = true)
  have hid : s.id = t.id := by simpa using List.find?_some hs
  obtain rfl := List.inj_on_of_nodup_map hids (List.mem_of_find?_eq_some hs) ht hid
  simp [valueOf, hs]

def parentsIn (tasks : List Task) : TaskId → List TaskId := valueOf tasks (·.dependsOn) []

/-- The tasks of an instance refer to one another without cycles, what a task requires is there
from the beginning or returned at a lower level, and tasks of one level return different fields. -/
structure Sane (required returned : Task → List String) (keys : List String) (tasks : List Task) :
    Prop where
  closed : ∀ t ∈ tasks, ∀ d ∈ t.dependsOn, ∃ p ∈ tasks, p.id = d
  acyclic : ∀ t ∈ tasks, ¬ Below (parentsIn tasks) t.id t.id
  required : ∀ t ∈ tasks, ∀ f ∈ required t, f ∈ keys ∨ ∃ u ∈ tasks, f ∈ returned u ∧
    ∃ n m, Level (parentsIn tasks) u.id n ∧ Level (parentsIn tasks) t.id m ∧ n < m
  disjoint : ∀ t ∈ tasks, ∀ u ∈ tasks, t.id ≠ u.id → ∀ n, Level (parentsIn tasks) t.id n →
    Level (parentsIn tasks) u.id n → (returned t).Disjoint (returned u)

lemma sane_iff_layered (hids : (tasks.map (·.id)).Nodup) :
    Sane required returned keys tasks ↔ ∃ rank, Layered required returned keys [] tasks rank := by
  have hparents : ∀ {t}, t ∈ tasks → parentsIn tasks t.id = t.dependsOn := valueOf_of_mem hids
  constructor
  · intro h
    have hclosed : ∀ a ∈ (·.id) '' {t | t ∈ tasks}, ∀ d ∈ parentsIn tasks a,
        d ∈ (·.id) '' {t | t ∈ tasks} := by
      rintro _ ⟨t, ht, rfl⟩ d hd
      obtain ⟨p, hp, rfl⟩ := h.closed t ht d (hparents ht ▸ hd)
      exact ⟨p, hp, rfl⟩
    obtain ⟨rank, hrank⟩ := exists_levels ((List.finite_toSet tasks).image _) hclosed
      (by rintro _ ⟨t, ht, rfl⟩; exact h.acyclic t ht)
    have hlevel : ∀ t ∈ tasks, Level (parentsIn tasks) t.id (rank t.id) := fun t ht =>
      hrank _ ⟨t, ht, rfl⟩
    refine ⟨fun t => rank t.id, fun t ht d hd => .inr ?_, fun t ht hne => ?_, fun t ht f hf => ?_,
      fun t ht u hu hid heq => h.disjoint t ht u hu hid _ (hlevel t ht) (heq ▸ hlevel u hu)⟩
    · obtain ⟨p, hp, rfl⟩ := h.closed t ht d hd
      exact ⟨p, hp, rfl, (hlevel t ht).lt (hparents ht ▸ hd) (hlevel p hp)⟩
    · obtain ⟨d, hd, heq⟩ := (hlevel t ht).tight
        (fun d hd => hrank d (hclosed _ ⟨t, ht, rfl⟩ d hd)) hne
      rw [hparents ht] at hd
      obtain ⟨p, hp, rfl⟩ := h.closed t ht d hd
      exact ⟨p, hp, hd, heq⟩
    · refine (h.required t ht f hf).imp_right ?_
      rintro ⟨u, hu, hfu, n, m, hn, hm, hlt⟩
      rw [hn.unique (hlevel u hu), hm.unique (hlevel t ht)] at hlt
      exact ⟨u, hu, hlt, hfu⟩
  · rintro ⟨rank, h⟩
    have hparent : ∀ t ∈ tasks, ∀ d ∈ t.dependsOn, ∃ p ∈ tasks, p.id = d ∧ rank p < rank t :=
      fun t ht d hd => (h.parent t ht d hd).resolve_left (by simp)
    have hval : ∀ {t}, t ∈ tasks → valueOf tasks rank 0 t.id = rank t := valueOf_of_mem hids
    have hclosed : ∀ a ∈ (·.id) '' {t | t ∈ tasks}, ∀ d ∈ parentsIn tasks a,
        d ∈ (·.id) '' {t | t ∈ tasks} ∧ valueOf tasks rank 0 d < valueOf tasks rank 0 a := by
      rintro _ ⟨t, ht, rfl⟩ d hd
      obtain ⟨p, hp, rfl, hlt⟩ := hparent t ht d (hparents ht ▸ hd)
      exact ⟨⟨p, hp, rfl⟩, by rwa [hval hp, hval ht]⟩
    have hlevel : ∀ t ∈ tasks, Level (parentsIn tasks) t.id (rank t) := by
      intro t ht
      rw [← hval ht]
      refine level_of_rank (fun a ha d hd => (hclosed a ha d hd).1)
        (fun a ha d hd => (hclosed a ha d hd).2) ?_ ⟨t, ht, rfl⟩
      rintro _ ⟨t, ht, rfl⟩ hne
      rw [hval ht] at hne ⊢
      obtain ⟨p, hp, hd, heq⟩ := h.tight t ht hne
      exact ⟨p.id, (hparents ht).symm ▸ hd, by rw [hval hp, heq]⟩
    refine ⟨fun t ht d hd => ?_, fun t ht hb => ?_, fun t ht f hf => ?_,
      fun t ht u hu hid n hn hm => ?_⟩
    · obtain ⟨p, hp, hid, -⟩ := hparent t ht d hd
      exact ⟨p, hp, hid⟩
    · exact lt_irrefl _ (hb.rank_lt (Set.mem_image_of_mem _ ht)
        (fun a ha d hd => (hclosed a ha d hd).1) (fun a ha d hd => (hclosed a ha d hd).2))
    · refine (h.required t ht f hf).imp_right ?_
      rintro ⟨u, hu, hlt, hfu⟩
      exact ⟨u, hu, hfu, _, _, hlevel u hu, hlevel t ht, hlt⟩
    · exact h.disjoint t ht u hu hid (((hlevel t ht).unique hn).trans (hm.unique (hlevel u hu)))

lemma checkInstances_iff : checkInstances required returned st e info l = .ok () ↔
    ∀ inst ∈ l, checkInstanceTasks required returned st inst (e.tasks.filter (·.inst == inst)).length
      (TaskInfo.keys (info inst)) [] (e.tasks.filter (·.inst == inst)) = .ok () := by
  induction l with
  | nil => simp [checkInstances]
  | cons a l ih =>
    simp only [checkInstances, List.forall_mem_cons]
    split
    · simp [*]
    · simp [*]

lemma checkTasksSanity_iff : checkTasksSanity required returned st e info = .ok () ↔
    (∀ t ∈ e.tasks, (st t.id = .scheduled ∨ st t.id = .onErrorOnly) ∧ (returned t).Nodup) ∧
      ∀ inst, ∃ rank, Layered required returned (TaskInfo.keys (info inst)) []
        (e.tasks.filter (·.inst == inst)) rank := by
  have hcheck inst : checkInstanceTasks required returned st inst
      (e.tasks.filter (·.inst == inst)).length (TaskInfo.keys (info inst)) []
      (e.tasks.filter (·.inst == inst)) = .ok () ↔ _ :=
    checkInstanceTasks_iff le_rfl ((List.filter_sublist.map _).nodup e.nodup) (by simp)
  simp only [checkTasksSanity, checkInstances_iff, hcheck, List.mem_dedup, List.mem_map]
  constructor
  · intro h
    refine ⟨fun t ht => (h t.inst ⟨t, ht, rfl⟩).1 t (by simp [ht]), fun inst => ?_⟩
    by_cases hi : ∃ t ∈ e.tasks, t.inst = inst
    · exact (h inst hi).2
    · have hnil : e.tasks.filter (·.inst == inst) = [] := by simpa using hi
      exact ⟨fun _ => 0, by rw [hnil]; exact .nil⟩
  · rintro ⟨hst, hlayers⟩ inst -
    exact ⟨fun t ht => hst t (List.mem_filter.mp ht).1, hlayers inst⟩

lemma checkTasksSanity_ok (h : checkTasksSanity required returned st e info = .ok ())
    (inst : String) :
    ∃ rank : TaskId → ℕ, ∀ t ∈ e.tasks, t.inst = inst →
      (st t.id = .scheduled ∨ st t.id = .onErrorOnly) ∧
      (∀ d ∈ t.dependsOn, ∃ p ∈ e.tasks, p.id = d ∧ p.inst = inst ∧ rank d < rank t.id) ∧
      ∀ f ∈ required t, f ∈ TaskInfo.keys (info inst) ∨
        ∃ u ∈ e.tasks, u.inst = inst ∧ rank u.id < rank t.id ∧ f ∈ returned u := by
  obtain ⟨hst, hlayers⟩ := checkTasksSanity_iff.mp h
  obtain ⟨rank, hrank⟩ := hlayers inst
  have hval : ∀ {t}, t ∈ e.tasks → valueOf e.tasks rank 0 t.id = rank t := valueOf_of_mem e.nodup
  have hmem : ∀ {t}, t ∈ e.tasks.filter (·.inst == inst) ↔ t ∈ e.tasks ∧ t.inst = inst := by simp
  refine ⟨valueOf e.tasks rank 0, fun t ht hti => ⟨(hst t ht).1, fun d hd => ?_, fun f hf => ?_⟩⟩
  · obtain ⟨p, hp, rfl, hlt⟩ :=
      (hrank.parent t (hmem.mpr ⟨ht, hti⟩) d hd).resolve_left (by simp)
    obtain ⟨hp, hpi⟩ := hmem.mp hp
    exact ⟨p, hp, rfl, hpi, by rwa [hval hp, hval ht]⟩
  · refine (hrank.required t (hmem.mpr ⟨ht, hti⟩) f hf).imp_right ?_
    rintro ⟨u, hu, hlt, hfu⟩
    obtain ⟨hu, hui⟩ := hmem.mp hu
    exact ⟨u, hu, hui, by rwa [hval hu, hval ht], hfu⟩

/-- The loops end, and what they accept are the sane executions, in whatever order the tasks
are stored. -/
theorem checkTasksSanity_iff_sane
    (hst : ∀ t ∈ e.tasks, st t.id = .scheduled ∨ st t.id = .onErrorOnly)
    (hret : ∀ t ∈ e.tasks, (returned t).Nodup) :
    (∀ inst, Ends required returned st inst (TaskInfo.keys (info inst)) []
      (e.tasks.filter (·.inst == inst))
      (checkInstanceTasks required returned st inst (e.tasks.filter (·.inst == inst)).length
        (TaskInfo.keys (info inst)) [] (e.tasks.filter (·.inst == inst)))) ∧
    (checkTasksSanity required returned st e info = .ok () ↔
      ∀ inst, Sane required returned (TaskInfo.keys (info inst))
        (e.tasks.filter (·.inst == inst))) ∧
    ∀ e' : Execution, e'.tasks.Perm e.tasks →
      (checkTasksSanity required returned st e' info = .ok () ↔
        checkTasksSanity required returned st e info = .ok ()) := by
  refine ⟨fun inst => ends_checkInstanceTasks le_rfl, ?_, fun e' hperm => ?_⟩
  · rw [checkTasksSanity_iff, and_iff_right fun t ht => ⟨hst t ht, hret t ht⟩]
    exact forall_congr' fun inst =>
      (sane_iff_layered ((List.filter_sublist.map _).nodup e.nodup)).symm
  · rw [checkTasksSanity_iff, checkTasksSanity_iff]
    have hfilter inst : ∀ t, t ∈ e'.tasks.filter (·.inst == inst) ↔
        t ∈ e.tasks.filter (·.inst == inst) := fun t => (hperm.filter _).mem_iff
    refine and_congr (by simp only [hperm.mem_iff]) (forall_congr' fun inst => exists_congr fun rank =>
      ⟨fun h => h.congr (hfilter inst), fun h => h.congr fun t => (hfilter inst t).symm⟩)

def validation : Execution where
  id := "execution"
  actionId := "transfer"
  type := .transferExecution
  instances := ["vm"]
  tasks := [⟨1, "vm", .getInstanceInfo, [0], false, 1⟩,
    ⟨0, "vm", .validateTransferSourceInputs, [], false, 0⟩]
  nodup := by simp

theorem sane_validation :
    checkExecutionTasksSanity (fun _ => .scheduled) validation
      (fun _ => some [("source_environment", .null)]) = .ok () ∧
    ∀ inst, Sane (·.taskType.requiredProperties) (·.taskType.returnedProperties)
      ["source_environment"] (validation.tasks.filter (·.inst == inst)) := by
  have hok : checkExecutionTasksSanity (fun _ => .scheduled) validation
      (fun _ => some [("source_environment", .null)]) = .ok () := by decide
  have hret : ∀ t ∈ validation.tasks, t.taskType.returnedProperties.Nodup := by decide
  exact ⟨hok, (checkTasksSanity_iff_sane (fun _ _ => .inl rfl) hret).2.1.mp hok⟩

end

end Coriolis.Conductor

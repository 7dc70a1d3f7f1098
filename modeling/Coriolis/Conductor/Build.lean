import Coriolis.Conductor.Runs
import Coriolis.Conductor.Sanity

/-!
# The executions the conductor builds

`execute_transfer_tasks`, `delete_transfer_disks`, `update_transfer` and
`_execute_deployment` create one block of tasks for each instance. A block depends on the
configuration only, up to the name of the instance and the number of tasks created before
it; what holds for every execution is therefore checked on the blocks, of which there are
finitely many.

Task ids are numbers here, in the order of creation; the source draws them at random.
-/

namespace Coriolis.Conductor

/-- A task as `_create_task` returns it. -/
structure Draft where
  task : Task
  status : TaskStatus
  deriving DecidableEq, Repr

abbrev Building := StateM (List Draft)

/-- `_create_task`, with the parents themselves in place of their ids. The new task is
already among the tasks of the execution when its index is computed. -/
def createTask (inst : String) (taskType : TaskType) (dependsOn : List Draft)
    (onError onErrorOnly : Bool) : Building Draft := fun drafts =>
  let status : TaskStatus :=
    if !onError && !onErrorOnly then .scheduled
    else if onErrorOnly then .onErrorOnly
    else if !dependsOn.isEmpty then
      if dependsOn.any (·.status != .onErrorOnly) then .scheduled else .onErrorOnly
    else .scheduled
  let draft : Draft :=
    ⟨⟨drafts.length, inst, taskType, dependsOn.map (·.task.id), onError || onErrorOnly,
      drafts.length + 2⟩, status⟩
  (draft, draft :: drafts)

/-- The body of the loop of `execute_transfer_tasks`. -/
def transferInstance (originMinionPool destinationMinionPool shutdownInstances : Bool)
    (inst : String) : Building Unit := do
  let validateSourceInputs ← createTask inst .validateTransferSourceInputs [] false false
  let getInstanceInfo ← createTask inst .getInstanceInfo [] false false
  let validateDestinationInputs ←
    createTask inst .validateTransferDestinationInputs [getInstanceInfo] false false
  let validateOrigin ←
    if originMinionPool then
      createTask inst .validateSourceMinionPoolCompatibility
        [getInstanceInfo, validateSourceInputs] false false
    else pure validateSourceInputs
  let validateDestination ←
    if destinationMinionPool then
      createTask inst .validateDestinationMinionPoolCompatibility
        [validateDestinationInputs] false false
    else pure validateDestinationInputs
  let deployTransferDisks ←
    createTask inst .deployTransferDisks [validateOrigin, validateDestination] false false
  let sourceResources ←
    if originMinionPool then pure []
    else do
      let task ←
        createTask inst .deployTransferSourceResources [deployTransferDisks] false false
      pure [task]
  let targetResources ←
    if destinationMinionPool then
      createTask inst .attachVolumesToDestinationMinion [deployTransferDisks] false false
    else createTask inst .deployTransferTargetResources [deployTransferDisks] false false
  let shutdownDeps := sourceResources ++ [targetResources]
  let dependsOn ←
    if shutdownInstances then do
      let task ← createTask inst .shutdownInstance shutdownDeps false false
      pure [task]
    else pure shutdownDeps
  let replicateDisks ← createTask inst .replicateDisks dependsOn false false
  if originMinionPool then
    let _ ← createTask inst .releaseSourceMinion [validateOrigin, replicateDisks] true false
  else
    let _ ← createTask inst .deleteTransferSourceResources
      (sourceResources ++ [replicateDisks]) true false
  if destinationMinionPool then
    let detachVolumes ← createTask inst .detachVolumesFromDestinationMinion
      [targetResources, replicateDisks] true false
    let _ ← createTask inst .releaseDestinationMinion [validateDestination, detachVolumes]
      true false
  else
    let _ ← createTask inst .deleteTransferTargetResources [targetResources, replicateDisks]
      true false

/-- The body of the loop of `delete_transfer_disks`. -/
def deleteDisksInstance (inst : String) : Building Unit := do
  let sourceDel ← createTask inst .deleteTransferSourceDiskSnapshots [] false false
  let _ ← createTask inst .deleteTransferDisks [sourceDel] false false

/-- The body of the loop of `update_transfer`. -/
def updateInstance (inst : String) : Building Unit := do
  let getInstanceInfo ← createTask inst .getInstanceInfo [] false false
  let updateSource ← createTask inst .updateSourceTransfer [] false false
  let _ ← createTask inst .updateDestinationTransfer [getInstanceInfo, updateSource] false false

/-- The OSMorphing tasks of `_execute_deployment`: the tasks the next one depends on. -/
def osMorphingTasks (onMinion : Bool) (inst : String) (lastValidation deployTransfer : Draft) :
    Building (List Draft) := do
  if onMinion then
    let attach ← createTask inst .attachVolumesToOsmorphingMinion
      [lastValidation, deployTransfer] false false
    let collect ← createTask inst .collectOsmorphingInfo [attach] false false
    let osMorphing ← createTask inst .osMorphing [collect] false false
    let detach ←
      createTask inst .detachVolumesFromOsmorphingMinion [attach, osMorphing] true false
    let release ← createTask inst .releaseOsmorphingMinion [lastValidation, detach] true false
    pure [osMorphing, release]
  else
    let deployResources ←
      createTask inst .deployOsMorphingResources [deployTransfer] false false
    let osMorphing ← createTask inst .osMorphing [deployResources] false false
    let deleteResources ←
      createTask inst .deleteOsMorphingResources [deployResources, osMorphing] true false
    pure [osMorphing, deleteResources]

/-- The body of the loop of `_execute_deployment`; `onMinion` says that the instance is in
the mapping of OSMorphing minion pools. -/
def deploymentInstance (skipOsMorphing cloneDisks instanceFlavor onMinion : Bool)
    (inst : String) : Building Unit := do
  let validateInputs ← createTask inst .validateDeploymentInputs [] false false
  let lastValidation ←
    if !skipOsMorphing && onMinion then
      createTask inst .validateOsmorphingMinionPoolCompatibility [validateInputs] false false
    else pure validateInputs
  let createSnapshot ← createTask inst .createTransferDiskSnapshots [lastValidation] false false
  let deployTransfer ← createTask inst .deployInstanceResources [createSnapshot] false false
  let dependsOn ←
    if skipOsMorphing then pure [deployTransfer]
    else osMorphingTasks onMinion inst lastValidation deployTransfer
  let dependsOn ←
    if instanceFlavor then do
      let task ← createTask inst .getOptimalFlavor dependsOn false false
      pure [task]
    else pure dependsOn
  let finalizeDeployment ←
    createTask inst .finalizeInstanceDeployment dependsOn false false
  let _ ← createTask inst .deleteTransferTargetDiskSnapshots
    [createSnapshot, finalizeDeployment] cloneDisks false
  let cleanupDeployment ← createTask inst .cleanupFailedInstanceDeployment
    [deployTransfer, finalizeDeployment] false true
  if !cloneDisks then
    let _ ← createTask inst .restoreTransferDiskSnapshots [cleanupDeployment] true false

/-- A request that makes the conductor build an execution. -/
inductive Request where
  | executeTransferTasks
      (originMinionPool destinationMinionPool shutdownInstances : Bool)
  | deleteTransferDisks
  | updateTransfer (updatedProperties : TaskInfo)
  | executeDeployment (skipOsMorphing cloneDisks instanceFlavor : Bool)
      (osmorphingMinionPools : List String)

/-- The parameters of an action that a request copies into the infos: the environments, with
the network and storage maps in the target's, and the scripts for each instance. -/
structure Parameters where
  sourceEnvironment : Json
  targetEnvironment : Json
  userScripts : String → Json

namespace Request

def type : Request → ExecutionType
  | executeTransferTasks .. => .transferExecution
  | deleteTransferDisks => .transferDisksDelete
  | updateTransfer _ => .transferUpdate
  | executeDeployment .. => .deployment

def instanceTasks (r : Request) (inst : String) : Building Unit :=
  match r with
  | executeTransferTasks origin destination shutdown =>
    transferInstance origin destination shutdown inst
  | deleteTransferDisks => deleteDisksInstance inst
  | updateTransfer _ => updateInstance inst
  | executeDeployment skip clone flavor pools =>
    deploymentInstance skip clone flavor (pools.contains inst) inst

variable (before : String → Option TaskInfo)

/-- The instances that get tasks, given the info of the action before the request. -/
def processed (instances : List String) : Request → List String
  | deleteTransferDisks => instances.filter fun inst =>
    (((before inst).bind (·.get? "volumes_info")).getD .null).truthy
  | _ => instances

def drafts (instances : List String) (r : Request) : List Draft :=
  (r.processed before instances).foldl (fun drafts inst => (r.instanceTasks inst drafts).2) []

/-- The request builds an execution: what raises on the way there is not the case. -/
def accepts (instances : List String) : Request → Prop
  | executeTransferTasks .. => True
  | deleteTransferDisks =>
    processed before instances deleteTransferDisks ≠ [] ∧
      ∀ inst ∈ instances, (before inst).isSome = true
  | _ => ∀ inst ∈ instances, (before inst).isSome = true

/-- `None` for the values a minion pool fills in later. -/
def minionKeys (pool : String) : TaskInfo :=
  [(pool ++ "_minion_machine_id", .null), (pool ++ "_minion_provider_properties", .null),
    (pool ++ "_minion_connection_info", .null)]

def infoFor (p : Parameters) (inst : String) : Request → TaskInfo
  | executeTransferTasks origin destination _ =>
    let info : TaskInfo := (before inst).getD []
    let info := match info.get? "volumes_info" with
      | none | some .null => info.update [("volumes_info", .arr [])]
      | some _ => info
    let info := info.update [("source_environment", p.sourceEnvironment),
      ("target_environment", p.targetEnvironment)]
    let info := if origin then info.update (minionKeys "origin") else info
    if destination then
      info.update
        (("destination_minion_backup_writer_connection_info", .null) :: minionKeys "destination")
    else info
  | deleteTransferDisks =>
    ((before inst).getD []).update [("target_environment", p.targetEnvironment)]
  | updateTransfer properties =>
    ((before inst).getD []).update (properties.map fun (key, value) =>
      (if key = "destination_environment" then "target_environment" else key, value))
  | executeDeployment skip clone _ pools =>
    let info : TaskInfo := ((before inst).getD []).update
      [("clone_disks", .bool clone), ("user_scripts", p.userScripts inst),
        ("source_environment", p.sourceEnvironment), ("target_environment", p.targetEnvironment)]
    if !skip && pools.contains inst then info.update (minionKeys "osmorphing") else info

def awaitsMinions : Request → Bool
  | executeTransferTasks origin destination _ => origin || destination
  | executeDeployment skip _ _ pools => !skip && !pools.isEmpty
  | _ => false

end Request

/-- The execution and the database right after a request stored them: not begun, and
waiting for minions if it needs any. The API refuses a list of instances with duplicates. -/
structure Built (r : Request) (before : String → Option TaskInfo) (e : Execution) (w : World) :
    Prop where
  accepts : r.accepts before e.instances
  instances : e.instances.Nodup
  type : e.type = r.type
  tasks : e.tasks.Perm ((r.drafts before e.instances).map (·.task))
  rows : ∀ d ∈ r.drafts before e.instances, w.rows d.task.id = ⟨d.status, none, none, none⟩
  info : ∃ p : Parameters, ∀ inst ∈ e.instances, w.info inst = some (r.infoFor before p inst)
  sane : checkExecutionTasksSanity w.st e w.info = .ok ()
  status : r.awaitsMinions = false ∧ w.status = .unexecuted ∧
      w.lastExecutionStatus.isActive = false ∧ w.trace = [] ∨
    r.awaitsMinions = true ∧ w.status = .awaitingMinionAllocations ∧
      w.lastExecutionStatus = .awaitingMinionAllocations ∧
      w.trace = [⟨.setExecutionStatus .awaitingMinionAllocations, .unexecuted, w.st⟩]

section

/-- A task of a block, for a given instance and after `n` other tasks. -/
def Draft.place (inst : String) (n : Nat) (d : Draft) : Draft :=
  ⟨⟨n + d.task.id, inst, d.task.taskType, d.task.dependsOn.map (n + ·), d.task.onError,
    n + d.task.index⟩, d.status⟩

/-- The block of an instance, for no instance in particular and created first. -/
def Request.block (r : Request) (inst : String) : List Draft :=
  match r with
  | .executeTransferTasks origin destination shutdown =>
    (transferInstance origin destination shutdown "" []).2
  | .deleteTransferDisks => (deleteDisksInstance "" []).2
  | .updateTransfer _ => (updateInstance "" []).2
  | .executeDeployment skip clone flavor pools =>
    (deploymentInstance skip clone flavor (pools.contains inst) "" []).2

lemma Request.instanceTasks_eq (r : Request) (inst : String) (drafts : List Draft) :
    (r.instanceTasks inst drafts).2 =
      (r.block inst).map (Draft.place inst drafts.length) ++ drafts := by
  cases r with
  | executeTransferTasks origin destination shutdown =>
    cases origin <;> cases destination <;> cases shutdown <;> rfl
  | deleteTransferDisks | updateTransfer => rfl
  | executeDeployment skip clone flavor pools =>
    simp only [instanceTasks, block]
    generalize pools.contains inst = onMinion
    cases skip <;> cases clone <;> cases flavor <;> cases onMinion <;> rfl

/-- What every block satisfies. -/
structure BlockOk (l : List Draft) : Prop where
  ids : l.map (·.task.id) = (List.range l.length).reverse
  index : ∀ d ∈ l, d.task.index = d.task.id + 2
  parent : ∀ d ∈ l, ∀ q ∈ d.task.dependsOn, ∃ p ∈ l, p.task.id = q ∧ p.task.id < d.task.id
  morphing : ∀ d ∈ l, precedesMorphing d.task.taskType = true ∨ d.task.taskType = .osMorphing →
    ∀ p ∈ l, p.task.id ∈ d.task.dependsOn → precedesMorphing p.task.taskType = true
  onErrorParents : ∀ d ∈ l, d.task.onError = true → d.task.dependsOn ≠ []
  status : ∀ d ∈ l, d.status = .scheduled ∨ d.status = .onErrorOnly ∧ d.task.onError = true
  released : ∀ d ∈ l, d.status = .scheduled → ∀ p ∈ l, p.task.id ∈ d.task.dependsOn →
    p.status ≠ .onErrorOnly
  morphingParents : ∀ d ∈ l, d.task.taskType = .osMorphing → d.task.dependsOn ≠ []
  chained : ∃ d ∈ l, d.status = .scheduled ∧ d.task.dependsOn ≠ []
  mixedParents : ∀ d ∈ l, (∃ p ∈ l, p.task.id ∈ d.task.dependsOn ∧ p.task.onError = false) →
    ∀ q ∈ l, q.task.id ∈ d.task.dependsOn → q.status ≠ .onErrorOnly
  types : (l.map (·.task.taskType)).Nodup

instance (l : List Draft) : Decidable (BlockOk l) :=
  decidable_of_iff
    (l.map (·.task.id) = (List.range l.length).reverse ∧
      (∀ d ∈ l, d.task.index = d.task.id + 2) ∧
      (∀ d ∈ l, ∀ q ∈ d.task.dependsOn, ∃ p ∈ l, p.task.id = q ∧ p.task.id < d.task.id) ∧
      (∀ d ∈ l, precedesMorphing d.task.taskType = true ∨ d.task.taskType = .osMorphing →
        ∀ p ∈ l, p.task.id ∈ d.task.dependsOn → precedesMorphing p.task.taskType = true) ∧
      (∀ d ∈ l, d.task.onError = true → d.task.dependsOn ≠ []) ∧
      (∀ d ∈ l, d.status = .scheduled ∨ d.status = .onErrorOnly ∧ d.task.onError = true) ∧
      (∀ d ∈ l, d.status = .scheduled → ∀ p ∈ l, p.task.id ∈ d.task.dependsOn →
        p.status ≠ .onErrorOnly) ∧
      (∀ d ∈ l, d.task.taskType = .osMorphing → d.task.dependsOn ≠ []) ∧
      (∃ d ∈ l, d.status = .scheduled ∧ d.task.dependsOn ≠ []) ∧
      (∀ d ∈ l, (∃ p ∈ l, p.task.id ∈ d.task.dependsOn ∧ p.task.onError = false) →
        ∀ q ∈ l, q.task.id ∈ d.task.dependsOn → q.status ≠ .onErrorOnly) ∧
      (l.map (·.task.taskType)).Nodup)
    ⟨fun ⟨h1, h2, h3, h4, h5, h6, h7, h8, h9, h10, h11⟩ =>
        ⟨h1, h2, h3, h4, h5, h6, h7, h8, h9, h10, h11⟩,
      fun ⟨h1, h2, h3, h4, h5, h6, h7, h8, h9, h10, h11⟩ =>
        ⟨h1, h2, h3, h4, h5, h6, h7, h8, h9, h10, h11⟩⟩

def blockShapes : List (List Draft) :=
  let flags := [false, true]
  (flags.flatMap fun origin => flags.flatMap fun destination => flags.map fun shutdown =>
    (transferInstance origin destination shutdown "" []).2) ++
  [(deleteDisksInstance "" []).2, (updateInstance "" []).2] ++
  flags.flatMap fun skip => flags.flatMap fun clone => flags.flatMap fun flavor =>
    flags.map fun onMinion => (deploymentInstance skip clone flavor onMinion "" []).2

lemma Request.block_mem (r : Request) (inst : String) : r.block inst ∈ blockShapes := by
  have hflag : ∀ b : Bool, b ∈ [false, true] := by decide
  simp only [blockShapes, List.mem_append, List.mem_flatMap, List.mem_map]
  cases r with
  | executeTransferTasks origin destination shutdown =>
    exact .inl (.inl ⟨origin, hflag _, destination, hflag _, shutdown, hflag _, rfl⟩)
  | deleteTransferDisks | updateTransfer => exact .inl (.inr (by simp [block]))
  | executeDeployment skip clone flavor pools =>
    exact .inr ⟨skip, hflag _, clone, hflag _, flavor, hflag _, pools.contains inst, hflag _, rfl⟩

lemma blockOk_of_mem : ∀ l ∈ blockShapes, BlockOk l := by decide

lemma Request.block_ok (r : Request) (inst : String) : BlockOk (r.block inst) :=
  blockOk_of_mem _ (r.block_mem inst)

variable {r : Request} {e : Execution} {w : World}

/-- Where the tasks of an execution come from. -/
structure Blocks (r : Request) (instances : List String) (drafts : List Draft) : Prop where
  ids : drafts.map (·.task.id) = (List.range drafts.length).reverse
  mem : ∀ d ∈ drafts, ∃ inst ∈ instances, ∃ n,
    (∀ b ∈ r.block inst, b.place inst n ∈ drafts) ∧ ∃ b ∈ r.block inst, d = b.place inst n

lemma Blocks.cons (h : Blocks r l drafts) (inst : String) :
    Blocks r (l ++ [inst]) (r.instanceTasks inst drafts).2 := by
  rw [r.instanceTasks_eq]
  refine ⟨?_, fun d hd => ?_⟩
  · have hplace : ((r.block inst).map (Draft.place inst drafts.length)).map (·.task.id) =
        ((r.block inst).map (·.task.id)).map (drafts.length + ·) := by
      simp [Draft.place, Function.comp_def]
    rw [List.map_append, hplace, (r.block_ok inst).ids, h.ids, List.length_append,
      List.length_map, Nat.add_comm, List.range_add, List.reverse_append, List.map_reverse]
  · rcases List.mem_append.mp hd with hd | hd
    · obtain ⟨b, hb, rfl⟩ := List.mem_map.mp hd
      exact ⟨inst, by simp, drafts.length,
        fun b hb => List.mem_append_left _ (List.mem_map_of_mem hb), b, hb, rfl⟩
    · obtain ⟨i, hi, n, hall, hb⟩ := h.mem d hd
      exact ⟨i, by simp [hi], n, fun b hb => List.mem_append_right _ (hall b hb), hb⟩

lemma Request.blocks (r : Request) (before : String → Option TaskInfo)
    (instances : List String) :
    Blocks r (r.processed before instances) (r.drafts before instances) := by
  have fold : ∀ (l l' : List String) (drafts : List Draft), Blocks r l' drafts →
      Blocks r (l' ++ l) (l.foldl (fun drafts inst => (r.instanceTasks inst drafts).2) drafts) := by
    intro l
    induction l with
    | nil => intro l' drafts h; simpa using h
    | cons a l ih => intro l' drafts h; simpa using ih (l' ++ [a]) _ (h.cons a)
  exact fold (r.processed before instances) [] [] ⟨rfl, by simp⟩

lemma Blocks.nodup (h : Blocks r l drafts) :
    (drafts.map (·.task.id)).Nodup := by
  rw [h.ids]
  exact List.nodup_reverse.mpr List.nodup_range

lemma Request.drafts_nodup (r : Request) (before : String → Option TaskInfo)
    (hnd : (r.processed before instances).Nodup) :
    ((r.drafts before instances).map fun d => (d.task.inst, d.task.taskType)).Nodup := by
  -- the blocks so far belong to the instances so far, and the next one is new
  have fold : ∀ (l l' : List String) (drafts : List Draft), (l' ++ l).Nodup →
      (∀ d ∈ drafts, d.task.inst ∈ l') →
      (drafts.map fun d => (d.task.inst, d.task.taskType)).Nodup →
      ((l.foldl (fun drafts inst => (r.instanceTasks inst drafts).2) drafts).map
        fun d => (d.task.inst, d.task.taskType)).Nodup := by
    intro l
    induction l with
    | nil => intro l' drafts _ _ h; simpa using h
    | cons a l ih =>
      intro l' drafts hl hin h
      have hnew : a ∉ l' := fun ha => (List.nodup_append.mp hl).2.2 a ha a (by simp) rfl
      rw [List.foldl_cons, r.instanceTasks_eq]
      refine ih (l' ++ [a]) _ (by simpa using hl) (fun d hd => ?_) ?_
      · rcases List.mem_append.mp hd with hd | hd
        · obtain ⟨b, -, rfl⟩ := List.mem_map.mp hd
          simp [Draft.place]
        · simp [hin d hd]
      · rw [List.map_append, List.nodup_append]
        refine ⟨?_, h, fun x hx y hy hxy => ?_⟩
        · have := ((r.block_ok a).types).map (Prod.mk_right_injective a)
          simpa [Draft.place, Function.comp_def] using this
        · obtain ⟨c, hc, rfl⟩ := List.mem_map.mp hx
          obtain ⟨b, -, rfl⟩ := List.mem_map.mp hc
          obtain ⟨d, hd, rfl⟩ := List.mem_map.mp hy
          have : a = d.task.inst := congrArg Prod.fst hxy
          exact hnew (this ▸ hin d hd)
  exact fold (r.processed before instances) [] [] (by simpa using hnd) (by simp) (by simp)

/-- Every task of a built execution belongs to the block of its instance, and the whole
block is in the execution. -/
lemma Built.task (hb : Built r before e w) (ht : t ∈ e.tasks) :
    ∃ inst ∈ r.processed before e.instances, ∃ n,
      (∀ b ∈ r.block inst, (b.place inst n).task ∈ e.tasks ∧
        w.st (b.place inst n).task.id = b.status) ∧
      ∃ b ∈ r.block inst, t = (b.place inst n).task := by
  obtain ⟨d, hd, rfl⟩ := List.mem_map.mp (hb.tasks.mem_iff.mp ht)
  obtain ⟨inst, hi, n, hall, b, hbm, rfl⟩ := (r.blocks before e.instances).mem d hd
  refine ⟨inst, hi, n, fun b hbm => ⟨?_, ?_⟩, b, hbm, rfl⟩
  · exact hb.tasks.mem_iff.mpr (List.mem_map_of_mem (hall b hbm))
  · rw [World.st, hb.rows _ (hall b hbm)]
    rfl

lemma parent_of_mem_dependsOn (hall : ∀ b ∈ r.block inst, (b.place inst n).task ∈ e.tasks ∧
      w.st (b.place inst n).task.id = b.status) (hbm : b ∈ r.block inst)
    (hd : d ∈ (b.place inst n).task.dependsOn) :
    ∃ p ∈ r.block inst, p.task.id ∈ b.task.dependsOn ∧ (p.place inst n).task ∈ e.tasks ∧
      (p.place inst n).task.id = d ∧ p.task.id < b.task.id := by
  obtain ⟨q, hq, rfl⟩ := List.mem_map.mp hd
  obtain ⟨p, hp, rfl, hlt⟩ := (r.block_ok inst).parent b hbm q hq
  exact ⟨p, hp, hq, (hall p hp).1, rfl, hlt⟩

lemma Built.wellFormed (hb : Built r before e w) : WellFormed e := by
  refine ⟨fun t ht d hd => ?_, fun t ht hty p hp hpd => ?_, fun t ht hoe => ?_⟩
  · obtain ⟨inst, -, n, hall, b, hbm, rfl⟩ := hb.task ht
    obtain ⟨p, hp, -, hpe, hid, hlt⟩ := parent_of_mem_dependsOn hall hbm hd
    refine ⟨_, hpe, hid, rfl, ?_⟩
    have h1 := (r.block_ok inst).index p hp
    have h2 := (r.block_ok inst).index b hbm
    simp only [Draft.place, h1, h2]
    exact Nat.add_lt_add_left (Nat.add_lt_add_right hlt 2) n
  · obtain ⟨inst, -, n, hall, b, hbm, rfl⟩ := hb.task ht
    obtain ⟨q, hq, hqd, hqe, hid, -⟩ := parent_of_mem_dependsOn hall hbm hpd
    obtain rfl := task_eq_of_id hqe hp hid
    exact (r.block_ok inst).morphing b hbm hty q hq hqd
  · obtain ⟨inst, -, n, hall, b, hbm, rfl⟩ := hb.task ht
    have := (r.block_ok inst).onErrorParents b hbm hoe
    simpa [Draft.place] using this

lemma Built.statuses (hb : Built r before e w) (ht : t ∈ e.tasks) :
    w.st t.id = .scheduled ∨ w.st t.id = .onErrorOnly ∧ t.onError = true := by
  obtain ⟨inst, -, n, hall, b, hbm, rfl⟩ := hb.task ht
  rw [(hall b hbm).2]
  exact (r.block_ok inst).status b hbm

lemma Built.waiting (hb : Built r before e w) (ht : t ∈ e.tasks) :
    w.st t.id = .scheduled ∨ w.st t.id = .onErrorOnly :=
  (hb.statuses ht).imp_right And.left

lemma Built.released (hb : Built r before e w) : Released e w.st := by
  intro t ht hs d hd
  obtain ⟨inst, -, n, hall, b, hbm, rfl⟩ := hb.task ht
  obtain ⟨p, hp, hpd, hpe, rfl, -⟩ := parent_of_mem_dependsOn hall hbm hd
  rw [(hall b hbm).2] at hs
  rw [(hall p hp).2]
  exact (r.block_ok inst).released b hbm hs p hp hpd

lemma Built.morphing_parents (hb : Built r before e w) (ht : t ∈ e.tasks)
    (hty : t.taskType = .osMorphing) : t.dependsOn ≠ [] := by
  obtain ⟨inst, -, n, -, b, hbm, rfl⟩ := hb.task ht
  have := (r.block_ok inst).morphingParents b hbm hty
  simpa [Draft.place] using this

lemma Built.exists_chained (hb : Built r before e w) (ht : t ∈ e.tasks) :
    ∃ s ∈ e.tasks, w.st s.id = .scheduled ∧ s.dependsOn ≠ [] := by
  obtain ⟨inst, -, n, hall, -⟩ := hb.task ht
  obtain ⟨d, hd, hs, hne⟩ := (r.block_ok inst).chained
  exact ⟨_, (hall d hd).1, (hall d hd).2.trans hs, by simpa [Draft.place] using hne⟩

lemma Built.exists_task (hb : Built r before e w) (hne : e.instances ≠ []) :
    ∃ t, t ∈ e.tasks := by
  have hprocessed : r.processed before e.instances ≠ [] := by
    cases r with
    | deleteTransferDisks => exact hb.accepts.1
    | executeTransferTasks | updateTransfer | executeDeployment => exact hne
  obtain ⟨l, inst, hl⟩ := (List.eq_nil_or_concat _).resolve_left hprocessed
  obtain ⟨d, hd, -⟩ := (r.block_ok inst).chained
  have hmem : ∃ d, d ∈ r.drafts before e.instances := by
    rw [Request.drafts, hl, List.concat_eq_append, List.foldl_append, List.foldl_cons,
      List.foldl_nil, r.instanceTasks_eq]
    exact ⟨_, List.mem_append_left _ (List.mem_map_of_mem hd)⟩
  obtain ⟨d, hd⟩ := hmem
  exact ⟨_, hb.tasks.mem_iff.mpr (List.mem_map_of_mem hd)⟩

/-- A task with a parent that is no cleanup has no parent that waits for an error. -/
lemma Built.mixed_parents (hb : Built r before e w) (ht : t ∈ e.tasks) (hp : p ∈ e.tasks)
    (hpt : p.id ∈ t.dependsOn) (hoe : p.onError = false) (hd : d ∈ t.dependsOn) :
    w.st d ≠ .onErrorOnly := by
  obtain ⟨inst, -, n, hall, b, hbm, rfl⟩ := hb.task ht
  obtain ⟨p', hp', hpd, hpe, hid, -⟩ := parent_of_mem_dependsOn hall hbm hpt
  obtain rfl := task_eq_of_id hpe hp hid
  obtain ⟨q, hq, hqd, -, rfl, -⟩ := parent_of_mem_dependsOn hall hbm hd
  rw [(hall q hq).2]
  exact (r.block_ok inst).mixedParents b hbm ⟨p', hp', hpd, hoe⟩ q hq hqd

lemma Built.task_unique (hb : Built r before e w) (ht : t ∈ e.tasks) (hs : s ∈ e.tasks)
    (hi : t.inst = s.inst) (hty : t.taskType = s.taskType) : t = s := by
  have hnd : (r.processed before e.instances).Nodup := by
    cases r with
    | deleteTransferDisks => exact hb.instances.filter _
    | executeTransferTasks | updateTransfer | executeDeployment => exact hb.instances
  have hkeys : (e.tasks.map fun t => (t.inst, t.taskType)).Nodup := by
    refine ((hb.tasks.map _).nodup_iff).mpr ?_
    simpa [Function.comp_def] using r.drafts_nodup before hnd
  exact List.inj_on_of_nodup_map hkeys ht hs (by simp [hi, hty])

lemma TaskInfo.isSome_get?_of_mem {info : TaskInfo} (h : key ∈ info.map (·.1)) :
    (info.get? key).isSome = true := by
  obtain ⟨p, hp, rfl⟩ := List.mem_map.mp h
  rw [TaskInfo.get?, List.lookup_isSome_iff]
  exact ⟨p, hp, by simp⟩

lemma TaskInfo.isSome_get?_update {info new : TaskInfo}
    (h : key ∈ new.map (·.1) ∨ (info.get? key).isSome = true) :
    ((info.update new).get? key).isSome = true := by
  rw [TaskInfo.get?_update]
  rcases h with h | h
  · simp [TaskInfo.isSome_get?_of_mem h]
  · simp [h]

def Request.pools (inst : String) : Request → List String
  | .executeTransferTasks origin destination _ =>
    (if origin then ["origin"] else []) ++ if destination then ["destination"] else []
  | .executeDeployment skip _ _ pools =>
    if !skip && pools.contains inst then ["osmorphing"] else []
  | _ => []

lemma Request.block_requiredKeys (r : Request) (inst : String) :
    ∀ b ∈ r.block inst, ∀ key ∈ requiredKeys b.task.taskType,
      ∃ pool ∈ r.pools inst, key ∈ (minionKeys pool).map (·.1) := by
  cases r with
  | executeTransferTasks origin destination shutdown =>
    simp only [block, pools]
    revert origin destination shutdown
    decide
  | deleteTransferDisks | updateTransfer =>
    simp only [block, pools]
    decide
  | executeDeployment skip clone flavor mapped =>
    simp only [block, pools]
    generalize mapped.contains inst = onMinion
    revert skip clone flavor onMinion
    decide

lemma Request.infoFor_pools (r : Request) (before : String → Option TaskInfo) (p : Parameters)
    (inst : String) (hp : pool ∈ r.pools inst) (hk : key ∈ (minionKeys pool).map (·.1)) :
    ((r.infoFor before p inst).get? key).isSome = true := by
  cases r with
  | executeTransferTasks origin destination shutdown =>
    simp only [pools, List.mem_append] at hp
    simp only [infoFor]
    generalize (match TaskInfo.get? ((before inst).getD []) "volumes_info" with
      | none | some .null =>
        TaskInfo.update ((before inst).getD []) [("volumes_info", .arr [])]
      | some _ => (before inst).getD []) = info
    cases origin <;> cases destination <;> simp at hp
    · subst hp
      exact TaskInfo.isSome_get?_update (.inl (List.mem_cons_of_mem _ hk))
    · subst hp
      exact TaskInfo.isSome_get?_update (.inl hk)
    · rcases hp with rfl | rfl
      · exact TaskInfo.isSome_get?_update (.inr (TaskInfo.isSome_get?_update (.inl hk)))
      · exact TaskInfo.isSome_get?_update (.inl (List.mem_cons_of_mem _ hk))
  | deleteTransferDisks | updateTransfer => simp [pools] at hp
  | executeDeployment skip clone flavor mapped =>
    simp only [pools] at hp
    simp only [infoFor]
    split at hp
    · rename_i h
      obtain rfl : pool = "osmorphing" := by simpa using hp
      rw [if_pos h]
      exact TaskInfo.isSome_get?_update (.inl hk)
    · simp at hp

lemma Request.processed_subset (r : Request) (h : inst ∈ r.processed before instances) :
    inst ∈ instances := by
  cases r with
  | deleteTransferDisks => exact List.mem_of_mem_filter h
  | executeTransferTasks | updateTransfer | executeDeployment => exact h

lemma Built.infoReady (hb : Built r before e w) : InfoReady e w := by
  intro t ht
  obtain ⟨inst, hi, n, -, b, hbm, rfl⟩ := hb.task ht
  obtain ⟨p, hinfo⟩ := hb.info
  refine ⟨_, hinfo inst (r.processed_subset hi), fun key hkey => ?_⟩
  obtain ⟨pool, hp, hk⟩ := r.block_requiredKeys inst b hbm key hkey
  exact r.infoFor_pools before p inst hp hk

lemma Built.ready (hb : Built r before e w) : Ready e w := by
  refine ⟨⟨fun t ht => hb.statuses ht, fun t _ => ?_⟩, hb.released, ?_, fun hl => ?_,
    hb.infoReady⟩
  · rcases hb.status with ⟨-, -, -, htr⟩ | ⟨-, -, -, htr⟩ <;> simp [World.emitted, htr]
  · rcases hb.status with ⟨-, h, -⟩ | ⟨-, h, -⟩
    · exact .inl h
    · exact .inr h
  · rcases hb.status with ⟨-, -, h, -⟩ | ⟨-, h, -⟩
    · rw [hl] at h
      cases h
    · exact h

end

section

variable (r : Request) (before : String → Option TaskInfo) (instances : List String)

/-- The execution a request builds, with its tasks in the order of their creation. -/
def Request.execution (id actionId : String) : Execution where
  id := id
  actionId := actionId
  type := r.type
  instances := instances
  tasks := ((r.drafts before instances).map (·.task)).reverse
  nodup := by
    simpa [List.nodup_reverse, Function.comp_def] using (r.blocks before instances).nodup

/-- The row `_create_task` stored for a task. -/
def Request.row (id : TaskId) : TaskRow :=
  match (r.drafts before instances).find? (·.task.id == id) with
  | some d => ⟨d.status, none, none, none⟩
  | none => ⟨.scheduled, none, none, none⟩

/-- The database right after a request with empty parameters stored its execution. -/
def Request.stored : World :=
  let w : World :=
    { status := .unexecuted
      lastExecutionStatus := .unexecuted
      rows := r.row before instances
      info := fun inst =>
        if inst ∈ instances then some (r.infoFor before ⟨.obj [], .obj [], fun _ => .null⟩ inst)
        else none
      trace := [] }
  if r.awaitsMinions then w.setExecutionStatus .awaitingMinionAllocations else w

lemma Request.row_of_mem (hd : d ∈ r.drafts before instances) :
    r.row before instances d.task.id = ⟨d.status, none, none, none⟩ := by
  have hnd := (r.blocks before instances).nodup
  obtain ⟨d', hfind⟩ : ∃ d', (r.drafts before instances).find? (·.task.id == d.task.id) = some d' :=
    Option.isSome_iff_exists.mp (List.find?_isSome.mpr ⟨d, hd, by simp⟩)
  have hd' := List.mem_of_find?_eq_some hfind
  have hid : d'.task.id = d.task.id := by simpa using List.find?_some hfind
  obtain rfl : d' = d := List.inj_on_of_nodup_map hnd hd' hd hid
  simp [row, hfind]

lemma Request.built (id actionId : String) (ha : r.accepts before instances)
    (hnd : instances.Nodup)
    (hsane : checkExecutionTasksSanity (r.stored before instances).st
      (r.execution before instances id actionId) (r.stored before instances).info = .ok ()) :
    Built r before (r.execution before instances id actionId) (r.stored before instances) := by
  refine ⟨ha, hnd, rfl, List.reverse_perm _, fun d hd => ?_,
    ⟨⟨.obj [], .obj [], fun _ => .null⟩, fun inst hi => ?_⟩, hsane, ?_⟩
  · have hrows : (r.stored before instances).rows = r.row before instances := by
      simp only [stored]
      split <;> rfl
    rw [hrows]
    exact r.row_of_mem before instances hd
  · have hi : inst ∈ instances := hi
    simp only [stored]
    split <;> simp [hi]
  · cases h : r.awaitsMinions
    · exact .inl ⟨rfl, by simp [stored, h]; decide⟩
    · exact .inr ⟨rfl, by simp [stored, h]⟩

def responsive : Env := ⟨fun _ => true, fun _ => "", fun _ => true, fun _ => true⟩

def plainConf : Conf := ⟨false, fun _ => true⟩

/-- What a transfer leaves in the info of an instance with one volume. -/
def replicated : String → Option TaskInfo := fun _ =>
  some [("export_info", .obj []), ("source_environment", .obj []), ("target_environment", .obj []),
    ("volumes_info", .arr [.null])]

def deleteDisks : Execution :=
  Request.deleteTransferDisks.execution replicated ["vm"]
    "execution" "transfer"

def deleteDisksStored : World :=
  Request.deleteTransferDisks.stored replicated ["vm"]

lemma built_deleteDisks : Built .deleteTransferDisks
    replicated deleteDisks deleteDisksStored :=
  Request.built _ _ _ _ _ ⟨by decide, by simp [replicated]⟩ (by simp) (by decide)

/-- The transfer of one instance with a minion pool on the source side. -/
def poolTransfer : Execution :=
  (Request.executeTransferTasks true false false).execution (fun _ => none) ["vm"] "execution"
    "transfer"

def poolTransferStored : World :=
  (Request.executeTransferTasks true false false).stored (fun _ => none) ["vm"]

lemma built_poolTransfer : Built (.executeTransferTasks true false false) (fun _ => none)
    poolTransfer poolTransferStored :=
  Request.built _ _ _ _ _ trivial (by simp) (by decide)

/-- The deployment of one instance without OSMorphing, whose disks are not cloned. Its tasks
in order: validation, snapshots, resources, finalization, deletion of the snapshots, cleanup,
restoration of the snapshots. -/
def deployment : Execution :=
  (Request.executeDeployment true false false []).execution replicated ["vm"] "execution"
    "deployment"

def deploymentStored : World :=
  (Request.executeDeployment true false false []).stored replicated ["vm"]

lemma built_deployment : Built (.executeDeployment true false false []) replicated
    deployment deploymentStored :=
  Request.built _ _ _ _ _ (by simp [Request.accepts, replicated]) (by simp) (by decide)

/-- The transfer of one instance without minion pools. Its tasks in order: the two source-side
ones and the destination's validation, disks, source resources, target resources,
replication, and the deletions of the source and of the target resources. -/
def transfer : Execution :=
  (Request.executeTransferTasks false false false).execution (fun _ => none) ["vm"] "execution"
    "transfer"

def transferStored : World :=
  (Request.executeTransferTasks false false false).stored (fun _ => none) ["vm"]

lemma built_transfer : Built (.executeTransferTasks false false false) (fun _ => none)
    transfer transferStored :=
  Request.built _ _ _ _ _ trivial (by simp) (by decide)

/-- The calls of a worker that completes the task with the given id. -/
def completes (e : Execution) (id : TaskId) : List (Env × Call) :=
  (e.tasks.filter (·.id = id)).flatMap fun t =>
    [(responsive, .setTaskHost t "worker"), (responsive, .setTaskProcess t (some 1)),
      (responsive, .taskCompleted t [])]

def runs (e : Execution) (id : TaskId) : List (Env × Call) :=
  (e.tasks.filter (·.id = id)).flatMap fun t =>
    [(responsive, .setTaskHost t "worker"), (responsive, .setTaskProcess t (some 1))]

def fails (e : Execution) (id : TaskId) : List (Env × Call) :=
  (e.tasks.filter (·.id = id)).map fun t => (responsive, .setTaskError t "error")

end

end Coriolis.Conductor

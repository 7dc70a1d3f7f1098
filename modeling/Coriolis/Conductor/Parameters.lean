import Coriolis.Conductor.Late
import Coriolis.Conductor.Update

/-!
# The parameters of a transfer over successive updates

`update_transfer` parks the new values in the infos of the instances, where its tasks check
them, and the last completed task has them stored in the columns of the transfer, together
with whatever else the infos hold for these columns. An update that failed leaves its values
in the infos, and a later one that does not name them stores them.
-/

namespace Coriolis.Conductor

variable {r : Request} {before : String → Option TaskInfo} {e : Execution} {conf : Conf}
  {ok : World → Report → Prop} {env : Env} {w w' : World} {t : Task} {c : Call}

/-- The columns of a transfer that are its parameters. -/
inductive TransferField where
  | sourceEnvironment | destinationEnvironment | notes | networkMap | storageMappings
  | originMinionPoolId | destinationMinionPoolId | instanceOsmorphingMinionPoolMappings
  | cloneDisks | skipOsMorphing | userScripts
  deriving DecidableEq, Repr

namespace TransferField

def infoKey : TransferField → String
  | sourceEnvironment => "source_environment"
  | destinationEnvironment => "target_environment"
  | notes => "notes"
  | networkMap => "network_map"
  | storageMappings => "storage_mappings"
  | originMinionPoolId => "origin_minion_pool_id"
  | destinationMinionPoolId => "destination_minion_pool_id"
  | instanceOsmorphingMinionPoolMappings => "instance_osmorphing_minion_pool_mappings"
  | cloneDisks => "clone_disks"
  | skipOsMorphing => "skip_os_morphing"
  | userScripts => "user_scripts"

/-- `updateable_fields` of `db_api.update_transfer`. -/
def updateableFields : List TransferField :=
  [sourceEnvironment, destinationEnvironment, notes, networkMap, storageMappings,
    originMinionPoolId, destinationMinionPoolId, instanceOsmorphingMinionPoolMappings,
    cloneDisks, skipOsMorphing]

/-- A column as it is read. Scripts are read part by part, and the API writes both parts where
the transfer has none. -/
def read : TransferField → Json → List Json
  | userScripts, scripts => ["global", "instances"].map fun part =>
    (Json.get? [.key part] scripts).getD (.obj [])
  | _, value => [value]

lemma infoKey_ne_volumes (f : TransferField) : f.infoKey ≠ "volumes_info" := by
  cases f <;> decide

end TransferField

abbrev Columns := TransferField → Json

/-- `db_api.update_transfer`. -/
def updateColumns (updatedValues : TaskInfo) (columns : Columns) : Columns := fun f =>
  if f ∈ TransferField.updateableFields then
    (updatedValues.get? f.infoKey).getD (columns f)
  else columns f

def storeParameters (ev : Event) (columns : Columns) : Columns :=
  match ev.effect with
  | .postTaskAction (.updateTransfer updatedValues) => updateColumns updatedValues columns
  | _ => columns

/-- The parameters after a handler that led from one database to the other. -/
def newColumns (w w' : World) (columns : Columns) : Columns :=
  (w'.posts.take (w'.posts.length - w.posts.length)).foldr storeParameters columns

/-- What `execute_transfer_tasks` and `delete_transfer_disks` copy into the infos. -/
def Columns.parameters (columns : Columns) : Parameters where
  sourceEnvironment := columns .sourceEnvironment
  targetEnvironment := ((columns .destinationEnvironment).set "network_map"
    (columns .networkMap)).set "storage_mappings" (columns .storageMappings)
  userScripts := fun _ => columns .userScripts

/-- The parameters after a request: `update_transfer` sets the scripts at once. -/
def Columns.request (columns : Columns) : Request → Columns
  | .updateTransfer updatedProperties =>
    match updatedProperties.get? "user_scripts" with
    | some scripts => if scripts.truthy then Function.update columns .userScripts scripts else columns
    | none => columns
  | _ => columns

def proposed (updatedProperties : TaskInfo) : TaskInfo :=
  updatedProperties.map fun (key, value) =>
    (if key = "destination_environment" then "target_environment" else key, value)

/-- A transfer with its parameters, and the requests its executions were made for. -/
structure Transfer where
  action : TransferAction
  columns : Columns
  requests : List Request

namespace Transfer

/-- A call on the execution `x` at place `i`, with what it stores in the transfer. -/
def call (conf : Conf) (env : Env) (i : Nat) (x : Record) (c : Call) (T : Transfer) : Transfer where
  action := T.action.call conf env i x c
  columns := newColumns (T.action.world x) (step x.execution conf env c (T.action.world x)).2
    T.columns
  requests := T.requests

/-- A handler call on a transfer. `req` and `rep` say which requests and which calls on
executions there are; deployments set the volumes of an instance. -/
inductive Step (conf : Conf) (req : Transfer → Request → Prop)
    (rep : Transfer → Record → Call → Prop) : Transfer → Transfer → Prop
  | call {T env i x c} (hc : T.action.Takes castOnly i x c) (hrep : rep T x c) :
      Step conf req rep T (T.call conf env i x c)
  | start {T r res a} (hr : r.type ≠ .deployment) (hidle : T.action.isIdle = true)
      (h : T.action.Starts r T.action.info res a)
      (hinfo : ∀ inst ∈ T.action.instances,
        a.info inst = some (r.infoFor T.action.info T.columns.parameters inst))
      (hreq : req T r) :
      Step conf req rep T ⟨a, T.columns.request r, T.requests ++ [r]⟩
  | volumes {T ev} :
      Step conf req rep T { T with
        action := { T.action with info := System.parentInfo ev T.action.info } }

end Transfer

lemma newColumns_of_posts_eq (h : w'.posts = w.posts) (columns : Columns) :
    newColumns w w' columns = columns := by
  simp [newColumns, h]

lemma newColumns_cons (h : w'.posts = ev :: w.posts) (columns : Columns) :
    newColumns w w' columns = storeParameters ev columns := by
  simp [newColumns, h]

/-- A completion that has parameters stored. -/
structure Stores (e : Execution) (w : World) (t : Task) (result : TaskInfo) (info : TaskInfo)
    (s : TaskStatus) (w₂ : World) : Prop where
  type : t.taskType = .updateDestinationTransfer
  taken : ∃ details, completionStatus (w.rows t.id) = some (s, details) ∧
    storeTaskResult t result ((w.emit (.taskCompleted t.id)).setTaskStatus t.id s details) =
      (.ok info, w₂)
  last : otherTasksRunning e w₂ t = false

lemma step_columns (c : Call) (columns : Columns) :
    newColumns w (step e conf env c w).2 columns = columns ∨
      ∃ t result info s w₂, c = .taskCompleted t result ∧ Stores e w t result info s w₂ ∧
        newColumns w (step e conf env c w).2 columns = updateColumns info columns := by
  by_cases hbooks : c.keepsBooks = false
  · exact .inl (newColumns_of_posts_eq (step_writes hbooks).posts columns)
  cases c with
  | confirmMinionsAllocation l =>
    exact .inl (newColumns_of_posts_eq (confirmMinionsAllocation_posts l) columns)
  | taskCompleted t result =>
    rcases @taskCompleted_posts e conf env w t result with
      h | ⟨s, details, info, w₁, a, hc, hres, h, ha⟩
    · exact .inl (newColumns_of_posts_eq h columns)
    by_cases hv : ∃ v, a = .updateTransfer v
    · obtain ⟨v, rfl⟩ := hv
      obtain ⟨hty, hother, rfl⟩ := ha v rfl
      exact .inr ⟨t, result, v, s, w₁, rfl, ⟨hty, ⟨details, hc, hres⟩, hother⟩,
        newColumns_cons h columns⟩
    · refine .inl ((newColumns_cons h columns).trans ?_)
      unfold storeParameters
      split
      · rename_i heq
        exact absurd ⟨_, by simpa using heq⟩ hv
      · rfl
  | _ => simp [Call.keepsBooks] at hbooks

def World.value? (w : World) (inst key : String) : Option Json :=
  (w.info inst).bind (·.get? key)

lemma updateInfo_value? (inst inst' key : String) (new : TaskInfo) :
    (w.updateTransferActionInfoForInstance inst new).2.value? inst' key =
      if inst' = inst then (new.get? key).or (w.value? inst key) else w.value? inst' key := by
  simp only [World.updateTransferActionInfoForInstance]
  split
  · rename_i hnil
    rw [List.isEmpty_iff.mp hnil]
    split
    · rename_i h
      rw [h]
      rfl
    · rfl
  · by_cases h : inst' = inst
    · subst h
      simp only [World.value?, Function.update_self, Option.bind_some, if_true,
        TaskInfo.get?_update]
      cases w.info inst' <;> rfl
    · simp [World.value?, h]

lemma updateVolumesInfo_value? (info : TaskInfo) (hkey : key ≠ "volumes_info") :
    (updateVolumesInfo t info w).value? inst key =
      w.value? inst key := by
  rw [updateVolumesInfo, updateInfo_value?]
  split
  · rename_i h
    have : (key == "volumes_info") = false := by simpa using hkey
    simp [TaskInfo.get?, List.lookup_cons, this, h]
  · rfl

lemma PostTask.value? (h : PostTask e t x info w w') (hkey : key ≠ "volumes_info") :
    w'.value? inst key = w.value? inst key := by
  cases h with
  | nothing | action => rfl
  | volumes | parameters => exact updateVolumesInfo_value? info hkey

lemma storeTaskResult_value? (h : storeTaskResult t result w = (res, w')) (inst key : String) :
    w'.value? inst key =
      if inst = t.inst then (result.get? key).or (w.value? inst key) else w.value? inst key := by
  obtain rfl : (storeTaskResult t result w).2 = w' := congrArg Prod.snd h
  simp only [storeTaskResult]
  split
  · rename_i hnil
    rw [List.isEmpty_iff.mp hnil]
    split <;> split <;> rfl
  · rw [updateInfo_value?]
    split
    · rename_i h
      rw [h]
    · rfl

lemma taskCompleted_value? (result : TaskInfo) (hkey : key ≠ "volumes_info")
    (hv : (taskCompleted e conf env t result w).2.value? inst key = some v) :
    w.value? inst key = some v ∨ t.inst = inst ∧ result.get? key = some v := by
  have hstored : ∀ {s details res w₁}, storeTaskResult t result
      ((w.emit (.taskCompleted t.id)).setTaskStatus t.id s details) = (res, w₁) →
      w₁.value? inst key = some v →
      w.value? inst key = some v ∨ t.inst = inst ∧ result.get? key = some v := by
    intro s details res w₁ hres hv
    rw [storeTaskResult_value? hres] at hv
    split at hv
    · rename_i hi
      rcases Option.or_eq_some_iff.mp hv with h | ⟨-, h⟩
      · exact .inr ⟨hi.symm, h⟩
      · exact .inl h
    · exact .inl hv
  cases @taskCompleted_completion e conf env w t result with
  | dropped _ h =>
    rw [h] at hv
    exact .inl hv
  | raised _ hres => exact hstored hres hv
  | @taken s details info w₁ w₂ _ hres hpost h =>
    have hinfo : (taskCompleted e conf env t result w).2.info = w₂.info := by
      rcases h with ⟨h, -⟩ | h <;> rw [h]
      exact Writes.advanceExecutionState.info
    refine hstored hres ?_
    rw [← hpost.value? hkey, World.value?, ← hinfo]
    exact hv

lemma step_value? (hkey : key ≠ "volumes_info") (hm : c.forMinions = false)
    (hv : (step e conf env c w).2.value? inst key = some v) :
    w.value? inst key = some v ∨
      ∃ t result, c = .taskCompleted t result ∧ t.inst = inst ∧ result.get? key = some v := by
  by_cases hbooks : c.keepsBooks = false
  · have hinfo : (step e conf env c w).2.info = w.info := (step_writes hbooks).info
    rw [World.value?, hinfo] at hv
    exact .inl hv
  cases c with
  | confirmMinionsAllocation l => simp [Call.forMinions] at hm
  | taskCompleted t result =>
    exact (taskCompleted_value? result hkey hv).imp_right fun h => ⟨t, result, rfl, h⟩
  | _ => simp [Call.keepsBooks] at hbooks

lemma Stores.kept (h : Stores e w t result info s w₂) :
    w₂.st = Function.update w.st t.id s ∧ w₂.status = w.status := by
  obtain ⟨details, -, hres⟩ := h.taken
  have hkept := storeTaskResult_kept hres
  exact ⟨hkept.st.trans (World.st_setTaskStatus ..), hkept.status⟩

/-- The task whose completion has the parameters stored is the last one of an active update,
which is COMPLETED after it. -/
lemma Stores.completed (h : Stores e w t result info s w₂) (hs : Steady e w) (wf : WellFormed e)
    (hno : ∀ u ∈ e.tasks, w.st u.id ≠ .onErrorOnly) (hchild : ∀ u ∈ e.tasks, t.id ∉ u.dependsOn)
    (ht : t ∈ e.tasks) (hcast : castOnly w (.completion t)) (hact : w.status.isActive = true)
    (hcond : updatesUndisturbed e ⟨.taskCompleted t.id, w.status, w.st⟩ = true) :
    (taskCompleted e conf env t result w).2.status = .completed := by
  obtain ⟨hst₂, hstatus₂⟩ := h.kept
  obtain ⟨details, hc, hres⟩ := h.taken
  have hall := hs.update_last wf hno h.type hchild ht hcast hcond hc hst₂ h.last
  have hkept : Bookkeeping w₂ ((updateVolumesInfo t info w₂).emit
      (.postTaskAction (.updateTransfer info))) :=
    (Bookkeeping.updateInfo w₂ _ _).trans (.postTaskAction _ _)
  have hw : (taskCompleted e conf env t result w).2 =
      (advanceExecutionState e env w₂ false (some t.inst)
        ((updateVolumesInfo t info w₂).emit (.postTaskAction (.updateTransfer info)))).2 := by
    simp only [taskCompleted, hc, hres, handlePostTaskActions, h.type, h.last]
    rfl
  rw [hw]
  generalize (updateVolumesInfo t info w₂).emit (.postTaskAction (.updateTransfer info)) = w₃
    at hkept
  have hall₃ : ∀ u ∈ e.tasks, w₃.st u.id = .completed := by
    rw [hkept.st]
    exact hall
  have hns : ∀ u ∈ e.tasks, w₃.st u.id ≠ .scheduled := fun u hu => by simp [hall₃ u hu]
  obtain ⟨hpath, hcalm⟩ := @advanceExecutionState_active e plainConf True (fun _ _ => False) env w₃
    (fun _ => wf) (some t.inst) w₂ false (by rw [hkept.status, hstatus₂, hact]) hkept.st.symm
    hkept.status.symm (fun _ u hu hsch => absurd hsch (hns u hu))
    (fun _ u hu _ hsch => absurd hsch (hns u hu))
  have hcalm := hcalm trivial (List.ne_nil_of_mem (self_mem_tasksToProcess ht))
  -- what is COMPLETED stays so, and then the execution has nothing to show but that
  have hall' : ∀ u ∈ e.tasks, (advanceExecutionState e env w₂ false (some t.inst) w₃).2.st u.id =
      .completed := fun u hu => by
    rw [hpath.settled hu (by rw [hall₃ u hu]; rfl) fun _ h => h, hall₃ u hu]
  rcases hcalm.cases with ⟨-, u, hu, hact'⟩ | ⟨hover, -⟩
  · rw [hall' u hu] at hact'
    cases hact'
  · rcases getExecutionStatus_undisturbed (fun u hu => by rw [hall' u hu]; rfl) with hg | hg | hg
    · exact absurd (hcalm.status.trans hg) hcalm.notDeadlocked
    · simp [hcalm.status, hg] at hover
    · exact hcalm.status.trans hg

lemma Stores.not_closed (h : Stores e w t result info s w₂) (hclosed : Closed e w)
    (ht : t ∈ e.tasks) (hcast : castOnly w (.completion t))
    (hcond : updatesUndisturbed e ⟨.taskCompleted t.id, w.status, w.st⟩ = true) : False := by
  obtain ⟨details, hc, -⟩ := h.taken
  have hfin : (w.st t.id).isFinalized = true := (hclosed.tasks t ht).resolve_right fun h => h.2 hcast
  rcases updatesUndisturbed_cases ht h.type hcond with hset | ⟨u, hu, -, hact⟩ | hun
  · rw [completionStatus_of_isSettled hset] at hc
    simp at hc
  · rcases hclosed.tasks u hu with hu' | ⟨hu', -⟩
    · rw [TaskStatus.not_isActive_of_isFinalized hu'] at hact
      cases hact
    · rw [hu'] at hact
      cases hact
  · -- only a refused cancellation leaves a finalized task that is not over for good
    have hst := hun t ht
    have hns : (w.st t.id).isSettled = false := by
      by_contra hset
      have hset : (w.rows t.id).status.isSettled = true := Bool.not_eq_false _ ▸ hset
      rw [completionStatus_of_isSettled hset] at hc
      simp at hc
    revert hfin hst hns
    cases w.st t.id <;> decide

lemma Request.block_update (r : Request) (hr : r.type ≠ .deployment)
    (hu : ∀ updatedProperties, r ≠ .updateTransfer updatedProperties) (inst : String) :
    ∀ b ∈ r.block inst, b.task.taskType ≠ .updateDestinationTransfer := by
  cases r with
  | executeTransferTasks origin destination shutdown =>
    clear hr hu
    revert origin destination shutdown
    simp only [Request.block]
    decide
  | deleteTransferDisks =>
    simp only [Request.block]
    decide
  | updateTransfer updatedProperties => exact absurd rfl (hu updatedProperties)
  | executeDeployment => exact absurd rfl hr

lemma Built.update_only (hb : Built r before e w) (hr : r.type ≠ .deployment) (ht : t ∈ e.tasks)
    (hty : t.taskType = .updateDestinationTransfer) :
    ∃ updatedProperties, r = .updateTransfer updatedProperties := by
  obtain ⟨inst, -, n, -, b, hbm, rfl⟩ := hb.task ht
  by_contra hu
  exact r.block_update hr (fun updatedProperties h => hu ⟨updatedProperties, h⟩) inst b hbm hty

lemma Built.inst_mem (hb : Built r before e w) (ht : t ∈ e.tasks) : t.inst ∈ e.instances := by
  obtain ⟨inst, hi, n, -, b, -, rfl⟩ := hb.task ht
  exact r.processed_subset hi

lemma storeTaskResult_info (h : storeTaskResult t result w = (.ok info, w')) :
    w'.info t.inst = some info := by
  simp only [storeTaskResult] at h
  split at h
  · split at h
    · rename_i hinfo
      simp only [Prod.mk.injEq, Except.ok.injEq] at h
      rw [← h.2, hinfo, h.1]
    · simp at h
  · rename_i hne
    simp only [Prod.mk.injEq, Except.ok.injEq] at h
    rw [← h.2, ← h.1]
    simp [World.updateTransferActionInfoForInstance, hne]

namespace Transfer

def value? (T : Transfer) (inst key : String) : Option Json :=
  (T.action.info inst).bind (·.get? key)

/-- The infos hold for each parameter its value on the transfer or the one that was proposed
for it. -/
def Parked (T : Transfer) (updatedProperties : TaskInfo) : Prop :=
  ∀ inst ∈ T.action.instances, ∀ f ∈ TransferField.updateableFields, ∀ v,
    T.value? inst f.infoKey = some v →
      v = T.columns f ∨ (proposed updatedProperties).get? f.infoKey = some v

/-- An update finds no value in the infos, for parameters it does not name, that the transfer
does not have, and it leaves the scripts as they are. -/
def CleanRequest (T : Transfer) (r : Request) : Prop :=
  ∀ updatedProperties, r = .updateTransfer updatedProperties →
    (∀ scripts, updatedProperties.get? "user_scripts" = some scripts → scripts.truthy →
      TransferField.userScripts.read scripts =
        TransferField.userScripts.read (T.columns .userScripts)) ∧
      ∀ inst ∈ T.action.instances, ∀ f ∈ TransferField.updateableFields,
        (proposed updatedProperties).get? f.infoKey = none →
          ∀ v, T.value? inst f.infoKey = some v → v = T.columns f

/-- A completed task returns parameters as it found them, and the update of a destination
completes last only if nothing of its execution went wrong. -/
def CleanReport (T : Transfer) (x : Record) (c : Call) : Prop :=
  ∀ t result, c = .taskCompleted t result →
    updatesUndisturbed x.execution ⟨.taskCompleted t.id, x.status, (T.action.world x).st⟩ = true ∧
      ∀ f ∈ TransferField.updateableFields, ∀ v, result.get? f.infoKey = some v →
        v = T.columns f ∨ T.value? t.inst f.infoKey = some v

/-- The execution at place `i` and the request it was made for. -/
structure Tracks (T : Transfer) (i : Nat) (x : Record) (r : Request) : Prop where
  type : r.type ≠ .deployment
  instances : x.execution.instances = T.action.instances
  built : ∃ before w₀, Built r before x.execution w₀
  update : ∀ U, r = .updateTransfer U → x.status ≠ .awaitingMinionAllocations ∧
    (∀ t ∈ x.execution.tasks, (x.rows t.id).status ≠ .onErrorOnly) ∧
    (T.action.records.length = i + 1 → x.status.isActive = true → T.Parked U)

structure Tracked (T : Transfer) : Prop where
  orderly : T.action.Orderly
  length : T.requests.length = T.action.records.length
  tracks : ∀ i x r, T.action.records[i]? = some x → T.requests[i]? = some r → T.Tracks i x r

lemma updateColumns_ne {columns : Columns} (h : updateColumns values columns f ≠ columns f) :
    f ∈ TransferField.updateableFields ∧
      values.get? f.infoKey = some (updateColumns values columns f) := by
  unfold updateColumns at h ⊢
  split at h
  · rename_i hf
    cases hv : values.get? f.infoKey with
    | none => simp [hv] at h
    | some v => simp [hf]
  · exact absurd rfl h

lemma request_cases (columns : Columns) (r : Request) :
    columns.request r = columns ∨ ∃ U scripts, r = .updateTransfer U ∧
      U.get? "user_scripts" = some scripts ∧ scripts.truthy ∧
        columns.request r = Function.update columns .userScripts scripts := by
  cases r with
  | updateTransfer U =>
    cases hscripts : U.get? "user_scripts" with
    | none => simp [Columns.request, hscripts]
    | some scripts => by_cases htruthy : scripts.truthy <;> simp [Columns.request, hscripts, htruthy]
  | _ => exact .inl rfl

lemma request_updateable (columns : Columns) (r : Request)
    (hf : f ∈ TransferField.updateableFields) : columns.request r f = columns f := by
  rcases request_cases columns r with heq | ⟨U, scripts, -, -, -, heq⟩ <;> rw [heq]
  refine Function.update_of_ne ?_ scripts columns
  rintro rfl
  simp [TransferField.updateableFields] at hf

lemma read_request {T : Transfer} {r : Request} (hreq : T.CleanRequest r) (f : TransferField) :
    f.read (T.columns.request r f) = f.read (T.columns f) := by
  rcases request_cases T.columns r with heq | ⟨U, scripts, rfl, hscripts, htruthy, heq⟩ <;> rw [heq]
  by_cases hf : f = .userScripts
  · rw [hf, Function.update_self]
    exact (hreq U rfl).1 scripts hscripts htruthy
  · rw [Function.update_of_ne hf]

namespace Tracked

variable {i : Nat}

lemma request (h : Tracked T) (hx : T.action.records[i]? = some x) :
    ∃ r, T.requests[i]? = some r := by
  have hi := (List.getElem?_eq_some_iff.mp hx).1
  exact ⟨_, List.getElem?_eq_getElem (h.length ▸ hi)⟩

lemma call_columns (h : Tracked T) (hc : T.action.Takes castOnly i x c) (hrep : T.CleanReport x c)
    (hf : (T.call conf env i x c).columns f ≠ T.columns f) :
    ∃ U, T.requests[i]? = some (.updateTransfer U) ∧ x.status.isActive = true ∧
      (step x.execution conf env c (T.action.world x)).2.status = .completed ∧
      (proposed U).get? f.infoKey = some ((T.call conf env i x c).columns f) := by
  change newColumns _ _ _ f ≠ _ at hf
  change ∃ U, _ ∧ _ ∧ _ ∧ _ = some (newColumns _ _ _ f)
  rcases @step_columns x.execution conf env (T.action.world x) c T.columns with
    hcol | ⟨t, result, info, s, w₂, rfl, hst, hcol⟩
  · exact absurd (congrFun hcol f) hf
  rw [hcol] at hf ⊢
  obtain ⟨ht, hcast⟩ := hc.report _ rfl
  obtain ⟨hcond, hres⟩ := hrep t result rfl
  obtain ⟨r, hr⟩ := h.request hc.found
  obtain ⟨htype, hinst, ⟨before, w₀, hb⟩, hupdate⟩ := h.tracks i x r hc.found hr
  obtain ⟨U, rfl⟩ := hb.update_only htype ht hst.type
  obtain ⟨-, hquiet, hparked⟩ := hupdate U rfl
  have hact : x.status.isActive = true := by
    by_contra hover
    exact hst.not_closed (h.orderly.closed hc.found (by simpa using hover)) ht hcast hcond
  have hlast := h.orderly.sound.newest hc.found hact
  have hlive := h.orderly.newest i x hc.found hlast
  refine ⟨U, hr, hact, ?_, ?_⟩
  · exact hst.completed hlive.steady hlive.wellFormed hquiet
      (fun u hu hd => (hb.update_parents hu).2 t ht hd hst.type) ht hcast hact hcond
  obtain ⟨hmem, hget⟩ := updateColumns_ne hf
  generalize updateColumns info T.columns f = v at hf hget
  obtain ⟨details, -, hstored⟩ := hst.taken
  have hv : w₂.value? t.inst f.infoKey = some v := by
    rw [World.value?, storeTaskResult_info hstored]
    exact hget
  have hw₂ := storeTaskResult_value? hstored t.inst f.infoKey
  rw [hv, if_pos rfl, eq_comm, Option.or_eq_some_iff] at hw₂
  have hinst : t.inst ∈ T.action.instances := hinst ▸ hb.inst_mem ht
  have hfound : T.value? t.inst f.infoKey = some v → (proposed U).get? f.infoKey = some v :=
    fun hv => (hparked hlast hact t.inst hinst f hmem v hv).resolve_left hf
  rcases hw₂ with hv | ⟨-, hv⟩
  · exact hfound ((hres f hmem v hv).resolve_left hf)
  · exact hfound hv

/-- A call that stores nothing leaves the infos of an active update with what it proposed. -/
lemma parked_call (h : Tracked T) (hc : T.action.Takes castOnly i x c) (hrep : T.CleanReport x c)
    (hmin : c.forMinions = true → x.status ≠ .awaitingMinionAllocations)
    (hcol : (T.call conf env i x c).columns = T.columns) (hp : T.Parked U) :
    (T.call conf env i x c).Parked U := by
  intro inst hinst f hf v hv
  have hv : (step x.execution conf env c (T.action.world x)).2.value? inst f.infoKey = some v := hv
  rw [hcol]
  by_cases hm : c.forMinions = true
  · -- an update does not wait for minions, and so they are not confirmed
    rw [step_forMinions hm fun hl =>
      hmin hm (h.orderly.sound.lastOk hc.found (hc.newest hm) hl)] at hv
    exact hp inst hinst f hf v hv
  · rcases step_value? f.infoKey_ne_volumes (by simpa using hm) hv with
      hold | ⟨t, result, hc', rfl, hres⟩
    · exact hp inst hinst f hf v hold
    · exact ((hrep t result hc').2 f hf v hres).elim .inl (hp t.inst hinst f hf v)

lemma call (h : Tracked T) (hc : T.action.Takes castOnly i x c) (hrep : T.CleanReport x c) :
    Tracked (T.call conf env i x c) := by
  refine ⟨h.orderly.call hc, h.length.trans TransferAction.length_call.symm,
    fun j y r hy hr => ?_⟩
  rcases TransferAction.records_call hc.found hy with ⟨rfl, rfl⟩ | ⟨hji, hy⟩
  · obtain ⟨htype, hinst, hb, hupdate⟩ := h.tracks j x r hc.found hr
    refine ⟨htype, hinst, hb, fun U hU => ?_⟩
    obtain ⟨hs, hno, hparked⟩ := hupdate U hU
    have hpath : Changes x.execution conf False castOnly (T.action.world x)
        (step x.execution conf env c (T.action.world x)).2 := h.orderly.sound.step_changes hc
    refine ⟨hpath.invariant (fun _ _ h => h.status_ne (.inr (.inl rfl))) hs,
      fun t ht hst => hno t ht (hpath.onErrorOnly ht hst), fun hj hact => ?_⟩
    refine h.parked_call hc hrep (fun _ => hs) ?_ (hparked (TransferAction.length_call.symm.trans hj)
      (by_contra fun hover => ?_))
    · -- a call that stores parameters completes the newest execution
      funext f
      by_contra hne
      obtain ⟨-, -, -, hdone, -⟩ := h.call_columns hc hrep hne
      exact absurd (hact.symm.trans (congrArg ExecutionStatus.isActive hdone)) (by decide)
    · exact absurd (hact.symm.trans (h.orderly.sound.step_inactive hc (by simpa using hover)))
        (by decide)
  · obtain ⟨htype, hinst, hb, hupdate⟩ := h.tracks j y r hy hr
    refine ⟨htype, hinst, hb, fun U hU => ?_⟩
    obtain ⟨hs, hno, hparked⟩ := hupdate U hU
    refine ⟨hs, hno, fun hj hact => ?_⟩
    replace hj : T.action.records.length = j + 1 := TransferAction.length_call.symm.trans hj
    refine h.parked_call hc hrep (fun hm => ?_) ?_ (hparked hj hact)
    · have := hc.newest hm
      omega
    · funext f
      by_contra hne
      obtain ⟨-, -, hx, -, -⟩ := h.call_columns hc hrep hne
      have := h.orderly.sound.newest hc.found hx
      omega

lemma volumes (h : Tracked T) (ev : Event) : Tracked { T with
    action := { T.action with info := System.parentInfo ev T.action.info } } := by
  have hkey : ∀ {inst key : String}, key ≠ "volumes_info" →
      ((System.parentInfo ev T.action.info) inst).bind (·.get? key) = T.value? inst key := by
    intro inst key hkey
    rcases System.parentInfo_cases ev T.action.info with h | ⟨inst', volumesInfo, h⟩ <;> rw [h]
    · rfl
    by_cases hi : inst = inst'
    · subst hi
      have : (key == "volumes_info") = false := by simpa using hkey
      rw [Function.update_self, Option.bind_some, TaskInfo.get?_update, value?]
      cases T.action.info inst <;> simp [TaskInfo.get?, List.lookup_cons, this]
    · rw [Function.update_of_ne hi, value?]
  refine ⟨?_, h.length, fun i x r hx hr => ?_⟩
  · exact h.orderly.interfere ⟨h.orderly.sound.older, h.orderly.sound.last⟩ rfl
      (System.parentInfo_info ev)
  · obtain ⟨htype, hinst, hb, hupdate⟩ := h.tracks i x r hx hr
    refine ⟨htype, hinst, hb, fun U hU => ⟨(hupdate U hU).1, (hupdate U hU).2.1,
      fun hi hact inst hinst f hf v hv => ?_⟩⟩
    exact (hupdate U hU).2.2 hi hact inst hinst f hf v ((hkey f.infoKey_ne_volumes).symm.trans hv)

lemma parked_start {T : Transfer} {a : TransferAction}
    (hinfo : ∀ inst ∈ T.action.instances, a.info inst =
      some ((Request.updateTransfer U).infoFor T.action.info T.columns.parameters inst))
    (hreq : T.CleanRequest (.updateTransfer U)) (hi : a.instances = T.action.instances) :
    Parked ⟨a, T.columns.request (.updateTransfer U), l⟩ U := by
  intro inst hinst f hf v hv
  replace hinst : inst ∈ T.action.instances := hi ▸ hinst
  change v = T.columns.request (.updateTransfer U) f ∨ _
  rw [request_updateable T.columns _ hf]
  have hv : (((T.action.info inst).getD []).update (proposed U)).get? f.infoKey = some v := by
    rw [value?, hinfo inst hinst] at hv
    exact hv
  rw [TaskInfo.get?_update, Option.or_eq_some_iff] at hv
  rcases hv with hv | ⟨hno, hv⟩
  · exact .inr hv
  · refine .inl ((hreq U rfl).2 inst hinst f hf hno v ?_)
    rw [value?]
    cases hinst' : T.action.info inst with
    | none => simp [hinst', TaskInfo.get?] at hv
    | some info => simpa [hinst'] using hv

lemma start {r : Request} (h : Tracked T) (hr : r.type ≠ .deployment)
    (hidle : T.action.isIdle = true) (hs : T.action.Starts r T.action.info res a)
    (hinfo : ∀ inst ∈ T.action.instances,
      a.info inst = some (r.infoFor T.action.info T.columns.parameters inst))
    (hreq : T.CleanRequest r) : Tracked ⟨a, T.columns.request r, T.requests ++ [r]⟩ := by
  have horderly := h.orderly.starts hr hidle hs
  obtain ⟨e, w, hl, hi, rfl⟩ := hs.launched
  obtain ⟨w₀, hb, hpath, -⟩ := hl.start plainConf
  have hnew : (T.requests ++ [r])[T.action.records.length]? = some r := by
    rw [← h.length]
    exact List.getElem?_concat_length
  refine ⟨horderly, by simp [TransferAction.add, h.length], fun j y r' hy hr' => ?_⟩
  rcases TransferAction.records_add hy with ⟨rfl, rfl⟩ | hy
  · rw [hnew, Option.some.injEq] at hr'
    subst hr'
    refine ⟨hr, hi, ⟨_, w₀, hb⟩, ?_⟩
    rintro U rfl
    refine ⟨hpath.invariant (fun _ _ h => h.status_ne (.inr (.inl rfl))) ?_, fun t ht hst => ?_,
      fun _ _ => parked_start hinfo hreq rfl⟩
    · simp [hb.status_eq, Request.awaitsMinions]
    · rcases hb.statuses ht with h' | ⟨-, h'⟩
      · rw [hpath.onErrorOnly ht hst] at h'
        cases h'
      · simp [(hb.update_parents ht).1] at h'
  · have hlt := (List.getElem?_eq_some_iff.mp hy).1
    obtain ⟨htype, hinst, hb, hupdate⟩ := h.tracks j y r' hy
      ((List.getElem?_append_left (h.length ▸ hlt)).symm.trans hr')
    refine ⟨htype, hinst, hb, fun U hU => ⟨(hupdate U hU).1, (hupdate U hU).2.1, fun hj => ?_⟩⟩
    simp [TransferAction.add] at hj
    omega

end Tracked

variable {T T' : Transfer}

lemma Step.tracked (h : Step conf CleanRequest CleanReport T T') (hT : Tracked T) :
    Tracked T' := by
  cases h with
  | call hc hrep => exact hT.call hc hrep
  | start hr hidle h hinfo hreq => exact hT.start hr hidle h hinfo hreq
  | volumes => exact hT.volumes _

abbrev Run (conf : Conf) (req : Transfer → Request → Prop)
    (rep : Transfer → Record → Call → Prop) : Transfer → Transfer → Prop :=
  Relation.ReflTransGen (Step conf req rep)

def new (instances : List String) (columns : Columns) : Transfer :=
  ⟨(System.new instances).transfer, columns, []⟩

lemma Run.tracked {columns : Columns}
    (h : Run conf CleanRequest CleanReport (new instances columns) T) : Tracked T := by
  induction h with
  | refl => exact ⟨⟨(System.sound_new instances).transfer, by simp [new, System.new],
      by simp [new, System.new]⟩, rfl, by simp [new, System.new]⟩
  | tail _ hstep ih => exact hstep.tracked ih

/-- The execution at place `i` was made for an update, and it is COMPLETED. -/
def Completed (T : Transfer) (i : Nat) (updatedProperties : TaskInfo) : Prop :=
  T.requests[i]? = some (.updateTransfer updatedProperties) ∧
    ∃ x, T.action.records[i]? = some x ∧ x.status = .completed

lemma Step.completed (h : Step conf CleanRequest CleanReport T T') (hT : Tracked T)
    (hU : T.Completed i U) : T'.Completed i U := by
  obtain ⟨hr, x, hx, hdone⟩ := hU
  cases h with
  | @call env j y c hc hrep =>
    refine ⟨hr, ?_⟩
    by_cases hij : j = i
    · subst hij
      obtain rfl : y = x := Option.some.inj (hc.found.symm.trans hx)
      refine ⟨_, List.getElem?_set_self (List.getElem?_eq_some_iff.mp hx).1, ?_⟩
      exact (hT.orderly.status_call hc (by rw [hdone]; rfl)).trans hdone
    · exact ⟨x, (List.getElem?_set_ne hij).trans hx, hdone⟩
  | start hr' hidle h hinfo hreq =>
    obtain ⟨e, w, -, -, rfl⟩ := h.launched
    refine ⟨?_, x, ?_, hdone⟩
    · rw [← hr]
      exact List.getElem?_append_left (List.getElem?_eq_some_iff.mp hr).1
    · rw [← hx]
      exact List.getElem?_append_left (List.getElem?_eq_some_iff.mp hx).1
  | volumes => exact ⟨hr, x, hx, hdone⟩

/-- A clean step changes a parameter only where it completes an update that proposed the
value. -/
lemma Step.columns_ne (h : Step conf CleanRequest CleanReport T T') (hT : Tracked T)
    (hf : f.read (T'.columns f) ≠ f.read (T.columns f)) :
    ∃ i x U, T.action.records[i]? = some x ∧ x.status.isActive = true ∧ T'.Completed i U ∧
      (proposed U).get? f.infoKey = some (T'.columns f) := by
  cases h with
  | @call env i x c hc hrep =>
    obtain ⟨U, hr, hact, hdone, hv⟩ := hT.call_columns hc hrep fun heq => hf (by rw [heq])
    refine ⟨i, x, U, hc.found, hact, ⟨hr, _, List.getElem?_set_self ?_, hdone⟩, hv⟩
    exact (List.getElem?_eq_some_iff.mp hc.found).1
  | start hr hidle h hinfo hreq => exact absurd (read_request hreq f) hf
  | volumes => exact absurd rfl hf

/-- Over all updates and executions of a transfer: where every update names what the infos
hold of an earlier one, leaves the scripts and is stored only when nothing of it went wrong, each
parameter is the first one or was proposed by an update that completed. A call changes a
parameter only by completing an update that proposed it. -/
theorem parameters_of_completed_updates (conf : Conf) (instances : List String) (columns : Columns)
    (T : Transfer) (h : Run conf CleanRequest CleanReport (new instances columns) T)
    (f : TransferField) :
    (f.read (T.columns f) = f.read (columns f) ∨ ∃ i U v, T.Completed i U ∧
      (proposed U).get? f.infoKey = some v ∧ f.read (T.columns f) = f.read v) ∧
    ∀ T', Step conf CleanRequest CleanReport T T' → f.read (T'.columns f) ≠ f.read (T.columns f) →
      ∃ i x U, T.action.records[i]? = some x ∧ x.status.isActive = true ∧ T'.Completed i U ∧
        (proposed U).get? f.infoKey = some (T'.columns f) := by
  refine ⟨?_, fun T' hstep hf => hstep.columns_ne h.tracked hf⟩
  induction h with
  | refl => exact .inl rfl
  | @tail T₁ T₂ hrun hstep ih =>
    by_cases hf : f.read (T₂.columns f) = f.read (T₁.columns f)
    · rw [hf]
      exact ih.imp_right fun ⟨i, U, v, hU, hv⟩ =>
        ⟨i, U, v, hstep.completed (Run.tracked hrun) hU, hv⟩
    · obtain ⟨i, -, U, -, -, hU, hv⟩ := hstep.columns_ne (Run.tracked hrun) hf
      exact .inr ⟨i, U, _, hU, hv, rfl⟩

def update (updatedProperties : TaskInfo) (T : Transfer) : Transfer :=
  ⟨T.action.start (.updateTransfer updatedProperties) T.action.info,
    T.columns.request (.updateTransfer updatedProperties),
    T.requests ++ [.updateTransfer updatedProperties]⟩

def updatable (updatedProperties : TaskInfo) (T : Transfer) : Bool :=
  T.action.isIdle && (T.action.instances.all fun inst => (T.action.info inst).isSome) &&
    T.action.startable (.updateTransfer updatedProperties) T.action.info

lemma step_update (h : updatable U T = true) (hreq : req T (.updateTransfer U)) :
    Step conf req rep T (T.update U) := by
  simp only [updatable, Bool.and_eq_true, List.all_eq_true] at h
  refine .start (by simp [Request.type]) h.1.1 (TransferAction.starts_start h.1.2 h.2)
    (fun inst hinst => ?_) hreq
  -- the infos an update stores do not depend on the parameters of the transfer
  have hinfo : (T.action.start (.updateTransfer U) T.action.info).info =
      (T.action.stored (.updateTransfer U) T.action.info).info := Writes.beginTasks.info
  rw [hinfo]
  exact if_pos hinst

def handle (i : Nat) (T : Transfer) (call : Env × Call) : Transfer :=
  match T.action.records[i]? with
  | some x => T.call plainConf call.1 i x call.2
  | none => T

def isClean (T : Transfer) (x : Record) : Call → Bool
  | .taskCompleted t result => result.isEmpty &&
    updatesUndisturbed x.execution ⟨.taskCompleted t.id, x.status, (T.action.world x).st⟩
  | _ => true

lemma cleanReport_of_isClean (h : T.isClean x c = true) : T.CleanReport x c := by
  rintro t result rfl
  simp only [isClean, Bool.and_eq_true, List.isEmpty_iff] at h
  refine ⟨h.2, fun f _ v hv => ?_⟩
  simp [h.1, TaskInfo.get?] at hv

def takes (i : Nat) (T : Transfer) (c : Call) : Bool :=
  T.action.takes i c && T.action.records[i]?.any (T.isClean · c)

def takesAll (i : Nat) : List (Env × Call) → Transfer → Bool
  | [], _ => true
  | call :: calls, T => takes i T call.2 && takesAll i calls (T.handle i call)

lemma step_handle {call : Env × Call} (h : takes i T call.2 = true) :
    Step plainConf req CleanReport T (T.handle i call) := by
  obtain ⟨htakes, hclean⟩ := Bool.and_eq_true_iff.mp h
  obtain ⟨x, hx, hclean⟩ := (Option.any_eq_true _ _).mp hclean
  simp only [handle, hx]
  exact .call (.of_takes hx htakes) (cleanReport_of_isClean hclean)

lemma run_handle (h : takesAll i calls T = true) :
    Run plainConf req CleanReport T (calls.foldl (handle i) T) := by
  induction calls generalizing T with
  | nil => exact .refl
  | cons call calls ih =>
    simp only [takesAll, Bool.and_eq_true] at h
    exact .head (step_handle h.1) (ih h.2)

/-- The columns of a transfer that was made with the defaults of the API. -/
def created : Columns
  | .notes => .str ""
  | .originMinionPoolId | .destinationMinionPoolId => .null
  | .cloneDisks => .bool true
  | .skipOsMorphing => .bool false
  | _ => .obj []

/-- What the API makes of a request to update such a transfer: the notes and the fields of minion
pools are those of the request, and everything else is named as the transfer has it. -/
def merged (notes : String) (minionPoolFields : TaskInfo) : TaskInfo :=
  let storageMappings := .obj [("backend_mappings", .arr []), ("disk_mappings", .arr [])]
  [("source_environment", .obj []),
    ("destination_environment", .obj [("storage_mappings", storageMappings)]),
    ("network_map", .obj []), ("storage_mappings", storageMappings),
    ("user_scripts", .obj [("global", .obj []), ("instances", .obj [])]), ("notes", .str notes),
    ("clone_disks", .bool true), ("skip_os_morphing", .bool false)] ++ minionPoolFields

def choosePool : TaskInfo := merged "" [("origin_minion_pool_id", .str "pool")]

def annotate : TaskInfo := merged "moved" []

def failed : Transfer :=
  (fails System.updateTasks 0).foldl (handle 0) ((new ["vm"] created).update choosePool)

def annotated : Transfer :=
  ((List.range 3).flatMap (completes System.updateTasks)).foldl (handle 1) (failed.update annotate)

def isText (text : String) : Json → Bool
  | .str s => s == text
  | _ => false

lemma eq_of_isText (h : isText text json = true) :
    json = .str text := by
  cases json with
  | str s => rw [show s = text by simpa [isText] using h]
  | _ => simp [isText] at h

lemma run_annotated : Run plainConf (fun _ _ => True) CleanReport (new ["vm"] created) annotated := by
  have hfailed : Run plainConf (fun _ _ => True) CleanReport
      ((new ["vm"] created).update choosePool) failed := run_handle (by decide)
  have hannotated : Run plainConf (fun _ _ => True) CleanReport (failed.update annotate) annotated :=
    run_handle (by decide)
  exact .head (step_update (by decide) trivial)
    (hfailed.trans (.head (step_update (by decide) trivial) hannotated))

/-- An update to use a minion pool fails. The next update, which is about the notes, completes and
has the pool stored. -/
theorem parameters_of_failed_update :
    Run plainConf (fun _ _ => True) CleanReport (new ["vm"] created) annotated ∧
      annotated.requests = [.updateTransfer choosePool, .updateTransfer annotate] ∧
      annotated.action.records.map (·.status) = [.error, .completed] ∧
      (proposed annotate).get? TransferField.originMinionPoolId.infoKey = none ∧
      created .originMinionPoolId = .null ∧ annotated.columns .originMinionPoolId = .str "pool" :=
  ⟨run_annotated, rfl, by decide, rfl, rfl, eq_of_isText (by decide)⟩

def updatingDestination : Transfer :=
  (completes System.updateTasks 0 ++ completes System.updateTasks 1 ++
    runs System.updateTasks 2).foldl (handle 0) ((new ["vm"] created).update annotate)

def updated : Transfer :=
  updatingDestination.handle 0 (responsive, .taskCompleted System.refusedTask [])

lemma run_updatingDestination :
    Run plainConf CleanRequest CleanReport (new ["vm"] created) updatingDestination := by
  refine .head (step_update (by decide) ?_) (run_handle (by decide))
  rintro U hU
  obtain rfl : annotate = U := by simpa using hU
  refine ⟨fun scripts hscripts _ => ?_, fun inst hinst f hf _ v hv => ?_⟩
  · obtain rfl := Option.some.inj (hscripts.symm.trans rfl)
    rfl
  · obtain rfl : inst = "vm" := by simpa [new, System.new] using hinst
    have : ((new ["vm"] created).value? "vm" f.infoKey).isNone = true := by
      cases f <;> decide
    simp [hv] at this

/-- An update of the notes that completes. -/
theorem parameters_of_completed_updates_annotated :
    (updatingDestination.columns .notes = .str "" ∧ updated.columns .notes = .str "moved") ∧
      ∃ i x U, updatingDestination.action.records[i]? = some x ∧ x.status.isActive = true ∧
        updated.Completed i U ∧
          (proposed U).get? TransferField.notes.infoKey = some (updated.columns .notes) := by
  have hold : updatingDestination.columns .notes = .str "" :=
    eq_of_isText (by decide)
  have hnew : updated.columns .notes = .str "moved" :=
    eq_of_isText (by decide)
  refine ⟨⟨hold, hnew⟩, (parameters_of_completed_updates plainConf ["vm"] created _
    run_updatingDestination .notes).2 updated ?_ (by simp [hold, hnew, TransferField.read])⟩
  exact step_handle (by decide)

end Transfer

end Coriolis.Conductor

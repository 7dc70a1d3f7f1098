import Coriolis.Library.Raising

/-!
# The cron service

The schedules of transfers are stored in the database. The conductor registers them as jobs with
the cron service when they are created or updated, and unregisters them when they are deleted. The
cron service loads them all when it starts, and its janitor drops the jobs that have expired.
-/

namespace Coriolis.TransferCron

open Raising (bind_eq_ok)

abbrev Time := Nat

/-- The fields of a schedule, or of a date: minute, hour, day of the month, month and day of the
week. A schedule matches any value where it has none. -/
structure Pattern (α : Type) where
  minute : α
  hour : α
  dom : α
  month : α
  dow : α
  deriving DecidableEq

/-- `_compare` for all the fields. -/
def Pattern.accepts (schedule : Pattern (Option Nat)) (date : Pattern Nat) : Bool :=
  [(date.minute, schedule.minute), (date.hour, schedule.hour), (date.dom, schedule.dom),
    (date.month, schedule.month), (date.dow, schedule.dow)].all fun pair =>
      pair.2 = none || pair.2 = some pair.1

/-- What a user sets about a schedule. -/
structure Fields where
  schedule : Pattern (Option Nat)
  enabled : Bool
  expirationDate : Option Time
  shutdownInstance : Bool
  autoDeploy : Bool
  deriving DecidableEq

def Fields.isExpired (fields : Fields) (now : Time) : Bool :=
  fields.expirationDate.any (· < now)

/-- A row of `transfer_schedules`. -/
structure TransferSchedule where
  transferId : Nat
  fields : Fields
  deleted : Bool
  deriving DecidableEq

/-- A `CronJob` that triggers a transfer. -/
structure CronJob where
  transferId : Nat
  fields : Fields
  deriving DecidableEq

def CronJob.isExpired (job : CronJob) (now : Time) : Bool := job.fields.isExpired now

def CronJob.shouldRun (job : CronJob) (now : Time) (date : Pattern Nat) : Bool :=
  if job.isExpired now then false
  else if job.fields.enabled = false then false
  else job.fields.schedule.accepts date

def TransferSchedule.job (schedule : TransferSchedule) : CronJob :=
  ⟨schedule.transferId, schedule.fields⟩

/-- The transfers that are not deleted and the schedules in the database, and the jobs of the cron
service, which are named by the ids of the schedules. -/
structure World where
  transfers : Nat → Bool
  schedules : Nat → Option TransferSchedule
  jobs : Nat → Option CronJob

inductive CronError where
  | expirationDateInThePast
  | notFound
  | duplicate
  | invalidTransferState
  deriving DecidableEq

/-- `_validate_expiration_date`. -/
def validateExpirationDate (now : Time) (expirationDate : Option Time) : Except CronError Unit :=
  if expirationDate.any (· < now) then throw .expirationDateInThePast else return ()

/-- `_register_schedule`: a job is put in the place of one with the same name, but a schedule that
has expired is passed over. -/
def registerSchedule (date : Time) (id : Nat) (schedule : TransferSchedule)
    (jobs : Nat → Option CronJob) : Nat → Option CronJob :=
  if schedule.fields.expirationDate.any (· ≤ date) then jobs
  else Function.update jobs id (some schedule.job)

/-- `create_transfer_schedule`, with the times of the API's check and of the registration. -/
def createTransferSchedule (checked registered : Time) (id transferId : Nat) (fields : Fields)
    (w : World) : Except CronError World := do
  validateExpirationDate checked fields.expirationDate
  if w.transfers transferId = false then throw .notFound
  else if (w.schedules id).isSome then throw .duplicate
  else
    let schedule := ⟨transferId, fields, false⟩
    return { w with
      schedules := Function.update w.schedules id (some schedule)
      jobs := registerSchedule registered id schedule w.jobs }

/-- The fields that an update changes. -/
structure Changes where
  schedule : Option (Pattern (Option Nat))
  enabled : Option Bool
  expirationDate : Option (Option Time)
  shutdownInstance : Option Bool
  autoDeploy : Option Bool

def Changes.apply (changes : Changes) (fields : Fields) : Fields where
  schedule := changes.schedule.getD fields.schedule
  enabled := changes.enabled.getD fields.enabled
  expirationDate := changes.expirationDate.getD fields.expirationDate
  shutdownInstance := changes.shutdownInstance.getD fields.shutdownInstance
  autoDeploy := changes.autoDeploy.getD fields.autoDeploy

/-- The schedule with an id, of a transfer, that is not deleted. Whether the transfer is deleted is
not looked at. -/
def World.getTransferSchedule (w : World) (id transferId : Nat) : Option TransferSchedule :=
  (w.schedules id).filter fun schedule => !schedule.deleted && schedule.transferId = transferId

/-- `update_transfer_schedule`. -/
def updateTransferSchedule (checked registered : Time) (id transferId : Nat) (changes : Changes)
    (w : World) : Except CronError World := do
  changes.expirationDate.forM (validateExpirationDate checked)
  match w.getTransferSchedule id transferId with
  | none => throw .notFound
  | some schedule =>
    let schedule := { schedule with fields := changes.apply schedule.fields }
    return { w with
      schedules := Function.update w.schedules id (some schedule)
      jobs := registerSchedule registered id schedule w.jobs }

/-- `delete_transfer_schedule`. -/
def deleteTransferSchedule (busy : Bool) (id transferId : Nat) (w : World) :
    Except CronError World :=
  if w.transfers transferId = false then throw .notFound
  else if busy then throw .invalidTransferState
  else match w.getTransferSchedule id transferId with
    | none => throw .notFound
    | some schedule => return { w with
        schedules := Function.update w.schedules id (some { schedule with deleted := true })
        jobs := Function.update w.jobs id none }

/-- `delete_transfer`, which leaves the schedules and the jobs alone. -/
def deleteTransfer (busy : Bool) (transferId : Nat) (w : World) : Except CronError World :=
  if w.transfers transferId = false then throw .notFound
  else if busy then throw .invalidTransferState
  else return { w with transfers := Function.update w.transfers transferId false }

/-- One pass of `_janitor`. -/
def janitor (now : Time) (w : World) : World :=
  { w with jobs := fun id => (w.jobs id).filter fun job => !job.isExpired now }

/-- `_init_cron`: the schedules that are not deleted and have not expired are registered one after
the other. They have different ids, so that no one takes the place of another. -/
def initCron (started listed : Time) (w : World) : World :=
  { w with jobs := fun id =>
      match w.schedules id with
      | none => none
      | some schedule =>
        if schedule.deleted || schedule.fields.expirationDate.any (· ≤ listed) then none
        else registerSchedule started id schedule (fun _ => none) id }

/-- What happens to the schedules, with the times at which it does. -/
inductive Operation where
  | create (checked registered : Time) (id transferId : Nat) (fields : Fields)
  | update (checked registered : Time) (id transferId : Nat) (changes : Changes)
  | delete (time : Time) (busy : Bool) (id transferId : Nat)
  | deleteTransfer (time : Time) (busy : Bool) (transferId : Nat)
  | janitor (time : Time)
  | restart (started listed : Time)

def Operation.perform (w : World) : Operation → Except CronError World
  | create checked registered id transferId fields =>
    createTransferSchedule checked registered id transferId fields w
  | update checked registered id transferId changes =>
    updateTransferSchedule checked registered id transferId changes w
  | delete _ busy id transferId => deleteTransferSchedule busy id transferId w
  | deleteTransfer _ busy transferId => TransferCron.deleteTransfer busy transferId w
  | janitor time => .ok (TransferCron.janitor time w)
  | restart started listed => .ok (initCron started listed w)

/-- The times of an operation are in order, from its start to its completion. -/
def Operation.Spans (start completed : Time) : Operation → Prop
  | create checked registered _ _ _ | update checked registered _ _ _ =>
    start ≤ checked ∧ checked ≤ registered ∧ registered ≤ completed
  | delete time _ _ _ | deleteTransfer time _ _ | janitor time => start ≤ time ∧ time ≤ completed
  | restart started listed => start ≤ started ∧ started ≤ listed ∧ listed ≤ completed

lemma Operation.le_of_spans (operation : Operation) (h : operation.Spans start completed) :
    start ≤ completed := by
  cases operation with
  | create | update | restart => exact Nat.le_trans h.1 (Nat.le_trans h.2.1 h.2.2)
  | delete | deleteTransfer | janitor => exact Nat.le_trans h.1 h.2

def World.after (w : World) (operation : Operation) : World :=
  match operation.perform w with
  | .ok w' => w'
  | .error _ => w

/-- A schedule that is to be triggered: neither it nor its transfer is deleted, and it has not
expired. -/
def World.Current (w : World) (now : Time) (schedule : TransferSchedule) : Prop :=
  schedule.deleted = false ∧ w.transfers schedule.transferId = true ∧
    schedule.fields.isExpired now = false

/-- The jobs mirror the schedules: each one that is to be triggered has a job with what is stored,
and all other jobs have expired and do not run again. -/
structure Mirrors (w : World) (now : Time) : Prop where
  stored : ∀ id schedule, w.schedules id = some schedule → w.Current now schedule →
    w.jobs id = some schedule.job
  ended : ∀ id job, w.jobs id = some job →
    (∀ schedule, w.schedules id = some schedule → ¬ w.Current now schedule) →
    ∀ later, now ≤ later →
      job.isExpired later = true ∧ ∀ date, job.shouldRun later date = false

/-- The operations that keep the jobs in step. A schedule is not registered just at its expiration
date. The one that is updated belongs to a transfer that is not deleted, and is registered before
it expires, unless it had already expired before it was updated. A transfer is deleted after all of
its schedules are deleted or have expired. The cron service is not started just at the expiration
date of a schedule. -/
def Operation.Timely (w : World) : Operation → Prop
  | create _ registered _ _ fields => fields.expirationDate ≠ some registered
  | update _ registered id transferId changes =>
    ∀ schedule, w.getTransferSchedule id transferId = some schedule →
      w.transfers transferId = true ∧
      (changes.apply schedule.fields).expirationDate ≠ some registered ∧
      ((changes.apply schedule.fields).isExpired registered = true →
        schedule.fields.isExpired registered = true)
  | deleteTransfer time _ transferId =>
    ∀ id schedule, w.getTransferSchedule id transferId = some schedule →
      schedule.fields.isExpired time = true
  | restart _ listed =>
    ∀ id schedule, w.schedules id = some schedule → schedule.fields.expirationDate ≠ some listed
  | delete _ _ _ _ | janitor _ => True

/-- The states reached from one without schedules, while time passes. -/
inductive Reached : World → Time → Prop where
  | start (transfers : Nat → Bool) (now : Time) :
      Reached ⟨transfers, fun _ => none, fun _ => none⟩ now
  | wait {w : World} {now later : Time} (h : Reached w now) (hle : now ≤ later) : Reached w later
  | perform {w : World} {now completed : Time} {operation : Operation} (h : Reached w now)
      (hspans : operation.Spans now completed) (htimely : operation.Timely w) :
      Reached (w.after operation) completed

section

variable {w w' : World} {now later : Time} {id transferId : Nat} {schedule : TransferSchedule}

lemma isExpired_mono {fields : Fields} (h : fields.isExpired now = true) (hle : now ≤ later) :
    fields.isExpired later = true := by
  rw [Fields.isExpired, Option.any_eq_true] at h ⊢
  obtain ⟨expirationDate, heq, hlt⟩ := h
  exact ⟨expirationDate, heq, decide_eq_true (Nat.lt_of_lt_of_le (of_decide_eq_true hlt) hle)⟩

lemma not_shouldRun {job : CronJob} (h : job.isExpired now = true) (date : Pattern Nat) :
    job.shouldRun now date = false := by
  simp [CronJob.shouldRun, h]

lemma isExpired_of_passed {fields : Fields} (hne : fields.expirationDate ≠ some now)
    (h : fields.expirationDate.any (· ≤ now) = true) : fields.isExpired now = true := by
  rw [Option.any_eq_true] at h
  obtain ⟨expirationDate, heq, hle⟩ := h
  rw [Fields.isExpired, Option.any_eq_true]
  have hne : expirationDate ≠ now := fun h => hne (h ▸ heq)
  exact ⟨expirationDate, heq, decide_eq_true (Nat.lt_of_le_of_ne (of_decide_eq_true hle) hne)⟩

lemma passed_of_isExpired {fields : Fields} (h : fields.isExpired now = true) :
    fields.expirationDate.any (· ≤ now) = true := by
  rw [Fields.isExpired, Option.any_eq_true] at h
  obtain ⟨expirationDate, heq, hlt⟩ := h
  rw [Option.any_eq_true]
  exact ⟨expirationDate, heq, decide_eq_true (Nat.le_of_lt (of_decide_eq_true hlt))⟩

/-- The invariant: what is to be triggered has its job, every job has expired or is that of a
schedule which is not deleted and whose transfer is not, and the schedules of deleted transfers
have expired. -/
structure Synchronized (w : World) (now : Time) : Prop where
  stored : ∀ id schedule, w.schedules id = some schedule → w.Current now schedule →
    w.jobs id = some schedule.job
  origin : ∀ id job, w.jobs id = some job → job.isExpired now = true ∨
    ∃ schedule, w.schedules id = some schedule ∧ schedule.deleted = false ∧
      w.transfers schedule.transferId = true ∧ job = schedule.job
  orphaned : ∀ id schedule, w.schedules id = some schedule → schedule.deleted = false →
    w.transfers schedule.transferId = false → schedule.fields.isExpired now = true

lemma Synchronized.mirrors (h : Synchronized w now) : Mirrors w now := by
  refine ⟨h.stored, fun id job hjob hnone later hle => ?_⟩
  have hexpired : job.isExpired now = true := by
    rcases h.origin id job hjob with hexpired | ⟨schedule, hschedule, hdeleted, htransfer, rfl⟩
    · exact hexpired
    · by_contra hexpired
      exact hnone schedule hschedule ⟨hdeleted, htransfer, Bool.eq_false_iff.mpr hexpired⟩
  have hexpired := isExpired_mono hexpired hle
  exact ⟨hexpired, not_shouldRun hexpired⟩

lemma Synchronized.mono (h : Synchronized w now) (hle : now ≤ later) :
    Synchronized w later := by
  refine ⟨fun id schedule hschedule hcurrent => ?_, fun id job hjob => ?_,
    fun id schedule hschedule hdeleted htransfer => ?_⟩
  · refine h.stored id schedule hschedule ⟨hcurrent.1, hcurrent.2.1, ?_⟩
    by_contra hexpired
    have hexpired := isExpired_mono (Bool.not_eq_false _ ▸ hexpired) hle
    exact absurd hcurrent.2.2 (by simp [hexpired])
  · exact (h.origin id job hjob).imp_left fun hexpired => isExpired_mono hexpired hle
  · exact isExpired_mono (h.orphaned id schedule hschedule hdeleted htransfer) hle

lemma registerSchedule_of_ne (hne : id' ≠ id) :
    registerSchedule now id schedule jobs id' = jobs id' := by
  unfold registerSchedule
  split
  · rfl
  · exact Function.update_of_ne hne _ _

lemma Synchronized.register (h : Synchronized w now) (hdeleted : schedule.deleted = false)
    (htransfer : w.transfers schedule.transferId = true)
    (hne : schedule.fields.expirationDate ≠ some now)
    (hold : schedule.fields.isExpired now = true →
      ∀ job, w.jobs id = some job → job.isExpired now = true) :
    Synchronized { w with
      schedules := Function.update w.schedules id (some schedule)
      jobs := registerSchedule now id schedule w.jobs } now := by
  have hlive : schedule.fields.isExpired now = false →
      schedule.fields.expirationDate.any (· ≤ now) = false := fun hlive => by
    by_contra hpassed
    have hexpired := isExpired_of_passed hne (Bool.not_eq_false _ ▸ hpassed)
    simp [hexpired] at hlive
  refine ⟨fun id' schedule' hschedule' hcurrent => ?_, fun id' job hjob => ?_,
    fun id' schedule' hschedule' hdeleted' htransfer' => ?_⟩
  · by_cases heq : id' = id
    · subst heq
      obtain rfl : schedule = schedule' := by simpa using hschedule'
      simp [registerSchedule, hlive hcurrent.2.2]
    · refine (registerSchedule_of_ne heq).trans ?_
      exact h.stored id' schedule' (by simpa [heq] using hschedule') hcurrent
  · by_cases heq : id' = id
    · subst heq
      by_cases hexpired : schedule.fields.isExpired now = true
      · left
        simp only [registerSchedule, passed_of_isExpired hexpired, if_true] at hjob
        exact hold hexpired job hjob
      · right
        simp only [registerSchedule, hlive (Bool.eq_false_iff.mpr hexpired)] at hjob
        exact ⟨schedule, by simp, hdeleted, htransfer, by simpa using hjob.symm⟩
    · simpa [heq] using h.origin id' job ((registerSchedule_of_ne heq).symm.trans hjob)
  · by_cases heq : id' = id
    · subst heq
      obtain rfl : schedule = schedule' := by simpa using hschedule'
      simp [htransfer] at htransfer'
    · exact h.orphaned id' schedule' (by simpa [heq] using hschedule') hdeleted' htransfer'

lemma Synchronized.create (h : Synchronized w now) (hne : fields.expirationDate ≠ some now)
    (hrun : createTransferSchedule checked now id transferId fields w = .ok w') :
    Synchronized w' now := by
  obtain ⟨-, -, hrun⟩ := bind_eq_ok hrun
  split at hrun
  · cases hrun
  split at hrun
  · cases hrun
  next htransfer hnew =>
  cases hrun
  refine h.register rfl (by simpa using htransfer) hne fun _ job hjob => ?_
  -- a job with the new id would be one of no schedule
  rcases h.origin id job hjob with hexpired | ⟨schedule, hschedule, -⟩
  · exact hexpired
  · simp [hschedule] at hnew

lemma of_getTransferSchedule (h : w.getTransferSchedule id transferId = some schedule) :
    w.schedules id = some schedule ∧ schedule.deleted = false ∧
      schedule.transferId = transferId := by
  simpa [World.getTransferSchedule, Option.filter_eq_some_iff] using h

lemma Synchronized.update (h : Synchronized w now)
    (htimely : (Operation.update checked now id transferId changes).Timely w)
    (hrun : updateTransferSchedule checked now id transferId changes w = .ok w') :
    Synchronized w' now := by
  obtain ⟨-, -, hrun⟩ := bind_eq_ok hrun
  split at hrun
  · cases hrun
  next schedule hfound =>
  cases hrun
  obtain ⟨htransfer, hne, hexpired⟩ := htimely schedule hfound
  obtain ⟨hschedule, hdeleted, rfl⟩ := of_getTransferSchedule hfound
  refine h.register hdeleted htransfer hne fun hnew job hjob => ?_
  -- the job from before the update stays, so its date has to have passed, too
  rcases h.origin id job hjob with hold | ⟨schedule', hschedule', -, -, rfl⟩
  · exact hold
  · obtain rfl : schedule = schedule' := Option.some.inj (hschedule.symm.trans hschedule')
    exact hexpired hnew

lemma Synchronized.delete (h : Synchronized w now)
    (hrun : deleteTransferSchedule busy id transferId w = .ok w') : Synchronized w' now := by
  unfold deleteTransferSchedule at hrun
  split at hrun
  · cases hrun
  split at hrun
  · cases hrun
  split at hrun
  · cases hrun
  next schedule hfound =>
  cases hrun
  refine ⟨fun id' schedule' hschedule' hcurrent => ?_, fun id' job hjob => ?_,
    fun id' schedule' hschedule' hdeleted htransfer => ?_⟩
  all_goals by_cases heq : id' = id
  · subst heq
    obtain rfl : { schedule with deleted := true } = schedule' := by simpa using hschedule'
    simpa using hcurrent.1
  · simpa [heq] using h.stored id' schedule' (by simpa [heq] using hschedule') hcurrent
  · simp [heq] at hjob
  · simpa [heq] using h.origin id' job (by simpa [heq] using hjob)
  · subst heq
    obtain rfl : { schedule with deleted := true } = schedule' := by simpa using hschedule'
    simp at hdeleted
  · exact h.orphaned id' schedule' (by simpa [heq] using hschedule') hdeleted htransfer

lemma Synchronized.deleteTransfer (h : Synchronized w now)
    (htimely : (Operation.deleteTransfer now busy transferId).Timely w)
    (hrun : TransferCron.deleteTransfer busy transferId w = .ok w') : Synchronized w' now := by
  unfold TransferCron.deleteTransfer at hrun
  split at hrun
  · cases hrun
  split at hrun
  · cases hrun
  cases hrun
  have hexpired : ∀ id schedule, w.schedules id = some schedule → schedule.deleted = false →
      schedule.transferId = transferId → schedule.fields.isExpired now = true := by
    intro id schedule hschedule hdeleted htransfer
    exact htimely id schedule (by simp [World.getTransferSchedule, hschedule, Option.filter,
      hdeleted, htransfer])
  refine ⟨fun id schedule hschedule hcurrent => ?_, fun id job hjob => ?_,
    fun id schedule hschedule hdeleted htransfer => ?_⟩
  · obtain ⟨hdeleted, htransfer, hlive⟩ := hcurrent
    have hne : schedule.transferId ≠ transferId := by
      rintro heq
      simp [hexpired id schedule hschedule hdeleted heq] at hlive
    exact h.stored id schedule hschedule ⟨hdeleted, by simpa [hne] using htransfer, hlive⟩
  · rcases h.origin id job hjob with hjob | ⟨schedule, hschedule, hdeleted, htransfer, rfl⟩
    · exact .inl hjob
    by_cases heq : schedule.transferId = transferId
    · exact .inl (hexpired id schedule hschedule hdeleted heq)
    · exact .inr ⟨schedule, hschedule, hdeleted, by simpa [heq] using htransfer, rfl⟩
  · by_cases heq : schedule.transferId = transferId
    · exact hexpired id schedule hschedule hdeleted heq
    · exact h.orphaned id schedule hschedule hdeleted (by simpa [heq] using htransfer)

lemma Synchronized.janitor (h : Synchronized w now) :
    Synchronized (TransferCron.janitor now w) now := by
  refine ⟨fun id schedule hschedule hcurrent => ?_, fun id job hjob => ?_, h.orphaned⟩
  · have hjob := h.stored id schedule hschedule hcurrent
    have hlive : schedule.job.isExpired now = false := hcurrent.2.2
    simp [TransferCron.janitor, hjob, Option.filter, hlive]
  · exact h.origin id job (Option.filter_eq_some_iff.mp hjob).1

lemma Synchronized.initCron (h : Synchronized w now) (hstarted : started ≤ now)
    (htimely : (Operation.restart started now).Timely w) :
    Synchronized (TransferCron.initCron started now w) now := by
  have hjobs : ∀ id schedule, w.schedules id = some schedule → schedule.deleted = false →
      schedule.fields.isExpired now = false →
      (TransferCron.initCron started now w).jobs id = some schedule.job := by
    intro id schedule hschedule hdeleted hlive
    have hpassed {date : Time} (hle : date ≤ now) :
        schedule.fields.expirationDate.any (· ≤ date) = false := by
      by_contra hpassed
      rw [Bool.not_eq_false, Option.any_eq_true] at hpassed
      obtain ⟨expirationDate, heq, hdate⟩ := hpassed
      have hpassed : schedule.fields.expirationDate.any (· ≤ now) = true := by
        rw [Option.any_eq_true]
        exact ⟨expirationDate, heq,
          decide_eq_true (Nat.le_trans (of_decide_eq_true hdate) hle)⟩
      simp [isExpired_of_passed (htimely id schedule hschedule) hpassed] at hlive
    simp [TransferCron.initCron, hschedule, hdeleted, hpassed (Nat.le_refl now),
      registerSchedule, hpassed hstarted]
  refine ⟨fun id schedule hschedule hcurrent => hjobs id schedule hschedule hcurrent.1
    hcurrent.2.2, fun id job hjob => ?_, h.orphaned⟩
  cases hschedule : w.schedules id with
  | none => simp [TransferCron.initCron, hschedule] at hjob
  | some schedule =>
    have hdeleted : schedule.deleted = false := by
      by_contra hdeleted
      simp [TransferCron.initCron, hschedule, hdeleted] at hjob
    have hlive : schedule.fields.isExpired now = false := by
      by_contra hexpired
      have hpassed := passed_of_isExpired (Bool.not_eq_false _ ▸ hexpired)
      simp [TransferCron.initCron, hschedule, hpassed] at hjob
    have hjob' := hjobs id schedule hschedule hdeleted hlive
    refine .inr ⟨schedule, hschedule, hdeleted, ?_, Option.some.inj (hjob.symm.trans hjob')⟩
    by_contra htransfer
    have hexpired := h.orphaned id schedule hschedule hdeleted (Bool.eq_false_iff.mpr htransfer)
    simp [hexpired] at hlive

/-- The step lemma: an operation that is timely keeps the jobs in step. -/
lemma Synchronized.after (h : Synchronized w now) (hspans : operation.Spans now completed)
    (htimely : operation.Timely w) :
    Synchronized (w.after operation) completed := by
  unfold World.after
  split
  · next w' hrun =>
    cases operation with
    | create checked registered id transferId fields =>
      obtain ⟨hchecked, hregistered, hcompleted⟩ := hspans
      exact ((h.mono (Nat.le_trans hchecked hregistered)).create htimely hrun).mono hcompleted
    | update checked registered id transferId changes =>
      obtain ⟨hchecked, hregistered, hcompleted⟩ := hspans
      exact ((h.mono (Nat.le_trans hchecked hregistered)).update htimely hrun).mono hcompleted
    | delete time busy id transferId =>
      exact ((h.mono hspans.1).delete hrun).mono hspans.2
    | deleteTransfer time busy transferId =>
      exact ((h.mono hspans.1).deleteTransfer htimely hrun).mono hspans.2
    | janitor time =>
      cases hrun
      exact (h.mono hspans.1).janitor.mono hspans.2
    | restart started listed =>
      obtain ⟨hstarted, hlisted, hcompleted⟩ := hspans
      cases hrun
      exact ((h.mono (Nat.le_trans hstarted hlisted)).initCron hlisted htimely).mono hcompleted
  · exact h.mono (operation.le_of_spans hspans)

lemma synchronized_of_reached (h : Reached w now) : Synchronized w now := by
  induction h with
  | start transfers now => exact ⟨by simp, by simp, by simp⟩
  | wait h hle ih => exact ih.mono hle
  | perform h hspans htimely ih => exact ih.after hspans htimely

end

/-- In every run whose operations are timely, the jobs of the cron service mirror the schedules. -/
theorem mirrors_of_reached {w : World} {now : Time} (h : Reached w now) : Mirrors w now :=
  (synchronized_of_reached h).mirrors

def everyMinute : Fields where
  schedule := ⟨none, none, none, none, none⟩
  enabled := true
  expirationDate := none
  shutdownInstance := false
  autoDeploy := false

/-- The state after this schedule is created, with the id 1, for the transfer 7. -/
def created : World :=
  World.after ⟨fun _ => true, fun _ => none, fun _ => none⟩ (.create 0 1 1 7 everyMinute)

def expiresAt (date : Time) : Changes := ⟨none, none, some (some date), none, none⟩

theorem mirrors_after_update :
    Mirrors (created.after (.update 10 15 1 7 (expiresAt 20))) 15 := by
  have hcreated : Reached created 1 :=
    .perform (.start _ 0) ⟨by decide, by decide, by decide⟩
      (by simp [Operation.Timely, everyMinute])
  refine mirrors_of_reached (.perform hcreated ⟨by decide, by decide, by decide⟩ ?_)
  intro schedule hfound
  have hcurrent : created.getTransferSchedule 1 7 = some ⟨7, everyMinute, false⟩ := by decide
  obtain rfl := Option.some.inj (hcurrent.symm.trans hfound)
  decide

/-- The expiration date is set to the time 20, and the date has passed when the cron service is
told at the time 30: the job without an expiration date stays, and runs. The same job stays, and
runs, when the transfer is deleted. -/
theorem jobs_of_expired_and_deleted :
    ((Operation.update 10 30 1 7 (expiresAt 20)).Spans 1 30 ∧
      ¬ Mirrors (created.after (.update 10 30 1 7 (expiresAt 20))) 30) ∧
    ((Operation.deleteTransfer 10 false 7).Spans 1 10 ∧
      ¬ Mirrors (created.after (.deleteTransfer 10 false 7)) 10) := by
  refine ⟨⟨⟨by decide, by decide, by decide⟩, fun h => ?_⟩, ⟨⟨by decide, by decide⟩, fun h => ?_⟩⟩
  · have hexpired : (created.after (.update 10 30 1 7 (expiresAt 20))).schedules 1 =
        some ⟨7, (expiresAt 20).apply everyMinute, false⟩ := by decide
    have hover := h.ended 1 ⟨7, everyMinute⟩ (by decide) (fun schedule hschedule hcurrent => by
      obtain rfl := Option.some.inj (hexpired.symm.trans hschedule)
      exact absurd hcurrent.2.2 (by decide)) 30 (Nat.le_refl _)
    exact absurd hover.1 (by decide)
  · have hdeleted : (created.after (.deleteTransfer 10 false 7)).schedules 1 =
        some ⟨7, everyMinute, false⟩ := by decide
    have hover := h.ended 1 ⟨7, everyMinute⟩ (by decide) (fun schedule hschedule hcurrent => by
      obtain rfl := Option.some.inj (hdeleted.symm.trans hschedule)
      exact absurd hcurrent.2.1 (by decide)) 10 (Nat.le_refl _)
    exact absurd hover.1 (by decide)

end Coriolis.TransferCron

import Coriolis.Conductor.Absorption
import Coriolis.Conductor.Launch

/-!
# Starting a task on a worker

`exec_task` announces itself with `set_task_host`, starts the process of the task, announces
the process with `set_task_process`, waits for its result and reports it. `Step` interleaves
it with the conductor, which takes any other call between two of these steps.

A cancellation unschedules a STARTING task and presumes that its worker has not begun. The
worker does not ask again before it starts the process, so the presumption is wrong between
`set_task_host` and `set_task_process`; it is right for a PENDING task, whose worker is turned
away by `set_task_host`.
-/

namespace Coriolis.Worker

open Conductor

section

/-- A `multiprocessing.Process`. -/
inductive Process where
  | unstarted
  | running (pid : Nat)
  | exited (pid : Nat)
  deriving DecidableEq, Repr

def Process.pid : Process → Option Nat
  | unstarted => none
  | running pid | exited pid => some pid

def Process.isAlive : Process → Bool
  | running _ => true
  | unstarted | exited _ => false

/-- What `exec_task` tells the conductor in the end. -/
inductive Verdict where
  | completed (taskResult : TaskInfo)
  | failed (details : String)
  | cancelled (details : String)

def Verdict.call (t : Task) : Verdict → Call
  | completed taskResult => .taskCompleted t taskResult
  | failed details => .setTaskError t details
  | cancelled details => .confirmTaskCancellation t details

/-- What the process left in its queue: nothing if it was killed, the text of the exception
that ended the task, or the result of the task. -/
inductive Result where
  | nothing
  | text (details : String)
  | info (taskResult : TaskInfo)

def Result.verdict : Result → Verdict
  | nothing => .cancelled "Task was canceled."
  | text details => .failed details
  | info taskResult => .completed taskResult

/-- Where `exec_task` is. -/
inductive Pc where
  | idle
  | settingHost
  | starting
  | settingProcess
  | waiting
  | reporting (verdict : Verdict)
  | ended

/-- Where `exec_task` goes when the conductor has answered its call. -/
def Pc.returned : Pc → Pc
  | settingHost => starting
  | settingProcess => waiting
  | _ => ended

/-- Where `exec_task` goes when its call raises. -/
def Pc.raised (details : String) : Pc → Pc
  | settingHost | settingProcess | reporting (.completed _) => reporting (.failed details)
  | _ => ended

/-- The conductor's database and the worker of one task. -/
structure System where
  db : World
  pc : Pc
  process : Process

/-- The call `exec_task` makes from here. -/
def System.call? (s : System) (t : Task) (host : String) : Option Call :=
  match s.pc with
  | .settingHost => some (.setTaskHost t host)
  | .settingProcess => some (.setTaskProcess t s.process.pid)
  | .reporting verdict => some (verdict.call t)
  | .idle | .starting | .waiting | .ended => none

variable (e : Execution) (conf : Conf) (t : Task) (host : String)

/-- One step of the worker, of the process it started or of the conductor. The texts of
exceptions are those of the messaging layer, which wraps what the conductor raises. -/
inductive Step : System → System → Prop
  /-- The `begin_task` message is taken up. -/
  | accepted {db p} (h : db.emitted (.beginTask t.id)) :
      Step ⟨db, .idle, p⟩ ⟨db, .settingHost, p⟩
  /-- `_get_extra_library_paths_for_providers` raises. -/
  | noLibraries {db p} (details : String) (h : db.emitted (.beginTask t.id)) :
      Step ⟨db, .idle, p⟩ ⟨db, .reporting (.failed details), p⟩
  | returned {s c} (env : Env) (hc : s.call? t host = some c)
      (h : (step e conf env c s.db).1.isOk = true) :
      Step s { s with db := (step e conf env c s.db).2, pc := s.pc.returned }
  | raised {s c} (env : Env) (details : String) (hc : s.call? t host = some c)
      (h : (step e conf env c s.db).1.isOk = false) :
      Step s { s with db := (step e conf env c s.db).2, pc := s.pc.raised details }
  /-- `exec_task` ignores a `NoSuitableWorkerServiceError` of `task_completed`. -/
  | ignored {db p r id} (env : Env)
      (h : (taskCompleted e conf env t r db).1 = .error (.noSuitableWorkerService id)) :
      Step ⟨db, .reporting (.completed r), p⟩ ⟨(taskCompleted e conf env t r db).2, .ended, p⟩
  /-- There is no answer in time; the conductor may still take the call later. -/
  | timedOut {s c} (details : String) (hc : s.call? t host = some c) :
      Step s { s with pc := s.pc.raised details }
  | started {db p} (pid : Nat) : Step ⟨db, .starting, p⟩ ⟨db, .settingProcess, .running pid⟩
  /-- `_start_process_with_custom_library_paths` swallows a `TypeError`. -/
  | notStarted {db p} : Step ⟨db, .starting, p⟩ ⟨db, .settingProcess, p⟩
  | startRaised {db p} (details : String) :
      Step ⟨db, .starting, p⟩ ⟨db, .reporting (.failed details), p⟩
  /-- The process ends, by itself or because `cancel_task` killed it. -/
  | exited {db pc pid} : Step ⟨db, pc, .running pid⟩ ⟨db, pc, .exited pid⟩
  | waited {db pid} (result : Result) :
      Step ⟨db, .waiting, .exited pid⟩ ⟨db, .reporting result.verdict, .exited pid⟩
  /-- A process that was not started cannot be joined. -/
  | notJoined {db} (details : String) :
      Step ⟨db, .waiting, .unstarted⟩ ⟨db, .reporting (.failed details), .unstarted⟩
  /-- A call of somebody else, or a late one of this worker. -/
  | conductor {s db'} (h : Conductor.Step e conf castOnly s.db db') : Step s { s with db := db' }

end

variable {r : Request} {before : String → Option TaskInfo} {e : Execution} {conf : Conf}
  {w w' : World} {t : Task} {host : String} {s s' : System}

/-- The process runs, or nothing but the worker itself can keep it from being started. -/
def System.committed (s : System) : Bool :=
  s.process.isAlive || match s.pc with
    | .starting => true
    | _ => false

/-- An event that is no cancellation without force that finds the task STARTING. -/
def sparesStarting (t : Task) (ev : Event) : Bool :=
  match ev.effect with
  | .cancelTasks false => ev.tasks t.id != .starting
  | _ => true

/-- A worker has the task, which was never unscheduled and can only be while it is STARTING. -/
structure Taken (t : Task) (w : World) : Prop where
  unscheduled : ¬w.emitted (.setTaskStatus t.id .unscheduled)
  status : w.st t.id ∉ [.scheduled, .onErrorOnly, .pending, .unscheduled]

lemma Taken.ne (h : Taken t w)
    (hx : x ∈ [TaskStatus.scheduled, .onErrorOnly, .pending, .unscheduled]) : w.st t.id ≠ x := by
  rintro rfl
  exact h.status hx

lemma cancelledStatus_taken (h : x ∉ [TaskStatus.scheduled, .onErrorOnly, .pending, .unscheduled])
    (hx : force = true ∨ x ≠ .starting) :
    cancelledStatus env force t x ∉
      [TaskStatus.scheduled, .onErrorOnly, .pending, .unscheduled] := by
  revert h
  cases x <;> cases force <;> simp_all [cancelledStatus, TaskStatus.isActive,
    TaskStatus.activeTaskStatuses]
  all_goals split_ifs <;> simp

lemma Taken.status_change (h : Taken t w) (hc : Change e conf strong ok w w') (ht : t ∈ e.tasks)
    (hcond : ∀ ev ∈ w'.trace, sparesStarting t ev = true) :
    w'.st t.id ∉ [.scheduled, .onErrorOnly, .pending, .unscheduled] := by
  have hns : w.st t.id ≠ .scheduled := h.ne (by simp)
  have hnoe : w.st t.id ≠ .onErrorOnly := h.ne (by simp)
  cases hc.task ht with
  | same h' => rw [h']; exact h.status
  | started hd | notScheduled hd | castRaised hd => exact (TaskStep.not_start hd hns).elim
  | unscheduled hd => exact (TaskStep.not_unschedule hd hns).elim
  | @cancelled env force _ h' _ he =>
    obtain ⟨ev, hev, heff, htasks, -⟩ := he
    rw [h']
    refine cancelledStatus_taken h.status ?_
    have := hcond ev hev
    cases force with
    | true => exact .inl rfl
    | false => exact .inr (by simpa [sparesStarting, heff, htasks] using this)
  | deadlocked _ _ _ hst | debugged _ hst => simp [hns, hnoe] at hst
  | moved _ hm =>
    simp only [moves, List.mem_cons, Prod.mk.injEq, List.not_mem_nil, or_false] at hm
    rcases hm with ⟨-, h'⟩ | ⟨-, h'⟩ | ⟨-, h'⟩ | ⟨-, h'⟩ <;> rw [h'] <;> decide
  | completed _ h' =>
    rcases completionStatus_some h' with ⟨-, -, -, h'⟩ | ⟨-, h'⟩ <;> rw [h'] <;> decide
  | errored _ h' =>
    rw [h']
    rcases errorStatus_cases t (w.rows t.id) _ with ⟨-, h'⟩ | ⟨-, h'⟩ | ⟨-, h'⟩ <;> rw [h'] <;>
      decide
  | @cancelConfirmed details _ h' =>
    rw [h']
    rcases cancellationStatus_cases (w.rows t.id) details with ⟨-, h'⟩ | ⟨-, h'⟩ <;> rw [h']
    · exact h.status
    · decide

lemma Taken.change (ht : t ∈ e.tasks) (hc : Change e conf strong ok w w')
    (hcond : ∀ ev ∈ w'.trace, sparesStarting t ev = true) (h : Taken t w) : Taken t w' := by
  have hst := h.status_change hc ht hcond
  refine ⟨fun he => ?_, hst⟩
  rcases hc.unscheduled_emitted he with he | he
  · exact h.unscheduled he
  · simp [he] at hst

lemma taken_of_setTaskHost
    (hset : w.emitted (.setTaskStatus t.id .unscheduled) → (w.st t.id).isSettled = true)
    (h : (setTaskHost t host w).1.isOk = true) : Taken t (setTaskHost t host w).2 := by
  have hne : ∀ x : TaskStatus, x.isSettled = false → w.st t.id = x →
      ¬w.emitted (.setTaskStatus t.id .unscheduled) := by
    rintro _ hx rfl he
    simp [hset he] at hx
  revert h
  simp only [setTaskHost]
  split_ifs with h1 h2 h3
  · exact fun h => absurd h (by simp [Except.isOk, Except.toBool])
  · exact fun _ => ⟨by simpa [World.emitted] using hne _ rfl h2, by simp⟩
  · exact fun h => absurd h (by simp [Except.isOk, Except.toBool])
  · exact fun _ => ⟨by simpa [World.emitted] using hne _ rfl (not_not.mp h3), by simp⟩

lemma settled_of_unscheduled (ht : t ∈ e.tasks) (hch : Changes e conf strong ok w w')
    (h : w.emitted (.setTaskStatus t.id .unscheduled) → (w.st t.id).isSettled = true)
    (he : w'.emitted (.setTaskStatus t.id .unscheduled)) : (w'.st t.id).isSettled = true := by
  induction hch with
  | refl => exact h he
  | tail _ hlast ih =>
    rcases hlast.unscheduled_emitted he with he | he
    · exact (hlast.task ht).isSettled (ih he)
    · rw [he]
      decide

/-- What holds of the conductor and the worker of a task. -/
structure Guarded (e : Execution) (t : Task) (s : System) : Prop where
  steady : Steady e s.db
  cast : (s.pc matches .idle) = false → s.db.emitted (.beginTask t.id)
  settled : s.db.emitted (.setTaskStatus t.id .unscheduled) → (s.db.st t.id).isSettled = true
  taken : s.committed = true → Taken t s.db

/-- The step cancels nothing that its worker is about to run or runs. -/
def Spares (t : Task) (s s' : System) : Prop :=
  s.committed = true → ∀ ev ∈ s'.db.trace, sparesStarting t ev = true

lemma Guarded.call (h : Guarded e t s) (wf : WellFormed e) (ht : t ∈ e.tasks)
    (hstep : Conductor.Step e conf castOnly s.db db')
    (hcond : s.committed = true → ∀ ev ∈ db'.trace, sparesStarting t ev = true) :
    Steady e db' ∧ (s.db.emitted (.beginTask t.id) → db'.emitted (.beginTask t.id)) ∧
      (db'.emitted (.setTaskStatus t.id .unscheduled) → (db'.st t.id).isSettled = true) ∧
      (s.committed = true → Taken t db') := by
  obtain ⟨hch, hst⟩ := h.steady.step wf hstep
  refine ⟨hst, fun he => he.mono hch.suffix, settled_of_unscheduled ht hch h.settled, fun hc => ?_⟩
  exact hch.invariant_of_trace (fun _ _ hc hcond => Taken.change ht hc hcond) (hcond hc)
    (h.taken hc)

lemma call?_some (hc : s.call? t host = some c) :
    (s.pc matches .idle) = false ∧ ∀ r ∈ c.report?, r.task = t := by
  obtain ⟨db, pc, p⟩ := s
  cases pc with
  | idle | starting | waiting | ended => simp [System.call?] at hc
  | settingHost =>
    obtain rfl : Call.setTaskHost t host = c := by simpa [System.call?] using hc
    simp [Call.report?, Report.task]
  | settingProcess =>
    obtain rfl : Call.setTaskProcess t p.pid = c := by simpa [System.call?] using hc
    simp [Call.report?, Report.task]
  | reporting verdict =>
    obtain rfl : verdict.call t = c := by simpa [System.call?] using hc
    cases verdict <;> simp [Verdict.call, Call.report?, Report.task]

lemma Guarded.step_of_call (h : Guarded e t s) (ht : t ∈ e.tasks) (hc : s.call? t host = some c) :
    Conductor.Step e conf castOnly s.db (step e conf env c s.db).2 := by
  obtain ⟨hpc, hreport⟩ := call?_some hc
  refine ⟨env, c, fun r hr => ?_, rfl⟩
  rw [castOnly, hreport r hr]
  exact ⟨ht, h.cast hpc⟩

lemma committed_raised (h : System.committed ⟨db, s.pc.raised details, s.process⟩ = true) :
    s.committed = true := by
  obtain ⟨_, pc, p⟩ := s
  revert h
  cases pc with
  | reporting verdict => cases verdict <;> simp +contextual [System.committed, Pc.raised]
  | _ => simp +contextual [System.committed, Pc.raised]

/-- Only an answer to `set_task_host` lets a process be started. -/
lemma committed_returned (h : System.committed ⟨db, s.pc.returned, s.process⟩ = true) :
    s.committed = true ∨ s.pc = .settingHost := by
  obtain ⟨_, pc, p⟩ := s
  revert h
  cases pc <;> simp +contextual [System.committed, Pc.returned]

lemma Guarded.step (wf : WellFormed e) (ht : t ∈ e.tasks) (h : Guarded e t s)
    (hs : Step e conf t host s s') (hcond : Spares t s s') : Guarded e t s' := by
  cases hs with
  | accepted he | noLibraries _ he => exact ⟨h.steady, fun _ => he, h.settled, h.taken⟩
  | @returned _ c env hc hok =>
    obtain ⟨h1, h2, h3, h4⟩ := h.call wf ht (h.step_of_call ht hc) hcond
    refine ⟨h1, fun _ => h2 (h.cast (call?_some hc).1), h3, fun hcom => ?_⟩
    rcases committed_returned hcom with hcom | hpc
    · exact h4 hcom
    · obtain rfl : Call.setTaskHost t host = c := by simpa [System.call?, hpc] using hc
      exact taken_of_setTaskHost h.settled hok
  | raised env details hc =>
    obtain ⟨h1, h2, h3, h4⟩ := h.call wf ht (h.step_of_call ht hc) hcond
    exact ⟨h1, fun _ => h2 (h.cast (call?_some hc).1), h3, fun hcom => h4 (committed_raised hcom)⟩
  | @ignored db p r id env _ =>
    have hc : System.call? ⟨db, .reporting (.completed r), p⟩ t host =
      some (.taskCompleted t r) := rfl
    obtain ⟨h1, h2, h3, h4⟩ := h.call wf ht
      (h.step_of_call ht hc : Conductor.Step e conf castOnly db (step e conf env _ db).2) hcond
    exact ⟨h1, fun _ => h2 (h.cast rfl), h3, h4⟩
  | timedOut details hc =>
    exact ⟨h.steady, fun _ => h.cast (call?_some hc).1, h.settled,
      fun hcom => h.taken (committed_raised hcom)⟩
  | started pid | notStarted | startRaised =>
    refine ⟨h.steady, fun _ => h.cast rfl, h.settled, fun _ => h.taken ?_⟩
    simp [System.committed]
  | exited =>
    refine ⟨h.steady, h.cast, h.settled, fun _ => h.taken ?_⟩
    simp [System.committed, Process.isAlive]
  | waited | notJoined => exact ⟨h.steady, fun _ => h.cast rfl, h.settled, h.taken⟩
  | conductor hstep =>
    obtain ⟨h1, h2, h3, h4⟩ := h.call wf ht hstep hcond
    exact ⟨h1, fun hpc => h2 (h.cast hpc), h3, h4⟩

/-- A run that cancels nothing its worker is about to run or runs. -/
abbrev SparingRun (e : Execution) (conf : Conf) (t : Task) (host : String) :
    System → System → Prop :=
  Relation.ReflTransGen fun s s' => Step e conf t host s s' ∧ Spares t s s'

lemma Guarded.run (wf : WellFormed e) (ht : t ∈ e.tasks) (h : Guarded e t s)
    (hrun : SparingRun e conf t host s s') : Guarded e t s' := by
  induction hrun with
  | refl => exact h
  | tail _ hlast ih => exact ih.step wf ht hlast.1 hlast.2

lemma guarded_of_launched (h : Launched r before e w) (ht : t ∈ e.tasks) :
    Guarded e t ⟨w, .idle, .unstarted⟩ := by
  obtain ⟨w₀, hb, hch, hst⟩ := h.start plainConf
  refine ⟨hst, by simp, settled_of_unscheduled ht hch fun he => ?_,
    by simp [System.committed, Process.isAlive]⟩
  obtain ⟨ev, hev, heff⟩ := he
  rcases hb.status with ⟨-, -, -, h⟩ | ⟨-, -, -, h⟩
  · simp [h] at hev
  · simp only [h, List.mem_singleton] at hev
    simp [hev] at heff

/-- In a run in which no cancellation without force finds the task STARTING while its worker
has a process or is about to start one, a task that was ever set to UNSCHEDULED has no process
from then on. -/
theorem unscheduled_has_no_process (r : Request) (before : String → Option TaskInfo)
    (e : Execution) (conf : Conf) (t : Task) (host : String) (w : World) (s : System)
    (h : Launched r before e w) (ht : t ∈ e.tasks)
    (hrun : SparingRun e conf t host ⟨w, .idle, .unstarted⟩ s)
    (hun : s.db.emitted (.setTaskStatus t.id .unscheduled)) : s.process.isAlive = false := by
  have wf : WellFormed e := by
    obtain ⟨w₀, hb, -⟩ := h.start conf
    exact hb.wellFormed
  have hg := (guarded_of_launched h ht).run wf ht hrun
  by_contra halive
  have hcom : s.committed = true := by
    have halive : s.process.isAlive = true := by simpa using halive
    simp [System.committed, halive]
  exact (hg.taken hcom).unscheduled hun

def wasUnscheduled (w : World) (id : TaskId) : Bool :=
  w.trace.any fun ev => match ev.effect with
    | .setTaskStatus i .unscheduled => i == id
    | _ => false

lemma emitted_of_wasUnscheduled {id : TaskId} (h : wasUnscheduled w id = true) :
    w.emitted (.setTaskStatus id .unscheduled) := by
  obtain ⟨ev, hev, h⟩ := List.any_eq_true.mp h
  refine ⟨ev, hev, ?_⟩
  split at h
  · rename_i i heff
    rw [heff, beq_iff_eq.mp h]
  · simp at h

def deletesSnapshots : Task := ⟨0, "vm", .deleteTransferSourceDiskSnapshots, [], false, 2⟩

def launched : System := ⟨deleteDisksBegun, .idle, .unstarted⟩

/-- The task after `set_task_host`. -/
def hosted : World := (setTaskHost deletesSnapshots "worker" deleteDisksBegun).2

/-- The user cancels the deletion between `set_task_host` and the start of the process. -/
def cancelledStarting : World := (step deleteDisks plainConf responsive (.cancel false) hosted).2

/-- The worker is turned away by `set_task_process` and reports that. -/
def reportedRefusal : World :=
  runCalls deleteDisks plainConf
    [(responsive, .setTaskProcess deletesSnapshots (some 1)),
      (responsive, .setTaskError deletesSnapshots "error")] cancelledStarting

/-- The process of an unscheduled task is started, `set_task_process` raises, the worker
reports an error and is done with the task, and the process runs on. -/
theorem unscheduled_process_left_running :
    ∃ s₁ s₂, Launched .deleteTransferDisks replicated
        deleteDisks deleteDisksBegun ∧ deletesSnapshots ∈ deleteDisks.tasks ∧
      Relation.ReflTransGen (Step deleteDisks plainConf deletesSnapshots "worker") launched s₁ ∧
      s₁.db.emitted (.setTaskStatus 0 .unscheduled) ∧ s₁.process = .unstarted ∧
      Relation.ReflTransGen (Step deleteDisks plainConf deletesSnapshots "worker") s₁ s₂ ∧
      s₂.pc = .ended ∧ s₂.process.isAlive = true := by
  refine ⟨⟨cancelledStarting, .starting, .unstarted⟩, ⟨reportedRefusal, .ended, .running 1⟩,
    .begun built_deleteDisks rfl, by decide, ?_, ?_, rfl, ?_, rfl, rfl⟩
  · refine .head (.accepted (wasCast_iff.mp (by decide))) ?_
    refine .head (.returned responsive rfl (by decide)) ?_
    exact .single (.conductor ⟨responsive, .cancel false, by simp [Call.report?], rfl⟩)
  · exact emitted_of_wasUnscheduled (by decide)
  · refine .head (.started 1) ?_
    refine .head (.raised responsive "error" rfl (by decide)) ?_
    exact .single (.returned responsive rfl (by decide))

/-- The deletion is cancelled while its first task is PENDING: the worker is turned away. -/
theorem unscheduled_has_no_process_deleteDisks :
    let w := (step deleteDisks plainConf responsive (.cancel false) deleteDisksBegun).2
    let s : System := ⟨(step deleteDisks plainConf responsive
      (.setTaskHost deletesSnapshots "worker") w).2, .reporting (.failed "error"), .unstarted⟩
    s.db.emitted (.setTaskStatus 0 .unscheduled) ∧ s.process.isAlive = false := by
  intro w s
  have hun : s.db.emitted (.setTaskStatus 0 .unscheduled) :=
    emitted_of_wasUnscheduled (by decide)
  refine ⟨hun, unscheduled_has_no_process .deleteTransferDisks _ deleteDisks plainConf
    deletesSnapshots "worker" deleteDisksBegun s (.begun built_deleteDisks rfl)
    (by decide) ?_ hun⟩
  refine .head ⟨.conductor ⟨responsive, .cancel false, by simp [Call.report?], rfl⟩, ?_⟩ ?_
  · exact fun h => absurd h (by decide)
  refine .head ⟨.accepted (wasCast_iff.mp (by decide)), ?_⟩ ?_
  · exact fun h => absurd h (by decide)
  refine .single ⟨.raised responsive "error" rfl (by decide), ?_⟩
  exact fun h => absurd h (by decide)

end Coriolis.Worker

import Coriolis.Conductor.Accesses
import Coriolis.Conductor.Actions
import Coriolis.Conductor.Stranded

/-!
# A confirmation of minions and a cancellation at the same time

`confirm_transfer_minions_allocation` holds the lock of the transfer and
`cancel_transfer_tasks_execution` the one of the execution, so that their accesses to the
database interleave. The confirmation begins the tasks of the execution as it has read it, and
in the end sets the execution to RUNNING whatever became of it meanwhile. As long as no other
access comes between that reading and the end, what is left when all workers have reported
back is an execution that is over.
-/

namespace Coriolis.Conductor

open Sharing (Prog)

variable {r : Request} {before : String → Option TaskInfo} {e : Execution} {conf : Conf} {env : Env}
  {w w' : World}

/-- How far `confirm_transfer_minions_allocation` is. -/
inductive Confirmation where
  | called
  /-- The transfer that was read waits for minions. -/
  | checked
  /-- The minions are in the infos. -/
  | stored
  /-- The execution was read, and `_begin_tasks` is under way. -/
  | beginning (rest : Prog World (Accesses.Result Unit))
  | finished (result : Accesses.Result Unit)

/-- How far `cancel_transfer_tasks_execution` is. -/
inductive Cancellation where
  | called
  | cancelling (rest : Prog World (Accesses.Result Unit))
  | finished (result : Accesses.Result Unit)

namespace Confirmation

def isLocking : Confirmation → Bool
  | called | finished _ => false
  | _ => true

def isBeginning : Confirmation → Bool
  | beginning _ => true
  | _ => false

def isFinished : Confirmation → Bool
  | finished _ => true
  | _ => false

def finish : Confirmation → World → World
  | beginning rest, db => (rest.run db).2
  | _, db => db

def next (e : Execution) (allocations : List (String × MinionAllocation)) (env : Env) :
    Confirmation → World → Confirmation × World
  | called, db =>
    if db.lastExecutionStatus ≠ .awaitingMinionAllocations then
      (finished (.error (notAwaitingMinions e "allocated" db)), db)
    else (checked, db)
  | checked, db =>
    match updateTaskInfoForMinionAllocations e allocations db with
    | (.error err, db) => (finished (.error err), db)
    | (.ok _, db) => (stored, db)
  | stored, db => (beginning (Accesses.beginTasks e env db), db)
  | beginning (.done result), db => (finished result, db)
  | beginning rest, db => (beginning (rest.next db).1, (rest.next db).2)
  | finished result, db => (finished result, db)

end Confirmation

namespace Cancellation

def isCancelling : Cancellation → Bool
  | cancelling _ => true
  | _ => false

def isFinished : Cancellation → Bool
  | finished _ => true
  | _ => false

def finish : Cancellation → World → World
  | cancelling rest, db => (rest.run db).2
  | _, db => db

def next (e : Execution) (force : Bool) (env : Env) : Cancellation → World → Cancellation × World
  | called, db => (cancelling (Accesses.cancelTransferTasksExecution e env force), db)
  | cancelling (.done result), db => (finished result, db)
  | cancelling rest, db => (cancelling (rest.next db).1, (rest.next db).2)
  | finished result, db => (finished result, db)

end Cancellation

/-- The database and the two handlers that work on it. -/
structure Overlap where
  world : World
  confirmation : Confirmation
  cancellation : Cancellation

inductive Party where
  | confirmation | cancellation | worker

def Call.locksAction (w : World) : Call → Bool
  | .taskCompleted t _ => (completionStatus (w.rows t.id)).isSome
  | .setTaskError .. => true
  | _ => false

namespace Overlap

/-- An access of one of the handlers, or a report of a worker, whose handler locks the
execution and may lock the transfer. `ok` says who may go on. -/
inductive Step (e : Execution) (conf : Conf) (allocations : List (String × MinionAllocation))
    (force : Bool) (ok : Overlap → Party → Prop) : Overlap → Overlap → Prop
  | confirm {s env} (hok : ok s .confirmation) :
      Step e conf allocations force ok s
        ⟨(s.confirmation.next e allocations env s.world).2,
          (s.confirmation.next e allocations env s.world).1, s.cancellation⟩
  | cancel {s env} (hok : ok s .cancellation) :
      Step e conf allocations force ok s
        ⟨(s.cancellation.next e force env s.world).2, s.confirmation,
          (s.cancellation.next e force env s.world).1⟩
  | report {s env c r} (hok : ok s .worker) (hr : c.report? = some r) (ht : r.task ∈ e.tasks)
      (hcast : castOnly s.world r) (hexecution : s.cancellation.isCancelling = false)
      (htransfer : c.locksAction s.world = true → s.confirmation.isLocking = false) :
      Step e conf allocations force ok s { s with world := (step e conf env c s.world).2 }

abbrev Run (e : Execution) (conf : Conf) (allocations : List (String × MinionAllocation))
    (force : Bool) (ok : Overlap → Party → Prop) : Overlap → Overlap → Prop :=
  Relation.ReflTransGen (Step e conf allocations force ok)

/-- Nobody else goes on between the reading of the execution by the confirmation and its end,
and the confirmation does not go on during the cancellation. -/
def Serial (s : Overlap) : Party → Prop
  | .confirmation => s.cancellation.isCancelling = false
  | .cancellation => s.confirmation.isBeginning = false
  | .worker => s.confirmation.isBeginning = false

end Overlap

/-- What a run of handlers makes of a built execution between calls. -/
def Reached (r : Request) (before : String → Option TaskInfo) (e : Execution) (conf : Conf)
    (w : World) : Prop :=
  ∃ w₀, Built r before e w₀ ∧ Changes e conf True reported w₀ w ∧ Steady e w

namespace Reached

variable {c : Call}

lemma step (h : Reached r before e conf w) (hstep : Conductor.Step e conf castOnly w w') :
    Reached r before e conf w' := by
  obtain ⟨w₀, hb, hpath, hst⟩ := h
  obtain ⟨h₁, h₂⟩ := hst.step hb.wellFormed hstep
  exact ⟨w₀, hb, hpath.trans h₁, h₂⟩

lemma kept (h : Reached r before e conf w) (hk : Bookkeeping w w') :
    Reached r before e conf w' := by
  obtain ⟨w₀, hb, hpath, hst⟩ := h
  refine ⟨w₀, hb, hpath.tail (.kept hk), ?_⟩
  have hlast : LastOk w' := by
    intro hl
    rw [hk.status]
    exact hst.last (hk.last ▸ hl)
  refine ⟨?_, ?_, fun hs => (hst.awaiting (hk.status ▸ hs)).kept hk, ?_, ?_, hlast,
    InfoReady.mono hst.info hk.info⟩ <;> simp only [hk.st, hk.status]
  · exact hst.released
  · exact hst.running
  · exact hst.ended
  · exact hst.unexecuted

lemma last (h : Reached r before e conf w) (hs : w.status = .awaitingMinionAllocations) :
    w.lastExecutionStatus = .awaitingMinionAllocations := by
  obtain ⟨w₀, hb, hpath, -⟩ := h
  rcases hpath.lastExecutionStatus with ⟨hs', hl⟩ | ⟨-, hne, -⟩
  · rcases hb.status with ⟨-, h, -⟩ | ⟨-, -, h, -⟩
    · rw [← hs', hs] at h
      cases h
    · exact hl.trans h
  · exact absurd hs hne

lemma nothing_to_begin (h : Reached r before e conf w)
    (hs : w.status ≠ .awaitingMinionAllocations) (ht : t ∈ e.tasks) (hd : t.dependsOn = []) :
    w.st t.id ≠ .scheduled := by
  obtain ⟨-, -, -, hst⟩ := h
  by_cases hact : w.status.isActive = true
  · have hrun : w.status = .running ∨ w.status = .cancelling := by
      revert hact hs
      cases w.status <;> decide
    intro hsch
    obtain ⟨d, hd', -⟩ := (hst.running hrun).1 t ht hsch
    simp [hd] at hd'
  · exact (hst.ended (by simpa using hact)).1 t ht

end Reached

lemma beginLoop_of_nothing (h : ∀ t ∈ tasks, t.dependsOn = [] → x.st t.id ≠ .scheduled) :
    beginLoop e env x tasks started w = (.ok started, w) := by
  induction tasks with
  | nil => rfl
  | cons t tasks ih =>
    rw [beginLoop, if_neg fun ht => h t List.mem_cons_self ht.1 ht.2]
    exact ih fun s hs => h s (List.mem_cons_of_mem _ hs)

lemma Reached.beginTasks (h : Reached r before e conf w) :
    Reached r before e conf (beginTasks e env w w).2 ∧
      (w.status ≠ .awaitingMinionAllocations →
        (Conductor.beginTasks e env w w).2.status ≠ .awaitingMinionAllocations) := by
  by_cases hs : w.status = .awaitingMinionAllocations
  · obtain ⟨w₀, hb, hpath, hst⟩ := id h
    obtain ⟨h₁, h₂⟩ := @beginTasks_spec e conf True reported env w (fun _ => hb.wellFormed)
      (fun _ => hst.ready hs) (.inr (h.last hs))
    exact ⟨⟨w₀, hb, hpath.trans h₁, h₂ trivial⟩, absurd hs⟩
  · have hnone : (Conductor.beginTasks e env w w).2 = w := by
      rw [Conductor.beginTasks, beginLoop_of_nothing fun t ht hd => h.nothing_to_begin hs ht hd]
      rfl
    rw [hnone]
    exact ⟨h, id⟩

lemma Reached.cancel (h : Reached r before e conf w) (hr : r.type ≠ .deployment)
    (hne : e.tasks ≠ []) (force : Bool) :
    Reached r before e conf (cancelTransferTasksExecution e env force w).2 ∧
      (cancelTransferTasksExecution e env force w).2.status ≠ .awaitingMinionAllocations := by
  have hstep : Conductor.Step e conf castOnly w (cancelTransferTasksExecution e env force w).2 := by
    obtain ⟨w₀, hb, -, -⟩ := h
    refine ⟨env, .cancel force, by simp [Call.report?], ?_⟩
    simp [Conductor.step, hb.type, hr]
  refine ⟨h.step hstep, ?_⟩
  obtain ⟨w₀, hb, hpath, hst⟩ := h
  by_cases hs : w.status = .awaitingMinionAllocations
  · have hact : w.status.isActive = true := by rw [hs]; rfl
    have hcalm := (@cancelTasksExecution_active e conf True reported env w (fun _ => hb.wellFormed)
      w force hact fun _ => hst.released).2 trivial hne
    rw [cancelTransferTasksExecution, cancelRunning, if_neg (by simp [hact]), if_neg (by simp [hs])]
    rcases hcalm.cases with ⟨h | h, -⟩ | ⟨h | h | h, -⟩ <;> simp [h]
  · exact (hst.step hb.wellFormed hstep).1.invariant (fun _ _ h => h.status_ne (.inr (.inl rfl))) hs

section

variable {force : Bool}

lemma Confirmation.finish_of_idle {a : Confirmation} (h : a.isBeginning = false) :
    a.finish w = w := by
  cases a with
  | beginning => simp [isBeginning] at h
  | _ => rfl

lemma Cancellation.finish_of_idle {b : Cancellation} (h : b.isCancelling = false) :
    b.finish w = w := by
  cases b with
  | cancelling => simp [isCancelling] at h
  | _ => rfl

lemma Confirmation.next_reached (a : Confirmation) (h : Reached r before e conf (a.finish w)) :
    Reached r before e conf
        ((a.next e allocations env w).1.finish (a.next e allocations env w).2) ∧
      ((a.finish w).status ≠ .awaitingMinionAllocations →
        ((a.next e allocations env w).1.finish (a.next e allocations env w).2).status ≠
          .awaitingMinionAllocations) := by
  cases a with
  | called =>
    simp only [next]
    split <;> exact ⟨h, id⟩
  | checked =>
    have hkept := @updateTaskInfoForMinionAllocations_kept e w allocations
    simp only [next]
    split <;> rename_i hres <;> rw [hres] at hkept
    · exact ⟨h.kept hkept, fun hs haw => hs (hkept.status.symm.trans haw)⟩
    · exact ⟨h.kept hkept, fun hs haw => hs (hkept.status.symm.trans haw)⟩
  | stored =>
    simp only [next, finish, Accesses.run_beginTasks]
    exact h.beginTasks
  | beginning rest =>
    cases rest with
    | done => exact ⟨h, id⟩
    | access => exact ⟨h, id⟩
  | finished => exact ⟨h, id⟩

lemma Cancellation.next_reached (b : Cancellation) (h : Reached r before e conf (b.finish w))
    (hr : r.type ≠ .deployment) (hne : e.tasks ≠ [])
    (hs : b.isCancelling = true ∨ b.isFinished = true →
      (b.finish w).status ≠ .awaitingMinionAllocations) :
    Reached r before e conf ((b.next e force env w).1.finish (b.next e force env w).2) ∧
      ((b.next e force env w).1.finish (b.next e force env w).2).status ≠
        .awaitingMinionAllocations := by
  cases b with
  | called =>
    simp only [next, finish, Accesses.run_cancelTransferTasksExecution]
    exact h.cancel hr hne force
  | cancelling rest =>
    cases rest with
    | done => exact ⟨h, hs (.inl rfl)⟩
    | access => exact ⟨h, hs (.inl rfl)⟩
  | finished => exact ⟨h, hs (.inr rfl)⟩

end

namespace Overlap

variable {s s' : Overlap} {allocations : List (String × MinionAllocation)} {force : Bool}

def outcome (s : Overlap) : World := s.cancellation.finish (s.confirmation.finish s.world)

/-- At most one of the handlers is under way, and it leaves an execution as a run of handlers
does. One that was cancelled does not wait for minions. -/
structure Sound (r : Request) (before : String → Option TaskInfo) (e : Execution) (conf : Conf)
    (s : Overlap) : Prop where
  serial : s.confirmation.isBeginning = false ∨ s.cancellation.isCancelling = false
  reached : Reached r before e conf s.outcome
  cancelled : s.cancellation.isCancelling = true ∨ s.cancellation.isFinished = true →
    s.outcome.status ≠ .awaitingMinionAllocations

lemma Sound.confirm (h : s.Sound r before e conf) (hok : s.Serial .confirmation) :
    Sound r before e conf ⟨(s.confirmation.next e allocations env s.world).2,
      (s.confirmation.next e allocations env s.world).1, s.cancellation⟩ := by
  have hidle : ∀ w, s.cancellation.finish w = w := fun w => Cancellation.finish_of_idle hok
  obtain ⟨-, hreached, hcancelled⟩ := h
  simp only [outcome, hidle] at hreached hcancelled
  obtain ⟨h₁, h₂⟩ := s.confirmation.next_reached hreached
  refine ⟨.inr hok, ?_, fun hx => ?_⟩ <;> simp only [outcome, hidle]
  · exact h₁
  · exact h₂ (hcancelled hx)

lemma Sound.cancel (h : s.Sound r before e conf) (hr : r.type ≠ .deployment)
    (hne : e.tasks ≠ []) (hok : s.Serial .cancellation) :
    Sound r before e conf ⟨(s.cancellation.next e force env s.world).2, s.confirmation,
      (s.cancellation.next e force env s.world).1⟩ := by
  have hidle : ∀ w, s.confirmation.finish w = w := fun w => Confirmation.finish_of_idle hok
  obtain ⟨-, hreached, hcancelled⟩ := h
  simp only [outcome, hidle] at hreached hcancelled
  obtain ⟨h₁, h₂⟩ := s.cancellation.next_reached hreached hr hne hcancelled
  refine ⟨.inl hok, ?_, fun _ => ?_⟩ <;> simp only [outcome, hidle]
  · exact h₁
  · exact h₂

lemma Sound.step (h : s.Sound r before e conf) (hr : r.type ≠ .deployment)
    (hne : e.tasks ≠ []) (hs : Step e conf allocations force Serial s s') :
    s'.Sound r before e conf := by
  cases hs with
  | confirm hok => exact h.confirm hok
  | cancel hok => exact h.cancel hr hne hok
  | @report env c report hok hrep ht hcast hexecution htransfer =>
    have hidle : ∀ w, s.cancellation.finish (s.confirmation.finish w) = w := fun w => by
      rw [Cancellation.finish_of_idle hexecution, Confirmation.finish_of_idle hok]
    obtain ⟨-, hreached, hcancelled⟩ := h
    simp only [outcome, hidle] at hreached hcancelled
    have hstep : Conductor.Step e conf castOnly s.world (Conductor.step e conf env c s.world).2 :=
      ⟨env, c, fun r hr => by
        obtain rfl : report = r := by simpa [hrep] using hr
        exact ⟨ht, hcast⟩, rfl⟩
    refine ⟨.inr hexecution, ?_, fun hx => ?_⟩ <;> simp only [outcome, hidle]
    · exact hreached.step hstep
    · obtain ⟨w₀, hb, -, hst⟩ := hreached
      exact (hst.step hb.wellFormed hstep).1.invariant (fun _ _ h => h.status_ne (.inr (.inl rfl)))
        (hcancelled hx)

lemma Run.sound (hb : Built r before e w) (hr : r.type ≠ .deployment)
    (haw : r.awaitsMinions = true) (hne : e.tasks ≠ [])
    (h : Run e conf allocations force Serial ⟨w, .called, .called⟩ s) :
    s.Sound r before e conf := by
  induction h with
  | refl =>
    obtain ⟨w₀, hb₀, hpath, hst⟩ := Launched.start (.awaiting hb haw) conf
    exact ⟨.inl rfl, ⟨w₀, hb₀, hpath, hst⟩, by simp [Cancellation.isCancelling, Cancellation.isFinished]⟩
  | tail _ hs ih => exact ih.step hr hne hs

/-- The confirmation of minions and the cancellation of the execution that waits for them, with
the reports of workers, in any order in which the confirmation is left alone from its reading
of the execution on: when both have finished and every worker has reported back for its tasks,
the execution is over, and none of its tasks is SCHEDULED or active. -/
theorem settled_after_serial (r : Request) (before : String → Option TaskInfo) (e : Execution)
    (conf : Conf) (w : World) (hb : Built r before e w) (hr : r.type ≠ .deployment)
    (haw : r.awaitsMinions = true) (hne : e.tasks ≠ [])
    (allocations : List (String × MinionAllocation)) (force : Bool) (s : Overlap)
    (hrun : Run e conf allocations force Serial ⟨w, .called, .called⟩ s)
    (hcond : ∀ ev ∈ s.world.trace, castsUnlessCancelling ev = true)
    (hconfirmed : s.confirmation.isFinished = true) (hcancelled : s.cancellation.isFinished = true)
    (hreported : ∀ t ∈ e.tasks, s.world.emitted (.beginTask t.id) → s.world.answered t.id) :
    s.world.status.isFinalized = true ∧
      ∀ t ∈ e.tasks, s.world.st t.id ≠ .scheduled ∧ (s.world.st t.id).isActive = false := by
  have hsound := Run.sound hb hr haw hne hrun
  have hidle : s.outcome = s.world := by
    have hb' : s.confirmation.isBeginning = false := by
      cases hc : s.confirmation <;> simp_all [Confirmation.isFinished, Confirmation.isBeginning]
    have hx' : s.cancellation.isCancelling = false := by
      cases hx : s.cancellation <;> simp_all [Cancellation.isFinished, Cancellation.isCancelling]
    rw [outcome, Confirmation.finish_of_idle hb', Cancellation.finish_of_idle hx']
  obtain ⟨-, hreached, hwaiting⟩ := hsound
  rw [hidle] at hreached hwaiting
  have hwaiting := hwaiting (.inr hcancelled)
  obtain ⟨w₀, hb₀, hpath, hst⟩ := hreached
  have hen := hpath.invariant_of_trace (fun _ _ h hcond => Entrusted.change h hcond) hcond
    hb₀.entrusted
  have hover : ∀ t ∈ e.tasks, (s.world.st t.id).isActive = false := by
    intro t ht
    by_contra hact
    have hact : (s.world.st t.id).isActive = true := by simpa using hact
    have hset := hen.answered t ht (hreported t ht (hen.cast t ht hact))
    rw [TaskStatus.isActive_of_isSettled hset] at hact
    cases hact
  have hrunning : ¬(s.world.status = .running ∨ s.world.status = .cancelling) := fun h => by
    obtain ⟨t, ht, hact⟩ := (hst.running h).2
    rw [hover t ht] at hact
    cases hact
  have hearly : s.world.status ≠ .unexecuted ∧ s.world.status ≠ .pending := by
    have hstatus : w₀.status = .awaitingMinionAllocations := by rw [hb₀.status_eq, haw]; rfl
    refine ⟨hpath.invariant (fun _ _ h => h.status_ne (.inl rfl)) (by simp [hstatus]), ?_⟩
    rcases hpath.lastExecutionStatus with ⟨h, -⟩ | ⟨-, -, h⟩
    · simp [h, hstatus]
    · exact h
  have hfin : s.world.status.isActive = false ∧ s.world.status.isFinalized = true := by
    revert hwaiting hrunning hearly
    cases s.world.status <;> decide
  exact ⟨hfin.2, fun t ht => ⟨(hst.ended hfin.1).1 t ht, hover t ht⟩⟩

/-- What can happen next, with every service answering. -/
inductive Move where
  | confirm
  | cancel
  | report (c : Call)

def Move.party : Move → Party
  | confirm => .confirmation
  | cancel => .cancellation
  | report _ => .worker

def move (e : Execution) (s : Overlap) : Move → Overlap
  | .confirm => ⟨(s.confirmation.next e [] responsive s.world).2,
      (s.confirmation.next e [] responsive s.world).1, s.cancellation⟩
  | .cancel => ⟨(s.cancellation.next e false responsive s.world).2, s.confirmation,
      (s.cancellation.next e false responsive s.world).1⟩
  | .report c => { s with world := (Conductor.step e plainConf responsive c s.world).2 }

def allows (e : Execution) (s : Overlap) : Move → Bool
  | .report c => (c.report?.any fun r => e.tasks.contains r.task && s.world.wasCast r.task.id) &&
      !s.cancellation.isCancelling && !(c.locksAction s.world && s.confirmation.isLocking)
  | _ => true

def allowsAll (e : Execution) (good : Overlap → Party → Bool) : List Move → Overlap → Bool
  | [], _ => true
  | m :: moves, s => good s m.party && s.allows e m && allowsAll e good moves (s.move e m)

lemma step_move (hok : ok s m.party) (h : s.allows e m = true) :
    Step e plainConf [] false ok s (s.move e m) := by
  cases m with
  | confirm => exact .confirm hok
  | cancel => exact .cancel hok
  | report c =>
    simp only [allows, Bool.and_eq_true, Bool.not_eq_true', Option.any_eq_true,
      List.contains_iff_mem, wasCast_iff] at h
    obtain ⟨⟨⟨r, hr, ht, hcast⟩, hexecution⟩, htransfer⟩ := h
    exact .report hok hr ht hcast hexecution fun hl => by simpa [hl] using htransfer

lemma run_moves (hgood : ∀ s p, good s p = true → ok s p) {moves : List Move}
    (h : allowsAll e good moves s = true) :
    Run e plainConf [] false ok s (moves.foldl (move e) s) := by
  induction moves generalizing s with
  | nil => exact .refl
  | cons m moves ih =>
    simp only [allowsAll, Bool.and_eq_true] at h
    exact .head (step_move (hgood _ _ h.1.1) h.1.2) (ih h.2)

/-- The execution of a transfer of one instance with a minion pool at its origin. -/
def onMinions : Request := .executeTransferTasks true false false

def pooled : Execution := onMinions.execution (fun _ => none) ["vm"] "execution" "action"

def pooledStored : World := onMinions.stored (fun _ => none) ["vm"]

lemma built_pooled : Built onMinions (fun _ => none) pooled pooledStored :=
  onMinions.built _ ["vm"] "execution" "action" trivial (by decide)
    (by decide)

def reports (calls : List (Env × Call)) : List Move := calls.map fun call => .report call.2

/-- The confirmation has begun the two first tasks and their workers run them. The execution
is cancelled, the workers confirm it, and only then the confirmation comes to its end. -/
def overtakenMoves : List Move :=
  List.replicate 7 .confirm ++ reports (runs pooled 0 ++ runs pooled 1) ++
    List.replicate 20 .cancel ++ reports (confirms responsive pooled 0 ++
      confirms responsive pooled 1) ++ List.replicate 2 .confirm

def overtaken : Overlap := overtakenMoves.foldl (move pooled) ⟨pooledStored, .called, .called⟩

def wasAnswered (w : World) (id : TaskId) : Bool :=
  w.trace.any fun ev => match ev.effect with
    | .taskCompleted i | .taskErrored i | .taskCancelled i => i == id
    | _ => false

lemma answered_of_wasAnswered {id : TaskId} (h : wasAnswered w id = true) : w.answered id := by
  simp only [wasAnswered, List.any_eq_true] at h
  obtain ⟨ev, hev, h⟩ := h
  split at h <;> rename_i heff
  · exact .inl ⟨ev, hev, heff.trans (congrArg _ (by simpa using h))⟩
  · exact .inr (.inl ⟨ev, hev, heff.trans (congrArg _ (by simpa using h))⟩)
  · exact .inr (.inr ⟨ev, hev, heff.trans (congrArg _ (by simpa using h))⟩)
  · simp at h

/-- Both handlers have finished and every worker has reported back, but the execution is
RUNNING, with all its tasks over. -/
theorem running_after_overlap :
    Built onMinions (fun _ => none) pooled pooledStored ∧
      Run pooled plainConf [] false (fun _ _ => True) ⟨pooledStored, .called, .called⟩ overtaken ∧
      overtaken.confirmation.isFinished = true ∧ overtaken.cancellation.isFinished = true ∧
      (∀ t ∈ pooled.tasks, overtaken.world.emitted (.beginTask t.id) →
        overtaken.world.answered t.id) ∧
      (∀ t ∈ pooled.tasks, (overtaken.world.st t.id).isFinalized = true) ∧
      overtaken.world.status = .running := by
  refine ⟨built_pooled, run_moves (fun _ _ _ => trivial)
    (show allowsAll pooled (fun _ _ => true) overtakenMoves _ = true by decide),
    by decide, by decide, fun t ht hcast => ?_, by decide,
    by decide⟩
  rw [← wasCast_iff] at hcast
  have hall : ∀ t ∈ pooled.tasks, overtaken.world.wasCast t.id = true →
      wasAnswered overtaken.world t.id = true := by decide
  exact answered_of_wasAnswered (hall t ht hcast)

def servedMoves : List Move :=
  List.replicate 9 .confirm ++ reports (runs pooled 0 ++ runs pooled 1) ++
    List.replicate 22 .cancel ++ reports (confirms responsive pooled 0 ++
      confirms responsive pooled 1)

def served : Overlap := servedMoves.foldl (move pooled) ⟨pooledStored, .called, .called⟩

def isSerial (s : Overlap) : Party → Bool
  | .confirmation => !s.cancellation.isCancelling
  | _ => !s.confirmation.isBeginning

lemma serial_of_isSerial (s : Overlap) (p : Party) (h : s.isSerial p = true) : s.Serial p := by
  cases p <;> simpa [isSerial, Serial] using h

theorem settled_after_serial_served :
    (served.confirmation.isFinished = true ∧ served.cancellation.isFinished = true) ∧
      served.world.status.isFinalized = true ∧
        ∀ t ∈ pooled.tasks, served.world.st t.id ≠ .scheduled ∧
          (served.world.st t.id).isActive = false := by
  have hfinished : served.confirmation.isFinished = true ∧ served.cancellation.isFinished = true := by
    decide
  have hall : ∀ t ∈ pooled.tasks, served.world.wasCast t.id = true →
      wasAnswered served.world t.id = true := by decide
  exact ⟨hfinished, settled_after_serial onMinions _ pooled plainConf pooledStored built_pooled
    (by decide) rfl (by decide) [] false served (run_moves serial_of_isSerial (by decide))
    (by decide) hfinished.1 hfinished.2 fun t ht hcast =>
      answered_of_wasAnswered (hall t ht (wasCast_iff.mpr hcast))⟩

end Overlap

end Coriolis.Conductor

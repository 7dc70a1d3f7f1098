import Coriolis.Conductor.Paths
import Coriolis.Conductor.Sanity

/-!
# One advancement is enough

An advancement visits the tasks in the order of their indices and decides on each of them once,
with the statuses that its earlier decisions have set. If no start fails, no decision is left to
be taken afterwards, and the same call made again does nothing.
-/

namespace Coriolis.Conductor

variable {e : Execution} {env : Env} {w db x : World} {st : TaskId → TaskStatus} {t : Task}
  {inst : Option String} {started : List TaskId}

lemma decision_none_of_settled (h : Settled st t) : lifecycleDecision e st t = .none := by
  cases hdec : lifecycleDecision e st t with
  | none => rfl
  | start =>
    obtain ⟨hs, hparents⟩ := decision_start hdec
    obtain ⟨d, hd, hfin⟩ := h hs
    rcases hparents with hnone | hparents
    · simp [hnone] at hd
    · simp [hparents.1 d hd] at hfin
  | unschedule details =>
    obtain ⟨hs, -, hparents, -⟩ := decision_unschedule hdec
    obtain ⟨d, hd, hfin⟩ := h hs
    simp [hparents d hd] at hfin

lemma advanceLoop_of_settled (h : ∀ t ∈ l, Settled st t) :
    advanceLoop e env cancel l st started db = (.ok (st, started), db) := by
  induction l with
  | nil => rfl
  | cons t l ih =>
    rw [List.forall_mem_cons] at h
    rw [advanceLoop, decision_none_of_settled h.1]
    exact ih h.2

def Env.StartsAll (env : Env) (e : Execution) : Prop :=
  ∀ t ∈ e.tasks, env.findsWorker t.id = true ∧ env.beginTaskGoesOut t.id = true

/-- Tasks that were visited, in an order in which none is followed by one of its parents: all are
settled, and those that were started are active. -/
structure Visited (st : TaskId → TaskStatus) (started : List TaskId) (done : List Task) : Prop where
  settled : ∀ t ∈ done, Settled st t
  active : started ≠ [] → ∃ t ∈ done, (st t.id).isActive = true

lemma Visited.update (h : Visited st started done)
    (ha : ∀ t ∈ done, a.id ∉ t.dependsOn ∧ t.id ≠ a.id) (hs : s ≠ .scheduled)
    (hstarted : started' = started ∨ s.isActive = true) :
    Visited (Function.update st a.id s) started' (done ++ [a]) where
  settled := List.forall_mem_append.mpr ⟨fun t ht => (h.settled t ht).update (ha t ht).2 (ha t ht).1,
    List.forall_mem_singleton.mpr (settled_update_self hs)⟩
  active hne := by
    rcases hstarted with rfl | hactive
    · obtain ⟨t, ht, hactive⟩ := h.active hne
      exact ⟨t, List.mem_append_left _ ht, by rwa [Function.update_of_ne (ha t ht).2]⟩
    · exact ⟨a, by simp, by simpa using hactive⟩

lemma advanceLoop_visits (hstarts : env.StartsAll e) (hl : ∀ t ∈ l, t ∈ e.tasks)
    (hpw : (done ++ l).Pairwise fun a b => b.id ∉ a.dependsOn ∧ a.id ≠ b.id)
    (hdone : Visited db.st started done) :
    ∃ started' db', advanceLoop e env cancel l db.st started db = (.ok (db'.st, started'), db') ∧
      db'.status = db.status ∧ Visited db'.st started' (done ++ l) := by
  induction l generalizing started db done with
  | nil => exact ⟨started, db, rfl, rfl, by simpa using hdone⟩
  | cons a l ih =>
    rw [List.forall_mem_cons] at hl
    have hbefore : ∀ t ∈ done, a.id ∉ t.dependsOn ∧ t.id ≠ a.id := fun t ht =>
      (List.pairwise_append.mp hpw).2.2 t ht a List.mem_cons_self
    rw [List.append_cons] at hpw ⊢
    rw [advanceLoop]
    cases hdec : lifecycleDecision e db.st a with
    | none =>
      exact ih hl.2 hpw ⟨List.forall_mem_append.mpr ⟨hdone.settled,
        List.forall_mem_singleton.mpr (settled_of_decision_none hdec)⟩, fun hne =>
          (hdone.active hne).imp fun t ht => ⟨List.mem_append_left _ ht.1, ht.2⟩⟩
    | unschedule details =>
      have hvisited : Visited (db.setTaskStatus a.id .unscheduled (some details)).st started
          (done ++ [a]) := by
        rw [World.st_setTaskStatus]
        exact hdone.update hbefore (by decide) (.inl rfl)
      obtain ⟨started', db', heq, h⟩ := ih hl.2 hpw hvisited
      rw [World.st_setTaskStatus] at heq
      exact ⟨started', db', heq, h⟩
    | start =>
      have hvisited : Visited (db.started a).st (started ++ [a.id]) (done ++ [a]) := by
        rw [started_st]
        exact hdone.update hbefore (by decide) (.inr rfl)
      obtain ⟨started', db', heq, h⟩ := ih hl.2 hpw hvisited
      rw [started_st] at heq
      exact ⟨started', db', by simpa [startTask, hstarts a hl.1, World.started] using heq, h⟩

/-- No decision on the tasks is left to be taken. -/
structure Quiet (e : Execution) (inst : Option String) (w : World) : Prop where
  settled : ∀ t ∈ tasksToProcess e inst, Settled w.st t
  notDeadlocked : isDeadlocked e w.st = false
  status : w.status.isActive = true → w.status = getExecutionStatus e w

lemma Quiet.finishAdvance (h : Quiet e inst w) (hactive : w.status.isActive = true) :
    finishAdvance e w w.st [] w = (.ok [], w) := by
  simp only [Conductor.finishAdvance, if_true, checkCleanExecutionDeadlock, Option.getD_some,
    h.notDeadlocked, Bool.false_eq_true, if_false, refreshExecutionStatus, ← h.status hactive,
    ne_eq, not_true]

lemma Quiet.advance (h : Quiet e inst w) (hne : tasksToProcess e inst ≠ [])
    (requery : Bool) (hx : x.st = w.st) (hs : x.status = w.status) :
    advanceExecutionState e env x requery inst w = (.ok [], w) := by
  rw [advanceExecutionState, stackDepth, Conductor.advance, advanceWith_eq hx hs]
  by_cases hactive : w.status.isActive = true
  · rw [advanceLoop_of_settled fun t ht => h.settled t (mem_sortedByIndex.mp ht)]
    simp [hactive, hne, h.finishAdvance hactive]
  · simp [hactive, h.notDeadlocked]

lemma quiet_refresh (hstatus : w.status = db.status)
    (hset : ∀ t ∈ tasksToProcess e inst, Settled w.st t) (hdead : isDeadlocked e w.st = false) :
    Quiet e inst (refreshExecutionStatus e db w) := by
  rw [refreshExecutionStatus]
  split
  · exact ⟨by simpa using hset, by simpa using hdead, fun _ => by simp [getExecutionStatus]⟩
  · next heq => exact ⟨hset, hdead, fun _ => hstatus.trans (not_not.mp heq).symm⟩

lemma quiet_cleanDeadlock :
    Quiet e inst (cleanDeadlock e previous w.st w) := by
  have hnot : ∀ t ∈ e.tasks, (cleanDeadlock e previous w.st w).st t.id ≠ .scheduled := by
    intro t ht
    rw [cleanDeadlock_st ht]
    split
    · decide
    · next h => exact fun hs => h (.inl hs)
  refine ⟨fun t ht hs => absurd hs (hnot t (mem_tasksToProcess ht)), ?_, fun h => ?_⟩
  · rw [← Bool.not_eq_true, isDeadlocked_iff]
    exact fun ⟨⟨t, ht, hs⟩, _⟩ => hnot t ht hs
  · rw [cleanDeadlock_status] at h
    cases h

lemma quiet_finishAdvance (hstatus : w.status = db.status)
    (hvisited : Visited w.st started (sortedByIndex (tasksToProcess e inst))) :
    ∃ started' w', finishAdvance e db w.st started w = (.ok started', w') ∧ Quiet e inst w' := by
  have hset : ∀ t ∈ tasksToProcess e inst, Settled w.st t := fun t ht =>
    hvisited.settled t (mem_sortedByIndex.mpr ht)
  unfold finishAdvance
  split
  · rw [checkCleanExecutionDeadlock]
    simp only [if_true, Option.getD_some]
    by_cases hdead : isDeadlocked e w.st = true
    · simp only [hdead, if_true]
      exact ⟨[], _, rfl, quiet_cleanDeadlock⟩
    · simp only [hdead, Bool.false_eq_true, if_false]
      exact ⟨started, _, rfl, quiet_refresh hstatus hset (Bool.not_eq_true _ ▸ hdead)⟩
  · next hne =>
    obtain ⟨t, ht, hactive⟩ := hvisited.active hne
    refine ⟨started, _, rfl, quiet_refresh hstatus hset ?_⟩
    rw [← Bool.not_eq_true, isDeadlocked_iff]
    rintro ⟨-, hno⟩
    simp [hno t (mem_tasksToProcess (mem_sortedByIndex.mp ht))] at hactive

/-- After one advancement in which every start goes out no task that it visited waits for parents
that are all over, and the same call made again on what is stored starts nothing and changes
nothing. -/
theorem advance_reaches_fixpoint (hdeps : Descending e) (hstarts : env.StartsAll e)
    (inst : Option String) (requery : Bool) (hactive : db.status.isActive = true)
    (hx : x.st = db.st) (hs : x.status = db.status) :
    let db' := (advanceExecutionState e env x requery inst db).2
    (∀ t ∈ tasksToProcess e inst, db'.st t.id = .scheduled →
      ∃ d ∈ t.dependsOn, (db'.st d).isFinalized = false) ∧
    ∀ x' requery', x'.st = db'.st → x'.status = db'.status →
      (advanceExecutionState e env x' requery' inst db').2 = db' ∧
        ∀ started, (advanceExecutionState e env x' requery' inst db').1 = .ok started → started = [] := by
  intro db'
  by_cases hne : tasksToProcess e inst = []
  · -- the call raises
    have hraise (x : World) (requery : Bool) (hx : x.st = db.st) (hs : x.status = db.status) :
        advanceExecutionState e env x requery inst db =
          (.error (.invalidActionTasksExecutionState (noTasksMessage e inst)), db) := by
      rw [advanceExecutionState, stackDepth, advance, advanceWith_eq hx hs]
      simp [hactive, hne]
    have hdb : db' = db := congrArg Prod.snd (hraise x requery hx hs)
    rw [hdb]
    refine ⟨by simp [hne], fun x' requery' hx' hs' => ?_⟩
    simp [hraise x' requery' hx' hs']
  have hpw := pairwise_sortedByIndex hdeps (fun t ht => mem_tasksToProcess ht)
    (nodup_tasksToProcess e inst)
  obtain ⟨started, w, hloop, hstatus, hvisited⟩ := advanceLoop_visits hstarts
    (fun t ht => mem_tasksToProcess (mem_sortedByIndex.mp ht)) hpw
    (⟨by simp, by simp⟩ : Visited db.st [] [])
  obtain ⟨started', w', hfinish, hquiet⟩ := quiet_finishAdvance hstatus hvisited
  have hdb : db' = w' := by
    change (advanceExecutionState e env x requery inst db).2 = w'
    rw [advanceExecutionState, stackDepth, advance, advanceWith_eq hx hs, hloop]
    simp [hactive, hne, hfinish]
  rw [hdb]
  refine ⟨hquiet.settled, fun x' requery' hx' hs' => ?_⟩
  simp [hquiet.advance hne requery' hx' hs']

theorem advance_fixpoint_validation :
    let env : Env := ⟨fun _ => true, fun _ => "", fun _ => true, fun _ => true⟩
    let db : World := ⟨.running, .running, fun _ => ⟨.scheduled, none, none, none⟩, fun _ => none, []⟩
    let db' := (advanceExecutionState validation env db true none db).2
    (advanceExecutionState validation env db' true none db').2 = db' := by
  intro env db db'
  refine ((advance_reaches_fixpoint ?_ (fun _ _ => ⟨rfl, rfl⟩) none true rfl rfl rfl).2 db' true rfl
    rfl).1
  simp [Descending, validation]

end Coriolis.Conductor

import Coriolis.Conductor.Events

/-!
# Advancement is a path of changes and leaves the execution calm

`advance_spec` unrolls the recursion between `_advance_execution_state` and
`_cancel_tasks_execution`: whatever starts fail on the way, the result is reached by
changes, and in a well-formed execution every task that still waits then waits for a
parent that is not over. The depth of the recursion is bounded by the number of tasks that
could still be started, since every failed start uses one of them up.
-/

namespace Coriolis.Conductor

variable {e : Execution} {conf : Conf} {strong : Prop} {ok : World → Report → Prop} {env : Env}
  {w w' db : World}

lemma Released.of_no_scheduled (h : ∀ t ∈ e.tasks, st t.id ≠ .scheduled) : Released e st :=
  fun t ht hs => absurd hs (h t ht)

lemma Released.of_isSettled (h : Released e st) {id : TaskId} (hs : s.isSettled = true)
    : Released e (Function.update st id s) :=
  h.update (ne_of_isSettled hs (by decide)) (ne_of_isSettled hs (by decide))

lemma Released.change (wf : WellFormed e) (h : Change e conf strong ok w w')
    (hr : Released e w.st) : Released e w'.st := by
  intro t ht hs d hd hoe
  obtain ⟨p, hp, rfl, -⟩ := wf.parent t ht d hd
  have hparent := (h.task hp).onErrorOnly hoe
  rcases (h.task ht).scheduled hs with hst | ⟨-, -, hall⟩
  · exact hr t ht hst _ hd hparent
  · exact hall p hp hoe

lemma Released.changes (wf : WellFormed e) (h : Changes e conf strong ok w w')
    (hr : Released e w.st) : Released e w'.st :=
  h.invariant (P := fun w => Released e w.st) (fun _ _ => Released.change wf) hr

/-- What an advancement leaves behind. -/
structure Calm (e : Execution) (w : World) : Prop where
  settled : ∀ t ∈ e.tasks, Settled w.st t
  status : w.status = getExecutionStatus e w
  notDeadlocked : w.status ≠ .deadlocked

section

variable {requery : Bool}

lemma refreshExecutionStatus_eq (hs : x.status = db.status) :
    refreshExecutionStatus e x w = refreshExecutionStatus e db w := by
  simp only [refreshExecutionStatus, hs]

lemma finishAdvance_eq (hs : x.status = db.status) :
    finishAdvance e x ts started w = finishAdvance e db ts started w := by
  simp only [finishAdvance, checkCleanExecutionDeadlock, if_true, refreshExecutionStatus_eq hs]

lemma advanceWith_eq (hx : x.st = db.st) (hs : x.status = db.status) :
    advanceWith e env cancel x requery inst db =
      if !db.status.isActive then
        (.ok [], if isDeadlocked e db.st then cleanDeadlock e db.status db.st db else db)
      else if (tasksToProcess e inst).isEmpty then
        (.error (.invalidActionTasksExecutionState (noTasksMessage e inst)), db)
      else
        match advanceLoop e env cancel (sortedByIndex (tasksToProcess e inst)) db.st [] db with
        | (.error err, db) => (.error err, db)
        | (.ok looped, db') => finishAdvance e db looped.1 looped.2 db' := by
  have hx' : (if requery then db else x).st = db.st := by split <;> simp [hx]
  have hs' : (if requery then db else x).status = db.status := by split <;> simp [hs]
  simp only [advanceWith]
  generalize (if requery = true then db else x) = y at hx' hs' ⊢
  simp only [hs', hx', finishAdvance_eq hs']
  rw [checkCleanExecutionDeadlock_eq hx' hs' (by simp)]
  split_ifs <;> rfl

lemma advance_eq (hx : x.st = db.st) (hs : x.status = db.status) :
    advance e env fuel x requery inst db = advance e env fuel db true inst db := by
  cases fuel with
  | zero => rfl
  | succ fuel => simp only [advance, advanceWith_eq hx hs, advanceWith_eq rfl rfl]

lemma advance_requery :
    advance e env fuel x true inst db = advance e env fuel db true inst db := by
  cases fuel <;> rfl

end

def Descending (e : Execution) : Prop :=
  ∀ t ∈ e.tasks, ∀ d ∈ t.dependsOn, ∃ p ∈ e.tasks, p.id = d ∧ p.inst = t.inst ∧ p.index < t.index

/-- In the order of their indices no task is followed by one of its parents. -/
lemma pairwise_sortedByIndex (hparent : Descending e) (hts : ∀ t ∈ ts, t ∈ e.tasks)
    (hnd : (ts.map (·.id)).Nodup) :
    (sortedByIndex ts).Pairwise fun a b => b.id ∉ a.dependsOn ∧ a.id ≠ b.id := by
  have hsorted : (sortedByIndex ts).Pairwise fun a b => a.index ≤ b.index :=
    List.pairwise_insertionSort _ _
  have hids : (sortedByIndex ts).Pairwise fun a b => a.id ≠ b.id :=
    List.pairwise_map.mp (nodup_sortedByIndex hnd)
  refine (hsorted.and hids).imp_of_mem fun {a b} ha hb hab => ⟨fun hmem => ?_, hab.2⟩
  have ha' := hts a (mem_sortedByIndex.mp ha)
  have hb' := hts b (mem_sortedByIndex.mp hb)
  obtain ⟨p, hp, hpid, -, hlt⟩ := hparent a ha' _ hmem
  obtain rfl := task_eq_of_id hp hb' hpid
  exact absurd hab.1 (Nat.not_le.mpr hlt)

lemma mem_tasksToProcess (ht : t ∈ tasksToProcess e inst) : t ∈ e.tasks := by
  simp only [tasksToProcess] at ht
  split at ht
  · exact ht
  · split at ht
    · exact ht
    · exact List.mem_of_mem_filter ht

lemma nodup_tasksToProcess (e : Execution) (inst : Option String) :
    ((tasksToProcess e inst).map (·.id)).Nodup := by
  simp only [tasksToProcess]
  split
  · exact e.nodup
  · split
    · exact e.nodup
    · exact e.nodup.sublist (List.filter_sublist.map _)

lemma not_mem_dependsOn_of_not_mem (wf : WellFormed e) (ht : t ∈ e.tasks)
    (hnot : t ∉ tasksToProcess e inst) (hb : b ∈ tasksToProcess e inst) :
    b.id ∉ t.dependsOn ∧ t.id ≠ b.id := by
  refine ⟨fun hmem => hnot ?_, fun h => hnot (task_eq_of_id ht (mem_tasksToProcess hb) h ▸ hb)⟩
  obtain ⟨p, hp, hpid, hinst, -⟩ := wf.parent t ht _ hmem
  obtain rfl := task_eq_of_id hp (mem_tasksToProcess hb) hpid
  simp only [tasksToProcess] at hb ⊢
  split at hb
  · exact ht
  · split at hb
    · rename_i hi
      simp [hi, ht]
    · rename_i hi
      simp only [hi, if_false, List.mem_filter, decide_eq_true_eq] at hb ⊢
      exact ⟨ht, by rw [← hinst, hb.2]⟩

lemma waiting_update_le {id : TaskId} (h : s.isWaiting = false)
    : waiting e (Function.update st id s) ≤ waiting e st := by
  refine waiting_mono fun t _ ht => ?_
  by_cases hti : t.id = id
  · simp [hti, h] at ht
  · rwa [Function.update_of_ne hti] at ht

lemma waiting_update_lt (ht : t ∈ e.tasks) (hs : (st t.id).isWaiting = true)
    (h : s.isWaiting = false) :
    waiting e (Function.update st t.id s) < waiting e st := by
  refine waiting_lt ht (fun u _ hu => ?_) hs (by simpa using h)
  by_cases hut : u.id = t.id
  · simp [hut, h] at hu
  · rwa [Function.update_of_ne hut] at hu

/-- What the loop needs to know about the cancellation that a failed start makes: it
continues the change the failed start is, and calms the execution if enough depth is left. -/
def CancelSpec (e : Execution) (conf : Conf) (strong : Prop) (ok : World → Report → Prop)
    (env : Env) (depth : Nat) (cancel : World → Outcome Unit) : Prop :=
  ∀ w : World, w.status.isActive = true → (strong → Released e w.st) → e.tasks ≠ [] →
    Changes e conf strong ok (enterCancellation e env false w) (cancel w).2 ∧
      (strong → waiting e w.st < depth → Calm e (cancel w).2)

/-- The loop of an advancement either reaches its end, with every task it looked at
settled, or breaks off in a cancellation. -/
def LoopSpec (e : Execution) (conf : Conf) (strong : Prop) (ok : World → Report → Prop)
    (depth : Nat) (db : World) (seen : Task → Prop)
    (result : Outcome ((TaskId → TaskStatus) × List TaskId)) : Prop :=
  (∃ started db', result = (.ok (db'.st, started), db') ∧ db'.status = db.status ∧
    Changes e conf strong ok db db' ∧ (strong → ∀ t, seen t → Settled db'.st t)) ∨
  ∃ err db', result = (.error err, db') ∧ Changes e conf strong ok db db' ∧
    (strong → waiting e db.st ≤ depth → Calm e db')

section

variable {depth : Nat} {db db₁ : World} {seen seen₁ : Task → Prop}

lemma LoopSpec.before {result : Outcome ((TaskId → TaskStatus) × List TaskId)}
    (h : LoopSpec e conf strong ok depth db₁ seen₁ result) (hst : db₁.status = db.status)
    (hch : Changes e conf strong ok db db₁) (hw : strong → waiting e db₁.st ≤ waiting e db.st)
    (hseen : ∀ t, seen t → seen₁ t) : LoopSpec e conf strong ok depth db seen result := by
  rcases h with ⟨started, db', h1, h2, h3, h4⟩ | ⟨err, db', h1, h2, h3⟩
  · exact .inl ⟨started, db', h1, h2.trans hst, hch.trans h3, fun hs t ht => h4 hs t (hseen t ht)⟩
  · exact .inr ⟨err, db', h1, hch.trans h2, fun hs hd => h3 hs ((hw hs).trans hd)⟩

/-- The start of a task failed: the cancellation takes over. -/
lemma LoopSpec.failed (hcancel : CancelSpec e conf strong ok env depth cancel) (ha : a ∈ e.tasks)
    (hdec : lifecycleDecision e db.st a = .start) (hact : db.status.isActive = true)
    (hrel : strong → Released e db.st) (hw₁ : w₁ = db.notScheduled env a ∨ w₁ = db.castRaised a) :
    LoopSpec e conf strong ok depth db seen (.error err, (cancel w₁).2) := by
  have hw : (db.st a.id).isWaiting = true := by rw [(decision_start hdec).1]; rfl
  obtain ⟨s, hst, hsw, hs1, hs2, hstatus, hchange⟩ : ∃ s : TaskStatus,
      w₁.st = Function.update db.st a.id s ∧ s.isWaiting = false ∧ s ≠ .scheduled ∧
      s ≠ .onErrorOnly ∧ w₁.status = db.status ∧
      Change e conf strong ok db (enterCancellation e env false w₁) := by
    rcases hw₁ with rfl | rfl
    · exact ⟨_, notScheduled_st _ _ _, by decide, by decide, by decide, rfl, .notScheduled ha hdec⟩
    · exact ⟨_, castRaised_st _ _, by decide, by decide, by decide, rfl, .castRaised ha hdec⟩
  obtain ⟨hpath, hcalm⟩ := hcancel w₁ (hstatus ▸ hact)
    (fun hs => hst ▸ (hrel hs).update hs1 hs2) (List.ne_nil_of_mem ha)
  refine .inr ⟨err, (cancel w₁).2, rfl, .head hchange hpath, fun hs hdepth => hcalm hs ?_⟩
  rw [hst]
  exact (waiting_update_lt ha hw hsw).trans_le hdepth

end

lemma advanceLoop_spec (wf : strong → WellFormed e)
    (hcancel : CancelSpec e conf strong ok env depth cancel) (started : List TaskId) (db : World)
    (done : Task → Prop) (hl : ∀ t ∈ l, t ∈ e.tasks)
    (hpw : strong → l.Pairwise fun a b => b.id ∉ a.dependsOn ∧ a.id ≠ b.id)
    (hdone : strong → ∀ t, done t →
      Settled db.st t ∧ ∀ b ∈ l, b.id ∉ t.dependsOn ∧ t.id ≠ b.id)
    (hact : db.status.isActive = true) (hrel : strong → Released e db.st) :
    LoopSpec e conf strong ok depth db (fun t => done t ∨ t ∈ l)
      (advanceLoop e env cancel l db.st started db) := by
  induction l generalizing db started done with
  | nil =>
    refine .inl ⟨started, db, rfl, rfl, .refl, fun hs t ht => ?_⟩
    exact (hdone hs t (by simpa using ht)).1
  | cons a l ih =>
    have ha : a ∈ e.tasks := hl a List.mem_cons_self
    -- one more task is done; what happens to it leaves the others settled
    have next : ∀ (started' : List TaskId) (db₁ : World) (st₁ : TaskId → TaskStatus),
        db₁.st = st₁ → db₁.status = db.status → Changes e conf strong ok db db₁ →
        (strong → (∀ t, done t → Settled st₁ t) ∧ Settled st₁ a ∧ waiting e st₁ ≤ waiting e db.st) →
        LoopSpec e conf strong ok depth db (fun t => done t ∨ t ∈ a :: l)
          (advanceLoop e env cancel l st₁ started' db₁) := by
      rintro started' db₁ _ rfl hst hch hset
      refine (ih started' db₁ (fun t => done t ∨ t = a)
        (fun t ht => hl t (List.mem_cons_of_mem _ ht))
        (fun hs => (List.pairwise_cons.mp (hpw hs)).2) (fun hs t ht => ?_) (hst ▸ hact)
        fun hs => (hrel hs).changes (wf hs) hch).before hst hch (fun hs => (hset hs).2.2)
        fun t ht => by simpa [or_assoc] using ht
      rcases ht with ht | rfl
      · exact ⟨(hset hs).1 t ht, fun b hb => (hdone hs t ht).2 b (List.mem_cons_of_mem _ hb)⟩
      · exact ⟨(hset hs).2.1, fun b hb => (List.pairwise_cons.mp (hpw hs)).1 b hb⟩
    have hupdate : ∀ {s : TaskStatus}, s ≠ .scheduled → s.isWaiting = false → strong →
        (∀ t, done t → Settled (Function.update db.st a.id s) t) ∧
          Settled (Function.update db.st a.id s) a ∧
          waiting e (Function.update db.st a.id s) ≤ waiting e db.st := by
      refine fun h hw hs => ⟨fun t ht => ?_, settled_update_self h, waiting_update_le hw⟩
      obtain ⟨h1, h2⟩ := hdone hs t ht
      exact h1.update (h2 a List.mem_cons_self).2 (h2 a List.mem_cons_self).1
    cases hdec : lifecycleDecision e db.st a with
    | none =>
      simp only [advanceLoop, hdec]
      exact next started db _ rfl rfl .refl fun hs =>
        ⟨fun t ht => (hdone hs t ht).1, settled_of_decision_none hdec, le_rfl⟩
    | unschedule details =>
      simp only [advanceLoop, hdec]
      exact next started _ _ (World.st_setTaskStatus ..) rfl (.single (.unscheduled ha hdec))
        (hupdate (by decide) (by decide))
    | start =>
      rcases startTask_cases env db a cancel with hstart | ⟨w₁, hw₁, err, hstart⟩ <;>
        simp only [advanceLoop, hdec, hstart]
      · exact next (started ++ [a.id]) _ _ (started_st ..) rfl (.single (.started ha hdec))
          (hupdate (by decide) (by decide))
      · exact .failed hcancel ha hdec hact hrel hw₁

lemma finishAdvance_spec (wf : strong → WellFormed e) {started : List TaskId}
    (hact : db.status.isActive = true) (hstatus : w.status = db.status)
    (hrel : strong → Released e w.st) (hset : strong → ∀ t ∈ e.tasks, Settled w.st t) :
    Changes e conf strong ok w (finishAdvance e db w.st started w).2 ∧
      (strong → Calm e (finishAdvance e db w.st started w).2) := by
  have hdead : strong → isDeadlocked e w.st = false := fun hs =>
    not_isDeadlocked (wf hs) (hrel hs) (hset hs)
  have hget : strong → getExecutionStatus e w ≠ .deadlocked := by
    intro hs h
    rcases getExecutionStatus_cases e w with h' | ⟨-, -, h'⟩ | ⟨-, h'⟩
    · simp [hdead hs] at h'
    · simp [h] at h'
    · simp [h] at h'
  have refresh : Changes e conf strong ok w (refreshExecutionStatus e db w) ∧
      (strong → Calm e (refreshExecutionStatus e db w)) := by
    simp only [refreshExecutionStatus]
    split
    · rename_i hne
      rw [← hstatus] at hne ⊢
      refine ⟨.single (.refreshed (hstatus ▸ hact) hne hget), fun hs => ⟨?_, ?_, ?_⟩⟩
      · simpa using hset hs
      · simp [getExecutionStatus]
      · simpa using hget hs
    · rename_i hne
      rw [← hstatus] at hne
      have heq : w.status = getExecutionStatus e w := by simpa using Eq.symm (not_not.mp hne)
      exact ⟨.refl, fun hs => ⟨hset hs, heq, heq ▸ hget hs⟩⟩
  simp only [finishAdvance]
  split
  · simp only [checkCleanExecutionDeadlock, if_true, Option.getD_some]
    split_ifs with hd
    · exact ⟨.single (.deadlocked hd fun hs => by simp [hdead hs] at hd), fun hs => by
        simp [hdead hs] at hd⟩
    · exact refresh
  · exact refresh

/-- A cancellation is the change `enterCancellation` followed by an advancement. -/
lemma cancelWith_advance (h : w.status.inFinalizedTaskStatuses = false) :
    (cancelWith e env (fun x r d => advance e env fuel x r none d) x true force w).2 =
      (advance e env fuel (enterCancellation e env force w) true none
        (enterCancellation e env force w)).2 := by
  rw [cancelWith_requery]
  simp only [h, Bool.false_eq_true, if_false]
  by_cases hl : cancelLoops force w.status = true
  · rw [hl, advance_requery]
  · have hen : enterCancellation e env force w = w := by simp [enterCancellation, hl]
    rw [hen, advance_eq rfl rfl]

/-- `_advance_execution_state` on an active execution: the tasks it does not look at have
to be settled already. -/
lemma advance_spec (wf : strong → WellFormed e) (fuel : Nat) {inst : Option String}
    {db : World} (hact : db.status.isActive = true) (hrel : strong → Released e db.st)
    (hother : strong → ∀ t ∈ e.tasks, t ∉ tasksToProcess e inst → Settled db.st t) :
    Changes e conf strong ok db (advance e env fuel db true inst db).2 ∧
      (strong → waiting e db.st < fuel → tasksToProcess e inst ≠ [] →
        Calm e (advance e env fuel db true inst db).2) := by
  induction fuel generalizing db inst with
  | zero => exact ⟨.refl, fun _ h => absurd h (Nat.not_lt_zero _)⟩
  | succ fuel ih =>
    by_cases hempty : tasksToProcess e inst = []
    · simp only [advance, advanceWith_eq (x := db) rfl rfl, hact, hempty, Bool.not_true,
        Bool.false_eq_true, if_false, List.isEmpty_nil, if_true]
      exact ⟨.refl, fun _ _ h => absurd rfl h⟩
    have hcancel : CancelSpec e conf strong ok env fuel fun db =>
        cancelWith e env (fun x r d => advance e env fuel x r none d) db true false db := by
      intro w hw hwrel htasks
      simp only [cancelWith_advance (ExecutionStatus.not_inFinalized_of_isActive hw)]
      obtain ⟨h1, h2⟩ := @ih none (enterCancellation e env false w)
        (enterCancellation_isActive hw)
        (fun hs => Released.enterCancellation (wf hs) (hwrel hs))
        (fun _ t ht hnot => absurd ht hnot)
      exact ⟨h1, fun hs hlt => h2 hs (waiting_enterCancellation.trans_lt hlt) htasks⟩
    have hmem : ∀ t ∈ sortedByIndex (tasksToProcess e inst), t ∈ e.tasks := fun t ht =>
      mem_tasksToProcess (mem_sortedByIndex.mp ht)
    have hloop := advanceLoop_spec wf hcancel [] db
      (fun t => t ∈ e.tasks ∧ t ∉ tasksToProcess e inst) hmem
      (fun hs => pairwise_sortedByIndex (wf hs).parent (fun t ht => mem_tasksToProcess ht)
        (nodup_tasksToProcess e inst))
      (fun hs t ht => ⟨hother hs t ht.1 ht.2, fun b hb =>
        not_mem_dependsOn_of_not_mem (wf hs) ht.1 ht.2 (mem_sortedByIndex.mp hb)⟩)
      hact hrel
    simp only [advance, advanceWith_eq (x := db) rfl rfl, hact, Bool.not_true,
      Bool.false_eq_true, if_false, List.isEmpty_iff, hempty]
    rcases hloop with ⟨started, db', hres, hstatus, hch, hset⟩ | ⟨err, db', hres, hch, hcalm⟩
    · simp only [hres]
      obtain ⟨h1, h2⟩ := @finishAdvance_spec e conf strong ok _ db wf started hact hstatus (fun hs => (hrel hs).changes (wf hs) hch)
        (fun hs t ht => hset hs t (by
          by_cases hp : t ∈ tasksToProcess e inst
          · exact .inr (mem_sortedByIndex.mpr hp)
          · exact .inl ⟨ht, hp⟩))
      exact ⟨hch.trans h1, fun hs _ _ => h2 hs⟩
    · simp only [hres]
      exact ⟨hch, fun hs hlt _ => hcalm hs (Nat.le_of_lt_succ hlt)⟩

end Coriolis.Conductor

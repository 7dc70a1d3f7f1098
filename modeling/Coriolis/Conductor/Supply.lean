import Coriolis.Conductor.Absorption
import Coriolis.Conductor.Conflicts
import Coriolis.Conductor.Schedules

/-!
# What a task finds when it is started

The sanity check follows the order in which everything succeeds. Cleanup tasks are also
started when some of their parents failed, so what they require has to come from a parent
that did its work, whichever it is, from what that parent itself was started with, or from
the beginning. `suppliedFields` computes this for a block; that it covers what every task
requires is checked on the blocks, and that it is there in every run is an invariant.
-/

namespace Coriolis.Conductor

open Dependencies

variable {r : Request} {before : String → Option TaskInfo} {e : Execution} {conf : Conf} {env : Env}
  {w w' w₁ : World} {t u : Task}

/-- The fields that some task of a block requires before any task that returns them. -/
def initialFields (l : List Draft) : List String :=
  l.flatMap fun b => b.task.taskType.requiredProperties.filter fun f =>
    l.all fun c => !c.task.taskType.returnedProperties.contains f || c.task.id == b.task.id ||
      (ancestors l c.task.id).contains b.task.id

def triggers (d : Draft) (l : List Draft) : List Draft :=
  let parents := l.filter fun p => d.task.dependsOn.contains p.task.id
  if parents.any (!·.task.onError) then parents.filter (!·.task.onError) else parents

/-- The fields that are there when the task of the given type is started: it gets what all its
parents returned and found, or what each parent that may trigger it did. -/
def suppliedFields (initial : List String) : List Draft → TaskType → List String
  | [], _ => []
  | d :: rest, taskType =>
    if d.task.taskType = taskType then
      let passed (p : Draft) :=
        p.task.taskType.returnedProperties ++ suppliedFields initial rest p.task.taskType
      if !d.task.onError then
        initial ++ (rest.filter fun p => d.task.dependsOn.contains p.task.id).flatMap passed
      else
        initial ++ ((triggers d rest).flatMap passed).filter fun f =>
          (triggers d rest).all fun p => (passed p).contains f
    else suppliedFields initial rest taskType

lemma blockShapes_required : ∀ l ∈ blockShapes, ∀ b ∈ l,
    ∀ f ∈ b.task.taskType.requiredProperties,
      f ∈ suppliedFields (initialFields l) l b.task.taskType := by
  decide +kernel

lemma suppliedFields_cons_of_ne (h : d.task.taskType ≠ taskType) :
    suppliedFields initial (d :: l) taskType = suppliedFields initial l taskType := by
  simp [suppliedFields, h]

lemma mem_triggers (hp : p ∈ l) (hpd : p.task.id ∈ d.task.dependsOn)
    (h : p.task.onError = false ∨ ∀ q ∈ l, q.task.id ∈ d.task.dependsOn → q.task.onError = true) :
    p ∈ triggers d l := by
  simp only [triggers]
  split
  · rename_i hany
    simp only [List.any_filter, List.any_eq_true, Bool.and_eq_true, List.contains_iff_mem,
      Bool.not_eq_true'] at hany
    obtain ⟨q, hq, hqd, hplain⟩ := hany
    have hpp : p.task.onError = false := h.resolve_right fun hall => by simp [hall q hq hqd] at hplain
    simp [hp, hpd, hpp]
  · simp [hp, hpd]

lemma suppliedFields_cases (htypes : (l.map (·.task.taskType)).Nodup)
    (hsorted : l.Pairwise fun a b => b.task.id < a.task.id)
    (hparents : ∀ d ∈ l, ∀ q ∈ d.task.dependsOn, q < d.task.id) (hb : b ∈ l)
    (hf : f ∈ suppliedFields initial l b.task.taskType) :
    f ∈ initial ∨
      (b.task.onError = false ∧ ∃ p ∈ l, p.task.id ∈ b.task.dependsOn ∧
        (f ∈ p.task.taskType.returnedProperties ∨
          f ∈ suppliedFields initial l p.task.taskType)) ∨
      (b.task.onError = true ∧ ∀ p ∈ l, p.task.id ∈ b.task.dependsOn →
        (p.task.onError = false ∨ ∀ q ∈ l, q.task.id ∈ b.task.dependsOn → q.task.onError = true) →
        (f ∈ p.task.taskType.returnedProperties ∨
          f ∈ suppliedFields initial l p.task.taskType)) := by
  induction l with
  | nil => simp at hb
  | cons d rest ih =>
    simp only [List.map_cons, List.nodup_cons, List.mem_map, not_exists, not_and] at htypes
    rw [List.pairwise_cons] at hsorted
    have hrest : ∀ p ∈ rest, suppliedFields initial (d :: rest) p.task.taskType =
        suppliedFields initial rest p.task.taskType := fun p hp =>
      suppliedFields_cons_of_ne fun h => htypes.1 p hp h.symm
    -- the newest task is no parent of a task of the block
    have hmem : ∀ p ∈ d :: rest, p.task.id ∈ b.task.dependsOn → p ∈ rest := by
      intro p hp hpb
      rcases List.mem_cons.mp hp with rfl | hp
      · have hlt := hparents b hb _ hpb
        rcases List.mem_cons.mp hb with rfl | hb
        · exact absurd hlt (lt_irrefl _)
        · exact absurd hlt (hsorted.1 b hb).asymm
      · exact hp
    rcases List.mem_cons.mp hb with rfl | hbr
    · by_cases hoe : b.task.onError = true
      · simp only [suppliedFields, hoe, if_true, Bool.not_true, Bool.false_eq_true, if_false,
          List.mem_append, List.mem_filter, List.all_eq_true] at hf
        refine hf.imp_right fun hf => .inr ⟨hoe, fun p hp hpb htrig => ?_⟩
        have hp' := hmem p hp hpb
        have := hf.2 p (mem_triggers hp' hpb (htrig.imp_right fun h q hq =>
          h q (List.mem_cons_of_mem _ hq)))
        simpa [hrest p hp'] using this
      · have hoe : b.task.onError = false := by simpa using hoe
        simp only [suppliedFields, hoe, if_true, Bool.not_false, List.mem_append,
          List.mem_flatMap, List.mem_filter, List.contains_iff_mem] at hf
        refine hf.imp_right fun hf => .inl ⟨hoe, ?_⟩
        obtain ⟨p, ⟨hp, hpb⟩, hf⟩ := hf
        exact ⟨p, List.mem_cons_of_mem _ hp, hpb, by rwa [hrest p hp]⟩
    · rw [hrest b hbr] at hf
      refine (ih htypes.2 hsorted.2 (fun p hp => hparents p (List.mem_cons_of_mem _ hp)) hbr
        hf).imp_right (Or.imp (fun ⟨hoe, p, hp, hpb, hf⟩ => ?_) fun ⟨hoe, hall⟩ => ?_)
      · exact ⟨hoe, p, List.mem_cons_of_mem _ hp, hpb, by rwa [hrest p hp]⟩
      · refine ⟨hoe, fun p hp hpb htrig => ?_⟩
        have hp' := hmem p hp hpb
        rw [hrest p hp']
        exact hall p hp' hpb (htrig.imp_right fun h q hq => h q (List.mem_cons_of_mem _ hq))

/-- The fields that are there when a task of the execution is started. -/
def Request.supply (r : Request) (t : Task) : List String :=
  suppliedFields (initialFields (r.block t.inst)) (r.block t.inst) t.taskType

lemma Built.required_supplied (hb : Built r before e w) (ht : t ∈ e.tasks)
    (hf : f ∈ t.taskType.requiredProperties) : f ∈ r.supply t := by
  obtain ⟨inst, -, n, -, b, hbm, rfl⟩ := hb.task ht
  exact blockShapes_required _ (r.block_mem inst) b hbm f hf

lemma BlockOk.pairwise (h : BlockOk l) :
    l.Pairwise fun a b => b.task.id < a.task.id := by
  have hids : (l.map (·.task.id)).Pairwise fun a b => b < a := by
    rw [h.ids, List.pairwise_reverse]
    exact List.pairwise_lt_range
  exact List.pairwise_map.mp hids

lemma BlockOk.parent_lt (h : BlockOk l) :
    ∀ d ∈ l, ∀ q ∈ d.task.dependsOn, q < d.task.id := by
  intro d hd q hq
  obtain ⟨p, -, rfl, hlt⟩ := h.parent d hd q hq
  exact hlt

lemma Built.supply_cases (hb : Built r before e w) (ht : t ∈ e.tasks) (hf : f ∈ r.supply t) :
    f ∈ initialFields (r.block t.inst) ∨
      (t.onError = false ∧ ∃ p ∈ e.tasks, p.id ∈ t.dependsOn ∧ p.inst = t.inst ∧
        (f ∈ p.taskType.returnedProperties ∨ f ∈ r.supply p)) ∨
      (t.onError = true ∧ ∀ p ∈ e.tasks, p.id ∈ t.dependsOn →
        (p.onError = false ∨ ∀ q ∈ e.tasks, q.id ∈ t.dependsOn → q.onError = true) →
        p.inst = t.inst ∧ (f ∈ p.taskType.returnedProperties ∨ f ∈ r.supply p)) := by
  obtain ⟨inst, -, n, hall, b, hbm, rfl⟩ := hb.task ht
  have hok := r.block_ok inst
  have hplace : ∀ p : Draft, (p.place inst n).task.id ∈ (b.place inst n).task.dependsOn ↔
      p.task.id ∈ b.task.dependsOn := by
    simp [Draft.place]
  rcases suppliedFields_cases hok.types hok.pairwise hok.parent_lt hbm hf with
    hinit | ⟨hoe, p, hp, hpb, hf⟩ | ⟨hoe, htrig⟩
  · exact .inl hinit
  · exact .inr (.inl ⟨hoe, _, (hall p hp).1, (hplace p).mpr hpb, rfl, hf⟩)
  · refine .inr (.inr ⟨hoe, fun p hp hpb hcond => ?_⟩)
    obtain ⟨p', hp', hpb', hpe, hid, -⟩ := parent_of_mem_dependsOn hall hbm hpb
    obtain rfl := task_eq_of_id hpe hp hid
    exact ⟨rfl, htrig p' hp' hpb' (hcond.imp_right fun h q hq hqb =>
      h (q.place inst n).task (hall q hq).1 ((hplace q).mpr hqb))⟩

/-- What a task requires before any task that returns it is there from the beginning, or the
sanity check would have refused the execution. -/
lemma Built.initial (hb : Built r before e w) (ht : t ∈ e.tasks)
    (hf : f ∈ initialFields (r.block t.inst)) : f ∈ TaskInfo.keys (w.info t.inst) := by
  obtain ⟨inst, -, n, hall, b₀, -, rfl⟩ := hb.task ht
  obtain ⟨b, hbm, hfb⟩ := List.mem_flatMap.mp hf
  obtain ⟨hreq, hret⟩ := List.mem_filter.mp hfb
  have hblock : ∀ b ∈ r.block inst, (b.place inst n).task ∈ e.tasks := fun b hbm => (hall b hbm).1
  obtain ⟨rank, hrank⟩ := checkTasksSanity_ok hb.sane inst
  refine ((hrank _ (hblock b hbm) rfl).2.2 f hreq).resolve_right ?_
  rintro ⟨v, hv, hvi, hlt, hfv⟩
  -- whoever returns the field comes later than the task that requires it
  obtain ⟨inst', -, n', -, c, hcm, rfl⟩ := hb.task hv
  obtain rfl : inst' = inst := hvi
  obtain hvc := hb.task_unique hv (hblock c hcm) rfl rfl
  rw [hvc] at hlt
  have hcb := List.all_eq_true.mp hret c hcm
  have hfc : f ∈ c.task.taskType.returnedProperties := hfv
  simp only [List.contains_iff_mem.mpr hfc, Bool.not_true, Bool.false_or, Bool.or_eq_true,
    beq_iff_eq, List.contains_iff_mem] at hcb
  rcases hcb with hid | hanc
  · simp [Draft.place, hid] at hlt
  · exact absurd (rank_lt_of_below (fun u hu hui => (hrank u hu hui).2.1) (hblock c hcm) rfl
      (below_of_mem_ancestors hblock hanc)) (not_lt.mpr hlt.le)

def noCompletion (_ : World) (rep : Report) : Prop := ∀ t, rep ≠ .completion t

/-- The infos have what the tasks that did their work returned, and every task that was cast
found what is supplied to it. -/
structure Supplied (r : Request) (e : Execution) (info : String → Option TaskInfo) (w : World) :
    Prop where
  initial : ∀ t ∈ e.tasks, ∀ f ∈ initialFields (r.block t.inst), f ∈ TaskInfo.keys (info t.inst)
  done : ∀ t ∈ e.tasks, (w.st t.id).triggersCleanup = true → w.emitted (.beginTask t.id) ∧
    ∀ f ∈ t.taskType.returnedProperties, f ∈ TaskInfo.keys (info t.inst)
  cast : ∀ t ∈ e.tasks, w.emitted (.beginTask t.id) →
    ∀ f ∈ r.supply t, f ∈ TaskInfo.keys (info t.inst)

namespace Supplied

variable {w₀ : World}

lemma passed (h : Supplied r e info w) (ht : t ∈ e.tasks)
    (htr : (w.st t.id).triggersCleanup = true)
    (hf : f ∈ t.taskType.returnedProperties ∨ f ∈ r.supply t) :
    f ∈ TaskInfo.keys (info t.inst) := by
  obtain ⟨hcast, hret⟩ := h.done t ht htr
  rcases hf with hf | hf
  · exact hret f hf
  · exact h.cast t ht hcast f hf

lemma start (h : Supplied r e info w) (hb : Built r before e w₀) (ht : t ∈ e.tasks)
    (hd : lifecycleDecision e w.st t = .start) (hf : f ∈ r.supply t) :
    f ∈ TaskInfo.keys (info t.inst) := by
  have hpar := (decision_start hd).2
  rcases hb.supply_cases ht hf with hf | ⟨hoe, p, hp, hpt, hpi, hf⟩ | ⟨hoe, htrig⟩
  · exact h.initial t ht f hf
  · rcases hpar with hnil | ⟨-, ⟨-, hall⟩ | ⟨hoe', -⟩⟩
    · simp [hnil] at hpt
    · rw [← hpi]
      exact h.passed hp (by rw [hall _ hpt]; rfl) hf
    · simp [hoe] at hoe'
  -- the parent that did its work is one of those that may trigger the task
  have hfrom : ∀ d ∈ t.dependsOn, (w.st d).triggersCleanup = true →
      (e.isOnError d = false ∨ ∀ q ∈ t.dependsOn, e.isOnError q = true) →
      f ∈ TaskInfo.keys (info t.inst) := by
    intro d hd htr hcond
    obtain ⟨p, hp, rfl, -⟩ := hb.wellFormed.parent t ht d hd
    rw [isOnError_of_mem hp] at hcond
    obtain ⟨hpi, hf⟩ := htrig p hp hd (hcond.imp_right fun hall q hq hqt => by
      rw [← isOnError_of_mem hq]
      exact hall _ hqt)
    rw [← hpi]
    exact h.passed hp htr hf
  rcases hpar with hnil | ⟨-, ⟨hoe', -⟩ | ⟨-, ⟨hall, d, hd, hst⟩ | ⟨d, hd, hplain, htr⟩⟩⟩
  · exact absurd hnil (hb.wellFormed.onErrorParents t ht hoe)
  · simp [hoe] at hoe'
  · exact hfrom d hd (by rw [hst]; rfl) (.inr hall)
  · exact hfrom d hd htr (.inl hplain)

lemma change (hb : Built r before e w₀) (hc : Change e conf strong noCompletion w w')
    (h : Supplied r e info w) : Supplied r e info w' := by
  refine ⟨h.initial, fun t ht htr => ?_, fun t ht he f hf => ?_⟩
  · rcases (hc.task ht).of_triggersCleanup htr with heq | ⟨hok, -⟩
    · obtain ⟨hcast, hret⟩ := h.done t ht (heq ▸ htr)
      exact ⟨hcast.mono hc.suffix, hret⟩
    · exact absurd rfl (hok t)
  · rcases hc.beginTask he with he | ⟨s, hs, hid, hd, -⟩
    · exact h.cast t ht he f hf
    · obtain rfl := task_eq_of_id hs ht hid
      exact h.start hb hs hd hf

lemma changes (hb : Built r before e w₀) (hc : Changes e conf strong noCompletion w w')
    (h : Supplied r e info w) : Supplied r e info w' :=
  hc.invariant (fun _ _ hc h => h.change hb hc) h

end Supplied

section

lemma TaskInfo.mem_keys :
    f ∈ TaskInfo.keys info ↔ ∃ i ∈ info, (TaskInfo.get? i f).isSome = true := by
  cases info with
  | none => simp [TaskInfo.keys]
  | some i =>
    simp only [TaskInfo.keys, Option.getD_some, Option.mem_some_iff, exists_eq_left']
    refine ⟨TaskInfo.isSome_get?_of_mem, fun h => ?_⟩
    obtain ⟨p, hp, hpf⟩ := List.lookup_isSome_iff.mp h
    exact List.mem_map.mpr ⟨p, hp, (by simpa using hpf : f = p.1).symm⟩

lemma Bookkeeping.keys (h : Bookkeeping w w') (hf : f ∈ TaskInfo.keys (w.info inst)) :
    f ∈ TaskInfo.keys (w'.info inst) := by
  obtain ⟨i, hi, hget⟩ := TaskInfo.mem_keys.mp hf
  obtain ⟨i', hi', hkeys⟩ := h.info inst i hi
  exact TaskInfo.mem_keys.mpr ⟨i', hi', hkeys f hget⟩

/-- A completed task returned exactly the properties its class declares. -/
def Call.returnsDeclared : Call → Prop
  | .taskCompleted t result => ∀ f, f ∈ result.map (·.1) ↔ f ∈ t.taskType.returnedProperties
  | _ => True

/-- A call in a run in which every completed task returned what it declares. -/
def DeclaredStep (e : Execution) (conf : Conf) (w w' : World) : Prop :=
  ∃ env c, (∀ rep ∈ c.report?, rep.task ∈ e.tasks ∧ castOnly w rep) ∧ c.returnsDeclared ∧
    w' = (step e conf env c w).2

abbrev DeclaredRun (e : Execution) (conf : Conf) : World → World → Prop :=
  Relation.ReflTransGen (DeclaredStep e conf)

/-- What was cast between two states was cast after the last change to the infos, which then
had all it requires. -/
def CastsSupplied (e : Execution) (w w' : World) : Prop :=
  ∃ w₁, (∀ id, w₁.emitted (.beginTask id) → w.emitted (.beginTask id)) ∧ Writes w₁ w' ∧
    ∀ t ∈ e.tasks, w'.emitted (.beginTask t.id) →
      ∀ f ∈ t.taskType.requiredProperties, f ∈ TaskInfo.keys (w₁.info t.inst)

/-- The two parts of a call: the infos are written, then tasks are started. -/
structure Split (r : Request) (e : Execution) (conf : Conf) (w w₁ w' : World) : Prop where
  uncast : ∀ id, w₁.emitted (.beginTask id) → w.emitted (.beginTask id)
  supplied : Supplied r e w₁.info w₁
  writes : Writes w₁ w'
  changes : Changes e conf False noCompletion w₁ w'

variable {w₀ : World}

lemma Split.castsSupplied (h : Split r e conf w w₁ w') (hb : Built r before e w₀) :
    Supplied r e w'.info w' ∧ CastsSupplied e w w' := by
  have hs := h.supplied.changes hb h.changes
  refine ⟨h.writes.info ▸ hs, w₁, h.uncast, h.writes, fun t ht he f hf => ?_⟩
  exact hs.cast t ht he f (hb.required_supplied ht hf)

lemma Supplied.kept (h : Supplied r e w.info w) (hk : Bookkeeping w w') :
    Supplied r e w'.info w' := by
  have hcast : ∀ {id}, w'.emitted (.beginTask id) ↔ w.emitted (.beginTask id) := hk.emitted (by simp)
  refine ⟨fun t ht f hf => hk.keys (h.initial t ht f hf), fun t ht htr => ?_,
    fun t ht he f hf => hk.keys (h.cast t ht (hcast.mp he) f hf)⟩
  rw [hk.st] at htr
  exact ⟨hcast.mpr (h.done t ht htr).1, fun f hf => hk.keys ((h.done t ht htr).2 f hf)⟩

lemma Supplied.completed (h : Supplied r e w.info w) (ht : t ∈ e.tasks)
    (hcast : w.emitted (.beginTask t.id)) (hst : w'.st = Function.update w.st t.id s)
    (hem : ∀ id, w'.emitted (.beginTask id) ↔ w.emitted (.beginTask id))
    (hkeys : ∀ inst f, f ∈ TaskInfo.keys (w.info inst) → f ∈ TaskInfo.keys (w'.info inst))
    (hret : ∀ f ∈ t.taskType.returnedProperties, f ∈ TaskInfo.keys (w'.info t.inst)) :
    Supplied r e w'.info w' := by
  refine ⟨fun u hu f hf => hkeys _ _ (h.initial u hu f hf), fun u hu htr => ?_,
    fun u hu he f hf => hkeys _ _ (h.cast u hu ((hem _).mp he) f hf)⟩
  by_cases hut : u.id = t.id
  · obtain rfl := task_eq_of_id hu ht hut
    exact ⟨(hem _).mpr hcast, hret⟩
  · rw [hst, Function.update_of_ne hut] at htr
    exact ⟨(hem _).mpr (h.done u hu htr).1, fun f hf => hkeys _ _ ((h.done u hu htr).2 f hf)⟩

/-- What a task returned is in the infos once its result was stored. -/
lemma Supplied.stored (h : Supplied r e w.info w) (ht : t ∈ e.tasks)
    (hcast : w.emitted (.beginTask t.id))
    (hresult : ∀ f, f ∈ result.map (·.1) ↔ f ∈ t.taskType.returnedProperties)
    (hres : storeTaskResult t result
      ((w.emit (.taskCompleted t.id)).setTaskStatus t.id s details) = (res, w₁))
    (hk : Bookkeeping w₁ w') :
    (∀ id, w'.emitted (.beginTask id) → w.emitted (.beginTask id)) ∧ Supplied r e w'.info w' := by
  have hkept := (storeTaskResult_kept hres).trans hk
  have hem : ∀ id, w'.emitted (.beginTask id) ↔ w.emitted (.beginTask id) := fun id =>
    (hkept.emitted (by simp)).trans (by simp)
  refine ⟨fun id => (hem id).mp, h.completed ht hcast (hkept.st.trans (World.st_setTaskStatus ..))
    hem (fun inst f hf => hkept.keys hf) fun f hf => hk.keys ?_⟩
  have hmem := (hresult f).mpr hf
  have hne : result.isEmpty = false := by cases result <;> simp at hmem ⊢
  simp only [storeTaskResult, hne, Bool.false_eq_true, if_false, Prod.mk.injEq] at hres
  rw [← hres.2]
  exact mem_keys_update.mpr (.inr ⟨rfl, hmem⟩)

lemma taskCompleted_split (h : Supplied r e w.info w) (ht : t ∈ e.tasks)
    (hcast : w.emitted (.beginTask t.id))
    (hresult : ∀ f, f ∈ result.map (·.1) ↔ f ∈ t.taskType.returnedProperties) :
    ∃ w₁, Split r e conf w w₁ (taskCompleted e conf env t result w).2 := by
  cases @taskCompleted_completion e conf env w t result with
  | dropped _ hw =>
    have hem : ∀ id, (w.emit (.taskCompleted t.id)).emitted (.beginTask id) ↔
        w.emitted (.beginTask id) := by simp
    rw [hw]
    exact ⟨_, fun id => (hem id).mp, ⟨h.initial,
      fun u hu htr => ⟨(hem _).mpr (h.done u hu htr).1, (h.done u hu htr).2⟩,
      fun u hu he => h.cast u hu ((hem _).mp he)⟩, .refl, .refl⟩
  | raised _ hres =>
    obtain ⟨hem, hs⟩ := h.stored ht hcast hresult hres (.refl _)
    exact ⟨_, hem, hs, .refl, .refl⟩
  | @taken s details info w₁ w₂ hc hres hpost hw =>
    obtain ⟨hem, hs⟩ := h.stored ht hcast hresult hres hpost.kept
    have hkept := (storeTaskResult_kept hres).trans hpost.kept
    rcases hw with ⟨hw, -⟩ | hw <;> rw [hw]
    · exact ⟨w₂, hem, hs, .refl, .refl⟩
    obtain ⟨hch, -⟩ := @advance_report t e conf False noCompletion env w w₂ False.elim
      (fun h => h.elim) (fun h => h.elim) ht _ (.inr rfl) w₁ false _ (completionStatus_isSettled hc)
      (hkept.st.trans (World.st_setTaskStatus ..)) hkept.status hpost.kept.st.symm
      hpost.kept.status.symm (fun h => h.elim) (fun h => h.elim)
    exact ⟨w₂, hem, hs, .advanceExecutionState, hch⟩

lemma confirmMinionsAllocation_split (h : Supplied r e w.info w)
    (l : List (String × MinionAllocation)) :
    ∃ w₁, Split r e conf w w₁ (confirmMinionsAllocation e env l w).2 := by
  simp only [confirmMinionsAllocation]
  split
  · exact ⟨w, fun _ => id, h, .refl, .refl⟩
  rename_i hlast
  have hkept := updateTaskInfoForMinionAllocations_kept (e := e) (w := w) l
  rcases hres : updateTaskInfoForMinionAllocations e l w with ⟨err | u, w₁⟩ <;>
    rw [hres] at hkept
  · exact ⟨w₁, fun id => (hkept.emitted (by simp)).mp, h.kept hkept, .refl, .refl⟩
  · obtain ⟨hch, -⟩ := @beginTasks_spec e conf False noCompletion env w₁ False.elim
      (fun h => h.elim) (.inr (hkept.last.trans (not_not.mp hlast)))
    exact ⟨w₁, fun id => (hkept.emitted (by simp)).mp, h.kept hkept, .beginTasks, hch⟩

lemma step_split (h : Supplied r e w.info w) (hlast : LastOk w) {c : Call}
    (hreport : ∀ rep ∈ c.report?, rep.task ∈ e.tasks ∧ castOnly w rep)
    (hdecl : c.returnsDeclared) : ∃ w₁, Split r e conf w w₁ (step e conf env c w).2 := by
  by_cases hbooks : c.keepsBooks = true
  · cases c with
    | taskCompleted t result =>
      obtain ⟨ht, hcast⟩ := hreport _ rfl
      exact taskCompleted_split h ht hcast hdecl
    | confirmMinionsAllocation l => exact confirmMinionsAllocation_split h l
    | setTaskHost | setTaskProcess | setTaskError | confirmTaskCancellation | cancel
    | reportMinionsAllocationError => simp [Call.keepsBooks] at hbooks
  · have hbooks : c.keepsBooks = false := by simpa using hbooks
    obtain ⟨hch, -⟩ := @step_spec e conf False noCompletion env w False.elim (fun h => h.elim) c
      (fun rep hrep => ⟨(hreport rep hrep).1, fun t ht => by
        subst ht
        cases c <;> simp [Call.report?, Call.keepsBooks] at hrep hbooks, fun h => h.elim⟩)
      fun _ => hlast
    exact ⟨w, fun _ => id, h, step_writes hbooks, hch⟩

lemma Built.supplied (hb : Built r before e w) : Supplied r e w.info w := by
  refine ⟨fun t ht f hf => hb.initial ht hf, fun t ht htr => ?_, fun t ht he =>
    absurd he (hb.ready.fresh.notCast t ht)⟩
  rcases hb.waiting ht with h | h <;> rw [h] at htr <;> cases htr

lemma Launched.split (h : Launched r before e w) :
    ∃ w₀, Built r before e w₀ ∧ Split r e conf w₀ w₀ w := by
  cases h with
  | @begun w₀ env hb h =>
    obtain ⟨hch, -⟩ := @beginTasks_spec e conf False noCompletion env w₀ False.elim
      (fun h => h.elim) (.inl (by rw [hb.status_eq, h]; rfl))
    exact ⟨w₀, hb, fun _ => id, hb.supplied, .beginTasks, hch⟩
  | awaiting hb => exact ⟨w, hb, fun _ => id, hb.supplied, .refl, .refl⟩

lemma DeclaredStep.step (h : DeclaredStep e conf w w') : Step e conf castOnly w w' := by
  obtain ⟨env, c, hreport, -, rfl⟩ := h
  exact ⟨env, c, hreport, rfl⟩

lemma DeclaredRun.run (h : DeclaredRun e conf w w') : Run e conf castOnly w w' := by
  induction h with
  | refl => exact .refl
  | tail _ hstep ih => exact ih.tail hstep.step

lemma Launched.supplied (h : Launched r before e w) (hrun : DeclaredRun e conf w w') :
    Supplied r e w'.info w' := by
  induction hrun with
  | refl =>
    obtain ⟨w₀, hb, hsplit⟩ := @Launched.split r before e conf w h
    exact (hsplit.castsSupplied hb).1
  | tail hrun hstep ih =>
    obtain ⟨w₀, hb, -, hsteady⟩ := h.run (DeclaredRun.run hrun)
    obtain ⟨env, c, hreport, hdecl, rfl⟩ := hstep
    obtain ⟨w₁, hsplit⟩ := @step_split r e conf env _ ih hsteady.last c hreport hdecl
    exact (hsplit.castsSupplied hb).1

end

/-- In every run in which the completed tasks returned what they declare, a task that is cast
finds all the properties it requires in the info of its instance. -/
theorem required_properties_available (r : Request) (before : String → Option TaskInfo)
    (e : Execution) (conf : Conf) (w : World) (h : Launched r before e w) :
    (∃ w₀, Built r before e w₀ ∧ CastsSupplied e w₀ w) ∧
      ∀ w' w'', DeclaredRun e conf w w' → DeclaredStep e conf w' w'' → CastsSupplied e w' w'' := by
  constructor
  · obtain ⟨w₀, hb, hsplit⟩ := @Launched.split r before e conf w h
    exact ⟨w₀, hb, (hsplit.castsSupplied hb).2⟩
  · intro w' w'' hrun hstep
    obtain ⟨w₀, hb, -, hsteady⟩ := h.run (DeclaredRun.run hrun)
    obtain ⟨env, c, hreport, hdecl, rfl⟩ := hstep
    obtain ⟨w₁, hsplit⟩ := @step_split r e conf env w' (h.supplied hrun) hsteady.last c
      hreport hdecl
    exact (hsplit.castsSupplied hb).2

/-- The deletion of the disks is cast when the deletion of the source snapshots completes. -/
theorem required_properties_available_deleteDisks :
    let w' := (taskCompleted deleteDisks plainConf responsive
      ⟨0, "vm", .deleteTransferSourceDiskSnapshots, [], false, 2⟩ [("volumes_info", .arr [])]
      deleteDisksBegun).2
    w'.emitted (.beginTask 1) ∧ CastsSupplied deleteDisks deleteDisksBegun w' := by
  intro w'
  refine ⟨wasCast_iff.mp (by decide +kernel),
    (required_properties_available .deleteTransferDisks replicated deleteDisks plainConf
      deleteDisksBegun (.begun built_deleteDisks rfl)).2 _ w' .refl ⟨responsive,
        .taskCompleted ⟨0, "vm", .deleteTransferSourceDiskSnapshots, [], false, 2⟩
          [("volumes_info", .arr [])], ?_, ?_, rfl⟩⟩
  · rintro _ ⟨⟩
    exact ⟨by decide +kernel, wasCast_iff.mp (by decide +kernel)⟩
  · simp [Call.returnsDeclared, TaskType.returnedProperties]

end Coriolis.Conductor

import Coriolis.Library.Pipeline

/-!
# Progress of a pipeline

A caller that puts an item into a full first queue waits for a worker to take one. A worker that
has something to put into a full second queue waits for the sender in turn. While one worker and
the sender are alive, the queue gets room again. If all the workers fail, it does not, and nobody
tells the caller.
-/

namespace Pipeline

variable {α β σ : Type}

def ThreadStep (m : Machine α β σ) (s s' : State α β σ) : Prop :=
  WorkerStep m s s' ∨ SenderStep m s s'

/-- The caller waits for room in the first queue, and whatever the other threads do, there will
be none. -/
def Hangs (m : Machine α β σ) (s : State α β σ) : Prop :=
  (∃ a, s.caller = .writing a) ∧
    ∀ s', Relation.ReflTransGen (ThreadStep m) s s' → m.firstCapacity ≤ s'.first.length

/-- Working and sending can succeed, and the queues can hold something. -/
structure Machine.Productive (m : Machine α β σ) : Prop where
  work : ∀ a, ∃ b, m.work a b
  done : ∀ b v, ∃ v', m.done b v v'
  firstCapacity : 0 < m.firstCapacity
  secondCapacity : 0 < m.secondCapacity

/-- The bounds of the queues are kept, and no thread ends before it is told to. -/
structure Bounded (m : Machine α β σ) (s : State α β σ) : Prop where
  first : s.first.length ≤ m.firstCapacity
  second : s.second.length ≤ m.secondCapacity
  running : s.stopped = false → s.sender ≠ .exited ∧ ∀ w ∈ s.workers, w ≠ .exited

variable {m : Machine α β σ} {s s' : State α β σ}

lemma Bounded.start (n : Nat) (sink : σ) : Bounded m (State.start n sink) := by
  refine ⟨Nat.zero_le _, Nat.zero_le _, fun _ => ⟨by simp [State.start], fun w hw => ?_⟩⟩
  rw [List.eq_of_mem_replicate hw]
  simp

lemma Bounded.step (h : Bounded m s) (hstep : Step m s s') : Bounded m s' := by
  obtain ⟨hfirst, hsecond, hrunning⟩ := h
  have hreplace : ∀ {l r : List (Worker α β)} {x y : Worker α β}, s.workers = l ++ x :: r →
      y ≠ .exited → s.stopped = false → s.sender ≠ .exited ∧ ∀ w ∈ l ++ y :: r, w ≠ .exited :=
    fun hw hy hs => ⟨(hrunning hs).1, forall_replace (hw ▸ (hrunning hs).2) hy⟩
  rcases hstep with hstep | hstep | hstep
  · cases hstep with
    | take hw hq =>
      rw [hq, List.length_cons] at hfirst
      exact ⟨Nat.le_of_succ_le hfirst, hsecond, hreplace hw (by simp)⟩
    | put hw hq =>
      exact ⟨hfirst, by simpa using Nat.succ_le_of_lt hq, hreplace hw (by simp)⟩
    | exits hw hstopped =>
      exact ⟨hfirst, hsecond, fun hs => absurd (hstopped.symm.trans hs) (by simp)⟩
    | work hw _ | fails hw | taskDone hw | dies hw =>
      exact ⟨hfirst, hsecond, hreplace hw (by simp)⟩
  · cases hstep with
    | get hs hq =>
      rw [hq, List.length_cons] at hsecond
      exact ⟨hfirst, Nat.le_of_succ_le hsecond, fun h => ⟨by simp, (hrunning h).2⟩⟩
    | exits hs hstopped =>
      exact ⟨hfirst, hsecond, fun hs => absurd (hstopped.symm.trans hs) (by simp)⟩
    | attempt | env => exact ⟨hfirst, hsecond, hrunning⟩
    | done | fails | taskDone | dies =>
      exact ⟨hfirst, hsecond, fun h => ⟨by simp, (hrunning h).2⟩⟩
  · cases hstep with
    | put hc hq => exact ⟨by simpa using Nat.succ_le_of_lt hq, hsecond, hrunning⟩
    | stop hc => exact ⟨hfirst, hsecond, by simp⟩
    | _ => exact ⟨hfirst, hsecond, hrunning⟩

open Relation in
lemma exists_get (hm : m.Productive) (halive : s.sender.alive = true)
    (hrunning : s.sender ≠ .exited) (hq : s.second = b :: rest) :
    ∃ s', ReflTransGen (ThreadStep m) s s' ∧ s'.sender = .sending b ∧ s'.second = rest ∧
      s'.first = s.first ∧ s'.workers = s.workers := by
  have hget : ∀ {t : State α β σ}, t.sender = .waiting → t.second = b :: rest →
      ThreadStep m t { t with second := rest, sender := .sending b } := fun hs hq =>
    .inr (.get hs hq)
  cases hs : s.sender with
  | waiting => exact ⟨_, .single (hget hs hq), rfl, rfl, rfl, rfl⟩
  | finishing =>
    exact ⟨_, .tail (.single (.inr (.taskDone hs))) (hget rfl hq), rfl, rfl, rfl, rfl⟩
  | sending b' =>
    obtain ⟨v', hdone⟩ := hm.done b' s.sink
    exact ⟨_, .tail (.tail (.single (.inr (.done hs hdone))) (.inr (.taskDone rfl)))
      (hget rfl hq), rfl, rfl, rfl, rfl⟩
  | failing | dead => simp [hs, Sender.alive] at halive
  | exited => exact absurd hs hrunning

open Relation in
/-- With the sender alive, a worker that is alive takes an item from the first queue, after it
has put what it has into the second one. -/
lemma exists_take (hm : m.Productive) (hsecond : s.second.length ≤ m.secondCapacity)
    (halive : s.sender.alive = true) (hrunning : s.sender ≠ .exited) (hw : s.workers = l ++ w :: r)
    (hwalive : w.alive = true) (hwrunning : w ≠ .exited) (hq : s.first = a :: rest) :
    ∃ s', ReflTransGen (ThreadStep m) s s' ∧ s'.first = rest := by
  have hwaiting : ∀ t : State α β σ, t.workers = l ++ .waiting :: r → t.first = a :: rest →
      ∃ t', ReflTransGen (ThreadStep m) t t' ∧ t'.first = rest := fun t hw hq =>
    ⟨_, .single (.inl (.take hw hq)), rfl⟩
  have hfinishing : ∀ t : State α β σ, t.workers = l ++ .finishing :: r → t.first = a :: rest →
      ∃ t', ReflTransGen (ThreadStep m) t t' ∧ t'.first = rest := fun t hw hq => by
    obtain ⟨t', hrun, ht'⟩ := hwaiting { t with
      firstUnfinished := t.firstUnfinished - 1, workers := l ++ .waiting :: r } rfl hq
    exact ⟨t', .head (.inl (.taskDone hw)) hrun, ht'⟩
  have hroom : ∀ (t : State α β σ) b, t.workers = l ++ .putting b :: r →
      t.second.length < m.secondCapacity → t.first = a :: rest →
      ∃ t', ReflTransGen (ThreadStep m) t t' ∧ t'.first = rest := fun t b hw hlt hq => by
    obtain ⟨t', hrun, ht'⟩ := hfinishing { t with
      second := t.second ++ [b], secondUnfinished := t.secondUnfinished + 1,
      workers := l ++ .finishing :: r } rfl hq
    exact ⟨t', .head (.inl (.put hw hlt)) hrun, ht'⟩
  -- a full second queue gets room from the sender
  have hputting : ∀ (t : State α β σ) b, t.workers = l ++ .putting b :: r → t.first = a :: rest →
      t.second.length ≤ m.secondCapacity → t.sender.alive = true → t.sender ≠ .exited →
      ∃ t', ReflTransGen (ThreadStep m) t t' ∧ t'.first = rest := by
    intro t b hw hq hle halive hrunning
    cases hsec : t.second with
    | nil => exact hroom t b hw (by simpa [hsec] using hm.secondCapacity) hq
    | cons b' rest' =>
      obtain ⟨t₁, hrun₁, -, hsec₁, hfirst₁, hworkers₁⟩ := exists_get hm halive hrunning hsec
      obtain ⟨t', hrun, ht'⟩ := hroom t₁ b (hworkers₁.trans hw)
        (by rw [hsec₁]; rw [hsec] at hle; exact hle) (hfirst₁.trans hq)
      exact ⟨t', hrun₁.trans hrun, ht'⟩
  cases w with
  | waiting => exact hwaiting s hw hq
  | finishing => exact hfinishing s hw hq
  | putting b => exact hputting s b hw hq hsecond halive hrunning
  | working x =>
    obtain ⟨b, hb⟩ := hm.work x
    obtain ⟨t', hrun, ht'⟩ := hputting { s with workers := l ++ .putting b :: r } b rfl hq hsecond
      halive hrunning
    exact ⟨t', .head (.inl (.work hw hb)) hrun, ht'⟩
  | failing | dead => simp [Worker.alive] at hwalive
  | exited => exact absurd rfl hwrunning

/-- No failure leaves a caller that is putting an item without the sender, or without any
worker. -/
def Considerate (s s' : State α β σ) : Prop :=
  (∃ a, s.caller = .writing a) →
    (s.sender.alive = true → s'.sender.alive = true) ∧
    ((∃ w ∈ s.workers, w.alive = true) → ∃ w ∈ s'.workers, w.alive = true)

/-- While the caller is putting an item, there is a sender and there is a worker. -/
structure Served (m : Machine α β σ) (s : State α β σ) : Prop where
  inv : Inv m s
  bounded : Bounded m s
  workers : s.workers ≠ []
  served : (∃ a, s.caller = .writing a) →
    s.sender.alive = true ∧ ∃ w ∈ s.workers, w.alive = true

lemma Served.start (hn : 0 < n) (sink : σ) : Served m (State.start n sink) :=
  ⟨Inv.start n sink, Bounded.start n sink, by simpa [State.start] using hn.ne',
    by simp [State.start]⟩

lemma workers_ne_nil (h : s.workers ≠ []) (hstep : Step m s s') : s'.workers ≠ [] := by
  rcases hstep with hstep | hstep | hstep
  · cases hstep <;> simp
  · cases hstep <;> exact h
  · cases hstep <;> exact h

lemma writing_of_step (hstep : Step m s s') (h : ∃ a, s'.caller = .writing a) :
    (∃ a, s.caller = .writing a) ∨
      s.failed = false ∧ s'.sender = s.sender ∧ s'.workers = s.workers := by
  rcases hstep with hstep | hstep | hstep
  · cases hstep <;> exact .inl h
  · cases hstep <;> exact .inl h
  · cases hstep with
    | write hc hf => exact .inr ⟨hf, rfl, rfl⟩
    | closing hc _ => exact .inl h
    | _ => simp at h

lemma Served.step (h : Served m s) (hstep : Step m s s') (hcond : Considerate s s') :
    Served m s' := by
  refine ⟨h.inv.step hstep, h.bounded.step hstep, workers_ne_nil h.workers hstep, fun hc => ?_⟩
  rcases writing_of_step hstep hc with hbefore | ⟨hf, hsender, hworkers⟩
  · obtain ⟨halive, hworker⟩ := h.served hbefore
    exact ⟨(hcond hbefore).1 halive, (hcond hbefore).2 hworker⟩
  · obtain ⟨halive, hall⟩ := h.inv.alive hf
    obtain ⟨w, hw⟩ := List.exists_mem_of_ne_nil _ h.workers
    exact ⟨hsender ▸ halive, w, hworkers ▸ hw, hall w hw⟩

lemma Served.run (h : Served m s)
    (hrun : Relation.ReflTransGen (fun s s' => Step m s s' ∧ Considerate s s') s s') :
    Served m s' := by
  induction hrun with
  | refl => exact h
  | tail _ hstep ih => exact ih.step hstep.1 hstep.2

lemma Served.not_hangs (hm : m.Productive) (h : Served m s) : ¬Hangs m s := by
  rintro ⟨⟨a, hc⟩, hfull⟩
  obtain ⟨halive, w, hw, hwalive⟩ := h.served ⟨a, hc⟩
  have hstopped : s.stopped = false := by
    by_contra hs
    simpa [hc, Caller.closing] using h.inv.control.stopped (by simpa using hs)
  obtain ⟨hrunning, hworkers⟩ := h.bounded.running hstopped
  obtain ⟨l, r, hsplit⟩ := List.append_of_mem hw
  cases hq : s.first with
  | nil =>
    have hnone := hfull s .refl
    rw [hq, List.length_nil] at hnone
    exact absurd hm.firstCapacity (Nat.not_lt.mpr hnone)
  | cons a rest =>
    obtain ⟨s', hrun, hs'⟩ := exists_take hm h.bounded.second halive hrunning hsplit hwalive
      (hworkers w hw) hq
    have hlen := h.bounded.first
    have := hfull s' hrun
    rw [hq, List.length_cons] at hlen
    rw [hs'] at this
    omega

lemma hangs_of_dead (hc : ∃ a, s.caller = .writing a)
    (hfull : m.firstCapacity ≤ s.first.length) (hdead : ∀ w ∈ s.workers, w.alive = false) :
    Hangs m s := by
  refine ⟨hc, fun s' hrun => ?_⟩
  suffices h : m.firstCapacity ≤ s'.first.length ∧ ∀ w ∈ s'.workers, w.alive = false from h.1
  induction hrun with
  | refl => exact ⟨hfull, hdead⟩
  | tail _ hstep ih =>
    obtain ⟨hfull, hdead⟩ := ih
    rcases hstep with hstep | hstep
    · cases hstep with
      | dies hw => exact ⟨hfull, forall_replace (hw ▸ hdead) rfl⟩
      | take hw _ | work hw _ | fails hw | put hw _ | taskDone hw | exits hw _ =>
        exact absurd (hdead _ (hw ▸ List.mem_append_cons_self)) (by simp [Worker.alive])
    · cases hstep <;> exact ⟨hfull, hdead⟩

section

open Relation

/-- The caller has written to each of `i` workers an item, and there are `k` more in the queue. -/
private def filled (a : α) (sink : σ) (i j k : Nat) : State α β σ :=
  { State.start 0 sink with
    first := List.replicate k a
    firstUnfinished := i + k
    workers := List.replicate i (.working a) ++ List.replicate j .waiting
    written := List.replicate (i + k) a }

variable (m) in
private lemma filled_write (a : α) (sink : σ) (i j : Nat) (hk : k < m.firstCapacity) :
    ReflTransGen (Step m) (filled a sink i j k : State α β σ) (filled a sink i j (k + 1)) := by
  have hwrite : Step m (filled a sink i j k : State α β σ)
      { filled a sink i j k with caller := .writing a } := .caller (.write rfl rfl)
  have hput := CallerStep.put (m := m) (s := { filled a sink i j k with caller := .writing a }) rfl
    (by simpa [filled] using hk)
  refine .tail (.single hwrite) (.caller ?_)
  convert hput using 1
  simp [filled, State.start, List.replicate_succ', ← Nat.add_assoc]

variable (m) in
private lemma filled_queue (a : α) (sink : σ) (i j : Nat) (hk : k ≤ m.firstCapacity) :
    ReflTransGen (Step m) (filled a sink i j 0 : State α β σ) (filled a sink i j k) := by
  induction k with
  | zero => exact .refl
  | succ k ih => exact (ih (Nat.le_of_succ_le hk)).trans (filled_write m a sink i j hk)

variable (m) in
private lemma filled_workers (a : α) (sink : σ) (hm : 0 < m.firstCapacity) (i j : Nat) :
    ReflTransGen (Step m) (filled a sink 0 (i + j) 0 : State α β σ) (filled a sink i j 0) := by
  induction i generalizing j with
  | zero => simpa using ReflTransGen.refl
  | succ i ih =>
    have hih := ih (j + 1)
    rw [show i + (j + 1) = i + 1 + j by omega] at hih
    refine (hih.trans (filled_write m a sink i (j + 1) hm)).tail (.worker ?_)
    have htake := WorkerStep.take (m := m) (s := filled a sink i (j + 1) 1)
      (l := List.replicate i (.working a)) (r := List.replicate j .waiting) rfl rfl
    convert htake using 1
    simp [filled, State.start, List.replicate_succ']

variable (m) in
private lemma exists_failing (j : Nat)
    (hs : s.workers = List.replicate i .failing ++ List.replicate j (.working a)) :
    ∃ s', ReflTransGen (Step m) s s' ∧ s'.workers = List.replicate (i + j) .failing ∧
      s'.first = s.first ∧ s'.caller = s.caller := by
  induction j generalizing i s with
  | zero => exact ⟨s, .refl, by simpa using hs, rfl, rfl⟩
  | succ j ih =>
    obtain ⟨s', hrun, hworkers, hfirst, hcaller⟩ := ih (i := i + 1) (s := { s with
      failed := true
      workers := List.replicate i .failing ++ .failing :: List.replicate j (.working a) })
      (by simp [List.replicate_succ'])
    exact ⟨s', .head (.worker (.fails hs)) hrun, by rw [hworkers]; congr 1; omega, hfirst, hcaller⟩

variable (m) in
/-- However many workers there are: when each of them fails on its first item, a caller that has
filled the queue meanwhile hangs. -/
lemma exists_hangs (a : α) (sink : σ) (hm : 0 < m.firstCapacity) (n : Nat) :
    ∃ s : State α β σ, ReflTransGen (Step m) (State.start n sink) s ∧ Hangs m s := by
  have hstart : (State.start n sink : State α β σ) = filled a sink 0 (n + 0) 0 := by
    simp [filled, State.start]
  have hfilled : ReflTransGen (Step m) (State.start n sink : State α β σ)
      { filled a sink n 0 m.firstCapacity with caller := .writing a } := by
    rw [hstart]
    exact ((filled_workers m a sink hm n 0).trans (filled_queue m a sink n 0 le_rfl)).tail
      (.caller (.write rfl rfl))
  obtain ⟨s, hrun, hworkers, hfirst, hcaller⟩ := exists_failing m (a := a) (i := 0) n (s := {
    filled a sink n 0 m.firstCapacity with caller := .writing a }) (by simp [filled])
  refine ⟨s, hfilled.trans hrun, hangs_of_dead ⟨a, hcaller⟩ (by simp [hfirst, filled]) ?_⟩
  rw [hworkers]
  intro w hw
  rw [List.eq_of_mem_replicate hw]
  rfl

end

end Pipeline

import Mathlib.Algebra.BigOperators.Group.List.Basic
import Mathlib.Algebra.Order.Group.Multiset
import Mathlib.Tactic.Abel

/-!
# Two bounded queues

A caller puts items into a first queue. Workers take them from there, make something of them and
put that into a second queue, from which one sender takes it. The queues are bounded and count
the items that were put and not yet reported as done. A thread that fails records the failure and
ends. To close the pipeline, the caller waits until nothing is unfinished or a failure is
recorded, stops the threads, and looks for a failure once more.

What the sender does with an item is up to a `Machine`: it makes attempts and then succeeds or
fails, each time on a sink that may also change on its own.
-/

namespace Pipeline

variable {α β σ : Type}

structure Machine (α β σ : Type) where
  firstCapacity : Nat
  secondCapacity : Nat
  work : α → β → Prop
  env : σ → σ → Prop
  attempt : β → σ → σ → Prop
  done : β → σ → σ → Prop
  fail : β → σ → σ → Prop
  /-- What the caller does on the sink after everything was sent: attempts, and a last step. -/
  closing : σ → σ → Prop
  closed : σ → σ → Prop
  /-- What it does instead if there was a failure. -/
  raising : σ → σ → Prop

inductive Worker (α β : Type) where
  | waiting
  | working (a : α)
  | putting (b : β)
  | finishing
  | failing
  | dead
  | exited

inductive Sender (β : Type) where
  | waiting
  | sending (b : β)
  | finishing
  | failing
  | dead
  | exited

inductive Caller (α : Type) where
  | idle
  /-- The check for a failure is made, the item is not yet in the queue. -/
  | writing (a : α)
  /-- About to read a count of unfinished items, or whether there is a failure. -/
  | waitFirst
  | waitSecond
  | waitFailed
  | stopping
  | checking
  | passed
  | joining
  | closed
  | raised

structure State (α β σ : Type) where
  first : List α
  firstUnfinished : Nat
  second : List β
  secondUnfinished : Nat
  workers : List (Worker α β)
  sender : Sender β
  caller : Caller α
  failed : Bool
  stopped : Bool
  sink : σ
  /-- The items that were put into the first queue. -/
  written : List α
  /-- The items that were sent. -/
  sent : List β

def State.start (n : Nat) (sink : σ) : State α β σ :=
  ⟨[], 0, [], 0, List.replicate n .waiting, .waiting, .idle, false, false, sink, [], []⟩

def Worker.ended : Worker α β → Bool
  | dead | exited => true
  | _ => false

def Sender.ended : Sender β → Bool
  | dead | exited => true
  | _ => false

/-- A step of one of the workers. -/
inductive WorkerStep (m : Machine α β σ) : State α β σ → State α β σ → Prop
  | take {s l r a rest} (hw : s.workers = l ++ .waiting :: r) (hq : s.first = a :: rest) :
      WorkerStep m s { s with first := rest, workers := l ++ .working a :: r }
  | work {s l r a b} (hw : s.workers = l ++ .working a :: r) (h : m.work a b) :
      WorkerStep m s { s with workers := l ++ .putting b :: r }
  | fails {s l r a} (hw : s.workers = l ++ .working a :: r) :
      WorkerStep m s { s with failed := true, workers := l ++ .failing :: r }
  | put {s l r b} (hw : s.workers = l ++ .putting b :: r) (hq : s.second.length < m.secondCapacity) :
      WorkerStep m s { s with
        second := s.second ++ [b]
        secondUnfinished := s.secondUnfinished + 1
        workers := l ++ .finishing :: r }
  | taskDone {s l r} (hw : s.workers = l ++ .finishing :: r) :
      WorkerStep m s { s with
        firstUnfinished := s.firstUnfinished - 1
        workers := l ++ .waiting :: r }
  | dies {s l r} (hw : s.workers = l ++ .failing :: r) :
      WorkerStep m s { s with
        firstUnfinished := s.firstUnfinished - 1
        workers := l ++ .dead :: r }
  | exits {s l r} (hw : s.workers = l ++ .waiting :: r) (hstopped : s.stopped = true) :
      WorkerStep m s { s with workers := l ++ .exited :: r }

/-- A step of the sender, or of the sink. -/
inductive SenderStep (m : Machine α β σ) : State α β σ → State α β σ → Prop
  | get {s b rest} (hs : s.sender = .waiting) (hq : s.second = b :: rest) :
      SenderStep m s { s with second := rest, sender := .sending b }
  | attempt {s b sink} (hs : s.sender = .sending b) (h : m.attempt b s.sink sink) :
      SenderStep m s { s with sink }
  | done {s b sink} (hs : s.sender = .sending b) (h : m.done b s.sink sink) :
      SenderStep m s { s with sink, sender := .finishing, sent := s.sent ++ [b] }
  | fails {s b sink} (hs : s.sender = .sending b) (h : m.fail b s.sink sink) :
      SenderStep m s { s with failed := true, sink, sender := .failing }
  | taskDone {s} (hs : s.sender = .finishing) :
      SenderStep m s { s with secondUnfinished := s.secondUnfinished - 1, sender := .waiting }
  | dies {s} (hs : s.sender = .failing) :
      SenderStep m s { s with secondUnfinished := s.secondUnfinished - 1, sender := .dead }
  | exits {s} (hs : s.sender = .waiting) (hstopped : s.stopped = true) :
      SenderStep m s { s with sender := .exited }
  | env {s sink} (h : m.env s.sink sink) : SenderStep m s { s with sink }

/-- A step of the caller. A write that finds a failure raises, and changes nothing. -/
inductive CallerStep (m : Machine α β σ) : State α β σ → State α β σ → Prop
  | write {s a} (hc : s.caller = .idle) (h : s.failed = false) :
      CallerStep m s { s with caller := .writing a }
  | put {s a} (hc : s.caller = .writing a) (hq : s.first.length < m.firstCapacity) :
      CallerStep m s { s with
        first := s.first ++ [a]
        firstUnfinished := s.firstUnfinished + 1
        written := s.written ++ [a]
        caller := .idle }
  | close {s} (hc : s.caller = .idle) : CallerStep m s { s with caller := .waitFirst }
  | firstDone {s} (hc : s.caller = .waitFirst) (h : s.firstUnfinished = 0) :
      CallerStep m s { s with caller := .waitSecond }
  | firstBusy {s} (hc : s.caller = .waitFirst) (h : s.firstUnfinished ≠ 0) :
      CallerStep m s { s with caller := .waitFailed }
  | secondDone {s} (hc : s.caller = .waitSecond) (h : s.secondUnfinished = 0) :
      CallerStep m s { s with caller := .stopping }
  | secondBusy {s} (hc : s.caller = .waitSecond) (h : s.secondUnfinished ≠ 0) :
      CallerStep m s { s with caller := .waitFailed }
  | again {s} (hc : s.caller = .waitFailed) (h : s.failed = false) :
      CallerStep m s { s with caller := .waitFirst }
  | timeout {s} (hc : s.caller = .waitFailed) (h : s.failed = false) :
      CallerStep m s { s with caller := .raised }
  | giveUp {s} (hc : s.caller = .waitFailed) (h : s.failed = true) :
      CallerStep m s { s with caller := .stopping }
  | stop {s} (hc : s.caller = .stopping) :
      CallerStep m s { s with stopped := true, caller := .checking }
  | raise {s sink} (hc : s.caller = .checking) (hf : s.failed = true) (h : m.raising s.sink sink) :
      CallerStep m s { s with sink, caller := .raised }
  | pass {s} (hc : s.caller = .checking) (h : s.failed = false) :
      CallerStep m s { s with caller := .passed }
  | closing {s sink} (hc : s.caller = .passed) (h : m.closing s.sink sink) :
      CallerStep m s { s with sink }
  | closed {s sink} (hc : s.caller = .passed) (h : m.closed s.sink sink) :
      CallerStep m s { s with sink, caller := .joining }
  | closeRaises {s} (hc : s.caller = .passed) : CallerStep m s { s with caller := .raised }
  | join {s} (hc : s.caller = .joining) (hw : ∀ w ∈ s.workers, w.ended = true)
      (hs : s.sender.ended = true) : CallerStep m s { s with caller := .closed }

/-- A step of any of the threads. -/
inductive Step (m : Machine α β σ) (s s' : State α β σ) : Prop
  | worker (h : WorkerStep m s s')
  | sender (h : SenderStep m s s')
  | caller (h : CallerStep m s s')

section

/-- The item a worker has taken and not yet turned into something else. -/
def Worker.ins : Worker α β → Multiset α
  | working a => {a}
  | _ => 0

def Worker.outs : Worker α β → Multiset β
  | putting b => {b}
  | _ => 0

def Sender.outs : Sender β → Multiset β
  | sending b => {b}
  | _ => 0

def Worker.unfinished : Worker α β → Nat
  | working _ | putting _ | finishing | failing => 1
  | _ => 0

def Sender.unfinished : Sender β → Nat
  | sending _ | finishing | failing => 1
  | _ => 0

def Worker.alive : Worker α β → Bool
  | failing | dead => false
  | _ => true

def Sender.alive : Sender β → Bool
  | failing | dead => false
  | _ => true

def State.ins (s : State α β σ) : Multiset α := s.first + (s.workers.map Worker.ins).sum

def State.outs (s : State α β σ) : Multiset β :=
  (s.workers.map Worker.outs).sum + s.second + s.sender.outs + s.sent

def Caller.closing : Caller α → Bool
  | idle | writing _ => false
  | _ => true

def Caller.waited : Caller α → Bool
  | stopping | checking | passed | joining | closed => true
  | _ => false

/-- The caller has looked for a failure for the last time, and found none. -/
def Caller.succeeded : Caller α → Bool
  | passed | joining | closed => true
  | _ => false

/-- What the caller knows when it has read the counts. -/
structure Control (s : State α β σ) : Prop where
  firstDone : s.caller = .waitSecond → s.firstUnfinished = 0
  waited : s.caller.waited = true →
    s.failed = true ∨ s.firstUnfinished = 0 ∧ s.secondUnfinished = 0
  succeeded : s.caller.succeeded = true →
    s.failed = false ∧ s.firstUnfinished = 0 ∧ s.secondUnfinished = 0
  stopped : s.stopped = true → s.caller.closing = true

/-- Without a failure nothing is lost. -/
def State.Conserved (m : Machine α β σ) (s : State α β σ) : Prop :=
  s.failed = false → ∃ worked : Multiset α,
    (s.written : Multiset α) = s.ins + worked ∧ Multiset.Rel m.work worked s.outs

def State.Alive (s : State α β σ) : Prop :=
  s.failed = false → s.sender.alive = true ∧ ∀ w ∈ s.workers, w.alive = true

/-- What holds in every state of a pipeline. -/
structure Inv (m : Machine α β σ) (s : State α β σ) : Prop where
  control : Control s
  firstCount : s.firstUnfinished = s.first.length + (s.workers.map Worker.unfinished).sum
  secondCount : s.secondUnfinished = s.second.length + s.sender.unfinished
  conserved : s.Conserved m
  alive : s.Alive

/-- A step of another thread than the caller's: where nothing is unfinished, nothing comes of it. -/
structure Quiet (s s' : State α β σ) : Prop where
  caller : s'.caller = s.caller
  stopped : s'.stopped = s.stopped
  failed : s.failed = true → s'.failed = true
  first : s.firstUnfinished = 0 → s'.firstUnfinished = 0
  second : s.firstUnfinished = 0 → s.secondUnfinished = 0 →
    s'.secondUnfinished = 0 ∧ s'.failed = s.failed

variable {s s' : State α β σ}

lemma Control.quiet (h : Control s) (hq : Quiet s s') : Control s' := by
  refine ⟨fun hc => hq.first (h.firstDone (hq.caller ▸ hc)), fun hc => ?_, fun hc => ?_, fun hs => ?_⟩
  · rcases h.waited (hq.caller ▸ hc) with hf | ⟨hfirst, hsecond⟩
    · exact .inl (hq.failed hf)
    · exact .inr ⟨hq.first hfirst, (hq.second hfirst hsecond).1⟩
  · obtain ⟨hf, hfirst, hsecond⟩ := h.succeeded (hq.caller ▸ hc)
    obtain ⟨hsecond', hfailed⟩ := hq.second hfirst hsecond
    exact ⟨hfailed.trans hf, hq.first hfirst, hsecond'⟩
  · rw [hq.caller]
    exact h.stopped (hq.stopped ▸ hs)

lemma Inv.start (n : Nat) (sink : σ) : Inv m (State.start n sink) := by
  refine ⟨⟨by simp [State.start], by simp [State.start, Caller.waited],
    by simp [State.start, Caller.succeeded], by simp [State.start]⟩, ?_, rfl, fun _ => ⟨0, ?_, ?_⟩,
    fun _ => ⟨rfl, ?_⟩⟩
  · simp [State.start, Worker.unfinished]
  · simp [State.start, State.ins, Worker.ins]
  · simp [State.start, State.outs, Worker.outs, Sender.outs]
  · intro w hw
    rw [List.eq_of_mem_replicate hw]
    rfl

lemma forall_replace {P : γ → Prop} (h : ∀ z ∈ l ++ x :: r, P z) (hy : P y) :
    ∀ z ∈ l ++ y :: r, P z := by
  simp only [List.forall_mem_append, List.forall_mem_cons] at h ⊢
  exact ⟨h.1, hy, h.2.2⟩

namespace WorkerStep

lemma firstCount (hstep : WorkerStep m s s')
    (h : s.firstUnfinished = s.first.length + (s.workers.map Worker.unfinished).sum) :
    s'.firstUnfinished = s'.first.length + (s'.workers.map Worker.unfinished).sum := by
  cases hstep with
  | take hw hq => simp [hw, hq, Worker.unfinished] at h ⊢; omega
  | work hw | fails hw | put hw | taskDone hw | dies hw | exits hw =>
    simp [hw, Worker.unfinished] at h ⊢
    omega

lemma quiet (hstep : WorkerStep m s s')
    (h : s.firstUnfinished = s.first.length + (s.workers.map Worker.unfinished).sum) :
    Quiet s s' := by
  cases hstep with
  | take | work | exits => exact ⟨rfl, rfl, id, id, fun _ hz => ⟨hz, rfl⟩⟩
  | fails hw | put hw =>
    have hbusy : s.firstUnfinished ≠ 0 := by
      simp [hw, Worker.unfinished] at h
      omega
    exact ⟨rfl, rfl, by simp, id, fun hz => absurd hz hbusy⟩
  | taskDone | dies => exact ⟨rfl, rfl, id, fun hz => by simp [hz], fun _ hz => ⟨hz, rfl⟩⟩

lemma conserved (hstep : WorkerStep m s s') (h : s.Conserved m) : s'.Conserved m := by
  intro hf
  cases hstep with
  | take hw hq =>
    obtain ⟨worked, hwritten, hrel⟩ := h hf
    refine ⟨worked, hwritten.trans ?_, ?_⟩
    · simp [State.ins, hw, hq, Worker.ins, ← Multiset.cons_coe, ← Multiset.singleton_add]
      abel
    · simpa [State.outs, hw, Worker.outs] using hrel
  | @work l r a b hw hwork =>
    obtain ⟨worked, hwritten, hrel⟩ := h hf
    refine ⟨a ::ₘ worked, hwritten.trans ?_, ?_⟩
    · simp [State.ins, hw, Worker.ins, ← Multiset.singleton_add]
      abel
    · convert Multiset.Rel.cons hwork hrel using 1
      simp [State.outs, hw, Worker.outs, ← Multiset.singleton_add]
      abel
  | fails => cases hf
  | put hw =>
    obtain ⟨worked, hwritten, hrel⟩ := h hf
    refine ⟨worked, hwritten.trans (by simp [State.ins, hw, Worker.ins]), ?_⟩
    convert hrel using 1
    simp [State.outs, hw, Worker.outs, ← Multiset.coe_add, ← Multiset.coe_singleton]
    abel
  | taskDone hw | exits hw | dies hw =>
    obtain ⟨worked, hwritten, hrel⟩ := h hf
    exact ⟨worked, hwritten.trans (by simp [State.ins, hw, Worker.ins]),
      by simpa [State.outs, hw, Worker.outs] using hrel⟩

lemma alive (hstep : WorkerStep m s s') (h : s.Alive) : s'.Alive := by
  intro hf
  cases hstep with
  | take hw | work hw | put hw | taskDone hw | exits hw =>
    exact ⟨(h hf).1, forall_replace (hw ▸ (h hf).2) rfl⟩
  | fails => cases hf
  | dies hw => simpa [Worker.alive] using (h hf).2 .failing (by simp [hw])

end WorkerStep

lemma Inv.worker (h : Inv m s) (hstep : WorkerStep m s s') : Inv m s' := by
  refine ⟨h.control.quiet (hstep.quiet h.firstCount), hstep.firstCount h.firstCount, ?_,
    hstep.conserved h.conserved, hstep.alive h.alive⟩
  have hsecond := h.secondCount
  cases hstep with
  | put =>
    simp only [List.length_append, List.length_singleton]
    omega
  | _ => exact hsecond

namespace SenderStep

lemma secondCount (hstep : SenderStep m s s')
    (h : s.secondUnfinished = s.second.length + s.sender.unfinished) :
    s'.secondUnfinished = s'.second.length + s'.sender.unfinished := by
  cases hstep with
  | get hs hq => simpa [hs, hq, Sender.unfinished] using h
  | attempt | env => exact h
  | done hs | fails hs | taskDone hs | dies hs | exits hs =>
    simp [hs, Sender.unfinished] at h ⊢
    omega

lemma quiet (hstep : SenderStep m s s')
    (h : s.secondUnfinished = s.second.length + s.sender.unfinished) : Quiet s s' := by
  cases hstep with
  | fails hs =>
    have hbusy : s.secondUnfinished ≠ 0 := by
      simp [hs, Sender.unfinished] at h
      omega
    exact ⟨rfl, rfl, by simp, id, fun _ hz => absurd hz hbusy⟩
  | taskDone | dies => exact ⟨rfl, rfl, id, id, fun _ hz => ⟨by simp [hz], rfl⟩⟩
  | _ => exact ⟨rfl, rfl, id, id, fun _ hz => ⟨hz, rfl⟩⟩

lemma conserved (hstep : SenderStep m s s') (h : s.Conserved m) : s'.Conserved m := by
  intro hf
  cases hstep with
  | get hs hq =>
    obtain ⟨worked, hwritten, hrel⟩ := h hf
    refine ⟨worked, hwritten, ?_⟩
    convert hrel using 1
    simp [State.outs, hs, hq, Sender.outs, ← Multiset.cons_coe, ← Multiset.singleton_add]
    abel
  | attempt | env => exact h hf
  | done hs =>
    obtain ⟨worked, hwritten, hrel⟩ := h hf
    refine ⟨worked, hwritten, ?_⟩
    convert hrel using 1
    simp [State.outs, hs, Sender.outs, ← Multiset.coe_add, ← Multiset.coe_singleton]
    abel
  | fails => cases hf
  | taskDone hs | exits hs | dies hs =>
    obtain ⟨worked, hwritten, hrel⟩ := h hf
    exact ⟨worked, hwritten, by simpa [State.outs, hs, Sender.outs] using hrel⟩

lemma alive (hstep : SenderStep m s s') (h : s.Alive) : s'.Alive := by
  intro hf
  cases hstep with
  | attempt | env => exact h hf
  | fails => cases hf
  | dies hs => simpa [hs, Sender.alive] using (h hf).1
  | _ => exact ⟨rfl, (h hf).2⟩

end SenderStep

lemma Inv.sender (h : Inv m s) (hstep : SenderStep m s s') : Inv m s' := by
  refine ⟨h.control.quiet (hstep.quiet h.secondCount), ?_, hstep.secondCount h.secondCount,
    hstep.conserved h.conserved, hstep.alive h.alive⟩
  have hfirst := h.firstCount
  cases hstep <;> exact hfirst

lemma Control.caller (h : Control s) (hstep : CallerStep m s s') : Control s' := by
  have hwaited := h.waited
  have hsucceeded := h.succeeded
  have hstopped := h.stopped
  cases hstep with
  | write hc | put hc =>
    exact ⟨by simp, by simp [Caller.waited], by simp [Caller.succeeded],
      fun hs => by simpa [hc, Caller.closing] using hstopped hs⟩
  | close | firstBusy | secondBusy | again | timeout | closeRaises | raise =>
    exact ⟨by simp, by simp [Caller.waited], by simp [Caller.succeeded], fun _ => rfl⟩
  | firstDone hc hz =>
    exact ⟨fun _ => hz, by simp [Caller.waited], by simp [Caller.succeeded], fun _ => rfl⟩
  | secondDone hc hz =>
    exact ⟨by simp, fun _ => .inr ⟨h.firstDone hc, hz⟩, by simp [Caller.succeeded], fun _ => rfl⟩
  | giveUp hc hf => exact ⟨by simp, fun _ => .inl hf, by simp [Caller.succeeded], fun _ => rfl⟩
  | stop hc =>
    exact ⟨by simp, fun _ => hwaited (by simp [hc, Caller.waited]), by simp [Caller.succeeded],
      fun _ => rfl⟩
  | pass hc hf =>
    have hdone := (hwaited (by simp [hc, Caller.waited])).resolve_left (by simp [hf])
    exact ⟨by simp, fun _ => .inr hdone, fun _ => ⟨hf, hdone⟩, fun _ => rfl⟩
  | closing => exact ⟨h.firstDone, hwaited, hsucceeded, hstopped⟩
  | closed hc | join hc =>
    have hdone := hsucceeded (by simp [hc, Caller.succeeded])
    exact ⟨by simp, fun _ => .inr hdone.2, fun _ => hdone, fun _ => rfl⟩

lemma Inv.caller (h : Inv m s) (hstep : CallerStep m s s') : Inv m s' := by
  obtain ⟨control, hfirst, hsecond, hconserved, halive⟩ := h
  have hcontrol := control.caller hstep
  cases hstep with
  | put hc =>
    refine ⟨hcontrol, ?_, hsecond, fun hf => ?_, halive⟩
    · simp only [hfirst, List.length_append, List.length_singleton]
      omega
    · obtain ⟨worked, hwritten, hrel⟩ := hconserved hf
      refine ⟨worked, ?_, hrel⟩
      simp only [State.ins] at hwritten ⊢
      rw [← Multiset.coe_add, hwritten, ← Multiset.coe_add]
      abel
  | _ => exact ⟨hcontrol, hfirst, hsecond, hconserved, halive⟩

lemma Inv.step (h : Inv m s) (hstep : Step m s s') : Inv m s' := by
  cases hstep with
  | worker hstep => exact h.worker hstep
  | sender hstep => exact h.sender hstep
  | caller hstep => exact h.caller hstep

lemma Inv.run (h : Inv m s) (hrun : Relation.ReflTransGen (Step m) s s') : Inv m s' := by
  induction hrun with
  | refl => exact h
  | tail _ hstep ih => exact ih.step hstep

lemma sum_eq_zero {workers : List (Worker α β)} (h : (workers.map Worker.unfinished).sum = 0) :
    (workers.map Worker.ins).sum = 0 ∧ (workers.map Worker.outs).sum = 0 := by
  induction workers with
  | nil => exact ⟨rfl, rfl⟩
  | cons w workers ih =>
    simp only [List.map_cons, List.sum_cons] at h ⊢
    obtain ⟨hins, houts⟩ := ih (by omega)
    rw [hins, houts]
    cases w <;> simp_all [Worker.unfinished, Worker.ins, Worker.outs]

/-- Once the caller has found no failure at the end, everything that was written was sent, and
the sender holds nothing. -/
lemma Inv.all_sent (h : Inv m s) (hc : s.caller.succeeded = true) :
    Multiset.Rel m.work s.written s.sent ∧ s.sender.unfinished = 0 := by
  obtain ⟨hf, hfirst, hsecond⟩ := h.control.succeeded hc
  obtain ⟨worked, hwritten, hrel⟩ := h.conserved hf
  have hcount := h.firstCount
  have hcount' := h.secondCount
  obtain ⟨hins, houts⟩ := @sum_eq_zero _ _ s.workers (by omega)
  have hempty : s.first = [] := List.length_eq_zero_iff.mp (by omega)
  have hempty' : s.second = [] := List.length_eq_zero_iff.mp (by omega)
  have hidle : s.sender.unfinished = 0 := by omega
  have hsender : s.sender.outs = 0 := by
    cases hs : s.sender <;> simp_all [Sender.unfinished, Sender.outs]
  refine ⟨?_, hidle⟩
  have hw : (s.written : Multiset α) = worked := by simpa [State.ins, hempty, hins] using hwritten
  rw [hw]
  simpa [State.outs, houts, hempty', hsender] using hrel

end

section

/-- What has become of the call that closes the pipeline. -/
inductive Outcome where
  | pending
  /-- There was no failure, and the last step on the sink is still to be made. -/
  | passed
  | ended
  | raised
  deriving DecidableEq

def Caller.outcome : Caller α → Outcome
  | passed => .passed
  | joining | closed => .ended
  | raised => .raised
  | _ => .pending

def Outcome.sending : Outcome → Bool
  | pending | raised => true
  | passed | ended => false

/-- What a step can do to the sink, the sender and what was sent. -/
inductive Effect (m : Machine α β σ) :
    Sender β → Outcome → List β → σ → Sender β → Outcome → List β → σ → Prop
  | stay {x e l v} : Effect m x e l v x e l v
  | env {x e l v v'} (h : m.env v v') : Effect m x e l v x e l v'
  | get {b e l v} (he : e.sending = true) : Effect m .waiting e l v (.sending b) e l v
  | attempt {b e l v v'} (he : e.sending = true) (h : m.attempt b v v') :
      Effect m (.sending b) e l v (.sending b) e l v'
  | done {b e l v v'} (he : e.sending = true) (h : m.done b v v') :
      Effect m (.sending b) e l v .finishing e (l ++ [b]) v'
  | fails {b e l v v'} (he : e.sending = true) (h : m.fail b v v') :
      Effect m (.sending b) e l v .failing e l v'
  | taskDone {e l v} : Effect m .finishing e l v .waiting e l v
  | dies {e l v} : Effect m .failing e l v .dead e l v
  | exits {e l v} : Effect m .waiting e l v .exited e l v
  | pass {x l v} (hx : x.unfinished = 0) (hx' : x.alive = true) :
      Effect m x .pending l v x .passed l v
  | closing {x l v v'} (hx : x.unfinished = 0) (hx' : x.alive = true) (h : m.closing v v') :
      Effect m x .passed l v x .passed l v'
  | closed {x l v v'} (hx : x.unfinished = 0) (hx' : x.alive = true) (h : m.closed v v') :
      Effect m x .passed l v x .ended l v'
  | raises {x e l v v'} : Effect m x e l v x .raised l v'

variable {s s' : State α β σ}

/-- Once the caller has found no failure at the end, there is nothing to send, and the sender is
alive and holds nothing. -/
lemma Inv.idle_of_succeeded (h : Inv m s) (hc : s.caller.succeeded = true) :
    s.second = [] ∧ s.sender.unfinished = 0 ∧ s.sender.alive = true := by
  obtain ⟨hf, -, hsecond⟩ := h.control.succeeded hc
  have := h.secondCount
  exact ⟨List.length_eq_zero_iff.mp (by omega), by omega, (h.alive hf).1⟩

lemma Inv.sending (h : Inv m s) (hs : s.second ≠ [] ∨ s.sender.unfinished ≠ 0) :
    s.caller.outcome.sending = true := by
  by_contra hc
  have hsucceeded : s.caller.succeeded = true := by
    cases hcaller : s.caller <;> simp_all [Caller.outcome, Outcome.sending, Caller.succeeded]
  obtain ⟨hsecond, hidle, -⟩ := h.idle_of_succeeded hsucceeded
  exact hs.elim (absurd hsecond) (absurd hidle)

lemma Inv.effect (h : Inv m s) (hstep : Step m s s') :
    Effect m s.sender s.caller.outcome s.sent s.sink s'.sender s'.caller.outcome s'.sent
      s'.sink := by
  have hsending : ∀ {b}, s.sender = .sending b → s.caller.outcome.sending = true := fun hs =>
    h.sending (.inr (by simp [hs, Sender.unfinished]))
  rcases hstep with hstep | hstep | hstep
  · cases hstep <;> exact .stay
  · cases hstep with
    | get hs hq => rw [hs]; exact .get (h.sending (.inl (by simp [hq])))
    | attempt hs hm => rw [hs]; exact .attempt (hsending hs) hm
    | done hs hm => rw [hs]; exact .done (hsending hs) hm
    | fails hs hm => rw [hs]; exact .fails (hsending hs) hm
    | taskDone hs => rw [hs]; exact .taskDone
    | dies hs => rw [hs]; exact .dies
    | exits hs _ => rw [hs]; exact .exits
    | env hm => exact .env hm
  · cases hstep with
    | pass hc hf =>
      have hidle := (h.caller (.pass hc hf)).idle_of_succeeded rfl
      rw [hc]
      exact .pass hidle.2.1 hidle.2.2
    | closing hc hm =>
      have hidle := h.idle_of_succeeded (by simp [hc, Caller.succeeded])
      rw [hc]
      exact .closing hidle.2.1 hidle.2.2 hm
    | closed hc hm =>
      have hidle := h.idle_of_succeeded (by simp [hc, Caller.succeeded])
      rw [hc]
      exact .closed hidle.2.1 hidle.2.2 hm
    | timeout | raise | closeRaises => exact .raises
    | write hc _ | put hc _ | close hc | firstDone hc _ | firstBusy hc _ | secondDone hc _
    | secondBusy hc _ | again hc _ | giveUp hc _ | stop hc | join hc _ _ =>
      rw [hc]; exact .stay

end

section

variable {m : Machine α β σ} {P : α → Prop} {Q : σ → Prop} {s s' : State α β σ}

/-- A property of the sink that nothing takes away, if what is sent was made of such items. -/
structure Machine.Keeps (m : Machine α β σ) (P : α → Prop) (Q : σ → Prop) : Prop where
  sends : ∀ a b v v', P a → m.work a b → m.attempt b v v' ∨ m.done b v v' ∨ m.fail b v v' →
    Q v → Q v'
  others : ∀ v v', m.env v v' ∨ m.closing v v' ∨ m.closed v v' ∨ m.raising v v' → Q v → Q v'

/-- Whatever fails, nothing is on its way but items and what was made of them. -/
structure Traced (m : Machine α β σ) (P : α → Prop) (Q : σ → Prop) (s : State α β σ) : Prop where
  first : ∀ a ∈ s.first, P a
  ins : ∀ a, .working a ∈ s.workers → P a
  outs : ∀ b, .putting b ∈ s.workers ∨ b ∈ s.second ∨ s.sender = .sending b → ∃ a, P a ∧ m.work a b
  sink : Q s.sink

lemma Traced.step (hm : m.Keeps P Q) (hstep : Step m s s') (hwritten : ∀ a ∈ s'.written, P a)
    (h : Traced m P Q s) : Traced m P Q s' := by
  obtain ⟨hfirst, hins, houts, hsink⟩ := h
  have hsends : ∀ {b v'}, s.sender = .sending b →
      m.attempt b s.sink v' ∨ m.done b s.sink v' ∨ m.fail b s.sink v' → Q v' := by
    intro b v' hs hv
    obtain ⟨a, ha, hwork⟩ := houts b (.inr (.inr hs))
    exact hm.sends a b _ _ ha hwork hv hsink
  have hothers : ∀ {v'}, m.env s.sink v' ∨ m.closing s.sink v' ∨ m.closed s.sink v' ∨
      m.raising s.sink v' → Q v' := fun hv => hm.others _ _ hv hsink
  rcases hstep with hstep | hstep | hstep <;> cases hstep <;> constructor <;> grind

lemma Traced.run (hm : m.Keeps P Q) (hrun : Relation.ReflTransGen (Step m) (State.start n v) s)
    (hwritten : ∀ a ∈ s.written, P a) (hv : Q v) : Traced m P Q s := by
  induction hrun with
  | refl => exact ⟨by simp [State.start], by simp [State.start], by simp [State.start], hv⟩
  | tail _ hstep ih =>
    refine (ih fun a ha => hwritten a ?_).step hm hstep hwritten
    rcases hstep with hstep | hstep | hstep <;> cases hstep <;> grind

end

end Pipeline

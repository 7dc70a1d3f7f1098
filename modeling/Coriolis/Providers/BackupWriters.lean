import Coriolis.Library.PipelineProgress

/-!
# The threads of the backup writers

`SSHBackupWriterImpl` and `HTTPBackupWriterImpl` are pipelines of the same shape. `write` puts a
payload into a queue, encoder or compressor threads make messages of the payloads and put them
into a second queue, and one sender thread sends them. `close` waits for the queues.

`write` looks for a recorded exception first and then waits for room in the queue, without a
timeout. If the threads fail in between, it waits for ever.
-/

namespace Coriolis.Providers

open Pipeline Relation

/-- The two writers that send from threads of their own, with their number of encoders or
compressors. -/
inductive BackupWriterImpl where
  | ssh (encoderCount : Nat)
  | http (compressorCount : Option Nat)
  deriving DecidableEq, Repr

namespace BackupWriterImpl

/-- The number of encoder or compressor threads that `_open` starts. -/
def threadCount : BackupWriterImpl → Nat
  | ssh encoderCount => encoderCount
  | http none | http (some 0) => 1
  | http (some (n + 1)) => n + 1

/-- The `maxsize` of both queues. -/
def maxsize : Nat := 5

/-- The threads of a writer. Any encoding, compression or sending may fail. -/
def threads : Machine (List UInt8) (List UInt8) Unit where
  firstCapacity := maxsize
  secondCapacity := maxsize
  work _ _ := True
  env _ _ := False
  attempt _ _ _ := True
  done _ _ _ := True
  fail _ _ _ := True
  closing _ _ := True
  closed _ _ := True
  raising _ _ := True

/-- The writer after `_open`. -/
def opened (w : BackupWriterImpl) : State (List UInt8) (List UInt8) Unit :=
  State.start w.threadCount ()

lemma threads_productive : threads.Productive :=
  ⟨fun a => ⟨a, trivial⟩, fun _ _ => ⟨(), trivial⟩, by decide, by decide⟩

/-- A write never hangs if, after it has looked for an exception, the sender and one of the
threads that serve its queue do not fail. -/
theorem write_not_hangs (w : BackupWriterImpl) (hcount : 0 < w.threadCount)
    {s : State (List UInt8) (List UInt8) Unit}
    (hrun : ReflTransGen (fun s s' => Step threads s s' ∧ Considerate s s') w.opened s) :
    ¬Hangs threads s :=
  ((Served.start hcount ()).run hrun).not_hangs threads_productive

/-- Both writers, with the default number of threads, can hang. -/
theorem write_hangs :
    (∃ s, ReflTransGen (Step threads) (ssh 3).opened s ∧ Hangs threads s) ∧
      ∃ s, ReflTransGen (Step threads) (http (some 3)).opened s ∧ Hangs threads s :=
  ⟨exists_hangs threads [0] () (by decide) 3, exists_hangs threads [0] () (by decide) 3⟩

/-- A run in which a write is put, taken by an encoder, and another one waits. -/
theorem write_not_hangs_ssh :
    0 < (ssh 3).threadCount ∧ ∃ s, s.caller = .writing [1] ∧ s.first = [] ∧
      ReflTransGen (fun s s' => Step threads s s' ∧ Considerate s s') (ssh 3).opened s ∧
      ¬Hangs threads s := by
  have hwrite : Step threads (ssh 3).opened { (ssh 3).opened with caller := .writing [0] } :=
    .caller (.write rfl rfl)
  have hrun : ReflTransGen (fun s s' => Step threads s s' ∧ Considerate s s') (ssh 3).opened _ :=
    (((ReflTransGen.single ⟨hwrite, fun ⟨_, hc⟩ => nomatch hc⟩).tail
      ⟨.caller (.put rfl (by decide)), fun _ => ⟨id, id⟩⟩).tail
      ⟨.worker (.take (l := []) rfl rfl), fun ⟨_, hc⟩ => nomatch hc⟩).tail
      ⟨.caller (.write (a := [1]) rfl rfl), fun ⟨_, hc⟩ => nomatch hc⟩
  exact ⟨by decide, _, rfl, rfl, hrun, write_not_hangs (ssh 3) (by decide) hrun⟩

end BackupWriterImpl

/-- The calls of a writer that move data. -/
inductive Call where
  | seek (pos : Nat)
  | write (data : List UInt8)
  deriving DecidableEq, Repr

/-- What `seek` and `write` do to the fields of a writer that only they use, and the payload that
`write` makes of them. -/
structure Cursor (κ α : Type) where
  seek : κ → Nat → κ
  /-- There is no payload if `write` raises. -/
  write : κ → List UInt8 → Option (α × κ)

section

variable {κ α β σ : Type}

def Cursor.payloads (cursor : Cursor κ α) : κ → List Call → Option (List α × κ)
  | k, [] => some ([], k)
  | k, .seek pos :: calls => cursor.payloads (cursor.seek k pos) calls
  | k, .write data :: calls => do
    let (payload, k) ← cursor.write k data
    let (payloads, k) ← cursor.payloads k calls
    return (payload :: payloads, k)

/-- A run of a writer in which the caller has made the given calls up to now, and all of whose
steps are as `guard` says. -/
inductive Makes (m : Machine α β σ) (cursor : Cursor κ α)
    (guard : State α β σ → State α β σ → Prop) (k₀ : κ) (s₀ : State α β σ) :
    κ → List Call → State α β σ → Prop
  | start : Makes m cursor guard k₀ s₀ k₀ [] s₀
  | seek {k calls s pos} (h : Makes m cursor guard k₀ s₀ k calls s) (hc : s.caller = .idle) :
      Makes m cursor guard k₀ s₀ (cursor.seek k pos) (calls ++ [.seek pos]) s
  | write {k calls s data payload k' s'} (h : Makes m cursor guard k₀ s₀ k calls s)
      (hw : cursor.write k data = some (payload, k')) (hc : s.caller = .writing payload)
      (hstep : CallerStep m s s') (hguard : guard s s') :
      Makes m cursor guard k₀ s₀ k' (calls ++ [.write data]) s'
  | step {k calls s s'} (h : Makes m cursor guard k₀ s₀ k calls s) (hstep : Step m s s')
      (hwritten : s'.written = s.written) (hguard : guard s s') :
      Makes m cursor guard k₀ s₀ k calls s'

variable {cursor : Cursor κ α} {guard : State α β σ → State α β σ → Prop}

lemma Makes.run (h : Makes m cursor guard k₀ s₀ k calls s) :
    ReflTransGen (fun s s' => Step m s s' ∧ guard s s') s₀ s := by
  induction h with
  | start => exact .refl
  | seek _ _ ih => exact ih
  | write _ _ _ hstep hguard ih => exact ih.tail ⟨.caller hstep, hguard⟩
  | step _ hstep _ hguard ih => exact ih.tail ⟨hstep, hguard⟩

lemma Makes.steps (h : Makes m cursor guard k₀ s₀ k calls s) : ReflTransGen (Step m) s₀ s :=
  h.run.lift id fun _ _ h => h.1

lemma Cursor.payloads_append (h : cursor.payloads k calls = some (written, k'))
    (h' : cursor.payloads k' calls' = some (written', k'')) :
    cursor.payloads k (calls ++ calls') = some (written ++ written', k'') := by
  induction calls generalizing k written with
  | nil =>
    obtain ⟨rfl, rfl⟩ := Prod.mk.inj (Option.some.inj h)
    exact h'
  | cons call calls ih =>
    cases call with
    | seek pos => exact ih h
    | write data =>
      simp only [payloads, Option.bind_eq_bind, Option.bind_eq_some_iff, Option.pure_def] at h
      obtain ⟨⟨payload, k₁⟩, hw, ⟨payloads, k₂⟩, hcalls, heq⟩ := h
      obtain ⟨rfl, rfl⟩ := Prod.mk.inj (Option.some.inj heq)
      simp [Cursor.payloads, hw, ih hcalls]

lemma Makes.payloads (h : Makes m cursor guard k₀ s₀ k calls s) (hstart : s₀.written = []) :
    cursor.payloads k₀ calls = some (s.written, k) := by
  induction h with
  | start => rw [hstart]; rfl
  | @seek k calls s pos _ _ ih =>
    have hseek : cursor.payloads k [.seek pos] = some ([], cursor.seek k pos) := rfl
    simpa using Cursor.payloads_append ih hseek
  | write _ hw hc hstep _ ih =>
    cases hstep with
    | put hc' _ =>
      obtain rfl := Caller.writing.inj (hc.symm.trans hc')
      exact Cursor.payloads_append ih (by simp [Cursor.payloads, hw])
    | _ => simp_all
  | step _ _ hwritten _ ih => rw [hwritten]; exact ih

end

end Coriolis.Providers

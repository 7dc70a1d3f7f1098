import Mathlib.Logic.Function.Basic

/-!
# Programs that share a store

A program reads and writes a store that others use as well. Each access is atomic, and what
comes after it depends on what it found. On its own a program is a function of the store
(`run`); among others it makes one access at a time (`next`).
-/

namespace Sharing

/-- A program over a store: what it returns, or an access with what follows it. The access
finds a store and leaves another one. -/
inductive Prog (σ α : Type) where
  | done (a : α)
  | access (write : σ → σ) (rest : σ → Prog σ α)

namespace Prog

variable {σ α β ε : Type} {s : σ}

def bind : Prog σ α → (α → Prog σ β) → Prog σ β
  | done a, k => k a
  | access f rest, k => access f fun s => (rest s).bind k

instance : Monad (Prog σ) where
  pure := done
  bind := bind

def run : Prog σ α → σ → α × σ
  | done a, s => (a, s)
  | access f rest, s => (rest s).run (f s)

def next : Prog σ α → σ → Prog σ α × σ
  | done a, s => (done a, s)
  | access f rest, s => (rest s, f s)

def read : Prog σ σ := access id done

def modify (f : σ → σ) : Prog σ Unit := access f fun _ => done ()

def atomic (f : σ → α × σ) : Prog σ α := access (fun s => (f s).2) fun s => done (f s).1

/-- The program up to an access that raises, of which there is no trace in the store. -/
def runRaising (raises : σ → σ → Bool) : Prog σ α → σ → Option α × σ
  | done a, s => (some a, s)
  | access f rest, s => if raises s (f s) then (none, s) else (rest s).runRaising raises (f s)

def orRaise (p : Prog σ (Except ε α)) (k : α → Prog σ (Except ε β)) : Prog σ (Except ε β) :=
  p.bind fun
    | .ok a => k a
    | .error err => done (.error err)

def each (f : α → Prog σ Unit) : List α → Prog σ Unit
  | [] => done ()
  | a :: l => (f a).bind fun _ => each f l

-- not by `rfl`: what a program tests is rewritten with these, its instances included
@[simp] lemma run_pure (a : α) : (pure a : Prog σ α).run s = (a, s) := Prod.ext rfl rfl

@[simp] lemma run_read : (read : Prog σ σ).run s = (s, s) := Prod.ext rfl rfl

@[simp] lemma run_modify (f : σ → σ) : (modify f).run s = ((), f s) := Prod.ext rfl rfl

@[simp] lemma run_atomic (f : σ → α × σ) : (atomic f).run s = f s := Prod.ext rfl rfl

@[simp] lemma run_bind (p : Prog σ α) (k : α → Prog σ β) :
    (p >>= k).run s = (k (p.run s).1).run (p.run s).2 := by
  induction p generalizing s with
  | done a => rfl
  | access f rest ih => exact ih s

@[simp] lemma run_ite (c : Prop) [Decidable c] (p q : Prog σ α) :
    (if c then p else q).run s = if c then p.run s else q.run s := by
  split <;> rfl

lemma run_orRaise (p : Prog σ (Except ε α)) (k : α → Prog σ (Except ε β)) :
    (p.orRaise k).run s = match p.run s with
      | (.error err, s) => (.error err, s)
      | (.ok a, s) => (k a).run s := by
  rw [show (p.orRaise k).run s = _ from run_bind ..]
  rcases p.run s with ⟨err | a, s'⟩ <;> rfl

@[simp] lemma run_each (f : α → Prog σ Unit) (l : List α) :
    (each f l).run s = ((), l.foldl (fun s a => ((f a).run s).2) s) := by
  induction l generalizing s with
  | nil => rfl
  | cons a l ih => exact (run_bind ..).trans ih

lemma run_of_runRaising {p : Prog σ α} (h : p.runRaising raises s = (some a, s')) :
    p.run s = (a, s') := by
  induction p generalizing s with
  | done b => simpa [runRaising, run] using h
  | access f rest ih =>
    unfold runRaising at h
    split at h
    · simp at h
    · exact ih s h

lemma runRaising_isSome (h : ∀ s s', raises s s' = false) (p : Prog σ α) :
    (p.runRaising raises s).1.isSome = true := by
  induction p generalizing s with
  | done a => rfl
  | access f rest ih =>
    unfold runRaising
    rw [h, if_neg Bool.false_ne_true]
    exact ih s

end Prog

end Sharing

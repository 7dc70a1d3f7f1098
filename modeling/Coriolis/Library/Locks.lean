import Mathlib.Data.Set.Insert

/-!
# Programs that take locks

Threads run straight-line programs of lock operations, interleaved in any way. A lock is
taken by one thread at a time, the thread that has it included, and a thread may raise at any
point: it then releases what it holds and is done. Threads are deadlocked when each of them
waits for a lock that one of them holds.

What a thread can be waiting for, and with which locks in its hands, is a finite list that is
read off its program (`waits`). So that a set of programs is free of deadlocks is shown by
looking at these lists, and that it is not by two programs that take two locks in opposite
orders (`exists_deadlock`).
-/

namespace Locking

inductive Op (L : Type*) where
  | acquire (lock : L)
  | release (lock : L)

def withLock {L : Type*} (lock : L) (body : List (Op L)) : List (Op L) :=
  .acquire lock :: (body ++ [.release lock])

/-- What each thread has yet to do, and the locks it holds, the last one taken first. -/
structure State (ι L : Type*) where
  rest : ι → List (Op L)
  held : ι → List L

variable {ι L : Type*} [DecidableEq ι] [DecidableEq L]

inductive Step : State ι L → State ι L → Prop
  | acquire {s : State ι L} {i : ι} {l : L} {ops : List (Op L)}
      (h : s.rest i = .acquire l :: ops) (hfree : ∀ j, l ∉ s.held j) :
      Step s ⟨Function.update s.rest i ops, Function.update s.held i (l :: s.held i)⟩
  | release {s : State ι L} {i : ι} {l : L} {ops : List (Op L)}
      (h : s.rest i = .release l :: ops) :
      Step s ⟨Function.update s.rest i ops, Function.update s.held i ((s.held i).erase l)⟩
  | raise {s : State ι L} (i : ι) :
      Step s ⟨Function.update s.rest i ((s.held i).map .release), s.held⟩

/-- The states of threads that start with these programs and no locks. -/
def Reachable (programs : ι → List (Op L)) : State ι L → Prop :=
  Relation.ReflTransGen Step ⟨programs, fun _ => []⟩

def Deadlocked (s : State ι L) (S : Set ι) : Prop :=
  S.Nonempty ∧ ∀ i ∈ S, ∃ l ops, s.rest i = .acquire l :: ops ∧ ∃ j ∈ S, l ∈ s.held j

/-- The locks in hand and the lock wanted wherever a program takes a lock. -/
def waits (held : List L) : List (Op L) → List (List L × L)
  | [] => []
  | .acquire l :: ops => (held, l) :: waits (l :: held) ops
  | .release l :: ops => waits (held.erase l) ops

def heldAfter (held : List L) : List (Op L) → List L
  | [] => held
  | .acquire l :: ops => heldAfter (l :: held) ops
  | .release l :: ops => heldAfter (held.erase l) ops

section

variable (held : List L) (l : L) (a b : List (Op L))

@[simp] lemma heldAfter_nil : heldAfter held ([] : List (Op L)) = held := rfl

@[simp] lemma waits_nil : waits held ([] : List (Op L)) = [] := rfl

@[simp] lemma heldAfter_append : heldAfter held (a ++ b) = heldAfter (heldAfter held a) b := by
  induction a generalizing held with
  | nil => rfl
  | cons op a ih => cases op <;> exact ih _

@[simp] lemma waits_append :
    waits held (a ++ b) = waits held a ++ waits (heldAfter held a) b := by
  induction a generalizing held with
  | nil => rfl
  | cons op a ih => cases op <;> simp [waits, heldAfter, ih]

@[simp] lemma heldAfter_withLock :
    heldAfter held (withLock l a) = (heldAfter (l :: held) a).erase l := by
  simp [withLock, heldAfter]

@[simp] lemma waits_withLock :
    waits held (withLock l a) = (held, l) :: waits (l :: held) a := by
  simp [withLock, waits]

end

@[simp] lemma waits_release (held ls : List L) : waits held (ls.map .release) = [] := by
  induction ls generalizing held with
  | nil => rfl
  | cons l ls ih => exact ih _

section

variable {programs : ι → List (Op L)} {s s' : State ι L} {i j : ι}

/-- A lock has one holder, and no thread waits where its program does not. -/
structure Sound (programs : ι → List (Op L)) (s : State ι L) : Prop where
  exclusive : ∀ i j l, l ∈ s.held i → l ∈ s.held j → i = j
  waits : ∀ i, waits (s.held i) (s.rest i) ⊆ waits [] (programs i)

lemma Sound.step (h : Sound programs s) (hs : Step s s') : Sound programs s' := by
  cases hs with
  | @acquire i l ops hrest hfree =>
    refine ⟨fun a b m ha hb => ?_, fun a => ?_⟩
    · -- the new lock was nobody's, and every other one is where it was
      have hold : ∀ c, m ∈ Function.update s.held i (l :: s.held i) c →
          m = l ∧ c = i ∨ m ≠ l ∧ m ∈ s.held c := by
        intro c hc
        by_cases hci : c = i
        · subst hci
          rw [Function.update_self, List.mem_cons] at hc
          by_cases hm : m = l
          · exact .inl ⟨hm, rfl⟩
          · exact .inr ⟨hm, hc.resolve_left hm⟩
        · rw [Function.update_of_ne hci] at hc
          exact .inr ⟨fun hm => hfree c (hm ▸ hc), hc⟩
      rcases hold a ha with ⟨hm, rfl⟩ | ⟨hm, ha⟩ <;> rcases hold b hb with ⟨hm', rfl⟩ | ⟨hm', hb⟩
      · rfl
      · exact absurd hm hm'
      · exact absurd hm' hm
      · exact h.exclusive a b m ha hb
    · by_cases hai : a = i
      · subst hai
        simp only [Function.update_self]
        refine List.Subset.trans ?_ (h.waits a)
        rw [hrest]
        exact List.subset_cons_self _ _
      · simpa only [Function.update_of_ne hai] using h.waits a
  | @release i l ops hrest =>
    refine ⟨fun a b m ha hb => ?_, fun a => ?_⟩
    · have hold : ∀ c, m ∈ Function.update s.held i ((s.held i).erase l) c → m ∈ s.held c := by
        intro c hc
        by_cases hci : c = i
        · subst hci
          rw [Function.update_self] at hc
          exact List.mem_of_mem_erase hc
        · rwa [Function.update_of_ne hci] at hc
      exact h.exclusive a b m (hold a ha) (hold b hb)
    · by_cases hai : a = i
      · subst hai
        simp only [Function.update_self]
        have := h.waits a
        rwa [hrest] at this
      · simpa only [Function.update_of_ne hai] using h.waits a
  | raise i =>
    refine ⟨h.exclusive, fun a => ?_⟩
    by_cases hai : a = i
    · subst hai
      simp
    · simpa only [Function.update_of_ne hai] using h.waits a

lemma Reachable.sound (h : Reachable programs s) : Sound programs s := by
  induction h with
  | refl => exact ⟨by simp, fun i => List.Subset.refl _⟩
  | tail _ hs ih => exact ih.step hs

lemma Deadlocked.waits (hd : Deadlocked s S) (h : Reachable programs s) (hi : i ∈ S) :
    ∃ l, (s.held i, l) ∈ waits [] (programs i) ∧ ∃ j ∈ S, l ∈ s.held j := by
  obtain ⟨l, ops, hrest, hj⟩ := hd.2 i hi
  refine ⟨l, h.sound.waits i ?_, hj⟩
  rw [hrest]
  exact List.mem_cons_self

end

section

def Unhindered (others : List L) : List L → List (Op L) → Prop
  | _, [] => True
  | held, .acquire l :: ops => l ∉ held ∧ l ∉ others ∧ Unhindered others (l :: held) ops
  | held, .release l :: ops => Unhindered others (held.erase l) ops

variable {i j : ι}

lemma runs_alone (others : List L) (ops : List (Op L)) (hrest : s.rest i = ops ++ rest)
    (hothers : ∀ j, j ≠ i → ∀ l ∈ s.held j, l ∈ others) (h : Unhindered others (s.held i) ops) :
    Relation.ReflTransGen Step s
      ⟨Function.update s.rest i rest, Function.update s.held i (heldAfter (s.held i) ops)⟩ := by
  induction ops generalizing s with
  | nil =>
    have h1 : Function.update s.rest i rest = s.rest := by
      rw [← List.nil_append rest, ← hrest, Function.update_eq_self]
    simp only [heldAfter, h1, Function.update_eq_self]
    exact .refl
  | cons op ops ih =>
    cases op with
    | acquire l =>
      obtain ⟨hl, ho, h⟩ := h
      have hfree : ∀ j, l ∉ s.held j := by
        intro j hj
        by_cases hji : j = i
        · exact hl (hji ▸ hj)
        · exact ho (hothers j hji l hj)
      have hnext := ih (s := ⟨Function.update s.rest i (ops ++ rest),
        Function.update s.held i (l :: s.held i)⟩) (by simp)
        (fun j hji m hm => hothers j hji m (by simpa [Function.update_of_ne hji] using hm))
        (by simpa using h)
      simp only [Function.update_idem, Function.update_self] at hnext
      exact .head (.acquire hrest hfree) hnext
    | release l =>
      have hnext := ih (s := ⟨Function.update s.rest i (ops ++ rest),
        Function.update s.held i ((s.held i).erase l)⟩) (by simp)
        (fun j hji m hm => hothers j hji m (by simpa [Function.update_of_ne hji] using hm))
        (by simpa [Unhindered] using h)
      simp only [Function.update_idem, Function.update_self] at hnext
      exact .head (.release hrest) hnext

/-- Two threads that get to take two locks in opposite orders can deadlock. -/
lemma exists_deadlock (programs : ι → List (Op L)) {a b ra rb : List (Op L)} {l m : L}
    (hij : i ≠ j)
    (hi : programs i = a ++ .acquire l :: ra) (hj : programs j = b ++ .acquire m :: rb)
    (ha : Unhindered [] [] a) (hb : Unhindered (heldAfter [] a) [] b)
    (hl : l ∈ heldAfter [] b) (hm : m ∈ heldAfter [] a) :
    ∃ s, Reachable programs s ∧ Deadlocked s {i, j} := by
  have h1 := runs_alone (i := i) (s := ⟨programs, fun _ => []⟩) [] a hi (by simp) ha
  have h2 := runs_alone (i := j) (s := ⟨Function.update programs i (.acquire l :: ra),
    Function.update (fun _ => []) i (heldAfter [] a)⟩) (heldAfter [] a) b
    (by simpa [Function.update_of_ne hij.symm] using hj)
    (fun k hk x hx => by
      by_cases hki : k = i
      · simpa [hki] using hx
      · simp [Function.update_of_ne hki] at hx)
    (by simpa [Function.update_of_ne hij.symm] using hb)
  refine ⟨_, h1.trans h2, ⟨i, by simp⟩, ?_⟩
  rintro k (rfl | rfl)
  · exact ⟨l, ra, by simp [Function.update_of_ne hij], j, by simp,
      by simpa [Function.update_of_ne hij.symm] using hl⟩
  · exact ⟨m, rb, by simp, i, by simp, by simpa [Function.update_of_ne hij] using hm⟩

end

end Locking

import Mathlib.Data.List.Forall2

/-!
# Programs that raise

A program of `EStateM` that raises leaves behind what it had written. It is judged by two
conditions on the state, one for a return and one for a raise (`Triple`), with one rule for
each way to put programs together.
-/

namespace Raising

variable {ε σ α β : Type}

/-- What two computations without a state return together, each of them has returned. -/
lemma bind_eq_ok {f : α → Except ε β} (h : (x >>= f) = .ok r) : ∃ a, x = .ok a ∧ f a = .ok r := by
  cases x with
  | error err => cases h
  | ok a => exact ⟨a, rfl, h⟩

lemma map_eq_ok {x : Except ε α} (h : x.map f = .ok r) :
    ∃ a, x = .ok a ∧ f a = r := by
  cases x with
  | error err => cases h
  | ok a => exact ⟨a, rfl, Except.ok.inj h⟩

lemma forall₂_of_mapM {f : α → Except ε β} (h : l.mapM f = .ok r) :
    List.Forall₂ (fun a b => f a = .ok b) l r := by
  induction l generalizing r with
  | nil =>
    cases h
    exact .nil
  | cons a l ih =>
    rw [List.mapM_cons] at h
    obtain ⟨b, hb, h⟩ := bind_eq_ok h
    obtain ⟨r, hr, h⟩ := bind_eq_ok h
    cases h
    exact .cons hb (ih hr)

lemma mapM_eq_ok {f : α → Except ε β} {l : List α} (h : ∀ a ∈ l, ∃ b, f a = .ok b) :
    ∃ r, l.mapM f = .ok r := by
  induction l with
  | nil => exact ⟨[], rfl⟩
  | cons a l ih =>
    rw [List.forall_mem_cons] at h
    obtain ⟨⟨b, hb⟩, hl⟩ := h
    obtain ⟨r, hr⟩ := ih hl
    exact ⟨b :: r, by simp [hb, hr, bind, Except.bind, pure, Except.pure]⟩

/-- From a state with `P` the program returns with `Q` or raises with `E`. -/
def Triple (P : σ → Prop) (p : EStateM ε σ α) (Q : α → σ → Prop) (E : σ → Prop) : Prop :=
  ∀ s, P s → match p s with
    | .ok a s' => Q a s'
    | .error _ s' => E s'

/-- Whatever the program does, it keeps `I`. -/
abbrev Keeps (I : σ → Prop) (p : EStateM ε σ α) : Prop := Triple I p (fun _ => I) I

def attempt (p : EStateM ε σ Unit) : EStateM ε σ Unit := tryCatch p fun _ => pure ()

def each (f : α → EStateM ε σ Unit) : List α → EStateM ε σ Unit
  | [] => pure ()
  | a :: l => do
    f a
    each f l

namespace Triple

variable {p : EStateM ε σ α}

lemma mono (h : Triple P p Q E) (hP : ∀ s, P' s → P s) (hQ : ∀ a s, Q a s → Q' a s)
    (hE : ∀ s, E s → E' s) : Triple P' p Q' E' := by
  intro s hs
  have h := h s (hP s hs)
  cases hp : p s with
  | ok a s' => rw [hp] at h; exact hQ a s' h
  | error err s' => rw [hp] at h; exact hE s' h

lemma pure (h : ∀ s, P s → Q a s) :
    Triple P (Pure.pure a : EStateM ε σ α) Q E := h

lemma throw (h : ∀ s, P s → E s) :
    Triple P (MonadExcept.throw err : EStateM ε σ α) Q E := h

lemma get_bind (h : ∀ s, P s → Triple (· = s) (f s) Q E) :
    Triple P (MonadState.get >>= f) Q E :=
  fun s hs => h s hs s rfl

lemma set (h : ∀ s, P s → Q ⟨⟩ s') :
    Triple P (MonadStateOf.set s' : EStateM ε σ PUnit) Q E := h

lemma set_bind (h : Triple (· = s') (f ⟨⟩) Q E) :
    Triple P (MonadStateOf.set s' >>= f) Q E :=
  fun _ _ => h s' rfl

lemma modify (h : ∀ s, P s → Q () (f s)) :
    Triple P (modify f : EStateM ε σ Unit) Q E := h

lemma bind (hp : Triple P p Q E) (hf : ∀ a, Triple (Q a) (f a) R E) : Triple P (p >>= f) R E := by
  intro s hs
  have hp := hp s hs
  change match EStateM.bind p f s with | .ok a s' => R a s' | .error _ s' => E s'
  unfold EStateM.bind
  cases hps : p s with
  | ok a s' => rw [hps] at hp; exact hf a s' hp
  | error err s' => rw [hps] at hp; exact hp

lemma tryCatch (hp : Triple P p Q F) (hh : ∀ err, Triple F (handler err) Q E) :
    Triple P (MonadExcept.tryCatch p handler) Q E := by
  intro s hs
  have hp := hp s hs
  change match EStateM.tryCatch p handler s with | .ok a s' => Q a s' | .error _ s' => E s'
  unfold EStateM.tryCatch
  cases hps : p s with
  | ok a s' => simpa [hps] using hp
  | error err s' =>
    rw [hps] at hp
    simpa [hps, EStateM.Backtrackable.restore, EStateM.dummyRestore] using hh err s' hp

lemma ite [Decidable c] (hp : c → Triple P p Q E) (hq : ¬ c → Triple P q Q E) :
    Triple P (if c then p else q) Q E := by
  split
  · next h => exact hp h
  · next h => exact hq h

lemma attempt {p : EStateM ε σ Unit} (hp : Triple P p (fun _ => E') E') :
    Triple P (attempt p) (fun _ => E') E :=
  tryCatch hp fun _ => pure fun _ h => h

lemma each (h : ∀ a ∈ l, Keeps I (f a)) : Keeps I (each f l) := by
  induction l with
  | nil => exact pure fun _ h => h
  | cons a l ih =>
    exact bind (h a List.mem_cons_self) fun _ => ih fun b hb => h b (List.mem_cons_of_mem a hb)

lemma of_error (h : Triple P p Q E) (hs : P s) (hrun : p s = .error err s') : E s' := by
  have h := h s hs
  rwa [hrun] at h

end Triple

lemma tryCatch_of_error (h : p s = .error err s') :
    (tryCatch p handler : EStateM ε σ α) s = handler err s' := by
  change EStateM.tryCatch p handler s = _
  rw [EStateM.tryCatch, h]
  rfl

lemma tryCatch_of_ok (h : p s = .ok a s') :
    (tryCatch p handler : EStateM ε σ α) s = .ok a s' := by
  change EStateM.tryCatch p handler s = _
  rw [EStateM.tryCatch, h]

lemma bind_of_ok {f : α → EStateM ε σ β} (h : p s = .ok a s') : (p >>= f) s = f a s' := by
  change EStateM.bind p f s = _
  rw [EStateM.bind, h]

lemma each_cons (f : α → EStateM ε σ Unit) (a : α) (l : List α) (s : σ) :
    each f (a :: l) s = match f a s with
      | .ok _ s' => each f l s'
      | .error err s' => .error err s' := by
  change EStateM.bind (f a) (fun _ => each f l) s = _
  unfold EStateM.bind
  cases f a s <;> rfl

lemma each_append (f : α → EStateM ε σ Unit) (l l' : List α) (s : σ) :
    each f (l ++ l') s = match each f l s with
      | .ok _ s' => each f l' s'
      | .error err s' => .error err s' := by
  induction l generalizing s with
  | nil => rfl
  | cons a l ih =>
    rw [List.cons_append, each_cons, each_cons]
    cases f a s with
    | ok u s' => exact ih s'
    | error err s' => rfl

lemma each_flatMap (f : α → EStateM ε σ Unit) (g : β → List α) (l : List β) (s : σ) :
    each (fun b => each f (g b)) l s = each f (l.flatMap g) s := by
  induction l generalizing s with
  | nil => rfl
  | cons b l ih =>
    rw [List.flatMap_cons, each_append, each_cons]
    cases each f (g b) s with
    | ok u s' => exact ih s'
    | error err s' => rfl

end Raising

import Mathlib.Order.Lattice.Nat

/-!
# Items that depend on one another

Items are done one at a time, each after all it depends on. An `Order` is what was done so
far. It contains everything an item of it rests on, and where dependencies have a rank, every
set with that property can be done, and nothing else before it (`exists_order`). The level of
an item is the length of the longest chain of dependencies that ends in it. A finite set in
which no item rests on itself has levels.
-/

namespace Dependencies

variable {α : Type*} (deps : α → List α) (eligible : α → Prop)

/-- What was done, the last item first. Only eligible items are ever done. -/
inductive Order : List α → Prop
  | nil : Order []
  | cons {l : List α} {a : α} (h : Order l) (hnew : a ∉ l) (ha : eligible a)
      (hdeps : ∀ d ∈ deps a, d ∈ l) : Order (a :: l)

def Below : α → α → Prop := Relation.TransGen fun d a => d ∈ deps a

variable {deps eligible} {a d : α}

lemma Order.eligible_of_mem (h : Order deps eligible l) (ha : a ∈ l) : eligible a := by
  induction h with
  | nil => simp at ha
  | cons _ _ hel _ ih =>
    rcases List.mem_cons.mp ha with rfl | ha
    · exact hel
    · exact ih ha

lemma Order.deps_mem (h : Order deps eligible l) (ha : a ∈ l) (hd : d ∈ deps a) : d ∈ l := by
  induction h with
  | nil => simp at ha
  | cons _ _ _ hdeps ih =>
    rcases List.mem_cons.mp ha with rfl | ha
    · exact List.mem_cons_of_mem _ (hdeps d hd)
    · exact List.mem_cons_of_mem _ (ih ha)

lemma Order.mem_of_below (h : Order deps eligible l) (hb : Below deps d a)
    (ha : ∀ d ∈ deps a, d ∈ l) : d ∈ l := by
  induction hb with
  | single hd => exact ha _ hd
  | tail _ hd ih => exact ih fun d' hd' => h.deps_mem (ha _ hd) hd'

lemma Below.rank_lt {rank : α → ℕ} {S : Set α} (hb : Below deps d a) (ha : a ∈ S)
    (hclosed : ∀ a ∈ S, ∀ d ∈ deps a, d ∈ S) (hrank : ∀ a ∈ S, ∀ d ∈ deps a, rank d < rank a) :
    rank d < rank a := by
  induction hb with
  | single hd => exact hrank _ ha _ hd
  | tail _ hd ih => exact (ih (hclosed _ ha _ hd)).trans (hrank _ ha _ hd)

lemma exists_order [DecidableEq α] (rank : α → ℕ) (S : Finset α)
    (hclosed : ∀ a ∈ S, ∀ d ∈ deps a, d ∈ S) (hrank : ∀ a ∈ S, ∀ d ∈ deps a, rank d < rank a)
    (hel : ∀ a ∈ S, eligible a) : ∃ l, Order deps eligible l ∧ ∀ a, a ∈ l ↔ a ∈ S := by
  induction h : S.card generalizing S with
  | zero => exact ⟨[], .nil, by simp [Finset.card_eq_zero.mp h]⟩
  | succ n ih =>
    obtain ⟨a, ha, hmax⟩ := S.exists_max_image rank (Finset.card_pos.mp (by omega))
    -- nothing depends on an item of the highest rank, so it can be done last
    have hclosed' : ∀ b ∈ S.erase a, ∀ d ∈ deps b, d ∈ S.erase a := by
      intro b hb' d hd
      have hb := Finset.mem_of_mem_erase hb'
      refine Finset.mem_erase.mpr ⟨fun hda => ?_, hclosed b hb d hd⟩
      exact absurd (hda ▸ hrank b hb d hd) (Nat.not_lt.mpr (hmax b hb))
    obtain ⟨l, hl, hmem⟩ := ih (S.erase a) hclosed'
      (fun b hb => hrank b (Finset.mem_of_mem_erase hb))
      (fun b hb => hel b (Finset.mem_of_mem_erase hb))
      (by rw [Finset.card_erase_of_mem ha, h]; rfl)
    refine ⟨a :: l, .cons hl (by simp [hmem]) (hel a ha) fun d hd => ?_, fun b => ?_⟩
    · rw [hmem]
      refine Finset.mem_erase.mpr ⟨?_, hclosed a ha d hd⟩
      rintro rfl
      exact absurd (hrank d ha d hd) (lt_irrefl _)
    · by_cases hba : b = a
      · simp [hba, ha]
      · simp [hba, hmem]

section

variable (deps)

/-- A chain of dependencies that ends in an item. -/
inductive Chain : ℕ → α → Prop
  | nil (a : α) : Chain 0 a
  | cons {n : ℕ} {d a : α} (hd : d ∈ deps a) (h : Chain n d) : Chain (n + 1) a

def Level (a : α) (n : ℕ) : Prop := IsGreatest {n | Chain deps n a} n

variable {deps} {S : Set α} {rank : α → ℕ}

lemma Level.lt (h : Level deps a n) (hd : d ∈ deps a) (hm : Level deps d m) : m < n :=
  h.2 (.cons hd hm.1)

lemma Level.unique (h : Level deps a n) (h' : Level deps a m) : n = m :=
  IsGreatest.unique h h'

lemma Level.tight (hlevel : ∀ d ∈ deps a, Level deps d (rank d)) (h : Level deps a (rank a))
    (hne : rank a ≠ 0) : ∃ d ∈ deps a, rank d + 1 = rank a := by
  obtain ⟨n, hn⟩ := Nat.exists_eq_succ_of_ne_zero hne
  have hchain : Chain deps (rank a) a := h.1
  rw [hn] at hchain
  obtain _ | @⟨_, d, _, hd, hchain⟩ := hchain
  have hle : n ≤ rank d := (hlevel d hd).2 hchain
  have hlt := h.lt hd (hlevel d hd)
  exact ⟨d, hd, by omega⟩

lemma level_of_rank (hclosed : ∀ a ∈ S, ∀ d ∈ deps a, d ∈ S)
    (hrank : ∀ a ∈ S, ∀ d ∈ deps a, rank d < rank a)
    (htight : ∀ a ∈ S, rank a ≠ 0 → ∃ d ∈ deps a, rank d + 1 = rank a) (ha : a ∈ S) :
    Level deps a (rank a) := by
  constructor
  · change Chain deps (rank a) a
    induction h : rank a generalizing a with
    | zero => exact .nil a
    | succ n ih =>
      obtain ⟨d, hd, hdn⟩ := htight a ha (by omega)
      exact .cons hd (ih (hclosed a ha d hd) (by omega))
  · rintro n hn
    induction hn with
    | nil => exact Nat.zero_le _
    | cons hd _ ih => exact (ih (hclosed _ ha _ hd)).trans_lt (hrank _ ha _ hd)

lemma exists_levels (hfin : S.Finite) (hclosed : ∀ a ∈ S, ∀ d ∈ deps a, d ∈ S)
    (hacyclic : ∀ a ∈ S, ¬ Below deps a a) : ∃ rank : α → ℕ, ∀ a ∈ S, Level deps a (rank a) := by
  classical
  have : Finite S := hfin
  have : IsTrans S fun d a => Below deps d.1 a.1 := ⟨fun _ _ _ => Relation.TransGen.trans⟩
  have : Std.Irrefl fun d a : S => Below deps d.1 a.1 := ⟨fun a => hacyclic a a.2⟩
  have hwf := Finite.wellFounded_of_trans_of_irrefl fun d a : S => Below deps d.1 a.1
  have hlevel (a : S) : ∃ n, Level deps (a : α) n := by
    induction a using hwf.induction with
    | _ a ih =>
      -- the levels of what the item depends on bound its chains
      have hdeps : ∀ d, ∃ n, d ∈ deps a → Level deps d n := fun d => by
        by_cases hd : d ∈ deps a
        · exact (ih ⟨d, hclosed a a.2 d hd⟩ (.single hd)).imp fun n hn _ => hn
        · exact ⟨0, fun h => absurd h hd⟩
      choose rank hrank using hdeps
      have hbound : BddAbove {n | Chain deps n (a : α)} := by
        refine ⟨(deps a).toFinset.sup rank + 1, ?_⟩
        rintro n (_ | ⟨hd, hchain⟩)
        · exact Nat.zero_le _
        · exact Nat.succ_le_succ (((hrank _ hd).2 hchain).trans
            (Finset.le_sup (List.mem_toFinset.mpr hd)))
      exact ⟨_, Nat.sSup_mem ⟨0, .nil _⟩ hbound, fun _ => le_csSup hbound⟩
  choose rank hrank using hlevel
  exact ⟨fun a => if ha : a ∈ S then rank ⟨a, ha⟩ else 0, fun a ha => by
    simpa [ha] using hrank ⟨a, ha⟩⟩

end

end Dependencies

import Mathlib.Data.List.Nodup

/-!
# Lists with indices and lists side by side

The elements of a list with their indices are told apart by the index. Of two lists that are
related element by element, each element has a partner in the other list.
-/

namespace Indexed

variable {α β γ : Type} {l : List α} {m : List β}

lemma eq_of_index_eq (hv : v ∈ l.zipIdx) (hw : w ∈ l.zipIdx) (h : v.2 = w.2) :
    v = w := by
  have hv := List.mk_mem_zipIdx_iff_getElem?.mp hv
  have hw := List.mk_mem_zipIdx_iff_getElem?.mp hw
  rw [h] at hv
  exact Prod.ext (Option.some.inj (hv.symm.trans hw)) h

lemma nodup_index : (l.zipIdx.map (·.2)).Nodup := by
  change (l.zipIdx.map Prod.snd).Nodup
  rw [List.zipIdx_map_snd]
  exact List.nodup_range'

lemma nodup_zipIdx : l.zipIdx.Nodup := List.Nodup.of_map _ nodup_index

lemma map_fst (f : α → γ) : l.zipIdx.map (fun v => f v.1) = l.map f := by
  conv_rhs => rw [← List.zipIdx_map_fst 0 l, List.map_map]
  rfl

lemma forall_mem_fst {p : α → Prop} : (∀ v ∈ l.zipIdx, p v.1) ↔ ∀ a ∈ l, p a := by
  conv_rhs => rw [← List.zipIdx_map_fst 0 l]
  exact List.forall_mem_map.symm

lemma forall₂_map_zipIdx :
    List.Forall₂ R l (l.zipIdx.map f) ↔ ∀ v ∈ l.zipIdx, R v.1 (f v) := by
  conv_lhs => rw [← List.zipIdx_map_fst 0 l]
  rw [List.forall₂_map_left_iff, List.zipIdx_map_fst, List.forall₂_map_right_iff,
    List.forall₂_same]

lemma exists_of_mem_left (h : List.Forall₂ R l m) (ha : a ∈ l) : ∃ b ∈ m, R a b := by
  induction h with
  | nil => simp at ha
  | cons hr _ ih =>
    rcases List.mem_cons.mp ha with rfl | ha
    · exact ⟨_, List.mem_cons_self, hr⟩
    · obtain ⟨b, hb, hr⟩ := ih ha
      exact ⟨b, List.mem_cons_of_mem _ hb, hr⟩

lemma exists_of_mem_right (h : List.Forall₂ R l m) (hb : b ∈ m) : ∃ a ∈ l, R a b :=
  exists_of_mem_left h.flip hb

/-- A relation between two lists comes down to a property of the first one where another relation
between them decides it. -/
lemma forall₂_iff_forall {p : α → Prop} (h : List.Forall₂ R l m)
    (hiff : ∀ a ∈ l, ∀ b, R a b → (S a b ↔ p a)) :
    List.Forall₂ S l m ↔ ∀ a ∈ l, p a := by
  induction h with
  | nil => simp
  | cons hab _ ih =>
    rw [List.forall₂_cons, List.forall_mem_cons, hiff _ List.mem_cons_self _ hab,
      ih fun a ha => hiff a (List.mem_cons_of_mem _ ha)]

lemma imp_of_mem (h : List.Forall₂ R l m) (himp : ∀ a ∈ l, ∀ b ∈ m, R a b → S a b) :
    List.Forall₂ S l m := by
  rw [List.forall₂_iff_zip] at h ⊢
  refine ⟨h.1, fun hab => ?_⟩
  obtain ⟨ha, hb⟩ := List.of_mem_zip hab
  exact himp _ ha _ hb (h.2 hab)

lemma rel_getElem? (h : List.Forall₂ R l m) (i : Nat) : Option.Rel R l[i]? m[i]? := by
  induction h generalizing i with
  | nil => exact .none
  | cons hr _ ih =>
    cases i with
    | zero => exact .some hr
    | succ i => exact ih i

lemma map_eq_map (h : List.Forall₂ R l m) (hfg : ∀ a b, R a b → f a = g b) :
    l.map f = m.map g := by
  induction h with
  | nil => rfl
  | cons hr _ ih => rw [List.map_cons, List.map_cons, hfg _ _ hr, ih]

end Indexed

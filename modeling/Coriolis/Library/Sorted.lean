import Mathlib.Data.List.Sort

/-!
# Beginnings of sorted lists

A list that is dealt out in turns gives every receiver the element of its own position as
long as there are no more receivers than elements. Over a strictly sorted list, the parts
that can be received so are the sorted ones with nothing left out.
-/

namespace Coriolis.Library

variable {α : Type*} {s d : List α}

lemma isPrefix_iff_of_sorted [LinearOrder α] (hs : s.Pairwise (· < ·)) :
    d <+: s ↔ d.Pairwise (· < ·) ∧ d ⊆ s ∧ ∀ x ∈ s, ∀ y ∈ d, x < y → x ∈ d := by
  constructor
  · rintro ⟨t, rfl⟩
    rw [List.pairwise_append] at hs
    refine ⟨hs.1, List.subset_append_left d t, fun x hx y hy hxy => ?_⟩
    rcases List.mem_append.mp hx with hx | hx
    · exact hx
    · exact absurd hxy (hs.2.2 y hy x hx).asymm
  · rintro ⟨hd, hsub, hclosed⟩
    induction s generalizing d with
    | nil =>
      exact List.subset_nil.mp hsub ▸ List.nil_prefix
    | cons a s ih =>
      cases d with
      | nil => exact List.nil_prefix
      | cons b d =>
        rw [List.pairwise_cons] at hs hd
        obtain rfl : b = a := by
          rcases List.mem_cons.mp (hsub List.mem_cons_self) with h | h
          · exact h
          -- the least element comes before `b`, so it is in the part, but `b` is its least
          rcases List.mem_cons.mp (hclosed a List.mem_cons_self b List.mem_cons_self (hs.1 b h))
            with h' | h'
          · exact h'.symm
          · exact absurd (hs.1 b h) (hd.1 a h').asymm
        refine (List.prefix_cons_inj b).mpr (ih hs.2 hd.2 (fun x hx => ?_) fun x hx y hy hxy => ?_)
        · exact (List.mem_cons.mp (hsub (List.mem_cons_of_mem _ hx))).resolve_left
            (hd.1 x hx).ne'
        · exact (List.mem_cons.mp (hclosed x (List.mem_cons_of_mem _ hx) y
            (List.mem_cons_of_mem _ hy) hxy)).resolve_left (hs.1 x hx).ne'

lemma isPrefix_of_getElem_mod (hd : d.Nodup) (hs : s ≠ [])
    (h : ∀ i (hi : i < d.length), s[i % s.length]? = some d[i]) : d <+: s := by
  have hpos : 0 < s.length := List.length_pos_iff.mpr hs
  have hlen : d.length ≤ s.length := by
    by_contra hlt
    have h0 := h 0 (by omega)
    have h1 := h s.length (by omega)
    rw [Nat.zero_mod] at h0
    rw [Nat.mod_self, h0, Option.some.injEq] at h1
    have := (List.Nodup.getElem_inj_iff hd).mp h1
    omega
  rw [List.prefix_iff_eq_take]
  refine List.ext_getElem (by simp [hlen]) fun i hi hi' => ?_
  have hmod := h i hi
  rw [Nat.mod_eq_of_lt (by omega), List.getElem?_eq_getElem (by omega), Option.some.injEq] at hmod
  rw [List.getElem_take, hmod]

lemma getElem_mod_of_isPrefix (h : d <+: s) (i : Nat) (hi : i < d.length) :
    s[i % s.length]? = some d[i] := by
  rw [Nat.mod_eq_of_lt (by have := h.length_le; omega), List.getElem?_eq_getElem,
    h.getElem hi]

end Coriolis.Library

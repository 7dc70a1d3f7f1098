import Mathlib.Data.List.Induction
import Mathlib.Data.List.Nodup

/-!
# Grouping a list by a key

The elements of a list are collected under their keys, the keys in the order in which they
first occur. The group of a key is what a filter would select (`grouped_group`).
-/

namespace Grouping

variable {α κ : Type} [DecidableEq κ] {key : α → κ} {k : κ} {a : α} {l group' : List α}
  {groups : List (κ × List α)}

def insert (key : α → κ) (a : α) : List (κ × List α) → List (κ × List α)
  | [] => [(key a, [a])]
  | (k, as) :: groups =>
    if k = key a then (k, as ++ [a]) :: groups else (k, as) :: insert key a groups

def group (key : α → κ) (l : List α) : List (κ × List α) :=
  l.foldl (fun groups a => insert key a groups) []

@[simp] lemma group_nil : group key [] = [] := rfl

@[simp] lemma group_concat : group key (l ++ [a]) = insert key a (group key l) := by
  simp [group]

lemma flatMap_insert :
    ((insert key a groups).flatMap Prod.snd).Perm (groups.flatMap Prod.snd ++ [a]) := by
  induction groups with
  | nil => simp [insert]
  | cons g groups ih =>
    obtain ⟨k', as⟩ := g
    by_cases hk : k' = key a
    · rw [insert, if_pos hk, List.flatMap_cons, List.flatMap_cons]
      simpa using (@List.perm_append_comm _ [a] _).append_left as
    · rw [insert, if_neg hk, List.flatMap_cons, List.flatMap_cons, List.append_assoc]
      exact ih.append_left as

lemma flatMap_group : ((group key l).flatMap Prod.snd).Perm l := by
  induction l using List.reverseRecOn with
  | nil => simp
  | append_singleton l a ih =>
    rw [group_concat]
    exact flatMap_insert.trans (ih.append_right [a])

lemma insert_append (h : key a ∉ groups.map Prod.fst) (groups' : List (κ × List α)) :
    insert key a (groups ++ groups') = groups ++ insert key a groups' := by
  induction groups with
  | nil => rfl
  | cons g groups ih => grind [insert]

structure Grouped (key : α → κ) (l : List α) (groups : List (κ × List α)) : Prop where
  nodup : (groups.map Prod.fst).Nodup
  keys : ∀ a ∈ l, key a ∈ groups.map Prod.fst
  filter : ∀ g ∈ groups, g.2 = l.filter (key · = g.1)

lemma Grouped.concat (h : Grouped key l groups) :
    Grouped key (l ++ [a]) (insert key a groups) := by
  obtain ⟨hnodup, hkeys, hfilter⟩ := h
  by_cases hkey : key a ∈ groups.map Prod.fst
  · obtain ⟨⟨k, as⟩, hg, rfl⟩ := List.mem_map.mp hkey
    obtain ⟨before, after, rfl⟩ := List.append_of_mem hg
    have hne : ∀ g ∈ before ++ after, g.1 ≠ key a := by grind
    rw [insert_append (by grind), insert, if_pos rfl]
    refine ⟨by grind, by grind, fun g hg => ?_⟩
    rw [List.filter_append]
    by_cases hmem : g ∈ before ++ after
    · have := hne g hmem
      grind
    · obtain rfl : g = (key a, as ++ [a]) := by grind
      grind
  · have hnew := insert_append hkey []
    rw [List.append_nil, insert] at hnew
    rw [hnew]
    have hnone : l.filter (key · = key a) = [] :=
      List.filter_eq_nil_iff.mpr fun b hb h => hkey (of_decide_eq_true h ▸ hkeys b hb)
    refine ⟨by grind, by grind, fun g hg => ?_⟩
    rw [List.filter_append]
    by_cases hmem : g ∈ groups
    · have : g.1 ≠ key a := by grind
      grind
    · obtain rfl : g = (key a, [a]) := by grind
      grind

lemma grouped_group : Grouped key l (group key l) := by
  induction l using List.reverseRecOn with
  | nil => exact ⟨by simp, by simp, by simp⟩
  | append_singleton l a ih =>
    rw [group_concat]
    exact ih.concat

end Grouping

import Mathlib.Data.List.Induction

/-!
# Dictionaries built from lists of pairs

A dictionary that is filled from a list has, for each key, the value of the last pair with that
key. Its entries are in the order in which the keys occur first.
-/

namespace Dict

variable {κ ν : Type} [DecidableEq κ] {k : κ} {p : κ × ν} {l l' : List (κ × ν)}

/-- The dictionary of a list of pairs, of which a later one overwrites an earlier one. -/
def ofPairs (l : List (κ × ν)) : κ → Option ν :=
  l.foldl (fun d p => Function.update d p.1 (some p.2)) fun _ => none

@[simp] lemma ofPairs_nil : ofPairs ([] : List (κ × ν)) k = none := rfl

lemma ofPairs_concat :
    ofPairs (l ++ [p]) k = if k = p.1 then some p.2 else ofPairs l k := by
  simp [ofPairs, Function.update_apply]

lemma ofPairs_append : ofPairs (l ++ l') k = (ofPairs l' k).or (ofPairs l k) := by
  induction l' using List.reverseRecOn with
  | nil => simp
  | append_singleton l' p ih =>
    rw [← List.append_assoc, ofPairs_concat, ofPairs_concat, ih]
    split <;> simp

lemma ofPairs_eq_none : ofPairs l k = none ↔ k ∉ l.map (·.1) := by
  induction l using List.reverseRecOn with
  | nil => simp
  | append_singleton l p ih =>
    rw [ofPairs_concat]
    split <;> simp_all

lemma ofPairs_eq_getLast? :
    ofPairs l k = ((l.filter (·.1 = k)).getLast?).map (·.2) := by
  induction l using List.reverseRecOn with
  | nil => rfl
  | append_singleton l p ih =>
    rw [ofPairs_concat, List.filter_append]
    by_cases hk : k = p.1
    · simp [hk]
    · simp [hk, Ne.symm hk, ih]

lemma mem_of_ofPairs_eq_some (h : ofPairs l k = some v) : (k, v) ∈ l := by
  rw [ofPairs_eq_getLast?, Option.map_eq_some_iff] at h
  obtain ⟨p, hp, rfl⟩ := h
  obtain ⟨hmem, hk⟩ := List.mem_filter.mp (List.mem_of_getLast? hp)
  obtain rfl : p.1 = k := by simpa using hk
  exact hmem

lemma ofPairs_eq_some_iff (h : (l.map (·.1)).Nodup) :
    ofPairs l k = some v ↔ (k, v) ∈ l := by
  induction l using List.reverseRecOn with
  | nil => simp
  | append_singleton l p ih =>
    rw [List.map_append, List.nodup_append] at h
    have hnot : p.1 ∉ l.map (·.1) := fun hp => h.2.2 p.1 hp p.1 (by simp) rfl
    rw [ofPairs_concat, List.mem_append, List.mem_singleton]
    by_cases hk : k = p.1
    · have hnone : (k, v) ∉ l := fun hmem => hnot (hk ▸ List.mem_map_of_mem hmem)
      simp [hk, Prod.ext_iff, eq_comm, hk ▸ hnone]
    · simp [hk, ih h.1, Prod.ext_iff]

/-- A pair counts if no later one has its key and another value. -/
lemma ofPairs_eq_some_iff_last : ofPairs l k = some v ↔ ∃ i : Nat, l[i]? = some (k, v) ∧
    ∀ (j : Nat) q, i < j → l[j]? = some q → q.1 = k → q.2 = v := by
  induction l using List.reverseRecOn with
  | nil => simp
  | append_singleton l p ih =>
    have hlength : ∀ {j : Nat} {q : κ × ν}, (l ++ [p])[j]? = some q → j < l.length + 1 :=
      fun hq => by simpa using (List.getElem?_eq_some_iff.mp hq).1
    rw [ofPairs_concat]
    by_cases hk : k = p.1
    · rw [if_pos hk]
      constructor
      · intro h
        refine ⟨l.length, ?_, fun j q hj hq => ?_⟩
        · rw [List.getElem?_concat_length, hk, ← Option.some.inj h]
        · have := hlength hq
          omega
      · rintro ⟨i, hi, hlast⟩
        rcases Nat.lt_succ_iff_lt_or_eq.mp (hlength hi) with hlt | rfl
        · exact congrArg some (hlast l.length p hlt (by simp) hk.symm)
        · rw [List.getElem?_concat_length] at hi
          rw [Option.some.inj hi]
    · rw [if_neg hk, ih]
      constructor
      · rintro ⟨i, hi, hlast⟩
        refine ⟨i, List.getElem?_append_left (List.getElem?_eq_some_iff.mp hi).1 ▸ hi, ?_⟩
        intro j q hj hq hqk
        rcases Nat.lt_succ_iff_lt_or_eq.mp (hlength hq) with hlt | rfl
        · exact hlast j q hj (List.getElem?_append_left hlt ▸ hq) hqk
        · simp_all
      · rintro ⟨i, hi, hlast⟩
        rcases Nat.lt_succ_iff_lt_or_eq.mp (hlength hi) with hlt | rfl
        · refine ⟨i, List.getElem?_append_left hlt ▸ hi, fun j q hj hq => hlast j q hj ?_⟩
          rwa [List.getElem?_append_left (List.getElem?_eq_some_iff.mp hq).1]
        · simp_all

lemma ofPairs_filter {q : κ → Bool} :
    ofPairs (l.filter fun p => q p.1) k = if q k then ofPairs l k else none := by
  induction l using List.reverseRecOn with
  | nil => simp
  | append_singleton l p ih =>
    rw [List.filter_append, ofPairs_concat, ofPairs_append, ih]
    by_cases hk : k = p.1 <;> by_cases hq : q p.1 <;>
      simp_all [ofPairs]

lemma ofPairs_overwrite :
    ofPairs ((l.filter fun p => !(l'.map (·.1)).contains p.1) ++ l') k =
      (ofPairs l' k).or (ofPairs l k) := by
  rw [ofPairs_append, @ofPairs_filter _ _ _ k l fun k => !(l'.map (·.1)).contains k]
  by_cases hk : k ∈ l'.map (·.1)
  · obtain ⟨v, hv⟩ := Option.ne_none_iff_exists'.mp (mt ofPairs_eq_none.mp (not_not.mpr hk))
    simp [hv]
  · simp [ofPairs_eq_none.mpr hk, hk]

def set (d : List (κ × ν)) (p : κ × ν) : List (κ × ν) :=
  if p.1 ∈ d.map (·.1) then d.map fun q => if q.1 = p.1 then p else q else d ++ [p]

def entries (l : List (κ × ν)) : List (κ × ν) := l.foldl set []

@[simp] lemma entries_concat : entries (l ++ [p]) = set (entries l) p := by
  simp [entries]

lemma mem_set : q ∈ set l p ↔ q = p ∨ q ∈ l ∧ q.1 ≠ p.1 := by
  unfold set
  split
  · next hmem =>
    obtain ⟨r, hr, heq⟩ := List.mem_map.mp hmem
    rw [List.mem_map]
    constructor
    · rintro ⟨r, hr, rfl⟩
      by_cases hkey : r.1 = p.1 <;> simp [hkey, hr]
    · rintro (rfl | ⟨hq, hkey⟩)
      · exact ⟨r, hr, if_pos heq⟩
      · exact ⟨q, hq, if_neg hkey⟩
  · next hnew =>
    rw [List.mem_append, List.mem_singleton]
    constructor
    · rintro (hq | rfl)
      · exact .inr ⟨hq, fun heq => hnew (heq ▸ List.mem_map_of_mem hq)⟩
      · exact .inl rfl
    · rintro (rfl | ⟨hq, -⟩)
      · exact .inr rfl
      · exact .inl hq

lemma mem_entries_iff : (k, v) ∈ entries l ↔ ofPairs l k = some v := by
  induction l using List.reverseRecOn with
  | nil => simp [entries]
  | append_singleton l p ih =>
    rw [entries_concat, mem_set, ofPairs_concat, ih]
    by_cases hk : k = p.1
    · simp [hk, Prod.ext_iff, eq_comm]
    · simp [hk, Prod.ext_iff]

end Dict

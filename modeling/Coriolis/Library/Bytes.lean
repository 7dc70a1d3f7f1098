import Mathlib.Data.List.Basic
import Mathlib.Tactic.Ring

/-!
# Bytes

Little-endian words, and the writing of data over a part of a file.
-/

namespace Bytes

/-- The `k` low bytes of a number, the lowest one first. -/
def le : Nat → Nat → List UInt8
  | 0, _ => []
  | k + 1, n => UInt8.ofNat n :: le k (n / 256)

def value : List UInt8 → Nat
  | [] => 0
  | b :: bs => b.toNat + 256 * value bs

@[simp] lemma length_le (k n : Nat) : (le k n).length = k := by
  induction k generalizing n with
  | zero => rfl
  | succ k ih => simp [le, ih]

lemma value_le (h : n < 256 ^ k) : value (le k n) = n := by
  induction k generalizing n with
  | zero => obtain rfl : n = 0 := by simpa using h
            rfl
  | succ k ih =>
    have hdiv : n / 256 < 256 ^ k := Nat.div_lt_of_lt_mul (by rw [pow_succ] at h; omega)
    simp only [le, value, ih hdiv, UInt8.toNat_ofNat']
    omega

lemma value_lt (bs : List UInt8) : value bs < 256 ^ bs.length := by
  induction bs with
  | nil => simp [value]
  | cons b bs ih =>
    have hb : b.toNat < 256 := b.toNat_lt
    simp only [value, List.length_cons, pow_succ]
    omega

lemma le_value (bs : List UInt8) : le bs.length (value bs) = bs := by
  induction bs with
  | nil => rfl
  | cons b bs ih =>
    have hb : b.toNat < 256 := b.toNat_lt
    have hdiv : (b.toNat + 256 * value bs) / 256 = value bs := by omega
    have hhead : UInt8.ofNat (b.toNat + 256 * value bs) = b := by
      apply UInt8.toNat_inj.mp
      simp only [UInt8.toNat_ofNat']
      omega
    simp only [List.length_cons, value, le, hdiv, ih, hhead]

lemma value_append_zeros (bs : List UInt8) (n : Nat) :
    value (bs ++ List.replicate n 0) = value bs := by
  induction bs with
  | nil =>
    induction n with
    | zero => rfl
    | succ n ih =>
      rw [List.nil_append] at ih ⊢
      simp only [List.replicate_succ, value, ih]
      rfl
  | cons b bs ih => simp only [List.cons_append, value, ih]

section

variable {α : Type} {file data : List α} {offset : Nat}

def overlay (file : List α) (offset : Nat) (data : List α) : List α :=
  file.take offset ++ data ++ file.drop (offset + data.length)

@[simp] lemma overlay_nil : overlay file offset [] = file := by
  simp [overlay]

lemma length_overlay (h : offset + data.length ≤ file.length) :
    (overlay file offset data).length = file.length := by
  simp only [overlay, List.length_append, List.length_take, List.length_drop]
  omega

lemma getElem?_overlay (h : offset + data.length ≤ file.length) (i : Nat) :
    (overlay file offset data)[i]? =
      if offset ≤ i ∧ i < offset + data.length then data[i - offset]? else file[i]? := by
  have htake : (file.take offset).length = offset := List.length_take_of_le (by omega)
  rcases Nat.lt_or_ge i offset with hi | hi
  · rw [overlay, List.append_assoc, List.getElem?_append_left (by omega), if_neg (by omega)]
    simp [hi]
  rw [overlay, List.append_assoc, List.getElem?_append_right (by omega), htake]
  rcases Nat.lt_or_ge i (offset + data.length) with hlt | hge
  · rw [List.getElem?_append_left (by omega), if_pos ⟨hi, hlt⟩]
  · rw [List.getElem?_append_right (by omega), if_neg (by omega), List.getElem?_drop]
    congr 1
    omega

def slice (file : List α) (offset length : Nat) : List α := (file.drop offset).take length

lemma getElem?_slice (length i : Nat) :
    (slice file offset length)[i]? = if i < length then file[offset + i]? else none := by
  rw [slice, List.getElem?_take]
  split
  · rw [List.getElem?_drop]
  · rfl

lemma length_slice (h : offset + length ≤ file.length) :
    (slice file offset length).length = length := by
  simp only [slice, List.length_take, List.length_drop]
  omega

lemma slice_overlay_self (h : offset + data.length ≤ file.length) :
    slice (overlay file offset data) offset data.length = data := by
  apply List.ext_getElem?
  intro i
  rw [getElem?_slice, getElem?_overlay h]
  split
  · rw [if_pos ⟨Nat.le_add_right .., by omega⟩, Nat.add_sub_cancel_left]
  · rw [List.getElem?_eq_none (by omega)]

lemma slice_overlay_of_disjoint (h : offset + data.length ≤ file.length)
    (hdisjoint : offset' + length ≤ offset ∨ offset + data.length ≤ offset') :
    slice (overlay file offset data) offset' length = slice file offset' length := by
  apply List.ext_getElem?
  intro i
  simp only [getElem?_slice, getElem?_overlay h]
  split
  · rw [if_neg (by omega)]
  · rfl

lemma overlay_overlay_self (h : offset + data.length ≤ file.length) :
    overlay (overlay file offset data) offset data = overlay file offset data := by
  apply List.ext_getElem?
  intro i
  rw [getElem?_overlay (by rwa [length_overlay h]), getElem?_overlay h]
  split <;> rfl

lemma overlay_comm (h : offset + data.length ≤ file.length)
    (h' : offset' + data'.length ≤ file.length)
    (hapart : offset + data.length ≤ offset' ∨ offset' + data'.length ≤ offset) :
    overlay (overlay file offset data) offset' data' =
      overlay (overlay file offset' data') offset data := by
  apply List.ext_getElem?
  intro i
  rw [getElem?_overlay (by rwa [length_overlay h]), getElem?_overlay h,
    getElem?_overlay (by rwa [length_overlay h']), getElem?_overlay h']
  -- at most one of the two ranges holds the position
  split_ifs <;> first | rfl | omega

/-- Some data and the offset it is written at. -/
structure Write (α : Type) where
  offset : Nat
  data : List α
  deriving DecidableEq, Repr

namespace Write

def Inside (length : Nat) (w : Write α) : Prop := w.offset + w.data.length ≤ length

def Apart (v w : Write α) : Prop :=
  v.offset + v.data.length ≤ w.offset ∨ w.offset + w.data.length ≤ v.offset

instance (length : Nat) (w : Write α) : Decidable (w.Inside length) :=
  inferInstanceAs (Decidable (_ ≤ _))

instance (v w : Write α) : Decidable (Apart v w) := inferInstanceAs (Decidable (_ ∨ _))

lemma Apart.symm (h : Apart v w) : Apart w v := Or.symm h

end Write

def overlays (file : List α) (writes : List (Write α)) : List α :=
  writes.foldl (fun file w => overlay file w.offset w.data) file

@[simp] lemma overlays_nil : overlays file [] = file := rfl

@[simp] lemma overlays_cons :
    overlays file (w :: writes) = overlays (overlay file w.offset w.data) writes := rfl

@[simp] lemma overlays_append :
    overlays file (writes ++ writes') = overlays (overlays file writes) writes' :=
  List.foldl_append

lemma length_overlays (h : ∀ w ∈ writes, w.Inside file.length) :
    (overlays file writes).length = file.length := by
  induction writes generalizing file with
  | nil => rfl
  | cons w writes ih =>
    have hlen := length_overlay (h w List.mem_cons_self)
    rw [overlays_cons, ih fun v hv => hlen ▸ h v (List.mem_cons_of_mem _ hv), hlen]

lemma overlays_perm (hperm : writes.Perm writes') (hinside : ∀ w ∈ writes, w.Inside file.length)
    (hapart : writes.Pairwise Write.Apart) :
    overlays file writes = overlays file writes' := by
  induction hperm generalizing file with
  | nil => rfl
  | cons w _ ih =>
    have hlen := length_overlay (hinside w List.mem_cons_self)
    exact ih (fun v hv => hlen ▸ hinside v (List.mem_cons_of_mem _ hv))
      (List.pairwise_cons.mp hapart).2
  | swap v w writes =>
    have hw := hinside w List.mem_cons_self
    have hv := hinside v (List.mem_cons_of_mem _ List.mem_cons_self)
    have hwv := (List.pairwise_cons.mp hapart).1 v List.mem_cons_self
    rw [overlays_cons, overlays_cons, overlay_comm hw hv hwv, overlays_cons, overlays_cons]
  | trans hperm _ ih ih' =>
    exact (ih hinside hapart).trans (ih' (fun w hw => hinside w (hperm.mem_iff.mpr hw))
      (hapart.perm hperm fun h => h.symm))

lemma getElem?_overlays_of_outside (hinside : ∀ w ∈ writes, w.Inside file.length)
    (hi : ∀ w ∈ writes, ¬(w.offset ≤ i ∧ i < w.offset + w.data.length)) :
    (overlays file writes)[i]? = file[i]? := by
  induction writes generalizing file with
  | nil => rfl
  | cons w writes ih =>
    have hw := hinside w List.mem_cons_self
    have hlen := length_overlay hw
    rw [overlays_cons, ih (fun v hv => hlen ▸ hinside v (List.mem_cons_of_mem _ hv))
      fun v hv => hi v (List.mem_cons_of_mem _ hv), getElem?_overlay hw,
      if_neg (hi w List.mem_cons_self)]

lemma slice_overlays_of_mem (hinside : ∀ w ∈ writes, w.Inside file.length)
    (hapart : writes.Pairwise Write.Apart) (hw : w ∈ writes) :
    slice (overlays file writes) w.offset w.data.length = w.data := by
  obtain ⟨l, r, rfl⟩ := List.append_of_mem hw
  have hl : ∀ v ∈ l, v.Inside file.length := fun v hv => hinside v (List.mem_append_left _ hv)
  have hlen := length_overlays hl
  have hin : w.Inside (overlays file l).length := hlen ▸ hinside w hw
  have hlen' := length_overlay hin
  have hright := (List.pairwise_cons.mp (List.pairwise_append.mp hapart).2.1).1
  rw [overlays_append, overlays_cons]
  -- what is written after `w` lies outside of it
  have hafter : ∀ i, w.offset ≤ i → i < w.offset + w.data.length →
      (overlays (overlay (overlays file l) w.offset w.data) r)[i]? =
        (overlay (overlays file l) w.offset w.data)[i]? := by
    intro i hi hlt
    refine getElem?_overlays_of_outside (fun v hv => ?_) fun v hv => ?_
    · rw [hlen', hlen]
      exact hinside v (List.mem_append_right _ (List.mem_cons_of_mem _ hv))
    · have := hright v hv
      unfold Write.Apart at this
      omega
  calc slice (overlays (overlay (overlays file l) w.offset w.data) r) w.offset w.data.length
    _ = slice (overlay (overlays file l) w.offset w.data) w.offset w.data.length := by
      apply List.ext_getElem?
      intro i
      simp only [getElem?_slice]
      split
      · rw [hafter _ (Nat.le_add_right ..) (by omega)]
      · rfl
    _ = w.data := slice_overlay_self hin

end

end Bytes

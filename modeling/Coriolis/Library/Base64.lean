import Mathlib.Data.List.DropRight

/-!
# Base64

Encoding of bytes as text with the URL-safe alphabet of RFC 4648, and a lenient decoder: it takes
both alphabets, skips characters of neither, and stops at the padding that completes a group.
What was encoded decodes to itself, and so it does when the padding was taken off and put back.
-/

namespace Base64

abbrev Text := List Char

def alphabet : Text := "ABCDEFGHIJKLMNOPQRSTUVWXYZabcdefghijklmnopqrstuvwxyz0123456789-_".toList

def digit (n : Nat) : Char := alphabet.getD n 'A'

def value (c : Char) : Option Nat :=
  if c = '+' then some 62 else if c = '/' then some 63 else alphabet.idxOf? c

def encode : List UInt8 → Text
  | a :: b :: c :: rest =>
    digit (a.toNat / 4) :: digit (a.toNat % 4 * 16 + b.toNat / 16) ::
      digit (b.toNat % 16 * 4 + c.toNat / 64) :: digit (c.toNat % 64) :: encode rest
  | [a, b] =>
    [digit (a.toNat / 4), digit (a.toNat % 4 * 16 + b.toNat / 16), digit (b.toNat % 16 * 4), '=']
  | [a] => [digit (a.toNat / 4), digit (a.toNat % 4 * 16), '=', '=']
  | [] => []

/-- The decoder, at a place of a group of four, with the padding seen there and the bits that
are left of the character before. -/
def decodeFrom : Nat → Nat → Nat → Text → Except String (List UInt8)
  | place, _, _, [] => if place = 0 then .ok [] else .error "Incorrect padding"
  | place, pads, left, c :: text =>
    if c = '=' then
      if 2 ≤ place then
        if 4 ≤ place + (pads + 1) then .ok [] else decodeFrom place (pads + 1) left text
      else decodeFrom place pads left text
    else
      match value c with
      | none => decodeFrom place pads left text
      | some v =>
        match place with
        | 0 => decodeFrom 1 0 v text
        | 1 => (decodeFrom 2 0 (v % 16) text).map (UInt8.ofNat (left * 4 + v / 16) :: ·)
        | 2 => (decodeFrom 3 0 (v % 4) text).map (UInt8.ofNat (left * 16 + v / 4) :: ·)
        | _ => (decodeFrom 0 0 0 text).map (UInt8.ofNat (left * 64 + v) :: ·)

def decode (text : Text) : Except String (List UInt8) :=
  if text.all (·.toNat < 128) then decodeFrom 0 0 0 text
  else .error "string argument should contain only ASCII characters"

/-- `rstrip` of the padding. -/
def unpad (text : Text) : Text := text.rdropWhile (· = '=')

def pad (text : Text) : Text :=
  if text.length % 4 = 0 then text else text ++ List.replicate (4 - text.length % 4) '='

variable {n left pads : Nat} {text : Text} {bytes : List UInt8}

lemma digit_spec : ∀ n < 64, value (digit n) = some n ∧ digit n ≠ '=' ∧ digit n ≠ '.' ∧
    (digit n).toNat < 128 := by
  decide +kernel

lemma encode_eq_append (bytes : List UInt8) : ∃ (digits : List Nat) (k : Nat),
    encode bytes = digits.map digit ++ List.replicate k '=' ∧ (∀ n ∈ digits, n < 64) ∧ k < 3 ∧
      (digits.length + k) % 4 = 0 := by
  fun_induction encode bytes with
  | case1 a b c rest ih =>
    obtain ⟨digits, k, heq, hlt, hk, hlen⟩ := ih
    refine ⟨a.toNat / 4 :: (a.toNat % 4 * 16 + b.toNat / 16) :: (b.toNat % 16 * 4 + c.toNat / 64) ::
      c.toNat % 64 :: digits, k, by simp [heq], ?_, hk, by simp; omega⟩
    have := a.toNat_lt
    have := b.toNat_lt
    have := c.toNat_lt
    simp only [List.forall_mem_cons]
    exact ⟨by omega, by omega, by omega, by omega, hlt⟩
  | case2 a b =>
    refine ⟨[a.toNat / 4, a.toNat % 4 * 16 + b.toNat / 16, b.toNat % 16 * 4], 1, rfl, ?_, by simp⟩
    have := a.toNat_lt
    have := b.toNat_lt
    simp
    omega
  | case3 a =>
    refine ⟨[a.toNat / 4, a.toNat % 4 * 16], 2, rfl, ?_, by simp⟩
    have := a.toNat_lt
    simp
    omega
  | case4 => exact ⟨[], 0, rfl, by simp⟩

lemma pad_unpad_encode (bytes : List UInt8) : pad (unpad (encode bytes)) = encode bytes := by
  obtain ⟨digits, k, heq, hlt, hk, hlen⟩ := encode_eq_append bytes
  have hunpad : unpad (encode bytes) = digits.map digit := by
    rw [unpad, heq, List.rdropWhile, List.reverse_append, List.reverse_replicate,
      List.dropWhile_append_of_pos (by simp), ← List.rdropWhile]
    refine List.rdropWhile_eq_self_iff.mpr fun hne hpad => ?_
    obtain ⟨n, hn, hdigit⟩ := List.mem_map.mp (List.getLast_mem hne)
    exact (digit_spec n (hlt n hn)).2.1 (hdigit.trans (of_decide_eq_true hpad))
  rw [hunpad, heq, pad, List.length_map]
  split
  · obtain rfl : k = 0 := by omega
    simp
  · obtain rfl : k = 4 - digits.length % 4 := by omega
    rfl

lemma forall_mem_encode : ∀ c ∈ encode bytes, c ≠ '.' ∧ c.toNat < 128 := by
  obtain ⟨digits, k, heq, hlt, -⟩ := encode_eq_append bytes
  rw [heq, List.forall_mem_append]
  refine ⟨List.forall_mem_map.mpr fun n hn => (digit_spec n (hlt n hn)).2.2, fun c hc => ?_⟩
  obtain rfl := List.eq_of_mem_replicate hc
  decide

lemma decodeFrom_zero (h : n < 64) :
    decodeFrom 0 pads left (digit n :: text) = decodeFrom 1 0 n text := by
  simp [decodeFrom, digit_spec n h]

lemma decodeFrom_one (a : UInt8) (h : n < 64) (ha : left * 4 + n / 16 = a.toNat) :
    decodeFrom 1 pads left (digit n :: text) = (decodeFrom 2 0 (n % 16) text).map (a :: ·) := by
  simp only [decodeFrom, digit_spec n h, if_false, ha, UInt8.ofNat_toNat]

lemma decodeFrom_two (a : UInt8) (h : n < 64) (ha : left * 16 + n / 4 = a.toNat) :
    decodeFrom 2 pads left (digit n :: text) = (decodeFrom 3 0 (n % 4) text).map (a :: ·) := by
  simp only [decodeFrom, digit_spec n h, if_false, ha, UInt8.ofNat_toNat]

lemma decodeFrom_three (a : UInt8) (h : n < 64) (ha : left * 64 + n = a.toNat) :
    decodeFrom 3 pads left (digit n :: text) = (decodeFrom 0 0 0 text).map (a :: ·) := by
  simp only [decodeFrom, digit_spec n h, if_false, ha, UInt8.ofNat_toNat]

lemma decodeFrom_encode (bytes : List UInt8) : decodeFrom 0 0 0 (encode bytes) = .ok bytes := by
  fun_induction encode bytes with
  | case1 a b c rest ih =>
    have := a.toNat_lt
    have := b.toNat_lt
    have := c.toNat_lt
    rw [decodeFrom_zero (by omega), decodeFrom_one a (by omega) (by omega),
      decodeFrom_two b (by omega) (by omega), decodeFrom_three c (by omega) (by omega), ih]
    rfl
  | case2 a b =>
    have := a.toNat_lt
    have := b.toNat_lt
    rw [decodeFrom_zero (by omega), decodeFrom_one a (by omega) (by omega),
      decodeFrom_two b (by omega) (by omega)]
    rfl
  | case3 a =>
    have := a.toNat_lt
    rw [decodeFrom_zero (by omega), decodeFrom_one a (by omega) (by omega)]
    rfl
  | case4 => rfl

lemma decode_encode (bytes : List UInt8) : decode (pad (unpad (encode bytes))) = .ok bytes := by
  rw [pad_unpad_encode, decode, if_pos, decodeFrom_encode]
  simpa using fun c hc => (forall_mem_encode c hc).2

lemma dot_not_mem_unpad : '.' ∉ unpad (encode bytes) := by
  intro h
  exact (forall_mem_encode _ ( List.rdropWhile_prefix _ _ |>.subset h)).1 rfl

end Base64

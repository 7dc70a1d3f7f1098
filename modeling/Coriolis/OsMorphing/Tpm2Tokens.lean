import Mathlib.Data.List.Nodup

/-!
# Removing TPM2 tokens from a LUKS header

`_remove_tpm2_tokens` reads the tokens of type `systemd-tpm2` as pairs of a token and one of its
keyslots, and for each pair removes the token and then kills the keyslot. A token without keyslots
gives no pair and stays. For a token with several, the removal fails from the second pair on, so
only the first keyslot is killed.
-/

namespace Coriolis.OsMorphing.Tpm2

structure Token where
  type : Option String
  keyslots : List String
  deriving DecidableEq

/-- A LUKS2 header, with the keyslots the migration passphrase opens. -/
structure Header where
  tokens : List (String × Token)
  slots : List String
  opened : List String
  deriving DecidableEq

/-- `cryptsetup token remove`. -/
def Header.tokenRemove (h : Header) (tokenId : String) : Option Header :=
  if tokenId ∈ h.tokens.map (·.1) then
    some { h with tokens := h.tokens.filter (·.1 ≠ tokenId) }
  else none

def IsLast (opened slots : List String) (slot : String) : Prop :=
  slot ∈ opened ∧ ∀ s ∈ slots, s ∈ opened → s = slot

instance (opened slots : List String) (slot : String) : Decidable (IsLast opened slots slot) :=
  inferInstanceAs (Decidable (_ ∧ _))

/-- `cryptsetup luksKillSlot`, which also unassigns the slot from the tokens. -/
def Header.luksKillSlot (h : Header) (slot : String) : Option Header :=
  if slot ∈ h.slots ∧ ¬ IsLast h.opened h.slots slot then
    some { h with
      slots := h.slots.filter (· ≠ slot)
      tokens := h.tokens.map fun t =>
        (t.1, { t.2 with keyslots := t.2.keyslots.filter (· ≠ slot) }) }
  else none

def Token.isTpm2 (t : Token) : Bool := t.type = some "systemd-tpm2"

/-- `_get_tpm2_token_info`. -/
def Header.tpm2TokenInfo (h : Header) : List (String × String) :=
  (h.tokens.filter (·.2.isTpm2)).flatMap fun t => t.2.keyslots.map (t.1, ·)

/-- The body of the loop of `_remove_tpm2_tokens`. -/
def Header.removePair (h : Header) (pair : String × String) : Header :=
  match h.tokenRemove pair.1 with
  | none => h
  | some h => (h.luksKillSlot pair.2).getD h

/-- `_remove_tpm2_tokens`. -/
def Header.removeTpm2Tokens (h : Header) : Header := h.tpm2TokenInfo.foldl Header.removePair h

def Header.OnlyTpm2 (h : Header) (slot : String) : Prop :=
  (∃ t ∈ h.tokens, slot ∈ t.2.keyslots) ∧ ∀ t ∈ h.tokens, slot ∈ t.2.keyslots → t.2.isTpm2

/-- The tokens and their own slots are gone, and everything else is unchanged. -/
structure Header.Cleared (h h' : Header) : Prop where
  tokens : h'.tokens = h.tokens.filter (!·.2.isTpm2)
  slots : ∀ s, s ∈ h'.slots ↔ s ∈ h.slots ∧ ¬ h.OnlyTpm2 s

def Header.firstPairs (h : Header) : List (String × String) :=
  (h.tokens.filter (·.2.isTpm2)).filterMap fun t => t.2.keyslots.head?.map (t.1, ·)

def Header.firstSlots (h : Header) : List String := h.firstPairs.map (·.2)

/-- The passphrase opens only slots that are to be killed, and this one comes last. -/
def Refused (opened slots kills : List String) (slot : String) : Prop :=
  slot ∈ opened ∧ ∀ s ∈ slots, s ∈ opened → s ∈ kills ∧ kills.idxOf s ≤ kills.idxOf slot

section

variable {opened slots kills : List String}

def killSlot (opened slots : List String) (slot : String) : List String :=
  if IsLast opened slots slot then slots else slots.filter (· ≠ slot)

lemma refused_cons (hs : s ≠ f) :
    Refused opened slots (f :: kills) s ↔ Refused opened (slots.filter (· ≠ f)) kills s := by
  refine and_congr_right fun _ => ⟨fun h s' hs' ho => ?_, fun h s' hs' ho => ?_⟩
  · obtain ⟨hmem, hne⟩ := List.mem_filter.mp hs'
    have hne : s' ≠ f := by simpa using hne
    simpa [List.idxOf_cons, hne, hs, Ne.symm hne, Ne.symm hs] using h s' hmem ho
  · by_cases hne : s' = f
    · simp [hne]
    · simpa [List.idxOf_cons, hne, hs, Ne.symm hne, Ne.symm hs] using
        h s' (List.mem_filter.mpr ⟨hs', by simpa using hne⟩) ho

lemma mem_foldl_killSlot : s ∈ kills.foldl (killSlot opened) slots ↔
    s ∈ slots ∧ (s ∈ kills → Refused opened slots kills s) := by
  induction kills generalizing slots with
  | nil => simp
  | cons f kills ih =>
    rw [List.foldl_cons, ih]
    unfold killSlot
    by_cases hs : s = f
    · subst hs
      split
      -- the last slot that is opened is refused now and later
      · next hlast =>
        refine and_congr_right fun _ => iff_of_true (fun hmem => ?_) fun _ => ?_
        · exact ⟨hlast.1, fun s' hs' ho => by rw [hlast.2 s' hs' ho]; exact ⟨hmem, Nat.le_refl _⟩⟩
        · exact ⟨hlast.1, fun s' hs' ho => by rw [hlast.2 s' hs' ho]; simp⟩
      · next hlast =>
        refine iff_of_false (by simp) fun h => hlast ⟨(h.2 (by simp)).1, fun s' hs' ho => ?_⟩
        have hidx := ((h.2 (by simp)).2 s' hs' ho).2
        by_contra hne
        simp [Ne.symm hne] at hidx
    · rw [refused_cons hs]
      split
      · next hlast =>
        refine and_congr_right fun hmem => ?_
        have hnot : s ∉ opened := fun ho => hs (hlast.2 s hmem ho)
        simp [Refused, hs, hnot]
      · simp [hs]

end

section

variable {h : Header} {pairs : List (String × String)}

def Header.left (h : Header) (removed slots : List String) : Header :=
  { h with
    slots
    tokens := (h.tokens.filter (·.1 ∉ removed)).map fun t =>
      (t.1, { t.2 with keyslots := t.2.keyslots.filter fun s => s ∈ h.slots → s ∈ slots }) }

lemma tokenRemove_left (id : String) :
    (h.left removed slots).tokenRemove id =
      if id ∈ h.tokens.map (·.1) ∧ id ∉ removed then some (h.left (removed ++ [id]) slots)
      else none := by
  have hids : id ∈ (h.left removed slots).tokens.map (·.1) ↔
      id ∈ h.tokens.map (·.1) ∧ id ∉ removed := by
    simp [Header.left, Function.comp_def]
  have htokens : (h.left removed slots).tokens.filter (·.1 ≠ id) =
      (h.left (removed ++ [id]) slots).tokens := by
    simp only [Header.left, List.filter_map, List.filter_filter]
    congr 2
    funext t
    simp [and_comm]
  rw [Header.tokenRemove, htokens]
  exact if_congr hids rfl rfl

lemma luksKillSlot_left (hsub : slots ⊆ h.slots) (slot : String) :
    ((h.left removed slots).luksKillSlot slot).getD (h.left removed slots) =
      h.left removed (killSlot h.opened slots slot) := by
  unfold Header.luksKillSlot killSlot
  by_cases hlast : IsLast h.opened slots slot
  · rw [if_neg (fun hc => hc.2 hlast), if_pos hlast]
    rfl
  by_cases hmem : slot ∈ slots
  · rw [if_pos ⟨hmem, hlast⟩, if_neg hlast, Option.getD_some]
    simp only [Header.left, List.map_map, Header.mk.injEq, and_true]
    refine List.map_congr_left fun t _ => Prod.ext rfl (congrArg (Token.mk _) ?_)
    rw [List.filter_filter]
    refine List.filter_congr fun s _ => ?_
    by_cases hs : s = slot
    · simp [hs, hsub hmem]
    · simp [hs]
  · rw [if_neg (fun hc => hmem hc.1), if_neg hlast, List.filter_eq_self.mpr ?_]
    · rfl
    · intro s hs
      simpa using (fun heq : s = slot => hmem (heq ▸ hs))

lemma foldl_killSlot_subset (kills : List String) :
    kills.foldl (killSlot h.opened) h.slots ⊆ h.slots :=
  fun _ hs => (mem_foldl_killSlot.mp hs).1

/-- The header after some tokens have been removed and a slot of each has been tried. -/
def Header.after (h : Header) (pairs : List (String × String)) : Header :=
  h.left (pairs.map (·.1)) ((pairs.map (·.2)).foldl (killSlot h.opened) h.slots)

lemma removePair_after (p : String × String) : (h.after pairs).removePair p =
    if p.1 ∈ h.tokens.map (·.1) ∧ p.1 ∉ pairs.map (·.1) then h.after (pairs ++ [p])
    else h.after pairs := by
  unfold Header.removePair Header.after
  rw [tokenRemove_left]
  split
  · next heq =>
    rw [if_neg (by simpa using heq)]
  · next heq =>
    obtain ⟨hcond, ⟨⟩⟩ := Option.ite_none_right_eq_some.mp heq
    rw [if_pos hcond, luksKillSlot_left (foldl_killSlot_subset _)]
    simp

lemma foldl_token {id : String} (hid : id ∈ h.tokens.map (·.1)) (hnew : id ∉ pairs.map (·.1))
    (keyslots : List String) : (keyslots.map (id, ·)).foldl Header.removePair (h.after pairs) =
      h.after (pairs ++ (keyslots.head?.map (id, ·)).toList) := by
  have hnone : ∀ (rest : List String) pairs, id ∈ pairs.map (·.1) →
      (rest.map (id, ·)).foldl Header.removePair (h.after pairs) = h.after pairs := by
    intro rest pairs hmem
    induction rest with
    | nil => rfl
    | cons s rest ih =>
      rw [List.map_cons, List.foldl_cons, removePair_after, if_neg (fun hc => hc.2 hmem), ih]
  cases keyslots with
  | nil => simp
  | cons s rest =>
    rw [List.map_cons, List.foldl_cons, removePair_after, if_pos ⟨hid, hnew⟩, hnone _ _ (by simp)]
    rfl

lemma foldl_tokens {ts : List (String × Token)} (hsub : ts ⊆ h.tokens)
    (hids : (ts.map (·.1)).Nodup) (hnew : ∀ t ∈ ts, t.1 ∉ pairs.map (·.1)) :
    (ts.flatMap fun t => t.2.keyslots.map (t.1, ·)).foldl Header.removePair (h.after pairs) =
      h.after (pairs ++ ts.filterMap fun t => t.2.keyslots.head?.map (t.1, ·)) := by
  induction ts generalizing pairs with
  | nil => simp
  | cons t ts ih =>
    obtain ⟨hid, hids⟩ := List.nodup_cons.mp hids
    have hmem : t.1 ∈ h.tokens.map (·.1) := List.mem_map_of_mem (hsub List.mem_cons_self)
    rw [List.flatMap_cons, List.foldl_append, foldl_token hmem (hnew t List.mem_cons_self),
      ih (List.subset_of_cons_subset hsub) hids]
    · cases hhead : t.2.keyslots.head? <;> simp [hhead]
    · intro t' ht' hmem'
      rw [List.map_append, List.mem_append] at hmem'
      rcases hmem' with hold | hthis
      · exact hnew t' (List.mem_cons_of_mem _ ht') hold
      · have heq : t'.1 = t.1 := by
          cases hhead : t.2.keyslots.head? <;> simp_all
        exact hid (List.mem_map.mpr ⟨t', ht', heq⟩)

lemma removeTpm2Tokens_eq (hids : (h.tokens.map (·.1)).Nodup) :
    h.removeTpm2Tokens = h.after h.firstPairs := by
  have hstart : h.after [] = h := by simp [Header.after, Header.left]
  have hnodup : ((h.tokens.filter (·.2.isTpm2)).map (·.1)).Nodup :=
    hids.sublist (List.filter_sublist.map _)
  have := @foldl_tokens h [] _ (List.filter_subset_self _) hnodup (by simp)
  rwa [hstart] at this

end

section

variable {h : Header} (hids : (h.tokens.map (·.1)).Nodup)
include hids

lemma mem_firstPairs (ht : t ∈ h.tokens) :
    t.1 ∈ h.firstPairs.map (·.1) ↔ t.2.isTpm2 ∧ t.2.keyslots ≠ [] := by
  constructor
  · intro hmem
    obtain ⟨p, hp, heq⟩ := List.mem_map.mp hmem
    obtain ⟨t', ht', hhead⟩ := List.mem_filterMap.mp hp
    obtain ⟨slot, hslot, rfl⟩ := Option.map_eq_some_iff.mp hhead
    obtain ⟨ht', htpm2⟩ := List.mem_filter.mp ht'
    obtain rfl := List.inj_on_of_nodup_map hids ht' ht heq
    exact ⟨htpm2, fun hnil => by simp [hnil] at hslot⟩
  · rintro ⟨htpm2, hne⟩
    obtain ⟨slot, rest, hslots⟩ := List.exists_cons_of_ne_nil hne
    refine List.mem_map.mpr ⟨(t.1, slot), List.mem_filterMap.mpr
      ⟨t, List.mem_filter.mpr ⟨ht, htpm2⟩, by simp [hslots]⟩, rfl⟩

/-- A header is cleared exactly when every such token has a keyslot and their first keyslots, except
for one that cannot be killed, are those that are assigned to no other tokens. -/
theorem removeTpm2Tokens_cleared_iff : h.Cleared h.removeTpm2Tokens ↔
    (∀ t ∈ h.tokens, t.2.isTpm2 → t.2.keyslots ≠ []) ∧
      ∀ s ∈ h.slots, h.OnlyTpm2 s ↔
        s ∈ h.firstSlots ∧ ¬ Refused h.opened h.slots h.firstSlots s := by
  rw [removeTpm2Tokens_eq hids]
  have hslots : ∀ s, s ∈ (h.after h.firstPairs).slots ↔
      s ∈ h.slots ∧ ¬ (s ∈ h.firstSlots ∧ ¬ Refused h.opened h.slots h.firstSlots s) := fun s => by
    rw [not_and_not_right]
    exact mem_foldl_killSlot
  constructor
  · rintro ⟨htokens, hcleared⟩
    refine ⟨fun t ht htpm2 hnil => ?_, fun s hs => ?_⟩
    · have hstays : (t.1, { t.2 with keyslots := [] }) ∈ (h.after h.firstPairs).tokens :=
        List.mem_map.mpr ⟨t, List.mem_filter.mpr ⟨ht, by
          simpa [hnil] using mt (mem_firstPairs hids ht).mp⟩, by simp [hnil]⟩
      rw [htokens] at hstays
      have := (List.mem_filter.mp hstays).2
      simp_all [Token.isTpm2]
    · have := (hcleared s).symm.trans (hslots s)
      tauto
  · rintro ⟨hkeyslots, honly⟩
    refine ⟨?_, fun s => (hslots s).trans (and_congr_right fun hs => not_congr (honly s hs).symm)⟩
    have hfilter : h.tokens.filter (·.1 ∉ h.firstPairs.map (·.1)) =
        h.tokens.filter (!·.2.isTpm2) := by
      refine List.filter_congr fun t ht => ?_
      have := mem_firstPairs hids ht
      have := hkeyslots t ht
      by_cases htpm2 : t.2.isTpm2 <;> simp_all
    unfold Header.after Header.left
    rw [hfilter]
    -- no slot of another token is killed
    refine (List.map_congr_left (g := id) fun t ht => ?_).trans (List.map_id _)
    obtain ⟨ht, hother⟩ := List.mem_filter.mp ht
    refine Prod.ext rfl (congrArg (Token.mk _) (List.filter_eq_self.mpr fun s hs => ?_))
    have hnot : ¬ h.OnlyTpm2 s := fun hc => by simp [hc.2 t ht hs] at hother
    have hkeep : s ∈ h.slots → s ∈ (h.after h.firstPairs).slots := fun hslot =>
      (hslots s).mpr ⟨hslot, mt (honly s hslot).mpr hnot⟩
    exact decide_eq_true hkeep

end

def twoKeyslots : Header :=
  ⟨[("0", ⟨some "systemd-tpm2", ["1", "2"]⟩)], ["0", "1", "2"], ["0"]⟩

theorem second_keyslot_stays :
    twoKeyslots.removeTpm2Tokens = ⟨[], ["0", "2"], ["0"]⟩ ∧
      ¬ twoKeyslots.Cleared twoKeyslots.removeTpm2Tokens := by
  refine ⟨by decide, fun hcleared => ((hcleared.slots "2").mp (by decide)).2 ⟨?_, ?_⟩⟩ <;>
    simp [twoKeyslots, Token.isTpm2]

theorem cleared_of_one_keyslot :
    Header.Cleared ⟨[("0", ⟨some "systemd-tpm2", ["1"]⟩)], ["0", "1"], ["0"]⟩
      (Header.removeTpm2Tokens ⟨[("0", ⟨some "systemd-tpm2", ["1"]⟩)], ["0", "1"], ["0"]⟩) :=
  (removeTpm2Tokens_cleared_iff (by decide)).mpr (by
    simp [Header.OnlyTpm2, Header.firstSlots, Header.firstPairs, Refused, Token.isTpm2])

end Coriolis.OsMorphing.Tpm2

import Mathlib.Data.List.Nodup

/-!
# Provisioning a network on OLVM

`_ensure_network_and_vnic_profile` looks for a logical network by its name, creates it and attaches
it to the cluster if there is none, and looks for its VNIC profile or creates this. A network that
exists is taken as it is: in whatever datacenter it is and also if it is not attached, as after a
call that failed between the two requests.
-/

namespace Coriolis.Providers.OLVM.Networks

structure Network where
  id : Nat
  name : String
  datacenter : String
  vlan : Option Nat

structure VnicProfile where
  id : Nat
  name : String
  network : Nat

/-- What the engine stores. Ids below `nextId` have been given out. -/
structure Engine where
  networks : List Network
  attached : List (String × Nat)
  profiles : List VnicProfile
  nextId : Nat
  /-- The engine creates a VNIC profile with each network. -/
  createsProfile : Bool

structure Engine.Valid (s : Engine) : Prop where
  networks : (s.networks.map (·.id)).Nodup
  profiles : (s.profiles.map (·.id)).Nodup
  networks_lt : ∀ n ∈ s.networks, n.id < s.nextId
  profiles_lt : ∀ p ∈ s.profiles, p.id < s.nextId ∧ p.network < s.nextId

inductive Request where
  | listNetworks | addNetwork | attachNetwork | listProfiles | addProfile
  deriving DecidableEq

inductive EnsureError where
  | vlanConflict (name : String) (existing required : Nat)
  | failed (request : Request)
  deriving DecidableEq

section

variable (s : Engine)

def Engine.addProfile (name : String) (network : Nat) : Engine :=
  { s with profiles := s.profiles ++ [⟨s.nextId, name, network⟩], nextId := s.nextId + 1 }

def Engine.addNetwork (name datacenter : String) (vlan : Option Nat) : Engine :=
  let s' := { s with networks := s.networks ++ [⟨s.nextId, name, datacenter, vlan⟩],
                     nextId := s.nextId + 1 }
  if s.createsProfile then s'.addProfile name s.nextId else s'

def Engine.attachNetwork (cluster : String) (network : Nat) : Engine :=
  { s with attached := s.attached ++ [(cluster, network)] }

end

/-- The arguments of a call. -/
structure Wanted where
  datacenter : String
  cluster : String
  name : String
  vlanId : Option Nat

def Wanted.vlan (w : Wanted) : Nat := w.vlanId.getD 0

def Network.vlanId (n : Network) : Nat := n.vlan.getD 0

section

variable (fails : Option Request) (w : Wanted)

def ensureVnicProfile (network : Nat) (s : Engine) : Except EnsureError Nat × Engine :=
  if fails = some .listProfiles then (.error (.failed .listProfiles), s)
  else match s.profiles.find? fun p => p.network = network ∧ p.name = w.name with
    | some p => (.ok p.id, s)
    | none =>
      if fails = some .addProfile then (.error (.failed .addProfile), s)
      else (.ok s.nextId, s.addProfile w.name network)

/-- `_ensure_network_and_vnic_profile`, with the request that fails when it is made. -/
def ensureNetworkAndVnicProfile (s : Engine) : Except EnsureError Nat × Engine :=
  if fails = some .listNetworks then (.error (.failed .listNetworks), s)
  else match s.networks.find? (·.name = w.name) with
    | some n =>
      if n.vlanId ≠ w.vlan then (.error (.vlanConflict w.name n.vlanId w.vlan), s)
      else ensureVnicProfile fails w n.id s
    | none =>
      if fails = some .addNetwork then (.error (.failed .addNetwork), s)
      else
        let s' := s.addNetwork w.name w.datacenter (if w.vlan ≠ 0 then some w.vlan else none)
        if fails = some .attachNetwork then (.error (.failed .attachNetwork), s')
        else ensureVnicProfile fails w s.nextId (s'.attachNetwork w.cluster s.nextId)

end

/-- The profile is one of a network with the name and VLAN in the datacenter, attached to the
cluster. -/
def Provides (w : Wanted) (s : Engine) (profile : Nat) : Prop :=
  ∃ n ∈ s.networks, n.name = w.name ∧ n.vlanId = w.vlan ∧ n.datacenter = w.datacenter ∧
    (w.cluster, n.id) ∈ s.attached ∧ ∃ p ∈ s.profiles, p.id = profile ∧ p.network = n.id

def Conflict (w : Wanted) (s : Engine) : Prop :=
  ∃ n ∈ s.networks, n.name = w.name ∧ n.datacenter = w.datacenter ∧ n.vlanId ≠ w.vlan

/-- A call that returns provides the profile, and the same call would do nothing and return it
again. It raises because of a conflict in the datacenter or of a request that fails. -/
def Right (w : Wanted) (s : Engine) : Except EnsureError Nat × Engine → Prop
  | (.ok profile, s') => Provides w s' profile ∧
      ensureNetworkAndVnicProfile none w s' = (.ok profile, s')
  | (.error (.vlanConflict ..), _) => Conflict w s
  | (.error (.failed _), _) => True

/-- The first network of that name, if there is one, is attached and in the datacenter, or it has
another VLAN and there is such a network in the datacenter. -/
def Usable (w : Wanted) (s : Engine) : Prop :=
  ∀ n, s.networks.find? (·.name = w.name) = some n →
    if n.vlanId = w.vlan then n.datacenter = w.datacenter ∧ (w.cluster, n.id) ∈ s.attached
    else Conflict w s

section

variable {network : Nat}

lemma ensureVnicProfile_ok (h : ensureVnicProfile fails w network s = (.ok profile, s')) :
    s'.networks = s.networks ∧ s'.attached = s.attached ∧
      (∃ p ∈ s'.profiles, p.id = profile ∧ p.network = network) ∧
      ensureVnicProfile none w network s' = (.ok profile, s') := by
  unfold ensureVnicProfile at h
  split at h
  · cases h
  split at h
  · next p hp =>
    cases h
    have hmem := List.find?_some hp
    simp only [decide_eq_true_eq] at hmem
    exact ⟨rfl, rfl, ⟨p, List.mem_of_find?_eq_some hp, rfl, hmem.1⟩, by
      rw [ensureVnicProfile, if_neg (by simp), hp]⟩
  · next hp =>
    split at h
    · cases h
    cases h
    refine ⟨rfl, rfl, ⟨⟨s.nextId, w.name, network⟩, by simp [Engine.addProfile], rfl, rfl⟩, ?_⟩
    have hfind : (s.addProfile w.name network).profiles.find?
        (fun p => p.network = network ∧ p.name = w.name) = some ⟨s.nextId, w.name, network⟩ := by
      rw [Engine.addProfile, List.find?_append, hp]
      simp
    rw [ensureVnicProfile, if_neg (by simp), hfind]

lemma right_of_error (h : ensureVnicProfile fails w network s = (.error err, s')) :
    Right w s₀ (.error err, s') := by
  unfold ensureVnicProfile at h
  split at h
  · cases h
    trivial
  · split at h
    · cases h
    · split at h
      · cases h
        trivial
      · cases h

lemma nodup_concat_id {ids : List Nat} (hids : ids.Nodup) (hlt : ∀ id ∈ ids, id < n) :
    (ids ++ [n]).Nodup := by
  rw [List.nodup_append]
  refine ⟨hids, List.nodup_singleton n, fun id hid id' hid' heq => ?_⟩
  rw [← List.mem_singleton.mp hid', ← heq] at hlt
  exact absurd (hlt id hid) (Nat.lt_irrefl id)

lemma Engine.Valid.addProfile {s : Engine} (hs : s.Valid) (hlt : network < s.nextId) :
    (s.addProfile name network).Valid where
  networks := hs.networks
  profiles := by
    rw [Engine.addProfile, List.map_append]
    exact nodup_concat_id hs.profiles (by simpa using fun p hp => (hs.profiles_lt p hp).1)
  networks_lt n hn := Nat.lt_succ_of_lt (hs.networks_lt n hn)
  profiles_lt p hp := by
    rcases List.mem_append.mp hp with hp | hp
    · exact (hs.profiles_lt p hp).imp Nat.lt_succ_of_lt Nat.lt_succ_of_lt
    · rw [List.mem_singleton.mp hp]
      exact ⟨Nat.lt_succ_self _, Nat.lt_succ_of_lt hlt⟩

lemma Engine.Valid.addNetwork {s : Engine} (hs : s.Valid) :
    (s.addNetwork name datacenter vlan).Valid ∧
      s.nextId < (s.addNetwork name datacenter vlan).nextId := by
  have hadded : Engine.Valid { s with
      networks := s.networks ++ [⟨s.nextId, name, datacenter, vlan⟩], nextId := s.nextId + 1 } := by
    refine ⟨?_, hs.profiles, fun n hn => ?_, fun p hp => ?_⟩
    · rw [List.map_append]
      exact nodup_concat_id hs.networks (by simpa using hs.networks_lt)
    · rcases List.mem_append.mp hn with hn | hn
      · exact Nat.lt_succ_of_lt (hs.networks_lt n hn)
      · rw [List.mem_singleton.mp hn]
        exact Nat.lt_succ_self _
    · exact (hs.profiles_lt p hp).imp Nat.lt_succ_of_lt Nat.lt_succ_of_lt
  unfold Engine.addNetwork
  split
  · exact ⟨hadded.addProfile (Nat.lt_succ_self _), Nat.lt_succ_of_lt (Nat.lt_succ_self _)⟩
  · exact ⟨hadded, Nat.lt_succ_self _⟩

lemma Engine.Valid.ensureVnicProfile {s : Engine} (hs : s.Valid) (hlt : network < s.nextId) :
    (ensureVnicProfile fails w network s).2.Valid := by
  unfold Networks.ensureVnicProfile
  split
  · exact hs
  split
  · exact hs
  split
  · exact hs
  · exact hs.addProfile hlt

/-- Whether a call returns or raises, ids stay unique. -/
lemma Engine.Valid.ensureNetworkAndVnicProfile {s : Engine} (hs : s.Valid) :
    (ensureNetworkAndVnicProfile fails w s).2.Valid := by
  unfold Networks.ensureNetworkAndVnicProfile
  split
  · exact hs
  split
  · next n hn =>
    split
    · exact hs
    · exact hs.ensureVnicProfile (hs.networks_lt n (List.mem_of_find?_eq_some hn))
  · split
    · exact hs
    dsimp only
    split
    · exact hs.addNetwork.1
    · obtain ⟨hadded, hlt⟩ := hs.addNetwork
      refine Engine.Valid.ensureVnicProfile ⟨hadded.networks, hadded.profiles, hadded.networks_lt,
        hadded.profiles_lt⟩ hlt

lemma right_of_none (hnone : s.networks.find? (·.name = w.name) = none) :
    Right w s (ensureNetworkAndVnicProfile fails w s) := by
  unfold ensureNetworkAndVnicProfile
  split
  · trivial
  rw [hnone]
  dsimp only
  split
  · trivial
  split
  · trivial
  set vlan := if w.vlan ≠ 0 then some w.vlan else none with hvlan
  have hvlanId : vlan.getD 0 = w.vlan := by
    rw [hvlan]
    split <;> simp_all
  set s₁ := (s.addNetwork w.name w.datacenter vlan).attachNetwork w.cluster s.nextId with hs₁
  have hnetworks : s₁.networks = s.networks ++ [⟨s.nextId, w.name, w.datacenter, vlan⟩] := by
    simp only [hs₁, Engine.attachNetwork, Engine.addNetwork]
    split <;> rfl
  have hattached : s₁.attached = s.attached ++ [(w.cluster, s.nextId)] := by
    simp only [hs₁, Engine.attachNetwork, Engine.addNetwork]
    split <;> rfl
  rcases hout : ensureVnicProfile fails w s.nextId s₁ with ⟨err | profile, s'⟩
  · exact right_of_error hout
  obtain ⟨hnet, hatt, hprofile, hagain⟩ := ensureVnicProfile_ok hout
  have hfind : s'.networks.find? (·.name = w.name) =
      some ⟨s.nextId, w.name, w.datacenter, vlan⟩ := by
    rw [hnet, hnetworks, List.find?_append, hnone]
    simp
  refine ⟨⟨_, List.mem_of_find?_eq_some hfind, rfl, hvlanId, rfl, ?_, hprofile⟩, ?_⟩
  · simp [hatt, hattached]
  · rw [ensureNetworkAndVnicProfile, if_neg (by simp), hfind]
    exact (if_neg (not_not.mpr hvlanId)).trans hagain

lemma ensure_of_some (hn : s.networks.find? (·.name = w.name) = some n)
    (hvlan : n.vlanId = w.vlan) (hfails : fails ≠ some .listNetworks) :
    ensureNetworkAndVnicProfile fails w s = ensureVnicProfile fails w n.id s := by
  rw [ensureNetworkAndVnicProfile, if_neg hfails, hn]
  exact if_neg (not_not.mpr hvlan)

end

/-- Whatever request fails, a call does what it should exactly when there is no network of that
name or the first one is usable. -/
theorem ensureNetworkAndVnicProfile_right_iff (w : Wanted) (s : Engine) (hs : s.Valid) :
    (∀ fails, Right w s (ensureNetworkAndVnicProfile fails w s)) ↔ Usable w s := by
  rcases hn : s.networks.find? (·.name = w.name) with _ | n
  · refine iff_of_true (fun fails => right_of_none hn) fun n hsome => ?_
    cases hn.symm.trans hsome
  have hname : n.name = w.name := by simpa using List.find?_some hn
  simp only [Usable, hn, Option.some.injEq, forall_eq']
  by_cases hvlan : n.vlanId = w.vlan
  · rw [if_pos hvlan]
    constructor
    · intro h
      have hright := h none
      rw [ensure_of_some hn hvlan (by simp)] at hright
      obtain ⟨profile, s', hout⟩ : ∃ profile s', ensureVnicProfile none w n.id s =
          (.ok profile, s') := by
        unfold ensureVnicProfile
        rw [if_neg (by simp)]
        split
        · exact ⟨_, _, rfl⟩
        · exact ⟨_, _, if_neg (by simp)⟩
      rw [hout] at hright
      obtain ⟨n', hn', -, -, hdatacenter, hattached, p', hp', hid', hnetwork'⟩ := hright.1
      obtain ⟨hnet, hatt, ⟨p, hp, hid, hnetwork⟩, -⟩ := ensureVnicProfile_ok hout
      -- ids are unique, so the network that is provided is the one that was found
      have hvalid : (ensureVnicProfile none w n.id s).2.Valid :=
        hs.ensureVnicProfile (hs.networks_lt n (List.mem_of_find?_eq_some hn))
      rw [hout] at hvalid
      obtain rfl := List.inj_on_of_nodup_map hvalid.profiles hp hp' (hid.trans hid'.symm)
      rw [hnet] at hn'
      obtain rfl := List.inj_on_of_nodup_map hs.networks (List.mem_of_find?_eq_some hn) hn'
        (hnetwork.symm.trans hnetwork')
      exact ⟨hdatacenter, hatt ▸ hattached⟩
    · rintro ⟨hdatacenter, hattached⟩ fails
      by_cases hfails : fails = some .listNetworks
      · rw [ensureNetworkAndVnicProfile, if_pos hfails]
        trivial
      rw [ensure_of_some hn hvlan hfails]
      rcases hout : ensureVnicProfile fails w n.id s with ⟨err | profile, s'⟩
      · exact right_of_error hout
      obtain ⟨hnet, hatt, hprofile, hagain⟩ := ensureVnicProfile_ok hout
      refine ⟨⟨n, hnet ▸ List.mem_of_find?_eq_some hn, hname, hvlan, hdatacenter,
        hatt ▸ hattached, hprofile⟩, ?_⟩
      rw [ensure_of_some (hnet ▸ hn) hvlan (by simp), hagain]
  · rw [if_neg hvlan]
    have hcall : ∀ fails, fails ≠ some .listNetworks → ensureNetworkAndVnicProfile fails w s =
        (.error (.vlanConflict w.name n.vlanId w.vlan), s) := fun fails hfails => by
      rw [ensureNetworkAndVnicProfile, if_neg hfails, hn]
      exact if_pos hvlan
    constructor
    · intro h
      have hright := h none
      rwa [hcall none (by simp)] at hright
    · intro hconflict fails
      by_cases hfails : fails = some .listNetworks
      · rw [ensureNetworkAndVnicProfile, if_pos hfails]
        trivial
      · rw [hcall fails hfails]
        exact hconflict

def emptyEngine : Engine := ⟨[], [], [], 0, false⟩

def vlan42 : Wanted := ⟨"dc1", "cluster1", "prod", some 42⟩

/-- The engine after a call that failed to attach the network it had created. -/
def notAttached : Engine := (ensureNetworkAndVnicProfile (some .attachNetwork) vlan42 emptyEngine).2

theorem network_stays_unattached :
    ensureNetworkAndVnicProfile none vlan42 notAttached =
        (.ok 1, notAttached.addProfile "prod" 0) ∧
      ¬ Right vlan42 notAttached (ensureNetworkAndVnicProfile none vlan42 notAttached) := by
  have hcall : ensureNetworkAndVnicProfile none vlan42 notAttached =
      (.ok 1, notAttached.addProfile "prod" 0) := rfl
  refine ⟨hcall, ?_⟩
  rw [hcall]
  rintro ⟨⟨n, -, -, -, -, hattached, -⟩, -⟩
  cases hattached

/-- The engine after a call that returned. -/
def attachedEngine : Engine := (ensureNetworkAndVnicProfile none vlan42 emptyEngine).2

/-- Calls that meet an engine without networks, and the network attached. -/
theorem right_on_attachedEngine :
    Right vlan42 emptyEngine (ensureNetworkAndVnicProfile none vlan42 emptyEngine) ∧
      Right vlan42 attachedEngine (ensureNetworkAndVnicProfile none vlan42 attachedEngine) := by
  have hempty : emptyEngine.Valid := ⟨.nil, .nil, nofun, nofun⟩
  refine ⟨(ensureNetworkAndVnicProfile_right_iff vlan42 emptyEngine hempty).mpr nofun _,
    (ensureNetworkAndVnicProfile_right_iff vlan42 attachedEngine
      hempty.ensureNetworkAndVnicProfile).mpr (fun n hn => ?_) _⟩
  obtain rfl := Option.some.inj hn
  exact ⟨rfl, List.mem_singleton.mpr rfl⟩

end Coriolis.Providers.OLVM.Networks

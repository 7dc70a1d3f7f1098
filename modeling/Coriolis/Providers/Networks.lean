import Coriolis.Library.Indexed
import Coriolis.Library.Raising
import Coriolis.Providers.StorageMappings
import Mathlib.Data.List.AList

/-!
# NICs of the target VM

The VMware exporter describes the NICs of an instance in dictionaries, and the importers give the
target VM a NIC for each of them, connected as the network map says. A hypervisor accepts a NIC
unless another NIC of the VM has its name.
-/

namespace Coriolis.Providers

/-- What a virtual ethernet card is connected to: the name of its network object if it has one, its
device name, and the port group of a distributed port. -/
structure EthernetBacking where
  networkName : Option String
  deviceName : Option String
  portgroupKey : Option String

structure EthernetCard where
  key : Int
  label : String
  backing : Option EthernetBacking
  macAddress : Option String
  unitNumber : Option Int

/-- The entry of a NIC in the export info. A key that is not there is `none`, as is one with the
value `None`: `get` does not tell them apart. -/
structure Nic where
  id : Option String
  name : Option String
  networkName : Option String
  networkId : Option String
  vlanId : Option Int
  macAddress : Option String
  unitNumber : Option String
  network : Option String
  mac : Option String

def EthernetCard.toNic (portgroupVlanMap : String → Option Int) (card : EthernetCard) : Nic where
  id := some ("nic-" ++ toString card.key)
  name := some card.label
  networkName := card.backing.bind (·.networkName)
  networkId := card.backing.bind (·.deviceName)
  vlanId := some (((card.backing.bind (·.portgroupKey)).bind portgroupVlanMap).getD 0)
  macAddress := card.macAddress
  unitNumber := some (toString (card.unitNumber.getD 0))
  network := none
  mac := none

/-- The networks of the target, by the names of the networks of the source. -/
abbrev NetworkMap := AList fun _ : String => String

namespace NetworkMap

/-- The first of `network_map.values()`. -/
def firstValue (networkMap : NetworkMap) : Option String :=
  (networkMap.entries.map (·.2)).head?

end NetworkMap

/-- A NIC of the target VM. -/
structure TargetNic where
  name : Option String
  network : Option String
  mac : Option String
  deriving DecidableEq

/-- The hypervisor accepts a NIC if its name is not used, which a NIC without a name never is. -/
def accept (vm : List TargetNic) (nic : TargetNic) : List TargetNic :=
  if nic.name.isSome && (vm.map (·.name)).contains nic.name then vm else vm ++ [nic]

/-- The MAC address of a NIC if it is to be preserved and there is one. -/
def preservedMac (preserve : Bool) (mac : Option String) : Option String :=
  if preserve && truthy mac then mac else none

/-- `nic.get("network_name") or nic.get("network_id")`. -/
def Nic.sourceNetwork (nic : Nic) : Option String := orElse nic.networkName nic.networkId

namespace OLVM

/-- The destination network of a NIC. What is not mapped is provisioned if there is a datacenter,
which may raise. -/
def destination (networkMap : NetworkMap) (datacenter : Bool)
    (ensure : String → Int → Except String String) (nic : Nic) : Except String (Option String) :=
  let srcNet := nic.sourceNetwork
  let dstNet := if truthy srcNet then srcNet.bind networkMap.lookup else none
  let dstNet := if truthy dstNet then dstNet
    else orElse (networkMap.lookup "None") (networkMap.lookup "none")
  let dstNet := if !truthy dstNet && !networkMap.entries.isEmpty then networkMap.firstValue
    else dstNet
  match srcNet with
  | some net =>
    if !truthy dstNet && truthy srcNet && datacenter then
      (ensure net (nic.vlanId.getD 0)).map some
    else .ok dstNet
  | none => .ok dstNet

variable (alnum : Char → Bool)

/-- The name of a NIC, with the characters `isalnum` is true of and three others, and no more than
fifteen of them. -/
def nicName (nic : Nic) : String :=
  String.ofList (((nic.name.getD "nic-0").toList.map fun c =>
    if alnum c || ['-', '_', '.'].contains c then c else '_').take 15)

def targetNic (networkMap : NetworkMap) (preserve datacenter : Bool)
    (ensure : String → Int → Except String String) (nic : Nic) : Except String TargetNic := do
  let dstNet ← destination networkMap datacenter ensure nic
  return { name := some (nicName alnum nic)
           network := if truthy dstNet then dstNet else none
           mac := preservedMac preserve nic.macAddress }

/-- The NICs of the VM after `deploy_replica_instance`: they are part of the request that creates
it, which may take them or not, and they are added one by one, where an error is only logged. -/
def deployNics (networkMap : NetworkMap) (preserve datacenter inRequest : Bool)
    (ensure : String → Int → Except String String) (nics : List Nic) :
    Except String (List TargetNic) := do
  let targetNics ← nics.mapM (targetNic alnum networkMap preserve datacenter ensure)
  let created := if inRequest then targetNics.foldl accept [] else []
  return targetNics.foldl accept created

end OLVM

namespace Proxmox

/-- The parameter `net0`, `net1` and so on of a NIC. -/
def netParam (networkMap : NetworkMap) (preserve : Bool) (nic : Nic) (index : Nat) :
    TargetNic where
  name := some ("net" ++ Nat.repr index)
  network := some ((nic.network.bind networkMap.lookup).getD "vmbr0")
  mac := preservedMac preserve nic.mac

/-- The NICs of the VM after `deploy_replica_instance`. -/
def deployNics (networkMap : NetworkMap) (preserve : Bool) (nics : List Nic) : List TargetNic :=
  (nics.zipIdx.map fun (nic, index) => netParam networkMap preserve nic index).foldl accept []

end Proxmox

namespace HyperV

def cleanMac (mac : String) : String :=
  String.ofList (mac.toList.filter fun c => c != ':' && c != '-')

def addedAdapter (networkMap : NetworkMap) (preserve : Bool) (firstSwitch : String) (nic : Nic) :
    TargetNic :=
  let srcNet := nic.sourceNetwork
  let dstSwitch := if truthy srcNet then srcNet.bind networkMap.lookup else none
  { name := none
    network := orElse dstSwitch (some firstSwitch)
    mac := (preservedMac preserve nic.macAddress).map cleanMac }

/-- `first_switch`, for which the default one is looked for if nothing is mapped. -/
def firstSwitch (networkMap : NetworkMap) (getDefaultSwitch : Except String String) :
    Except String String :=
  match networkMap.firstValue with
  | some switch => .ok switch
  | none => getDefaultSwitch

/-- The NICs of the VM after `deploy_replica_instance`: the adapter a VM is created with, and one
for each NIC but the first. -/
def deployNics (networkMap : NetworkMap) (preserve : Bool)
    (getDefaultSwitch : Except String String) (nics : List Nic) :
    Except String (List TargetNic) := do
  let firstSwitch ← firstSwitch networkMap getDefaultSwitch
  let defaultAdapter : TargetNic :=
    { name := none
      network := some firstSwitch
      mac := (nics.head?.bind fun nic => preservedMac preserve nic.macAddress).map cleanMac }
  return (nics.tail.map (addedAdapter networkMap preserve firstSwitch)).foldl accept
    [defaultAdapter]

end HyperV

def Nic.mapped (networkMap : NetworkMap) (nic : Nic) : Option String :=
  if truthy nic.sourceNetwork then nic.sourceNetwork.bind networkMap.lookup else none

/-- A NIC of the target follows one of the source: if its network is mapped, it is connected as the
map says and has the MAC address if that is to be preserved, with or without separators. -/
def Follows (networkMap : NetworkMap) (preserve : Bool) (nic : Nic) (target : TargetNic) : Prop :=
  ∀ dst, nic.mapped networkMap = some dst → target.network = some dst ∧
    (preserve = true → ∀ mac, nic.macAddress = some mac → mac ≠ "" →
      target.mac.map HyperV.cleanMac = some (HyperV.cleanMac mac))

abbrev FollowAll (networkMap : NetworkMap) (preserve : Bool) (nics : List Nic)
    (target : List TargetNic) : Prop :=
  List.Forall₂ (Follows networkMap preserve) nics target

section

variable {vm nics : List TargetNic}

lemma foldl_accept_of_nameless (h : ∀ nic ∈ nics, nic.name = none) :
    nics.foldl accept vm = vm ++ nics := by
  induction nics generalizing vm with
  | nil => simp
  | cons nic nics ih =>
    rw [List.forall_mem_cons] at h
    rw [List.foldl_cons, ih h.2, accept, h.1]
    simp

lemma accept_of_used (hname : nic.name.isSome) (hused : nic.name ∈ vm.map (·.name)) :
    accept vm nic = vm := by
  rw [accept, if_pos]
  simpa [hname] using hused

lemma accept_of_not_used (hused : nic.name ∉ vm.map (·.name)) :
    accept vm nic = vm ++ [nic] := by
  rw [accept, if_neg]
  simp only [Bool.and_eq_true, List.contains_iff_mem]
  exact fun h => hused h.2

lemma length_foldl_accept_le : (nics.foldl accept vm).length ≤ vm.length + nics.length := by
  induction nics generalizing vm with
  | nil => simp
  | cons nic nics ih =>
    have haccept : (accept vm nic).length ≤ vm.length + 1 := by
      unfold accept
      split <;> simp
    have := @ih (accept vm nic)
    simp only [List.foldl_cons, List.length_cons]
    omega

def Unused (vm nics : List TargetNic) : Prop :=
  (nics.map (·.name)).Nodup ∧ ∀ nic ∈ nics, nic.name ∉ vm.map (·.name)

lemma unused_cons : Unused vm (nic :: nics) ↔
    nic.name ∉ vm.map (·.name) ∧ Unused (vm ++ [nic]) nics := by
  simp only [Unused, List.map_cons, List.nodup_cons, List.forall_mem_cons, List.map_append,
    List.mem_append, List.map_nil, List.mem_singleton, not_or, forall_and, List.mem_map,
    not_exists, not_and]
  grind

lemma foldl_accept_of_unused (h : Unused vm nics) : nics.foldl accept vm = vm ++ nics := by
  induction nics generalizing vm with
  | nil => simp
  | cons nic nics ih =>
    obtain ⟨hnic, hrest⟩ := unused_cons.mp h
    rw [List.foldl_cons, accept_of_not_used hnic, ih hrest, List.append_assoc]
    rfl

lemma length_foldl_accept_lt (hnames : ∀ nic ∈ nics, nic.name.isSome)
    (h : ¬ Unused vm nics) : (nics.foldl accept vm).length < vm.length + nics.length := by
  induction nics generalizing vm with
  | nil => exact absurd ⟨List.nodup_nil, by simp⟩ h
  | cons nic nics ih =>
    rw [List.forall_mem_cons] at hnames
    rw [List.foldl_cons, List.length_cons]
    by_cases hused : nic.name ∈ vm.map (·.name)
    · rw [accept_of_used hnames.1 hused]
      have := @length_foldl_accept_le vm nics
      omega
    · have hrest := @ih (vm ++ [nic]) hnames.2 fun hrest => h (unused_cons.mpr ⟨hused, hrest⟩)
      rw [accept_of_not_used hused]
      simp only [List.length_append, List.length_singleton] at hrest
      omega

lemma foldl_accept_of_used (hnames : ∀ nic ∈ nics, nic.name.isSome)
    (h : ∀ nic ∈ nics, nic.name ∈ vm.map (·.name)) : nics.foldl accept vm = vm := by
  induction nics with
  | nil => rfl
  | cons nic nics ih =>
    rw [List.forall_mem_cons] at hnames h
    rw [List.foldl_cons, accept_of_used hnames.1 h.1, ih hnames.2 h.2]

lemma name_mem_foldl_accept (hnames : ∀ nic ∈ nics, nic.name.isSome) :
    vm.map (·.name) ⊆ (nics.foldl accept vm).map (·.name) ∧
      ∀ nic ∈ nics, nic.name ∈ (nics.foldl accept vm).map (·.name) := by
  induction nics generalizing vm with
  | nil => simp
  | cons nic nics ih =>
    rw [List.forall_mem_cons] at hnames
    obtain ⟨hsub, hmem⟩ := @ih (accept vm nic) hnames.2
    have haccept : vm.map (·.name) ⊆ (accept vm nic).map (·.name) ∧
        nic.name ∈ (accept vm nic).map (·.name) := by
      by_cases hused : nic.name ∈ vm.map (·.name)
      · rw [accept_of_used hnames.1 hused]
        exact ⟨List.Subset.refl _, hused⟩
      · rw [accept_of_not_used hused]
        simp
    rw [List.foldl_cons, List.forall_mem_cons]
    exact ⟨List.Subset.trans haccept.1 hsub, hsub haccept.2, hmem⟩

end

lemma preservedMac_of_ne (h : mac ≠ "") :
    preservedMac true (some mac) = some mac := by
  simp [preservedMac, truthy, h]

namespace OLVM

variable {alnum : Char → Bool} {networkMap : NetworkMap} {preserve datacenter inRequest : Bool}

lemma destination_of_mapped (h : nic.mapped networkMap = some dst) (hne : dst ≠ "") :
    destination networkMap datacenter ensure nic = .ok (some dst) := by
  unfold Nic.mapped at h
  have htruthy : truthy (some dst) = true := by simpa [truthy] using hne
  unfold destination
  simp only [h, htruthy, if_true, Bool.not_true, Bool.false_and, Bool.false_eq_true, if_false]
  cases nic.sourceNetwork <;> rfl

lemma targetNic_ok (h : targetNic alnum networkMap preserve datacenter ensure nic = .ok target) :
    ∃ dst, destination networkMap datacenter ensure nic = .ok dst ∧ target =
      { name := some (nicName alnum nic)
        network := if truthy dst then dst else none
        mac := preservedMac preserve nic.macAddress } := by
  obtain ⟨dst, hdst, h⟩ := Raising.bind_eq_ok h
  cases h
  exact ⟨dst, hdst, rfl⟩

lemma follows_targetNic
    (h : targetNic alnum networkMap preserve datacenter ensure nic = .ok target) :
    Follows networkMap preserve nic target ↔ nic.mapped networkMap ≠ some "" := by
  obtain ⟨dst, hdst, rfl⟩ := targetNic_ok h
  constructor
  · intro hfollows hmapped
    have hnetwork := (hfollows "" hmapped).1
    by_cases htruthy : truthy dst
    · simp only [htruthy, if_true] at hnetwork
      simp [hnetwork, truthy] at htruthy
    · simp [htruthy] at hnetwork
  · intro hne net hmapped
    have hnet : net ≠ "" := fun h => hne (h ▸ hmapped)
    rw [destination_of_mapped hmapped hnet] at hdst
    cases hdst
    refine ⟨by simp [truthy, hnet], ?_⟩
    rintro rfl mac hmac hmacne
    simp [hmac, preservedMac_of_ne hmacne]

lemma accepted_once {targets : List TargetNic} (hnames : ∀ nic ∈ targets, nic.name.isSome) :
    targets.foldl accept (if inRequest then targets.foldl accept [] else []) =
      targets.foldl accept [] := by
  cases inRequest with
  | false => rfl
  | true => exact foldl_accept_of_used hnames (name_mem_foldl_accept hnames).2

section

variable {targets : List TargetNic} (h : List.Forall₂ (fun nic target =>
  targetNic alnum networkMap preserve datacenter ensure nic = .ok target) nics targets)

include h

lemma names_of_targetNics :
    targets.map (·.name) = (nics.map (nicName alnum)).map some := by
  rw [List.map_map]
  refine (Indexed.map_eq_map h fun nic target ht => ?_).symm
  obtain ⟨dst, -, rfl⟩ := targetNic_ok ht
  rfl

lemma named_of_targetNics : ∀ target ∈ targets, target.name.isSome := by
  intro target htarget
  obtain ⟨nic, -, ht⟩ := Indexed.exists_of_mem_right h htarget
  obtain ⟨dst, -, rfl⟩ := targetNic_ok ht
  rfl

lemma unused_iff_nodup : Unused [] targets ↔ (nics.map (nicName alnum)).Nodup := by
  rw [Unused, names_of_targetNics h, List.nodup_map_iff fun _ _ => Option.some.inj]
  simp

end

lemma exists_targetNic (nic : Nic) :
    ∃ target, targetNic alnum networkMap preserve false ensure nic = .ok target := by
  rcases hnet : nic.sourceNetwork with - | net <;>
    simp [targetNic, destination, hnet, bind, Except.bind, pure, Except.pure]

lemma followAll_iff :
    (∀ datacenter inRequest ensure target,
      deployNics alnum networkMap preserve datacenter inRequest ensure nics = .ok target →
        FollowAll networkMap preserve nics target) ↔
    (nics.map (nicName alnum)).Nodup ∧ ∀ nic ∈ nics, nic.mapped networkMap ≠ some "" := by
  constructor
  · intro h
    obtain ⟨targets, htargets⟩ := Raising.mapM_eq_ok fun nic (_ : nic ∈ nics) =>
      @exists_targetNic alnum networkMap preserve (fun _ _ => .ok "") nic
    have hall := Raising.forall₂_of_mapM htargets
    have hfollow := h false false (fun _ _ => .ok "") (targets.foldl accept []) (by
      simp [deployNics, htargets, bind, Except.bind, pure, Except.pure])
    have hunused : Unused [] targets := by
      by_contra hnot
      have hlt := length_foldl_accept_lt (named_of_targetNics hall) hnot
      have hlength := hfollow.length_eq
      rw [hall.length_eq] at hlength
      simp only [List.length_nil, Nat.zero_add] at hlt
      omega
    rw [foldl_accept_of_unused hunused, List.nil_append] at hfollow
    refine ⟨(unused_iff_nodup hall).mp hunused, fun nic hnic => ?_⟩
    have hmapped : List.Forall₂ (fun nic _ => nic.mapped networkMap ≠ some "") nics targets :=
      List.Forall₂.mp (fun _ _ ht hf => (follows_targetNic ht).mp hf) hall hfollow
    obtain ⟨-, -, hne⟩ := Indexed.exists_of_mem_left hmapped hnic
    exact hne
  · rintro ⟨hnodup, hmapped⟩ datacenter inRequest ensure target h
    obtain ⟨targets, htargets, h⟩ := Raising.bind_eq_ok h
    cases h
    have hall := Raising.forall₂_of_mapM htargets
    rw [accepted_once (named_of_targetNics hall),
      foldl_accept_of_unused ((unused_iff_nodup hall).mpr hnodup), List.nil_append]
    exact Indexed.imp_of_mem hall fun nic hnic target _ htarget =>
      (follows_targetNic htarget).mpr (hmapped nic hnic)

end OLVM

namespace Proxmox

variable {nics : List Nic}

lemma net_inj (h : "net" ++ Nat.repr i = "net" ++ Nat.repr j) : i = j := by
  have hrepr := (String.append_right_inj _).mp h
  rw [Nat.repr_eq_ofList_toDigits, Nat.repr_eq_ofList_toDigits] at hrepr
  have hdigits := String.ofList_injective hrepr
  rw [← @Nat.ofDigitChars_toDigits 10 i (by decide) (by decide), hdigits,
    Nat.ofDigitChars_toDigits (by decide) (by decide)]

lemma deployNics_eq : deployNics networkMap preserve nics =
    nics.zipIdx.map fun v => netParam networkMap preserve v.1 v.2 := by
  refine (foldl_accept_of_unused ⟨?_, by simp⟩).trans (List.nil_append _)
  rw [List.map_map]
  refine Indexed.nodup_zipIdx.map_on fun v hv w hw heq => Indexed.eq_of_index_eq hv hw ?_
  exact net_inj (Option.some.inj heq)

lemma followAll_iff (hkeys : ∀ nic ∈ nics, nic.network = none ∧ nic.mac = none) :
    FollowAll networkMap preserve nics (deployNics networkMap preserve nics) ↔
      ∀ nic ∈ nics, ∀ dst, nic.mapped networkMap = some dst →
        dst = "vmbr0" ∧ (preserve = true → truthy nic.macAddress = false) := by
  have hfollows : ∀ nic ∈ nics, ∀ index,
      Follows networkMap preserve nic (netParam networkMap preserve nic index) ↔
        ∀ dst, nic.mapped networkMap = some dst →
          dst = "vmbr0" ∧ (preserve = true → truthy nic.macAddress = false) := by
    intro nic hnic index
    obtain ⟨hnetwork, hmac⟩ := hkeys nic hnic
    refine forall₂_congr fun dst _ => and_congr ?_ (imp_congr_right fun _ => ?_)
    · simp [netParam, hnetwork, eq_comm]
    · cases hmacAddress : nic.macAddress <;>
        simp [netParam, hmac, preservedMac, truthy]
  rw [deployNics_eq, FollowAll, Indexed.forall₂_map_zipIdx, ← @Indexed.forall_mem_fst _ nics]
  refine forall₂_congr fun v hv => hfollows v.1 ?_ v.2
  exact List.fst_mem_of_mem_zipIdx hv

end Proxmox

namespace HyperV

variable {nics : List Nic}

lemma cleanMac_cleanMac (mac : String) : cleanMac (cleanMac mac) = cleanMac mac := by
  simp [cleanMac]

lemma mac_of_preserve (hpreserve : preserve = true) (hmac : macAddress = some mac)
    (hne : mac ≠ "") :
    ((preservedMac preserve macAddress).map cleanMac).map cleanMac = some (cleanMac mac) := by
  rw [hpreserve, hmac, preservedMac_of_ne hne, Option.map_some, Option.map_some,
    cleanMac_cleanMac]

lemma firstValue_of_mapped {nic : Nic} (h : nic.mapped networkMap = some dst) :
    ∃ switch, networkMap.firstValue = some switch := by
  unfold Nic.mapped at h
  split at h
  · obtain ⟨net, -, hlookup⟩ := Option.bind_eq_some_iff.mp h
    have hmem := AList.mem_lookup_iff.mp hlookup
    cases hentries : networkMap.entries with
    | nil => simp [hentries] at hmem
    | cons entry entries => exact ⟨entry.2, by simp [NetworkMap.firstValue, hentries]⟩
  · cases h

lemma firstValue_of_firstSwitch {nic : Nic} (hmapped : nic.mapped networkMap = some dst)
    (h : firstSwitch networkMap getDefaultSwitch = .ok switch) :
    networkMap.firstValue = some switch := by
  obtain ⟨first, hfirst⟩ := firstValue_of_mapped hmapped
  rw [firstSwitch, hfirst] at h
  cases h
  exact hfirst

lemma follows_addedAdapter {firstSwitch : String} :
    Follows networkMap preserve nic (addedAdapter networkMap preserve firstSwitch nic) ↔
      (nic.mapped networkMap = some "" → firstSwitch = "") := by
  have hnetwork : (addedAdapter networkMap preserve firstSwitch nic).network =
      orElse (nic.mapped networkMap) (some firstSwitch) := rfl
  constructor
  · intro h hmapped
    have hswitch := (h "" hmapped).1
    rw [hnetwork, hmapped] at hswitch
    simpa [orElse, truthy] using hswitch
  · intro h dst hmapped
    refine ⟨?_, fun hpreserve mac hmac hne => mac_of_preserve hpreserve hmac hne⟩
    rw [hnetwork, hmapped]
    by_cases hdst : dst = ""
    · subst hdst
      simp [orElse, truthy, h hmapped]
    · simp [orElse, truthy, hdst]

lemma deployNics_ok (h : deployNics networkMap preserve getDefaultSwitch (nic :: nics) = .ok target)
    :
    ∃ switch, firstSwitch networkMap getDefaultSwitch = .ok switch ∧
      (FollowAll networkMap preserve (nic :: nics) target ↔
        (∀ dst, nic.mapped networkMap = some dst → switch = dst) ∧
        ∀ nic ∈ nics, nic.mapped networkMap = some "" → switch = "") := by
  obtain ⟨switch, hswitch, h⟩ := Raising.bind_eq_ok h
  refine ⟨switch, hswitch, ?_⟩
  cases h
  rw [foldl_accept_of_nameless (by simp [addedAdapter]), List.tail_cons, FollowAll,
    List.singleton_append, List.forall₂_cons, List.forall₂_map_right_iff, List.forall₂_same]
  refine and_congr (forall₂_congr fun dst _ => ?_) (forall₂_congr fun _ _ => follows_addedAdapter)
  simp only [Option.some.injEq, and_iff_left_iff_imp]
  exact fun _ hpreserve mac hmac hne => mac_of_preserve hpreserve hmac hne

lemma followAll_iff :
    (∀ getDefaultSwitch target,
      deployNics networkMap preserve getDefaultSwitch nics = .ok target →
        FollowAll networkMap preserve nics target) ↔
    nics ≠ [] ∧
      (∀ nic ∈ nics.head?, ∀ dst, nic.mapped networkMap = some dst →
        networkMap.firstValue = some dst) ∧
      ∀ nic ∈ nics.tail, nic.mapped networkMap = some "" → networkMap.firstValue = some "" := by
  have hreturns : ∃ target, deployNics networkMap preserve (.ok "") nics = .ok target := by
    cases hfirst : networkMap.firstValue <;>
      simp [deployNics, firstSwitch, hfirst, bind, Except.bind, pure, Except.pure]
  rcases nics with - | ⟨nic, nics⟩
  · refine iff_of_false (fun h => ?_) (fun h => h.1 rfl)
    obtain ⟨target, htarget⟩ := hreturns
    have hnil := List.forall₂_nil_left_iff.mp (h _ _ htarget)
    obtain ⟨switch, -, htarget⟩ := Raising.bind_eq_ok htarget
    cases htarget
    simp at hnil
  · simp only [ne_eq, reduceCtorEq, not_false_eq_true, true_and, List.head?_cons,
      Option.mem_some_iff, forall_eq', List.tail_cons]
    constructor
    · intro h
      obtain ⟨target, htarget⟩ := hreturns
      obtain ⟨switch, hswitch, hiff⟩ := deployNics_ok htarget
      obtain ⟨hnic, hnics⟩ := hiff.mp (h _ _ htarget)
      refine ⟨fun dst hmapped => ?_, fun nic hmem hmapped => ?_⟩
      · rw [firstValue_of_firstSwitch hmapped hswitch, hnic dst hmapped]
      · rw [firstValue_of_firstSwitch hmapped hswitch, hnics nic hmem hmapped]
    · rintro ⟨hnic, hnics⟩ getDefaultSwitch target h
      obtain ⟨switch, hswitch, hiff⟩ := deployNics_ok h
      refine hiff.mpr ⟨fun dst hmapped => ?_, fun nic hmem hmapped => ?_⟩
      · exact Option.some.inj ((firstValue_of_firstSwitch hmapped hswitch).symm.trans (hnic dst hmapped))
      · exact Option.some.inj ((firstValue_of_firstSwitch hmapped hswitch).symm.trans (hnics nic hmem hmapped))

end HyperV

/-- For the NICs of every VMware instance and every network map, the NICs of the target VM follow
those of the source: with OLVM if and only if the names of the NICs stay distinct when they are
cleaned and cut, and none is mapped to nothing; with Proxmox if and only if what is mapped is
mapped to the default bridge and there is no MAC address to preserve; with Hyper-V if and only
if there is a first NIC, it is mapped, if at all, to the first network of the map, and no other
one is mapped to nothing. -/
theorem nics_followAll_iff (alnum : Char → Bool) (portgroupVlanMap : String → Option Int)
    (cards : List EthernetCard) (networkMap : NetworkMap) (preserve : Bool) :
    let nics := cards.map (·.toNic portgroupVlanMap)
    ((∀ datacenter inRequest ensure target,
        OLVM.deployNics alnum networkMap preserve datacenter inRequest ensure nics = .ok target →
          FollowAll networkMap preserve nics target) ↔
      (nics.map (OLVM.nicName alnum)).Nodup ∧ ∀ nic ∈ nics, nic.mapped networkMap ≠ some "") ∧
    (FollowAll networkMap preserve nics (Proxmox.deployNics networkMap preserve nics) ↔
      ∀ nic ∈ nics, ∀ dst, nic.mapped networkMap = some dst →
        dst = "vmbr0" ∧ (preserve = true → truthy nic.macAddress = false)) ∧
    ((∀ getDefaultSwitch target,
        HyperV.deployNics networkMap preserve getDefaultSwitch nics = .ok target →
          FollowAll networkMap preserve nics target) ↔
      nics ≠ [] ∧
        (∀ nic ∈ nics.head?, ∀ dst, nic.mapped networkMap = some dst →
          networkMap.firstValue = some dst) ∧
        ∀ nic ∈ nics.tail, nic.mapped networkMap = some "" →
          networkMap.firstValue = some "") := by
  intro nics
  refine ⟨OLVM.followAll_iff, Proxmox.followAll_iff fun nic hnic => ?_, HyperV.followAll_iff⟩
  obtain ⟨card, -, rfl⟩ := List.mem_map.mp hnic
  exact ⟨rfl, rfl⟩

def twoAdapters : List EthernetCard :=
  [⟨4000, "Network adapter 1", some ⟨some "LAN", some "LAN", none⟩, some "00:50:56:00:00:01", none⟩,
    ⟨4001, "Network adapter 2", some ⟨some "DMZ", some "DMZ", none⟩, some "00:50:56:00:00:02", none⟩]

def twoNetworks : NetworkMap := AList.insert "DMZ" "dmz" (AList.insert "LAN" "lan" ∅)

/-- With OLVM, the names of both adapters are cut to the same fifteen characters, and the second
one is rejected. With Proxmox, both are on the default bridge without their MAC address. With
Hyper-V, the first one is on the network of the second one. -/
theorem two_adapters_do_not_follow :
    let nics := twoAdapters.map (·.toNic fun _ => none)
    let olvm := [⟨some "Network_adapter", some "lan", some "00:50:56:00:00:01"⟩]
    let proxmox := [⟨some "net0", some "vmbr0", none⟩, ⟨some "net1", some "vmbr0", none⟩]
    let hyperV := [⟨none, some "dmz", some "005056000001"⟩, ⟨none, some "dmz", some "005056000002"⟩]
    (OLVM.deployNics Char.isAlphanum twoNetworks true true false (fun _ _ => .ok "") nics =
        .ok olvm ∧ ¬ FollowAll twoNetworks true nics olvm) ∧
    (Proxmox.deployNics twoNetworks true nics = proxmox ∧
      ¬ FollowAll twoNetworks true nics proxmox) ∧
    (HyperV.deployNics twoNetworks true (.error "") nics = .ok hyperV ∧
      ¬ FollowAll twoNetworks true nics hyperV) := by
  intro nics olvm proxmox hyperV
  have hmapped : ∀ nic ∈ nics.head?, nic.mapped twoNetworks = some "lan" := by decide
  refine ⟨⟨by decide, fun h => ?_⟩, ⟨by decide, fun h => ?_⟩,
    by decide, fun h => ?_⟩
  · exact absurd h.length_eq (by decide)
  · have hnetwork := ((List.forall₂_cons.mp h).1 "lan" (hmapped _ rfl)).1
    exact absurd hnetwork (by decide)
  · have hnetwork := ((List.forall₂_cons.mp h).1 "lan" (hmapped _ rfl)).1
    exact absurd hnetwork (by decide)

end Coriolis.Providers

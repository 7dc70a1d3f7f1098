import Coriolis.Library.Raising
import Mathlib.Data.List.AList
import Mathlib.Data.List.Dedup
import Mathlib.Data.List.Sort

/-!
# Worker services for specs

The scheduler rates every worker service by a list of filters and returns those that no filter
rejects. The filters for the regions are made one per region set, after it was checked that the
set has a region that is enabled.
-/

namespace Coriolis.Scheduler

structure Region where
  id : String
  enabled : Bool
  deriving DecidableEq

/-- The provider types of `constants` that a task can require. -/
inductive ProviderType where
  | transferImport | transferExport | osMorphing | instanceFlavor
  | validateTransferExport | validateTransferImport
  | sourceTransferUpdate | destinationTransferUpdate
  | sourceMinionPool | destinationMinionPool
  deriving DecidableEq

/-- What a worker says about one of its providers. -/
structure Provider where
  types : Option (List ProviderType)

/-- A service, with the providers by platform type as it was registered with them. -/
structure Service where
  id : String
  topic : Option String
  enabled : Bool
  mappedRegions : List Region
  providers : String → Option Provider

/-- The tables the scheduler reads. -/
structure Database where
  regions : List Region
  services : List Service

abbrev ProviderRequirements := AList fun _ : String => List ProviderType

inductive Filter where
  | regions (regions : List String) (anyRegion : Bool)
  | topic (topic : String)
  | enabled (enabled : Bool)
  | providerTypes (requirements : ProviderRequirements)

inductive SchedulerError where
  | noWorkerService
  | noSuitableWorkerService (inspected : List String) (minimum : Nat) (filters : List Filter)
  | regionNotFound (regionIds missing : List String)
  | noSuitableRegion (regionSet : List String)

namespace Filter

/-- `RegionsFilter.rate_service`. -/
def rateRegions (regions : List String) (anyRegion : Bool) (service : Service) : Nat :=
  if regions.isEmpty then 100
  else
    let serviceRegions := service.mappedRegions.map (·.id)
    let found := regions.filter serviceRegions.contains
    let missing := regions.filter fun region => !serviceRegions.contains region
    if found.isEmpty then 0
    else if !anyRegion && !missing.isEmpty then 0
    else 100

/-- `ProviderTypesFilter.rate_service`. -/
def rateProviderTypes (requirements : ProviderRequirements) (service : Service) : Nat :=
  let acceptable := requirements.entries.all fun requirement =>
    match service.providers requirement.1 with
    | none => false
    | some provider =>
      let availableTypes := provider.types.getD []
      let missingTypes := requirement.2.filter fun type => !availableTypes.contains type
      missingTypes.isEmpty
  if acceptable then 100 else 0

/-- `rate_service`. -/
def rateService (service : Service) : Filter → Nat
  | .regions ids anyRegion => rateRegions ids anyRegion service
  | .topic name => if service.topic = some name then 100 else 0
  | .enabled value => if service.enabled = value then 100 else 0
  | .providerTypes requirements => rateProviderTypes requirements service

/-- `filter_services`. -/
def filterServices (filter : Filter) (services : List Service) : List Service :=
  services.filter fun service => 0 < filter.rateService service

end Filter

def workerMainMessagingTopic : String := "coriolis_worker"

/-- `_get_all_worker_services`. -/
def getAllWorkerServices (db : Database) : Except SchedulerError (List Service) :=
  let services := (Filter.topic workerMainMessagingTopic).filterServices db.services
  if services.isEmpty then .error .noWorkerService else .ok services

def score (minimumPerFilterRating : Nat) (service : Service) : List Filter → Nat → Option Nat
  | [], totalScore => some totalScore
  | filter :: filters, totalScore =>
    let rating := filter.rateService service
    if rating < minimumPerFilterRating then none
    else score minimumPerFilterRating service filters (totalScore + rating)

/-- `_get_weighted_filtered_services`. -/
def getWeightedFilteredServices (services : List Service) (filters : List Filter)
    (minimumPerFilterRating : Nat) : Except SchedulerError (List (Service × Nat)) :=
  if filters.isEmpty then .ok (services.map fun service => (service, 100))
  else
    let scores := services.filterMap fun service =>
      (score minimumPerFilterRating service filters 0).map fun total => (service, total)
    if scores.isEmpty then
      .error (.noSuitableWorkerService (services.map (·.id)) minimumPerFilterRating filters)
    else .ok (scores.insertionSort fun a b => b.2 ≤ a.2)

/-- `_filter_regions`, of which an empty cache is no cache. -/
def filterRegions (db : Database) (regionIds : List String) (enabled checkAllExist : Bool)
    (regionsCache : List Region) : Except SchedulerError (List Region) :=
  let regions := if regionsCache.isEmpty then db.regions else regionsCache
  let found := regions.filter fun region => regionIds.contains region.id
  let foundRegions := found.map (·.id)
  let filteredRegions := found.filter fun region => region.enabled == enabled
  let missingRegions := regionIds.dedup.filter fun id => !foundRegions.contains id
  if checkAllExist && !missingRegions.isEmpty then
    .error (.regionNotFound regionIds missingRegions)
  else .ok filteredRegions

/-- The filters of the region sets, of which empty ones are skipped. -/
def regionFilters (db : Database) (filterDisabledRegions : Bool) :
    List (List String) → Except SchedulerError (List Filter)
  | [] => .ok []
  | regionSet :: regionSets =>
    if regionSet.isEmpty then regionFilters db filterDisabledRegions regionSets
    else do
      let filteredRegions ← filterRegions db regionSet filterDisabledRegions true []
      if filteredRegions.isEmpty then throw (.noSuitableRegion regionSet)
      let filters ← regionFilters db filterDisabledRegions regionSets
      return .regions regionSet true :: filters

/-- `get_workers_for_specs`, where requirements and region sets that are not given are empty. -/
def getWorkersForSpecs (db : Database) (providerRequirements : ProviderRequirements)
    (regionSets : List (List String)) (enabled : Option Bool) (filterDisabledRegions : Bool) :
    Except SchedulerError (List Service) := do
  let workerServices ← getAllWorkerServices db
  let enabledFilters := match enabled with
    | some enabled => [Filter.enabled enabled]
    | none => []
  let regionsFilters ← regionFilters db filterDisabledRegions regionSets
  let providerFilters :=
    if providerRequirements.entries.isEmpty then []
    else [Filter.providerTypes providerRequirements]
  let filteredServices ← getWeightedFilteredServices workerServices
    (enabledFilters ++ regionsFilters ++ providerFilters) 1
  return filteredServices.map (·.1)

section

def Service.Offers (service : Service) (platformType : String) (types : List ProviderType) :
    Prop :=
  ∃ provider, service.providers platformType = some provider ∧
    ∀ type ∈ types, type ∈ provider.types.getD []

def Service.Meets (service : Service) (requirements : ProviderRequirements) : Prop :=
  ∀ requirement ∈ requirements.entries, service.Offers requirement.1 requirement.2

def Service.MappedTo (service : Service) (ids : List String) : Prop :=
  ∃ id ∈ ids, id ∈ service.mappedRegions.map (·.id)

variable (db : Database)

def Database.enabledOf (regionSet : List String) : List String :=
  regionSet.filter fun id => db.regions.any fun region => region.id = id && region.enabled

/-- An enabled worker with the required providers. -/
structure Candidate (requirements : ProviderRequirements) (service : Service) : Prop where
  mem : service ∈ db.services
  topic : service.topic = some workerMainMessagingTopic
  enabled : service.enabled = true
  meets : service.Meets requirements

/-- A candidate that is mapped, for each region set, to one of its regions that are enabled. -/
structure Suitable (requirements : ProviderRequirements) (regionSets : List (List String))
    (service : Service) : Prop extends Candidate db requirements service where
  mapped : ∀ regionSet ∈ regionSets, regionSet ≠ [] → service.MappedTo (db.enabledOf regionSet)

end

namespace Filter

variable {service : Service}

lemma rateRegions_pos (h : ids ≠ []) :
    1 ≤ rateRegions ids true service ↔ service.MappedTo ids := by
  have hfound : ids.filter (service.mappedRegions.map (·.id)).contains ≠ [] ↔
      service.MappedTo ids := by
    simp [Service.MappedTo, List.filter_eq_nil_iff]
  rw [← hfound]
  simp only [rateRegions, List.isEmpty_iff, h, if_false, Bool.not_true, Bool.false_and]
  split <;> simp_all

lemma rateProviderTypes_pos :
    1 ≤ rateProviderTypes requirements service ↔ service.Meets requirements := by
  have hall : ∀ {b : Bool}, 1 ≤ (if b then 100 else 0) ↔ b = true := by decide
  rw [rateProviderTypes, hall, List.all_eq_true]
  refine forall₂_congr fun requirement _ => ?_
  unfold Service.Offers
  cases service.providers requirement.1 with
  | none => simp
  | some provider => simp [List.filter_eq_nil_iff]

end Filter

section

variable {services : List Service} {filters : List Filter}

lemma score_isSome (total : Nat) : (score minimum service filters total).isSome ↔
    ∀ filter ∈ filters, minimum ≤ filter.rateService service := by
  induction filters generalizing total with
  | nil => simp [score]
  | cons filter filters ih =>
    rw [score, List.forall_mem_cons]
    by_cases h : filter.rateService service < minimum
    · simp [h]
    · simp [h, ih, Nat.not_lt.mp h]

lemma getWeightedFilteredServices_spec (hfilters : filters ≠ []) :
    match getWeightedFilteredServices services filters minimum with
    | .ok scores => ∀ service, service ∈ scores.map (·.1) ↔
        service ∈ services ∧ ∀ filter ∈ filters, minimum ≤ filter.rateService service
    | .error _ => ∀ service ∈ services, ¬ ∀ filter ∈ filters,
        minimum ≤ filter.rateService service := by
  set scores := services.filterMap fun service =>
    (score minimum service filters 0).map fun total => (service, total) with hscores
  have hmem : ∀ service, service ∈ scores.map (·.1) ↔
      service ∈ services ∧ ∀ filter ∈ filters, minimum ≤ filter.rateService service := by
    intro service
    rw [← score_isSome 0, Option.isSome_iff_exists]
    simp [hscores, List.mem_filterMap]
  have hnone : ¬ filters.isEmpty = true := by simpa using hfilters
  rw [getWeightedFilteredServices, if_neg hnone]
  simp only [← hscores]
  by_cases hempty : scores.isEmpty
  · rw [if_pos hempty]
    intro service hservice haccepted
    have hscore := (hmem service).mpr ⟨hservice, haccepted⟩
    rw [List.isEmpty_iff.mp hempty] at hscore
    simp at hscore
  · rw [if_neg hempty]
    intro service
    rw [← hmem service]
    exact ((List.perm_insertionSort _ scores).map _).mem_iff

lemma accepted_of_mem (h : getWeightedFilteredServices services filters minimum = .ok scores)
    (hfilters : filters ≠ []) (hmem : service ∈ scores.map (·.1)) :
    ∀ filter ∈ filters, minimum ≤ filter.rateService service := by
  have hspec := @getWeightedFilteredServices_spec services filters minimum hfilters
  rw [h] at hspec
  exact ((hspec service).mp hmem).2

end

section

variable {db : Database} {regionSet : List String}

def Database.Names (db : Database) (regionSet : List String) : Prop :=
  ∀ id ∈ regionSet, id ∈ db.regions.map (·.id)

lemma filterRegions_spec (h : db.Names regionSet) :
    ∃ regions, filterRegions db regionSet true true [] = .ok regions ∧
      (regions = [] ↔ db.enabledOf regionSet = []) := by
  refine ⟨(db.regions.filter fun region => regionSet.contains region.id).filter
    fun region => region.enabled == true, ?_, ?_⟩
  · rw [filterRegions]
    have hmissing : (regionSet.dedup.filter fun id => !((db.regions.filter fun region =>
        regionSet.contains region.id).map (·.id)).contains id) = [] := by
      simp only [List.filter_eq_nil_iff, List.mem_dedup]
      intro id hid
      obtain ⟨region, hregion, rfl⟩ := List.mem_map.mp (h id hid)
      simp only [Bool.not_eq_true, Bool.not_eq_false', List.contains_iff_mem, List.mem_map,
        List.mem_filter]
      exact ⟨region, ⟨hregion, by simpa using hid⟩, rfl⟩
    simp only [List.isEmpty_nil, if_true, hmissing, Bool.not_true, Bool.and_false,
      Bool.false_eq_true, if_false]
  · simp only [Database.enabledOf, List.filter_eq_nil_iff, List.mem_filter, List.any_eq_true]
    grind

/-- A region set the scheduler can use: it is skipped if it is empty. -/
def Database.Usable (db : Database) (regionSet : List String) : Prop :=
  regionSet ≠ [] → db.enabledOf regionSet ≠ []

lemma regionFilters_of_usable (hnames : ∀ regionSet ∈ regionSets, db.Names regionSet)
    (husable : ∀ regionSet ∈ regionSets, db.Usable regionSet) :
    regionFilters db true regionSets =
      .ok ((regionSets.filter (!·.isEmpty)).map fun regionSet => .regions regionSet true) := by
  induction regionSets with
  | nil => rfl
  | cons regionSet regionSets ih =>
    rw [List.forall_mem_cons] at hnames husable
    have ih := ih hnames.2 husable.2
    rw [regionFilters]
    by_cases hempty : regionSet.isEmpty
    · simp [hempty, ih]
    · obtain ⟨regions, hregions, hleft⟩ := filterRegions_spec hnames.1
      have hne : regions ≠ [] := mt hleft.mp (husable.1 (by simpa using hempty))
      simp [hempty, ih, hregions, hne, bind, Except.bind, pure, Except.pure]

lemma regionFilters_of_not_usable (hnames : ∀ regionSet ∈ regionSets, db.Names regionSet)
    (husable : ¬ ∀ regionSet ∈ regionSets, db.Usable regionSet) :
    ∃ e, regionFilters db true regionSets = .error e := by
  induction regionSets with
  | nil => simp at husable
  | cons regionSet regionSets ih =>
    rw [List.forall_mem_cons] at hnames husable
    have ih := ih hnames.2
    rw [regionFilters]
    by_cases hempty : regionSet.isEmpty
    · have hrest : ¬ ∀ regionSet ∈ regionSets, db.Usable regionSet := fun h =>
        husable ⟨fun hne => absurd (List.isEmpty_iff.mp hempty) hne, h⟩
      simpa [hempty] using ih hrest
    obtain ⟨regions, hregions, hleft⟩ := filterRegions_spec hnames.1
    by_cases hne : regions = []
    · exact ⟨.noSuitableRegion regionSet, by
        simp [hempty, hregions, hne, bind, Except.bind, throw, throwThe, MonadExceptOf.throw]⟩
    · have hrest : ¬ ∀ regionSet ∈ regionSets, db.Usable regionSet := fun h =>
        husable ⟨fun _ => mt hleft.mpr hne, h⟩
      obtain ⟨e, he⟩ := ih hrest
      exact ⟨e, by simp [hempty, hregions, hne, he, bind, Except.bind]⟩

end

/-- The services with the property are returned, and it is an error if there are none. -/
def ReturnsExactly (result : Except SchedulerError (List Service)) (p : Service → Prop) : Prop :=
  match result with
  | .ok services => ∀ service, service ∈ services ↔ p service
  | .error _ => ∀ service, ¬ p service

lemma ReturnsExactly.congr (h : ReturnsExactly result p) (hpq : ∀ service, p service ↔ q service) :
    ReturnsExactly result q := by
  have : p = q := funext fun service => propext (hpq service)
  rwa [← this]

lemma ReturnsExactly.unique (hp : ReturnsExactly result p) (hq : ReturnsExactly result q)
    (service : Service) : p service ↔ q service := by
  cases result with
  | ok services => exact (hp service).symm.trans (hq service)
  | error e => exact iff_of_false (hp service) (hq service)

section

variable {db : Database} {requirements : ProviderRequirements} {regionSets : List (List String)}
  {service : Service}

/-- A candidate that is mapped, for each region set, to one of its regions. -/
structure Eligible (db : Database) (requirements : ProviderRequirements)
    (regionSets : List (List String)) (service : Service) : Prop
    extends Candidate db requirements service where
  mapped : ∀ regionSet ∈ regionSets, regionSet ≠ [] → service.MappedTo regionSet

lemma Service.MappedTo.mono (h : service.MappedTo ids) (hsub : ids ⊆ ids') :
    service.MappedTo ids' := by
  obtain ⟨id, hid, hmapped⟩ := h
  exact ⟨id, hsub hid, hmapped⟩

lemma Suitable.eligible (h : Suitable db requirements regionSets service) :
    Eligible db requirements regionSets service :=
  { h.toCandidate with
    mapped := fun regionSet hmem hne =>
      (h.mapped regionSet hmem hne).mono (List.filter_subset_self _) }

lemma mem_workers : service ∈
    (Filter.topic workerMainMessagingTopic).filterServices db.services ↔
      service ∈ db.services ∧ service.topic = some workerMainMessagingTopic := by
  simp only [Filter.filterServices, List.mem_filter, Filter.rateService, and_congr_right_iff]
  intro _
  split <;> simp_all

lemma accepted_iff : (∀ filter ∈ [Filter.enabled true] ++
      (regionSets.filter (!·.isEmpty)).map (fun regionSet => .regions regionSet true) ++
      (if requirements.entries.isEmpty then [] else [.providerTypes requirements]),
      1 ≤ filter.rateService service) ↔
    service.enabled = true ∧
      (∀ regionSet ∈ regionSets, regionSet ≠ [] → service.MappedTo regionSet) ∧
      service.Meets requirements := by
  have hregions : (∀ filter ∈ (regionSets.filter (!·.isEmpty)).map
      (fun regionSet => Filter.regions regionSet true), 1 ≤ filter.rateService service) ↔
      ∀ regionSet ∈ regionSets, regionSet ≠ [] → service.MappedTo regionSet := by
    simp only [List.forall_mem_map, List.mem_filter, Bool.not_eq_eq_eq_not, Bool.not_true,
      List.isEmpty_eq_false_iff, and_imp]
    exact forall₃_congr fun regionSet _ hne => Filter.rateRegions_pos hne
  have hproviders : (∀ filter ∈ (if requirements.entries.isEmpty then []
      else [Filter.providerTypes requirements]), 1 ≤ filter.rateService service) ↔
      service.Meets requirements := by
    by_cases hempty : requirements.entries.isEmpty
    · simp [Service.Meets, List.isEmpty_iff.mp hempty]
    · rw [if_neg hempty, List.forall_mem_singleton]
      exact Filter.rateProviderTypes_pos
  have henabled : 1 ≤ (Filter.enabled true).rateService service ↔ service.enabled = true := by
    simp only [Filter.rateService]
    split <;> simp_all
  rw [List.append_assoc, List.singleton_append, List.forall_mem_cons, List.forall_mem_append,
    hregions, hproviders, henabled]

/-- If each region set has an enabled region, the workers are chosen by all of its regions. -/
lemma getWorkersForSpecs_of_usable (hnames : ∀ regionSet ∈ regionSets, db.Names regionSet)
    (husable : ∀ regionSet ∈ regionSets, db.Usable regionSet) :
    ReturnsExactly (getWorkersForSpecs db requirements regionSets (some true) true)
      (Eligible db requirements regionSets) := by
  have heligible : ∀ service, Eligible db requirements regionSets service ↔
      (service ∈ db.services ∧ service.topic = some workerMainMessagingTopic) ∧
        service.enabled = true ∧
        (∀ regionSet ∈ regionSets, regionSet ≠ [] → service.MappedTo regionSet) ∧
        service.Meets requirements := fun service =>
    ⟨fun h => ⟨⟨h.mem, h.topic⟩, h.enabled, h.mapped, h.meets⟩,
      fun ⟨⟨hmem, htopic⟩, henabled, hmapped, hmeets⟩ => ⟨⟨hmem, htopic, henabled, hmeets⟩, hmapped⟩⟩
  simp only [getWorkersForSpecs, getAllWorkerServices, regionFilters_of_usable hnames husable]
  by_cases hnone : ((Filter.topic workerMainMessagingTopic).filterServices db.services).isEmpty
  · rw [if_pos hnone]
    intro service h
    have hworker := mem_workers.mpr ((heligible service).mp h).1
    rw [List.isEmpty_iff.mp hnone] at hworker
    simp at hworker
  rw [if_neg hnone]
  have hspec := @getWeightedFilteredServices_spec
    ((Filter.topic workerMainMessagingTopic).filterServices db.services)
    ([Filter.enabled true] ++
      (regionSets.filter (!·.isEmpty)).map (fun regionSet => .regions regionSet true) ++
      (if requirements.entries.isEmpty then [] else [.providerTypes requirements])) 1 (by simp)
  simp only [accepted_iff, mem_workers] at hspec
  simp only [bind, Except.bind]
  revert hspec
  rcases getWeightedFilteredServices _ _ _ with e | scores
  · intro hspec service h
    exact hspec service ((heligible service).mp h).1 ((heligible service).mp h).2
  · intro hspec service
    rw [heligible]
    exact hspec service

lemma meets_of_mem
    (h : getWorkersForSpecs db requirements regionSets enabled filterDisabledRegions = .ok services)
    (hmem : service ∈ services) : service.Meets requirements := by
  by_cases hempty : requirements.entries.isEmpty
  · simp [Service.Meets, List.isEmpty_iff.mp hempty]
  simp only [getWorkersForSpecs, if_neg hempty] at h
  obtain ⟨workers, -, h⟩ := Raising.bind_eq_ok h
  obtain ⟨regionsFilters, -, h⟩ := Raising.bind_eq_ok h
  obtain ⟨scores, hscores, h⟩ := Raising.bind_eq_ok h
  cases h
  have haccepted := accepted_of_mem hscores (by simp) hmem (.providerTypes requirements) (by simp)
  exact Filter.rateProviderTypes_pos.mp haccepted

lemma getWorkersForSpecs_of_not_usable
    (hnames : ∀ regionSet ∈ regionSets, db.Names regionSet)
    (husable : ¬ ∀ regionSet ∈ regionSets, db.Usable regionSet) :
    ∃ e, getWorkersForSpecs db requirements regionSets (some true) true = .error e := by
  obtain ⟨e, he⟩ := regionFilters_of_not_usable hnames husable
  rw [getWorkersForSpecs]
  cases getAllWorkerServices db with
  | error e' => exact ⟨e', rfl⟩
  | ok services => exact ⟨e, by simp [he, bind, Except.bind]⟩

lemma not_suitable_of_not_usable
    (husable : ¬ ∀ regionSet ∈ regionSets, db.Usable regionSet) :
    ¬ Suitable db requirements regionSets service := by
  intro h
  refine husable fun regionSet hmem hne hnone => ?_
  obtain ⟨id, hid, -⟩ := h.mapped regionSet hmem hne
  simp [hnone] at hid

/-- The workers that are returned are the suitable ones if and only if a region set has no enabled
region, or no candidate owes its place in some region set to disabled regions only. -/
theorem returnsExactly_suitable_iff (hnames : ∀ regionSet ∈ regionSets, db.Names regionSet) :
    ReturnsExactly (getWorkersForSpecs db requirements regionSets (some true) true)
        (Suitable db requirements regionSets) ↔
      (∃ regionSet ∈ regionSets, regionSet ≠ [] ∧ db.enabledOf regionSet = []) ∨
      ∀ service, Candidate db requirements service →
        (∀ regionSet ∈ regionSets, regionSet ≠ [] → service.MappedTo regionSet) →
        ∀ regionSet ∈ regionSets, regionSet ≠ [] →
          service.MappedTo (db.enabledOf regionSet) := by
  by_cases husable : ∀ regionSet ∈ regionSets, db.Usable regionSet
  · have hreturns := @getWorkersForSpecs_of_usable db requirements regionSets hnames husable
    have hsome : ¬ ∃ regionSet ∈ regionSets, regionSet ≠ [] ∧ db.enabledOf regionSet = [] := by
      rintro ⟨regionSet, hmem, hne, hnone⟩
      exact husable regionSet hmem hne hnone
    rw [or_iff_right hsome]
    constructor
    · intro h service hcandidate hmapped
      exact ((hreturns.unique h service).mp ⟨hcandidate, hmapped⟩).mapped
    · intro h
      refine hreturns.congr fun service => ⟨fun heligible => ?_, Suitable.eligible⟩
      exact ⟨heligible.toCandidate, h service heligible.toCandidate heligible.mapped⟩
  · obtain ⟨e, he⟩ := @getWorkersForSpecs_of_not_usable db requirements regionSets hnames husable
    refine iff_of_true ?_ (.inl ?_)
    · rw [he]
      exact fun service => not_suitable_of_not_usable husable
    · simpa [Database.Usable] using husable

end

/-- Two regions of a set, of which the second one is disabled, and a worker mapped to some. -/
private def twoRegions (mapped : List Region) : Database where
  regions := [⟨"north", true⟩, ⟨"south", false⟩]
  services := [⟨"w", some "coriolis_worker", true, mapped, fun _ => none⟩]

lemma names_twoRegions (mapped : List Region) :
    ∀ regionSet ∈ [["north", "south"]], (twoRegions mapped).Names regionSet := by
  simp [Database.Names, twoRegions]

theorem worker_of_enabled_region :
    ReturnsExactly
      (getWorkersForSpecs (twoRegions [⟨"north", true⟩]) ∅ [["north", "south"]] (some true) true)
      (Suitable (twoRegions [⟨"north", true⟩]) ∅ [["north", "south"]]) := by
  refine (returnsExactly_suitable_iff (names_twoRegions _)).mpr (.inr ?_)
  rintro service ⟨hmem, -, -, -⟩ - regionSet hset -
  obtain rfl := List.mem_singleton.mp hmem
  obtain rfl := List.mem_singleton.mp hset
  exact ⟨"north", by decide, by decide⟩

/-- A worker that is only mapped to a disabled region is returned. -/
theorem worker_of_disabled_region :
    (∀ regionSet ∈ [["north", "south"]], (twoRegions [⟨"south", false⟩]).Names regionSet) ∧
    getWorkersForSpecs (twoRegions [⟨"south", false⟩]) ∅ [["north", "south"]] (some true) true =
      .ok (twoRegions [⟨"south", false⟩]).services ∧
    ∀ service ∈ (twoRegions [⟨"south", false⟩]).services,
      ¬ Suitable (twoRegions [⟨"south", false⟩]) ∅ [["north", "south"]] service := by
  refine ⟨names_twoRegions _, rfl, ?_⟩
  intro service hmem hsuitable
  obtain rfl := List.mem_singleton.mp hmem
  obtain ⟨id, hid, hmapped⟩ := hsuitable.mapped ["north", "south"] (by simp) (by simp)
  have henabled : (twoRegions [⟨"south", false⟩]).enabledOf ["north", "south"] = ["north"] := by
    decide
  obtain rfl := List.mem_singleton.mp (henabled ▸ hid)
  simp at hmapped

end Coriolis.Scheduler

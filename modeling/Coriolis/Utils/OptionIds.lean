import Coriolis.Library.Grouping

/-!
# Identifiers of resources

A resource is identified by its name if no other one has it, and by its id otherwise. The name may be
the id of another resource.
-/

namespace Coriolis.Utils

structure Resource (ι : Type) where
  id : ι
  name : ι

variable {ι : Type} [DecidableEq ι]

def identifiers (resources : List (Resource ι)) : List ι :=
  (Grouping.group Resource.name resources).flatMap fun g =>
    if g.2.length = 1 then [g.1] else g.2.map Resource.id

/-- A dictionary with the values of the two keys. -/
def Resource.ofKeys : Option ι × Option ι → Option (Resource ι)
  | (some id, some name) => some ⟨id, name⟩
  | _ => none

/-- `get_unique_option_ids`, which raises if a key is missing. -/
def getUniqueOptionIds (resources : List (Option ι × Option ι)) : Option (List ι) :=
  (resources.mapM Resource.ofKeys).map identifiers

def Resource.isUnique (resources : List (Resource ι)) (r : Resource ι) : Bool :=
  (resources.filter (·.name = r.name)).length = 1

def Resource.identifier (resources : List (Resource ι)) (r : Resource ι) : ι :=
  if r.isUnique resources then r.name else r.id

variable {resources : List (Resource ι)}

lemma identifiers_perm :
    (identifiers resources).Perm (resources.map (Resource.identifier resources)) := by
  have hgroups : identifiers resources = ((Grouping.group Resource.name resources).flatMap
      Prod.snd).map (Resource.identifier resources) := by
    rw [identifiers, List.map_flatMap]
    refine List.flatMap_congr fun g hg => ?_
    have hfilter := Grouping.grouped_group.filter g hg
    have hname : ∀ r ∈ g.2, r.name = g.1 := by
      rw [hfilter]
      simp
    have hunique : ∀ r ∈ g.2, r.isUnique resources = decide (g.2.length = 1) := by
      intro r hr
      rw [Resource.isUnique, hname r hr, hfilter]
    by_cases hone : g.2.length = 1
    · obtain ⟨r, hr⟩ := List.length_eq_one_iff.mp hone
      have hmem : r ∈ g.2 := by simp [hr]
      simp [hr, Resource.identifier, hunique r hmem, hname r hmem]
    · rw [if_neg hone]
      exact List.map_congr_left fun r hr => by simp [Resource.identifier, hunique r hr, hone]
  rw [hgroups]
  exact Grouping.flatMap_group.map _

lemma eq_of_isUnique {r r' : Resource ι} (hr : r ∈ resources) (hr' : r' ∈ resources)
    (hunique : r.isUnique resources = true) (hname : r'.name = r.name) : r = r' := by
  obtain ⟨a, ha⟩ := List.length_eq_one_iff.mp (of_decide_eq_true hunique)
  have hmem : ∀ x ∈ resources, x.name = r.name → x = a := by
    intro x hx hname
    have hx : x ∈ resources.filter (·.name = r.name) := by simp [hx, hname]
    simpa [ha] using hx
  rw [hmem r hr rfl, hmem r' hr' hname]

lemma getUniqueOptionIds_eq :
    getUniqueOptionIds (resources.map fun r => (some r.id, some r.name)) =
      some (identifiers resources) := by
  have hall : (resources.map fun r => (some r.id, some r.name)).mapM Resource.ofKeys =
      some resources := by
    induction resources with
    | nil => rfl
    | cons r resources ih => simp [Resource.ofKeys, ih]
  rw [getUniqueOptionIds, hall, Option.map_some]

/-- Of resources with different ids there is one identifier each, and no two are the same exactly if
no name that only one resource has is the id of a resource whose name is shared. -/
theorem getUniqueOptionIds_nodup_iff (resources : List (Resource ι))
    (hids : (resources.map Resource.id).Nodup) :
    (∃ ids, getUniqueOptionIds (resources.map fun r => (some r.id, some r.name)) = some ids ∧
      ids.length = resources.length ∧ ids.Nodup) ↔
    ∀ r ∈ resources, ∀ r' ∈ resources, r.isUnique resources = true → r.name = r'.id →
      r'.isUnique resources = true := by
  have hperm := @identifiers_perm _ _ resources
  rw [getUniqueOptionIds_eq]
  simp only [Option.some.injEq, exists_eq_left', hperm.length_eq, hperm.nodup_iff, List.length_map,
    true_and]
  rw [List.nodup_map_iff_inj_on (hids.of_map _)]
  constructor
  · intro hinj r hr r' hr' hunique hname
    by_contra hshared
    have heq := hinj r hr r' hr' (by simp [Resource.identifier, hunique, hshared, hname])
    exact hshared (heq ▸ hunique)
  · intro hcond r hr r' hr' heq
    by_cases hunique : r.isUnique resources <;> by_cases hunique' : r'.isUnique resources <;>
      simp only [Resource.identifier, hunique, hunique', if_true] at heq
    · exact eq_of_isUnique hr hr' hunique heq.symm
    · exact absurd (hcond r hr r' hr' hunique heq) hunique'
    · exact absurd (hcond r' hr' r hr hunique' heq.symm) hunique
    · exact List.inj_on_of_nodup_map hids hr hr' heq

/-- Two resources share a name. -/
theorem getUniqueOptionIds_nodup_lan :
    ∃ ids, getUniqueOptionIds [(some "1", some "lan"), (some "2", some "wan"),
      (some "3", some "lan")] = some ids ∧ ids.length = 3 ∧ ids.Nodup :=
  (getUniqueOptionIds_nodup_iff [⟨"1", "lan"⟩, ⟨"2", "wan"⟩, ⟨"3", "lan"⟩] (by decide)).mpr
    (by decide)

/-- The third resource has the id of the first one as its name. -/
theorem identifier_twice :
    ["1", "2", "3"].Nodup ∧
      getUniqueOptionIds [(some "1", some "net"), (some "2", some "net"), (some "3", some "1")] =
        some ["1", "2", "1"] ∧ ¬ ["1", "2", "1"].Nodup := by
  decide

end Coriolis.Utils

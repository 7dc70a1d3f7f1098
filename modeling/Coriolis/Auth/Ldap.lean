import Coriolis.Auth.Token
import Coriolis.Library.Dict
import Coriolis.Library.Strings
import Mathlib.Data.List.Dedup

/-!
# Roles of directory users

The groups of a directory user are mapped to roles by `role_mapping`, a dictionary or one string
of `group:role` entries. The documentation writes groups as full DNs, which have commas, and a
comma also separates the entries of the string. A mapped group that occurs anywhere in the text
of a user's group matches it.
-/

namespace Coriolis.Auth

open Strings (strip)

/-- The option `role_mapping`. -/
inductive RoleMapping where
  | dict (entries : List (Text × Text))
  | str (text : Text)

structure LdapAuthBackend where
  roleMapping : RoleMapping
  defaultRole : Text
  /-- Python's `str.lower`. -/
  lower : Text → Text

/-- An entry of the string form, split at its first colon. Other pieces are skipped. -/
def parseEntry (entry : Text) : Option (Text × Text) :=
  if ':' ∈ entry then
    some (strip (entry.takeWhile (· ≠ ':')), strip ((entry.dropWhile (· ≠ ':')).drop 1))
  else none

/-- The mapping that `_map_roles` works with. -/
def RoleMapping.mapping : RoleMapping → List (Text × Text)
  | .dict entries => entries
  | .str text => Dict.entries ((text.splitOn ',').filterMap parseEntry)

namespace LdapAuthBackend

variable (backend : LdapAuthBackend)

/-- The test of `_map_roles`. -/
def matchesGroup (mappedGroup group : Text) : Prop :=
  backend.lower mappedGroup = backend.lower (strip group) ∨
    backend.lower mappedGroup <:+: backend.lower (strip group)

instance (mappedGroup group : Text) : Decidable (backend.matchesGroup mappedGroup group) :=
  inferInstanceAs (Decidable (_ ∨ _))

def fallbackRole : Text := if backend.defaultRole = [] then "viewer".toList else backend.defaultRole

/-- `LdapAuthBackend._map_roles`. The result is a set in the source. -/
def mapRoles (userGroups : List Text) : List Text :=
  let roles := (userGroups.flatMap fun group =>
    (backend.roleMapping.mapping.filter (backend.matchesGroup ·.1 group)).map (·.2)).dedup
  if roles = [] then [backend.fallbackRole] else roles

/-- An attribute of an entry of the directory. -/
inductive Attribute where
  | text (value : String)
  | values (values : List String)

structure LdapEntry where
  dn : Text
  groups : Option Attribute
  displayName : Option Attribute

/-- The directory as the backend asks it. A search or a bind that raises is one without success. -/
structure Directory where
  available : Bool
  /-- The first entry that is found for a user name. -/
  search : String → Option LdapEntry
  bind : Text → Text → Bool

def LdapEntry.rawGroups (entry : LdapEntry) : List Text :=
  match entry.groups with
  | none => []
  | some (.text group) => [group.toList]
  | some (.values groups) => groups.map String.toList

def LdapEntry.nameOf (entry : LdapEntry) (username : String) : String :=
  match entry.displayName with
  | some (.values (name :: _)) => name
  | some (.text name) => if name = "" then username else name
  | _ => username

/-- `LdapAuthBackend.authenticate`: the name and the roles of the user. -/
def authenticate (dir : Directory) (username : String) (password : Text) :
    Option (String × List String) :=
  if dir.available = false ∨ username = "" ∨ password = [] then none
  else
    match dir.search username with
    | none => none
    | some entry =>
      if entry.dn ≠ [] ∧ dir.bind entry.dn password then
        some (entry.nameOf username, (backend.mapRoles entry.rawGroups).map String.ofList)
      else none

/-- The code grants a role: a group that it is mapped to occurs in one of the user's. -/
def Grants (userGroups : List Text) (role : Text) : Prop :=
  ∃ mappedGroup, (mappedGroup, role) ∈ backend.roleMapping.mapping ∧
    ∃ group ∈ userGroups, backend.matchesGroup mappedGroup group

def OrFallback (roles : Text → Prop) (role : Text) : Prop :=
  roles role ∨ (∀ other, ¬ roles other) ∧ role = backend.fallbackRole

variable {backend} {userGroups : List Text} {role : Text}

lemma mem_mapRoles : role ∈ backend.mapRoles userGroups ↔
    backend.OrFallback (backend.Grants userGroups) role := by
  have hroles (r : Text) : r ∈ (userGroups.flatMap fun group =>
      (backend.roleMapping.mapping.filter (backend.matchesGroup ·.1 group)).map (·.2)).dedup ↔
      backend.Grants userGroups r := by
    simp only [Grants, List.mem_dedup, List.mem_flatMap, List.mem_map, List.mem_filter, Prod.exists,
      decide_eq_true_eq, exists_eq_right]
    exact ⟨fun ⟨u, hu, g, hg, hm⟩ => ⟨g, hg, u, hu, hm⟩, fun ⟨g, hg, u, hu, hm⟩ => ⟨u, hu, g, hg, hm⟩⟩
  simp only [mapRoles, OrFallback, ← hroles, ← List.eq_nil_iff_forall_not_mem]
  split <;> simp [*]

/-! ## The documented mapping -/

/-- The value of the first attribute of a DN, up to a comma that is not escaped. -/
def firstValue : Text → Text
  | [] => []
  | [c] => if c = ',' then [] else [c]
  | c :: d :: rest =>
    if c = ',' then [] else if c = '\\' then d :: firstValue rest else c :: firstValue (d :: rest)

def commonName (dn : Text) : Option Text :=
  if (dn.take 3).map Char.toLower = "cn=".toList then some (firstValue (dn.drop 3)) else none

def givenAs (asText : Bool) (entries : List (Text × Text)) : RoleMapping :=
  if asText then .str ([','].intercalate (entries.map fun (group, role) => group ++ ':' :: role))
  else .dict entries

/-- One of the user's groups is the mapped one, by its DN or by its CN. -/
def Member (lower : Text → Text) (userGroups : List Text) (mappedGroup : Text) : Prop :=
  ∃ group ∈ userGroups, lower mappedGroup = lower (strip group) ∨
    ∃ cn ∈ commonName (strip group), lower mappedGroup = lower cn

/-- The entries map a group of the user to a role. -/
def Documented (lower : Text → Text) (entries : List (Text × Text)) (userGroups : List Text)
    (role : Text) : Prop :=
  ∃ mappedGroup, (mappedGroup, role) ∈ entries ∧ Member lower userGroups mappedGroup

/-- The documented form of the entries. A dictionary has each group once. -/
def WellFormed (asText : Bool) (entries : List (Text × Text)) : Prop :=
  if asText then ∀ p ∈ entries, ':' ∉ p.1 ∧ ',' ∉ p.2 ∧ strip p.2 = p.2
  else (entries.map (·.1)).Nodup

def lastPiece (text : Text) : Text := (text.splitOn ',').getLast (List.splitOn_ne_nil _ _)

/-- What is left of a group: of one in a string, the piece after its last comma. -/
def readGroup (asText : Bool) (group : Text) : Text :=
  if asText then strip (lastPiece group) else group

/-- The text occurs in that of one of the user's groups. -/
def Occurs (lower : Text → Text) (userGroups : List Text) (text : Text) : Prop :=
  ∃ group ∈ userGroups, lower text <:+: lower (strip group)

/-- A later entry with the same rest of a group has another role. -/
def Overwritten (asText : Bool) (entries : List (Text × Text)) (i : Nat) (group role : Text) : Prop :=
  ∃ (j : Nat) (q : Text × Text), i < j ∧ entries[j]? = some q ∧
    readGroup asText q.1 = readGroup asText group ∧ q.2 ≠ role

/-- The groups of the entries that are not overwritten occur in those of the user only as their
DNs and CNs, and no overwritten one is a group of the user. -/
def Unmistakable (lower : Text → Text) (asText : Bool) (entries : List (Text × Text))
    (userGroups : List Text) : Prop :=
  ∀ (i : Nat) (group role : Text), entries[i]? = some (group, role) →
    (Member lower userGroups group ↔
      Occurs lower userGroups (readGroup asText group) ∧ ¬ Overwritten asText entries i group role)

variable {asText : Bool} {entries : List (Text × Text)} {lower : Text → Text} {defaultRole : Text}

lemma parseEntry_pieces (hgroup : ':' ∉ group) (hrole : ',' ∉ role) :
    ((group ++ ':' :: role).splitOn ',').filterMap parseEntry =
      [(strip (lastPiece group), strip role)] := by
  induction h : group.length using Nat.strongRecOn generalizing group with
  | _ n ih =>
    by_cases hcomma : ',' ∈ group
    · -- the piece before the first comma has no colon and is skipped
      obtain ⟨first, rest, rfl, hfirst⟩ := List.eq_append_cons_of_mem hcomma
      have hnone : parseEntry first = none := by simp_all [parseEntry]
      have hlast : lastPiece (first ++ ',' :: rest) = lastPiece rest := by
        simp only [lastPiece, List.splitOn_append_cons_self_of_not_mem hfirst]
        exact List.getLast_cons _
      rw [List.append_assoc, List.cons_append, List.splitOn_append_cons_self_of_not_mem hfirst,
        List.filterMap_cons_none hnone, hlast]
      exact ih rest.length (by simp at h; omega) (by simp_all) rfl
    · have hentry : ',' ∉ group ++ ':' :: role := by simp [hcomma, hrole]
      have hcolon : ∀ c ∈ group, (!decide (c = ':')) = true := by
        intro c hc
        simpa using ne_of_mem_of_not_mem hc hgroup
      simp [List.splitOn_eq_singleton hentry, parseEntry, lastPiece, List.splitOn_eq_singleton hcomma,
        List.takeWhile_append_of_pos hcolon, List.dropWhile_append_of_pos hcolon]

lemma pieces_givenAs (hform : ∀ p ∈ entries, ':' ∉ p.1 ∧ ',' ∉ p.2 ∧ strip p.2 = p.2) :
    (([','].intercalate (entries.map fun (group, role) => group ++ ':' :: role)).splitOn ',').filterMap
      parseEntry = entries.map fun p => (readGroup true p.1, p.2) := by
  induction entries with
  | nil => rfl
  | cons p entries ih =>
    obtain ⟨⟨hgroup, hrole, hstrip⟩, hrest⟩ := List.forall_mem_cons.mp hform
    cases entries with
    | nil => simpa [readGroup, hstrip] using parseEntry_pieces hgroup hrole
    | cons q entries =>
      have hjoin : ∀ a b (l : List Text),
          [','].intercalate (a :: b :: l) = a ++ ',' :: [','].intercalate (b :: l) := by
        simp [List.intercalate]
      rw [List.map_cons, List.map_cons, hjoin, List.splitOn_append_cons_self,
        List.filterMap_append, parseEntry_pieces hgroup hrole, hstrip]
      exact congrArg _ (ih hrest)

lemma mem_mapping (hform : WellFormed asText entries) :
    (text, role) ∈ (givenAs asText entries).mapping ↔
      Dict.ofPairs (entries.map fun p => (readGroup asText p.1, p.2)) text = some role := by
  cases asText with
  | false => simpa [readGroup, givenAs, RoleMapping.mapping] using (Dict.ofPairs_eq_some_iff hform).symm
  | true =>
    rw [← pieces_givenAs hform]
    exact Dict.mem_entries_iff

/-- A role is granted by an entry that is not overwritten, if what is left of its group occurs in
one of the user's. -/
lemma grants_iff (hform : WellFormed asText entries) :
    (⟨givenAs asText entries, defaultRole, lower⟩ : LdapAuthBackend).Grants userGroups role ↔
      ∃ (i : Nat) (group : Text), entries[i]? = some (group, role) ∧
        Occurs lower userGroups (readGroup asText group) ∧
          ¬ Overwritten asText entries i group role := by
  have hmatch (text group : Text) :
      (⟨givenAs asText entries, defaultRole, lower⟩ : LdapAuthBackend).matchesGroup text group ↔
        lower text <:+: lower (strip group) :=
    or_iff_right_of_imp fun h => (show lower text = _ from h) ▸ List.infix_refl _
  simp only [Grants, mem_mapping hform, hmatch, Dict.ofPairs_eq_some_iff_last]
  constructor
  · rintro ⟨text, ⟨i, hi, hlast⟩, hoccurs⟩
    rw [List.getElem?_map, Option.map_eq_some_iff] at hi
    obtain ⟨⟨group, _⟩, hi, heq⟩ := hi
    obtain ⟨rfl, rfl⟩ := Prod.mk.inj heq
    refine ⟨i, group, hi, hoccurs, ?_⟩
    rintro ⟨j, q, hj, hq, hread, hne⟩
    exact hne (hlast j (readGroup asText q.1, q.2) hj (by simp [hq]) hread)
  · rintro ⟨i, group, hi, hoccurs, hkept⟩
    refine ⟨_, ⟨i, by simp [hi], fun j q hj hq hread => ?_⟩, hoccurs⟩
    rw [List.getElem?_map, Option.map_eq_some_iff] at hq
    obtain ⟨q, hq, rfl⟩ := hq
    by_contra hne
    exact hkept ⟨j, q, hj, hq, hread, hne⟩

lemma documented_iff : Documented lower entries userGroups role ↔
    ∃ (i : Nat) (group : Text), entries[i]? = some (group, role) ∧ Member lower userGroups group := by
  simp only [Documented, List.mem_iff_getElem?]
  exact ⟨fun ⟨g, ⟨i, hi⟩, h⟩ => ⟨i, g, hi, h⟩, fun ⟨i, g, hi, h⟩ => ⟨g, ⟨i, hi⟩, h⟩⟩

lemma orFallback_of_ne (h : role ≠ backend.fallbackRole) : backend.OrFallback P role ↔ P role := by
  simp [OrFallback, h]

end LdapAuthBackend

end Coriolis.Auth

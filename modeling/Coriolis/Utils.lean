import Coriolis.Library.Json
import Coriolis.Library.Raising
import Mathlib.Logic.Relation

/-!
# Task infos in logs

`sanitize_task_info` copies a task info without the connection infos of the origin and the
destination and without the chunks of the volumes. The tasks also store connection infos under
keys of the task info itself, and these are copied.
-/

namespace Coriolis.Utils

def overwrite (key : String) (value : Json) (fields : List (String × Json)) :
    List (String × Json) :=
  fields.map fun e => if e.1 = key then (e.1, value) else e

def redactConnectionInfo : Json → Json
  | .obj fields => .obj (overwrite "connection_info" (.obj [("got", .str "redacted")]) fields)
  | v => v

/-- A key of a dictionary as a text. An index of a list is the number it stands for. -/
def keyText : Json → String
  | .str s => s
  | .int n => toString n
  | .bool b => toString b.toNat
  | _ => ""

/-- The copy that a loop over the keys of a value makes. -/
def copyKeys (copy : Json → Except String Json → Except String Json) (v : Json) :
    Except String Json :=
  v.keyed >>= fun entries =>
    (entries.mapM fun e => (copy e.1 e.2).map (keyText e.1, ·)).map .obj

def copyReplicaState : Json → Except String Json :=
  copyKeys fun statekey value =>
    match statekey with
    | .str "chunks" => .ok (.arr [.str "<redacted>"])
    | _ => value

def copyVolume : Json → Except String Json :=
  copyKeys fun key value =>
    match key with
    | .str "replica_state" => value >>= copyReplicaState
    | _ => value

def copyVolumes (vols : Json) : Except String Json :=
  vols.keyed >>= fun entries => (entries.mapM (copyVolume ·.1)).map .arr

def specialKeys : List String := ["volumes_info", "origin", "destination"]

/-- The copies of the special entries. -/
def specialEntries (info : List (String × Json)) : Except String (List (String × Json)) :=
  let sections := ["origin", "destination"].filterMap fun key =>
    ((Json.field? key info).map redactConnectionInfo).map (key, ·)
  match (Json.field? "volumes_info" info).map copyVolumes with
  | none => .ok sections
  | some vols => vols.map fun vols => sections ++ [("volumes_info", vols)]

/-- `sanitize_task_info`. -/
def sanitizeTaskInfo (info : List (String × Json)) : Except String (List (String × Json)) :=
  (specialEntries info).map (info.filter (·.1 ∉ specialKeys) ++ ·)

/-- The places that `sanitize_task_info` hides. -/
inductive Hidden : List Json.Step → Prop
  | connection {key} : key ∈ ["origin", "destination"] → Hidden [.key key, .key "connection_info"]
  | chunks (i) : Hidden [.key "volumes_info", .index i, .key "replica_state", .key "chunks"]

def endsInConnectionInfo (key : String) : Bool := "connection_info".toList.isSuffixOf key.toList

/-- The places of credentials, and of the chunks. -/
inductive Credential : List Json.Step → Prop
  | hidden {path} : Hidden path → Credential path
  | key {k} : endsInConnectionInfo k = true → Credential [.key k]

/-! Volumes of a form that is copied as it is. What is empty is copied as an empty dictionary, which
has as little in it. -/

def properState : Json → Bool
  | .obj _ => true
  | v => v.isVoid

def properVolume : Json → Bool
  | .obj vol => (Json.field? "replica_state" vol).all properState
  | v => v.isVoid

def properVolumes : Json → Bool
  | .arr vols => vols.all properVolume
  | v => v.isVoid

def Differ (info info' : List (String × Json)) : Prop :=
  ∃ path, Credential path ∧ Json.ReplacedAt path (.obj info) (.obj info')

variable {info info' new before after : List (String × Json)} {key : String} {v w w' : Json}

lemma map_field?_replace (h : k = key → g v = g w) :
    (Json.field? key (before ++ (k, v) :: after)).map g =
      (Json.field? key (before ++ (k, w) :: after)).map g := by
  rw [Json.field?_append, Json.field?_append, Json.field?_cons, Json.field?_cons]
  by_cases hk : k = key
  · cases Json.field? key before <;> simp [hk, h hk]
  · simp [hk]

lemma specialEntries_replace
    (hsection : key ∈ ["origin", "destination"] → redactConnectionInfo v = redactConnectionInfo w)
    (hvols : key = "volumes_info" → copyVolumes v = copyVolumes w) :
    specialEntries (before ++ (key, v) :: after) = specialEntries (before ++ (key, w) :: after) := by
  have hsections (k : String) (hk : k ∈ ["origin", "destination"]) :
      (Json.field? k (before ++ (key, v) :: after)).map redactConnectionInfo =
        (Json.field? k (before ++ (key, w) :: after)).map redactConnectionInfo :=
    map_field?_replace fun h => hsection (h ▸ hk)
  rw [specialEntries, specialEntries, map_field?_replace hvols,
    List.filterMap_congr fun k hk => by rw [hsections k hk]]

lemma sanitize_replace (hkey : key ∈ specialKeys)
    (hsection : key ∈ ["origin", "destination"] → redactConnectionInfo v = redactConnectionInfo w)
    (hvols : key = "volumes_info" → copyVolumes v = copyVolumes w) :
    sanitizeTaskInfo (before ++ (key, v) :: after) =
      sanitizeTaskInfo (before ++ (key, w) :: after) := by
  rw [sanitizeTaskInfo, specialEntries_replace hsection hvols, sanitizeTaskInfo]
  simp [hkey]

variable {copy : Json → Except String Json → Except String Json}

lemma copyKeys_obj (fields : List (String × Json)) : copyKeys copy (.obj fields) =
    ((fields.map (·.1)).mapM fun k => (copy (.str k) (Json.value fields k)).map (k, ·)).map .obj := by
  change Except.map Json.obj ((fields.map fun e => (Json.str e.1, Json.value fields e.1)).mapM
    fun e => (copy e.1 e.2).map (keyText e.1, ·)) = _
  rw [List.mapM_map, List.mapM_map]
  rfl

lemma copy_value (copy : Json → Except String Json → Except String Json) (k : String)
    (fields : List (String × Json)) : copy (.str k) (Json.value fields k) =
    ((Json.field? k fields).map fun v => copy (.str k) (.ok v)).getD
      (copy (.str k) (.error "KeyError")) := by
  rw [Json.value]
  cases Json.field? k fields <;> rfl

lemma copyKeys_replace (h : copy (.str key) (.ok v) = copy (.str key) (.ok w)) :
    copyKeys copy (.obj (before ++ (key, v) :: after)) =
      copyKeys copy (.obj (before ++ (key, w) :: after)) := by
  have hvalue (k : String) : copy (.str k) (Json.value (before ++ (key, v) :: after) k) =
      copy (.str k) (Json.value (before ++ (key, w) :: after) k) := by
    rw [copy_value copy, copy_value copy, map_field?_replace (by rintro rfl; exact h)]
  simp only [copyKeys_obj, hvalue, List.map_append, List.map_cons]

lemma copyReplicaState_replace (before after : List (String × Json)) (v w : Json) :
    copyReplicaState (.obj (before ++ ("chunks", v) :: after)) =
      copyReplicaState (.obj (before ++ ("chunks", w) :: after)) :=
  copyKeys_replace rfl

lemma copyVolume_replace (h : copyReplicaState v = copyReplicaState w) :
    copyVolume (.obj (before ++ ("replica_state", v) :: after)) =
      copyVolume (.obj (before ++ ("replica_state", w) :: after)) :=
  copyKeys_replace h

lemma copyVolumes_arr (vols : List Json) :
    copyVolumes (.arr vols) = (vols.mapM copyVolume).map .arr := by
  change Except.map Json.arr ((vols.map fun i => (i, Json.item vols i)).mapM (copyVolume ·.1)) = _
  rw [List.mapM_map]
  rfl

lemma sanitize_of_hidden (hpath : Hidden path) (h : Json.ReplacedAt path (.obj info) (.obj info')) :
    sanitizeTaskInfo info' = sanitizeTaskInfo info := by
  cases hpath with
  | connection hkey =>
    obtain _ | ⟨before, after, h⟩ := h
    obtain _ | ⟨fields, fields', h⟩ := h
    refine sanitize_replace (List.mem_cons_of_mem _ hkey) (fun _ => ?_) (fun hvols => ?_)
    · simp [redactConnectionInfo, overwrite]
    · simp [hvols] at hkey
  | chunks i =>
    obtain _ | ⟨before, after, h⟩ := h
    obtain _ | _ | ⟨vols, vols', h⟩ := h
    obtain _ | ⟨vol, vol', h⟩ := h
    obtain _ | ⟨state, state', h⟩ := h
    refine sanitize_replace List.mem_cons_self (by simp) fun _ => ?_
    rw [copyVolumes_arr, copyVolumes_arr, List.mapM_append, List.mapM_append, List.mapM_cons,
      List.mapM_cons, copyVolume_replace (copyReplicaState_replace _ _ _ _)]

lemma not_special (h : endsInConnectionInfo key = true) : key ∉ specialKeys := by
  rintro hkey
  simp only [specialKeys, List.mem_cons, List.not_mem_nil, or_false] at hkey
  rcases hkey with rfl | rfl | rfl <;> revert h <;> decide

lemma sanitize_of_key (hkey : key ∉ specialKeys) :
    sanitizeTaskInfo (before ++ (key, v) :: after) =
      (specialEntries (before ++ (key, w) :: after)).map (before.filter (·.1 ∉ specialKeys) ++
        (key, v) :: after.filter (·.1 ∉ specialKeys) ++ ·) := by
  have hsections : key ∉ ["origin", "destination"] := fun h => hkey (List.mem_cons_of_mem _ h)
  have hvols : key ≠ "volumes_info" := fun h => hkey (by simp [h, specialKeys])
  rw [sanitizeTaskInfo, specialEntries_replace (w := w) (absurd · hsections) (absurd · hvols)]
  simp [hkey]

/-! ## What is copied -/

section

variable {hidden : List Json.Step → Prop}

lemma off_overwrite (h : hidden [.key key]) (fields : List (String × Json)) :
    Json.Off hidden (.obj fields) (.obj (overwrite key v fields)) := by
  refine .obj ⟨_, h⟩ (Json.rel_field? (List.forall₂_map_right_iff.mpr
    (List.forall₂_same.mpr fun e _ => ?_)))
  by_cases he : e.1 = key
  · rw [if_pos he]
    exact ⟨rfl, .of_nil (he ▸ h) _ _⟩
  · rw [if_neg he]
    exact ⟨rfl, .refl _ _⟩

lemma off_redactConnectionInfo (hh : hidden [.key "connection_info"]) (v : Json) :
    Json.Off hidden v (redactConnectionInfo v) := by
  cases v with
  | obj fields => exact off_overwrite hh fields
  | _ => exact .refl _ _

lemma rel_of_copyKeys (h : copyKeys copy (.obj fields) = .ok w) : ∃ fields', w = .obj fields' ∧
    ∀ k, Option.Rel (fun v w => copy (.str k) (.ok v) = .ok w)
      (Json.field? k fields) (Json.field? k fields') := by
  rw [copyKeys_obj, List.mapM_map] at h
  obtain ⟨fields', hfields, rfl⟩ := Raising.map_eq_ok h
  refine ⟨fields', rfl, fun k => ?_⟩
  have hrel := Json.rel_field? (R := fun k _ w => copy (.str k) (Json.value fields k) = .ok w)
    ((Raising.forall₂_of_mapM hfields).imp fun e e' he => by
      obtain ⟨w, hw, rfl⟩ := Raising.map_eq_ok he
      exact ⟨rfl, hw⟩) k
  rw [Json.value] at hrel
  generalize Json.field? k fields = v, Json.field? k fields' = w at hrel ⊢
  cases hrel with
  | none => exact .none
  | some h => exact .some h

lemma copyKeys_of_void (h : v.isVoid) : copyKeys copy v = .ok (.obj []) := by
  cases v with
  | arr items => rw [List.isEmpty_iff.mp h]; rfl
  | obj fields => rw [List.isEmpty_iff.mp h]; rfl
  | str s => rw [String.isEmpty_iff.mp h]; rfl
  | _ => cases h

/-- A dictionary is copied if each of its entries is. -/
lemma copyKeys_off (hsome : ∃ h, hidden h) (h : ∀ k v, Json.field? k fields = some v →
      ∃ w, copy (.str k) (.ok v) = .ok w ∧ Json.Off (fun path => hidden (.key k :: path)) v w) :
    ∃ w, copyKeys copy (.obj fields) = .ok w ∧ Json.Off hidden (.obj fields) w := by
  obtain ⟨entries, hentries⟩ : ∃ entries, ((fields.map (·.1)).mapM fun k =>
      (copy (.str k) (Json.value fields k)).map (k, ·)) = .ok entries := by
    refine Raising.mapM_eq_ok fun k hk => ?_
    cases hv : Json.field? k fields with
    | none =>
      obtain ⟨e, he, rfl⟩ := List.mem_map.mp hk
      exact absurd hv (by simpa [Json.field?] using ⟨e.2, he⟩)
    | some v =>
      obtain ⟨w, hw, -⟩ := h k v hv
      exact ⟨(k, w), by simp [Json.value, hv, hw, Except.map]⟩
  have hok : copyKeys copy (.obj fields) = .ok (.obj entries) := by
    rw [copyKeys_obj, hentries]
    rfl
  obtain ⟨_, heq, hrel⟩ := rel_of_copyKeys hok
  obtain rfl := Json.obj.inj heq
  refine ⟨_, hok, .obj hsome fun k => ?_⟩
  have hrel := hrel k
  have h := h k
  generalize Json.field? k fields = v, Json.field? k entries = w at hrel h ⊢
  cases hrel with
  | none => exact .none
  | some hw =>
    obtain ⟨w, hw', hoff⟩ := h _ rfl
    rw [hw] at hw'
    exact .some (Except.ok.inj hw' ▸ hoff)

lemma copyReplicaState_off (hh : hidden [.key "chunks"]) (h : properState v) :
    ∃ w, copyReplicaState v = .ok w ∧ Json.Off hidden v w := by
  cases v with
  | obj state =>
    refine copyKeys_off ⟨_, hh⟩ fun k v _ => ?_
    split
    · next hk =>
      obtain rfl := Json.str.inj hk
      exact ⟨_, rfl, .of_nil hh _ _⟩
    · exact ⟨v, rfl, .refl _ _⟩
  | _ => exact ⟨_, copyKeys_of_void h, .void ⟨_, hh⟩ h rfl⟩

lemma copyVolume_off (hh : hidden [.key "replica_state", .key "chunks"]) (h : properVolume v) :
    ∃ w, copyVolume v = .ok w ∧ Json.Off hidden v w := by
  cases v with
  | obj vol =>
    refine copyKeys_off ⟨_, hh⟩ fun k v hv => ?_
    split
    · next hk =>
      obtain rfl := Json.str.inj hk
      rw [properVolume, hv] at h
      exact copyReplicaState_off hh h
    · exact ⟨v, rfl, .refl _ _⟩
  | _ => exact ⟨_, copyKeys_of_void h, .void ⟨_, hh⟩ h rfl⟩

lemma copyVolumes_off (hh : ∀ i, hidden [.index i, .key "replica_state", .key "chunks"])
    (h : properVolumes v) : ∃ w, copyVolumes v = .ok w ∧ Json.Off hidden v w := by
  cases v with
  | arr vols =>
    have h : ∀ vol ∈ vols, properVolume vol := by simpa [properVolumes] using h
    have hoff (i : Nat) (vol : Json) (hvol : vol ∈ vols) : ∃ w, copyVolume vol = .ok w ∧
        Json.Off (fun path => hidden (.index i :: path)) vol w :=
      copyVolume_off (hh i) (h vol hvol)
    obtain ⟨vols', hvols⟩ := Raising.mapM_eq_ok fun vol hvol =>
      (hoff 0 vol hvol).imp fun _ => And.left
    refine ⟨.arr vols', by rw [copyVolumes_arr, hvols]; rfl, .arr ⟨_, hh 0⟩ ?_⟩
    refine ((List.forall₂_and_left _ _).mpr
      ⟨fun _ h => h, Raising.forall₂_of_mapM hvols⟩).imp fun vol w hw i => ?_
    obtain ⟨w', hw', hoff⟩ := hoff i vol hw.1
    rw [hw.2] at hw'
    exact Except.ok.inj hw' ▸ hoff
  | obj fields =>
    obtain rfl := List.isEmpty_iff.mp h
    exact ⟨.arr [], rfl, .void ⟨_, hh 0⟩ h rfl⟩
  | str s =>
    obtain rfl := String.isEmpty_iff.mp h
    exact ⟨.arr [], rfl, .void ⟨_, hh 0⟩ h rfl⟩
  | _ => cases h

end

lemma field?_filter {p : String → Bool} (info : List (String × Json)) :
    Json.field? k (info.filter (p ·.1)) = if p k then Json.field? k info else none := by
  induction info with
  | nil => simp [Json.field?]
  | cons e info ih => grind [Json.field?_cons]

lemma field?_filterMap {g : String → Option Json} (keys : List String) :
    Json.field? k (keys.filterMap fun key => (g key).map (key, ·)) = if k ∈ keys then g k else none := by
  induction keys with
  | nil => rfl
  | cons key keys ih => cases hg : g key <;> grind [Json.field?_cons]

lemma field?_specialEntries (h : specialEntries info = .ok special) : ∃ vols,
      Option.Rel (fun v w => copyVolumes v = .ok w) (Json.field? "volumes_info" info) vols ∧
      ∀ k, Json.field? k special = if k ∈ ["origin", "destination"] then
        (Json.field? k info).map redactConnectionInfo else if k = "volumes_info" then vols else none := by
  rw [specialEntries] at h
  cases hvols : Json.field? "volumes_info" info with
  | none =>
    rw [hvols] at h
    obtain rfl := Except.ok.inj h
    exact ⟨none, .none, fun k => by rw [field?_filterMap, ite_self]⟩
  | some vols =>
    rw [hvols] at h
    obtain ⟨vols', hcopy, rfl⟩ := Raising.map_eq_ok h
    refine ⟨some vols', .some hcopy, fun k => ?_⟩
    rw [Json.field?_append, field?_filterMap, Json.field?_cons]
    by_cases hk : k ∈ ["origin", "destination"]
    · have hne : "volumes_info" ≠ k := by rintro rfl; simp at hk
      simp [hk, hne, Json.field?]
    · simp [hk, Json.field?, eq_comm]

/-- How `sanitize_task_info` copies an entry. -/
def copyEntry (k : String) (v : Json) : Except String Json :=
  if k ∈ ["origin", "destination"] then .ok (redactConnectionInfo v)
  else if k = "volumes_info" then copyVolumes v
  else .ok v

lemma rel_sanitize (h : sanitizeTaskInfo info = .ok new) (k : String) :
    Option.Rel (fun v w => copyEntry k v = .ok w) (Json.field? k info) (Json.field? k new) := by
  obtain ⟨special, hspecial, rfl⟩ := Raising.map_eq_ok h
  obtain ⟨vols, hvols, hfield⟩ := field?_specialEntries hspecial
  rw [Json.field?_append, field?_filter (p := (· ∉ specialKeys)), hfield]
  unfold copyEntry
  by_cases hsection : k ∈ ["origin", "destination"]
  · have hspecial : k ∈ specialKeys := List.mem_cons_of_mem _ hsection
    simp only [hspecial, hsection, not_true, decide_false, if_true, Option.none_or, if_false,
      Bool.false_eq_true]
    cases Json.field? k info with
    | none => exact .none
    | some v => exact .some rfl
  · by_cases hk : k = "volumes_info"
    · subst hk
      simpa [hsection, specialKeys] using hvols
    · have hspecial : k ∉ specialKeys := by simpa [specialKeys, hk] using hsection
      simp only [hspecial, hsection, hk, not_false_eq_true, decide_true, if_true, if_false,
        Option.or_none]
      cases Json.field? k info with
      | none => exact .none
      | some v => exact .some rfl

lemma keys_of_replacedAt (h : Json.ReplacedAt (.key k :: path) (.obj info) (.obj info')) :
    info'.map (·.1) = info.map (·.1) := by
  cases h with
  | key => simp

lemma sanitize_of_differ (h : Differ info info')
    (hinfo : ∀ k ∈ info.map (·.1), endsInConnectionInfo k = false) :
    sanitizeTaskInfo info' = sanitizeTaskInfo info ∧ info'.map (·.1) = info.map (·.1) := by
  obtain ⟨path, hpath, h⟩ := h
  cases hpath with
  | hidden hpath =>
    refine ⟨sanitize_of_hidden hpath h, ?_⟩
    cases hpath <;> exact keys_of_replacedAt h
  | @key k hk =>
    obtain _ | ⟨before, after, h⟩ := h
    simp [hinfo k (by simp)] at hk

lemma sanitize_run (hinfo : ∀ k ∈ info.map (·.1), endsInConnectionInfo k = false)
    (h : Relation.ReflTransGen Differ info info') :
    sanitizeTaskInfo info' = sanitizeTaskInfo info ∧ info'.map (·.1) = info.map (·.1) := by
  induction h with
  | refl => exact ⟨rfl, rfl⟩
  | tail _ hstep ih =>
    obtain ⟨hsame, hkeys⟩ := sanitize_of_differ hstep (by rwa [ih.2])
    exact ⟨hsame.trans ih.1, hkeys.trans ih.2⟩

/-- Another connection info under a key of the task info itself is another copy. -/
lemma no_connectionInfo (h : ∀ info', Relation.ReflTransGen Differ info info' →
      sanitizeTaskInfo info' = .ok new) :
    ∀ k ∈ info.map (·.1), endsInConnectionInfo k = false := by
  intro _ hkey
  obtain ⟨⟨k, v⟩, hmem, rfl⟩ := List.mem_map.mp hkey
  by_contra hk
  have hk : endsInConnectionInfo k = true := by simpa using hk
  obtain ⟨before, after, rfl⟩ := List.append_of_mem hmem
  obtain ⟨w, hw⟩ : ∃ w, w ≠ v := by
    cases v with
    | null => exact ⟨.bool true, nofun⟩
    | _ => exact ⟨.null, nofun⟩
  have hv := h _ .refl
  have hw' := h _ (.single ⟨_, .key hk, .key before after (.here v w)⟩)
  rw [sanitize_of_key (w := .null) (not_special hk)] at hv hw'
  obtain ⟨special, hs, rfl⟩ := Raising.map_eq_ok hv
  rw [hs] at hw'
  simp [Except.map, hw] at hw'

lemma off_copyEntry (hvols : k = "volumes_info" → properVolumes v) (h : copyEntry k v = .ok w) :
    Json.Off (fun path => Hidden (.key k :: path)) v w := by
  unfold copyEntry at h
  split_ifs at h with hsection hk
  · obtain rfl := Except.ok.inj h
    exact off_redactConnectionInfo (.connection hsection) v
  · subst hk
    obtain ⟨w', hw', hoff⟩ : ∃ w', copyVolumes v = .ok w' ∧
        Json.Off (fun path => Hidden (.key "volumes_info" :: path)) v w' :=
      copyVolumes_off .chunks (hvols rfl)
    rw [h] at hw'
    exact Except.ok.inj hw' ▸ hoff
  · obtain rfl := Except.ok.inj h
    exact .refl _ v

lemma off_sanitize (h : sanitizeTaskInfo info = .ok new)
    (hvols : (Json.field? "volumes_info" info).all properVolumes) :
    Json.Off Hidden (.obj info) (.obj new) := by
  refine .obj ⟨_, .chunks 0⟩ fun k => ?_
  have hrel := rel_sanitize h k
  have hvols (v : Json) (hv : Json.field? k info = some v) (hk : k = "volumes_info") :
      properVolumes v := by
    subst hk
    rwa [hv] at hvols
  generalize Json.field? k info = v, Json.field? k new = w at hrel hvols ⊢
  cases hrel with
  | none => exact .none
  | some hw => exact .some (off_copyEntry (hvols _ rfl) hw)

lemma sanitize_ok (hvols : (Json.field? "volumes_info" info).all properVolumes) :
    ∃ new, sanitizeTaskInfo info = .ok new := by
  rw [sanitizeTaskInfo, specialEntries]
  cases hv : Json.field? "volumes_info" info with
  | none => exact ⟨_, rfl⟩
  | some vols =>
    rw [hv] at hvols
    obtain ⟨w, hw, -⟩ : ∃ w, copyVolumes vols = .ok w ∧ Json.Off (fun _ => True) vols w :=
      copyVolumes_off (fun _ => trivial) hvols
    exact ⟨_, by simp [hw, Except.map]; rfl⟩

end Coriolis.Utils

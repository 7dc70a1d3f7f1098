import Coriolis.Library.Json
import Mathlib.Logic.Relation

/-!
# Redaction of responses

The views of the API mask credentials, which are told from other data by the keys that store
them. Empty values are kept, and of a dictionary under such a key the keys are.
-/

namespace Coriolis.Api

def redactedValue : Json := .str "***"

def sensitiveKeys : List String := ["pkey", "password", "private_key", "certificates"]

def sensitiveKeySuffixes : List String := ["_password", "_pkey", "_private_key"]

/-- `_is_sensitive_key`. The keys of JSON are strings. -/
def isSensitiveKey (key : String) : Bool :=
  sensitiveKeys.contains key || sensitiveKeySuffixes.any (·.toList.isSuffixOf key.toList)

/-- What `_redact_value` puts in place of a value that it does not visit. -/
def redactValue (key : String) (value : Json) : Option Json :=
  if !value.truthy || !isSensitiveKey key then none
  else
    match value with
    | .obj fields => some (.obj (fields.map fun (k, _) => (k, redactedValue)))
    | _ => some redactedValue

/-- `redact_sensitive_info`. -/
def redactSensitiveInfo : Json → Json := Json.rewrite redactValue

def keysOf : Json → Option (List String)
  | .obj fields => some (fields.map (·.1))
  | _ => none

def masked : Option (List String) → Json
  | some keys => .obj (keys.map fun k => (k, redactedValue))
  | none => redactedValue

variable {key : String} {v w r : Json}

lemma redactValue_eq : redactValue key v =
    if v.truthy && isSensitiveKey key then some (masked (keysOf v)) else none := by
  cases htruthy : v.truthy <;> cases hkey : isSensitiveKey key <;>
    cases v <;> simp_all [redactValue, keysOf, masked]

@[simp] lemma truthy_rewrite : (Json.rewrite f v).truthy = v.truthy := by
  cases v <;> simp [Json.rewrite, Json.truthy]

@[simp] lemma keysOf_rewrite : keysOf (Json.rewrite f v) = keysOf v := by
  cases v <;> simp [Json.rewrite, keysOf]

lemma redactValue_rewrite : redactValue key (Json.rewrite f v) = redactValue key v := by
  simp [redactValue_eq]

lemma redactValue_eq_some (h : redactValue key v = some r) :
    isSensitiveKey key = true ∧ v.truthy = true ∧ r = masked (keysOf v) := by
  grind [redactValue_eq]

lemma masked_keysOf (h : v.truthy = true) :
    (masked (keysOf v)).truthy = true ∧ keysOf (masked (keysOf v)) = keysOf v := by
  cases v <;> simp_all [keysOf, masked, redactedValue, Json.truthy, Function.comp_def]

lemma redact_redact (v : Json) :
    redactSensitiveInfo (redactSensitiveInfo v) = redactSensitiveInfo v := by
  refine Json.rewrite_rewrite (fun key v r h => ?_) (fun key v h => ?_) v
  · obtain ⟨hkey, htruthy, rfl⟩ := redactValue_eq_some h
    simp [redactValue_eq, hkey, masked_keysOf htruthy]
  · rw [redactValue_rewrite, h]

/-! ## What is hidden -/

/-- Two values that a key hides: both are not empty, and both are dictionaries with the same keys
or neither is one. -/
def Secret (key : String) (v w : Json) : Prop :=
  isSensitiveKey key = true ∧ v.truthy = true ∧ w.truthy = true ∧ keysOf v = keysOf w

lemma redact_eq_of_replaced (h : Json.Replaced Secret v w) :
    redactSensitiveInfo v = redactSensitiveInfo w := by
  refine h.rewrite_eq fun key v w h => ?_
  rcases h with h | ⟨hkey, hv, hw, hkeys⟩
  · rw [← redactValue_rewrite (f := redactValue), h, redactValue_rewrite]
  · simp [redactValue_eq, hkey, hv, hw, hkeys]

lemma leaf_masked (h : Json.Leaf leaf (masked keys)) :
    leaf = redactedValue := by
  cases keys with
  | none => cases h; rfl
  | some keys =>
    cases h with
    | self h => simp [masked, Json.isLeaf] at h
    | entry hmem h =>
      obtain ⟨k, -, rfl⟩ := List.mem_map.mp hmem
      cases h
      rfl

lemma leaf_of_empty (hv : v.truthy = false) (h : Json.Leaf leaf v) :
    leaf.truthy = false := by
  cases h with
  | self => exact hv
  | entry hmem | item hmem =>
    simp only [Json.truthy, Bool.not_eq_false', List.isEmpty_iff] at hv
    simp [hv] at hmem

/-- What is stored under a sensitive key of the result is masked, but for what is empty. -/
lemma leaf_redacted (h : Json.Within e (redactSensitiveInfo v)) (hkey : isSensitiveKey e.1 = true)
    (hleaf : Json.Leaf leaf e.2) (htruthy : leaf.truthy = true) : leaf = redactedValue := by
  rcases h.of_rewrite with ⟨k, u, r, hr, h⟩ | ⟨u, hnone, hu⟩
  · obtain ⟨-, -, rfl⟩ := redactValue_eq_some hr
    cases h.leaf hleaf with
    | self h => simp [Json.isLeaf] at h
    | entry hmem hleaf =>
      obtain rfl := List.mem_singleton.mp hmem
      exact leaf_masked hleaf
  · have hu' : u.truthy = false := by grind [redactValue_eq]
    rw [leaf_of_empty (by rw [hu, truthy_rewrite, hu']) hleaf] at htruthy
    simp at htruthy

/-- Redaction hides what sensitive keys store, all of it but what is empty and the keys of a
dictionary. It changes nothing else, and a second one changes nothing. -/
theorem redactSensitiveInfo_spec :
    (∀ v w, Relation.ReflTransGen (Json.Replaced Secret) v w →
      redactSensitiveInfo v = redactSensitiveInfo w) ∧
    (∀ v e leaf, Json.Within e (redactSensitiveInfo v) → isSensitiveKey e.1 = true →
      Json.Leaf leaf e.2 → leaf.truthy = true → leaf = redactedValue) ∧
    (∀ v path, (∀ k, .key k ∈ path → isSensitiveKey k = false) →
      Json.get? path (redactSensitiveInfo v) = (Json.get? path v).map redactSensitiveInfo) ∧
    (∀ v, (∀ e, Json.Within e v → isSensitiveKey e.1 = false ∨ e.2.truthy = false) →
      redactSensitiveInfo v = v) ∧
    ∀ v, redactSensitiveInfo (redactSensitiveInfo v) = redactSensitiveInfo v := by
  refine ⟨fun v w h => ?_, fun v e leaf => leaf_redacted, fun v path h => ?_, fun v h => ?_,
    redact_redact⟩
  · induction h with
    | refl => rfl
    | tail _ h ih => exact ih.trans (redact_eq_of_replaced h)
  · exact Json.get?_rewrite (fun k hk u => by simp [redactValue_eq, h k hk]) v
  · exact Json.rewrite_eq_self fun e he => by rcases h e he with h | h <;> simp [redactValue_eq, h]

/-- An empty password is shown as it is. -/
theorem empty_password_kept :
    let v : Json := .obj [("password", .str "")]
    redactSensitiveInfo v = v ∧ Json.Within ("password", .str "") (redactSensitiveInfo v) ∧
      isSensitiveKey "password" = true ∧ Json.Leaf (.str "") (.str "") ∧
      Json.str "" ≠ redactedValue :=
  ⟨rfl, .here (by simp [Json.rewriteFields, redactValue, Json.truthy, Json.rewrite]), rfl,
    .self rfl, by simp [redactedValue]⟩

end Coriolis.Api

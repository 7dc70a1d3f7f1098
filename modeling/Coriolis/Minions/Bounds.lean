import Coriolis.Library.Json
import Coriolis.Library.Raising
import Mathlib.Data.Int.ConditionallyCompleteOrder
import Mathlib.Data.Rat.Floor

/-!
# The bounds of a minion pool

The API checks the numbers of a request before it hands the request to the minion manager. An
update that gives only one of the two bounds is checked together with the other bound of the
pool as it was read for the check, outside of the lock under which the manager later stores
the update. The columns are integers that must not be null.
-/

namespace Coriolis.Minions

abbrev Fields := List (String × Json)

def Fields.get (fields : Fields) (key : String) (default : Json) : Json :=
  (fields.lookup key).getD default

def Fields.has (fields : Fields) (key : String) : Bool := (fields.lookup key).isSome

/-- What the validators of the API raise. The message about `minion_max_idle_time` shows
`maximum_minions`. -/
inductive ApiError where
  | notPositive (field : String) (got : Json)
  | maximumBelowMinimum (maximum minimum : Json)
  | typeError
  | keyError (key : String)
  | invalidRetentionStrategy (got : Json)
  | invalidOsType (got : Json)
  | invalidPlatform (got : Json)
  | sourcePoolNotLinux
  | invalidEnvironment
  | notUpdateable (field : String)
  | notFound

/-- `a <= 0`. -/
def notPositive (a : Json) : Except ApiError Bool :=
  match a.number? with
  | some q => .ok (decide (q ≤ 0))
  | none => .error .typeError

/-- `a < b`. -/
def below (a b : Json) : Except ApiError Bool :=
  match a.number?, b.number? with
  | some p, some q => .ok (decide (p < q))
  | _, _ => .error .typeError

def checkPositive (field : String) (value got : Json) : Except ApiError Unit := do
  if ← notPositive value then throw (.notPositive field got)

def checkIf (condition : Bool) (check : Except ApiError Unit) : Except ApiError Unit :=
  if condition then check else .ok ()

/-- `if value is not None`. -/
def unlessNull (value : Json) : Except ApiError Unit → Except ApiError Unit :=
  checkIf (!value.isNull)

/-- `_check_pool_numeric_values`. -/
def checkPoolNumericValues (minimumMinions maximumMinions minionMaxIdleTime : Json) :
    Except ApiError Unit := do
  unlessNull minimumMinions (checkPositive "minimum_minions" minimumMinions minimumMinions)
  unlessNull maximumMinions do
    checkPositive "maximum_minions" maximumMinions maximumMinions
    if ← below maximumMinions minimumMinions then
      throw (.maximumBelowMinimum maximumMinions minimumMinions)
  unlessNull minionMaxIdleTime
    (checkPositive "minion_max_idle_time" minionMaxIdleTime maximumMinions)

/-- `_check_pool_retention_strategy`. -/
def checkPoolRetentionStrategy : Json → Except ApiError Unit
  | .str "delete" | .str "poweroff" => .ok ()
  | value => .error (.invalidRetentionStrategy value)

def required (fields : Fields) (key : String) : Except ApiError Json :=
  match fields.lookup key with
  | some value => .ok value
  | none => .error (.keyError key)

/-- The numbers of a pool, as the validators pass them on. -/
structure Numbers where
  minimumMinions : Json
  maximumMinions : Json
  minionMaxIdleTime : Json

/-- The checks of `_validate_create_body` before the numbers, for an endpoint whose provider
accepts the environment options or not. -/
def validatePlatform (environmentAccepted : Bool) (fields : Fields) : Except ApiError Unit := do
  let _ ← required fields "name"
  let _ ← required fields "endpoint_id"
  let osType ← required fields "os_type"
  let linux ← match osType with
    | .str "linux" => pure true
    | .str "bsd" | .str "osx" | .str "solaris" | .str "windows" => pure false
    | _ => throw (.invalidOsType osType)
  let platform ← required fields "platform"
  let source ← match platform with
    | .str "source" => pure true
    | .str "destination" => pure false
    | _ => throw (.invalidPlatform platform)
  checkIf (source && !linux) (throw .sourcePoolNotLinux)
  let _ ← required fields "environment_options"
  checkIf (!environmentAccepted) (throw .invalidEnvironment)

def Fields.numbers (fields : Fields) : Numbers :=
  let minimumMinions := fields.get "minimum_minions" (.int 1)
  ⟨minimumMinions, fields.get "maximum_minions" minimumMinions,
    fields.get "minion_max_idle_time" (.int 1)⟩

/-- `_validate_create_body`: the numbers of the new pool. -/
def validateCreateBody (environmentAccepted : Bool) (fields : Fields) :
    Except ApiError Numbers := do
  validatePlatform environmentAccepted fields
  let numbers := fields.numbers
  checkPoolNumericValues numbers.minimumMinions numbers.maximumMinions numbers.minionMaxIdleTime
  checkPoolRetentionStrategy (fields.get "minion_retention_strategy" (.str "delete"))
  return numbers

/-- The stored numbers of a pool. -/
structure Bounds where
  minimumMinions : Int
  maximumMinions : Int
  minionMaxIdleTime : Int
  deriving DecidableEq, Repr

def updateableFields : List String :=
  ["name", "environment_options", "minimum_minions", "maximum_minions", "minion_max_idle_time",
    "minion_retention_strategy", "notes", "os_type"]

/-- `_validate_update_body`, with the pool as it is read: the values to store. -/
def validateUpdateBody (environmentAccepted : Bool) (pool : Bounds) (fields : Fields) :
    Except ApiError Fields := do
  checkIf (fields.has "endpoint_id") (throw (.notUpdateable "endpoint_id"))
  checkIf (fields.has "platform") (throw (.notUpdateable "platform"))
  let vals : Fields := fields.filter fun p => updateableFields.contains p.1
  checkIf (vals.has "minion_retention_strategy")
    (checkPoolRetentionStrategy (vals.get "minion_retention_strategy" .null))
  checkIf (vals.has "environment_options" || vals.has "minimum_minions" ||
      vals.has "maximum_minions" || vals.has "minion_max_idle_time") do
    checkPoolNumericValues (vals.get "minimum_minions" (.int pool.minimumMinions))
      (vals.get "maximum_minions" (.int pool.maximumMinions)) (vals.get "minion_max_idle_time" .null)
    checkIf (vals.has "environment_options" && !environmentAccepted) (throw .invalidEnvironment)
  return vals

section

/-- What the database makes of a number for an integer column, and which integers fit. -/
structure Columns where
  round : ℚ → Int
  round_int : ∀ n : Int, round n = n
  round_mono : Monotone round
  fits : Int → Bool

variable (db : Columns)

/-- A value in an integer column that is not nullable; none if the database refuses it. No text,
list or object gets past the validators. -/
def Columns.store : Json → Option Int
  | .bool b => some (if b then 1 else 0)
  | .int n => if db.fits n then some n else none
  | .float q => if db.fits (db.round q) then some (db.round q) else none
  | .null | .str _ | .arr _ | .obj _ => none

/-- `db_api.add_minion_pool`. -/
def addMinionPool (numbers : Numbers) : Option Bounds := do
  return ⟨← db.store numbers.minimumMinions, ← db.store numbers.maximumMinions,
    ← db.store numbers.minionMaxIdleTime⟩

def updateColumn (vals : Fields) (key : String) (old : Int) : Option Int :=
  match vals.lookup key with
  | some value => db.store value
  | none => some old

/-- `db_api.update_minion_pool`, for values the other columns accept. -/
def updateMinionPool (vals : Fields) (pool : Bounds) : Option Bounds := do
  return ⟨← updateColumn db vals "minimum_minions" pool.minimumMinions,
    ← updateColumn db vals "maximum_minions" pool.maximumMinions,
    ← updateColumn db vals "minion_max_idle_time" pool.minionMaxIdleTime⟩

end

/-- An update that passed the validators, with the pool it was checked against. -/
structure Update where
  vals : Fields
  checkedAgainst : Bounds

/-- A pool in the database, whether it is DEALLOCATED, and the updates on their way. -/
structure PoolState where
  pool : Bounds
  deallocated : Bool
  updates : List Update

def NoFraction (v : Json) : Prop := ∀ q, v = .float q → q ≤ 0 ∨ 1 ≤ q

/-- Where an update gives one bound only, the other one is as it was when the update was
checked. -/
structure Update.IsCurrent (u : Update) (pool : Bounds) : Prop where
  minimum : u.vals.lookup "minimum_minions" = none → u.vals.has "maximum_minions" = true →
    pool.minimumMinions = u.checkedAgainst.minimumMinions
  maximum : u.vals.lookup "maximum_minions" = none → u.vals.has "minimum_minions" = true →
    pool.maximumMinions = u.checkedAgainst.maximumMinions

/-- A request gives no positive fraction below one for any of the numbers. -/
def Fields.NoFractions (fields : Fields) : Prop :=
  ∀ key ∈ ["minimum_minions", "maximum_minions", "minion_max_idle_time"],
    ∀ v, fields.lookup key = some v → NoFraction v

namespace PoolState

variable (db : Columns) (careful : Prop)

/-- A new pool. -/
inductive Created : PoolState → Prop
  | create {environmentAccepted : Bool} {fields : Fields} {numbers : Numbers} {pool : Bounds}
      (h : validateCreateBody environmentAccepted fields = .ok numbers)
      (hstore : addMinionPool db numbers = some pool) (hnone : careful → fields.NoFractions) :
      Created ⟨pool, true, []⟩

/-- A step of an update, or of anything else that changes the status of the pool. In a careful
run requests give no fractions below one, and an update with one bound finds the other one as
it was checked. -/
inductive Step : PoolState → PoolState → Prop
  | validate {s : PoolState} {environmentAccepted : Bool} {fields vals : Fields}
      (h : validateUpdateBody environmentAccepted s.pool fields = .ok vals)
      (hnone : careful → vals.NoFractions) :
      Step s { s with updates := ⟨vals, s.pool⟩ :: s.updates }
  | store {s : PoolState} {u : Update} {rest : List Update} {pool : Bounds}
      (hu : s.updates.Perm (u :: rest)) (hstatus : s.deallocated = true)
      (h : updateMinionPool db u.vals s.pool = some pool)
      (hcurrent : careful → u.IsCurrent s.pool) :
      Step s { s with pool := pool, updates := rest }
  | refuse {s : PoolState} {u : Update} {rest : List Update}
      (hu : s.updates.Perm (u :: rest)) : Step s { s with updates := rest }
  | status {s : PoolState} (deallocated : Bool) : Step s { s with deallocated := deallocated }

abbrev Run : PoolState → PoolState → Prop := Relation.ReflTransGen (Step db careful)

end PoolState

/-- `1 <= minimum_minions <= maximum_minions` and a positive `minion_max_idle_time`. -/
structure Bounds.InRange (b : Bounds) : Prop where
  minimum : 1 ≤ b.minimumMinions
  maximum : b.minimumMinions ≤ b.maximumMinions
  idle : 0 < b.minionMaxIdleTime

section

open Raising (bind_eq_ok)

variable {db : Columns} {a b c v : Json} {p q : ℚ}

lemma checkPositive_ok (h : checkPositive field a v = .ok ()) :
    ∃ q, a.number? = some q ∧ 0 < q := by
  obtain ⟨refused, hpos, h⟩ := bind_eq_ok h
  unfold notPositive at hpos
  split at hpos
  · rename_i q hq
    cases hpos
    refine ⟨q, hq, ?_⟩
    by_contra hle
    rw [if_pos (decide_eq_true (not_lt.mp hle))] at h
    cases h
  · cases hpos

lemma below_eq_false (h : below b a = .ok false) :
    ∃ p q, a.number? = some p ∧ b.number? = some q ∧ p ≤ q := by
  unfold below at h
  split at h
  · rename_i q p hq hp
    rw [Except.ok.injEq, decide_eq_false_iff_not, not_lt] at h
    exact ⟨p, q, hp, hq, h⟩
  · cases h

/-- What the check of the numbers finds out about those that are given. -/
structure Checked (a b c : Json) : Prop where
  minimum : a.isNull = false → ∃ p, a.number? = some p ∧ 0 < p
  maximum : b.isNull = false → ∃ p q, a.number? = some p ∧ b.number? = some q ∧ p ≤ q
  idle : c.isNull = false → ∃ r, c.number? = some r ∧ 0 < r

lemma checkPoolNumericValues_ok (h : checkPoolNumericValues a b c = .ok ()) :
    Checked a b c := by
  unfold checkPoolNumericValues at h
  obtain ⟨⟨⟩, hmin, h⟩ := bind_eq_ok h
  obtain ⟨⟨⟩, hmax, hidle⟩ := bind_eq_ok h
  refine ⟨fun ha => ?_, fun hb => ?_, fun hc => ?_⟩
  · rw [unlessNull, checkIf, ha] at hmin
    exact checkPositive_ok hmin
  · rw [unlessNull, checkIf, hb] at hmax
    obtain ⟨⟨⟩, -, hmax⟩ := bind_eq_ok hmax
    obtain ⟨refused, hbelow, hmax⟩ := bind_eq_ok hmax
    cases refused with
    | true => cases hmax
    | false => exact below_eq_false hbelow
  · rw [unlessNull, checkIf, hc] at hidle
    exact checkPositive_ok hidle

lemma Columns.store_eq_some (h : db.store v = some n) :
    v.isNull = false ∧ ∃ q, v.number? = some q ∧ n = db.round q := by
  cases v with
  | bool b =>
    refine ⟨rfl, _, rfl, ?_⟩
    cases h
    cases b
    · simpa using (db.round_int 0).symm
    · simpa using (db.round_int 1).symm
  | int k =>
    simp only [Columns.store, Option.ite_none_right_eq_some, Option.some.injEq] at h
    exact ⟨rfl, k, rfl, by rw [db.round_int, h.2]⟩
  | float q =>
    simp only [Columns.store, Option.ite_none_right_eq_some, Option.some.injEq] at h
    exact ⟨rfl, q, rfl, h.2.symm⟩
  | null | str | arr | obj => simp [Columns.store] at h

lemma NoFraction.one_le (hv : NoFraction v) (hq : v.number? = some q) (hpos : 0 < q) :
    1 ≤ q := by
  cases v with
  | bool b => cases b <;> simp_all [Json.number?]
  | int k =>
    cases hq
    exact_mod_cast hpos
  | float r =>
    cases hq
    exact (hv _ rfl).resolve_left (not_le.mpr hpos)
  | null | str | arr | obj => simp [Json.number?] at hq

lemma Columns.one_le_store (h : db.store v = some n) (hv : NoFraction v)
    (hq : ∃ q, v.number? = some q ∧ 0 < q) : 1 ≤ n := by
  obtain ⟨-, q, hnum, rfl⟩ := db.store_eq_some h
  obtain ⟨q', hnum', hpos⟩ := hq
  rw [hnum, Option.some.injEq] at hnum'
  subst hnum'
  have := db.round_mono (hv.one_le hnum hpos)
  rwa [show db.round 1 = 1 by simpa using db.round_int 1] at this

lemma Columns.store_le (ha : db.store a = some m) (hb : db.store b = some n)
    (h : ∃ p q, a.number? = some p ∧ b.number? = some q ∧ p ≤ q) : m ≤ n := by
  obtain ⟨-, p, hp, rfl⟩ := db.store_eq_some ha
  obtain ⟨-, q, hq, rfl⟩ := db.store_eq_some hb
  obtain ⟨p', q', hp', hq', hle⟩ := h
  rw [hp, Option.some.injEq] at hp'
  rw [hq, Option.some.injEq] at hq'
  subst hp' hq'
  exact db.round_mono hle

lemma Checked.inRange {pool : Bounds} (h : Checked a b c)
    (ha : db.store a = some pool.minimumMinions) (hb : db.store b = some pool.maximumMinions)
    (hc : db.store c = some pool.minionMaxIdleTime) (hna : NoFraction a) (hnc : NoFraction c) :
    pool.InRange :=
  ⟨db.one_le_store ha hna (h.minimum (db.store_eq_some ha).1),
    db.store_le ha hb (h.maximum (db.store_eq_some hb).1),
    db.one_le_store hc hnc (h.idle (db.store_eq_some hc).1)⟩

lemma validateCreateBody_ok (h : validateCreateBody environmentAccepted fields = .ok numbers) :
    numbers = fields.numbers ∧
      Checked numbers.minimumMinions numbers.maximumMinions numbers.minionMaxIdleTime := by
  unfold validateCreateBody at h
  obtain ⟨⟨⟩, -, h⟩ := bind_eq_ok h
  obtain ⟨⟨⟩, hcheck, h⟩ := bind_eq_ok h
  obtain ⟨⟨⟩, -, h⟩ := bind_eq_ok h
  cases h
  exact ⟨rfl, checkPoolNumericValues_ok hcheck⟩

/-- What is known of an update that passed the validators. -/
structure Update.Valid (u : Update) : Prop where
  bounds : u.vals.has "minimum_minions" = true ∨ u.vals.has "maximum_minions" = true →
    Checked (u.vals.get "minimum_minions" (.int u.checkedAgainst.minimumMinions))
      (u.vals.get "maximum_minions" (.int u.checkedAgainst.maximumMinions)) .null
  idle : ∀ v, u.vals.lookup "minion_max_idle_time" = some v → v.isNull = false →
    ∃ r, v.number? = some r ∧ 0 < r
  noFractions : u.vals.NoFractions

lemma validateUpdateBody_ok (h : validateUpdateBody environmentAccepted pool fields = .ok vals)
    (hnone : vals.NoFractions) :
    Update.Valid ⟨vals, pool⟩ := by
  unfold validateUpdateBody at h
  obtain ⟨⟨⟩, -, h⟩ := bind_eq_ok h
  obtain ⟨⟨⟩, -, h⟩ := bind_eq_ok h
  obtain ⟨⟨⟩, -, h⟩ := bind_eq_ok h
  obtain ⟨⟨⟩, hnumbers, h⟩ := bind_eq_ok h
  rw [show fields.filter (fun p => updateableFields.contains p.1) = vals from Except.ok.inj h]
    at hnumbers
  -- whichever of the numbers is given, all of them are checked
  have hchecked : vals.has "minimum_minions" = true ∨ vals.has "maximum_minions" = true ∨
      vals.has "minion_max_idle_time" = true →
        Checked (vals.get "minimum_minions" (.int pool.minimumMinions))
          (vals.get "maximum_minions" (.int pool.maximumMinions))
          (vals.get "minion_max_idle_time" .null) := by
    intro hhas
    have hany : (vals.has "environment_options" || vals.has "minimum_minions" ||
        vals.has "maximum_minions" || vals.has "minion_max_idle_time") = true := by
      simp only [Bool.or_eq_true]
      tauto
    rw [checkIf, if_pos hany] at hnumbers
    obtain ⟨⟨⟩, hcheck, -⟩ := bind_eq_ok hnumbers
    exact checkPoolNumericValues_ok hcheck
  refine ⟨fun hhas => ?_, fun v hv => ?_, hnone⟩
  · have h := hchecked (hhas.imp_right .inl)
    exact ⟨h.minimum, h.maximum, fun hnull => by cases hnull⟩
  · have hhas : vals.has "minion_max_idle_time" = true := by
      rw [Fields.has, hv, Option.isSome_some]
    have h := (hchecked (.inr (.inr hhas))).idle
    rwa [Fields.get, hv, Option.getD_some] at h

lemma updateColumn_eq (h : updateColumn db vals key old = some n) :
    vals.lookup key = none ∧ n = old ∨ ∃ v, vals.lookup key = some v ∧ db.store v = some n := by
  unfold updateColumn at h
  split at h
  · rename_i v hv
    exact .inr ⟨v, hv, h⟩
  · rename_i hnone
    cases h
    exact .inl ⟨hnone, rfl⟩

lemma updateColumn_number (h : updateColumn db vals key old = some n) :
    (vals.get key (.int old)).isNull = false ∧
      ∃ q, (vals.get key (.int old)).number? = some q ∧ n = db.round q := by
  rcases updateColumn_eq h with ⟨hnone, rfl⟩ | ⟨v, hv, hstore⟩
  · rw [Fields.get, hnone, Option.getD_none]
    exact ⟨rfl, n, rfl, (db.round_int n).symm⟩
  · rw [Fields.get, hv, Option.getD_some]
    exact db.store_eq_some hstore

variable {u : Update}

lemma Update.Valid.checked (hu : u.Valid) (hcur : u.IsCurrent pool)
    (hgiven : u.vals.has "minimum_minions" = true ∨ u.vals.has "maximum_minions" = true) :
    Checked (u.vals.get "minimum_minions" (.int pool.minimumMinions))
      (u.vals.get "maximum_minions" (.int pool.maximumMinions)) .null := by
  have hmin : u.vals.get "minimum_minions" (.int pool.minimumMinions) =
      u.vals.get "minimum_minions" (.int u.checkedAgainst.minimumMinions) := by
    cases hv : u.vals.lookup "minimum_minions" with
    | some v => rw [Fields.get, Fields.get, hv, Option.getD_some, Option.getD_some]
    | none => rw [hcur.minimum hv (hgiven.resolve_left (by simp [Fields.has, hv]))]
  have hmax : u.vals.get "maximum_minions" (.int pool.maximumMinions) =
      u.vals.get "maximum_minions" (.int u.checkedAgainst.maximumMinions) := by
    cases hv : u.vals.lookup "maximum_minions" with
    | some v => rw [Fields.get, Fields.get, hv, Option.getD_some, Option.getD_some]
    | none => rw [hcur.maximum hv (hgiven.resolve_right (by simp [Fields.has, hv]))]
  rw [hmin, hmax]
  exact hu.bounds hgiven

lemma Update.Valid.minimum_le_maximum (hu : u.Valid) (hcur : u.IsCurrent pool)
    (hpool : pool.InRange)
    (hmin : updateColumn db u.vals "minimum_minions" pool.minimumMinions = some m)
    (hmax : updateColumn db u.vals "maximum_minions" pool.maximumMinions = some n) : m ≤ n := by
  by_cases hgiven : u.vals.has "minimum_minions" = true ∨ u.vals.has "maximum_minions" = true
  · obtain ⟨-, p, hp, rfl⟩ := updateColumn_number hmin
    obtain ⟨hnull, q, hq, rfl⟩ := updateColumn_number hmax
    obtain ⟨p', q', hp', hq', hle⟩ := (hu.checked hcur hgiven).maximum hnull
    rw [hp, Option.some.injEq] at hp'
    rw [hq, Option.some.injEq] at hq'
    subst hp' hq'
    exact db.round_mono hle
  · simp only [Fields.has, not_or, Option.not_isSome_iff_eq_none] at hgiven
    rw [updateColumn, hgiven.1, Option.some.injEq] at hmin
    rw [updateColumn, hgiven.2, Option.some.injEq] at hmax
    rw [← hmin, ← hmax]
    exact hpool.maximum

lemma Update.Valid.inRange (hu : u.Valid) (hcur : u.IsCurrent pool) (hpool : pool.InRange)
    (h : updateMinionPool db u.vals pool = some pool') : pool'.InRange := by
  simp only [updateMinionPool, Option.bind_eq_bind, Option.bind_eq_some_iff, Option.pure_def,
    Option.some.injEq] at h
  obtain ⟨minimum, hmin, maximum, hmax, idle, hidle, rfl⟩ := h
  refine ⟨?_, hu.minimum_le_maximum hcur hpool hmin hmax, ?_⟩
  · rcases updateColumn_eq hmin with ⟨-, rfl⟩ | ⟨v, hv, hstore⟩
    · exact hpool.minimum
    · have hnum := (hu.bounds (.inl (by rw [Fields.has, hv, Option.isSome_some]))).minimum
      rw [Fields.get, hv, Option.getD_some] at hnum
      exact db.one_le_store hstore (hu.noFractions _ (by decide) v hv)
        (hnum (db.store_eq_some hstore).1)
  · rcases updateColumn_eq hidle with ⟨-, rfl⟩ | ⟨v, hv, hstore⟩
    · exact hpool.idle
    · exact db.one_le_store hstore (hu.noFractions _ (by decide) v hv)
        (hu.idle v hv (db.store_eq_some hstore).1)

lemma Fields.NoFractions.get {fields : Fields} (h : fields.NoFractions)
    (hkey : key ∈ ["minimum_minions", "maximum_minions", "minion_max_idle_time"]) (k : Int) :
    NoFraction (fields.get key (.int k)) := by
  rw [Fields.get]
  cases hv : fields.lookup key with
  | none => exact fun q hq => by cases hq
  | some v => exact h key hkey v hv

end

namespace PoolState

variable {db : Columns} {s s' : PoolState}

/-- What holds of a pool between steps of careful runs. -/
structure Sound (s : PoolState) : Prop where
  inRange : s.pool.InRange
  valid : ∀ u ∈ s.updates, u.Valid

lemma Created.sound (h : Created db True s) : s.Sound := by
  cases h with
  | @create accepted fields numbers pool h hstore hnone =>
    obtain ⟨rfl, hchecked⟩ := validateCreateBody_ok h
    simp only [addMinionPool, Option.bind_eq_bind, Option.bind_eq_some_iff, Option.pure_def,
      Option.some.injEq] at hstore
    obtain ⟨minimum, hmin, maximum, hmax, idle, hidle, rfl⟩ := hstore
    exact ⟨hchecked.inRange hmin hmax hidle ((hnone trivial).get (by decide) 1)
      ((hnone trivial).get (by decide) 1), by simp⟩

lemma Step.sound (h : Step db True s s') (hs : s.Sound) : s'.Sound := by
  cases h with
  | validate h hnone =>
    refine ⟨hs.inRange, fun u hu => ?_⟩
    rcases List.mem_cons.mp hu with rfl | hu
    · exact validateUpdateBody_ok h (hnone trivial)
    · exact hs.valid u hu
  | store hu _ h hcurrent =>
    exact ⟨(hs.valid _ (hu.mem_iff.mpr List.mem_cons_self)).inRange (hcurrent trivial) hs.inRange h,
      fun v hv => hs.valid v (hu.mem_iff.mpr (List.mem_cons_of_mem _ hv))⟩
  | refuse hu =>
    exact ⟨hs.inRange, fun v hv => hs.valid v (hu.mem_iff.mpr (List.mem_cons_of_mem _ hv))⟩
  | status => exact ⟨hs.inRange, hs.valid⟩

/-- In every careful run, a pool has its numbers in range. -/
theorem bounds_in_range (db : Columns) (s s' : PoolState) (hnew : Created db True s)
    (hrun : Run db True s s') : s'.pool.InRange := by
  have hsound : s'.Sound := by
    induction hrun with
    | refl => exact hnew.sound
    | tail _ hstep ih => exact hstep.sound ih
  exact hsound.inRange

def floors : Columns := ⟨Int.floor, Int.floor_intCast, Int.floor_mono, fun _ => true⟩

/-- A request for a destination pool with at least two and at most four minions. -/
def twoToFour : Fields :=
  [("name", .str "pool"), ("endpoint_id", .str "endpoint"), ("os_type", .str "linux"),
    ("platform", .str "destination"), ("environment_options", .obj []),
    ("minimum_minions", .int 2), ("maximum_minions", .int 4)]

def atMostTwo : Fields := [("maximum_minions", .int 2)]

def atLeastFour : Fields := [("minimum_minions", .int 4)]

def twoFifths : ℚ := ⟨2, 5, by decide, by decide⟩

def lessThanOne : Fields :=
  [("name", .str "pool"), ("endpoint_id", .str "endpoint"), ("os_type", .str "linux"),
    ("platform", .str "destination"), ("environment_options", .obj []),
    ("minimum_minions", .float twoFifths), ("maximum_minions", .int 4)]

lemma noFractions_of_ints {fields : Fields} (h : ∀ p ∈ fields, ∀ q, p.2 ≠ .float q) :
    fields.NoFractions := by
  intro key _ v hv q hq
  obtain ⟨l₁, l₂, hfields, -⟩ := List.lookup_eq_some_iff.mp hv
  exact absurd hq (h (key, v) (by simp [hfields]) q)

lemma created_twoToFour (careful : Prop) : Created floors careful ⟨⟨2, 4, 1⟩, true, []⟩ :=
  @Created.create floors careful true twoToFour ⟨.int 2, .int 4, .int 1⟩ _ rfl rfl fun _ =>
    noFractions_of_ints (by simp [twoToFour])

lemma validate_atMostTwo : validateUpdateBody true ⟨2, 4, 1⟩ atMostTwo = .ok atMostTwo := rfl

lemma validate_atLeastFour : validateUpdateBody true ⟨2, 4, 1⟩ atLeastFour = .ok atLeastFour :=
  rfl

/-- Two updates that were checked at the same time, one for the minimum and one for the maximum,
leave a minimum above the maximum. And a new pool for which a minimum of 0.4 was given has one of
zero. -/
theorem bounds_crossed :
    (∃ s s', Created floors False s ∧ Run floors False s s' ∧ s'.pool = ⟨4, 2, 1⟩ ∧
      ¬s'.pool.InRange) ∧
    ∃ s, Created floors False s ∧ s.pool = ⟨0, 4, 1⟩ ∧ ¬s.pool.InRange := by
  constructor
  · refine ⟨_, ⟨⟨4, 2, 1⟩, true, []⟩, created_twoToFour False, ?_, rfl, fun h => ?_⟩
    · exact .tail (.tail (.tail (.tail .refl (.validate validate_atMostTwo False.elim))
        (.validate validate_atLeastFour False.elim)) (.store (.refl _) rfl rfl False.elim))
        (.store (.refl _) rfl rfl False.elim)
    · exact absurd h.maximum (by decide)
  · refine ⟨⟨⟨0, 4, 1⟩, true, []⟩, ?_, rfl, fun h => absurd h.minimum (by decide)⟩
    refine @Created.create floors False true lessThanOne
      ⟨.float twoFifths, .int 4, .int 1⟩ _ rfl rfl False.elim

/-- A pool for two to four minions that was then given a maximum of two. -/
theorem bounds_in_range_atMostTwo : (⟨2, 2, 1⟩ : Bounds).InRange := by
  refine bounds_in_range floors ⟨⟨2, 4, 1⟩, true, []⟩ ⟨⟨2, 2, 1⟩, true, []⟩
    (created_twoToFour True) ?_
  have hnone : atMostTwo.NoFractions := noFractions_of_ints (by simp [atMostTwo])
  exact .tail (.tail .refl (.validate validate_atMostTwo fun _ => hnone))
    (.store (.refl _) rfl rfl fun _ => ⟨fun _ _ => rfl, fun _ _ => rfl⟩)

end PoolState

end Coriolis.Minions

import Mathlib.Tactic.Common

/-!
# The resolver configuration of a guest

While packages are removed or installed, the guest has the resolver configuration of the minion and
its own one is kept as `resolv.conf.old`. It comes back only if there was one to begin with, and an
attempt that stops in between leaves the minion's for the next attempt to keep.
-/

namespace Coriolis.OsMorphing.ResolvConf

inductive Node where
  | file (content : String)
  | link (target : String) (dangling : Bool)
  deriving DecidableEq

/-- `etc/resolv.conf` and `etc/resolv.conf.old` of a guest. -/
structure Guest where
  resolvConf : Option Node
  old : Option Node

/-- `_test_path`, which follows links. -/
def testPath : Option Node → Bool
  | some (.file _) => true
  | some (.link _ dangling) => !dangling
  | none => false

/-- `_copy_resolv_conf` with the configuration of the minion. -/
def copyResolvConf (minion : String) (g : Guest) : Guest :=
  if testPath g.resolvConf then ⟨some (.file minion), g.resolvConf⟩
  else { g with resolvConf := some (.file minion) }

def restoreResolvConf (g : Guest) : Guest :=
  if testPath g.old then ⟨g.old, none⟩ else g

/-- A package phase from its `pre_packages_` to its `post_packages_` method. -/
def phase (minion : String) (g : Guest) : Guest := restoreResolvConf (copyResolvConf minion g)

/-- The package phases of `_morph_image`, with or without export tools. -/
def morphImage (exports : Bool) (minion : String) (g : Guest) : Guest :=
  phase minion (if exports then phase minion g else g)

/-- An attempt that stops between copy and restore: when packages are removed, or when they are
installed, with or without export tools. -/
structure Stopped where
  installing : Bool
  exports : Bool
  minion : String

def Stopped.run (a : Stopped) (g : Guest) : Guest :=
  copyResolvConf a.minion (if a.installing && a.exports then phase a.minion g else g)

def attempts (earlier : List Stopped) (exports : Bool) (minion : String) (g : Guest) : Guest :=
  morphImage exports minion (earlier.foldl (fun g a => a.run g) g)

section

variable {minion : String} {g : Guest}

@[simp] lemma resolvConf_copyResolvConf :
    (copyResolvConf minion g).resolvConf = some (.file minion) := by
  unfold copyResolvConf
  split <;> rfl

lemma phase_of_testPath (htest : testPath g.resolvConf = true) :
    phase minion g = ⟨g.resolvConf, none⟩ := by
  simp [phase, copyResolvConf, restoreResolvConf, htest]

/-- If what is there as the old configuration is a file, none is left behind. -/
lemma phase_settles (hold : ∀ node ∈ g.old, ∃ content, node = .file content) :
    testPath (phase minion g).resolvConf = true ∧ (phase minion g).old = none := by
  by_cases htest : testPath g.resolvConf = true
  · simp [phase_of_testPath htest, htest]
  have hcopy : copyResolvConf minion g = ⟨some (.file minion), g.old⟩ := if_neg htest
  rw [phase, hcopy]
  cases hg : g.old with
  | none => exact ⟨rfl, rfl⟩
  | some node =>
    obtain ⟨content, rfl⟩ := hold node hg
    exact ⟨rfl, rfl⟩

lemma morphImage_of_testPath (exports : Bool) (htest : testPath g.resolvConf = true) :
    morphImage exports minion g = ⟨g.resolvConf, none⟩ := by
  cases exports <;> simp [morphImage, phase_of_testPath, htest]

lemma morphImage_settles (exports : Bool)
    (hold : ∀ node ∈ g.old, ∃ content, node = .file content) :
    testPath (morphImage exports minion g).resolvConf = true ∧
      (morphImage exports minion g).old = none := by
  cases exports with
  | false => exact phase_settles hold
  | true =>
    have hfirst := @phase_settles minion g hold
    refine phase_settles fun node hnode => ?_
    simp [hfirst.2] at hnode

/-- The next attempt keeps what the minion of a stopped one had. -/
lemma attempts_concat (earlier : List Stopped) (a : Stopped) (exports : Bool) :
    attempts (earlier ++ [a]) exports minion g = ⟨some (.file a.minion), none⟩ := by
  rw [attempts, List.foldl_append]
  simp [Stopped.run, morphImage_of_testPath, testPath]

end

/-- The guest has its configuration back after all attempts if it had one that is not a dangling
link, without an old one, and no attempt before had stopped, or its configuration was the one that
the minion of the last of these had. -/
theorem attempts_eq_iff (earlier : List Stopped) (exports : Bool) (minion : String) (g : Guest)
    (hold : ∀ node ∈ g.old, ∃ content, node = .file content) :
    attempts earlier exports minion g = g ↔
      testPath g.resolvConf = true ∧ g.old = none ∧
        ∀ a ∈ earlier.getLast?, g.resolvConf = some (.file a.minion) := by
  obtain ⟨resolvConf, old⟩ := g
  rcases List.eq_nil_or_concat earlier with rfl | ⟨before, a, rfl⟩
  · constructor
    · intro heq
      have hafter := @morphImage_settles minion _ exports hold
      rw [show morphImage exports minion ⟨resolvConf, old⟩ = _ from heq] at hafter
      exact ⟨hafter.1, hafter.2, by simp⟩
    · rintro ⟨htest, rfl, -⟩
      exact morphImage_of_testPath exports htest
  · rw [List.concat_eq_append, attempts_concat]
    constructor
    · rintro ⟨⟩
      exact ⟨rfl, rfl, by simp⟩
    · rintro ⟨-, rfl, hlast⟩
      have hfile : resolvConf = _ := hlast a (by simp)
      rw [hfile]

theorem attempts_eq_first : attempts [] true "minion" ⟨some (.file "guest"), none⟩ =
    ⟨some (.file "guest"), none⟩ :=
  (attempts_eq_iff [] true "minion" _ (by simp)).mpr ⟨rfl, rfl, by simp⟩

/-- A guest without a configuration keeps the minion's. One that has a configuration does so after
an attempt that stopped. -/
theorem minion_stays :
    attempts [] false "minion" ⟨none, none⟩ = ⟨some (.file "minion"), none⟩ ∧
      attempts [⟨true, false, "minion"⟩] false "minion" ⟨some (.file "guest"), none⟩ =
        ⟨some (.file "minion"), none⟩ :=
  ⟨rfl, rfl⟩

end Coriolis.OsMorphing.ResolvConf

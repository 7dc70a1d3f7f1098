import Mathlib.Data.Char
import Mathlib.Data.List.Lex
import Mathlib.Data.List.Sort

/-!
# User scripts

`morph_image` runs scripts before and after it mounts the guest, and registers others for the first
boot, as files that are run in the order of their names. A name begins with an index of at least two
digits, so the order is lost when there are three. A command that runs a script is repeated when the
connection breaks, also if the script had begun.
-/

namespace Coriolis.OsMorphing.UserScripts

inductive Phase where
  | osmorphingPreOsMount | osmorphingPostOsMount | replicaFirstBoot
  deriving DecidableEq

structure UserScript where
  phase : Phase
  payload : String

def payloads (phase : Phase) (userScripts : List UserScript) : List String :=
  (userScripts.filter (·.phase = phase)).map (·.payload)

/-- The runs of the scripts of a phase by `run_user_script`. Up to four attempts at the command of a
script break, and `repeats` is in how many of them it had begun. -/
def runUserScripts (repeats : Nat → Fin 5) : List String → List String
  | [] => []
  | script :: scripts =>
    (if script = "" then [] else List.replicate (repeats 0 + 1) script) ++
      runUserScripts (fun k => repeats (k + 1)) scripts

inductive Os where
  | linux | windows

/-- What is added to the index of a user script. -/
def Os.bump : Os → Nat
  | linux => 0
  | windows => 51

/-- The format `02d`. -/
def twoDigits (n : Nat) : List Char := (if n < 10 then ['0'] else []) ++ Nat.toDigits 10 n

def fileName (priority : Nat) (name : List Char) : List Char := twoDigits priority ++ '-' :: name

/-- The files of `register_firstboot_script` for the scripts from an index on. -/
def registerFirstbootScripts (os : Os) (uniqueId : Nat → List Char) :
    Nat → List String → List (List Char × String)
  | _, [] => []
  | index, script :: scripts =>
    (if script = "" then [] else [(fileName (index + os.bump) (uniqueId index), script)]) ++
      registerFirstbootScripts os uniqueId (index + 1) scripts

/-- The broken attempts before and after the guest is mounted, the rest of the file names, and
whether everything else succeeds. -/
structure Environment where
  beforeMount : Nat → Fin 5
  afterMount : Nat → Fin 5
  uniqueId : Nat → List Char
  succeeds : Bool

/-- What `morph_image` has run before and after it mounted the guest, and the files it registered. -/
structure Morphed where
  beforeMount : List String
  afterMount : List String
  files : List (List Char × String)

def morphImage (os : Os) (env : Environment) (userScripts : List UserScript) : Option Morphed :=
  if env.succeeds then
    some ⟨runUserScripts env.beforeMount (payloads .osmorphingPreOsMount userScripts),
      runUserScripts env.afterMount (payloads .osmorphingPostOsMount userScripts),
      registerFirstbootScripts os env.uniqueId 0 (payloads .replicaFirstBoot userScripts)⟩
  else none

/-- A script of Coriolis itself, with the priority it has on Windows. -/
structure ServiceScript where
  priority : Fin 51
  name : List Char

def ServiceScript.file (s : ServiceScript) : Os → List Char
  | .linux => s.name
  | .windows => fileName s.priority s.name

def alphabetical (names : List (List Char)) : List (List Char) := names.insertionSort (· ≤ ·)

/-- The files in the order in which they are run. On Linux those of Coriolis have their own
directory. -/
def boot (service user : List (List Char)) : Os → List (List Char)
  | .linux => alphabetical service ++ alphabetical user
  | .windows => alphabetical (service ++ user)

/-- The scripts of each phase are run once and in their order. -/
def RunsInOrder (os : Os) (service : List ServiceScript) (userScripts : List UserScript)
    (m : Morphed) : Prop :=
  let own := service.map (·.file os)
  m.beforeMount = payloads .osmorphingPreOsMount userScripts ∧
    m.afterMount = payloads .osmorphingPostOsMount userScripts ∧
    m.files.map (·.2) = payloads .replicaFirstBoot userScripts ∧ (m.files.map (·.1)).Nodup ∧
    boot own (m.files.map (·.1)) os = alphabetical own ++ m.files.map (·.1)

lemma runUserScripts_eq_iff (hne : ∀ s ∈ scripts, s ≠ "") :
    scripts.length ≤ (runUserScripts repeats scripts).length ∧
      (runUserScripts repeats scripts = scripts ↔ ∀ k < scripts.length, repeats k = 0) := by
  induction scripts generalizing repeats with
  | nil => simp [runUserScripts]
  | cons s scripts ih =>
    rw [List.forall_mem_cons] at hne
    obtain ⟨hle, hiff⟩ := @ih (fun k => repeats (k + 1)) hne.2
    rw [runUserScripts, if_neg hne.1, List.length_cons, Nat.forall_lt_succ_left, ← hiff]
    constructor
    · simp only [List.length_append, List.length_replicate]
      omega
    · rw [List.replicate_succ, List.cons_append, List.cons.injEq]
      constructor
      · rintro ⟨-, heq⟩
        have hnone : (repeats 0 : Nat) = 0 := by
          have hlength := congrArg List.length heq
          simp only [List.length_append, List.length_replicate] at hlength
          omega
        rw [hnone] at heq
        exact ⟨Fin.ext hnone, heq⟩
      · rintro ⟨hnone, heq⟩
        rw [hnone]
        exact ⟨rfl, heq⟩

lemma fileName_lt {i j : Nat} (hij : i < j) (hj : j < 100) : fileName i a < fileName j b := by
  have hdigits : ∀ n < 100,
      twoDigits n = [Nat.digitChar (n / 10), Nat.digitChar (n % 10)] := by decide
  have hdigit : ∀ d < 10, ∀ c < d, Nat.digitChar c < Nat.digitChar d := by decide
  simp only [fileName, hdigits i (hij.trans hj), hdigits j hj, List.cons_append, List.nil_append,
    List.cons_lt_cons_iff]
  rcases Nat.lt_or_ge (i / 10) (j / 10) with h | h
  · exact .inl (hdigit _ (by omega) _ h)
  · exact .inr ⟨by rw [show i / 10 = j / 10 by omega], .inl (hdigit _ (by omega) _ (by omega))⟩

def names (os : Os) (uniqueId : Nat → List Char) (n : Nat) : List (List Char) :=
  (List.range n).map fun k => fileName (k + os.bump) (uniqueId k)

lemma registerFirstbootScripts_eq (hne : ∀ s ∈ scripts, s ≠ "") (index : Nat) :
    let files := registerFirstbootScripts os uniqueId index scripts
    files.map (·.2) = scripts ∧ files.map (·.1) =
      (List.range' index scripts.length).map fun k => fileName (k + os.bump) (uniqueId k) := by
  induction scripts generalizing index with
  | nil => exact ⟨rfl, rfl⟩
  | cons s scripts ih =>
    rw [List.forall_mem_cons] at hne
    obtain ⟨hscripts, hnames⟩ := ih hne.2 (index + 1)
    simp [registerFirstbootScripts, hne.1, List.range'_succ, hscripts, hnames]

lemma pairwise_names_iff : (names os uniqueId n).Pairwise (· < ·) ↔ n + os.bump ≤ 100 := by
  rw [names, List.pairwise_map]
  constructor
  · intro h
    by_contra hmany
    have hbump : os.bump ≤ 51 := by cases os <;> decide
    have hlt := List.pairwise_iff_getElem.mp h (99 - os.bump) (100 - os.bump) (by simp; omega)
      (by simp; omega) (by omega)
    rw [List.getElem_range, List.getElem_range, show 99 - os.bump + os.bump = 99 by omega,
      show 100 - os.bump + os.bump = 100 by omega, fileName, fileName,
      show twoDigits 99 = ['9', '9'] by decide, show twoDigits 100 = ['1', '0', '0'] by decide] at hlt
    simp [List.cons_lt_cons_iff] at hlt
  · intro hfew
    refine List.pairwise_lt_range.imp_of_mem fun _ hj hij => ?_
    rw [List.mem_range] at hj
    exact fileName_lt (by omega) (by omega)

lemma alphabetical_eq_iff {l l' : List (List Char)} (h : l.Perm l') :
    alphabetical l = l' ↔ l'.Pairwise (· ≤ ·) := by
  refine ⟨?_, fun hsorted => List.Perm.eq_of_pairwise' (List.pairwise_insertionSort _ _) hsorted
    ((List.perm_insertionSort _ _).trans h)⟩
  rintro rfl
  exact List.pairwise_insertionSort _ _

lemma boot_eq_iff (service : List ServiceScript) :
    (names os uniqueId n).Nodup ∧ boot (service.map (·.file os)) (names os uniqueId n) os =
      alphabetical (service.map (·.file os)) ++ names os uniqueId n ↔ n + os.bump ≤ 100 := by
  have hiff : (names os uniqueId n).Nodup ∧ (names os uniqueId n).Pairwise (· ≤ ·) ↔
      n + os.bump ≤ 100 := by
    rw [← @pairwise_names_iff os uniqueId, List.Nodup, ← List.pairwise_and_iff]
    simp only [lt_iff_le_and_ne, and_comm]
  cases os with
  | linux => rw [boot, List.append_cancel_left_eq, alphabetical_eq_iff .rfl, hiff]
  | windows =>
    have hperm (own : List (List Char)) : own.Perm (alphabetical own) :=
      (List.perm_insertionSort _ _).symm
    rw [boot, alphabetical_eq_iff ((hperm _).append_right _), List.pairwise_append]
    constructor
    · rintro ⟨hnodup, -, hsorted, -⟩
      exact hiff.mp ⟨hnodup, hsorted⟩
    · intro hfew
      obtain ⟨hnodup, hsorted⟩ := hiff.mpr hfew
      refine ⟨hnodup, List.pairwise_insertionSort _ _, hsorted, fun a ha b hb => ?_⟩
      rw [alphabetical, List.mem_insertionSort] at ha
      obtain ⟨s, -, rfl⟩ := List.mem_map.mp ha
      obtain ⟨k, hk, rfl⟩ := List.mem_map.mp hb
      rw [List.mem_range] at hk
      rw [Os.bump] at hfew
      exact (fileName_lt (Nat.lt_add_left k s.priority.isLt) (by omega)).le

/-- If the morphing is through, the scripts run once and in order exactly if no connection broke
after one had begun, and there are at most 100 scripts for the first boot on Linux, 49 on Windows. -/
theorem runsInOrder_iff (os : Os) (env : Environment) (service : List ServiceScript)
    (userScripts : List UserScript) (m : Morphed) (hne : ∀ s ∈ userScripts, s.payload ≠ "")
    (hrun : morphImage os env userScripts = some m) :
    RunsInOrder os service userScripts m ↔
      (∀ k < (payloads .osmorphingPreOsMount userScripts).length, env.beforeMount k = 0) ∧
      (∀ k < (payloads .osmorphingPostOsMount userScripts).length, env.afterMount k = 0) ∧
      (payloads .replicaFirstBoot userScripts).length + os.bump ≤ 100 := by
  have hpayloads : ∀ phase, ∀ s ∈ payloads phase userScripts, s ≠ "" := by
    intro phase s hs
    obtain ⟨script, hscript, rfl⟩ := List.mem_map.mp hs
    exact hne script (List.mem_filter.mp hscript).1
  rw [morphImage, Option.ite_none_right_eq_some] at hrun
  cases hrun.2
  obtain ⟨hscripts, hnames⟩ := @registerFirstbootScripts_eq _ os env.uniqueId
    (hpayloads .replicaFirstBoot) 0
  rw [← List.range_eq_range', ← names] at hnames
  simp only [RunsInOrder, (runUserScripts_eq_iff (hpayloads _)).2, hscripts, hnames, true_and,
    boot_eq_iff]

def threeScripts : List UserScript :=
  [⟨.replicaFirstBoot, "id"⟩, ⟨.osmorphingPreOsMount, "ls"⟩, ⟨.replicaFirstBoot, "df"⟩]

theorem runsInOrder_three :
    ∃ m, morphImage .linux ⟨fun _ => 0, fun _ => 0, fun _ => ['a'], true⟩ threeScripts = some m ∧
      RunsInOrder .linux [⟨10, ['b']⟩] threeScripts m :=
  ⟨_, rfl, (runsInOrder_iff _ ⟨fun _ => 0, fun _ => 0, fun _ => ['a'], true⟩ _ _ _
    (by decide) rfl).mpr (by decide)⟩

/-- On Windows, the file of the last one of 50 scripts has a name before that of the first one. -/
theorem fiftieth_script_first :
    fileName 100 ['a'] < fileName 51 ['a'] ∧
    ∃ m, morphImage .windows ⟨fun _ => 0, fun _ => 0, fun _ => ['a'], true⟩
      (List.replicate 50 ⟨.replicaFirstBoot, "id"⟩) = some m ∧
    ¬ RunsInOrder .windows [] (List.replicate 50 ⟨.replicaFirstBoot, "id"⟩) m := by
  refine ⟨by decide, _, rfl, ?_⟩
  rintro ⟨-, -, -, hboot⟩
  revert hboot
  decide

end Coriolis.OsMorphing.UserScripts

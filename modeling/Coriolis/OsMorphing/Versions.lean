import Coriolis.Library.Strings
import Mathlib.Data.List.Infix
import Mathlib.Data.List.TakeWhile
import Mathlib.Data.String.Basic

/-!
# Which versions of an OS are supported

`detect_os` of the CentOS and Rocky Linux tools takes the version from the first line of
`/etc/redhat-release` with a pattern that has one digit for each component. Of a major version with
several digits `check_os_supported` sees the first one only.
-/

namespace Coriolis.OsMorphing.Versions

abbrev Text := List Char

/-- ` release `. -/
def releaseWord : Text := [' ', 'r', 'e', 'l', 'e', 'a', 's', 'e', ' ']

/-- What follows ` release ` and begins with a digit, at the beginning of a text. -/
def afterRelease (s : Text) : Option Text :=
  if releaseWord <+: s ∧ (s.drop 9).head?.any Char.isDigit then some (s.drop 9) else none

/-- `^(.*) release [0-9]`: the first group, which is as long as possible, and what follows it from
the digit on. -/
def lastRelease : Text → Option (Text × Text)
  | [] => none
  | c :: s =>
    match lastRelease s with
    | some (distro, version) => some (c :: distro, version)
    | none => (afterRelease (c :: s)).map (([] : Text), ·)

/-- `(\.[0-9])*`. -/
def dottedDigits : Text → Text
  | '.' :: d :: s => if d.isDigit then '.' :: d :: dottedDigits s else []
  | _ => []

/-- `^(.*) release ([0-9](\.[0-9])*)( \(.*\))?.*$`: the first two groups. -/
def matchRelease (line : Text) : Option (Text × Text) :=
  if '\n' ∈ line then none
  else (lastRelease line).map fun (distro, version) =>
    (distro, version.take 1 ++ dottedDigits (version.drop 1))

def value (digits : Text) : Nat := digits.foldl (fun n d => 10 * n + (d.toNat - 48)) 0

def AtLeast (minimum : Nat) (whole fraction : Text) : Prop :=
  minimum * 10 ^ fraction.length ≤ value whole * 10 ^ fraction.length + value fraction

instance (minimum : Nat) (whole fraction : Text) : Decidable (AtLeast minimum whole fraction) :=
  inferInstanceAs (Decidable (_ ≤ _))

/-- `_version_supported_util` without a maximum. What detection gives it has one digit after the
point at most, so that rounding to a float does not matter. -/
def versionSupportedUtil (version : Text) (minimum : Nat) : Bool :=
  match version.takeWhile Char.isDigit, version.dropWhile Char.isDigit with
  | [], _ => false
  | whole, '.' :: rest => AtLeast minimum whole (rest.takeWhile Char.isDigit)
  | whole, _ => AtLeast minimum whole []

structure OSInfo where
  distributionName : Text
  releaseVersion : Text

def centOS : Text := "CentOS".toList
def centOSStream : Text := "CentOS Stream".toList
def almaLinux : Text := "AlmaLinux".toList
def rockyLinux : Text := "Rocky Linux".toList

/-- The tools whose detection reads `/etc/redhat-release` in this way. -/
inductive Tools where
  | centOS | rockyLinux
  deriving DecidableEq

/-- `detect_os` on the first line of the file. -/
def Tools.detectOs (tools : Tools) (line : Text) : Option OSInfo := do
  let (distro, version) ← matchRelease (Strings.strip line)
  match tools with
  | .centOS =>
    if ¬ Versions.centOS <:+: distro ∧ ¬ almaLinux <:+: distro then none
    else some ⟨if centOSStream <:+: distro then centOSStream else Versions.centOS, version⟩
  | .rockyLinux =>
    if ¬ Versions.rockyLinux <:+: distro then none else some ⟨Versions.rockyLinux, version⟩

def Tools.minimum : Tools → Nat
  | .centOS => 6
  | .rockyLinux => 8

/-- `check_os_supported`. -/
def Tools.checkOsSupported (tools : Tools) (info : OSInfo) : Bool :=
  let supported := match tools with
    | .centOS => [centOSStream, Versions.centOS]
    | .rockyLinux => [Versions.rockyLinux]
  supported.contains info.distributionName && versionSupportedUtil info.releaseVersion tools.minimum

def Tools.accepts (tools : Tools) (line : Text) : Bool :=
  ((tools.detectOs line).map tools.checkOsSupported).getD false

def Tools.identifiers : Tools → List Text
  | .centOS => [Versions.centOS, almaLinux]
  | .rockyLinux => [Versions.rockyLinux]

/-- The first line of `/etc/redhat-release`: a distribution of the tools, a version with a major
component and others, and perhaps a codename. -/
structure ReleaseLine (tools : Tools) where
  distribution : Text
  named : ∃ name ∈ tools.identifiers, name <:+: distribution
  trimmed : ∀ c ∈ distribution.head?, Strings.isSpace c = false
  major : Text
  others : List Text
  digits : ∀ component ∈ major :: others, component ≠ [] ∧ ∀ c ∈ component, c.isDigit
  codename : Option Text
  oneLine : '\n' ∉ distribution ∧ ∀ name ∈ codename, '\n' ∉ name

namespace ReleaseLine

variable (l : ReleaseLine tools)

def text : Text :=
  l.distribution ++ releaseWord ++ l.major ++ l.others.flatMap ('.' :: ·) ++
    match l.codename with
    | none => []
    | some name => ' ' :: '(' :: name ++ [')']

/-- The number formed by the first two components is at least this. -/
def AtLeast (minimum : Nat) : Prop := Versions.AtLeast minimum l.major (l.others.headD [])

end ReleaseLine

/-- The digit follows the last ` release ` that a digit follows. -/
def LastDigit (line : Text) (d : Char) : Prop :=
  ∃ before after, line = before ++ releaseWord ++ d :: after ∧ d.isDigit ∧
    ∀ before' d' after', line = before' ++ releaseWord ++ d' :: after' → d'.isDigit →
      before'.length ≤ before.length

section

variable {minimum : Nat}

lemma afterRelease_eq_some :
    afterRelease s = some version ↔ s = releaseWord ++ version ∧ version.head?.any Char.isDigit := by
  rw [afterRelease, Option.ite_none_right_eq_some, Option.some.injEq]
  constructor
  · rintro ⟨⟨⟨t, rfl⟩, hdigit⟩, rfl⟩
    exact ⟨rfl, hdigit⟩
  · rintro ⟨rfl, hdigit⟩
    exact ⟨⟨List.prefix_append .., hdigit⟩, rfl⟩

lemma lastRelease_append {after before : Text} {d : Char} (hd : d.isDigit) :
    ∃ distro version, lastRelease (before ++ releaseWord ++ d :: after) = some (distro, version) ∧
      before <+: distro := by
  induction before with
  | nil =>
    have hfirst : afterRelease (releaseWord ++ d :: after) = some (d :: after) :=
      afterRelease_eq_some.mpr ⟨rfl, hd⟩
    have hcons : lastRelease (releaseWord ++ d :: after) =
        match lastRelease (releaseWord.tail ++ d :: after) with
        | some (distro, version) => some (' ' :: distro, version)
        | none => (afterRelease (releaseWord ++ d :: after)).map (([] : Text), ·) := rfl
    rw [List.nil_append, hcons, hfirst]
    rcases lastRelease (releaseWord.tail ++ d :: after) with _ | ⟨distro, version⟩
    · exact ⟨[], d :: after, rfl, List.nil_prefix⟩
    · exact ⟨' ' :: distro, version, rfl, List.nil_prefix⟩
  | cons c before ih =>
    obtain ⟨distro, version, hrest, hprefix⟩ := ih
    refine ⟨c :: distro, version, ?_, List.cons_prefix_cons.mpr ⟨rfl, hprefix⟩⟩
    rw [List.cons_append, List.cons_append, lastRelease, hrest]

lemma lastRelease_eq_some (h : lastRelease line = some (distro, version)) :
    line = distro ++ releaseWord ++ version ∧ version.head?.any Char.isDigit := by
  induction line generalizing distro with
  | nil => cases h
  | cons c s ih =>
    rw [lastRelease] at h
    split at h
    · next hrest =>
      cases h
      obtain ⟨hs, hdigit⟩ := ih hrest
      exact ⟨by rw [hs]; rfl, hdigit⟩
    · obtain ⟨version', hfirst, heq⟩ := Option.map_eq_some_iff.mp h
      cases heq
      exact afterRelease_eq_some.mp hfirst

lemma lastDigit_iff (h : lastRelease line = some (distro, d :: after)) :
    LastDigit line d' ↔ d' = d := by
  obtain ⟨hline, hdigit⟩ := lastRelease_eq_some h
  have hlast : ∀ before' d' after', line = before' ++ releaseWord ++ d' :: after' → d'.isDigit →
      before'.length ≤ distro.length := by
    rintro before' d' after' rfl hd'
    obtain ⟨distro', version', h', hprefix⟩ := lastRelease_append hd'
    cases h.symm.trans h'
    exact hprefix.length_le
  constructor
  · rintro ⟨before', after', hline', hd', hmax⟩
    have hlen : before'.length = distro.length :=
      Nat.le_antisymm (hlast _ _ _ hline' hd') (hmax _ _ _ hline hdigit)
    have heq := hline'.symm.trans hline
    rw [List.append_assoc, List.append_assoc] at heq
    have htail := List.append_cancel_left (List.append_inj_right heq hlen)
    exact (List.cons.inj htail).1
  · rintro rfl
    exact ⟨distro, after, hline, hdigit, hlast⟩

end

section

variable {minimum : Nat}

lemma value_lt (h : ∀ c ∈ digits, c.isDigit) : value digits < 10 ^ digits.length := by
  induction digits using List.reverseRecOn with
  | nil => decide
  | append_singleton digits c ih =>
    have hc : c.toNat ≤ 57 := by
      have := h c (by simp)
      simp only [Char.isDigit, Bool.and_eq_true, decide_eq_true_eq] at this
      exact this.2
    have := ih fun c hc => h c (by simp [hc])
    rw [value, List.foldl_append, List.length_append, List.length_singleton, Nat.pow_succ]
    simp only [List.foldl_cons, List.foldl_nil]
    rw [value] at this
    omega

lemma atLeast_iff (h : ∀ c ∈ fraction, c.isDigit) :
    AtLeast minimum whole fraction ↔ minimum ≤ value whole := by
  have hlt := value_lt h
  unfold AtLeast
  constructor
  · intro hle
    by_contra hnot
    have := Nat.mul_le_mul_right (10 ^ fraction.length) (Nat.succ_le_of_lt (Nat.lt_of_not_le hnot))
    rw [Nat.succ_mul] at this
    omega
  · intro hle
    exact (Nat.mul_le_mul_right _ hle).trans (Nat.le_add_right _ _)

lemma dottedDigits_cases (s : Text) : dottedDigits s = [] ∨
    ∃ e rest, e.isDigit ∧ dottedDigits s = '.' :: e :: dottedDigits rest := by
  fun_cases dottedDigits s with
  | case1 d s hd => exact Or.inr ⟨d, s, hd, rfl⟩
  | case2 => exact Or.inl rfl
  | case3 => exact Or.inl rfl

lemma takeWhile_dottedDigits (s : Text) : (dottedDigits s).takeWhile Char.isDigit = [] := by
  rcases dottedDigits_cases s with h | ⟨e, rest, -, h⟩ <;> rw [h] <;> rfl

lemma versionSupportedUtil_dottedDigits (hd : d.isDigit) :
    versionSupportedUtil (d :: dottedDigits s) minimum = decide (minimum ≤ value [d]) := by
  have hwhole : (d :: dottedDigits s).takeWhile Char.isDigit = [d] := by
    rw [List.takeWhile_cons_of_pos hd, takeWhile_dottedDigits]
  have hrest : (d :: dottedDigits s).dropWhile Char.isDigit = dottedDigits s := by
    rw [List.dropWhile_cons_of_pos hd]
    rcases dottedDigits_cases s with h | ⟨e, rest, -, h⟩ <;> rw [h] <;> rfl
  rw [versionSupportedUtil, hwhole, hrest]
  rcases dottedDigits_cases s with h | ⟨e, rest, he, h⟩
  · rw [h]
    exact decide_eq_decide.mpr (atLeast_iff (by simp))
  · rw [h]
    exact decide_eq_decide.mpr (atLeast_iff (fun c hc => List.mem_takeWhile_imp hc))

end

section

variable (l : ReleaseLine tools)

lemma not_mem_component (h : component ∈ l.major :: l.others) (hc : c.isDigit = false) :
    c ∉ component :=
  fun hmem => by simp [(l.digits component h).2 c hmem] at hc

lemma isSpace_of_isDigit (h : c.isDigit) : Strings.isSpace c = false := by
  have hle : 48 ≤ c.toNat ∧ c.toNat ≤ 57 := by
    simp only [Char.isDigit, Bool.and_eq_true, decide_eq_true_eq] at h
    exact h
  simp [Strings.isSpace]
  omega

lemma getLast?_version (h : c ∈ (l.major ++ l.others.flatMap ('.' :: ·)).getLast?) :
    c.isDigit := by
  rcases List.eq_nil_or_concat l.others with hnil | ⟨others, component, hothers⟩
  · rw [hnil, List.flatMap_nil, List.append_nil] at h
    exact (l.digits l.major List.mem_cons_self).2 c (List.mem_of_getLast? h)
  · have hcomponent := l.digits component (by simp [hothers])
    rw [hothers, List.concat_eq_append, List.flatMap_append, List.flatMap_singleton,
      ← List.append_assoc, List.getLast?_append_of_ne_nil _ (by simp),
      List.getLast?_cons_of_ne_nil hcomponent.1] at h
    exact hcomponent.2 c (List.mem_of_getLast? h)

lemma strip_text : Strings.strip l.text = l.text := by
  obtain ⟨c, distribution, hcons⟩ := List.exists_cons_of_ne_nil (show l.distribution ≠ [] by
    obtain ⟨name, hname, hinfix⟩ := l.named
    intro hnil
    rw [hnil, List.infix_nil] at hinfix
    subst hinfix
    exact (by cases tools <;> decide : [] ∉ tools.identifiers) hname)
  refine Strings.strip_eq_self ?_ ?_
  · intro c' hc'
    refine l.trimmed c' ?_
    simpa [ReleaseLine.text, hcons] using hc'
  · intro c' hc'
    cases hcodename : l.codename with
    | none =>
      have hne : l.major ++ l.others.flatMap ('.' :: ·) ≠ [] := by
        simp [(l.digits l.major List.mem_cons_self).1]
      rw [ReleaseLine.text, hcodename, List.append_nil, List.append_assoc,
        List.getLast?_append_of_ne_nil _ hne] at hc'
      exact isSpace_of_isDigit (getLast?_version l hc')
    | some name =>
      have hlast : l.text.getLast? = some ')' := by
        rw [ReleaseLine.text, hcodename, ← List.append_assoc, List.getLast?_concat]
      cases hlast.symm.trans hc'
      decide

lemma newline_not_mem_text : '\n' ∉ l.text := by
  have hothers : '\n' ∉ l.others.flatMap ('.' :: ·) := by
    intro hmem
    obtain ⟨component, hcomponent, hc⟩ := List.mem_flatMap.mp hmem
    rcases List.mem_cons.mp hc with hc | hc
    · cases hc
    · exact not_mem_component l (List.mem_cons_of_mem _ hcomponent) rfl hc
  have hmajor : '\n' ∉ l.major := not_mem_component l List.mem_cons_self rfl
  have hword : '\n' ∉ releaseWord := by decide
  have hname := l.oneLine.2
  cases hcodename : l.codename <;>
    simp_all [ReleaseLine.text, l.oneLine.1]

lemma exists_lastRelease : ∃ distro d after, lastRelease l.text = some (distro, d :: after) ∧
    d.isDigit ∧ l.distribution <+: distro := by
  obtain ⟨d, major, hmajor⟩ := List.exists_cons_of_ne_nil (l.digits l.major List.mem_cons_self).1
  have hd : d.isDigit := (l.digits l.major List.mem_cons_self).2 d (by simp [hmajor])
  obtain ⟨after, htext⟩ : ∃ after, l.text = l.distribution ++ releaseWord ++ d :: after :=
    ⟨_, by rw [ReleaseLine.text, hmajor, List.append_assoc, List.append_assoc]; rfl⟩
  obtain ⟨distro, version, h, hprefix⟩ := @lastRelease_append after l.distribution d hd
  rw [← htext] at h
  have hdigit := (lastRelease_eq_some h).2
  cases version with
  | nil => cases hdigit
  | cons d' after' => exact ⟨distro, d', after', h, hdigit, hprefix⟩

lemma accepts_eq (h : lastRelease l.text = some (distro, d :: after)) :
    tools.accepts l.text = decide (tools.minimum ≤ value [d]) := by
  obtain ⟨distro', d', after', h', hd, hprefix⟩ := exists_lastRelease l
  cases h.symm.trans h'
  have hmatch : matchRelease (Strings.strip l.text) = some (distro, d :: dottedDigits after) := by
    rw [strip_text, matchRelease, if_neg (newline_not_mem_text l), h]
    rfl
  obtain ⟨name, hname, hinfix⟩ := l.named
  have hdistro : name <:+: distro := hinfix.trans hprefix.isInfix
  have hversion : versionSupportedUtil (d :: dottedDigits after) tools.minimum =
      decide (tools.minimum ≤ value [d]) := versionSupportedUtil_dottedDigits hd
  cases tools with
  | centOS =>
    have hcentOS : ¬ (¬ centOS <:+: distro ∧ ¬ almaLinux <:+: distro) := by
      rcases List.mem_pair.mp hname with rfl | rfl
      · exact fun h => h.1 hdistro
      · exact fun h => h.2 hdistro
    simp only [Tools.accepts, Tools.detectOs, hmatch, Option.bind_eq_bind, Option.bind_some,
      if_neg hcentOS, Option.map_some, Option.getD_some, Tools.checkOsSupported, hversion]
    split <;> simp
  | rockyLinux =>
    rw [List.mem_singleton.mp hname] at hdistro
    simp [Tools.accepts, Tools.detectOs, hmatch, hdistro, Tools.checkOsSupported, hversion]

end

/-- A release line is judged by its version exactly when the digit after the last ` release ` and
the major version are on the same side of the minimum. -/
theorem accepts_iff_atLeast_iff (tools : Tools) (l : ReleaseLine tools) :
    (tools.accepts l.text ↔ l.AtLeast tools.minimum) ↔
      ∀ d, LastDigit l.text d → (tools.minimum ≤ value [d] ↔ tools.minimum ≤ value l.major) := by
  obtain ⟨distro, d, after, h, -, -⟩ := exists_lastRelease l
  have hnumber : l.AtLeast tools.minimum ↔ tools.minimum ≤ value l.major := by
    refine atLeast_iff fun c hc => ?_
    rcases hothers : l.others with _ | ⟨component, others⟩
    · simp [hothers] at hc
    · rw [hothers] at hc
      exact (l.digits component (by simp [hothers])).2 c hc
  simp only [lastDigit_iff h, forall_eq]
  rw [accepts_eq l h, hnumber, decide_eq_true_iff]

def stream10 : ReleaseLine .centOS where
  distribution := centOSStream
  named := ⟨centOS, by decide, by decide⟩
  trimmed := by
    have hfirst : centOSStream.head? = some 'C' := by decide
    simp [hfirst, Strings.isSpace]
  major := ['1', '0']
  others := []
  digits := by simp
  codename := some "Coughlan".toList
  oneLine := by decide

theorem stream10_rejected :
    stream10.text = "CentOS Stream release 10 (Coughlan)".toList ∧
      stream10.AtLeast 6 ∧ Tools.centOS.accepts stream10.text = false := by
  refine ⟨by decide, ?_, by decide⟩
  unfold ReleaseLine.AtLeast
  decide

end Coriolis.OsMorphing.Versions

import Coriolis.Library.Strings
import Mathlib.Logic.Relation

/-!
# The files of `/etc/network/interfaces`

The preserver reads `/etc/network/interfaces` and the files it includes, from a list that the
`source` lines extend. What it reads is a text already, and the attempt to decode it raises at the
first file.
-/

namespace Coriolis.OsMorphing

abbrev Text := List Char

/-- `split('/')[0]`. -/
def Text.host (text : Text) : Text := text.takeWhile (· ≠ '/')

/-- The addresses of an interface. A MAC address that is empty counts as none. -/
structure Info where
  macAddress : Option Text
  ipAddresses : List Text
  deriving DecidableEq

inductive NetError where
  | noStaticConfiguration
  | attributeError
  | unboundLocalError
  deriving DecidableEq

namespace Interfaces

/-- The files of a guest and their lines. A path leads to at most one file, and a pattern stands for
those it matches. -/
structure Files (φ : Type) where
  root : φ
  lines : φ → List Text
  file : Text → Option φ
  matching : Text → List φ
  matching_file : ∀ path f, file path = some f → matching path = [f]

inductive Line where
  | iface (name : Text)
  | hwaddress (mac : Text)
  | address (text : Text)
  | source (path : Text)
  | other
  deriving DecidableEq

/-- The branch of `_parse_iface_file` for a line. -/
def branch (line : Text) : Line :=
  let words := (line.splitOnP Strings.isSpace).filter (· ≠ [])
  let starts (word : String) := word.toList.isPrefixOf (Strings.strip line)
  if starts "iface" then words[1]?.elim .other .iface
  else if starts "hwaddress ether" then words[2]?.elim .other .hwaddress
  else if starts "address" then words[1]?.elim .other .address
  else if starts "source" then words[1]?.elim .other .source
  else .other

structure State (φ : Type) where
  paths : List φ
  reads : List φ
  interfaceInfo : Text → Option Info
  currIface : Option Text

/-- Only for a path that leads to a file is `ls` called, and prints it. -/
def parseLine (files : Files φ) (s : State φ) (line : Text) : State φ :=
  let change (name : Text) (f : Info → Info) : State φ :=
    { s with interfaceInfo := fun n =>
        if n = name then (s.interfaceInfo n).map f else s.interfaceInfo n }
  match branch line, s.currIface with
  | .iface name, _ => { s with
      interfaceInfo := fun n => if n = name then some ⟨none, []⟩ else s.interfaceInfo n
      currIface := some name }
  | .hwaddress mac, some name => change name ({ · with macAddress := some mac })
  | .address text, some name =>
    change name fun info => { info with ipAddresses := info.ipAddresses ++ [text.host] }
  | .source path, _ => { s with paths := s.paths ++ (files.file path).toList }
  | _, _ => s

inductive Contents where
  | text (lines : List Text)
  | bytes (lines : List Text)

def Contents.decode : Contents → Except NetError (List Text)
  | text _ => throw .attributeError
  | bytes lines => return lines

/-- `_read_file_sudo` returns what a command printed. -/
def readFileSudo (files : Files φ) (f : φ) : Contents := .text (files.lines f)

/-- The loop over the paths, with the files that have been read when it ends. -/
def parseLoop (files : Files φ) :
    Nat → State φ → Option (List φ × Except NetError (Text → Option Info))
  | 0, _ => none
  | rounds + 1, s =>
    match s.paths with
    | [] => some (s.reads, .ok s.interfaceInfo)
    | f :: _ =>
      match (readFileSudo files f).decode with
      | .error err => some (s.reads ++ [f], .error err)
      | .ok lines =>
        let s := lines.foldl (parseLine files)
          { s with reads := s.reads ++ [f], currIface := none }
        parseLoop files rounds { s with paths := s.paths.tail }

def parseNetwork (files : Files φ) (rounds : Nat) :
    Option (List φ × Except NetError (Text → Option Info)) :=
  parseLoop files rounds ⟨[files.root], [], fun _ => none, none⟩

def Files.Includes (files : Files φ) (f f' : φ) : Prop :=
  ∃ line ∈ files.lines f, ∃ path, branch line = .source path ∧ f' ∈ files.matching path

/-- The call ends, and has read each file that is included once. -/
def ReadsOnce (files : Files φ) : Prop :=
  ∃ rounds reads result, parseNetwork files rounds = some (reads, result) ∧ reads.Nodup ∧
    ∀ f, f ∈ reads ↔ Relation.ReflTransGen files.Includes files.root f

lemma parseNetwork_succ (files : Files φ) (rounds : Nat) :
    parseNetwork files (rounds + 1) = some ([files.root], .error .attributeError) :=
  rfl

/-- This is so only if `/etc/network/interfaces` includes no other file. No call returns normally. -/
theorem readsOnce_iff (files : Files φ) :
    (ReadsOnce files ↔ ∀ f, files.Includes files.root f → f = files.root) ∧
      ∀ rounds reads info, parseNetwork files rounds ≠ some (reads, .ok info) := by
  refine ⟨⟨?_, fun honly => ?_⟩, ?_⟩
  · rintro ⟨- | rounds, reads, result, hrun, -, hreads⟩ f hf
    · cases hrun
    · rw [parseNetwork_succ] at hrun
      cases hrun
      exact List.mem_singleton.mp ((hreads f).mpr (.single hf))
  · refine ⟨1, _, _, parseNetwork_succ files 0, by simp, fun f => ?_⟩
    rw [List.mem_singleton]
    constructor
    · rintro rfl
      exact .refl
    · intro hf
      induction hf with
      | refl => rfl
      | tail _ hf ih => exact honly _ (ih ▸ hf)
  · rintro (- | rounds) reads info hrun
    · cases hrun
    · rw [parseNetwork_succ] at hrun
      cases hrun

/-- The file `true` has a line that includes the file `false`. -/
def including : Files Bool where
  root := true
  lines f := if f then ["source /b".toList] else []
  file path := if path = "/b".toList then some false else none
  matching path := if path = "/b".toList then [false] else []
  matching_file := by
    intro path f hf
    split at hf <;> simp_all

theorem included_not_read : including.Includes true false ∧
    ∀ rounds, parseNetwork including (rounds + 1) = some ([true], .error .attributeError) :=
  ⟨⟨_, List.mem_singleton.mpr rfl, "/b".toList, by decide, by decide⟩, fun _ => rfl⟩

end Interfaces

end Coriolis.OsMorphing

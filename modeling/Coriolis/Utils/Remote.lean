import Mathlib.Data.List.TakeDrop

/-!
# Reaching a remote machine

`wait_for_port_connectivity` probes a port once per second, and `write_winrm_file` writes a file of
a Windows machine in chunks. The first takes a port that opens at the last probe for a closed one,
and the second does not create a file for an empty content.
-/

namespace Coriolis.Utils

/-- The counter after the loop of `wait_for_port_connectivity`, with the probes from the counter on
and the rounds that are left. The loop has made one probe more. -/
def pollPort (probes : Nat → Bool) : Nat → Nat → Nat
  | i, 0 => i
  | i, left + 1 => if probes i then i else pollPort probes (i + 1) left

/-- The result, and the number of probes. -/
def waitForPortConnectivity (probes : Nat → Bool) (port maxWait : Nat) : Except String Unit × Nat :=
  let i := pollPort probes 0 maxWait
  (if i = maxWait then .error s!"Connection failed on port {port}" else .ok (), i + 1)

lemma pollPort_spec (probes : Nat → Bool) (i left : Nat) :
    pollPort probes i left ≤ i + left ∧ (∀ j, i ≤ j → j < pollPort probes i left → ¬ probes j) ∧
      (pollPort probes i left < i + left → probes (pollPort probes i left)) := by
  fun_induction pollPort probes i left with
  | case1 i => grind
  | case2 i left h => grind
  | case3 i left h ih => grind

/-- The call is right about the first `maxWait + 1` probes exactly if one but the last of them
succeeds, or the last one fails. -/
theorem waitForPortConnectivity_right_iff (probes : Nat → Bool) (port maxWait : Nat) :
    let call := waitForPortConnectivity probes port maxWait
    (((∃ i ≤ maxWait, probes i) ↔ call.1 = .ok ()) ∧
      ((¬ ∃ i ≤ maxWait, probes i) → (∃ err, call.1 = .error err) ∧ call.2 = maxWait + 1)) ↔
    (∃ i < maxWait, probes i) ∨ ¬ probes maxWait := by
  obtain ⟨hle, hbefore, hfound⟩ := pollPort_spec probes 0 maxWait
  simp only [waitForPortConnectivity]
  by_cases hlast : pollPort probes 0 maxWait = maxWait
  · have hnone : ¬ ∃ i < maxWait, probes i := by grind
    rw [if_pos hlast, hlast]
    grind
  · have hsome : ∃ i < maxWait, probes i := ⟨_, by omega, hfound (by omega)⟩
    rw [if_neg hlast]
    grind

theorem open_port_refused :
    waitForPortConnectivity (fun _ => true) 22 0 = (.error "Connection failed on port 22", 1) := by
  decide

inductive Content where
  | text (chars : List Char)
  | bytes (data : List UInt8)

namespace Content

def length : Content → Nat
  | text chars => chars.length
  | bytes data => data.length

/-- The bytes of a text are those of its encoding in UTF-8. -/
def encode : Content → List UInt8
  | text chars => chars.flatMap String.utf8EncodeChar
  | bytes data => data

/-- `content[idx:idx + 2048]`. -/
def slice (idx : Nat) : Content → Content
  | text chars => text ((chars.drop idx).take 2048)
  | bytes data => bytes ((data.drop idx).take 2048)

def drop (idx : Nat) : Content → Content
  | text chars => text (chars.drop idx)
  | bytes data => bytes (data.drop idx)

lemma length_slice (content : Content) (idx : Nat) :
    (content.slice idx).length = min 2048 (content.length - idx) := by
  cases content <;> simp [slice, length]

lemma encode_drop (content : Content) (idx : Nat) :
    (content.drop idx).encode = (content.slice idx).encode ++ (content.drop (idx + 2048)).encode := by
  cases content with
  | text chars =>
    simp only [drop, slice, encode, ← List.flatMap_append, ← List.drop_drop, List.take_append_drop]
  | bytes data => simp only [drop, slice, encode, ← List.drop_drop, List.take_append_drop]

lemma encode_drop_of_le {content : Content} (h : content.length ≤ idx) :
    (content.drop idx).encode = [] := by
  cases content with
  | text chars => rw [drop, List.drop_eq_nil_of_le h, encode, List.flatMap_nil]
  | bytes data => exact List.drop_eq_nil_of_le h

end Content

/-- The loop of `write_winrm_file`: each command appends a chunk to the file, which it creates if
there is none. -/
def appendChunks (content : Content) (idx : Nat) (file : Option (List UInt8)) :
    Option (List UInt8) :=
  if (content.slice idx).length = 0 then file
  else appendChunks content (idx + 2048) (some (file.getD [] ++ (content.slice idx).encode))
termination_by content.length - idx
decreasing_by
  rw [Content.length_slice] at *
  omega

/-- What is at a remote path. -/
inductive RemoteItem where
  | file (bytes : List UInt8)
  | directory

/-- `write_winrm_file`, with what is at the path before, and the file after it. -/
def writeWinrmFile (remotePath : String) (content : Content) (overwrite : Bool)
    (remote : Option RemoteItem) : Except String (Option (List UInt8)) :=
  if remote.isSome then
    if overwrite then .ok (appendChunks content 0 none)
    else .error s!"File {remotePath} already exists"
  else .ok (appendChunks content 0 none)

lemma appendChunks_eq (content : Content) (idx : Nat) (file : Option (List UInt8)) :
    appendChunks content idx file =
      if content.length ≤ idx then file
      else some (file.getD [] ++ (content.drop idx).encode) := by
  fun_induction appendChunks content idx file with
  | case1 idx file h =>
    rw [Content.length_slice] at h
    rw [if_pos (by omega)]
  | case2 idx file h ih =>
    rw [Content.length_slice] at h
    rw [ih, if_neg (show ¬ content.length ≤ idx by omega), content.encode_drop idx]
    split
    · next hlast => simp [Content.encode_drop_of_le hlast]
    · simp

/-- The file is there afterwards with the content exactly if this is not empty. -/
theorem writeWinrmFile_eq_iff (remotePath : String) (content : Content)
    (remote : Option RemoteItem) :
    writeWinrmFile remotePath content true remote = .ok (some content.encode) ↔
      content.length ≠ 0 := by
  have hfile : writeWinrmFile remotePath content true remote = .ok (appendChunks content 0 none) := by
    cases remote <;> rfl
  have hdrop : content.drop 0 = content := by cases content <;> rfl
  rw [hfile, appendChunks_eq, hdrop]
  split <;> simp <;> omega

theorem empty_file_removed :
    writeWinrmFile "C:\\a.txt" (.text []) true (some (.file [97])) = .ok none := by
  simp [writeWinrmFile, appendChunks, Content.slice, Content.length]

end Coriolis.Utils

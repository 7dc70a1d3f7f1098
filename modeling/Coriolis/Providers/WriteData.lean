import Coriolis.Providers.DataTransfer

/-!
# The remote end of a transfer over SSH

`write_data` reads messages from its input, writes what they carry to the files they name and
answers each one with its id.

The sizes in a message are those its sender gave. `Buffer` keeps the announced size next to the
bytes that are known, and `Host.image` is the memory a pointer into the buffer can reach: what
was received or inflated, and behind it whatever the memory holds. A `Host` also decides what
a program cannot: whether memory is there and whether files and pipes take what is written.
-/

namespace Coriolis.Providers.WriteData

/-- The codes that `handle_msg` and `main` return. -/
inductive Err where
  | moreMsg
  | done
  | readMsgSize
  | msgSize
  | openFile
  | data
  | ioOpen
  | ioSeek
  | ioWrite
  | ioClose
  | noMem
  | invalidArgs
  | readMsgId
  | msgSizeInflated
  | zlib
  | writeMsgId
  | outOfBouds
  deriving DecidableEq, Repr

def Err.code : Err → Int
  | moreMsg => -1
  | done => 0
  | readMsgSize => 1
  | msgSize => 2
  | openFile => 3
  | data => 4
  | ioOpen => 5
  | ioSeek => 6
  | ioWrite => 7
  | ioClose => 8
  | noMem => 9
  | invalidArgs => 10
  | readMsgId => 11
  | msgSizeInflated => 12
  | zlib => 13
  | writeMsgId => 14
  | outOfBouds => 15

/-- How a call ends: with a code, or by an access to memory that is not there. -/
inductive Exit where
  | returned (err : Err)
  | crashed
  deriving DecidableEq, Repr

def Exit.failed : Exit → Bool
  | returned err => decide (0 < err.code)
  | crashed => true

/-- The content of a file. A `long` holds its size. -/
abbrev File := { bytes : List UInt8 // bytes.length < 2 ^ 63 }

/-- The files that can be opened for reading and writing, by their paths. -/
abbrev FileSystem := List UInt8 → Option File

structure Host where
  /-- What memory holds before anything is stored there, from the start of a buffer on. -/
  memory : Nat → UInt8
  /-- How many bytes behind a buffer can be read. -/
  mapped : Nat
  malloc : Nat → Bool
  inflateInit : Bool
  /-- The number of bytes of a write that reach the device before an error of it, if any. -/
  diskError : Option Nat
  closes : Bool
  answers : Bool

structure Process where
  input : List UInt8
  files : FileSystem
  output : List UInt8

/-- A message body in memory. -/
structure Buffer where
  /-- `msg_size`. -/
  size : Nat
  /-- What was received, or inflated, into the buffer. -/
  bytes : List UInt8

/-- `MIN_MSG_SIZE`. -/
def minMsgSize : Nat := 9

/-- `MAX_MSG_SIZE`. -/
def maxMsgSize : Nat := 100 * 1024 * 1024

def File.fitting (offset : Nat) (data : List UInt8) : List UInt8 :=
  data.take (2 ^ 63 - 1 - offset)

lemma File.length_fitting (h : fitting offset data ≠ []) :
    offset + (fitting offset data).length < 2 ^ 63 := by
  have hlen := List.length_pos_iff.mpr h
  simp only [fitting, List.length_take] at hlen ⊢
  omega

lemma File.length_write (file : File) (offset : Nat) (data : List UInt8)
    (h : fitting offset data ≠ []) :
    (Bytes.overlay (file.val ++ List.replicate (offset - file.val.length) 0) offset
      (fitting offset data)).length < 2 ^ 63 := by
  have hfile := file.property
  have hdata := length_fitting h
  simp only [Bytes.overlay, List.length_append, List.length_take, List.length_drop,
    List.length_replicate]
  omega

/-- The file after data was written at an offset. A gap before the offset is filled with
zeros. -/
def File.write (file : File) (offset : Nat) (data : List UInt8) : File :=
  if h : fitting offset data = [] then file
  else
    ⟨Bytes.overlay (file.val ++ List.replicate (offset - file.val.length) 0) offset
      (fitting offset data), length_write file offset data h⟩

/-- The memory from the start of a buffer on, as far as it can be read. -/
def Host.image (host : Host) (buf : Buffer) : List UInt8 :=
  buf.bytes ++ (List.range (buf.size + host.mapped - buf.bytes.length)).map
    fun i => host.memory (buf.bytes.length + i)

def Host.reaching (host : Host) (data : List UInt8) : List UInt8 :=
  match host.diskError with
  | none => data
  | some n => data.take n

/-- What `fread` of `n` bytes gives. -/
def Process.fread (p : Process) (n : Nat) : List UInt8 := p.input.take n

def Process.skip (p : Process) (n : Nat) : Process := { p with input := p.input.drop n }

section

variable (inflate : List UInt8 → Option (List UInt8)) (host : Host)

/-- `inflate_buf`. The length of what was inflated is not compared with the announced one. -/
def inflateBuf (raw : List UInt8) (sizeInflated : Nat) : Except Err (List UInt8) :=
  if host.inflateInit then
    match inflate raw with
    | some bytes => if bytes.length ≤ sizeInflated then .ok bytes else .error .zlib
    | none => .error .zlib
  else .error .zlib

/-- `write_msg_id`, and what the caller of it then returns. -/
def writeMsgId (msgId : List UInt8) (err : Err) (p : Process) : Exit × Process :=
  if host.answers then (.returned err, { p with output := p.output ++ msgId })
  else (.returned .writeMsgId, p)

def readBody (msgSize sizeInflated : Nat) (p : Process) : Except Err Buffer × Process :=
  if host.malloc msgSize = false then (.error .noMem, p)
  else
    let raw := p.fread msgSize
    let p := p.skip msgSize
    if raw.length ≠ msgSize then (.error .ioOpen, p)
    else if sizeInflated = 0 then (.ok ⟨msgSize, raw⟩, p)
    else if host.malloc sizeInflated = false then (.error .noMem, p)
    else
      match inflateBuf inflate host raw sizeInflated with
      | .error err => (.error err, p)
      | .ok bytes => (.ok ⟨sizeInflated, bytes⟩, p)

/-- The first part of `handle_msg`: the id of a message and its body, or no body at the end of
the data. -/
def receive (p : Process) : Except Err (List UInt8 × Option Buffer) × Process :=
  let msgId := p.fread 4
  let p := p.skip 4
  if msgId.length ≠ 4 then (.error .readMsgId, p)
  else
    let word := p.fread 4
    let p := p.skip 4
    let msgSize := Bytes.value word
    if word.length ≠ 4 then (.error .readMsgSize, p)
    else if msgSize = 0 then (.ok (msgId, none), p)
    else if msgSize < minMsgSize ∨ maxMsgSize < msgSize then (.error .msgSize, p)
    else
      let word := p.fread 4
      let p := p.skip 4
      let sizeInflated := Bytes.value word
      if word.length ≠ 4 then (.error .msgSizeInflated, p)
      else if sizeInflated ≠ 0 ∧ (sizeInflated < minMsgSize ∨ maxMsgSize < sizeInflated) then
        (.error .msgSizeInflated, p)
      else
        match readBody inflate host msgSize sizeInflated p with
        | (.error err, p) => (.error err, p)
        | (.ok buf, p) => (.ok (msgId, some buf), p)

/-- The write of a message to an open file. `dataSize` is the `size_t` of the source, and the
sum for the end of the write is one of two `long`s. `fwrite` writes nothing if the size is a
negative number as a signed one. -/
def storeAt (mem : List UInt8) (path : List UInt8) (file : File) (offset dataSize data : Nat)
    (files : FileSystem) : Option Exit × FileSystem :=
  if 2 ^ 63 ≤ offset then (some (.returned .ioSeek), files)
  else if (file.val.length : Int) < Int.bmod (dataSize + offset) (2 ^ 64) then
    (some (.returned .outOfBouds), files)
  else if 2 ^ 63 ≤ dataSize then (some (.returned .ioWrite), files)
  else
    let written := host.reaching (File.fitting offset ((mem.drop data).take dataSize))
    let files := Function.update files path (some (file.write offset written))
    if written.length ≠ dataSize then
      (some (.returned (if host.closes then .ioWrite else .ioClose)), files)
    else if host.closes then (none, files)
    else (some (.returned .ioClose), files)

/-- The second part of `handle_msg`: a body is taken apart and stored. Neither the eight bytes
of the offset nor the data are known to be inside the buffer. -/
def store (buf : Buffer) (files : FileSystem) : Option Exit × FileSystem :=
  let mem := host.image buf
  match (mem.take buf.size).idxOf? 0 with
  | none => (some (.returned .data), files)
  | some nul =>
    let word := (mem.drop (nul + 1)).take 8
    if word.length ≠ 8 then (some .crashed, files)
    else
      match files (mem.take nul) with
      | none => (some (.returned .openFile), files)
      | some file =>
        let dataSize := (((buf.size : Int) - (nul + 9 : Nat)) % 2 ^ 64).toNat
        storeAt host mem (mem.take nul) file (Bytes.value word) dataSize (nul + 9) files

/-- `handle_msg`. -/
def handleMsg (p : Process) : Exit × Process :=
  match receive inflate host p with
  | (.error err, p) => (.returned err, p)
  | (.ok (msgId, none), p) => writeMsgId host msgId .done p
  | (.ok (msgId, some buf), p) =>
    match store host buf p.files with
    | (some exit, files) => (exit, { p with files })
    | (none, files) => writeMsgId host msgId .moreMsg { p with files }

/-- The loop of `main`, for a number of messages. -/
def handleMsgs : Nat → Process → Exit × Process
  | 0, p => (.returned .moreMsg, p)
  | n + 1, p =>
    match handleMsg inflate host p with
    | (.returned .moreMsg, p) => handleMsgs n p
    | r => r

/-- `main`, reading from its standard input. Every message that is followed by another one has
at least a header, so the input has fewer messages than bytes. -/
def main (p : Process) : Exit × Process := handleMsgs inflate host (p.input.length + 1) p

end

section

variable {host : Host} {buf : Buffer} {file : File} {path off tail mem data : List UInt8}
  {offset dataSize : Nat}

lemma idxOf?_zero (h : (0 : UInt8) ∉ path) : (path ++ 0 :: tail).idxOf? 0 = some path.length := by
  induction path with
  | nil => simp [List.idxOf?_cons]
  | cons b path ih =>
    simp only [List.mem_cons, not_or] at h
    simp [List.idxOf?_cons, Ne.symm h.1, ih h.2]

lemma fitting_of_le (h : offset + data.length < 2 ^ 63) : File.fitting offset data = data :=
  List.take_of_length_le (by omega)

lemma File.val_write (h : offset + data.length ≤ file.val.length) :
    (file.write offset data).val = Bytes.overlay file.val offset data := by
  have hfit : fitting offset data = data := fitting_of_le (h.trans_lt file.property)
  unfold File.write
  split
  · rename_i hnil
    rw [show data = [] from hfit ▸ hnil, Bytes.overlay_nil]
  · simp [hfit, Nat.sub_eq_zero_of_le (Nat.le_of_add_right_le h)]

lemma store_parsed (hmem : host.image buf = path ++ 0 :: (off ++ tail)) (hpath : 0 ∉ path)
    (hsize : path.length < buf.size) (hoff : off.length = 8) :
    store host buf files = match files path with
      | none => (some (.returned .openFile), files)
      | some file => storeAt host (host.image buf) path file (Bytes.value off)
          (((buf.size : Int) - (path.length + 9 : Nat)) % 2 ^ 64).toNat (path.length + 9) files := by
  have htake : (host.image buf).take buf.size =
      path ++ 0 :: (off ++ tail).take (buf.size - path.length - 1) := by
    obtain ⟨k, hk⟩ : ∃ k, buf.size - path.length = k + 1 := ⟨buf.size - path.length - 1, by omega⟩
    rw [hmem, List.take_append, List.take_of_length_le (by omega), hk]
    simp
  have hword : ((host.image buf).drop (path.length + 1)).take 8 = off := by
    rw [hmem, List.drop_append, List.drop_eq_nil_of_le (by omega)]
    simp [hoff]
  have hname : (host.image buf).take path.length = path := by rw [hmem, List.take_left]
  simp only [store, htake, idxOf?_zero hpath, hword, hoff, hname, ne_eq, not_true_eq_false,
    if_false]

lemma store_sized (hmem : host.image buf = path ++ 0 :: (off ++ tail)) (hpath : 0 ∉ path)
    (hoff : off.length = 8) (hsize : buf.size = path.length + 9 + dataSize)
    (hlt : dataSize < 2 ^ 64) :
    store host buf files = match files path with
      | none => (some (.returned .openFile), files)
      | some file => storeAt host (host.image buf) path file (Bytes.value off) dataSize
          (path.length + 9) files := by
  have hdata : (((buf.size : Int) - (path.length + 9 : Nat)) % 2 ^ 64).toNat = dataSize := by
    omega
  rw [store_parsed hmem hpath (by omega) hoff, hdata]

lemma size_eq (hoff : off.length = 8) (hbytes : buf.bytes = path ++ 0 :: (off ++ data))
    (hsize : buf.size = buf.bytes.length) : buf.size = path.length + 9 + data.length := by
  simp only [hsize, hbytes, List.length_append, List.length_cons, hoff]
  omega

lemma exists_image (hbytes : buf.bytes = path ++ 0 :: (off ++ data)) :
    ∃ behind, host.image buf = path ++ 0 :: (off ++ (data ++ behind)) := by
  rw [Host.image, hbytes, List.append_assoc, List.cons_append, List.append_assoc]
  exact ⟨_, rfl⟩

lemma drop_image (hmem : mem = path ++ 0 :: (off ++ tail)) (hoff : off.length = 8) :
    mem.drop (path.length + 9) = tail := by
  rw [hmem, List.drop_append, List.drop_eq_nil_of_le (by omega)]
  simp [hoff]

lemma bmod_of_lt (h : offset + dataSize < 2 ^ 63) :
    Int.bmod (dataSize + offset) (2 ^ 64) = dataSize + offset :=
  Int.bmod_eq_of_le (by omega) (by omega)

lemma storeAt_outside (hsum : offset + dataSize < 2 ^ 63)
    (hout : file.val.length < offset + dataSize) :
    storeAt host mem path file offset dataSize n files = (some (.returned .outOfBouds), files) := by
  simp only [storeAt, bmod_of_lt hsum]
  rw [if_neg (by omega), if_pos (by omega)]

lemma storeAt_inside (hin : offset + dataSize ≤ file.val.length)
    (hmem : dataSize ≤ (mem.drop n).length) (hdisk : host.diskError = none) :
    storeAt host mem path file offset dataSize n files =
      (if host.closes then none else some (.returned .ioClose),
        Function.update files path (some (file.write offset ((mem.drop n).take dataSize)))) := by
  have hfile := file.property
  have hbmod := bmod_of_lt (hin.trans_lt hfile)
  have hlen : ((mem.drop n).take dataSize).length = dataSize := List.length_take_of_le hmem
  have hfit : File.fitting offset ((mem.drop n).take dataSize) = (mem.drop n).take dataSize :=
    fitting_of_le (by omega)
  have hreach : host.reaching ((mem.drop n).take dataSize) = (mem.drop n).take dataSize := by
    simp [Host.reaching, hdisk]
  simp only [storeAt, hbmod, hfit, hreach, hlen]
  rw [if_neg (by omega), if_neg (by omega), if_neg (by omega), if_neg (by simp)]
  split <;> rfl

lemma store_whole (hpath : 0 ∉ path) (hoff : off.length = 8) (hfile : files path = some file)
    (hin : Bytes.value off + data.length ≤ file.val.length) (hdisk : host.diskError = none)
    (hbytes : buf.bytes = path ++ 0 :: (off ++ data)) (hsize : buf.size = buf.bytes.length) :
    store host buf files =
      (if host.closes then none else some (.returned .ioClose),
        Function.update files path (some (file.write (Bytes.value off) data))) := by
  obtain ⟨behind, himage⟩ := @exists_image host buf path off data hbytes
  have hmax := file.property
  rw [store_sized himage hpath hoff (size_eq hoff hbytes hsize) (by omega), hfile]
  have hdrop := drop_image himage hoff
  simp only
  rw [storeAt_inside hin (by simp [hdrop]) hdisk, hdrop, List.take_left]

lemma storeAt_none (hmem : dataSize ≤ (mem.drop n).length)
    (h : storeAt host mem path file offset dataSize n files = (none, files')) :
    offset + dataSize ≤ file.val.length ∧
      files' = Function.update files path (some (file.write offset ((mem.drop n).take dataSize))) := by
  have hlen : ((mem.drop n).take dataSize).length = dataSize := List.length_take_of_le hmem
  simp only [storeAt, ne_eq, ite_not] at h
  split at h
  · simp at h
  split at h
  · simp at h
  rename_i hbounds
  split at h
  · simp at h
  split at h
  swap
  · simp at h
  rename_i hwritten
  split at h
  swap
  · simp at h
  obtain ⟨-, rfl⟩ := Prod.mk.inj h
  -- all of the data was written, so it fits a file from the offset on
  have hreach : ∀ l, (host.reaching l).length ≤ l.length := fun l => by
    unfold Host.reaching
    split <;> simp
  have hfitting := hreach (File.fitting offset ((mem.drop n).take dataSize))
  have hfit : offset + dataSize < 2 ^ 63 := by
    rw [hwritten] at hfitting
    simp only [File.fitting, List.length_take, hlen] at hfitting
    omega
  rw [bmod_of_lt hfit] at hbounds
  refine ⟨by omega, ?_⟩
  have heq : File.fitting offset ((mem.drop n).take dataSize) = (mem.drop n).take dataSize :=
    fitting_of_le (by omega)
  rw [heq] at hwritten ⊢
  congr 3
  unfold Host.reaching at hwritten ⊢
  split
  · rfl
  · rename_i k hk
    rw [hk] at hwritten
    simp only [List.length_take, hlen] at hwritten
    exact List.take_of_length_le (by omega)

lemma store_none (hpath : 0 ∉ path) (hoff : off.length = 8)
    (hbytes : buf.bytes = path ++ 0 :: (off ++ data)) (hsize : buf.size = buf.bytes.length)
    (hmax : buf.size ≤ maxMsgSize) (h : store host buf files = (none, files')) :
    ∃ file, files path = some file ∧ Bytes.value off + data.length ≤ file.val.length ∧
      files' = Function.update files path (some (file.write (Bytes.value off) data)) := by
  obtain ⟨behind, himage⟩ := @exists_image host buf path off data hbytes
  have hlen := size_eq hoff hbytes hsize
  have hlt : maxMsgSize < 2 ^ 63 := by decide
  rw [store_sized himage hpath hoff hlen (by omega)] at h
  cases hfile : files path with
  | none => simp [hfile] at h
  | some file =>
    rw [hfile] at h
    have hdrop := drop_image himage hoff
    obtain ⟨hin, hfiles⟩ := storeAt_none (by simp [hdrop]) h
    rw [hdrop, List.take_left] at hfiles
    exact ⟨file, rfl, hin, hfiles⟩

end

section

variable {inflate : List UInt8 → Option (List UInt8)} {host : Host}
  {msgId body raw rest output : List UInt8}

/-- Memory is there and everything written is taken. -/
structure Host.Serves (host : Host) : Prop where
  malloc : ∀ n, host.malloc n = true
  inflateInit : host.inflateInit = true
  diskError : host.diskError = none
  closes : host.closes = true
  answers : host.answers = true

lemma receive_frame (hid : msgId.length = 4) (hsize : minMsgSize ≤ size ∧ size ≤ maxMsgSize)
    (hinflated : sizeInflated ≠ 0 → minMsgSize ≤ sizeInflated ∧ sizeInflated ≤ maxMsgSize) :
    receive inflate host
        ⟨msgId ++ Bytes.le 4 size ++ Bytes.le 4 sizeInflated ++ rest, files, output⟩ =
      match readBody inflate host size sizeInflated ⟨rest, files, output⟩ with
      | (.error err, p) => (.error err, p)
      | (.ok buf, p) => (.ok (msgId, some buf), p) := by
  have hmax : maxMsgSize < 256 ^ 4 := by decide
  have hmin : 0 < minMsgSize := by decide
  have hword : ∀ n, n ≤ maxMsgSize → Bytes.value (Bytes.le 4 n) = n := fun n hn =>
    Bytes.value_le (hn.trans_lt hmax)
  have hzero : Bytes.value (Bytes.le 4 sizeInflated) = sizeInflated := by
    by_cases h : sizeInflated = 0
    · exact hword _ (by omega)
    · exact hword _ (hinflated h).2
  have h4 : ∀ a b : List UInt8, a.length = 4 → (a ++ b).take 4 = a ∧ (a ++ b).drop 4 = b :=
    fun a b h => ⟨List.take_left' h, List.drop_left' h⟩
  simp only [receive, Process.fread, Process.skip, List.append_assoc, h4 _ _ hid, h4 _ _ (Bytes.length_le 4 _),
    hid, Bytes.length_le, hword _ hsize.2, hzero, ne_eq, not_true_eq_false, if_false]
  rw [if_neg (by omega), if_neg (by omega), if_neg (by omega)]

lemma receive_eod (hid : msgId.length = 4) :
    receive inflate host ⟨msgId ++ (Bytes.le 4 0 ++ rest), files, output⟩ =
      (.ok (msgId, none), ⟨rest, files, output⟩) := by
  have hzero : Bytes.value (Bytes.le 4 0) = 0 := rfl
  simp only [receive, Process.fread, Process.skip, List.take_left' hid, List.drop_left' hid,
    List.take_left' (Bytes.length_le 4 0), List.drop_left' (Bytes.length_le 4 0), hid,
    Bytes.length_le, hzero, ne_eq, not_true_eq_false, if_false, if_true]

/-- A stream begins with a message: its id, the body it carries, and the rest of the stream. -/
def Framed (inflate : List UInt8 → Option (List UInt8)) (stream msgId : List UInt8) (buf : Buffer)
    (rest : List UInt8) : Prop :=
  ∃ raw sizeInflated, msgId.length = 4 ∧ minMsgSize ≤ raw.length ∧ raw.length ≤ maxMsgSize ∧
    stream = msgId ++ Bytes.le 4 raw.length ++ Bytes.le 4 sizeInflated ++ (raw ++ rest) ∧
    (sizeInflated = 0 ∧ buf = ⟨raw.length, raw⟩ ∨
      minMsgSize ≤ sizeInflated ∧ sizeInflated ≤ maxMsgSize ∧
        ∃ bytes, inflate raw = some bytes ∧ bytes.length ≤ sizeInflated ∧
          buf = ⟨sizeInflated, bytes⟩)

lemma Framed.bounds (h : Framed inflate stream msgId buf rest) :
    buf.bytes.length ≤ buf.size ∧ buf.size ≤ maxMsgSize := by
  obtain ⟨raw, sizeInflated, -, -, hmax, -, ⟨-, rfl⟩ | ⟨-, hmax', bytes, -, hle, rfl⟩⟩ := h
  · exact ⟨le_rfl, hmax⟩
  · exact ⟨hle, hmax'⟩

lemma receive_framed (hmalloc : ∀ n, host.malloc n = true) (hinit : host.inflateInit = true)
    (h : Framed inflate stream msgId buf rest) :
    receive inflate host ⟨stream, files, output⟩ =
      (.ok (msgId, some buf), ⟨rest, files, output⟩) := by
  obtain ⟨raw, sizeInflated, hid, hmin, hmax, rfl, hbody⟩ := h
  have hnine : minMsgSize = 9 := rfl
  rcases hbody with ⟨rfl, rfl⟩ | ⟨hmin', hmax', bytes, hraw, hlen, rfl⟩
  · rw [receive_frame hid ⟨hmin, hmax⟩ (by simp)]
    simp [readBody, Process.fread, Process.skip, hmalloc]
  · rw [receive_frame hid ⟨hmin, hmax⟩ fun _ => ⟨hmin', hmax'⟩]
    have hne : sizeInflated ≠ 0 := by omega
    simp [readBody, Process.fread, Process.skip, hmalloc, inflateBuf, hinit, hraw, hlen, hne]

lemma readBody_frame :
    ∃ input, (readBody inflate host size sizeInflated p).2 = { p with input } := by
  simp only [readBody, ne_eq, ite_not]
  repeat' split
  all_goals exact ⟨_, rfl⟩

lemma receive_input (h : receive inflate host p = (res, p')) : ∃ input, p' = { p with input } := by
  obtain rfl : (receive inflate host p).2 = p' := congrArg Prod.snd h
  simp only [receive, ne_eq, ite_not]
  repeat' split
  any_goals exact ⟨_, rfl⟩
  all_goals
    rename_i hbody
    obtain ⟨input, hinput⟩ := hbody ▸ @readBody_frame inflate ..
    exact ⟨input, by simpa [Process.skip] using hinput⟩

lemma inflateBuf_ok (h : inflateBuf inflate host raw sizeInflated = .ok bytes) :
    inflate raw = some bytes ∧ bytes.length ≤ sizeInflated := by
  unfold inflateBuf at h
  split at h
  swap
  · simp at h
  split at h
  · rename_i hinflate
    split at h
    · rename_i hle
      obtain rfl := Except.ok.inj h
      exact ⟨hinflate, hle⟩
    · simp at h
  · simp at h

lemma readBody_ok (h : readBody inflate host size sizeInflated p = (.ok buf, p')) :
    ∃ raw, raw.length = size ∧ p.input = raw ++ p'.input ∧
      (sizeInflated = 0 ∧ buf = ⟨raw.length, raw⟩ ∨ sizeInflated ≠ 0 ∧
        ∃ bytes, inflate raw = some bytes ∧ bytes.length ≤ sizeInflated ∧
          buf = ⟨sizeInflated, bytes⟩) := by
  simp only [readBody, ne_eq, ite_not] at h
  split at h
  · simp at h
  split at h
  swap
  · simp at h
  rename_i hlen
  have hinput : p.input = p.fread size ++ (p.skip size).input :=
    (List.take_append_drop size p.input).symm
  refine ⟨p.fread size, hlen, ?_⟩
  split at h
  · rename_i hz
    simp only [Prod.mk.injEq, Except.ok.injEq] at h
    obtain ⟨rfl, rfl⟩ := h
    exact ⟨hinput, .inl ⟨hz, by rw [hlen]⟩⟩
  rename_i hz
  split at h
  · simp at h
  split at h
  · simp at h
  rename_i bytes hbytes
  simp only [Prod.mk.injEq, Except.ok.injEq] at h
  obtain ⟨rfl, rfl⟩ := h
  obtain ⟨hinflate, hle⟩ := inflateBuf_ok hbytes
  exact ⟨hinput, .inr ⟨hz, bytes, hinflate, hle, rfl⟩⟩

lemma framed_of_receive (h : receive inflate host p = (.ok (msgId, some buf), p')) :
    Framed inflate p.input msgId buf p'.input := by
  simp only [receive, ne_eq, ite_not] at h
  split at h
  swap
  · simp at h
  rename_i hid
  split at h
  swap
  · simp at h
  rename_i hword
  split at h
  · simp at h
  split at h
  · simp at h
  rename_i hsize
  split at h
  swap
  · simp at h
  rename_i hword'
  split at h
  · simp at h
  rename_i hinflated
  split at h
  · simp at h
  rename_i hbody
  simp only [Prod.mk.injEq, Except.ok.injEq, Option.some.injEq] at h
  obtain ⟨⟨rfl, rfl⟩, rfl⟩ := h
  obtain ⟨raw, hraw, hin, hbuf⟩ := readBody_ok hbody
  have hle := Bytes.le_value ((p.skip 4).fread 4)
  rw [hword, ← hraw] at hle
  have hle' := Bytes.le_value (((p.skip 4).skip 4).fread 4)
  rw [hword'] at hle'
  refine ⟨raw, _, hid, by omega, by omega, ?_, hbuf.imp_right fun ⟨hne, hbytes⟩ =>
    ⟨by omega, by omega, hbytes⟩⟩
  rw [hle, hle', ← hin]
  simp only [Process.fread, Process.skip, List.append_assoc, List.take_append_drop]

lemma eod_of_receive (h : receive inflate host p = (.ok (msgId, none), p')) :
    msgId.length = 4 ∧ p.input = msgId ++ (Bytes.le 4 0 ++ p'.input) := by
  simp only [receive, ne_eq, ite_not] at h
  split at h
  swap
  · simp at h
  rename_i hid
  split at h
  swap
  · simp at h
  rename_i hword
  split at h
  swap
  · repeat' split at h
    all_goals simp at h
  rename_i hzero
  simp only [Prod.mk.injEq, Except.ok.injEq, and_true] at h
  obtain ⟨rfl, rfl⟩ := h
  have hle := Bytes.le_value ((p.skip 4).fread 4)
  rw [hword, hzero] at hle
  refine ⟨hid, ?_⟩
  rw [hle]
  simp only [Process.fread, Process.skip, List.take_append_drop]

end

section

variable {p p' : Process}

lemma handleMsg_framed (hmalloc : ∀ n, host.malloc n = true) (hinit : host.inflateInit = true)
    (h : Framed inflate p.input msgId buf rest) :
    handleMsg inflate host p = match store host buf p.files with
      | (some exit, files) => (exit, ⟨rest, files, p.output⟩)
      | (none, files) => writeMsgId host msgId .moreMsg ⟨rest, files, p.output⟩ := by
  rw [handleMsg, show p = ⟨p.input, p.files, p.output⟩ from rfl, receive_framed hmalloc hinit h]

lemma inflateBuf_error (h : inflateBuf inflate host raw sizeInflated = .error err) :
    0 < err.code := by
  unfold inflateBuf at h
  split_ifs at h
  · split at h
    · split at h
      · simp at h
      · obtain rfl := Except.error.inj h
        decide
    · obtain rfl := Except.error.inj h
      decide
  · obtain rfl := Except.error.inj h
    decide

lemma readBody_error (h : (readBody inflate host size sizeInflated p).1 = .error err) :
    0 < err.code := by
  simp only [readBody, ne_eq, ite_not] at h
  split_ifs at h
  any_goals (obtain rfl := Except.error.inj h; decide)
  split at h
  · rename_i hinflate
    obtain rfl := Except.error.inj h
    exact inflateBuf_error hinflate
  · simp at h

lemma receive_error (h : (receive inflate host p).1 = .error err) :
    0 < err.code := by
  simp only [receive, ne_eq, ite_not] at h
  split_ifs at h
  any_goals (obtain rfl := Except.error.inj h; decide)
  split at h
  · rename_i hbody
    obtain rfl := Except.error.inj h
    exact readBody_error (congrArg Prod.fst hbody)
  · simp at h

lemma store_exit (h : (store host buf files).1 = some exit) :
    exit.failed = true := by
  simp only [store, storeAt, ne_eq, ite_not] at h
  repeat' split at h
  all_goals first | (obtain rfl := Option.some.inj h; rfl) | simp at h

lemma framed_of_moreMsg (h : handleMsg inflate host p = (.returned .moreMsg, p')) :
    ∃ msgId buf, Framed inflate p.input msgId buf p'.input := by
  unfold handleMsg at h
  split at h
  · rename_i hreceive
    obtain ⟨rfl, -⟩ : _ = Err.moreMsg ∧ _ := by simpa using h
    exact absurd (receive_error (congrArg Prod.fst hreceive)) (by decide)
  · simp only [writeMsgId] at h
    split at h <;> simp at h
  · rename_i msgId buf q hreceive
    have hframed := framed_of_receive hreceive
    split at h
    · rename_i hstore
      obtain ⟨rfl, -⟩ : _ = Exit.returned .moreMsg ∧ _ := by simpa using h
      exact absurd (store_exit (congrArg Prod.fst hstore)) (by decide)
    · simp only [writeMsgId] at h
      split at h
      · obtain ⟨-, rfl⟩ := Prod.mk.inj h
        exact ⟨msgId, buf, hframed⟩
      · simp at h

lemma length_of_framed (h : Framed inflate p.input msgId buf p'.input) :
    p'.input.length < p.input.length := by
  obtain ⟨raw, sizeInflated, hid, -, -, hinput, -⟩ := h
  have := congrArg List.length hinput
  simp only [List.length_append, Bytes.length_le, hid] at this
  omega

lemma handleMsgs_enough (h : p.input.length < n) :
    handleMsgs inflate host n p = main inflate host p := by
  suffices ∀ m n : Nat, ∀ p : Process, p.input.length < m → p.input.length < n →
      handleMsgs inflate host m p = handleMsgs inflate host n p from
    this n _ p h (Nat.lt_succ_self _)
  intro m
  induction m with
  | zero => intro n p hm; omega
  | succ m ih =>
    intro n p hm hn
    obtain ⟨n, rfl⟩ : ∃ k, n = k + 1 := ⟨n - 1, by omega⟩
    simp only [handleMsgs]
    split
    · rename_i q hstep
      obtain ⟨msgId, buf, hframed⟩ := framed_of_moreMsg hstep
      have := length_of_framed hframed
      exact ih n q (by omega) (by omega)
    · rfl

lemma main_eq : main inflate host p = match handleMsg inflate host p with
    | (.returned .moreMsg, p') => main inflate host p'
    | r => r := by
  rw [main, handleMsgs]
  split
  · rename_i q hstep
    obtain ⟨msgId, buf, hframed⟩ := framed_of_moreMsg hstep
    exact handleMsgs_enough (length_of_framed hframed)
  · rfl

end

end Coriolis.Providers.WriteData

import Coriolis.Providers.WireFormat
import Mathlib.Data.List.TakeWhile

/-!
# Messages that `write_data` cannot take apart

`handle_msg` trusts two things about the body of a message: that inflating it filled the
announced size, and that the offset and the length of the data add up in a `long`. If one of them
fails, it may write bytes to a file that are not in the message: what the memory behind the body
holds. A path without room for an offset behind it is harmless, because the size of the data is
then too large for `fwrite`. `handleMsg_exact_iff` says for which streams nothing can go wrong.
-/

namespace Coriolis.Providers.WriteData

/-- What one iteration of `handle_msg` should do: return an error and leave the files as they
are, or write the bytes that follow the path and the offset in the body of the message, inside
the file of that path. -/
def Exact (inflate : List UInt8 → Option (List UInt8)) (host : Host) (p : Process) : Prop :=
  (∃ err, err ≠ .moreMsg ∧ (handleMsg inflate host p).1 = .returned err ∧
    (handleMsg inflate host p).2.files = p.files) ∨
  ∃ msgId buf rest path off data file, Framed inflate p.input msgId buf rest ∧
    buf.bytes = path ++ 0 :: (off ++ data) ∧ 0 ∉ path ∧ off.length = 8 ∧
    p.files.contents path = some file ∧ Bytes.value off + data.length ≤ file.length ∧
    (handleMsg inflate host p).2.files.contents =
      Function.update p.files.contents path (some (Bytes.overlay file (Bytes.value off) data))

namespace Buffer

/-- The length of the path, as far as it is in the body. -/
def pathLength (buf : Buffer) : Nat := (buf.bytes.takeWhile (· ≠ 0)).length

/-- The announced size has no room for an offset behind the path. Or there is an offset, and it is
beyond every file, or the body has the announced size and the data ends before the largest
`long`. -/
def Sound (buf : Buffer) : Prop :=
  buf.size < buf.pathLength + 9 ∨
    ∃ path off data, buf.bytes = path ++ 0 :: (off ++ data) ∧ 0 ∉ path ∧ off.length = 8 ∧
      (2 ^ 63 - 1 ≤ Bytes.value off ∨
        buf.bytes.length = buf.size ∧ Bytes.value off + data.length < 2 ^ 63)

end Buffer

section

variable {host : Host} {msgId rest path path' tail tail' off data : List UInt8} {buf : Buffer}
  {file : File} {files : FileSystem}

lemma path_unique (h : path ++ (0 : UInt8) :: tail = path' ++ 0 :: tail') (hp : 0 ∉ path)
    (hp' : 0 ∉ path') : path = path' ∧ tail = tail' := by
  have hlen : path.length = path'.length := by
    have := congrArg (List.idxOf? 0) h
    rw [idxOf?_zero hp, idxOf?_zero hp'] at this
    exact Option.some.inj this
  obtain ⟨h1, h2⟩ := List.append_inj h hlen
  exact ⟨h1, (List.cons.inj h2).2⟩

lemma writeMsgId_files : (writeMsgId host msgId err p).2.files = p.files := by
  unfold writeMsgId
  split <;> rfl

lemma handleMsg_files (h : receive inflate host p = (.ok (msgId, some buf), p')) :
    (handleMsg inflate host p).2.files = (store host buf p.files).2 := by
  obtain ⟨input, rfl⟩ := receive_input h
  simp only [handleMsg, h]
  split
  · rename_i hstore
    simp [hstore]
  · rename_i hstore
    simp [writeMsgId_files, hstore]

/-- What storing a body should do, as `Exact` says it of a whole iteration. -/
def StoresExactly (host : Host) (buf : Buffer) (files : FileSystem) : Prop :=
  (∃ err, err ≠ .moreMsg ∧ store host buf files = (some (.returned err), files)) ∨
  ∃ path off data file, buf.bytes = path ++ 0 :: (off ++ data) ∧ 0 ∉ path ∧ off.length = 8 ∧
    files path = some file ∧ Bytes.value off + data.length ≤ file.val.length ∧
    (store host buf files).2 = Function.update files path (some (file.write (Bytes.value off) data))

lemma contents_update (hin : Bytes.value off + data.length ≤ file.val.length) :
    FileSystem.contents (Function.update files path (some (file.write (Bytes.value off) data))) =
      Function.update files.contents path
        (some (Bytes.overlay file.val (Bytes.value off) data)) := by
  funext path'
  by_cases h : path' = path
  · subst h
    simp [FileSystem.contents, File.val_write hin]
  · simp [FileSystem.contents, h]

lemma exact_of_storesExactly (h : receive inflate host p = (.ok (msgId, some buf), p'))
    (hstore : StoresExactly host buf p.files) : Exact inflate host p := by
  rcases hstore with ⟨err, herr, hs⟩ | ⟨path, off, data, file, hbytes, hpath, hoff, hfile, hin, hs⟩
  · refine .inl ⟨err, herr, ?_, by rw [handleMsg_files h, hs]⟩
    obtain ⟨input, rfl⟩ := receive_input h
    simp only [handleMsg, h, hs]
  · exact .inr ⟨msgId, buf, p'.input, path, off, data, file.val, framed_of_receive h, hbytes,
      hpath, hoff, by simp [FileSystem.contents, hfile], hin,
      by rw [handleMsg_files h, hs, contents_update hin]⟩

end

section

variable {host : Host} {buf : Buffer} {files : FileSystem} {path tail off data : List UInt8}

lemma pathLength_eq (hbytes : buf.bytes = path ++ 0 :: tail) (hpath : 0 ∉ path) :
    buf.pathLength = path.length := by
  rw [Buffer.pathLength, hbytes, List.takeWhile_append_of_pos fun b hb => by
    simpa using ne_of_mem_of_not_mem hb hpath]
  simp

/-- A terminator is not before the end of the path. -/
lemma pathLength_le (h : (host.image buf)[nul]? = some 0) : buf.pathLength ≤ nul := by
  by_contra! hlt
  have hhead := List.takeWhile_prefix (l := buf.bytes) (· ≠ 0)
  have hnul : (buf.bytes.takeWhile (· ≠ 0))[nul] = 0 := by
    rw [hhead.getElem hlt]
    rw [Host.image, List.getElem?_append_left (hlt.trans_le hhead.length_le)] at h
    exact (List.getElem?_eq_some_iff.mp h).2
  have hmem := List.mem_takeWhile_imp (List.getElem_mem hlt)
  exact of_decide_eq_true hmem hnul

lemma storeAt_huge (h : 2 ^ 63 ≤ dataSize) : ∃ err, err ≠ .moreMsg ∧
    storeAt host mem path file offset dataSize n files = (some (.returned err), files) := by
  unfold storeAt
  split
  · exact ⟨_, by decide, rfl⟩
  split
  · exact ⟨_, by decide, rfl⟩
  · exact ⟨.ioWrite, by decide, rfl⟩

/-- Without room for an offset, the size of the data is negative. -/
lemma storesExactly_of_cramped (h : buf.size < buf.pathLength + 9)
    (hle : buf.bytes.length ≤ buf.size) (hmapped : 8 ≤ host.mapped) :
    StoresExactly host buf files := by
  refine .inl ?_
  simp only [store]
  split
  · exact ⟨_, by decide, rfl⟩
  rename_i nul hnul
  obtain ⟨hlt, hzero⟩ : nul < buf.size ∧ (host.image buf)[nul]? = some 0 := by
    obtain ⟨hlt, hzero, -⟩ := List.idxOf?_eq_some_iff.mp hnul
    rw [List.getElem_take] at hzero
    exact ⟨(lt_min_iff.mp (List.length_take ▸ hlt)).1, List.getElem?_eq_some_iff.mpr ⟨_, hzero⟩⟩
  have hpath := pathLength_le hzero
  have hlength : (host.image buf).length = buf.size + host.mapped := by
    simp [Host.image]
    omega
  have hword : (((host.image buf).drop (nul + 1)).take 8).length = 8 := by
    rw [List.length_take, List.length_drop, hlength]
    omega
  simp only [hword, ne_eq, not_true_eq_false, if_false]
  split
  · exact ⟨_, by decide, rfl⟩
  · exact storeAt_huge (by omega)

lemma storesExactly_of_full (hbytes : buf.bytes = path ++ 0 :: (off ++ data)) (hpath : 0 ∉ path)
    (hoff : off.length = 8) (hsize : buf.bytes.length = buf.size)
    (hsum : Bytes.value off + data.length < 2 ^ 63) (hdisk : host.diskError = none) :
    StoresExactly host buf files := by
  obtain ⟨behind, himage⟩ := @exists_image host buf path off data hbytes
  have hstore : store host buf files = _ :=
    store_sized himage hpath hoff (size_eq hoff hbytes hsize.symm) (by omega)
  cases hfile : files path with
  | none =>
    refine .inl ⟨.openFile, by decide, ?_⟩
    rw [hstore, hfile]
  | some file =>
    by_cases hin : Bytes.value off + data.length ≤ file.val.length
    · exact .inr ⟨path, off, data, file, hbytes, hpath, hoff, hfile, hin,
        by rw [store_whole hpath hoff hfile hin hdisk hbytes hsize.symm]⟩
    · refine .inl ⟨.outOfBouds, by decide, ?_⟩
      rw [hstore, hfile]
      exact storeAt_outside hsum (by omega)

lemma write_nil {file : File} : file.write offset [] = file := by
  simp [File.write, File.fitting]

lemma storesExactly_of_beyond (hbytes : buf.bytes = path ++ 0 :: (off ++ data)) (hpath : 0 ∉ path)
    (hoff : off.length = 8) (hbeyond : 2 ^ 63 - 1 ≤ Bytes.value off)
    (hle : buf.bytes.length ≤ buf.size) (hmax : buf.size ≤ maxMsgSize)
    (hdisk : host.diskError = none) : StoresExactly host buf files := by
  obtain ⟨behind, himage⟩ := @exists_image host buf path off data hbytes
  have hmax' : maxMsgSize = 104857600 := rfl
  have hplen : path.length + 9 + data.length ≤ buf.size := by
    simp only [hbytes, List.length_append, List.length_cons, hoff] at hle
    omega
  obtain ⟨dataSize, hdata⟩ : ∃ n : Nat, buf.size = path.length + 9 + n :=
    ⟨buf.size - (path.length + 9), by omega⟩
  have hparsed : store host buf files = _ := store_sized himage hpath hoff hdata (by omega)
  cases hfile : files path with
  | none =>
    refine .inl ⟨.openFile, by decide, ?_⟩
    rw [hparsed, hfile]
  | some file =>
    have hself : Function.update files path (some file) = files := by
      rw [← hfile, Function.update_eq_self]
    rw [hfile] at hparsed
    by_cases hlong : 2 ^ 63 ≤ Bytes.value off
    · refine .inl ⟨.ioSeek, by decide, ?_⟩
      simp only [hparsed, storeAt, if_pos hlong]
    obtain hvalue : Bytes.value off = 2 ^ 63 - 1 := by omega
    by_cases hout : (file.val.length : Int) < Int.bmod (dataSize + Bytes.value off) (2 ^ 64)
    · refine .inl ⟨.outOfBouds, by decide, ?_⟩
      simp only [hparsed, storeAt, if_neg hlong, if_pos hout]
    have hwritten : ∀ bytes, host.reaching (File.fitting (Bytes.value off) bytes) = [] := by
      simp [Host.reaching, hdisk, File.fitting, hvalue]
    have hsmall : ¬ 2 ^ 63 ≤ dataSize := by omega
    simp only [storeAt, if_neg hlong, if_neg hout, if_neg hsmall, hwritten, write_nil, hself,
      List.length_nil] at hparsed
    by_cases hzero : 0 = dataSize
    · rw [if_neg (not_not.mpr hzero)] at hparsed
      rw [bmod_of_lt (by omega)] at hout
      obtain rfl : data = [] := List.length_eq_zero_iff.mp (by omega)
      refine .inr ⟨path, off, [], file, hbytes, hpath, hoff, hfile, ?_, ?_⟩
      · simp only [List.length_nil]
        omega
      · rw [hparsed, write_nil, hself]
        split <;> rfl
    · rw [if_pos hzero] at hparsed
      exact .inl ⟨_, by split <;> decide, hparsed⟩

lemma exact_of_sound (hdisk : host.diskError = none) (hmapped : 8 ≤ host.mapped)
    (h : ∀ msgId buf rest, Framed inflate p.input msgId buf rest → buf.Sound) :
    Exact inflate host p := by
  rcases hreceive : receive inflate host p with ⟨err | ⟨msgId, _ | buf⟩, p'⟩
  · obtain ⟨input, rfl⟩ := receive_input hreceive
    refine .inl ⟨err, ?_, by simp [handleMsg, hreceive], by simp [handleMsg, hreceive]⟩
    rintro rfl
    exact absurd (receive_error (congrArg Prod.fst hreceive)) (by decide)
  · obtain ⟨input, rfl⟩ := receive_input hreceive
    refine .inl ⟨if host.answers then .done else .writeMsgId, by split <;> decide, ?_, ?_⟩
    · simp only [handleMsg, hreceive, writeMsgId]
      split <;> rfl
    · simp only [handleMsg, hreceive, writeMsgId_files]
  · have hframed := framed_of_receive hreceive
    apply exact_of_storesExactly hreceive
    obtain ⟨hle, hmax⟩ := hframed.bounds
    rcases h msgId buf p'.input hframed with
      hcramped | ⟨path, off, data, hbytes, hpath, hoff, hbeyond | ⟨hsize, hsum⟩⟩
    · exact storesExactly_of_cramped hcramped hle hmapped
    · exact storesExactly_of_beyond hbytes hpath hoff hbeyond hle hmax hdisk
    · exact storesExactly_of_full hbytes hpath hoff hsize hsum hdisk

end

section

variable {inflate : List UInt8 → Option (List UInt8)} {stream msgId rest : List UInt8}
  {path tail off data : List UInt8} {buf : Buffer}

lemma Framed.unique (h : Framed inflate stream msgId buf rest)
    (h' : Framed inflate stream msgId' buf' rest') :
    buf = buf' := by
  have h1 : receive inflate plainHost ⟨stream, sdb, []⟩ = _ :=
    receive_framed plainHost_serves.malloc plainHost_serves.inflateInit h
  have h2 : receive inflate plainHost ⟨stream, sdb, []⟩ = _ :=
    receive_framed plainHost_serves.malloc plainHost_serves.inflateInit h'
  have heq := h1.symm.trans h2
  simp only [Prod.mk.injEq, Except.ok.injEq, Option.some.injEq] at heq
  exact heq.1.2

/-- A host on which nothing fails, with zeros and then ones in its memory. -/
def probe (zeros : Nat) : Host :=
  ⟨fun i => if i < zeros then 0 else 1, 8, fun _ => true, true, none, true, true⟩

def zeros (n : Nat) (h : n < 2 ^ 63) : File := ⟨List.replicate n 0, by simpa using h⟩

def single (path : List UInt8) (file : File) : FileSystem :=
  Function.update (fun _ => none) path (some file)

lemma image_probe {zeros : Nat} (h : buf.bytes.length ≤ zeros) (h' : zeros ≤ buf.size + 8) :
    (probe zeros).image buf = buf.bytes ++
      (List.replicate (zeros - buf.bytes.length) 0 ++
        List.replicate (buf.size + 8 - zeros) 1) := by
  rw [Host.image]
  congr 1
  apply List.ext_getElem
  · simp [probe]
    omega
  · intro i h1 h2
    simp only [List.getElem_map, List.getElem_range, List.getElem_append, List.length_replicate,
      List.getElem_replicate, probe]
    split_ifs <;> first | rfl | omega

lemma mem_write {file : File} (h : b ∈ File.fitting offset data) :
    b ∈ (file.write offset data).val := by
  have hne : File.fitting offset data ≠ [] := List.ne_nil_of_mem h
  rw [File.write, dif_neg hne]
  simp only [Bytes.overlay, List.mem_append, h, or_true, true_or]

lemma not_exact_of_store (hmalloc : ∀ n, host.malloc n = true) (hinit : host.inflateInit = true)
    (hanswers : host.answers = true) (hframed : Framed inflate stream msgId buf rest)
    (hstore : store host buf files = (exit, files')) (hbad : exit = none ∨ files' ≠ files)
    (hother : ∀ path off data file, buf.bytes = path ++ 0 :: (off ++ data) → 0 ∉ path →
      off.length = 8 → files path = some file → Bytes.value off + data.length ≤ file.val.length →
      files' ≠ Function.update files path (some (file.write (Bytes.value off) data))) :
    ¬Exact inflate host ⟨stream, files, []⟩ := by
  have hhandle : handleMsg inflate host ⟨stream, files, []⟩ = _ :=
    handleMsg_framed hmalloc hinit hframed
  simp only [hstore, writeMsgId, hanswers, if_true] at hhandle
  have hfiles : (handleMsg inflate host ⟨stream, files, []⟩).2.files = files' := by
    rw [hhandle]
    cases exit <;> rfl
  rintro (⟨err, herr, hret, hsame⟩ | ⟨msgId', buf', rest', path, off, data, file, hframed', hbytes,
    hpath, hoff, hfile, hin, hcontents⟩)
  · rcases hbad with rfl | hne
    · rw [hhandle] at hret
      exact herr (by simpa using hret.symm)
    · exact hne (hfiles.symm.trans hsame)
  · obtain rfl := hframed.unique hframed'
    obtain ⟨file, hsome, rfl⟩ := Option.map_eq_some_iff.mp hfile
    rw [hfiles, ← contents_update hin] at hcontents
    refine hother path off data file hbytes hpath hoff hsome hin ?_
    funext path'
    have := congrFun hcontents path'
    exact Option.map_injective Subtype.val_injective this

section

variable {dataSize : Nat} (hframed : Framed inflate stream msgId buf rest)
  (himage : (probe ones).image buf = path ++ 0 :: (off ++ tail)) (hpath : 0 ∉ path)
  (hoff : off.length = 8) (hsize : buf.size = path.length + 9 + dataSize)

include himage hpath hoff in
/-- A body with an offset has the one that is read. -/
lemma parsed_unique (hbytes : buf.bytes = path' ++ 0 :: (off' ++ data)) (hpath' : 0 ∉ path')
    (hoff' : off'.length = 8) :
    path = path' ∧ off = off' ∧ buf.bytes.length = path.length + 9 + data.length := by
  obtain ⟨behind, himage'⟩ := @exists_image (probe ones) buf path' off' data hbytes
  obtain ⟨rfl, htail⟩ := path_unique (himage.symm.trans himage') hpath hpath'
  refine ⟨rfl, (List.append_inj htail (hoff.trans hoff'.symm)).1, ?_⟩
  simp only [hbytes, List.length_append, List.length_cons, hoff']
  omega

include hframed himage hpath hoff hsize

/-- What is missing in the body is taken from memory. -/
lemma not_exact_of_short (hshort : buf.bytes.length < buf.size) (htail : dataSize ≤ tail.length)
    (hlast : tail[dataSize - 1]? = some 1) (hsum : Bytes.value off + dataSize < 2 ^ 63) :
    ∃ host files, host.diskError = none ∧ 8 ≤ host.mapped ∧
      ¬Exact inflate host ⟨stream, files, []⟩ := by
  let file := zeros (Bytes.value off + dataSize) hsum
  have hin : Bytes.value off + dataSize ≤ file.val.length := by simp [file, zeros]
  have hlen : (tail.take dataSize).length = dataSize := List.length_take_of_le htail
  have hstore : store (probe ones) buf (single path file) = _ :=
    store_sized himage hpath hoff hsize (by omega)
  simp only [single, Function.update_self] at hstore
  rw [storeAt_inside hin (by rwa [drop_image himage hoff]) rfl, drop_image himage hoff] at hstore
  refine ⟨probe ones, single path file, rfl, le_rfl,
    not_exact_of_store (fun _ => rfl) rfl rfl hframed hstore (.inl rfl) ?_⟩
  intro path' off' data file' hbytes hpath' hoff' hfile' hin' heq
  obtain ⟨rfl, rfl, hlength⟩ := parsed_unique himage hpath hoff hbytes hpath' hoff'
  obtain rfl : file = file' := by simpa [single] using hfile'
  have hwrite := congrArg (Option.map Subtype.val) (congrFun heq path)
  simp only [Function.update_self, Option.map_some, Option.some.injEq] at hwrite
  rw [File.val_write (hlen.symm ▸ hin), File.val_write hin'] at hwrite
  -- the last byte of the data is a one of the memory, and was a zero of the file
  have hbyte := congrArg (·[Bytes.value off + (dataSize - 1)]?) hwrite
  simp only [Bytes.getElem?_overlay (hlen.symm ▸ hin), Bytes.getElem?_overlay hin', hlen] at hbyte
  rw [if_pos (by omega), if_neg (by omega), Nat.add_sub_cancel_left,
    List.getElem?_take_of_lt (by omega), hlast] at hbyte
  simp only [file, zeros, List.getElem?_replicate] at hbyte
  rw [if_pos (by omega)] at hbyte
  simp at hbyte

/-- The end of the data is not a `long`: as much of it as the file can hold is written. -/
lemma not_exact_of_overflow (htail : dataSize ≤ tail.length)
    (hoffset : Bytes.value off < 2 ^ 63 - 1) (hsum : 2 ^ 63 ≤ Bytes.value off + dataSize) :
    ∃ host files, host.diskError = none ∧ 8 ≤ host.mapped ∧
      ¬Exact inflate host ⟨stream, files, []⟩ := by
  have hmax : maxMsgSize = 104857600 := rfl
  obtain ⟨hle, hbound⟩ := Framed.bounds hframed
  let file := zeros 0 (by decide)
  have hend : Int.bmod (dataSize + Bytes.value off) (2 ^ 64) ≤ 0 := by
    rw [Int.bmod_def]
    split <;> omega
  have hstore : store (probe ones) buf (single path file) = _ :=
    store_sized himage hpath hoff hsize (by omega)
  simp only [single, Function.update_self, storeAt, drop_image himage hoff] at hstore
  rw [if_neg (by omega), if_neg (by exact not_lt.mpr hend), if_neg (by omega)] at hstore
  generalize hwritten : (probe ones).reaching (File.fitting (Bytes.value off)
    (tail.take dataSize)) = written at hstore
  have hlen : written.length = 2 ^ 63 - 1 - Bytes.value off := by
    simp only [← hwritten, Host.reaching, probe, File.fitting, List.length_take]
    omega
  rw [if_pos (by omega)] at hstore
  refine ⟨probe ones, single path file, rfl, le_rfl,
    not_exact_of_store (fun _ => rfl) rfl rfl hframed hstore (.inr ?_) ?_⟩
  · intro heq
    have hwrite : file.write (Bytes.value off) written = file := by
      simpa [single] using congrFun heq path
    obtain ⟨b, hb⟩ := List.exists_mem_of_length_pos (by omega : 0 < written.length)
    have hmem : b ∈ (file.write (Bytes.value off) written).val :=
      mem_write (by rwa [fitting_of_le (by omega)])
    rw [hwrite] at hmem
    simp [file, zeros] at hmem
  · intro path' off' data file' hbytes hpath' hoff' hfile' hin'
    obtain ⟨rfl, rfl, -⟩ := parsed_unique himage hpath hoff hbytes hpath' hoff'
    obtain rfl : file = file' := by simpa [single] using hfile'
    simp only [file, zeros, List.length_replicate] at hin'
    omega

end

/-- The path ends in the body, or it is all of it. -/
lemma path_cases (buf : Buffer) : ∃ path, 0 ∉ path ∧ buf.pathLength = path.length ∧
    (buf.bytes = path ∨ ∃ tail, buf.bytes = path ++ 0 :: tail) := by
  by_cases hzero : 0 ∈ buf.bytes
  · obtain ⟨path, tail, hbytes, hpath⟩ := List.eq_append_cons_of_mem hzero
    exact ⟨path, hpath, pathLength_eq hbytes hpath, .inr ⟨tail, hbytes⟩⟩
  · refine ⟨buf.bytes, hzero, ?_, .inl rfl⟩
    rw [Buffer.pathLength, List.takeWhile_eq_self_iff.mpr fun b hb => by
      simpa using ne_of_mem_of_not_mem hb hzero]

lemma not_exact_of_unsound (hframed : Framed inflate stream msgId buf rest) (h : ¬buf.Sound) :
    ∃ host files, host.diskError = none ∧ 8 ≤ host.mapped ∧
      ¬Exact inflate host ⟨stream, files, []⟩ := by
  have hmax : maxMsgSize = 104857600 := rfl
  obtain ⟨hle, hbound⟩ := Framed.bounds hframed
  obtain ⟨hroom, hoffset⟩ := not_or.mp h
  obtain ⟨path, hpath, hlength, hbytes⟩ := path_cases buf
  obtain ⟨dataSize, hsize⟩ : ∃ n, buf.size = path.length + 9 + n :=
    ⟨buf.size - (path.length + 9), by omega⟩
  -- an offset that is not all in the body ends in zeros of the memory
  have hknown : ∀ known : List UInt8, known.length < 8 → buf.bytes.length < path.length + 9 →
      (probe (path.length + 9)).image buf = path ++ 0 ::
        ((known ++ List.replicate (8 - known.length) 0) ++ List.replicate (dataSize + 8) 1) →
      ∃ host files, host.diskError = none ∧ 8 ≤ host.mapped ∧
        ¬Exact inflate host ⟨stream, files, []⟩ := by
    intro known hknown hlt himage
    have hvalue : Bytes.value known < 2 ^ 56 := (Bytes.value_lt known).trans_le
      (Nat.pow_le_pow_right (by decide) (by omega : known.length ≤ 7))
    refine not_exact_of_short hframed himage hpath ?_ hsize (by omega) (by simp) ?_ ?_
    · simp only [List.length_append, List.length_replicate]
      omega
    · rw [List.getElem?_replicate, if_pos (by omega)]
    · rw [Bytes.value_append_zeros]
      omega
  rcases hbytes with rfl | ⟨tail, hbytes⟩
  · -- not even the path ends in the body
    have himage : (probe (buf.bytes.length + 9)).image buf = _ :=
      image_probe (Nat.le_add_right ..) (by omega)
    have hones : buf.size + 8 - (buf.bytes.length + 9) = dataSize + 8 := by omega
    exact hknown [] (by decide) (by omega) (by rw [himage, Nat.add_sub_cancel_left, hones]; rfl)
  have hlen : buf.bytes.length = path.length + 1 + tail.length := by
    simp only [hbytes, List.length_append, List.length_cons]
    omega
  by_cases htail : tail.length < 8
  · have himage : (probe (path.length + 9)).image buf = _ :=
      image_probe (by omega) (by omega)
    have hzeros : path.length + 9 - buf.bytes.length = 8 - tail.length := by omega
    have hones : buf.size + 8 - (path.length + 9) = dataSize + 8 := by omega
    rw [hzeros, hones, hbytes, List.append_assoc, List.cons_append, ← List.append_assoc tail] at himage
    exact hknown tail htail (by omega) himage
  obtain ⟨off, data, rfl, hoff⟩ : ∃ off data, tail = off ++ data ∧ off.length = 8 :=
    ⟨tail.take 8, tail.drop 8, by simp, List.length_take_of_le (by omega)⟩
  rw [List.length_append] at hlen
  have hbad : ¬(2 ^ 63 - 1 ≤ Bytes.value off ∨
      buf.bytes.length = buf.size ∧ Bytes.value off + data.length < 2 ^ 63) :=
    fun hgood => hoffset ⟨path, off, data, hbytes, hpath, hoff, hgood⟩
  have himage : (probe buf.bytes.length).image buf = _ := image_probe le_rfl (by omega)
  rw [Nat.sub_self, List.replicate_zero, List.nil_append, hbytes, List.append_assoc,
    List.cons_append, List.append_assoc, ← hbytes] at himage
  by_cases hsum : Bytes.value off + dataSize < 2 ^ 63
  · refine not_exact_of_short hframed himage hpath hoff hsize (by omega) ?_ ?_ hsum
    · simp only [List.length_append, List.length_replicate]
      omega
    · rw [List.getElem?_append_right (by omega), List.getElem?_replicate, if_pos (by omega)]
  · refine not_exact_of_overflow hframed himage hpath hoff hsize ?_ (by omega) (by omega)
    simp only [List.length_append, List.length_replicate]
    omega

/-- What zlib makes of a path and the offset zero. -/
def shortZlib : List UInt8 :=
  [120, 156, 211, 79, 73, 45, 211, 47, 78, 73, 98, 128, 1, 0, 37, 182, 2, 215]

def inflateShort (raw : List UInt8) : Option (List UInt8) :=
  if raw = shortZlib then some (Providers.encode "/dev/sdb" ++ List.replicate 9 0) else none

/-- A message that announces twenty bytes, of which seventeen are inflated. -/
def shortMessage : List UInt8 := [1, 0, 0, 0, 18, 0, 0, 0, 20, 0, 0, 0] ++ shortZlib

end

end Coriolis.Providers.WriteData

import Coriolis.Providers.WriteData

/-!
# What is sent to `write_data` is what it writes

`encode_data` and `handle_msg` agree on the format of a message: a stream of encoded messages
followed by the end of data is read back message by message, whether or not they are compressed.
Of zlib this uses that inflating inverts compressing, and that its streams are not shorter than
the smallest message.
-/

namespace Coriolis.Providers.WriteData

/-- What a caller gives to `encode_data`. -/
structure Message where
  msgId : UInt32
  path : String
  offset : UInt64
  content : List UInt8

/-- The compressor is reached, and what it makes of data inflates to the data again. A zlib
stream of some data has a header of two bytes, at least three bytes for the data, and a checksum
of four bytes. -/
def Inverts (c : Compressor) (inflate : List UInt8 → Option (List UInt8)) : Prop :=
  ∃ service, c.session = .ok service ∧ ∀ content, content ≠ [] →
    inflate (c.compressed service .zlib content) = some content ∧
      2 + 3 + 4 ≤ (c.compressed service .zlib content).length

namespace Message

def encode (c : Compressor) (compress : Bool) (m : Message) :
    Except DataTransferError (List UInt8) :=
  encodeData c m.msgId.toNat m.path m.offset.toNat m.content compress

def body (m : Message) : List UInt8 :=
  Providers.encode m.path ++ 0 :: (Bytes.le 8 m.offset.toNat ++ m.content)

end Message

def encodeStream (c : Compressor) (compress : Bool) (eod : UInt32) :
    List Message → Except DataTransferError (List UInt8)
  | [] => encodeEod eod.toNat
  | m :: ms => do return (← m.encode c compress) ++ (← encodeStream c compress eod ms)

def FileSystem.contents (files : FileSystem) (path : List UInt8) : Option (List UInt8) :=
  (files path).map (·.val)

/-- The content of a message is written at its offset of its path. -/
def Message.write (contents : List UInt8 → Option (List UInt8)) (m : Message) :
    List UInt8 → Option (List UInt8) :=
  Function.update contents (Providers.encode m.path)
    ((contents (Providers.encode m.path)).map fun file =>
      Bytes.overlay file m.offset.toNat m.content)

/-- The path of a message exists and its range lies inside the file. -/
def Message.Fits (contents : List UInt8 → Option (List UInt8)) (m : Message) : Prop :=
  ∃ file, contents (Providers.encode m.path) = some file ∧
    m.offset.toNat + m.content.length ≤ file.length

section

variable {c : Compressor} {inflate : List UInt8 → Option (List UInt8)} {compress : Bool}
  {m : Message}

lemma zero_notMem_utf8EncodeChar (h : char ≠ '\x00') :
    (0 : UInt8) ∉ String.utf8EncodeChar char := by
  have hv : char.val.toNat ≠ 0 := fun hc => h (Char.ext (UInt32.toNat_inj.mp hc))
  unfold String.utf8EncodeChar
  simp only
  split_ifs <;>
    simp only [List.mem_cons, List.not_mem_nil, or_false, not_or, ← UInt8.toNat_inj,
      UInt8.toNat_ofNat', UInt8.toNat_zero] <;> omega

lemma zero_notMem_encode (h : '\x00' ∉ path.toList) :
    (0 : UInt8) ∉ Providers.encode path := by
  intro hmem
  obtain ⟨char, hchar, hzero⟩ := List.mem_flatMap.mp hmem
  exact zero_notMem_utf8EncodeChar (fun heq => h (heq ▸ hchar)) hzero

lemma pack_ok (h : n < 256 ^ k) : pack k n = .ok (Bytes.le k n) := by
  simp [pack, h]

lemma Message.length_body :
    m.body.length = (Providers.encode m.path).length + 9 + m.content.length := by
  simp only [body, List.length_append, List.length_cons, Bytes.length_le]
  omega

lemma Message.encode_eq (hdata : c.dataContent compress m.body = .ok (data, compressed))
    (hlen : data.length ≤ maxMsgSize) (hsmall : m.body.length ≤ maxMsgSize) :
    m.encode c compress = .ok (Bytes.le 4 m.msgId.toNat ++ Bytes.le 4 data.length ++
      Bytes.le 4 (if compressed then m.body.length else 0) ++ data) := by
  have hmax : maxMsgSize < 256 ^ 4 := by decide
  have hsize : (if compressed then m.body.length else 0) < 256 ^ 4 := by split <;> omega
  have hid : pack 4 m.msgId.toNat = .ok (Bytes.le 4 m.msgId.toNat) := pack_ok m.msgId.toNat_lt
  have hoffset : pack 8 m.offset.toNat = .ok (Bytes.le 8 m.offset.toNat) :=
    pack_ok m.offset.toNat_lt
  simp only [body] at hdata hsize
  simp only [encode, encodeData, hoffset, hid, bind, Except.bind, hdata,
    pack_ok (hlen.trans_lt hmax), pack_ok hsize, pure, Except.pure, body]

lemma encode_framed (hz : Inverts c inflate) (hsmall : m.body.length ≤ maxMsgSize) :
    ∃ msg, m.encode c compress = .ok msg ∧ ∀ rest,
      Framed inflate (msg ++ rest) (Bytes.le 4 m.msgId.toNat) ⟨m.body.length, m.body⟩ rest := by
  obtain ⟨service, hsession, hinflate⟩ := hz
  have hlen := m.length_body
  have hne : m.body ≠ [] := by
    rw [ne_eq, ← List.length_eq_zero_iff]
    omega
  obtain ⟨hinverse, hmin⟩ := hinflate m.body hne
  have hnine : minMsgSize = 9 := rfl
  -- a body is sent compressed only if that is shorter
  by_cases hshort : compress = true ∧ (c.compressed service .zlib m.body).length < m.body.length
  · have hdata : c.dataContent compress m.body = .ok (c.compressed service .zlib m.body, true) := by
      simp [hshort.1, Compressor.dataContent, Compressor.compressionProxy, hsession, hne, hshort.2]
    refine ⟨_, m.encode_eq hdata (by omega) hsmall, fun rest => ?_⟩
    exact ⟨_, m.body.length, Bytes.length_le .., by omega, by omega, by simp,
      .inr ⟨by omega, hsmall, m.body, hinverse, le_rfl, rfl⟩⟩
  · have hdata : c.dataContent compress m.body = .ok (m.body, false) := by
      cases compress with
      | false => rfl
      | true =>
        have hle : m.body.length ≤ (c.compressed service .zlib m.body).length := by
          simpa using hshort
        simp [Compressor.dataContent, Compressor.compressionProxy, hsession, hne, hle]
    refine ⟨_, m.encode_eq hdata hsmall hsmall, fun rest => ?_⟩
    exact ⟨m.body, 0, Bytes.length_le .., by omega, hsmall, by simp, .inl ⟨rfl, rfl⟩⟩

end

section

variable {c : Compressor} {inflate : List UInt8 → Option (List UInt8)} {compress : Bool}
  {host : Host} {m : Message} {files : FileSystem}

lemma Message.Fits.write {m' : Message} (h : m.Fits contents) (h' : m'.Fits contents) :
    m.Fits (m'.write contents) := by
  obtain ⟨file, hfile, hin⟩ := h
  obtain ⟨file', hfile', hin'⟩ := h'
  by_cases heq : Providers.encode m.path = Providers.encode m'.path
  · refine ⟨Bytes.overlay file' m'.offset.toNat m'.content, ?_, ?_⟩
    · simp [Message.write, heq, hfile']
    · rw [heq, hfile'] at hfile
      obtain rfl := Option.some.inj hfile
      rwa [Bytes.length_overlay hin']
  · exact ⟨file, by rw [Message.write, Function.update_of_ne heq, hfile], hin⟩

lemma handleMsg_encoded (hserves : host.Serves) (hpath : '\x00' ∉ m.path.toList)
    (hfits : m.Fits files.contents)
    (hframed : Framed inflate stream (Bytes.le 4 m.msgId.toNat) ⟨m.body.length, m.body⟩ rest) :
    ∃ files', handleMsg inflate host ⟨stream, files, output⟩ =
        (.returned .moreMsg, ⟨rest, files', output ++ Bytes.le 4 m.msgId.toNat⟩) ∧
      files'.contents = m.write files.contents := by
  obtain ⟨bytes, hbytes, hin⟩ := hfits
  obtain ⟨file, hfile, rfl⟩ := Option.map_eq_some_iff.mp hbytes
  have hvalue : Bytes.value (Bytes.le 8 m.offset.toNat) = m.offset.toNat :=
    Bytes.value_le m.offset.toNat_lt
  have hstore : store host ⟨m.body.length, m.body⟩ files = _ :=
    store_whole (zero_notMem_encode hpath) (Bytes.length_le 8 _) hfile (by rwa [hvalue])
      hserves.diskError rfl rfl
  rw [handleMsg_framed hserves.malloc hserves.inflateInit hframed, hstore, hvalue]
  simp only [hserves.closes, if_true, writeMsgId, hserves.answers]
  refine ⟨_, rfl, ?_⟩
  funext path
  by_cases heq : path = Providers.encode m.path
  · subst heq
    simp [FileSystem.contents, Message.write, hfile, File.val_write hin]
  · simp [FileSystem.contents, Message.write, heq]

lemma handleMsg_encodeEod {eod : UInt32} (hserves : host.Serves) :
    ∃ msg, encodeEod eod.toNat = .ok msg ∧
      handleMsg inflate host ⟨msg, files, output⟩ =
        (.returned .done, ⟨[], files, output ++ Bytes.le 4 eod.toNat⟩) := by
  have hid : pack 4 eod.toNat = .ok (Bytes.le 4 eod.toNat) := pack_ok eod.toNat_lt
  refine ⟨Bytes.le 4 eod.toNat ++ (Bytes.le 4 0 ++ []), ?_, ?_⟩
  · rw [encodeEod, hid]
    rfl
  · rw [handleMsg, receive_eod (Bytes.length_le ..)]
    simp only [writeMsgId, hserves.answers, if_true]

lemma encodeStream_ok {ms : List Message} (hz : Inverts c inflate)
    (hsmall : ∀ m ∈ ms, m.body.length ≤ maxMsgSize) :
    ∃ stream, encodeStream c compress eod ms = .ok stream := by
  induction ms with
  | nil =>
    have hid : pack 4 eod.toNat = .ok (Bytes.le 4 eod.toNat) := pack_ok eod.toNat_lt
    exact ⟨Bytes.le 4 eod.toNat ++ Bytes.le 4 0, by rw [encodeStream, encodeEod, hid]; rfl⟩
  | cons m ms ih =>
    obtain ⟨hm, hms⟩ := List.forall_mem_cons.mp hsmall
    obtain ⟨msg, hmsg, -⟩ := @encode_framed c inflate compress m hz hm
    obtain ⟨stream, hstream⟩ := ih hms
    exact ⟨msg ++ stream, by rw [encodeStream, hmsg, hstream]; rfl⟩

lemma main_of_encodeStream (hz : Inverts c inflate) (hserves : host.Serves)
    (hsmall : ∀ m ∈ ms, m.body.length ≤ maxMsgSize) (hpath : ∀ m ∈ ms, '\x00' ∉ m.path.toList)
    (hfits : ∀ m ∈ ms, m.Fits files.contents)
    (hstream : encodeStream c compress eod ms = .ok stream) :
    ∃ files', main inflate host ⟨stream, files, output⟩ = (.returned .done,
        ⟨[], files', output ++ (ms.map (·.msgId) ++ [eod]).flatMap fun id =>
          Bytes.le 4 id.toNat⟩) ∧
      files'.contents = ms.foldl Message.write files.contents := by
  induction ms generalizing files output stream with
  | nil =>
    obtain ⟨msg, hmsg, hdone⟩ := handleMsg_encodeEod hserves
    obtain rfl : msg = stream := Except.ok.inj (hmsg.symm.trans hstream)
    refine ⟨files, ?_, rfl⟩
    rw [main_eq, hdone]
    simp
  | cons m ms ih =>
    obtain ⟨hm, hms⟩ := List.forall_mem_cons.mp hsmall
    obtain ⟨hp, hps⟩ := List.forall_mem_cons.mp hpath
    obtain ⟨hf, hfs⟩ := List.forall_mem_cons.mp hfits
    obtain ⟨msg, hmsg, hframed⟩ := @encode_framed c inflate compress m hz hm
    obtain ⟨rest, hrest⟩ := @encodeStream_ok c inflate compress eod ms hz hms
    obtain rfl : msg ++ rest = stream := by
      rw [encodeStream, hmsg, hrest] at hstream
      exact Except.ok.inj hstream
    obtain ⟨files', hstep, hwrite⟩ := handleMsg_encoded hserves hp hf (hframed rest)
    obtain ⟨files'', hmain, hall⟩ := ih hms hps
      (fun m' hm' => hwrite ▸ (hfs m' hm').write hf) hrest
    refine ⟨files'', ?_, by rw [hall, hwrite]; rfl⟩
    rw [main_eq, hstep]
    simp only
    rw [hmain]
    simp

/-- The loop of `write_data` inverts the encoding of a stream: it writes the contents of the
messages at their offsets of their paths in order, answers with their ids and the id of the end,
and ends without an error. -/
theorem main_encodeStream (c : Compressor) (inflate : List UInt8 → Option (List UInt8))
    (host : Host) (hz : Inverts c inflate) (hserves : host.Serves) (compress : Bool)
    (eod : UInt32) (ms : List Message) (files : FileSystem)
    (hsmall : ∀ m ∈ ms, m.body.length ≤ maxMsgSize) (hpath : ∀ m ∈ ms, '\x00' ∉ m.path.toList)
    (hfits : ∀ m ∈ ms, m.Fits files.contents) :
    ∃ stream files', encodeStream c compress eod ms = .ok stream ∧
      main inflate host ⟨stream, files, []⟩ = (.returned .done, ⟨[], files',
        (ms.map (·.msgId) ++ [eod]).flatMap fun id => Bytes.le 4 id.toNat⟩) ∧
      files'.contents = ms.foldl Message.write files.contents := by
  obtain ⟨stream, hstream⟩ := @encodeStream_ok c inflate compress eod ms hz hsmall
  obtain ⟨files', hmain, hall⟩ := main_of_encodeStream hz hserves hsmall hpath hfits hstream
  exact ⟨stream, files', hstream, hmain, hall⟩

def plainHost : Host := ⟨fun _ => 0, 0, fun _ => true, true, none, true, true⟩

lemma plainHost_serves : plainHost.Serves := ⟨fun _ => rfl, rfl, rfl, rfl, rfl⟩

def sdb : FileSystem := fun path =>
  if path = Providers.encode "/dev/sdb" then some ⟨List.replicate 16 0, by decide⟩ else none

/-- A message with zeros, and what zlib makes of its body. -/
def zeroMessage : Message := ⟨7, "/dev/sdb", 0, List.replicate 16 0⟩

def zeroZlib : List UInt8 :=
  [120, 156, 211, 79, 73, 45, 211, 47, 78, 73, 98, 192, 5, 0, 83, 38, 2, 215]

/-- A compressor for the body of this message. It makes any other content longer. -/
def oneBody : Compressor where
  compressFunc _ content :=
    if content = zeroMessage.body then zeroZlib else List.replicate 9 0 ++ content
  session := .ok none

def inflateOneBody (raw : List UInt8) : Option (List UInt8) :=
  some (if raw = zeroZlib then zeroMessage.body else raw.drop 9)

lemma oneBody_inverts : Inverts oneBody inflateOneBody := by
  refine ⟨none, rfl, fun content _ => ?_⟩
  by_cases h : content = zeroMessage.body
  · simp [oneBody, Compressor.compressed, inflateOneBody, h, zeroZlib]
  · simp [oneBody, Compressor.compressed, inflateOneBody, h, zeroZlib, List.replicate]

theorem main_encodeStream_sdb :
    let ms := [zeroMessage, ⟨8, "/dev/sdb", 12, [5, 6, 0, 0]⟩]
    ∃ stream files', encodeStream oneBody true 9 ms = .ok stream ∧
      main inflateOneBody plainHost ⟨stream, sdb, []⟩ =
        (.returned .done, ⟨[], files', [7, 8, 9].flatMap fun id : UInt32 =>
          Bytes.le 4 id.toNat⟩) ∧
      files'.contents = ms.foldl Message.write sdb.contents := by
  intro ms
  have hsdb : sdb.contents (Providers.encode "/dev/sdb") = some (List.replicate 16 0) := rfl
  exact main_encodeStream oneBody inflateOneBody plainHost oneBody_inverts
    plainHost_serves true 9 ms sdb (by decide) (by decide)
    (List.forall_mem_cons.mpr ⟨⟨_, hsdb, by decide⟩,
      List.forall_mem_singleton.mpr ⟨_, hsdb, by decide⟩⟩)

end

section

variable {c : Compressor} {inflate : List UInt8 → Option (List UInt8)} {msgId offset : Nat}
  {path : String} {content msg rest : List UInt8}

/-- zlib, or the compressor service, is correct: what it makes of data is not empty and inflates
to the data again. -/
def ZlibCorrect (c : Compressor) (inflate : List UInt8 → Option (List UInt8)) : Prop :=
  ∀ service, c.session = .ok service → ∀ content,
    c.compressed service .zlib content ≠ [] ∧
      inflate (c.compressed service .zlib content) = some content

/-- What `encode_data` makes of its arguments before it compresses it. -/
def bodyOf (path : String) (offset : Nat) (content : List UInt8) : List UInt8 :=
  Providers.encode path ++ 0 :: (Bytes.le 8 offset ++ content)

lemma pack_eq_ok (h : pack k n = .ok word) :
    n < 256 ^ k ∧ word = Bytes.le k n := by
  unfold pack at h
  split at h
  · rename_i hlt
    exact ⟨hlt, (Except.ok.inj h).symm⟩
  · simp at h

lemma dataContent_ok (hz : ZlibCorrect c inflate) (hbody : body ≠ [])
    (h : c.dataContent compress body = .ok (data, compressed)) :
    data ≠ [] ∧ (compressed = false ∧ data = body ∨
      compressed = true ∧ inflate data = some body) := by
  cases compress with
  | false =>
    obtain ⟨rfl, rfl⟩ := Prod.mk.inj (Except.ok.inj h)
    exact ⟨hbody, .inl ⟨rfl, rfl⟩⟩
  | true =>
    cases hs : c.session with
    | error err => simp [Compressor.dataContent, Compressor.compressionProxy, hs] at h
    | ok service =>
      obtain ⟨hne, hinflate⟩ := hz service hs body
      simp only [Compressor.dataContent, Compressor.compressionProxy, hs, if_true] at h
      split_ifs at h
      · obtain ⟨rfl, rfl⟩ := Prod.mk.inj (Except.ok.inj h)
        exact ⟨hbody, .inl ⟨rfl, rfl⟩⟩
      · obtain ⟨rfl, rfl⟩ := Prod.mk.inj (Except.ok.inj h)
        exact ⟨hne, .inr ⟨rfl, hinflate⟩⟩

lemma encodeData_ok (h : encodeData c msgId path offset content compress = .ok msg) :
    offset < 256 ^ 8 ∧ ∃ data compressed,
      c.dataContent compress (bodyOf path offset content) = .ok (data, compressed) ∧
      data.length < 256 ^ 4 ∧
      (if compressed then (bodyOf path offset content).length else 0) < 256 ^ 4 ∧
      msg = Bytes.le 4 msgId ++ Bytes.le 4 data.length ++
        Bytes.le 4 (if compressed then (bodyOf path offset content).length else 0) ++ data := by
  simp only [encodeData, bind, Except.bind, pure, Except.pure] at h
  split at h
  · simp at h
  rename_i word hpack
  obtain ⟨hoffset, rfl⟩ := pack_eq_ok hpack
  split at h
  · simp at h
  rename_i content' hdata
  obtain ⟨data, compressed⟩ := content'
  split at h
  · simp at h
  rename_i hid
  obtain ⟨-, rfl⟩ := pack_eq_ok hid
  split at h
  · simp at h
  rename_i hpack'
  obtain ⟨hsize, rfl⟩ := pack_eq_ok hpack'
  split at h
  · simp at h
  rename_i hpack''
  obtain ⟨hinflated, rfl⟩ := pack_eq_ok hpack''
  exact ⟨hoffset, data, compressed, hdata, hsize, hinflated, (Except.ok.inj h).symm⟩

lemma framed_encodeData (hz : ZlibCorrect c inflate)
    (h : encodeData c msgId path offset content compress = .ok msg) {id : List UInt8}
    (hframed : Framed inflate (msg ++ rest) id buf rest') :
    id = Bytes.le 4 msgId ∧ rest' = rest ∧
      buf = ⟨(bodyOf path offset content).length, bodyOf path offset content⟩ := by
  obtain ⟨-, data, compressed, hdata, hsize, hinflated, rfl⟩ := encodeData_ok h
  have hne : bodyOf path offset content ≠ [] := by simp [bodyOf]
  obtain ⟨-, hcontent⟩ := dataContent_ok hz hne hdata
  obtain ⟨raw, sizeInflated, hid, -, hmax, hstream, hbody⟩ := hframed
  have hmax' : maxMsgSize < 256 ^ 4 := by decide
  have hlt : sizeInflated < 256 ^ 4 := by
    rcases hbody with ⟨rfl, -⟩ | ⟨-, hle, -⟩
    · decide
    · omega
  simp only [List.append_assoc] at hstream
  obtain ⟨rfl, hstream₁⟩ := List.append_inj hstream (by simp [hid, Bytes.length_le])
  obtain ⟨hword, hstream₂⟩ := List.append_inj hstream₁ (by simp [Bytes.length_le])
  obtain ⟨hword', hstream₃⟩ := List.append_inj hstream₂ (by simp [Bytes.length_le])
  have hlen : data.length = raw.length := by
    rw [← Bytes.value_le hsize, hword, Bytes.value_le (by omega)]
  obtain ⟨rfl, rfl⟩ := List.append_inj hstream₃ hlen
  have hflag := congrArg Bytes.value hword'
  rw [Bytes.value_le hinflated, Bytes.value_le hlt] at hflag
  refine ⟨rfl, rfl, ?_⟩
  have hpos := List.length_pos_iff.mpr hne
  rcases hcontent with ⟨rfl, rfl⟩ | ⟨rfl, hinflate⟩
  · rcases hbody with ⟨-, rfl⟩ | ⟨hmin, -⟩
    · rfl
    · have hnine : minMsgSize = 9 := rfl
      simp at hflag
      omega
  · rw [if_pos rfl] at hflag
    rcases hbody with ⟨rfl, -⟩ | ⟨-, -, bytes, hbytes, -, rfl⟩
    · omega
    · obtain rfl := Option.some.inj (hinflate.symm.trans hbytes)
      rw [hflag]

/-- Whatever happens to the host, `handle_msg` either ends with an error or has stored the
message. -/
lemma handleMsg_encodeData (hz : ZlibCorrect c inflate) (hpath : '\x00' ∉ path.toList)
    (henc : encodeData c msgId path offset content compress = .ok msg)
    (hinput : p.input = msg ++ rest) (h : handleMsg inflate host p = (exit, p')) :
    exit.failed = true ∨ exit = .returned .moreMsg ∧
      ∃ file, p.files (Providers.encode path) = some file ∧
        offset + content.length ≤ file.val.length ∧
        p' = ⟨rest, Function.update p.files (Providers.encode path)
          (some (file.write offset content)), p.output ++ Bytes.le 4 msgId⟩ := by
  unfold handleMsg at h
  rcases hreceive : receive inflate host p with ⟨err | ⟨id, _ | buf⟩, q⟩
  · rw [hreceive] at h
    obtain ⟨rfl, -⟩ := Prod.mk.inj h
    exact .inl (by simpa [Exit.failed] using receive_error (congrArg Prod.fst hreceive))
  · -- the size of a message is not zero
    obtain ⟨-, data, compressed, hdata, hsize, -, rfl⟩ := encodeData_ok henc
    obtain ⟨hne, -⟩ := dataContent_ok hz (by simp [bodyOf]) hdata
    obtain ⟨hid, heod⟩ := eod_of_receive hreceive
    rw [hinput] at heod
    simp only [List.append_assoc] at heod
    obtain ⟨-, heod⟩ := List.append_inj heod (by simp [hid, Bytes.length_le])
    obtain ⟨hword, -⟩ := List.append_inj heod (by simp [Bytes.length_le])
    have hzero := congrArg Bytes.value hword
    rw [Bytes.value_le hsize, Bytes.value_le (by decide)] at hzero
    exact absurd (List.length_eq_zero_iff.mp hzero) hne
  · have hframed := framed_of_receive hreceive
    rw [hinput] at hframed
    have hmax := Framed.bounds hframed
    obtain ⟨rfl, hrest, rfl⟩ := framed_encodeData hz henc hframed
    obtain ⟨input, rfl⟩ := receive_input hreceive
    rw [hreceive] at h
    obtain rfl : input = rest := hrest
    simp only at h
    rcases hstore : store host ⟨(bodyOf path offset content).length, bodyOf path offset content⟩
      p.files with ⟨_ | exit', files'⟩
    · obtain ⟨hoffset, -⟩ := encodeData_ok henc
      obtain ⟨file, hfile, hin, rfl⟩ := store_none (zero_notMem_encode hpath)
        (Bytes.length_le 8 offset) rfl rfl hmax.2 hstore
      rw [Bytes.value_le hoffset] at hin hstore
      rw [hstore] at h
      simp only [writeMsgId] at h
      split at h
      · obtain ⟨rfl, rfl⟩ := Prod.mk.inj h
        exact .inr ⟨rfl, file, hfile, hin, rfl⟩
      · obtain ⟨rfl, -⟩ := Prod.mk.inj h
        exact .inl rfl
    · rw [hstore] at h
      obtain ⟨rfl, -⟩ := Prod.mk.inj h
      exact .inl (store_exit (congrArg Prod.fst hstore))

lemma handleMsg_eod (henc : encodeEod msgId = .ok msg) (hinput : p.input = msg ++ rest)
    (h : handleMsg inflate host p = (exit, p')) :
    exit.failed = true ∨ exit = .returned .done ∧
      p' = ⟨rest, p.files, p.output ++ Bytes.le 4 msgId⟩ := by
  obtain rfl : Bytes.le 4 msgId ++ Bytes.le 4 0 = msg := by
    simp only [encodeEod, bind, Except.bind, pure, Except.pure] at henc
    split at henc
    · simp at henc
    · rename_i hid
      obtain ⟨-, rfl⟩ := pack_eq_ok hid
      exact Except.ok.inj henc
  obtain ⟨input, files, output⟩ := p
  obtain rfl := hinput
  rw [handleMsg, List.append_assoc, receive_eod (Bytes.length_le ..)] at h
  simp only [writeMsgId] at h
  split at h
  · obtain ⟨rfl, rfl⟩ := Prod.mk.inj h
    exact .inr ⟨rfl, rfl⟩
  · obtain ⟨rfl, -⟩ := Prod.mk.inj h
    exact .inl rfl

end

end Coriolis.Providers.WriteData

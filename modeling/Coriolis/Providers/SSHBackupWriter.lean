import Coriolis.Providers.BackupWriters
import Coriolis.Providers.WireFormat

/-!
# The SSH backup writer and `write_data`

The encoders turn payloads into messages, and the sender gives one message after the other to
`write_data`: it looks whether the exit status of the process tells of an error, writes the message
and reads four bytes. `close` does the same with the end of the data.

The four bytes are the answer of `write_data`, unless the process has ended: then the read
returns with what there is, and nobody compares it. The next look at the exit status finds the
error, if the status has arrived and if there is a next one.
-/

namespace Coriolis.Providers.SSHBackupWriterImpl

open Pipeline Relation WriteData

/-- `payload`: what `write` puts into `_enc_q`. -/
structure Payload where
  offset : Nat
  data : List UInt8
  msgId : Nat
  deriving DecidableEq, Repr

def Payload.toWrite (payload : Payload) : Bytes.Write UInt8 := ⟨payload.offset, payload.data⟩

/-- `_offset` and `_msg_id`. -/
structure Fields where
  offset : Nat
  msgId : Nat
  deriving DecidableEq, Repr

/-- The fields after `_exec_helper_cmd`. -/
def Fields.start : Fields := ⟨0, 0⟩

def cursor : Cursor Fields Payload where
  seek fields pos := { fields with offset := pos }
  write fields data :=
    some (⟨fields.offset, data, fields.msgId⟩, ⟨fields.offset + data.length, fields.msgId + 1⟩)

/-- A message, as `_encode_data` makes it of a payload. -/
structure Encoded (c : Compressor) (path : String) (compressTransfer : Bool) where
  payload : Payload
  bytes : List UInt8
  encoded : encodeData c payload.msgId path payload.offset payload.data compressTransfer = .ok bytes

/-- The channel, with `write_data` at its other end. -/
structure Remote where
  /-- Its input is what `write_data` has not read yet. -/
  process : Process
  exit : Option Exit
  /-- `exit_status_ready`. -/
  visible : Bool
  /-- A `_send_msg` has written its message and reads the answer. -/
  awaiting : Bool
  /-- How much of the output was read. -/
  read : Nat

namespace Remote

def start (files : FileSystem) : Remote := ⟨⟨[], files, []⟩, none, false, false, 0⟩

/-- `write_data` has exited with an error. -/
def failed (remote : Remote) : Bool := remote.exit.any (·.failed)

/-- `_send_msg` raises: there is an exit status with an error, or the channel was closed when the
process exited. -/
def Raises (remote remote' : Remote) : Prop :=
  remote.awaiting = false ∧ remote.exit.isSome = true ∧ remote' = remote

/-- `_send_msg` sees no error and writes its data. -/
def Sends (data : List UInt8) (remote remote' : Remote) : Prop :=
  remote.awaiting = false ∧ ¬(remote.visible = true ∧ remote.failed = true) ∧
    remote' = { remote with
      process := { remote.process with input := remote.process.input ++ data }
      awaiting := true }

/-- The `read(4)` of `_send_msg` returns: there are four bytes, or there will not be any more. -/
def Reads (remote remote' : Remote) : Prop :=
  remote.awaiting = true ∧
    (remote.read + 4 ≤ remote.process.output.length ∨ remote.exit.isSome = true) ∧
    remote' = { remote with
      awaiting := false
      read := min (remote.read + 4) remote.process.output.length }

/-- What happens at the other end. -/
inductive Acts (inflate : List UInt8 → Option (List UInt8)) : Remote → Remote → Prop
  | handles {remote host exit process} (hexit : remote.exit = none)
      (hinput : remote.process.input ≠ [])
      (h : handleMsg inflate host remote.process = (exit, process)) :
      Acts inflate remote { remote with
        process, exit := if exit = .returned .moreMsg then none else some exit }
  | exits {remote err} (hexit : remote.exit = none) (herr : 0 < Err.code err) :
      Acts inflate remote { remote with exit := some (.returned err) }
  | shows {remote} (hexit : remote.exit.isSome = true) :
      Acts inflate remote { remote with visible := true }

end Remote

/-- The threads of the writer, with the other end of the channel. `msgId` is the `_msg_id` at the
end. -/
def threads (c : Compressor) (path : String) (compressTransfer : Bool)
    (inflate : List UInt8 → Option (List UInt8)) (msgId : Nat) :
    Machine Payload (Encoded c path compressTransfer) Remote where
  firstCapacity := BackupWriterImpl.maxsize
  secondCapacity := BackupWriterImpl.maxsize
  work payload msg := msg.payload = payload
  env := Remote.Acts inflate
  -- `_send_msg` is tried again when it raises
  attempt msg remote remote' := remote.Raises remote' ∨ remote.Sends msg.bytes remote'
  done _ := Remote.Reads
  fail _ := Remote.Raises
  closing remote remote' := remote.Raises remote' ∨
    ∃ eod, encodeEod msgId = .ok eod ∧ remote.Sends eod remote'
  closed := Remote.Reads
  raising remote remote' := remote' = remote

section

variable {c : Compressor} {path : String} {compressTransfer : Bool}
  {inflate : List UInt8 → Option (List UInt8)} {msgId : Nat} {device : List UInt8}

def answers (msgs : List (Encoded c path compressTransfer)) : List UInt8 :=
  msgs.flatMap fun msg => Bytes.le 4 msg.payload.msgId

def writes (msgs : List (Encoded c path compressTransfer)) : List (Bytes.Write UInt8) :=
  msgs.map (·.payload.toWrite)

/-- `write_data` has stored and answered some messages, and then given more output. -/
structure Holds (device : List UInt8) (msgs : List (Encoded c path compressTransfer))
    (more : List UInt8) (remote : Remote) : Prop where
  output : remote.process.output = answers msgs ++ more
  inside : ∀ write ∈ writes msgs, write.Inside device.length
  device : remote.process.files.contents (encode path) =
    some (Bytes.overlays device (writes msgs))

/-- How far the last message got, if `write_data` has not failed. -/
inductive Good (device : List UInt8) (msgId : Nat) : Sender (Encoded c path compressTransfer) →
    Outcome → List (Encoded c path compressTransfer) → Remote → Prop
  | idle {x e l remote} (hexit : remote.exit = none) (hawaiting : remote.awaiting = false)
      (hinput : remote.process.input = []) (hread : remote.read = remote.process.output.length)
      (holds : Holds device l [] remote) (he : e ≠ .ended) : Good device msgId x e l remote
  | sent {msg e l remote} (hexit : remote.exit = none) (hawaiting : remote.awaiting = true)
      (hinput : remote.process.input = msg.bytes)
      (hread : remote.read = remote.process.output.length)
      (holds : Holds device l [] remote) (he : e.sending = true) :
      Good device msgId (.sending msg) e l remote
  | answered {msg e l remote} (hexit : remote.exit = none) (hawaiting : remote.awaiting = true)
      (hinput : remote.process.input = [])
      (hread : remote.read + 4 = remote.process.output.length)
      (holds : Holds device (l ++ [msg]) [] remote) (he : e.sending = true) :
      Good device msgId (.sending msg) e l remote
  | ending {x l remote eod} (hexit : remote.exit = none) (hawaiting : remote.awaiting = true)
      (heod : encodeEod msgId = .ok eod) (hinput : remote.process.input = eod)
      (hread : remote.read = remote.process.output.length)
      (holds : Holds device l [] remote) : Good device msgId x .passed l remote
  | ended {x e l remote} (hexit : remote.exit = some (.returned .done))
      (hawaiting : e = .passed → remote.awaiting = true) (hinput : remote.process.input = [])
      (holds : Holds device l (Bytes.le 4 msgId) remote) (he : e.sending = false) :
      Good device msgId x e l remote

lemma Holds.snoc {msg : Encoded c path compressTransfer} (h : Holds device l [] remote)
    (hfile : remote.process.files (encode path) = some file)
    (hin : msg.payload.offset + msg.payload.data.length ≤ file.val.length)
    (hfiles : remote'.process.files = Function.update remote.process.files (encode path)
      (some (file.write msg.payload.offset msg.payload.data))) (houtput : remote'.process.output =
      remote.process.output ++ Bytes.le 4 msg.payload.msgId) :
    Holds device (l ++ [msg]) [] remote' := by
  have hval : file.val = Bytes.overlays device (writes l) := by
    simpa [FileSystem.contents, hfile] using h.device
  have hlen : file.val.length = device.length := hval ▸ Bytes.length_overlays h.inside
  refine ⟨by simp [houtput, h.output, answers], ?_, ?_⟩
  · simp only [writes, List.map_append, List.map_cons, List.map_nil, List.mem_append,
      List.mem_singleton]
    rintro write (hwrite | rfl)
    · exact h.inside write hwrite
    · exact hlen ▸ hin
  · simp [FileSystem.contents, hfiles, File.val_write hin, writes, hval, Payload.toWrite]

lemma Remote.Acts.failed {remote remote' : Remote} (h : remote.Acts inflate remote')
    (hf : remote'.failed = false) : remote.failed = false := by
  cases h with
  | handles hexit _ _ | exits hexit _ => simp [Remote.failed, hexit]
  | shows _ => exact hf

/-- Whatever `write_data` does, if it does not fail it goes on with the message. -/
lemma Good.acts {l : List (Encoded c path compressTransfer)} (hz : ZlibCorrect c inflate)
    (hpath : '\x00' ∉ path.toList) (h : Good device msgId x e l remote)
    (hacts : remote.Acts inflate remote') (hf : remote'.failed = false) :
    Good device msgId x e l remote' := by
  cases hacts with
  | exits hexit herr =>
    simp [Remote.failed, Exit.failed, herr] at hf
  | shows hexit =>
    cases h with
    | idle h1 h2 h3 h4 holds he => exact .idle h1 h2 h3 h4 ⟨holds.1, holds.2, holds.3⟩ he
    | sent h1 h2 h3 h4 holds he => exact .sent h1 h2 h3 h4 ⟨holds.1, holds.2, holds.3⟩ he
    | answered h1 h2 h3 h4 holds he => exact .answered h1 h2 h3 h4 ⟨holds.1, holds.2, holds.3⟩ he
    | ending h1 h2 heod h3 h4 holds =>
      exact .ending h1 h2 heod h3 h4 ⟨holds.1, holds.2, holds.3⟩
    | ended h1 h2 h3 holds he => exact .ended h1 h2 h3 ⟨holds.1, holds.2, holds.3⟩ he
  | @handles host exit process hexit hinput hhandle =>
    have hnot : exit.failed ≠ true := by
      intro hfailed
      have hmore : exit ≠ .returned .moreMsg := by
        rintro rfl
        cases hfailed
      simp [Remote.failed, hmore, hfailed] at hf
    cases h with
    | idle _ _ hempty _ _ _ => exact absurd hempty hinput
    | answered _ _ hempty _ _ _ => exact absurd hempty hinput
    | ended hdone _ _ _ _ => simp [hexit] at hdone
    | @sent msg _ _ _ _ hawaiting hbytes hread holds he =>
      obtain ⟨rfl, file, hfile, hin, rfl⟩ := (handleMsg_encodeData hz hpath msg.encoded
        (hbytes.trans (List.append_nil _).symm) hhandle).resolve_left hnot
      exact .answered (by simp) hawaiting rfl (by simp [hread, Bytes.length_le])
        (holds.snoc hfile hin rfl rfl) he
    | ending _ hawaiting heod hbytes hread holds =>
      obtain ⟨rfl, rfl⟩ := (handleMsg_eod heod (hbytes.trans (List.append_nil _).symm)
        hhandle).resolve_left hnot
      exact .ended (by simp) (fun _ => hawaiting) rfl
        ⟨by simp [holds.output], holds.inside, holds.device⟩ rfl

lemma Good.move (h : Good device msgId x e l remote) (hx : ∀ msg, x ≠ .sending msg) :
    Good device msgId x' e l remote := by
  cases h with
  | idle h1 h2 h3 h4 holds he => exact .idle h1 h2 h3 h4 holds he
  | ending h1 h2 heod h3 h4 holds => exact .ending h1 h2 heod h3 h4 holds
  | ended h1 h2 h3 holds he => exact .ended h1 h2 h3 holds he
  | sent _ _ _ _ _ _ | answered _ _ _ _ _ _ => exact absurd rfl (hx _)

lemma Good.sends (h : Good device msgId (.sending msg) e l remote) (he : e.sending = true)
    (hsends : remote.Sends msg.bytes remote') : Good device msgId (.sending msg) e l remote' := by
  obtain ⟨hawaiting, -, rfl⟩ := hsends
  cases h with
  | idle hexit _ hinput hread holds _ =>
    exact .sent hexit rfl (by simp [hinput]) hread ⟨holds.1, holds.2, holds.3⟩ he
  | sent _ htrue _ _ _ _ | answered _ htrue _ _ _ _ | ending _ htrue _ _ _ _ =>
    simp [hawaiting] at htrue
  | ended _ _ _ _ hend => simp [hend] at he

lemma Good.reads (h : Good device msgId (.sending msg) e l remote) (he : e.sending = true)
    (hreads : remote.Reads remote') : Good device msgId .finishing e (l ++ [msg]) remote' := by
  obtain ⟨hawaiting, hsome, rfl⟩ := hreads
  cases h with
  | idle _ hfalse _ _ _ _ => simp [hawaiting] at hfalse
  | sent hexit _ _ hread _ _ | ending hexit _ _ _ hread _ =>
    simp only [hexit, Option.isSome_none, Bool.false_eq_true, or_false] at hsome
    omega
  | answered hexit _ hinput hread holds _ =>
    exact .idle hexit rfl hinput (by simp [hread]) ⟨holds.1, holds.2, holds.3⟩
      (by rintro rfl; simp [Outcome.sending] at he)
  | ended _ _ _ _ hend => simp [hend] at he

lemma Good.sendsEod (h : Good device msgId x .passed l remote) (heod : encodeEod msgId = .ok eod)
    (hsends : remote.Sends eod remote') : Good device msgId x .passed l remote' := by
  obtain ⟨hawaiting, -, rfl⟩ := hsends
  cases h with
  | idle hexit _ hinput hread holds _ =>
    exact .ending hexit rfl heod (by simp [hinput]) hread ⟨holds.1, holds.2, holds.3⟩
  | sent _ htrue _ _ _ _ | answered _ htrue _ _ _ _ | ending _ htrue _ _ _ _ =>
    simp [hawaiting] at htrue
  | ended _ htrue _ _ _ => simp [hawaiting] at htrue

lemma Good.readsEod (h : Good device msgId x .passed l remote) (hreads : remote.Reads remote') :
    Good device msgId x .ended l remote' := by
  obtain ⟨hawaiting, hsome, rfl⟩ := hreads
  cases h with
  | idle _ hfalse _ _ _ _ => simp [hawaiting] at hfalse
  | sent _ _ _ _ _ he | answered _ _ _ _ _ he => simp [Outcome.sending] at he
  | ending hexit _ _ _ hread _ =>
    simp only [hexit, Option.isSome_none, Bool.false_eq_true, or_false] at hsome
    omega
  | ended hexit _ hinput holds _ =>
    exact .ended hexit (by simp) hinput ⟨holds.1, holds.2, holds.3⟩ rfl

lemma Good.done (h : Good device msgId x .ended l remote) :
    remote.exit = some (.returned .done) ∧ remote.process.input = [] ∧
      Holds device l (Bytes.le 4 msgId) remote := by
  cases h with
  | idle _ _ _ _ _ he => exact absurd rfl he
  | sent _ _ _ _ _ he | answered _ _ _ _ _ he => simp [Outcome.sending] at he
  | ended hexit _ hinput holds _ => exact ⟨hexit, hinput, holds⟩

/-- What holds of `write_data` unless `close` or the sender has raised. -/
def Keeps (device : List UInt8) (msgId : Nat) (x : Sender (Encoded c path compressTransfer))
    (e : Outcome) (l : List (Encoded c path compressTransfer)) (remote : Remote) : Prop :=
  e ≠ .raised → x.alive = true →
    (remote.failed = false → Good device msgId x e l remote) ∧
      (e = .ended → remote.failed = false)

lemma Keeps.effect (hz : ZlibCorrect c inflate) (hpath : '\x00' ∉ path.toList)
    (heffect : Effect (threads c path compressTransfer inflate msgId) x e l v x' e' l' v')
    (hguard : e = .passed → e' = .ended → v.failed = false) (h : Keeps device msgId x e l v) :
    Keeps device msgId x' e' l' v' := by
  cases heffect with
  | stay => exact h
  | fails _ _ | dies => simp [Keeps, Sender.alive]
  | raises => simp [Keeps]
  | env hm =>
    intro hraised halive
    obtain ⟨hgood, hended⟩ := h hraised halive
    refine ⟨fun hf => (hgood (hm.failed hf)).acts hz hpath hm hf, ?_⟩
    rintro rfl
    obtain ⟨hexit, -⟩ := (hgood (hended rfl)).done
    cases hm with
    | handles hnone _ _ | exits hnone _ => simp [hexit] at hnone
    | shows _ => exact hended rfl
  | get _ | taskDone | exits =>
    intro hraised _
    obtain ⟨hgood, hended⟩ := h hraised rfl
    exact ⟨fun hf => (hgood hf).move (by simp), hended⟩
  | attempt he hm =>
    intro hraised _
    obtain ⟨hgood, hended⟩ := h hraised rfl
    rcases hm with ⟨-, -, rfl⟩ | hsends
    · exact ⟨hgood, hended⟩
    · obtain ⟨-, -, rfl⟩ := id hsends
      exact ⟨fun hf => (hgood hf).sends he hsends, hended⟩
  | done he hm =>
    intro hraised _
    obtain ⟨hgood, hended⟩ := h hraised rfl
    obtain ⟨-, -, rfl⟩ := id hm
    exact ⟨fun hf => (hgood hf).reads he hm, hended⟩
  | pass hx halive =>
    intro _ _
    obtain ⟨hgood, -⟩ := h (by simp) halive
    refine ⟨fun hf => ?_, by simp⟩
    cases hgood hf with
    | idle h1 h2 h3 h4 holds _ => exact .idle h1 h2 h3 h4 holds (by simp)
    | sent _ _ _ _ _ _ | answered _ _ _ _ _ _ => simp [Sender.unfinished] at hx
    | ended _ _ _ _ he => simp [Outcome.sending] at he
  | closing hx halive hm =>
    intro hraised _
    obtain ⟨hgood, hended⟩ := h hraised halive
    rcases hm with ⟨-, -, rfl⟩ | ⟨eod, heod, hsends⟩
    · exact ⟨hgood, hended⟩
    · obtain ⟨-, -, rfl⟩ := id hsends
      exact ⟨fun hf => (hgood hf).sendsEod heod hsends, by simp⟩
  | closed hx halive hm =>
    intro _ _
    obtain ⟨hgood, -⟩ := h (by simp) halive
    have hf := hguard rfl rfl
    have hread := (hgood hf).readsEod hm
    obtain ⟨-, -, rfl⟩ := hm
    exact ⟨fun _ => hread, fun _ => hf⟩

/-- `write_data` has not exited with an error when `close` reads the answer to the end of the
data. -/
def Acknowledged (s s' : State Payload (Encoded c path compressTransfer) Remote) : Prop :=
  s.caller = .passed → s'.caller = .joining → s.sink.failed = false

lemma passed_of_outcome {s : State Payload (Encoded c path compressTransfer) Remote}
    (h : s.caller.outcome = .passed) : s.caller = .passed := by
  cases hc : s.caller <;> simp_all [Caller.outcome]

lemma joining_of_step (hstep : Step m s s') (h : s.caller = .passed)
    (h' : s'.caller.outcome = .ended) : s'.caller = .joining := by
  rcases hstep with hstep | hstep | hstep
  · cases hstep <;> simp [h, Caller.outcome] at h'
  · cases hstep <;> simp [h, Caller.outcome] at h'
  · cases hstep <;> simp_all [Caller.outcome]

lemma keeps_of_run (hz : ZlibCorrect c inflate) (hpath : '\x00' ∉ path.toList)
    (hdevice : files.contents (encode path) = some device)
    (hrun : ReflTransGen (fun s s' => Step (threads c path compressTransfer inflate msgId) s s' ∧
      Acknowledged s s') (State.start n (Remote.start files)) s) :
    Keeps device msgId s.sender s.caller.outcome s.sent s.sink := by
  suffices h : Inv (threads c path compressTransfer inflate msgId) s ∧
      Keeps device msgId s.sender s.caller.outcome s.sent s.sink from h.2
  induction hrun with
  | refl =>
    refine ⟨Inv.start n _, fun _ _ => ⟨fun _ => ?_, by simp [State.start, Caller.outcome]⟩⟩
    exact .idle rfl rfl rfl rfl ⟨rfl, by simp [State.start, writes], hdevice⟩
      (by simp [State.start, Caller.outcome])
  | tail _ hstep ih =>
    obtain ⟨hinv, hkeeps⟩ := ih
    refine ⟨hinv.step hstep.1, hkeeps.effect hz hpath (hinv.effect hstep.1) fun he he' => ?_⟩
    have hc := passed_of_outcome he
    exact hstep.2 hc (joining_of_step hstep.1 hc he')

lemma perm_of_sent {written : List Payload} {sent : List (Encoded c path compressTransfer)}
    (h : Multiset.Rel (threads c path compressTransfer inflate msgId).work written sent) :
    written.Perm (sent.map (·.payload)) := by
  have hrel : Multiset.Rel (fun payload msg => payload = Encoded.payload msg)
      (written : Multiset Payload) (sent : Multiset (Encoded c path compressTransfer)) :=
    h.mono fun _ _ _ _ h => Eq.symm h
  rwa [← Multiset.rel_map_right, Multiset.rel_eq, Multiset.map_coe, Multiset.coe_eq_coe] at hrel

/-- When `close` returns, `write_data` has stored and answered every message, in some order, and
the end of the data. The device holds what was written, and elsewhere what it held before. -/
theorem close_stored (hz : ZlibCorrect c inflate) (hpath : '\x00' ∉ path.toList)
    (encoderCount : Nat) {files : FileSystem}
    (hdevice : files.contents (encode path) = some device) {calls : List Call}
    {written : List Payload} {fields : Fields}
    (hcalls : cursor.payloads Fields.start calls = some (written, fields))
    (hapart : (written.map Payload.toWrite).Pairwise Bytes.Write.Apart)
    {s : State Payload (Encoded c path compressTransfer) Remote}
    (hrun : Makes (threads c path compressTransfer inflate fields.msgId) cursor Acknowledged
      Fields.start (State.start (BackupWriterImpl.ssh encoderCount).threadCount
        (Remote.start files)) fields calls s)
    (hclosed : s.caller = .closed) :
    (s.sink.exit = some (.returned .done) ∧ s.sink.process.input = [] ∧
      ∃ handled : List Payload, handled.Perm written ∧ s.sink.process.output =
        (handled.map (·.msgId) ++ [fields.msgId]).flatMap (Bytes.le 4)) ∧
    ∃ after, s.sink.process.files.contents (encode path) = some after ∧
      after.length = device.length ∧
      (∀ payload ∈ written,
        Bytes.slice after payload.offset payload.data.length = payload.data) ∧
      ∀ i, (∀ payload ∈ written,
        ¬(payload.offset ≤ i ∧ i < payload.offset + payload.data.length)) →
        after[i]? = device[i]? := by
  obtain rfl : s.written = written :=
    (Prod.mk.inj (Option.some.inj ((hrun.payloads rfl).symm.trans hcalls))).1
  have hinv := (Inv.start _ _).run hrun.steps
  obtain ⟨hrel, -⟩ := hinv.all_sent (by simp [hclosed, Caller.succeeded])
  obtain ⟨-, -, halive⟩ := hinv.idle_of_succeeded (by simp [hclosed, Caller.succeeded])
  obtain ⟨hgood, hended⟩ := keeps_of_run hz hpath hdevice hrun.run
    (by simp [hclosed, Caller.outcome]) halive
  have hend : s.caller.outcome = .ended := by simp [hclosed, Caller.outcome]
  obtain ⟨hexit, hinput, holds⟩ := (hend ▸ hgood (hended hend)).done
  have hperm := perm_of_sent hrel
  have hwrites : (s.written.map Payload.toWrite).Perm (writes s.sent) := by
    simpa [writes, Function.comp_def] using hperm.map Payload.toWrite
  have hinside : ∀ write ∈ s.written.map Payload.toWrite, write.Inside device.length :=
    fun write hwrite => holds.inside write (hwrites.mem_iff.mp hwrite)
  refine ⟨⟨hexit, hinput, _, hperm.symm, ?_⟩, _, holds.device, Bytes.length_overlays holds.inside,
    fun payload hpayload => ?_, fun i hi => ?_⟩
  · simp [holds.output, answers, List.flatMap_map]
  · rw [← Bytes.overlays_perm hwrites hinside hapart]
    exact Bytes.slice_overlays_of_mem hinside hapart (List.mem_map_of_mem hpayload)
  · rw [← Bytes.overlays_perm hwrites hinside hapart]
    refine Bytes.getElem?_overlays_of_outside hinside fun write hwrite => ?_
    obtain ⟨payload, hpayload, rfl⟩ := List.mem_map.mp hwrite
    exact hi payload hpayload

end

def longer : Compressor := ⟨fun _ content => 1 :: content, .ok none⟩

def inflateLonger (raw : List UInt8) : Option (List UInt8) := raw.tail?

lemma longer_correct : ZlibCorrect longer inflateLonger := by
  intro service hs content
  cases hs
  exact ⟨by simp [longer, Compressor.compressed], rfl⟩

def oneByte : Encoded longer "/dev/sdb" true where
  payload := ⟨0, [7], 0⟩
  bytes := Bytes.le 4 0 ++ Bytes.le 4 18 ++ Bytes.le 4 0 ++
    (encode "/dev/sdb" ++ 0 :: (Bytes.le 8 0 ++ [7]))
  encoded := rfl

def opened : State Payload (Encoded longer "/dev/sdb" true) Remote :=
  State.start (BackupWriterImpl.ssh 1).threadCount (Remote.start sdb)

def disk : Machine Payload (Encoded longer "/dev/sdb" true) Remote :=
  threads longer "/dev/sdb" true inflateLonger 1

section

variable {guard : State Payload (Encoded longer "/dev/sdb" true) Remote →
    State Payload (Encoded longer "/dev/sdb" true) Remote → Prop}
  (hguard : ∀ s s', s.caller ≠ .passed → guard s s') {remote remote' : Remote}

def sending (remote : Remote) : State Payload (Encoded longer "/dev/sdb" true) Remote :=
  { opened with
    secondUnfinished := 1, sender := .sending oneByte, sink := remote, written := [⟨0, [7], 0⟩] }

def passed (remote : Remote) : State Payload (Encoded longer "/dev/sdb" true) Remote :=
  { opened with
    caller := .passed, stopped := true, sink := remote, written := [⟨0, [7], 0⟩], sent := [oneByte] }

include hguard

lemma makes_sending : Makes disk cursor guard Fields.start opened ⟨1, 1⟩ [.write [7]]
    (sending (Remote.start sdb)) := by
  have hwritten : Makes disk cursor guard Fields.start opened ⟨1, 1⟩ [.write [7]] _ :=
    .write (Makes.start.step (.caller (.write (a := ⟨0, [7], 0⟩) rfl rfl)) rfl
      (hguard _ _ (by nofun))) rfl rfl (.put rfl (by decide)) (hguard _ _ (by nofun))
  have hwork : disk.work ⟨0, [7], 0⟩ oneByte := rfl
  have htaken := (hwritten.step (.worker (.take (l := []) rfl rfl)) rfl
    (hguard _ _ (by nofun))).step (.worker (.work (l := []) rfl hwork)) rfl
    (hguard _ _ (by nofun))
  have hqueued := (htaken.step (.worker (.put (l := []) rfl (by decide))) rfl
    (hguard _ _ (by nofun))).step (.worker (.taskDone (l := []) rfl)) rfl (hguard _ _ (by nofun))
  exact hqueued.step (.sender (.get rfl rfl)) rfl (hguard _ _ (by nofun))

section

variable (h : Makes disk cursor guard Fields.start opened ⟨1, 1⟩ [.write [7]] (sending remote))

include h

lemma makes_sends (hsends : remote.Sends oneByte.bytes remote') :
    Makes disk cursor guard Fields.start opened ⟨1, 1⟩ [.write [7]] (sending remote') :=
  h.step (.sender (.attempt rfl (.inr hsends))) rfl (hguard _ _ (by nofun))

lemma makes_acts (hacts : remote.Acts inflateLonger remote') :
    Makes disk cursor guard Fields.start opened ⟨1, 1⟩ [.write [7]] (sending remote') :=
  h.step (.sender (.env hacts)) rfl (hguard _ _ (by nofun))

lemma makes_passes (hreads : remote.Reads remote') :
    Makes disk cursor guard Fields.start opened ⟨1, 1⟩ [.write [7]] (passed remote') := by
  have hsent := (h.step (.sender (.done rfl hreads)) rfl (hguard _ _ (by nofun))).step
    (.sender (.taskDone rfl)) rfl (hguard _ _ (by nofun))
  have hwaited := ((hsent.step (.caller (.close rfl)) rfl (hguard _ _ (by nofun))).step
    (.caller (.firstDone rfl rfl)) rfl (hguard _ _ (by nofun))).step
    (.caller (.secondDone rfl rfl)) rfl (hguard _ _ (by nofun))
  exact (hwaited.step (.caller (.stop rfl)) rfl (hguard _ _ (by nofun))).step
    (.caller (.pass rfl rfl)) rfl (hguard _ _ (by nofun))

end

/-- The answer to the end is read, and the threads are joined. -/
lemma makes_closes (h : Makes disk cursor guard Fields.start opened ⟨1, 1⟩ [.write [7]]
    (passed remote)) (hreads : remote.Reads remote')
    (hlast : guard (passed remote) { passed remote' with caller := .joining }) :
    ∃ s, Makes disk cursor guard Fields.start opened ⟨1, 1⟩ [.write [7]] s ∧
      s.caller = .closed ∧ s.sink = remote' := by
  have hended := h.step (.caller (.closed rfl hreads)) rfl hlast
  have hexited := (hended.step (.worker (.exits (l := []) rfl rfl)) rfl
    (hguard _ _ (by nofun))).step (.sender (.exits rfl rfl)) rfl (hguard _ _ (by nofun))
  exact ⟨_, hexited.step (.caller (.join rfl (by simp [Worker.ended]) rfl)) rfl
    (hguard _ _ (by nofun)), rfl, rfl⟩

end

/-- The process fails on the only message. The four bytes that are read are not there, the exit
status arrives later, and `close` returns. -/
theorem close_lost :
    ∃ s, Makes disk cursor (fun _ _ => True) Fields.start opened ⟨1, 1⟩ [.write [7]] s ∧
      s.caller = .closed ∧ s.sink.exit = some (.returned .ioWrite) ∧
      s.sink.process.files.contents (encode "/dev/sdb") = some (List.replicate 16 0) := by
  have hguard : ∀ s s' : State Payload (Encoded longer "/dev/sdb" true) Remote,
      s.caller ≠ .passed → True := fun _ _ _ => trivial
  have herr : 0 < Err.code .ioWrite := by decide
  have hsent := makes_acts hguard (makes_sends hguard (makes_sending hguard)
    ⟨rfl, by decide, rfl⟩) (.exits rfl herr)
  have hpassed := makes_passes hguard hsent ⟨rfl, .inr rfl, rfl⟩
  have heod : encodeEod 1 = .ok (Bytes.le 4 1 ++ Bytes.le 4 0) := rfl
  have hended := hpassed.step (.caller (.closing rfl (.inr ⟨_, heod, rfl, by decide, rfl⟩))) rfl
    trivial
  obtain ⟨s, hrun, hclosed, hsink⟩ := makes_closes hguard hended ⟨rfl, .inr rfl, rfl⟩ trivial
  exact ⟨s, hrun, hclosed, by rw [hsink]; rfl, by rw [hsink]; rfl⟩

/-- The process stores and answers the message, and the end of the data. -/
theorem close_stored_oneByte :
    ∃ s, Makes disk cursor Acknowledged Fields.start opened ⟨1, 1⟩ [.write [7]] s ∧
      s.caller = .closed ∧ ∃ after, s.sink.process.files.contents (encode "/dev/sdb") = some after ∧
        Bytes.slice after 0 1 = [7] := by
  have hguard : ∀ s s' : State Payload (Encoded longer "/dev/sdb" true) Remote,
      s.caller ≠ .passed → Acknowledged s s' := fun _ _ hc h => absurd h hc
  have hsent := makes_sends hguard (makes_sending hguard) ⟨rfl, by decide, rfl⟩
  have hhandled := makes_acts hguard hsent (.handles rfl (by decide) (Prod.mk.eta
    (p := handleMsg inflateLonger plainHost ⟨oneByte.bytes, sdb, []⟩)).symm)
  have hpassed := makes_passes hguard hhandled ⟨rfl, .inl (by decide), rfl⟩
  have heod : encodeEod 1 = .ok (Bytes.le 4 1 ++ Bytes.le 4 0) := rfl
  have hended := hpassed.step (.caller (.closing rfl (.inr ⟨_, heod, rfl, by decide, rfl⟩))) rfl
    (fun _ h => nomatch h)
  have hanswered := hended.step (.sender (.env (.handles rfl (by decide)
    (Prod.mk.eta (p := handleMsg inflateLonger plainHost _)).symm))) rfl (fun _ h => nomatch h)
  obtain ⟨s, hrun, hclosed, -⟩ := makes_closes hguard hanswered
    ⟨rfl, .inl (by decide), rfl⟩ (fun _ _ => by decide)
  have hdevice : sdb.contents (encode "/dev/sdb") = some (List.replicate 16 0) := rfl
  have hcalls : cursor.payloads Fields.start [.write [7]] = some ([⟨0, [7], 0⟩], ⟨1, 1⟩) := rfl
  obtain ⟨-, after, hafter, -, hslice, -⟩ := close_stored longer_correct (by decide) 1 hdevice
    hcalls (by decide) hrun hclosed
  exact ⟨s, hrun, hclosed, after, hafter, hslice ⟨0, [7], 0⟩ (by simp)⟩

end Coriolis.Providers.SSHBackupWriterImpl

import Coriolis.Providers.BackupWriters
import Coriolis.Providers.DataTransfer

/-!
# The HTTP backup writer loses nothing

The compressors reorder the payloads of the writes, and the sender posts one after the other, each
as often as it takes. The server applies a post that it answers with success. A post may also fail,
before or after the server has applied it.

When `close` returns, every payload was posted with success, the device holds what the writes one
after the other would have left, and the release of the device came last.
-/

namespace Coriolis.Providers

open Pipeline Relation

namespace HTTPBackupWriterImpl

/-- `payload`: what `write` puts into `_comp_q`. -/
abbrev Payload := Bytes.Write UInt8

/-- `seek` and `write` on `_offset`. Before the first `seek` it is `None`, and `write` raises, at the
addition: each attempt has put a payload without an offset into `_comp_q` by then, which is not
modelled, so the results are about writes after a `seek`. -/
def cursor : Cursor (Option Nat) Payload where
  seek _ pos := some pos
  write offset data := offset.map fun offset => (⟨offset, data⟩, some (offset + data.length))

/-- `send_payload`. -/
structure SendPayload where
  offset : Nat
  encoding : Option CompressionFormat
  chunk : List UInt8
  deriving DecidableEq, Repr

/-- What `_compressor` makes of a payload. -/
def compressor (c : Compressor) (compressTransfer : Bool) (payload : Payload) :
    Except DataTransferError SendPayload :=
  if compressTransfer then do
    let (chunk, compressed) ← c.compressionProxy payload.data .gzip
    return ⟨payload.offset, if compressed then some .gzip else none, chunk⟩
  else .ok ⟨payload.offset, none, payload.data⟩

inductive Event where
  /-- A post was applied, and answered with success. -/
  | applied (write : Payload)
  | released
  deriving DecidableEq, Repr

structure Server where
  device : List UInt8
  log : List Event
  deriving DecidableEq, Repr

/-- The write that the server makes of a post: `X-Write-Offset`, and the data, which is gunzipped
if `content-encoding` says so. -/
def SendPayload.decoded (gunzip : List UInt8 → Option (List UInt8)) (payload : SendPayload) :
    Option Payload :=
  match payload.encoding with
  | none => some ⟨payload.offset, payload.chunk⟩
  | some _ => (gunzip payload.chunk).map (⟨payload.offset, ·⟩)

/-- The device after a post, if the post is one that the server can apply. -/
def Server.post (gunzip : List UInt8 → Option (List UInt8)) (payload : SendPayload)
    (server : Server) : Option (Payload × List UInt8) := do
  let write ← payload.decoded gunzip
  guard (write.Inside server.device.length)
  return (write, Bytes.overlay server.device write.offset write.data)

/-- A post that fails. Its answer may be lost after the server has applied it. -/
def Server.Fails (gunzip : List UInt8 → Option (List UInt8)) (payload : SendPayload)
    (server server' : Server) : Prop :=
  server' = server ∨ ∃ write device, server.post gunzip payload = some (write, device) ∧
    server' = { server with device }

def threads (c : Compressor) (compressTransfer : Bool)
    (gunzip : List UInt8 → Option (List UInt8)) : Machine Payload SendPayload Server where
  firstCapacity := BackupWriterImpl.maxsize
  secondCapacity := BackupWriterImpl.maxsize
  work payload sendPayload := compressor c compressTransfer payload = .ok sendPayload
  env _ _ := False
  -- `send` is tried again when it raises
  attempt := Server.Fails gunzip
  done payload server server' := ∃ write device,
    server.post gunzip payload = some (write, device) ∧
      server' = ⟨device, server.log ++ [.applied write]⟩
  fail := Server.Fails gunzip
  closing server server' := server' = server
  closed server server' := server' = { server with log := server.log ++ [.released] }
  -- after an exception the disk is released too, and a failure of that is ignored
  raising server server' :=
    server' = server ∨ server' = { server with log := server.log ++ [.released] }

/-- The compressors of the process and of the service are inverted by the server. -/
def Inverts (c : Compressor) (gunzip : List UInt8 → Option (List UInt8)) : Prop :=
  ∀ service, c.session = .ok service →
    ∀ content, gunzip (c.compressed service .gzip content) = some content

lemma decoded_compressor (hz : Inverts c gunzip)
    (h : compressor c compressTransfer payload = .ok sendPayload) :
    sendPayload.decoded gunzip = some payload := by
  cases compressTransfer with
  | false =>
    obtain rfl : _ = sendPayload := by simpa [compressor] using h
    rfl
  | true =>
    cases hs : c.session with
    | error err => simp [compressor, Compressor.compressionProxy, hs, bind, Except.bind] at h
    | ok service =>
      simp only [compressor, Compressor.compressionProxy, hs, if_true] at h
      split_ifs at h with hempty hlong
      · simp [bind, Except.bind] at h
      · obtain rfl : _ = sendPayload := by simpa [bind, Except.bind, pure, Except.pure] using h
        rfl
      · obtain rfl : _ = sendPayload := by simpa [bind, Except.bind, pure, Except.pure] using h
        simp [SendPayload.decoded, hz service hs]

section

variable {c : Compressor} {compressTransfer : Bool} {gunzip : List UInt8 → Option (List UInt8)}
  {device : List UInt8}

lemma Server.post_eq_some {server : Server}
    (h : server.post gunzip payload = some (write, device')) :
    payload.decoded gunzip = some write ∧ write.Inside server.device.length ∧
      device' = Bytes.overlay server.device write.offset write.data := by
  simp only [post, Option.bind_eq_bind, Option.bind_eq_some_iff, Option.guard_eq_some',
    Option.pure_def] at h
  obtain ⟨write', hdecoded, -, hinside, heq⟩ := h
  obtain ⟨rfl, rfl⟩ := Prod.mk.inj (Option.some.inj heq)
  exact ⟨hdecoded, hinside, rfl⟩

/-- The writes that were answered with success are those of the payloads that were sent. Only
they are on the device, apart from one that the server has applied without an answer. -/
structure Stored (gunzip : List UInt8 → Option (List UInt8)) (device : List UInt8)
    (sender : Sender SendPayload) (outcome : Outcome) (sent : List SendPayload) (server : Server)
    (applied : List Payload) : Prop where
  sent : sent.map (·.decoded gunzip) = applied.map some
  inside : ∀ write ∈ applied, write.Inside device.length
  log : server.log = applied.map .applied ++ if outcome = .ended then [.released] else []
  device : server.device = Bytes.overlays device applied ∨
    ∃ payload write, sender = .sending payload ∧ payload.decoded gunzip = some write ∧
      write.Inside device.length ∧ server.device = Bytes.overlays device (applied ++ [write])

/-- What holds of the server unless `close` or the sender has failed. -/
def Keeps (gunzip : List UInt8 → Option (List UInt8)) (device : List UInt8)
    (sender : Sender SendPayload) (outcome : Outcome) (sent : List SendPayload)
    (server : Server) : Prop :=
  outcome ≠ .raised → sender.alive = true → ∃ applied, Stored gunzip device sender outcome sent
    server applied

/-- A post writes over what an earlier post of the same payload may have written. -/
lemma Stored.post {sent : List SendPayload}
    (h : Stored gunzip device (.sending payload) outcome sent server applied)
    (hpost : server.post gunzip payload = some (write, device')) :
    payload.decoded gunzip = some write ∧ write.Inside device.length ∧
      device' = Bytes.overlays device (applied ++ [write]) := by
  obtain ⟨hdecoded, hinside, rfl⟩ := Server.post_eq_some hpost
  have hlen := Bytes.length_overlays h.inside
  rcases h.device with heq | ⟨payload', write', hsending, hdecoded', hinside', heq⟩
  · rw [heq, hlen] at hinside
    exact ⟨hdecoded, hinside, by simp [heq]⟩
  · obtain rfl := Sender.sending.inj hsending
    obtain rfl := Option.some.inj (hdecoded.symm.trans hdecoded')
    refine ⟨hdecoded, hinside', ?_⟩
    rw [heq, Bytes.overlays_append, Bytes.overlays_cons, Bytes.overlays_nil]
    exact Bytes.overlay_overlay_self (hlen.symm ▸ hinside')

lemma Keeps.effect (heffect : Effect (threads c compressTransfer gunzip) x e l v x' e' l' v')
    (h : Keeps gunzip device x e l v) : Keeps gunzip device x' e' l' v' := by
  -- a sender that holds no payload has left none without an answer
  have hmove : ∀ {x' : Sender SendPayload}, x.alive = true → (∀ b, x ≠ .sending b) →
      Keeps gunzip device x' e l v := by
    intro x' halive hidle hraised _
    obtain ⟨applied, hsent, hinside, hlog, hdevice⟩ := h hraised halive
    refine ⟨applied, hsent, hinside, hlog, .inl (hdevice.resolve_right ?_)⟩
    rintro ⟨payload, -, hsending, -⟩
    exact hidle payload hsending
  cases heffect with
  | stay => exact h
  | env hm => exact hm.elim
  | get _ | taskDone | exits => exact hmove rfl (by simp)
  | fails _ _ | dies => simp [Keeps, Sender.alive]
  | raises => simp [Keeps]
  | @attempt payload _ _ _ _ _ hm =>
    intro hraised halive
    obtain ⟨applied, hstored⟩ := h hraised halive
    rcases hm with rfl | ⟨write, device', hpost, rfl⟩
    · exact ⟨applied, hstored⟩
    · obtain ⟨hdecoded, hinside, rfl⟩ := hstored.post hpost
      exact ⟨applied, hstored.sent, hstored.inside, hstored.log,
        .inr ⟨payload, write, rfl, hdecoded, hinside, rfl⟩⟩
  | @done payload _ _ _ _ he hm =>
    intro hraised halive
    obtain ⟨write, device', hpost, rfl⟩ := hm
    obtain ⟨applied, hstored⟩ := h hraised rfl
    obtain ⟨hdecoded, hinside, rfl⟩ := hstored.post hpost
    refine ⟨applied ++ [write], ?_, ?_, ?_, .inl rfl⟩
    · simp [hstored.sent, hdecoded]
    · simpa [or_imp, forall_and] using ⟨hstored.inside, hinside⟩
    · have hnot : e ≠ .ended := by
        rintro rfl
        simp [Outcome.sending] at he
      simp [hstored.log, hnot]
  | pass _ halive =>
    intro _ _
    obtain ⟨applied, hsent, hinside, hlog, hdevice⟩ := h (by simp) halive
    exact ⟨applied, hsent, hinside, hlog, hdevice⟩
  | closing _ _ hm =>
    obtain rfl := hm
    exact h
  | closed hx halive hm =>
    obtain rfl := hm
    intro _ _
    obtain ⟨applied, hsent, hinside, hlog, hdevice⟩ := h (by simp) halive
    exact ⟨applied, hsent, hinside, by simp [hlog], hdevice⟩

lemma keeps_of_run
    (hrun : ReflTransGen (Step (threads c compressTransfer gunzip)) (State.start n ⟨device, []⟩) s) :
    Keeps gunzip device s.sender s.caller.outcome s.sent s.sink := by
  induction hrun with
  | refl =>
    intro _ _
    exact ⟨[], rfl, by simp, rfl, .inl rfl⟩
  | tail hrun hstep ih => exact ih.effect (((Inv.start n _).run hrun).effect hstep)

lemma perm_of_sent (hz : Inverts c gunzip) {written applied : List Payload}
    {sent : List SendPayload}
    (hrel : Multiset.Rel (threads c compressTransfer gunzip).work written sent)
    (hsent : sent.map (·.decoded gunzip) = applied.map some) : written.Perm applied := by
  have hdecoded : Multiset.Rel (fun payload sendPayload =>
      some payload = SendPayload.decoded gunzip sendPayload) (written : Multiset Payload) sent :=
    hrel.mono fun _ _ _ _ h => (decoded_compressor hz h).symm
  rw [← Multiset.rel_map, Multiset.rel_eq, Multiset.map_coe, Multiset.map_coe, hsent,
    Multiset.coe_eq_coe] at hdecoded
  exact (List.map_perm_map_iff (Option.some_injective _)).mp hdecoded

/-- When `close` returns, every payload was applied at its offset, the device is as after the
writes one after the other, and after that, and only then, it was released. -/
theorem close_applied (hz : Inverts c gunzip) (compressorCount : Option Nat) {calls : List Call}
    {written : List Payload} {offset : Option Nat}
    (hcalls : cursor.payloads none calls = some (written, offset))
    (hapart : written.Pairwise Bytes.Write.Apart) {s : State Payload SendPayload Server}
    (hrun : Makes (threads c compressTransfer gunzip) cursor (fun _ _ => True) none
      (State.start (BackupWriterImpl.http compressorCount).threadCount ⟨device, []⟩) offset calls s)
    (hclosed : s.caller = .closed) :
    (∃ applied : List Payload, applied.Perm written ∧
      s.sink.log = applied.map .applied ++ [.released]) ∧
      s.sink.device = Bytes.overlays device written := by
  obtain rfl : s.written = written :=
    (Prod.mk.inj (Option.some.inj ((hrun.payloads rfl).symm.trans hcalls))).1
  have hsteps := hrun.steps
  have hinv := (Inv.start _ _).run hsteps
  obtain ⟨hrel, hidle⟩ := hinv.all_sent (by simp [hclosed, Caller.succeeded])
  have halive := (hinv.idle_of_succeeded (by simp [hclosed, Caller.succeeded])).2.2
  obtain ⟨applied, hstored⟩ := keeps_of_run hsteps (by simp [hclosed, Caller.outcome]) halive
  have hperm := perm_of_sent hz hrel hstored.sent
  have hdevice := hstored.device.resolve_right <| by
    rintro ⟨_, _, hsending, _⟩
    simp [hsending, Sender.unfinished] at hidle
  refine ⟨⟨applied, hperm.symm, by simpa [hclosed, Caller.outcome] using hstored.log⟩, ?_⟩
  rw [hdevice]
  exact Bytes.overlays_perm hperm.symm hstored.inside (hapart.perm hperm fun h => h.symm)

lemma Server.getElem?_post (hz : Inverts c gunzip) {server : Server}
    (hwork : compressor c compressTransfer payload = .ok sendPayload)
    (hpost : server.post gunzip sendPayload = some (write, device'))
    (hi : i < payload.offset ∨ payload.offset + payload.data.length ≤ i) :
    device'[i]? = server.device[i]? := by
  obtain ⟨hdecoded, hinside, rfl⟩ := Server.post_eq_some hpost
  obtain rfl := Option.some.inj ((decoded_compressor hz hwork).symm.trans hdecoded)
  rw [Bytes.getElem?_overlay hinside, if_neg (by omega)]

end

def plain : Compressor := ⟨fun _ content => content, .ok none⟩

def opened : State Payload SendPayload Server :=
  State.start (BackupWriterImpl.http none).threadCount ⟨[0, 0], []⟩

/-- One byte is written. The first post is applied and its answer is lost. -/
theorem close_applied_retried :
    ∃ s, Makes (threads plain false some) cursor (fun _ _ => True) none opened (some 2)
        [.seek 1, .write [7]] s ∧ s.caller = .closed ∧ s.sink.device = [0, 7] := by
  have hseek : Makes (threads plain false some) cursor (fun _ _ => True) none opened (some 1)
      [.seek 1] opened := .seek .start rfl
  have hwritten : Makes (threads plain false some) cursor (fun _ _ => True) none opened (some 2)
      [.seek 1, .write [7]] _ :=
    .write (hseek.step (.caller (.write (a := ⟨1, [7]⟩) rfl rfl)) rfl trivial) rfl rfl
      (.put rfl (by decide)) trivial
  have hwork : (threads plain false some).work ⟨1, [7]⟩ ⟨1, none, [7]⟩ := by
    simp [threads, compressor]
  have htaken := (hwritten.step (.worker (.take (l := []) rfl rfl)) rfl trivial).step
    (.worker (.work (l := []) rfl hwork)) rfl trivial
  have hqueued := (htaken.step (.worker (.put (l := []) rfl (by decide))) rfl trivial).step
    (.worker (.taskDone (l := []) rfl)) rfl trivial
  have hlost : Server.Fails some ⟨1, none, [7]⟩ ⟨[0, 0], []⟩ ⟨[0, 7], []⟩ :=
    .inr ⟨_, _, rfl, rfl⟩
  have hretried := (hqueued.step (.sender (.get rfl rfl)) rfl trivial).step
    (.sender (.attempt rfl hlost)) rfl trivial
  have hdone : (threads plain false some).done ⟨1, none, [7]⟩ ⟨[0, 7], []⟩
      ⟨[0, 7], [.applied ⟨1, [7]⟩]⟩ := ⟨_, _, rfl, rfl⟩
  have hsent := (hretried.step (.sender (.done rfl hdone)) rfl trivial).step
    (.sender (.taskDone rfl)) rfl trivial
  have hwaited := ((hsent.step (.caller (.close rfl)) rfl trivial).step
    (.caller (.firstDone rfl rfl)) rfl trivial).step (.caller (.secondDone rfl rfl)) rfl trivial
  have hreleased := ((hwaited.step (.caller (.stop rfl)) rfl trivial).step
    (.caller (.pass rfl rfl)) rfl trivial).step (.caller (.closed rfl rfl)) rfl trivial
  have hclosed := ((hreleased.step (.worker (.exits (l := []) rfl rfl)) rfl trivial).step
    (.sender (.exits rfl rfl)) rfl trivial).step
    (.caller (.join rfl (by simp [Worker.ended]) rfl)) rfl trivial
  have happlied := close_applied (fun _ hs _ => by cases hs; rfl) none rfl (by decide) hclosed rfl
  exact ⟨_, hclosed, rfl, happlied.2⟩

/-- Whatever fails, and whenever it does, a byte of the device that is in the range of no write is as
it was. -/
theorem device_untouched (hz : Inverts c gunzip) {s : State Payload SendPayload Server}
    (hrun : ReflTransGen (Step (threads c compressTransfer gunzip)) (State.start n ⟨device, []⟩) s)
    (hi : ∀ write ∈ s.written, i < write.offset ∨ write.offset + write.data.length ≤ i) :
    s.sink.device[i]? = device[i]? := by
  have hkeeps : (threads c compressTransfer gunzip).Keeps (· ∈ s.written)
      fun server => server.device[i]? = device[i]? := by
    constructor
    · rintro payload sendPayload server server' hmem hwork hsends hserver
      rcases hsends with (rfl | ⟨_, _, h, rfl⟩) | ⟨_, _, h, rfl⟩ | rfl | ⟨_, _, h, rfl⟩
      · exact hserver
      · exact (Server.getElem?_post hz hwork h (hi _ hmem)).trans hserver
      · exact (Server.getElem?_post hz hwork h (hi _ hmem)).trans hserver
      · exact hserver
      · exact (Server.getElem?_post hz hwork h (hi _ hmem)).trans hserver
    · rintro server server' (h | rfl | rfl | rfl | rfl) hserver
      · exact h.elim
      all_goals exact hserver
  exact (Traced.run hkeeps hrun (fun _ hmem => hmem) rfl).sink

theorem device_untouched_written :
    ∃ s, ReflTransGen (Step (threads plain false some)) opened s ∧ s.written = [⟨1, [7]⟩] ∧
      s.sink.device[0]? = some 0 := by
  have hrun : ReflTransGen (Step (threads plain false some)) opened _ :=
    (ReflTransGen.single (.caller (.write (a := ⟨1, [7]⟩) rfl rfl))).tail
      (.caller (.put rfl (by decide)))
  exact ⟨_, hrun, rfl, device_untouched (fun _ hs _ => by cases hs; rfl) hrun (by decide)⟩

end HTTPBackupWriterImpl

end Coriolis.Providers

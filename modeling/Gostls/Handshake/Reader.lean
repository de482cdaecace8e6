import Gostls.Handshake.State
import Gostls.Record.Channel

/-!
# `Gostls.Handshake.Reader` — reassembling handshake messages from records

`readHandshakeRecord` returns the next message, whatever the records it arrives in. The loop is bounded
by the input that is left: a record takes at least its header off the transport, so the bound is never
what ends it (`readHandshakeLoop_rounds`).

`framing_independent`: for every list of messages and every way of cutting their envelopes into record
payloads, successive calls return the messages and leave nothing in the buffer. The proof follows the
buffer: together with the payloads still to come it always spells the messages still to come.
-/

namespace Gostls

open Lib

def maxHandshakeMsg : Nat := 256 * 1024

def errHSBodyTruncated : Err := .new "tls: handshake body truncated"
def errAlertRecordTruncated : Err := .new "tls: alert record truncated"
def errAlertReceived : Err := .new "tls: received alert"
def errUnexpectedRecordType : Err := .new "tls: unexpected record type during handshake"
def errInterleavedHandshake : Err :=
  .new "tls: non-handshake record interleaved with a fragmented handshake message"

/-! ## The reader -/

/-- Drop the first `n` bytes. -/
def consumeBuffered (buf : Bytes) (n : Nat) : Except Err Bytes :=
  if buf.length = n then .ok [] else sliceFrom buf n

/-- The message at the front of the buffer, if it is complete, and the buffer without it. -/
def nextBuffered (buf : Bytes) : Except Err (Option (UInt8 × Bytes × Bytes)) := do
  if buf.length < hsEnvelopeSize then return none
  let b1 ← index buf 1
  let b2 ← index buf 2
  let b3 ← index buf 3
  let bodyLen := ofBE [b1, b2, b3]
  if bodyLen > maxHandshakeMsg then
    throw (errHSBodyTruncated.detail (": declared " ++ toString bodyLen))
  let total := hsEnvelopeSize + bodyLen
  if buf.length < total then return none
  let msgType ← index buf 0
  let body ← slice buf hsEnvelopeSize total
  let rest ← consumeBuffered buf total
  return some (msgType, body, rest)

/-- `ReadRecord`, whose failure inside a message means that the message was truncated. -/
def nextRecord : HsM (UInt8 × Bytes) := fun s =>
  match readRecord s with
  | .ok r s    => .ok r s
  | .error e s =>
    -- The source wraps both errors; the text is the same.
    if s.hsBuf.length ≠ 0 then .error (.errorf errHSBodyTruncated.error e) s else .error e s

/-- What a record that carries no handshake data is answered with. -/
def refuseRecord (hsBuf : Bytes) (ct : UInt8) (payload : Bytes) : Except Err (UInt8 × Bytes) := do
  if hsBuf.length ≠ 0 then throw errInterleavedHandshake
  if ct = contentTypeAlert then
    if payload.length < 2 then throw errAlertRecordTruncated
    let (level, desc) ← decodeAlert payload
    throw (errAlertReceived.detail (" level=" ++ toString level ++ " desc=" ++ toString desc))
  throw (errUnexpectedRecordType.detail (" " ++ toString ct ++ " during handshake"))

/-- The loop of `readHandshakeRecord`, for at most `rounds` rounds. -/
def readHandshakeLoop : Nat → HsM (UInt8 × Bytes)
  | 0          => throw .panic
  | rounds + 1 => do
    let s ← get
    match ← nextBuffered s.hsBuf with
    | some (msgType, body, rest) =>
      set ((s.log (.took msgType body)).setHsBuf rest)
      return (msgType, body)
    | none =>
      let (ct, payload) ← nextRecord
      let s ← get
      if ct = contentTypeHandshake then
        set (s.setHsBuf (s.hsBuf ++ payload))
        readHandshakeLoop rounds
      else refuseRecord s.hsBuf ct payload

def readHandshakeRecord : HsM (UInt8 × Bytes) := do
  readHandshakeLoop ((← get).layer.input.length + 1)

/-! ## The buffer -/

/-- The wire form of a list of messages. -/
def envelopes (msgs : List (UInt8 × Bytes)) : Bytes :=
  msgs.flatMap (fun m => buildEnvelope m.1 m.2)

@[simp] theorem envelopes_nil : envelopes [] = [] := rfl
@[simp] theorem envelopes_cons (m : UInt8 × Bytes) (msgs : List (UInt8 × Bytes)) :
    envelopes (m :: msgs) = buildEnvelope m.1 m.2 ++ envelopes msgs := rfl
@[simp] theorem envelopes_append (a b : List (UInt8 × Bytes)) :
    envelopes (a ++ b) = envelopes a ++ envelopes b := List.flatMap_append

theorem consumeBuffered_eq {buf : Bytes} {n : Nat} (h : n ≤ buf.length) :
    consumeBuffered buf n = .ok (buf.drop n) := by
  unfold consumeBuffered
  split
  · rename_i heq
    rw [← heq, List.drop_length]
  · exact sliceFrom_eq h

/-- A header: its type and the length its three bytes declare. -/
theorem four_bytes {buf : Bytes} (h : ¬ buf.length < hsEnvelopeSize) :
    ∃ t b1 b2 b3 tail, buf = t :: b1 :: b2 :: b3 :: tail := by
  match buf with
  | t :: b1 :: b2 :: b3 :: tail => exact ⟨t, b1, b2, b3, tail, rfl⟩
  | [] | [_] | [_, _] | [_, _, _] => exact absurd (by simp [hsEnvelopeSize]) h

/-- **What the reader takes off the buffer** is an envelope: rebuilding it gives the bytes back. -/
theorem nextBuffered_some {buf body rest : Bytes} {t : UInt8}
    (h : nextBuffered buf = .ok (some (t, body, rest))) :
    buf = buildEnvelope t body ++ rest ∧ body.length ≤ maxHandshakeMsg := by
  unfold nextBuffered at h
  split at h
  · cases h
  · rename_i hmin
    obtain ⟨t', b1, b2, b3, tail, rfl⟩ := four_bytes hmin
    simp only [index_cons_zero, index_cons_succ, ok_bind] at h
    split at h
    · cases h
    · rename_i hmax
      split at h
      · cases h
      · rename_i hfull
        have hle : ofBE [b1, b2, b3] ≤ tail.length := by
          simp only [hsEnvelopeSize, List.length_cons] at hfull
          omega
        rw [slice_eq (by omega) (by omega), consumeBuffered_eq (by omega)] at h
        simp only [ok_bind, pure_eq, Except.ok.injEq, Option.some.injEq, Prod.mk.injEq] at h
        obtain ⟨rfl, hbody, hrest⟩ := h
        have hbody' : body = tail.take (ofBE [b1, b2, b3]) := by
          rw [← hbody]
          simp [hsEnvelopeSize, Nat.add_comm 4]
        have hrest' : rest = tail.drop (ofBE [b1, b2, b3]) := by
          rw [← hrest]
          simp [hsEnvelopeSize, Nat.add_comm 4]
        have hlen : body.length = ofBE [b1, b2, b3] := by
          rw [hbody', List.length_take]
          omega
        refine ⟨?_, by omega⟩
        -- The three length bytes are the encoding of the length they declared.
        have hbe : toBE 3 body.length = [b1, b2, b3] := by
          rw [hlen]
          exact toBE_ofBE [b1, b2, b3]
        rw [buildEnvelope, hbe, hbody', hrest']
        simp

/-- **A complete message is found.** -/
theorem nextBuffered_envelope {t : UInt8} {body : Bytes} (rest : Bytes)
    (hbody : body.length ≤ maxHandshakeMsg) :
    nextBuffered (buildEnvelope t body ++ rest) = .ok (some (t, body, rest)) := by
  have hlen : (buildEnvelope t body ++ rest).length = hsEnvelopeSize + body.length + rest.length := by
    simp
  have hbe : ofBE [UInt8.ofNat (body.length / 256 / 256), UInt8.ofNat (body.length / 256),
      UInt8.ofNat body.length] = body.length :=
    ofBE_toBE_of_lt (k := 3) (by simp only [maxHandshakeMsg] at hbody; omega)
  have h0 : index (buildEnvelope t body ++ rest) 0 = .ok t := rfl
  have h1 : index (buildEnvelope t body ++ rest) 1 = .ok (UInt8.ofNat (body.length / 256 / 256)) := rfl
  have h2 : index (buildEnvelope t body ++ rest) 2 = .ok (UInt8.ofNat (body.length / 256)) := rfl
  have h3 : index (buildEnvelope t body ++ rest) 3 = .ok (UInt8.ofNat body.length) := rfl
  have hslice : slice (buildEnvelope t body ++ rest) hsEnvelopeSize (hsEnvelopeSize + body.length) =
      .ok body := by
    rw [slice_eq (by omega) (by omega), ← buildEnvelope_length t, List.take_left]
    rfl
  have hrest : consumeBuffered (buildEnvelope t body ++ rest) (hsEnvelopeSize + body.length) =
      .ok rest := by
    rw [consumeBuffered_eq (by omega), ← buildEnvelope_length t, List.drop_left]
  simp only [nextBuffered,
    if_neg (show ¬ (buildEnvelope t body ++ rest).length < hsEnvelopeSize by omega), h0, h1, h2, h3,
    ok_bind, hbe, if_neg (Nat.not_lt.mpr hbody),
    if_neg (show ¬ (buildEnvelope t body ++ rest).length < hsEnvelopeSize + body.length by omega),
    hslice, hrest, pure_eq]

/-- **An incomplete message is left alone**: the start of an envelope gives nothing. -/
theorem nextBuffered_none {buf more later : Bytes} {t : UInt8} {body : Bytes}
    (hbody : body.length ≤ maxHandshakeMsg) (h : buf ++ more = buildEnvelope t body ++ later)
    (hshort : buf.length < (buildEnvelope t body).length) : nextBuffered buf = .ok none := by
  by_cases hmin : buf.length < hsEnvelopeSize
  · simp only [nextBuffered, if_pos hmin, pure_eq]
  · obtain ⟨t', b1, b2, b3, tail, rfl⟩ := four_bytes hmin
    -- The header is there, so it is the header of this message.
    have hbe : ofBE [b1, b2, b3] = body.length := by
      rw [buildEnvelope] at h
      simp only [toBE, List.cons_append, List.cons.injEq, List.nil_append] at h
      obtain ⟨rfl, rfl, rfl, rfl, -⟩ := h
      exact ofBE_toBE_of_lt (k := 3) (by simp only [maxHandshakeMsg] at hbody; omega)
    rw [buildEnvelope_length] at hshort
    simp only [nextBuffered, if_neg hmin, index_cons_zero, index_cons_succ, ok_bind, hbe,
      if_neg (Nat.not_lt.mpr hbody), if_pos hshort, pure_eq]

/-! ## The loop -/

variable {s : ClientState}

/-- One round of the loop. -/
theorem readHandshakeLoop_succ (rounds : Nat) (s : ClientState) :
    readHandshakeLoop (rounds + 1) s =
      match nextBuffered s.hsBuf with
      | .error e => .error e s
      | .ok (some (t, body, rest)) => .ok (t, body) ((s.log (.took t body)).setHsBuf rest)
      | .ok none =>
        match nextRecord s with
        | .error e s' => .error e s'
        | .ok (ct, payload) s' =>
          if ct = contentTypeHandshake then
            readHandshakeLoop rounds (s'.setHsBuf (s'.hsBuf ++ payload))
          else compute (refuseRecord s'.hsBuf ct payload) s' := by
  simp only [readHandshakeLoop, bind, liftM_eq]
  show EStateM.bind (compute (nextBuffered s.hsBuf)) _ s = _
  unfold EStateM.bind
  cases nextBuffered s.hsBuf with
  | error e => rfl
  | ok found =>
      cases found with
      | some m => rfl
      | none =>
          simp only [compute_ok, pure, EStateM.pure]
          cases nextRecord s with
          | error e s' => rfl
          | ok r s' =>
              show (if r.1 = contentTypeHandshake then
                  set (s'.setHsBuf (s'.hsBuf ++ r.2)) >>= fun _ => readHandshakeLoop rounds
                else compute (refuseRecord s'.hsBuf r.1 r.2) : HsM _) s' = _
              by_cases hct : r.1 = contentTypeHandshake
              · rw [if_pos hct]
                exact (if_pos hct).symm
              · rw [if_neg hct]
                exact (if_neg hct).symm

/-- A round that finds a complete message. -/
theorem readHandshakeLoop_take {rounds : Nat} {t : UInt8} {body rest : Bytes}
    (h : nextBuffered s.hsBuf = .ok (some (t, body, rest))) :
    readHandshakeLoop (rounds + 1) s = .ok (t, body) ((s.log (.took t body)).setHsBuf rest) := by
  rw [readHandshakeLoop_succ, h]

/-- The state after a record of handshake data. -/
def ClientState.receive (s : ClientState) (payload : Bytes) (layer : Layer) : ClientState :=
  ((s.log (.read ⟨s.layer.recvProt, s.layer.recvSeq, contentTypeHandshake, payload⟩)).setLayer
    layer).setHsBuf (s.hsBuf ++ payload)

/-- A round that reads a record of handshake data. -/
theorem readHandshakeLoop_read {rounds : Nat} {payload : Bytes} {layer : Layer}
    (h : nextBuffered s.hsBuf = .ok none)
    (hread : s.layer.readRecord = (.ok (contentTypeHandshake, payload), layer)) :
    readHandshakeLoop (rounds + 1) s = readHandshakeLoop rounds (s.receive payload layer) := by
  simp only [readHandshakeLoop_succ, h, nextRecord, readRecord, hread, if_true]
  rfl

theorem refuseRecord_error (hsBuf : Bytes) (ct : UInt8) (payload : Bytes) (r : UInt8 × Bytes) :
    refuseRecord hsBuf ct payload ≠ .ok r := by
  unfold refuseRecord
  by_cases hbuf : hsBuf.length = 0
  · by_cases hct : ct = contentTypeAlert
    · by_cases hlen : payload.length < 2
      · simp [hbuf, hct, hlen]
      · cases decodeAlert payload <;> simp [hbuf, hct, hlen]
    · simp [hbuf, hct]
  · simp [hbuf]

/-- A read that fails leaves the buffer alone. -/
theorem nextRecord_error {e : Err} {layer : Layer} (hread : s.layer.readRecord = (.error e, layer)) :
    ∃ e', nextRecord s = .error e' (s.setLayer layer) := by
  simp only [nextRecord, readRecord, hread]
  by_cases hempty : (s.setLayer layer).hsBuf.length ≠ 0
  · exact ⟨_, if_pos hempty⟩
  · exact ⟨_, if_neg hempty⟩

/-- A round that cannot read. -/
theorem readHandshakeLoop_error {rounds : Nat} {e : Err} {layer : Layer}
    (h : nextBuffered s.hsBuf = .ok none) (hread : s.layer.readRecord = (.error e, layer)) :
    ∃ e', readHandshakeLoop (rounds + 1) s = .error e' (s.setLayer layer) := by
  obtain ⟨e', hnext⟩ := nextRecord_error hread
  exact ⟨e', by simp only [readHandshakeLoop_succ, h, hnext]⟩

/-- A round that reads a record of another content type. -/
theorem readHandshakeLoop_foreign {rounds : Nat} {ct : UInt8} {payload : Bytes} {layer : Layer}
    (h : nextBuffered s.hsBuf = .ok none) (hread : s.layer.readRecord = (.ok (ct, payload), layer))
    (hct : ct ≠ contentTypeHandshake) : ∃ e, readHandshakeLoop (rounds + 1) s =
      .error e ((s.log (.read ⟨s.layer.recvProt, s.layer.recvSeq, ct, payload⟩)).setLayer layer) := by
  simp only [readHandshakeLoop_succ, h, nextRecord, readRecord, hread, if_neg hct]
  match hrefuse : refuseRecord s.hsBuf ct payload with
  | .ok r => exact absurd hrefuse (refuseRecord_error _ _ _ r)
  | .error e => exact ⟨e, rfl⟩

/-- A record takes at least its header off the transport. -/
theorem Layer.readRecord_input_lt {l l' : Layer} {ct : UInt8} {payload : Bytes}
    (h : l.readRecord = (.ok (ct, payload), l')) : l'.input.length < l.input.length := by
  obtain ⟨-, hdr, fragment, rest, prot, hinput, -, -, -, -, -, rfl⟩ := Layer.readRecord_ok h
  rw [hinput]
  simp [recordHeaderLen]

theorem nextRecord_input_lt {s' : ClientState} {r : UInt8 × Bytes} (h : nextRecord s = .ok r s') :
    s'.layer.input.length < s.layer.input.length := by
  simp only [nextRecord, readRecord] at h
  match hread : s.layer.readRecord with
  | (.ok (ct, payload), layer) =>
      rw [hread] at h
      cases h
      exact Layer.readRecord_input_lt hread
  | (.error e, layer) =>
      rw [hread] at h
      dsimp only at h
      split at h <;> cases h

/-- **The bound on the rounds is never what ends the loop.** -/
theorem readHandshakeLoop_rounds {r r' : Nat} (s : ClientState) (h : s.layer.input.length < r)
    (h' : s.layer.input.length < r') : readHandshakeLoop r s = readHandshakeLoop r' s := by
  induction r generalizing s r' with
  | zero => omega
  | succ r ih =>
      obtain ⟨r', rfl⟩ : ∃ n, r' = n + 1 := ⟨r' - 1, by omega⟩
      rw [readHandshakeLoop_succ, readHandshakeLoop_succ]
      match hbuf : nextBuffered s.hsBuf with
      | .error e | .ok (some (t, body, rest)) => rfl
      | .ok none =>
          cases hread : nextRecord s with
          | error e s' => rfl
          | ok r s' =>
              have hlt := nextRecord_input_lt hread
              simp only
              split
              · exact ih _ (by show s'.layer.input.length < _; omega)
                  (by show s'.layer.input.length < _; omega)
              · rfl

/-! ## Framing -/

/-- Successive reads of a layer return these payloads, as handshake records. -/
def Delivers : Layer → List Bytes → Prop
  | _, []      => True
  | l, p :: ps => ∃ l', l.readRecord = (.ok (contentTypeHandshake, p), l') ∧ Delivers l' ps

theorem Delivers.length_le {l : Layer} {ps : List Bytes} (h : Delivers l ps) :
    ps.length ≤ l.input.length := by
  induction ps generalizing l with
  | nil => simp
  | cons p ps ih =>
      obtain ⟨l', hread, hrest⟩ := h
      have hlt := Layer.readRecord_input_lt hread
      have hle := ih hrest
      simp only [List.length_cons]
      omega

/-- **One message.** If the buffer and the payloads to come start with an envelope, a call returns that
    message, having read some of the payloads. -/
theorem readHandshakeLoop_delivers {t : UInt8} {body later : Bytes} (ps : List Bytes) {rounds : Nat}
    (hbody : body.length ≤ maxHandshakeMsg) (hps : Delivers s.layer ps) (hrounds : ps.length < rounds)
    (hcut : s.hsBuf ++ ps.flatten = buildEnvelope t body ++ later) :
    ∃ s' ps', readHandshakeLoop rounds s = .ok (t, body) s' ∧ Delivers s'.layer ps' ∧
      s'.hsBuf ++ ps'.flatten = later := by
  induction ps generalizing s rounds with
  | nil =>
      obtain ⟨r, rfl⟩ : ∃ n, rounds = n + 1 := ⟨rounds - 1, by simp at hrounds; omega⟩
      have hbuf : s.hsBuf = buildEnvelope t body ++ later := by simpa using hcut
      exact ⟨_, [], readHandshakeLoop_take (hbuf ▸ nextBuffered_envelope later hbody), trivial, by simp⟩
  | cons p ps ih =>
      obtain ⟨r, rfl⟩ : ∃ n, rounds = n + 1 := ⟨rounds - 1, by simp at hrounds; omega⟩
      by_cases hfull : s.hsBuf.length < (buildEnvelope t body).length
      · -- The message is not complete yet: read on.
        obtain ⟨l', hread, hrest⟩ := hps
        rw [readHandshakeLoop_read (nextBuffered_none hbody hcut hfull) hread]
        apply ih hrest (by simpa using hrounds)
        show (s.hsBuf ++ p) ++ ps.flatten = _
        rw [List.append_assoc]
        exact hcut
      · -- It is, and what follows it in the buffer belongs to later messages.
        obtain ⟨rest, hrest⟩ : ∃ rest, s.hsBuf = buildEnvelope t body ++ rest :=
          ⟨s.hsBuf.drop (buildEnvelope t body).length, by
            have := congrArg (List.take (buildEnvelope t body).length) hcut
            rw [List.take_left, List.take_append_of_le_length (by omega)] at this
            rw [← this, List.length_take, Nat.min_eq_left (by omega), List.take_append_drop]⟩
        refine ⟨_, p :: ps, readHandshakeLoop_take (hrest ▸ nextBuffered_envelope rest hbody), hps, ?_⟩
        rw [hrest, List.append_assoc] at hcut
        exact List.append_cancel_left hcut

/-- `n` successive calls of `readHandshakeRecord`. -/
def readMessages : Nat → HsM (List (UInt8 × Bytes))
  | 0     => return []
  | n + 1 => do
    let m ← readHandshakeRecord
    let ms ← readMessages n
    return m :: ms

theorem readMessages_delivers (msgs : List (UInt8 × Bytes)) {ps : List Bytes} (s : ClientState)
    (hbody : ∀ m ∈ msgs, m.2.length ≤ maxHandshakeMsg) (hps : Delivers s.layer ps)
    (hcut : s.hsBuf ++ ps.flatten = envelopes msgs) :
    ∃ s', readMessages msgs.length s = .ok msgs s' ∧ s'.hsBuf = [] := by
  induction msgs generalizing s ps with
  | nil => exact ⟨s, rfl, (List.append_eq_nil_iff.mp hcut).1⟩
  | cons m msgs ih =>
      obtain ⟨s₁, ps', hcall, hps', hcut'⟩ :=
        readHandshakeLoop_delivers (s := s) ps (hbody m List.mem_cons_self) hps
          (Nat.lt_succ_of_le hps.length_le) hcut
      obtain ⟨s', hcalls, hbuf⟩ := ih s₁ (fun m hm => hbody m (List.mem_cons_of_mem _ hm)) hps' hcut'
      refine ⟨s', ?_, hbuf⟩
      have hfirst : readHandshakeRecord s = .ok m s₁ := hcall
      simp only [List.length_cons, readMessages, bind, EStateM.bind, hfirst, hcalls, pure, EStateM.pure]

/-- A sender's handshake records are delivered to a matched receiver. -/
theorem delivers_of_send {snd : Layer} (ps : List Bytes) (hs : Sender snd)
    (hlen : ∀ p ∈ ps, p.length ≤ tlsMaxPlaintextLen) (hseq : snd.sendSeq.toNat + ps.length < 2 ^ 64) :
    ∃ snd' emitted, ChannelOp.send (ps.map (.record contentTypeHandshake)) snd = (.ok (), snd') ∧
      snd'.output.output = snd.output.output ++ emitted ∧
      ∀ l rest, Matched snd l → l.input = ofBytes emitted ++ rest → Delivers l ps := by
  induction ps generalizing snd with
  | nil => exact ⟨snd, [], rfl, by simp, fun _ _ _ _ => trivial⟩
  | cons p ps ih =>
      simp only [List.length_cons] at hseq
      obtain ⟨s₁, hdr, fragment, hwrite, hs₁, hseq₁, -, hout, hread⟩ :=
        write_read hs (show isKnownContentType contentTypeHandshake = true by decide)
          (hlen p List.mem_cons_self) (by omega)
      obtain ⟨snd', emitted, hsend, hout', hdel⟩ :=
        ih hs₁ (fun q hq => hlen q (List.mem_cons_of_mem _ hq)) (by omega)
      refine ⟨snd', (hdr.bytes ++ fragment) ++ emitted, ?_, ?_, ?_⟩
      · simp only [List.map_cons, ChannelOp.send, hwrite, hsend]
      · rw [hout', hout, List.append_assoc]
      · intro l rest hm hin
        rw [ofBytes_append, List.append_assoc] at hin
        obtain ⟨l₁, hread₁, hm₁, hin₁⟩ := hread l _ hm hin
        exact ⟨l₁, hread₁, hdel l₁ rest hm₁ hin₁⟩

/-- **Reassembly does not depend on framing.** Let the envelopes of `msgs` be cut into record payloads in
    any way and sent to a client with an empty buffer. Then as many calls as there are messages return
    the messages, and leave the buffer empty. -/
theorem framing_independent (snd : Layer) (s : ClientState) (msgs : List (UInt8 × Bytes))
    (payloads : List Bytes) (hsnd : Sender snd) (hm : Matched snd s.layer) (hbuf : s.hsBuf = [])
    (hbody : ∀ m ∈ msgs, m.2.length ≤ maxHandshakeMsg)
    (hlen : ∀ p ∈ payloads, p.length ≤ tlsMaxPlaintextLen)
    (hcut : payloads.flatten = envelopes msgs)
    (hseq : snd.sendSeq.toNat + payloads.length < 2 ^ 64) :
    ∃ snd' emitted, ChannelOp.send (payloads.map (.record contentTypeHandshake)) snd = (.ok (), snd') ∧
      snd'.output.output = snd.output.output ++ emitted ∧
      ∀ rest, s.layer.input = ofBytes emitted ++ rest →
        ∃ s', readMessages msgs.length s = .ok msgs s' ∧ s'.hsBuf = [] := by
  obtain ⟨snd', emitted, hsend, hout, hdel⟩ := delivers_of_send payloads hsnd hlen hseq
  refine ⟨snd', emitted, hsend, hout, ?_⟩
  intro rest hin
  apply readMessages_delivers msgs s hbody (hdel s.layer rest hm hin)
  rw [hbuf, hcut]
  rfl

/-- A ServerHelloDone and a one-byte message in four records, cut inside both headers, one of them
    empty. -/
theorem framing_independent_four_records :
    ∃ s', readMessages 2 (newClientState (newLayer (ofBytes
        [22, 3, 3, 0, 2, 14, 0, 22, 3, 3, 0, 4, 0, 0, 20, 0, 22, 3, 3, 0, 0, 22, 3, 3, 0, 3, 0, 1, 7])
        ⟨[], []⟩ ⟨fun _ => .ok 0, 0⟩) none .sample) = .ok [(14, []), (20, [7])] s' ∧ s'.hsBuf = [] := by
  obtain ⟨snd', emitted, hsend, hout, hread⟩ := framing_independent
    (newLayer [] ⟨[], []⟩ ⟨fun _ => .ok 0, 0⟩)
    (newClientState (newLayer (ofBytes
        [22, 3, 3, 0, 2, 14, 0, 22, 3, 3, 0, 4, 0, 0, 20, 0, 22, 3, 3, 0, 0, 22, 3, 3, 0, 3, 0, 1, 7])
        ⟨[], []⟩ ⟨fun _ => .ok 0, 0⟩) none .sample)
    [(14, []), (20, [7])] [[14, 0], [0, 0, 20, 0], [], [0, 1, 7]]
    ⟨by simp [Writer.Reliable, newLayer, newLayerWithSeq], fun _ => ⟨0, rfl⟩, trivial⟩
    ⟨rfl, rfl⟩ rfl (by decide) (by decide) (by decide) (by decide)
  have hemitted : emitted =
      [22, 3, 3, 0, 2, 14, 0, 22, 3, 3, 0, 4, 0, 0, 20, 0, 22, 3, 3, 0, 0, 22, 3, 3, 0, 3, 0, 1, 7] := by
    have hsnd' := congrArg (fun r => r.2.output.output) hsend
    rw [show snd'.output.output = emitted from hout] at hsnd'
    exact hsnd'.symm
  apply hread []
  rw [hemitted, List.append_nil]
  rfl

end Gostls

import Gostls.Record.Layer

/-!
# `Gostls.Record.Channel` — two layers in lockstep

A sending and a receiving layer joined by the byte stream the sender emits. `Matched` is the
relation between them: equal protectors and equal sequence numbers. One record keeps it
(`write_read`), and so does a change of cipher on both sides; by induction over a list of
operations everything written is read back, across any number of epochs
(`channel_round_trip`).
-/

namespace Gostls

open Lib

/-- What the two ends of a channel do together: transfer a record, or change to a new protector. -/
inductive ChannelOp
  | record (ct : UInt8) (payload : Bytes)
  | changeCipherSpec (p : Protector)

namespace ChannelOp

/-- The sender's side: one `WriteRecord` or one `ChangeCipherSpec` per operation. -/
def send : List ChannelOp → Layer → Except Err Unit × Layer
  | [], l => (.ok (), l)
  | .record ct payload :: ops, l =>
    match l.writeRecord ct payload with
    | (.error e, l) => (.error e, l)
    | (.ok _, l)    => send ops l
  | .changeCipherSpec p :: ops, l => send ops (l.changeCipherSpec (some p) none)

/-- The receiver's side: one `ReadRecord` or one `ChangeCipherSpec` per operation. -/
def receive : List ChannelOp → Layer → Except Err (List (UInt8 × Bytes)) × Layer
  | [], l => (.ok [], l)
  | .record _ _ :: ops, l =>
    match l.readRecord with
    | (.error e, l) => (.error e, l)
    | (.ok rec, l)  =>
      match receive ops l with
      | (.error e, l)   => (.error e, l)
      | (.ok recs, l) => (.ok (rec :: recs), l)
  | .changeCipherSpec p :: ops, l => receive ops (l.changeCipherSpec none (some p))

/-- The records an operation list transfers. -/
def records : List ChannelOp → List (UInt8 × Bytes)
  | []                           => []
  | .record ct payload :: ops    => (ct, payload) :: records ops
  | .changeCipherSpec _ :: ops   => records ops

/-- Operations within the protocol's limits, `n` records into the current epoch: known content
    types, payloads of at most `2^14` bytes, fewer than `2^64 - 1` records per epoch. -/
def Admissible : Nat → List ChannelOp → Prop
  | _, [] => True
  | n, .record ct payload :: ops =>
    isKnownContentType ct = true ∧ payload.length ≤ tlsMaxPlaintextLen ∧ n < 2 ^ 64 - 1 ∧
      Admissible (n + 1) ops
  | _, .changeCipherSpec p :: ops => p.Sized ∧ Admissible 0 ops

end ChannelOp

/-- The sender's send side and the receiver's receive side agree. -/
structure Matched (s r : Layer) : Prop where
  prot : s.sendProt = r.recvProt
  seq : s.sendSeq = r.recvSeq

/-- What a sender needs to keep going: a transport and an entropy source that do not fail, and a
    protector of proper sizes. -/
structure Sender (s : Layer) : Prop where
  output : s.output.Reliable
  rand : s.rand.Reliable
  sized : s.sendProt.Sized

/-- A framed record: a header that passes the receiver's checks and announces its fragment. -/
structure Framed (hdr : Header) (fragment : Bytes) : Prop where
  length_le : fragment.length ≤ maxFragmentLen
  length_eq : hdr.length = fragment.length
  check : Layer.checkHeader hdr = .ok ()

/-- The bytes of a sequence of framed records. -/
def frameBytes (frames : List (Header × Bytes)) : Bytes :=
  frames.flatMap (fun f => f.1.bytes ++ f.2)

theorem framed_template {ct : UInt8} {fragment : Bytes} (hct : isKnownContentType ct = true)
    (hlen : fragment.length ≤ maxFragmentLen) :
    Framed ((Header.template ct).putLength fragment.length) fragment := by
  have h16 : fragment.length < 65536 := by
    simp only [maxFragmentLen, tlsMaxPlaintextLen, tlsMaxCiphertextOverhead] at hlen
    omega
  have heq := (Header.template ct).length_putLength h16
  refine ⟨hlen, heq, ?_⟩
  have hver : isAcceptedRecordVersion (Header.template ct).verHi (Header.template ct).verLo = true :=
    rfl
  simp only [Layer.checkHeader, Header.putLength_contentType, Header.putLength_verHi,
    Header.putLength_verLo, heq, hver, if_neg (Nat.not_lt.mpr hlen)]
  rw [show (Header.template ct).contentType = ct from rfl, hct]
  rfl

variable {s : Layer}

/-- **One record.** The write succeeds, and a matched receiver reads the payload off the emitted
    bytes and stays matched. -/
theorem write_read (hs : Sender s) {ct : UInt8} {payload : Bytes}
    (hct : isKnownContentType ct = true) (hlen : payload.length ≤ tlsMaxPlaintextLen)
    (hseq : s.sendSeq.toNat < 2 ^ 64 - 1) :
    ∃ s' hdr fragment, s.writeRecord ct payload = (.ok (), s') ∧ Sender s' ∧
      s'.sendSeq.toNat = s.sendSeq.toNat + 1 ∧ Framed hdr fragment ∧
      s'.output.output = s.output.output ++ (hdr.bytes ++ fragment) ∧
      ∀ r rest, Matched s r → r.input = ofBytes (hdr.bytes ++ fragment) ++ rest →
        ∃ r', r.readRecord = (.ok (ct, payload), r') ∧ Matched s' r' ∧ r'.input = rest := by
  have hne := ne_maxUint64_of_lt hseq
  obtain ⟨fragment, prot, rand, hseal, hrand, hrec⟩ := s.sealRecord_eq hct hlen hne hs.rand
  have hfit : fragment.length ≤ maxFragmentLen := by
    have := Protector.seal_length_le hs.sized hseal
    simp only [maxFragmentLen]
    omega
  have hframed := framed_template hct hfit
  obtain ⟨w, hw, hwout, hwr⟩ := hs.output.write ((Header.template ct).putLength fragment.length).bytes
  obtain ⟨w', hw', hwout', hwr'⟩ := hwr.write fragment
  refine ⟨{ s with sendProt := prot, rand, output := w', sendSeq := s.sendSeq + 1 }, _, fragment, ?_,
    ⟨hwr', hrand, Protector.seal_sized hs.sized hseal⟩, toNat_succ hne, hframed, ?_, ?_⟩
  · simp only [Layer.writeRecord, hrec, hw, hw']
  · rw [hwout', hwout, List.append_assoc]
  · intro r rest hm hinput
    have hopen : r.recvProt.open r.recvSeq ((Header.template ct).putLength fragment.length) fragment =
        (.ok payload, prot) := by
      rw [← hm.prot, ← hm.seq]
      exact Protector.open_seal hs.sized (Header.putLength_typeVersion ..) hlen hseal
    exact ⟨_, Layer.readRecord_eq (hm.seq ▸ hne) hinput hframed.check hframed.length_eq hopen hlen,
      ⟨rfl, by rw [hm.seq]⟩, rfl⟩

/-- **The channel delivers.** Everything within the limits is sent, every emitted fragment fits in a
    record and in its 16-bit length, and reading the emitted bytes with as many calls returns the
    records that were written. -/
theorem channel_round_trip (ops : List ChannelOp) (hs : Sender s)
    (hops : ChannelOp.Admissible s.sendSeq.toNat ops) :
    ∃ s' frames, ChannelOp.send ops s = (.ok (), s') ∧
      s'.output.output = s.output.output ++ frameBytes frames ∧
      (∀ f ∈ frames, Framed f.1 f.2) ∧
      ∀ r rest, Matched s r → r.input = ofBytes (frameBytes frames) ++ rest →
        ∃ r', ChannelOp.receive ops r = (.ok (ChannelOp.records ops), r') ∧ Matched s' r' ∧
          r'.input = rest := by
  induction ops generalizing s with
  | nil => exact ⟨s, [], rfl, by simp [frameBytes], by simp, fun r rest hm hin => ⟨r, rfl, hm, hin⟩⟩
  | cons op ops ih =>
      cases op with
      | record ct payload =>
          obtain ⟨hct, hlen, hseq, hrest⟩ := hops
          obtain ⟨s₁, hdr, fragment, hwrite, hs₁, hseq₁, hframed, hout, hread⟩ :=
            write_read hs hct hlen hseq
          obtain ⟨s', frames, hsend, hout', hframes, hrecv⟩ := ih hs₁ (hseq₁ ▸ hrest)
          refine ⟨s', (hdr, fragment) :: frames, ?_, ?_, ?_, ?_⟩
          · simp only [ChannelOp.send, hwrite, hsend]
          · rw [hout', hout, List.append_assoc]
            rfl
          · exact List.forall_mem_cons.mpr ⟨hframed, hframes⟩
          · intro r rest hm hin
            have hsplit : r.input =
                ofBytes (hdr.bytes ++ fragment) ++ (ofBytes (frameBytes frames) ++ rest) := by
              rw [hin, ← List.append_assoc, ← ofBytes_append]
              rfl
            obtain ⟨r₁, hread₁, hm₁, hin₁⟩ := hread r _ hm hsplit
            obtain ⟨r', hrecv', hm', hin'⟩ := hrecv r₁ rest hm₁ hin₁
            exact ⟨r', by simp only [ChannelOp.receive, hread₁, hrecv', ChannelOp.records], hm', hin'⟩
      | changeCipherSpec p =>
          obtain ⟨hsized, hrest⟩ := hops
          obtain ⟨s', frames, hsend, hout, hframes, hrecv⟩ :=
            ih (s := s.changeCipherSpec (some p) none) ⟨hs.output, hs.rand, hsized⟩ hrest
          refine ⟨s', frames, hsend, hout, hframes, ?_⟩
          intro r rest hm hin
          exact hrecv (r.changeCipherSpec none (some p)) rest ⟨rfl, rfl⟩ hin

/-- A handshake record in the clear, then an application record under AES-GCM. -/
theorem channel_round_trip_two_epochs :
    ∃ s' frames,
      ChannelOp.send [.record contentTypeHandshake [1, 2],
          .changeCipherSpec (.aead .sample),
          .record contentTypeApplicationData [3]]
        (newLayer [] ⟨[], []⟩ ⟨fun _ => .ok 0, 0⟩) = (.ok (), s') ∧
      s'.output.output = [] ++ frameBytes frames ∧ (∀ f ∈ frames, Framed f.1 f.2) ∧
      ∀ r rest, Matched (newLayer [] ⟨[], []⟩ ⟨fun _ => .ok 0, 0⟩) r →
        r.input = ofBytes (frameBytes frames) ++ rest →
        ∃ r', ChannelOp.receive [.record contentTypeHandshake [1, 2],
            .changeCipherSpec (.aead .sample),
            .record contentTypeApplicationData [3]] r =
          (.ok [(contentTypeHandshake, [1, 2]), (contentTypeApplicationData, [3])], r') ∧
          Matched s' r' ∧ r'.input = rest :=
  channel_round_trip _
    ⟨by simp [Writer.Reliable, newLayer, newLayerWithSeq], fun _ => ⟨0, rfl⟩, trivial⟩
    ⟨by decide, by decide, by decide, trivial, by decide, by decide, by decide, trivial⟩

end Gostls

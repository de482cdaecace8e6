import Gostls.Record.Protector

/-!
# `Gostls.Record.Layer` — reading and writing records

`Layer` with its two operations and `ChangeCipherSpec`. A layer owns both sides of the transport,
the two sequence numbers and the two protectors; the send side and the receive side are disjoint.

`SealOutcome`, `WriteOutcome` and `ReadOutcome` say once what each operation can do; what is known
about successful and failed calls is read off them.
-/

namespace Gostls

open Lib

/-- `math.MaxUint64` -/
def maxUint64 : UInt64 := 0xffffffffffffffff

theorem toNat_succ {s : UInt64} (h : s ≠ maxUint64) : (s + 1).toNat = s.toNat + 1 := by
  have hlt := s.toNat_lt
  have hne : s.toNat ≠ 2 ^ 64 - 1 := fun he => h (UInt64.toNat_inj.mp (by rw [he]; rfl))
  rw [UInt64.toNat_add]
  simp only [UInt64.toNat_one]
  omega

theorem ne_maxUint64_of_lt {s : UInt64} (h : s.toNat < 2 ^ 64 - 1) : s ≠ maxUint64 := by
  rintro rfl
  exact absurd h (by decide)

/-- A record reader and writer over a transport. `rand` is the system entropy the send protector
    draws on. -/
structure Layer where
  input : Reader
  output : Writer
  rand : Entropy
  sendSeq : UInt64
  recvSeq : UInt64
  sendProt : Protector
  recvProt : Protector

/-- A layer with the given initial sequence number and null protectors. -/
def newLayerWithSeq (input : Reader) (output : Writer) (rand : Entropy) (initialSeq : UInt64) :
    Layer :=
  { input, output, rand, sendSeq := initialSeq, recvSeq := initialSeq,
    sendProt := .null, recvProt := .null }

/-- A fresh layer. -/
def newLayer (input : Reader) (output : Writer) (rand : Entropy) : Layer :=
  newLayerWithSeq input output rand 0

namespace Layer

/-- Swap the send and/or receive protectors; `none` leaves a direction unchanged. -/
def changeCipherSpec (l : Layer) (send recv : Option Protector) : Layer :=
  let l := match send with
    | some p => { l with sendProt := p, sendSeq := 0 }
    | none   => l
  match recv with
  | some p => { l with recvProt := p, recvSeq := 0 }
  | none   => l

/-! ## Writing -/

/-- The part of `WriteRecord` before any byte reaches the transport: the three guards and `Seal`. -/
def sealRecord (ct : UInt8) (payload : Bytes) (l : Layer) : Except Err (Header × Bytes) × Layer :=
  if !isKnownContentType ct then
    (.error (fatalRecordError ("unknown content type 0x" ++ hex02 ct)), l)
  else if payload.length > tlsMaxPlaintextLen then
    (.error (fatalRecordError "plaintext payload exceeds 2^14 bytes"), l)
  else if l.sendSeq = maxUint64 then
    (.error (fatalRecordError "sequence number overflow"), l)
  else
    let hdr := Header.template ct
    match l.sendProt.seal l.sendSeq hdr payload l.rand with
    | (.error e, prot, rand) => (.error e, { l with sendProt := prot, rand })
    | (.ok fragment, prot, rand) =>
      (.ok (hdr.putLength fragment.length, fragment), { l with sendProt := prot, rand })

/-- Encrypt and write a single record. The sequence number advances only when both writes
    succeeded. -/
def writeRecord (ct : UInt8) (payload : Bytes) (l : Layer) : Except Err Unit × Layer :=
  match l.sealRecord ct payload with
  | (.error e, l) => (.error e, l)
  | (.ok (hdr, fragment), l) =>
    match l.output.write hdr.bytes with
    | (.error e, output) => (.error (.stream e), { l with output })
    | (.ok _, output) =>
      match output.write fragment with
      | (.error e, output) => (.error (.stream e), { l with output })
      | (.ok _, output) => (.ok (), { l with output, sendSeq := l.sendSeq + 1 })

/-! ## Reading -/

/-- The checks on a received header, in the source's order. -/
def checkHeader (hdr : Header) : Except Err Unit :=
  if !isKnownContentType hdr.contentType then .error (newFatalAlertError alertIllegalParameter)
  else if !isAcceptedRecordVersion hdr.verHi hdr.verLo then
    .error (newFatalAlertError alertProtocolVersion)
  else if hdr.length > maxFragmentLen then .error (newFatalAlertError alertRecordOverflow)
  else .ok ()

/-- Read and decrypt a single record. -/
def readRecord (l : Layer) : Except Err (UInt8 × Bytes) × Layer :=
  if l.recvSeq = maxUint64 then
    (.error (fatalRecordError "sequence number overflow"), l)
  else
    match readFull recordHeaderLen l.input with
    | (.error e, input) => (.error (.stream e), { l with input })
    | (.ok b, input) =>
      let hdr := Header.ofBytes b
      match checkHeader hdr with
      | .error e => (.error e, { l with input })
      | .ok _ =>
        match readFull hdr.length input with
        | (.error e, input) => (.error (.stream e), { l with input })
        | (.ok fragment, input) =>
          match l.recvProt.open l.recvSeq hdr fragment with
          | (.error e, recvProt) => (.error e, { l with input, recvProt })
          | (.ok plain, recvProt) =>
            if plain.length > tlsMaxPlaintextLen then
              (.error (newFatalAlertError alertRecordOverflow), { l with input, recvProt })
            else
              (.ok (hdr.contentType, plain), { l with input, recvProt, recvSeq := l.recvSeq + 1 })

/-! ## What the operations do -/

/-- **What sealing can do**: a guard refuses, `Seal` fails, or there is a fragment. In every case
    protector and entropy are all that changes. -/
inductive SealOutcome (ct : UInt8) (payload : Bytes) (l : Layer) :
    Except Err (Header × Bytes) → Layer → Prop
  | refused {e : Err} : SealOutcome ct payload l (.error e) l
  | failed {e : Err} {prot : Protector} {rand : Entropy}
      (hseal : l.sendProt.seal l.sendSeq (.template ct) payload l.rand = (.error e, prot, rand)) :
      SealOutcome ct payload l (.error e) { l with sendProt := prot, rand }
  | sealed {fragment : Bytes} {prot : Protector} {rand : Entropy}
      (hct : isKnownContentType ct = true) (hlen : payload.length ≤ tlsMaxPlaintextLen)
      (hseq : l.sendSeq ≠ maxUint64)
      (hseal : l.sendProt.seal l.sendSeq (.template ct) payload l.rand = (.ok fragment, prot, rand)) :
      SealOutcome ct payload l (.ok ((Header.template ct).putLength fragment.length, fragment))
        { l with sendProt := prot, rand }

/-- **What `WriteRecord` can do**: nothing is sealed, the header does not go out, the fragment does
    not, or the record is written. -/
inductive WriteOutcome (ct : UInt8) (payload : Bytes) (l : Layer) : Except Err Unit → Layer → Prop
  | unsealed {e : Err} {l₁ : Layer} (hseal : l.sealRecord ct payload = (.error e, l₁)) :
      WriteOutcome ct payload l (.error e) l₁
  | unsent {hdr : Header} {fragment : Bytes} {l₁ : Layer} {e : StreamErr} {output : Writer}
      (hseal : l.sealRecord ct payload = (.ok (hdr, fragment), l₁))
      (hhdr : l₁.output.write hdr.bytes = (.error e, output)) :
      WriteOutcome ct payload l (.error (.stream e)) { l₁ with output }
  | torn {hdr : Header} {fragment : Bytes} {l₁ : Layer} {e : StreamErr} {w output : Writer}
      (hseal : l.sealRecord ct payload = (.ok (hdr, fragment), l₁))
      (hhdr : l₁.output.write hdr.bytes = (.ok (), w))
      (hfrag : w.write fragment = (.error e, output)) :
      WriteOutcome ct payload l (.error (.stream e)) { l₁ with output }
  | written {hdr : Header} {fragment : Bytes} {l₁ : Layer} {w output : Writer}
      (hseal : l.sealRecord ct payload = (.ok (hdr, fragment), l₁))
      (hhdr : l₁.output.write hdr.bytes = (.ok (), w))
      (hfrag : w.write fragment = (.ok (), output)) :
      WriteOutcome ct payload l (.ok ()) { l₁ with output, sendSeq := l₁.sendSeq + 1 }

/-- **What `ReadRecord` can do**, in the order in which it gives up. -/
inductive ReadOutcome (l : Layer) : Except Err (UInt8 × Bytes) → Layer → Prop
  | overflow : ReadOutcome l (.error (fatalRecordError "sequence number overflow")) l
  | cutHeader {e : StreamErr} {input : Reader}
      (hread : readFull recordHeaderLen l.input = (.error e, input)) :
      ReadOutcome l (.error (.stream e)) { l with input }
  | badHeader {hdr : Header} {rest : Reader} {e : Err} (hcheck : checkHeader hdr = .error e) :
      ReadOutcome l (.error e) { l with input := rest }
  | cutFragment {hdr : Header} {rest input : Reader} {e : StreamErr} (hseq : l.recvSeq ≠ maxUint64)
      (hinput : l.input = ofBytes hdr.bytes ++ rest) (hcheck : checkHeader hdr = .ok ())
      (hread : readFull hdr.length rest = (.error e, input)) :
      ReadOutcome l (.error (.stream e)) { l with input }
  | rejected {hdr : Header} {fragment : Bytes} {rest : Reader} {e : Err} {prot : Protector}
      (hopen : l.recvProt.open l.recvSeq hdr fragment = (.error e, prot)) :
      ReadOutcome l (.error e) { l with input := rest, recvProt := prot }
  | overlong {hdr : Header} {fragment plain : Bytes} {rest : Reader} {prot : Protector}
      (hopen : l.recvProt.open l.recvSeq hdr fragment = (.ok plain, prot)) :
      ReadOutcome l (.error (newFatalAlertError alertRecordOverflow))
        { l with input := rest, recvProt := prot }
  | opened {hdr : Header} {fragment plain : Bytes} {rest : Reader} {prot : Protector}
      (hseq : l.recvSeq ≠ maxUint64) (hinput : l.input = ofBytes (hdr.bytes ++ fragment) ++ rest)
      (hcheck : checkHeader hdr = .ok ()) (hlen : hdr.length = fragment.length)
      (hopen : l.recvProt.open l.recvSeq hdr fragment = (.ok plain, prot))
      (hplain : plain.length ≤ tlsMaxPlaintextLen) :
      ReadOutcome l (.ok (hdr.contentType, plain))
        { l with input := rest, recvProt := prot, recvSeq := l.recvSeq + 1 }

variable {l l' : Layer} {ct : UInt8} {payload : Bytes}

theorem sealRecord_outcome (ct : UInt8) (payload : Bytes) (l : Layer) :
    SealOutcome ct payload l (l.sealRecord ct payload).1 (l.sealRecord ct payload).2 := by
  unfold sealRecord
  split
  · exact .refused
  · rename_i hct
    split
    · exact .refused
    · rename_i hlen
      split
      · exact .refused
      · rename_i hseq
        simp only
        split
        · rename_i hseal
          exact .failed hseal
        · rename_i hseal
          exact .sealed (by simpa using hct) (Nat.not_lt.mp hlen) hseq hseal

theorem writeRecord_outcome (ct : UInt8) (payload : Bytes) (l : Layer) :
    WriteOutcome ct payload l (l.writeRecord ct payload).1 (l.writeRecord ct payload).2 := by
  unfold writeRecord
  split
  · rename_i hseal
    exact .unsealed hseal
  · rename_i hseal
    split
    · rename_i hhdr
      exact .unsent hseal hhdr
    · rename_i hhdr
      split
      · rename_i hfrag
        exact .torn hseal hhdr hfrag
      · rename_i hfrag
        exact .written hseal hhdr hfrag

theorem readRecord_outcome (l : Layer) : ReadOutcome l l.readRecord.1 l.readRecord.2 := by
  unfold readRecord
  split
  · exact .overflow
  · rename_i hseq
    split
    · rename_i hread
      exact .cutHeader hread
    · rename_i b rest hread
      obtain ⟨hinput, hlen⟩ := readFull_ok hread
      rw [← Header.bytes_ofBytes hlen] at hinput
      simp only
      split
      · rename_i hcheck
        exact .badHeader hcheck
      · rename_i hcheck
        split
        · rename_i hread'
          exact .cutFragment hseq hinput hcheck hread'
        · rename_i fragment rest hread'
          obtain ⟨rfl, hflen⟩ := readFull_ok hread'
          split
          · rename_i hopen
            exact .rejected hopen
          · rename_i hopen
            split
            · exact .overlong hopen
            · rename_i hplain
              refine .opened hseq ?_ hcheck hflen.symm hopen (Nat.not_lt.mp hplain)
              rw [hinput, ofBytes_append, List.append_assoc]

/-- **A successful `Seal`** passed the guards and changed nothing but protector and entropy. -/
theorem sealRecord_ok {hdr : Header} {fragment : Bytes}
    (h : l.sealRecord ct payload = (.ok (hdr, fragment), l')) :
    isKnownContentType ct = true ∧ payload.length ≤ tlsMaxPlaintextLen ∧ l.sendSeq ≠ maxUint64 ∧
      ∃ prot rand, l.sendProt.seal l.sendSeq (.template ct) payload l.rand =
          (.ok fragment, prot, rand) ∧
        hdr = (Header.template ct).putLength fragment.length ∧
        l' = { l with sendProt := prot, rand } := by
  have hout := sealRecord_outcome ct payload l
  rw [h] at hout
  cases hout with
  | sealed hct hlen hseq hseal => exact ⟨hct, hlen, hseq, _, _, hseal, rfl, rfl⟩

/-- Sealing touches neither the transport nor the sequence numbers nor the receive side. -/
theorem sealRecord_frame (ct : UInt8) (payload : Bytes) (l : Layer) :
    ∃ prot rand, (l.sealRecord ct payload).2 = { l with sendProt := prot, rand } := by
  have hout := sealRecord_outcome ct payload l
  generalize (l.sealRecord ct payload).1 = res at hout
  generalize (l.sealRecord ct payload).2 = l' at hout
  cases hout <;> exact ⟨_, _, rfl⟩

/-- Within the guards and with entropy at hand, `Seal` succeeds. -/
theorem sealRecord_eq (hct : isKnownContentType ct = true) (hlen : payload.length ≤ tlsMaxPlaintextLen)
    (hseq : l.sendSeq ≠ maxUint64) (hr : l.rand.Reliable) :
    ∃ fragment prot rand,
      l.sendProt.seal l.sendSeq (.template ct) payload l.rand = (.ok fragment, prot, rand) ∧
      rand.Reliable ∧ l.sealRecord ct payload =
        (.ok ((Header.template ct).putLength fragment.length, fragment),
          { l with sendProt := prot, rand }) := by
  obtain ⟨fragment, prot, rand, hseal, hr'⟩ :=
    l.sendProt.seal_ok l.sendSeq (.template ct) payload hr
  refine ⟨fragment, prot, rand, hseal, hr', ?_⟩
  simp only [sealRecord, hct, Bool.not_true, Bool.false_eq_true, if_false,
    if_neg (Nat.not_lt.mpr hlen), if_neg hseq, hseal]

/-- **A successful write** sealed the record, wrote header and fragment, and advanced. -/
theorem writeRecord_ok (h : l.writeRecord ct payload = (.ok (), l')) :
    ∃ hdr fragment l₁ w w', l.sealRecord ct payload = (.ok (hdr, fragment), l₁) ∧
      l₁.output.write hdr.bytes = (.ok (), w) ∧ w.write fragment = (.ok (), w') ∧
      l' = { l₁ with output := w', sendSeq := l₁.sendSeq + 1 } := by
  have hout := writeRecord_outcome ct payload l
  rw [h] at hout
  cases hout with
  | written hseal hhdr hfrag => exact ⟨_, _, _, _, _, hseal, hhdr, hfrag, rfl⟩

/-- **A failed write** does not advance, and leaves the receive side alone. -/
theorem writeRecord_error {e : Err} (h : l.writeRecord ct payload = (.error e, l')) :
    ∃ output rand prot, l' = { l with output, rand, sendProt := prot } := by
  obtain ⟨prot, rand, hframe⟩ := sealRecord_frame ct payload l
  have hout := writeRecord_outcome ct payload l
  rw [h] at hout
  cases hout with
  | unsealed hseal | unsent hseal _ | torn hseal _ _ =>
      simp only [hseal] at hframe
      subst hframe
      exact ⟨_, _, _, rfl⟩

/-- A write leaves the receive side alone. -/
theorem writeRecord_input (ct : UInt8) (payload : Bytes) (l : Layer) :
    (l.writeRecord ct payload).2.input = l.input := by
  cases hw : l.writeRecord ct payload with
  | mk res l' =>
      cases res with
      | error e =>
          obtain ⟨output, rand, prot, rfl⟩ := writeRecord_error hw
          rfl
      | ok _ =>
          obtain ⟨hdr, fragment, l₁, w, w', hseal, -, -, rfl⟩ := writeRecord_ok hw
          obtain ⟨-, -, -, prot, rand, -, -, rfl⟩ := sealRecord_ok hseal
          rfl

/-- **A successful read** took one whole record off the transport, and the protector opened it. -/
theorem readRecord_ok (h : l.readRecord = (.ok (ct, payload), l')) :
    l.recvSeq ≠ maxUint64 ∧ ∃ hdr fragment rest prot,
      l.input = ofBytes (hdr.bytes ++ fragment) ++ rest ∧ checkHeader hdr = .ok () ∧
      hdr.contentType = ct ∧ hdr.length = fragment.length ∧
      l.recvProt.open l.recvSeq hdr fragment = (.ok payload, prot) ∧
      payload.length ≤ tlsMaxPlaintextLen ∧
      l' = { l with input := rest, recvProt := prot, recvSeq := l.recvSeq + 1 } := by
  have hout := readRecord_outcome l
  rw [h] at hout
  cases hout with
  | opened hseq hinput hcheck hlen hopen hplain =>
      exact ⟨hseq, _, _, _, _, hinput, hcheck, rfl, hlen, hopen, hplain, rfl⟩

/-- **A failed read** does not advance: it has taken some input, and may have asked the protector. -/
theorem readRecord_error {e : Err} (h : l.readRecord = (.error e, l')) :
    ∃ input, l' = { l with input } ∨ ∃ hdr fragment,
      l' = { l with input, recvProt := (l.recvProt.open l.recvSeq hdr fragment).2 } := by
  have hout := readRecord_outcome l
  rw [h] at hout
  cases hout with
  | overflow | cutHeader _ | badHeader _ | cutFragment _ _ _ _ => exact ⟨_, .inl rfl⟩
  | rejected hopen | overlong hopen => exact ⟨_, .inr ⟨_, _, by rw [hopen]⟩⟩

theorem checkHeader_throws (hdr : Header) : Throws Err.Local (checkHeader hdr) :=
  .ite (throws_alert _) (.ite (throws_alert _) (.ite (throws_alert _) (.ok _)))

theorem checkHeader_ok {hdr : Header} (h : checkHeader hdr = .ok ()) :
    isKnownContentType hdr.contentType = true ∧
      isAcceptedRecordVersion hdr.verHi hdr.verLo = true ∧ hdr.length ≤ maxFragmentLen := by
  unfold checkHeader at h
  split at h
  · cases h
  · rename_i hct
    split at h
    · cases h
    · rename_i hver
      split at h
      · cases h
      · rename_i hlen
        exact ⟨by simpa using hct, by simpa using hver, Nat.not_lt.mp hlen⟩

/-- A transport that holds a whole record gives its header, and then its fragment. -/
theorem readFull_record {input rest : Reader} {hdr : Header} {fragment : Bytes}
    (hinput : input = ofBytes (hdr.bytes ++ fragment) ++ rest) (hlen : hdr.length = fragment.length) :
    readFull recordHeaderLen input = (.ok hdr.bytes, ofBytes fragment ++ rest) ∧
      readFull hdr.length (ofBytes fragment ++ rest) = (.ok fragment, rest) := by
  constructor
  · rw [hinput, ofBytes_append, List.append_assoc, ← hdr.bytes_length, readFull_ofBytes]
  · rw [hlen, readFull_ofBytes]

/-- **Running a read** on a transport that holds a whole record. -/
theorem readRecord_eq {hdr : Header} {fragment plain : Bytes} {rest : Reader} {prot : Protector}
    (hseq : l.recvSeq ≠ maxUint64) (hinput : l.input = ofBytes (hdr.bytes ++ fragment) ++ rest)
    (hcheck : checkHeader hdr = .ok ()) (hlen : hdr.length = fragment.length)
    (hopen : l.recvProt.open l.recvSeq hdr fragment = (.ok plain, prot))
    (hplain : plain.length ≤ tlsMaxPlaintextLen) :
    l.readRecord = (.ok (hdr.contentType, plain),
      { l with input := rest, recvProt := prot, recvSeq := l.recvSeq + 1 }) := by
  obtain ⟨hhdr, hfrag⟩ := readFull_record hinput hlen
  simp only [readRecord, if_neg hseq, hhdr, Header.ofBytes_bytes, hcheck, hfrag, hopen,
    if_neg (Nat.not_lt.mpr hplain)]

/-- A read leaves the send side alone. -/
theorem readRecord_frame (l : Layer) :
    ∃ input prot seq, l.readRecord.2 = { l with input, recvProt := prot, recvSeq := seq } := by
  have hout := readRecord_outcome l
  generalize l.readRecord.1 = res at hout
  generalize l.readRecord.2 = l' at hout
  cases hout <;> exact ⟨_, _, _, rfl⟩

end Layer

end Gostls

import Gostls.Record.Output

/-!
# `Gostls.Record.Integrity` — a receiver against an active network

A sender and a receiver share the key of an AEAD protector, and a network between them delivers
whatever bytes it likes. The AEAD is ideal on the run at hand: a query of the receiver's `Open` that
succeeds is one that the sender's `Seal` produced (`Unforged`). Under that assumption alone, what the
receiver accepts is a prefix of what the sender wrote (`accepted_prefix_of_written`).

The argument is one invariant, `Link.Inv`: the number of accepted records is the receiver's
sequence number, every produced query is the query of the record at its index, and the additional
data of a query contains that index. What counts as produced is what is on the sender's wire: opening the
record asks for that very query (`openQuery_of_seal`).
-/

namespace Gostls

open Lib

/-! ## The two AEAD protectors as one -/

/-- What an AEAD is asked to open: nonce, ciphertext and additional data. -/
structure Query where
  nonce : Bytes
  ciphertext : Bytes
  ad : Bytes
  deriving DecidableEq

/-- The protectors that are an AEAD keyed by the sequence number. -/
inductive AeadSuite
  | gcm (p : AeadProtector)
  | chacha20Poly1305 (p : ChaCha20Poly1305Protector)

namespace AeadSuite

def prot : AeadSuite → Protector
  | .gcm p              => .aead p
  | .chacha20Poly1305 p => .chacha20Poly1305 p

def aead : AeadSuite → AEAD
  | .gcm p              => p.aead
  | .chacha20Poly1305 p => p.aead

/-- The nonce of the record with a given sequence number. -/
def nonceOf : AeadSuite → UInt64 → Bytes
  | .gcm p, seq              => p.nonceOf seq
  | .chacha20Poly1305 p, seq => p.buildNonce seq

/-- What `Seal` produces for a record. -/
def sealQuery (k : AeadSuite) (seq : UInt64) (ct : UInt8) (plain : Bytes) : Query :=
  let ad := buildAD seq (.template ct) plain.length
  { nonce := k.nonceOf seq, ciphertext := k.aead.sealWith (k.nonceOf seq) plain ad, ad }

/-- What `Open` asks for a fragment that is long enough. -/
def openQuery (k : AeadSuite) (seq : UInt64) (hdr : Header) (fragment : Bytes) : Query :=
  match k with
  | .gcm p =>
    let ct := fragment.drop aeadExplicitNonceLen
    { nonce := p.buildNonce (fragment.take aeadExplicitNonceLen)
      ciphertext := ct
      ad := buildAD seq hdr (ct.length - p.aead.overhead) }
  | .chacha20Poly1305 p =>
    { nonce := p.buildNonce seq
      ciphertext := fragment
      ad := buildAD seq hdr (fragment.length - p.aead.overhead) }

/-- Whether the AEAD opens a query. -/
def opens (k : AeadSuite) (q : Query) : Option Bytes := k.aead.openWith q.nonce q.ciphertext q.ad

/-- **What `Seal` puts on the wire** is what it produced: who opens the record asks for that. -/
theorem openQuery_of_seal {k : AeadSuite} {seq : UInt64} {ct : UInt8} {plain fragment : Bytes}
    {prot' : Protector} {rand rand' : Entropy}
    (h : k.prot.seal seq (.template ct) plain rand = (.ok fragment, prot', rand')) :
    k.openQuery seq ((Header.template ct).putLength fragment.length) fragment =
      k.sealQuery seq ct plain := by
  cases k with
  | gcm p =>
      cases h
      have hlen : (toBE aeadExplicitNonceLen seq.toNat).length = aeadExplicitNonceLen := toBE_length ..
      simp only [openQuery, sealQuery, nonceOf, aead, AeadProtector.seal, List.take_left' hlen,
        List.drop_left' hlen, p.aead.sealWith_length, Nat.add_sub_cancel]
      rfl
  | chacha20Poly1305 p =>
      cases h
      simp only [openQuery, sealQuery, nonceOf, aead, ChaCha20Poly1305Protector.seal,
        p.aead.sealWith_length, Nat.add_sub_cancel]
      rfl

theorem seal_prot (k : AeadSuite) (seq : UInt64) (hdr : Header) (plain : Bytes)
    (rand : Entropy) : ∃ frag, k.prot.seal seq hdr plain rand = (.ok frag, k.prot, rand) := by
  cases k <;> exact ⟨_, rfl⟩

theorem open_prot_snd (k : AeadSuite) (seq : UInt64) (hdr : Header) (fragment : Bytes) :
    (k.prot.open seq hdr fragment).2 = k.prot := by
  cases k <;> rfl

/-- An accepting `Open` got its answer from the AEAD. -/
theorem opens_of_open {k : AeadSuite} {seq : UInt64} {hdr : Header} {fragment plain : Bytes}
    {prot' : Protector} (h : k.prot.open seq hdr fragment = (.ok plain, prot')) :
    k.opens (k.openQuery seq hdr fragment) = some plain := by
  cases k with
  | gcm p =>
      simp only [prot, Protector.open, Prod.mk.injEq] at h
      obtain ⟨explicit, ct, rfl, hlen, -, hopen⟩ := p.open_ok h.1
      simp only [opens, openQuery, List.take_left' hlen, List.drop_left' hlen]
      exact hopen
  | chacha20Poly1305 p =>
      simp only [prot, Protector.open, Prod.mk.injEq] at h
      exact (p.open_ok h.1).2

theorem openQuery_ad (k : AeadSuite) (seq : UInt64) (hdr : Header) (fragment : Bytes) :
    ∃ n, n ≤ fragment.length ∧ (k.openQuery seq hdr fragment).ad = buildAD seq hdr n := by
  cases k with
  | gcm p => exact ⟨_, by rw [List.length_drop]; omega, rfl⟩
  | chacha20Poly1305 p => exact ⟨_, Nat.sub_le .., rfl⟩

/-- **A query that `Seal` produced** fixes the sequence number, the content type and the
    plaintext. -/
theorem sealQuery_opens {k : AeadSuite} {seq seq' : UInt64} {hdr : Header} {ct : UInt8}
    {fragment plain plain' : Bytes} (hfrag : fragment.length ≤ maxFragmentLen)
    (hplain : plain'.length ≤ tlsMaxPlaintextLen)
    (hq : k.openQuery seq hdr fragment = k.sealQuery seq' ct plain')
    (ho : k.opens (k.openQuery seq hdr fragment) = some plain) :
    seq = seq' ∧ hdr.contentType = ct ∧ plain = plain' := by
  obtain ⟨n, hn, had⟩ := k.openQuery_ad seq hdr fragment
  simp only [maxFragmentLen, tlsMaxPlaintextLen, tlsMaxCiphertextOverhead] at hfrag hplain
  have hads : buildAD seq hdr n = buildAD seq' (.template ct) plain'.length := by
    rw [← had, hq]
    rfl
  obtain ⟨hseq, htv, -⟩ := buildAD_inj (by omega) (by omega) hads
  have hct : hdr.contentType = ct := by
    simp only [Header.typeVersion, Header.template, List.cons.injEq] at htv
    exact htv.1
  refine ⟨hseq, hct, ?_⟩
  rw [hq] at ho
  simp only [opens, sealQuery, AEAD.openWith_sealWith, Option.some.injEq] at ho
  exact ho.symm

end AeadSuite

/-! ## The system -/

/-- Sender, receiver and what has happened so far: the queries the sender's `Seal` produced, the
    records it wrote, and the records the receiver accepted. -/
structure Link where
  sender : Layer
  receiver : Layer
  produced : List Query
  written : List (UInt8 × Bytes)
  accepted : List (UInt8 × Bytes)

/-- What can happen next: the sender writes, the network delivers any events, the receiver reads. -/
inductive Action
  | write (ct : UInt8) (payload : Bytes)
  | deliver (events : Reader)
  | read

namespace Link

def step (k : AeadSuite) (σ : Link) : Action → Link
  | .write ct payload =>
    let produced := match (σ.sender.sealRecord ct payload).1 with
      | .ok _    => σ.produced ++ [k.sealQuery σ.sender.sendSeq ct payload]
      | .error _ => σ.produced
    match σ.sender.writeRecord ct payload with
    | (.ok _, sender)    => { σ with sender, produced, written := σ.written ++ [(ct, payload)] }
    | (.error _, sender) => { σ with sender, produced }
  | .deliver events => { σ with receiver := { σ.receiver with input := σ.receiver.input ++ events } }
  | .read =>
    match σ.receiver.readRecord with
    | (.ok rec, receiver)  => { σ with receiver, accepted := σ.accepted ++ [rec] }
    | (.error _, receiver) => { σ with receiver }

def run (k : AeadSuite) (σ : Link) (acts : List Action) : Link := acts.foldl (step k) σ

/-- The record a layer would read next, if the transport holds all of it. -/
def nextFragment (l : Layer) : Option (Header × Bytes) :=
  match readFull recordHeaderLen l.input with
  | (.error _, _)  => none
  | (.ok b, input) =>
    match readFull (Header.ofBytes b).length input with
    | (.error _, _)    => none
    | (.ok fragment, _) => some (Header.ofBytes b, fragment)

/-- **The AEAD is ideal for the receiver's next read**: if it opens the query of the fragment at hand,
    the sender's `Seal` produced that query. -/
def Unforged (k : AeadSuite) (σ : Link) : Prop :=
  ∀ rec ∈ nextFragment σ.receiver,
    (k.opens (k.openQuery σ.receiver.recvSeq rec.1 rec.2)).isSome →
    k.openQuery σ.receiver.recvSeq rec.1 rec.2 ∈ σ.produced

/-- The AEAD is ideal at every read of a run. -/
def Ideal (k : AeadSuite) : Link → List Action → Prop
  | _, []        => True
  | σ, a :: acts => (a = .read → σ.Unforged k) ∧ Ideal k (σ.step k a) acts

/-- Both ends hold the protector, at the same sequence number, and nothing has happened yet. -/
structure Start (k : AeadSuite) (σ : Link) : Prop where
  sendProt : σ.sender.sendProt = k.prot
  recvProt : σ.receiver.recvProt = k.prot
  seq : σ.sender.sendSeq = σ.receiver.recvSeq
  output : σ.sender.output.Reliable
  produced : σ.produced = []
  written : σ.written = []
  accepted : σ.accepted = []

/-- **The invariant**, relative to the sequence number `b` at the start. -/
structure Inv (k : AeadSuite) (b : Nat) (σ : Link) : Prop where
  sendProt : σ.sender.sendProt = k.prot
  recvProt : σ.receiver.recvProt = k.prot
  output : σ.sender.output.Reliable
  sendSeq : σ.sender.sendSeq.toNat = b + σ.written.length
  recvSeq : σ.receiver.recvSeq.toNat = b + σ.accepted.length
  produced : ∀ q ∈ σ.produced, ∃ i rec seq, σ.written[i]? = some rec ∧
    rec.2.length ≤ tlsMaxPlaintextLen ∧ seq.toNat = b + i ∧ q = k.sealQuery seq rec.1 rec.2
  onWire : ∀ q ∈ σ.produced, ∃ seq ct fragment, recordBytes ct fragment <:+: σ.sender.output.output ∧
    q = k.openQuery seq ((Header.template ct).putLength fragment.length) fragment
  accepted : σ.accepted <+: σ.written

variable {k : AeadSuite} {b : Nat} {σ : Link}

theorem Start.inv (h : Start k σ) : Inv k σ.sender.sendSeq.toNat σ where
  sendProt := h.sendProt
  recvProt := h.recvProt
  output := h.output
  sendSeq := by simp [h.written]
  recvSeq := by simp [h.accepted, h.seq]
  produced := by simp [h.produced]
  onWire := by simp [h.produced]
  accepted := by simp [h.accepted]

/-! ## One step -/

theorem inv_deliver (h : Inv k b σ) (events : Reader) : Inv k b (σ.step k (.deliver events)) where
  sendProt := h.sendProt
  recvProt := h.recvProt
  output := h.output
  sendSeq := h.sendSeq
  recvSeq := h.recvSeq
  produced := h.produced
  onWire := h.onWire
  accepted := h.accepted

/-- A write is either refused by the guards, with no effect, or sealed and written whole. -/
theorem write_cases (h : Inv k b σ) (ct : UInt8) (payload : Bytes) :
    σ.step k (.write ct payload) = σ ∨
    ∃ output rand fragment, output.Reliable ∧ σ.sender.sendSeq ≠ maxUint64 ∧
      payload.length ≤ tlsMaxPlaintextLen ∧
      output.output = σ.sender.output.output ++ recordBytes ct fragment ∧
      k.openQuery σ.sender.sendSeq ((Header.template ct).putLength fragment.length) fragment =
        k.sealQuery σ.sender.sendSeq ct payload ∧
      σ.step k (.write ct payload) =
        { σ with
          sender := { σ.sender with output, rand, sendSeq := σ.sender.sendSeq + 1 }
          produced := σ.produced ++ [k.sealQuery σ.sender.sendSeq ct payload]
          written := σ.written ++ [(ct, payload)] } := by
  obtain ⟨frag, hseal⟩ := k.seal_prot σ.sender.sendSeq (.template ct) payload σ.sender.rand
  have hquery := AeadSuite.openQuery_of_seal hseal
  rw [← h.sendProt] at hseal
  by_cases hct : isKnownContentType ct = true
  · by_cases hlen : payload.length ≤ tlsMaxPlaintextLen
    · by_cases hseq : σ.sender.sendSeq = maxUint64
      · left
        simp only [step, Layer.writeRecord, Layer.sealRecord, hct, Bool.not_true,
          Bool.false_eq_true, if_false, if_neg (Nat.not_lt.mpr hlen), hseq, if_true]
      · right
        have hrec : σ.sender.sealRecord ct payload =
            (.ok ((Header.template ct).putLength frag.length, frag), σ.sender) := by
          simp only [Layer.sealRecord, hct, Bool.not_true, Bool.false_eq_true, if_false,
            if_neg (Nat.not_lt.mpr hlen), if_neg hseq, hseal]
        obtain ⟨w, hw, hout, hwr⟩ := h.output.write ((Header.template ct).putLength frag.length).bytes
        obtain ⟨w', hw', hout', hwr'⟩ := hwr.write frag
        refine ⟨w', σ.sender.rand, frag, hwr', hseq, hlen, ?_, hquery, ?_⟩
        · rw [hout', hout, List.append_assoc]
          rfl
        simp only [step, Layer.writeRecord, hrec, hw, hw']
    · left
      simp only [step, Layer.writeRecord, Layer.sealRecord, hct, Bool.not_true, Bool.false_eq_true,
        if_false, if_pos (Nat.lt_of_not_le hlen)]
  · left
    simp only [Bool.not_eq_true] at hct
    simp only [step, Layer.writeRecord, Layer.sealRecord, hct, Bool.not_false, if_true]

theorem inv_write (h : Inv k b σ) (ct : UInt8) (payload : Bytes) :
    Inv k b (σ.step k (.write ct payload)) := by
  rcases write_cases h ct payload with hsame | ⟨output, rand, frag, hout, hseq, hlen, hsent, hquery, hstep⟩
  · rw [hsame]
    exact h
  · rw [hstep]
    refine ⟨h.sendProt, h.recvProt, hout, ?_, h.recvSeq, ?_, ?_, ?_⟩
    · simp only [toNat_succ hseq, h.sendSeq, List.length_append, List.length_singleton]
      omega
    · intro q hq
      rcases List.mem_append.mp hq with hq | hq
      · obtain ⟨i, rec, seq, hi, hrest⟩ := h.produced q hq
        exact ⟨i, rec, seq, by rw [List.getElem?_append_left (List.getElem?_eq_some_iff.mp hi).1, hi],
          hrest⟩
      · rw [List.mem_singleton.mp hq]
        exact ⟨σ.written.length, (ct, payload), σ.sender.sendSeq, by simp, hlen, h.sendSeq, rfl⟩
    · intro q hq
      rw [show ({ σ.sender with output, rand, sendSeq := σ.sender.sendSeq + 1 } : Layer).output.output =
        σ.sender.output.output ++ recordBytes ct frag from hsent]
      rcases List.mem_append.mp hq with hq | hq
      · obtain ⟨seq, ct', fragment, hwire, heq⟩ := h.onWire q hq
        exact ⟨seq, ct', fragment, hwire.trans (List.prefix_append ..).isInfix, heq⟩
      · rw [List.mem_singleton.mp hq]
        exact ⟨σ.sender.sendSeq, ct, frag, (List.suffix_append ..).isInfix, hquery.symm⟩
    · exact h.accepted.trans (List.prefix_append ..)

/-- A record accepted next is the next record written. -/
theorem prefix_snoc {α : Type} {xs ys : List α} {x : α} (h : xs <+: ys)
    (hx : ys[xs.length]? = some x) : xs ++ [x] <+: ys := by
  obtain ⟨zs, rfl⟩ := h
  rw [List.getElem?_append_right (Nat.le_refl _), Nat.sub_self] at hx
  cases zs with
  | nil => simp at hx
  | cons z zs =>
      simp only [List.getElem?_cons_zero, Option.some.injEq] at hx
      exact ⟨zs, by simp [hx]⟩

theorem nextFragment_eq {l : Layer} {hdr : Header} {fragment : Bytes} {rest : Reader}
    (hinput : l.input = ofBytes (hdr.bytes ++ fragment) ++ rest) (hlen : hdr.length = fragment.length) :
    nextFragment l = some (hdr, fragment) := by
  obtain ⟨hhdr, hfrag⟩ := Layer.readFull_record hinput hlen
  simp only [nextFragment, hhdr, Header.ofBytes_bytes, hfrag]

theorem inv_read (h : Inv k b σ) (hu : σ.Unforged k) : Inv k b (σ.step k .read) := by
  simp only [step]
  split
  · rename_i rec receiver hread
    obtain ⟨ct, payload⟩ := rec
    obtain ⟨hseq, hdr, fragment, rest, prot, hinput, hcheck, rfl, hlen, hopen, -, rfl⟩ :=
      Layer.readRecord_ok hread
    rw [h.recvProt] at hopen
    have hprot : prot = k.prot := by
      rw [← k.open_prot_snd σ.receiver.recvSeq hdr fragment, hopen]
    have hans := AeadSuite.opens_of_open hopen
    -- the query was produced by the sender, so it is the query of some written record
    obtain ⟨i, rec, seq, hi, hplain, hseqi, hq⟩ :=
      h.produced _ (hu _ (nextFragment_eq hinput hlen) (by rw [hans]; rfl))
    have hfrag : fragment.length ≤ maxFragmentLen := by
      rw [← hlen]
      exact (Layer.checkHeader_ok hcheck).2.2
    obtain ⟨hs, hct, hp⟩ := AeadSuite.sealQuery_opens hfrag hplain hq hans
    have hidx : i = σ.accepted.length := by
      have := h.recvSeq
      rw [hs] at this
      omega
    refine ⟨h.sendProt, hprot, h.output, h.sendSeq, ?_, h.produced, h.onWire, ?_⟩
    · simp only [toNat_succ hseq, h.recvSeq, List.length_append, List.length_singleton]
      omega
    · apply prefix_snoc h.accepted
      rw [← hidx, hi, hct, hp]
  · rename_i e receiver hread
    obtain ⟨input, rfl | ⟨hdr, fragment, rfl⟩⟩ := Layer.readRecord_error hread
    · exact ⟨h.sendProt, h.recvProt, h.output, h.sendSeq, h.recvSeq, h.produced, h.onWire, h.accepted⟩
    · refine ⟨h.sendProt, ?_, h.output, h.sendSeq, h.recvSeq, h.produced, h.onWire, h.accepted⟩
      simp only [h.recvProt, AeadSuite.open_prot_snd]

/-! ## Runs -/

theorem inv_step (h : Inv k b σ) {a : Action} (hu : a = .read → σ.Unforged k) :
    Inv k b (σ.step k a) := by
  cases a with
  | write ct payload => exact inv_write h ct payload
  | deliver events => exact inv_deliver h events
  | read => exact inv_read h (hu rfl)

theorem inv_run (h : Inv k b σ) {acts : List Action} (hi : Ideal k σ acts) :
    Inv k b (σ.run k acts) := by
  induction acts generalizing σ with
  | nil => exact h
  | cons a acts ih => exact ih (inv_step h hi.1) hi.2

end Link

/-- **What was produced is on the wire.** Whoever opens some record that the sender has put there, at the
    number it was sealed with, asks for the query. -/
theorem produced_on_wire {k : AeadSuite} {σ : Link} {acts : List Action} (hstart : σ.Start k)
    (hideal : Link.Ideal k σ acts) {q : Query} (hq : q ∈ (σ.run k acts).produced) :
    ∃ seq ct fragment, recordBytes ct fragment <:+: (σ.run k acts).sender.output.output ∧
      q = k.openQuery seq ((Header.template ct).putLength fragment.length) fragment :=
  (Link.inv_run hstart.inv hideal).onWire q hq

/-- **Ordered-prefix integrity.** Whatever the network delivers and however writes and reads
    interleave, the receiver has accepted a prefix of what the sender has written. -/
theorem accepted_prefix_of_written (k : AeadSuite) (σ : Link) (acts : List Action)
    (hstart : σ.Start k) (hideal : Link.Ideal k σ acts) :
    (σ.run k acts).accepted <+: (σ.run k acts).written :=
  (Link.inv_run hstart.inv hideal).accepted

/-- The system in which nothing has happened, with AES-GCM keyed at both ends. -/
def gcmSystem : Link :=
  let prot := .aead .sample
  { sender := { newLayer [] ⟨[], []⟩ ⟨fun _ => .ok 0, 0⟩ with sendProt := prot }
    receiver := { newLayer [] ⟨[], []⟩ ⟨fun _ => .ok 0, 0⟩ with recvProt := prot }
    produced := [], written := [], accepted := [] }

/-- The record `gcmSystem` emits for one byte of application data. -/
def gcmRecord : Bytes :=
  [23, 3, 3, 0, 25] ++ toBE 8 0 ++ [7] ++ fit 16 (buildAD 0 (.template 23) 1)

/-- A replay: the record is delivered and read twice, and accepted once. -/
theorem accepted_prefix_of_written_replay :
    (gcmSystem.run (.gcm .sample)
        [.write 23 [7], .deliver (ofBytes gcmRecord), .read, .deliver (ofBytes gcmRecord),
          .read]).accepted <+:
      (gcmSystem.run (.gcm .sample)
        [.write 23 [7], .deliver (ofBytes gcmRecord), .read, .deliver (ofBytes gcmRecord),
          .read]).written :=
  accepted_prefix_of_written _ _ _
    ⟨rfl, rfl, rfl, by simp [Writer.Reliable, gcmSystem, newLayer, newLayerWithSeq], rfl, rfl, rfl⟩
    ⟨fun h => (by cases h), fun h => (by cases h),
      fun _ => by unfold Link.Unforged; decide,
      fun h => (by cases h),
      fun _ => by unfold Link.Unforged; decide, trivial⟩

end Gostls

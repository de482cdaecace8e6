import Gostls.Handshake.Buffering
import Gostls.Handshake.Client

/-!
# `Gostls.Handshake.Conduct` — what the functions of a handshake may do to the client

A statement about every run that does not depend on the order of the messages needs no protocol. It
needs to be kept by the primitive operations, and then by every function made of them. `Receiving` and
`Sending` list what is asked of the primitives, for any pair of relations; one lemma per function
concludes, up to `Sending.handshake`.

The instance at the end is `Reach`: a handshake is a sequence of calls of `readHandshakeRecord`, with
other operations between them that leave the buffer alone. So what one call guarantees (`Bounded`) holds
of all of them: `bounded_buffering`.
-/

namespace Gostls

open Lib

/-! ## Conduct of a client -/

/-- `t` is `s` after some bookkeeping: keys, randoms and the transcript may differ. -/
structure Bookkeeping (s t : ClientState) : Prop where
  params : t.params = s.params
  certReq : t.certReq = s.certReq
  clientCertSent : t.clientCertSent = s.clientCertSent
  clientSigAlg : t.clientSigAlg = s.clientSigAlg
  hsBuf : t.hsBuf = s.hsBuf
  trace : t.trace = s.trace

/-- Bookkeeping that does not touch the way out of the record layer. -/
structure Indoors (s t : ClientState) : Prop extends Bookkeeping s t where
  outbound : t.layer.outbound = s.layer.outbound

/-- What the functions that receive and compute are made of. The operations that only report an error,
    and leave the alert to their caller, are within `F` when they fail; the functions that have sent it are
    within `E`. -/
structure Receiving (R F : ClientState → ClientState → Prop) (E : Err → ClientState → ClientState → Prop) :
    Prop extends Conduct R E where
  raw : Conduct R (fun _ : Err => F)
  stop : ∀ s, F s s
  panic : ∀ {s t}, F s t → E .panic s t
  alert : ∀ {s t} desc cause, F s t → E cause s (t.alerted desc)
  bookkeeping : ∀ {s t}, Indoors s t → R s t
  message : Does R (fun _ => F) readHandshakeRecord
  /-- A CertificateRequest that was received may be kept. -/
  request : ∀ {s body req}, (typeCertificateRequest, body) ∈ taken s.trace →
    parseCertificateRequest body = .ok req → R s { s with certReq := some req }
  sum : ∀ purpose factory, Does R (fun _ => F) (sumTranscript purpose factory)
  installRecv : ∀ {s} p, R s ((s.log (.installedRecv p)).setLayer (s.layer.changeCipherSpec none (some p)))
  /-- `ReadRecord` outside of the reader, with nothing buffered. -/
  record : ∀ {s}, s.hsBuf = [] → wp readRecord (fun _ => R s) (fun _ => F s) s

/-- What the functions that send are made of, too. -/
structure Sending (R F : ClientState → ClientState → Prop) (E : Err → ClientState → ClientState → Prop) :
    Prop extends Receiving R F E where
  /-- No function writes an alert but `fatal`. -/
  write : ∀ ct payload, ct ≠ contentTypeAlert → Does R (fun _ => F) (writeRecord ct payload)
  installSend : ∀ {s} p, R s ((s.log (.installedSend p)).setLayer (s.layer.changeCipherSpec (some p) none))
  certificate : ∀ {s} alg, R s { s with clientCertSent := true, clientSigAlg := alg }

namespace Receiving

variable {R F : ClientState → ClientState → Prop} {E : Err → ClientState → ClientState → Prop}
  (hc : Receiving R F E) {α : Type}
include hc

/-! ## The operations -/

/-- What has failed and not been answered can be answered, or is a panic. -/
theorem exits {s t : ClientState} (h : F s t) : Exits (fun e => E e s) t where
  panic := hc.panic h
  fatal desc cause := hc.alert desc cause h

/-- Wherever the conduct leads, something can fail. -/
theorem unanswered {s t : ClientState} (h : R s t) : F s t := hc.raw.fail (e := .panic) h (hc.stop t)

theorem fatal (desc : UInt8) (cause : Err) : Does R E (fatal desc cause : HsM α) :=
  fun s => wp_fatal.mpr (hc.alert desc cause (hc.stop s))

theorem fatalIf (cond : Prop) [Decidable cond] (desc : UInt8) (cause : Err) :
    Does R E (fatalIf cond desc cause) :=
  fun s => wp_fatalIf (hc.exits (hc.stop s)) (fun _ => hc.refl s)

theorem orFatal {m : HsM α} (desc : UInt8) (wrap : Err → Err) (hm : Does R (fun _ => F) m) :
    Does R E (orFatal desc wrap m) := by
  intro s
  apply wp_orFatal
  exact (hm s).mono (fun _ _ h => h) (fun _ _ h => hc.exits h)

theorem compute (x : Except Err α) : Does R (fun _ => F) (compute x : HsM α) :=
  hc.raw.compute (fun _ _ => hc.stop)

/-- An operation that is not checked, for it can only panic. -/
theorem unchecked {x : Except Err α} (h : Throws (· = .panic) x) : Does R E (Lib.compute x : HsM α) := by
  apply hc.toConduct.compute
  intro e he s
  obtain rfl := h e he
  exact hc.panic (hc.stop s)

theorem drawing (m : RandM α) : Does R (fun _ => F) (drawing m) := by
  intro s
  have hrands : ∀ r, R s (s.setRands r) := fun r => hc.bookkeeping ⟨⟨rfl, rfl, rfl, rfl, rfl, rfl⟩, rfl⟩
  exact wp_drawing (fun _ r => hrands r) (fun _ r => hc.unanswered (hrands r))

theorem modify {f : ClientState → ClientState} (h : ∀ s, Indoors s (f s)) :
    Does R E (modify f : HsM PUnit) := fun s => hc.bookkeeping (h s)

theorem writeTranscript (msg : Bytes) : Does R E (writeTranscript msg) :=
  hc.modify fun _ => ⟨⟨rfl, rfl, rfl, rfl, rfl, rfl⟩, rfl⟩

theorem getSuite : Does R E getSuite :=
  fun s => wp_getSuite (hc.exits (hc.stop s)) (fun _ _ => hc.refl s)

/-! ## Messages -/

theorem parsePayload (desc : UInt8) (text : String) (t : UInt8) (payload : Bytes) :
    Does R E (parsePayload desc text t payload) :=
  hc.bind (hc.orFatal _ _ (hc.compute _)) (fun _ => hc.pure _)

theorem receiveMessage (want : UInt8) (name : String) (errExpected : Err) (parseAlert : UInt8) :
    Does R E (receiveMessage want name errExpected parseAlert) :=
  hc.bind (hc.orFatal _ _ hc.message) fun _ =>
  hc.bind (hc.fatalIf _ _ _) fun _ =>
  hc.bind (hc.parsePayload _ _ _ _) fun _ => hc.pure _

/-- A message, with what is known of it. -/
theorem message_taken (s : ClientState) :
    wp readHandshakeRecord
      (fun m t => R s t ∧ m ∈ taken t.trace ∧ m.2.length ≤ maxHandshakeMsg) (fun _ => F s) s := by
  cases hm : readHandshakeRecord s with
  | ok m t => exact wp_of_ok hm ⟨(hc.message s).ok hm, readHandshakeLoop_taken hm⟩
  | error e t => exact wp_of_error hm ((hc.message s).error hm)

theorem recvServerHello (env : Env) : Does R E (recvServerHello env) := by
  unfold Gostls.recvServerHello
  apply hc.bind (hc.receiveMessage _ _ _ _)
  rintro ⟨msg, payload⟩
  cases msg with
  | serverHello sh =>
      apply hc.bind (hc.fatalIf _ _ _)
      intro _
      apply hc.get
      intro s
      apply hc.bind (hc.fatalIf _ _ _)
      intro _
      cases lookup env.hashes sh.cipherSuite with
      | none => exact hc.fatal _ _
      | some suite =>
          refine hc.bind (hc.modify fun _ => ?_) fun _ => ?_
          · exact ⟨⟨rfl, rfl, rfl, rfl, rfl, rfl⟩, rfl⟩
          apply hc.bind (hc.fatalIf _ _ _)
          intro _
          apply hc.bind (hc.fatalIf _ _ _)
          intro _
          apply hc.bind (fun s => wp_forM_fatalIf (hc.exits (hc.stop s)) _ (hc.refl s))
          intro _
          refine hc.bind (hc.modify fun _ => ?_) fun _ => hc.writeTranscript _
          exact ⟨⟨rfl, rfl, rfl, rfl, rfl, rfl⟩, rfl⟩
  | _ => exact hc.fatal _ _

/-- The error of a chain is reported to the caller. -/
theorem parseAndVerifyChain (env : Env) (rawCerts : List Bytes) :
    Does R (fun _ => F) (parseAndVerifyChain env rawCerts) := by
  unfold Gostls.parseAndVerifyChain
  cases rawCerts with
  | nil => exact fun s => hc.stop s
  | cons rawLeaf rawInter =>
      refine hc.raw.bind (hc.compute _) fun gc => ?_
      have hverify : Does R (fun _ => F) (do
          let chains ← verifyChain env (← get).params gc rawInter
          return (gc.stdlib, chains) : HsM _) :=
        hc.raw.get fun _ => hc.raw.bind (hc.compute _) fun _ => hc.raw.pure _
      apply Does.ite
      · exact hc.raw.bind (fun _ => hc.bookkeeping ⟨⟨rfl, rfl, rfl, rfl, rfl, rfl⟩, rfl⟩) fun _ => hverify
      · exact hverify

theorem recvCertificate (env : Env) : Does R E (recvCertificate env) := by
  unfold Gostls.recvCertificate
  refine hc.bind (hc.receiveMessage _ _ _ _) ?_
  rintro ⟨msg, payload⟩
  cases msg with
  | certificate certMsg =>
      refine hc.bind (hc.fatalIf _ _ _) fun _ => ?_
      refine hc.bind (hc.orFatal _ _ (hc.parseAndVerifyChain env _)) ?_
      rintro ⟨leafCert, chains⟩
      refine hc.get fun s => ?_
      have hdone : Does R E (do
          Gostls.writeTranscript (buildEnvelope typeCertificate payload)
          return leafCert : HsM _) := hc.bind (hc.writeTranscript _) fun _ => hc.pure _
      dsimp only
      split
      · exact hdone
      · exact hc.bind (hc.orFatal _ _ (hc.compute _)) fun _ => hdone
  | _ => exact hc.fatal _ _

theorem verifySignedParams (env : Env) (kind : String) (errSectionShort errTruncated : Err)
    (cert : X509Certificate) (serverParams sigData : Bytes) :
    Does R E (verifySignedParams env kind errSectionShort errTruncated cert serverParams sigData) :=
  hc.bind (hc.fatalIf _ _ _) fun _ => hc.bind (hc.unchecked (index_panics _ _)) fun _ =>
  hc.bind (hc.unchecked (index_panics _ _)) fun _ => hc.bind (hc.unchecked (index_panics _ _)) fun _ =>
  hc.bind (hc.unchecked (index_panics _ _)) fun _ => hc.bind (hc.fatalIf _ _ _) fun _ =>
  hc.bind (hc.unchecked (slice_panics _ _ _)) fun _ =>
  hc.bind (hc.fatalIf _ _ _) fun _ => hc.bind hc.getSuite fun _ =>
  hc.bind (hc.fatalIf _ _ _) fun _ => hc.get fun _ =>
  hc.bind (hc.orFatal _ _ (hc.compute _)) fun _ => hc.pure _

theorem verifyServerKeyExchange (env : Env) (body : Bytes) (cert : X509Certificate) :
    Does R E (verifyServerKeyExchange env body cert) := by
  have hecdhe : Does R E (verifyECDHEServerKeyExchange env body cert) :=
    hc.bind (hc.fatalIf _ _ _) fun _ => hc.bind (hc.unchecked (index_panics _ _)) fun _ =>
    hc.bind (hc.fatalIf _ _ _) fun _ => hc.bind (hc.unchecked (slice_panics _ _ _)) fun _ =>
    hc.bind (hc.unchecked (index_panics _ _)) fun _ =>
    hc.bind (hc.fatalIf _ _ _) fun _ => hc.bind (hc.unchecked (slice_panics _ _ _)) fun _ =>
    hc.bind (hc.unchecked (slice_panics _ _ _)) fun _ => hc.verifySignedParams env _ _ _ cert _ _
  have hdhe : Does R E (verifyDHEServerKeyExchange env body cert) :=
    hc.bind (hc.orFatal _ _ (hc.compute _)) fun _ => hc.bind (hc.orFatal _ _ (hc.compute _)) fun _ =>
    hc.bind (hc.orFatal _ _ (hc.compute _)) fun _ => hc.bind (hc.unchecked (sliceBound_panics _)) fun _ =>
    hc.bind (hc.unchecked (slice_panics _ _ _)) fun _ => hc.verifySignedParams env _ _ _ cert _ _
  unfold Gostls.verifyServerKeyExchange
  refine hc.bind hc.getSuite fun suite => ?_
  split
  · exact hecdhe
  · exact hdhe
  · exact hc.fatal _ _

theorem recvServerFlightLoop (env : Env) (serverCert : X509Certificate) (rounds : Nat)
    (sawSKE sawCertReq : Bool) (params : Bytes) :
    Does R E (recvServerFlightLoop env serverCert rounds sawSKE sawCertReq params) := by
  induction rounds generalizing sawSKE sawCertReq params with
  | zero => exact fun s => hc.panic (hc.stop s)
  | succ rounds ih =>
      intro s
      unfold Gostls.recvServerFlightLoop
      rw [wp_bind]
      apply wp_orFatal
      apply (hc.message_taken s).mono _ (fun _ _ h => hc.exits h)
      rintro ⟨ct, payload⟩ t ⟨hst, hmem, hshort⟩
      have hx := hc.exits (hc.unanswered hst)
      apply wp_ite
      · intro _
        refine hc.after hst ((?_ : Does R E _) t)
        refine hc.bind (hc.fatalIf _ _ _) fun _ => hc.bind (hc.fatalIf _ _ _) fun _ => ?_
        refine hc.bind (hc.parsePayload _ _ _ _) fun msg => ?_
        cases msg with
        | serverKeyExchange ske =>
            exact hc.bind (hc.writeTranscript _) fun _ =>
              hc.bind (hc.verifyServerKeyExchange env _ serverCert) fun params => ih true sawCertReq params
        | _ => exact hc.fatal _ _
      · intro _
        apply wp_ite
        · -- The request that is kept is the one received.
          rintro rfl
          rw [wp_bind]
          apply wp_fatalIf hx
          intro _
          apply wp_call (wp_parsePayload hx hshort)
          rintro msg u ⟨rfl, hparse⟩
          cases msg with
          | certificateRequest req =>
              dsimp only
              rw [wp_bind, wp_modify, wp_bind, wp_writeTranscript]
              have hkept : R s { u with certReq := some req } :=
                hc.trans hst (hc.request hmem (parseBody_certificateRequest hparse))
              exact hc.after (hc.trans hkept (hc.bookkeeping ⟨⟨rfl, rfl, rfl, rfl, rfl, rfl⟩, rfl⟩))
                (ih sawSKE true params _)
          | _ => exact hc.after hst (hc.fatal _ _ u)
        · intro _
          refine hc.after hst ((?_ : Does R E _) t)
          apply Does.ite
          · exact hc.bind (hc.parsePayload _ _ _ _) fun _ =>
              hc.bind (hc.writeTranscript _) fun _ => hc.pure _
          · exact hc.fatal _ _

theorem recvServerFlight (env : Env) (serverCert : X509Certificate) :
    Does R E (recvServerFlight env serverCert) := by
  unfold Gostls.recvServerFlight
  refine hc.bind (hc.recvServerFlightLoop env serverCert _ _ _ _) ?_
  rintro ⟨sawSKE, params⟩
  apply Does.ite
  · exact hc.pure _
  · exact hc.bind hc.getSuite fun _ => hc.bind (hc.fatalIf _ _ _) fun _ => hc.pure _

/-! ## Keys -/

theorem computeKeyExchange (env : Env) (cert : X509Certificate) (params : Bytes) :
    Does R E (computeKeyExchange env cert params) := by
  unfold Gostls.computeKeyExchange
  refine hc.bind hc.getSuite fun suite => hc.get fun s => ?_
  have hbuild : ∀ c, Does R E (buildExchange env cert c) := by
    intro c
    unfold buildExchange
    split
    · exact hc.pure _
    · exact hc.pure _
    · split
      · exact hc.pure _
      · exact hc.fatal _ _
    · exact hc.orFatal _ _ (hc.drawing _)
    · exact hc.orFatal _ _ (hc.drawing _)
    · exact hc.orFatal _ _ (hc.drawing _)
    · exact hc.fatal _ _
  exact hc.bind (hbuild _) fun _ => hc.bind (hc.orFatal _ _ (hc.drawing _)) fun _ => hc.pure _

theorem expandKeys (env : Env) : Does R E (expandKeys env) :=
  hc.bind hc.getSuite fun _ => hc.get fun _ => hc.bind (hc.fatalIf _ _ _) fun _ =>
  hc.bind (hc.orFatal _ _ (hc.compute _)) fun _ => hc.bind (hc.orFatal _ _ (hc.compute _)) fun _ =>
  hc.bind (hc.orFatal _ _ (hc.compute _)) fun _ => hc.pure _

theorem agreeKeys (env : Env) : Does R E (agreeKeys env) := by
  unfold Gostls.agreeKeys
  refine hc.bind (hc.recvServerHello env) fun _ => ?_
  refine hc.bind (hc.recvCertificate env) fun serverCert => ?_
  refine hc.bind (hc.recvServerFlight env serverCert) fun params => ?_
  refine hc.bind (hc.computeKeyExchange env serverCert params) ?_
  rintro ⟨preMaster, ckeBody⟩
  refine hc.bind hc.getSuite fun suite => hc.get fun s => ?_
  refine hc.bind (hc.orFatal _ _ (hc.compute _)) fun ms => ?_
  refine hc.bind (hc.modify fun _ => ?_) fun _ => ?_
  · exact ⟨⟨rfl, rfl, rfl, rfl, rfl, rfl⟩, rfl⟩
  · exact hc.bind (hc.expandKeys env) fun _ => hc.pure _

/-! ## The server's Finished -/

theorem finishedData (purpose : Purpose) (site label verifyText : String) (masterSecret : Bytes) :
    Does R E (finishedData purpose site label verifyText masterSecret) :=
  hc.bind hc.getSuite fun _ => hc.bind (hc.orFatal _ _ (hc.sum _ _)) fun _ =>
  hc.orFatal _ _ (hc.compute _)

/-- The ChangeCipherSpec is read with nothing buffered. -/
theorem receiveServerFinished {s : ClientState} (hbuf : s.hsBuf = []) (masterSecret : Bytes)
    (p : Protector) :
    wp (receiveServerFinished masterSecret p) (fun _ => R s) (fun e => E e s) s := by
  have hccs : wp receiveChangeCipherSpec (fun _ => R s) (fun e => E e s) s := by
    unfold receiveChangeCipherSpec
    rw [wp_bind]
    apply wp_orFatal
    apply (hc.record hbuf).mono _ (fun _ _ h => hc.exits h)
    rintro ⟨ct, payload⟩ t hst
    exact hc.after hst ((hc.bind (hc.fatalIf _ _ _) fun _ => hc.fatalIf _ _ _ : Does R E _) t)
  unfold Gostls.receiveServerFinished
  apply wp_call hccs
  intro _ t hst
  refine hc.after hst ((?_ : Does R E _) t)
  refine hc.bind (fun _ => hc.installRecv p) fun _ => hc.bind (hc.receiveMessage _ _ _ _) ?_
  rintro ⟨msg, payload⟩
  cases msg with
  | finished fin =>
      exact hc.bind (hc.finishedData _ _ _ _ _) fun _ => hc.bind (hc.fatalIf _ _ _) fun _ =>
        hc.get fun _ => hc.bind (hc.fatalIf _ _ _) fun _ => hc.writeTranscript _
  | _ => exact hc.fatal _ _

end Receiving

namespace Sending

variable {R F : ClientState → ClientState → Prop} {E : Err → ClientState → ClientState → Prop}
  (hc : Sending R F E)
include hc

theorem sendMessage (text : String) (msg : Message) : Does R E (sendMessage text msg) :=
  hc.bind (hc.orFatal _ _ (hc.write _ _ (by decide))) fun _ => hc.writeTranscript _

/-- The error of the first message is not answered. -/
theorem sendClientHello : Does R (fun _ => F) sendClientHello := by
  unfold Gostls.sendClientHello
  refine hc.raw.bind (hc.drawing _) fun random => ?_
  refine hc.raw.bind (fun _ => hc.bookkeeping ?_) fun _ => hc.raw.get fun s => ?_
  · exact ⟨⟨rfl, rfl, rfl, rfl, rfl, rfl⟩, rfl⟩
  · have hwrite := hc.write contentTypeHandshake
      (marshalMessage (.clientHello (clientHello s.params (.copy random)))) (by decide)
    refine hc.raw.bind (fun s => wp_orFail ((hwrite s).mono (fun _ _ h => h) fun _ _ h _ => h)) ?_
    exact fun _ _ => hc.bookkeeping ⟨⟨rfl, rfl, rfl, rfl, rfl, rfl⟩, rfl⟩

/-! ## Client authentication -/

theorem answerCertificateRequest : Does R E answerCertificateRequest := by
  unfold Gostls.answerCertificateRequest
  refine hc.get fun s => ?_
  have hsend : Does R E sendClientCertificate :=
    hc.get fun _ => hc.bind (hc.sendMessage _ _) fun _ => hc.pure _
  apply Does.ite
  · refine hc.bind hsend fun sent => ?_
    apply Does.ite
    · exact fun _ => hc.certificate _
    · exact hc.pure _
  · exact hc.pure _

theorem sendCertificateVerify (env : Env) (alg : SigAndHash) :
    Does R E (sendCertificateVerify env alg) := by
  unfold Gostls.sendCertificateVerify
  refine hc.bind (hc.orFatal _ _ (hc.compute _)) fun cryptoHash => ?_
  refine hc.bind (hc.orFatal _ _ (hc.sum _ _)) fun digest => hc.get fun s => ?_
  have hsign : ∀ key, Does R E (signDigest env key cryptoHash digest) := by
    intro key
    cases key with
    | rsa _ | ecdsa _ _ => exact hc.orFatal _ _ (hc.drawing _)
    | other _ => exact hc.fatal _ _
  split
  · exact fun s => hc.panic (hc.stop s)
  · exact hc.bind (hsign _) fun _ => hc.sendMessage _ _

/-! ## Finishing -/

theorem sendFinished (masterSecret : Bytes) (p : Protector) : Does R E (sendFinished masterSecret p) :=
  hc.bind (hc.orFatal _ _ (hc.write _ _ (by decide))) fun _ => hc.bind (fun _ => hc.installSend p) fun _ =>
  hc.bind (hc.finishedData _ _ _ _ _) fun _ => hc.sendMessage _ _

theorem finish (masterSecret : Bytes) (sendProt recvProt : Protector) :
    Does R E (finish masterSecret sendProt recvProt) := by
  intro s
  unfold Gostls.finish
  apply wp_call (hc.sendFinished masterSecret sendProt s)
  intro _ t hst
  rw [wp_bind, wp_get, wp_bind]
  apply wp_fatalIf (hc.exits (hc.unanswered hst))
  intro hbuf
  have hempty : t.hsBuf = [] := List.length_eq_zero_iff.mp (not_not.mp hbuf)
  apply wp_call (hc.after hst (hc.receiveServerFinished hempty masterSecret recvProt))
  intro _ u hsu
  exact hc.trans hsu (hc.bookkeeping ⟨⟨rfl, rfl, rfl, rfl, rfl, rfl⟩, rfl⟩)

/-- **What holds of the operations holds of the handshake.** -/
theorem handshake (env : Env) (s : ClientState) :
    wp (handshake env) (fun _ => R s) (fun e t => F s t ∨ E e s t) s := by
  rw [handshake_eq]
  apply wp_call ((hc.sendClientHello s).mono (fun _ _ h => h) (fun _ _ h => .inl h))
  intro _ t hst
  apply (hc.after hst ((?_ : Does R E _) t)).mono (fun _ _ h => h) (fun _ _ h => .inr h)
  refine hc.bind (hc.agreeKeys env) fun r => ?_
  refine hc.bind hc.answerCertificateRequest fun _ => hc.bind (hc.sendMessage _ _) fun _ => ?_
  refine hc.get fun s => ?_
  apply Does.ite
  · exact hc.bind (hc.sendCertificateVerify env _) fun _ => hc.finish _ _ _
  · exact hc.finish _ _ _

end Sending

/-! ## Buffering in a whole run -/

/-- What a run does, as far as the buffer is concerned. -/
inductive Act
  /-- `readHandshakeRecord`, called in this state. -/
  | message (s : ClientState)
  /-- `ReadRecord`, called by anything else. -/
  | record
  | other

/-- **The steps of a run.** Every message is taken by a call of `readHandshakeRecord`, every record is
    read by such a call or with nothing buffered, and all else leaves the buffer alone. -/
inductive Act.Step : ClientState → Act → ClientState → Prop
  | message {s : ClientState} : Step s (.message s) (endState readHandshakeRecord s)
  | record {s : ClientState} : s.hsBuf = [] → Step s .record (endState readRecord s)
  | other {s t : ClientState} {es : List Event} : t.hsBuf = s.hsBuf → t.trace = s.trace ++ es →
      reads es = [] → taken es = [] → Step s .other t

def Reach (s t : ClientState) : Prop := ∃ acts, Run Act.Step s acts t

namespace Reach

variable {s t u : ClientState}

theorem trans (h : Reach s t) (h' : Reach t u) : Reach s u := by
  obtain ⟨acts, hrun⟩ := h
  obtain ⟨acts', hrun'⟩ := h'
  exact ⟨acts ++ acts', hrun.append hrun'⟩

theorem step {a : Act} (h : Act.Step s a t) : Reach s t := ⟨[a], Run.nil.snoc h⟩

theorem quiet (hbuf : t.hsBuf = s.hsBuf) (htrace : t.trace = s.trace) : Reach s t := by
  have happend : t.trace = s.trace ++ [] := by rw [htrace, List.append_nil]
  exact step (.other hbuf happend rfl rfl)

/-- An event that reads nothing and takes nothing. -/
theorem event {e : Event} (hbuf : t.hsBuf = s.hsBuf) (htrace : t.trace = s.trace ++ [e])
    (hread : e.asRead = none) (htaken : e.asTaken = none) : Reach s t :=
  step (.other hbuf htrace (by simp [hread]) (by simp [htaken]))

theorem writeRecord (ct : UInt8) (payload : Bytes) :
    Does Reach (fun _ => Reach) (writeRecord ct payload) := by
  intro s
  apply (writeRecord_logs ct payload s).mono
  · rintro _ _ ⟨-, layer, rfl⟩
    exact event rfl rfl rfl rfl
  · rintro _ _ ⟨layer, rfl⟩
    exact event rfl rfl rfl rfl

theorem sumTranscript (purpose : Purpose) (factory : Option Hash) :
    Does Reach (fun _ => Reach) (sumTranscript purpose factory) := by
  intro s
  apply (sumTranscript_logs purpose factory s).mono
  · rintro _ _ ⟨-, rfl⟩
    exact event rfl rfl rfl rfl
  · rintro _ _ rfl
    exact ⟨[], .nil⟩

theorem alerted (desc : UInt8) (s : ClientState) : Reach s (s.alerted desc) := by
  obtain ⟨o, layer, -, -, heq⟩ := alerted_eq desc s
  rw [heq]
  exact event rfl rfl rfl rfl

theorem sending : Sending Reach Reach (fun _ => Reach) where
  refl _ := ⟨[], .nil⟩
  trans := trans
  fail := trans
  raw := ⟨fun _ => ⟨[], .nil⟩, trans, trans⟩
  stop _ := ⟨[], .nil⟩
  panic h := h
  alert desc _ h := h.trans (alerted desc _)
  bookkeeping h := quiet h.hsBuf h.trace
  message _ := wp_of_endState (step .message)
  request _ _ := quiet rfl rfl
  write ct payload _ := writeRecord ct payload
  sum := sumTranscript
  installSend _ := event rfl rfl rfl rfl
  installRecv _ := event rfl rfl rfl rfl
  record hbuf := wp_of_endState (step (.record hbuf))
  certificate _ := quiet rfl rfl

end Reach

theorem readRecord_hsBuf (s : ClientState) : (endState readRecord s).hsBuf = s.hsBuf := by
  apply (readRecord_logs s).endState (P := fun t => t.hsBuf = s.hsBuf)
  · rintro _ _ ⟨layer, rfl⟩
    rfl
  · rintro _ _ ⟨layer, rfl⟩
    rfl

/-- A step leaves a buffer that the next call can count on. -/
theorem Act.Step.held {s t : ClientState} {a : Act} (h : Act.Step s a t) (hs : Held s.hsBuf) :
    Held t.hsBuf := by
  cases h with
  | message => exact held_readHandshakeRecord hs
  | record hbuf =>
      rw [readRecord_hsBuf]
      exact hs
  | other hbuf _ _ _ =>
      rw [hbuf]
      exact hs

/-- **Bounded buffering.** A handshake, whichever way it ends, is a sequence of calls of
    `readHandshakeRecord` with other operations between them. In every such sequence, every call keeps to
    its bounds. -/
theorem bounded_buffering (env : Env) (params : ClientParams) (input : Reader) (output : Writer)
    (rand : Entropy) (config : Option Entropy) :
    (∃ acts, Run Act.Step (freshClient params input output rand config) acts
      (endState (handshake env) (freshClient params input output rand config))) ∧
    ∀ acts s, Run Act.Step (freshClient params input output rand config) acts s →
      ∀ t, .message t ∈ acts → Bounded t := by
  constructor
  · exact (Reach.sending.handshake env _).endState (P := Reach _) (fun _ _ h => h)
      (fun _ _ h => h.elim id id)
  · intro acts s hrun t ht
    obtain ⟨pre, post, rfl⟩ := List.append_of_mem ht
    obtain ⟨u, v, hpre, hstep, -⟩ := hrun.middle
    have hfresh : Held (freshClient params input output rand config).hsBuf :=
      .inl (Nat.two_pow_pos 14)
    have hheld : Held u.hsBuf :=
      hpre.invariant (P := fun s => Held s.hsBuf) (fun _ _ _ hs h => h.held hs) hfresh
    cases hstep
    exact bounded hheld

/-- The first call over a stream that declares a message of `0xFFFFFF` bytes. -/
theorem bounded_buffering_first_call :
    Bounded (freshClient .sample (ofBytes [22, 3, 3, 0, 4, 2, 0xFF, 0xFF, 0xFF]) ⟨[], []⟩
      ⟨fun _ => .ok 7, 0⟩ none) :=
  (bounded_buffering .sample .sample _ _ _ _).2 [.message _] _ (Run.nil.snoc .message) _
    List.mem_cons_self

end Gostls

import Gostls.Handshake.Certificates
import Gostls.Handshake.Keys
import Gostls.Handshake.Reader
import Gostls.Handshake.ServerKeyExchange

/-!
# `Gostls.Handshake.Client` — the client handshake

The state machine of the source, function by function and check by check. Each function reads or writes
its messages, keeps the transcript, and leaves through `fatal` when something is wrong; only the first,
`sendClientHello`, fails without an alert.
-/

namespace Gostls

open Lib

/-! ## Errors -/

def errMalformedCCS : Err := .new "tls: malformed CCS payload"
def errExpectedCCS : Err := .new "tls: expected ChangeCipherSpec"
def errExpectedFinished : Err := .new "tls: expected Finished"
def errFinishedMismatch : Err := .new "tls: server Finished verify_data mismatch"
def errExpectedServerHello : Err := .new "tls: expected ServerHello"
def errBadVersion : Err := .new "tls: server selected wrong version"
def errSuiteNotOffered : Err := .new "tls: server chose cipher suite which was not offered"
def errUnknownSuite : Err := .new "tls: server chose unknown cipher suite"
def errNonNullCompression : Err := .new "tls: server chose non-null compression method"
def errUnexpectedEMS : Err :=
  .new "tls: server sent extended_master_secret extension but we did not offer it"
def errSHUnofferedExt : Err := .new "tls: server sent a ServerHello extension that was not offered"
def errExpectedCertificate : Err := .new "tls: expected Certificate"
def errEmptyCertList : Err := .new "tls: server sent empty certificate list"
def errDuplicateSKE : Err := .new "tls: duplicate ServerKeyExchange in server flight"
def errSKEAfterCertReq : Err :=
  .new "tls: ServerKeyExchange received after CertificateRequest (out of order)"
def errDuplicateCertReq : Err := .new "tls: duplicate CertificateRequest in server flight"
def errUnexpectedFlightMsg : Err := .new "tls: unexpected message type in server flight"
def errSKERequired : Err := .new "tls: ServerKeyExchange required but not received"
def errUnsupportedKeyType : Err := .new "tls: CertificateVerify: unsupported key type"
def errUnexpectedFinishedType : Err := .new "tls: unexpected Finished message type"
def errUnexpectedSHType : Err := .new "tls: unexpected ServerHello message type"
def errUnexpectedCertType : Err := .new "tls: unexpected Certificate message type"
def errUnexpectedSKEType : Err := .new "tls: unexpected ServerKeyExchange type"
def errUnexpectedCertReqType : Err := .new "tls: unexpected CertificateRequest type"

/-! ## Sending and receiving a message -/

/-- Write a message and add it to the transcript; `text` is what a failure is annotated with. -/
def sendMessage (text : String) (msg : Message) : HsM Unit := do
  let env := marshalMessage msg
  orFatal alertInternalError (.errorf text) (writeRecord contentTypeHandshake env)
  writeTranscript env

/-- Parse a received body behind a rebuilt envelope. -/
def parsePayload (alertDesc : UInt8) (text : String) (msgType : UInt8) (payload : Bytes) :
    HsM Message := do
  let (msg, _) ← orFatal alertDesc (.errorf text)
    (compute (parseMessage (buildEnvelope msgType payload)))
  return msg

/-- **Parsing behind a rebuilt envelope** is parsing the body. -/
theorem parsePayload_eq {t : UInt8} {body : Bytes} (hshort : body.length ≤ maxHandshakeMsg)
    (alertDesc : UInt8) (text : String) :
    parsePayload alertDesc text t body = orFatal alertDesc (.errorf text) (compute (parseBody t body)) := by
  have hlen : body.length < 2 ^ 24 := by
    simp only [maxHandshakeMsg] at hshort
    omega
  unfold parsePayload
  rw [parseMessage_buildEnvelope hlen]
  cases parseBody t body with
  | ok m => rfl
  | error e =>
      rw [error_bind]
      cases e with
      | panic => rfl
      | _ => exact fatal_bind _ _ _

theorem wp_parsePayload {E : Err → ClientState → Prop} {s : ClientState} {alertDesc : UInt8}
    {text : String} {t : UInt8} {body : Bytes} (hx : Exits E s) (hshort : body.length ≤ maxHandshakeMsg) :
    wp (parsePayload alertDesc text t body) (fun m s' => s' = s ∧ parseBody t body = .ok m) E s := by
  rw [parsePayload_eq hshort]
  exact wp_orFatal_compute hx (fun _ hm => ⟨rfl, hm⟩)

/-- Read the next message, which has to be of type `want`, and parse it. `name` is the message's name in
    the texts of the errors. -/
def receiveMessage (want : UInt8) (name : String) (errExpected : Err) (parseAlert : UInt8) :
    HsM (Message × Bytes) := do
  let (msgType, payload) ← orFatal alertHandshakeFailure (.errorf ("tls: read " ++ name))
    readHandshakeRecord
  fatalIf (msgType ≠ want) alertUnexpectedMessage
    (errExpected.detail (", got type " ++ toString msgType))
  let msg ← parsePayload parseAlert ("tls: parse " ++ name) want payload
  return (msg, payload)

/-! ## The hellos -/

def tlsVersion12 : UInt16 := 0x0303

/-- The ClientHello of a random value. -/
def clientHello (params : ClientParams) (random : Random) : ClientHello where
  version := tlsVersion12
  random := random
  sessionID := []
  cipherSuites := params.offeredSuites
  compressionMethods := [0]
  serverName := params.serverName
  supportedGroups := [0x001D, 0x0017, 0x0018, 0x0019, 0x0100, 0x0101]
  ecPointFormats := [0]
  signatureAlgorithms := clientSigAlgsAdvertised
  extendedMasterSecret := false
  renegotiationInfo := true

/-- A failure here sends no alert. -/
def sendClientHello : HsM Unit := do
  let random ← drawing (RandM.mapErr (.errorf "tls: generate client random")
    (RandM.withConfig (RandM.readFull tlsRandomLen)))
  let random := Random.copy random
  modify fun s => { s with clientRandom := random }
  let env := marshalMessage (.clientHello (clientHello (← get).params random))
  orFail (.errorf "tls: send ClientHello") (writeRecord contentTypeHandshake env)
  writeTranscript env

/-- The extensions a ServerHello may answer. -/
def offeredExt (params : ClientParams) : List UInt16 :=
  [extSupportedGroups, extECPointFormats, extSignatureAlgorithms, extRenegotiationInfo] ++
    if params.serverName ≠ [] then [extServerName] else []

def recvServerHello (env : Env) : HsM Unit := do
  let (msg, payload) ← receiveMessage typeServerHello "ServerHello" errExpectedServerHello
    alertHandshakeFailure
  match msg with
  | .serverHello sh =>
    fatalIf (sh.version ≠ tlsVersion12) alertProtocolVersion
      (errBadVersion.detail (" 0x" ++ hex04 sh.version ++ ", want 0x" ++ hex04 tlsVersion12))
    let params := (← get).params
    fatalIf (sh.cipherSuite ∉ params.offeredSuites) alertIllegalParameter
      (errSuiteNotOffered.detail (" 0x" ++ hex04 sh.cipherSuite))
    match lookup env.hashes sh.cipherSuite with
    | none =>
      fatal alertIllegalParameter (errUnknownSuite.detail (" 0x" ++ hex04 sh.cipherSuite))
    | some suite =>
      modify fun s => { s with suite := some suite }
      fatalIf (sh.compressionMethod ≠ 0) alertIllegalParameter
        (errNonNullCompression.detail (" " ++ toString sh.compressionMethod))
      fatalIf sh.extendedMasterSecret alertUnsupportedExtension errUnexpectedEMS
      sh.extensionTypes.forM fun extType =>
        fatalIf (extType ∉ offeredExt params) alertUnsupportedExtension
          (errSHUnofferedExt.detail (" 0x" ++ hex04 extType))
      modify fun s => { s with serverRandom := sh.random }
      writeTranscript (buildEnvelope typeServerHello payload)
  | msg => fatal alertHandshakeFailure (errUnexpectedSHType.detail (" " ++ msg.goType))

/-! ## The server's flight -/

/-- The leaf certificate. -/
def recvCertificate (env : Env) : HsM X509Certificate := do
  let (msg, payload) ← receiveMessage typeCertificate "Certificate" errExpectedCertificate
    alertHandshakeFailure
  match msg with
  | .certificate certMsg =>
    fatalIf (certMsg.rawCerts.length = 0) alertBadCertificate errEmptyCertList
    let (leafCert, verifiedChains) ← orFatal alertBadCertificate (.errorf "tls")
      (parseAndVerifyChain env certMsg.rawCerts)
    match (← get).params.verifyPeerCertificate with
    | none        => pure ()
    | some verify =>
      orFatal alertBadCertificate (.errorf "tls: VerifyPeerCertificate")
        (compute (verify certMsg.rawCerts verifiedChains))
    writeTranscript (buildEnvelope typeCertificate payload)
    return leafCert
  | msg => fatal alertHandshakeFailure (errUnexpectedCertType.detail (" " ++ msg.goType))

/-- The loop of `recvServerFlight`. Every round but the last sets a flag, and no flag is set twice, so
    that three rounds are enough. -/
def recvServerFlightLoop (env : Env) (serverCert : X509Certificate) :
    Nat → Bool → Bool → Bytes → HsM (Bool × Bytes)
  | 0, _, _, _ => throw .panic
  | rounds + 1, sawSKE, sawCertReq, serverKeyExchParams => do
    let (ct, payload) ← orFatal alertHandshakeFailure (.errorf "tls: read server flight")
      readHandshakeRecord
    if ct = typeServerKeyExchange then
      fatalIf sawSKE alertUnexpectedMessage errDuplicateSKE
      fatalIf sawCertReq alertUnexpectedMessage errSKEAfterCertReq
      match ← parsePayload alertHandshakeFailure "tls: parse ServerKeyExchange" typeServerKeyExchange
        payload with
      | .serverKeyExchange ske =>
        writeTranscript (buildEnvelope typeServerKeyExchange payload)
        let params ← verifyServerKeyExchange env ske.body serverCert
        recvServerFlightLoop env serverCert rounds true sawCertReq params
      | msg => fatal alertHandshakeFailure (errUnexpectedSKEType.detail (" " ++ msg.goType))
    else if ct = typeCertificateRequest then
      fatalIf sawCertReq alertUnexpectedMessage errDuplicateCertReq
      match ← parsePayload alertHandshakeFailure "tls: parse CertificateRequest" typeCertificateRequest
        payload with
      | .certificateRequest certReq =>
        modify fun s => { s with certReq := some certReq }
        writeTranscript (buildEnvelope typeCertificateRequest payload)
        recvServerFlightLoop env serverCert rounds sawSKE true serverKeyExchParams
      | msg => fatal alertHandshakeFailure (errUnexpectedCertReqType.detail (" " ++ msg.goType))
    else if ct = typeServerHelloDone then
      let _ ← parsePayload alertHandshakeFailure "tls: parse ServerHelloDone" typeServerHelloDone payload
      writeTranscript (buildEnvelope typeServerHelloDone payload)
      return (sawSKE, serverKeyExchParams)
    else
      fatal alertUnexpectedMessage
        (errUnexpectedFlightMsg.detail (" " ++ toString ct ++ " in server flight"))

/-- How many messages before the ServerHelloDone can still come. -/
def unseen (sawSKE sawCertReq : Bool) : Nat := (if sawSKE then 0 else 1) + if sawCertReq then 0 else 1

theorem unseen_ske (sawCertReq : Bool) : unseen false sawCertReq = unseen true sawCertReq + 1 := by
  cases sawCertReq <;> rfl

theorem unseen_certReq (sawSKE : Bool) : unseen sawSKE false = unseen sawSKE true + 1 := by
  cases sawSKE <;> rfl

/-- A check that has failed leaves nothing to compare. -/
theorem fatalIf_bind_congr {α : Type} {cond : Prop} [Decidable cond] {alertDesc : UInt8} {cause : Err}
    {m m' : HsM α} (h : ¬ cond → m = m') :
    (fatalIf cond alertDesc cause >>= fun _ => m) = fatalIf cond alertDesc cause >>= fun _ => m' := by
  by_cases hc : cond
  · rw [fatalIf, if_pos hc, fatal_bind, fatal_bind]
  · rw [h hc]

/-- **The bound on the rounds is never what ends the loop.** -/
theorem recvServerFlightLoop_rounds (env : Env) (serverCert : X509Certificate) {r r' : Nat}
    {sawSKE sawCertReq : Bool} (params : Bytes) (h : unseen sawSKE sawCertReq < r)
    (h' : unseen sawSKE sawCertReq < r') :
    recvServerFlightLoop env serverCert r sawSKE sawCertReq params =
      recvServerFlightLoop env serverCert r' sawSKE sawCertReq params := by
  induction r generalizing r' sawSKE sawCertReq params with
  | zero => omega
  | succ r ih =>
      obtain ⟨r', rfl⟩ : ∃ n, r' = n + 1 := ⟨r' - 1, by omega⟩
      unfold recvServerFlightLoop
      congr 1
      funext m
      obtain ⟨ct, payload⟩ := m
      dsimp only
      -- A round that goes on has just seen one of the two messages for the first time.
      by_cases hske : ct = typeServerKeyExchange
      · rw [if_pos hske, if_pos hske]
        apply fatalIf_bind_congr
        intro hsaw
        apply fatalIf_bind_congr
        intro _
        obtain rfl : sawSKE = false := by simpa using hsaw
        rw [unseen_ske] at h h'
        congr 1
        funext msg
        cases msg with
        | serverKeyExchange ske =>
            dsimp only
            congr 1
            funext _
            congr 1
            funext params
            exact ih params (by omega) (by omega)
        | _ => rfl
      · rw [if_neg hske, if_neg hske]
        by_cases hreq : ct = typeCertificateRequest
        · rw [if_pos hreq, if_pos hreq]
          apply fatalIf_bind_congr
          intro hsaw
          obtain rfl : sawCertReq = false := by simpa using hsaw
          rw [unseen_certReq] at h h'
          congr 1
          funext msg
          cases msg with
          | certificateRequest certReq =>
              dsimp only
              congr 1
              funext _
              congr 1
              funext _
              exact ih params (by omega) (by omega)
          | _ => rfl
        · rw [if_neg hreq, if_neg hreq]

/-- Whether the suite's key exchange needs parameters from the server. -/
def needsSKE : KexKind → Bool
  | .dhe | .ecdhe => true
  | .rsa | .gost2001 | .gost2012_256 | .gost2018_256 | .other _ => false

/-- The parameters of the ServerKeyExchange, empty without one. -/
def recvServerFlight (env : Env) (serverCert : X509Certificate) : HsM Bytes := do
  let (sawSKE, serverKeyExchParams) ← recvServerFlightLoop env serverCert 3 false false []
  if sawSKE then return serverKeyExchParams
  let suite ← getSuite
  fatalIf (needsSKE suite.kx) alertUnexpectedMessage (errSKERequired.detail (" for " ++ suite.name))
  return serverKeyExchParams

/-! ## Client authentication -/

/-- Whether a key can sign with an algorithm. -/
def keyCompatible (key : PrivateKey) (alg : SigAndHash) : Bool :=
  match key with
  | .rsa _ => alg.sig = sigAlgRSA
  | .ecdsa curve _ =>
    alg.sig = sigAlgECDSA &&
      match curve with
      | .p256    => alg.hash = sigHashByte
      | .p384    => alg.hash = sigHashSHA384
      | .other _ => false
  | .other _ => false

/-- The first algorithm offered that the server accepts and the client's key supports. -/
def selectClientSigAlg (certReq : Option CertificateRequest) (certificates : List ClientCertificate) :
    Option SigAndHash :=
  match certReq, certificates with
  | some req, cert :: _ => clientSigAlgsAdvertised.find? fun alg =>
      alg ∈ req.supportedSignatureAlgs && keyCompatible cert.privateKey alg
  | _, _ => none

/-- The certificates to send under an algorithm, if there is one. -/
def clientRawCerts (alg : Option SigAndHash) (certificates : List ClientCertificate) : List Bytes :=
  match alg, certificates with
  | some _, cert :: _ => [cert.rawCertificate]
  | _, _              => []

/-- The client's Certificate message, empty when it has no certificate the server would accept; the
    result says whether it was not. -/
def sendClientCertificate : HsM Bool := do
  let s ← get
  let alg := selectClientSigAlg s.certReq s.params.certificates
  sendMessage "tls: send client Certificate" (.certificate ⟨clientRawCerts alg s.params.certificates⟩)
  return alg.isSome && s.params.certificates.length > 0

/-- Sign the digest with the client's key. -/
def signDigest (env : Env) (key : PrivateKey) (cryptoHash : CryptoHash) (digest : Bytes) : HsM Bytes :=
  match key with
  | .rsa k     =>
    orFatal alertInternalError (.errorf "tls: CertificateVerify RSA sign")
      (drawing (RandM.withConfig (env.rsaSignPKCS1v15 k cryptoHash digest)))
  | .ecdsa _ k =>
    orFatal alertInternalError (.errorf "tls: CertificateVerify ECDSA sign")
      (drawing (RandM.withConfig (env.ecdsaSignASN1 k digest)))
  | .other t   => fatal alertInternalError (errUnsupportedKeyType.detail (" " ++ t))

def sendCertificateVerify (env : Env) (alg : SigAndHash) : HsM Unit := do
  let cryptoHash ← orFatal alertInternalError (.errorf "tls: CertificateVerify")
    (compute (hashForSigAlg alg.hash))
  let digest ← orFatal alertInternalError (.errorf "tls: CertificateVerify transcript sum")
    (sumTranscript .certificateVerify (some (cryptoHash.new env.hashes)))
  match (← get).params.certificates with
  | []        => throw .panic
  | cert :: _ =>
    let sig ← signDigest env cert.privateKey cryptoHash digest
    sendMessage "tls: send CertificateVerify" (.certificateVerify ⟨alg, sig⟩)

/-- Answer a CertificateRequest, if there was one. -/
def answerCertificateRequest : HsM Unit := do
  let s ← get
  if s.certReq.isSome then
    let alg := selectClientSigAlg s.certReq s.params.certificates
    let sent ← sendClientCertificate
    if sent then
      modify fun s => { s with clientCertSent := true, clientSigAlg := alg.getD ⟨0, 0⟩ }

/-! ## Finishing -/

/-- The `verify_data` of the transcript so far. -/
def finishedData (purpose : Purpose) (site label verifyText : String) (masterSecret : Bytes) :
    HsM Bytes := do
  let suite ← getSuite
  let transcriptHash ← orFatal alertInternalError (.errorf ("tls: transcript sum for " ++ site))
    (sumTranscript purpose suite.prf.hash)
  orFatal alertInternalError (.errorf verifyText)
    (compute (finishedVerifyData suite masterSecret label transcriptHash))

/-- ChangeCipherSpec and Finished of the client. -/
def sendFinished (masterSecret : Bytes) (sendProt : Protector) : HsM Unit := do
  orFatal alertInternalError (.errorf "tls: send CCS") (writeRecord contentTypeChangeCipherSpec [1])
  installSend sendProt
  let clientVerifyData ← finishedData .clientFinished "client Finished" "client finished"
    "tls: client finished verify_data" masterSecret
  sendMessage "tls: send client Finished" (.finished ⟨clientVerifyData⟩)

/-- The server's ChangeCipherSpec, read straight off the record layer. -/
def receiveChangeCipherSpec : HsM Unit := do
  let (recvCT, recvPayload) ← orFatal alertHandshakeFailure (.errorf "tls: read server CCS") readRecord
  fatalIf (recvCT ≠ contentTypeChangeCipherSpec) alertUnexpectedMessage
    (errExpectedCCS.detail (", got content type " ++ toString recvCT))
  fatalIf (recvPayload ≠ [1]) alertUnexpectedMessage errMalformedCCS

def receiveServerFinished (masterSecret : Bytes) (recvProt : Protector) : HsM Unit := do
  receiveChangeCipherSpec
  installRecv recvProt
  let (msg, payload) ← receiveMessage typeFinished "server Finished" errExpectedFinished
    alertDecryptError
  match msg with
  | .finished serverFinished =>
    let expected ← finishedData .serverFinished "server Finished" "server finished"
      "tls: server finished verify_data" masterSecret
    fatalIf (!equalVerifyData serverFinished.verifyData expected) alertDecryptError errFinishedMismatch
    fatalIf ((← get).hsBuf.length ≠ 0) alertUnexpectedMessage errInterleavedHandshake
    writeTranscript (buildEnvelope typeFinished payload)
  | msg => fatal alertDecryptError (errUnexpectedFinishedType.detail (" " ++ msg.goType))

/-- The steps of `Handshake` from the client's ChangeCipherSpec on. -/
def finish (masterSecret : Bytes) (sendProt recvProt : Protector) : HsM Unit := do
  sendFinished masterSecret sendProt
  -- No handshake byte may straddle the change of cipher.
  fatalIf ((← get).hsBuf.length ≠ 0) alertUnexpectedMessage errInterleavedHandshake
  receiveServerFinished masterSecret recvProt
  modify fun s => { s with done := true }

/-- `ClientState.Handshake` -/
def handshake (env : Env) : HsM Unit := do
  sendClientHello
  recvServerHello env
  let serverCert ← recvCertificate env
  let serverKeyExchParams ← recvServerFlight env serverCert
  let (preMaster, ckeBody) ← computeKeyExchange env serverCert serverKeyExchParams
  let suite ← getSuite
  let s ← get
  let ms ← orFatal alertInternalError (.errorf "tls: master secret")
    (compute (masterSecret suite preMaster s.clientRandom.val s.serverRandom.val))
  modify fun s => { s with masterSecret := ms }
  let (sendProt, recvProt) ← expandKeys env
  answerCertificateRequest
  sendMessage "tls: send ClientKeyExchange" (.clientKeyExchange ⟨ckeBody⟩)
  let s ← get
  if s.clientCertSent then sendCertificateVerify env s.clientSigAlg
  finish ms sendProt recvProt

/-- The steps of `Handshake` from the ServerHello to the keys, with nothing sent: the body of the
    ClientKeyExchange, the master secret, and the two protectors. -/
def agreeKeys (env : Env) : HsM (Bytes × Bytes × Protector × Protector) := do
  recvServerHello env
  let serverCert ← recvCertificate env
  let serverKeyExchParams ← recvServerFlight env serverCert
  let (preMaster, ckeBody) ← computeKeyExchange env serverCert serverKeyExchParams
  let suite ← getSuite
  let s ← get
  let ms ← orFatal alertInternalError (.errorf "tls: master secret")
    (compute (masterSecret suite preMaster s.clientRandom.val s.serverRandom.val))
  modify fun s => { s with masterSecret := ms }
  let (sendProt, recvProt) ← expandKeys env
  return (ckeBody, ms, sendProt, recvProt)

/-- The steps of `Handshake` behind that: the client's second flight, and the end. -/
def conclude (env : Env) (ckeBody ms : Bytes) (sendProt recvProt : Protector) : HsM Unit := do
  answerCertificateRequest
  sendMessage "tls: send ClientKeyExchange" (.clientKeyExchange ⟨ckeBody⟩)
  let s ← get
  if s.clientCertSent then sendCertificateVerify env s.clientSigAlg
  finish ms sendProt recvProt

/-- **A handshake in three parts.** -/
theorem handshake_eq (env : Env) :
    handshake env = sendClientHello >>= fun _ => agreeKeys env >>= fun r =>
      conclude env r.1 r.2.1 r.2.2.1 r.2.2.2 := by
  simp only [handshake, agreeKeys, conclude, bind_assoc, pure_bind]

/-- A client before its handshake, over a fresh record layer. -/
def freshClient (params : ClientParams) (input : Reader) (output : Writer) (rand : Entropy)
    (config : Option Entropy) : ClientState :=
  newClientState (newLayer input output rand) config params

end Gostls

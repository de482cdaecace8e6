import Gostls.Handshake.ClientAuth
import Gostls.Handshake.Keyable
import Gostls.Handshake.ServerHello
import Gostls.Record.Duplex

/-!
# `Gostls.Handshake.Peer` — a server that plays by the rules

The far end of a handshake, in its own terms: a TLS 1.2 server has messages to answer a ClientHello with,
can recover the pre-master secret from a ClientKeyExchange, derives its keys from that, and knows from the
messages exchanged what both Finished messages have to say. How it cuts its messages into records is its
own business.

`Peer.Welcome` is what the client's checks amount to for such a server: certificates that verify,
parameters that are signed, a key exchange that both ends agree on. It says nothing about the state the
client is in.
-/

namespace Gostls

open Lib

/-! ## What the two ends say -/

/-- The bodies of the server's messages up to its ServerHelloDone. -/
structure ServerFlight where
  hello : Bytes
  certificate : Bytes
  keyExchange : Option Bytes
  request : Option Bytes

def ServerFlight.messages (f : ServerFlight) : List (UInt8 × Bytes) :=
  (typeServerHello, f.hello) :: (typeCertificate, f.certificate) ::
    (f.keyExchange.toList.map (typeServerKeyExchange, ·) ++
      (f.request.toList.map (typeCertificateRequest, ·) ++ [(typeServerHelloDone, [])]))

/-- What the client answers with, before its ChangeCipherSpec. -/
structure ClientFlight where
  certificate : Option (List Bytes)
  keyExchange : Bytes
  verify : Option CertificateVerify

/-- The messages that a CertificateVerify signs, beside those before them. -/
def ClientFlight.signed (c : ClientFlight) : List Message :=
  c.certificate.toList.map (.certificate ⟨·⟩) ++ [.clientKeyExchange ⟨c.keyExchange⟩]

def ClientFlight.messages (c : ClientFlight) : List Message :=
  c.signed ++ c.verify.toList.map .certificateVerify

/-- Handshake messages as the client sends them: each in a record of its own. -/
def sent (ms : List Message) : List ChannelOp :=
  ms.map fun m => .record contentTypeHandshake (marshalMessage m)

/-- The `verify_data` of a Finished message behind the messages `log`. -/
def Keyed.verifyData (k : Keyed) (label : String) (log : Bytes) : Except Err Bytes :=
  match k.suite.prf.hash with
  | some hash => finishedVerifyData k.suite k.master label (hash.sum log)
  | none      => .error .panic

/-! ## The server -/

/-- A server, as far as one handshake is concerned. What it says may depend on the client's random value:
    it signs it, and a key exchange may use it. -/
structure Peer where
  suite : Suite
  random : Random
  flight : Random → ServerFlight
  /-- The pre-master secret of a ClientKeyExchange. -/
  recover : Random → Bytes → Except Err Bytes
  /-- How handshake data is cut into records. -/
  frame : Bytes → List Bytes
  rand : Entropy

namespace Peer

def keyed (p : Peer) (clientRandom : Random) (c : ClientFlight) : Except Err Keyed := do
  let preMaster ← p.recover clientRandom c.keyExchange
  let master ← masterSecret p.suite preMaster clientRandom.val p.random.val
  return ⟨⟨p.suite, clientRandom, p.random⟩, master⟩

/-- The handshake messages up to the client's ChangeCipherSpec. -/
def log (p : Peer) (hello : ClientHello) (c : ClientFlight) : Bytes :=
  marshalMessage (.clientHello hello) ++ envelopes (p.flight hello.random).messages ++
    c.messages.flatMap marshalMessage

/-- What the server works out when it has the client's messages: the keys, the protectors of both
    directions, the client's first, and the contents of both Finished messages. -/
structure Reply where
  keys : Keyed
  sendProt : Protector
  recvProt : Protector
  clientData : Bytes
  serverData : Bytes

def reply (env : Env) (p : Peer) (hello : ClientHello) (c : ClientFlight) : Except Err Reply := do
  let keys ← p.keyed hello.random c
  let (sendProt, recvProt) ← keys.protectors env
  let clientData ← keys.verifyData "client finished" (p.log hello c)
  let serverData ← keys.verifyData "server finished"
    (p.log hello c ++ marshalMessage (.finished ⟨clientData⟩))
  return { keys, sendProt, recvProt, clientData, serverData }

/-- Handshake data, cut into records. -/
def speak (p : Peer) (b : Bytes) : List ChannelOp := (p.frame b).map (.record contentTypeHandshake)

/-- All that the server does on its sending side. -/
def script (p : Peer) (clientRandom : Random) (r : Reply) : List ChannelOp :=
  p.speak (envelopes (p.flight clientRandom).messages) ++
    .record contentTypeChangeCipherSpec [1] :: .changeCipherSpec r.recvProt ::
      p.speak (buildEnvelope typeFinished r.serverData)

end Peer

/-- All that the client does on its sending side. -/
def clientScript (hello : ClientHello) (c : ClientFlight) (r : Peer.Reply) : List ChannelOp :=
  sent (.clientHello hello :: c.messages) ++
    [.record contentTypeChangeCipherSpec [1], .changeCipherSpec r.sendProt,
      .record contentTypeHandshake (marshalMessage (.finished ⟨r.clientData⟩))]

/-! ## What the client looks for -/

/-- Both readers of a handshake supply what is asked of them. -/
def Rands.Reliable (r : Rands) : Prop := r.system.Reliable ∧ ∀ e ∈ r.config, e.Reliable

/-- Key-exchange parameters of the suite's kind. -/
inductive KeyParams : KexKind → Bytes → Prop
  | ecdhe {hi lo len : UInt8} {point : Bytes} (hlen : point.length = len.toNat) :
      KeyParams .ecdhe (ecdheCurveTypeNamed :: hi :: lo :: len :: point)
  | dhe {p g ys : Bytes} (hp : p.length < 65536) (hg : g.length < 65536) (hys : ys.length < 65536) :
      KeyParams .dhe (encodeU16 p ++ (encodeU16 g ++ encodeU16 ys))

/-- A ServerKeyExchange: parameters, and a signature over them and both randoms by the key of the
    certificate. The client does not look at what is behind the signature. -/
structure SignedParams (env : Env) (cert : X509Certificate) (n : Negotiated) (body params : Bytes)
    (alg : SigAndHash) (sig trailing : Bytes) : Prop where
  body : body = params ++ (alg.hash :: alg.sig :: (encodeU16 sig ++ trailing))
  kind : KeyParams n.suite.kx params
  advertised : alg ∈ clientSigAlgsAdvertised
  auth : Authenticates n.suite.auth alg.sig
  short : sig.length < 65536
  signed : SignedBy env cert alg.hash alg.sig (n.clientRandom.val ++ n.serverRandom.val ++ params) sig

/-- The ServerKeyExchange of a flight is there if the suite needs one, and is in order. -/
inductive Exchanges (env : Env) (cert : X509Certificate) (n : Negotiated) : Option Bytes → Bytes → Prop
  | none (h : needsSKE n.suite.kx = false) : Exchanges env cert n none []
  | signed {body params sig trailing : Bytes} {alg : SigAndHash}
      (h : SignedParams env cert n body params alg sig trailing) : Exchanges env cert n (some body) params

/-- The CertificateRequest of a flight, if there is one. -/
inductive Requests : Option Bytes → Option CertificateRequest → Prop
  | none : Requests none none
  | some {body : Bytes} {req : CertificateRequest} (h : parseCertificateRequest body = .ok req) :
      Requests (some body) (some req)

/-- The GOST certificate that the key exchange will use. -/
def gostLeafOf (gc : GostCertificate) : Option GostCertificate :=
  if gc.hasGOSTPubKey then some gc else none

/-- The key exchange of a suite with the key of a leaf: the body of the ClientKeyExchange, and the
    pre-master secret. -/
def leafKeyExchange (env : Env) (gc : GostCertificate) (n : Negotiated) (keyParams : Bytes) :
    RandM (Bytes × Bytes) :=
  match n.suite.kx with
  | .ecdhe => Exchange.ecdhe.clientKeyExchange env keyParams
  | .dhe   => Exchange.dhe.clientKeyExchange env keyParams
  | .rsa   =>
    match gc.stdlib.publicKey with
    | .rsa pub => (Exchange.rsa pub).clientKeyExchange env keyParams
    | _        => throw errRSAKeyExpected
  | .gost2001 | .gost2012_256 | .gost2018_256 => do
    let e ← buildGOSTExchange env ⟨n.suite, gostLeafOf gc, n.clientRandom, n.serverRandom⟩
    e.clientKeyExchange env keyParams
  | .other _ => throw errUnknownKXKind

/-- The exchange comes to a pre-master secret that `recover` finds in its message, whatever is drawn, and
    the message fits in a record. -/
def RecoveredBy (recover : Bytes → Except Err Bytes) (exchange : RandM (Bytes × Bytes)) : Prop :=
  ∀ r : Rands, r.Reliable → ∃ cke preMaster r', exchange r = .ok (cke, preMaster) r' ∧ r'.Reliable ∧
    recover cke = .ok preMaster ∧ hsEnvelopeSize + cke.length ≤ tlsMaxPlaintextLen

/-- **How a leaf is trusted**: a GOST-signed one by the roots of the configuration, of which there has to be
    one, any other by those of the standard library; in both cases for the name of the server. Only a client
    that was told not to verify does without. -/
inductive Trusted (env : Env) (params : ClientParams) (gc : GostCertificate) (rawInter : List Bytes) :
    List (List X509Certificate) → Prop
  | skipped (hskip : params.insecureSkipVerify = true) : Trusted env params gc rawInter []
  | gost {roots configured wire : List GostCertificate} {chains : List (List GostCertificate)}
      (hskip : params.insecureSkipVerify = false) (hgost : gc.isGOST = true)
      (hroots : params.gostRoots = .certs roots) (hne : roots ≠ [])
      (hconfigured : extractGOSTIntermediates params.gostIntermediates = .ok configured)
      (hwire : List.Forall₂ (fun der c => env.parseX509Gost der = .ok c) rawInter wire)
      (hverify : env.verifyX509Gost gc ⟨roots, configured ++ wire, params.serverName⟩ = .ok chains) :
      Trusted env params gc rawInter (gostChainsToStdlib chains)
  | stdlib {wire : List X509Certificate} {chains : List (List X509Certificate)}
      (hskip : params.insecureSkipVerify = false) (hgost : gc.isGOST = false)
      (hwire : List.Forall₂ (fun der c => env.parseX509 der = .ok c) rawInter wire)
      (hverify : env.verifyX509 gc.stdlib ⟨params.rootCAs, some wire, params.serverName⟩ = .ok chains) :
      Trusted env params gc rawInter chains

theorem extractGOSTRoots_eq_ok {pool : GostPool} {roots : List GostCertificate} :
    extractGOSTRoots pool = .ok roots ↔ pool = .certs roots ∧ roots ≠ [] := by
  cases pool with
  | nil => simp [extractGOSTRoots]
  | wrongType t => simp [extractGOSTRoots]
  | certs l =>
      rw [extractGOSTRoots]
      constructor
      · intro h
        split at h
        · cases h
        · rename_i hne
          cases h
          exact ⟨rfl, fun hnil => hne (List.length_eq_zero_iff.mpr hnil)⟩
      · rintro ⟨⟨⟩, hne⟩
        rw [if_neg (fun hlen => hne (List.length_eq_zero_iff.mp hlen))]

/-- **`verifyChain` trusts a leaf** in these ways, and no other. -/
theorem verifyChain_ok_iff {env : Env} {params : ClientParams} {gc : GostCertificate}
    {rawInter : List Bytes} {chains : List (List X509Certificate)} :
    verifyChain env params gc rawInter = .ok chains ↔ Trusted env params gc rawInter chains := by
  have hgostInter : ∀ wire, parseGOSTIntermediates env rawInter = .ok wire ↔
      List.Forall₂ (fun der c => env.parseX509Gost der = .ok c) rawInter wire := by
    intro wire
    simp only [parseGOSTIntermediates, mapM_eq_ok, annotate_eq_ok]
  have hinter : ∀ wire, parseStdlibIntermediates env rawInter = .ok wire ↔
      List.Forall₂ (fun der c => env.parseX509 der = .ok c) rawInter wire := by
    intro wire
    simp only [parseStdlibIntermediates, mapM_eq_ok, annotate_eq_ok]
  unfold verifyChain
  constructor
  · intro h
    by_cases hskip : params.insecureSkipVerify = true
    · rw [if_pos hskip] at h
      cases h
      exact .skipped hskip
    rw [if_neg hskip] at h
    by_cases hgost : gc.isGOST = true
    · rw [if_pos hgost] at h
      obtain ⟨roots, hroots, h⟩ := bind_eq_ok.mp h
      obtain ⟨configured, hconfigured, h⟩ := bind_eq_ok.mp h
      obtain ⟨wire, hwire, h⟩ := bind_eq_ok.mp h
      obtain ⟨gostChains, hverify, h⟩ := bind_eq_ok.mp h
      obtain ⟨hpool, hne⟩ := extractGOSTRoots_eq_ok.mp hroots
      cases h
      exact .gost (Bool.eq_false_of_not_eq_true hskip) hgost hpool hne hconfigured ((hgostInter _).mp hwire)
        (annotate_eq_ok.mp hverify)
    · rw [if_neg hgost] at h
      obtain ⟨wire, hwire, h⟩ := bind_eq_ok.mp h
      exact .stdlib (Bool.eq_false_of_not_eq_true hskip) (Bool.eq_false_of_not_eq_true hgost)
        ((hinter _).mp hwire) (annotate_eq_ok.mp h)
  · intro h
    cases h with
    | skipped hskip => rw [if_pos hskip, pure_eq]
    | gost hskip hgost hroots hne hconfigured hwire hverify =>
        rw [hskip, hgost, if_neg Bool.false_ne_true, if_pos rfl, extractGOSTRoots_eq_ok.mpr ⟨hroots, hne⟩,
          ok_bind, hconfigured, ok_bind, (hgostInter _).mpr hwire, ok_bind, annotate_eq_ok.mpr hverify,
          ok_bind, pure_eq]
    | stdlib hskip hgost hwire hverify =>
        rw [hskip, hgost, if_neg Bool.false_ne_true, if_neg Bool.false_ne_true, (hinter _).mpr hwire, ok_bind,
          annotate_eq_ok.mpr hverify]

/-- The Certificate message of a flight parses, its chain is trusted, and the application has no
    objection. -/
def ChainAccepted (env : Env) (params : ClientParams) (body : Bytes) (gc : GostCertificate) : Prop :=
  ∃ rawLeaf rawInter chains, parseCertificate body = .ok ⟨rawLeaf :: rawInter⟩ ∧
    env.parseX509Gost rawLeaf = .ok gc ∧ Trusted env params gc rawInter chains ∧
    ∀ verify ∈ params.verifyPeerCertificate, verify (rawLeaf :: rawInter) chains = .ok ()

/-- **What the client accepts**: a flight that answers its ClientHello, with a chain that verifies and
    parameters that are signed where the suite needs them. -/
structure Acceptable (env : Env) (params : ClientParams) (n : Negotiated) (f : ServerFlight)
    (gc : GostCertificate) (keyParams : Bytes) (req : Option CertificateRequest) : Prop where
  hello : ∃ sh, Negotiates env params f.hello sh ∧ lookup env.hashes sh.cipherSuite = some n.suite ∧
    sh.random = n.serverRandom
  certificate : ChainAccepted env params f.certificate gc
  keyExchange : Exchanges env gc.stdlib n f.keyExchange keyParams
  request : Requests f.request req

/-- The most that the client's own messages take up in the transcript: its ClientHello, the three of its
    second flight, each in one record, and its Finished. -/
def clientShare : Nat := 4 * tlsMaxPlaintextLen + (hsEnvelopeSize + 32)

/-- **A server that the client has no reason to refuse**, when it has chosen its random value: the flight
    is acceptable, both ends agree on what the key exchange comes to, and the transcript does not outgrow
    the client's limit. -/
structure Peer.Welcome (env : Env) (params : ClientParams) (p : Peer) (clientRandom : Random)
    (gc : GostCertificate) (keyParams : Bytes) (req : Option CertificateRequest) : Prop where
  acceptable : Acceptable env params ⟨p.suite, clientRandom, p.random⟩ (p.flight clientRandom) gc keyParams
    req
  recovered : RecoveredBy (p.recover clientRandom)
    (leafKeyExchange env gc ⟨p.suite, clientRandom, p.random⟩ keyParams)
  size : (envelopes (p.flight clientRandom).messages).length + clientShare ≤ maxTranscriptBytes

/-- A signature with a private key. -/
def PrivateKey.sign (env : Env) (key : PrivateKey) (cryptoHash : CryptoHash) (digest : Bytes) :
    Entropy → Except Err Bytes × Entropy :=
  match key with
  | .rsa k     => env.rsaSignPKCS1v15 k cryptoHash digest
  | .ecdsa _ k => env.ecdsaSignASN1 k digest
  | .other t   => fun e => (.error (errUnsupportedKeyType.detail (" " ++ t)), e)

/-- **What the client can say**: its ClientHello and its certificate fit in a record, and so does what it
    signs. -/
structure ClientParams.Usable (env : Env) (params : ClientParams) : Prop where
  hello : ∀ clientRandom, (marshalMessage (.clientHello (clientHello params clientRandom))).length ≤
    tlsMaxPlaintextLen
  certificate : ∀ cert ∈ params.certificates,
    (marshalMessage (.certificate ⟨[cert.rawCertificate]⟩)).length ≤ tlsMaxPlaintextLen
  sign : ∀ cert ∈ params.certificates, ∀ alg cryptoHash, keyCompatible cert.privateKey alg = true →
    hashForSigAlg alg.hash = .ok cryptoHash → ∀ (log : Bytes) (e : Entropy), e.Reliable → ∃ sig e',
      cert.privateKey.sign env cryptoHash ((cryptoHash.new env.hashes).sum log) e = (.ok sig, e') ∧
      e'.Reliable ∧ (marshalMessage (.certificateVerify ⟨alg, sig⟩)).length ≤ tlsMaxPlaintextLen

/-- A way to cut handshake data into records: nothing is added or lost, and no record is empty or too
    long. -/
structure Frames (frame : Bytes → List Bytes) : Prop where
  flatten : ∀ b, (frame b).flatten = b
  nonempty : ∀ b, [] ∉ frame b
  short : ∀ b, ∀ payload ∈ frame b, payload.length ≤ tlsMaxPlaintextLen

end Gostls

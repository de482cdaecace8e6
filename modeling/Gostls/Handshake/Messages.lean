import Gostls.Handshake.Extensions
import Gostls.Suites.KeySchedule

/-!
# `Gostls.Handshake.Messages` — the handshake messages, their encoders and parsers

A handshake message is a body behind a 4-byte envelope: one byte of type, three of length.
`marshalMessage` builds it from a message, `buildEnvelope` from a type and a body, and `parseMessage`
takes it apart and hands the body to the parser of its type.

* `parseMessage_buildEnvelope_append` — what becomes of an envelope in front of other bytes;
* `parseMessage_buildEnvelope` — a rebuilt envelope is parsed as the body it was built from;
* `parseServerHelloDone_ok`, `parseFinished_ok` — the two parsers that read the whole body.
-/

namespace Gostls

open Lib

/-! ## Message types -/

def typeHelloRequest : UInt8 := 0
def typeClientHello : UInt8 := 1
def typeServerHello : UInt8 := 2
def typeCertificate : UInt8 := 11
def typeServerKeyExchange : UInt8 := 12
def typeCertificateRequest : UInt8 := 13
def typeServerHelloDone : UInt8 := 14
def typeCertificateVerify : UInt8 := 15
def typeClientKeyExchange : UInt8 := 16
def typeFinished : UInt8 := 20

def hsEnvelopeSize : Nat := 4
def maxSessionIDLen : Nat := 32
def certEntryOverhead : Nat := 3

/-- `[32]byte` -/
abbrev Random := { b : Bytes // b.length = tlsRandomLen }

/-- `copy(random[:], b)` into a zeroed array. -/
def Random.copy (b : Bytes) : Random := ⟨fit tlsRandomLen b, fit_length ..⟩

/-! ## Errors -/

def errMsgHeaderTruncated : Err := .new "handshake: truncated message header (need 4 bytes)"
def errMsgBodyTruncated : Err := .new "handshake: truncated message body"
def errUnknownMsgType : Err := .new "handshake: unknown message type"
def errServerHelloNonEmptySNI : Err :=
  .new "handshake: ServerHello server_name extension must be empty"
def errCHSessionIDTooLong : Err := .new "handshake: ClientHello session_id length exceeds 32"
def errCHCSOddByteCount : Err := .new "handshake: ClientHello cipher_suites has odd byte count"
def errCHCSAtLeastOne : Err := .new "handshake: ClientHello cipher_suites must have at least one suite"
def errCHCMAtLeastOne : Err :=
  .new "handshake: ClientHello compression_methods must have at least one method"
def errSHSessionIDTooLong : Err := .new "handshake: ServerHello session_id length exceeds 32"
def errCertEntryZeroLen : Err := .new "handshake: Certificate entry has zero length"
def errSHDNonEmptyBody : Err := .new "handshake: ServerHelloDone body must be empty"
def errHelloRequestNonEmptyBody : Err := .new "handshake: HelloRequest body must be empty"
def errCRSAOddByteCount : Err :=
  .new "handshake: CertificateRequest supported_signature_algorithms has odd byte count"
def errFinishedVerifyLen : Err := .new "handshake: Finished: verify_data length must be 12 or 32"
def errCHTrailingData : Err := .new "handshake: ClientHello: trailing bytes after extensions"
def errSHTrailingData : Err := .new "handshake: ServerHello: trailing bytes after extensions"
def errCertTrailingData : Err :=
  .new "handshake: Certificate: trailing bytes after certificate_list"
def errTrailingHandshakeBytes : Err := .new "handshake: trailing bytes after message body"

/-! ## ClientHello -/

structure ClientHello where
  version : UInt16
  random : Random
  sessionID : Bytes
  cipherSuites : List UInt16
  compressionMethods : List UInt8
  serverName : Bytes
  supportedGroups : List UInt16
  ecPointFormats : List UInt8
  signatureAlgorithms : List SigAndHash
  extendedMasterSecret : Bool
  renegotiationInfo : Bool
  deriving DecidableEq, Repr

def ClientHello.marshal (m : ClientHello) : Bytes :=
  let out := appendUint16 [] m.version
  let out := out ++ m.random.val
  let out := appendLenPrefixed8 out m.sessionID
  let out := appendUint16 out (UInt16.ofNat (pairSize * m.cipherSuites.length))
  let out := m.cipherSuites.foldl appendUint16 out
  let out := appendLenPrefixed8 out m.compressionMethods
  out ++ marshalExtensions
    { serverName := m.serverName, supportedGroups := m.supportedGroups,
      ecPointFormats := m.ecPointFormats, signatureAlgorithms := m.signatureAlgorithms,
      extendedMasterSecret := m.extendedMasterSecret, renegotiationInfo := m.renegotiationInfo }

/-- The extensions of a hello: nothing when no byte remains, else one list that ends the body. -/
def parseHelloExtensions (site : String) (errTrailing : Err) (b : Bytes) :
    Except Err (ParsedExtensions × List UInt16) := do
  if b.length > 0 then
    let (extList, rest) ← annotate (site ++ " extensions") (readLenPrefixed16 b)
    if rest.length ≠ 0 then
      throw (errTrailing.detail (": " ++ toString rest.length ++ " bytes"))
    parseExtensions extList
  else return ({}, [])

def parseClientHello (b : Bytes) : Except Err ClientHello := do
  let (version, b) ← annotate "handshake: ClientHello version" (readUint16 b)
  let (rawRandom, b) ← annotate "handshake: ClientHello random" (readBytes b tlsRandomLen)
  let (sessionID, b) ← annotate "handshake: ClientHello session_id" (readLenPrefixed8 b)
  if sessionID.length > maxSessionIDLen then
    throw (errCHSessionIDTooLong.detail (": " ++ toString sessionID.length))
  let (csBytes, b) ← annotate "handshake: ClientHello cipher_suites" (readLenPrefixed16 b)
  if csBytes.length % 2 ≠ 0 then
    throw (errCHCSOddByteCount.detail (": " ++ toString csBytes.length))
  if csBytes.length < pairSize then throw errCHCSAtLeastOne
  let cipherSuites ← readPairs uint16Of csBytes (csBytes.length / pairSize)
  let (compressionMethods, b) ← annotate "handshake: ClientHello compression_methods"
    (readLenPrefixed8 b)
  if compressionMethods.length = 0 then throw errCHCMAtLeastOne
  let (ext, _) ← parseHelloExtensions "handshake: ClientHello" errCHTrailingData b
  return { version, random := .copy rawRandom, sessionID, cipherSuites, compressionMethods,
           serverName := ext.serverName, supportedGroups := ext.supportedGroups,
           ecPointFormats := ext.ecPointFormats, signatureAlgorithms := ext.signatureAlgorithms,
           extendedMasterSecret := ext.extendedMasterSecret,
           renegotiationInfo := ext.renegotiationInfo }

/-! ## ServerHello -/

structure ServerHello where
  version : UInt16
  random : Random
  sessionID : Bytes
  cipherSuite : UInt16
  compressionMethod : UInt8
  extendedMasterSecret : Bool
  renegotiationInfo : Bool
  /-- The extension types present, in the order received. -/
  extensionTypes : List UInt16
  deriving DecidableEq, Repr

def ServerHello.marshal (m : ServerHello) : Bytes :=
  let out := appendUint16 [] m.version
  let out := out ++ m.random.val
  let out := appendLenPrefixed8 out m.sessionID
  let out := appendUint16 out m.cipherSuite
  let out := appendUint8 out m.compressionMethod
  out ++ marshalExtensions
    { extendedMasterSecret := m.extendedMasterSecret, renegotiationInfo := m.renegotiationInfo }

def parseServerHello (b : Bytes) : Except Err ServerHello := do
  let (version, b) ← annotate "handshake: ServerHello version" (readUint16 b)
  let (rawRandom, b) ← annotate "handshake: ServerHello random" (readBytes b tlsRandomLen)
  let (sessionID, b) ← annotate "handshake: ServerHello session_id" (readLenPrefixed8 b)
  if sessionID.length > maxSessionIDLen then
    throw (errSHSessionIDTooLong.detail (": " ++ toString sessionID.length))
  let (cipherSuite, b) ← annotate "handshake: ServerHello cipher_suite" (readUint16 b)
  let (compressionMethod, b) ← annotate "handshake: ServerHello compression_method" (readUint8 b)
  let (ext, seen) ← parseHelloExtensions "handshake: ServerHello" errSHTrailingData b
  if ext.serverName ≠ [] then throw errServerHelloNonEmptySNI
  return { version, random := .copy rawRandom, sessionID, cipherSuite, compressionMethod,
           extendedMasterSecret := ext.extendedMasterSecret,
           renegotiationInfo := ext.renegotiationInfo, extensionTypes := seen }

/-! ## Certificate -/

structure Certificate where
  rawCerts : List Bytes
  deriving DecidableEq, Repr

def Certificate.marshal (m : Certificate) : Bytes :=
  let innerLen := m.rawCerts.foldl (fun n c => n + (certEntryOverhead + c.length)) 0
  m.rawCerts.foldl (fun out c => appendUint24 out c.length ++ c) (appendUint24 [] innerLen)

/-- The loop over the certificate list. -/
def parseCertificateList : Nat → Bytes → List Bytes → Except Err (List Bytes)
  | 0,          _,         rawCerts => .ok rawCerts
  | rounds + 1, listBytes, rawCerts => do
    if listBytes.length = 0 then return rawCerts
    let (certBytes, rest) ← annotate "handshake: Certificate entry" (readLenPrefixed24 listBytes)
    if certBytes.length = 0 then throw errCertEntryZeroLen
    parseCertificateList rounds rest (rawCerts ++ [certBytes])

def parseCertificate (b : Bytes) : Except Err Certificate := do
  let (listBytes, rest) ← annotate "handshake: Certificate list" (readLenPrefixed24 b)
  if rest.length ≠ 0 then
    throw (errCertTrailingData.detail (": " ++ toString rest.length ++ " bytes"))
  let rawCerts ← parseCertificateList listBytes.length listBytes []
  return { rawCerts }

/-! ## The messages with an opaque or empty body -/

/-- ServerKeyExchange and ClientKeyExchange: the inner structure depends on the suite. -/
structure KeyExchangeMessage where
  body : Bytes
  deriving DecidableEq, Repr

def parseHelloRequest (b : Bytes) : Except Err Unit := do
  if b.length ≠ 0 then
    throw (errHelloRequestNonEmptyBody.detail (", got " ++ toString b.length ++ " bytes"))

def parseServerHelloDone (b : Bytes) : Except Err Unit := do
  if b.length ≠ 0 then throw (errSHDNonEmptyBody.detail (", got " ++ toString b.length ++ " bytes"))

/-! ## CertificateRequest -/

structure CertificateRequest where
  certificateTypes : List UInt8
  supportedSignatureAlgs : List SigAndHash
  certificateAuthorities : List Bytes
  deriving DecidableEq, Repr

/-- The loop over the distinguished names. -/
def parseCertificateAuthorities : Nat → Bytes → List Bytes → Except Err (List Bytes)
  | 0,          _,        names => .ok names
  | rounds + 1, casBytes, names => do
    if casBytes.length = 0 then return names
    let (dn, rest) ← annotate "handshake: CertificateRequest certificate_authorities entry"
      (readLenPrefixed16 casBytes)
    parseCertificateAuthorities rounds rest (names ++ [dn])

def parseCertificateRequest (b : Bytes) : Except Err CertificateRequest := do
  let (certificateTypes, b) ← annotate "handshake: CertificateRequest certificate_types"
    (readLenPrefixed8 b)
  let (sigAlgsBytes, b) ← annotate "handshake: CertificateRequest supported_signature_algorithms"
    (readLenPrefixed16 b)
  if sigAlgsBytes.length % 2 ≠ 0 then
    throw (errCRSAOddByteCount.detail (": " ++ toString sigAlgsBytes.length))
  let supportedSignatureAlgs ← readPairs SigAndHash.mk sigAlgsBytes (sigAlgsBytes.length / pairSize)
  let (casBytes, tail) ← annotate "handshake: CertificateRequest certificate_authorities"
    (readLenPrefixed16 b)
  if tail.length ≠ 0 then
    throw (errTrailingHandshakeBytes.detail
      (": " ++ toString tail.length ++ " trailing bytes after CertificateRequest"))
  let certificateAuthorities ← parseCertificateAuthorities casBytes.length casBytes []
  return { certificateTypes, supportedSignatureAlgs, certificateAuthorities }

/-! ## CertificateVerify and Finished -/

structure CertificateVerify where
  algorithm : SigAndHash
  signature : Bytes
  deriving DecidableEq, Repr

def CertificateVerify.marshal (m : CertificateVerify) : Bytes :=
  let out := appendUint8 [] m.algorithm.hash
  let out := appendUint8 out m.algorithm.sig
  appendLenPrefixed16 out m.signature

/-- Bytes behind the signature are ignored. -/
def parseCertificateVerify (b : Bytes) : Except Err CertificateVerify := do
  let (hash, b) ← annotate "handshake: CertificateVerify hash" (readUint8 b)
  let (sig, b) ← annotate "handshake: CertificateVerify sig" (readUint8 b)
  let (signature, _) ← annotate "handshake: CertificateVerify signature" (readLenPrefixed16 b)
  return { algorithm := ⟨hash, sig⟩, signature }

structure Finished where
  verifyData : Bytes
  deriving DecidableEq, Repr

def parseFinished (b : Bytes) : Except Err Finished := do
  if b.length ≠ 12 ∧ b.length ≠ 32 then
    throw (errFinishedVerifyLen.detail (", have " ++ toString b.length))
  return { verifyData := b }

/-! ## Messages -/

/-- The implementations of the `Message` interface. -/
inductive Message
  | helloRequest
  | clientHello (m : ClientHello)
  | serverHello (m : ServerHello)
  | certificate (m : Certificate)
  | serverKeyExchange (m : KeyExchangeMessage)
  | certificateRequest (m : CertificateRequest)
  | serverHelloDone
  | clientKeyExchange (m : KeyExchangeMessage)
  | certificateVerify (m : CertificateVerify)
  | finished (m : Finished)
  deriving DecidableEq, Repr

namespace Message

/-- `Type()` -/
def type : Message → UInt8
  | .helloRequest         => typeHelloRequest
  | .clientHello _        => typeClientHello
  | .serverHello _        => typeServerHello
  | .certificate _        => typeCertificate
  | .serverKeyExchange _  => typeServerKeyExchange
  | .certificateRequest _ => typeCertificateRequest
  | .serverHelloDone      => typeServerHelloDone
  | .clientKeyExchange _  => typeClientKeyExchange
  | .certificateVerify _  => typeCertificateVerify
  | .finished _           => typeFinished

/-- `Marshal()`; the client never sends a CertificateRequest. -/
def marshal : Message → Bytes
  | .helloRequest         => []
  | .clientHello m        => m.marshal
  | .serverHello m        => m.marshal
  | .certificate m        => m.marshal
  | .serverKeyExchange m  => m.body
  | .certificateRequest _ => []
  | .serverHelloDone      => []
  | .clientKeyExchange m  => m.body
  | .certificateVerify m  => m.marshal
  | .finished m           => m.verifyData

/-- `fmt.Sprintf("%T", m)` -/
def goType : Message → String
  | .helloRequest         => "*handshake.HelloRequest"
  | .clientHello _        => "*handshake.ClientHello"
  | .serverHello _        => "*handshake.ServerHello"
  | .certificate _        => "*handshake.Certificate"
  | .serverKeyExchange _  => "*handshake.ServerKeyExchange"
  | .certificateRequest _ => "*handshake.CertificateRequest"
  | .serverHelloDone      => "*handshake.ServerHelloDone"
  | .clientKeyExchange _  => "*handshake.ClientKeyExchange"
  | .certificateVerify _  => "*handshake.CertificateVerify"
  | .finished _           => "*handshake.Finished"

end Message

/-- A message behind its envelope. -/
def marshalMessage (m : Message) : Bytes :=
  let body := m.marshal
  let out := appendUint8 [] m.type
  let out := appendUint24 out body.length
  out ++ body

/-- A body behind the envelope of its type. -/
def buildEnvelope (msgType : UInt8) (body : Bytes) : Bytes :=
  msgType :: toBE 3 body.length ++ body

/-- The `switch` on the message type. -/
def parseBody (msgType : UInt8) (body : Bytes) : Except Err Message :=
  if msgType = typeHelloRequest then do
    parseHelloRequest body
    return .helloRequest
  else if msgType = typeClientHello then do return .clientHello (← parseClientHello body)
  else if msgType = typeServerHello then do return .serverHello (← parseServerHello body)
  else if msgType = typeCertificate then do return .certificate (← parseCertificate body)
  else if msgType = typeServerKeyExchange then return .serverKeyExchange ⟨body⟩
  else if msgType = typeCertificateRequest then do
    return .certificateRequest (← parseCertificateRequest body)
  else if msgType = typeServerHelloDone then do
    parseServerHelloDone body
    return .serverHelloDone
  else if msgType = typeClientKeyExchange then return .clientKeyExchange ⟨body⟩
  else if msgType = typeCertificateVerify then do
    return .certificateVerify (← parseCertificateVerify body)
  else if msgType = typeFinished then do return .finished (← parseFinished body)
  else throw (errUnknownMsgType.detail (" " ++ toString msgType))

/-- One message off the front of `data`, and what remains. -/
def parseMessage (data : Bytes) : Except Err (Message × Bytes) := do
  if data.length < hsEnvelopeSize then
    throw (errMsgHeaderTruncated.detail (" (have " ++ toString data.length ++ ")"))
  let msgType ← index data 0
  let b1 ← index data 1
  let b2 ← index data 2
  let b3 ← index data 3
  let bodyLen := ofBE [b1, b2, b3]
  let data ← sliceFrom data hsEnvelopeSize
  if data.length % 2 ^ 32 < bodyLen then
    throw (errMsgBodyTruncated.detail
      (": declared " ++ toString bodyLen ++ " bytes, have " ++ toString data.length))
  let body ← sliceTo data bodyLen
  let remaining ← sliceFrom data bodyLen
  let msg ← parseBody msgType body
  return (msg, remaining)

/-! ## What the parsers read -/

@[simp] theorem buildEnvelope_length (msgType : UInt8) (body : Bytes) :
    (buildEnvelope msgType body).length = hsEnvelopeSize + body.length := by
  simp [buildEnvelope, hsEnvelopeSize]
  omega

theorem marshalMessage_eq (m : Message) : marshalMessage m = buildEnvelope m.type m.marshal := rfl

/-- **An envelope in front of `rest`**: the body goes to its parser and `rest` remains, unless the number
    of bytes behind the header, cut to 32 bits, is below the length of the body. -/
theorem parseMessage_buildEnvelope_append {msgType : UInt8} {body : Bytes} (h : body.length < 2 ^ 24)
    (rest : Bytes) :
    parseMessage (buildEnvelope msgType body ++ rest) =
      if (body ++ rest).length % 2 ^ 32 < body.length then
        .error (errMsgBodyTruncated.detail
          (": declared " ++ toString body.length ++ " bytes, have " ++ toString (body ++ rest).length))
      else parseBody msgType body >>= fun m => .ok (m, rest) := by
  have hlen : ¬ (buildEnvelope msgType body ++ rest).length < hsEnvelopeSize := by
    rw [List.length_append, buildEnvelope_length]
    omega
  have hdrop : sliceFrom (buildEnvelope msgType body ++ rest) hsEnvelopeSize = .ok (body ++ rest) := by
    rw [sliceFrom_eq (Nat.not_lt.mp hlen)]
    rfl
  -- The three length bytes are read back one by one.
  have h0 : index (buildEnvelope msgType body ++ rest) 0 = .ok msgType := rfl
  have h1 : index (buildEnvelope msgType body ++ rest) 1 =
      .ok (UInt8.ofNat (body.length / 256 / 256)) := rfl
  have h2 : index (buildEnvelope msgType body ++ rest) 2 = .ok (UInt8.ofNat (body.length / 256)) := rfl
  have h3 : index (buildEnvelope msgType body ++ rest) 3 = .ok (UInt8.ofNat body.length) := rfl
  have hbe : ofBE [UInt8.ofNat (body.length / 256 / 256), UInt8.ofNat (body.length / 256),
      UInt8.ofNat body.length] = body.length := ofBE_toBE_of_lt (k := 3) (by simpa using h)
  simp only [parseMessage, if_neg hlen, h0, h1, h2, h3, ok_bind, hdrop, hbe, sliceTo_append rfl,
    sliceFrom_append rfl, throw_eq, error_bind, pure_eq]

/-- **A rebuilt envelope is parsed as the body it was built from**, and nothing remains. -/
theorem parseMessage_buildEnvelope {msgType : UInt8} {body : Bytes} (h : body.length < 2 ^ 24) :
    parseMessage (buildEnvelope msgType body) =
      (parseBody msgType body >>= fun m => .ok (m, [])) := by
  have happ := @parseMessage_buildEnvelope_append msgType body h []
  rw [List.append_nil, List.append_nil] at happ
  rw [happ, if_neg (by omega)]

/-- What a parsed message says about the parser of its type. -/
theorem parsed_of_wrapped {α : Type} {parsed : Except Err α} {wrap : α → Message} {m : α}
    (hwrap : ∀ a b, wrap a = wrap b → a = b) (h : (parsed >>= fun m => pure (wrap m)) = .ok (wrap m)) :
    parsed = .ok m := by
  obtain ⟨m', hm, heq⟩ := bind_eq_ok.mp h
  rw [hm, hwrap m' m (Except.ok.inj heq)]

theorem parseBody_serverHello {body : Bytes} {m : ServerHello}
    (h : parseBody typeServerHello body = .ok (.serverHello m)) : parseServerHello body = .ok m :=
  parsed_of_wrapped (fun _ _ => Message.serverHello.inj) h

theorem parseBody_certificate {body : Bytes} {m : Certificate}
    (h : parseBody typeCertificate body = .ok (.certificate m)) : parseCertificate body = .ok m :=
  parsed_of_wrapped (fun _ _ => Message.certificate.inj) h

theorem parseBody_certificateRequest {body : Bytes} {m : CertificateRequest}
    (h : parseBody typeCertificateRequest body = .ok (.certificateRequest m)) :
    parseCertificateRequest body = .ok m :=
  parsed_of_wrapped (fun _ _ => Message.certificateRequest.inj) h

theorem parseBody_certificateVerify {body : Bytes} {m : CertificateVerify}
    (h : parseBody typeCertificateVerify body = .ok (.certificateVerify m)) :
    parseCertificateVerify body = .ok m :=
  parsed_of_wrapped (fun _ _ => Message.certificateVerify.inj) h

theorem parseBody_finished {body : Bytes} {m : Finished}
    (h : parseBody typeFinished body = .ok (.finished m)) : parseFinished body = .ok m :=
  parsed_of_wrapped (fun _ _ => Message.finished.inj) h

theorem parseBody_serverHelloDone {body : Bytes} {m : Message}
    (h : parseBody typeServerHelloDone body = .ok m) : parseServerHelloDone body = .ok () := by
  obtain ⟨_, hm, -⟩ := bind_eq_ok.mp (show (parseServerHelloDone body >>= _) = _ from h)
  exact hm

theorem parseServerHelloDone_ok {b : Bytes} (h : parseServerHelloDone b = .ok ()) : b = [] := by
  unfold parseServerHelloDone at h
  split at h
  · cases h
  · rename_i hb
    exact List.length_eq_zero_iff.mp (by omega)

theorem parseFinished_ok {b : Bytes} {m : Finished} (h : parseFinished b = .ok m) :
    m.verifyData = b := by
  unfold parseFinished at h
  split at h
  · cases h
  · cases h
    rfl

end Gostls

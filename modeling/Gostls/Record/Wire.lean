import Gostls.Go

/-!
# `Gostls.Record.Wire` — record headers, content types and alerts

The vocabulary of the record layer: the four content types, the 5-byte header, the bounds on
fragment lengths, the alert codes with their 2-byte encoding, and the additional data every
protector authenticates.
-/

namespace Gostls

open Lib

/-! ## Content types and versions -/

def contentTypeChangeCipherSpec : UInt8 := 20
def contentTypeAlert : UInt8 := 21
def contentTypeHandshake : UInt8 := 22
def contentTypeApplicationData : UInt8 := 23

/-- The four content types of TLS 1.2. -/
def isKnownContentType (ct : UInt8) : Bool :=
  ct = contentTypeChangeCipherSpec || ct = contentTypeAlert || ct = contentTypeHandshake ||
    ct = contentTypeApplicationData

def tlsVersionHi : UInt8 := 3
def tlsVersionLo : UInt8 := 3
def recordVersionMajor : UInt8 := 3
def recordVersionMinTLS10 : UInt8 := 1

/-- Record-header versions accepted from the peer: TLS 1.0 to TLS 1.2. -/
def isAcceptedRecordVersion (verHi verLo : UInt8) : Bool :=
  verHi = recordVersionMajor && recordVersionMinTLS10 ≤ verLo && verLo ≤ tlsVersionLo

def tlsMaxPlaintextLen : Nat := 16384
def tlsMaxCiphertextOverhead : Nat := 2048
def maxFragmentLen : Nat := tlsMaxPlaintextLen + tlsMaxCiphertextOverhead
def recordHeaderLen : Nat := 5

/-! ## Headers -/

/-- A record header, `[recordHeaderLen]byte`. -/
structure Header where
  contentType : UInt8
  verHi : UInt8
  verLo : UInt8
  lenHi : UInt8
  lenLo : UInt8
  deriving DecidableEq, Repr

namespace Header

/-- `hdr[:]` -/
def bytes (h : Header) : Bytes := [h.contentType, h.verHi, h.verLo, h.lenHi, h.lenLo]

/-- `hdr[0:3]` -/
def typeVersion (h : Header) : Bytes := [h.contentType, h.verHi, h.verLo]

/-- `binary.BigEndian.Uint16(hdr[3:5])` -/
def length (h : Header) : Nat := ofBE [h.lenHi, h.lenLo]

/-- `binary.BigEndian.PutUint16(hdr[3:5], uint16(n))` -/
def putLength (h : Header) (n : Nat) : Header :=
  { h with lenHi := UInt8.ofNat (n / 256), lenLo := UInt8.ofNat n }

/-- Read a header off its five bytes. -/
def ofBytes : Bytes → Header
  | [ct, vh, vl, lh, ll] => ⟨ct, vh, vl, lh, ll⟩
  | _                    => ⟨0, 0, 0, 0, 0⟩

/-- The header `WriteRecord` starts from, with a placeholder for the length. -/
def template (ct : UInt8) : Header := ⟨ct, tlsVersionHi, tlsVersionLo, 0, 0⟩

@[simp] theorem ofBytes_bytes (h : Header) : ofBytes h.bytes = h := rfl
@[simp] theorem bytes_length (h : Header) : h.bytes.length = recordHeaderLen := rfl

theorem bytes_ofBytes {b : Bytes} (h : b.length = recordHeaderLen) : (ofBytes b).bytes = b := by
  match b, h with
  | [_, _, _, _, _], _ => rfl

@[simp] theorem putLength_contentType (h : Header) (n : Nat) :
    (h.putLength n).contentType = h.contentType := rfl
@[simp] theorem putLength_verHi (h : Header) (n : Nat) : (h.putLength n).verHi = h.verHi := rfl
@[simp] theorem putLength_verLo (h : Header) (n : Nat) : (h.putLength n).verLo = h.verLo := rfl
@[simp] theorem putLength_typeVersion (h : Header) (n : Nat) :
    (h.putLength n).typeVersion = h.typeVersion := rfl

/-- **The length field carries every length that fits in 16 bits.** -/
theorem length_putLength (h : Header) {n : Nat} (hn : n < 65536) : (h.putLength n).length = n := by
  have hhi : n / 256 < 256 := by omega
  simp only [length, putLength, ofBE, List.foldl_cons, List.foldl_nil, UInt8.toNat_ofNat']
  omega

end Header

/-! ## Additional data -/

/-- The MAC additional data: `seq_num (8) || type (1) || version (2) || length (2)`. -/
def macAdditionalData (seq : UInt64) (hdr : Header) (plainLen : Nat) : Bytes :=
  toBE 8 seq.toNat ++ hdr.typeVersion ++ toBE 2 plainLen

/-- The AEAD additional data, of the same layout. -/
def buildAD (seq : UInt64) (hdr : Header) (plainLen : Nat) : Bytes :=
  toBE 8 seq.toNat ++ hdr.typeVersion ++ toBE 2 plainLen

/-- **The additional data binds** the sequence number, the type, the version and the length. -/
theorem buildAD_inj {s s' : UInt64} {h h' : Header} {n n' : Nat}
    (hn : n < 65536) (hn' : n' < 65536) (had : buildAD s h n = buildAD s' h' n') :
    s = s' ∧ h.typeVersion = h'.typeVersion ∧ n = n' := by
  unfold buildAD at had
  obtain ⟨hl, hlen⟩ := List.append_inj had (by simp [Header.typeVersion])
  obtain ⟨hseq, htv⟩ := List.append_inj hl (by simp)
  refine ⟨?_, htv, toBE_inj hn hn' hlen⟩
  exact UInt64.toNat_inj.mp (toBE_inj s.toNat_lt s'.toNat_lt hseq)

/-! ## Alerts -/

def alertLevelWarning : UInt8 := 1
def alertLevelFatal : UInt8 := 2

def alertCloseNotify : UInt8 := 0
def alertUnexpectedMessage : UInt8 := 10
def alertBadRecordMAC : UInt8 := 20
def alertRecordOverflow : UInt8 := 22
def alertHandshakeFailure : UInt8 := 40
def alertBadCertificate : UInt8 := 42
def alertIllegalParameter : UInt8 := 47
def alertDecryptError : UInt8 := 51
def alertProtocolVersion : UInt8 := 70
def alertInternalError : UInt8 := 80
def alertUnsupportedExtension : UInt8 := 110

/-- The 2-byte alert body. -/
def encodeAlert (level description : UInt8) : Bytes := [level, description]

/-- The level and description of an alert body; callers check that it has two bytes. -/
def decodeAlert (b : Bytes) : Except Err (UInt8 × UInt8) := do
  let level ← index b 0
  let description ← index b 1
  return (level, description)

/-- An `AlertError` of fatal level. -/
def newFatalAlertError (description : UInt8) : Err := .alert alertLevelFatal description

theorem throws_alert {α : Type} (description : UInt8) :
    Throws Err.Local (.error (newFatalAlertError description) : Except Err α) :=
  .error (fun _ h => nomatch h)

/-- A `RecordError` that ends the connection. -/
def fatalRecordError (msg : String) : Err := .record true msg

end Gostls

import Gostls.Handshake.Wire

/-!
# `Gostls.Handshake.Extensions` — the hello extensions

The six extensions the code knows, each with its parser and its encoder, and the loop over an
extension list. A Go string is the sequence of its bytes.

Every loop of a parser eats at least one byte per round, so the length of its input bounds the
rounds.
-/

namespace Gostls

open Lib

def extServerName : UInt16 := 0x0000
def extSupportedGroups : UInt16 := 0x000A
def extECPointFormats : UInt16 := 0x000B
def extSignatureAlgorithms : UInt16 := 0x000D
def extExtendedMasterSecret : UInt16 := 0x0017
def extRenegotiationInfo : UInt16 := 0xFF01

def sniMinEntry : Nat := 3
def extHeaderSize : Nat := 4
def sniHostNameType : UInt8 := 0x00
def pairSize : Nat := 2

/-- A `SignatureAndHashAlgorithm`. -/
structure SigAndHash where
  hash : UInt8
  sig : UInt8
  deriving DecidableEq, Repr

/-- What the recognised extensions of a hello say. -/
structure ParsedExtensions where
  serverName : Bytes := []
  supportedGroups : List UInt16 := []
  ecPointFormats : List UInt8 := []
  signatureAlgorithms : List SigAndHash := []
  extendedMasterSecret : Bool := false
  renegotiationInfo : Bool := false
  deriving DecidableEq, Repr

/-! ## Errors -/

def errExtHeaderTruncated : Err := .new "handshake: truncated extension header (need 4 bytes)"
def errExtBodyTruncated : Err := .new "handshake: extension body truncated"
def errExtUnknown : Err := .new "handshake: unknown extension"
def errDuplicateExtension : Err := .new "handshake: duplicate extension type"
def errSNITruncatedListLen : Err := .new "handshake: server_name: truncated list length"
def errSNIListLenExceeds : Err := .new "handshake: server_name: list length exceeds available bytes"
def errSNITruncatedEntry : Err := .new "handshake: server_name: truncated name entry"
def errSNINameLenExceeds : Err := .new "handshake: server_name: host_name length exceeds list length"
def errSNIUnsupportedNameType : Err :=
  .new "handshake: server_name: unsupported name_type (only host_name=0x00 is supported)"
def errSGTruncatedListLen : Err := .new "handshake: supported_groups: truncated list length"
def errSGListLenExceeds : Err := .new "handshake: supported_groups: list length exceeds available bytes"
def errSGOddListLen : Err := .new "handshake: supported_groups: odd list length (must be even)"
def errEPFTruncatedListLen : Err := .new "handshake: ec_point_formats: truncated list length"
def errEPFListLenExceeds : Err := .new "handshake: ec_point_formats: list length exceeds available bytes"
def errSATruncatedListLen : Err := .new "handshake: signature_algorithms: truncated list length"
def errSAListLenExceeds : Err :=
  .new "handshake: signature_algorithms: list length exceeds available bytes"
def errSAOddListLen : Err := .new "handshake: signature_algorithms: odd list length (must be even)"
def errEMSNonEmptyBody : Err := .new "handshake: extended_master_secret: expected empty body"
def errRITruncatedBody : Err := .new "handshake: renegotiation_info: truncated body"
def errRIDeclaredLenExceeds : Err :=
  .new "handshake: renegotiation_info: declared length exceeds available bytes"
def errRINonEmpty : Err :=
  .new "handshake: renegotiation_info: non-empty renegotiated_connection; renegotiation is not supported"
def errRITrailingBytes : Err :=
  .new "handshake: renegotiation_info: trailing bytes after renegotiated_connection"

/-- `": %d exceeds available %d bytes"` -/
def exceedsAvailable (declared have_ : Nat) : String :=
  ": " ++ toString declared ++ " exceeds available " ++ toString have_ ++ " bytes"

/-! ## Lists of pairs -/

/-- `for i := range n { out[i] = mk(list[2*i], list[2*i+1]) }` -/
def readPairs {α : Type} (mk : UInt8 → UInt8 → α) (list : Bytes) (n : Nat) : Except Err (List α) :=
  (List.range n).mapM (fun i => do
    let x ← index list (pairSize * i)
    let y ← index list (pairSize * i + 1)
    return mk x y)

/-- A 16-bit list length, then that many bytes of pairs. -/
def parsePairList {α : Type} (errTruncated errExceeds errOdd : Err) (mk : UInt8 → UInt8 → α)
    (b : Bytes) : Except Err (List α) := do
  if b.length < 2 then throw errTruncated
  let pfx ← sliceTo b 2
  let listLen := ofBE pfx
  let b ← sliceFrom b 2
  if b.length < listLen then throw (errExceeds.detail (exceedsAvailable listLen b.length))
  if listLen % 2 ≠ 0 then throw (errOdd.detail (": " ++ toString listLen))
  let list ← sliceTo b listLen
  readPairs mk list (listLen / pairSize)

/-! ## Parsers of the extension bodies -/

/-- The loop over the name list: the last host name wins. -/
def parseServerNameList : Nat → Bytes → Bytes → Except Err Bytes
  | 0,          _,    hostName => .ok hostName
  | rounds + 1, list, hostName => do
    if list.length = 0 then return hostName
    if list.length < sniMinEntry then throw errSNITruncatedEntry
    let nameType ← index list 0
    let pfx ← slice list 1 sniMinEntry
    let nameLen := ofBE pfx
    let list ← sliceFrom list sniMinEntry
    if list.length < nameLen then
      throw (errSNINameLenExceeds.detail
        (": " ++ toString nameLen ++ " exceeds list length " ++ toString list.length))
    let name ← sliceTo list nameLen
    let list ← sliceFrom list nameLen
    if nameType ≠ sniHostNameType then
      throw (errSNIUnsupportedNameType.detail (": got 0x" ++ hex02 nameType))
    parseServerNameList rounds list name

def parseServerName (b : Bytes) : Except Err Bytes := do
  -- The acknowledgement of a ServerHello has an empty body.
  if b.length = 0 then return []
  if b.length < 2 then throw errSNITruncatedListLen
  let pfx ← sliceTo b 2
  let listLen := ofBE pfx
  let b ← sliceFrom b 2
  if b.length < listLen then throw (errSNIListLenExceeds.detail (exceedsAvailable listLen b.length))
  let list ← sliceTo b listLen
  parseServerNameList list.length list []

def parseSupportedGroups (b : Bytes) : Except Err (List UInt16) :=
  parsePairList errSGTruncatedListLen errSGListLenExceeds errSGOddListLen uint16Of b

def parseECPointFormats (b : Bytes) : Except Err (List UInt8) := do
  if b.length < 1 then throw errEPFTruncatedListLen
  let len ← index b 0
  let listLen := len.toNat
  let b ← sliceFrom b 1
  if b.length < listLen then throw (errEPFListLenExceeds.detail (exceedsAvailable listLen b.length))
  sliceTo b listLen

def parseSignatureAlgorithms (b : Bytes) : Except Err (List SigAndHash) :=
  parsePairList errSATruncatedListLen errSAListLenExceeds errSAOddListLen SigAndHash.mk b

def parseExtendedMasterSecret (b : Bytes) : Except Err Unit := do
  if b.length ≠ 0 then throw (errEMSNonEmptyBody.detail (", got " ++ toString b.length ++ " bytes"))

def parseRenegotiationInfo (b : Bytes) : Except Err Unit := do
  if b.length < 1 then throw errRITruncatedBody
  let len ← index b 0
  let riLen := len.toNat
  let b ← sliceFrom b 1
  if b.length < riLen then
    throw (errRIDeclaredLenExceeds.detail
      (": declared " ++ toString riLen ++ " bytes, have " ++ toString b.length))
  if riLen ≠ 0 then throw (errRINonEmpty.detail (" (" ++ toString riLen ++ " bytes)"))
  if b.length ≠ riLen then
    throw (errRITrailingBytes.detail (": " ++ toString (b.length - riLen) ++ " trailing bytes"))

/-! ## The extension list -/

/-- The `switch` on the extension type. -/
def parseExtension (extType : UInt16) (extBody : Bytes) (out : ParsedExtensions) :
    Except Err ParsedExtensions :=
  if extType = extServerName then do
    let serverName ← parseServerName extBody
    return { out with serverName }
  else if extType = extSupportedGroups then do
    let supportedGroups ← parseSupportedGroups extBody
    return { out with supportedGroups }
  else if extType = extECPointFormats then do
    let ecPointFormats ← parseECPointFormats extBody
    return { out with ecPointFormats }
  else if extType = extSignatureAlgorithms then do
    let signatureAlgorithms ← parseSignatureAlgorithms extBody
    return { out with signatureAlgorithms }
  else if extType = extExtendedMasterSecret then do
    parseExtendedMasterSecret extBody
    return { out with extendedMasterSecret := true }
  else if extType = extRenegotiationInfo then do
    parseRenegotiationInfo extBody
    return { out with renegotiationInfo := true }
  else throw (errExtUnknown.detail (" 0x" ++ hex04 extType))

/-- The loop of `parseExtensions`: `seen` are the types met so far, in order. -/
def parseExtensionsLoop : Nat → Bytes → ParsedExtensions → List UInt16 →
    Except Err (ParsedExtensions × List UInt16)
  | 0,          _,       out, seen => .ok (out, seen)
  | rounds + 1, extData, out, seen => do
    if extData.length = 0 then return (out, seen)
    if extData.length < extHeaderSize then
      throw (errExtHeaderTruncated.detail (", have " ++ toString extData.length))
    let typeBytes ← sliceTo extData 2
    let lenBytes ← slice extData 2 extHeaderSize
    let extType := beUint16 typeBytes
    let extLen := ofBE lenBytes
    if seen.contains extType then throw (errDuplicateExtension.detail (" 0x" ++ hex04 extType))
    let extData ← sliceFrom extData extHeaderSize
    if extData.length < extLen then
      throw (errExtBodyTruncated.detail (" 0x" ++ hex04 extType ++ ": declared " ++ toString extLen ++
        " bytes, have " ++ toString extData.length))
    let extBody ← sliceTo extData extLen
    let extData ← sliceFrom extData extLen
    let out ← parseExtension extType extBody out
    parseExtensionsLoop rounds extData out (seen ++ [extType])

/-- The extensions of a hello, and their types in the order received. -/
def parseExtensions (extData : Bytes) : Except Err (ParsedExtensions × List UInt16) :=
  parseExtensionsLoop extData.length extData {} []

/-! ## Encoders -/

def marshalServerName (name : Bytes) : Bytes :=
  let entryLen := sniMinEntry + name.length
  let out := appendUint16 [] (UInt16.ofNat entryLen)
  let out := appendUint8 out sniHostNameType
  let out := appendUint16 out (UInt16.ofNat name.length)
  out ++ name

def marshalSupportedGroups (groups : List UInt16) : Bytes :=
  groups.foldl appendUint16 (appendUint16 [] (UInt16.ofNat (pairSize * groups.length)))

def marshalECPointFormats (formats : List UInt8) : Bytes :=
  appendUint8 [] (UInt8.ofNat formats.length) ++ formats

def marshalSignatureAlgorithms (pairs : List SigAndHash) : Bytes :=
  pairs.foldl (fun out p => appendUint8 (appendUint8 out p.hash) p.sig)
    (appendUint16 [] (UInt16.ofNat (pairSize * pairs.length)))

def appendExtension (dst : Bytes) (extType : UInt16) (body : Bytes) : Bytes :=
  let dst := appendUint16 dst extType
  let dst := appendUint16 dst (UInt16.ofNat body.length)
  dst ++ body

/-- The extension list behind its length, in the canonical order; nothing when there is none. -/
def marshalExtensions (ext : ParsedExtensions) : Bytes :=
  let out : Bytes := []
  let out := if ext.serverName ≠ [] then
    appendExtension out extServerName (marshalServerName ext.serverName) else out
  let out := if ext.supportedGroups.length > 0 then
    appendExtension out extSupportedGroups (marshalSupportedGroups ext.supportedGroups) else out
  let out := if ext.ecPointFormats.length > 0 then
    appendExtension out extECPointFormats (marshalECPointFormats ext.ecPointFormats) else out
  let out := if ext.signatureAlgorithms.length > 0 then
    appendExtension out extSignatureAlgorithms (marshalSignatureAlgorithms ext.signatureAlgorithms)
    else out
  let out := if ext.extendedMasterSecret then appendExtension out extExtendedMasterSecret [] else out
  let out := if ext.renegotiationInfo then appendExtension out extRenegotiationInfo [0x00] else out
  if out.length = 0 then [] else appendUint16 [] (UInt16.ofNat out.length) ++ out

end Gostls

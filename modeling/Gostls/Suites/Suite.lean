import Gostls.Lib.Crypto
import Gostls.Go

/-!
# `Gostls.Suites.Suite` — the cipher suite registry

A suite is data: its key exchange, its authentication, its cipher, its MAC lengths and the hash of its
PRF. The registry is the list of all suites in registration order; a lookup is by IANA identifier.

The hash functions themselves are outside the repository, so the registry takes them as `Hashes`.
-/

namespace Gostls

open Lib

/-! ## The parts of a suite -/

/-- The key exchange of a suite. `other` stands for the values of the byte that have no name. -/
inductive KexKind
  | rsa
  | dhe
  | ecdhe
  | gost2001
  | gost2012_256
  | gost2018_256
  | other (n : UInt8)
  deriving DecidableEq, Repr

/-- The value of the `iota` constant. -/
def KexKind.code : KexKind → Nat
  | .rsa          => 0
  | .dhe          => 1
  | .ecdhe        => 2
  | .gost2001     => 3
  | .gost2012_256 => 4
  | .gost2018_256 => 5
  | .other n      => n.toNat

/-- The authentication of a suite. -/
inductive AuthKind
  | rsa
  | ecdsa
  | anonymous
  | gost2001
  | gost2012_256
  deriving DecidableEq, Repr

/-- The ciphers the code tells apart by name. -/
inductive CipherName
  | aes128CBC
  | aes256CBC
  | aes128GCM
  | aes256GCM
  | chacha20Poly1305
  | gost28147CNT
  | kuznyechikCTROMAC
  | magmaCTROMAC
  | other (name : String)
  deriving DecidableEq, Repr

def CipherName.text : CipherName → String
  | .aes128CBC         => "AES-128-CBC"
  | .aes256CBC         => "AES-256-CBC"
  | .aes128GCM         => "AES-128-GCM"
  | .aes256GCM         => "AES-256-GCM"
  | .chacha20Poly1305  => "CHACHA20-POLY1305"
  | .gost28147CNT      => "GOST28147-CNT"
  | .kuznyechikCTROMAC => "KUZNYECHIK-CTR-OMAC"
  | .magmaCTROMAC      => "MAGMA-CTR-OMAC"
  | .other name        => name

structure CipherSpec where
  name : CipherName
  keyLen : Nat
  fixedIVLen : Nat
  aead : Bool
  deriving DecidableEq, Repr

structure MACSpec where
  keyLen : Nat
  macLen : Nat
  deriving DecidableEq, Repr

/-- `hash` is the hash factory; `none` is the nil function. -/
structure PRFSpec where
  hash : Option Hash

/-- A cipher suite. -/
structure Suite where
  id : UInt16
  name : String
  kx : KexKind
  auth : AuthKind
  cipher : CipherSpec
  mac : MACSpec
  prf : PRFSpec

/-- The hash functions the suites and the signature algorithms use. -/
structure Hashes where
  sha1 : Hash
  sha256 : Hash
  sha384 : Hash
  sha512 : Hash
  gostR341194 : Hash
  streebog256 : Hash

/-! ## The registry -/

def specAES128GCM : CipherSpec := ⟨.aes128GCM, 16, 4, true⟩
def specAES256GCM : CipherSpec := ⟨.aes256GCM, 32, 4, true⟩
def specCHACHA20POLY1305 : CipherSpec := ⟨.chacha20Poly1305, 32, 12, true⟩
def specAES256CBC : CipherSpec := ⟨.aes256CBC, 32, 16, false⟩
def specAES128CBC : CipherSpec := ⟨.aes128CBC, 16, 16, false⟩
def specGOST28147CNT : CipherSpec := ⟨.gost28147CNT, 32, 8, false⟩
def specKuznyechikCTROMAC : CipherSpec := ⟨.kuznyechikCTROMAC, 32, 8, false⟩
def specMagmaCTROMAC : CipherSpec := ⟨.magmaCTROMAC, 32, 4, false⟩

def specHMACSHA384 : MACSpec := ⟨48, 48⟩
def specHMACSHA256 : MACSpec := ⟨32, 32⟩
def specHMACSHA1 : MACSpec := ⟨20, 20⟩
def specNoMAC : MACSpec := ⟨0, 0⟩
def specGOST28147IMIT : MACSpec := ⟨32, 4⟩
def specKuznyechikOMAC : MACSpec := ⟨32, 16⟩
def specMagmaOMAC : MACSpec := ⟨32, 8⟩

section Registry

variable (h : Hashes)

def specPRFSHA256 : PRFSpec := ⟨some h.sha256⟩
def specPRFSHA384 : PRFSpec := ⟨some h.sha384⟩
def specPRFGOSTR341194 : PRFSpec := ⟨some h.gostR341194⟩
def specPRFStreebog256 : PRFSpec := ⟨some h.streebog256⟩

def registerECDHESuites : List Suite :=
  [⟨0xC02C, "ECDHE-ECDSA-AES256-GCM-SHA384", .ecdhe, .ecdsa, specAES256GCM, specNoMAC, specPRFSHA384 h⟩,
   ⟨0xCCA9, "ECDHE-ECDSA-CHACHA20-POLY1305", .ecdhe, .ecdsa, specCHACHA20POLY1305, specNoMAC,
    specPRFSHA256 h⟩,
   ⟨0xC02B, "ECDHE-ECDSA-AES128-GCM-SHA256", .ecdhe, .ecdsa, specAES128GCM, specNoMAC, specPRFSHA256 h⟩,
   ⟨0xC030, "ECDHE-RSA-AES256-GCM-SHA384", .ecdhe, .rsa, specAES256GCM, specNoMAC, specPRFSHA384 h⟩,
   ⟨0xCCA8, "ECDHE-RSA-CHACHA20-POLY1305", .ecdhe, .rsa, specCHACHA20POLY1305, specNoMAC,
    specPRFSHA256 h⟩,
   ⟨0xC02F, "ECDHE-RSA-AES128-GCM-SHA256", .ecdhe, .rsa, specAES128GCM, specNoMAC, specPRFSHA256 h⟩,
   ⟨0xC024, "ECDHE-ECDSA-AES256-SHA384", .ecdhe, .ecdsa, specAES256CBC, specHMACSHA384, specPRFSHA384 h⟩,
   ⟨0xC023, "ECDHE-ECDSA-AES128-SHA256", .ecdhe, .ecdsa, specAES128CBC, specHMACSHA256, specPRFSHA256 h⟩,
   ⟨0xC028, "ECDHE-RSA-AES256-SHA384", .ecdhe, .rsa, specAES256CBC, specHMACSHA384, specPRFSHA384 h⟩,
   ⟨0xC027, "ECDHE-RSA-AES128-SHA256", .ecdhe, .rsa, specAES128CBC, specHMACSHA256, specPRFSHA256 h⟩,
   ⟨0xC00A, "ECDHE-ECDSA-AES256-SHA", .ecdhe, .ecdsa, specAES256CBC, specHMACSHA1, specPRFSHA256 h⟩,
   ⟨0xC009, "ECDHE-ECDSA-AES128-SHA", .ecdhe, .ecdsa, specAES128CBC, specHMACSHA1, specPRFSHA256 h⟩,
   ⟨0xC014, "ECDHE-RSA-AES256-SHA", .ecdhe, .rsa, specAES256CBC, specHMACSHA1, specPRFSHA256 h⟩,
   ⟨0xC013, "ECDHE-RSA-AES128-SHA", .ecdhe, .rsa, specAES128CBC, specHMACSHA1, specPRFSHA256 h⟩]

def registerDHERSASuites : List Suite :=
  [⟨0x009F, "DHE-RSA-AES256-GCM-SHA384", .dhe, .rsa, specAES256GCM, specNoMAC, specPRFSHA384 h⟩,
   ⟨0xCCAA, "DHE-RSA-CHACHA20-POLY1305", .dhe, .rsa, specCHACHA20POLY1305, specNoMAC, specPRFSHA256 h⟩,
   ⟨0x009E, "DHE-RSA-AES128-GCM-SHA256", .dhe, .rsa, specAES128GCM, specNoMAC, specPRFSHA256 h⟩,
   ⟨0x006B, "DHE-RSA-AES256-SHA256", .dhe, .rsa, specAES256CBC, specHMACSHA256, specPRFSHA256 h⟩,
   ⟨0x0067, "DHE-RSA-AES128-SHA256", .dhe, .rsa, specAES128CBC, specHMACSHA256, specPRFSHA256 h⟩,
   ⟨0x0039, "DHE-RSA-AES256-SHA", .dhe, .rsa, specAES256CBC, specHMACSHA1, specPRFSHA256 h⟩,
   ⟨0x0033, "DHE-RSA-AES128-SHA", .dhe, .rsa, specAES128CBC, specHMACSHA1, specPRFSHA256 h⟩]

def registerRSAKxSuites : List Suite :=
  [⟨0x009D, "AES256-GCM-SHA384", .rsa, .rsa, specAES256GCM, specNoMAC, specPRFSHA384 h⟩,
   ⟨0x009C, "AES128-GCM-SHA256", .rsa, .rsa, specAES128GCM, specNoMAC, specPRFSHA256 h⟩,
   ⟨0x003D, "AES256-SHA256", .rsa, .rsa, specAES256CBC, specHMACSHA256, specPRFSHA256 h⟩,
   ⟨0x003C, "AES128-SHA256", .rsa, .rsa, specAES128CBC, specHMACSHA256, specPRFSHA256 h⟩,
   ⟨0x0035, "AES256-SHA", .rsa, .rsa, specAES256CBC, specHMACSHA1, specPRFSHA256 h⟩,
   ⟨0x002F, "AES128-SHA", .rsa, .rsa, specAES128CBC, specHMACSHA1, specPRFSHA256 h⟩]

def registerGOSTSuites : List Suite :=
  [⟨0x0081, "GOST2001-GOST89-GOST89", .gost2001, .gost2001, specGOST28147CNT, specGOST28147IMIT,
    specPRFGOSTR341194 h⟩,
   ⟨0xFF85, "GOST2012-GOST8912-GOST8912", .gost2012_256, .gost2012_256, specGOST28147CNT,
    specGOST28147IMIT, specPRFStreebog256 h⟩,
   ⟨0xC102, "IANA-GOST2012-GOST8912-GOST8912", .gost2012_256, .gost2012_256, specGOST28147CNT,
    specGOST28147IMIT, specPRFStreebog256 h⟩,
   ⟨0xC100, "GOST2012-KUZNYECHIK-KUZNYECHIKOMAC", .gost2018_256, .gost2012_256, specKuznyechikCTROMAC,
    specKuznyechikOMAC, specPRFStreebog256 h⟩,
   ⟨0xC101, "GOST2012-MAGMA-MAGMAOMAC", .gost2018_256, .gost2012_256, specMagmaCTROMAC, specMagmaOMAC,
    specPRFStreebog256 h⟩]

-- The package's files are initialised in name order, `gost_suites.go` before `registry.go`.
/-- `All()`: the registered suites in registration order. -/
def registry : List Suite :=
  registerGOSTSuites h ++ registerECDHESuites h ++ registerDHERSASuites h ++ registerRSAKxSuites h

/-- `Lookup(id)` -/
def lookup (id : UInt16) : Option Suite := (registry h).find? (·.id = id)

variable {h}

/-- **A lookup finds a registered suite** of the identifier asked for. -/
theorem lookup_ok {id : UInt16} {suite : Suite} (hl : lookup h id = some suite) :
    suite ∈ registry h ∧ suite.id = id := by
  have hid := List.find?_some hl
  exact ⟨List.mem_of_find?_eq_some hl, by simpa using hid⟩

/-- Only the hash of its PRF depends on the implementations: the rest of a suite is the same over any. -/
theorem registry_any {suite : Suite} (hs : suite ∈ registry h) (h' : Hashes) :
    ∃ other ∈ registry h', other.id = suite.id ∧ other.kx = suite.kx ∧ other.cipher = suite.cipher := by
  have hshape : (registry h).map (fun s => (s.id, s.kx, s.cipher)) =
      (registry h').map (fun s => (s.id, s.kx, s.cipher)) := rfl
  have hmem : (suite.id, suite.kx, suite.cipher) ∈ (registry h').map (fun s => (s.id, s.kx, s.cipher)) :=
    hshape ▸ List.mem_map_of_mem hs
  obtain ⟨other, hother, heq⟩ := List.mem_map.mp hmem
  exact ⟨other, hother, congrArg (·.1) heq, congrArg (·.2.1) heq, congrArg (·.2.2) heq⟩

end Registry

/-- The cipher names of the default configuration. -/
def availableCipherNames : List CipherName :=
  [.aes128CBC, .aes256CBC, .aes128GCM, .aes256GCM, .chacha20Poly1305]

/-- The identifiers offered when the configuration names none. -/
def availableSuites (h : Hashes) : List UInt16 :=
  ((registry h).filter (fun s => s.cipher.name ∈ availableCipherNames)).map (·.id)

end Gostls

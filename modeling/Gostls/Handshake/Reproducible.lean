import Gostls.Handshake.Entropy

/-!
# `Gostls.Handshake.Reproducible` — when the configured reader decides what a client sends

`Config.Rand` is there "to produce deterministic handshake bytes". `Reproducible` states that of two runs
which differ in the system's reader only.

* `clientBytes_confined` — it is so when every suite on offer is `Confined`;
* `leaks` — for every other registered suite there is a server with which it is not;
* `reproducible_iff` — so the documentation is right of exactly the configurations that offer confined
  suites only.
-/

namespace Gostls

open Lib

/-! ## What the client writes -/

/-- The bytes of a handshake: what a fresh client has written, with a configured reader and one of the
    system's, when its handshake is over. -/
def clientBytes (env : Env) (params : ClientParams) (input : Reader) (output : Writer)
    (config system : Entropy) : Bytes :=
  (endState (handshake env) (freshClient params input output system (some config))).layer.output.output

/-- **What `Config.Rand` promises**: of two runs with the same configuration, the same configured reader
    and the same bytes of the server, the client writes the same, whatever the system's reader returns. Asked
    of all configurations that offer such suites. -/
def Reproducible (offers : UInt16 → Prop) : Prop :=
  ∀ (env : Env) (params : ClientParams) (input : Reader) (output : Writer) (config sys₁ sys₂ : Entropy),
    (∀ id ∈ params.offeredSuites, offers id) →
      clientBytes env params input output config sys₁ = clientBytes env params input output config sys₂

/-- **Confined suites keep the promise.** -/
theorem clientBytes_confined {env : Env} {params : ClientParams}
    (h : ∀ id ∈ params.offeredSuites, ∀ suite, lookup env.hashes id = some suite → suite.Confined)
    (input : Reader) (output : Writer) (config sys₁ sys₂ : Entropy) :
    clientBytes env params input output config sys₁ = clientBytes env params input output config sys₂ := by
  have hguarded : Guarded env (freshClient params input output sys₁ (some config)) :=
    ⟨rfl, trivial, fun _ hsuite => (nomatch hsuite), h⟩
  have hend : endState (handshake env) (freshClient params input output sys₂ (some config)) =
      (endState (handshake env) (freshClient params input output sys₁ (some config))).withSystem sys₂ :=
    (handshake_ignores env sys₂ _ hguarded).endState_eq
  unfold clientBytes
  rw [hend]
  rfl

/-! ## A server for each of the others

The keys, signatures and ciphers of the environment below are stand-ins that accept everything. What it
has to show is drawn in the open anyway: the public value of a ClientKeyExchange, and the IV in front of a
CBC record. -/

def wideHash : Hash where
  size := 32
  blockSize := 1
  sum := fun _ => List.replicate 32 0
  sum_length := fun _ => List.length_replicate

/-- The leaf `[2]` holds an ECDSA key, the leaf `[3]` a GOST key, every other an RSA key. -/
def leakyLeaf (raw : Bytes) : GostCertificate :=
  if raw = [2] then ⟨⟨raw, .ecdsa raw⟩, false, false, [], [], []⟩
  else if raw = [3] then ⟨⟨raw, .other "nil"⟩, true, true, [1, 2], [1], [0x30, 3, 0x06, 1, 0x2A]⟩
  else ⟨⟨raw, .rsa raw⟩, false, false, [], [], []⟩

/-- A private key is its own public key: an exponent of DHE by its residue, a GOST key as the one byte it
    is read as. -/
def leakyEnv : Env := { Env.sample with
  hashes := ⟨wideHash, wideHash, wideHash, wideHash, wideHash, wideHash⟩
  newAESCipher := fun _ => .ok .identity
  bigmod := { Env.sample.bigmod with exp := fun _ e m => ofBE e % m }
  gost := { Env.sample.gost with
    generateEphemeralKey := fun _ r =>
      match RandM.readFull 1 r with
      | (.ok b, r)    => (.ok (b, b), r)
      | (.error e, r) => (.error e, r)
    vko2001OnCurve := fun _ _ _ _ => .ok (List.replicate 32 0)
    vko2012_256OnCurve := fun _ _ _ _ => .ok (List.replicate 32 0)
    keyWrapCryptoPro := fun _ _ _ _ => .ok (List.replicate 44 0)
    keg2012_256 := fun _ _ _ _ => .ok (List.replicate 64 0) }
  parseX509Gost := fun raw => .ok (leakyLeaf raw) }

def leakyLeafOf : AuthKind → UInt8
  | .ecdsa                    => 2
  | .gost2001 | .gost2012_256 => 3
  | .rsa | .anonymous         => 1

/-- Any point of X25519 for ECDHE, and a modulus of 2048 bits for DHE. -/
def leakyKeyExchange (suite : Suite) : List (UInt8 × Bytes) :=
  let sig : Bytes := [4, if suite.auth = .ecdsa then 3 else 1, 0, 0]
  match suite.kx with
  | .ecdhe => [(typeServerKeyExchange, [3, 0, 0x1D, 1, 9] ++ sig)]
  | .dhe   => [(typeServerKeyExchange,
      encodeU16 (0x80 :: List.replicate 254 0 ++ [23]) ++ encodeU16 [5] ++ encodeU16 [2] ++ sig)]
  | _      => []

/-- One record with the server's first flight, which chooses the suite. -/
def leakyStream (suite : Suite) : Bytes :=
  let flight := envelopes
    ([(typeServerHello, [3, 3] ++ List.replicate 32 5 ++ 0 :: toBE 2 suite.id.toNat ++ [0]),
      (typeCertificate, [0, 0, 4, 0, 0, 1, leakyLeafOf suite.auth])] ++ leakyKeyExchange suite ++
      [(typeServerHelloDone, [])])
  [contentTypeHandshake, 3, 3] ++ toBE 2 flight.length ++ flight

/-- What the client sends to that server when the system's reader repeats a byte. -/
def leakyBytes (suite : Suite) (b : UInt8) : Bytes :=
  clientBytes leakyEnv { ClientParams.sample with offeredSuites := [suite.id] }
    (ofBytes (leakyStream suite)) ⟨[], []⟩ ⟨fun _ => .ok 7, 0⟩ ⟨fun _ => .ok b, 0⟩

/-- **Every other suite breaks it.** -/
theorem leaks : ∀ suite ∈ registry leakyEnv.hashes, ¬ suite.Confined →
    leakyBytes suite 0 ≠ leakyBytes suite 1 := by
  decide +kernel

/-- With AES128-SHA alone on offer, the Finished record starts with an IV of the system's reader. -/
theorem cbc_iv_bypasses_rand :
    clientBytes leakyEnv { ClientParams.sample with offeredSuites := [0x002F] }
        (ofBytes ([22, 3, 3, 0, 57] ++
          ([2, 0, 0, 38, 3, 3] ++ List.replicate 32 5 ++ [0, 0, 0x2F, 0]) ++
          [11, 0, 0, 7, 0, 0, 4, 0, 0, 1, 1] ++ [14, 0, 0, 0])) ⟨[], []⟩
        ⟨fun _ => .ok 7, 0⟩ ⟨fun _ => .ok 0, 0⟩ ≠
      clientBytes leakyEnv { ClientParams.sample with offeredSuites := [0x002F] }
        (ofBytes ([22, 3, 3, 0, 57] ++
          ([2, 0, 0, 38, 3, 3] ++ List.replicate 32 5 ++ [0, 0, 0x2F, 0]) ++
          [11, 0, 0, 7, 0, 0, 4, 0, 0, 1, 1] ++ [14, 0, 0, 0])) ⟨[], []⟩
        ⟨fun _ => .ok 7, 0⟩ ⟨fun _ => .ok 1, 0⟩ := by
  decide +kernel

/-- **`Config.Rand` makes a handshake reproducible** for exactly those sets of suites to offer whose
    registered members are all confined: an ECDHE or RSA key exchange, and no CBC cipher. -/
theorem reproducible_iff (offers : UInt16 → Prop) :
    Reproducible offers ↔
      ∀ id, offers id → ∀ hashes suite, lookup hashes id = some suite → suite.Confined := by
  constructor
  · intro hrepr id hid hashes suite hlookup
    by_contra hleaky
    obtain ⟨hmem, rfl⟩ := lookup_ok hlookup
    -- The environment has its own hashes, but the same suite otherwise.
    obtain ⟨other, hother, hid', hkx, hcipher⟩ := registry_any hmem leakyEnv.hashes
    have hleaky' : ¬ other.Confined := by
      unfold Suite.Confined at hleaky ⊢
      rwa [hkx, hcipher]
    apply leaks other hother hleaky'
    apply hrepr
    intro id' hoffered
    rw [List.mem_singleton.mp hoffered, hid']
    exact hid
  · intro hconfined env params input output config sys₁ sys₂ hoffers
    apply clientBytes_confined
    intro id hmem suite hlookup
    exact hconfined id (hoffers id hmem) env.hashes suite hlookup

end Gostls

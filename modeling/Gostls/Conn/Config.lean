import Gostls.Conn.Concurrent
import Gostls.Handshake.Client

/-!
# `Gostls.Conn.Config` — from a configuration to a handshake

`config.go`, and `doHandshake` of `conn.go`: what a connection makes of its `Config` before the first
byte is sent. The roots, the client's certificates, the suites and the server's name are checked in this
order, and the first that is wrong ends the handshake.

`Config.Resolves` says what a configuration comes to, without the order of the checks;
`clientParams_ok_iff` is the connection between the two.
-/

namespace Gostls

open Lib

def errNoSuites : Err := .new "tls: no cipher suites available for negotiation"
def errNoServerName : Err :=
  .new "tls: no ServerName and InsecureSkipVerify is false; cannot verify server identity"
def errRootCAsMutuallyExclusive : Err :=
  .new "tls: Config.RootCAs and Config.RootCAPEMs are mutually exclusive; set only one"
def errRootCAPEMParseFailed : Err := .new "tls: RootCAPEMs: failed to parse certificate"
def errRootCAPEMNoCerts : Err := .new "tls: RootCAPEMs: no CERTIFICATE blocks found"
def errCertUnsupportedKeyType : Err := .new
  "tls: Certificates: PrivateKey has unsupported type; want *rsa.PrivateKey or *ecdsa.PrivateKey"
def errCertEmptyRaw : Err := .new "tls: Certificates: RawCertificate is empty"

/-! ## The configuration -/

/-- `Certificate` of `config.go`. -/
structure Config.Certificate where
  /-- `none` is the nil pointer. -/
  certificate : Option X509Certificate
  rawCertificate : Bytes
  privateKey : PrivateKey

/-- A configuration. Where the code tells nil from empty, `none` is nil. -/
structure Config where
  rootCAs : Option (List X509Certificate)
  rootCAPEMs : List Bytes
  gostRoots : Option (List GostCertificate)
  gostIntermediates : Option (List GostCertificate)
  certificates : List Config.Certificate
  serverName : Bytes
  cipherSuites : Option (List UInt16)
  insecureSkipVerify : Bool
  verifyPeerCertificate : Option (List Bytes → List (List X509Certificate) → Except Err Unit)
  rand : Option Entropy

/-- `&Config{}` -/
def Config.zero : Config where
  rootCAs := none
  rootCAPEMs := []
  gostRoots := none
  gostIntermediates := none
  certificates := []
  serverName := []
  cipherSuites := none
  insecureSkipVerify := false
  verifyPeerCertificate := none
  rand := none

/-- `encoding/pem`, and the pools of `crypto/x509`. -/
structure Pem where
  /-- `pem.Decode`: the type of the first block, and what is behind it. -/
  decode : Bytes → Option (String × Bytes)
  decode_lt : ∀ {b blockType rest}, decode b = some (blockType, rest) → rest.length < b.length
  /-- `pool.AppendCertsFromPEM`: whether a certificate was found, and the pool after it. -/
  appendCertsFromPEM : List X509Certificate → Bytes → Bool × List X509Certificate

/-- The loop that looks for a CERTIFICATE block. -/
def hasCertBlock (pem : Pem) : Nat → Bytes → Bool
  | 0, _ => false
  | rounds + 1, rest =>
    match pem.decode rest with
    | none                   => false
    | some (blockType, rest) => if blockType = "CERTIFICATE" then true else hasCertBlock pem rounds rest

/-- **The bound on the rounds is never what ends the loop.** -/
theorem hasCertBlock_rounds (pem : Pem) {r r' : Nat} {rest : Bytes} (h : rest.length < r)
    (h' : rest.length < r') : hasCertBlock pem r rest = hasCertBlock pem r' rest := by
  induction r generalizing r' rest with
  | zero => omega
  | succ r ih =>
      obtain ⟨r', rfl⟩ : ∃ n, r' = n + 1 := ⟨r' - 1, by omega⟩
      unfold hasCertBlock
      cases hdec : pem.decode rest with
      | none => rfl
      | some block =>
          obtain ⟨blockType, behind⟩ := block
          have hlt := pem.decode_lt hdec
          have hsame : hasCertBlock pem r behind = hasCertBlock pem r' behind := ih (by omega) (by omega)
          simp only [hsame]

/-- The loop of `rootCAPool`, from element `i` on. -/
def appendRootCAPEMs (pem : Pem) : Nat → List X509Certificate → List Bytes →
    Except Err (List X509Certificate)
  | _, pool, [] => .ok pool
  | i, pool, block :: blocks =>
    match pem.appendCertsFromPEM pool block with
    | (true, pool) => appendRootCAPEMs pem (i + 1) pool blocks
    | (false, _)   =>
      if hasCertBlock pem (block.length + 1) block then
        .error (.errorf ("tls: RootCAPEMs[" ++ toString i ++ "]") errRootCAPEMParseFailed)
      else .error (.errorf ("tls: RootCAPEMs[" ++ toString i ++ "]") errRootCAPEMNoCerts)

/-- The pool to verify the server with; `none` is the system's. -/
def Config.rootCAPool (pem : Pem) (c : Config) : Except Err (Option (List X509Certificate)) :=
  if c.rootCAs.isSome ∧ c.rootCAPEMs.length > 0 then .error errRootCAsMutuallyExclusive
  else if c.rootCAs.isSome then .ok c.rootCAs
  else if c.rootCAPEMs.length = 0 then .ok none
  else do
    let pool ← appendRootCAPEMs pem 0 [] c.rootCAPEMs
    return some pool

/-- The certificate as the handshake takes it. The parsed certificate is not kept: nothing behind this
    looks at it. -/
def Config.Certificate.forClient (cert : Config.Certificate) : ClientCertificate :=
  ⟨cert.rawCertificate, cert.privateKey⟩

/-- The body of the loop of `clientCerts`, for certificate `i`. -/
def Config.Certificate.convert (env : Env) (i : Nat) (cert : Config.Certificate) :
    Except Err ClientCertificate :=
  match cert.privateKey with
  | .rsa _ | .ecdsa _ _ =>
    if cert.rawCertificate.length = 0 then
      .error (.errorf ("tls: Certificates[" ++ toString i ++ "]") errCertEmptyRaw)
    else if cert.certificate.isNone then do
      let _ ← annotate ("tls: Certificates[" ++ toString i ++ "].RawCertificate")
        (env.parseX509 cert.rawCertificate)
      return cert.forClient
    else .ok cert.forClient
  | .other t =>
    .error (.errorf ("tls: Certificates[" ++ toString i ++ "].PrivateKey type " ++ t)
      errCertUnsupportedKeyType)

/-- The loop of `clientCerts`, from certificate `i` on. -/
def convertCerts (env : Env) : Nat → List Config.Certificate → Except Err (List ClientCertificate)
  | _, [] => .ok []
  | i, cert :: certs => do
    let cc ← cert.convert env i
    let rest ← convertCerts env (i + 1) certs
    return cc :: rest

def Config.clientCerts (env : Env) (c : Config) : Except Err (List ClientCertificate) :=
  convertCerts env 0 c.certificates

/-- A nil slice is a nil interface. -/
def gostCertsParam : Option (List GostCertificate) → GostPool
  | none       => .nil
  | some certs => .certs certs

/-- The first part of `doHandshake`: the parameters of the handshake. `serverNameFromDial` is the host of
    the dialed address, empty without one. -/
def Config.clientParams (env : Env) (pem : Pem) (c : Config) (serverNameFromDial : Bytes) :
    Except Err ClientParams := do
  let offeredSuites := c.cipherSuites.getD (availableSuites env.hashes)
  if offeredSuites.length = 0 then throw errNoSuites
  let rootCAs ← c.rootCAPool pem
  let certificates ← c.clientCerts env
  let serverName := if c.serverName = [] then serverNameFromDial else c.serverName
  if serverName = [] ∧ ¬ c.insecureSkipVerify then throw errNoServerName
  return {
    serverName
    offeredSuites
    rootCAs
    insecureSkipVerify := c.insecureSkipVerify
    verifyPeerCertificate := c.verifyPeerCertificate
    gostRoots := gostCertsParam c.gostRoots
    gostIntermediates := gostCertsParam c.gostIntermediates
    certificates }

/-- `doHandshake`: what it returns, and what it leaves of the layer. -/
def Config.doHandshake (env : Env) (pem : Pem) (c : Config) (serverNameFromDial : Bytes) (layer : Layer) :
    Except Err Unit × Layer :=
  match c.clientParams env pem serverNameFromDial with
  | .error e   => (.error e, layer)
  | .ok params =>
    match Gostls.handshake env (newClientState layer c.rand params) with
    | .ok _ s    => (.ok (), s.layer)
    | .error e s => (.error e, s.layer)

/-- A connection over a transport. -/
def newConn (env : Env) (pem : Pem) (config : Option Config) (serverNameFromDial : Bytes) (layer : Layer)
    (transportClose : Except Err Unit) : Conn where
  layer := layer
  doHandshake := (config.getD .zero).doHandshake env pem serverNameFromDial
  transportClose := transportClose
  handshakeDone := none
  closed := false
  readBuf := []
  readErr := none
  consumed := []
  emitted := []

theorem newConn_unused (env : Env) (pem : Pem) (config : Option Config) (serverNameFromDial : Bytes)
    (layer : Layer) (transportClose : Except Err Unit) :
    (newConn env pem config serverNameFromDial layer transportClose).Unused :=
  ⟨rfl, rfl, rfl, rfl, rfl, rfl⟩

/-! ## What a configuration comes to -/

/-- Each element of the PEM data adds to the pool. -/
inductive Appends (pem : Pem) : List X509Certificate → List Bytes → List X509Certificate → Prop
  | nil {pool : List X509Certificate} : Appends pem pool [] pool
  | cons {pool pool' all : List X509Certificate} {block : Bytes} {blocks : List Bytes}
      (h : pem.appendCertsFromPEM pool block = (true, pool')) (hrest : Appends pem pool' blocks all) :
      Appends pem pool (block :: blocks) all

/-- The roots of a configuration: those of a pool, or of PEM data, or the system's; not two of them. -/
inductive Config.Roots (pem : Pem) (c : Config) : Option (List X509Certificate) → Prop
  | system (hpool : c.rootCAs = none) (hpems : c.rootCAPEMs = []) : Roots pem c none
  | pool {pool : List X509Certificate} (hpool : c.rootCAs = some pool) (hpems : c.rootCAPEMs = []) :
      Roots pem c (some pool)
  | pems {pool : List X509Certificate} (hpool : c.rootCAs = none) (hpems : c.rootCAPEMs ≠ [])
      (h : Appends pem [] c.rootCAPEMs pool) : Roots pem c (some pool)

/-- A certificate that the client can send, with a key that it can sign with. -/
structure Config.Certificate.Usable (env : Env) (cert : Config.Certificate) : Prop where
  key : ∀ t, cert.privateKey ≠ .other t
  raw : cert.rawCertificate ≠ []
  parses : cert.certificate = none → ∃ x, env.parseX509 cert.rawCertificate = .ok x

/-- **What a configuration comes to**: the name of the server is the configured one, or else that of the
    dialed address, and there is one unless the server is not verified. -/
structure Config.Resolves (env : Env) (pem : Pem) (c : Config) (serverNameFromDial : Bytes)
    (params : ClientParams) : Prop where
  suites : params.offeredSuites = c.cipherSuites.getD (availableSuites env.hashes)
  offers : params.offeredSuites ≠ []
  roots : c.Roots pem params.rootCAs
  usable : ∀ cert ∈ c.certificates, cert.Usable env
  certificates : params.certificates = c.certificates.map Config.Certificate.forClient
  serverName : params.serverName = if c.serverName = [] then serverNameFromDial else c.serverName
  named : params.serverName ≠ [] ∨ c.insecureSkipVerify = true
  skip : params.insecureSkipVerify = c.insecureSkipVerify
  verify : params.verifyPeerCertificate = c.verifyPeerCertificate
  gostRoots : params.gostRoots = gostCertsParam c.gostRoots
  gostIntermediates : params.gostIntermediates = gostCertsParam c.gostIntermediates

section

variable {env : Env} {pem : Pem} {c : Config}

theorem appendRootCAPEMs_ok_iff {i : Nat} {pool all : List X509Certificate} {blocks : List Bytes} :
    appendRootCAPEMs pem i pool blocks = .ok all ↔ Appends pem pool blocks all := by
  induction blocks generalizing i pool with
  | nil =>
      constructor
      · intro h
        cases h
        exact .nil
      · rintro ⟨⟩
        rfl
  | cons block blocks ih =>
      rw [appendRootCAPEMs]
      constructor
      · intro h
        split at h
        · rename_i pool' hadd
          exact .cons hadd (ih.mp h)
        · split at h <;> cases h
      · rintro (_ | ⟨hadd, hrest⟩)
        rw [hadd]
        exact ih.mpr hrest

theorem rootCAPool_ok_iff {roots : Option (List X509Certificate)} :
    c.rootCAPool pem = .ok roots ↔ c.Roots pem roots := by
  unfold Config.rootCAPool
  cases hpool : c.rootCAs with
  | some pool =>
      rw [Option.isSome_some]
      cases hpems : c.rootCAPEMs with
      | nil =>
          simp only [List.length_nil, Nat.lt_irrefl, and_false, if_false, if_true]
          constructor
          · intro h
            cases h
            exact .pool hpool hpems
          · rintro (⟨hnone, -⟩ | ⟨hsome, -⟩ | ⟨hnone, -, -⟩)
            · exact nomatch hpool.symm.trans hnone
            · exact congrArg Except.ok (hpool.symm.trans hsome)
            · exact nomatch hpool.symm.trans hnone
      | cons block blocks =>
          simp only [List.length_cons, Nat.zero_lt_succ, and_true, if_true]
          constructor
          · intro h
            cases h
          · rintro (⟨hnone, -⟩ | ⟨-, hnil⟩ | ⟨hnone, -, -⟩)
            · exact nomatch hpool.symm.trans hnone
            · exact nomatch hpems.symm.trans hnil
            · exact nomatch hpool.symm.trans hnone
  | none =>
      simp only [Option.isSome_none, Bool.false_eq_true, false_and, if_false]
      by_cases hpems : c.rootCAPEMs = []
      · rw [if_pos (List.length_eq_zero_iff.mpr hpems)]
        constructor
        · intro h
          cases h
          exact .system hpool hpems
        · rintro (_ | ⟨hsome, -⟩ | ⟨-, hne, -⟩)
          · rfl
          · exact nomatch hpool.symm.trans hsome
          · exact absurd hpems hne
      · rw [if_neg (fun hlen => hpems (List.length_eq_zero_iff.mp hlen))]
        constructor
        · intro h
          obtain ⟨pool, hadd, hroots⟩ := bind_eq_ok.mp h
          cases hroots
          exact .pems hpool hpems (appendRootCAPEMs_ok_iff.mp hadd)
        · rintro (⟨-, hnil⟩ | ⟨-, hnil⟩ | ⟨-, -, hadd⟩)
          · exact absurd hnil hpems
          · exact absurd hnil hpems
          · rw [appendRootCAPEMs_ok_iff.mpr hadd]
            rfl

theorem convert_ok_iff {i : Nat} {cert : Config.Certificate} {cc : ClientCertificate} :
    cert.convert env i = .ok cc ↔ cert.Usable env ∧ cc = cert.forClient := by
  -- What is left when the key is a supported one.
  have hsupported : (∀ t, cert.privateKey ≠ .other t) →
      ((if cert.rawCertificate.length = 0 then
          .error (.errorf ("tls: Certificates[" ++ toString i ++ "]") errCertEmptyRaw)
        else if cert.certificate.isNone then do
          let _ ← annotate ("tls: Certificates[" ++ toString i ++ "].RawCertificate")
            (env.parseX509 cert.rawCertificate)
          return cert.forClient
        else .ok cert.forClient) = .ok cc ↔ cert.Usable env ∧ cc = cert.forClient) := by
    intro hkey
    by_cases hraw : cert.rawCertificate = []
    · rw [if_pos (List.length_eq_zero_iff.mpr hraw)]
      constructor
      · intro h
        cases h
      · rintro ⟨husable, -⟩
        exact absurd hraw husable.raw
    rw [if_neg (fun hlen => hraw (List.length_eq_zero_iff.mp hlen))]
    cases hcert : cert.certificate with
    | some x =>
        rw [Option.isNone_some, if_neg Bool.false_ne_true, Except.ok.injEq, eq_comm]
        refine ⟨fun h => ⟨⟨hkey, hraw, fun hnone => ?_⟩, h⟩, fun h => h.2⟩
        exact nomatch hcert.symm.trans hnone
    | none =>
        rw [Option.isNone_none, if_pos rfl]
        constructor
        · intro h
          obtain ⟨x, hx, hcc⟩ := bind_eq_ok.mp h
          cases hcc
          exact ⟨⟨hkey, hraw, fun _ => ⟨x, annotate_eq_ok.mp hx⟩⟩, rfl⟩
        · rintro ⟨husable, rfl⟩
          obtain ⟨x, hx⟩ := husable.parses hcert
          rw [hx]
          rfl
  unfold Config.Certificate.convert
  cases hkey : cert.privateKey with
  | rsa k | ecdsa curve k => exact hsupported (fun t ht => nomatch hkey.symm.trans ht)
  | other t =>
      constructor
      · intro h
        cases h
      · rintro ⟨husable, -⟩
        exact absurd hkey (husable.key t)

theorem convertCerts_ok_iff {i : Nat} {certs : List Config.Certificate} {out : List ClientCertificate} :
    convertCerts env i certs = .ok out ↔
      (∀ cert ∈ certs, cert.Usable env) ∧ out = certs.map Config.Certificate.forClient := by
  induction certs generalizing i out with
  | nil =>
      rw [convertCerts]
      constructor
      · intro h
        cases h
        exact ⟨fun _ hno => absurd hno List.not_mem_nil, rfl⟩
      · rintro ⟨-, rfl⟩
        rfl
  | cons cert certs ih =>
      rw [convertCerts, List.forall_mem_cons]
      constructor
      · intro h
        obtain ⟨cc, hcc, h⟩ := bind_eq_ok.mp h
        obtain ⟨rest, hrest, hout⟩ := bind_eq_ok.mp h
        obtain ⟨husable, rfl⟩ := convert_ok_iff.mp hcc
        obtain ⟨hall, rfl⟩ := ih.mp hrest
        cases hout
        exact ⟨⟨husable, hall⟩, rfl⟩
      · rintro ⟨⟨husable, hall⟩, rfl⟩
        rw [convert_ok_iff.mpr ⟨husable, rfl⟩, ok_bind, ih.mpr ⟨hall, rfl⟩]
        rfl

/-- **The checks of `doHandshake`** pass for a configuration that comes to something. -/
theorem clientParams_ok_iff {serverNameFromDial : Bytes} {params : ClientParams} :
    c.clientParams env pem serverNameFromDial = .ok params ↔
      c.Resolves env pem serverNameFromDial params := by
  unfold Config.clientParams
  dsimp only
  generalize hsuites : c.cipherSuites.getD (availableSuites env.hashes) = offered
  generalize hname : (if c.serverName = [] then serverNameFromDial else c.serverName) = serverName
  constructor
  · intro h
    by_cases hnone : offered.length = 0
    · rw [if_pos hnone] at h
      cases h
    rw [if_neg hnone] at h
    obtain ⟨roots, hroots, h⟩ := bind_eq_ok.mp h
    obtain ⟨certs, hcerts, h⟩ := bind_eq_ok.mp h
    by_cases hunnamed : serverName = [] ∧ ¬ c.insecureSkipVerify = true
    · rw [if_pos hunnamed] at h
      cases h
    rw [if_neg hunnamed] at h
    cases h
    obtain ⟨husable, hcerts⟩ := convertCerts_ok_iff.mp hcerts
    refine ⟨hsuites.symm, (fun hnil => hnone (List.length_eq_zero_iff.mpr hnil)),
      rootCAPool_ok_iff.mp hroots, husable, hcerts, hname.symm, ?_, rfl, rfl, rfl, rfl⟩
    by_cases hempty : serverName = []
    · exact .inr (not_not.mp fun hskip => hunnamed ⟨hempty, hskip⟩)
    · exact .inl hempty
  · rintro ⟨hoffered, hne, hroots, husable, hcerts, hserver, hnamed, hskip, hverify, hgroots, hginter⟩
    obtain ⟨name, suites, roots, skip, verify, groots, ginter, certs⟩ := params
    dsimp only at hoffered hne hroots hcerts hserver hnamed hskip hverify hgroots hginter
    rw [hsuites] at hoffered
    rw [hname] at hserver
    subst hoffered hserver hskip hverify hgroots hginter hcerts
    have hlen : ¬ suites.length = 0 := fun hlen => hne (List.length_eq_zero_iff.mp hlen)
    have hpassed : ¬ (name = [] ∧ ¬ c.insecureSkipVerify = true) := by
      rintro ⟨hempty, hverified⟩
      rcases hnamed with hnamed | hskip
      · exact hnamed hempty
      · exact hverified hskip
    have hclient : c.clientCerts env = .ok (c.certificates.map Config.Certificate.forClient) :=
      convertCerts_ok_iff.mpr ⟨husable, rfl⟩
    rw [if_neg hlen, rootCAPool_ok_iff.mpr hroots, ok_bind, hclient, ok_bind, if_neg hpassed]
    rfl

end

end Gostls

import Gostls.Env
import Gostls.Handshake.Messages
import Gostls.Handshake.Transcript
import Gostls.Record.Output

/-!
# `Gostls.Handshake.State` — the client's state and the operations of a handshake

`HsM` is the monad the handshake is written in: it changes a `ClientState` and fails with an `Err`.
The primitive operations are here: record I/O, the transcript, randomness, and `fatal`, which sends an
alert on the way out.

Beside the fields of the source the state carries a `trace` of what the handshake did, in order. No
operation looks at it; it is what statements about whole runs are about.
-/

namespace Gostls

open Lib

/-! ## The trace -/

/-- A call of `WriteRecord`: the protector and sequence number it found, what it was given, and
    whether it succeeded. -/
structure Outgoing where
  prot : Protector
  seq : UInt64
  ct : UInt8
  payload : Bytes
  ok : Bool

/-- A successful call of `ReadRecord`: the protector and sequence number it found, and what it
    returned. -/
structure Incoming where
  prot : Protector
  seq : UInt64
  ct : UInt8
  payload : Bytes

/-- What a transcript digest is taken for. -/
inductive Purpose
  | certificateVerify
  | clientFinished
  | serverFinished
  deriving DecidableEq, Repr

/-- What happens in a handshake. -/
inductive Event
  | wrote (o : Outgoing)
  | read (i : Incoming)
  /-- `readHandshakeRecord` returned a message. -/
  | took (msgType : UInt8) (body : Bytes)
  /-- `Transcript.Sum` succeeded with this buffer. -/
  | summed (purpose : Purpose) (buf : Bytes)
  | installedSend (p : Protector)
  | installedRecv (p : Protector)

/-! ## Parameters and state -/

/-- A value of type `any` that should be a `[]*x509gost.Certificate`. -/
inductive GostPool
  | nil
  | certs (l : List GostCertificate)
  | wrongType (goType : String)
  deriving DecidableEq, Repr

structure ClientCertificate where
  rawCertificate : Bytes
  privateKey : PrivateKey
  deriving DecidableEq, Repr

/-- `ClientParams` without its randomness reader, which is part of the state. -/
structure ClientParams where
  serverName : Bytes
  offeredSuites : List UInt16
  rootCAs : Option (List X509Certificate)
  insecureSkipVerify : Bool
  verifyPeerCertificate : Option (List Bytes → List (List X509Certificate) → Except Err Unit)
  gostRoots : GostPool
  gostIntermediates : GostPool
  certificates : List ClientCertificate

/-- Parameters to run concrete handshakes with: one suite, no verification. -/
def ClientParams.sample : ClientParams where
  serverName := []
  offeredSuites := [0x009C]
  rootCAs := none
  insecureSkipVerify := true
  verifyPeerCertificate := none
  gostRoots := .nil
  gostIntermediates := .nil
  certificates := []

structure ClientState where
  params : ClientParams
  layer : Layer
  /-- `params.Rand`; `none` is the system's reader. -/
  rand : Option Entropy
  transcript : Transcript
  clientRandom : Random
  serverRandom : Random
  /-- `none` is the nil pointer. -/
  suite : Option Suite
  masterSecret : Bytes
  certReq : Option CertificateRequest
  clientCertSent : Bool
  clientSigAlg : SigAndHash
  gostLeaf : Option GostCertificate
  done : Bool
  hsBuf : Bytes
  trace : List Event

def newClientState (layer : Layer) (rand : Option Entropy) (params : ClientParams) : ClientState :=
  { params, layer, rand, transcript := newTranscript, clientRandom := .copy [], serverRandom := .copy [],
    suite := none, masterSecret := [], certReq := none, clientCertSent := false,
    clientSigAlg := ⟨0, 0⟩, gostLeaf := none, done := false, hsBuf := [], trace := [] }

/-- Programs of the handshake. -/
abbrev HsM := EStateM Err ClientState

namespace ClientState

/-- The state with one more event behind it. -/
def log (s : ClientState) (e : Event) : ClientState := { s with trace := s.trace ++ [e] }

def setLayer (s : ClientState) (layer : Layer) : ClientState := { s with layer }

def setRands (s : ClientState) (r : Rands) : ClientState :=
  { s with rand := r.config, layer := { s.layer with rand := r.system } }

def setHsBuf (s : ClientState) (hsBuf : Bytes) : ClientState := { s with hsBuf }

/-- The state with one more message in its transcript. -/
def record (s : ClientState) (msg : Bytes) : ClientState :=
  { s with transcript := s.transcript.write msg }

@[simp] theorem setHsBuf_hsBuf (s : ClientState) (b : Bytes) : (s.setHsBuf b).hsBuf = b := rfl

end ClientState

/-! ## Operations -/

/-- `c.layer.WriteRecord(ct, payload)` -/
def writeRecord (ct : UInt8) (payload : Bytes) : HsM Unit := fun s =>
  match s.layer.writeRecord ct payload with
  | (.ok _, layer) =>
    .ok () ((s.log (.wrote ⟨s.layer.sendProt, s.layer.sendSeq, ct, payload, true⟩)).setLayer layer)
  | (.error e, layer) =>
    .error e ((s.log (.wrote ⟨s.layer.sendProt, s.layer.sendSeq, ct, payload, false⟩)).setLayer layer)

/-- `c.layer.ReadRecord()` -/
def readRecord : HsM (UInt8 × Bytes) := fun s =>
  match s.layer.readRecord with
  | (.ok (ct, payload), layer) =>
    .ok (ct, payload)
      ((s.log (.read ⟨s.layer.recvProt, s.layer.recvSeq, ct, payload⟩)).setLayer layer)
  | (.error e, layer) => .error e (s.setLayer layer)

/-- `c.layer.ChangeCipherSpec(p, nil)` -/
def installSend (p : Protector) : HsM Unit :=
  modify fun s => (s.log (.installedSend p)).setLayer (s.layer.changeCipherSpec (some p) none)

/-- `c.layer.ChangeCipherSpec(nil, p)` -/
def installRecv (p : Protector) : HsM Unit :=
  modify fun s => (s.log (.installedRecv p)).setLayer (s.layer.changeCipherSpec none (some p))

/-- `c.transcript.Write(msg)` -/
def writeTranscript (msg : Bytes) : HsM Unit := modify (·.record msg)

/-- `c.transcript.Sum(factory)` -/
def sumTranscript (purpose : Purpose) (factory : Option Hash) : HsM Bytes := fun s =>
  match s.transcript.sum factory with
  | .ok digest => .ok digest (s.log (.summed purpose s.transcript.buf))
  | .error e   => .error e s

/-- Run a program that draws randomness; the system's reader is the one the record layer uses. -/
def drawing {α : Type} (m : RandM α) : HsM α := fun s =>
  match m ⟨s.rand, s.layer.rand⟩ with
  | .ok a r    => .ok a (s.setRands r)
  | .error e r => .error e (s.setRands r)

/-- `c.suite`, about to be dereferenced. -/
def getSuite : HsM Suite := do
  match (← get).suite with
  | some suite => pure suite
  | none       => throw .panic

/-- `return c.fatal(alertDesc, cause)`: try to send a fatal alert, then fail with `cause`. -/
def fatal {α : Type} (alertDesc : UInt8) (cause : Err) : HsM α := fun s =>
  match writeRecord contentTypeAlert (encodeAlert alertLevelFatal alertDesc) s with
  | .ok _ s    => .error cause s
  | .error _ s => .error cause s

/-- Nothing runs behind it. -/
theorem fatal_bind {α β : Type} (alertDesc : UInt8) (cause : Err) (f : α → HsM β) :
    (fatal alertDesc cause >>= f) = fatal alertDesc cause := by
  funext s
  simp only [bind, EStateM.bind, fatal]
  cases writeRecord contentTypeAlert (encodeAlert alertLevelFatal alertDesc) s <;> rfl

/-- `if cond { return c.fatal(alertDesc, cause) }` -/
def fatalIf (cond : Prop) [Decidable cond] (alertDesc : UInt8) (cause : Err) : HsM Unit :=
  if cond then fatal alertDesc cause else pure ()

/-- `if err != nil { return c.fatal(alertDesc, wrap(err)) }` -/
def orFatal {α : Type} (alertDesc : UInt8) (wrap : Err → Err) (m : HsM α) : HsM α := fun s =>
  match m s with
  | .ok a s         => .ok a s
  | .error .panic s => .error .panic s
  | .error e s      => fatal alertDesc (wrap e) s

/-- `if err != nil { return wrap(err) }` -/
def orFail {α : Type} (wrap : Err → Err) (m : HsM α) : HsM α := fun s =>
  match m s with
  | .ok a s         => .ok a s
  | .error .panic s => .error .panic s
  | .error e s      => .error (wrap e) s

/-! ## Rules -/

section Rules

variable {α : Type} {Q : α → ClientState → Prop} {E : Err → ClientState → Prop} {s : ClientState}
  {alertDesc : UInt8} {cause : Err}

/-- The state after the attempt to send a fatal alert. -/
def ClientState.alerted (alertDesc : UInt8) (s : ClientState) : ClientState :=
  match writeRecord contentTypeAlert (encodeAlert alertLevelFatal alertDesc) s with
  | .ok _ s    => s
  | .error _ s => s

/-- **Writing is logged**, with or without success. -/
theorem writeRecord_logs (ct : UInt8) (payload : Bytes) (s : ClientState) :
    wp (writeRecord ct payload)
      (fun _ s' => payload.length ≤ tlsMaxPlaintextLen ∧ ∃ layer,
        s' = (s.log (.wrote ⟨s.layer.sendProt, s.layer.sendSeq, ct, payload, true⟩)).setLayer layer)
      (fun _ s' => ∃ layer,
        s' = (s.log (.wrote ⟨s.layer.sendProt, s.layer.sendSeq, ct, payload, false⟩)).setLayer layer) s := by
  unfold wp writeRecord
  match hw : s.layer.writeRecord ct payload with
  | (.error _, layer) => exact ⟨layer, rfl⟩
  | (.ok _, layer) =>
      obtain ⟨hdr, fragment, l₁, w, w', hrec, -, -, -⟩ := Layer.writeRecord_ok hw
      exact ⟨(Layer.sealRecord_ok hrec).2.1, layer, rfl⟩

/-- **Reading is logged** if it succeeds. -/
theorem readRecord_logs (s : ClientState) :
    wp readRecord
      (fun r s' => ∃ layer,
        s' = (s.log (.read ⟨s.layer.recvProt, s.layer.recvSeq, r.1, r.2⟩)).setLayer layer)
      (fun _ s' => ∃ layer, s' = s.setLayer layer) s := by
  unfold wp readRecord
  match s.layer.readRecord with
  | (.ok (ct, payload), layer) | (.error _, layer) => exact ⟨layer, rfl⟩

/-- **A digest is logged** if there is one. -/
theorem sumTranscript_logs (purpose : Purpose) (factory : Option Hash) (s : ClientState) :
    wp (sumTranscript purpose factory)
      (fun digest s' => s.transcript.sum factory = .ok digest ∧
        s' = s.log (.summed purpose s.transcript.buf))
      (fun _ s' => s' = s) s := by
  unfold wp sumTranscript
  cases hsum : s.transcript.sum factory with
  | ok digest => exact ⟨rfl, rfl⟩
  | error e => rfl

/-- All that an alert changes. -/
theorem alerted_eq (alertDesc : UInt8) (s : ClientState) :
    ∃ o layer, o.ct = contentTypeAlert ∧ o.payload = encodeAlert alertLevelFatal alertDesc ∧
      s.alerted alertDesc = (s.log (.wrote o)).setLayer layer := by
  have hwrite := writeRecord_logs contentTypeAlert (encodeAlert alertLevelFatal alertDesc) s
  unfold ClientState.alerted
  cases hw : writeRecord contentTypeAlert (encodeAlert alertLevelFatal alertDesc) s with
  | ok _ t =>
      obtain ⟨-, layer, heq⟩ := hwrite.ok hw
      exact ⟨_, layer, rfl, rfl, heq⟩
  | error _ t =>
      obtain ⟨layer, heq⟩ := hwrite.error hw
      exact ⟨_, layer, rfl, rfl, heq⟩

theorem wp_fatal : wp (fatal alertDesc cause) Q E s ↔ E cause (s.alerted alertDesc) := by
  unfold wp fatal ClientState.alerted
  split <;> rename_i h <;> split at h <;> cases h <;> rfl

/-- `E` allows both ways out of `s`: a panic, and an error behind an alert. -/
structure Exits (E : Err → ClientState → Prop) (s : ClientState) : Prop where
  panic : E .panic s
  fatal : ∀ alertDesc cause, E cause (s.alerted alertDesc)

/-- A check. -/
theorem wp_check {cond : Prop} [Decidable cond] {Q : Unit → ClientState → Prop}
    (hbad : cond → E cause (s.alerted alertDesc)) (hok : ¬cond → Q () s) :
    wp (fatalIf cond alertDesc cause) Q E s :=
  wp_ite (fun hc => wp_fatal.mpr (hbad hc)) hok

theorem wp_fatalIf {cond : Prop} [Decidable cond] {Q : Unit → ClientState → Prop} (hx : Exits E s)
    (hok : ¬cond → Q () s) : wp (fatalIf cond alertDesc cause) Q E s :=
  wp_check (fun _ => hx.fatal _ _) hok

/-- A loop of checks. -/
theorem wp_forM_check {β : Type} {cond : β → Prop} [DecidablePred cond] {cause : β → Err} (l : List β)
    {Q : PUnit → ClientState → Prop} (hbad : ∀ b ∈ l, cond b → E (cause b) (s.alerted alertDesc))
    (hok : (∀ b ∈ l, ¬ cond b) → Q ⟨⟩ s) :
    wp (l.forM fun b => fatalIf (cond b) alertDesc (cause b)) Q E s := by
  induction l with
  | nil => exact hok (by simp)
  | cons b l ih =>
      show wp (fatalIf (cond b) alertDesc (cause b) >>= fun _ => l.forM _) Q E s
      obtain ⟨hb, hl⟩ := List.forall_mem_cons.mp hbad
      rw [wp_bind]
      apply wp_check hb
      intro hpass
      exact ih hl (fun hrest => hok (List.forall_mem_cons.mpr ⟨hpass, hrest⟩))

theorem wp_forM_fatalIf {β : Type} {cond : β → Prop} [DecidablePred cond] {cause : β → Err}
    {Q : PUnit → ClientState → Prop} (hx : Exits E s) (l : List β) (hok : Q ⟨⟩ s) :
    wp (l.forM fun b => fatalIf (cond b) alertDesc (cause b)) Q E s :=
  wp_forM_check l (fun _ _ _ => hx.fatal _ _) (fun _ => hok)

theorem orFatal_ok {m : HsM α} {wrap : Err → Err} {a : α} {t : ClientState} (h : m s = .ok a t) :
    orFatal alertDesc wrap m s = .ok a t := by
  simp only [orFatal, h]

theorem orFatal_panic {m : HsM α} {wrap : Err → Err} {t : ClientState} (h : m s = .error .panic t) :
    orFatal alertDesc wrap m s = .error .panic t := by
  simp only [orFatal, h]

theorem orFatal_error {m : HsM α} {wrap : Err → Err} {e : Err} {t : ClientState} (h : m s = .error e t)
    (he : e ≠ .panic) : orFatal alertDesc wrap m s = fatal alertDesc (wrap e) t := by
  unfold orFatal
  rw [h]
  cases e with
  | panic => exact absurd rfl he
  | _ => rfl

/-- An error of `m` becomes an alert, a panic passes. -/
theorem wp_orFatal {m : HsM α} {wrap : Err → Err} (h : wp m Q (fun _ s' => Exits E s') s) :
    wp (orFatal alertDesc wrap m) Q E s := by
  cases hm : m s with
  | ok a s' => exact wp_of_ok (orFatal_ok hm) (h.ok hm)
  | error e s' =>
      have he := h.error hm
      by_cases hp : e = .panic
      · subst hp
        exact wp_of_error (orFatal_panic hm) he.panic
      · unfold wp
        rw [orFatal_error hm hp]
        exact wp_fatal.mpr (he.fatal _ _)

theorem wp_orFail {m : HsM α} {wrap : Err → Err} (h : wp m Q (fun _ s' => ∀ e, E e s') s) :
    wp (orFail wrap m) Q E s := by
  unfold wp orFail at *
  cases hm : m s with
  | ok a s' =>
      rw [hm] at h
      exact h
  | error e s' =>
      rw [hm] at h
      cases e <;> exact h _

theorem wp_orFatal_compute {x : Except Err α} {wrap : Err → Err} (hx : Exits E s)
    (hok : ∀ a, x = .ok a → Q a s) : wp (orFatal alertDesc wrap (compute x)) Q E s :=
  wp_orFatal (wp_compute hok (fun _ _ => hx))

theorem wp_writeTranscript {msg : Bytes} {Q : Unit → ClientState → Prop} :
    wp (writeTranscript msg) Q E s ↔ Q () (s.record msg) := Iff.rfl

theorem wp_getSuite {Q : Suite → ClientState → Prop} (hx : Exits E s)
    (hsome : ∀ suite, s.suite = some suite → Q suite s) : wp getSuite Q E s := by
  unfold getSuite
  rw [wp_bind, wp_get]
  cases hs : s.suite with
  | some suite => exact hsome suite hs
  | none => exact hx.panic

/-- Once a suite is negotiated, it is the one in use. -/
theorem wp_getSuite_some {Q : Suite → ClientState → Prop} {suite : Suite} (hsuite : s.suite = some suite)
    (hq : Q suite s) : wp getSuite Q E s := by
  unfold getSuite
  rw [wp_bind, wp_get, hsuite]
  exact hq

/-- Drawing changes the readers, and nothing else. -/
theorem wp_draws {m : RandM α} (hok : ∀ a r, m ⟨s.rand, s.layer.rand⟩ = .ok a r → Q a (s.setRands r))
    (herr : ∀ e r, E e (s.setRands r)) : wp (drawing m) Q E s := by
  unfold wp drawing
  cases hm : m ⟨s.rand, s.layer.rand⟩ with
  | ok a r => exact hok a r hm
  | error e r => exact herr e r

theorem wp_drawing {m : RandM α} (hok : ∀ a r, Q a (s.setRands r)) (herr : ∀ e r, E e (s.setRands r)) :
    wp (drawing m) Q E s :=
  wp_draws (fun a r _ => hok a r) herr

end Rules

end Gostls

import Gostls.Handshake.Client
import Gostls.Lib.Blind

/-!
# `Gostls.Handshake.Entropy` — where a handshake draws its randomness

`Config.Rand` is documented as the source of all of it: the client random, the ephemeral keys, the RSA
pre-master secret and the IVs of CBC records. The code hands it to the ClientHello, to the ECDHE and RSA
exchanges and to the signatures. The DHE exponent, the GOST exchanges and the IVs of `cbcHMACProtector`
come from the system's reader whatever is configured.

`Guarded` says when none of these three is reached: a reader is configured, and every suite that is in use
or on offer is `Confined`. Each function of the handshake then ignores the system's reader and leaves the
client guarded, up to `handshake_ignores`.
-/

namespace Gostls

open Lib

/-! ## The record layer -/

/-- All but CBC protectors seal without drawing randomness. -/
def Protector.Confined : Protector → Prop
  | .cbcHMAC _ => False
  | _          => True

/-- **Sealing is deterministic** but for CBC. -/
theorem Protector.Confined.seal {prot : Protector} (h : prot.Confined) (seq : UInt64) (hdr : Header)
    (plain : Bytes) (r r' : Entropy) :
    prot.seal seq hdr plain r' =
      ((prot.seal seq hdr plain r).1, (prot.seal seq hdr plain r).2.1, r') ∧
    (prot.seal seq hdr plain r).2.1.Confined := by
  cases prot with
  -- The one protector that hands the reader on, for its IV.
  | cbcHMAC p => exact h.elim
  | null | aead p | chacha20Poly1305 p | gost28147 p | ctrOMAC p => exact ⟨rfl, trivial⟩

namespace Layer

/-- The layer over another system reader. -/
def withRand (e : Entropy) (l : Layer) : Layer := { l with rand := e }

theorem sealRecord_withRand {l : Layer} (h : l.sendProt.Confined) (e : Entropy) (ct : UInt8)
    (payload : Bytes) :
    (l.withRand e).sealRecord ct payload =
      ((l.sealRecord ct payload).1, (l.sealRecord ct payload).2.withRand e) ∧
    (l.sealRecord ct payload).2.sendProt.Confined := by
  obtain ⟨hsame, hconfined⟩ := h.seal l.sendSeq (.template ct) payload l.rand e
  unfold sealRecord
  by_cases hct : (!isKnownContentType ct) = true
  · rw [if_pos hct, if_pos hct]
    exact ⟨rfl, h⟩
  rw [if_neg hct, if_neg hct]
  by_cases hlen : payload.length > tlsMaxPlaintextLen
  · rw [if_pos hlen, if_pos hlen]
    exact ⟨rfl, h⟩
  rw [if_neg hlen, if_neg hlen]
  by_cases hseq : l.sendSeq = maxUint64
  · rw [if_pos hseq, if_pos (show (l.withRand e).sendSeq = maxUint64 from hseq)]
    exact ⟨rfl, h⟩
  rw [if_neg hseq, if_neg (show ¬ (l.withRand e).sendSeq = maxUint64 from hseq)]
  dsimp only [withRand]
  rw [hsame]
  rcases hseal : l.sendProt.seal l.sendSeq (.template ct) payload l.rand with ⟨res, prot, rand⟩
  rw [hseal] at hconfined
  cases res with
  | error err => exact ⟨rfl, hconfined⟩
  | ok fragment => exact ⟨rfl, hconfined⟩

/-- A record is written the same, whatever the reader. -/
theorem writeRecord_withRand {l : Layer} (h : l.sendProt.Confined) (e : Entropy) (ct : UInt8)
    (payload : Bytes) :
    (l.withRand e).writeRecord ct payload =
      ((l.writeRecord ct payload).1, (l.writeRecord ct payload).2.withRand e) ∧
    (l.writeRecord ct payload).2.sendProt.Confined := by
  obtain ⟨hsame, hconfined⟩ := sealRecord_withRand h e ct payload
  unfold writeRecord
  rw [hsame]
  rcases hseal : l.sealRecord ct payload with ⟨res, l₁⟩
  rw [hseal] at hconfined
  cases res with
  | error err => exact ⟨rfl, hconfined⟩
  | ok record =>
      dsimp only [withRand]
      rcases hhdr : l₁.output.write record.1.bytes with ⟨_ | _, output⟩
      · exact ⟨rfl, hconfined⟩
      · dsimp only
        rcases hfrag : output.write record.2 with ⟨_ | _, output'⟩
        · exact ⟨rfl, hconfined⟩
        · exact ⟨rfl, hconfined⟩

theorem readRecord_withRand (e : Entropy) (l : Layer) :
    (l.withRand e).readRecord = (l.readRecord.1, l.readRecord.2.withRand e) := by
  unfold readRecord
  by_cases hseq : l.recvSeq = maxUint64
  · rw [if_pos hseq, if_pos (show (l.withRand e).recvSeq = maxUint64 from hseq)]
  rw [if_neg hseq, if_neg (show ¬ (l.withRand e).recvSeq = maxUint64 from hseq)]
  dsimp only [withRand]
  rcases readFull recordHeaderLen l.input with ⟨_ | b, input⟩
  · rfl
  dsimp only
  rcases checkHeader (Header.ofBytes b) with _ | _
  · rfl
  dsimp only
  rcases readFull (Header.ofBytes b).length input with ⟨_ | fragment, input'⟩
  · rfl
  dsimp only
  rcases l.recvProt.open l.recvSeq (Header.ofBytes b) fragment with ⟨_ | plain, recvProt⟩
  · rfl
  dsimp only
  split
  · rfl
  · rfl

end Layer

/-! ## The exchanges -/

namespace RandM

/-- The readers with another one of the system's. -/
def otherSystem (e : Entropy) (r : Rands) : Rands := { r with system := e }

/-- A reader is configured. -/
def Configured (r : Rands) : Prop := r.config.isSome = true

variable {α β : Type} (e : Entropy)

theorem withConfig_ignores (f : Entropy → Except Err α × Entropy) :
    Ignores (otherSystem e) Configured (withConfig f) := by
  rintro ⟨config, system⟩ hr
  obtain ⟨c, rfl⟩ := Option.isSome_iff_exists.mp hr
  constructor
  · unfold withConfig otherSystem
    dsimp only
    rcases f c with ⟨_ | a, c'⟩
    · rfl
    · rfl
  · unfold wp withConfig
    dsimp only
    rcases f c with ⟨_ | a, c'⟩
    · rfl
    · rfl

variable {e}

theorem mapErr_ignores {m : RandM α} (wrap : Err → Err) (h : Ignores (otherSystem e) Configured m) :
    Ignores (otherSystem e) Configured (mapErr wrap m) := by
  intro r hr
  obtain ⟨hsame, hspec⟩ := h r hr
  constructor
  · unfold mapErr
    rw [hsame]
    cases m r with
    | ok a r' => rfl
    | error err r' => cases err <;> rfl
  · unfold wp at hspec ⊢
    unfold mapErr
    cases hm : m r with
    | ok a r' =>
        rw [hm] at hspec
        exact hspec
    | error err r' =>
        rw [hm] at hspec
        cases err <;> exact hspec

variable (e)

theorem ecdhAgree_ignores (env : Env) (curve : EcdhCurve) (point : Bytes) :
    Ignores (otherSystem e) Configured (ecdhAgree env curve point) :=
  .bind (.compute _) fun _ => .bind (mapErr_ignores _ (withConfig_ignores e _)) fun _ =>
  .bind (.compute _) fun _ => .pure _

theorem ecdhClientKeyExchange_ignores (env : Env) (serverParams : Bytes) :
    Ignores (otherSystem e) Configured (ecdhClientKeyExchange env serverParams) := by
  unfold ecdhClientKeyExchange
  apply Ignores.ite (.throw _)
  apply Ignores.bind (.compute _)
  intro curveType
  apply Ignores.ite (.throw _)
  refine .bind (.compute _) fun hi => .bind (.compute _) fun lo => .bind (.compute _) fun curve =>
    .bind (.compute _) fun len => ?_
  apply Ignores.ite (.throw _)
  exact .bind (.compute _) fun point => ecdhAgree_ignores e env curve point

theorem rsaClientKeyExchange_ignores (env : Env) (pub : Bytes) :
    Ignores (otherSystem e) Configured (rsaClientKeyExchange env pub) :=
  .bind (mapErr_ignores _ (withConfig_ignores e _)) fun _ =>
  .bind (mapErr_ignores _ (withConfig_ignores e _)) fun _ => .pure _

end RandM

/-! ## The operations of a handshake -/

/-- A suite whose exchange and whose records draw on the configured reader, or on none. -/
def Suite.Confined (suite : Suite) : Prop :=
  (suite.kx = .ecdhe ∨ suite.kx = .rsa) ∧
    suite.cipher.name ≠ .aes128CBC ∧ suite.cipher.name ≠ .aes256CBC

instance decidableConfined (suite : Suite) : Decidable suite.Confined :=
  inferInstanceAs (Decidable ((suite.kx = .ecdhe ∨ suite.kx = .rsa) ∧
    suite.cipher.name ≠ .aes128CBC ∧ suite.cipher.name ≠ .aes256CBC))

theorem Suite.Confined.protector {env : Env} {suite : Suite} (h : suite.Confined)
    {encKey macKey iv : Bytes} {p : Protector} (hp : buildProtector env suite encKey macKey iv = .ok p) :
    p.Confined := by
  obtain ⟨-, h128, h256⟩ := h
  unfold buildProtector at hp
  cases hname : suite.cipher.name with
  | aes128CBC => exact absurd hname h128
  | aes256CBC => exact absurd hname h256
  | gost28147CNT | kuznyechikCTROMAC | magmaCTROMAC =>
      rw [hname] at hp
      obtain ⟨q, -, hq⟩ := bind_eq_ok.mp hp
      cases hq
      trivial
  | aes128GCM | aes256GCM | chacha20Poly1305 =>
      rw [hname] at hp
      dsimp only at hp
      split at hp
      · obtain ⟨q, -, hq⟩ := bind_eq_ok.mp hp
        cases hq
        trivial
      · -- Without the name of a CBC cipher there is nothing to build.
        repeat' split at hp
        all_goals cases hp
  | other name =>
      rw [hname] at hp
      dsimp only at hp
      split at hp
      · cases hp
      · -- Without the name of a CBC cipher there is nothing to build.
        repeat' split at hp
        all_goals cases hp

/-- The client over another system reader. -/
def ClientState.withSystem (e : Entropy) (s : ClientState) : ClientState :=
  s.setLayer (s.layer.withRand e)

/-- A reader is configured, and everything in use and on offer is confined. -/
structure Guarded (env : Env) (s : ClientState) : Prop where
  rand : s.rand.isSome = true
  sendProt : s.layer.sendProt.Confined
  suite : ∀ suite, s.suite = some suite → suite.Confined
  offered : ∀ id ∈ s.params.offeredSuites, ∀ suite, lookup env.hashes id = some suite → suite.Confined

namespace Guarded

variable {env : Env} (e : Entropy) {α : Type}

theorem writeRecord (ct : UInt8) (payload : Bytes) :
    Ignores (·.withSystem e) (Guarded env) (writeRecord ct payload) := by
  intro s hs
  obtain ⟨hsame, hconfined⟩ := Layer.writeRecord_withRand hs.sendProt e ct payload
  have hsame' : (s.withSystem e).layer.writeRecord ct payload = _ := hsame
  constructor
  · unfold Gostls.writeRecord
    rw [hsame']
    rcases s.layer.writeRecord ct payload with ⟨_ | _, layer⟩
    · rfl
    · rfl
  · unfold wp Gostls.writeRecord
    rcases hw : s.layer.writeRecord ct payload with ⟨_ | _, layer⟩
    · rw [hw] at hconfined
      exact ⟨hs.rand, hconfined, hs.suite, hs.offered⟩
    · rw [hw] at hconfined
      exact ⟨hs.rand, hconfined, hs.suite, hs.offered⟩

theorem readRecord : Ignores (·.withSystem e) (Guarded env) readRecord := by
  intro s hs
  have hsame : (s.withSystem e).layer.readRecord = _ := Layer.readRecord_withRand e s.layer
  have hframe : s.layer.readRecord.2.sendProt = s.layer.sendProt := by
    obtain ⟨input, prot, seq, heq⟩ := Layer.readRecord_frame s.layer
    rw [heq]
  constructor
  · unfold Gostls.readRecord
    rw [hsame]
    rcases s.layer.readRecord with ⟨_ | _, layer⟩
    · rfl
    · rfl
  · unfold wp Gostls.readRecord
    rcases hr : s.layer.readRecord with ⟨_ | _, layer⟩
    · rw [hr] at hframe
      exact ⟨hs.rand, hframe ▸ hs.sendProt, hs.suite, hs.offered⟩
    · rw [hr] at hframe
      exact ⟨hs.rand, hframe ▸ hs.sendProt, hs.suite, hs.offered⟩

theorem fatal (desc : UInt8) (cause : Err) :
    Ignores (·.withSystem e) (Guarded env) (fatal desc cause : HsM α) := by
  intro s hs
  obtain ⟨hsame, hspec⟩ := writeRecord e contentTypeAlert (encodeAlert alertLevelFatal desc) s hs
  constructor
  · unfold Gostls.fatal
    rw [hsame]
    cases Gostls.writeRecord contentTypeAlert (encodeAlert alertLevelFatal desc) s with
    | ok _ t => rfl
    | error _ t => rfl
  · rw [wp_fatal]
    unfold ClientState.alerted
    cases hw : Gostls.writeRecord contentTypeAlert (encodeAlert alertLevelFatal desc) s with
    | ok _ t => exact hspec.ok hw
    | error _ t => exact hspec.error hw

/-- What has passed a check. -/
theorem fatalIf_blind {s : ClientState} (hs : Guarded env s) (cond : Prop) [Decidable cond] (desc : UInt8)
    (cause : Err) :
    Blind (·.withSystem e) (Gostls.fatalIf cond desc cause) (fun _ t => ¬ cond ∧ t = s)
      (fun _ => Guarded env) s := by
  refine .ite (fun _ => ?_) (fun hc => .pure ⟨hc, rfl⟩)
  obtain ⟨hsame, hspec⟩ := fatal (α := Unit) e desc cause s hs
  exact ⟨hsame, wp_fatal.mpr (wp_fatal.mp hspec)⟩

theorem fatalIf (cond : Prop) [Decidable cond] (desc : UInt8) (cause : Err) :
    Ignores (·.withSystem e) (Guarded env) (fatalIf cond desc cause) :=
  .ite (fatal e desc cause) (.pure _)

theorem exits {s : ClientState} (hs : Guarded env s) : Exits (fun _ => Guarded env) s where
  panic := hs
  fatal desc cause := wp_fatal.mp (fatal (α := Unit) s.layer.rand desc cause s hs).spec

/-- An error is answered where the program has left off. -/
theorem orFatal_blind {m : HsM α} {Q : α → ClientState → Prop} {s : ClientState} (desc : UInt8)
    (wrap : Err → Err) (h : Blind (·.withSystem e) m Q (fun _ => Guarded env) s) :
    Blind (·.withSystem e) (Gostls.orFatal desc wrap m) Q (fun _ => Guarded env) s := by
  obtain ⟨hsame, hspec⟩ := h
  refine ⟨?_, wp_orFatal (hspec.mono (fun _ _ hq => hq) (fun _ _ ht => ht.exits))⟩
  cases hm : m s with
  | ok a t =>
      rw [hm] at hsame
      rw [orFatal_ok hm, orFatal_ok hsame]
      rfl
  | error err t =>
      rw [hm] at hsame
      by_cases hp : err = .panic
      · subst hp
        rw [orFatal_panic hm, orFatal_panic hsame]
        rfl
      · rw [orFatal_error hm hp, orFatal_error hsame hp]
        exact (fatal e desc (wrap err) t (hspec.error hm)).same

theorem orFatal {m : HsM α} (desc : UInt8) (wrap : Err → Err)
    (h : Ignores (·.withSystem e) (Guarded env) m) :
    Ignores (·.withSystem e) (Guarded env) (orFatal desc wrap m) :=
  fun s hs => orFatal_blind e desc wrap (h s hs)

theorem drawing {m : RandM α} (h : Ignores (RandM.otherSystem e) RandM.Configured m) :
    Ignores (·.withSystem e) (Guarded env) (drawing m) := by
  intro s hs
  obtain ⟨hsame, hspec⟩ := h ⟨s.rand, s.layer.rand⟩ hs.rand
  have hsame' : m ⟨(s.withSystem e).rand, (s.withSystem e).layer.rand⟩ = _ := hsame
  constructor
  · unfold Gostls.drawing
    rw [hsame']
    cases m ⟨s.rand, s.layer.rand⟩ with
    | ok a r => rfl
    | error err r => rfl
  · unfold wp Gostls.drawing
    cases hm : m ⟨s.rand, s.layer.rand⟩ with
    | ok a r => exact ⟨hspec.ok hm, hs.sendProt, hs.suite, hs.offered⟩
    | error err r => exact ⟨hspec.error hm, hs.sendProt, hs.suite, hs.offered⟩

theorem modify {g : ClientState → ClientState} (hg : ∀ s, g (s.withSystem e) = (g s).withSystem e)
    (hI : ∀ s, Guarded env s → Guarded env (g s)) :
    Ignores (·.withSystem e) (Guarded env) (modify g : HsM PUnit) := .modify hg hI

theorem writeTranscript (msg : Bytes) : Ignores (·.withSystem e) (Guarded env) (writeTranscript msg) :=
  .modify (fun _ => rfl) (fun _ hs => ⟨hs.rand, hs.sendProt, hs.suite, hs.offered⟩)

theorem sumTranscript (purpose : Purpose) (factory : Option Hash) :
    Ignores (·.withSystem e) (Guarded env) (sumTranscript purpose factory) := by
  intro s hs
  constructor
  · unfold Gostls.sumTranscript
    show _ = onState _ (_ : EStateM.Result Err ClientState Bytes)
    rw [show (s.withSystem e).transcript = s.transcript from rfl]
    cases s.transcript.sum factory with
    | ok digest => rfl
    | error err => rfl
  · apply (sumTranscript_logs purpose factory s).mono
    · rintro _ _ ⟨-, rfl⟩
      exact ⟨hs.rand, hs.sendProt, hs.suite, hs.offered⟩
    · rintro _ _ rfl
      exact hs

/-- The suite is one of those guarded. -/
theorem getSuite_blind {s : ClientState} (hs : Guarded env s) :
    Blind (·.withSystem e) getSuite (fun suite t => t = s ∧ s.suite = some suite ∧ suite.Confined)
      (fun _ => Guarded env) s := by
  unfold getSuite
  refine .get rfl ?_
  cases hsuite : s.suite with
  | some suite => exact .pure ⟨rfl, rfl, hs.suite suite hsuite⟩
  | none => exact .throw hs

theorem getSuite : Ignores (·.withSystem e) (Guarded env) getSuite := by
  intro s hs
  apply (getSuite_blind e hs).mono _ (fun _ _ h => h)
  rintro _ _ ⟨rfl, -⟩
  exact hs

/-! ## Messages -/

theorem nextRecord : Ignores (·.withSystem e) (Guarded env) nextRecord := by
  intro s hs
  obtain ⟨hsame, hspec⟩ : Blind (·.withSystem e) Gostls.readRecord (fun _ => Guarded env)
    (fun _ => Guarded env) s := readRecord e s hs
  constructor
  · unfold Gostls.nextRecord
    rw [hsame]
    cases Gostls.readRecord s with
    | ok r t => rfl
    | error err t =>
        -- The wording of the error depends on the buffer, which both runs share.
        show (if t.hsBuf.length ≠ 0 then _ else _) = onState _ (if t.hsBuf.length ≠ 0 then _ else _)
        split
        · rfl
        · rfl
  · cases hr : Gostls.readRecord s with
    | ok r t =>
        unfold wp Gostls.nextRecord
        rw [hr]
        exact hspec.ok hr
    | error err t =>
        unfold wp Gostls.nextRecord
        rw [hr]
        dsimp only
        by_cases hbuf : t.hsBuf.length ≠ 0
        · rw [if_pos hbuf]
          exact hspec.error hr
        · rw [if_neg hbuf]
          exact hspec.error hr

theorem readHandshakeLoop (rounds : Nat) :
    Ignores (·.withSystem e) (Guarded env) (readHandshakeLoop rounds) := by
  induction rounds with
  | zero => exact .throw _
  | succ rounds ih =>
      intro s hs
      -- Another record: what is read of the state is the buffer, and what is set is the buffer.
      have hnext : Blind (·.withSystem e) (Gostls.nextRecord >>= fun r => get >>= fun s =>
          if r.1 = contentTypeHandshake then
            set (s.setHsBuf (s.hsBuf ++ r.2)) >>= fun _ => Gostls.readHandshakeLoop rounds
          else Lib.compute (refuseRecord s.hsBuf r.1 r.2))
          (fun _ => Guarded env) (fun _ => Guarded env) s := by
        apply (nextRecord e s hs).call
        rintro ⟨ct, payload⟩ t ht
        by_cases hct : ct = contentTypeHandshake
        · simp only [if_pos hct]
          have hloop := ih (t.setHsBuf (t.hsBuf ++ payload)) ⟨ht.rand, ht.sendProt, ht.suite, ht.offered⟩
          exact ⟨hloop.same, hloop.spec⟩
        · simp only [if_neg hct]
          exact .get rfl (.compute (fun _ _ => ht) (fun _ _ => ht))
      constructor
      · unfold Gostls.readHandshakeLoop
        show (Lib.compute (nextBuffered s.hsBuf) >>= _) (s.withSystem e) =
          onState _ ((Lib.compute (nextBuffered s.hsBuf) >>= _) s)
        cases nextBuffered s.hsBuf with
        | error err => rfl
        | ok next =>
            cases next with
            | some m => rfl
            | none => exact hnext.same
      · unfold Gostls.readHandshakeLoop
        show wp (Lib.compute (nextBuffered s.hsBuf) >>= _) _ _ s
        cases nextBuffered s.hsBuf with
        | error err => exact hs
        | ok next =>
            cases next with
            | some m => exact ⟨hs.rand, hs.sendProt, hs.suite, hs.offered⟩
            | none => exact hnext.spec

theorem readHandshakeRecord : Ignores (·.withSystem e) (Guarded env) readHandshakeRecord :=
  .get (fun _ => rfl) fun _ => readHandshakeLoop e _

theorem parsePayload (desc : UInt8) (text : String) (t : UInt8) (payload : Bytes) :
    Ignores (·.withSystem e) (Guarded env) (parsePayload desc text t payload) :=
  .bind (orFatal e _ _ (.compute _)) fun _ => .pure _

theorem receiveMessage (want : UInt8) (name : String) (errExpected : Err) (parseAlert : UInt8) :
    Ignores (·.withSystem e) (Guarded env) (receiveMessage want name errExpected parseAlert) :=
  .bind (orFatal e _ _ (readHandshakeRecord e)) fun _ => .bind (fatalIf e _ _ _) fun _ =>
  .bind (parsePayload e _ _ _ _) fun _ => .pure _

theorem sendMessage (text : String) (msg : Message) :
    Ignores (·.withSystem e) (Guarded env) (sendMessage text msg) :=
  .bind (orFatal e _ _ (writeRecord e _ _)) fun _ => writeTranscript e _

/-! ## The hellos -/

theorem orFail {m : HsM α} (wrap : Err → Err) (h : Ignores (·.withSystem e) (Guarded env) m) :
    Ignores (·.withSystem e) (Guarded env) (orFail wrap m) := by
  intro s hs
  obtain ⟨hsame, hspec⟩ := h s hs
  refine ⟨?_, wp_orFail (hspec.mono (fun _ _ hq => hq) (fun _ _ ht _ => ht))⟩
  unfold Gostls.orFail
  rw [hsame]
  cases m s with
  | ok a t => rfl
  | error err t => cases err <;> rfl

/-- The client random is drawn from the configured reader. -/
theorem sendClientHello : Ignores (·.withSystem e) (Guarded env) sendClientHello := by
  unfold Gostls.sendClientHello
  refine .bind (drawing e (RandM.mapErr_ignores _ (RandM.withConfig_ignores e _))) fun random => ?_
  refine .bind (modify e (fun _ => rfl) fun _ hs => ?_) fun _ => .get (fun _ => rfl) fun s => ?_
  · exact ⟨hs.rand, hs.sendProt, hs.suite, hs.offered⟩
  · exact .bind (orFail e _ (writeRecord e _ _)) fun _ => writeTranscript e _

/-- The suite that is negotiated is one of those on offer. -/
theorem recvServerHello : Ignores (·.withSystem e) (Guarded env) (recvServerHello env) := by
  unfold Gostls.recvServerHello
  apply Ignores.bind (receiveMessage e _ _ _ _)
  rintro ⟨msg, payload⟩
  cases msg with
  | serverHello sh =>
      apply Ignores.bind (fatalIf e _ _ _)
      intro _ s hs
      apply Blind.get rfl
      apply (fatalIf_blind e hs _ _ _).call
      rintro _ _ ⟨hoffered, rfl⟩
      -- Past the check, the identifier is on offer, and what it stands for is guarded.
      cases hlookup : lookup env.hashes sh.cipherSuite with
      | none => exact fatal e _ _ _ hs
      | some suite =>
          have hsuite : suite.Confined := hs.offered _ (not_not.mp hoffered) suite hlookup
          dsimp only
          refine .call (Q := fun _ => Guarded env) (.modify rfl ⟨hs.rand, hs.sendProt, ?_, hs.offered⟩) ?_
          · rintro _ ⟨⟩
            exact hsuite
          · intro _ t ht
            refine (?_ : Ignores _ _ _) t ht
            refine .bind (fatalIf e _ _ _) fun _ => .bind (fatalIf e _ _ _) fun _ =>
              .bind (.forM (fun _ => fatalIf e _ _ _) _) fun _ => ?_
            refine .bind (modify e (fun _ => rfl) fun _ hs => ?_) fun _ => writeTranscript e _
            exact ⟨hs.rand, hs.sendProt, hs.suite, hs.offered⟩
  | _ => exact fatal e _ _

/-! ## The server's flight -/

theorem parseAndVerifyChain (rawCerts : List Bytes) :
    Ignores (·.withSystem e) (Guarded env) (parseAndVerifyChain env rawCerts) := by
  unfold Gostls.parseAndVerifyChain
  cases rawCerts with
  | nil => exact .throw _
  | cons rawLeaf rawInter =>
      refine .bind (.compute _) fun gc => ?_
      have hverify : Ignores (·.withSystem e) (Guarded env) (do
          let chains ← verifyChain env (← get).params gc rawInter
          return (gc.stdlib, chains) : HsM _) :=
        .get (fun _ => rfl) fun _ => .bind (.compute _) fun _ => .pure _
      apply Ignores.ite
      · refine .bind (modify e (fun _ => rfl) fun _ hs => ?_) fun _ => hverify
        exact ⟨hs.rand, hs.sendProt, hs.suite, hs.offered⟩
      · exact hverify

theorem recvCertificate : Ignores (·.withSystem e) (Guarded env) (recvCertificate env) := by
  unfold Gostls.recvCertificate
  refine .bind (receiveMessage e _ _ _ _) ?_
  rintro ⟨msg, payload⟩
  cases msg with
  | certificate certMsg =>
      refine .bind (fatalIf e _ _ _) fun _ => .bind (orFatal e _ _ (parseAndVerifyChain e _)) ?_
      rintro ⟨leafCert, chains⟩
      refine .get (fun _ => rfl) fun s => ?_
      have hdone : Ignores (·.withSystem e) (Guarded env) (do
          Gostls.writeTranscript (buildEnvelope typeCertificate payload)
          return leafCert : HsM _) := .bind (writeTranscript e _) fun _ => .pure _
      dsimp only
      split
      · exact hdone
      · exact .bind (orFatal e _ _ (.compute _)) fun _ => hdone
  | _ => exact fatal e _ _

theorem verifySignedParams (kind : String) (errSectionShort errTruncated : Err)
    (cert : X509Certificate) (serverParams sigData : Bytes) :
    Ignores (·.withSystem e) (Guarded env)
      (verifySignedParams env kind errSectionShort errTruncated cert serverParams sigData) :=
  .bind (fatalIf e _ _ _) fun _ => .bind (.compute _) fun _ => .bind (.compute _) fun _ =>
  .bind (.compute _) fun _ => .bind (.compute _) fun _ => .bind (fatalIf e _ _ _) fun _ =>
  .bind (.compute _) fun _ => .bind (fatalIf e _ _ _) fun _ => .bind (getSuite e) fun _ =>
  .bind (fatalIf e _ _ _) fun _ => .get (fun _ => rfl) fun _ =>
  .bind (orFatal e _ _ (.compute _)) fun _ => .pure _

theorem verifyServerKeyExchange (body : Bytes) (cert : X509Certificate) :
    Ignores (·.withSystem e) (Guarded env) (verifyServerKeyExchange env body cert) := by
  have hecdhe : Ignores (·.withSystem e) (Guarded env) (verifyECDHEServerKeyExchange env body cert) :=
    .bind (fatalIf e _ _ _) fun _ => .bind (.compute _) fun _ => .bind (fatalIf e _ _ _) fun _ =>
    .bind (.compute _) fun _ => .bind (.compute _) fun _ => .bind (fatalIf e _ _ _) fun _ =>
    .bind (.compute _) fun _ => .bind (.compute _) fun _ => verifySignedParams e _ _ _ cert _ _
  have hdhe : Ignores (·.withSystem e) (Guarded env) (verifyDHEServerKeyExchange env body cert) :=
    .bind (orFatal e _ _ (.compute _)) fun _ => .bind (orFatal e _ _ (.compute _)) fun _ =>
    .bind (orFatal e _ _ (.compute _)) fun _ => .bind (.compute _) fun _ =>
    .bind (.compute _) fun _ => verifySignedParams e _ _ _ cert _ _
  unfold Gostls.verifyServerKeyExchange
  refine .bind (getSuite e) fun suite => ?_
  split
  · exact hecdhe
  · exact hdhe
  · exact fatal e _ _

theorem recvServerFlightLoop (serverCert : X509Certificate) (rounds : Nat) (sawSKE sawCertReq : Bool)
    (params : Bytes) :
    Ignores (·.withSystem e) (Guarded env)
      (recvServerFlightLoop env serverCert rounds sawSKE sawCertReq params) := by
  induction rounds generalizing sawSKE sawCertReq params with
  | zero => exact .throw _
  | succ rounds ih =>
      unfold Gostls.recvServerFlightLoop
      refine .bind (orFatal e _ _ (readHandshakeRecord e)) ?_
      rintro ⟨ct, payload⟩
      apply Ignores.ite
      · refine .bind (fatalIf e _ _ _) fun _ => .bind (fatalIf e _ _ _) fun _ =>
          .bind (parsePayload e _ _ _ _) fun msg => ?_
        cases msg with
        | serverKeyExchange ske =>
            exact .bind (writeTranscript e _) fun _ =>
              .bind (verifyServerKeyExchange e _ serverCert) fun params => ih true sawCertReq params
        | _ => exact fatal e _ _
      · apply Ignores.ite
        · refine .bind (fatalIf e _ _ _) fun _ => .bind (parsePayload e _ _ _ _) fun msg => ?_
          cases msg with
          | certificateRequest req =>
              refine .bind (modify e (fun _ => rfl) fun _ hs => ?_) fun _ =>
                .bind (writeTranscript e _) fun _ => ih sawSKE true params
              exact ⟨hs.rand, hs.sendProt, hs.suite, hs.offered⟩
          | _ => exact fatal e _ _
        · apply Ignores.ite
          · exact .bind (parsePayload e _ _ _ _) fun _ => .bind (writeTranscript e _) fun _ => .pure _
          · exact fatal e _ _

theorem recvServerFlight (serverCert : X509Certificate) :
    Ignores (·.withSystem e) (Guarded env) (recvServerFlight env serverCert) := by
  unfold Gostls.recvServerFlight
  refine .bind (recvServerFlightLoop e serverCert _ _ _ _) ?_
  rintro ⟨sawSKE, params⟩
  apply Ignores.ite
  · exact .pure _
  · exact .bind (getSuite e) fun _ => .bind (fatalIf e _ _ _) fun _ => .pure _

/-! ## Keys -/

/-- The exchange of a confined suite. -/
theorem buildExchange_blind {s : ClientState} (hs : Guarded env s) (cert : X509Certificate) (c : KexInputs)
    (hsuite : c.suite.Confined) :
    Blind (·.withSystem e) (buildExchange env cert c)
      (fun exchange t => Guarded env t ∧ (exchange = .ecdhe ∨ ∃ pub, exchange = .rsa pub))
      (fun _ => Guarded env) s := by
  unfold buildExchange
  rcases hsuite.1 with hkx | hkx
  · rw [hkx]
    exact .pure ⟨hs, .inl rfl⟩
  · rw [hkx]
    dsimp only
    split
    · exact .pure ⟨hs, .inr ⟨_, rfl⟩⟩
    · obtain ⟨hsame, hspec⟩ := fatal (α := Exchange) e _ _ s hs
      exact ⟨hsame, wp_fatal.mpr (wp_fatal.mp hspec)⟩

theorem computeKeyExchange (cert : X509Certificate) (params : Bytes) :
    Ignores (·.withSystem e) (Guarded env) (computeKeyExchange env cert params) := by
  intro s hs
  unfold Gostls.computeKeyExchange
  apply (getSuite_blind e hs).call
  rintro suite _ ⟨rfl, -, hsuite⟩
  apply Blind.get rfl
  apply (buildExchange_blind e hs cert _ hsuite).call
  rintro exchange t ⟨ht, hexchange⟩
  -- Both exchanges that are left were built with the configured reader.
  have hdraws : Ignores (RandM.otherSystem e) RandM.Configured (exchange.clientKeyExchange env params) := by
    rcases hexchange with rfl | ⟨pub, rfl⟩
    · exact RandM.ecdhClientKeyExchange_ignores e env params
    · exact RandM.rsaClientKeyExchange_ignores e env pub
  refine (?_ : Ignores _ _ _) t ht
  exact .bind (orFatal e _ _ (drawing e hdraws)) fun _ => .pure _

/-- The protectors of a confined suite. -/
theorem expandKeys_blind {s : ClientState} (hs : Guarded env s) :
    Blind (·.withSystem e) (expandKeys env) (fun r t => Guarded env t ∧ r.1.Confined)
      (fun _ => Guarded env) s := by
  have hcompute : ∀ {α : Type} {t : ClientState} (_ : Guarded env t) (desc : UInt8) (wrap : Err → Err)
      (x : Except Err α), Blind (·.withSystem e) (Gostls.orFatal desc wrap (Lib.compute x))
        (fun a u => u = t ∧ x = .ok a) (fun _ => Guarded env) t :=
    fun ht desc wrap x => orFatal_blind e desc wrap (.compute (fun _ h => ⟨rfl, h⟩) (fun _ _ => ht))
  unfold expandKeys
  apply (getSuite_blind e hs).call
  rintro suite _ ⟨rfl, -, hsuite⟩
  apply Blind.get rfl
  apply (fatalIf_blind e hs _ _ _).call
  rintro _ _ ⟨-, rfl⟩
  -- The key block, and then a protector for each direction; only the sending one matters.
  apply (hcompute hs _ _ _).call
  rintro km _ ⟨rfl, -⟩
  apply (hcompute hs _ _ _).call
  rintro sendProt _ ⟨rfl, hsend⟩
  apply (hcompute hs _ _ _).call
  rintro recvProt _ ⟨rfl, -⟩
  exact .pure ⟨hs, hsuite.protector hsend⟩

theorem agreeKeys_blind {s : ClientState} (hs : Guarded env s) :
    Blind (·.withSystem e) (agreeKeys env) (fun r t => Guarded env t ∧ r.2.2.1.Confined)
      (fun _ => Guarded env) s := by
  unfold agreeKeys
  apply (recvServerHello e s hs).call
  intro _ s₁ h₁
  apply (recvCertificate e s₁ h₁).call
  intro serverCert s₂ h₂
  apply (recvServerFlight e serverCert s₂ h₂).call
  intro params s₃ h₃
  apply (computeKeyExchange e serverCert params s₃ h₃).call
  rintro ⟨preMaster, ckeBody⟩ s₄ h₄
  apply (getSuite_blind e h₄).call
  rintro suite _ ⟨rfl, -, -⟩
  apply Blind.get rfl
  apply (orFatal_blind e _ _ (.compute (Q := fun _ => Guarded env) (fun _ _ => h₄) (fun _ _ => h₄))).call
  intro ms s₅ h₅
  refine .call (Q := fun _ => Guarded env) (.modify rfl ?_) ?_
  · exact ⟨h₅.rand, h₅.sendProt, h₅.suite, h₅.offered⟩
  · intro _ s₆ h₆
    apply (expandKeys_blind e h₆).call
    rintro ⟨sendProt, recvProt⟩ s₇ ⟨h₇, hp⟩
    exact .pure ⟨h₇, hp⟩

/-! ## Client authentication -/

theorem answerCertificateRequest :
    Ignores (·.withSystem e) (Guarded env) answerCertificateRequest := by
  unfold Gostls.answerCertificateRequest
  refine .get (fun _ => rfl) fun s => ?_
  have hsend : Ignores (·.withSystem e) (Guarded env) sendClientCertificate :=
    .get (fun _ => rfl) fun _ => .bind (sendMessage e _ _) fun _ => .pure _
  apply Ignores.ite
  · refine .bind hsend fun sent => ?_
    apply Ignores.ite
    · exact modify e (fun _ => rfl) fun _ hs => ⟨hs.rand, hs.sendProt, hs.suite, hs.offered⟩
    · exact .pure _
  · exact .pure _

/-- Signatures draw on the configured reader. -/
theorem sendCertificateVerify (alg : SigAndHash) :
    Ignores (·.withSystem e) (Guarded env) (sendCertificateVerify env alg) := by
  unfold Gostls.sendCertificateVerify
  refine .bind (orFatal e _ _ (.compute _)) fun cryptoHash => ?_
  refine .bind (orFatal e _ _ (sumTranscript e _ _)) fun digest => .get (fun _ => rfl) fun s => ?_
  have hsign : ∀ key, Ignores (·.withSystem e) (Guarded env) (signDigest env key cryptoHash digest) := by
    intro key
    cases key with
    | rsa _ | ecdsa _ _ => exact orFatal e _ _ (drawing e (RandM.withConfig_ignores e _))
    | other _ => exact fatal e _ _
  split
  · exact .throw _
  · exact .bind (hsign _) fun _ => sendMessage e _ _

/-! ## Finishing -/

theorem finishedData (purpose : Purpose) (site label verifyText : String) (masterSecret : Bytes) :
    Ignores (·.withSystem e) (Guarded env) (finishedData purpose site label verifyText masterSecret) :=
  .bind (getSuite e) fun _ => .bind (orFatal e _ _ (sumTranscript e _ _)) fun _ =>
  orFatal e _ _ (.compute _)

theorem sendFinished (masterSecret : Bytes) {p : Protector} (hp : p.Confined) :
    Ignores (·.withSystem e) (Guarded env) (sendFinished masterSecret p) :=
  .bind (orFatal e _ _ (writeRecord e _ _)) fun _ =>
  .bind (modify e (fun _ => rfl) fun _ hs => ⟨hs.rand, hp, hs.suite, hs.offered⟩) fun _ =>
  .bind (finishedData e _ _ _ _ _) fun _ => sendMessage e _ _

theorem receiveServerFinished (masterSecret : Bytes) (p : Protector) :
    Ignores (·.withSystem e) (Guarded env) (receiveServerFinished masterSecret p) := by
  unfold Gostls.receiveServerFinished receiveChangeCipherSpec
  refine .bind (.bind (orFatal e _ _ (readRecord e)) fun _ => .bind (fatalIf e _ _ _) fun _ =>
    fatalIf e _ _ _) fun _ => ?_
  refine .bind (modify e (fun _ => rfl) fun _ hs => ?_) fun _ => ?_
  · exact ⟨hs.rand, hs.sendProt, hs.suite, hs.offered⟩
  refine .bind (receiveMessage e _ _ _ _) ?_
  rintro ⟨msg, payload⟩
  cases msg with
  | finished fin =>
      exact .bind (finishedData e _ _ _ _ _) fun _ => .bind (fatalIf e _ _ _) fun _ =>
        .get (fun _ => rfl) fun _ => .bind (fatalIf e _ _ _) fun _ => writeTranscript e _
  | _ => exact fatal e _ _

theorem finish (masterSecret : Bytes) {sendProt : Protector} (hp : sendProt.Confined)
    (recvProt : Protector) :
    Ignores (·.withSystem e) (Guarded env) (finish masterSecret sendProt recvProt) :=
  .bind (sendFinished e masterSecret hp) fun _ => .get (fun _ => rfl) fun _ =>
  .bind (fatalIf e _ _ _) fun _ => .bind (receiveServerFinished e _ _) fun _ =>
  modify e (fun _ => rfl) fun _ hs => ⟨hs.rand, hs.sendProt, hs.suite, hs.offered⟩

theorem conclude (ckeBody ms : Bytes) {sendProt : Protector} (hp : sendProt.Confined)
    (recvProt : Protector) :
    Ignores (·.withSystem e) (Guarded env) (conclude env ckeBody ms sendProt recvProt) := by
  unfold Gostls.conclude
  refine .bind (answerCertificateRequest e) fun _ => .bind (sendMessage e _ _) fun _ => ?_
  refine .get (fun _ => rfl) fun s => ?_
  apply Ignores.ite
  · exact .bind (sendCertificateVerify e _) fun _ => finish e ms hp recvProt
  · exact finish e ms hp recvProt

end Guarded

/-- **A guarded handshake does not notice the system's reader.** -/
theorem handshake_ignores (env : Env) (e : Entropy) :
    Ignores (·.withSystem e) (Guarded env) (handshake env) := by
  rw [handshake_eq]
  refine .bind (Guarded.sendClientHello e) fun _ s hs => ?_
  apply (Guarded.agreeKeys_blind e hs).call
  rintro r t ⟨ht, hp⟩
  exact Guarded.conclude e _ _ hp _ t ht

end Gostls

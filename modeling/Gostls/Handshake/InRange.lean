import Gostls.Handshake.Reader
import Gostls.Handshake.ServerKeyExchange
import Gostls.Record.InRange

/-!
# `Gostls.Handshake.InRange` — the handshake's parsers stay in range

Every index and slice of a parser is a checked operation of the model, so "it never goes out of range" is
`InRange`: whatever the bytes, the parser returns. There is one lemma per parser, in the order in which
they are built on each other; each follows the code from check to access, and the bound of an access is
arithmetic on the checks before it.

The parameters of a ServerKeyExchange are walked inside the handshake's monad. There a panic can also be
a missing suite or come out of the signature library, so the statement is that nothing else panics
(`verifyECDHEServerKeyExchange_inRange`, `verifyDHEServerKeyExchange_inRange`).
-/

namespace Gostls

open Lib

theorem sliceTo_length {b x : Bytes} {j : Nat} (h : sliceTo b j = .ok x) : x.length = j := by
  obtain ⟨-, hj, rfl⟩ := slice_ok h
  rw [List.drop_zero, List.length_take_of_le hj]

/-! ## Fields -/

theorem readUint8_inRange (b : Bytes) : InRange (readUint8 b) := by
  refine .check rfl fun hlen => .bind (.index (by omega)) fun v _ => ?_
  exact .bind (.sliceFrom (by omega)) fun rest _ => .ok _

theorem readUint16_inRange (b : Bytes) : InRange (readUint16 b) := by
  refine .check rfl fun hlen => .bind (.sliceTo (by omega)) fun v _ => ?_
  exact .bind (.sliceFrom (by omega)) fun rest _ => .ok _

theorem readBytes_inRange (b : Bytes) (n : Nat) : InRange (readBytes b n) := by
  refine .check rfl fun hlen => .bind (.sliceTo (by omega)) fun v _ => ?_
  exact .bind (.sliceFrom (by omega)) fun rest _ => .ok _

theorem readLenPrefixed_inRange {k : Nat} {errPfx : Err} (hpfx : errPfx.isPanic = false) (b : Bytes) :
    InRange (readLenPrefixed k errPfx b) := by
  refine .check hpfx fun hlen => .bind (.sliceTo (by omega)) fun pfx _ => ?_
  refine .bind (.sliceFrom (by omega)) fun body _ => .check rfl fun hbody => ?_
  refine .bind (.sliceTo (by omega)) fun v _ => ?_
  exact .bind (.sliceFrom (by omega)) fun rest _ => .ok _

theorem readLenPrefixed8_inRange (b : Bytes) : InRange (readLenPrefixed8 b) :=
  readLenPrefixed_inRange rfl b

theorem readLenPrefixed16_inRange (b : Bytes) : InRange (readLenPrefixed16 b) :=
  readLenPrefixed_inRange rfl b

theorem readLenPrefixed24_inRange (b : Bytes) : InRange (readLenPrefixed24 b) :=
  readLenPrefixed_inRange rfl b

/-- The pairs of a list: the index runs over whole pairs. -/
theorem readPairs_inRange {α : Type} (mk : UInt8 → UInt8 → α) {list : Bytes} {n : Nat}
    (hn : pairSize * n ≤ list.length) : InRange (readPairs mk list n) := by
  apply InRange.mapM
  intro i hi
  have hlt : i < n := List.mem_range.mp hi
  simp only [pairSize] at hn
  refine .bind (.index (by simp only [pairSize]; omega)) fun x _ => ?_
  exact .bind (.index (by simp only [pairSize]; omega)) fun y _ => .ok _

/-! ## Extensions -/

theorem parsePairList_inRange {α : Type} {errTruncated errExceeds errOdd : Err}
    (htruncated : errTruncated.isPanic = false) (mk : UInt8 → UInt8 → α) (b : Bytes) :
    InRange (parsePairList errTruncated errExceeds errOdd mk b) := by
  refine .check htruncated fun hlen => .bind (.sliceTo (by omega)) fun pfx _ => ?_
  refine .bind (.sliceFrom (by omega)) fun body _ => .check rfl fun hbody => .check rfl fun heven => ?_
  refine .bind (.sliceTo (by omega)) fun list hlist => readPairs_inRange mk ?_
  rw [sliceTo_length hlist]
  exact Nat.mul_div_le ..

theorem parseServerNameList_inRange (rounds : Nat) (list hostName : Bytes) :
    InRange (parseServerNameList rounds list hostName) := by
  induction rounds generalizing list hostName with
  | zero => exact .ok _
  | succ rounds ih =>
      refine .ite (fun _ => .ok _) fun _ => .check rfl fun hmin => ?_
      simp only [sniMinEntry] at hmin ⊢
      refine .bind (.index (by omega)) fun nameType _ => ?_
      refine .bind (.slice (by omega) (by omega)) fun pfx _ => ?_
      refine .bind (.sliceFrom (by omega)) fun rest _ => .check rfl fun hname => ?_
      refine .bind (.sliceTo (by omega)) fun name _ => .bind (.sliceFrom (by omega)) fun list' _ => ?_
      exact .check rfl fun _ => ih list' name

theorem parseServerName_inRange (b : Bytes) : InRange (parseServerName b) := by
  refine .ite (fun _ => .ok _) fun _ => .check rfl fun hlen => .bind (.sliceTo (by omega)) fun pfx _ => ?_
  refine .bind (.sliceFrom (by omega)) fun body _ => .check rfl fun hbody => ?_
  exact .bind (.sliceTo (by omega)) fun list _ => parseServerNameList_inRange _ _ _

theorem parseECPointFormats_inRange (b : Bytes) : InRange (parseECPointFormats b) := by
  refine .check rfl fun hlen => .bind (.index (by omega)) fun len _ => ?_
  exact .bind (.sliceFrom (by omega)) fun body _ => .check rfl fun hbody => .sliceTo (by omega)

theorem parseExtendedMasterSecret_inRange (b : Bytes) : InRange (parseExtendedMasterSecret b) :=
  .check rfl fun _ => .ok _

theorem parseRenegotiationInfo_inRange (b : Bytes) : InRange (parseRenegotiationInfo b) := by
  refine .check rfl fun hlen => .bind (.index (by omega)) fun len _ => ?_
  refine .bind (.sliceFrom (by omega)) fun body _ => .check rfl fun _ => .check rfl fun _ => ?_
  exact .check rfl fun _ => .ok _

/-- **Every extension body is parsed in range**, whatever its type. -/
theorem parseExtension_inRange (extType : UInt16) (extBody : Bytes) (out : ParsedExtensions) :
    InRange (parseExtension extType extBody out) := by
  refine .ite (fun _ => .bind (parseServerName_inRange _) fun _ _ => .ok _) fun _ => ?_
  refine .ite (fun _ => .bind (parsePairList_inRange rfl _ _) fun _ _ => .ok _) fun _ => ?_
  refine .ite (fun _ => .bind (parseECPointFormats_inRange _) fun _ _ => .ok _) fun _ => ?_
  refine .ite (fun _ => .bind (parsePairList_inRange rfl _ _) fun _ _ => .ok _) fun _ => ?_
  refine .ite (fun _ => .bind (parseExtendedMasterSecret_inRange _) fun _ _ => .ok _) fun _ => ?_
  exact .ite (fun _ => .bind (parseRenegotiationInfo_inRange _) fun _ _ => .ok _) fun _ => .error rfl

theorem parseExtensionsLoop_inRange (rounds : Nat) (extData : Bytes) (out : ParsedExtensions)
    (seen : List UInt16) : InRange (parseExtensionsLoop rounds extData out seen) := by
  induction rounds generalizing extData out seen with
  | zero => exact .ok _
  | succ rounds ih =>
      refine .ite (fun _ => .ok _) fun _ => .check rfl fun hmin => ?_
      simp only [extHeaderSize] at hmin ⊢
      refine .bind (.sliceTo (by omega)) fun typeBytes _ => ?_
      refine .bind (.slice (by omega) (by omega)) fun lenBytes _ => ?_
      refine .check rfl fun _ => .bind (.sliceFrom (by omega)) fun body _ => .check rfl fun hbody => ?_
      refine .bind (.sliceTo (by omega)) fun extBody _ => .bind (.sliceFrom (by omega)) fun extData' _ => ?_
      exact .bind (parseExtension_inRange _ _ _) fun out' _ => ih extData' out' _

theorem parseExtensions_inRange (extData : Bytes) : InRange (parseExtensions extData) :=
  parseExtensionsLoop_inRange _ _ _ _

/-! ## Messages -/

theorem parseHelloExtensions_inRange (site : String) (errTrailing : Err) (b : Bytes) :
    InRange (parseHelloExtensions site errTrailing b) := by
  refine .ite (fun _ => ?_) fun _ => .ok _
  refine .bind (.annotate (readLenPrefixed16_inRange b)) ?_
  rintro ⟨extList, rest⟩ -
  exact .check rfl fun _ => parseExtensions_inRange extList

theorem parseClientHello_inRange (b : Bytes) : InRange (parseClientHello b) := by
  refine .bind (.annotate (readUint16_inRange b)) ?_
  rintro ⟨version, b₁⟩ -
  refine .bind (.annotate (readBytes_inRange b₁ _)) ?_
  rintro ⟨rawRandom, b₂⟩ -
  refine .bind (.annotate (readLenPrefixed8_inRange b₂)) ?_
  rintro ⟨sessionID, b₃⟩ -
  refine .check rfl fun _ => .bind (.annotate (readLenPrefixed16_inRange b₃)) ?_
  rintro ⟨csBytes, b₄⟩ -
  refine .check rfl fun _ => .check rfl fun _ => .bind (readPairs_inRange _ (Nat.mul_div_le ..)) ?_
  intro cipherSuites _
  refine .bind (.annotate (readLenPrefixed8_inRange b₄)) ?_
  rintro ⟨compressionMethods, b₅⟩ -
  refine .check rfl fun _ => .bind (parseHelloExtensions_inRange _ _ b₅) ?_
  rintro ⟨ext, seen⟩ -
  exact .ok _

theorem parseServerHello_inRange (b : Bytes) : InRange (parseServerHello b) := by
  refine .bind (.annotate (readUint16_inRange b)) ?_
  rintro ⟨version, b₁⟩ -
  refine .bind (.annotate (readBytes_inRange b₁ _)) ?_
  rintro ⟨rawRandom, b₂⟩ -
  refine .bind (.annotate (readLenPrefixed8_inRange b₂)) ?_
  rintro ⟨sessionID, b₃⟩ -
  refine .check rfl fun _ => .bind (.annotate (readUint16_inRange b₃)) ?_
  rintro ⟨cipherSuite, b₄⟩ -
  refine .bind (.annotate (readUint8_inRange b₄)) ?_
  rintro ⟨compressionMethod, b₅⟩ -
  refine .bind (parseHelloExtensions_inRange _ _ b₅) ?_
  rintro ⟨ext, seen⟩ -
  exact .check rfl fun _ => .ok _

theorem parseCertificateList_inRange (rounds : Nat) (listBytes : Bytes) (rawCerts : List Bytes) :
    InRange (parseCertificateList rounds listBytes rawCerts) := by
  induction rounds generalizing listBytes rawCerts with
  | zero => exact .ok _
  | succ rounds ih =>
      refine .ite (fun _ => .ok _) fun _ => .bind (.annotate (readLenPrefixed24_inRange listBytes)) ?_
      rintro ⟨certBytes, rest⟩ -
      exact .check rfl fun _ => ih rest _

theorem parseCertificate_inRange (b : Bytes) : InRange (parseCertificate b) := by
  refine .bind (.annotate (readLenPrefixed24_inRange b)) ?_
  rintro ⟨listBytes, rest⟩ -
  exact .check rfl fun _ => .bind (parseCertificateList_inRange _ _ _) fun rawCerts _ => .ok _

theorem parseCertificateAuthorities_inRange (rounds : Nat) (casBytes : Bytes) (names : List Bytes) :
    InRange (parseCertificateAuthorities rounds casBytes names) := by
  induction rounds generalizing casBytes names with
  | zero => exact .ok _
  | succ rounds ih =>
      refine .ite (fun _ => .ok _) fun _ => .bind (.annotate (readLenPrefixed16_inRange casBytes)) ?_
      rintro ⟨dn, rest⟩ -
      exact ih rest _

theorem parseCertificateRequest_inRange (b : Bytes) : InRange (parseCertificateRequest b) := by
  refine .bind (.annotate (readLenPrefixed8_inRange b)) ?_
  rintro ⟨certificateTypes, b₁⟩ -
  refine .bind (.annotate (readLenPrefixed16_inRange b₁)) ?_
  rintro ⟨sigAlgsBytes, b₂⟩ -
  refine .check rfl fun _ => .bind (readPairs_inRange _ (Nat.mul_div_le ..)) fun sigAlgs _ => ?_
  refine .bind (.annotate (readLenPrefixed16_inRange b₂)) ?_
  rintro ⟨casBytes, tail⟩ -
  exact .check rfl fun _ => .bind (parseCertificateAuthorities_inRange _ _ _) fun names _ => .ok _

theorem parseCertificateVerify_inRange (b : Bytes) : InRange (parseCertificateVerify b) := by
  refine .bind (.annotate (readUint8_inRange b)) ?_
  rintro ⟨hash, b₁⟩ -
  refine .bind (.annotate (readUint8_inRange b₁)) ?_
  rintro ⟨sig, b₂⟩ -
  refine .bind (.annotate (readLenPrefixed16_inRange b₂)) ?_
  rintro ⟨signature, rest⟩ -
  exact .ok _

/-- **Every body is parsed in range**, whatever its type. -/
theorem parseBody_inRange (msgType : UInt8) (body : Bytes) : InRange (parseBody msgType body) := by
  have hempty : ∀ {e : Err} {c : Prop} [Decidable c] {m : Message}, e.isPanic = false →
      InRange ((if c then .error e else .ok ()) >>= fun (_ : Unit) => (.ok m : Except Err Message)) :=
    fun he => .bind (.check he fun _ => .ok _) fun _ _ => .ok _
  refine .ite (fun _ => hempty rfl) fun _ => ?_
  refine .ite (fun _ => .bind (parseClientHello_inRange body) fun _ _ => .ok _) fun _ => ?_
  refine .ite (fun _ => .bind (parseServerHello_inRange body) fun _ _ => .ok _) fun _ => ?_
  refine .ite (fun _ => .bind (parseCertificate_inRange body) fun _ _ => .ok _) fun _ => ?_
  refine .ite (fun _ => .ok _) fun _ => ?_
  refine .ite (fun _ => .bind (parseCertificateRequest_inRange body) fun _ _ => .ok _) fun _ => ?_
  refine .ite (fun _ => hempty rfl) fun _ => ?_
  refine .ite (fun _ => .ok _) fun _ => ?_
  refine .ite (fun _ => .bind (parseCertificateVerify_inRange body) fun _ _ => .ok _) fun _ => ?_
  refine .ite (fun _ => .bind (.check rfl fun _ => .ok _) fun _ _ => .ok _) fun _ => ?_
  exact .error rfl

/-- **The envelope.** Its check cuts the number of bytes to 32 bits, which only makes it stricter. -/
theorem parseMessage_inRange (data : Bytes) : InRange (parseMessage data) := by
  refine .check rfl fun hmin => ?_
  simp only [hsEnvelopeSize] at hmin ⊢
  refine .bind (.index (by omega)) fun msgType _ => .bind (.index (by omega)) fun b1 _ => ?_
  refine .bind (.index (by omega)) fun b2 _ => .bind (.index (by omega)) fun b3 _ => ?_
  refine .bind (.sliceFrom (by omega)) fun rest _ => .check rfl fun hbody => ?_
  have hle : ofBE [b1, b2, b3] ≤ rest.length :=
    Nat.le_trans (Nat.not_lt.mp hbody) (Nat.mod_le ..)
  refine .bind (.sliceTo hle) fun body _ => .bind (.sliceFrom hle) fun remaining _ => ?_
  exact .bind (parseBody_inRange msgType body) fun m _ => .ok _

/-! ## The reader -/

theorem consumeBuffered_inRange {buf : Bytes} {n : Nat} (h : n ≤ buf.length) :
    InRange (consumeBuffered buf n) := by
  rw [consumeBuffered_eq h]
  exact .ok _

theorem nextBuffered_inRange (buf : Bytes) : InRange (nextBuffered buf) := by
  refine .ite (fun _ => .ok _) fun hmin => ?_
  simp only [hsEnvelopeSize] at hmin ⊢
  refine .bind (.index (by omega)) fun b1 _ => .bind (.index (by omega)) fun b2 _ => ?_
  refine .bind (.index (by omega)) fun b3 _ => .check rfl fun _ => .ite (fun _ => .ok _) fun hfull => ?_
  refine .bind (.index (by omega)) fun msgType _ => .bind (.slice (by omega) (by omega)) fun body _ => ?_
  exact .bind (consumeBuffered_inRange (by omega)) fun rest _ => .ok _

/-- **An alert is decoded in range exactly if it has two bytes.** -/
theorem decodeAlert_inRange_iff {b : Bytes} : InRange (decodeAlert b) ↔ 2 ≤ b.length := by
  constructor
  · intro h
    by_contra hshort
    apply h
    match b, hshort with
    | [], _ | [_], _ => rfl
    | _ :: _ :: _, hshort => exact absurd (by simp) hshort
  · intro h
    exact .bind (.index (by omega)) fun level _ => .bind (.index (by omega)) fun desc _ => .ok _

theorem refuseRecord_inRange (hsBuf : Bytes) (ct : UInt8) (payload : Bytes) :
    InRange (refuseRecord hsBuf ct payload) := by
  refine .check rfl fun _ => .ite (fun _ => .check rfl fun hlen => ?_) fun _ => .error rfl
  exact .bind (decodeAlert_inRange_iff.mpr (by omega)) fun alert _ => .error rfl

/-- A failed read is passed on or wrapped. -/
theorem nextRecord_inRange (s s' : ClientState) : nextRecord s ≠ .error .panic s' := by
  have hread := s.layer.readRecord_inRange
  unfold nextRecord readRecord
  match hres : s.layer.readRecord with
  | (.ok r, layer) => exact fun h => nomatch h
  | (.error e, layer) =>
      rw [hres] at hread
      dsimp only
      split
      · exact fun h => nomatch h
      · intro h
        cases h
        exact hread rfl

/-- The loop, with more rounds than there is input. -/
theorem readHandshakeLoop_inRange {rounds : Nat} {s : ClientState} (h : s.layer.input.length < rounds)
    (s' : ClientState) : readHandshakeLoop rounds s ≠ .error .panic s' := by
  induction rounds generalizing s with
  | zero => exact absurd h (Nat.not_lt_zero _)
  | succ rounds ih =>
      rw [readHandshakeLoop_succ]
      match hbuf : nextBuffered s.hsBuf with
      | .error e =>
          intro hpanic
          cases hpanic
          exact nextBuffered_inRange _ hbuf
      | .ok (some (t, body, rest)) => exact fun hpanic => nomatch hpanic
      | .ok none =>
          cases hread : nextRecord s with
          | error e s₁ =>
              intro hpanic
              cases hpanic
              exact nextRecord_inRange _ _ hread
          | ok r s₁ =>
              -- The record has taken its header off the input.
              have hlt := nextRecord_input_lt hread
              dsimp only
              split
              · exact ih (by show s₁.layer.input.length < rounds; omega)
              · match hrefuse : refuseRecord s₁.hsBuf r.1 r.2 with
                | .ok r' => exact fun hpanic => nomatch hpanic
                | .error e =>
                    intro hpanic
                    cases hpanic
                    exact refuseRecord_inRange _ _ _ hrefuse

/-- **The reader stays in range**, from every state and on every input. -/
theorem readHandshakeRecord_inRange (s s' : ClientState) : readHandshakeRecord s ≠ .error .panic s' :=
  readHandshakeLoop_inRange (Nat.lt_succ_self _) s'

/-! ## Key exchange parameters -/

theorem readU16LenPrefixedBuf_inRange (buf : Bytes) : InRange (readU16LenPrefixedBuf buf) := by
  refine .check rfl fun hlen => .bind (.index (by omega)) fun hi _ => ?_
  refine .bind (.index (by omega)) fun lo _ => ?_
  exact .bind (.sliceFrom (by omega)) fun rest _ => .check rfl fun hbody => .sliceFrom (by omega)

/-- What is left is not longer, so that `len(body) - len(rest)` is a length. -/
theorem readU16LenPrefixedBuf_length {buf rest : Bytes} (h : readU16LenPrefixedBuf buf = .ok rest) :
    rest.length ≤ buf.length := by
  obtain ⟨x, -, rfl⟩ := readU16LenPrefixedBuf_ok h
  rw [List.length_append]
  exact Nat.le_add_left ..

theorem readU16LenPrefixed_inRange (b : Bytes) : InRange (readU16LenPrefixed b) := by
  refine .check rfl fun hlen => ?_
  simp only [dheU16PrefixLen] at hlen ⊢
  refine .bind (.index (by omega)) fun hi _ => .bind (.index (by omega)) fun lo _ => ?_
  refine .bind (.sliceFrom (by omega)) fun rest _ => .check rfl fun hbody => ?_
  exact .bind (.sliceTo (by omega)) fun data _ => .bind (.sliceFrom (by omega)) fun rest' _ => .ok _

theorem parseDHEServerParams_inRange (params : Bytes) : InRange (parseDHEServerParams params) := by
  refine .bind (.annotate (readU16LenPrefixed_inRange params)) ?_
  rintro ⟨p, rest₁⟩ -
  refine .bind (.annotate (readU16LenPrefixed_inRange rest₁)) ?_
  rintro ⟨g, rest₂⟩ -
  refine .bind (.annotate (readU16LenPrefixed_inRange rest₂)) ?_
  rintro ⟨ys, rest₃⟩ -
  exact .check rfl fun _ => .ok _

/-! ## Programs that may panic for another reason -/

/-- Started in `s`, the program panics only if `X`. -/
def PanicsOnlyIf {α σ : Type} (X : Prop) (m : EStateM Err σ α) (s : σ) : Prop :=
  wp m (fun _ _ => True) (fun e _ => e = .panic → X) s

namespace PanicsOnlyIf

variable {α β σ : Type} {X : Prop} {s : σ}

theorem elim {m : EStateM Err σ α} (h : PanicsOnlyIf X m s) {s' : σ} (hm : m s = .error .panic s') : X :=
  wp.error h hm rfl

theorem pure (a : α) : PanicsOnlyIf X (pure a : EStateM Err σ α) s := trivial

theorem throw {e : Err} (he : e.isPanic = false) : PanicsOnlyIf X (throw e : EStateM Err σ α) s := by
  rintro rfl
  cases he

theorem ite {c : Prop} [Decidable c] {m m' : EStateM Err σ α} (ht : c → PanicsOnlyIf X m s)
    (hf : ¬c → PanicsOnlyIf X m' s) : PanicsOnlyIf X (if c then m else m') s := wp_ite ht hf

theorem get_bind {f : σ → EStateM Err σ β} (hf : PanicsOnlyIf X (f s) s) :
    PanicsOnlyIf X (get >>= f) s := wp_bind.mpr hf

/-- A computation in range, and what follows it. -/
theorem lift_bind {x : Except Err α} {f : α → EStateM Err σ β} (hx : InRange x)
    (hf : ∀ a, x = .ok a → PanicsOnlyIf X (f a) s) :
    PanicsOnlyIf X ((liftM x : EStateM Err σ α) >>= f) s := by
  refine wp_bind.mpr (wp_compute hf ?_)
  rintro e he rfl
  exact absurd he hx

end PanicsOnlyIf

/-! ## The header of the ECDHE parameters -/

theorem curveByID_inRange (id : UInt16) : InRange (curveByID id) := by
  refine .ite (fun _ => .ok _) fun _ => .ite (fun _ => .ok _) fun _ => ?_
  exact .ite (fun _ => .ok _) fun _ => .ite (fun _ => .ok _) fun _ => .error rfl

/-- **The header is decoded in range**: only the agreement behind it can panic. -/
theorem ecdhClientKeyExchange_inRange (env : Env) (serverParams : Bytes) (r : Rands) :
    PanicsOnlyIf (∃ curve point r', ecdhAgree env curve point r = .error .panic r')
      (ecdhClientKeyExchange env serverParams) r := by
  refine .ite (fun _ => .throw rfl) fun hmin => ?_
  simp only [ecdheServerParamsMinLen] at hmin
  refine .lift_bind (.index (by omega)) fun curveType _ => .ite (fun _ => .throw rfl) fun _ => ?_
  refine .lift_bind (.index (by omega)) fun hi _ => .lift_bind (.index (by omega)) fun lo _ => ?_
  refine .lift_bind (curveByID_inRange _) fun curve _ => .lift_bind (.index (by omega)) fun len _ => ?_
  refine .ite (fun _ => .throw rfl) fun hfull => ?_
  refine .lift_bind (.slice (by omega) (by omega)) fun point _ => ?_
  unfold PanicsOnlyIf wp
  cases hagree : ecdhAgree env curve point r with
  | ok a r' => trivial
  | error e r' =>
      rintro rfl
      exact ⟨curve, point, r', hagree⟩

/-! ## ServerKeyExchange -/

/-- The signature functions of the library return. -/
structure Env.SignaturesReturn (env : Env) : Prop where
  rsa : ∀ pub hash digest sig, InRange (env.rsaVerifyPKCS1v15 pub hash digest sig)
  ecdsa : ∀ sig, InRange (env.unmarshalECDSASignature sig)

theorem hashForSigAlg_inRange (hashByte : UInt8) : InRange (hashForSigAlg hashByte) := by
  refine .ite (fun _ => .ok _) fun _ => .ite (fun _ => .ok _) fun _ => ?_
  exact .ite (fun _ => .ok _) fun _ => .ite (fun _ => .ok _) fun _ => .error rfl

theorem verifySignature_inRange {env : Env} (henv : env.SignaturesReturn) (cert : X509Certificate)
    (hashAlg sigAlg : UInt8) (signed sig : Bytes) :
    InRange (verifySignature env cert hashAlg sigAlg signed sig) := by
  refine .bind (hashForSigAlg_inRange _) fun hash _ => ?_
  refine .ite (fun _ => ?_) fun _ => .ite (fun _ => ?_) fun _ => ?_
  · cases cert.publicKey with
    | rsa pub => exact .bind (hashForSigAlg_inRange _) fun _ _ => henv.rsa _ _ _ _
    | _ => exact .error rfl
  · cases cert.publicKey with
    | ecdsa pub =>
        refine .bind (.annotate (henv.ecdsa _)) ?_
        rintro ⟨⟨r, s⟩, rest⟩ -
        exact .check rfl fun _ => .check rfl fun _ => .ok _
    | _ => exact .error rfl
  · exact .error rfl

section

variable {α β : Type} {X : Prop} {s : ClientState} {alertDesc : UInt8}

theorem PanicsOnlyIf.fatalIf_bind {cond : Prop} [Decidable cond] {cause : Err} {f : Unit → HsM β}
    (hcause : cause.isPanic = false) (hf : ¬cond → PanicsOnlyIf X (f ()) s) :
    PanicsOnlyIf X (fatalIf cond alertDesc cause >>= f) s := by
  refine wp_bind.mpr (wp_check (fun _ => ?_) hf)
  rintro rfl
  cases hcause

theorem PanicsOnlyIf.getSuite_bind {f : Suite → HsM β} (hX : s.suite = none → X)
    (hf : ∀ suite, PanicsOnlyIf X (f suite) s) : PanicsOnlyIf X (getSuite >>= f) s := by
  refine wp_bind.mpr ?_
  unfold getSuite
  rw [wp_bind, wp_get]
  cases hsuite : s.suite with
  | some suite => exact hf suite
  | none => exact fun _ => hX hsuite

/-- An error becomes an alert; a panic has a reason. -/
theorem PanicsOnlyIf.orFatal_bind {x : Except Err α} {wrap : Err → Err} {f : α → HsM β}
    (hx : ¬InRange x → X) (hwrap : ∀ e, (wrap e).isPanic = false)
    (hf : ∀ a, x = .ok a → PanicsOnlyIf X (f a) s) :
    PanicsOnlyIf X (orFatal alertDesc wrap (compute x) >>= f) s := by
  refine wp_bind.mpr ?_
  cases hres : x with
  | ok a => exact wp_of_ok (orFatal_ok rfl) (hf a hres)
  | error e =>
      have hrun : (compute (.error e) : HsM α) s = .error e s := rfl
      by_cases hp : e = .panic
      · subst hp
        exact wp_of_error (orFatal_panic hrun) fun _ => hx fun hr => hr hres
      · unfold wp
        rw [orFatal_error hrun hp]
        refine wp_fatal.mpr fun hw => ?_
        have hno := hwrap e
        rw [hw] at hno
        cases hno

variable {env : Env}

theorem verifySignedParams_inRange (kind : String) {errSectionShort errTruncated : Err}
    (hshort : errSectionShort.isPanic = false) (htruncated : errTruncated.isPanic = false)
    (cert : X509Certificate) (serverParams sigData : Bytes) :
    PanicsOnlyIf (s.suite = none ∨ ¬env.SignaturesReturn)
      (verifySignedParams env kind errSectionShort errTruncated cert serverParams sigData) s := by
  refine .fatalIf_bind hshort fun hmin => ?_
  refine .lift_bind (.index (by omega)) fun hashAlg _ => .lift_bind (.index (by omega)) fun sigAlg _ => ?_
  refine .lift_bind (.index (by omega)) fun hi _ => .lift_bind (.index (by omega)) fun lo _ => ?_
  refine .fatalIf_bind htruncated fun hfull => .lift_bind (.slice (by omega) (by omega)) fun sig _ => ?_
  refine .fatalIf_bind rfl fun _ => .getSuite_bind Or.inl fun suite => .fatalIf_bind rfl fun _ => ?_
  refine .get_bind (.orFatal_bind (fun hpanic => ?_) (fun _ => rfl) fun _ _ => .pure _)
  exact .inr fun henv => hpanic (verifySignature_inRange henv _ _ _ _ _)

/-- **ECDHE.** -/
theorem verifyECDHEServerKeyExchange_inRange (body : Bytes) (cert : X509Certificate) :
    PanicsOnlyIf (s.suite = none ∨ ¬env.SignaturesReturn)
      (verifyECDHEServerKeyExchange env body cert) s := by
  refine .fatalIf_bind rfl fun hmin => ?_
  simp only [minECDHEBodyLen] at hmin
  refine .lift_bind (.index (by omega)) fun curveType _ => .fatalIf_bind rfl fun _ => ?_
  refine .lift_bind (.slice (by omega) (by omega)) fun namedCurve _ => ?_
  refine .lift_bind (.index (by omega)) fun len _ => .fatalIf_bind rfl fun hfull => ?_
  refine .lift_bind (.sliceTo (by omega)) fun serverParams _ => ?_
  refine .lift_bind (.sliceFrom (by omega)) fun sigData _ => ?_
  exact verifySignedParams_inRange _ rfl rfl cert serverParams sigData

/-- **DHE.** -/
theorem verifyDHEServerKeyExchange_inRange (body : Bytes) (cert : X509Certificate) :
    PanicsOnlyIf (s.suite = none ∨ ¬env.SignaturesReturn)
      (verifyDHEServerKeyExchange env body cert) s := by
  have hread : ∀ buf, ¬InRange (readU16LenPrefixedBuf buf) → s.suite = none ∨ ¬env.SignaturesReturn :=
    fun buf hno => absurd (readU16LenPrefixedBuf_inRange buf) hno
  refine .orFatal_bind (hread _) (fun _ => rfl) fun rest₁ h₁ => ?_
  refine .orFatal_bind (hread _) (fun _ => rfl) fun rest₂ h₂ => ?_
  refine .orFatal_bind (hread _) (fun _ => rfl) fun rest₃ h₃ => ?_
  have hle : rest₃.length ≤ body.length :=
    (readU16LenPrefixedBuf_length h₃).trans
      ((readU16LenPrefixedBuf_length h₂).trans (readU16LenPrefixedBuf_length h₁))
  rw [sliceBound_sub hle]
  refine .lift_bind (.ok _) ?_
  rintro _ ⟨⟩
  refine .lift_bind (.sliceTo (Nat.sub_le ..)) fun serverParams _ => ?_
  exact verifySignedParams_inRange _ rfl rfl cert serverParams rest₃

end

end Gostls

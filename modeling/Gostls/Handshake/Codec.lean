import Gostls.Handshake.ExtensionCodec
import Gostls.Handshake.Messages

/-!
# `Gostls.Handshake.Codec` — a marshalled message is parsed as itself

For each message the encoder is brought into the form the readers of its parser take apart, one field
after the other (`ClientHello.marshal_eq`, …), and the parser is run on it (`parseClientHello_marshal`,
…). `parseBody_marshal` collects the messages.

The envelope is where the round trip can fail. The parser compares the declared length with the number
of bytes it has *cut to 32 bits*, so a message in front of enough other bytes is taken for a truncated
one: `parseMessage_marshalMessage_iff` says when.
-/

namespace Gostls

open Lib

/-! ## Extensions -/

theorem encodeExtension_le {e : UInt16 × Bytes} {es : List (UInt16 × Bytes)} (he : e ∈ es) :
    extHeaderSize + e.2.length ≤ (es.flatMap encodeExtension).length := by
  rw [← encodeExtension_length]
  exact length_enc_le he

/-- Extensions that fit a list fit their encoders; the point formats have a length of their own. -/
theorem ParsedExtensions.fits_of_length {ext : ParsedExtensions}
    (h : (ext.entries.flatMap encodeExtension).length < 65536) (hformats : ext.ecPointFormats.length < 256) :
    ext.Fits := by
  have hle : ∀ e ∈ ext.entries, e.2.length < 65536 := by
    intro e he
    have := encodeExtension_le he
    omega
  refine ⟨?_, ?_, hformats, ?_⟩
  · by_cases hne : ext.serverName = []
    · simp [hne, sniMinEntry]
    · have hbody := hle (extServerName, marshalServerName ext.serverName)
        (by simp [ParsedExtensions.entries, hne])
      simp only [marshalServerName, appendUint16_ofNat, appendUint8, List.length_append, toBE_length,
        List.length_cons, List.length_nil] at hbody
      simp only [sniMinEntry]
      omega
  · by_cases hne : ext.supportedGroups.length = 0
    · simp [hne]
    · have hbody := hle (extSupportedGroups, marshalSupportedGroups ext.supportedGroups)
        (by simp [ParsedExtensions.entries, Nat.pos_of_ne_zero hne])
      rw [marshalSupportedGroups_eq, List.length_append, flatMap_pair_length] at hbody
      omega
  · by_cases hne : ext.signatureAlgorithms.length = 0
    · simp [hne]
    · have hbody := hle (extSignatureAlgorithms, marshalSignatureAlgorithms ext.signatureAlgorithms)
        (by simp [ParsedExtensions.entries, Nat.pos_of_ne_zero hne])
      rw [marshalSignatureAlgorithms_eq, List.length_append, flatMap_pair_length] at hbody
      omega

/-- **The extension block of a hello is read back**, with the types that were written. -/
theorem parseHelloExtensions_marshal {site : String} {errTrailing : Err} {ext : ParsedExtensions}
    (hformats : ext.ecPointFormats.length < 256) (hlen : (marshalExtensions ext).length < 65536) :
    parseHelloExtensions site errTrailing (marshalExtensions ext) =
      .ok (ext, ext.entries.map Prod.fst) := by
  rw [marshalExtensions_eq] at hlen ⊢
  by_cases hnone : ext.entries = []
  · have hread := readExtensions_entries (ext.fits_of_length (by simp [hnone]) hformats)
    rw [hnone] at hread ⊢
    cases hread
    rfl
  · rw [if_neg hnone] at hlen ⊢
    rw [List.length_append] at hlen
    have hbound : (ext.entries.flatMap encodeExtension).length < 65536 := by omega
    have hread := readExtensions_entries (ext.fits_of_length hbound hformats)
    have hshort : ∀ e ∈ ext.entries, e.2.length < 65536 := by
      intro e he
      have := encodeExtension_le he
      omega
    have hlist : parseExtensions (ext.entries.flatMap encodeExtension) =
        .ok (ext, ext.entries.map Prod.fst) :=
      parseExtensions_ok_iff.mpr ⟨_, ⟨hshort, rfl⟩, ext.entries_nodup, rfl, hread⟩
    have hpfx := readLenPrefixed16_append hbound []
    rw [List.append_nil] at hpfx
    have hpos : (toBE 2 (ext.entries.flatMap encodeExtension).length ++
        ext.entries.flatMap encodeExtension).length > 0 := by simp
    unfold parseHelloExtensions
    rw [if_pos hpos, hpfx]
    simp only [annotate_ok, ok_bind, List.length_nil, ne_eq, not_true_eq_false, if_false, hlist]

/-! ## Hellos -/

/-- The extensions of a ClientHello. -/
def ClientHello.extensions (m : ClientHello) : ParsedExtensions :=
  { serverName := m.serverName, supportedGroups := m.supportedGroups, ecPointFormats := m.ecPointFormats,
    signatureAlgorithms := m.signatureAlgorithms, extendedMasterSecret := m.extendedMasterSecret,
    renegotiationInfo := m.renegotiationInfo }

theorem ClientHello.marshal_eq (m : ClientHello) :
    m.marshal = toBE 2 m.version.toNat ++ (m.random.val ++ (toBE 1 m.sessionID.length ++ (m.sessionID ++
      (toBE 2 (pairSize * m.cipherSuites.length) ++ ((m.cipherSuites.flatMap fun v => toBE 2 v.toNat) ++
      (toBE 1 m.compressionMethods.length ++ (m.compressionMethods ++
        marshalExtensions m.extensions))))))) := by
  simp only [ClientHello.marshal, appendUint16_ofNat, foldl_appendUint16, appendLenPrefixed8_eq,
    List.append_assoc]
  rfl

/-- A random is copied as it is. -/
theorem Random.copy_val (r : Random) : Random.copy r.val = r := Subtype.ext (fit_eq_self r.property)

theorem readBytes_random (r : Random) (rest : Bytes) :
    readBytes (r.val ++ rest) tlsRandomLen = .ok (r.val, rest) :=
  readBytes_ok_iff.mpr ⟨r.property, rfl⟩

theorem parseClientHello_marshal {m : ClientHello} (hsize : m.marshal.length < 65536)
    (hsid : m.sessionID.length ≤ maxSessionIDLen) (hcs : 1 ≤ m.cipherSuites.length)
    (hcm : 1 ≤ m.compressionMethods.length) (hcm' : m.compressionMethods.length ≤ 255)
    (hformats : m.ecPointFormats.length ≤ 255) : parseClientHello m.marshal = .ok m := by
  have hsuites : (m.cipherSuites.flatMap fun v => toBE 2 v.toNat).length =
      pairSize * m.cipherSuites.length := flatMap_pair_length _ _ _
  rw [ClientHello.marshal_eq] at hsize ⊢
  simp only [List.length_append, toBE_length, hsuites] at hsize
  -- The suites are two bytes each, and at least one.
  have hread : ∀ b, readLenPrefixed16 (toBE 2 (pairSize * m.cipherSuites.length) ++
      ((m.cipherSuites.flatMap fun v => toBE 2 v.toNat) ++ b)) =
      .ok (m.cipherSuites.flatMap fun v => toBE 2 v.toNat, b) := by
    intro b
    rw [← hsuites]
    exact readLenPrefixed16_append (by omega) b
  have hmk : ∀ v : UInt16, uint16Of (UInt8.ofNat (v.toNat / 256)) (UInt8.ofNat v.toNat) = v :=
    beUint16_toBE
  have hpairs : readPairs uint16Of (m.cipherSuites.flatMap fun v => toBE 2 v.toNat)
      m.cipherSuites.length = .ok m.cipherSuites := readPairs_flatMap hmk m.cipherSuites
  have hcount : pairSize * m.cipherSuites.length / pairSize = m.cipherSuites.length :=
    Nat.mul_div_right _ (by decide)
  have heven : pairSize * m.cipherSuites.length % 2 = 0 := Nat.mul_mod_right 2 _
  have hsome : ¬ pairSize * m.cipherSuites.length < pairSize := by
    simp only [pairSize]
    omega
  have hext : parseHelloExtensions "handshake: ClientHello" errCHTrailingData
      (marshalExtensions m.extensions) = .ok (m.extensions, m.extensions.entries.map Prod.fst) :=
    parseHelloExtensions_marshal (Nat.lt_succ_of_le hformats) (by omega)
  simp only [parseClientHello, readUint16_append, annotate_ok, ok_bind, readBytes_random,
    readLenPrefixed8_append (Nat.lt_of_le_of_lt hsid (by decide)), if_neg (Nat.not_lt.mpr hsid), hread,
    hsuites, heven, ne_eq, not_true_eq_false, if_false, if_neg hsome, hcount, hpairs,
    readLenPrefixed8_append (Nat.lt_succ_of_le hcm'), if_neg (Nat.pos_iff_ne_zero.mp hcm), hext,
    Random.copy_val, pure_eq]
  rfl

/-- The extensions of a ServerHello that have an encoder. -/
def ServerHello.extensions (m : ServerHello) : ParsedExtensions :=
  { extendedMasterSecret := m.extendedMasterSecret, renegotiationInfo := m.renegotiationInfo }

theorem ServerHello.marshal_eq (m : ServerHello) :
    m.marshal = toBE 2 m.version.toNat ++ (m.random.val ++ (toBE 1 m.sessionID.length ++ (m.sessionID ++
      (toBE 2 m.cipherSuite.toNat ++ (m.compressionMethod :: marshalExtensions m.extensions))))) := by
  simp only [ServerHello.marshal, appendUint16, appendUint8, appendLenPrefixed8_eq, List.append_assoc]
  rfl

theorem parseServerHello_marshal {m : ServerHello} (hsize : m.marshal.length < 65536)
    (hsid : m.sessionID.length ≤ maxSessionIDLen) :
    parseServerHello m.marshal =
      .ok { m with extensionTypes := m.extensions.entries.map Prod.fst } := by
  rw [ServerHello.marshal_eq] at hsize ⊢
  simp only [List.length_append, List.length_cons, toBE_length] at hsize
  have hext : parseHelloExtensions "handshake: ServerHello" errSHTrailingData
      (marshalExtensions m.extensions) = .ok (m.extensions, m.extensions.entries.map Prod.fst) :=
    parseHelloExtensions_marshal (Nat.zero_lt_succ 255) (by omega)
  have hcm : ∀ b, readUint8 (m.compressionMethod :: b) = .ok (m.compressionMethod, b) :=
    fun _ => readUint8_ok_iff.mpr rfl
  have hname : ¬ m.extensions.serverName ≠ [] := fun h => h rfl
  simp only [parseServerHello, readUint16_append, annotate_ok, ok_bind, readBytes_random,
    readLenPrefixed8_append (Nat.lt_of_le_of_lt hsid (by decide)), if_neg (Nat.not_lt.mpr hsid), hcm,
    hext, if_neg hname, Random.copy_val, pure_eq]
  rfl

/-! ## The other messages -/

/-- An entry of a certificate list. -/
def encodeCertificate (c : Bytes) : Bytes := toBE 3 c.length ++ c

theorem Certificate.marshal_eq (m : Certificate) :
    m.marshal = toBE 3 (m.rawCerts.flatMap encodeCertificate).length ++
      (m.rawCerts.flatMap encodeCertificate ++ []) := by
  have hlen : ∀ (l : List Bytes) (n : Nat),
      l.foldl (fun n c => n + (certEntryOverhead + c.length)) n =
        n + (l.flatMap encodeCertificate).length := by
    intro l
    induction l with
    | nil => exact fun n => rfl
    | cons c l ih =>
        intro n
        rw [List.foldl_cons, ih, List.flatMap_cons, List.length_append, encodeCertificate,
          List.length_append, toBE_length, certEntryOverhead]
        omega
  rw [Certificate.marshal, hlen, Nat.zero_add, List.append_nil, List.flatMap_def,
    ← List.foldl_append_eq_append]
  simp only [appendUint24, List.append_assoc, List.nil_append]
  rfl

theorem encodeCertificate_ne_nil (c : Bytes) : encodeCertificate c ≠ [] :=
  List.append_ne_nil_of_left_ne_nil (List.ne_nil_of_length_pos (by rw [toBE_length]; omega)) c

/-- **What the loop accepts**: certificates behind their lengths, none of them empty. -/
theorem parseCertificateList_ok_iff {rounds : Nat} {listBytes : Bytes} {rawCerts out : List Bytes}
    (hrounds : listBytes.length ≤ rounds) :
    parseCertificateList rounds listBytes rawCerts = .ok out ↔
      ∃ certs : List Bytes, (∀ c ∈ certs, c.length ≠ 0 ∧ c.length < 16777216) ∧
        listBytes = certs.flatMap encodeCertificate ∧ out = rawCerts ++ certs := by
  have hnil : ∀ rounds rawCerts, parseCertificateList rounds [] rawCerts = .ok rawCerts := by
    intro rounds rawCerts
    cases rounds <;> rfl
  have hcons : ∀ rounds listBytes rawCerts out, listBytes ≠ [] →
      (parseCertificateList (rounds + 1) listBytes rawCerts = .ok out ↔
        ∃ c rest rawCerts', (c.length ≠ 0 ∧ c.length < 16777216) ∧
          listBytes = encodeCertificate c ++ rest ∧
          Except.ok (rawCerts ++ [c]) = (Except.ok rawCerts' : Except Err (List Bytes)) ∧
          parseCertificateList rounds rest rawCerts' = .ok out) := by
    intro rounds listBytes rawCerts out hne
    rw [parseCertificateList, if_neg (fun h => hne (List.length_eq_zero_iff.mp h))]
    constructor
    · intro h
      obtain ⟨⟨c, rest⟩, hread, htail⟩ := bind_eq_ok.mp h
      obtain ⟨hlt, rfl⟩ := readLenPrefixed_ok_iff.mp (mapErr_eq_ok.mp hread)
      dsimp only at htail
      split at htail
      · cases htail
      · rename_i hlen
        exact ⟨c, rest, _, ⟨hlen, hlt⟩, (List.append_assoc ..).symm, rfl, htail⟩
    · rintro ⟨c, rest, _, ⟨hlen, hlt⟩, rfl, ⟨⟩, htail⟩
      rw [encodeCertificate, List.append_assoc, readLenPrefixed24_append hlt]
      simp only [annotate_ok, ok_bind, if_neg hlen, htail]
  rw [loop_ok_iff hnil hcons encodeCertificate_ne_nil hrounds]
  simp only [foldlM_snoc, Except.ok.injEq, eq_comm]

theorem parseCertificate_marshal {m : Certificate} (hsize : m.marshal.length < 16777216)
    (hcerts : ∀ c ∈ m.rawCerts, c.length ≠ 0) : parseCertificate m.marshal = .ok m := by
  rw [Certificate.marshal_eq] at hsize ⊢
  simp only [List.length_append, toBE_length] at hsize
  have hshort : ∀ c ∈ m.rawCerts, c.length ≠ 0 ∧ c.length < 16777216 := by
    intro c hc
    have hle : (encodeCertificate c).length ≤ (m.rawCerts.flatMap encodeCertificate).length :=
      length_enc_le hc
    rw [encodeCertificate, List.length_append] at hle
    exact ⟨hcerts c hc, by omega⟩
  have hlist : parseCertificateList _ (m.rawCerts.flatMap encodeCertificate) [] = .ok ([] ++ m.rawCerts) :=
    (parseCertificateList_ok_iff (Nat.le_refl _)).mpr ⟨m.rawCerts, hshort, rfl, rfl⟩
  simp only [parseCertificate, readLenPrefixed24_append (show
      (m.rawCerts.flatMap encodeCertificate).length < 16777216 by omega), annotate_ok, ok_bind,
    List.length_nil, ne_eq, not_true_eq_false, if_false, hlist, List.nil_append, pure_eq]

theorem CertificateVerify.marshal_eq (m : CertificateVerify) :
    m.marshal = m.algorithm.hash :: m.algorithm.sig :: (toBE 2 m.signature.length ++ m.signature) := by
  rw [CertificateVerify.marshal, appendLenPrefixed16_eq]
  rfl

/-- A CertificateVerify may have bytes behind it that nobody reads. -/
theorem parseCertificateVerify_ok_iff {b : Bytes} {m : CertificateVerify} :
    parseCertificateVerify b = .ok m ↔ m.signature.length < 65536 ∧
      ∃ trailing, b = m.algorithm.hash :: m.algorithm.sig ::
        (toBE 2 m.signature.length ++ (m.signature ++ trailing)) := by
  unfold parseCertificateVerify
  constructor
  · intro h
    obtain ⟨⟨hash, b₁⟩, hhash, h₁⟩ := bind_eq_ok.mp h
    obtain ⟨⟨sig, b₂⟩, hsig, h₂⟩ := bind_eq_ok.mp h₁
    obtain ⟨⟨signature, trailing⟩, hsignature, heq⟩ := bind_eq_ok.mp h₂
    obtain rfl := readUint8_ok_iff.mp (mapErr_eq_ok.mp hhash)
    obtain rfl := readUint8_ok_iff.mp (mapErr_eq_ok.mp hsig)
    obtain ⟨hlt, rfl⟩ := readLenPrefixed_ok_iff.mp (mapErr_eq_ok.mp hsignature)
    cases heq
    exact ⟨hlt, trailing, rfl⟩
  · rintro ⟨hlt, trailing, rfl⟩
    have hbyte : ∀ (v : UInt8) b, readUint8 (v :: b) = .ok (v, b) := fun _ _ => readUint8_ok_iff.mpr rfl
    simp only [hbyte, annotate_ok, ok_bind, readLenPrefixed16_append hlt, pure_eq]

theorem parseCertificateVerify_marshal {m : CertificateVerify} (hsize : m.marshal.length < 65536) :
    parseCertificateVerify m.marshal = .ok m := by
  rw [m.marshal_eq] at hsize ⊢
  simp only [List.length_cons, List.length_append] at hsize
  refine parseCertificateVerify_ok_iff.mpr ⟨by omega, [], ?_⟩
  rw [List.append_nil]

theorem parseFinished_of_length {b : Bytes} (h : b.length = 12 ∨ b.length = 32) :
    parseFinished b = .ok ⟨b⟩ := if_neg (by omega)

/-! ## Messages -/

namespace Message

/-- The constraints the parser of a message puts on its fields. A CertificateRequest has no encoder. -/
def Acceptable : Message → Prop
  | .clientHello m        =>
    m.sessionID.length ≤ maxSessionIDLen ∧ 1 ≤ m.cipherSuites.length ∧
      1 ≤ m.compressionMethods.length ∧ m.compressionMethods.length ≤ 255 ∧
      m.ecPointFormats.length ≤ 255
  | .serverHello m        => m.sessionID.length ≤ maxSessionIDLen
  | .certificate m        => ∀ c ∈ m.rawCerts, c.length ≠ 0
  | .certificateRequest _ => False
  | .finished m           => m.verifyData.length = 12 ∨ m.verifyData.length = 32
  | _                     => True

/-- A message that its parser accepts and that fits a record, envelope included. -/
structure Encodable (m : Message) : Prop where
  acceptable : m.Acceptable
  fits : (marshalMessage m).length ≤ 2 ^ 14

/-- The message a parser makes of `m`: a ServerHello comes with the types of the extensions that were
    marshalled. -/
def received : Message → Message
  | .serverHello m => .serverHello { m with extensionTypes :=
      (if m.extendedMasterSecret then [extExtendedMasterSecret] else []) ++
      (if m.renegotiationInfo then [extRenegotiationInfo] else []) }
  | m => m

end Message

theorem ServerHello.entries_types (m : ServerHello) :
    m.extensions.entries.map Prod.fst =
      (if m.extendedMasterSecret then [extExtendedMasterSecret] else []) ++
      (if m.renegotiationInfo then [extRenegotiationInfo] else []) := by
  obtain ⟨_, _, _, _, _, extendedMasterSecret, renegotiationInfo, _⟩ := m
  cases extendedMasterSecret <;> cases renegotiationInfo <;> rfl

theorem marshal_length_of_encodable {m : Message} (h : m.Encodable) : m.marshal.length ≤ 2 ^ 14 - 4 := by
  have hfits := h.fits
  rw [marshalMessage_eq, buildEnvelope_length, hsEnvelopeSize] at hfits
  omega

/-- **The body of a marshalled message** is parsed as the message. -/
theorem parseBody_marshal {m : Message} (h : m.Encodable) :
    parseBody m.type m.marshal = .ok m.received := by
  have hsize := marshal_length_of_encodable h
  have hok := h.acceptable
  cases m with
  | helloRequest => rfl
  | clientHello m =>
      obtain ⟨hsid, hcs, hcm, hcm', hformats⟩ := hok
      have hlt : m.marshal.length < 65536 := Nat.lt_of_le_of_lt hsize (by decide)
      exact bind_eq_ok.mpr ⟨m, parseClientHello_marshal hlt hsid hcs hcm hcm' hformats, rfl⟩
  | serverHello m =>
      have hlt : m.marshal.length < 65536 := Nat.lt_of_le_of_lt hsize (by decide)
      have hparse := parseServerHello_marshal hlt hok
      rw [ServerHello.entries_types] at hparse
      exact bind_eq_ok.mpr ⟨_, hparse, rfl⟩
  | certificate m =>
      have hlt : m.marshal.length < 16777216 := Nat.lt_of_le_of_lt hsize (by decide)
      exact bind_eq_ok.mpr ⟨m, parseCertificate_marshal hlt hok, rfl⟩
  | serverKeyExchange m => rfl
  | certificateRequest m => exact hok.elim
  | serverHelloDone => rfl
  | clientKeyExchange m => rfl
  | certificateVerify m =>
      have hlt : m.marshal.length < 65536 := Nat.lt_of_le_of_lt hsize (by decide)
      exact bind_eq_ok.mpr ⟨m, parseCertificateVerify_marshal hlt, rfl⟩
  | finished m => exact bind_eq_ok.mpr ⟨m, parseFinished_of_length hok, rfl⟩

/-- **Round trip.** A message that is marshalled in front of `rest` is parsed as itself with exactly
    `rest` left over, if and only if the number of bytes behind its header does not wrap below the
    length of its body when it is cut to 32 bits. -/
theorem parseMessage_marshalMessage_iff (m : Message) (h : m.Encodable) (rest : Bytes) :
    parseMessage (marshalMessage m ++ rest) = .ok (m.received, rest) ↔
      m.marshal.length ≤ (m.marshal.length + rest.length) % 2 ^ 32 := by
  have hsize := marshal_length_of_encodable h
  rw [marshalMessage_eq, parseMessage_buildEnvelope_append (by omega), parseBody_marshal h,
    List.length_append, ok_bind]
  constructor
  · intro hparse
    by_contra hwraps
    rw [if_pos (Nat.not_le.mp hwraps)] at hparse
    cases hparse
  · intro hfull
    rw [if_neg (Nat.not_lt.mpr hfull)]

/-- A ServerHello with both of its extensions, and three bytes behind it. -/
theorem parseMessage_marshalMessage_serverHello :
    parseMessage (marshalMessage (.serverHello ⟨0x0303, .copy [7], [1, 2], 0x009C, 0, true, true, []⟩) ++
      [9, 9, 9]) =
    .ok (.serverHello ⟨0x0303, .copy [7], [1, 2], 0x009C, 0, true, true,
      [extExtendedMasterSecret, extRenegotiationInfo]⟩, [9, 9, 9]) := by
  have hok : Message.Encodable
      (.serverHello ⟨0x0303, .copy [7], [1, 2], 0x009C, 0, true, true, []⟩) :=
    ⟨show 2 ≤ maxSessionIDLen by decide, by decide⟩
  exact (parseMessage_marshalMessage_iff _ hok _).mpr (by decide)

/-- A Finished in front of `2^32 - 12` bytes: the parser has `2^32` bytes behind the header, counts
    none, and reports a truncated body. -/
theorem finished_taken_for_truncated :
    Message.Encodable (.finished ⟨List.replicate 12 0⟩) ∧
      parseMessage (marshalMessage (.finished ⟨List.replicate 12 0⟩) ++ List.replicate (2 ^ 32 - 12) 0) =
        .error (errMsgBodyTruncated.detail ": declared 12 bytes, have 4294967296") := by
  refine ⟨⟨.inl rfl, by decide⟩, ?_⟩
  rw [marshalMessage_eq, parseMessage_buildEnvelope_append (by decide)]
  have hbody : (Message.finished ⟨List.replicate 12 0⟩).marshal.length = 12 := rfl
  have hlen : ((Message.finished ⟨List.replicate 12 0⟩).marshal ++
      List.replicate (2 ^ 32 - 12) (0 : UInt8)).length = 4294967296 := by
    rw [List.length_append, List.length_replicate, hbody]
    omega
  rw [hlen, hbody, if_pos (by decide)]
  rfl

end Gostls

import Gostls.Handshake.Codec

/-!
# `Gostls.Handshake.Strictness` — what the parsers read of the bytes they accept

A strict parser accepts one encoding of each message: nothing that it accepts holds a byte that it does
not read. Of the messages with an encoder that is so for all but one.

* `parseMessage_strict_iff` — what was accepted is what the encoder writes; except that a
  CertificateVerify may go on behind its signature;
* `parseCertificateRequest_ok_iff` — a CertificateRequest is three vectors that fill the body, and the
  names fill theirs;
* `certificateRequest_grammar_iff` — the first two of them may be empty, which the grammar has not.
-/

namespace Gostls

open Lib

/-! ## Envelopes -/

/-- **What an accepted message stands in**: an envelope of its type around a body of its parser. -/
theorem parseMessage_ok {data rest : Bytes} {m : Message} (h : parseMessage data = .ok (m, rest)) :
    ∃ msgType body, body.length < 2 ^ 24 ∧ data = buildEnvelope msgType body ++ rest ∧
      parseBody msgType body = .ok m := by
  unfold parseMessage at h
  split at h
  · cases h
  rename_i hmin
  match data, hmin with
  | msgType :: b₁ :: b₂ :: b₃ :: data, _ =>
      have hdrop : sliceFrom (msgType :: b₁ :: b₂ :: b₃ :: data) hsEnvelopeSize = .ok data :=
        sliceFrom_append (a := [msgType, b₁, b₂, b₃]) rfl data
      simp only [index_cons_zero, index_cons_succ, ok_bind, hdrop] at h
      split at h
      · cases h
      rename_i hfull
      -- The length of the data, cut to 32 bits or not, covers the body.
      have hn : ofBE [b₁, b₂, b₃] ≤ data.length :=
        Nat.le_trans (Nat.not_lt.mp hfull) (Nat.mod_le _ _)
      rw [sliceTo_eq hn, sliceFrom_eq hn] at h
      simp only [ok_bind] at h
      obtain ⟨m', hbody, heq⟩ := bind_eq_ok.mp h
      cases heq
      obtain ⟨hlt, heq⟩ := prefixed_eq (k := 3) (b := b₁ :: b₂ :: b₃ :: data) (by simp) hn
      refine ⟨msgType, data.take (ofBE [b₁, b₂, b₃]), hlt, ?_, hbody⟩
      rw [buildEnvelope, List.cons_append, List.cons_append, List.append_assoc]
      exact congrArg (msgType :: ·) heq
  | [], hmin | [_], hmin | [_, _], hmin | [_, _, _], hmin =>
      exact absurd (by simp [hsEnvelopeSize]) hmin

/-! ## Bodies -/

theorem parseHelloRequest_ok {b : Bytes} (h : parseHelloRequest b = .ok ()) : b = [] := by
  unfold parseHelloRequest at h
  split at h
  · cases h
  · rename_i hb
    exact List.length_eq_zero_iff.mp (not_not.mp hb)

/-- A Certificate is read to its last byte. -/
theorem parseCertificate_strict {b : Bytes} {m : Certificate} (h : parseCertificate b = .ok m) :
    m.marshal = b := by
  unfold parseCertificate at h
  obtain ⟨⟨listBytes, rest⟩, hlist, h₁⟩ := bind_eq_ok.mp h
  obtain ⟨-, rfl⟩ := readLenPrefixed_ok_iff.mp (mapErr_eq_ok.mp hlist)
  dsimp only at h₁
  split at h₁
  · cases h₁
  rename_i hrest
  obtain rfl := List.length_eq_zero_iff.mp (not_not.mp hrest)
  obtain ⟨rawCerts, hcerts, heq⟩ := bind_eq_ok.mp h₁
  cases heq
  obtain ⟨certs, -, rfl, rfl⟩ := (parseCertificateList_ok_iff (Nat.le_refl _)).mp hcerts
  rw [Certificate.marshal_eq]

/-- The messages with an encoder, the hellos apart. -/
def Message.NonHello : Message → Prop
  | .clientHello _ | .serverHello _ | .certificateRequest _ => False
  | _ => True

/-- A body is parsed as a message of its type. -/
theorem parseBody_type {msgType : UInt8} {body : Bytes} {m : Message}
    (h : parseBody msgType body = .ok m) : msgType = m.type := by
  -- A branch that parses makes one kind of message.
  have hparse : ∀ {α : Type} {x : Except Err α} {mk : α → Message},
      (x >>= fun a => pure (mk a)) = .ok m → (∀ a, msgType = (mk a).type) → msgType = m.type := by
    intro α x mk hx htype
    obtain ⟨a, -, heq⟩ := bind_eq_ok.mp hx
    cases heq
    exact htype a
  unfold parseBody at h
  rcases ite_eq_iff.mp h with ⟨htype, h⟩ | ⟨-, h⟩
  · exact hparse h fun _ => htype
  rcases ite_eq_iff.mp h with ⟨htype, h⟩ | ⟨-, h⟩
  · exact hparse h fun _ => htype
  rcases ite_eq_iff.mp h with ⟨htype, h⟩ | ⟨-, h⟩
  · exact hparse h fun _ => htype
  rcases ite_eq_iff.mp h with ⟨htype, h⟩ | ⟨-, h⟩
  · exact hparse h fun _ => htype
  rcases ite_eq_iff.mp h with ⟨htype, h⟩ | ⟨-, h⟩
  · cases h
    exact htype
  rcases ite_eq_iff.mp h with ⟨htype, h⟩ | ⟨-, h⟩
  · exact hparse h fun _ => htype
  rcases ite_eq_iff.mp h with ⟨htype, h⟩ | ⟨-, h⟩
  · exact hparse h fun _ => htype
  rcases ite_eq_iff.mp h with ⟨htype, h⟩ | ⟨-, h⟩
  · cases h
    exact htype
  rcases ite_eq_iff.mp h with ⟨htype, h⟩ | ⟨-, h⟩
  · exact hparse h fun _ => htype
  rcases ite_eq_iff.mp h with ⟨htype, h⟩ | ⟨-, h⟩
  · exact hparse h fun _ => htype
  -- An unknown type is refused.
  cases h

/-- **An accepted body is the encoder's**, up to what trails a CertificateVerify. -/
theorem parseBody_strict {msgType : UInt8} {body : Bytes} {m : Message}
    (h : parseBody msgType body = .ok m) (hm : m.NonHello) :
    ∃ trailing, body = m.marshal ++ trailing ∧ (msgType ≠ typeCertificateVerify → trailing = []) := by
  obtain rfl := parseBody_type h
  cases m with
  | clientHello _ | serverHello _ | certificateRequest _ => exact hm.elim
  | helloRequest =>
      obtain ⟨_, hparse, -⟩ := bind_eq_ok.mp (show (parseHelloRequest body >>= _) = _ from h)
      exact ⟨[], parseHelloRequest_ok hparse, fun _ => rfl⟩
  | serverHelloDone =>
      exact ⟨[], parseServerHelloDone_ok (parseBody_serverHelloDone h), fun _ => rfl⟩
  | certificate cert =>
      refine ⟨[], ?_, fun _ => rfl⟩
      rw [List.append_nil]
      exact (parseCertificate_strict (parseBody_certificate h)).symm
  | serverKeyExchange _ | clientKeyExchange _ =>
      cases h
      exact ⟨[], (List.append_nil _).symm, fun _ => rfl⟩
  | certificateVerify verify =>
      obtain ⟨-, trailing, rfl⟩ := parseCertificateVerify_ok_iff.mp (parseBody_certificateVerify h)
      refine ⟨trailing, ?_, fun hne => absurd rfl hne⟩
      show _ = verify.marshal ++ trailing
      rw [verify.marshal_eq, List.cons_append, List.cons_append, List.append_assoc]
  | finished fin =>
      refine ⟨[], ?_, fun _ => rfl⟩
      rw [List.append_nil]
      exact (parseFinished_ok (parseBody_finished h)).symm

/-! ## Messages -/

theorem buildEnvelope_inj {msgType : UInt8} {a b : Bytes} :
    buildEnvelope msgType a = buildEnvelope msgType b ↔ a = b := by
  constructor
  · intro h
    have hlen := congrArg List.length h
    rw [buildEnvelope_length, buildEnvelope_length] at hlen
    exact (List.append_inj' h (by omega)).2
  · rintro rfl
    rfl

/-- If `data` starts with a CertificateVerify, its signature ends where its body ends: the envelope
    declares two bytes of algorithm, two of length, and as many as these say. -/
def SignatureEndsBody (data : Bytes) : Prop :=
  data.head? = some typeCertificateVerify →
    ofBE ((data.drop 1).take 3) = 4 + ofBE ((data.drop 6).take 2)

theorem signatureEndsBody_iff {verify : CertificateVerify} {trailing : Bytes}
    (hsig : verify.signature.length < 65536) (hlt : (verify.marshal ++ trailing).length < 2 ^ 24)
    (rest : Bytes) :
    SignatureEndsBody (buildEnvelope typeCertificateVerify (verify.marshal ++ trailing) ++ rest) ↔
      trailing = [] := by
  have hbody : ofBE (toBE 3 (verify.marshal ++ trailing).length) = (verify.marshal ++ trailing).length :=
    ofBE_toBE_of_lt (by simpa using hlt)
  have hsigLen : ofBE (toBE 2 verify.signature.length) = verify.signature.length := ofBE_toBE_of_lt hsig
  have hlen : (verify.marshal ++ trailing).length = 4 + verify.signature.length + trailing.length := by
    rw [verify.marshal_eq]
    simp only [List.length_append, List.length_cons, toBE_length]
    omega
  have hdeclared : (((buildEnvelope typeCertificateVerify (verify.marshal ++ trailing) ++ rest).drop
      1).take 3) = toBE 3 (verify.marshal ++ trailing).length := rfl
  have hprefix : (((buildEnvelope typeCertificateVerify (verify.marshal ++ trailing) ++ rest).drop
      6).take 2) = toBE 2 verify.signature.length := by
    rw [verify.marshal_eq]
    rfl
  unfold SignatureEndsBody
  rw [hdeclared, hprefix, hbody, hsigLen, hlen, ← List.length_eq_zero_iff]
  constructor
  · intro h
    have := h rfl
    omega
  · intro h _
    omega

/-- **Strict decoding.** A message that was accepted, the hellos apart, is what its encoder writes in
    front of what remains, if and only if it is not a CertificateVerify that goes on behind its
    signature. -/
theorem parseMessage_strict_iff {data rest : Bytes} {m : Message} (h : parseMessage data = .ok (m, rest))
    (hm : m.NonHello) : marshalMessage m ++ rest = data ↔ SignatureEndsBody data := by
  obtain ⟨msgType, body, hlt, rfl, hbody⟩ := parseMessage_ok h
  obtain rfl := parseBody_type hbody
  obtain ⟨trailing, rfl, hnone⟩ := parseBody_strict hbody hm
  have hcanon : marshalMessage m ++ rest = buildEnvelope m.type (m.marshal ++ trailing) ++ rest ↔
      trailing = [] := by
    rw [marshalMessage_eq, List.append_left_inj, buildEnvelope_inj]
    simp
  rw [hcanon]
  by_cases ht : m.type = typeCertificateVerify
  · cases m with
    | certificateVerify verify =>
        obtain ⟨_, hparse, heq⟩ := bind_eq_ok.mp (show (parseCertificateVerify _ >>= _) = _ from hbody)
        cases heq
        obtain ⟨hsig, -⟩ := parseCertificateVerify_ok_iff.mp hparse
        exact (signatureEndsBody_iff hsig hlt rest).symm
    | _ => cases ht
  · refine iff_of_true (hnone ht) ?_
    intro hhead
    exact absurd (Option.some.inj hhead) ht

/-- A Certificate with one entry, and two bytes behind it. -/
theorem parseMessage_strict_certificate :
    parseMessage [11, 0, 0, 7, 0, 0, 4, 0, 0, 1, 9, 8, 8] = .ok (.certificate ⟨[[9]]⟩, [8, 8]) ∧
      marshalMessage (.certificate ⟨[[9]]⟩) ++ [8, 8] = [11, 0, 0, 7, 0, 0, 4, 0, 0, 1, 9, 8, 8] :=
  have h : parseMessage [11, 0, 0, 7, 0, 0, 4, 0, 0, 1, 9, 8, 8] = .ok (.certificate ⟨[[9]]⟩, [8, 8]) := by
    decide
  ⟨h, (parseMessage_strict_iff h trivial).mpr (fun hhead => absurd hhead (by decide))⟩

/-- A CertificateVerify with an empty signature and a byte behind it, which is dropped. -/
theorem certificateVerify_trailing_ignored :
    parseMessage [15, 0, 0, 5, 4, 1, 0, 0, 99] = .ok (.certificateVerify ⟨⟨4, 1⟩, []⟩, []) ∧
      marshalMessage (.certificateVerify ⟨⟨4, 1⟩, []⟩) ++ [] ≠ [15, 0, 0, 5, 4, 1, 0, 0, 99] := by
  decide

/-! ## CertificateRequest -/

/-- A distinguished name of the list of authorities. -/
def encodeAuthority (dn : Bytes) : Bytes := toBE 2 dn.length ++ dn

theorem encodeAuthority_ne_nil (dn : Bytes) : encodeAuthority dn ≠ [] :=
  List.append_ne_nil_of_left_ne_nil (List.ne_nil_of_length_pos (by rw [toBE_length]; omega)) dn

/-- **What the loop accepts**: names behind their lengths. -/
theorem parseCertificateAuthorities_ok_iff {rounds : Nat} {casBytes : Bytes} {names out : List Bytes}
    (hrounds : casBytes.length ≤ rounds) :
    parseCertificateAuthorities rounds casBytes names = .ok out ↔
      ∃ dns : List Bytes, (∀ dn ∈ dns, dn.length < 65536) ∧ casBytes = dns.flatMap encodeAuthority ∧
        out = names ++ dns := by
  have hnil : ∀ rounds names, parseCertificateAuthorities rounds [] names = .ok names := by
    intro rounds names
    cases rounds <;> rfl
  have hcons : ∀ rounds casBytes names out, casBytes ≠ [] →
      (parseCertificateAuthorities (rounds + 1) casBytes names = .ok out ↔
        ∃ dn rest names', dn.length < 65536 ∧ casBytes = encodeAuthority dn ++ rest ∧
          Except.ok (names ++ [dn]) = (Except.ok names' : Except Err (List Bytes)) ∧
          parseCertificateAuthorities rounds rest names' = .ok out) := by
    intro rounds casBytes names out hne
    rw [parseCertificateAuthorities, if_neg (fun h => hne (List.length_eq_zero_iff.mp h))]
    constructor
    · intro h
      obtain ⟨⟨dn, rest⟩, hread, htail⟩ := bind_eq_ok.mp h
      obtain ⟨hlt, rfl⟩ := readLenPrefixed_ok_iff.mp (mapErr_eq_ok.mp hread)
      exact ⟨dn, rest, _, hlt, (List.append_assoc ..).symm, rfl, htail⟩
    · rintro ⟨dn, rest, _, hlt, rfl, ⟨⟩, htail⟩
      rw [encodeAuthority, List.append_assoc, readLenPrefixed16_append hlt]
      simp only [annotate_ok, ok_bind, htail]
  rw [loop_ok_iff hnil hcons encodeAuthority_ne_nil hrounds]
  simp only [foldlM_snoc, Except.ok.injEq, eq_comm]

namespace CertificateRequest

def algsBytes (m : CertificateRequest) : Bytes :=
  m.supportedSignatureAlgs.flatMap fun a => [a.hash, a.sig]

def casBytes (m : CertificateRequest) : Bytes := m.certificateAuthorities.flatMap encodeAuthority

/-- The body `b` is three vectors, one behind the other, with the elements of `m`. -/
structure Vectors (b : Bytes) (m : CertificateRequest) : Prop where
  types : m.certificateTypes.length < 2 ^ 8
  algs : m.algsBytes.length < 2 ^ 16
  cas : m.casBytes.length < 2 ^ 16
  eq : b = toBE 1 m.certificateTypes.length ++ (m.certificateTypes ++
    (toBE 2 m.algsBytes.length ++ (m.algsBytes ++ (toBE 2 m.casBytes.length ++ m.casBytes))))

/-- **The grammar of a CertificateRequest**, `certificate_types<1..2^8-1>`,
    `supported_signature_algorithms<2..2^16-1>` and `certificate_authorities<0..2^16-1>`. -/
structure Grammar (b : Bytes) (m : CertificateRequest) : Prop extends Vectors b m where
  types_min : 1 ≤ m.certificateTypes.length
  algs_min : 2 ≤ m.algsBytes.length

theorem algsBytes_length (m : CertificateRequest) :
    m.algsBytes.length = pairSize * m.supportedSignatureAlgs.length :=
  flatMap_pair_length SigAndHash.hash SigAndHash.sig _

theorem readPairs_algsBytes (m : CertificateRequest) :
    readPairs SigAndHash.mk m.algsBytes (m.algsBytes.length / pairSize) = .ok m.supportedSignatureAlgs := by
  rw [algsBytes_length, Nat.mul_div_right _ (by decide)]
  exact readPairs_flatMap (fun _ => rfl) m.supportedSignatureAlgs

end CertificateRequest

/-- **What is accepted as a CertificateRequest**: three vectors that fill the body, and names that fill
    the third. -/
theorem parseCertificateRequest_ok_iff {b : Bytes} {m : CertificateRequest} :
    parseCertificateRequest b = .ok m ↔ m.Vectors b := by
  unfold parseCertificateRequest
  constructor
  · intro h
    obtain ⟨⟨types, b₁⟩, htypes, h₁⟩ := bind_eq_ok.mp h
    obtain ⟨⟨sigAlgsBytes, b₂⟩, halgs, h₂⟩ := bind_eq_ok.mp h₁
    obtain ⟨hlt₁, rfl⟩ := readLenPrefixed_ok_iff.mp (mapErr_eq_ok.mp htypes)
    obtain ⟨hlt₂, rfl⟩ := readLenPrefixed_ok_iff.mp (mapErr_eq_ok.mp halgs)
    dsimp only at h₂
    split at h₂
    · cases h₂
    rename_i heven
    obtain ⟨algs, hpairs, h₃⟩ := bind_eq_ok.mp h₂
    obtain ⟨⟨casBytes, tail⟩, hcas, h₄⟩ := bind_eq_ok.mp h₃
    obtain ⟨hlt₃, rfl⟩ := readLenPrefixed_ok_iff.mp (mapErr_eq_ok.mp hcas)
    dsimp only at h₄
    split at h₄
    · cases h₄
    rename_i htail
    obtain rfl := List.length_eq_zero_iff.mp (not_not.mp htail)
    obtain ⟨names, hnames, heq⟩ := bind_eq_ok.mp h₄
    cases heq
    obtain ⟨dns, -, rfl, rfl⟩ := (parseCertificateAuthorities_ok_iff (Nat.le_refl _)).mp hnames
    -- The pairs that were read are the pairs that the bytes are.
    obtain ⟨pairs, rfl⟩ : ∃ l : List SigAndHash, sigAlgsBytes = l.flatMap fun a => [a.hash, a.sig] :=
      exists_pairs SigAndHash.mk (fun _ _ => rfl) (fun _ _ => rfl) sigAlgsBytes (not_not.mp heven)
    have hread := CertificateRequest.readPairs_algsBytes ⟨types, pairs, names⟩
    cases hread.symm.trans hpairs
    refine ⟨hlt₁, hlt₂, hlt₃, ?_⟩
    rw [List.append_nil]
    rfl
  · rintro ⟨hlt₁, hlt₂, hlt₃, rfl⟩
    have heven : m.algsBytes.length % 2 = 0 := by
      rw [m.algsBytes_length]
      exact Nat.mul_mod_right 2 _
    have hdns : ∀ dn ∈ m.certificateAuthorities, dn.length < 65536 := by
      intro dn hdn
      have hle : (encodeAuthority dn).length ≤ m.casBytes.length := length_enc_le hdn
      rw [encodeAuthority, List.length_append] at hle
      omega
    have hcas : parseCertificateAuthorities m.casBytes.length m.casBytes [] =
        .ok m.certificateAuthorities :=
      (parseCertificateAuthorities_ok_iff (Nat.le_refl _)).mpr ⟨_, hdns, rfl, rfl⟩
    have hlast : readLenPrefixed16 (toBE 2 m.casBytes.length ++ m.casBytes) = .ok (m.casBytes, []) :=
      readLenPrefixed_ok_iff.mpr ⟨hlt₃, by rw [List.append_nil]⟩
    simp only [readLenPrefixed8_append hlt₁, readLenPrefixed16_append hlt₂, hlast, annotate_ok, ok_bind,
      heven, ne_eq, not_true_eq_false, if_false, m.readPairs_algsBytes, hcas, List.length_nil, pure_eq]

/-- **CertificateRequests and their grammar.** The parser accepts what the grammar has, with the elements
    of the vectors, if and only if the body is not one of a request without a certificate type or without
    a signature algorithm. -/
theorem certificateRequest_grammar_iff (b : Bytes) :
    (((∃ m, parseCertificateRequest b = .ok m) ↔ ∃ m : CertificateRequest, m.Grammar b) ∧
        ∀ m, parseCertificateRequest b = .ok m → m.Vectors b) ↔
      ¬ ∃ m : CertificateRequest, m.Vectors b ∧
        (m.certificateTypes = [] ∨ m.supportedSignatureAlgs = []) := by
  constructor
  · rintro ⟨haccepted, -⟩ ⟨m, hvectors, hempty⟩
    have hparse := parseCertificateRequest_ok_iff.mpr hvectors
    obtain ⟨m', hvectors', htypes, halgs⟩ := haccepted.mp ⟨m, hparse⟩
    -- A body is the vectors of one request only.
    cases hparse.symm.trans (parseCertificateRequest_ok_iff.mpr hvectors')
    rw [m.algsBytes_length] at halgs
    rcases hempty with hempty | hempty
    · rw [hempty] at htypes
      cases htypes
    · rw [hempty] at halgs
      cases halgs
  · intro hfull
    refine ⟨⟨?_, ?_⟩, fun m => parseCertificateRequest_ok_iff.mp⟩
    · rintro ⟨m, hparse⟩
      have hvectors := parseCertificateRequest_ok_iff.mp hparse
      refine ⟨m, hvectors, ?_, ?_⟩
      · refine List.length_pos_iff.mpr ?_
        intro hempty
        exact hfull ⟨m, hvectors, .inl hempty⟩
      · have hpos : 0 < m.supportedSignatureAlgs.length := by
          refine List.length_pos_iff.mpr ?_
          intro hempty
          exact hfull ⟨m, hvectors, .inr hempty⟩
        rw [m.algsBytes_length, pairSize]
        omega
    · rintro ⟨m, hm⟩
      exact ⟨m, parseCertificateRequest_ok_iff.mpr hm.toVectors⟩

/-- A body of three empty vectors is accepted. -/
theorem certificateRequest_empty_accepted :
    parseCertificateRequest [0, 0, 0, 0, 0] = .ok ⟨[], [], []⟩ ∧
      ¬ ∃ m : CertificateRequest, m.Grammar [0, 0, 0, 0, 0] := by
  have hparse : parseCertificateRequest [0, 0, 0, 0, 0] = .ok ⟨[], [], []⟩ := by decide
  refine ⟨hparse, ?_⟩
  rintro ⟨m, hm⟩
  -- The vectors of the body are the ones that were read, and those are empty.
  have heq := hparse.symm.trans (parseCertificateRequest_ok_iff.mpr hm.toVectors)
  cases heq
  cases hm.types_min

end Gostls

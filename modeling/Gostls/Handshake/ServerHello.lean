import Gostls.Handshake.Buffering
import Gostls.Handshake.Client
import Gostls.Handshake.Codec

/-!
# `Gostls.Handshake.ServerHello` — what a ServerHello may answer

`CarriesExtensions` reads the extension list off the bytes of a ServerHello, independently of the parser.

* `serverName_empty_iff` — the parser accepts a server_name extension that is not empty, if it names no
  host;
* `serverHello_negotiation` — the client accepts exactly the answers to the ClientHello it sends: the
  extensions it looks for are those that are on the wire.
-/

namespace Gostls

open Lib

/-! ## The extension list of a hello -/

/-- `block`, at the end of a hello, carries these extensions. -/
def ExtensionBlock (block : Bytes) (exts : List (UInt16 × Bytes)) : Prop :=
  block = [] ∧ exts = [] ∨
    ∃ extData, extData.length < 65536 ∧ block = toBE 2 extData.length ++ extData ∧
      EncodesExtensions extData exts

/-- The fields of a ServerHello in front of its extensions. -/
def serverHelloFields (version : UInt16) (random sessionID : Bytes) (cipherSuite : UInt16)
    (compressionMethod : UInt8) (block : Bytes) : Bytes :=
  toBE 2 version.toNat ++ (random ++ (toBE 1 sessionID.length ++ (sessionID ++
    (toBE 2 cipherSuite.toNat ++ (compressionMethod :: block)))))

/-- The body of a ServerHello carries these extensions. -/
def CarriesExtensions (b : Bytes) (exts : List (UInt16 × Bytes)) : Prop :=
  ∃ version random sessionID cipherSuite compressionMethod block,
    random.length = tlsRandomLen ∧ sessionID.length < 256 ∧
    b = serverHelloFields version random sessionID cipherSuite compressionMethod block ∧
    ExtensionBlock block exts

/-- The first extension of a list is determined by its bytes. -/
theorem encodeExtension_append_inj {e e' : UInt16 × Bytes} {rest rest' : Bytes}
    (he : e.2.length < 65536) (he' : e'.2.length < 65536)
    (h : encodeExtension e ++ rest = encodeExtension e' ++ rest') : e = e' ∧ rest = rest' := by
  unfold encodeExtension at h
  rw [List.append_assoc, List.append_assoc, List.append_assoc, List.append_assoc] at h
  obtain ⟨htype, h⟩ := List.append_inj h (by rw [toBE_length, toBE_length])
  obtain ⟨hlen, h⟩ := List.append_inj h (by rw [toBE_length, toBE_length])
  have hsize : e.2.length = e'.2.length := toBE_inj he he' hlen
  obtain ⟨hbody, hrest⟩ := List.append_inj h hsize
  have ht : e.1.toNat = e'.1.toNat := toBE_inj e.1.toNat_lt e'.1.toNat_lt htype
  exact ⟨Prod.ext (UInt16.toNat_inj.mp ht) hbody, hrest⟩

/-- **Bytes encode one list of extensions at most.** -/
theorem EncodesExtensions.unique {extData : Bytes} {exts exts' : List (UInt16 × Bytes)}
    (h : EncodesExtensions extData exts) (h' : EncodesExtensions extData exts') : exts = exts' := by
  obtain ⟨hshort, rfl⟩ := h
  obtain ⟨hshort', heq⟩ := h'
  exact flatMap_enc_inj (fun _ _ _ _ => encodeExtension_append_inj) encodeExtension_ne_nil hshort hshort' heq

theorem ExtensionBlock.unique {block : Bytes} {exts exts' : List (UInt16 × Bytes)}
    (h : ExtensionBlock block exts) (h' : ExtensionBlock block exts') : exts = exts' := by
  rcases h with ⟨rfl, rfl⟩ | ⟨extData, hlen, rfl, henc⟩
  · rcases h' with ⟨-, rfl⟩ | ⟨extData, -, hnil, -⟩
    · rfl
    · cases hnil
  · rcases h' with ⟨hnil, -⟩ | ⟨extData', hlen', heq, henc'⟩
    · cases hnil
    · obtain ⟨-, rfl⟩ := List.append_inj heq (by rw [toBE_length, toBE_length])
      exact henc.unique henc'

/-- **The extension list of a ServerHello** is determined by its bytes. -/
theorem CarriesExtensions.unique {b : Bytes} {exts exts' : List (UInt16 × Bytes)}
    (h : CarriesExtensions b exts) (h' : CarriesExtensions b exts') : exts = exts' := by
  obtain ⟨version, random, sid, suite, comp, block, hrandom, hsid, rfl, hblock⟩ := h
  obtain ⟨version', random', sid', suite', comp', block', hrandom', hsid', heq, hblock'⟩ := h'
  unfold serverHelloFields at heq
  obtain ⟨-, heq⟩ := List.append_inj heq (by rw [toBE_length, toBE_length])
  obtain ⟨-, heq⟩ := List.append_inj heq (hrandom.trans hrandom'.symm)
  obtain ⟨hlen, heq⟩ := List.append_inj heq (by rw [toBE_length, toBE_length])
  obtain ⟨-, heq⟩ := List.append_inj heq (toBE_inj hsid hsid' hlen)
  obtain ⟨-, heq⟩ := List.append_inj heq (by rw [toBE_length, toBE_length])
  obtain ⟨-, rfl⟩ := List.cons.inj heq
  exact hblock.unique hblock'

/-! ## What the parser accepts -/

theorem parseHelloExtensions_ok_iff {site : String} {errTrailing : Err} {b : Bytes}
    {out : ParsedExtensions} {seen : List UInt16} :
    parseHelloExtensions site errTrailing b = .ok (out, seen) ↔
      ∃ exts, ExtensionBlock b exts ∧ (exts.map Prod.fst).Nodup ∧ seen = exts.map Prod.fst ∧
        readExtensions {} exts = .ok out := by
  unfold parseHelloExtensions
  by_cases hb : b.length > 0
  · rw [if_pos hb]
    constructor
    · intro h
      obtain ⟨⟨extData, rest⟩, hlist, htail⟩ := bind_eq_ok.mp h
      obtain ⟨hlen, rfl⟩ := readLenPrefixed_ok_iff.mp (mapErr_eq_ok.mp hlist)
      dsimp only at htail
      split at htail
      · cases htail
      rename_i hrest
      obtain rfl := List.length_eq_zero_iff.mp (not_not.mp hrest)
      obtain ⟨exts, henc, hnodup, hseen, hread⟩ := parseExtensions_ok_iff.mp htail
      exact ⟨exts, .inr ⟨extData, hlen, by rw [List.append_nil], henc⟩, hnodup, hseen, hread⟩
    · rintro ⟨exts, ⟨rfl, -⟩ | ⟨extData, hlen, rfl, henc⟩, hnodup, hseen, hread⟩
      · exact absurd hb (by simp)
      · have hlist : readLenPrefixed16 (toBE 2 extData.length ++ extData) = .ok (extData, []) :=
          readLenPrefixed_ok_iff.mpr ⟨hlen, by rw [List.append_nil]⟩
        rw [hlist]
        exact parseExtensions_ok_iff.mpr ⟨exts, henc, hnodup, hseen, hread⟩
  · obtain rfl := List.length_eq_zero_iff.mp (Nat.eq_zero_of_not_pos hb)
    rw [if_neg hb]
    constructor
    · intro h
      cases h
      exact ⟨[], .inl ⟨rfl, rfl⟩, List.nodup_nil, rfl, rfl⟩
    · rintro ⟨exts, ⟨-, rfl⟩ | ⟨extData, -, hnil, -⟩, -, rfl, hread⟩
      · cases hread
        rfl
      · cases hnil

/-- **What an accepted ServerHello carries.** -/
theorem parseServerHello_ok {b : Bytes} {sh : ServerHello} (h : parseServerHello b = .ok sh) :
    ∃ exts out, CarriesExtensions b exts ∧ (exts.map Prod.fst).Nodup ∧
      sh.extensionTypes = exts.map Prod.fst ∧ readExtensions {} exts = .ok out ∧
      out.serverName = [] ∧ sh.extendedMasterSecret = out.extendedMasterSecret := by
  unfold parseServerHello at h
  obtain ⟨⟨version, b₁⟩, hversion, h₁⟩ := bind_eq_ok.mp h
  obtain ⟨⟨random, b₂⟩, hrandom, h₂⟩ := bind_eq_ok.mp h₁
  obtain ⟨⟨sid, b₃⟩, hsid, h₃⟩ := bind_eq_ok.mp h₂
  dsimp only at hrandom hsid h₃
  split at h₃
  · cases h₃
  obtain ⟨⟨suite, b₄⟩, hsuite, h₄⟩ := bind_eq_ok.mp h₃
  obtain ⟨⟨comp, b₅⟩, hcomp, h₅⟩ := bind_eq_ok.mp h₄
  obtain ⟨⟨out, seen⟩, hext, h₆⟩ := bind_eq_ok.mp h₅
  dsimp only at hsuite hcomp hext h₆
  split at h₆
  · cases h₆
  rename_i hname
  cases h₆
  -- Each reader took its field off the front.
  obtain rfl := readUint16_ok_iff.mp (mapErr_eq_ok.mp hversion)
  obtain ⟨hlen, rfl⟩ := readBytes_ok_iff.mp (mapErr_eq_ok.mp hrandom)
  obtain ⟨hsidLen, rfl⟩ := readLenPrefixed_ok_iff.mp (mapErr_eq_ok.mp hsid)
  obtain rfl := readUint16_ok_iff.mp (mapErr_eq_ok.mp hsuite)
  obtain rfl := readUint8_ok_iff.mp (mapErr_eq_ok.mp hcomp)
  obtain ⟨exts, hblock, hnodup, hseen, hread⟩ := parseHelloExtensions_ok_iff.mp hext
  exact ⟨exts, out, ⟨version, random, sid, suite, comp, b₅, hlen, hsidLen, rfl, hblock⟩, hnodup, hseen,
    hread, not_not.mp hname, rfl⟩

/-! ## What the extensions say -/

section

variable {t : UInt16} {b : Bytes} {out out' : ParsedExtensions} {exts : List (UInt16 × Bytes)}

/-- **One extension sets its own field.** -/
theorem parseExtension_ok (h : parseExtension t b out = .ok out') :
    (if t = extServerName then parseServerName b = .ok out'.serverName
      else out'.serverName = out.serverName) ∧
    (out'.extendedMasterSecret = true →
      out.extendedMasterSecret = true ∨ t = extExtendedMasterSecret) := by
  unfold parseExtension at h
  split at h
  · rename_i ht
    obtain ⟨name, hname, heq⟩ := bind_eq_ok.mp h
    cases heq
    exact ⟨by rw [if_pos ht]; exact hname, .inl⟩
  rename_i ht
  rw [if_neg ht]
  split at h
  · obtain ⟨_, _, heq⟩ := bind_eq_ok.mp h
    cases heq
    exact ⟨rfl, .inl⟩
  split at h
  · obtain ⟨_, _, heq⟩ := bind_eq_ok.mp h
    cases heq
    exact ⟨rfl, .inl⟩
  split at h
  · obtain ⟨_, _, heq⟩ := bind_eq_ok.mp h
    cases heq
    exact ⟨rfl, .inl⟩
  split at h
  · rename_i hems
    obtain ⟨_, _, heq⟩ := bind_eq_ok.mp h
    cases heq
    exact ⟨rfl, fun _ => .inr hems⟩
  split at h
  · obtain ⟨_, _, heq⟩ := bind_eq_ok.mp h
    cases heq
    exact ⟨rfl, .inl⟩
  · cases h

theorem readExtensions_cons {e : UInt16 × Bytes} (h : readExtensions out (e :: exts) = .ok out') :
    ∃ mid, parseExtension e.1 e.2 out = .ok mid ∧ readExtensions mid exts = .ok out' :=
  bind_eq_ok.mp (show (parseExtension e.1 e.2 out >>= _) = _ from h)

/-- Without a server_name extension the name stays. -/
theorem readExtensions_no_serverName (hno : extServerName ∉ exts.map Prod.fst)
    (h : readExtensions out exts = .ok out') : out'.serverName = out.serverName := by
  induction exts generalizing out with
  | nil =>
      cases h
      rfl
  | cons e exts ih =>
      rw [List.map_cons, List.mem_cons, not_or] at hno
      obtain ⟨hne, hrest⟩ := hno
      obtain ⟨mid, hext, hread⟩ := readExtensions_cons h
      obtain ⟨hname, -⟩ := parseExtension_ok hext
      rw [if_neg (Ne.symm hne)] at hname
      rw [ih hrest hread, hname]

/-- **The name is that of the server_name extension.** -/
theorem readExtensions_serverName (hnodup : (exts.map Prod.fst).Nodup) (hmem : (extServerName, b) ∈ exts)
    (h : readExtensions out exts = .ok out') : parseServerName b = .ok out'.serverName := by
  induction exts generalizing out with
  | nil => cases hmem
  | cons e exts ih =>
      obtain ⟨hnew, hrest⟩ := List.nodup_cons.mp hnodup
      obtain ⟨mid, hext, hread⟩ := readExtensions_cons h
      rcases List.mem_cons.mp hmem with rfl | hmem
      · obtain ⟨hname, -⟩ := parseExtension_ok hext
        rw [if_pos rfl] at hname
        rw [readExtensions_no_serverName hnew hread]
        exact hname
      · exact ih hrest hmem hread

/-- An extended_master_secret that is seen was sent. -/
theorem readExtensions_extendedMasterSecret (h : readExtensions out exts = .ok out')
    (hems : out'.extendedMasterSecret = true) :
    out.extendedMasterSecret = true ∨ extExtendedMasterSecret ∈ exts.map Prod.fst := by
  induction exts generalizing out with
  | nil =>
      cases h
      exact .inl hems
  | cons e exts ih =>
      obtain ⟨mid, hext, hread⟩ := readExtensions_cons h
      rcases ih hread with hmid | hlater
      · rcases (parseExtension_ok hext).2 hmid with hout | htype
        · exact .inl hout
        · exact .inr (List.mem_cons.mpr (.inl htype.symm))
      · exact .inr (List.mem_cons_of_mem _ hlater)

end

/-! ## The server_name echo -/

/-- A server_name body that is not empty and yet names no host: a name list without names, or with an
    empty name at its end. -/
def Nameless (data : Bytes) : Prop :=
  ∃ names trailing, (∀ name ∈ names, name.length < 65536) ∧ (names.flatMap encodeName).length < 65536 ∧
    data = encodeServerName names trailing ∧ names.getLastD [] = []

theorem Nameless.ne_nil {data : Bytes} (h : Nameless data) : data ≠ [] := by
  obtain ⟨names, trailing, -, -, rfl, -⟩ := h
  intro hnil
  cases hnil

/-- **An accepted server_name extension is empty, or names no host.** -/
theorem serverName_of_accepted {b data : Bytes} {sh : ServerHello} {exts : List (UInt16 × Bytes)}
    (hparse : parseServerHello b = .ok sh) (hexts : CarriesExtensions b exts)
    (hmem : (extServerName, data) ∈ exts) : data = [] ∨ Nameless data := by
  obtain ⟨exts', out, hexts', hnodup, -, hread, hname, -⟩ := parseServerHello_ok hparse
  obtain rfl := hexts.unique hexts'
  have hdata := readExtensions_serverName hnodup hmem hread
  rw [hname] at hdata
  rcases parseServerName_ok_iff.mp hdata with ⟨rfl, -⟩ | ⟨names, trailing, hshort, hlen, rfl, hlast⟩
  · exact .inl rfl
  · exact .inr ⟨names, trailing, hshort, hlen, rfl, hlast.symm⟩

/-- **When the echo is empty.** A ServerHello that the parser accepts has an empty server_name extension,
    if it has one, unless that extension is a name list that names no host. -/
theorem serverName_empty_iff (b : Bytes) (sh : ServerHello) (exts : List (UInt16 × Bytes))
    (hparse : parseServerHello b = .ok sh) (hexts : CarriesExtensions b exts) :
    (∀ data, (extServerName, data) ∈ exts → data.length = 0) ↔
      ∀ data, (extServerName, data) ∈ exts → ¬ Nameless data := by
  constructor
  · intro h data hmem hnameless
    exact hnameless.ne_nil (List.length_eq_zero_iff.mp (h data hmem))
  · intro h data hmem
    rcases serverName_of_accepted hparse hexts hmem with rfl | hnameless
    · rfl
    · exact absurd hnameless (h data hmem)

/-- A ServerHello with one extension, a server_name with this body. -/
def echoingHello (data : Bytes) : Bytes :=
  serverHelloFields 0x0303 (List.replicate 32 5) [] 0x009C 0
    (toBE 2 (4 + data.length) ++ encodeExtension (extServerName, data))

theorem echoingHello_carries {data : Bytes} (h : data.length < 65532) :
    CarriesExtensions (echoingHello data) [(extServerName, data)] := by
  refine ⟨0x0303, List.replicate 32 5, [], 0x009C, 0, _, rfl, by decide, rfl, .inr ?_⟩
  refine ⟨encodeExtension (extServerName, data), ?_, ?_, ?_, ?_⟩
  · rw [encodeExtension_length]
    simp only [extHeaderSize]
    omega
  · rw [encodeExtension_length]
    rfl
  · simp only [List.mem_singleton, forall_eq]
    omega
  · simp

theorem serverName_empty_iff_empty_echo :
    ∃ sh, parseServerHello (echoingHello []) = .ok sh ∧
      CarriesExtensions (echoingHello []) [(extServerName, [])] ∧
      ∀ data, (extServerName, data) ∈ [(extServerName, ([] : Bytes))] → ¬ Nameless data := by
  obtain ⟨sh, hparse⟩ : ∃ sh, parseServerHello (echoingHello []) = .ok sh := ⟨_, rfl⟩
  have hexts : CarriesExtensions (echoingHello []) [(extServerName, [])] :=
    echoingHello_carries (by decide)
  refine ⟨sh, hparse, hexts, (serverName_empty_iff _ sh _ hparse hexts).mp ?_⟩
  intro data hmem
  obtain ⟨-, rfl⟩ := Prod.mk.inj (List.mem_singleton.mp hmem)
  rfl

/-- **A name list of no names passes for an empty echo**: two bytes of extension data are accepted. -/
theorem empty_name_list_accepted :
    (∃ sh, parseServerHello (echoingHello [0, 0]) = .ok sh) ∧
      CarriesExtensions (echoingHello [0, 0]) [(extServerName, [0, 0])] ∧
      ([0, 0] : Bytes).length ≠ 0 :=
  ⟨⟨_, rfl⟩, echoingHello_carries (by decide), by decide⟩

/-! ## Negotiation -/

/-- The extensions of the ClientHello for these parameters, on the wire. -/
def helloExtensions (params : ClientParams) : List (UInt16 × Bytes) :=
  (clientHello params (.copy [])).extensions.entries

theorem helloExtensions_types (params : ClientParams) :
    (helloExtensions params).map Prod.fst = (if params.serverName ≠ [] then [extServerName] else []) ++
      [extSupportedGroups, extECPointFormats, extSignatureAlgorithms, extRenegotiationInfo] := by
  by_cases hname : params.serverName = []
  · simp [helloExtensions, ParsedExtensions.entries, ClientHello.extensions, clientHello, hname,
      clientSigAlgsAdvertised]
  · simp [helloExtensions, ParsedExtensions.entries, ClientHello.extensions, clientHello, hname,
      clientSigAlgsAdvertised]

theorem serverName_offered_iff (params : ClientParams) :
    extServerName ∈ (helloExtensions params).map Prod.fst ↔ params.serverName ≠ [] := by
  rw [helloExtensions_types]
  by_cases hname : params.serverName = []
  · rw [if_neg (not_not.mpr hname)]
    exact iff_of_false (by decide) (not_not.mpr hname)
  · rw [if_pos hname]
    exact iff_of_true (by decide) hname

theorem extendedMasterSecret_not_offered (params : ClientParams) :
    extExtendedMasterSecret ∉ (helloExtensions params).map Prod.fst := by
  rw [helloExtensions_types]
  split
  · decide
  · decide

/-- **The extensions looked for are those written.** -/
theorem mem_offeredExt (params : ClientParams) (t : UInt16) :
    t ∈ offeredExt params ↔ t ∈ (helloExtensions params).map Prod.fst := by
  rw [helloExtensions_types, offeredExt, List.mem_append, List.mem_append, or_comm]

theorem extensionBlock_marshal {ext : ParsedExtensions} (h : (marshalExtensions ext).length < 65536) :
    ExtensionBlock (marshalExtensions ext) ext.entries := by
  rw [marshalExtensions_eq] at h ⊢
  split
  · rename_i hnil
    exact .inl ⟨rfl, hnil⟩
  · rename_i hne
    rw [if_neg hne, List.length_append] at h
    refine .inr ⟨ext.entries.flatMap encodeExtension, by omega, rfl, ?_, rfl⟩
    intro e he
    have := encodeExtension_le he
    omega

/-- The fields of a ClientHello in front of its extensions. -/
def clientHelloFields (version : UInt16) (random sessionID : Bytes) (cipherSuites : List UInt16)
    (compressionMethods block : Bytes) : Bytes :=
  toBE 2 version.toNat ++ (random ++ (toBE 1 sessionID.length ++ (sessionID ++
    (toBE 2 (pairSize * cipherSuites.length) ++ ((cipherSuites.flatMap fun v => toBE 2 v.toNat) ++
    (toBE 1 compressionMethods.length ++ (compressionMethods ++ block)))))))

/-- `s'` is `s` after a ClientHello was written: with the random value kept, no session, the suites of the
    parameters, no compression, and these extensions. -/
def SentHello (s s' : ClientState) (exts : List (UInt16 × Bytes)) : Prop :=
  ∃ o block, writes s'.trace = writes s.trace ++ [o] ∧ o.ct = contentTypeHandshake ∧ o.ok = true ∧
    o.payload = buildEnvelope typeClientHello
      (clientHelloFields 0x0303 s'.clientRandom.val [] s.params.offeredSuites [0] block) ∧
    ExtensionBlock block exts

/-- **What is on the wire.** -/
theorem sendClientHello_sent (s : ClientState) :
    wp sendClientHello (fun _ s' => SentHello s s' (helloExtensions s.params)) (fun _ _ => True) s := by
  unfold sendClientHello
  rw [wp_bind]
  apply wp_drawing _ (fun _ _ => trivial)
  intro random r
  rw [wp_bind, wp_modify, wp_bind, wp_get, wp_bind]
  apply wp_orFail
  apply (writeRecord_logs _ _ _).mono _ (fun _ _ _ _ => trivial)
  rintro _ _ ⟨hlen, layer, rfl⟩
  generalize hext : marshalExtensions (clientHello s.params (.copy random)).extensions = block
  have hpayload : marshalMessage (.clientHello (clientHello s.params (.copy random))) =
      buildEnvelope typeClientHello (clientHelloFields 0x0303 (Random.copy random).val []
        s.params.offeredSuites [0] block) := by
    rw [← hext]
    exact congrArg (buildEnvelope typeClientHello) (ClientHello.marshal_eq _)
  have hblock : block.length < 65536 := by
    -- A record that was written is short, so that no length in it was cut.
    have hlen' := hpayload ▸ hlen
    simp only [buildEnvelope_length, clientHelloFields, List.length_append, tlsMaxPlaintextLen] at hlen'
    omega
  have hwrites : ∀ o, writes (s.trace ++ [.wrote o]) = writes s.trace ++ [o] := fun _ => writes_append _ _
  exact ⟨_, block, hwrites _, rfl, rfl, hpayload, hext ▸ extensionBlock_marshal (hext ▸ hblock)⟩

/-- An acceptable ServerHello, for a client with these parameters: its extensions are different ones and
    each answers one of the ClientHello. -/
structure Negotiates (env : Env) (params : ClientParams) (body : Bytes) (sh : ServerHello) : Prop where
  parses : parseServerHello body = .ok sh
  version : sh.version = 0x0303
  offered : sh.cipherSuite ∈ params.offeredSuites
  registered : (lookup env.hashes sh.cipherSuite).isSome
  compression : sh.compressionMethod = 0
  answered : ∃ exts, CarriesExtensions body exts ∧ (exts.map Prod.fst).Nodup ∧
    ∀ t ∈ exts.map Prod.fst, t ∈ (helloExtensions params).map Prod.fst

/-- The types that the parser returns are those of the extensions. -/
theorem Negotiates.types {env : Env} {params : ClientParams} {body : Bytes} {sh : ServerHello}
    (h : Negotiates env params body sh) :
    ∀ t ∈ sh.extensionTypes, t ∈ (helloExtensions params).map Prod.fst := by
  obtain ⟨exts, hexts, -, hanswered⟩ := h.answered
  obtain ⟨exts', out, hexts', -, htypes, -⟩ := parseServerHello_ok h.parses
  obtain rfl := hexts.unique hexts'
  rw [htypes]
  exact hanswered

theorem answered_of_types {params : ClientParams} {body : Bytes} {sh : ServerHello}
    (hparse : parseServerHello body = .ok sh) (h : ∀ t ∈ sh.extensionTypes, t ∈ offeredExt params) :
    ∃ exts, CarriesExtensions body exts ∧ (exts.map Prod.fst).Nodup ∧
      ∀ t ∈ exts.map Prod.fst, t ∈ (helloExtensions params).map Prod.fst := by
  obtain ⟨exts, out, hexts, hnodup, htypes, -⟩ := parseServerHello_ok hparse
  refine ⟨exts, hexts, hnodup, fun t ht => ?_⟩
  rw [← mem_offeredExt]
  exact h t (htypes ▸ ht)

/-- The client never offers extended_master_secret. -/
theorem extendedMasterSecret_refused {env : Env} {params : ClientParams} {body : Bytes} {sh : ServerHello}
    (hparse : parseServerHello body = .ok sh) (hems : sh.extendedMasterSecret = true) :
    ¬ Negotiates env params body sh := by
  intro h
  obtain ⟨exts, out, -, -, htypes, hread, -, heq⟩ := parseServerHello_ok hparse
  rw [heq] at hems
  have hsent : extExtendedMasterSecret ∈ sh.extensionTypes := by
    rw [htypes]
    exact (readExtensions_extendedMasterSecret hread hems).resolve_left (by decide)
  exact extendedMasterSecret_not_offered params (h.types _ hsent)

/-- Whatever is wrong, an alert is all that follows. -/
theorem exits_unchanged {wrong : Prop} {s t : ClientState} (hwrong : wrong)
    (hrandom : t.serverRandom = s.serverRandom) (htranscript : t.transcript = s.transcript) :
    Exits (fun _ s' => wrong ∧ s'.serverRandom = s.serverRandom ∧ s'.transcript = s.transcript) t := by
  refine ⟨⟨hwrong, hrandom, htranscript⟩, ?_⟩
  intro desc _
  obtain ⟨o, layer, -, -, heq⟩ := alerted_eq desc t
  rw [heq]
  exact ⟨hwrong, hrandom, htranscript⟩

/-- **recvServerHello accepts the answers to the ClientHello, and nothing else.** -/
theorem recvServerHello_decides (env : Env) {s s₁ : ClientState} {body : Bytes}
    (hnext : readHandshakeRecord s = .ok (typeServerHello, body) s₁) :
    wp (recvServerHello env) (fun _ _ => ∃ sh, Negotiates env s.params body sh)
      (fun _ s' => (¬ ∃ sh, Negotiates env s.params body sh) ∧ s'.serverRandom = s.serverRandom ∧
        s'.transcript = s.transcript) s := by
  have hshort := (readHandshakeLoop_taken hnext).2
  have hkept : s₁.params = s.params ∧ s₁.serverRandom = s.serverRandom ∧
      s₁.transcript = s.transcript := by
    obtain ⟨es, layer, hsBuf, hend, -⟩ := readHandshakeRecord_frame s
    obtain rfl : s₁ = _ := (endState_ok hnext).symm.trans hend
    exact ⟨rfl, rfl, rfl⟩
  obtain ⟨hparams, hrandom, htranscript⟩ := hkept
  unfold recvServerHello receiveMessage
  rw [wp_bind, wp_bind]
  apply wp_orFatal
  apply wp_of_ok hnext
  rw [wp_bind]
  apply wp_check (fun h => absurd rfl h)
  intro _
  rw [wp_bind, parsePayload_eq hshort]
  apply wp_orFatal
  apply wp_compute
  · intro msg hmsg
    obtain ⟨sh, hparse, heq⟩ := bind_eq_ok.mp (show (parseServerHello body >>= _) = _ from hmsg)
    cases heq
    -- A check that fails refutes what it checks.
    have hno : ¬ Negotiates env s.params body sh → ¬ ∃ sh, Negotiates env s.params body sh := by
      rintro hbad ⟨sh', h⟩
      obtain rfl : sh' = sh := Except.ok.inj (h.parses.symm.trans hparse)
      exact hbad h
    have hx := fun h => exits_unchanged (t := s₁) (hno h) hrandom htranscript
    show wp (fatalIf (sh.version ≠ tlsVersion12) _ _ >>= _) _ _ s₁
    rw [wp_bind]
    apply wp_check (fun hbad => (hx fun h => hbad h.version).fatal _ .panic)
    intro hversion
    rw [wp_bind, wp_get, wp_bind]
    apply wp_check (fun hbad => (hx fun h => hbad (hparams.symm ▸ h.offered)).fatal _ .panic)
    intro hoffered
    cases hlookup : lookup env.hashes sh.cipherSuite with
    | none =>
        refine wp_fatal.mpr ((hx fun h => ?_).fatal _ .panic)
        have hsome := h.registered
        rw [hlookup] at hsome
        cases hsome
    | some suite =>
        have hx' := fun h =>
          exits_unchanged (t := { s₁ with suite := some suite }) (hno h) hrandom htranscript
        dsimp only
        rw [wp_bind, wp_modify, wp_bind]
        apply wp_check (fun hbad => (hx' fun h => hbad h.compression).fatal _ .panic)
        intro hcompression
        rw [wp_bind]
        apply wp_check (fun hbad => (hx' (extendedMasterSecret_refused hparse hbad)).fatal _ .panic)
        intro _
        rw [wp_bind]
        apply wp_forM_check
        · intro t ht hbad
          refine (hx' fun h => hbad ?_).fatal _ .panic
          rw [hparams, mem_offeredExt]
          exact h.types t ht
        · intro hanswered
          refine ⟨sh, hparse, not_not.mp hversion, hparams ▸ not_not.mp hoffered, ?_,
            not_not.mp hcompression, answered_of_types hparse fun t ht => ?_⟩
          · rw [hlookup, Option.isSome_some]
          · rw [← hparams]
            exact not_not.mp (hanswered t ht)
  · intro e he
    refine exits_unchanged ?_ hrandom htranscript
    rintro ⟨sh, h⟩
    have hok : parseBody typeServerHello body = .ok (.serverHello sh) :=
      bind_eq_ok.mpr ⟨sh, h.parses, rfl⟩
    cases hok.symm.trans he

/-- **ServerHello negotiation.** When a ServerHello comes next, `recvServerHello` succeeds iff it answers
    what was offered; its extensions are checked against those of the ClientHello on the wire, among
    which server_name is only with a name and extended_master_secret is not. A failure leaves
    `serverRandom` and the transcript as they were. -/
theorem serverHello_negotiation (env : Env) (s s₁ : ClientState) (body : Bytes)
    (hnext : readHandshakeRecord s = .ok (typeServerHello, body) s₁) :
    ((∃ s', recvServerHello env s = .ok () s') ↔ ∃ sh, Negotiates env s.params body sh) ∧
    (∀ e s', recvServerHello env s = .error e s' →
      s'.serverRandom = s.serverRandom ∧ s'.transcript = s.transcript) ∧
    (∀ s₀ s₀', s₀.params = s.params → sendClientHello s₀ = .ok () s₀' →
      SentHello s₀ s₀' (helloExtensions s.params)) ∧
    (extServerName ∈ (helloExtensions s.params).map Prod.fst ↔ s.params.serverName ≠ []) ∧
    extExtendedMasterSecret ∉ (helloExtensions s.params).map Prod.fst := by
  have hdecides := recvServerHello_decides env hnext
  refine ⟨⟨?_, ?_⟩, ?_, ?_, serverName_offered_iff _, extendedMasterSecret_not_offered _⟩
  · rintro ⟨s', hok⟩
    exact hdecides.ok hok
  · intro hneg
    cases hrecv : recvServerHello env s with
    | ok _ s' => exact ⟨s', rfl⟩
    | error e s' => exact absurd hneg (hdecides.error hrecv).1
  · intro e s' herr
    exact (hdecides.error herr).2
  · intro s₀ s₀' hparams hsend
    rw [← hparams]
    exact (sendClientHello_sent s₀).ok hsend

/-- A client for the host `h` over the ServerHello of `echoingHello`, which answers it. -/
def answeredClient : ClientState :=
  freshClient { ClientParams.sample with serverName := [104] }
    (ofBytes ([22, 3, 3, 0, 48, 2, 0, 0, 44] ++ echoingHello [])) ⟨[], []⟩ ⟨fun _ => .ok 7, 0⟩ none

theorem serverHello_negotiation_echo : ∃ s₁ s',
    readHandshakeRecord answeredClient = .ok (typeServerHello, echoingHello []) s₁ ∧
      recvServerHello .sample answeredClient = .ok () s' := by
  obtain ⟨s₁, hnext⟩ : ∃ s₁, readHandshakeRecord answeredClient =
      .ok (typeServerHello, echoingHello []) s₁ := ⟨_, rfl⟩
  have hneg : Negotiates .sample answeredClient.params (echoingHello [])
      ⟨0x0303, .copy (List.replicate 32 5), [], 0x009C, 0, false, false, [extServerName]⟩ := by
    refine ⟨rfl, rfl, by decide, by decide, rfl, _, echoingHello_carries (by decide), by decide, ?_⟩
    intro t ht
    obtain rfl := List.mem_singleton.mp ht
    exact (serverName_offered_iff _).mpr (List.cons_ne_nil _ _)
  obtain ⟨s', hrecv⟩ := (serverHello_negotiation .sample answeredClient s₁ _ hnext).1.mpr ⟨_, hneg⟩
  exact ⟨s₁, s', hnext, hrecv⟩

end Gostls

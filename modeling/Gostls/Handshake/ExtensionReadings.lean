import Gostls.Handshake.ServerHello

/-!
# `Gostls.Handshake.ExtensionReadings` — extension lists that are read alike

What is read of an extension list are the types of its extensions and one field for each. The list can be
told from these when no extension has a second body that is read as its own is. Four of the six types have
list bodies whose parsers stop at the end of the list, and there a second body is found nearly always.

* `parseExtensions_readings` — what is read of the extensions is determined by what is read of the list;
* `parseExtensions_injective_iff` — the lists no other list is read as.
-/

namespace Gostls

open Lib

/-! ## One extension -/

/-- What one extension says. -/
inductive Reading where
  | serverName (name : Bytes)
  | supportedGroups (groups : List UInt16)
  | ecPointFormats (formats : List UInt8)
  | signatureAlgorithms (pairs : List SigAndHash)
  | extendedMasterSecret
  | renegotiationInfo
  deriving DecidableEq, Repr

namespace Reading

def type : Reading → UInt16
  | .serverName _          => extServerName
  | .supportedGroups _     => extSupportedGroups
  | .ecPointFormats _      => extECPointFormats
  | .signatureAlgorithms _ => extSignatureAlgorithms
  | .extendedMasterSecret  => extExtendedMasterSecret
  | .renegotiationInfo     => extRenegotiationInfo

def set (out : ParsedExtensions) : Reading → ParsedExtensions
  | .serverName name           => { out with serverName := name }
  | .supportedGroups groups    => { out with supportedGroups := groups }
  | .ecPointFormats formats    => { out with ecPointFormats := formats }
  | .signatureAlgorithms pairs => { out with signatureAlgorithms := pairs }
  | .extendedMasterSecret      => { out with extendedMasterSecret := true }
  | .renegotiationInfo         => { out with renegotiationInfo := true }

/-- What the parser of a type makes of a body. -/
inductive Of : UInt16 → Bytes → Reading → Prop
  | serverName {b name} (h : parseServerName b = .ok name) : Of extServerName b (.serverName name)
  | supportedGroups {b groups} (h : parseSupportedGroups b = .ok groups) :
      Of extSupportedGroups b (.supportedGroups groups)
  | ecPointFormats {b formats} (h : parseECPointFormats b = .ok formats) :
      Of extECPointFormats b (.ecPointFormats formats)
  | signatureAlgorithms {b pairs} (h : parseSignatureAlgorithms b = .ok pairs) :
      Of extSignatureAlgorithms b (.signatureAlgorithms pairs)
  | extendedMasterSecret {b} (h : parseExtendedMasterSecret b = .ok ()) :
      Of extExtendedMasterSecret b .extendedMasterSecret
  | renegotiationInfo {b} (h : parseRenegotiationInfo b = .ok ()) :
      Of extRenegotiationInfo b .renegotiationInfo

theorem Of.type_eq {t : UInt16} {b : Bytes} {r : Reading} (h : Of t b r) : r.type = t := by
  cases h <;> rfl

end Reading

/-- The field of the extension of this type. -/
def ParsedExtensions.field (out : ParsedExtensions) (t : UInt16) : Option Reading :=
  if t = extServerName then some (.serverName out.serverName)
  else if t = extSupportedGroups then some (.supportedGroups out.supportedGroups)
  else if t = extECPointFormats then some (.ecPointFormats out.ecPointFormats)
  else if t = extSignatureAlgorithms then some (.signatureAlgorithms out.signatureAlgorithms)
  else if t = extExtendedMasterSecret then some .extendedMasterSecret
  else if t = extRenegotiationInfo then some .renegotiationInfo
  else none

theorem ParsedExtensions.field_set (out : ParsedExtensions) (r : Reading) :
    (r.set out).field r.type = some r := by
  cases r <;> rfl

theorem ParsedExtensions.field_set_of_ne {t : UInt16} {r : Reading} (h : t ≠ r.type)
    (out : ParsedExtensions) : (r.set out).field t = out.field t := by
  cases r <;> simp_all [field, Reading.set, Reading.type]

/-- **An extension sets its field** to what the parser of its type makes of the body. -/
theorem parseExtension_ok_iff {t : UInt16} {b : Bytes} {out out' : ParsedExtensions} :
    parseExtension t b out = .ok out' ↔ ∃ r, Reading.Of t b r ∧ out' = r.set out := by
  constructor
  · intro h
    unfold parseExtension at h
    repeat' split at h
    case isFalse.isFalse.isFalse.isFalse.isFalse.isFalse => cases h
    all_goals
      subst t
      obtain ⟨_, hparse, heq⟩ := bind_eq_ok.mp h
      cases heq
    · exact ⟨_, .serverName hparse, rfl⟩
    · exact ⟨_, .supportedGroups hparse, rfl⟩
    · exact ⟨_, .ecPointFormats hparse, rfl⟩
    · exact ⟨_, .signatureAlgorithms hparse, rfl⟩
    · exact ⟨_, .extendedMasterSecret hparse, rfl⟩
    · exact ⟨_, .renegotiationInfo hparse, rfl⟩
  · rintro ⟨r, hr, rfl⟩
    cases hr <;> exact bind_eq_ok.mpr ⟨_, ‹_›, rfl⟩

/-! ## The extension list -/

/-- What is read of the extensions of a list, one by one. -/
def ReadAs (exts : List (UInt16 × Bytes)) (rs : List Reading) : Prop :=
  List.Forall₂ (fun e r => Reading.Of e.1 e.2 r) exts rs

theorem ReadAs.types {exts : List (UInt16 × Bytes)} {rs : List Reading} (h : ReadAs exts rs) :
    rs.map Reading.type = exts.map Prod.fst := by
  induction h with
  | nil => rfl
  | cons hr _ ih => rw [List.map_cons, List.map_cons, hr.type_eq, ih]

theorem ReadAs.exists_of_mem {exts : List (UInt16 × Bytes)} {rs : List Reading} (h : ReadAs exts rs)
    {e : UInt16 × Bytes} (he : e ∈ exts) : ∃ r, Reading.Of e.1 e.2 r := by
  induction h with
  | nil => cases he
  | cons hr _ ih =>
      rcases List.mem_cons.mp he with rfl | he
      · exact ⟨_, hr⟩
      · exact ih he

theorem readExtensions_ok_iff {exts : List (UInt16 × Bytes)} {out out' : ParsedExtensions} :
    readExtensions out exts = .ok out' ↔ ∃ rs, ReadAs exts rs ∧ out' = rs.foldl Reading.set out := by
  constructor
  · intro h
    induction exts generalizing out with
    | nil =>
        cases h
        exact ⟨[], .nil, rfl⟩
    | cons e exts ih =>
        obtain ⟨mid, hext, hread⟩ := readExtensions_cons h
        obtain ⟨r, hr, rfl⟩ := parseExtension_ok_iff.mp hext
        obtain ⟨rs, hrs, rfl⟩ := ih hread
        exact ⟨r :: rs, .cons hr hrs, rfl⟩
  · rintro ⟨rs, hrs, rfl⟩
    induction hrs generalizing out with
    | nil => rfl
    | cons hr _ ih => exact bind_eq_ok.mpr ⟨_, parseExtension_ok_iff.mpr ⟨_, hr, rfl⟩, ih⟩

section

variable {rs rs' : List Reading} {out : ParsedExtensions}

theorem foldl_set_field_of_not_mem {t : UInt16} (h : t ∉ rs.map Reading.type) :
    (rs.foldl Reading.set out).field t = out.field t := by
  induction rs generalizing out with
  | nil => rfl
  | cons r rs ih =>
      rw [List.map_cons, List.mem_cons, not_or] at h
      rw [List.foldl_cons, ih h.2, ParsedExtensions.field_set_of_ne h.1]

/-- Of extensions of distinct types none overwrites another. -/
theorem foldl_set_field (hnodup : (rs.map Reading.type).Nodup) (out : ParsedExtensions) :
    (rs.map Reading.type).map (rs.foldl Reading.set out).field = rs.map some := by
  induction rs generalizing out with
  | nil => rfl
  | cons r rs ih =>
      obtain ⟨hnew, hnodup⟩ := List.nodup_cons.mp hnodup
      have hfirst : ((r :: rs).foldl Reading.set out).field r.type = some r := by
        rw [List.foldl_cons, foldl_set_field_of_not_mem hnew, ParsedExtensions.field_set]
      rw [List.map_cons, List.map_cons, List.map_cons, hfirst, List.foldl_cons, ih hnodup]

theorem foldl_set_inj (hnodup : (rs.map Reading.type).Nodup)
    (htypes : rs'.map Reading.type = rs.map Reading.type)
    (h : rs'.foldl Reading.set out = rs.foldl Reading.set out) : rs' = rs := by
  have hrs := foldl_set_field hnodup out
  rw [← htypes, ← h, foldl_set_field (htypes ▸ hnodup)] at hrs
  exact (List.map_injective_iff.mpr (Option.some_injective _)) hrs

end

/-- **What is read of the extensions is determined by what is read of the list.** -/
theorem parseExtensions_readings {x : Bytes} {exts : List (UInt16 × Bytes)}
    {result : ParsedExtensions × List UInt16} (hx : parseExtensions x = .ok result)
    (hexts : EncodesExtensions x exts) :
    ∃ rs, ReadAs exts rs ∧ ∀ y exts', EncodesExtensions y exts' →
      (parseExtensions y = .ok result ↔ exts'.map Prod.fst = exts.map Prod.fst ∧ ReadAs exts' rs) := by
  obtain ⟨out, seen⟩ := result
  obtain ⟨exts₁, hexts₁, hnodup, rfl, hread⟩ := parseExtensions_ok_iff.mp hx
  obtain rfl := hexts₁.unique hexts
  obtain ⟨rs, hrs, rfl⟩ := readExtensions_ok_iff.mp hread
  refine ⟨rs, hrs, ?_⟩
  intro y exts' hexts'
  constructor
  · intro hy
    obtain ⟨exts₂, hexts₂, -, htypes, hread'⟩ := parseExtensions_ok_iff.mp hy
    obtain rfl := hexts₂.unique hexts'
    obtain ⟨rs', hrs', hfold⟩ := readExtensions_ok_iff.mp hread'
    refine ⟨htypes.symm, ?_⟩
    obtain rfl : rs' = rs := by
      refine foldl_set_inj (hrs.types ▸ hnodup) ?_ hfold.symm
      rw [hrs'.types, hrs.types, htypes]
    exact hrs'
  · rintro ⟨htypes, hrs'⟩
    exact parseExtensions_ok_iff.mpr ⟨exts', hexts', htypes ▸ hnodup, htypes.symm,
      readExtensions_ok_iff.mpr ⟨_, hrs', rfl⟩⟩

/-! ## Bodies that are read alike -/

/-- No other body of the type is read as this one is. -/
def Sole (e : UInt16 × Bytes) : Prop :=
  ∀ b r, b.length < 65536 → Reading.Of e.1 e.2 r → Reading.Of e.1 b r → b = e.2

theorem Reading.Of.unique {t : UInt16} {b : Bytes} {r r' : Reading} (h : Of t b r) (h' : Of t b r') :
    r = r' := by
  have hset : r.set {} = r'.set {} :=
    Except.ok.inj ((parseExtension_ok_iff.mpr ⟨r, h, rfl⟩).symm.trans
      (parseExtension_ok_iff.mpr ⟨r', h', rfl⟩))
  have hfield := ParsedExtensions.field_set {} r
  rw [hset, h.type_eq, ← h'.type_eq, ParsedExtensions.field_set] at hfield
  exact (Option.some.inj hfield).symm

/-- Lists that are read alike are equal, if no extension of the one can be exchanged. -/
theorem ReadAs.eq_of_sole {exts exts' : List (UInt16 × Bytes)} {rs : List Reading}
    (hsole : ∀ e ∈ exts, Sole e) (hshort : ∀ e ∈ exts', e.2.length < 65536)
    (htypes : exts'.map Prod.fst = exts.map Prod.fst) (hrs : ReadAs exts rs) (hrs' : ReadAs exts' rs) :
    exts' = exts := by
  induction hrs generalizing exts' with
  | nil => exact List.map_eq_nil_iff.mp htypes
  | @cons e r exts rs hr _ ih =>
      cases hrs' with
      | @cons e' _ exts' _ hr' hrs' =>
          rw [List.map_cons, List.map_cons, List.cons.injEq] at htypes
          obtain ⟨htype, htypes⟩ := htypes
          obtain ⟨hsole₁, hsole⟩ := List.forall_mem_cons.mp hsole
          obtain ⟨hshort₁, hshort⟩ := List.forall_mem_cons.mp hshort
          rw [htype] at hr'
          have hbody : e'.2 = e.2 := hsole₁ e'.2 r hshort₁ hr hr'
          rw [Prod.ext htype hbody, ih hsole hshort htypes hrs']

/-- One extension of a list can be exchanged for another one that is read alike. -/
theorem ReadAs.exchange {before after : List (UInt16 × Bytes)} {t : UInt16} {b b' : Bytes} {r : Reading}
    {rs : List Reading} (hrs : ReadAs (before ++ (t, b) :: after) rs) (hr : Reading.Of t b r)
    (hr' : Reading.Of t b' r) : ReadAs (before ++ (t, b') :: after) rs := by
  induction before generalizing rs with
  | nil =>
      cases hrs with
      | cons hr₁ hrs =>
          obtain rfl := hr₁.unique hr
          exact .cons hr' hrs
  | cons e before ih =>
      cases hrs with
      | cons hr₁ hrs => exact .cons hr₁ (ih hrs)

/-- A list can be told from what is read of it if and only if each of its extensions can. -/
theorem parseExtensions_sole_iff {x : Bytes} {exts : List (UInt16 × Bytes)}
    {result : ParsedExtensions × List UInt16} (hx : parseExtensions x = .ok result)
    (hexts : EncodesExtensions x exts) :
    (∀ y, parseExtensions y = .ok result → y = x) ↔ ∀ e ∈ exts, Sole e := by
  obtain ⟨rs, hrs, hsame⟩ := parseExtensions_readings hx hexts
  constructor
  · rintro hinj ⟨t, b⟩ he b' r hb' hr hr'
    obtain ⟨before, after, rfl⟩ := List.append_of_mem he
    have hshort : ∀ e ∈ before ++ (t, b') :: after, e.2.length < 65536 := by
      intro e hmem
      rcases List.mem_append.mp hmem with hmem | hmem
      · exact hexts.short e (List.mem_append_left _ hmem)
      rcases List.mem_cons.mp hmem with rfl | hmem
      · exact hb'
      · exact hexts.short e (List.mem_append_right _ (List.mem_cons_of_mem _ hmem))
    have hexts' : EncodesExtensions _ (before ++ (t, b') :: after) := ⟨hshort, rfl⟩
    have hy := (hsame _ _ hexts').mpr ⟨by simp, hrs.exchange hr hr'⟩
    -- The exchange leaves the bytes as they are, so it leaves the extensions as they are.
    rw [hinj _ hy] at hexts'
    have heq := hexts'.unique hexts
    simpa using heq
  · intro hsole y hy
    obtain ⟨exts', hexts', -⟩ := parseExtensions_ok_iff.mp hy
    obtain ⟨htypes, hrs'⟩ := (hsame y exts' hexts').mp hy
    rw [hexts'.bytes, hexts.bytes, hrs.eq_of_sole hsole hexts'.short htypes hrs']

/-! ## Which bodies can be exchanged -/

/-- A body that is read up to some point only, and has room for another byte, can be exchanged. -/
theorem not_sole_of_slack {t : UInt16} {head trailing : Bytes} {r : Reading}
    (hhead : head.length < 65535) (h : ∀ trailing, Reading.Of t (head ++ trailing) r) :
    ¬ Sole (t, head ++ trailing) := by
  intro hsole
  by_cases htrailing : trailing = []
  · subst htrailing
    have heq := hsole (head ++ [0]) r (by simp; omega) (h []) (h [0])
    simp at heq
  · have heq := hsole (head ++ []) r (by simp; omega) (h trailing) (h [])
    exact htrailing (List.append_cancel_left heq).symm

/-- A list of pairs has an even length, so there is room behind the longest. -/
theorem parsePairList_slack {α : Type} {errTruncated errExceeds errOdd : Err} {mk : UInt8 → UInt8 → α}
    {b : Bytes} {l : List α} (hb : b.length < 65536)
    (h : parsePairList errTruncated errExceeds errOdd mk b = .ok l) :
    ∃ head trailing, b = head ++ trailing ∧ head.length < 65535 ∧
      ∀ trailing, parsePairList errTruncated errExceeds errOdd mk (head ++ trailing) = .ok l := by
  obtain ⟨list, trailing, hlt, heven, rfl⟩ := parsePairList_ok h
  rw [parsePairList_prefixed hlt heven] at h
  refine ⟨toBE 2 list.length ++ list, trailing, (List.append_assoc ..).symm, ?_, ?_⟩
  · simp only [List.length_append, toBE_length] at hb ⊢
    omega
  · intro trailing'
    rw [List.append_assoc, parsePairList_prefixed hlt heven, h]

theorem parseExtendedMasterSecret_ok_iff {b : Bytes} : parseExtendedMasterSecret b = .ok () ↔ b = [] := by
  unfold parseExtendedMasterSecret
  constructor
  · intro h
    split at h
    · cases h
    · rename_i hb
      exact List.length_eq_zero_iff.mp (not_not.mp hb)
  · rintro rfl
    rfl

theorem parseRenegotiationInfo_ok {b : Bytes} (h : parseRenegotiationInfo b = .ok ()) : b = [0] := by
  unfold parseRenegotiationInfo at h
  split at h
  · cases h
  rename_i hmin
  match b, hmin with
  | len :: b, _ =>
      have hdrop : sliceFrom (len :: b) 1 = .ok b := sliceFrom_append (a := [len]) rfl b
      simp only [index_cons_zero, ok_bind, hdrop] at h
      split at h
      · cases h
      split at h
      · cases h
      rename_i hzero
      split at h
      · cases h
      rename_i hlen
      have hlen₀ : len.toNat = 0 := not_not.mp hzero
      obtain rfl : len = 0 := UInt8.toNat_inj.mp hlen₀
      obtain rfl : b = [] := List.length_eq_zero_iff.mp ((not_not.mp hlen).trans hlen₀)
      rfl
  | [], hmin => exact absurd Nat.zero_lt_one hmin

theorem encodeName_length (name : Bytes) : (encodeName name).length = 3 + name.length := by
  simp only [encodeName, List.length_cons, List.length_append, toBE_length]
  omega

theorem encodeServerName_length (names : List Bytes) (trailing : Bytes) :
    (encodeServerName names trailing).length = 2 + (names.flatMap encodeName).length + trailing.length := by
  simp only [encodeServerName, List.length_append, toBE_length]
  omega

theorem encodeServerName_snoc_length (others : List Bytes) (name trailing : Bytes) :
    (encodeServerName (others ++ [name]) trailing).length =
      5 + (others.flatMap encodeName).length + name.length + trailing.length := by
  rw [encodeServerName_length, List.flatMap_append, List.length_append, List.flatMap_singleton,
    encodeName_length]
  omega

theorem encodeServerName_single_length (name trailing : Bytes) :
    (encodeServerName [name] trailing).length = 5 + name.length + trailing.length :=
  encodeServerName_snoc_length [] name trailing

/-- A single name is read, whatever stands behind it. -/
theorem parseServerName_single {name : Bytes} (hname : name.length < 65533) (trailing : Bytes) :
    parseServerName (encodeServerName [name] trailing) = .ok name := by
  refine parseServerName_ok_iff.mpr (.inr ⟨[name], trailing, ?_, ?_, rfl, rfl⟩)
  · intro name' hmem
    rw [List.mem_singleton.mp hmem]
    omega
  · rw [List.flatMap_singleton, encodeName_length]
    omega

/-- **The last name decides.** A body that is read as a name has that name at the end of its list, unless
    it has none at all. -/
theorem parseServerName_snoc {b out : Bytes} (h : parseServerName b = .ok out) :
    out = [] ∨ ∃ others trailing, b = encodeServerName (others ++ [out]) trailing := by
  rcases parseServerName_ok_iff.mp h with ⟨rfl, rfl⟩ | ⟨names, trailing, -, -, rfl, rfl⟩
  · exact .inl rfl
  rcases List.eq_nil_or_concat names with rfl | ⟨others, name, rfl⟩
  · exact .inl rfl
  · refine .inr ⟨others, trailing, ?_⟩
    rw [List.concat_eq_append, List.getLastD_concat]

/-- A server_name body can be exchanged, unless its name is so long that no other body holds it. -/
theorem sole_serverName_iff {b out : Bytes} (hb : b.length < 65536) (h : parseServerName b = .ok out) :
    Sole (extServerName, b) ↔ ∃ name : Bytes, name.length = 65530 ∧ b = encodeServerName [name] [] := by
  constructor
  · intro hsole
    have hother : ∀ b', b'.length < 65536 → parseServerName b' = .ok out → b' = b :=
      fun b' hb' h' => hsole b' _ hb' (.serverName h) (.serverName h')
    rcases parseServerName_snoc h with rfl | ⟨others, trailing, rfl⟩
    · -- The empty body and the empty list are both read as no name.
      have hempty := hother [] (by simp) rfl
      have hlist := hother (encodeServerName [] []) (by simp [encodeServerName_length])
        (parseServerName_ok_iff.mpr (.inr ⟨[], [], by simp, by simp, rfl, rfl⟩))
      cases hempty.trans hlist.symm
    -- The last name alone is read alike, so the body is that name alone.
    rw [encodeServerName_snoc_length] at hb
    have heq := hother (encodeServerName [out] [])
      (by rw [encodeServerName_single_length, List.length_nil]; omega) (parseServerName_single (by omega) [])
    refine ⟨out, ?_, heq.symm⟩
    by_contra hroom
    -- There is room for another byte.
    have hmore : 5 + out.length + 1 < 65536 := by omega
    have heq' := hother (encodeServerName [out] [0])
      (by rw [encodeServerName_single_length, List.length_singleton]; exact hmore)
      (parseServerName_single (by omega) [0])
    have hlen := congrArg List.length (heq'.trans heq.symm)
    rw [encodeServerName_single_length, encodeServerName_single_length, List.length_singleton,
      List.length_nil] at hlen
    omega
  · rintro ⟨name, hname, rfl⟩ b' r hb' hr hr'
    obtain rfl := hr.unique (.serverName (parseServerName_single (by omega) []))
    cases hr' with
    | serverName h' =>
        rcases parseServerName_snoc h' with rfl | ⟨others, trailing, rfl⟩
        · cases hname
        rw [encodeServerName_snoc_length] at hb'
        obtain rfl : trailing = [] := List.length_eq_zero_iff.mp (by omega)
        have hothers : others.flatMap encodeName = [] := List.length_eq_zero_iff.mp (by omega)
        cases others with
        | nil => rfl
        | cons other others => exact absurd hothers (flatMap_enc_ne_nil encodeName_ne_nil other others)

/-- An extension whose body cannot be exchanged: one without a list, or a server_name whose one name
    leaves no room for anything else. -/
def Unambiguous (e : UInt16 × Bytes) : Prop :=
  e.1 = extExtendedMasterSecret ∨ e.1 = extRenegotiationInfo ∨
    (e.1 = extServerName ∧ ∃ name : Bytes, name.length = 65530 ∧ e.2 = encodeServerName [name] [])

theorem sole_iff_unambiguous {t : UInt16} {b : Bytes} {r : Reading} (hb : b.length < 65536)
    (hr : Reading.Of t b r) : Sole (t, b) ↔ Unambiguous (t, b) := by
  cases hr with
  | serverName h =>
      rw [sole_serverName_iff hb h]
      constructor
      · intro hname
        exact .inr (.inr ⟨rfl, hname⟩)
      · rintro (h | h | ⟨-, hname⟩)
        · cases h
        · cases h
        · exact hname
  | supportedGroups h =>
      obtain ⟨head, trailing, rfl, hhead, hread⟩ := parsePairList_slack hb h
      refine iff_of_false ?_ (by rintro (h | h | ⟨h, -⟩) <;> cases h)
      exact not_sole_of_slack hhead (fun trailing' => .supportedGroups (hread trailing'))
  | ecPointFormats h =>
      obtain ⟨hlt, trailing, rfl⟩ := parseECPointFormats_ok_iff.mp h
      refine iff_of_false ?_ (by rintro (h | h | ⟨h, -⟩) <;> cases h)
      rw [← List.append_assoc]
      refine not_sole_of_slack (by simp; omega) (fun trailing' => .ecPointFormats
        (parseECPointFormats_ok_iff.mpr ⟨hlt, trailing', ?_⟩))
      rw [List.append_assoc]
  | signatureAlgorithms h =>
      obtain ⟨head, trailing, rfl, hhead, hread⟩ := parsePairList_slack hb h
      refine iff_of_false ?_ (by rintro (h | h | ⟨h, -⟩) <;> cases h)
      exact not_sole_of_slack hhead (fun trailing' => .signatureAlgorithms (hread trailing'))
  | extendedMasterSecret h =>
      refine iff_of_true ?_ (.inl rfl)
      intro b' r' _ hr hr'
      obtain rfl := hr.unique (.extendedMasterSecret h)
      cases hr' with
      | extendedMasterSecret h' =>
          rw [parseExtendedMasterSecret_ok_iff.mp h', parseExtendedMasterSecret_ok_iff.mp h]
  | renegotiationInfo h =>
      refine iff_of_true ?_ (.inr (.inl rfl))
      intro b' r' _ hr hr'
      obtain rfl := hr.unique (.renegotiationInfo h)
      cases hr' with
      | renegotiationInfo h' => rw [parseRenegotiationInfo_ok h', parseRenegotiationInfo_ok h]

/-- **Which extension lists are read as no other.** A list that is accepted can be told from what is read
    of it if and only if its extensions are extended_master_secret and renegotiation_info, or a
    server_name that fills its extension. -/
theorem parseExtensions_injective_iff {x : Bytes} {exts : List (UInt16 × Bytes)}
    {result : ParsedExtensions × List UInt16} (hx : parseExtensions x = .ok result)
    (hexts : EncodesExtensions x exts) :
    (∀ y, parseExtensions y = .ok result → y = x) ↔ ∀ e ∈ exts, Unambiguous e := by
  rw [parseExtensions_sole_iff hx hexts]
  obtain ⟨rs, hrs, -⟩ := parseExtensions_readings hx hexts
  refine forall₂_congr ?_
  rintro ⟨t, b⟩ he
  obtain ⟨r, hr⟩ := hrs.exists_of_mem he
  exact sole_iff_unambiguous (hexts.short _ he) hr

/-- The two extensions without a list, as a ServerHello has them. -/
theorem parseExtensions_injective_flags :
    parseExtensions [0, 23, 0, 0, 255, 1, 0, 1, 0] =
      .ok ({ extendedMasterSecret := true, renegotiationInfo := true }, [0x0017, 0xFF01]) ∧
    ∀ y, parseExtensions y =
        .ok ({ extendedMasterSecret := true, renegotiationInfo := true }, [0x0017, 0xFF01]) →
      y = [0, 23, 0, 0, 255, 1, 0, 1, 0] := by
  have hx : parseExtensions [0, 23, 0, 0, 255, 1, 0, 1, 0] =
      .ok ({ extendedMasterSecret := true, renegotiationInfo := true }, [0x0017, 0xFF01]) := by decide
  have hexts : EncodesExtensions [0, 23, 0, 0, 255, 1, 0, 1, 0] [(0x0017, []), (0xFF01, [0])] :=
    ⟨by simp, by decide⟩
  refine ⟨hx, (parseExtensions_injective_iff hx hexts).mpr ?_⟩
  intro e he
  rcases List.mem_cons.mp he with rfl | he
  · exact .inl rfl
  · rw [List.mem_singleton.mp he]
    exact .inr (.inl rfl)

/-- A supported_groups extension with an empty list, and the same with a byte behind the list. -/
theorem parseExtensions_not_injective :
    parseExtensions [0, 10, 0, 2, 0, 0] = parseExtensions [0, 10, 0, 3, 0, 0, 9] ∧
      parseExtensions [0, 10, 0, 2, 0, 0] = .ok ({}, [0x000A]) ∧
      ([0, 10, 0, 2, 0, 0] : Bytes) ≠ [0, 10, 0, 3, 0, 0, 9] := by
  decide

end Gostls

import Gostls.Handshake.Extensions
import Gostls.Lib.Tiling

/-!
# `Gostls.Handshake.ExtensionCodec` — what the extension parsers accept, and that they invert the encoders

A hello carries its extensions as a list of `(type, body)` pairs. The two loops of the parsers, over a
name list and over the extension list, get a specification each that is an equivalence:

* `parseServerName_ok_iff` — a server_name body is empty, or a name list with anything behind it, of
  which the last name counts;
* `parseExtensions_ok_iff` — the loop accepts the encodings of extensions of distinct types, each of
  which its own parser accepts;
* `marshalExtensions_eq`, `readExtensions_entries` — the encoder writes `ParsedExtensions.entries`, and
  reading these gives the extensions back.
-/

namespace Gostls

open Lib

/-! ## Pairs -/

theorem readPairs_cons {α : Type} (mk : UInt8 → UInt8 → α) (x y : UInt8) (list : Bytes) (n : Nat) :
    readPairs mk (x :: y :: list) (n + 1) =
      (readPairs mk list n >>= fun out => .ok (mk x y :: out)) := by
  unfold readPairs
  rw [List.range_succ_eq_map, List.mapM_cons, List.mapM_map]
  rfl

/-- **Pairs are read back**, whatever two bytes an element is written as. -/
theorem readPairs_flatMap {α : Type} {mk : UInt8 → UInt8 → α} {hi lo : α → UInt8}
    (hmk : ∀ a, mk (hi a) (lo a) = a) (l : List α) :
    readPairs mk (l.flatMap fun a => [hi a, lo a]) l.length = .ok l := by
  induction l with
  | nil => rfl
  | cons a l ih =>
      rw [List.flatMap_cons, List.length_cons]
      show readPairs mk (hi a :: lo a :: l.flatMap fun a => [hi a, lo a]) (l.length + 1) = _
      rw [readPairs_cons, ih, hmk]
      rfl

theorem flatMap_pair_length {α : Type} (hi lo : α → UInt8) (l : List α) :
    (l.flatMap fun a => [hi a, lo a]).length = pairSize * l.length := by
  induction l with
  | nil => rfl
  | cons a l ih =>
      rw [List.flatMap_cons, List.length_append, ih, List.length_cons]
      simp only [List.length_cons, List.length_nil, pairSize]
      omega

/-- Any even number of bytes are pairs. -/
theorem exists_pairs {α : Type} (mk : UInt8 → UInt8 → α) {hi lo : α → UInt8}
    (hhi : ∀ x y, hi (mk x y) = x) (hlo : ∀ x y, lo (mk x y) = y) :
    ∀ list : Bytes, list.length % 2 = 0 → ∃ l : List α, list = l.flatMap fun a => [hi a, lo a]
  | [],             _     => ⟨[], rfl⟩
  | [_],            heven => absurd heven Nat.one_ne_zero
  | x :: y :: list, heven => by
      rw [List.length_cons, List.length_cons] at heven
      obtain ⟨l, rfl⟩ := exists_pairs mk hhi hlo list (by omega)
      refine ⟨mk x y :: l, ?_⟩
      rw [List.flatMap_cons, hhi, hlo]
      rfl

section PairList

variable {α : Type} {errTruncated errExceeds errOdd : Err} {mk : UInt8 → UInt8 → α}

/-- Of a body the list behind its length is read, and not what follows it. -/
theorem parsePairList_prefixed {list : Bytes} (hlist : list.length < 65536) (heven : list.length % 2 = 0)
    (trailing : Bytes) :
    parsePairList errTruncated errExceeds errOdd mk (toBE 2 list.length ++ (list ++ trailing)) =
      readPairs mk list (list.length / pairSize) := by
  have htwo : ¬ (toBE 2 list.length ++ (list ++ trailing)).length < 2 := by
    rw [List.length_append, toBE_length]
    omega
  have hdecl : ofBE (toBE 2 list.length) = list.length := ofBE_toBE_of_lt hlist
  have hfull : ¬ (list ++ trailing).length < list.length := by simp
  unfold parsePairList
  rw [if_neg htwo, sliceTo_append (toBE_length 2 _), sliceFrom_append (toBE_length 2 _)]
  simp only [ok_bind, hdecl, if_neg hfull, heven, ne_eq, not_true_eq_false, if_false, sliceTo_append rfl]

theorem parsePairList_ok {b : Bytes} {l : List α}
    (h : parsePairList errTruncated errExceeds errOdd mk b = .ok l) :
    ∃ list trailing, list.length < 65536 ∧ list.length % 2 = 0 ∧
      b = toBE 2 list.length ++ (list ++ trailing) := by
  unfold parsePairList at h
  split at h
  · cases h
  rename_i htwo
  have hn : 2 ≤ b.length := Nat.not_lt.mp htwo
  rw [sliceTo_eq hn, sliceFrom_eq hn] at h
  simp only [ok_bind] at h
  split at h
  · cases h
  rename_i hfull
  have hm : ofBE (b.take 2) ≤ (b.drop 2).length := Nat.not_lt.mp hfull
  split at h
  · cases h
  rename_i heven
  obtain ⟨hlt, hb⟩ := prefixed_eq hn hm
  refine ⟨_, _, hlt, ?_, hb⟩
  rw [List.length_take_of_le hm]
  exact not_not.mp heven

theorem parsePairList_flatMap {hi lo : α → UInt8} (hmk : ∀ a, mk (hi a) (lo a) = a) {l : List α}
    (hl : pairSize * l.length < 65536) :
    parsePairList errTruncated errExceeds errOdd mk
      (toBE 2 (pairSize * l.length) ++ l.flatMap fun a => [hi a, lo a]) = .ok l := by
  have hlen := flatMap_pair_length hi lo l
  have heven : (l.flatMap fun a => [hi a, lo a]).length % 2 = 0 := by
    rw [hlen]
    exact Nat.mul_mod_right 2 _
  have h : parsePairList errTruncated errExceeds errOdd mk _ = _ :=
    parsePairList_prefixed (hlen ▸ hl) heven []
  rw [List.append_nil, hlen, Nat.mul_div_right _ (by decide), readPairs_flatMap hmk] at h
  exact h

end PairList

/-! ## Host names -/

/-- An entry of a name list. -/
def encodeName (name : Bytes) : Bytes := sniHostNameType :: (toBE 2 name.length ++ name)

theorem parseServerNameList_cons {name : Bytes} (hname : name.length < 65536) (rounds : Nat)
    (list hostName : Bytes) :
    parseServerNameList (rounds + 1) (encodeName name ++ list) hostName =
      parseServerNameList rounds list name := by
  have hlen : (encodeName name ++ list).length = sniMinEntry + (name ++ list).length := by
    simp only [encodeName, sniMinEntry, List.length_append, List.length_cons, toBE_length]
    omega
  have hne : ¬ (encodeName name ++ list).length = 0 := by
    rw [hlen]
    exact fun h => absurd h (by simp [sniMinEntry])
  have hmin : ¬ (encodeName name ++ list).length < sniMinEntry := by omega
  have htype : index (encodeName name ++ list) 0 = .ok sniHostNameType := rfl
  have hpfx : slice (encodeName name ++ list) 1 sniMinEntry = .ok (toBE 2 name.length) := by
    rw [slice_eq (by decide) (Nat.not_lt.mp hmin)]
    rfl
  have hdecl : ofBE (toBE 2 name.length) = name.length := ofBE_toBE_of_lt hname
  have hdrop : sliceFrom (encodeName name ++ list) sniMinEntry = .ok (name ++ list) := by
    rw [sliceFrom_eq (Nat.not_lt.mp hmin)]
    rfl
  have hfull : ¬ (name ++ list).length < name.length := by simp
  rw [parseServerNameList]
  simp only [if_neg hne, if_neg hmin, htype, ok_bind, hpfx, hdrop, hdecl, if_neg hfull,
    sliceTo_append rfl, sliceFrom_append rfl, ne_eq, not_true_eq_false, if_false, pure_eq]

/-- A round of the loop that goes on has taken an entry off the list. -/
theorem parseServerNameList_ok {rounds : Nat} {list hostName out : Bytes} (hne : list ≠ [])
    (h : parseServerNameList (rounds + 1) list hostName = .ok out) :
    ∃ name rest, name.length < 65536 ∧ list = encodeName name ++ rest ∧
      parseServerNameList rounds rest name = .ok out := by
  rw [parseServerNameList] at h
  split at h
  · rename_i hlen
    exact absurd (List.length_eq_zero_iff.mp hlen) hne
  split at h
  · cases h
  rename_i hmin
  match list, hmin with
  | nameType :: l₁ :: l₀ :: list, _ =>
      have hpfx : slice (nameType :: l₁ :: l₀ :: list) 1 sniMinEntry = .ok [l₁, l₀] := by
        rw [slice_eq (by decide) (by simp [sniMinEntry])]
        rfl
      have hdrop : sliceFrom (nameType :: l₁ :: l₀ :: list) sniMinEntry = .ok list := by
        rw [sliceFrom_eq (by simp [sniMinEntry])]
        rfl
      simp only [index_cons_zero, ok_bind, hpfx, hdrop] at h
      split at h
      · cases h
      rename_i hfull
      have hn : ofBE [l₁, l₀] ≤ list.length := Nat.not_lt.mp hfull
      rw [sliceTo_eq hn, sliceFrom_eq hn] at h
      simp only [ok_bind] at h
      split at h
      · cases h
      rename_i htype
      have hlen : (list.take (ofBE [l₁, l₀])).length = ofBE [l₁, l₀] := List.length_take_of_le hn
      have henc : toBE 2 (ofBE [l₁, l₀]) = [l₁, l₀] := toBE_ofBE [l₁, l₀]
      refine ⟨_, _, ?_, ?_, h⟩
      · have hlt := ofBE_lt [l₁, l₀]
        simp only [List.length_cons, List.length_nil] at hlt
        omega
      · rw [encodeName, hlen, henc, Decidable.not_not.mp htype]
        simp
  | [], hmin | [_], hmin | [_, _], hmin => exact absurd (by simp [sniMinEntry]) hmin

theorem parseServerNameList_nil (rounds : Nat) (hostName : Bytes) :
    parseServerNameList rounds [] hostName = .ok hostName := by
  cases rounds <;> rfl

theorem encodeName_ne_nil (name : Bytes) : encodeName name ≠ [] := List.cons_ne_nil _ _

/-- Of several names the last one counts. -/
theorem foldlM_getLastD (names : List Bytes) (hostName : Bytes) :
    names.foldlM (fun _ name => (.ok name : Except Err Bytes)) hostName = .ok (names.getLastD hostName) := by
  induction names generalizing hostName with
  | nil => rfl
  | cons name names ih => rw [List.foldlM_cons, ok_bind, ih, List.getLastD_cons]

/-- **What a name list says**: it is a sequence of entries, and the last one counts. -/
theorem parseServerNameList_ok_iff {rounds : Nat} {list hostName out : Bytes}
    (hrounds : list.length ≤ rounds) :
    parseServerNameList rounds list hostName = .ok out ↔
      ∃ names : List Bytes, (∀ name ∈ names, name.length < 65536) ∧ list = names.flatMap encodeName ∧
        out = names.getLastD hostName := by
  have hcons : ∀ rounds list hostName out, list ≠ [] →
      (parseServerNameList (rounds + 1) list hostName = .ok out ↔
        ∃ name rest hostName', name.length < 65536 ∧ list = encodeName name ++ rest ∧
          Except.ok name = (Except.ok hostName' : Except Err Bytes) ∧
          parseServerNameList rounds rest hostName' = .ok out) := by
    intro rounds list hostName out hne
    constructor
    · intro h
      obtain ⟨name, rest, hname, hlist, hrec⟩ := parseServerNameList_ok hne h
      exact ⟨name, rest, name, hname, hlist, rfl, hrec⟩
    · rintro ⟨name, rest, _, hname, rfl, ⟨⟩, hrec⟩
      rw [parseServerNameList_cons hname, hrec]
  rw [loop_ok_iff parseServerNameList_nil hcons encodeName_ne_nil hrounds]
  simp only [foldlM_getLastD, Except.ok.injEq, eq_comm]

/-- A name list behind its length, and bytes behind it that nobody reads. -/
def encodeServerName (names : List Bytes) (trailing : Bytes) : Bytes :=
  toBE 2 (names.flatMap encodeName).length ++ (names.flatMap encodeName ++ trailing)

/-- **What the server_name parser accepts**: an empty body, or a name list. -/
theorem parseServerName_ok_iff {b out : Bytes} :
    parseServerName b = .ok out ↔ b = [] ∧ out = [] ∨
      ∃ names trailing, (∀ name ∈ names, name.length < 65536) ∧
        (names.flatMap encodeName).length < 65536 ∧ b = encodeServerName names trailing ∧
        out = names.getLastD [] := by
  unfold parseServerName
  by_cases hb : b.length = 0
  · obtain rfl := List.length_eq_zero_iff.mp hb
    rw [if_pos hb]
    constructor
    · intro h
      cases h
      exact .inl ⟨rfl, rfl⟩
    · rintro (⟨-, rfl⟩ | ⟨names, trailing, -, -, hempty, -⟩)
      · rfl
      · exact absurd (congrArg List.length hempty) (by simp [encodeServerName]; omega)
  rw [if_neg hb]
  constructor
  · intro h
    split at h
    · cases h
    rename_i htwo
    have hn : 2 ≤ b.length := Nat.not_lt.mp htwo
    rw [sliceTo_eq hn, sliceFrom_eq hn] at h
    simp only [ok_bind] at h
    split at h
    · cases h
    rename_i hfull
    have hm : ofBE (b.take 2) ≤ (b.drop 2).length := Nat.not_lt.mp hfull
    rw [sliceTo_eq hm] at h
    obtain ⟨names, hshort, hlist, rfl⟩ := (parseServerNameList_ok_iff (Nat.le_refl _)).mp h
    obtain ⟨hlt, hb⟩ := prefixed_eq hn hm
    rw [hlist] at hlt hb
    exact .inr ⟨names, _, hshort, hlt, hb, rfl⟩
  · rintro (⟨rfl, -⟩ | ⟨names, trailing, hshort, hlist, rfl, rfl⟩)
    · exact absurd rfl hb
    · have htwo : ¬ (encodeServerName names trailing).length < 2 := by
        rw [encodeServerName, List.length_append, toBE_length]
        omega
      have hdecl : ofBE (toBE 2 (names.flatMap encodeName).length) = (names.flatMap encodeName).length :=
        ofBE_toBE_of_lt hlist
      have hfull : ¬ (names.flatMap encodeName ++ trailing).length < (names.flatMap encodeName).length := by
        simp
      rw [if_neg htwo, encodeServerName, sliceTo_append (toBE_length 2 _),
        sliceFrom_append (toBE_length 2 _)]
      simp only [ok_bind, hdecl, if_neg hfull, sliceTo_append rfl]
      exact (parseServerNameList_ok_iff (Nat.le_refl _)).mpr ⟨names, hshort, rfl, rfl⟩

/-! ## The extension list -/

/-- An extension on the wire. -/
def encodeExtension (e : UInt16 × Bytes) : Bytes := toBE 2 e.1.toNat ++ (toBE 2 e.2.length ++ e.2)

theorem encodeExtension_length (e : UInt16 × Bytes) :
    (encodeExtension e).length = extHeaderSize + e.2.length := by
  simp only [encodeExtension, extHeaderSize, List.length_append, toBE_length]
  omega

theorem encodeExtension_ne_nil (e : UInt16 × Bytes) : encodeExtension e ≠ [] := by
  intro hnil
  have hlen := encodeExtension_length e
  rw [hnil, List.length_nil, extHeaderSize] at hlen
  omega

theorem parseExtensionsLoop_nil (rounds : Nat) (out : ParsedExtensions) (seen : List UInt16) :
    parseExtensionsLoop rounds [] out seen = .ok (out, seen) := by
  cases rounds <;> rfl

/-- A round of the loop, on the encoding of an extension of a type not met before. -/
theorem parseExtensionsLoop_cons {e : UInt16 × Bytes} (he : e.2.length < 65536) {seen : List UInt16}
    (hseen : e.1 ∉ seen) (rounds : Nat) (extData : Bytes) (out : ParsedExtensions) :
    parseExtensionsLoop (rounds + 1) (encodeExtension e ++ extData) out seen =
      (parseExtension e.1 e.2 out >>= fun out =>
        parseExtensionsLoop rounds extData out (seen ++ [e.1])) := by
  have hlen : (encodeExtension e ++ extData).length = extHeaderSize + (e.2 ++ extData).length := by
    rw [List.length_append, encodeExtension_length, List.length_append]
    omega
  have hne : ¬ (encodeExtension e ++ extData).length = 0 := by
    rw [hlen]
    exact fun h => absurd h (by simp [extHeaderSize])
  have hmin : extHeaderSize ≤ (encodeExtension e ++ extData).length := by omega
  have htype : sliceTo (encodeExtension e ++ extData) 2 = .ok (toBE 2 e.1.toNat) := by
    rw [encodeExtension, List.append_assoc, sliceTo_append (toBE_length 2 _)]
  have hpfx : slice (encodeExtension e ++ extData) 2 extHeaderSize = .ok (toBE 2 e.2.length) := by
    rw [slice_eq (by decide) hmin]
    rfl
  have hdecl : ofBE (toBE 2 e.2.length) = e.2.length := ofBE_toBE_of_lt he
  have hdrop : sliceFrom (encodeExtension e ++ extData) extHeaderSize = .ok (e.2 ++ extData) := by
    rw [sliceFrom_eq hmin]
    rfl
  have hfull : ¬ (e.2 ++ extData).length < e.2.length := by simp
  have hnew : seen.contains e.1 = false := by simpa using hseen
  rw [parseExtensionsLoop]
  simp only [if_neg hne, if_neg (Nat.not_lt.mpr hmin), htype, ok_bind, hpfx, hdrop, hdecl, if_neg hfull,
    beUint16_toBE, hnew, Bool.false_eq_true, if_false, sliceTo_append rfl, sliceFrom_append rfl, pure_eq]

/-- A round of the loop that goes on has taken an extension off the list. -/
theorem parseExtensionsLoop_ok {rounds : Nat} {extData : Bytes} {out : ParsedExtensions}
    {seen : List UInt16} {r : ParsedExtensions × List UInt16} (hne : extData ≠ [])
    (h : parseExtensionsLoop (rounds + 1) extData out seen = .ok r) :
    ∃ e rest out', e.2.length < 65536 ∧ extData = encodeExtension e ++ rest ∧ e.1 ∉ seen ∧
      parseExtension e.1 e.2 out = .ok out' ∧
      parseExtensionsLoop rounds rest out' (seen ++ [e.1]) = .ok r := by
  rw [parseExtensionsLoop] at h
  split at h
  · rename_i hlen
    exact absurd (List.length_eq_zero_iff.mp hlen) hne
  split at h
  · cases h
  rename_i hmin
  match extData, hmin with
  | t₁ :: t₀ :: l₁ :: l₀ :: extData, _ =>
      have htype : sliceTo (t₁ :: t₀ :: l₁ :: l₀ :: extData) 2 = .ok [t₁, t₀] :=
        sliceTo_append (a := [t₁, t₀]) rfl (l₁ :: l₀ :: extData)
      have hpfx : slice (t₁ :: t₀ :: l₁ :: l₀ :: extData) 2 extHeaderSize = .ok [l₁, l₀] := by
        rw [slice_eq (by decide) (by simp [extHeaderSize])]
        rfl
      have hdrop : sliceFrom (t₁ :: t₀ :: l₁ :: l₀ :: extData) extHeaderSize = .ok extData :=
        sliceFrom_append (a := [t₁, t₀, l₁, l₀]) rfl extData
      simp only [ok_bind, htype, hpfx, hdrop] at h
      split at h
      · cases h
      rename_i hseen
      split at h
      · cases h
      rename_i hfull
      have hn : ofBE [l₁, l₀] ≤ extData.length := Nat.not_lt.mp hfull
      rw [sliceTo_eq hn, sliceFrom_eq hn] at h
      simp only [ok_bind] at h
      obtain ⟨out', hext, hrec⟩ := bind_eq_ok.mp h
      obtain ⟨hlt, heq⟩ := prefixed_eq (k := 2) (b := l₁ :: l₀ :: extData) (by simp) hn
      refine ⟨(beUint16 [t₁, t₀], extData.take (ofBE [l₁, l₀])), _, out', hlt, ?_, by simpa using hseen,
        hext, hrec⟩
      have htoBE : toBE 2 (beUint16 [t₁, t₀]).toNat = [t₁, t₀] := toBE_beUint16 rfl
      rw [encodeExtension, htoBE, List.append_assoc, List.append_assoc]
      exact congrArg (fun l => t₁ :: t₀ :: l) heq
  | [], hmin | [_], hmin | [_, _], hmin | [_, _, _], hmin =>
      exact absurd (by simp [extHeaderSize]) hmin

/-- `extData` is the encoding of the extensions `exts`. -/
structure EncodesExtensions (extData : Bytes) (exts : List (UInt16 × Bytes)) : Prop where
  short : ∀ e ∈ exts, e.2.length < 65536
  bytes : extData = exts.flatMap encodeExtension

/-- What the extensions say, taken one after the other. -/
def readExtensions (out : ParsedExtensions) (exts : List (UInt16 × Bytes)) :
    Except Err ParsedExtensions :=
  exts.foldlM (fun out e => parseExtension e.1 e.2 out) out

/-- What a round does with an extension: one of a type met before is refused. -/
def takeExtension (s : ParsedExtensions × List UInt16) (e : UInt16 × Bytes) :
    Except Err (ParsedExtensions × List UInt16) := do
  if e.1 ∈ s.2 then throw (errDuplicateExtension.detail (" 0x" ++ hex04 e.1))
  let out ← parseExtension e.1 e.2 s.1
  return (out, s.2 ++ [e.1])

theorem takeExtension_ok_iff {s s' : ParsedExtensions × List UInt16} {e : UInt16 × Bytes} :
    takeExtension s e = .ok s' ↔
      e.1 ∉ s.2 ∧ ∃ out, parseExtension e.1 e.2 s.1 = .ok out ∧ s' = (out, s.2 ++ [e.1]) := by
  unfold takeExtension
  by_cases hseen : e.1 ∈ s.2
  · simp [hseen]
  · rw [if_neg hseen, bind_eq_ok]
    simp [hseen, eq_comm]

/-- **What rounds take**: extensions of distinct types, each of which its own parser accepts. -/
theorem foldlM_takeExtension {exts : List (UInt16 × Bytes)} {out out' : ParsedExtensions}
    {seen seen' : List UInt16} :
    exts.foldlM takeExtension (out, seen) = .ok (out', seen') ↔
      (∀ e ∈ exts, e.1 ∉ seen) ∧ (exts.map Prod.fst).Nodup ∧ seen' = seen ++ exts.map Prod.fst ∧
        readExtensions out exts = .ok out' := by
  induction exts generalizing out seen with
  | nil => simp [readExtensions, eq_comm, and_comm]
  | cons e exts ih =>
      -- The types not met after this one are those not met before, and not its own.
      have hfresh : (∀ e' ∈ exts, e'.1 ∉ seen ++ [e.1]) ↔
          (∀ e' ∈ exts, e'.1 ∉ seen) ∧ e.1 ∉ exts.map Prod.fst := by
        simp only [List.mem_append, List.mem_singleton, not_or, List.mem_map, not_exists, not_and]
        exact ⟨fun h => ⟨fun e' he' => (h e' he').1, fun e' he' => (h e' he').2⟩,
          fun h e' he' => ⟨h.1 e' he', h.2 e' he'⟩⟩
      have htypes : seen ++ [e.1] ++ exts.map Prod.fst = seen ++ (e :: exts).map Prod.fst := by simp
      rw [List.foldlM_cons, bind_eq_ok, List.forall_mem_cons, List.map_cons, List.nodup_cons]
      constructor
      · rintro ⟨s, hstep, hrest⟩
        obtain ⟨hnew, out₁, hext, rfl⟩ := takeExtension_ok_iff.mp hstep
        obtain ⟨hafter, hnodup, rfl, hread⟩ := ih.mp hrest
        obtain ⟨hbefore, hown⟩ := hfresh.mp hafter
        exact ⟨⟨hnew, hbefore⟩, ⟨hown, hnodup⟩, htypes, bind_eq_ok.mpr ⟨out₁, hext, hread⟩⟩
      · rintro ⟨⟨hnew, hbefore⟩, ⟨hown, hnodup⟩, rfl, hread⟩
        obtain ⟨out₁, hext, hread⟩ := bind_eq_ok.mp (show (parseExtension e.1 e.2 out >>= _) = _ from hread)
        exact ⟨(out₁, seen ++ [e.1]), takeExtension_ok_iff.mpr ⟨hnew, out₁, hext, rfl⟩,
          ih.mpr ⟨hfresh.mpr ⟨hbefore, hown⟩, hnodup, htypes.symm, hread⟩⟩

/-- **What the loop accepts**: the encoding of extensions of distinct types, each of which its own parser
    accepts. -/
theorem parseExtensionsLoop_ok_iff {rounds : Nat} {extData : Bytes} {out out' : ParsedExtensions}
    {seen seen' : List UInt16} (hrounds : extData.length ≤ rounds) :
    parseExtensionsLoop rounds extData out seen = .ok (out', seen') ↔
      ∃ exts, EncodesExtensions extData exts ∧ (∀ e ∈ exts, e.1 ∉ seen) ∧ (exts.map Prod.fst).Nodup ∧
        seen' = seen ++ exts.map Prod.fst ∧ readExtensions out exts = .ok out' := by
  have hcons : ∀ rounds extData (s s' : ParsedExtensions × List UInt16), extData ≠ [] →
      (parseExtensionsLoop (rounds + 1) extData s.1 s.2 = .ok s' ↔
        ∃ e rest s₁, e.2.length < 65536 ∧ extData = encodeExtension e ++ rest ∧
          takeExtension s e = .ok s₁ ∧ parseExtensionsLoop rounds rest s₁.1 s₁.2 = .ok s') := by
    intro rounds extData s s' hne
    constructor
    · intro h
      obtain ⟨e, rest, out₁, he, hdata, hnew, hext, hrec⟩ := parseExtensionsLoop_ok hne h
      exact ⟨e, rest, _, he, hdata, takeExtension_ok_iff.mpr ⟨hnew, out₁, hext, rfl⟩, hrec⟩
    · rintro ⟨e, rest, s₁, he, rfl, hstep, hrec⟩
      obtain ⟨hnew, out₁, hext, rfl⟩ := takeExtension_ok_iff.mp hstep
      rw [parseExtensionsLoop_cons he hnew, hext, ok_bind, hrec]
  have hloop := @loop_ok_iff _ _ _ _ encodeExtension (fun e => e.2.length < 65536)
    (fun rounds extData s => parseExtensionsLoop rounds extData s.1 s.2) takeExtension
    (fun rounds s => parseExtensionsLoop_nil rounds s.1 s.2) hcons encodeExtension_ne_nil
    rounds extData (out, seen) (out', seen') hrounds
  rw [hloop]
  simp only [foldlM_takeExtension]
  constructor
  · rintro ⟨exts, hshort, hdata, hread⟩
    exact ⟨exts, ⟨hshort, hdata⟩, hread⟩
  · rintro ⟨exts, ⟨hshort, hdata⟩, hread⟩
    exact ⟨exts, hshort, hdata, hread⟩

theorem parseExtensions_ok_iff {extData : Bytes} {out : ParsedExtensions} {seen : List UInt16} :
    parseExtensions extData = .ok (out, seen) ↔
      ∃ exts, EncodesExtensions extData exts ∧ (exts.map Prod.fst).Nodup ∧
        seen = exts.map Prod.fst ∧ readExtensions {} exts = .ok out := by
  unfold parseExtensions
  rw [parseExtensionsLoop_ok_iff (Nat.le_refl _)]
  simp

/-! ## Encoded extensions are read back -/

theorem marshalSupportedGroups_eq (groups : List UInt16) :
    marshalSupportedGroups groups = toBE 2 (pairSize * groups.length) ++
      groups.flatMap fun v => [UInt8.ofNat (v.toNat / 256), UInt8.ofNat v.toNat] := by
  rw [marshalSupportedGroups, appendUint16_ofNat, foldl_appendUint16]
  rfl

theorem marshalSignatureAlgorithms_eq (pairs : List SigAndHash) :
    marshalSignatureAlgorithms pairs =
      toBE 2 (pairSize * pairs.length) ++ pairs.flatMap fun p => [p.hash, p.sig] := by
  rw [marshalSignatureAlgorithms, appendUint16_ofNat, List.flatMap_def, ← List.foldl_append_eq_append]
  simp only [appendUint8, List.append_assoc, List.nil_append]
  rfl

theorem parseSupportedGroups_marshal {groups : List UInt16} (h : pairSize * groups.length < 65536) :
    parseSupportedGroups (marshalSupportedGroups groups) = .ok groups := by
  have hmk : ∀ v : UInt16, uint16Of (UInt8.ofNat (v.toNat / 256)) (UInt8.ofNat v.toNat) = v :=
    beUint16_toBE
  rw [marshalSupportedGroups_eq]
  exact parsePairList_flatMap hmk h

theorem parseSignatureAlgorithms_marshal {pairs : List SigAndHash}
    (h : pairSize * pairs.length < 65536) :
    parseSignatureAlgorithms (marshalSignatureAlgorithms pairs) = .ok pairs := by
  rw [marshalSignatureAlgorithms_eq]
  exact parsePairList_flatMap (fun _ => rfl) h

/-- **What the ec_point_formats parser accepts**: a list behind its length, whatever follows it. -/
theorem parseECPointFormats_ok_iff {b : Bytes} {formats : List UInt8} :
    parseECPointFormats b = .ok formats ↔ formats.length < 256 ∧
      ∃ trailing, b = toBE 1 formats.length ++ (formats ++ trailing) := by
  unfold parseECPointFormats
  constructor
  · intro h
    split at h
    · cases h
    rename_i hmin
    match b, hmin with
    | len :: b, _ =>
        have hdrop : sliceFrom (len :: b) 1 = .ok b := sliceFrom_append (a := [len]) rfl b
        simp only [index_cons_zero, ok_bind, hdrop] at h
        split at h
        · cases h
        rename_i hfull
        have hn : len.toNat ≤ b.length := Nat.not_lt.mp hfull
        rw [sliceTo_eq hn] at h
        cases h
        rw [List.length_take_of_le hn]
        refine ⟨len.toNat_lt, b.drop len.toNat, ?_⟩
        rw [List.take_append_drop]
        simp [toBE]
    | [], hmin => exact absurd Nat.zero_lt_one hmin
  · rintro ⟨hlt, trailing, rfl⟩
    have hlen : (UInt8.ofNat formats.length).toNat = formats.length := UInt8.toNat_ofNat_of_lt' hlt
    have hcons : toBE 1 formats.length ++ (formats ++ trailing) =
        UInt8.ofNat formats.length :: (formats ++ trailing) := rfl
    have hdrop : sliceFrom (UInt8.ofNat formats.length :: (formats ++ trailing)) 1 =
        .ok (formats ++ trailing) := sliceFrom_append (a := [UInt8.ofNat formats.length]) rfl _
    have hfull : ¬ (formats ++ trailing).length < formats.length := by simp
    simp only [hcons, List.length_cons, index_cons_zero, ok_bind, hdrop, hlen, if_neg hfull,
      sliceTo_append rfl]
    rfl

theorem parseECPointFormats_marshal {formats : List UInt8} (h : formats.length < 256) :
    parseECPointFormats (marshalECPointFormats formats) = .ok formats :=
  parseECPointFormats_ok_iff.mpr ⟨h, [], by rw [List.append_nil]; rfl⟩

theorem parseServerName_marshal {name : Bytes} (h : sniMinEntry + name.length < 65536) :
    parseServerName (marshalServerName name) = .ok name := by
  have hentry : ([name].flatMap encodeName).length = sniMinEntry + name.length := by
    simp [encodeName, sniMinEntry]
    omega
  have hbytes : marshalServerName name = encodeServerName [name] [] := by
    simp only [marshalServerName, appendUint16_ofNat, encodeServerName, hentry]
    simp [appendUint8, encodeName]
  rw [hbytes]
  refine parseServerName_ok_iff.mpr (.inr ⟨[name], [], ?_, by omega, rfl, rfl⟩)
  simp only [List.mem_singleton, forall_eq]
  omega

/-- The extensions that are written, in the canonical order. -/
def ParsedExtensions.entries (ext : ParsedExtensions) : List (UInt16 × Bytes) :=
  (if ext.serverName ≠ [] then [(extServerName, marshalServerName ext.serverName)] else []) ++
  (if ext.supportedGroups.length > 0 then
    [(extSupportedGroups, marshalSupportedGroups ext.supportedGroups)] else []) ++
  (if ext.ecPointFormats.length > 0 then
    [(extECPointFormats, marshalECPointFormats ext.ecPointFormats)] else []) ++
  (if ext.signatureAlgorithms.length > 0 then
    [(extSignatureAlgorithms, marshalSignatureAlgorithms ext.signatureAlgorithms)] else []) ++
  (if ext.extendedMasterSecret then [(extExtendedMasterSecret, [])] else []) ++
  (if ext.renegotiationInfo then [(extRenegotiationInfo, [0x00])] else [])

theorem appendExtension_eq (dst : Bytes) (extType : UInt16) (body : Bytes) :
    appendExtension dst extType body = dst ++ encodeExtension (extType, body) := by
  simp only [appendExtension, appendUint16_ofNat, encodeExtension]
  rw [appendUint16, List.append_assoc, List.append_assoc]

/-- Appending an extension that is only written on a condition. -/
theorem ite_appendExtension {c : Prop} [Decidable c] (es : List (UInt16 × Bytes)) (extType : UInt16)
    (body : Bytes) :
    (if c then appendExtension (es.flatMap encodeExtension) extType body
      else es.flatMap encodeExtension) =
      (es ++ if c then [(extType, body)] else []).flatMap encodeExtension := by
  split
  · rw [appendExtension_eq, List.flatMap_append, List.flatMap_singleton]
  · rw [List.append_nil]

/-- **What is written**: nothing when no extension is, else the extensions behind their length. -/
theorem marshalExtensions_eq (ext : ParsedExtensions) :
    marshalExtensions ext = if ext.entries = [] then [] else
      toBE 2 (ext.entries.flatMap encodeExtension).length ++ ext.entries.flatMap encodeExtension := by
  have hfirst : (if ext.serverName ≠ [] then
        appendExtension [] extServerName (marshalServerName ext.serverName) else []) =
      (if ext.serverName ≠ [] then [(extServerName, marshalServerName ext.serverName)]
        else []).flatMap encodeExtension := ite_appendExtension [] _ _
  have hempty : (ext.entries.flatMap encodeExtension).length = 0 ↔ ext.entries = [] := by
    constructor
    · intro h
      cases hes : ext.entries with
      | nil => rfl
      | cons e es =>
          rw [hes, List.flatMap_cons, List.length_append, encodeExtension_length] at h
          simp only [extHeaderSize] at h
          omega
    · intro h
      rw [h]
      rfl
  unfold marshalExtensions
  simp only [appendUint16_ofNat, hfirst, ite_appendExtension, List.nil_append]
  by_cases h : ext.entries = []
  · rw [if_pos h]
    exact if_pos (hempty.mpr h)
  · rw [if_neg h]
    exact if_neg (fun hlen => h (hempty.mp hlen))

/-- What the encoders can write without cutting a length. -/
structure ParsedExtensions.Fits (ext : ParsedExtensions) : Prop where
  serverName : sniMinEntry + ext.serverName.length < 65536
  supportedGroups : pairSize * ext.supportedGroups.length < 65536
  ecPointFormats : ext.ecPointFormats.length < 256
  signatureAlgorithms : pairSize * ext.signatureAlgorithms.length < 65536

theorem readExtensions_append (out : ParsedExtensions) (es es' : List (UInt16 × Bytes)) :
    readExtensions out (es ++ es') =
      (readExtensions out es >>= fun out => readExtensions out es') := List.foldlM_append

/-- Reading an extension that is only written on a condition. -/
theorem readExtensions_ite {c : Prop} [Decidable c] {e : UInt16 × Bytes} {out out' : ParsedExtensions}
    (hc : c → parseExtension e.1 e.2 out = .ok out') (hnc : ¬c → out = out') :
    readExtensions out (if c then [e] else []) = .ok out' := by
  split
  · rename_i h
    exact bind_eq_ok.mpr ⟨out', hc h, rfl⟩
  · rename_i h
    rw [hnc h]
    rfl

/-- **The extensions are read back** as what was written. -/
theorem readExtensions_entries {ext : ParsedExtensions} (h : ext.Fits) :
    readExtensions {} ext.entries = .ok ext := by
  obtain ⟨serverName, supportedGroups, ecPointFormats, signatureAlgorithms, extendedMasterSecret,
    renegotiationInfo⟩ := ext
  obtain ⟨hsni, hgroups, hformats, halgs⟩ := h
  have h₁ : readExtensions {} (if serverName ≠ [] then
      [(extServerName, marshalServerName serverName)] else []) = .ok { serverName } := by
    apply readExtensions_ite
    · exact fun _ => bind_eq_ok.mpr ⟨_, parseServerName_marshal hsni, rfl⟩
    · intro hc
      rw [Decidable.not_not.mp hc]
  have h₂ : readExtensions { serverName } (if supportedGroups.length > 0 then
      [(extSupportedGroups, marshalSupportedGroups supportedGroups)] else []) =
      .ok { serverName, supportedGroups } := by
    apply readExtensions_ite
    · exact fun _ => bind_eq_ok.mpr ⟨_, parseSupportedGroups_marshal hgroups, rfl⟩
    · intro hc
      rw [List.eq_nil_of_length_eq_zero (by omega : supportedGroups.length = 0)]
  have h₃ : readExtensions { serverName, supportedGroups } (if ecPointFormats.length > 0 then
      [(extECPointFormats, marshalECPointFormats ecPointFormats)] else []) =
      .ok { serverName, supportedGroups, ecPointFormats } := by
    apply readExtensions_ite
    · exact fun _ => bind_eq_ok.mpr ⟨_, parseECPointFormats_marshal hformats, rfl⟩
    · intro hc
      rw [List.eq_nil_of_length_eq_zero (by omega : ecPointFormats.length = 0)]
  have h₄ : readExtensions { serverName, supportedGroups, ecPointFormats }
      (if signatureAlgorithms.length > 0 then
        [(extSignatureAlgorithms, marshalSignatureAlgorithms signatureAlgorithms)] else []) =
      .ok { serverName, supportedGroups, ecPointFormats, signatureAlgorithms } := by
    apply readExtensions_ite
    · exact fun _ => bind_eq_ok.mpr ⟨_, parseSignatureAlgorithms_marshal halgs, rfl⟩
    · intro hc
      rw [List.eq_nil_of_length_eq_zero (by omega : signatureAlgorithms.length = 0)]
  have h₅ : readExtensions { serverName, supportedGroups, ecPointFormats, signatureAlgorithms }
      (if extendedMasterSecret then [(extExtendedMasterSecret, [])] else []) =
      .ok { serverName, supportedGroups, ecPointFormats, signatureAlgorithms, extendedMasterSecret } := by
    apply readExtensions_ite
    · rintro rfl
      rfl
    · intro hc
      rw [Bool.eq_false_of_not_eq_true hc]
  have h₆ : readExtensions
      { serverName, supportedGroups, ecPointFormats, signatureAlgorithms, extendedMasterSecret }
      (if renegotiationInfo then [(extRenegotiationInfo, [0x00])] else []) =
      .ok { serverName, supportedGroups, ecPointFormats, signatureAlgorithms, extendedMasterSecret,
            renegotiationInfo } := by
    apply readExtensions_ite
    · rintro rfl
      rfl
    · intro hc
      rw [Bool.eq_false_of_not_eq_true hc]
  simp only [ParsedExtensions.entries, readExtensions_append, h₁, h₂, h₃, h₄, h₅, h₆, ok_bind]

/-- The types written are distinct. -/
theorem ParsedExtensions.entries_nodup (ext : ParsedExtensions) :
    (ext.entries.map Prod.fst).Nodup := by
  have hsub : ∀ (c : Prop) [Decidable c] (e : UInt16 × Bytes),
      ((if c then [e] else []).map Prod.fst).Sublist [e.1] := by
    intro c _ e
    split
    · exact List.Sublist.refl _
    · exact List.nil_sublist _
  have hall : (ext.entries.map Prod.fst).Sublist [extServerName, extSupportedGroups, extECPointFormats,
      extSignatureAlgorithms, extExtendedMasterSecret, extRenegotiationInfo] := by
    simp only [ParsedExtensions.entries, List.map_append]
    exact (((((hsub _ _).append (hsub _ _)).append (hsub _ _)).append (hsub _ _)).append
      (hsub _ _)).append (hsub _ _)
  exact hall.nodup (by decide)

end Gostls

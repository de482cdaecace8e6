import Gostls.Env

/-!
# `Gostls.Ke.Dhe` — the finite-field Diffie-Hellman exchange

`parseDHEServerParams` is the exchange's own parser of the server parameters; the handshake has walked
the same bytes before with a reader of its own. `readU16LenPrefixed_ok_iff` says what it accepts.

`validateDHEParams` is meant to keep out groups below 2048 bits. It counts the bytes of the encoding, so
a small prime behind enough zeros gets through: `dhe_group_floor_iff` says which encodings keep the
promise.
-/

namespace Gostls

open Lib

def dheMinPBits : Nat := 2048
def dheU16PrefixLen : Nat := 2
def dheMinG : Nat := 2

def errDHETrailingBytes : Err := .new "ke: DHE: trailing bytes in serverParams"
def errDHETooShort : Err := .new "too short for length prefix: need 2"
def errDHETruncated : Err := .new "truncated"
def errDHEPTooShort : Err := .new "ke: DHE: p is too short: minimum is 2048 bits"
def errDHEPEven : Err := .new "ke: DHE: p is even — not a valid DH prime"
def errDHEGTooSmall : Err := .new "ke: DHE: g must be ≥ 2"
def errDHEYsLow : Err := .new "ke: DHE: Ys out of range: must be > 1"
def errDHEYsHigh : Err := .new "ke: DHE: Ys out of range: must be < p-1"

/-! ## Parsing -/

/-- A field behind a 2-byte length, and the rest. -/
def readU16LenPrefixed (b : Bytes) : Except Err (Bytes × Bytes) := do
  if b.length < dheU16PrefixLen then
    throw (.errorf ("too short for length prefix: need 2, have " ++ toString b.length) errDHETooShort)
  let hi ← index b 0
  let lo ← index b 1
  let n := ofBE [hi, lo]
  let b ← sliceFrom b dheU16PrefixLen
  if b.length < n then
    throw (.errorf ("truncated: need " ++ toString n ++ " bytes, have " ++ toString b.length)
      errDHETruncated)
  let data ← sliceTo b n
  let rest ← sliceFrom b n
  return (data, rest)

/-- `dh_p`, `dh_g` and `dh_Ys`, with nothing behind them. -/
def parseDHEServerParams (params : Bytes) : Except Err (Bytes × Bytes × Bytes) := do
  let (p, rest) ← annotate "ke: DHE: parse dh_p" (readU16LenPrefixed params)
  let (g, rest) ← annotate "ke: DHE: parse dh_g" (readU16LenPrefixed rest)
  let (ys, rest) ← annotate "ke: DHE: parse dh_Ys" (readU16LenPrefixed rest)
  if rest.length ≠ 0 then
    throw (.errorf ("ke: DHE: trailing bytes in serverParams: " ++ toString rest.length)
      errDHETrailingBytes)
  return (p, g, ys)

/-- A field as it is encoded: two bytes of length, then the field. -/
def encodeU16 (x : Bytes) : Bytes := toBE 2 x.length ++ x

/-- A field of the declared length, taken off the front. -/
theorem encodeU16_front {hi lo : UInt8} {tail : Bytes} (h : ofBE [hi, lo] ≤ tail.length) :
    (tail.take (ofBE [hi, lo])).length < 65536 ∧
      hi :: lo :: tail = encodeU16 (tail.take (ofBE [hi, lo])) ++ tail.drop (ofBE [hi, lo]) := by
  obtain ⟨hlt, heq⟩ := prefixed_eq (k := 2) (b := hi :: lo :: tail) (by simp) h
  rw [encodeU16, List.append_assoc]
  exact ⟨hlt, heq⟩

/-- **What the reader accepts**: an encoded field in front of the rest. -/
theorem readU16LenPrefixed_ok_iff {b x rest : Bytes} :
    readU16LenPrefixed b = .ok (x, rest) ↔ x.length < 65536 ∧ b = encodeU16 x ++ rest := by
  unfold readU16LenPrefixed
  constructor
  · intro h
    split at h
    · cases h
    rename_i hmin
    match b, hmin with
    | hi :: lo :: tail, _ =>
        have hdrop : sliceFrom (hi :: lo :: tail) dheU16PrefixLen = .ok tail :=
          sliceFrom_append (a := [hi, lo]) rfl tail
        simp only [index_cons_zero, index_cons_succ, ok_bind, hdrop] at h
        split at h
        · cases h
        rename_i hfull
        have hn : ofBE [hi, lo] ≤ tail.length := Nat.not_lt.mp hfull
        rw [sliceTo_eq hn, sliceFrom_eq hn] at h
        cases h
        exact encodeU16_front hn
    | [], hmin | [_], hmin => exact absurd (by simp [dheU16PrefixLen]) hmin
  · rintro ⟨hx, rfl⟩
    have hmin : ¬ (encodeU16 x ++ rest).length < dheU16PrefixLen := by
      simp only [encodeU16, dheU16PrefixLen, List.length_append, toBE_length]
      omega
    have hdrop : sliceFrom (encodeU16 x ++ rest) dheU16PrefixLen = .ok (x ++ rest) := by
      rw [sliceFrom_eq (Nat.not_lt.mp hmin)]
      rfl
    have h0 : index (encodeU16 x ++ rest) 0 = .ok (UInt8.ofNat (x.length / 256)) := rfl
    have h1 : index (encodeU16 x ++ rest) 1 = .ok (UInt8.ofNat x.length) := rfl
    have hlen : ofBE [UInt8.ofNat (x.length / 256), UInt8.ofNat x.length] = x.length :=
      ofBE_toBE_of_lt (k := 2) hx
    have hfull : ¬ (x ++ rest).length < x.length := by simp
    simp only [if_neg hmin, h0, h1, ok_bind, hlen, hdrop, if_neg hfull, sliceTo_append rfl,
      sliceFrom_append rfl, pure_eq]

/-- **What the parser accepts**: three fields, one after the other, and nothing else. -/
theorem parseDHEServerParams_ok_iff {params p g ys : Bytes} :
    parseDHEServerParams params = .ok (p, g, ys) ↔
      p.length < 65536 ∧ g.length < 65536 ∧ ys.length < 65536 ∧
        params = encodeU16 p ++ (encodeU16 g ++ encodeU16 ys) := by
  unfold parseDHEServerParams
  constructor
  · intro h
    obtain ⟨⟨p', rest₁⟩, h₁, htail₁⟩ := bind_eq_ok.mp h
    obtain ⟨⟨g', rest₂⟩, h₂, htail₂⟩ := bind_eq_ok.mp htail₁
    obtain ⟨⟨ys', rest₃⟩, h₃, htail₃⟩ := bind_eq_ok.mp htail₂
    obtain ⟨hp, rfl⟩ := readU16LenPrefixed_ok_iff.mp (mapErr_eq_ok.mp h₁)
    obtain ⟨hg, rfl⟩ := readU16LenPrefixed_ok_iff.mp (mapErr_eq_ok.mp h₂)
    obtain ⟨hys, rfl⟩ := readU16LenPrefixed_ok_iff.mp (mapErr_eq_ok.mp h₃)
    simp only at htail₃
    split at htail₃
    · cases htail₃
    rename_i hrest
    obtain rfl := List.length_eq_zero_iff.mp (Decidable.not_not.mp hrest)
    cases htail₃
    exact ⟨hp, hg, hys, by rw [List.append_nil]⟩
  · rintro ⟨hp, hg, hys, rfl⟩
    have h₁ := readU16LenPrefixed_ok_iff.mpr ⟨hp, (rfl : encodeU16 p ++ (encodeU16 g ++ encodeU16 ys) = _)⟩
    have h₂ := readU16LenPrefixed_ok_iff.mpr ⟨hg, (rfl : encodeU16 g ++ encodeU16 ys = _)⟩
    have h₃ := readU16LenPrefixed_ok_iff.mpr ⟨hys, (List.append_nil (encodeU16 ys)).symm⟩
    simp only [h₁, h₂, h₃, annotate_ok, ok_bind, List.length_nil, ne_eq, not_true_eq_false, if_false,
      pure_eq]

/-! ## The exchange -/

def validateDHEParams (pBytes gBytes ysBytes : Bytes) : Except Err Unit := do
  -- The floor is on the length of the encoding, leading zeros included.
  let pBits := pBytes.length * 8
  if pBits < dheMinPBits then
    throw (.errorf ("ke: DHE: p is too short: " ++ toString pBits ++ " bits, minimum is " ++
      toString dheMinPBits) errDHEPTooShort)
  if pBytes.length = 0 then throw (errDHEPEven.detail "")
  let last ← index pBytes (pBytes.length - 1)
  if last &&& 1 = 0 then throw (errDHEPEven.detail "")
  let gBig := ofBE gBytes
  if gBig < dheMinG then
    throw (.errorf ("ke: DHE: g must be ≥ 2, got " ++ toString gBig) errDHEGTooSmall)
  let pBig := ofBE pBytes
  let ysBig := ofBE ysBytes
  if ysBig ≤ 1 then
    throw (.errorf ("ke: DHE: Ys out of range: must be > 1, got " ++ toString ysBig) errDHEYsLow)
  -- `p - 1` is an integer: below zero for `p = 0`.
  if (ysBig : Int) ≥ (pBig : Int) - 1 then throw (errDHEYsHigh.detail "")

/-- `base^exp mod m`, after reducing a base that is not below the modulus. -/
def modExp (bm : Bigmod) (baseBytes expBytes : Bytes) (m : Nat) : Except Err Bytes := do
  let base ← match bm.setBytes baseBytes m with
    | .ok base   => pure base
    | .error err =>
      match bm.setOverflowingBytes baseBytes m with
      | .ok base    => pure base
      | .error err2 =>
        throw (.wrap "ke: DHE: load base into modulus: " err2 (" (original: " ++ err.error ++ ")"))
  return bm.bytes (bm.exp base expBytes m) m

/-- `b` behind zeros, up to `n` bytes. -/
def leftPad (b : Bytes) (n : Nat) : Bytes :=
  if b.length ≥ n then b else List.replicate (n - b.length) 0 ++ b

/-- `DHEExchange.ClientKeyExchange`; `privateX` fixes the exponent, which else is drawn from the
    system's reader. -/
def dheClientKeyExchange (env : Env) (privateX : Option Bytes) (serverParams : Bytes) :
    RandM (Bytes × Bytes) := do
  let (pBytes, gBytes, ysBytes) ← parseDHEServerParams serverParams
  validateDHEParams pBytes gBytes ysBytes
  let mod ← annotate "ke: DHE: build modulus" (env.bigmod.newModulus pBytes)
  let xBytes ← match privateX with
    | some x => pure x
    | none   =>
      RandM.mapErr (.errorf "ke: DHE: generate private exponent")
        (RandM.withSystem (RandM.readFull pBytes.length))
  let yc ← annotate "ke: DHE: compute Yc" (modExp env.bigmod gBytes xBytes mod)
  let z ← annotate "ke: DHE: compute Z" (modExp env.bigmod ysBytes xBytes mod)
  let preMaster := leftPad z pBytes.length
  let ycPadded := leftPad yc pBytes.length
  return (toBE dheU16PrefixLen ycPadded.length ++ ycPadded, preMaster)

/-! ## The size of the group -/

/-- What the exchange promises of the group and the server's value in it. -/
structure StrongGroup (p g ys : Nat) : Prop where
  odd : p % 2 = 1
  large : 2 ^ 2047 ≤ p
  above_one : 1 < ys
  below_last : ys < p - 1
  generator : 2 ≤ g

/-- The encoding of a prime fills 256 bytes: of its last 256 bytes the first has its top bit set, or a
    byte before them is not zero. -/
def FillsFloor (p : Bytes) : Prop :=
  (∃ x ∈ p.take (p.length - 256), x ≠ 0) ∨ 0x80 ≤ p.getD (p.length - 256) 0

theorem fillsFloor_iff {p : Bytes} (hlen : 256 ≤ p.length) : FillsFloor p ↔ 2 ^ 2047 ≤ ofBE p := by
  have hlt : p.length - 256 < p.length := by omega
  have hsplit : p = p.take (p.length - 256) ++
      p.getD (p.length - 256) 0 :: p.drop (p.length - 256 + 1) := by
    have hget : p.getD (p.length - 256) 0 = p[p.length - 256] := by simp [List.getD, hlt]
    rw [hget, ← List.drop_eq_getElem_cons hlt, List.take_append_drop]
  have hlow : (p.drop (p.length - 256 + 1)).length = 255 := by
    rw [List.length_drop]
    omega
  have hbits : 8 * 255 + 7 = 2047 := rfl
  have hsize := pow_le_ofBE_iff (p.take (p.length - 256)) (p.drop (p.length - 256 + 1))
    (p.getD (p.length - 256) 0)
  rw [← hsplit, hlow, hbits] at hsize
  exact hsize.symm

theorem odd_of_last {p : Bytes} {last : UInt8} (h : index p (p.length - 1) = .ok last)
    (hodd : ¬ last &&& 1 = 0) : ofBE p % 2 = 1 := by
  induction p using List.reverseRecOn with
  | nil => cases h
  | append_singleton init x _ =>
      have hx : index (init ++ [x]) ((init ++ [x]).length - 1) = .ok x := by simp [index]
      obtain rfl : x = last := Except.ok.inj (hx.symm.trans h)
      have hbit : (x &&& 1).toNat = x.toNat % 2 := by
        rw [UInt8.toNat_and]
        exact Nat.and_one_is_mod _
      have hne : x.toNat % 2 ≠ 0 := fun hz => hodd (UInt8.toNat_inj.mp (by rw [hbit, hz]; rfl))
      rw [ofBE_snoc]
      omega

/-- What a validated group has: everything but the size of the prime, of which only the length of the
    encoding is known. -/
theorem validateDHEParams_ok {p g ys : Bytes} (h : validateDHEParams p g ys = .ok ()) :
    256 ≤ p.length ∧ ofBE p % 2 = 1 ∧ 1 < ofBE ys ∧ ofBE ys < ofBE p - 1 ∧ 2 ≤ ofBE g := by
  simp only [validateDHEParams, throw_eq, error_bind] at h
  split at h
  · cases h
  rename_i hlen
  split at h
  · cases h
  obtain ⟨last, hlast, h⟩ := bind_eq_ok.mp h
  split at h
  · cases h
  rename_i hodd
  split at h
  · cases h
  rename_i hg
  split at h
  · cases h
  rename_i hys
  split at h
  · cases h
  rename_i hhigh
  simp only [dheMinPBits, dheMinG] at hlen hg
  exact ⟨by omega, odd_of_last hlast hodd, by omega, by omega, by omega⟩

/-- The client's exponent: the one that was fixed, or one of `n` bytes from the system's reader. -/
def DheExponent (privateX : Option Bytes) (n : Nat) (r : Rands) (x : Bytes) : Prop :=
  privateX = some x ∨ privateX = none ∧ ∃ r', RandM.withSystem (RandM.readFull n) r = .ok x r'

/-- **What a successful exchange did**: it parsed and validated a group, and raised both values to one
    exponent. -/
theorem dheClientKeyExchange_ok {env : Env} {privateX : Option Bytes} {serverParams cke preMaster : Bytes}
    {r r' : Rands} (h : dheClientKeyExchange env privateX serverParams r = .ok (cke, preMaster) r') :
    ∃ p g ys m x yc z, parseDHEServerParams serverParams = .ok (p, g, ys) ∧
      validateDHEParams p g ys = .ok () ∧ env.bigmod.newModulus p = .ok m ∧
      DheExponent privateX p.length r x ∧
      modExp env.bigmod g x m = .ok yc ∧ modExp env.bigmod ys x m = .ok z ∧
      cke = toBE dheU16PrefixLen (leftPad yc p.length).length ++ leftPad yc p.length ∧
      preMaster = leftPad z p.length := by
  unfold dheClientKeyExchange at h
  obtain ⟨⟨p, g, ys⟩, hparse, h₁⟩ := liftM_bind_returns.mp h
  obtain ⟨_, hvalid, h₂⟩ := liftM_bind_returns.mp h₁
  obtain ⟨m, hmod, h₃⟩ := liftM_bind_returns.mp h₂
  -- The exponent comes from one of two places, and both go on alike.
  have hrest : ∃ x r₄, DheExponent privateX p.length r x ∧
      (do let yc ← annotate "ke: DHE: compute Yc" (modExp env.bigmod g x m)
          let z ← annotate "ke: DHE: compute Z" (modExp env.bigmod ys x m)
          return (toBE dheU16PrefixLen (leftPad yc p.length).length ++ leftPad yc p.length,
            leftPad z p.length) : RandM (Bytes × Bytes)) r₄ = .ok (cke, preMaster) r' := by
    cases privateX with
    | some x => exact ⟨x, r, .inl rfl, h₃⟩
    | none =>
        obtain ⟨x, r₄, hx, h₄⟩ := bind_returns.mp h₃
        exact ⟨x, r₄, .inr ⟨rfl, r₄, RandM.mapErr_returns hx⟩, h₄⟩
  obtain ⟨x, r₄, hx, h₄⟩ := hrest
  obtain ⟨yc, hyc, h₅⟩ := liftM_bind_returns.mp h₄
  obtain ⟨z, hz, h₆⟩ := liftM_bind_returns.mp h₅
  cases h₆
  exact ⟨p, g, ys, m, x, yc, z, hparse, hvalid, mapErr_eq_ok.mp hmod, hx, mapErr_eq_ok.mp hyc,
    mapErr_eq_ok.mp hz, rfl, rfl⟩

/-- **The group floor.** When the exchange succeeds the server parameters are three fields, and the group
    is the one promised (an odd prime of 2048 bits or more, a generator of at least two, the server's value
    strictly between one and `p - 1`) if and only if the prime's encoding fills the 256 bytes asked for. -/
theorem dhe_group_floor_iff (env : Env) (privateX : Option Bytes) (serverParams : Bytes) (r r' : Rands)
    (out : Bytes × Bytes) (h : dheClientKeyExchange env privateX serverParams r = .ok out r') :
    ∃ p g ys, parseDHEServerParams serverParams = .ok (p, g, ys) ∧
      serverParams = encodeU16 p ++ (encodeU16 g ++ encodeU16 ys) ∧
      (StrongGroup (ofBE p) (ofBE g) (ofBE ys) ↔ FillsFloor p) := by
  obtain ⟨cke, preMaster⟩ := out
  obtain ⟨p, g, ys, _, _, _, _, hparse, hvalid, -⟩ := dheClientKeyExchange_ok h
  obtain ⟨-, -, -, hfields⟩ := parseDHEServerParams_ok_iff.mp hparse
  obtain ⟨hlen, hodd, hlow, hhigh, hg⟩ := validateDHEParams_ok hvalid
  refine ⟨p, g, ys, hparse, hfields, ?_⟩
  rw [fillsFloor_iff hlen]
  exact ⟨fun hgroup => hgroup.large, fun hlarge => ⟨hodd, hlarge, hlow, hhigh, hg⟩⟩

/-- The server parameters `p = 2^2047 + 1`, `g = 2`, `Ys = 3`. -/
theorem dhe_group_floor_iff_2048_bits :
    ∃ p g ys, parseDHEServerParams
        (encodeU16 (0x80 :: List.replicate 254 0 ++ [1]) ++ (encodeU16 [2] ++ encodeU16 [3])) =
          .ok (p, g, ys) ∧
      encodeU16 (0x80 :: List.replicate 254 0 ++ [1]) ++ (encodeU16 [2] ++ encodeU16 [3]) =
        encodeU16 p ++ (encodeU16 g ++ encodeU16 ys) ∧
      (StrongGroup (ofBE p) (ofBE g) (ofBE ys) ↔ FillsFloor p) := by
  have hruns : returns (dheClientKeyExchange .sample none
      (encodeU16 (0x80 :: List.replicate 254 0 ++ [1]) ++ (encodeU16 [2] ++ encodeU16 [3]))) .zeros =
        true := by
    decide +kernel
  obtain ⟨out, r', h⟩ := of_returns hruns
  exact dhe_group_floor_iff _ _ _ _ _ _ h

/-- The prime 23 behind 255 zeros: the exchange takes it for a group of 2048 bits. -/
theorem padded_small_prime_accepted :
    returns (dheClientKeyExchange .sample none
      (encodeU16 (List.replicate 255 0 ++ [23]) ++ (encodeU16 [5] ++ encodeU16 [2]))) .zeros = true ∧
    parseDHEServerParams
      (encodeU16 (List.replicate 255 0 ++ [23]) ++ (encodeU16 [5] ++ encodeU16 [2])) =
        .ok (List.replicate 255 0 ++ [23], [5], [2]) ∧
    ¬ StrongGroup (ofBE (List.replicate 255 0 ++ [23])) (ofBE [5]) (ofBE [2]) := by
  have hlen : (List.replicate 255 0 ++ [23] : Bytes).length = 256 := by
    rw [List.length_append, List.length_replicate, List.length_singleton]
  refine ⟨by decide +kernel, parseDHEServerParams_ok_iff.mpr ⟨by omega, by decide, by decide, rfl⟩, ?_⟩
  intro hgroup
  have hsmall : ofBE (List.replicate 255 0 ++ [23]) = 23 := by decide +kernel
  have hpow : 2 ^ 5 ≤ ofBE (List.replicate 255 0 ++ [23]) :=
    Nat.le_trans (Nat.pow_le_pow_right (by decide) (by decide)) hgroup.large
  rw [hsmall] at hpow
  exact absurd hpow (by decide)

end Gostls

import Gostls.Ke.Dhe

/-!
# `Gostls.Ke.DheAgreement` — when both sides of a Diffie-Hellman exchange get the same bytes

The length of `dh_p` as it was encoded decides how long the client's value and the secret are; the modular
arithmetic works on limbs, as many as the prime has without its leading zeros, and takes no value whose
encoding is longer than these. So a value padded to the length of `dh_p` may not be taken back.

* `modExp_ok` — both ways of loading a base give the power of that base;
* `modExp_of_lt` — a base below the modulus is loaded if and only if its encoding fits the limbs;
* `dhe_agreement_iff` — the message and the secret of the client, and when a server makes the same secret of
  the message.
-/

namespace Gostls

open Lib

/-! ## Modular arithmetic -/

/-- The size of a modulus in bytes, without leading zeros. -/
def byteLen (m : Nat) : Nat := Nat.log2 m / 8 + 1

/-- The size of a modulus in memory, in limbs of `limbSize` bytes. -/
def limbBytes (limbSize m : Nat) : Nat := (byteLen m + (limbSize - 1)) / limbSize * limbSize

/-- The modular arithmetic is right, with limbs of `limbSize` bytes: a modulus is the integer of its bytes. A
    value that fits the limbs of the modulus is loaded as it is if it is below it; where it may overflow it
    is reduced, if it has no more bits than the modulus. Powers are of an odd modulus, and a result is
    written in as many bytes as the modulus has. -/
structure Bigmod.Correct (bm : Bigmod) (limbSize : Nat) : Prop where
  newModulus : ∀ {b m}, bm.newModulus b = .ok m ↔ 1 < ofBE b ∧ m = ofBE b
  setBytes : ∀ {b m x}, 1 < m →
    (bm.setBytes b m = .ok x ↔ b.length ≤ limbBytes limbSize m ∧ ofBE b < m ∧ x = ofBE b)
  setOverflowingBytes : ∀ {b m x}, 1 < m →
    (bm.setOverflowingBytes b m = .ok x ↔
      b.length ≤ limbBytes limbSize m ∧ ofBE b < 2 ^ (Nat.log2 m + 1) ∧ x = ofBE b % m)
  exp : ∀ {x e m}, m % 2 = 1 → x < m → bm.exp x e m = x ^ ofBE e % m
  bytes : ∀ {x m}, x < m → bm.bytes x m = toBE (byteLen m) x

/-- The arithmetic on integers, with limbs of `limbSize` bytes. -/
def Bigmod.reference (limbSize : Nat) : Bigmod where
  newModulus := fun b =>
    if 1 < ofBE b then .ok (ofBE b) else .error (.new "modulus must be > 1")
  setBytes := fun b m =>
    if b.length ≤ limbBytes limbSize m then
      if ofBE b < m then .ok (ofBE b) else .error (.new "input overflows the modulus")
    else .error (.new "input overflows the modulus size")
  setOverflowingBytes := fun b m =>
    if b.length ≤ limbBytes limbSize m ∧ ofBE b < 2 ^ (Nat.log2 m + 1) then .ok (ofBE b % m)
    else .error (.new "input overflows the modulus size")
  exp := fun x e m => x ^ ofBE e % m
  bytes := fun x m => toBE (byteLen m) x

theorem Bigmod.reference_correct (limbSize : Nat) : (Bigmod.reference limbSize).Correct limbSize where
  newModulus := by
    intro b m
    unfold Bigmod.reference
    dsimp only
    split <;> simp_all [eq_comm]
  setBytes := by
    intro b m x _
    unfold Bigmod.reference
    dsimp only
    split
    · split <;> simp_all [eq_comm]
    · simp_all
  setOverflowingBytes := by
    intro b m x _
    unfold Bigmod.reference
    dsimp only
    split <;> simp_all [eq_comm]
  exp := fun _ _ => rfl
  bytes := fun _ => rfl

theorem lt_pow_byteLen {x m : Nat} (hx : x < m) : x < 256 ^ byteLen m := by
  have hm : m < 2 ^ (Nat.log2 m + 1) := Nat.lt_log2_self
  calc x
    _ < m := hx
    _ < 2 ^ (Nat.log2 m + 1) := hm
    _ ≤ 2 ^ (8 * byteLen m) := Nat.pow_le_pow_right (by decide) (by unfold byteLen; omega)
    _ = 256 ^ byteLen m := Nat.pow_mul 2 8 _

theorem byteLen_le {m n : Nat} (hm : 0 < m) (h : m < 256 ^ n) : byteLen m ≤ n := by
  have hlog : Nat.log2 m < 8 * n := by
    rw [Nat.log2_lt (Nat.pos_iff_ne_zero.mp hm), Nat.pow_mul]
    exact h
  unfold byteLen
  omega

/-- Zeros in front make an encoding longer and leave its integer. -/
theorem leftPad_toBE {k n x : Nat} (hk : k ≤ n) (hx : x < 256 ^ k) : leftPad (toBE k x) n = toBE n x := by
  have hzero : ofBE (List.replicate (n - k) 0) = 0 :=
    (ofBE_eq_zero_iff _).mpr (fun b hb => List.eq_of_mem_replicate hb)
  have hbytes := toBE_ofBE (List.replicate (n - k) 0 ++ toBE k x)
  rw [ofBE_append, hzero, ofBE_toBE_of_lt hx, List.length_append, List.length_replicate, toBE_length,
    Nat.sub_add_cancel hk, Nat.zero_mul, Nat.zero_add] at hbytes
  unfold leftPad
  rw [toBE_length]
  split
  · rename_i hge
    rw [Nat.le_antisymm hk hge]
  · exact hbytes.symm

section

variable {bm : Bigmod} {limbSize : Nat} (hbm : bm.Correct limbSize) {baseBytes expBytes out : Bytes} {m : Nat}
include hbm

/-- **The power of a base**, whichever way the base was loaded. -/
theorem modExp_ok (hone : 1 < m) (hodd : m % 2 = 1) (h : modExp bm baseBytes expBytes m = .ok out) :
    baseBytes.length ≤ limbBytes limbSize m ∧
      out = toBE (byteLen m) (ofBE baseBytes ^ ofBE expBytes % m) := by
  have hpos : 0 < m := Nat.zero_lt_of_lt hone
  unfold modExp at h
  cases hset : bm.setBytes baseBytes m with
  | ok x =>
      obtain ⟨hfits, hlt, rfl⟩ := (hbm.setBytes hone).mp hset
      rw [hset] at h
      cases h
      rw [hbm.exp hodd hlt, hbm.bytes (Nat.mod_lt _ hpos)]
      exact ⟨hfits, rfl⟩
  | error err =>
      -- The base is refused as it is, and reduced.
      cases hover : bm.setOverflowingBytes baseBytes m with
      | error err2 =>
          rw [hset, hover] at h
          cases h
      | ok x =>
          obtain ⟨hfits, -, rfl⟩ := (hbm.setOverflowingBytes hone).mp hover
          rw [hset, hover] at h
          cases h
          rw [hbm.exp hodd (Nat.mod_lt _ hpos), hbm.bytes (Nat.mod_lt _ hpos), ← Nat.pow_mod]
          exact ⟨hfits, rfl⟩

/-- **A base below the modulus** is loaded if and only if its encoding fits the limbs, zeros included. -/
theorem modExp_of_lt (hone : 1 < m) (hodd : m % 2 = 1) (hlt : ofBE baseBytes < m) :
    modExp bm baseBytes expBytes m = .ok out ↔ baseBytes.length ≤ limbBytes limbSize m ∧
      out = toBE (byteLen m) (ofBE baseBytes ^ ofBE expBytes % m) := by
  constructor
  · exact modExp_ok hbm hone hodd
  · rintro ⟨hfits, rfl⟩
    unfold modExp
    rw [(hbm.setBytes hone).mpr ⟨hfits, hlt, rfl⟩]
    simp only [pure_eq, ok_bind]
    rw [hbm.exp hodd hlt, hbm.bytes (Nat.mod_lt _ (Nat.zero_lt_of_lt hone))]

end

/-! ## The server's side -/

/-- `DHEComputePublic`: a power, in as many bytes as the prime was given in. -/
def dheComputePublic (bm : Bigmod) (pBytes baseBytes exponentBytes : Bytes) : Except Err Bytes := do
  let mod ← annotate "ke: DHEComputePublic: build modulus" (bm.newModulus pBytes)
  let result ← annotate "ke: DHEComputePublic: modExp" (modExp bm baseBytes exponentBytes mod)
  return leftPad result pBytes.length

/-- A power, padded to the length of the prime's encoding. -/
theorem leftPad_power {p : Bytes} (hpos : 0 < ofBE p) (v : Nat) :
    leftPad (toBE (byteLen (ofBE p)) (v % ofBE p)) p.length = toBE p.length (v % ofBE p) :=
  leftPad_toBE (byteLen_le hpos (ofBE_lt p)) (lt_pow_byteLen (Nat.mod_lt _ hpos))

theorem dheComputePublic_of_lt {bm : Bigmod} {limbSize : Nat} (hbm : bm.Correct limbSize)
    {p base e out : Bytes} (hone : 1 < ofBE p) (hodd : ofBE p % 2 = 1) (hlt : ofBE base < ofBE p) :
    dheComputePublic bm p base e = .ok out ↔ base.length ≤ limbBytes limbSize (ofBE p) ∧
      out = toBE p.length (ofBE base ^ ofBE e % ofBE p) := by
  have hmod : bm.newModulus p = .ok (ofBE p) := hbm.newModulus.mpr ⟨hone, rfl⟩
  have hpad := leftPad_power (Nat.zero_lt_of_lt hone) (ofBE base ^ ofBE e)
  unfold dheComputePublic
  rw [hmod, annotate_ok, ok_bind]
  constructor
  · intro h
    obtain ⟨result, hresult, hout⟩ := bind_eq_ok.mp h
    obtain ⟨hfits, rfl⟩ := (modExp_of_lt hbm hone hodd hlt).mp (mapErr_eq_ok.mp hresult)
    rw [hpad] at hout
    cases hout
    exact ⟨hfits, rfl⟩
  · rintro ⟨hfits, rfl⟩
    rw [(modExp_of_lt hbm hone hodd hlt).mpr ⟨hfits, rfl⟩, annotate_ok, ok_bind, hpad]
    rfl

/-! ## Agreement -/

/-- **The client's side**: the message is the client's value behind its length and the secret is the power of
    the server's value, both in as many bytes as `dh_p` was sent in. -/
theorem dheClientKeyExchange_powers {env : Env} {limbSize : Nat} (hbm : env.bigmod.Correct limbSize)
    {privateX : Option Bytes} {serverParams cke preMaster : Bytes} {r r' : Rands}
    (h : dheClientKeyExchange env privateX serverParams r = .ok (cke, preMaster) r') :
    ∃ p g ys x, parseDHEServerParams serverParams = .ok (p, g, ys) ∧ 1 < ofBE p ∧ ofBE p % 2 = 1 ∧
      DheExponent privateX p.length r x ∧
      cke = encodeU16 (toBE p.length (ofBE g ^ ofBE x % ofBE p)) ∧
      preMaster = toBE p.length (ofBE ys ^ ofBE x % ofBE p) := by
  obtain ⟨p, g, ys, m, x, yc, z, hparse, hvalid, hmod, hx, hyc, hz, rfl, rfl⟩ := dheClientKeyExchange_ok h
  obtain ⟨-, hodd, -⟩ := validateDHEParams_ok hvalid
  obtain ⟨hone, rfl⟩ := hbm.newModulus.mp hmod
  have hpos : 0 < ofBE p := Nat.zero_lt_of_lt hone
  obtain ⟨-, rfl⟩ := modExp_ok hbm hone hodd hyc
  obtain ⟨-, rfl⟩ := modExp_ok hbm hone hodd hz
  rw [leftPad_power hpos, leftPad_power hpos]
  exact ⟨p, g, ys, x, hparse, hone, hodd, hx, rfl, rfl⟩

/-- **Agreement.** When the exchange succeeds, the message is the client's value behind its length and the
    secret is the power of the server's value, both in as many bytes as `dh_p` was sent in. If the server's
    value is the generator to the power of `y`, a server that decodes the message and raises what it finds
    to `y` gets the client's secret if and only if the encoding of `dh_p` fits the limbs of the prime; it
    gets nothing if it does not. -/
theorem dhe_agreement_iff (env : Env) (limbSize : Nat) (hbm : env.bigmod.Correct limbSize)
    (privateX : Option Bytes) (serverParams cke preMaster : Bytes) (r r' : Rands)
    (h : dheClientKeyExchange env privateX serverParams r = .ok (cke, preMaster) r') :
    ∃ p g ys x, parseDHEServerParams serverParams = .ok (p, g, ys) ∧ p.length < 65536 ∧
      DheExponent privateX p.length r x ∧
      cke = toBE 2 p.length ++ toBE p.length (ofBE g ^ ofBE x % ofBE p) ∧
      preMaster = toBE p.length (ofBE ys ^ ofBE x % ofBE p) ∧
      ∃ yc, readU16LenPrefixed cke = .ok (yc, []) ∧
        ∀ y, ofBE ys = ofBE g ^ ofBE y % ofBE p →
          ∀ secret, dheComputePublic env.bigmod p yc y = .ok secret ↔
            p.length ≤ limbBytes limbSize (ofBE p) ∧ secret = preMaster := by
  obtain ⟨p, g, ys, x, hparse, hone, hodd, hx, rfl, rfl⟩ := dheClientKeyExchange_powers hbm h
  obtain ⟨hp, -⟩ := parseDHEServerParams_ok_iff.mp hparse
  have hpublic : ofBE g ^ ofBE x % ofBE p < ofBE p := Nat.mod_lt _ (Nat.zero_lt_of_lt hone)
  have hyc : ofBE (toBE p.length (ofBE g ^ ofBE x % ofBE p)) = ofBE g ^ ofBE x % ofBE p :=
    ofBE_toBE_of_lt (Nat.lt_trans hpublic (ofBE_lt p))
  have hlen : (toBE p.length (ofBE g ^ ofBE x % ofBE p)).length = p.length := toBE_length ..
  refine ⟨p, g, ys, x, hparse, hp, hx, by rw [encodeU16, hlen], rfl,
    toBE p.length (ofBE g ^ ofBE x % ofBE p), ?_, ?_⟩
  · exact readU16LenPrefixed_ok_iff.mpr ⟨by rw [hlen]; exact hp, (List.append_nil _).symm⟩
  · intro y hys secret
    have hpowers : (ofBE g ^ ofBE x % ofBE p) ^ ofBE y % ofBE p = ofBE ys ^ ofBE x % ofBE p := by
      calc (ofBE g ^ ofBE x % ofBE p) ^ ofBE y % ofBE p
        _ = (ofBE g ^ ofBE x) ^ ofBE y % ofBE p := (Nat.pow_mod ..).symm
        _ = (ofBE g ^ ofBE y) ^ ofBE x % ofBE p := by rw [← Nat.pow_mul, ← Nat.pow_mul, Nat.mul_comm]
        _ = (ofBE g ^ ofBE y % ofBE p) ^ ofBE x % ofBE p := Nat.pow_mod ..
        _ = ofBE ys ^ ofBE x % ofBE p := by rw [← hys]
    rw [dheComputePublic_of_lt hbm hone hodd (by rw [hyc]; exact hpublic), hyc, hlen, hpowers]

/-- Limbs of eight bytes, `p = 2^2040 - 1` behind a zero, `g = 5`, `x = 15` and `y = 6`: the zero stands in
    the last limb, and the server gets the client's secret. -/
theorem dhe_agreement_iff_one_zero :
    ∃ cke preMaster yc, readU16LenPrefixed cke = .ok (yc, []) ∧
      dheComputePublic (.reference 8) (0 :: List.replicate 255 0xFF) yc [6] = .ok preMaster := by
  have hruns : returns (dheClientKeyExchange { Env.sample with bigmod := .reference 8 } (some [15])
      (encodeU16 (0 :: List.replicate 255 0xFF) ++ (encodeU16 [5] ++ encodeU16 [0x3D, 0x09]))) .zeros =
        true := by
    decide +kernel
  obtain ⟨⟨cke, preMaster⟩, r', h⟩ := of_returns hruns
  obtain ⟨p, g, ys, x, hparse, -, -, -, -, yc, hread, hserver⟩ :=
    dhe_agreement_iff _ 8 (Bigmod.reference_correct 8) _ _ _ _ _ _ h
  have hlen : (0 :: List.replicate 255 0xFF : Bytes).length < 65536 := by
    rw [List.length_cons, List.length_replicate]
    omega
  cases (parseDHEServerParams_ok_iff.mpr ⟨hlen, by decide, by decide, rfl⟩).symm.trans hparse
  exact ⟨cke, preMaster, yc, hread,
    (hserver [6] (by decide +kernel) preMaster).mpr ⟨by decide +kernel, rfl⟩⟩

/-- Limbs of eight bytes and the prime 23 behind 255 zeros, `g = 5`, `x = 15` and `y = 6`: the exchange
    succeeds with a value of 256 bytes, and the server is refused it as too long for the prime's one limb. -/
theorem padded_prime_no_agreement :
    (∃ r', dheClientKeyExchange { Env.sample with bigmod := .reference 8 } (some [15])
        (encodeU16 (List.replicate 255 0 ++ [23]) ++ (encodeU16 [5] ++ encodeU16 [8])) .zeros =
          .ok (encodeU16 (toBE 256 19), toBE 256 2) r') ∧
      ofBE [8] = ofBE [5] ^ ofBE [6] % ofBE (List.replicate 255 0 ++ [23]) ∧
      readU16LenPrefixed (encodeU16 (toBE 256 19)) = .ok (toBE 256 19, []) ∧
      ∀ secret, dheComputePublic (.reference 8) (List.replicate 255 0 ++ [23]) (toBE 256 19) [6] ≠
        .ok secret := by
  have hlen : (List.replicate 255 0 ++ [23] : Bytes).length = 256 := by
    rw [List.length_append, List.length_replicate, List.length_singleton]
  have hprime : ofBE (List.replicate 255 0 ++ [23]) = 23 := by decide +kernel
  refine ⟨?_, ?_, ?_, ?_⟩
  · have hruns : returns (dheClientKeyExchange { Env.sample with bigmod := .reference 8 } (some [15])
        (encodeU16 (List.replicate 255 0 ++ [23]) ++ (encodeU16 [5] ++ encodeU16 [8]))) .zeros = true := by
      decide +kernel
    obtain ⟨⟨cke, preMaster⟩, r', h⟩ := of_returns hruns
    obtain ⟨p, g, ys, x, hparse, -, -, hx, rfl, rfl⟩ :=
      dheClientKeyExchange_powers (Bigmod.reference_correct 8) h
    cases (parseDHEServerParams_ok_iff.mpr ⟨by omega, by decide, by decide, rfl⟩).symm.trans hparse
    obtain rfl : x = [15] := by
      rcases hx with hx | ⟨hx, -⟩
      · exact (Option.some.inj hx).symm
      · cases hx
    rw [hlen, hprime] at h
    exact ⟨r', h⟩
  · rw [hprime]
    decide
  · exact readU16LenPrefixed_ok_iff.mpr ⟨by rw [toBE_length]; decide, (List.append_nil _).symm⟩
  · intro secret hsecret
    have hfits := ((dheComputePublic_of_lt (Bigmod.reference_correct 8) (by rw [hprime]; decide)
      (by rw [hprime]) (by rw [hprime]; decide +kernel)).mp hsecret).1
    rw [hprime, toBE_length] at hfits
    exact absurd hfits (by decide)

end Gostls

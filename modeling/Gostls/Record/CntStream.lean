import Gostls.Record.Gost28147

/-!
# `Gostls.Record.CntStream` — the counter mode as one key stream

What `XORKeyStream` puts out depends on three things that move on their own: how much of the gamma in
place is used, how many bytes of gamma there were since the key was meshed, and the meshed key with its
register. Here the key stream is defined block by block, without any of the three: `keyStream` is a
function of the key, the IV and the position alone.

* `mesh_eq_rekey` — the meshed key is the electronic-codebook decryption of the constant;
* `xorKeyStreamLoop_eq` — the two loops of the source are one step per byte;
* `nextGamma_spec` — a refill puts out the next block of the key stream;
* `calls_keyStream` — consecutive calls of any lengths put out one key stream.
-/

namespace Gostls

open Lib

/-! ## Counting blocks -/

/-- What the count of bytes stands at after `n` blocks: it starts over when the block behind the
    threshold is made, not at the threshold. -/
def blockCount (n : Nat) : Nat :=
  if n = 0 then 0 else (n - 1) % 128 * gostBlockSize + gostBlockSize

theorem blockCount_eq_zero {n : Nat} : blockCount n = 0 ↔ n = 0 := by
  unfold blockCount
  split
  · simp_all
  · simp_all [gostBlockSize]

/-- The threshold is reached in front of every block whose index is a positive multiple of 128. -/
theorem blockCount_eq_meshThreshold {n : Nat} :
    blockCount n = meshThreshold ↔ 0 < n ∧ n % 128 = 0 := by
  unfold blockCount gostBlockSize meshThreshold
  split <;> omega

theorem blockCount_succ (n : Nat) : blockCount n % meshThreshold + gostBlockSize = blockCount (n + 1) := by
  unfold blockCount gostBlockSize meshThreshold
  rw [if_neg (Nat.succ_ne_zero n)]
  split <;> omega

theorem blockCount_bound (n : Nat) :
    blockCount n % gostBlockSize = 0 ∧ blockCount n ≤ meshThreshold := by
  unfold blockCount gostBlockSize meshThreshold
  split <;> omega

/-! ## Meshing -/

/-- The constant that keys are meshed with. -/
def meshingConstant : Bytes :=
  toBE gostKeySize 0x6900722264C904238D3ADB9646E92AC418FEAC9400ED0712C086DCC2EF4CA92B

/-- Electronic codebook: every block of a text is decrypted on its own. -/
def ecbDecrypt (decrypt : GostBlock → GostBlock) (text : Bytes) : Bytes :=
  (List.range (text.length / gostBlockSize)).flatMap fun i =>
    (decrypt (.copy (text.drop (gostBlockSize * i)))).bytes

/-- The next key is the constant, decrypted under the key before it. -/
def rekey (cipher : Gost28147Cipher) : Gost28147Cipher where
  key := ecbDecrypt (cipher.sbox.decrypt cipher.key) meshingConstant
  sbox := cipher.sbox

/-- **Meshing is re-keying.** The four blocks of the source's table are those of the constant. -/
theorem mesh_eq_rekey (cipher : Gost28147Cipher) : cipher.mesh = rekey cipher := by
  have hblocks : (List.range (meshingConstant.length / gostBlockSize)).map
      (fun i => GostBlock.copy (meshingConstant.drop (gostBlockSize * i))) = cryptoProKeyMeshingKey := by
    rfl
  unfold Gost28147Cipher.mesh rekey ecbDecrypt
  rw [← hblocks, List.flatMap_map]
  rfl

/-! ## The key stream -/

def ofLE (b : Bytes) : Nat := ofBE b.reverse

def toLE (k n : Nat) : Bytes := (toBE k n).reverse

@[simp] theorem toLE_length (k n : Nat) : (toLE k n).length = k := by
  rw [toLE, List.length_reverse, toBE_length]

/-- One step of the register: the low word by `0x01010101` modulo `2^32`, the high word by `0x01010104`
    with end-around carry. -/
def stepRegister (r : GostBlock) : GostBlock :=
  let low := ofLE (r.bytes.take 4) + 0x01010101
  let high := ofLE (r.bytes.drop 4) + 0x01010104
  ⟨toLE 4 (low % 2 ^ 32) ++ toLE 4 (high % 2 ^ 32 + high / 2 ^ 32), by simp [gostBlockSize]⟩

/-- The key and the register after `n` blocks. The key is replaced in front of every 128 blocks but the
    first, and the register encrypted under the new key. -/
def keyStreamState (cipher : Gost28147Cipher) (iv : GostBlock) : Nat → Gost28147Cipher × GostBlock
  | 0     => (cipher, cipher.encrypt iv)
  | n + 1 =>
    let (cipher, r) := keyStreamState cipher iv n
    let (cipher, r) :=
      if 0 < n ∧ n % 128 = 0 then (rekey cipher, (rekey cipher).encrypt r) else (cipher, r)
    (cipher, stepRegister r)

/-- Block `n` of the key stream. -/
def keyStreamBlock (cipher : Gost28147Cipher) (iv : GostBlock) (n : Nat) : GostBlock :=
  let (cipher, r) := keyStreamState cipher iv (n + 1)
  cipher.encrypt r

/-- Byte `i` of the key stream. -/
def keyStream (cipher : Gost28147Cipher) (iv : GostBlock) (i : Nat) : UInt8 :=
  (keyStreamBlock cipher iv (i / gostBlockSize)).byteAt (i % gostBlockSize)

/-! ## The register -/

theorem or_shiftLeft {a b i : Nat} (h : a < 2 ^ i) : a ||| b <<< i = a + b * 2 ^ i := by
  rw [Nat.or_comm, ← Nat.shiftLeft_add_eq_or_of_lt h, Nat.shiftLeft_eq, Nat.add_comm]

theorem toUInt32_shiftLeft_toNat (b : UInt8) {i : UInt32} (hi : i.toNat ≤ 24) :
    (b.toUInt32 <<< i).toNat = b.toNat <<< i.toNat := by
  have hlt : b.toNat <<< i.toNat < 2 ^ 32 := by
    rw [Nat.shiftLeft_eq]
    calc b.toNat * 2 ^ i.toNat
      _ < 2 ^ 8 * 2 ^ i.toNat := Nat.mul_lt_mul_of_pos_right b.toNat_lt (Nat.two_pow_pos _)
      _ ≤ 2 ^ 8 * 2 ^ 24 := Nat.mul_le_mul_left _ (Nat.pow_le_pow_right (by decide) hi)
  have hmod : i.toNat % 32 = i.toNat := Nat.mod_eq_of_lt (by omega)
  rw [UInt32.toNat_shiftLeft, UInt8.toNat_toUInt32, hmod, Nat.mod_eq_of_lt hlt]

theorem le32_toNat (b0 b1 b2 b3 : UInt8) : (le32 b0 b1 b2 b3).toNat = ofLE [b0, b1, b2, b3] := by
  have h0 := b0.toNat_lt
  have h1 := b1.toNat_lt
  have h2 := b2.toNat_lt
  -- Each shifted byte stands above the ones before it.
  have e1 : b0.toNat ||| b1.toNat <<< 8 = b0.toNat + b1.toNat * 2 ^ 8 := or_shiftLeft h0
  have e2 : (b0.toNat + b1.toNat * 2 ^ 8) ||| b2.toNat <<< 16 =
      b0.toNat + b1.toNat * 2 ^ 8 + b2.toNat * 2 ^ 16 := or_shiftLeft (by omega)
  have e3 : (b0.toNat + b1.toNat * 2 ^ 8 + b2.toNat * 2 ^ 16) ||| b3.toNat <<< 24 =
      b0.toNat + b1.toNat * 2 ^ 8 + b2.toNat * 2 ^ 16 + b3.toNat * 2 ^ 24 := or_shiftLeft (by omega)
  have hword : (le32 b0 b1 b2 b3).toNat =
      b0.toNat ||| b1.toNat <<< 8 ||| b2.toNat <<< 16 ||| b3.toNat <<< 24 := by
    unfold le32
    rw [UInt32.toNat_or, UInt32.toNat_or, UInt32.toNat_or, toUInt32_shiftLeft_toNat b1 (by decide),
      toUInt32_shiftLeft_toNat b2 (by decide), toUInt32_shiftLeft_toNat b3 (by decide),
      UInt8.toNat_toUInt32]
    rfl
  rw [hword, e1, e2, e3]
  show _ = (((0 * 256 + b3.toNat) * 256 + b2.toNat) * 256 + b1.toNat) * 256 + b0.toNat
  omega

theorem putLE32_eq (g : UInt32) : putLE32 g = toLE 4 g.toNat := by
  have hbyte : ∀ (i : UInt32) (n : Nat), 2 ^ (i.toNat % 32) = n →
      (g >>> i).toUInt8 = UInt8.ofNat (g.toNat / n) := by
    rintro i n rfl
    rw [← Nat.shiftRight_eq_div_pow, ← UInt32.toNat_shiftRight]
    rfl
  show [g.toUInt8, (g >>> 8).toUInt8, (g >>> 16).toUInt8, (g >>> 24).toUInt8] =
    [UInt8.ofNat g.toNat, UInt8.ofNat (g.toNat / 256), UInt8.ofNat (g.toNat / 256 / 256),
      UInt8.ofNat (g.toNat / 256 / 256 / 256)]
  rw [hbyte 8 256 rfl, hbyte 16 (256 * 256) rfl, hbyte 24 (256 * 256 * 256) rfl,
    Nat.div_div_eq_div_mul, Nat.div_div_eq_div_mul]
  rfl

/-- The carry out of the high word is seen by the sum being smaller than what was added to. -/
theorem add_endAround (x : UInt32) {c : UInt32} :
    (if x > x + c then x + c + 1 else x + c).toNat =
      (x.toNat + c.toNat) % 2 ^ 32 + (x.toNat + c.toNat) / 2 ^ 32 := by
  have hx := x.toNat_lt
  have hc := c.toNat_lt
  have hsum : (x + c).toNat = (x.toNat + c.toNat) % 2 ^ 32 := UInt32.toNat_add x c
  split
  · rename_i hcarry
    have hlt : (x + c).toNat < x.toNat := UInt32.lt_iff_toNat_lt.mp hcarry
    rw [UInt32.toNat_add, hsum]
    rw [hsum] at hlt
    show ((x.toNat + c.toNat) % 2 ^ 32 + 1) % 2 ^ 32 = _
    omega
  · rename_i hcarry
    have hle : x.toNat ≤ (x + c).toNat := Nat.not_lt.mp (fun h => hcarry (UInt32.lt_iff_toNat_lt.mpr h))
    rw [hsum] at hle ⊢
    omega

theorem le32_low (b : GostBlock) :
    (le32 (b.byteAt 0) (b.byteAt 1) (b.byteAt 2) (b.byteAt 3)).toNat = ofLE (b.bytes.take 4) := by
  obtain ⟨bytes, hlen⟩ := b
  match bytes, hlen with
  | [b0, b1, b2, b3, _, _, _, _], _ => exact le32_toNat b0 b1 b2 b3

theorem le32_high (b : GostBlock) :
    (le32 (b.byteAt 4) (b.byteAt 5) (b.byteAt 6) (b.byteAt 7)).toNat = ofLE (b.bytes.drop 4) := by
  obtain ⟨bytes, hlen⟩ := b
  match bytes, hlen with
  | [_, _, _, _, b4, b5, b6, b7], _ => exact le32_toNat b4 b5 b6 b7

theorem stepCounter_eq (b : GostBlock) : stepCounter b = stepRegister b := by
  have hlow : (le32 (b.byteAt 0) (b.byteAt 1) (b.byteAt 2) (b.byteAt 3) + 0x01010101).toNat =
      (ofLE (b.bytes.take 4) + 0x01010101) % 2 ^ 32 := by
    rw [UInt32.toNat_add, le32_low]
    rfl
  unfold stepCounter stepRegister
  simp only [putLE32_eq, hlow, add_endAround, le32_high]
  rfl

/-! ## The loops of the source -/

namespace GostCNT

/-- `s.num++` -/
def advance (s : GostCNT) : GostCNT := { s with num := s.num + 1 }

/-- The inner loop of `XORKeyStream`: use the gamma in place, up to its end or the end of the input. What
    is left of the input comes second. -/
def useGamma (s : GostCNT) : Bytes → Bytes × Bytes × GostCNT
  | []      => ([], [], s)
  | b :: bs =>
    if s.num < gostBlockSize then
      let (out, rest, s') := useGamma s.advance bs
      ((b ^^^ s.buf.byteAt s.num) :: out, rest, s')
    else ([], b :: bs, s)

/-- Start over when the gamma is used up. -/
def wrap (s : GostCNT) : GostCNT := if s.num = gostBlockSize then { s with num := 0 } else s

/-- The outer loop of `XORKeyStream`, of at most as many rounds as there are bytes. -/
def xorKeyStreamLoop : Nat → GostCNT → Bytes → Bytes × GostCNT
  | 0,          s, _   => ([], s)
  | rounds + 1, s, src =>
    if src = [] then ([], s)
    else
      let s := if s.num = 0 then s.nextGamma else s
      let (out, rest, s) := s.useGamma src
      let (outs, s) := xorKeyStreamLoop rounds s.wrap rest
      (out ++ outs, s)

/-- With gamma in use, the inner loop is a number of single steps. -/
theorem useGamma_eq {s : GostCNT} (hpos : 0 < s.num) (hle : s.num ≤ gostBlockSize) (src : Bytes) :
    s.wrap.xorKeyStream src =
      ((s.useGamma src).1 ++ ((s.useGamma src).2.2.wrap.xorKeyStream (s.useGamma src).2.1).1,
        ((s.useGamma src).2.2.wrap.xorKeyStream (s.useGamma src).2.1).2) := by
  induction src generalizing s with
  | nil => rfl
  | cons b bs ih =>
      rw [useGamma]
      by_cases hnum : s.num < gostBlockSize
      · rw [if_pos hnum]
        have hstep : s.nextByte = (s.buf.byteAt s.num, s.advance.wrap) := by
          unfold nextByte wrap advance
          rw [if_neg (by omega)]
          dsimp only
          split <;> rfl
        have hwrap : s.wrap = s := if_neg (by omega)
        have hrest := ih (s := s.advance) (Nat.succ_pos _) hnum
        rw [hwrap, xorKeyStream, hstep]
        simp only [hrest, List.cons_append]
      · rw [if_neg hnum]
        rfl

theorem useGamma_rest_length (s : GostCNT) (src : Bytes) : (s.useGamma src).2.1.length ≤ src.length := by
  induction src generalizing s with
  | nil => exact Nat.le_refl _
  | cons b bs ih =>
      rw [useGamma]
      split
      · exact Nat.le_succ_of_le (ih _)
      · exact Nat.le_refl _

theorem useGamma_num (s : GostCNT) (src : Bytes) (hle : s.num ≤ gostBlockSize) :
    (s.useGamma src).2.2.num ≤ gostBlockSize := by
  induction src generalizing s with
  | nil => exact hle
  | cons b bs ih =>
      rw [useGamma]
      split
      · rename_i hnum
        exact ih _ hnum
      · exact hle

theorem wrap_num {s : GostCNT} (hle : s.num ≤ gostBlockSize) : s.wrap.num < gostBlockSize := by
  unfold wrap
  split
  · exact Nat.zero_lt_succ 7
  · omega

theorem nextGamma_num (s : GostCNT) : s.nextGamma.num = s.num := by
  unfold nextGamma meshKey
  dsimp only
  split <;> rfl

/-- **The loops of `XORKeyStream` make one step per byte.** -/
theorem xorKeyStreamLoop_eq {rounds : Nat} {s : GostCNT} {src : Bytes} (hnum : s.num < gostBlockSize)
    (hrounds : src.length ≤ rounds) : xorKeyStreamLoop rounds s src = s.xorKeyStream src := by
  induction rounds generalizing s src with
  | zero =>
      obtain rfl := List.length_eq_zero_iff.mp (Nat.le_zero.mp hrounds)
      rfl
  | succ rounds ih =>
      cases src with
      | nil => rfl
      | cons b bs =>
          rw [xorKeyStreamLoop, if_neg (List.cons_ne_nil b bs)]
          -- The gamma that the first byte is taken from.
          generalize hs' : (if s.num = 0 then s.nextGamma else s) = s'
          have hnum' : s'.num = s.num := by
            rw [← hs']
            split
            · exact s.nextGamma_num
            · rfl
          have hlt : s'.num < gostBlockSize := hnum' ▸ hnum
          have hfirst : s.nextByte = (s'.buf.byteAt s'.num, s'.advance.wrap) := by
            unfold nextByte wrap advance
            rw [hs']
            dsimp only
            split <;> rfl
          have huse : s'.useGamma (b :: bs) =
              ((b ^^^ s'.buf.byteAt s'.num) :: (s'.advance.useGamma bs).1, (s'.advance.useGamma bs).2) :=
            if_pos hlt
          have hrest := useGamma_eq (s := s'.advance) (Nat.succ_pos _) hlt bs
          have hloop := ih (wrap_num (useGamma_num s'.advance bs hlt))
            (Nat.le_trans (useGamma_rest_length s'.advance bs) (Nat.le_of_succ_le_succ hrounds))
          rw [xorKeyStream, hfirst]
          dsimp only
          rw [huse, hrest]
          dsimp only
          rw [hloop, List.cons_append]

end GostCNT

/-! ## One key stream -/

section

variable {cipher : Gost28147Cipher} {iv : GostBlock}

/-- A cipher that has put out `n` blocks. Before the first the register is the IV as it was given. -/
structure AfterBlocks (cipher : Gost28147Cipher) (iv : GostBlock) (n : Nat) (s : GostCNT) : Prop where
  count : s.count = blockCount n
  start : n = 0 → s.cipher = cipher ∧ s.iv = iv
  state : 0 < n → (s.cipher, s.iv) = keyStreamState cipher iv n

/-- **A refill is the next block of the key stream**, with the key meshed where it must be. -/
theorem nextGamma_spec {n : Nat} {s : GostCNT} (h : AfterBlocks cipher iv n s) :
    AfterBlocks cipher iv (n + 1) s.nextGamma ∧ s.nextGamma.buf = keyStreamBlock cipher iv n := by
  have hmesh : s.count = meshThreshold ↔ 0 < n ∧ n % 128 = 0 := by
    rw [h.count]
    exact blockCount_eq_meshThreshold
  have hzero : s.count = 0 ↔ n = 0 := by
    rw [h.count]
    exact blockCount_eq_zero
  have hsucc : s.count % meshThreshold + gostBlockSize = blockCount (n + 1) := by
    rw [h.count, blockCount_succ]
  have hcount : s.nextGamma.count = blockCount (n + 1) := by
    rw [← hsucc]
    unfold GostCNT.nextGamma GostCNT.meshKey
    dsimp only
    split <;> rfl
  -- The cipher and the register that the step leaves.
  have hstate : (s.nextGamma.cipher, s.nextGamma.iv) = keyStreamState cipher iv (n + 1) := by
    rw [keyStreamState]
    rcases Nat.eq_zero_or_pos n with rfl | hn
    · obtain ⟨hcipher, hiv⟩ := h.start rfl
      have hstart : s.count = 0 := hzero.mpr rfl
      simp [GostCNT.nextGamma, keyStreamState, hstart, meshThreshold, hcipher, hiv, stepCounter_eq]
    · rw [← h.state hn]
      by_cases hm : 0 < n ∧ n % 128 = 0
      · have hfull := hmesh.mpr hm
        simp [GostCNT.nextGamma, GostCNT.meshKey, mesh_eq_rekey, hfull, hm, meshThreshold, stepCounter_eq]
      · have hfull : s.count ≠ meshThreshold := fun hc => hm (hmesh.mp hc)
        have hstart : s.count ≠ 0 := fun hc => absurd (hzero.mp hc) (by omega)
        simp [GostCNT.nextGamma, hfull, hstart, if_neg hm, stepCounter_eq]
  refine ⟨⟨hcount, fun hn => absurd hn (Nat.succ_ne_zero n), fun _ => hstate⟩, ?_⟩
  rw [keyStreamBlock, ← hstate]
  rfl

/-- A cipher that has put out `i` bytes: all blocks up to that point, and the last of them is in place
    when there is something left of it. -/
structure AtByte (cipher : Gost28147Cipher) (iv : GostBlock) (i : Nat) (s : GostCNT) : Prop where
  blocks : AfterBlocks cipher iv ((i + 7) / gostBlockSize) s
  num : s.num = i % gostBlockSize
  buf : s.num ≠ 0 → s.buf = keyStreamBlock cipher iv (i / gostBlockSize)

theorem atByte_zero (cipher : Gost28147Cipher) (iv : Bytes) :
    AtByte cipher (.copy iv) 0 (newGostCNT cipher iv) :=
  ⟨⟨rfl, fun _ => ⟨rfl, rfl⟩, fun h => absurd h (by decide)⟩, rfl, fun h => absurd rfl h⟩

/-- The gamma that byte `i` is taken from. -/
theorem AtByte.refill {i : Nat} {s : GostCNT} (h : AtByte cipher iv i s) :
    AfterBlocks cipher iv (i / gostBlockSize + 1) (if s.num = 0 then s.nextGamma else s) ∧
      (if s.num = 0 then s.nextGamma else s).num = i % gostBlockSize ∧
      (if s.num = 0 then s.nextGamma else s).buf = keyStreamBlock cipher iv (i / gostBlockSize) := by
  obtain ⟨hblocks, hnum, hbuf⟩ := h
  split
  · rename_i hzero
    have hi : (i + 7) / gostBlockSize = i / gostBlockSize := by
      rw [hnum] at hzero
      simp only [gostBlockSize] at hzero ⊢
      omega
    rw [hi] at hblocks
    obtain ⟨hnext, hgamma⟩ := nextGamma_spec hblocks
    exact ⟨hnext, by rw [s.nextGamma_num, hnum], hgamma⟩
  · rename_i hused
    have hi : (i + 7) / gostBlockSize = i / gostBlockSize + 1 := by
      rw [hnum] at hused
      simp only [gostBlockSize] at hused ⊢
      omega
    rw [hi] at hblocks
    exact ⟨hblocks, hnum, hbuf hused⟩

/-- **One byte.** -/
theorem nextByte_spec {i : Nat} {s : GostCNT} (h : AtByte cipher iv i s) :
    s.nextByte.1 = keyStream cipher iv i ∧ AtByte cipher iv (i + 1) s.nextByte.2 := by
  have hrefill := h.refill
  unfold GostCNT.nextByte
  generalize (if s.num = 0 then s.nextGamma else s) = s' at hrefill ⊢
  obtain ⟨⟨hcount, hstart, hstate⟩, hnum, hbuf⟩ := hrefill
  have hblock : (i + 1 + 7) / gostBlockSize = i / gostBlockSize + 1 := by
    simp only [gostBlockSize]
    omega
  refine ⟨?_, ⟨?_, ?_, ?_⟩, ?_, ?_⟩
  · dsimp only
    rw [hbuf, hnum]
    rfl
  · rw [hblock]
    exact hcount
  · rw [hblock]
    exact hstart
  · rw [hblock]
    exact hstate
  · simp only [hnum, gostBlockSize]
    split <;> omega
  · intro hused
    have hi : (i + 1) / gostBlockSize = i / gostBlockSize := by
      simp only [hnum, gostBlockSize] at hused ⊢
      split at hused <;> omega
    rw [hi]
    exact hbuf

/-- **One call.** -/
theorem xorKeyStream_spec {i : Nat} {s : GostCNT} (h : AtByte cipher iv i s) (src : Bytes) :
    (s.xorKeyStream src).1 = src.mapIdx (fun j b => b ^^^ keyStream cipher iv (i + j)) ∧
      AtByte cipher iv (i + src.length) (s.xorKeyStream src).2 := by
  induction src generalizing i s with
  | nil => exact ⟨rfl, h⟩
  | cons b bs ih =>
      obtain ⟨hbyte, hnext⟩ := nextByte_spec h
      obtain ⟨hout, hlast⟩ := ih hnext
      rw [GostCNT.xorKeyStream]
      constructor
      · show (b ^^^ s.nextByte.1) :: (s.nextByte.2.xorKeyStream bs).1 = _
        rw [List.mapIdx_cons, hbyte, hout]
        simp only [Nat.add_assoc, Nat.add_comm 1, Nat.add_zero]
      · rw [List.length_cons, ← Nat.add_assoc, Nat.add_right_comm]
        exact hlast

end

namespace GostCNT

/-- Consecutive calls of `XORKeyStream`. -/
def calls : GostCNT → List Bytes → List Bytes × GostCNT
  | s, []          => ([], s)
  | s, src :: srcs =>
    let (out, s) := xorKeyStreamLoop src.length s src
    let (outs, s) := calls s srcs
    (out :: outs, s)

theorem calls_spec {cipher : Gost28147Cipher} {iv : GostBlock} {i : Nat} {s : GostCNT}
    (h : AtByte cipher iv i s) (srcs : List Bytes) :
    (s.calls srcs).1.flatten = srcs.flatten.mapIdx (fun j b => b ^^^ keyStream cipher iv (i + j)) ∧
      AtByte cipher iv (i + srcs.flatten.length) (s.calls srcs).2 := by
  induction srcs generalizing i s with
  | nil => exact ⟨rfl, h⟩
  | cons src srcs ih =>
      have hnum : s.num < gostBlockSize := h.num ▸ Nat.mod_lt i (by decide)
      obtain ⟨hout, hnext⟩ := xorKeyStream_spec h src
      obtain ⟨houts, hlast⟩ := ih hnext
      rw [calls, xorKeyStreamLoop_eq hnum (Nat.le_refl _)]
      constructor
      · rw [List.flatten_cons, List.flatten_cons, hout, houts, List.mapIdx_append]
        simp only [Nat.add_assoc, Nat.add_comm src.length]
      · rw [List.flatten_cons, List.length_append, ← Nat.add_assoc]
        exact hlast

end GostCNT

/-- **One key stream.** However the input is cut into calls, what they put out is the input with one key
    stream, and between the calls the count is a multiple of the block size up to the threshold and the
    position is within a block. -/
theorem calls_keyStream (cipher : Gost28147Cipher) (iv : Bytes) (srcs : List Bytes) :
    ((newGostCNT cipher iv).calls srcs).1.flatten =
        srcs.flatten.mapIdx (fun i b => b ^^^ keyStream cipher (.copy iv) i) ∧
      ((newGostCNT cipher iv).calls srcs).2.count % gostBlockSize = 0 ∧
      ((newGostCNT cipher iv).calls srcs).2.count ≤ meshThreshold ∧
      ((newGostCNT cipher iv).calls srcs).2.num < gostBlockSize := by
  obtain ⟨hout, hblocks, hnum, -⟩ := GostCNT.calls_spec (atByte_zero cipher iv) srcs
  obtain ⟨height, hle⟩ := blockCount_bound ((0 + srcs.flatten.length + 7) / gostBlockSize)
  refine ⟨?_, ?_, ?_, ?_⟩
  · simpa only [Nat.zero_add] using hout
  · rw [hblocks.count, height]
  · rw [hblocks.count]
    exact hle
  · rw [hnum]
    exact Nat.mod_lt _ (by decide)

/-- A cipher that masks with the first block of its key. -/
def Gost28147Cipher.masking : Gost28147Cipher where
  key := List.replicate gostKeySize 7
  sbox := ⟨fun key b => b.xor (.copy key), fun key b => b.xor (.copy key), fun key b => b.xor (.copy key)⟩

/-- The first byte behind a kilobyte of zeros, cut in an odd place: it comes from the next key, and from the
    register under that key. With the key as it was it would be `81`. -/
theorem calls_keyStream_rekeyed :
    ((newGostCNT .masking []).calls [List.replicate 1001 0, List.replicate 24 0]).1.flatten[1024]? =
        some 0x84 ∧
      (rekey .masking).key.take gostBlockSize = [0x6E, 0x07, 0x75, 0x25, 0x63, 0xCE, 0x03, 0x24] := by
  have hbyte : keyStream .masking (.copy []) 1024 = 0x84 := by decide +kernel
  have hinput : [List.replicate 1001 (0 : UInt8), List.replicate 24 0].flatten = List.replicate 1025 0 := by
    rw [List.flatten_cons, List.flatten_singleton, List.replicate_append_replicate]
  refine ⟨?_, by decide⟩
  rw [(calls_keyStream .masking [] _).1, List.getElem?_mapIdx, hbyte, hinput,
    List.getElem?_replicate_of_lt (by decide)]
  rfl

end Gostls

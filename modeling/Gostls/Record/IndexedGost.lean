import Gostls.Record.Imit
import Gostls.Record.Indexed

/-!
# `Gostls.Record.IndexedGost` — the loops of the GOST 28147-89 protector with every index

`XORKeyStream` and the MAC's `Write` walk their input with an index beside an array of eight bytes and a
count of how much of it is in use. In the model the input is a list that is taken apart and the buffered
bytes are the list of those in use. Here is the code as the source has it, the arrays with whatever an
earlier block left in them.

* `GostCNT.xorKeyStreamAt_eq`, `ImitAt.writeAt_eq`, `ImitAt.finalizeAt_eq` — each computes what the model
  says, and so stays in range;
* `Gost28147At.open_eq` — `Open` is the `Open` of the model.
-/

namespace Gostls

open Lib

/-! ## CNT mode -/

namespace GostCNT

/-- `for s.num < gostBlockSize && i < len(src) { dst[i] = src[i] ^ s.buf[s.num]; … }`, for at most
    `rounds` rounds. -/
def useGammaAt (src : Bytes) : Nat → GostCNT → Nat → Bytes → Except Err (GostCNT × Nat × Bytes)
  | 0,          s, i, dst => .ok (s, i, dst)
  | rounds + 1, s, i, dst =>
    if s.num < gostBlockSize ∧ i < src.length then do
      let b ← index src i
      let k ← index s.buf.bytes s.num
      let dst ← store dst i (b ^^^ k)
      useGammaAt src rounds s.advance (i + 1) dst
    else .ok (s, i, dst)

/-- `for i := 0; i < len(src); { … }`, for at most `rounds` rounds. -/
def xorKeyStreamRounds (src : Bytes) : Nat → GostCNT → Nat → Bytes → Except Err (GostCNT × Bytes)
  | 0,          s, _, dst => .ok (s, dst)
  | rounds + 1, s, i, dst =>
    if i < src.length then do
      let s := if s.num = 0 then s.nextGamma else s
      let (s, i, dst) ← useGammaAt src gostBlockSize s i dst
      xorKeyStreamRounds src rounds s.wrap i dst
    else .ok (s, dst)

/-- `s.XORKeyStream(dst, src)` into a fresh `dst` of the same length. -/
def xorKeyStreamAt (s : GostCNT) (src : Bytes) : Except Err (GostCNT × Bytes) :=
  xorKeyStreamRounds src src.length s 0 (List.replicate src.length 0)

/-! The loops stay in range from every state: both bounds are in the loop condition. -/

theorem useGammaAt_inRange {src : Bytes} (rounds : Nat) (s : GostCNT) (i : Nat) {dst : Bytes}
    (hdst : dst.length = src.length) :
    ∃ s' i' dst', useGammaAt src rounds s i dst = .ok (s', i', dst') ∧ dst'.length = src.length := by
  induction rounds generalizing s i dst with
  | zero => exact ⟨s, i, dst, rfl, hdst⟩
  | succ rounds ih =>
      unfold useGammaAt
      by_cases hcond : s.num < gostBlockSize ∧ i < src.length
      · have hnum : s.num < s.buf.bytes.length := s.buf.length_eq ▸ hcond.1
        rw [if_pos hcond, index_eq hcond.2, index_eq hnum]
        simp only [ok_bind, store_eq (hdst ▸ hcond.2 : i < dst.length)]
        exact ih _ _ (by rw [List.length_set, hdst])
      · rw [if_neg hcond]
        exact ⟨s, i, dst, rfl, hdst⟩

theorem xorKeyStreamRounds_inRange {src : Bytes} (rounds : Nat) (s : GostCNT) (i : Nat) {dst : Bytes}
    (hdst : dst.length = src.length) :
    ∃ s' dst', xorKeyStreamRounds src rounds s i dst = .ok (s', dst') ∧ dst'.length = src.length := by
  induction rounds generalizing s i dst with
  | zero => exact ⟨s, dst, rfl, hdst⟩
  | succ rounds ih =>
      unfold xorKeyStreamRounds
      by_cases hmore : i < src.length
      · obtain ⟨s', i', dst', huse, hlen⟩ :=
          useGammaAt_inRange gostBlockSize (if s.num = 0 then s.nextGamma else s) i hdst
        rw [if_pos hmore]
        simp only [huse, ok_bind]
        exact ih _ _ hlen
      · rw [if_neg hmore]
        exact ⟨s, dst, rfl, hdst⟩

/-! They compute what the loops over lists do. -/

theorem useGamma_rest (s : GostCNT) (src : Bytes) :
    (s.useGamma src).2.1 = src.drop (s.useGamma src).1.length := by
  induction src generalizing s with
  | nil => rfl
  | cons b bs ih =>
      rw [useGamma]
      split
      · exact ih s.advance
      · rfl

theorem useGamma_length (s : GostCNT) (src : Bytes) : (s.useGamma src).1.length ≤ src.length := by
  induction src generalizing s with
  | nil => exact Nat.le_refl _
  | cons b bs ih =>
      rw [useGamma]
      split
      · exact Nat.succ_le_succ (ih s.advance)
      · exact Nat.zero_le _

/-- With gamma left, at least one byte is done. -/
theorem useGamma_pos {s : GostCNT} (hnum : s.num < gostBlockSize) (b : UInt8) (bs : Bytes) :
    0 < (s.useGamma (b :: bs)).1.length := by
  rw [useGamma, if_pos hnum]
  exact Nat.succ_pos _

theorem index_buf {s : GostCNT} (h : s.num < gostBlockSize) :
    index s.buf.bytes s.num = .ok (s.buf.byteAt s.num) := by
  have hlt : s.num < s.buf.bytes.length := s.buf.length_eq ▸ h
  rw [index_eq hlt, GostBlock.byteAt, List.getD_eq_getElem?_getD, List.getElem?_eq_getElem hlt]
  rfl

/-- The inner loop, at the seam of what is done and what is to do. -/
theorem useGammaAt_eq {done rest out tail : Bytes} {rounds i : Nat} {s : GostCNT} (hdone : done.length = i)
    (hout : out.length = i) (htail : tail.length = rest.length) (hrounds : gostBlockSize ≤ s.num + rounds) :
    useGammaAt (done ++ rest) rounds s i (out ++ tail) =
      .ok ((s.useGamma rest).2.2, i + (s.useGamma rest).1.length,
        out ++ (s.useGamma rest).1 ++ tail.drop (s.useGamma rest).1.length) := by
  induction rounds generalizing done rest out tail i s with
  | zero =>
      -- No gamma is left.
      have huse : s.useGamma rest = ([], rest, s) := by
        cases rest with
        | nil => rfl
        | cons b bs => exact if_neg (by omega)
      rw [huse, List.append_nil]
      rfl
  | succ rounds ih =>
      unfold useGammaAt
      cases rest with
      | nil =>
          rw [if_neg (by rw [List.append_nil]; omega), List.length_eq_zero_iff.mp htail]
          simp only [useGamma, List.append_nil, List.drop_nil, List.length_nil, Nat.add_zero]
      | cons b bs =>
          cases tail with
          | nil => cases htail
          | cons t tail =>
              by_cases hnum : s.num < gostBlockSize
              · have hmore : i < (done ++ b :: bs).length := by
                  rw [List.length_append, List.length_cons]
                  omega
                have huse : s.useGamma (b :: bs) = ((b ^^^ s.buf.byteAt s.num) :: (s.advance.useGamma bs).1,
                    (s.advance.useGamma bs).2) := if_pos hnum
                rw [if_pos ⟨hnum, hmore⟩, index_append hdone, index_buf hnum, huse]
                simp only [ok_bind, store_append hout]
                rw [List.append_cons done, List.append_cons out,
                  ih (by rw [List.length_append, hdone]; rfl) (by rw [List.length_append, hout]; rfl)
                    (Nat.succ.inj htail) (by show gostBlockSize ≤ s.num + 1 + rounds; omega)]
                simp only [List.length_cons, List.drop_succ_cons, List.append_assoc, List.cons_append,
                  List.nil_append, Nat.add_assoc, Nat.add_comm 1]
              · have huse : s.useGamma (b :: bs) = ([], b :: bs, s) := if_neg hnum
                rw [if_neg fun hcond => hnum hcond.1, huse, List.append_nil]
                rfl

/-- The outer loop. -/
theorem xorKeyStreamRounds_eq {done rest out tail : Bytes} {rounds i : Nat} {s : GostCNT}
    (hdone : done.length = i) (hout : out.length = i) (htail : tail.length = rest.length)
    (hrounds : rest.length ≤ rounds) (hnum : s.num < gostBlockSize) :
    xorKeyStreamRounds (done ++ rest) rounds s i (out ++ tail) =
      .ok ((xorKeyStreamLoop rounds s rest).2, out ++ (xorKeyStreamLoop rounds s rest).1) := by
  induction rounds generalizing done rest out tail i s with
  | zero =>
      obtain rfl := List.length_eq_zero_iff.mp (Nat.le_zero.mp hrounds)
      obtain rfl := List.length_eq_zero_iff.mp htail
      rfl
  | succ rounds ih =>
      unfold xorKeyStreamRounds
      cases rest with
      | nil =>
          rw [if_neg (by rw [List.append_nil]; omega), List.length_eq_zero_iff.mp htail]
          rfl
      | cons b bs =>
          have hmore : i < (done ++ b :: bs).length := by
            rw [List.length_append, List.length_cons]
            omega
          rw [if_pos hmore, xorKeyStreamLoop, if_neg (List.cons_ne_nil b bs)]
          generalize hs' : (if s.num = 0 then s.nextGamma else s) = s'
          have hnum' : s'.num < gostBlockSize := by
            rw [← hs']
            split
            · exact s.nextGamma_num ▸ hnum
            · exact hnum
          simp only [useGammaAt_eq hdone hout htail (Nat.le_add_left ..), ok_bind]
          have hpos := useGamma_pos hnum' b bs
          have hle := useGamma_length s' (b :: bs)
          have hwrap := wrap_num (useGamma_num s' (b :: bs) (Nat.le_of_lt hnum'))
          rw [useGamma_rest s' (b :: bs)]
          generalize (s'.useGamma (b :: bs)).1 = x at hpos hle ⊢
          generalize (s'.useGamma (b :: bs)).2.2.wrap = t at hwrap ⊢
          -- The seam moves by what the inner loop has done.
          have hsplit : done ++ b :: bs = (done ++ (b :: bs).take x.length) ++ (b :: bs).drop x.length := by
            rw [List.append_assoc, List.take_append_drop]
          rw [hsplit, ih (by rw [List.length_append, hdone, List.length_take_of_le hle])
            (by rw [List.length_append, hout]) (by rw [List.length_drop, List.length_drop, htail])
            (by rw [List.length_drop]; omega) hwrap, List.append_assoc]

/-- **`XORKeyStream` with its indices is the key stream of the model.** -/
theorem xorKeyStreamAt_eq {s : GostCNT} (hnum : s.num < gostBlockSize) (src : Bytes) :
    s.xorKeyStreamAt src = .ok ((s.xorKeyStream src).2, (s.xorKeyStream src).1) := by
  have hloop := @xorKeyStreamRounds_eq [] src [] (List.replicate src.length 0) src.length 0 s rfl rfl
    List.length_replicate (Nat.le_refl _) hnum
  rw [xorKeyStreamLoop_eq hnum (Nat.le_refl _)] at hloop
  exact hloop

end GostCNT

/-! ## IMIT -/

/-- `b[i] = v` in an array of eight bytes. -/
def storeBlock (b : GostBlock) (i : Nat) (v : UInt8) : Except Err GostBlock :=
  if i < gostBlockSize then .ok ⟨b.bytes.set i v, by rw [List.length_set, b.length_eq]⟩
  else .error .panic

theorem xorAt_block (a b : GostBlock) : xorAt gostBlockSize a.bytes b.bytes = .ok (a.xor b).bytes := by
  have hxor := xorAt_eq (a.length_eq.trans b.length_eq.symm)
  rw [a.length_eq] at hxor
  exact hxor

/-- The streaming MAC with its array: `buf[:bufLen]` is pending, the rest is what was there before. -/
structure ImitAt where
  cipher : Gost28147Cipher
  prev : GostBlock
  buf : GostBlock
  bufLen : Nat
  count : Nat
  bufLen_le : bufLen ≤ gostBlockSize

namespace ImitAt

/-- The bytes not yet processed. -/
def pending (m : ImitAt) : Bytes := m.buf.bytes.take m.bufLen

theorem pending_length (m : ImitAt) : m.pending.length = m.bufLen := by
  rw [pending, List.length_take_of_le]
  rw [m.buf.length_eq]
  exact m.bufLen_le

/-- The state of the model. -/
def toIMIT (m : ImitAt) : GostIMIT :=
  { cipher := m.cipher, prev := m.prev, buf := m.pending, count := m.count,
    buf_le := m.pending_length ▸ m.bufLen_le }

@[simp] theorem toIMIT_prev (m : ImitAt) : m.toIMIT.prev = m.prev := rfl
@[simp] theorem toIMIT_count (m : ImitAt) : m.toIMIT.count = m.count := rfl
@[simp] theorem toIMIT_buf (m : ImitAt) : m.toIMIT.buf = m.pending := rfl

def processBlockAt (m : ImitAt) (block : Bytes) : Except Err ImitAt := do
  let cipher := if m.count = meshThreshold then m.cipher.mesh else m.cipher
  let xored ← xorAt gostBlockSize m.prev.bytes block
  return { m with
    cipher
    prev := cipher.seqMACBlock (.copy xored)
    count := m.count % meshThreshold + gostBlockSize }

/-- `for m.bufLen < gostBlockSize && i < len(data) { m.buf[m.bufLen] = data[i]; … }`, for at most `rounds`
    rounds. -/
def fillAt (data : Bytes) : Nat → ImitAt → Nat → Except Err (ImitAt × Nat)
  | 0,          m, i => .ok (m, i)
  | rounds + 1, m, i =>
    if h : m.bufLen < gostBlockSize then
      if i < data.length then do
        let b ← index data i
        let buf ← storeBlock m.buf m.bufLen b
        fillAt data rounds { m with buf, bufLen := m.bufLen + 1, bufLen_le := h } (i + 1)
      else .ok (m, i)
    else .ok (m, i)

/-- `for len(data)-i > gostBlockSize { m.processBlockMesh(data[i : i+gostBlockSize]); … }`, for at most
    `rounds` rounds. -/
def blocksAt (data : Bytes) : Nat → ImitAt → Nat → Except Err (ImitAt × Nat)
  | 0,          m, i => .ok (m, i)
  | rounds + 1, m, i =>
    if data.length - i > gostBlockSize then do
      let block ← slice data i (i + gostBlockSize)
      let m ← m.processBlockAt block
      blocksAt data rounds m (i + gostBlockSize)
    else .ok (m, i)

/-- `m.bufLen = copy(m.buf[:], rest)` -/
def copyIn (m : ImitAt) (rest : Bytes) : ImitAt :=
  { m with
    buf := ⟨rest.take gostBlockSize ++ m.buf.bytes.drop (min gostBlockSize rest.length), by
      rw [List.length_append, List.length_take, List.length_drop, m.buf.length_eq]
      omega⟩
    bufLen := min gostBlockSize rest.length
    bufLen_le := Nat.min_le_left .. }

/-- The second half of `Write`, from `i` on. -/
def writeBlocksAt (m : ImitAt) (data : Bytes) (i : Nat) : Except Err ImitAt := do
  let (m, i) ← blocksAt data data.length m i
  if i < data.length then
    let rest ← sliceFrom data i
    return m.copyIn rest
  else return m

def writeAt (m : ImitAt) (data : Bytes) : Except Err ImitAt := do
  if m.bufLen > 0 then
    let (m, i) ← fillAt data gostBlockSize m 0
    if m.bufLen < gostBlockSize then return m
    if data.length - i > 0 then
      let m ← m.processBlockAt m.buf.bytes
      { m with bufLen := 0, bufLen_le := Nat.zero_le _ }.writeBlocksAt data i
    else return m
  else m.writeBlocksAt data 0

def processSnapAt (m : ImitAt) (snap : GostBlock × Nat) (block : Bytes) : Except Err (GostBlock × Nat) := do
  let (prev, count) := snap
  let cipher := if count = meshThreshold then m.cipher.mesh else m.cipher
  let xored ← xorAt gostBlockSize prev.bytes block
  return (cipher.seqMACBlock (.copy xored), count % meshThreshold + gostBlockSize)

def finalizeAt (m : ImitAt) : Except Err Bytes := do
  let snap := (m.prev, m.count)
  let snap ← (if m.bufLen > 0 then do
    let last ← sliceTo m.buf.bytes m.bufLen
    m.processSnapAt snap (GostBlock.copy last).bytes
    else .ok snap)
  let snap ← (if snap.2 = 0 ∧ m.bufLen > 0 then m.processSnapAt snap (GostBlock.copy []).bytes
    else .ok snap)
  sliceTo snap.1.bytes gostMACSize

/-! ### What it computes -/

/-- The state behind one block. -/
def processed (m : ImitAt) (block : GostBlock) : ImitAt :=
  { m with
    cipher := (m.toIMIT.processBlockMesh block).cipher
    prev := (m.toIMIT.processBlockMesh block).prev
    count := (m.toIMIT.processBlockMesh block).count }

theorem processed_toIMIT (m : ImitAt) (block : GostBlock) :
    (m.processed block).toIMIT = m.toIMIT.processBlockMesh block := rfl

/-- The states agree in everything but the array. -/
structure SameChain (m m' : ImitAt) : Prop where
  cipher : m'.cipher = m.cipher
  prev : m'.prev = m.prev
  count : m'.count = m.count

theorem SameChain.refl (m : ImitAt) : SameChain m m := ⟨rfl, rfl, rfl⟩

/-- A block is processed without a look at the array. -/
theorem SameChain.processed {m m' : ImitAt} (h : SameChain m m') (block : GostBlock) :
    SameChain (m.processed block) (m'.processed block) := by
  obtain ⟨cipher, prev, buf, bufLen, count, hle⟩ := m'
  obtain ⟨rfl, rfl, rfl⟩ := h
  exact ⟨rfl, rfl, rfl⟩

/-- A state of the same chain is known by its pending bytes. -/
theorem SameChain.toIMIT_eq {m m' : ImitAt} (h : SameChain m m') {b : Bytes}
    {hb : b.length ≤ gostBlockSize} (hpending : m'.pending = b) :
    m'.toIMIT = { m.toIMIT with buf := b, buf_le := hb } := by
  subst hpending
  unfold toIMIT
  simp only [h.cipher, h.prev, h.count]

theorem processBlockAt_eq (m : ImitAt) (block : GostBlock) :
    m.processBlockAt block.bytes = .ok (m.processed block) := by
  simp only [processBlockAt, xorAt_block, ok_bind, copy_bytes, pure_eq]
  rfl

theorem processSnapAt_eq (m : ImitAt) (snap : GostBlock × Nat) (block : GostBlock) :
    m.processSnapAt snap block.bytes = .ok (m.toIMIT.processSnap snap block) := by
  simp only [processSnapAt, xorAt_block, ok_bind, copy_bytes, pure_eq]
  rfl

/-- **`Finalize`.** -/
theorem finalizeAt_eq (m : ImitAt) : m.finalizeAt = .ok m.toIMIT.finalize := by
  have hlast : sliceTo m.buf.bytes m.bufLen = .ok m.pending :=
    sliceTo_eq (m.buf.length_eq ▸ m.bufLen_le)
  have htag : ∀ b : GostBlock, sliceTo b.bytes gostMACSize = .ok (b.bytes.take gostMACSize) :=
    fun b => sliceTo_eq (by rw [b.length_eq]; decide)
  unfold finalizeAt GostIMIT.finalize
  simp only [toIMIT_prev, toIMIT_count, toIMIT_buf, m.pending_length, hlast]
  by_cases hpos : m.bufLen > 0
  · simp only [hpos, if_true, ok_bind, processSnapAt_eq, and_true]
    split
    · exact htag _
    · exact htag _
  · simp only [hpos, if_false, ok_bind, and_false]
    exact htag _

/-- `m.buf[m.bufLen] = b; m.bufLen++` -/
def push (m : ImitAt) (h : m.bufLen < gostBlockSize) (b : UInt8) : ImitAt :=
  { m with
    buf := ⟨m.buf.bytes.set m.bufLen b, by rw [List.length_set, m.buf.length_eq]⟩
    bufLen := m.bufLen + 1
    bufLen_le := h }

theorem push_pending (m : ImitAt) (h : m.bufLen < gostBlockSize) (b : UInt8) :
    (m.push h b).pending = m.pending ++ [b] := by
  have hlt : m.bufLen < (m.buf.bytes.set m.bufLen b).length := by
    rw [List.length_set, m.buf.length_eq]
    exact h
  show (m.buf.bytes.set m.bufLen b).take (m.bufLen + 1) = _
  rw [← List.take_concat_get' _ _ hlt, List.getElem_set_self, List.take_set_of_le (Nat.le_refl _)]
  rfl

/-- There is room for so many bytes. -/
theorem take_pending_append (m : ImitAt) (rest : Bytes) :
    (m.pending ++ rest).take gostBlockSize = m.pending ++ rest.take (gostBlockSize - m.bufLen) := by
  have hle := m.bufLen_le
  rw [List.take_append, m.pending_length, List.take_of_length_le]
  rw [m.pending_length]
  exact hle

/-- The loop that completes a partial block, at the seam of what is done and what is to do. -/
theorem fillAt_eq {done rest : Bytes} {rounds i : Nat} {m : ImitAt} (hdone : done.length = i)
    (hrounds : gostBlockSize ≤ m.bufLen + rounds) :
    ∃ m', fillAt (done ++ rest) rounds m i = .ok (m', i + min (gostBlockSize - m.bufLen) rest.length) ∧
      m'.pending = (m.pending ++ rest).take gostBlockSize ∧ SameChain m m' := by
  -- A state without room, or without input, is left as it is.
  have hstay : ∀ {rest : Bytes} {m : ImitAt}, min (gostBlockSize - m.bufLen) rest.length = 0 →
      m.pending = (m.pending ++ rest).take gostBlockSize := by
    intro rest m hnone
    rw [take_pending_append, List.take_eq_take_min, hnone, List.take_zero, List.append_nil]
  induction rounds generalizing done rest i m with
  | zero =>
      have hnone : min (gostBlockSize - m.bufLen) rest.length = 0 := by omega
      exact ⟨m, by rw [hnone]; rfl, hstay hnone, .refl m⟩
  | succ rounds ih =>
      unfold fillAt
      by_cases hroom : m.bufLen < gostBlockSize
      · rw [dif_pos hroom]
        cases rest with
        | nil =>
            refine ⟨m, ?_, hstay (Nat.min_zero _), .refl m⟩
            rw [if_neg (by rw [List.append_nil]; omega), List.length_nil, Nat.min_zero]
            rfl
        | cons b bs =>
            have hmore : i < (done ++ b :: bs).length := by
              rw [List.length_append, List.length_cons]
              omega
            have hstore : storeBlock m.buf m.bufLen b = .ok (m.push hroom b).buf := if_pos hroom
            rw [if_pos hmore, index_append hdone]
            simp only [ok_bind, hstore]
            obtain ⟨m', hm', hpending, hsame⟩ := @ih (done ++ [b]) bs (i + 1) (m.push hroom b)
              (by rw [List.length_append, hdone]; rfl)
              (by show gostBlockSize ≤ m.bufLen + 1 + rounds; omega)
            refine ⟨m', ?_, ?_, ⟨hsame.cipher, hsame.prev, hsame.count⟩⟩
            · rw [List.append_cons, List.length_cons]
              refine hm'.trans ?_
              congr 2
              show i + 1 + min (gostBlockSize - (m.bufLen + 1)) bs.length = _
              omega
            · rw [hpending, push_pending, List.append_assoc]
              rfl
      · have hnone : min (gostBlockSize - m.bufLen) rest.length = 0 := by omega
        rw [dif_neg hroom]
        exact ⟨m, by rw [hnone]; rfl, hstay hnone, .refl m⟩

/-- The loop over whole blocks. -/
theorem blocksAt_eq {data : Bytes} {rounds i : Nat} {m : ImitAt} (hrounds : data.length ≤ i + rounds) :
    ∃ m' j, blocksAt data rounds m i = .ok (m', j) ∧
      m.toIMIT.processFull (data.drop i) = (m'.toIMIT, data.drop j) := by
  induction rounds generalizing i m with
  | zero =>
      refine ⟨m, i, rfl, ?_⟩
      rw [processFull_short]
      rw [List.length_drop]
      omega
  | succ rounds ih =>
      unfold blocksAt
      by_cases hmore : data.length - i > gostBlockSize
      · have hlong : gostBlockSize < (data.drop i).length := by rw [List.length_drop]; exact hmore
        have hblock : slice data i (i + gostBlockSize) = .ok (GostBlock.copy (data.drop i)).bytes := by
          rw [slice_eq (Nat.le_add_right ..) (by omega), List.drop_take, Nat.add_sub_cancel_left,
            ← copy_take]
          congr 1
          exact (fit_eq_self (List.length_take_of_le (Nat.le_of_lt hlong))).symm
        rw [if_pos hmore, hblock]
        simp only [ok_bind, processBlockAt_eq]
        obtain ⟨m', j, hm', hfull⟩ := @ih (i + gostBlockSize) (m.processed (.copy (data.drop i)))
          (by simp only [gostBlockSize]; omega)
        refine ⟨m', j, hm', ?_⟩
        rw [processFull_long hlong, List.drop_drop, ← processed_toIMIT, hfull]
      · refine ⟨m, i, if_neg hmore, ?_⟩
        rw [processFull_short]
        rw [List.length_drop]
        exact Nat.not_lt.mp hmore

theorem copyIn_pending (m : ImitAt) (rest : Bytes) : (m.copyIn rest).pending = rest.take gostBlockSize :=
  List.take_left' (List.length_take ..)

theorem writeBlocksAt_eq (m : ImitAt) (data : Bytes) (i : Nat) :
    ∃ m', m.writeBlocksAt data i = .ok m' ∧ m'.toIMIT = m.toIMIT.writeBlocks (data.drop i) := by
  obtain ⟨m₁, j, hblocks, hfull⟩ := @blocksAt_eq data data.length i m (Nat.le_add_left ..)
  unfold writeBlocksAt GostIMIT.writeBlocks
  simp only [hblocks, hfull, ok_bind]
  by_cases hrest : j < data.length
  · have hne : data.drop j ≠ [] := by
      rw [ne_eq, List.drop_eq_nil_iff]
      omega
    rw [if_pos hrest, if_neg hne, sliceFrom_eq (Nat.le_of_lt hrest)]
    exact ⟨_, rfl, SameChain.toIMIT_eq ⟨rfl, rfl, rfl⟩ (copyIn_pending m₁ _)⟩
  · have hnil : data.drop j = [] := List.drop_eq_nil_iff.mpr (Nat.not_lt.mp hrest)
    rw [if_neg hrest, if_pos hnil]
    exact ⟨m₁, rfl, rfl⟩

/-- A full array is the block its bytes are copied to. -/
theorem copy_pending {m : ImitAt} (hfull : m.bufLen = gostBlockSize) :
    GostBlock.copy m.pending = m.buf := by
  rw [pending, hfull, copy_take, copy_bytes]

/-- `m.processBlockMesh(m.buf[:]); m.bufLen = 0` -/
def drained (m : ImitAt) : ImitAt := { m.processed m.buf with bufLen := 0, bufLen_le := Nat.zero_le _ }

theorem drained_toIMIT {m m' : ImitAt} (hsame : SameChain m m') (hfull : m'.bufLen = gostBlockSize) :
    m'.drained.toIMIT =
      { m.toIMIT.processBlockMesh (.copy m'.pending) with buf := [], buf_le := Nat.zero_le _ } := by
  have hblock := hsame.processed m'.buf
  rw [copy_pending hfull]
  have hdrained : SameChain (m.processed m'.buf) m'.drained := ⟨hblock.cipher, hblock.prev, hblock.count⟩
  exact hdrained.toIMIT_eq rfl

/-- `Write` onto a partial block. -/
theorem writeAt_pending {m : ImitAt} (hpos : m.bufLen > 0) (data : Bytes) :
    ∃ m', m.writeAt data = .ok m' ∧ m'.toIMIT = m.toIMIT.write data := by
  have hpending : m.pending ≠ [] := by
    intro hnil
    have hlen := m.pending_length
    rw [hnil, List.length_nil] at hlen
    omega
  obtain ⟨m₁, hfill, hfilled, hsame⟩ := @fillAt_eq [] data gostBlockSize 0 m rfl (Nat.le_add_left ..)
  rw [List.nil_append, Nat.zero_add] at hfill
  unfold writeAt GostIMIT.write
  rw [if_pos hpos, hfill]
  simp only [ok_bind, toIMIT_buf, if_neg hpending, m.pending_length, ← hfilled, m₁.pending_length]
  by_cases hroom : m₁.bufLen < gostBlockSize
  · rw [if_pos hroom, if_pos (.inl hroom)]
    exact ⟨m₁, rfl, hsame.toIMIT_eq rfl⟩
  · rw [if_neg hroom]
    by_cases hmore : gostBlockSize - m.bufLen < data.length
    · -- The block is complete, and something follows it.
      have hi : min (gostBlockSize - m.bufLen) data.length = gostBlockSize - m.bufLen :=
        Nat.min_eq_left (Nat.le_of_lt hmore)
      have hrest : data.drop (gostBlockSize - m.bufLen) ≠ [] := by
        rw [ne_eq, List.drop_eq_nil_iff]
        omega
      obtain ⟨m', hm', heq⟩ := m₁.drained.writeBlocksAt_eq data (gostBlockSize - m.bufLen)
      rw [drained_toIMIT hsame (Nat.le_antisymm m₁.bufLen_le (Nat.not_lt.mp hroom))] at heq
      rw [hi, if_pos (Nat.sub_pos_of_lt hmore), if_neg (not_or.mpr ⟨hroom, hrest⟩)]
      simp only [processBlockAt_eq, ok_bind]
      exact ⟨m', hm', heq⟩
    · have hi : min (gostBlockSize - m.bufLen) data.length = data.length :=
        Nat.min_eq_right (Nat.not_lt.mp hmore)
      have hrest : data.drop (gostBlockSize - m.bufLen) = [] :=
        List.drop_eq_nil_iff.mpr (Nat.not_lt.mp hmore)
      rw [hi, Nat.sub_self, if_neg (Nat.lt_irrefl 0), if_pos (.inr hrest)]
      exact ⟨m₁, rfl, hsame.toIMIT_eq rfl⟩

/-- **`Write`.** No index of it is out of range, and it absorbs what the model absorbs. -/
theorem writeAt_eq (m : ImitAt) (data : Bytes) :
    ∃ m', m.writeAt data = .ok m' ∧ m'.toIMIT = m.toIMIT.write data := by
  by_cases hpos : m.bufLen > 0
  · exact writeAt_pending hpos data
  · have hpending : m.toIMIT.buf = [] := List.length_eq_zero_iff.mp (by
      rw [toIMIT_buf, m.pending_length]
      omega)
    unfold writeAt GostIMIT.write
    rw [if_neg hpos, if_pos hpending]
    exact m.writeBlocksAt_eq data 0

end ImitAt

/-! ## The protector -/

namespace Gost28147Protector

section

variable (p : Gost28147Protector) (seq : UInt64) (hdr : Header) (buf : Bytes)

/-- The MAC of what stands in front of the last four bytes of `buf`, and the state of the MAC behind it. -/
def macOf : Bytes × GostIMIT := p.computeGOSTMAC seq hdr (buf.take (buf.length - gostMACSize))

/-- What `Open` answers to a decrypted fragment. -/
def verdict : Except Err Bytes :=
  if constantTimeCompare (buf.drop (buf.length - gostMACSize)) (p.macOf seq hdr buf).1 ≠ 1 then
    .error (newFatalAlertError alertBadRecordMAC)
  else .ok (buf.take (buf.length - gostMACSize))

theorem verdict_inRange : InRange (p.verdict seq hdr buf) := .check rfl fun _ => .ok _

/-- `Open` on a fragment that can hold a MAC. -/
theorem open_long {fragment : Bytes} (hlong : ¬ fragment.length < gostMACSize) :
    p.open seq hdr fragment =
      (p.verdict seq hdr (p.cnt.xorKeyStream fragment).1,
        { cnt := (p.cnt.xorKeyStream fragment).2
          imit := (p.macOf seq hdr (p.cnt.xorKeyStream fragment).1).2 }) := by
  unfold Gost28147Protector.open verdict macOf
  rw [if_neg hlong]
  generalize p.cnt.xorKeyStream fragment = stream
  simp only [sliceTo_eq (Nat.sub_le ..), sliceFrom_eq (Nat.sub_le ..)]
  split
  · rfl
  · rfl

theorem open_inRange (fragment : Bytes) : InRange (p.open seq hdr fragment).1 := by
  by_cases hshort : fragment.length < gostMACSize
  · unfold Gost28147Protector.open
    rw [if_pos hshort]
    exact .error rfl
  · rw [p.open_long seq hdr hshort]
    exact p.verdict_inRange seq hdr _

end

end Gost28147Protector

/-- The protector with the array of its MAC. -/
structure Gost28147At where
  cnt : GostCNT
  imit : ImitAt

namespace Gost28147At

/-- The state of the model. -/
def toProtector (p : Gost28147At) : Gost28147Protector := { cnt := p.cnt, imit := p.imit.toIMIT }

def computeGOSTMACAt (p : Gost28147At) (seq : UInt64) (hdr plain : Bytes) :
    Except Err (Bytes × ImitAt) := do
  let ad ← additionalDataAt seq hdr plain.length
  let imit ← p.imit.writeAt ad
  let imit ← imit.writeAt plain
  let tag ← imit.finalizeAt
  return (tag, imit)

/-- What `Open` returns, with the state it leaves behind: also a refusal has moved both streams. -/
def openAt (p : Gost28147At) (seq : UInt64) (hdr fragment : Bytes) :
    Except Err (Except Err Bytes × Gost28147At) := do
  if fragment.length < gostMACSize then
    return (.error (newFatalAlertError alertBadRecordMAC), p)
  let (cnt, buf) ← p.cnt.xorKeyStreamAt fragment
  let plainEnd ← sliceBound (buf.length - gostMACSize)
  let plain ← sliceTo buf plainEnd
  let gotMAC ← sliceFrom buf plainEnd
  let (expectedMAC, imit) ← p.computeGOSTMACAt seq hdr plain
  if constantTimeCompare gotMAC expectedMAC ≠ 1 then
    return (.error (newFatalAlertError alertBadRecordMAC), { cnt, imit })
  return (.ok plain, { cnt, imit })

section

variable {hdr : Bytes} (p : Gost28147At) (seq : UInt64)

theorem computeGOSTMACAt_eq (h : hdr.length = recordHeaderLen) (plain : Bytes) :
    ∃ imit, p.computeGOSTMACAt seq hdr plain =
        .ok ((p.toProtector.computeGOSTMAC seq (.ofBytes hdr) plain).1, imit) ∧
      imit.toIMIT = (p.toProtector.computeGOSTMAC seq (.ofBytes hdr) plain).2 := by
  obtain ⟨m₁, hm₁, htoIMIT₁⟩ := p.imit.writeAt_eq (buildAD seq (.ofBytes hdr) plain.length)
  obtain ⟨m₂, hm₂, htoIMIT₂⟩ := m₁.writeAt_eq plain
  have hstate : m₂.toIMIT = (p.toProtector.computeGOSTMAC seq (.ofBytes hdr) plain).2 := by
    rw [htoIMIT₂, htoIMIT₁]
    rfl
  refine ⟨m₂, ?_, hstate⟩
  have htag : (p.toProtector.computeGOSTMAC seq (.ofBytes hdr) plain).1 = m₂.toIMIT.finalize := by
    rw [hstate]
    rfl
  simp only [computeGOSTMACAt, additionalDataAt_eq h, hm₁, hm₂, m₂.finalizeAt_eq, ok_bind, pure_eq, htag]

/-- The part of `Open` behind the decryption: both slices are cut at a bound that is not negative. -/
theorem openAt_of_buf (h : hdr.length = recordHeaderLen) {fragment buf : Bytes} {cnt : GostCNT}
    (hlong : ¬ fragment.length < gostMACSize) (hbuf : buf.length = fragment.length)
    (hstream : p.cnt.xorKeyStreamAt fragment = .ok (cnt, buf)) :
    ∃ imit, p.openAt seq hdr fragment = .ok (p.toProtector.verdict seq (.ofBytes hdr) buf, { cnt, imit }) ∧
      imit.toIMIT = (p.toProtector.macOf seq (.ofBytes hdr) buf).2 := by
  have hbound : sliceBound (buf.length - gostMACSize) = .ok (buf.length - gostMACSize) :=
    sliceBound_sub (by omega)
  obtain ⟨imit, hmac, himit⟩ := p.computeGOSTMACAt_eq seq h (buf.take (buf.length - gostMACSize))
  refine ⟨imit, ?_, himit⟩
  unfold openAt Gost28147Protector.verdict Gost28147Protector.macOf
  rw [if_neg hlong, hstream]
  simp only [ok_bind, hbound, sliceTo_eq (Nat.sub_le ..), sliceFrom_eq (Nat.sub_le ..), hmac]
  split
  · rfl
  · rfl

/-- **`Open` returns from every state**, whatever the position in the key stream. -/
theorem openAt_inRange (h : hdr.length = recordHeaderLen) (fragment : Bytes) :
    ∃ r p', p.openAt seq hdr fragment = .ok (r, p') ∧ InRange r := by
  by_cases hshort : fragment.length < gostMACSize
  · exact ⟨_, p, if_pos hshort, .error rfl⟩
  · obtain ⟨cnt, buf, hstream, hbuf⟩ :=
      @GostCNT.xorKeyStreamRounds_inRange fragment fragment.length p.cnt 0 _ List.length_replicate
    obtain ⟨imit, hopen, -⟩ := p.openAt_of_buf seq h hshort hbuf hstream
    exact ⟨_, _, hopen, p.toProtector.verdict_inRange seq _ buf⟩

/-- **`Open` is the `Open` of the model**, from the states the key stream is left in. -/
theorem openAt_eq (h : hdr.length = recordHeaderLen) (hnum : p.cnt.num < gostBlockSize) (fragment : Bytes) :
    ∃ p', p.openAt seq hdr fragment = .ok ((p.toProtector.open seq (.ofBytes hdr) fragment).1, p') ∧
      p'.toProtector = (p.toProtector.open seq (.ofBytes hdr) fragment).2 := by
  by_cases hshort : fragment.length < gostMACSize
  · unfold Gost28147Protector.open
    rw [if_pos hshort]
    exact ⟨p, if_pos hshort, rfl⟩
  · obtain ⟨imit, hopen, himit⟩ := p.openAt_of_buf seq h hshort
      (p.cnt.xorKeyStream_length fragment) (GostCNT.xorKeyStreamAt_eq hnum fragment)
    rw [p.toProtector.open_long seq (.ofBytes hdr) hshort]
    refine ⟨_, hopen, ?_⟩
    rw [toProtector, himit]
    rfl

end

end Gost28147At

end Gostls

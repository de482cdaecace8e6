import Gostls.Record.CntStream

/-!
# `Gostls.Record.Imit` — the MAC as a function of what was written

A full block may be processed by the `Write` that completes it, be kept until a later one, or be processed
by `Finalize` on a copy, and the point where the key is meshed can fall into any of these. `imitTag` is the
tag of a string without all that: the chaining over its blocks. A MAC that has absorbed a string is in one
state, whatever writes it came in.

* `write_spec` — a write extends the string;
* `finalize_spec` — the tag is the one of the string;
* `run_tags` — in any sequence of calls, every tag is that of what was written before it;
* `finalize_short_iff` — a string of one block gets no trailing block of zeros.
-/

namespace Gostls

open Lib

/-! ## The MAC of a string -/

/-- Block `i` of a string, filled up with zeros. -/
def paddedBlock (d : Bytes) (i : Nat) : GostBlock := .copy (d.drop (gostBlockSize * i))

/-- The key and the chaining value after `n` blocks. The key is meshed in front of every block whose index
    is a positive multiple of 128. -/
def macState (cipher : Gost28147Cipher) (d : Bytes) : Nat → Gost28147Cipher × GostBlock
  | 0     => (cipher, .copy [])
  | n + 1 =>
    let (cipher, prev) := macState cipher d n
    let cipher := if 0 < n ∧ n % 128 = 0 then rekey cipher else cipher
    (cipher, cipher.seqMACBlock (prev.xor (paddedBlock d n)))

/-- The tag of a string: the chaining value after all its blocks, cut to four bytes. -/
def imitTag (cipher : Gost28147Cipher) (d : Bytes) : Bytes :=
  (macState cipher d ((d.length + 7) / gostBlockSize)).2.bytes.take gostMACSize

theorem copy_take (b : Bytes) : GostBlock.copy (b.take gostBlockSize) = GostBlock.copy b := by
  have hfit : fit gostBlockSize (b.take gostBlockSize) = fit gostBlockSize b := by
    unfold fit
    rw [List.take_take, Nat.min_self, List.length_take]
    congr 2
    omega
  unfold GostBlock.copy
  congr 1

theorem copy_append {b : Bytes} (hb : gostBlockSize ≤ b.length) (rest : Bytes) :
    GostBlock.copy (b ++ rest) = GostBlock.copy b := by
  rw [← copy_take, List.take_append_of_le_length hb, copy_take]

theorem copy_bytes (b : GostBlock) : GostBlock.copy b.bytes = b := by
  unfold GostBlock.copy
  congr 1
  exact fit_eq_self b.length_eq

/-- The blocks of a string are those of any longer one. -/
theorem macState_append {d : Bytes} {n : Nat} (hn : gostBlockSize * n ≤ d.length)
    (cipher : Gost28147Cipher) (rest : Bytes) :
    macState cipher (d ++ rest) n = macState cipher d n := by
  induction n with
  | zero => rfl
  | succ n ih =>
      rw [Nat.mul_succ] at hn
      have hblock : paddedBlock (d ++ rest) n = paddedBlock d n := by
        unfold paddedBlock
        rw [List.drop_append_of_le_length (by omega)]
        exact copy_append (by rw [List.length_drop]; omega) rest
      rw [macState, macState, ih (by omega), hblock]

/-! ## Absorbing a string -/

section

variable {cipher : Gost28147Cipher} {d : Bytes} {n : Nat} {m : GostIMIT}

/-- A MAC that has processed the first `n` blocks of `d`. -/
structure Chained (cipher : Gost28147Cipher) (d : Bytes) (n : Nat) (m : GostIMIT) : Prop where
  count : m.count = blockCount n
  state : (m.cipher, m.prev) = macState cipher d n

/-- The blocks of `d` that are not kept: the last one, full or not, is. -/
def doneBlocks (d : Bytes) : Nat := (d.length - 1) / gostBlockSize

/-- A MAC that has absorbed `d`. -/
structure Absorbed (cipher : Gost28147Cipher) (d : Bytes) (m : GostIMIT) : Prop where
  chained : Chained cipher d (doneBlocks d) m
  buf : m.buf = d.drop (gostBlockSize * doneBlocks d)

theorem absorbed_nil (cipher : Gost28147Cipher) : Absorbed cipher [] (newGostIMIT cipher) :=
  ⟨⟨rfl, rfl⟩, rfl⟩

/-- **One block.** The threshold is reached where the key must be meshed. -/
theorem processBlockMesh_spec (h : Chained cipher d n m) :
    Chained cipher d (n + 1) (m.processBlockMesh (paddedBlock d n)) := by
  have hmesh : m.count = meshThreshold ↔ 0 < n ∧ n % 128 = 0 := by
    rw [h.count]
    exact blockCount_eq_meshThreshold
  refine ⟨?_, ?_⟩
  · show m.count % meshThreshold + gostBlockSize = _
    rw [h.count, blockCount_succ]
  · rw [macState, ← h.state]
    unfold GostIMIT.processBlockMesh
    simp only [hmesh, mesh_eq_rekey]

theorem Chained.append (h : Chained cipher d n m) (hn : gostBlockSize * n ≤ d.length) (rest : Bytes) :
    Chained cipher (d ++ rest) n m :=
  ⟨h.count, by rw [macState_append hn, h.state]⟩

theorem Chained.withBuf (h : Chained cipher d n m) {buf : Bytes} (hbuf : buf.length ≤ gostBlockSize) :
    Chained cipher d n { m with buf, buf_le := hbuf } := ⟨h.count, h.state⟩

theorem processFull_short {data : Bytes} (h : data.length ≤ gostBlockSize) :
    m.processFull data = (m, data) := by
  unfold GostIMIT.processFull
  split
  · simp only [List.length_cons, gostBlockSize] at h
    omega
  · rfl

theorem processFull_long {data : Bytes} (h : gostBlockSize < data.length) :
    m.processFull data = (m.processBlockMesh (.copy data)).processFull (data.drop gostBlockSize) := by
  match data, h with
  | b0 :: b1 :: b2 :: b3 :: b4 :: b5 :: b6 :: b7 :: b8 :: rest, _ =>
      have hblock : GostBlock.copy (b0 :: b1 :: b2 :: b3 :: b4 :: b5 :: b6 :: b7 :: b8 :: rest) =
          ⟨[b0, b1, b2, b3, b4, b5, b6, b7], rfl⟩ :=
        (copy_append (b := [b0, b1, b2, b3, b4, b5, b6, b7]) (Nat.le_refl _) (b8 :: rest)).trans
          (copy_bytes ⟨_, rfl⟩)
      rw [GostIMIT.processFull, hblock]
      rfl
  | [], h | [_], h | [_, _], h | [_, _, _], h | [_, _, _, _], h | [_, _, _, _, _], h
  | [_, _, _, _, _, _], h | [_, _, _, _, _, _, _], h | [_, _, _, _, _, _, _, _], h =>
      exact absurd h (by simp [gostBlockSize])

/-- The loop over whole blocks leaves the last one. -/
theorem processFull_spec (h : Chained cipher d n m) (hn : n ≤ doneBlocks d) :
    Chained cipher d (doneBlocks d) (m.processFull (d.drop (gostBlockSize * n))).1 ∧
      (m.processFull (d.drop (gostBlockSize * n))).2 = d.drop (gostBlockSize * doneBlocks d) ∧
      (m.processFull (d.drop (gostBlockSize * n))).1.buf = m.buf := by
  -- The induction is on the number of blocks to go.
  induction hgo : doneBlocks d - n generalizing n m with
  | zero =>
      obtain rfl : n = doneBlocks d := by omega
      rw [processFull_short]
      · exact ⟨h, rfl, rfl⟩
      · rw [List.length_drop]
        simp only [doneBlocks, gostBlockSize]
        omega
  | succ go ih =>
      have hlong : gostBlockSize < (d.drop (gostBlockSize * n)).length := by
        rw [List.length_drop]
        simp only [doneBlocks, gostBlockSize] at hgo ⊢
        omega
      obtain ⟨hchained, hrest, hbuf⟩ := ih (processBlockMesh_spec h) (by omega) (by omega)
      rw [processFull_long hlong, List.drop_drop, ← Nat.mul_succ]
      exact ⟨hchained, hrest, hbuf⟩

theorem drop_doneBlocks_length (d : Bytes) :
    (d.drop (gostBlockSize * doneBlocks d)).length ≤ gostBlockSize := by
  rw [List.length_drop]
  simp only [doneBlocks, gostBlockSize]
  omega

theorem drop_doneBlocks_eq_nil {d : Bytes} (h : d.drop (gostBlockSize * doneBlocks d) = []) : d = [] := by
  have hlen := congrArg List.length h
  rw [List.length_drop, List.length_nil] at hlen
  simp only [doneBlocks, gostBlockSize] at hlen
  exact List.length_eq_zero_iff.mp (by omega)

theorem writeBlocks_spec (h : Chained cipher d n m) (hn : n ≤ doneBlocks d) (hbuf : m.buf = []) :
    Absorbed cipher d (m.writeBlocks (d.drop (gostBlockSize * n))) := by
  obtain ⟨hchained, hrest, hkeep⟩ := processFull_spec h hn
  unfold GostIMIT.writeBlocks
  dsimp only
  split
  · rename_i hempty
    exact ⟨hchained, by rw [hkeep, hbuf, ← hrest, hempty]⟩
  · refine ⟨hchained.withBuf _, ?_⟩
    show List.take gostBlockSize _ = _
    rw [hrest]
    exact List.take_of_length_le (drop_doneBlocks_length d)

theorem mul_doneBlocks_le (d : Bytes) : gostBlockSize * doneBlocks d ≤ d.length := by
  simp only [doneBlocks, gostBlockSize]
  omega

/-- What is kept, and what comes, are the end of the longer string. -/
theorem Absorbed.pending (h : Absorbed cipher d m) (data : Bytes) :
    m.buf ++ data = (d ++ data).drop (gostBlockSize * doneBlocks d) := by
  rw [h.buf, List.drop_append_of_le_length (mul_doneBlocks_le d)]

theorem Absorbed.length_buf (h : Absorbed cipher d m) :
    m.buf.length = d.length - gostBlockSize * doneBlocks d := by
  rw [h.buf, List.length_drop]

/-- **What is kept and what comes fit one block**, which is kept. -/
theorem Absorbed.keep (h : Absorbed cipher d m) (hbuf : m.buf ≠ []) {data : Bytes}
    (hfits : (m.buf ++ data).length ≤ gostBlockSize) :
    Absorbed cipher (d ++ data)
      { m with buf := (m.buf ++ data).take gostBlockSize, buf_le := List.length_take_le .. } := by
  have hsame : doneBlocks (d ++ data) = doneBlocks d := by
    have hpos := List.length_pos_iff.mpr hbuf
    have hlen := h.length_buf
    rw [List.length_append] at hfits
    simp only [doneBlocks, List.length_append, gostBlockSize] at hfits hlen ⊢
    omega
  refine ⟨?_, ?_⟩
  · rw [hsame]
    exact (h.chained.append (mul_doneBlocks_le d) data).withBuf _
  · show List.take gostBlockSize _ = _
    rw [hsame, ← h.pending]
    exact List.take_of_length_le hfits

/-- **A block is completed**, and more follows. -/
theorem Absorbed.complete (h : Absorbed cipher d m) {data : Bytes}
    (hmore : gostBlockSize < (m.buf ++ data).length) :
    Absorbed cipher (d ++ data)
      (GostIMIT.writeBlocks
        { m.processBlockMesh (.copy ((m.buf ++ data).take gostBlockSize)) with
          buf := [], buf_le := Nat.zero_le _ }
        (data.drop (gostBlockSize - m.buf.length))) := by
  have hblock : GostBlock.copy ((m.buf ++ data).take gostBlockSize) =
      paddedBlock (d ++ data) (doneBlocks d) := by
    rw [copy_take, h.pending]
    rfl
  have hdrop : data.drop (gostBlockSize - m.buf.length) =
      (d ++ data).drop (gostBlockSize * (doneBlocks d + 1)) := by
    rw [Nat.mul_succ, ← List.drop_drop, ← h.pending, List.drop_append, List.drop_eq_nil_of_le m.buf_le,
      List.nil_append]
  have hnext : doneBlocks d + 1 ≤ doneBlocks (d ++ data) := by
    have hlen := h.length_buf
    rw [List.length_append] at hmore
    simp only [doneBlocks, List.length_append, gostBlockSize] at hmore hlen ⊢
    omega
  have hchained := processBlockMesh_spec (h.chained.append (mul_doneBlocks_le d) data)
  rw [hblock, hdrop]
  exact writeBlocks_spec (hchained.withBuf _) hnext rfl

/-- **A write extends what was absorbed.** -/
theorem write_spec (h : Absorbed cipher d m) (data : Bytes) : Absorbed cipher (d ++ data) (m.write data) := by
  have hle := m.buf_le
  unfold GostIMIT.write
  by_cases hempty : m.buf = []
  · -- Nothing was written before.
    obtain rfl : d = [] := drop_doneBlocks_eq_nil (h.buf.symm.trans hempty)
    rw [if_pos hempty, List.nil_append]
    exact writeBlocks_spec (n := 0) ⟨h.chained.count, h.chained.state⟩ (Nat.zero_le _) hempty
  · rw [if_neg hempty]
    dsimp only
    split
    · rename_i hfits
      apply h.keep hempty
      rw [List.length_append]
      rcases hfits with hfits | hfits
      · rw [List.length_take, List.length_append] at hfits
        omega
      · rw [List.drop_eq_nil_iff] at hfits
        omega
    · rename_i hmore
      obtain ⟨-, hrest⟩ := not_or.mp hmore
      apply h.complete
      rw [List.drop_eq_nil_iff] at hrest
      rw [List.length_append]
      omega

/-- **The tag is that of what was absorbed.** The block that is kept is processed on a copy; the branch
    with the block of zeros is never taken, for the count is not zero behind a block. -/
theorem finalize_spec (h : Absorbed cipher d m) : m.finalize = imitTag cipher d := by
  obtain ⟨⟨hcount, hstate⟩, hbuf⟩ := h
  unfold GostIMIT.finalize imitTag
  by_cases hempty : m.buf = []
  · obtain rfl : d = [] := drop_doneBlocks_eq_nil (hbuf.symm.trans hempty)
    have hprev : m.prev = GostBlock.copy [] := congrArg Prod.snd hstate
    simp [hempty, hprev, macState, gostBlockSize]
  · have hpos : m.buf.length > 0 := List.length_pos_iff.mpr hempty
    have hlast : (d.length + 7) / gostBlockSize = doneBlocks d + 1 := by
      rw [hbuf, List.length_drop] at hpos
      simp only [doneBlocks, gostBlockSize] at hpos ⊢
      omega
    have hblock : GostBlock.copy m.buf = paddedBlock d (doneBlocks d) := by
      rw [hbuf]
      rfl
    have hsnap : (m.processSnap (m.prev, m.count) (.copy m.buf)).1 =
        (macState cipher d (doneBlocks d + 1)).2 := by
      rw [macState, ← hstate, hblock]
      simp only [GostIMIT.processSnap, hcount, blockCount_eq_meshThreshold, mesh_eq_rekey]
    have hnonzero : (m.processSnap (m.prev, m.count) (.copy m.buf)).2 ≠ 0 := Nat.succ_ne_zero _
    dsimp only
    rw [hlast, if_pos hpos, if_neg (fun hzero => hnonzero hzero.1), hsnap]

end

/-! ## Calls -/

/-- A call of the MAC. -/
inductive ImitCall
  | write (data : Bytes)
  | finalize
  deriving DecidableEq, Repr

namespace ImitCall

def isWrite : ImitCall → Bool
  | .write _  => true
  | .finalize => false

/-- What the tags of a sequence of calls are when `d` was written before it. -/
def tags (cipher : Gost28147Cipher) : Bytes → List ImitCall → List Bytes
  | _, []                   => []
  | d, .write data :: calls => tags cipher (d ++ data) calls
  | d, .finalize :: calls   => imitTag cipher d :: tags cipher d calls

end ImitCall

/-- A sequence of calls: the tags that are returned, and the MAC it leaves. -/
def GostIMIT.run : GostIMIT → List ImitCall → List Bytes × GostIMIT
  | m, []                   => ([], m)
  | m, .write data :: calls => (m.write data).run calls
  | m, .finalize :: calls   => (m.finalize :: (m.run calls).1, (m.run calls).2)

theorem run_spec {cipher : Gost28147Cipher} {d : Bytes} {m : GostIMIT} (h : Absorbed cipher d m)
    (calls : List ImitCall) : (m.run calls).1 = ImitCall.tags cipher d calls := by
  induction calls generalizing d m with
  | nil => rfl
  | cons call calls ih =>
      cases call with
      | write data => exact ih (write_spec h data)
      | finalize => rw [GostIMIT.run, ImitCall.tags, finalize_spec h, ih h]

theorem run_filter (m : GostIMIT) (calls : List ImitCall) :
    (m.run (calls.filter ImitCall.isWrite)).2 = (m.run calls).2 := by
  induction calls generalizing m with
  | nil => rfl
  | cons call calls ih =>
      cases call with
      | write data => exact ih (m.write data)
      | finalize => exact ih m

/-- **The MAC is a function of what was written.** In any sequence of writes and finalizations every tag is
    that of the bytes written before it, and the MAC is left as by the writes alone. -/
theorem run_tags (cipher : Gost28147Cipher) (calls : List ImitCall) :
    ((newGostIMIT cipher).run calls).1 = ImitCall.tags cipher [] calls ∧
      ((newGostIMIT cipher).run calls).2 =
        ((newGostIMIT cipher).run (calls.filter ImitCall.isWrite)).2 :=
  ⟨run_spec (absorbed_nil cipher) calls, (run_filter _ calls).symm⟩

/-- A tag over 1025 bytes: the last block, `01`, is chained under the next key. -/
theorem run_tags_rekeyed :
    ((newGostIMIT .masking).run
      [.write (List.replicate 1000 0), .write (List.replicate 24 0), .write [1], .finalize]).1 =
        [[0x6F, 0x07, 0x75, 0x25]] ∧
      (rekey .masking).key.take gostMACSize = [0x6E, 0x07, 0x75, 0x25] := by
  refine ⟨?_, by decide⟩
  rw [(run_tags .masking _).1]
  simp only [ImitCall.tags, List.nil_append, List.replicate_append_replicate]
  decide +kernel

/-! ## One block -/

theorem xor_zero (b : GostBlock) : b.xor (.copy []) = b := by
  obtain ⟨bytes, hlen⟩ := b
  match bytes, hlen with
  | [_, _, _, _, _, _, _, _], _ =>
      simp [GostBlock.xor, GostBlock.copy, xorBlock, fit, gostBlockSize, List.replicate_succ]

theorem zero_xor (b : GostBlock) : (GostBlock.copy []).xor b = b := by
  have hcomm : (GostBlock.copy []).xor b = b.xor (.copy []) := by
    unfold GostBlock.xor xorBlock
    congr 1
    exact List.zipWith_comm_of_comm UInt8.xor_comm
  rw [hcomm, xor_zero]

/-- What the finalization of the original engine makes of a string of at most one block: the block, then
    a block of zeros. -/
def engineTag (cipher : Gost28147Cipher) (d : Bytes) : Bytes :=
  (cipher.seqMACBlock ((cipher.seqMACBlock (.copy d)).xor (.copy []))).bytes.take gostMACSize

/-- The tag of a string of at most one block: nothing follows the block. -/
theorem imitTag_short (cipher : Gost28147Cipher) {d : Bytes} (hpos : 1 ≤ d.length)
    (hle : d.length ≤ gostBlockSize) :
    imitTag cipher d = (cipher.seqMACBlock (.copy d)).bytes.take gostMACSize := by
  have hone : (d.length + 7) / gostBlockSize = 1 := by
    simp only [gostBlockSize] at hle ⊢
    omega
  rw [imitTag, hone]
  show (cipher.seqMACBlock ((GostBlock.copy []).xor (.copy d))).bytes.take gostMACSize = _
  rw [zero_xor]

theorem foldl_write_spec {cipher : Gost28147Cipher} {d : Bytes} {m : GostIMIT} (h : Absorbed cipher d m)
    (chunks : List Bytes) : Absorbed cipher (d ++ chunks.flatten) (chunks.foldl GostIMIT.write m) := by
  induction chunks generalizing d m with
  | nil =>
      rw [List.flatten_nil, List.append_nil]
      exact h
  | cons chunk chunks ih =>
      rw [List.flatten_cons, ← List.append_assoc]
      exact ih (write_spec h chunk)

/-- **The block of zeros is missing.** Strings of at most one block get the engine's tag if and only if
    the MAC step, made once more, never changes the first four bytes of its own results. -/
theorem finalize_short_iff (cipher : Gost28147Cipher) :
    (∀ chunks : List Bytes, 1 ≤ chunks.flatten.length → chunks.flatten.length ≤ gostBlockSize →
        (chunks.foldl GostIMIT.write (newGostIMIT cipher)).finalize = engineTag cipher chunks.flatten) ↔
      ∀ b : GostBlock, (cipher.seqMACBlock (cipher.seqMACBlock b)).bytes.take gostMACSize =
        (cipher.seqMACBlock b).bytes.take gostMACSize := by
  have htag : ∀ chunks : List Bytes, 1 ≤ chunks.flatten.length →
      chunks.flatten.length ≤ gostBlockSize →
      (chunks.foldl GostIMIT.write (newGostIMIT cipher)).finalize =
        (cipher.seqMACBlock (.copy chunks.flatten)).bytes.take gostMACSize := by
    intro chunks hpos hle
    rw [finalize_spec (foldl_write_spec (absorbed_nil cipher) chunks), List.nil_append,
      imitTag_short cipher hpos hle]
  constructor
  · intro h b
    -- Every block is a string of eight bytes.
    have hflat : [b.bytes].flatten = b.bytes := List.flatten_singleton
    have hpos : 1 ≤ [b.bytes].flatten.length := by
      rw [hflat, b.length_eq]
      decide
    have hle : [b.bytes].flatten.length ≤ gostBlockSize := by rw [hflat, b.length_eq]
    have heq := (htag [b.bytes] hpos hle).symm.trans (h [b.bytes] hpos hle)
    rw [engineTag, hflat, copy_bytes, xor_zero] at heq
    exact heq.symm
  · intro h chunks hpos hle
    rw [htag chunks hpos hle, engineTag, xor_zero, h]

/-- A cipher whose MAC step shifts a one in. -/
def Sbox.shifting : Sbox := ⟨fun _ b => b, fun _ b => b, fun _ b => .copy (1 :: b.bytes)⟩

/-- The one-byte string `07`: no block of zeros follows its block. -/
theorem finalize_short_zero_block_missing :
    ((newGostIMIT ⟨[], .shifting⟩).write [7]).finalize = [1, 7, 0, 0] ∧
      engineTag ⟨[], .shifting⟩ [7] = [1, 1, 7, 0] ∧
      ((newGostIMIT ⟨[], .shifting⟩).write [7]).finalize ≠ engineTag ⟨[], .shifting⟩ [7] := by
  decide

end Gostls

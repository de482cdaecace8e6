import Gostls.Suites.KeySchedule

/-!
# `Gostls.Suites.Prf` — the PRF is the `P_hash` of RFC 5246

RFC 5246 §5 defines an infinite stream: `A(0)` is the seed, `A(i)` the HMAC of `A(i-1)`, and block `i`
of the output the HMAC of `A(i)` followed by the seed. The code keeps one running `A` and appends
blocks until it has enough.

`PHashRuns` is that loop without a bound on its rounds. A run starts from some `A(i)` and the first `i`
blocks and can only end in more blocks (`PHashRuns.blocks`); for a hash of positive size it does end
(`pHashLoop_runs`). How many blocks it made does not matter behind the cut to `outLen`.
-/

namespace Gostls

open Lib

/-! ## The stream -/

/-- `A(i)` -/
def prfA (newHash : Hash) (secret seed : Bytes) : Nat → Bytes
  | 0     => seed
  | i + 1 => hmac newHash secret (prfA newHash secret seed i)

/-- Block `i` of the stream, counting from zero: `HMAC(secret, A(i + 1) || seed)`. -/
def prfBlock (newHash : Hash) (secret seed : Bytes) (i : Nat) : Bytes :=
  hmac newHash secret (prfA newHash secret seed (i + 1) ++ seed)

/-! ## The loop -/

/-- `for len(out) < outLen { … }`, started on `a` and `out`, ends with `res`. -/
inductive PHashRuns (newHash : Hash) (secret seed : Bytes) (outLen : Nat) : Bytes → Bytes → Bytes → Prop
  | done {a out : Bytes} : ¬ out.length < outLen → PHashRuns newHash secret seed outLen a out out
  | round {a out res : Bytes} : out.length < outLen →
      PHashRuns newHash secret seed outLen (hmac newHash secret a)
        (out ++ hmac newHash secret (hmac newHash secret a ++ seed)) res →
      PHashRuns newHash secret seed outLen a out res

section

variable {h : Hash} {secret seed : Bytes} {outLen : Nat}

theorem prfBlock_length (i : Nat) : (prfBlock h secret seed i).length = h.size := hmac_length ..

/-- A run only makes blocks, and makes enough of them. -/
theorem PHashRuns.blocks {a out res : Bytes} (hrun : PHashRuns h secret seed outLen a out res) {i : Nat}
    (ha : a = prfA h secret seed i) (hout : out = blocks (prfBlock h secret seed) i) :
    ∃ n, res = Lib.blocks (prfBlock h secret seed) n ∧ outLen ≤ res.length := by
  induction hrun generalizing i with
  | done hend => exact ⟨i, hout, Nat.not_lt.mp hend⟩
  | round _ _ ih =>
      -- The round moves `A(i)` to `A(i + 1)` and appends block `i`.
      subst ha hout
      exact ih (i := i + 1) rfl (blocks_succ _ i).symm

/-- **The loop ends**, and the bound on the rounds of `pHashLoop` is not what ends it. -/
theorem pHashLoop_runs (hsize : 0 < h.size) {rounds : Nat} {a out : Bytes}
    (hr : outLen ≤ out.length + rounds) :
    PHashRuns h secret seed outLen a out (pHashLoop h secret seed outLen rounds a out) := by
  induction rounds generalizing a out with
  | zero => exact .done (Nat.not_lt.mpr hr)
  | succ rounds ih =>
      unfold pHashLoop
      by_cases hmore : out.length < outLen
      · rw [if_pos hmore]
        apply PHashRuns.round hmore
        apply ih
        rw [List.length_append, hmac_length]
        omega
      · rw [if_neg hmore]
        exact .done hmore

/-- What the code computes, against the stream. -/
theorem pHash_eq_take (hsize : 0 < h.size) {n : Nat} (hn : outLen ≤ n * h.size) :
    pHash h secret seed outLen = (blocks (prfBlock h secret seed) n).take outLen := by
  have hrun : PHashRuns h secret seed outLen seed []
      (pHashLoop h secret seed outLen outLen seed []) :=
    pHashLoop_runs hsize (by simp)
  obtain ⟨m, hm, henough⟩ := hrun.blocks (i := 0) rfl rfl
  rw [pHash, hm]
  rw [hm] at henough
  apply take_blocks henough
  rw [blocks_length prfBlock_length]
  exact hn

/-- Asking for less gives the front part. -/
theorem pHash_take (hsize : 0 < h.size) {k : Nat} (hk : k ≤ outLen) :
    pHash h secret seed k = (pHash h secret seed outLen).take k := by
  have henough : outLen ≤ outLen * h.size := Nat.le_mul_of_pos_right _ hsize
  rw [pHash_eq_take hsize henough, pHash_eq_take hsize (hk.trans henough), List.take_take,
    Nat.min_eq_left hk]

/-- Without a hash there is nothing to compute with. -/
theorem prf_none {label : Bytes} (hlabel : label ≠ []) (hout : 0 < outLen) :
    prf none secret label seed outLen = .error .panic := by
  have hl : ¬ label.length = 0 := fun h0 => hlabel (List.length_eq_zero_iff.mp h0)
  simp only [prf, if_neg hl, if_neg (Nat.ne_of_gt hout)]
  rfl

theorem prf_some {label : Bytes} (hlabel : label ≠ []) (hout : 0 < outLen) :
    prf (some h) secret label seed outLen = .ok (pHash h secret (label ++ seed) outLen) := by
  have hl : ¬ label.length = 0 := fun h0 => hlabel (List.length_eq_zero_iff.mp h0)
  simp only [prf, if_neg hl, if_neg (Nat.ne_of_gt hout), pure_eq]

end

/-- **The PRF is `P_hash`.** For a hash of positive size, a non-empty label and a positive length, it
    returns exactly `outLen` bytes: the front of the stream of RFC 5246 over `label || seed`, out of any
    number of blocks that is enough. A shorter output is a prefix of a longer one. The loop, with no bound
    on its rounds, ends for every length. -/
theorem prf_eq_p_hash (h : Hash) (secret label seed : Bytes) (outLen : Nat) (hsize : 0 < h.size)
    (hlabel : label ≠ []) (hout : 0 < outLen) :
    ∃ out, prf (some h) secret label seed outLen = .ok out ∧
      out.length = outLen ∧
      (∀ n, outLen ≤ n * h.size →
        out = (blocks (fun i => hmac h secret (prfA h secret (label ++ seed) (i + 1) ++ (label ++ seed)))
          n).take outLen) ∧
      (∀ k, 0 < k → k ≤ outLen → prf (some h) secret label seed k = .ok (out.take k)) ∧
      ∀ len, ∃ res, PHashRuns h secret (label ++ seed) len (label ++ seed) [] res ∧
        pHash h secret (label ++ seed) len = res.take len := by
  refine ⟨_, prf_some hlabel hout, pHash_length hsize .., ?_, ?_, ?_⟩
  · intro n hn
    exact pHash_eq_take hsize hn
  · intro k hpos hk
    rw [prf_some hlabel hpos, pHash_take hsize hk]
  · intro len
    exact ⟨_, pHashLoop_runs hsize (by simp), rfl⟩

/-- Twenty bytes out of a hash of eight: two blocks and a half. -/
theorem prf_eq_p_hash_checksum :
    prf (some .checksum) [1] (utf8 "label") [2, 3] 20 =
      .ok ((blocks (prfBlock .checksum [1] (utf8 "label" ++ [2, 3])) 3).take 20) := by
  obtain ⟨out, hprf, -, hblocks, -⟩ :=
    prf_eq_p_hash .checksum [1] (utf8 "label") [2, 3] 20 (by decide) (by decide) (by decide)
  rw [hprf, hblocks 3 (by decide)]
  rfl

end Gostls

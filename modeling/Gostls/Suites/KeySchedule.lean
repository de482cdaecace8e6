import Gostls.Suites.Suite

/-!
# `Gostls.Suites.KeySchedule` — the PRF and what is derived with it

`pHash` is the loop of the source, bounded by the number of output bytes it is asked for: a hash of
positive size adds at least one byte in every round, so the bound is never what ends it
(`pHash_length`).
-/

namespace Gostls

open Lib

/-! ## The PRF -/

def errEmptyLabel : Err := .new "suites/prf: label must not be empty"
def errZeroLength : Err := .new "suites/prf: requested output length must be greater than zero"
def errInvalidRandomLen : Err := .new "suites/keyschedule: random values must be 32 bytes each"
def errZeroKeyBlock : Err := .new "suites/keyschedule: key block length must be greater than zero"

/-- The loop of `pHash`: `a` is `A(i-1)` and `out` what has been produced. -/
def pHashLoop (newHash : Hash) (secret seed : Bytes) (outLen : Nat) : Nat → Bytes → Bytes → Bytes
  | 0,          _, out => out
  | rounds + 1, a, out =>
    if out.length < outLen then
      let a := hmac newHash secret a
      pHashLoop newHash secret seed outLen rounds a (out ++ hmac newHash secret (a ++ seed))
    else out

/-- `P_hash(secret, seed)`, cut to `outLen` bytes. -/
def pHash (newHash : Hash) (secret seed : Bytes) (outLen : Nat) : Bytes :=
  (pHashLoop newHash secret seed outLen outLen seed []).take outLen

/-- `PRF(secret, label, seed)`; a nil hash factory panics in `hmac.New`. -/
def prf (newHash : Option Hash) (secret label seed : Bytes) (outLen : Nat) : Except Err Bytes := do
  if label.length = 0 then throw errEmptyLabel
  if outLen = 0 then throw errZeroLength
  match newHash with
  | none   => throw .panic
  | some h => return pHash h secret (label ++ seed) outLen

theorem pHashLoop_length {h : Hash} (hsize : 0 < h.size) (secret seed : Bytes) (outLen rounds : Nat)
    (a out : Bytes) (hr : outLen ≤ out.length + rounds) :
    outLen ≤ (pHashLoop h secret seed outLen rounds a out).length := by
  induction rounds generalizing a out with
  | zero => exact hr
  | succ rounds ih =>
      unfold pHashLoop
      split
      · apply ih
        rw [List.length_append, hmac_length]
        omega
      · omega

theorem pHash_length_le (h : Hash) (secret seed : Bytes) (outLen : Nat) :
    (pHash h secret seed outLen).length ≤ outLen := List.length_take_le ..

/-- **The PRF gives as many bytes as are asked for**, for every hash of positive size. -/
theorem pHash_length {h : Hash} (hsize : 0 < h.size) (secret seed : Bytes) (outLen : Nat) :
    (pHash h secret seed outLen).length = outLen := by
  have hle := pHashLoop_length hsize secret seed outLen outLen seed [] (by simp)
  rw [pHash, List.length_take]
  omega

/-! ## Derived secrets -/

def tlsRandomLen : Nat := 32
def tlsMasterSecretLen : Nat := 48

/-- A Go string constant as bytes. -/
def utf8 (s : String) : Bytes := s.toList.map (fun c => UInt8.ofNat c.toNat)

def masterSecret (suite : Suite) (preMaster clientRandom serverRandom : Bytes) :
    Except Err Bytes := do
  if clientRandom.length ≠ tlsRandomLen ∨ serverRandom.length ≠ tlsRandomLen then
    throw errInvalidRandomLen
  prf suite.prf.hash preMaster (utf8 "master secret") (clientRandom ++ serverRandom) tlsMasterSecretLen

/-- The keys of both directions. -/
structure KeyMaterial where
  clientMACKey : Bytes
  serverMACKey : Bytes
  clientEncKey : Bytes
  serverEncKey : Bytes
  clientIV : Bytes
  serverIV : Bytes
  deriving DecidableEq, Repr

/-- CBC suites take no IV from the key block. -/
def isCBC (suite : Suite) : Bool :=
  !suite.cipher.aead && suite.cipher.name ≠ .gost28147CNT &&
    suite.cipher.name ≠ .kuznyechikCTROMAC && suite.cipher.name ≠ .magmaCTROMAC

def keyBlockIVLen (suite : Suite) : Nat := if isCBC suite then 0 else suite.cipher.fixedIVLen

/-- Cut the key block into the six keys, in the order of RFC 5246 §6.3. -/
def splitKeyBlock (keyBlock : Bytes) (macKeyLen encKeyLen ivLen : Nat) : Except Err KeyMaterial := do
  let (clientMACKey, serverMACKey, off) ←
    if macKeyLen > 0 then do
      let client ← slice keyBlock 0 macKeyLen
      let server ← slice keyBlock macKeyLen (macKeyLen + macKeyLen)
      pure (client, server, macKeyLen + macKeyLen)
    else pure ([], [], 0)
  let clientEncKey ← slice keyBlock off (off + encKeyLen)
  let off := off + encKeyLen
  let serverEncKey ← slice keyBlock off (off + encKeyLen)
  let off := off + encKeyLen
  let (clientIV, serverIV) ←
    if ivLen > 0 then do
      let client ← slice keyBlock off (off + ivLen)
      let server ← slice keyBlock (off + ivLen) (off + ivLen + ivLen)
      pure (client, server)
    else pure ([], [])
  return { clientMACKey, serverMACKey, clientEncKey, serverEncKey, clientIV, serverIV }

/-- The six keys, one behind the other, are the key block, and each has its length. -/
structure KeyMaterial.Partitions (km : KeyMaterial) (keyBlock : Bytes) (macKeyLen encKeyLen ivLen : Nat) :
    Prop where
  whole : km.clientMACKey ++ km.serverMACKey ++ km.clientEncKey ++ km.serverEncKey ++ km.clientIV ++
    km.serverIV = keyBlock
  clientMACKey : km.clientMACKey.length = macKeyLen
  serverMACKey : km.serverMACKey.length = macKeyLen
  clientEncKey : km.clientEncKey.length = encKeyLen
  serverEncKey : km.serverEncKey.length = encKeyLen
  clientIV : km.clientIV.length = ivLen
  serverIV : km.serverIV.length = ivLen

/-- **The cuts partition the key block** of the right length. -/
theorem splitKeyBlock_ok {keyBlock : Bytes} {macKeyLen encKeyLen ivLen : Nat}
    (h : keyBlock.length = 2 * macKeyLen + 2 * encKeyLen + 2 * ivLen) :
    ∃ km, splitKeyBlock keyBlock macKeyLen encKeyLen ivLen = .ok km ∧
      km.Partitions keyBlock macKeyLen encKeyLen ivLen := by
  have hlen : ∀ i j, j ≤ keyBlock.length → ((keyBlock.take j).drop i).length = j - i := by
    intro i j hj
    rw [List.length_drop, List.length_take_of_le hj]
  have hempty : ∀ i, (keyBlock.take i).drop i = [] :=
    fun i => List.drop_eq_nil_of_le (List.length_take_le ..)
  -- Where the keys end.
  obtain ⟨o₁, ho₁⟩ : ∃ o, o = macKeyLen + macKeyLen := ⟨_, rfl⟩
  obtain ⟨o₂, ho₂⟩ : ∃ o, o = o₁ + encKeyLen := ⟨_, rfl⟩
  obtain ⟨o₃, ho₃⟩ : ∃ o, o = o₂ + encKeyLen := ⟨_, rfl⟩
  refine ⟨⟨keyBlock.take macKeyLen, (keyBlock.take o₁).drop macKeyLen, (keyBlock.take o₂).drop o₁,
    (keyBlock.take o₃).drop o₂, (keyBlock.take (o₃ + ivLen)).drop o₃,
    (keyBlock.take (o₃ + ivLen + ivLen)).drop (o₃ + ivLen)⟩, ?_, ?_⟩
  · -- A key of no bytes is an empty cut, so the two conditions of the source make no difference.
    unfold splitKeyBlock
    by_cases hmac : macKeyLen > 0
    · by_cases hiv : ivLen > 0
      · simp (disch := omega) only [if_pos hmac, if_pos hiv, ← ho₁, ← ho₂, ← ho₃, slice_eq, ok_bind,
          pure_eq, List.drop_zero]
      · obtain rfl : ivLen = 0 := by omega
        simp (disch := omega) only [if_pos hmac, if_neg hiv, ← ho₁, ← ho₂, ← ho₃, slice_eq, ok_bind,
          pure_eq, List.drop_zero, Nat.add_zero, hempty]
    · obtain rfl : macKeyLen = 0 := by omega
      obtain rfl : o₁ = 0 := ho₁
      by_cases hiv : ivLen > 0
      · simp (disch := omega) only [if_neg hmac, if_pos hiv, ← ho₂, ← ho₃, slice_eq, ok_bind, pure_eq,
          List.take_zero, List.drop_nil]
      · obtain rfl : ivLen = 0 := by omega
        simp (disch := omega) only [if_neg hmac, ← ho₂, ← ho₃, slice_eq, ok_bind, pure_eq,
          List.take_zero, List.drop_nil, Nat.add_zero, hempty]
  · refine ⟨?_, List.length_take_of_le (by omega), ?_, ?_, ?_, ?_, ?_⟩
    · show keyBlock.take macKeyLen ++ (keyBlock.take o₁).drop macKeyLen ++ (keyBlock.take o₂).drop o₁ ++
        (keyBlock.take o₃).drop o₂ ++ (keyBlock.take (o₃ + ivLen)).drop o₃ ++
        (keyBlock.take (o₃ + ivLen + ivLen)).drop (o₃ + ivLen) = keyBlock
      rw [take_append_slice _ (by omega), take_append_slice _ (by omega), take_append_slice _ (by omega),
        take_append_slice _ (by omega), take_append_slice _ (by omega)]
      exact List.take_of_length_le (by omega)
    all_goals
      rw [hlen _ _ (by omega)]
      omega

/-- A shorter key block cannot be cut. -/
theorem splitKeyBlock_length {keyBlock : Bytes} {macKeyLen encKeyLen ivLen : Nat} {km : KeyMaterial}
    (h : splitKeyBlock keyBlock macKeyLen encKeyLen ivLen = .ok km) :
    2 * macKeyLen + 2 * encKeyLen + 2 * ivLen ≤ keyBlock.length := by
  -- The last cut that is made reaches to the end.
  have htail : ∀ off (f : Bytes → Bytes → Bytes → Bytes → KeyMaterial),
      (slice keyBlock off (off + encKeyLen) >>= fun clientEncKey =>
        slice keyBlock (off + encKeyLen) (off + encKeyLen + encKeyLen) >>= fun serverEncKey =>
        if ivLen > 0 then
          slice keyBlock (off + encKeyLen + encKeyLen) (off + encKeyLen + encKeyLen + ivLen) >>= fun c =>
          slice keyBlock (off + encKeyLen + encKeyLen + ivLen)
            (off + encKeyLen + encKeyLen + ivLen + ivLen) >>= fun s => .ok (f clientEncKey serverEncKey c s)
        else .ok (f clientEncKey serverEncKey [] [])) = .ok km →
      off + 2 * encKeyLen + 2 * ivLen ≤ keyBlock.length := by
    intro off f hf
    obtain ⟨_, -, hf⟩ := bind_eq_ok.mp hf
    obtain ⟨_, henc, hf⟩ := bind_eq_ok.mp hf
    by_cases hiv : ivLen > 0
    · rw [if_pos hiv] at hf
      obtain ⟨_, -, hf⟩ := bind_eq_ok.mp hf
      obtain ⟨_, hlast, -⟩ := bind_eq_ok.mp hf
      have hle := (slice_ok hlast).2.1
      omega
    · have hle := (slice_ok henc).2.1
      omega
  simp only [splitKeyBlock, pure_eq, ok_bind] at h
  by_cases hmac : macKeyLen > 0
  · rw [if_pos hmac] at h
    obtain ⟨client, -, h⟩ := bind_eq_ok.mp h
    obtain ⟨server, -, h⟩ := bind_eq_ok.mp h
    have hle := htail (macKeyLen + macKeyLen) (fun ce se ci si => ⟨client, server, ce, se, ci, si⟩) h
    omega
  · rw [if_neg hmac] at h
    have hle := htail 0 (fun ce se ci si => ⟨[], [], ce, se, ci, si⟩) h
    omega

/-- The cuts return no error of their own. -/
theorem splitKeyBlock_panics (keyBlock : Bytes) (macKeyLen encKeyLen ivLen : Nat) :
    Throws (· = .panic) (splitKeyBlock keyBlock macKeyLen encKeyLen ivLen) := by
  have hslice : ∀ i j, Throws (· = .panic) (slice keyBlock i j) := slice_panics keyBlock
  -- Both the MAC keys and the IVs may be missing; the encryption keys are cut in every case.
  simp only [splitKeyBlock, pure_eq, ok_bind]
  refine .ite (.bind (hslice _ _) fun _ => .bind (hslice _ _) fun _ => ?_) ?_
  all_goals
    refine .bind (hslice _ _) fun _ => .bind (hslice _ _) fun _ => .ite ?_ (.ok _)
    exact .bind (hslice _ _) fun _ => .bind (hslice _ _) fun _ => .ok _

def keyExpansion (suite : Suite) (masterSecret clientRandom serverRandom : Bytes) :
    Except Err KeyMaterial := do
  if clientRandom.length ≠ tlsRandomLen ∨ serverRandom.length ≠ tlsRandomLen then
    throw errInvalidRandomLen
  let seed := serverRandom ++ clientRandom
  let macKeyLen := suite.mac.keyLen
  let encKeyLen := suite.cipher.keyLen
  let ivLen := keyBlockIVLen suite
  let totalLen := 2 * macKeyLen + 2 * encKeyLen + 2 * ivLen
  if totalLen = 0 then throw errZeroKeyBlock
  let keyBlock ← prf suite.prf.hash masterSecret (utf8 "key expansion") seed totalLen
  splitKeyBlock keyBlock macKeyLen encKeyLen ivLen

/-! ## Finished -/

/-- The length of `verify_data`. -/
def verifyDataLen (suite : Suite) : Nat := if suite.kx = .gost2018_256 then 32 else 12

def finishedVerifyData (suite : Suite) (masterSecret : Bytes) (label : String)
    (transcriptHash : Bytes) : Except Err Bytes :=
  prf suite.prf.hash masterSecret (utf8 label) transcriptHash (verifyDataLen suite)

def equalVerifyData (a b : Bytes) : Bool := constantTimeCompare a b = 1

theorem equalVerifyData_iff {a b : Bytes} : equalVerifyData a b = true ↔ a = b := by
  simp [equalVerifyData, constantTimeCompare]

end Gostls

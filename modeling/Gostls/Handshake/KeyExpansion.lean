import Gostls.Handshake.Keys
import Gostls.Suites.Prf

/-!
# `Gostls.Handshake.KeyExpansion` — the two key expansions

The key block is expanded by code that exists twice: `KeyExpansion` beside the PRF, and
`expandKeysManual` in the handshake, which takes the IV length from a copy of the rule in `expandKeys`.
Only the second one runs in a handshake; the first one is what the rest of the key schedule is tested
with.

Both are `expansion`, up to the error for a key block of no bytes (`keyExpansion_eq`,
`expandKeysManual_eq`), so what is proved about `expansion` holds of both: its keys are the whole PRF
output, cut in order.
-/

namespace Gostls

open Lib

/-- The length of a suite's key block. -/
def keyBlockLen (suite : Suite) (ivLen : Nat) : Nat :=
  2 * suite.mac.keyLen + 2 * suite.cipher.keyLen + 2 * ivLen

/-- The key block of a suite, cut; `errZero` if it would have no bytes. -/
def expansion (errZero : Err) (suite : Suite) (masterSecret seed : Bytes) (ivLen : Nat) :
    Except Err KeyMaterial :=
  if keyBlockLen suite ivLen = 0 then .error errZero
  else prf suite.prf.hash masterSecret (utf8 "key expansion") seed (keyBlockLen suite ivLen) >>=
    fun keyBlock => splitKeyBlock keyBlock suite.mac.keyLen suite.cipher.keyLen ivLen

section

variable {suite : Suite} {masterSecret clientRandom serverRandom seed : Bytes} {ivLen : Nat}
  {errZero : Err} {km : KeyMaterial}

/-! ## The two copies -/

theorem keyExpansion_eq (hc : clientRandom.length = tlsRandomLen)
    (hs : serverRandom.length = tlsRandomLen) :
    keyExpansion suite masterSecret clientRandom serverRandom =
      expansion errZeroKeyBlock suite masterSecret (serverRandom ++ clientRandom)
        (keyBlockIVLen suite) := by
  have hlen : ¬ (clientRandom.length ≠ tlsRandomLen ∨ serverRandom.length ≠ tlsRandomLen) := by
    rw [not_or, not_not, not_not]
    exact ⟨hc, hs⟩
  simp only [keyExpansion, if_neg hlen]
  rfl

theorem expandKeysManual_eq (hc : clientRandom.length = tlsRandomLen)
    (hs : serverRandom.length = tlsRandomLen) :
    expandKeysManual suite masterSecret clientRandom serverRandom ivLen =
      expansion errKeyExpansionZeroLocal suite masterSecret (serverRandom ++ clientRandom) ivLen := by
  simp only [expandKeysManual, expansion, splitKeyBlock, fit_eq_self hc, fit_eq_self hs, Nat.zero_add,
    pure_eq, ok_bind, throw_eq, error_bind]
  rfl

/-! ## What they compute -/

/-- The error for an empty key block is all that the copies may differ in. -/
theorem expansion_ok_iff {errZero' : Err} :
    expansion errZero suite masterSecret seed ivLen = .ok km ↔
      expansion errZero' suite masterSecret seed ivLen = .ok km := by
  unfold expansion
  by_cases hzero : keyBlockLen suite ivLen = 0
  · rw [if_pos hzero, if_pos hzero]
    exact iff_of_false (fun h => nomatch h) (fun h => nomatch h)
  · rw [if_neg hzero, if_neg hzero]

theorem keyExpansion_label : utf8 "key expansion" ≠ [] := by decide

/-- **An error is returned exactly for an empty key block.** -/
theorem expansion_error_iff (herr : errZero ≠ .panic) :
    (∃ e, e ≠ .panic ∧ expansion errZero suite masterSecret seed ivLen = .error e) ↔
      keyBlockLen suite ivLen = 0 := by
  unfold expansion
  constructor
  · rintro ⟨e, hne, he⟩
    by_contra hzero
    rw [if_neg hzero] at he
    -- What follows the check of the length only ever panics.
    have hpanics : Throws (· = .panic) (prf suite.prf.hash masterSecret (utf8 "key expansion") seed
        (keyBlockLen suite ivLen) >>= fun keyBlock =>
          splitKeyBlock keyBlock suite.mac.keyLen suite.cipher.keyLen ivLen) := by
      refine .bind ?_ fun _ => splitKeyBlock_panics _ _ _ _
      cases suite.prf.hash with
      | none =>
          rw [prf_none keyExpansion_label (Nat.pos_of_ne_zero hzero)]
          exact .error rfl
      | some h =>
          rw [prf_some keyExpansion_label (Nat.pos_of_ne_zero hzero)]
          exact .ok _
    exact hne (hpanics e he)
  · intro hzero
    rw [if_pos hzero]
    exact ⟨errZero, herr, rfl⟩

/-- **With a hash of positive size every other key block is expanded.** -/
theorem expansion_total {h : Hash} (hhash : suite.prf.hash = some h) (hsize : 0 < h.size)
    (hlen : keyBlockLen suite ivLen ≠ 0) :
    ∃ km, expansion errZero suite masterSecret seed ivLen = .ok km := by
  have hblock := pHash_length hsize masterSecret (utf8 "key expansion" ++ seed) (keyBlockLen suite ivLen)
  obtain ⟨km, hkm, -⟩ := splitKeyBlock_ok hblock
  refine ⟨km, ?_⟩
  unfold expansion
  rw [if_neg hlen, hhash, prf_some keyExpansion_label (Nat.pos_of_ne_zero hlen)]
  exact hkm

/-- **The keys are the PRF's output**, cut in order and without a rest. -/
theorem expansion_partitions (hok : expansion errZero suite masterSecret seed ivLen = .ok km) :
    ∃ keyBlock, prf suite.prf.hash masterSecret (utf8 "key expansion") seed (keyBlockLen suite ivLen) =
        .ok keyBlock ∧
      km.Partitions keyBlock suite.mac.keyLen suite.cipher.keyLen ivLen := by
  unfold expansion at hok
  by_cases hzero : keyBlockLen suite ivLen = 0
  · rw [if_pos hzero] at hok
    cases hok
  · rw [if_neg hzero] at hok
    obtain ⟨keyBlock, hprf, hsplit⟩ := bind_eq_ok.mp hok
    refine ⟨keyBlock, hprf, ?_⟩
    -- The PRF gives no more bytes than asked for, and the cuts need all of them.
    have hle : keyBlock.length ≤ keyBlockLen suite ivLen := by
      cases hhash : suite.prf.hash with
      | none =>
          rw [hhash, prf_none keyExpansion_label (Nat.pos_of_ne_zero hzero)] at hprf
          cases hprf
      | some h =>
          rw [hhash, prf_some keyExpansion_label (Nat.pos_of_ne_zero hzero)] at hprf
          cases hprf
          exact pHash_length_le ..
    have hlen : keyBlock.length = keyBlockLen suite ivLen :=
      Nat.le_antisymm hle (splitKeyBlock_length hsplit)
    obtain ⟨km', hkm', hparts⟩ := splitKeyBlock_ok hlen
    rw [hkm'] at hsplit
    cases hsplit
    exact hparts

/-! ## The handshake's use -/

/-- The protectors `expandKeys` returns are built from the keys of `expandKeysManual`. -/
theorem expandKeys_uses {env : Env} {s : ClientState} (hsuite : s.suite = some suite) :
    wp (expandKeys env)
      (fun r _ => ∃ km,
        expandKeysManual suite s.masterSecret s.clientRandom.val s.serverRandom.val
          (expandKeysIVLen suite) = .ok km ∧
        buildProtector env suite km.clientEncKey km.clientMACKey km.clientIV = .ok r.1 ∧
        buildProtector env suite km.serverEncKey km.serverMACKey km.serverIV = .ok r.2)
      (fun _ _ => True) s := by
  have hx : Exits (fun _ _ => True) s := ⟨trivial, fun _ _ => trivial⟩
  unfold expandKeys
  rw [wp_bind]
  apply wp_getSuite_some hsuite
  rw [wp_bind, wp_get, wp_bind]
  apply wp_fatalIf hx
  intro _
  rw [wp_bind]
  apply wp_orFatal_compute hx
  intro km hkm
  rw [wp_bind]
  apply wp_orFatal_compute hx
  intro sendProt hsend
  rw [wp_bind]
  apply wp_orFatal_compute hx
  intro recvProt hrecv
  exact ⟨km, hkm, hsend, hrecv⟩

/-- An empty key block ends the handshake before that. -/
theorem expandKeys_zero {env : Env} {s : ClientState} (hsuite : s.suite = some suite)
    (hzero : keyBlockLen suite (expandKeysIVLen suite) = 0) :
    expandKeys env s =
      .error (errKeyExpansionZero.detail (" " ++ suite.name)) (s.alerted alertInternalError) := by
  have hends : wp (expandKeys env) (fun _ _ => False)
      (fun e s' => e = errKeyExpansionZero.detail (" " ++ suite.name) ∧ s' = s.alerted alertInternalError)
      s := by
    unfold expandKeys
    rw [wp_bind]
    apply wp_getSuite_some hsuite
    rw [wp_bind, wp_get, wp_bind]
    apply wp_check
    · intro _
      exact ⟨rfl, rfl⟩
    · intro hpos
      exact absurd hzero hpos
  cases hrun : expandKeys env s with
  | ok r s' => exact (hends.ok hrun).elim
  | error e s' =>
      obtain ⟨rfl, rfl⟩ := hends.error hrun
      rfl

end

/-- **The two key expansions agree, and partition the key block.** For every suite, master secret and
    pair of randoms, `expandKeysManual` with the IV length that `expandKeys` finds returns the keys
    `KeyExpansion` returns. Either returns an error exactly if the key block would have no bytes, and keys
    otherwise, given a hash of positive size. The keys, in order, are the whole PRF output; each has the
    suite's length, and a CBC suite has no IVs. What a handshake protects its records with is built from
    them. -/
theorem key_expansions_agree (suite : Suite) (masterSecret : Bytes) (clientRandom serverRandom : Random) :
    (∀ km, expandKeysManual suite masterSecret clientRandom.val serverRandom.val (expandKeysIVLen suite) =
        .ok km ↔ keyExpansion suite masterSecret clientRandom.val serverRandom.val = .ok km) ∧
    ((∃ e, e ≠ .panic ∧ expandKeysManual suite masterSecret clientRandom.val serverRandom.val
        (expandKeysIVLen suite) = .error e) ↔ keyBlockLen suite (expandKeysIVLen suite) = 0) ∧
    ((∃ e, e ≠ .panic ∧ keyExpansion suite masterSecret clientRandom.val serverRandom.val = .error e) ↔
      keyBlockLen suite (keyBlockIVLen suite) = 0) ∧
    (∀ h, suite.prf.hash = some h → 0 < h.size → keyBlockLen suite (keyBlockIVLen suite) ≠ 0 →
      ∃ km, keyExpansion suite masterSecret clientRandom.val serverRandom.val = .ok km) ∧
    (∀ km, keyExpansion suite masterSecret clientRandom.val serverRandom.val = .ok km →
      (∃ keyBlock, prf suite.prf.hash masterSecret (utf8 "key expansion")
          (serverRandom.val ++ clientRandom.val) (keyBlockLen suite (keyBlockIVLen suite)) = .ok keyBlock ∧
        km.Partitions keyBlock suite.mac.keyLen suite.cipher.keyLen (keyBlockIVLen suite)) ∧
      (isCBC suite = true → km.clientIV = [] ∧ km.serverIV = [])) ∧
    (∀ env s send recv s', s.suite = some suite → s.masterSecret = masterSecret →
      s.clientRandom = clientRandom → s.serverRandom = serverRandom →
      expandKeys env s = .ok (send, recv) s' →
      ∃ km, keyExpansion suite masterSecret clientRandom.val serverRandom.val = .ok km ∧
        buildProtector env suite km.clientEncKey km.clientMACKey km.clientIV = .ok send ∧
        buildProtector env suite km.serverEncKey km.serverMACKey km.serverIV = .ok recv) ∧
    (∀ env s, s.suite = some suite → keyBlockLen suite (expandKeysIVLen suite) = 0 →
      expandKeys env s = .error (errKeyExpansionZero.detail (" " ++ suite.name))
        (s.alerted alertInternalError)) := by
  have hagree : ∀ km, expandKeysManual suite masterSecret clientRandom.val serverRandom.val
      (expandKeysIVLen suite) = .ok km ↔
      keyExpansion suite masterSecret clientRandom.val serverRandom.val = .ok km := by
    intro km
    rw [expandKeysManual_eq clientRandom.property serverRandom.property,
      keyExpansion_eq clientRandom.property serverRandom.property, expandKeysIVLen_eq]
    exact expansion_ok_iff
  refine ⟨hagree, ?_, ?_, ?_, ?_, ?_, ?_⟩
  · rw [expandKeysManual_eq clientRandom.property serverRandom.property]
    exact expansion_error_iff (by decide)
  · rw [keyExpansion_eq clientRandom.property serverRandom.property]
    exact expansion_error_iff (by decide)
  · intro h hhash hsize hlen
    rw [keyExpansion_eq clientRandom.property serverRandom.property]
    exact expansion_total hhash hsize hlen
  · intro km hkm
    rw [keyExpansion_eq clientRandom.property serverRandom.property] at hkm
    obtain ⟨keyBlock, hprf, hparts⟩ := expansion_partitions hkm
    refine ⟨⟨keyBlock, hprf, hparts⟩, fun hcbc => ?_⟩
    have hnone : keyBlockIVLen suite = 0 := if_pos hcbc
    exact ⟨List.length_eq_zero_iff.mp (hparts.clientIV.trans hnone),
      List.length_eq_zero_iff.mp (hparts.serverIV.trans hnone)⟩
  · rintro env s send recv s' hsuite rfl rfl rfl hrun
    obtain ⟨km, hkm, hsend, hrecv⟩ := (expandKeys_uses hsuite).ok hrun
    exact ⟨km, (hagree km).mp hkm, hsend, hrecv⟩
  · intro env s hsuite hzero
    exact expandKeys_zero hsuite hzero

end Gostls

import Gostls.Handshake.KeyExpansion
import Gostls.Handshake.Protocol

/-!
# `Gostls.Handshake.Keyable` — every registered suite gets its protectors

The lengths of a suite are data of the registry; what keys and IVs a protector takes is checked by its
constructor. `registered_suites_keyable` says that they fit for every suite that can be negotiated: the
key block is cut into keys that the constructors of `buildProtector` accept, in both directions, so that
`expandKeys` never fails. What it takes for granted is that the ciphers accept keys of their own lengths
(`Env.Sound`).
-/

namespace Gostls

open Lib

/-- The primitives accept keys of the lengths they are made for, and the hash functions have an output
    that fits in a record. -/
structure Env.Sound (env : Env) : Prop where
  aes : ∀ key : Bytes, key.length = 16 ∨ key.length = 32 →
    ∃ b, env.newAESCipher key = .ok b ∧ b.blockSize = 16
  gcm : ∀ key : Bytes, key.length = 16 ∨ key.length = 32 → ∃ aead, env.newGCM key = .ok aead
  chacha : ∀ key : Bytes, key.length = chacha20KeySize → ∃ aead, env.newChaCha20Poly1305 key = .ok aead
  sha1 : env.hashes.sha1.size ≤ 64
  sha256 : 0 < env.hashes.sha256.size ∧ env.hashes.sha256.size ≤ 64
  sha384 : 0 < env.hashes.sha384.size ∧ env.hashes.sha384.size ≤ 64
  gostR341194 : 0 < env.hashes.gostR341194.size
  streebog256 : 0 < env.hashes.streebog256.size

/-- The pairs of a cipher and a MAC that suites are registered with. -/
def cipherShapes : List (CipherSpec × MACSpec) :=
  [(specAES128GCM, specNoMAC), (specAES256GCM, specNoMAC), (specCHACHA20POLY1305, specNoMAC),
   (specAES128CBC, specHMACSHA1), (specAES256CBC, specHMACSHA1),
   (specAES128CBC, specHMACSHA256), (specAES256CBC, specHMACSHA256), (specAES256CBC, specHMACSHA384),
   (specGOST28147CNT, specGOST28147IMIT), (specKuznyechikCTROMAC, specKuznyechikOMAC),
   (specMagmaCTROMAC, specMagmaOMAC)]

theorem registry_shapes {h : Hashes} {suite : Suite} (hs : suite ∈ registry h) :
    (suite.cipher, suite.mac) ∈ cipherShapes := by
  have hmem : (suite.cipher, suite.mac) ∈ (registry h).map (fun s => (s.cipher, s.mac)) :=
    List.mem_map_of_mem hs
  -- The implementations of the hash functions do not matter here, so any will do.
  have hall : ∀ x ∈ (registry Env.sample.hashes).map (fun s => (s.cipher, s.mac)), x ∈ cipherShapes := by
    decide
  exact hall _ hmem

/-- The hash of a suite's PRF has an output. -/
theorem registry_hash {env : Env} (henv : env.Sound) {suite : Suite} (hs : suite ∈ registry env.hashes) :
    ∃ hash, suite.prf.hash = some hash ∧ 0 < hash.size := by
  have hmem : suite.prf.hash ∈ (registry env.hashes).map (·.prf.hash) := List.mem_map_of_mem hs
  have hall : ∀ x ∈ (registry env.hashes).map (·.prf.hash), x = some env.hashes.sha256 ∨
      x = some env.hashes.sha384 ∨ x = some env.hashes.gostR341194 ∨ x = some env.hashes.streebog256 := by
    simp [registry, registerGOSTSuites, registerECDHESuites, registerDHERSASuites, registerRSAKxSuites,
      specPRFSHA256, specPRFSHA384, specPRFGOSTR341194, specPRFStreebog256]
  rcases hall _ hmem with h | h | h | h
  · exact ⟨_, h, henv.sha256.1⟩
  · exact ⟨_, h, henv.sha384.1⟩
  · exact ⟨_, h, henv.gostR341194⟩
  · exact ⟨_, h, henv.streebog256⟩

section Constructors

variable {env : Env} {suite : Suite} {encKey macKey iv : Bytes}

theorem newCBCHMACProtector_accepts {newHash : Hash} (henv : env.Sound)
    (henc : encKey.length = 16 ∨ encKey.length = 32) (hsize : newHash.size ≤ 64) :
    ∃ p, newCBCHMACProtector env.newAESCipher newHash encKey macKey = .ok p ∧
      (Protector.cbcHMAC p).Sized := by
  obtain ⟨b, hb, hbs⟩ := henv.aes encKey henc
  unfold newCBCHMACProtector
  split
  · rename_i hnew
    rw [hb] at hnew
    cases hnew
  · rename_i b' hnew
    rw [hb] at hnew
    cases hnew
    refine ⟨_, rfl, ?_, ?_⟩
    · show b.blockSize ≤ 255
      omega
    · show 2 * b.blockSize + newHash.size + 1 ≤ tlsMaxCiphertextOverhead
      rw [hbs, tlsMaxCiphertextOverhead]
      omega

theorem newAEADProtector_accepts {newGCM : Bytes → Except Err AEAD} (hnew : ∃ aead, newGCM encKey = .ok aead)
    (hiv : iv.length = aeadSaltLen) :
    ∃ p, newAEADProtector newGCM encKey iv = .ok p ∧ (Protector.aead p).Sized := by
  obtain ⟨aead, haead⟩ := hnew
  simp only [newAEADProtector, dif_pos hiv, haead]
  exact ⟨_, rfl, trivial⟩

theorem newChaCha20Poly1305Protector_accepts (henv : env.Sound) (henc : encKey.length = chacha20KeySize)
    (hiv : iv.length = chacha20NonceSize) :
    ∃ p, newChaCha20Poly1305Protector env.newChaCha20Poly1305 encKey iv = .ok p ∧
      (Protector.chacha20Poly1305 p).Sized := by
  obtain ⟨aead, haead⟩ := henv.chacha encKey henc
  simp only [newChaCha20Poly1305Protector, henc, ne_eq, not_true_eq_false, if_false, dif_pos hiv, haead]
  exact ⟨_, rfl, trivial⟩

theorem newGOST28147Protector_accepts {sbox : Sbox} (henc : encKey.length = gostKeySize)
    (hmac : macKey.length = gostKeySize) (hiv : iv.length = gostBlockSize) :
    ∃ p, newGOST28147Protector encKey macKey iv sbox = .ok p ∧ (Protector.gost28147 p).Sized := by
  simp only [newGOST28147Protector, henc, hmac, hiv, ne_eq, not_true_eq_false, if_false]
  exact ⟨_, rfl, trivial⟩

theorem checkCTROMACLengths_eq {name : String} {ivLen : Nat} (henc : encKey.length = ctrOMACKeySize)
    (hmac : macKey.length = ctrOMACKeySize) (hiv : iv.length = ivLen) :
    checkCTROMACLengths name ivLen encKey macKey iv = .ok () := by
  simp only [checkCTROMACLengths, henc, hmac, hiv, ne_eq, not_true_eq_false, if_false]

theorem newKuznyechikCTROMACProtector_accepts {c : CtrOmacCipher kuznyechikBlockSize}
    (henc : encKey.length = ctrOMACKeySize) (hmac : macKey.length = ctrOMACKeySize)
    (hiv : iv.length = kuznyechikIVLen) :
    ∃ p, newKuznyechikCTROMACProtector c encKey macKey iv = .ok p ∧ (Protector.ctrOMAC p).Sized := by
  unfold newKuznyechikCTROMACProtector
  split
  · rename_i hcheck
    rw [checkCTROMACLengths_eq henc hmac hiv] at hcheck
    cases hcheck
  · exact ⟨_, rfl, trivial⟩

theorem newMagmaCTROMACProtector_accepts {c : CtrOmacCipher magmaBlockSize}
    (henc : encKey.length = ctrOMACKeySize) (hmac : macKey.length = ctrOMACKeySize)
    (hiv : iv.length = magmaIVLen) :
    ∃ p, newMagmaCTROMACProtector c encKey macKey iv = .ok p ∧ (Protector.ctrOMAC p).Sized := by
  unfold newMagmaCTROMACProtector
  split
  · rename_i hcheck
    rw [checkCTROMACLengths_eq henc hmac hiv] at hcheck
    cases hcheck
  · exact ⟨_, rfl, trivial⟩

/-- A suite's protector is what its constructor returns. -/
theorem buildProtector_of {α : Type} {m : Except Err α} {f : α → Protector}
    (hm : ∃ p, m = .ok p ∧ (f p).Sized)
    (heq : buildProtector env suite encKey macKey iv = m >>= fun p => .ok (f p)) :
    ∃ p, buildProtector env suite encKey macKey iv = .ok p ∧ p.Sized := by
  obtain ⟨p, hp, hsized⟩ := hm
  exact ⟨f p, by rw [heq, hp]; rfl, hsized⟩

/-- **The constructor of a suite accepts keys of the suite's lengths.** -/
theorem buildProtector_ok (henv : env.Sound) (hshape : (suite.cipher, suite.mac) ∈ cipherShapes)
    (henc : encKey.length = suite.cipher.keyLen) (hmac : macKey.length = suite.mac.keyLen)
    (hiv : iv.length = keyBlockIVLen suite) :
    ∃ p, buildProtector env suite encKey macKey iv = .ok p ∧ p.Sized := by
  obtain ⟨id, name, kx, auth, cipher, mac, prf⟩ := suite
  simp only [cipherShapes, List.mem_cons, Prod.mk.injEq, List.not_mem_nil, or_false] at hshape
  rcases hshape with ⟨rfl, rfl⟩ | ⟨rfl, rfl⟩ | ⟨rfl, rfl⟩ | ⟨rfl, rfl⟩ | ⟨rfl, rfl⟩ | ⟨rfl, rfl⟩ |
    ⟨rfl, rfl⟩ | ⟨rfl, rfl⟩ | ⟨rfl, rfl⟩ | ⟨rfl, rfl⟩ | ⟨rfl, rfl⟩
  · exact buildProtector_of (newAEADProtector_accepts (henv.gcm _ (.inl henc)) hiv) rfl
  · exact buildProtector_of (newAEADProtector_accepts (henv.gcm _ (.inr henc)) hiv) rfl
  · exact buildProtector_of (newChaCha20Poly1305Protector_accepts henv henc hiv) rfl
  · exact buildProtector_of (newCBCHMACProtector_accepts henv (.inl henc) henv.sha1) rfl
  · exact buildProtector_of (newCBCHMACProtector_accepts henv (.inr henc) henv.sha1) rfl
  · exact buildProtector_of (newCBCHMACProtector_accepts henv (.inl henc) henv.sha256.2) rfl
  · exact buildProtector_of (newCBCHMACProtector_accepts henv (.inr henc) henv.sha256.2) rfl
  · exact buildProtector_of (newCBCHMACProtector_accepts henv (.inr henc) henv.sha384.2) rfl
  · exact buildProtector_of (newGOST28147Protector_accepts henc hmac hiv) rfl
  · exact buildProtector_of (newKuznyechikCTROMACProtector_accepts henc hmac hiv) rfl
  · exact buildProtector_of (newMagmaCTROMACProtector_accepts henc hmac hiv) rfl

end Constructors

/-- **The key block of a suite is never empty.** -/
theorem keyBlockLen_ne_zero {suite : Suite} (hshape : (suite.cipher, suite.mac) ∈ cipherShapes)
    (ivLen : Nat) : keyBlockLen suite ivLen ≠ 0 := by
  have hpos : ∀ x ∈ cipherShapes, 0 < x.1.keyLen := by decide
  have hkey : 0 < suite.cipher.keyLen := hpos _ hshape
  unfold keyBlockLen
  omega

/-- **Both protectors of a registered suite can be built.** -/
theorem Keyed.protectors_ok {env : Env} (henv : env.Sound) (k : Keyed)
    (hs : k.suite ∈ registry env.hashes) : ∃ sendProt recvProt,
      k.protectors env = .ok (sendProt, recvProt) ∧ sendProt.Sized ∧ recvProt.Sized := by
  have hshape := registry_shapes hs
  obtain ⟨hash, hhash, hsize⟩ := registry_hash henv hs
  obtain ⟨km, hkm⟩ : ∃ km, expansion errKeyExpansionZeroLocal k.suite k.master
      (k.serverRandom.val ++ k.clientRandom.val) (keyBlockIVLen k.suite) = .ok km :=
    expansion_total hhash hsize (keyBlockLen_ne_zero hshape _)
  obtain ⟨_, -, hparts⟩ := expansion_partitions hkm
  obtain ⟨p, hp, hpsized⟩ := buildProtector_ok henv hshape hparts.clientEncKey hparts.clientMACKey
    hparts.clientIV
  obtain ⟨q, hq, hqsized⟩ := buildProtector_ok henv hshape hparts.serverEncKey hparts.serverMACKey
    hparts.serverIV
  refine ⟨p, q, ?_, hpsized, hqsized⟩
  unfold Keyed.protectors
  rw [expandKeysManual_eq k.clientRandom.property k.serverRandom.property, hkm, ok_bind, hp, ok_bind, hq]
  rfl

/-- The protectors of `Keyed` are those that `expandKeys` builds. -/
theorem expandKeys_returns {env : Env} {s : ClientState} {k : Keyed} {sendProt recvProt : Protector}
    (hs : k.suite ∈ registry env.hashes) (hsuite : s.suite = some k.suite)
    (hmaster : s.masterSecret = k.master) (hcr : s.clientRandom = k.clientRandom)
    (hsr : s.serverRandom = k.serverRandom) (hkeys : k.protectors env = .ok (sendProt, recvProt)) :
    expandKeys env s = .ok (sendProt, recvProt) s := by
  obtain ⟨km, hkm, hkeys⟩ := bind_eq_ok.mp hkeys
  obtain ⟨p, hp, hkeys⟩ := bind_eq_ok.mp hkeys
  obtain ⟨q, hq, hkeys⟩ := bind_eq_ok.mp hkeys
  cases hkeys
  have hnonzero := keyBlockLen_ne_zero (registry_shapes hs) (expandKeysIVLen k.suite)
  have hexpand : wp (expandKeys env) (fun r s' => r = (sendProt, recvProt) ∧ s' = s) Never s := by
    unfold expandKeys
    rw [wp_bind]
    apply wp_getSuite_some hsuite
    rw [wp_bind, wp_get, wp_bind]
    apply wp_check (fun hzero => absurd hzero hnonzero)
    intro _
    rw [wp_bind, hmaster, hcr, hsr, expandKeysIVLen_eq, hkm]
    apply wp_of_ok (orFatal_ok rfl)
    rw [wp_bind, hp]
    apply wp_of_ok (orFatal_ok rfl)
    rw [wp_bind, hq]
    apply wp_of_ok (orFatal_ok rfl)
    exact ⟨rfl, rfl⟩
  obtain ⟨_, _, hrun, rfl, rfl⟩ := hexpand.returns
  exact hrun

/-- **Every registered suite gets its protectors.** Whatever was negotiated, once a suite of the registry
    is in place `expandKeys` succeeds and changes nothing: the lengths in the registry are those that the
    constructors of the protectors ask for, in both directions, and what the protectors seal fits in a
    record. -/
theorem registered_suites_keyable (env : Env) (henv : env.Sound) (s : ClientState) (suite : Suite)
    (hs : suite ∈ registry env.hashes) (hsuite : s.suite = some suite) : ∃ sendProt recvProt,
      expandKeys env s = .ok (sendProt, recvProt) s ∧ sendProt.Sized ∧ recvProt.Sized := by
  obtain ⟨p, q, hkeys, hp, hq⟩ :=
    Keyed.protectors_ok henv ⟨⟨suite, s.clientRandom, s.serverRandom⟩, s.masterSecret⟩ hs
  exact ⟨p, q, expandKeys_returns hs hsuite rfl rfl rfl hkeys, hp, hq⟩

/-- The sample environment, with a block cipher. -/
def Env.sampleBlock : Env := { Env.sample with newAESCipher := fun _ => .ok .identity }

theorem Env.sampleBlock_sound : Env.sampleBlock.Sound where
  aes := fun _ _ => ⟨_, rfl, rfl⟩
  gcm := fun _ _ => ⟨_, rfl⟩
  chacha := fun _ _ => ⟨_, rfl⟩
  sha1 := by decide
  sha256 := by decide
  sha384 := by decide
  gostR341194 := by decide
  streebog256 := by decide

/-- A CBC suite. -/
theorem registered_suites_keyable_cbc : ∃ suite sendProt recvProt,
    lookup Env.sampleBlock.hashes 0x0067 = some suite ∧
    expandKeys .sampleBlock { freshClient .sample [] ⟨[], []⟩ ⟨fun _ => .ok 0, 0⟩ none with
      suite := some suite } = .ok (sendProt, recvProt)
        { freshClient .sample [] ⟨[], []⟩ ⟨fun _ => .ok 0, 0⟩ none with suite := some suite } := by
  obtain ⟨suite, hlookup⟩ : ∃ suite, lookup Env.sampleBlock.hashes 0x0067 = some suite := ⟨_, rfl⟩
  obtain ⟨p, q, hkeys, -⟩ := registered_suites_keyable .sampleBlock Env.sampleBlock_sound
    { freshClient .sample [] ⟨[], []⟩ ⟨fun _ => .ok 0, 0⟩ none with suite := some suite } suite
    (lookup_ok hlookup).1 rfl
  exact ⟨suite, p, q, hlookup, hkeys⟩

end Gostls

/-
  `config.py`: what `validate_config` lets through, and the signing key in particular.

  1. **Strict** — `base64_url_decode` accepts exactly the canonical texts, one for each byte string
     (`base64UrlDecode_eq_ok`), and refuses everything else alike.

  2. **The defect** — `validate_config` decodes the same key with the standard library's lenient
     decoder.  It skips foreign characters, takes both alphabets, stops at the padding and drops the
     bits that are left over, so a client can be constructed whose pinned key every verification then
     refuses.  `keyAgreement_iff` counts: 43 characters are read in front of the padding, and the text
     is not the canonical one.
-/

import Bedrock.Python.Base64RoundTrip
import Bedrock.Python.Re
import Bedrock.Protocol.Verify

open Lib.Fallible Bedrock.Python

namespace Bedrock.Protocol

/-! ## The strict decoder -/

/-- The text that goes to the standard library: the padding is put back. -/
def padded (value : Str) : Str := value ++ List.replicate ((4 - value.length % 4) % 4) (chr '=')

/-- The decoder refuses in one way. -/
theorem base64UrlDecode_error {value : Str} {e : Exc} (h : base64UrlDecode value = .error e) :
    ∃ message, e = .bedrockError .invalidPayload message := by
  rcases bind_eq_error.mp h with h | ⟨_, _, h⟩
  · exact ⟨_, (raiseIf_eq_error.mp h).2.symm⟩
  rcases bind_eq_error.mp h with h | ⟨_, _, h⟩
  · exact ⟨_, (raiseIf_eq_error.mp h).2.symm⟩
  split at h
  · rename_i e' he'
    rw [if_pos (urlsafeB64Decode_error he')] at h
    exact ⟨_, (Except.error.inj h).symm⟩
  · rcases bind_eq_error.mp h with h | ⟨_, _, h⟩
    · exact ⟨_, (raiseIf_eq_error.mp h).2.symm⟩
    · cases h

/-- **One text for each byte string**: the unpadded encoding, within the limit. -/
theorem base64UrlDecode_eq_ok {value : Str} {b : Bytes} : base64UrlDecode value = .ok b ↔
    b ≠ [] ∧ value = rstripPad (urlsafeB64Encode b) ∧ value.length ≤ MAX_TRANSPORT_BYTES := by
  constructor
  · intro h
    have hcanon := base64UrlDecode_canonical h
    obtain ⟨_, hlen, _⟩ := bind_eq_ok.mp h
    rw [raiseIf_eq_ok, not_or, not_or] at hlen
    refine ⟨?_, hcanon, not_lt.mp hlen.2.1⟩
    rintro rfl
    exact hlen.1 hcanon
  · -- without padding, the length is that of the sextets: never one more than a multiple of four
    rintro ⟨hne, rfl, hlen⟩
    have hsextets := length_sextets b
    have hpos : 0 < b.length := List.length_pos_iff.mpr hne
    have hcount : (rstripPad (urlsafeB64Encode b)).length = (b.length * 4 + 2) / 3 := by
      rw [rstripPad_encode, List.length_map, hsextets]
    have hguard : ¬ (rstripPad (urlsafeB64Encode b) = [] ∨
        (rstripPad (urlsafeB64Encode b)).length > MAX_TRANSPORT_BYTES ∨
        (rstripPad (urlsafeB64Encode b)).length % 4 = 1) := by
      rintro (hnil | hlong | hone)
      · rw [hnil, List.length_nil] at hcount
        omega
      · omega
      · rw [hcount] at hone
        omega
    -- every character comes from the alphabet of the encoder
    have halphabet : (rstripPad (urlsafeB64Encode b)).all b64Alphabet.contains = true := by
      rw [rstripPad_encode, List.all_eq_true]
      intro c hc
      obtain ⟨v, hv, rfl⟩ := List.mem_map.mp hc
      exact List.contains_iff_mem.mpr (b64Byte_spec (sextets_lt b v hv)).2.2.2.2
    have hpad : rstripPad (urlsafeB64Encode b) ++
        List.replicate ((4 - (rstripPad (urlsafeB64Encode b)).length % 4) % 4) (chr '=') =
          urlsafeB64Encode b := pad_rstripPad b
    rw [base64UrlDecode, raiseIf_neg hguard, ok_bind,
      raiseIf_neg (by rw [halphabet]; decide), ok_bind, hpad, urlsafeB64Decode_encode]
    dsimp only
    rw [raiseIf_neg (not_not.mpr rfl), ok_bind]
    rfl

/-- **The strict decoder accepts exactly the canonical encodings**: it is the inverse of the unpadded
    encoding on the texts within the limit, no two texts are decoded alike, and every other text is
    an invalid payload. -/
theorem base64UrlDecode_canonical_iff (value : Str) :
    (∀ b, base64UrlDecode value = .ok b ↔
      b ≠ [] ∧ value = rstripPad (urlsafeB64Encode b) ∧ value.length ≤ MAX_TRANSPORT_BYTES) ∧
    (∀ e, base64UrlDecode value = .error e → ∃ message, e = .bedrockError .invalidPayload message) ∧
    (∀ b, b ≠ [] → (rstripPad (urlsafeB64Encode b)).length ≤ MAX_TRANSPORT_BYTES →
      base64UrlDecode (rstripPad (urlsafeB64Encode b)) = .ok b) ∧
    ∀ b value', base64UrlDecode value = .ok b → base64UrlDecode value' = .ok b → value' = value := by
  refine ⟨fun b => base64UrlDecode_eq_ok, fun e => base64UrlDecode_error, ?_, ?_⟩
  · intro b hne hlen
    exact base64UrlDecode_eq_ok.mpr ⟨hne, rfl, hlen⟩
  · intro b value' h h'
    rw [base64UrlDecode_canonical h, base64UrlDecode_canonical h']

/-! ## `validate_config` -/

/-- `[A-Za-z0-9]`. -/
def isSystemIdChar (c : CodePoint) : Bool :=
  (65 ≤ c.val && c.val ≤ 90) || (97 ≤ c.val && c.val ≤ 122) || (48 ≤ c.val && c.val ≤ 57)

/-- `_SYSTEM_ID_PATTERN.match(system_id)`, the pattern `^[A-Za-z0-9]{20}$`. -/
def matchesSystemId (systemId : Str) : Bool :=
  (beforeNewline systemId).length == 20 && (beforeNewline systemId).all isSystemIdChar

/-- The bytes that `validate_config` takes the key for: none where the decoder raises. -/
def configuredKey (signingPublicKey : Str) : Except Exc Bytes :=
  match urlsafeB64Decode (padded signingPublicKey) with
  | .error e => if e.isValueError then .ok [] else .error e
  | .ok decoded => .ok decoded

/-- `validate_config`; the mode of the HWID is used nowhere else in the model. -/
def validateConfig (hwidMode : Str) (config : Config) : Except Exc Unit := do
  raiseIf (hwidMode ∉ [str "legacy", str "sl-hwid"])
    (bedrock .configuration "HWID mode must be \"legacy\" or \"sl-hwid\".")
  raiseIf (matchesSystemId config.systemId = false)
    (bedrock .configuration "System ID must be exactly 20 alphanumeric characters.")
  raiseIf (¬ (25 ≤ config.beatRateSeconds ∧ config.beatRateSeconds ≤ 3600))
    (bedrock .configuration "Bedrock heartbeat interval must be from 25 through 3600 seconds.")
  raiseIf ((str "https://").isPrefixOf config.baseUrl = false)
    (bedrock .configuration "Bedrock base URL must use HTTPS.")
  raiseIf (¬ (0 < config.maxServerClockSkewSeconds ∧ config.maxServerClockSkewSeconds ≤ 3600))
    (bedrock .configuration
      "Bedrock clock-skew allowance must be greater than zero and no more than one hour.")
  let decoded ← configuredKey config.signingPublicKey
  raiseIf (config.signingPublicKey = [] ∨ decoded.length ≠ 32)
    (bedrock .configuration "The Bedrock public key must decode to exactly 32 bytes.")

/-- A configuration is accepted when each of its fields passes its own check. -/
theorem validateConfig_eq_ok {hwidMode : Str} {config : Config} :
    validateConfig hwidMode config = .ok () ↔
      hwidMode ∈ [str "legacy", str "sl-hwid"] ∧ matchesSystemId config.systemId = true ∧
      (25 ≤ config.beatRateSeconds ∧ config.beatRateSeconds ≤ 3600) ∧
      (str "https://").isPrefixOf config.baseUrl = true ∧
      (0 < config.maxServerClockSkewSeconds ∧ config.maxServerClockSkewSeconds ≤ 3600) ∧
      config.signingPublicKey ≠ [] ∧
      ∃ key, urlsafeB64Decode (padded config.signingPublicKey) = .ok key ∧ key.length = 32 := by
  -- a key that does not decode counts as an empty one, which the length check refuses
  have hkey : (∃ decoded, configuredKey config.signingPublicKey = .ok decoded ∧ decoded.length = 32) ↔
      ∃ key, urlsafeB64Decode (padded config.signingPublicKey) = .ok key ∧ key.length = 32 := by
    unfold configuredKey
    cases hd : urlsafeB64Decode (padded config.signingPublicKey) with
    | error e =>
      dsimp only
      rw [if_pos (urlsafeB64Decode_error hd)]
      constructor
      · rintro ⟨decoded, h, hlen⟩
        obtain rfl := Except.ok.inj h
        cases hlen
      · rintro ⟨key, h, _⟩
        cases h
    | ok key => exact Iff.rfl
  rw [← hkey]
  constructor
  · intro h
    obtain ⟨_, h₁, h⟩ := bind_eq_ok.mp h
    obtain ⟨_, h₂, h⟩ := bind_eq_ok.mp h
    obtain ⟨_, h₃, h⟩ := bind_eq_ok.mp h
    obtain ⟨_, h₄, h⟩ := bind_eq_ok.mp h
    obtain ⟨_, h₅, h⟩ := bind_eq_ok.mp h
    obtain ⟨decoded, h₆, h₇⟩ := bind_eq_ok.mp h
    rw [raiseIf_eq_ok] at h₁ h₂ h₃ h₄ h₅ h₇
    rw [not_or, not_not] at h₇
    exact ⟨not_not.mp h₁, eq_true_of_ne_false h₂, not_not.mp h₃, eq_true_of_ne_false h₄,
      not_not.mp h₅, h₇.1, decoded, h₆, h₇.2⟩
  · rintro ⟨h₁, h₂, h₃, h₄, h₅, hne, decoded, h₆, h₇⟩
    rw [validateConfig, raiseIf_neg (not_not.mpr h₁), ok_bind, raiseIf_neg (by rw [h₂]; decide), ok_bind,
      raiseIf_neg (not_not.mpr h₃), ok_bind, raiseIf_neg (by rw [h₄]; decide), ok_bind,
      raiseIf_neg (not_not.mpr h₅), ok_bind, h₆, ok_bind, raiseIf_neg]
    rintro (hnil | hlen)
    · exact hne hnil
    · exact hlen h₇

/-! ## The pinned key -/

/-- What is read of a text in front of its padding, by the count: `none` where the decoder raises. -/
def keyChars (value : Str) : Option Nat :=
  if isAscii (padded value) then dataChars 0 0 ((padded value).map fun c => UInt8.ofNat c.val) else none

/-- The characters whose last two bits are zero. -/
def evenChars : Str := str "AEIMQUYcgkosw048"

/-- The unpadded base64url text of 32 bytes. -/
structure CanonicalKey (value : Str) : Prop where
  /-- 43 characters, without padding. -/
  length : value.length = 43
  alphabet : ∀ c ∈ value, c ∈ b64Alphabet
  /-- The two bits beyond the 32nd byte are zero. -/
  last : ∃ c ∈ evenChars, value.getLast? = some c

/-- **The lenient decoder gives 32 bytes** exactly where it counts 43 characters. -/
theorem urlsafeB64Decode_key {value : Str} :
    (∃ key, urlsafeB64Decode (padded value) = .ok key ∧ key.length = 32) ↔ keyChars value = some 43 := by
  unfold urlsafeB64Decode keyChars
  by_cases hascii : isAscii (padded value) = true
  · -- from here on only the count of alphabet characters matters, not the bytes
    rw [encodeAscii_ok hascii, if_pos hascii]
    dsimp only
    obtain ⟨hok, herr⟩ := a2bBase64_length ((padded value).map fun c => UInt8.ofNat c.val) 0 0 0
    constructor
    · rintro ⟨key, hkey, hlen⟩
      obtain ⟨m, hm, hcount⟩ := hok key hkey
      rw [hm, show m = 43 by omega]
    · intro hm
      cases hkey : a2bBase64 0 0 0 ((padded value).map fun c => UInt8.ofNat c.val) with
      | error e =>
        rw [herr e hkey] at hm
        cases hm
      | ok key =>
        obtain ⟨m, hm', hcount⟩ := hok key hkey
        obtain rfl := Option.some.inj (hm.symm.trans hm')
        exact ⟨key, rfl, by omega⟩
  · -- a key with a character outside of ASCII raises, and has no count
    rw [encodeAscii, if_neg hascii, if_neg hascii]
    constructor
    · rintro ⟨key, hkey, _⟩
      cases hkey
    · intro h
      cases h

/-- The last group of two bytes over leaves two zero bits. -/
theorem sextets_getLast {b : Bytes} (h : b.length % 3 = 2) :
    ∃ k < 16, (sextets b).getLast? = some (k * 4) := by
  induction b using sextets.induct with
  | case1 => cases h
  | case2 a => cases h
  | case3 a b =>
    refine ⟨b.toNat % 16, Nat.mod_lt _ (by omega), ?_⟩
    rw [sextets]
    rfl
  | case4 a b c rest ih =>
    have hrest : rest.length % 3 = 2 := by
      simp only [List.length_cons] at h
      omega
    obtain ⟨k, hk, hlast⟩ := ih hrest
    refine ⟨k, hk, ?_⟩
    have hne : sextets rest ≠ [] := fun hnil => by
      rw [hnil] at hlast
      cases hlast
    rw [sextets, List.getLast?_cons_of_ne_nil (by simp), List.getLast?_cons_of_ne_nil (by simp),
      List.getLast?_cons_of_ne_nil (by simp), List.getLast?_cons_of_ne_nil hne]
    exact hlast

/-- Values that leave two zero bits in a group of three are those of a byte string. -/
theorem exists_sextets : ∀ (n : Nat) (vs : List Nat), vs.length = 4 * n + 3 → (∀ v ∈ vs, v < 64) →
    (∃ k, vs.getLast? = some (k * 4)) → ∃ b, sextets b = vs := by
  have hval : ∀ n, n < 256 → (UInt8.ofNat n).toNat = n := fun n hn => by
    rw [UInt8.toNat_ofNat']
    omega
  intro n
  -- over the groups of four; the last group has three digits, and the last digit two unused bits
  induction n with
  | zero =>
    intro vs hlen hlt hlast
    obtain ⟨x, y, z, rfl⟩ := List.length_eq_three.mp hlen
    have hx := hlt x (by simp)
    have hy := hlt y (by simp)
    have hz := hlt z (by simp)
    obtain ⟨k, hk⟩ := hlast
    obtain rfl : z = k * 4 := Option.some.inj hk
    refine ⟨[UInt8.ofNat (x * 4 + y / 16), UInt8.ofNat (y % 16 * 16 + k)], ?_⟩
    rw [sextets, hval _ (by omega), hval _ (by omega)]
    congr 1
    · omega
    congr 1
    · omega
    congr 1
    omega
  | succ n ih =>
    intro vs hlen hlt hlast
    obtain ⟨w, x, y, z, rest, rfl⟩ : ∃ w x y z rest, vs = w :: x :: y :: z :: rest := by
      rcases vs with _ | ⟨w, _ | ⟨x, _ | ⟨y, _ | ⟨z, rest⟩⟩⟩⟩
      iterate 4 simp only [List.length_cons, List.length_nil] at hlen; omega
      exact ⟨w, x, y, z, rest, rfl⟩
    have hw := hlt w (by simp)
    have hx := hlt x (by simp)
    have hy := hlt y (by simp)
    have hz := hlt z (by simp)
    have hrest : rest.length = 4 * n + 3 := by
      simp only [List.length_cons] at hlen
      omega
    have hne : rest ≠ [] := fun hnil => by
      rw [hnil] at hrest
      cases hrest
    rw [List.getLast?_cons_of_ne_nil (by simp), List.getLast?_cons_of_ne_nil (by simp),
      List.getLast?_cons_of_ne_nil (by simp), List.getLast?_cons_of_ne_nil hne] at hlast
    obtain ⟨b, hb⟩ := ih rest hrest (fun v hv => hlt v (by simp [hv])) hlast
    refine ⟨UInt8.ofNat (w * 4 + x / 16) :: UInt8.ofNat (x % 16 * 16 + y / 4) ::
      UInt8.ofNat (y % 4 * 64 + z) :: b, ?_⟩
    rw [sextets, hval _ (by omega), hval _ (by omega), hval _ (by omega), hb]
    congr 1
    · omega
    congr 1
    · omega
    congr 1
    · omega
    congr 1
    omega

/-- Every character of the alphabet has a value. -/
theorem exists_b64Char : ∀ {value : Str}, (∀ c ∈ value, c ∈ b64Alphabet) →
    ∃ vs : List Nat, (∀ v ∈ vs, v < 64) ∧ vs.map b64Char = value := by
  have hchar : ∀ c ∈ b64Alphabet, ∃ v < 64, b64Char v = c := by
    intro c hc
    have hcount : b64Alphabet.length = 64 := by decide +kernel
    obtain ⟨v, hv, rfl⟩ := List.getElem_of_mem hc
    exact ⟨v, by omega, getElem!_pos b64Alphabet v hv⟩
  intro value
  induction value with
  | nil => intro _; exact ⟨[], fun v hv => absurd hv List.not_mem_nil, rfl⟩
  | cons c value ih =>
    intro h
    obtain ⟨v, hv, rfl⟩ := hchar c (h c List.mem_cons_self)
    obtain ⟨vs, hvs, rfl⟩ := ih fun c' hc' => h c' (List.mem_cons_of_mem _ hc')
    refine ⟨v :: vs, fun v' hv' => ?_, rfl⟩
    rcases List.mem_cons.mp hv' with rfl | hv'
    · exact hv
    · exact hvs v' hv'

/-- **The strict decoder gives 32 bytes** exactly on the canonical keys. -/
theorem base64UrlDecode_key {value : Str} :
    (∃ key, base64UrlDecode value = .ok key ∧ key.length = 32) ↔ CanonicalKey value := by
  -- unused bits that are zero: the sextet is a multiple of four
  have heven : ∀ v < 64, b64Char v ∈ evenChars ↔ v % 4 = 0 := by
    have htable : ∀ v : Fin 64, b64Char v ∈ evenChars ↔ v.val % 4 = 0 := by decide +kernel
    exact fun v hv => htable ⟨v, hv⟩
  constructor
  · rintro ⟨key, hkey, hlen⟩
    obtain ⟨_, rfl, _⟩ := base64UrlDecode_eq_ok.mp hkey
    obtain ⟨k, hk, hlast⟩ := sextets_getLast (b := key) (by omega)
    rw [rstripPad_encode]
    refine ⟨?_, ?_, b64Char (k * 4), (heven _ (by omega)).mpr (by omega), ?_⟩
    · rw [List.length_map, length_sextets, hlen]
    · intro c hc
      obtain ⟨v, hv, rfl⟩ := List.mem_map.mp hc
      exact (b64Byte_spec (sextets_lt key v hv)).2.2.2.2
    · rw [List.getLast?_map, hlast]
      rfl
  · -- a canonical key is the encoding of some bytes, so it decodes to them
    rintro ⟨hlen, halphabet, c, hc, hlast⟩
    obtain ⟨vs, hvs, rfl⟩ := exists_b64Char halphabet
    rw [List.length_map] at hlen
    rw [List.getLast?_map] at hlast
    obtain ⟨v, hv, rfl⟩ := Option.map_eq_some_iff.mp hlast
    have hzero := (heven v (hvs v (List.mem_of_getLast? hv))).mp hc
    obtain ⟨key, hkey⟩ := exists_sextets 10 vs hlen hvs ⟨v / 4, by rw [hv, Nat.div_mul_cancel (by omega)]⟩
    have hcount := length_sextets key
    rw [hkey, hlen] at hcount
    refine ⟨key, base64UrlDecode_eq_ok.mpr ⟨?_, ?_, ?_⟩, by omega⟩
    · rintro rfl
      rw [List.length_nil] at hcount
      omega
    · rw [rstripPad_encode, hkey]
    · rw [List.length_map, hlen]
      decide

/-- **The two decoders agree on the key `s`**, whatever the other fields are, as long as they pass:
    the configuration is accepted exactly if the strict decoder gives 32 bytes, and then no
    verification trips over the pinned key, which is the one the configuration was checked with. -/
def KeyAgreement (s : Str) : Prop :=
  ∀ (hwidMode : Str) (config : Config),
    (∃ key, validateConfig hwidMode { config with signingPublicKey := key } = .ok ()) →
    (validateConfig hwidMode { config with signingPublicKey := s } = .ok () ↔
      ∃ key, base64UrlDecode s = .ok key ∧ key.length = 32) ∧
    (validateConfig hwidMode { config with signingPublicKey := s } = .ok () →
      ∃ key, pinnedKey { config with signingPublicKey := s } = .ok key ∧ configuredKey s = .ok key)

/-- With the other fields valid, the key decides. -/
theorem validateConfig_key {hwidMode : Str} {config : Config}
    (hvalid : ∃ key, validateConfig hwidMode { config with signingPublicKey := key } = .ok ()) (s : Str) :
    validateConfig hwidMode { config with signingPublicKey := s } = .ok () ↔ keyChars s = some 43 := by
  obtain ⟨key, hkey⟩ := hvalid
  obtain ⟨h₁, h₂, h₃, h₄, h₅, _⟩ := validateConfig_eq_ok.mp hkey
  rw [validateConfig_eq_ok, ← urlsafeB64Decode_key]
  constructor
  · rintro ⟨_, _, _, _, _, _, h⟩
    exact h
  · intro h
    refine ⟨h₁, h₂, h₃, h₄, h₅, ?_, h⟩
    rintro hnil
    rw [urlsafeB64Decode_key, show s = [] from hnil] at h
    exact absurd h (by decide +kernel)

theorem pinnedKey_ok {config : Config} {key : Bytes} (h : base64UrlDecode config.signingPublicKey = .ok key)
    (hlen : key.length = 32) : pinnedKey config = .ok key := by
  rw [pinnedKey, h]
  exact if_neg (not_not.mpr hlen)

/-- A canonical key is read alike by both decoders. -/
theorem CanonicalKey.decoded {s : Str} (h : CanonicalKey s) : ∃ key, base64UrlDecode s = .ok key ∧
    key.length = 32 ∧ urlsafeB64Decode (padded s) = .ok key := by
  obtain ⟨key, hkey, hlen⟩ := base64UrlDecode_key.mpr h
  refine ⟨key, hkey, hlen, ?_⟩
  obtain ⟨_, hs, _⟩ := base64UrlDecode_eq_ok.mp hkey
  have hpad : padded s = urlsafeB64Encode key := by
    rw [hs]
    exact pad_rstripPad key
  rw [hpad, urlsafeB64Decode_encode]

/-- **When configuration and verification agree on a key**: unless 43 characters are read of a text that
    is not the canonical one. -/
theorem keyAgreement_iff (s : Str) : KeyAgreement s ↔ (keyChars s = some 43 → CanonicalKey s) := by
  constructor
  · intro hagree hcount
    have hvalid : ∃ key, validateConfig (str "sl-hwid") { sampleConfig with signingPublicKey := key } =
        .ok () := ⟨samplePublicKey, by decide +kernel⟩
    obtain ⟨hiff, _⟩ := hagree _ _ hvalid
    exact base64UrlDecode_key.mp (hiff.mp ((validateConfig_key hvalid s).mpr hcount))
  · intro hcanon hwidMode config hvalid
    rw [validateConfig_key hvalid, base64UrlDecode_key]
    constructor
    · constructor
      · exact hcanon
      · intro h
        obtain ⟨key, _, hlen, hdecode⟩ := h.decoded
        exact urlsafeB64Decode_key.mp ⟨key, hdecode, hlen⟩
    · intro hcount
      obtain ⟨key, hkey, hlen, hdecode⟩ := (hcanon hcount).decoded
      refine ⟨key, pinnedKey_ok hkey hlen, ?_⟩
      rw [configuredKey, hdecode]

/-- **A padded key is accepted and never works**: the client is constructed, and every signed response
    ends in a configuration error. -/
theorem paddedKey_not_keyAgreement :
    validateConfig (str "sl-hwid")
      { sampleConfig with signingPublicKey := urlsafeB64Encode (List.replicate 32 7) } = .ok () ∧
    pinnedKey { sampleConfig with signingPublicKey := urlsafeB64Encode (List.replicate 32 7) } =
      .error keyError ∧ ¬ KeyAgreement (urlsafeB64Encode (List.replicate 32 7)) := by
  have haccepted : validateConfig (str "sl-hwid")
      { sampleConfig with signingPublicKey := urlsafeB64Encode (List.replicate 32 7) } = .ok () := by
    decide +kernel
  have hpinned : pinnedKey { sampleConfig with
      signingPublicKey := urlsafeB64Encode (List.replicate 32 7) } = .error keyError := by decide +kernel
  refine ⟨haccepted, hpinned, fun hagree => ?_⟩
  obtain ⟨_, hworks⟩ := hagree (str "sl-hwid") sampleConfig ⟨_, haccepted⟩
  obtain ⟨key, hkey, _⟩ := hworks haccepted
  rw [hpinned] at hkey
  cases hkey

end Bedrock.Protocol

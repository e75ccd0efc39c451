/-
  `response.py`, `transport.py` and `config.py`: what the client exchanges with the server, and what
  it is configured with.

  1. **Codes** — the table of response codes and the flags each of them implies.

  2. **Transport** — an `HTTPResponse` is the outcome of one exchange, an error text included; its
     header names are already in lowercase, as `HTTPResponse.__init__` leaves them.  `postForm`
     encodes its form BEFORE the exchange and outside of any `try`: a form value with a lone
     surrogate raises.

  3. **Config** — the fields the protocol reads.  The beat rate is a rational here: the only uses of
     the float are `int(..)` and a wait.
-/
import Bedrock.Python.Json
import Bedrock.Python.Hash

open Lib.Fallible Bedrock.Python

namespace Bedrock.Protocol

/-! ## Response codes -/

/-- `RESPONSE_CODES`: every code the protocol has. -/
def RESPONSE_CODES : List Str := [
  str "OK", str "OUTDATED", str "MISSING_FIELD", str "INVALID_REQUEST", str "INVALID_SYSTEM",
  str "INVALID_CREDENTIALS", str "GOOGLE_SSO_REQUIRED", str "USER_NOT_VERIFIED",
  str "INVALID_KEY", str "KEY_FROZEN",
  str "HWID_BANNED", str "HWID_MISMATCH", str "SPOOF_SUSPECTED", str "SYSTEM_PAUSED",
  str "PLAN_INACTIVE", str "PRODUCTION_AUTH_UNAVAILABLE", str "USER_LIMIT_REACHED",
  str "EXPIRED_KEY", str "PROGRAM_DIGEST_MISMATCH", str "INVALID_BEATRATE",
  str "NO_ACTIVE_SIGNING_KEY", str "INVALID_SESSION", str "SESSION_TERMINATED",
  str "STALE_SESSION", str "HEARTBEAT_TOO_EARLY", str "HEARTBEAT_VARIANCE_EXCEEDED",
  str "SIGNING_KEY_REVOKED", str "CONCURRENT_HEARTBEAT", str "INTERNAL_ERROR"]

/-- `FAILURE_CODES`: the codes of a request that the server could not deal with. -/
def FAILURE_CODES : List Str := [
  str "MISSING_FIELD", str "INVALID_REQUEST", str "INVALID_SYSTEM", str "SYSTEM_PAUSED",
  str "PLAN_INACTIVE", str "PRODUCTION_AUTH_UNAVAILABLE", str "PROGRAM_DIGEST_MISMATCH",
  str "INVALID_BEATRATE", str "NO_ACTIVE_SIGNING_KEY", str "INTERNAL_ERROR"]

/-- `response_code_is_known`. -/
def responseCodeIsKnown (code : Str) : Bool := RESPONSE_CODES.contains code

/-- What `authenticated` must be in a response with this code. -/
def expectedAuthenticated (code : Str) : Bool := code = str "OK" || code = str "OUTDATED"

/-- What `failure` must be. -/
def expectedFailure (code : Str) : Bool := FAILURE_CODES.contains code

/-- What `error` must be: everything but success and the expected failures is one. -/
def expectedError (code : Str) : Bool := code ≠ str "OK" && !FAILURE_CODES.contains code

theorem failure_codes_known : ∀ code ∈ FAILURE_CODES, responseCodeIsKnown code = true := by
  decide +kernel

/-- No code is both an error and a failure, and an authenticated one is no failure. -/
theorem expected_exclusive (code : Str) :
    ¬(expectedError code = true ∧ expectedFailure code = true) ∧
      ¬(expectedAuthenticated code = true ∧ expectedFailure code = true) := by
  constructor
  · rintro ⟨herror, hfailure⟩
    rw [expectedError, Bool.and_eq_true, Bool.not_eq_true'] at herror
    rw [expectedFailure, herror.2] at hfailure
    cases hfailure
  · rintro ⟨hauthed, hfailure⟩
    rw [expectedAuthenticated, Bool.or_eq_true, decide_eq_true_eq, decide_eq_true_eq] at hauthed
    rcases hauthed with rfl | rfl
    · revert hfailure
      decide +kernel
    · revert hfailure
      decide +kernel

/-- Dictionaries are compared by their entries, so that the comparison evaluates. -/
instance {β : Type} [DecidableEq β] : DecidableEq (Dict β) := fun d d' =>
  decidable_of_iff (d.entries = d'.entries) AList.ext_iff.symm

/-- A response payload that passed every check. -/
structure Response where
  code : Str
  humanResponse : Str
  isError : Bool
  isFailure : Bool
  authed : Bool
  protocolVersion : Str
  keyId : Option Str
  system : Str
  challenge : Str
  serverTime : Int
  humanTime : Str
  sessionToken : Option Str
  licenseKeyHash : Option Str
  usernameHash : Option Str
  terminationMessage : Option Str
  ssoUrl : Option Str
  invisibleFolderToken : Option Str
  /-- A variable's value, or `none` where the server reports it absent. -/
  responseVariables : Dict (Option Str)
  deriving DecidableEq

/-! ## Transport -/

/-- The outcome of one exchange. -/
structure HTTPResponse where
  status : Int
  body : Bytes
  headers : Dict Str
  error : Str
  deriving DecidableEq

/-- `ok`: an exchange without an error of its own and with a status of the two hundreds. -/
def HTTPResponse.ok (r : HTTPResponse) : Bool := r.error = [] && 200 ≤ r.status && r.status < 300

/-- `r.header(name)` for a name in lowercase. -/
def HTTPResponse.header (r : HTTPResponse) (name : Str) : Str := r.headers.get name

/-- A form value: one string, or a sequence of them under one key. -/
inductive FormValue
  | text (s : Str)
  | texts (items : List Str)
  deriving DecidableEq

/-- The `dict` that is posted, in its order. -/
abbrev Form := List (Str × FormValue)

/-- A byte `quote` leaves as it is. -/
def isUnreserved (b : UInt8) : Bool :=
  let n := b.toNat
  (65 ≤ n && n ≤ 90) || (97 ≤ n && n ≤ 122) || (48 ≤ n && n ≤ 57) || n = 95 || n = 46 || n = 45 ||
    n = 126

/-- The uppercase hexadecimal digit of a value below 16. -/
def upperHex (n : Nat) : UInt8 := UInt8.ofNat (if n < 10 then 48 + n else 55 + n)

/-- `quote_plus(s)`, as the bytes it is sent as. -/
def quotePlus (s : Str) : Except Exc Bytes := do
  let b ← encodeUtf8 s
  return b.flatMap fun x =>
    if x.toNat = 32 then [43]
    else if isUnreserved x then [x]
    else [37, upperHex (x.toNat / 16), upperHex (x.toNat % 16)]

/-- The pairs of `_encode_form`: a sequence repeats its key. -/
def formPairs (form : Form) : List (Str × Str) :=
  form.flatMap fun field =>
    match field.2 with
    | .text s => [(field.1, s)]
    | .texts items => items.map fun item => (field.1, item)

/-- `key=value`. -/
def encodePair (pair : Str × Str) : Except Exc Bytes := do
  let key ← quotePlus pair.1
  let value ← quotePlus pair.2
  return key ++ [61] ++ value

/-- `HTTPClient._encode_form`. -/
def encodeForm (form : Form) : Except Exc Bytes := do
  let pairs ← (formPairs form).mapM encodePair
  return List.intercalate [38] pairs

/-- `HTTPClient.post_form`, given what the exchange comes to once it is made. -/
def postForm (form : Form) (outcome : HTTPResponse) : Except Exc HTTPResponse := do
  let _ ← encodeForm form
  return outcome

/-- ASCII text has no surrogates. -/
theorem canEncode_of_isAscii {s : Str} (h : isAscii s = true) : CanEncode s := by
  intro c hc
  have := isAscii_iff.mp h c hc
  rw [isSurrogate, Bool.and_eq_false_iff, decide_eq_false_iff_not]
  exact Or.inl (by omega)

theorem quotePlus_ok {s : Str} (h : CanEncode s) : ∃ b, quotePlus s = .ok b := by
  obtain ⟨b, hb⟩ := encodeUtf8_ok h
  exact ⟨_, by rw [quotePlus, hb]; rfl⟩

theorem quotePlus_eq_ok {s : Str} {b : Bytes} (h : quotePlus s = .ok b) : CanEncode s := by
  obtain ⟨b', hb', -⟩ := bind_eq_ok.mp h
  exact encodeUtf8_eq_ok hb'

/-- Then it raises `UnicodeEncodeError`. -/
theorem quotePlus_eq_error {s : Str} {e : Exc} (h : quotePlus s = .error e) :
    e = .unicodeEncodeError := by
  rcases bind_eq_error.mp h with h | ⟨_, _, h⟩
  · exact encodeUtf8_eq_error h
  · cases h

/-- A field is encoded if its name and its value are. -/
theorem encodePair_ok {pair : Str × Str} (h : CanEncode pair.1 ∧ CanEncode pair.2) :
    ∃ b, encodePair pair = .ok b := by
  obtain ⟨key, hkey⟩ := quotePlus_ok h.1
  obtain ⟨value, hvalue⟩ := quotePlus_ok h.2
  exact ⟨_, by rw [encodePair, hkey, ok_bind, hvalue]; rfl⟩

theorem encodePair_eq_ok {pair : Str × Str} {b : Bytes} (h : encodePair pair = .ok b) :
    CanEncode pair.1 ∧ CanEncode pair.2 := by
  obtain ⟨key, hkey, h⟩ := bind_eq_ok.mp h
  obtain ⟨value, hvalue, -⟩ := bind_eq_ok.mp h
  exact ⟨quotePlus_eq_ok hkey, quotePlus_eq_ok hvalue⟩

/-- A field raises what `quote_plus` raises. -/
theorem encodePair_eq_error {pair : Str × Str} {e : Exc} (h : encodePair pair = .error e) :
    e = .unicodeEncodeError := by
  rcases bind_eq_error.mp h with h | ⟨_, _, h⟩
  · exact quotePlus_eq_error h
  · rcases bind_eq_error.mp h with h | ⟨_, _, h⟩
    · exact quotePlus_eq_error h
    · cases h

/-- Every key and value of the form has a UTF-8 form. -/
def FormEncodes (form : Form) : Prop := ∀ pair ∈ formPairs form, CanEncode pair.1 ∧ CanEncode pair.2

/-- **A form is sent** exactly when all its texts can be encoded; one that cannot be raises
    `UnicodeEncodeError`. -/
theorem postForm_spec (form : Form) (outcome : HTTPResponse) :
    (FormEncodes form ∧ postForm form outcome = .ok outcome) ∨
      (¬ FormEncodes form ∧ postForm form outcome = .error .unicodeEncodeError) := by
  rcases mapM_cases (f := encodePair) (formPairs form) with
    ⟨pairs, hpairs, hall⟩ | ⟨pair, hpair, e, he, hfail⟩
  · left
    constructor
    · intro pair hpair
      obtain ⟨b, hb⟩ := hall pair hpair
      exact encodePair_eq_ok hb
    · rw [postForm, encodeForm, hpairs]
      rfl
  · right
    constructor
    · intro hform
      obtain ⟨b, hb⟩ := encodePair_ok (hform pair hpair)
      rw [hb] at he
      cases he
    · rw [postForm, encodeForm, hfail, encodePair_eq_error he]
      rfl

/-- A form that can be encoded reaches the network: the outcome is that of the exchange. -/
theorem postForm_ok {form : Form} (h : FormEncodes form) (outcome : HTTPResponse) :
    postForm form outcome = .ok outcome := by
  rcases postForm_spec form outcome with ⟨-, hok⟩ | ⟨hnot, -⟩
  · exact hok
  · exact absurd h hnot

/-- Only such a form does. -/
theorem postForm_eq_ok {form : Form} {outcome r : HTTPResponse} (h : postForm form outcome = .ok r) :
    r = outcome ∧ FormEncodes form := by
  rcases postForm_spec form outcome with ⟨hform, hok⟩ | ⟨-, herr⟩
  · rw [hok] at h
    exact ⟨(Except.ok.inj h).symm, hform⟩
  · rw [herr] at h
    cases h

/-! ## Configuration -/

/-- The configuration of a client, as far as the protocol reads it. -/
structure Config where
  systemId : Str
  version : Str
  hwid : Str
  slHwidStore : Str
  slHwidExtraMandatory : List Str
  beatRateSeconds : ℚ
  maxServerClockSkewSeconds : Int
  baseUrl : Str
  invisibleFolderBaseUrl : Str
  programDigest : Option Str
  signingKeyId : Option Str
  invisibleFolderApiKey : Option Str
  signingPublicKey : Str
  automaticHeartbeats : Bool

/-- The truth of an `str | None`. -/
def truthy (s : Option Str) : Bool := s.getD [] ≠ []

end Bedrock.Protocol

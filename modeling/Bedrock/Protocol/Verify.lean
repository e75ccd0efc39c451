/-
  `verify.py`: the verification pipeline.

  1. **Envelope** — `openSigned` is everything that happens before a byte of the message is looked
     at: the headers, the strict base64url decoding of the body and of the pinned key, the
     signature.  Ed25519 is a parameter, as SHA-256 is.

  2. **Payload** — `parsePayload` reads the fields in the source's order (`readResponse`) and then
     checks them (`checkResponse`).  It serves both kinds of response: a signed one comes with its
     headers, the unsigned revocation without.

  3. **Text** — between the two, the message is decoded as UTF-8 outside of any `try`, and
     `json.loads` is inside a `try` that lets a `RecursionError` through: `badText`.  These are the
     only ways past `BedrockError`: `verifySignedResponse_error`, `parseUnsignedRevocation_error`.

  `genuine_of_accepted` is the other direction: what a response that was accepted must have been.
  The clock enters as `now`, the integer part of the reading.
-/
import Bedrock.Python.Base64
import Bedrock.Protocol.Response

open Lib.Fallible Bedrock.Python

namespace Bedrock.Protocol

/-- `Ed25519PublicKey.from_public_bytes(key).verify(signature, message)` returns. -/
class Ed25519 where
  /-- Public key, signature, message. -/
  verify : Bytes → Bytes → Bytes → Bool

def PROTOCOL_VERSION : Str := str "bedrock-v1"
def SIGNATURE_BYTES : Nat := 64
def PUBLIC_KEY_BYTES : Nat := 32
def MAX_TRANSPORT_BYTES : Nat := 1024 * 1024

/-- A `BedrockError` with a fixed text. -/
def bedrock (kind : ErrorKind) (text : String) : Exc := .bedrockError kind [.lit text]

/-- `generate_challenge`, given what `secrets.token_bytes` returned. -/
def generateChallenge (random : Bytes) : Str := rstripPad (urlsafeB64Encode random)

/-- `sha256_hex`. -/
def sha256Hex [Sha256] (value : Str) : Except Exc Str := do
  return hexStr (sha256 (← encodeUtf8 value))

/-- `base64_url_decode`. -/
def base64UrlDecode (value : Str) : Except Exc Bytes := do
  raiseIf (value = [] ∨ value.length > MAX_TRANSPORT_BYTES ∨ value.length % 4 = 1)
    (bedrock .invalidPayload "Invalid base64url length.")
  raiseIf (value.all b64Alphabet.contains = false)
    (bedrock .invalidPayload "Invalid base64url character.")
  match urlsafeB64Decode (value ++ List.replicate ((4 - value.length % 4) % 4) (chr '=')) with
  | .error e =>
    if e.isValueError then .error (bedrock .invalidPayload "Invalid base64url value.") else .error e
  | .ok decoded => do
    raiseIf (rstripPad (urlsafeB64Encode decoded) ≠ value)
      (bedrock .invalidPayload "Invalid base64url value.")
    return decoded

/-! ## The envelope -/

/-- The headers a signed response carries. -/
def signedHeaders (http : HTTPResponse) : Bool :=
  http.header (str "x-bedrock-protocol") = PROTOCOL_VERSION &&
    http.header (str "x-bedrock-signed") ≠ str "false"

/-- The headers of the one unsigned response that is looked at. -/
def unsignedHeaders (http : HTTPResponse) : Bool :=
  http.header (str "x-bedrock-signed") = str "false" &&
    http.header (str "x-bedrock-protocol") = PROTOCOL_VERSION

/-- The pinned key is not 32 bytes of base64url. -/
def keyError : Exc :=
  bedrock .configuration "Pinned Bedrock public key is not a raw 32-byte Ed25519 key."

/-- The pinned key. -/
def pinnedKey (config : Config) : Except Exc Bytes :=
  match base64UrlDecode config.signingPublicKey with
  | .error e => if e.isBedrockError then .error keyError else .error e
  | .ok key => if key.length ≠ PUBLIC_KEY_BYTES then .error keyError else .ok key

/-- The signed message of a body: decoded, long enough, and signed under the pinned key. -/
def openBody [Ed25519] (config : Config) (body : Bytes) : Except Exc Bytes := do
  let signedBytes ← base64UrlDecode (decodeLatin1 body)
  raiseIf (signedBytes.length ≤ SIGNATURE_BYTES)
    (bedrock .invalidPayload "Bedrock signed response has an invalid encoding or length.")
  let key ← pinnedKey config
  raiseIf (Ed25519.verify key (signedBytes.take SIGNATURE_BYTES)
      (signedBytes.drop SIGNATURE_BYTES) = false)
    (bedrock .invalidSignature "Bedrock response signature verification failed.")
  return signedBytes.drop SIGNATURE_BYTES

/-- What an answer without the headers of a signed response is refused with. -/
def unsignedError : Exc :=
  bedrock .unsignedResponse "Bedrock response is missing its signed transport headers."

/-- `verify_signed_response`, up to the signed message. -/
def openSigned [Ed25519] (config : Config) (http : HTTPResponse) : Except Exc Bytes := do
  raiseIf (signedHeaders http = false) unsignedError
  openBody config http.body

/-! ## The payload -/

/-- `payload.get(name)`: an absent field and a `null` are both `None`. -/
def getField (payload : List (Str × Json)) (name : Str) : Json :=
  match payload.find? fun item => item.1 = name with
  | some item => item.2
  | none => .null

/-- The error of a field, which it names. -/
def fieldError (name : String) : Exc :=
  .bedrockError .invalidPayload
    [.lit "Bedrock field '", .lit name, .lit "' is missing or has the wrong type."]

/-- `require_string`. -/
def requireString (payload : List (Str × Json)) (name : String) : Except Exc Str :=
  match getField payload (str name) with
  | .str value => .ok value
  | _ => .error (fieldError name)

/-- `require_bool`. -/
def requireBool (payload : List (Str × Json)) (name : String) : Except Exc Bool :=
  match getField payload (str name) with
  | .bool value => .ok value
  | _ => .error (fieldError name)

/-- The check of `server_time`: an `int` that is not a `bool`. -/
def requireInt (payload : List (Str × Json)) (name : String) : Except Exc Int :=
  match getField payload (str name) with
  | .int value => .ok value
  | _ => .error (fieldError name)

/-- `optional_string`: `None` stands for a field that is not there or null. -/
def optionalString (payload : List (Str × Json)) (name : String) : Except Exc (Option Str) :=
  match getField payload (str name) with
  | .null => .ok none
  | .str value => .ok (some value)
  | _ => .error (.bedrockError .invalidPayload
      [.lit "Bedrock field '", .lit name, .lit "' has the wrong type."])

/-- One item of `variables`. -/
def readVariable (out : Dict (Option Str)) (item : Str × Json) : Except Exc (Dict (Option Str)) :=
  match item.2 with
  | .str value => .ok (out.insert item.1 (some value))
  | .bool false => .ok (out.insert item.1 none)
  | _ => .error (bedrock .invalidPayload "Bedrock variable has the wrong type.")

/-- The variables of the payload, each a text or null. -/
def readVariables (payload : List (Str × Json)) : Except Exc (Dict (Option Str)) :=
  match getField payload (str "variables") with
  | .null => .ok ∅
  | .dict items => items.foldlM readVariable ∅
  | _ => .error (bedrock .invalidPayload "Bedrock field 'variables' has the wrong type.")

/-- The `kid` field, which only a signed response must have. -/
def readKeyId (payload : List (Str × Json)) (signed : Bool) : Except Exc (Option Str) :=
  if signed then do return some (← requireString payload "kid") else optionalString payload "kid"

/-- `parse_payload`, reading. -/
def readResponse (payload : List (Str × Json)) (signed : Bool) : Except Exc Response := do
  let protocolVersion ← requireString payload "protocol_version"
  let keyId ← readKeyId payload signed
  let system ← requireString payload "system"
  let code ← requireString payload "response_code"
  -- the remaining fields in the order in which the source asks for them: the first bad one is reported
  let humanResponse ← requireString payload "human_response"
  let isError ← requireBool payload "is_error"
  let isFailure ← requireBool payload "is_failure"
  let authed ← requireBool payload "authed"
  let humanTime ← requireString payload "human_time"
  let challenge ← requireString payload "challenge"
  let serverTime ← requireInt payload "server_time"
  let sessionToken ← optionalString payload "session_token"
  let licenseKeyHash ← optionalString payload "license_key_hash"
  let usernameHash ← optionalString payload "username_hash"
  let terminationMessage ← optionalString payload "termination_message"
  let ssoUrl ← optionalString payload "sso_url"
  let invisibleFolderToken ← optionalString payload "invisible_folder_token"
  let responseVariables ← readVariables payload
  return { code, humanResponse, isError, isFailure, authed, protocolVersion, keyId, system, challenge,
           serverTime, humanTime, sessionToken, licenseKeyHash, usernameHash, terminationMessage,
           ssoUrl, invisibleFolderToken, responseVariables }

/-- The checks of the signing key id. -/
def checkKeyId (config : Config) (http : HTTPResponse) (r : Response) : Except Exc Unit := do
  raiseIf (r.keyId ≠ some (http.header (str "x-bedrock-key-id")))
    (bedrock .invalidPayload "Bedrock response signing key ID is missing or inconsistent.")
  raiseIf (truthy config.signingKeyId = true ∧ r.keyId ≠ config.signingKeyId)
    (bedrock .invalidPayload "Bedrock response signing key ID does not match the configured pin.")

/-- What every payload must say: a known code with its flags, this system, this challenge, this
    time. -/
def checkBinding (config : Config) (expectedChallenge : Str) (now : Int) (r : Response) :
    Except Exc Unit := do
  raiseIf (responseCodeIsKnown r.code = false)
    (bedrock .invalidPayload "Bedrock response contains an unknown response code.")
  raiseIf (r.authed ≠ expectedAuthenticated r.code ∨ r.isError ≠ expectedError r.code ∨
      r.isFailure ≠ expectedFailure r.code)
    (bedrock .invalidPayload "Bedrock response flags contradict its response code.")
  raiseIf (r.system ≠ config.systemId)
    (bedrock .invalidPayload "Bedrock response is bound to a different system.")
  raiseIf (r.challenge ≠ expectedChallenge)
    (bedrock .invalidPayload "Bedrock response challenge does not match the request.")
  raiseIf (|r.serverTime - now| > config.maxServerClockSkewSeconds)
    (bedrock .freshnessViolation
      "Bedrock response server time is outside the configured freshness window.")

/-- `parse_payload`, checking; the key id is checked where there are signed headers. -/
def checkResponse (config : Config) (expectedChallenge : Str) (now : Int)
    (http : Option HTTPResponse) (r : Response) : Except Exc Unit := do
  raiseIf (r.protocolVersion ≠ PROTOCOL_VERSION)
    (bedrock .invalidPayload "Unsupported Bedrock protocol version.")
  http.forM fun http => checkKeyId config http r
  checkBinding config expectedChallenge now r

section Pipeline

variable [CallStack] [Ed25519]

/-- `json.loads` inside `parse_payload`. -/
def loadPayload (text : Str) : Except Exc (List (Str × Json)) :=
  match loads text with
  | .error e =>
    if e.isValueError then .error (bedrock .invalidPayload "Bedrock response JSON is invalid.")
    else .error e
  | .ok (.dict items) => .ok items
  | .ok _ => .error (bedrock .invalidPayload "Bedrock payload is not a JSON object.")

/-- `parse_payload`. -/
def parsePayload (config : Config) (text : Str) (expectedChallenge : Str) (now : Int)
    (http : Option HTTPResponse) : Except Exc Response := do
  let payload ← loadPayload text
  let r ← readResponse payload http.isSome
  checkResponse config expectedChallenge now http r
  return r

/-- `verify_signed_response`. -/
def verifySignedResponse (config : Config) (http : HTTPResponse) (expectedChallenge : Str)
    (now : Int) : Except Exc Response := do
  let message ← openSigned config http
  let text ← decodeUtf8 message
  parsePayload config text expectedChallenge now (some http)

/-- `parse_unsigned_revocation`. -/
def parseUnsignedRevocation (config : Config) (http : HTTPResponse) (expectedChallenge : Str)
    (now : Int) : Except Exc Response := do
  raiseIf (unsignedHeaders http = false)
    (bedrock .unsignedResponse "Bedrock returned an unauthenticated response.")
  let text ← decodeUtf8 http.body
  let r ← parsePayload config text expectedChallenge now none
  raiseIf (r.code ≠ str "SIGNING_KEY_REVOKED" ∨ r.terminationMessage = none)
    (bedrock .unsignedResponse "Unsigned Bedrock response is diagnostic only and cannot be trusted.")
  return r

end Pipeline

/-! ## What is raised -/

/-- A `BedrockError` that is a verdict on the response: of any kind but `UNSIGNED_RESPONSE`. -/
def isRefusal : Exc → Bool
  | .bedrockError kind _ => kind ≠ .unsignedResponse
  | _ => false

/-- What the pipeline raises, its own `UNSIGNED_RESPONSE` apart. -/
def Refusal (e : Exc) : Prop := isRefusal e = true

theorem Refusal.isBedrockError {e : Exc} (h : Refusal e) : e.isBedrockError = true := by
  cases e with
  | bedrockError kind message => rfl
  | _ => cases h

theorem refuse {c : Prop} [Decidable c] {kind : ErrorKind} {text : String}
    (h : kind ≠ .unsignedResponse) : Raises Refusal (raiseIf c (bedrock kind text)) :=
  raises_raiseIf (decide_eq_true h)

/-- The decoder refuses, in its own kind, whatever is no base64url. -/
theorem base64UrlDecode_raises (value : Str) : Raises Refusal (base64UrlDecode value) := by
  unfold base64UrlDecode
  apply raises_bind (refuse (by decide))
  intro _
  apply raises_bind (refuse (by decide))
  intro _
  split
  · rename_i e he
    rw [if_pos (urlsafeB64Decode_error he)]
    exact raises_error rfl
  · exact raises_bind (refuse (by decide)) fun _ => raises_ok _

/-- Only the canonical encoding of a byte string is decoded to it. -/
theorem base64UrlDecode_canonical {value : Str} {b : Bytes} (h : base64UrlDecode value = .ok b) :
    value = rstripPad (urlsafeB64Encode b) := by
  obtain ⟨_, _, h⟩ := bind_eq_ok.mp h
  obtain ⟨_, _, h⟩ := bind_eq_ok.mp h
  split at h
  · split at h
    · cases h
    · cases h
  · obtain ⟨_, hcanon, h⟩ := bind_eq_ok.mp h
    obtain rfl := Except.ok.inj h
    exact (not_not.mp (raiseIf_eq_ok.mp hcanon)).symm

/-- The pinned key is refused or read. -/
theorem pinnedKey_raises (config : Config) : Raises Refusal (pinnedKey config) := by
  unfold pinnedKey
  split
  · rename_i e he
    rw [if_pos (base64UrlDecode_raises _ e he).isBedrockError]
    exact raises_error rfl
  · split
    · exact raises_error rfl
    · exact raises_ok _

theorem pinnedKey_eq_ok {config : Config} {key : Bytes} (h : pinnedKey config = .ok key) :
    config.signingPublicKey = rstripPad (urlsafeB64Encode key) ∧ key.length = PUBLIC_KEY_BYTES := by
  unfold pinnedKey at h
  split at h
  · split at h
    · cases h
    · cases h
  · rename_i hdecode
    split at h
    · cases h
    · rename_i hlen
      obtain rfl := Except.ok.inj h
      exact ⟨base64UrlDecode_canonical hdecode, not_not.mp hlen⟩

/-- Opening a body fails with a refusal: of the transport, of the key or of the signature. -/
theorem openBody_raises [Ed25519] (config : Config) (body : Bytes) :
    Raises Refusal (openBody config body) := by
  unfold openBody
  apply raises_bind (base64UrlDecode_raises _)
  intro signedBytes
  apply raises_bind (refuse (by decide))
  intro _
  apply raises_bind (pinnedKey_raises config)
  intro key
  exact raises_bind (refuse (by decide)) fun _ => raises_ok _

/-- The envelope is refused, or has the headers of an unsigned response. -/
theorem openSigned_error [Ed25519] {config : Config} {http : HTTPResponse} {e : Exc}
    (h : openSigned config http = .error e) :
    (signedHeaders http = false ∧ e = unsignedError) ∨ (signedHeaders http = true ∧ Refusal e) := by
  rcases bind_eq_error.mp h with h | ⟨_, hsigned, h⟩
  · obtain ⟨hsigned, rfl⟩ := raiseIf_eq_error.mp h
    exact Or.inl ⟨hsigned, rfl⟩
  · exact Or.inr ⟨by simpa using raiseIf_eq_ok.mp hsigned, openBody_raises _ _ e h⟩

/-! ### The payload -/

/-- A field is refused if it is not there or of another type. -/
theorem requireString_raises (payload : List (Str × Json)) (name : String) :
    Raises Refusal (requireString payload name) := by
  unfold requireString
  split
  · exact raises_ok _
  · exact raises_error rfl

theorem requireBool_raises (payload : List (Str × Json)) (name : String) :
    Raises Refusal (requireBool payload name) := by
  unfold requireBool
  split
  · exact raises_ok _
  · exact raises_error rfl

theorem requireInt_raises (payload : List (Str × Json)) (name : String) :
    Raises Refusal (requireInt payload name) := by
  unfold requireInt
  split
  · exact raises_ok _
  · exact raises_error rfl

theorem optionalString_raises (payload : List (Str × Json)) (name : String) :
    Raises Refusal (optionalString payload name) := by
  unfold optionalString
  split
  · exact raises_ok _
  · exact raises_ok _
  · exact raises_error rfl

/-- The key id is required in a signed payload only. -/
theorem readKeyId_raises (payload : List (Str × Json)) (signed : Bool) :
    Raises Refusal (readKeyId payload signed) := by
  unfold readKeyId
  split
  · exact raises_bind (requireString_raises _ _) fun _ => raises_ok _
  · exact optionalString_raises _ _

/-- One bad variable refuses them all. -/
theorem readVariables_raises (payload : List (Str × Json)) :
    Raises Refusal (readVariables payload) := by
  unfold readVariables
  split
  · exact raises_ok _
  · refine raises_foldlM (fun out item => ?_) _ _
    unfold readVariable
    split
    · exact raises_ok _
    · exact raises_ok _
    · exact raises_error rfl
  · exact raises_error rfl

/-- So a payload is read or refused as a whole. -/
theorem readResponse_raises (payload : List (Str × Json)) (signed : Bool) :
    Raises Refusal (readResponse payload signed) := by
  have hs := requireString_raises payload
  have hb := requireBool_raises payload
  have ho := optionalString_raises payload
  unfold readResponse
  refine raises_bind (hs _) fun _ => raises_bind (readKeyId_raises _ _) fun _ =>
    raises_bind (hs _) fun _ => raises_bind (hs _) fun _ => raises_bind (hs _) fun _ =>
    raises_bind (hb _) fun _ => raises_bind (hb _) fun _ => raises_bind (hb _) fun _ =>
    raises_bind (hs _) fun _ => raises_bind (hs _) fun _ =>
    raises_bind (requireInt_raises _ _) fun _ => ?_
  exact raises_bind (ho _) fun _ => raises_bind (ho _) fun _ => raises_bind (ho _) fun _ =>
    raises_bind (ho _) fun _ => raises_bind (ho _) fun _ => raises_bind (ho _) fun _ =>
    raises_bind (readVariables_raises _) fun _ => raises_ok _

theorem checkKeyId_raises (config : Config) (http : HTTPResponse) (r : Response) :
    Raises Refusal (checkKeyId config http r) :=
  raises_bind (refuse (by decide)) fun _ => refuse (by decide)

theorem checkBinding_raises (config : Config) (c : Str) (now : Int) (r : Response) :
    Raises Refusal (checkBinding config c now r) :=
  raises_bind (refuse (by decide)) fun _ => raises_bind (refuse (by decide)) fun _ =>
    raises_bind (refuse (by decide)) fun _ => raises_bind (refuse (by decide)) fun _ =>
    refuse (by decide)

theorem checkResponse_raises (config : Config) (c : Str) (now : Int) (http : Option HTTPResponse)
    (r : Response) : Raises Refusal (checkResponse config c now http r) := by
  unfold checkResponse
  apply raises_bind (refuse (by decide))
  intro _
  cases http with
  | some http =>
    exact raises_bind (checkKeyId_raises config http r) fun _ => checkBinding_raises config c now r
  | none => exact checkBinding_raises config c now r

/-! ### The text -/

section Text

variable [CallStack]

/-- **What `json.loads` may raise**: a refusal stands for its `ValueError`; `RecursionError` gets out.
    -/
theorem loadPayload_error {text : Str} {e : Exc} (h : loadPayload text = .error e) :
    (Refusal e ∧ loads text ≠ .error .recursionError) ∨
      (e = .recursionError ∧ loads text = .error .recursionError) := by
  unfold loadPayload at h
  split at h
  · rename_i e' he'
    rw [he']
    split at h
    · -- any `ValueError` of the parser is answered with a refusal; only the recursion limit gets
      -- through
      rename_i hvalue
      obtain rfl := Except.error.inj h
      refine Or.inl ⟨rfl, fun hrec => ?_⟩
      obtain rfl := Except.error.inj hrec
      cases hvalue
    · rename_i hvalue
      obtain rfl := Except.error.inj h
      have hjson := loads_error he'
      rw [Exc.isJsonError, Bool.eq_false_iff.mpr hvalue, Bool.false_or, decide_eq_true_eq] at hjson
      subst hjson
      exact Or.inr ⟨rfl, rfl⟩
  · cases h
  · rename_i hloads
    obtain rfl := Except.error.inj h
    refine Or.inl ⟨rfl, fun hrec => ?_⟩
    rw [hrec] at hloads
    cases hloads

/-- A payload is a JSON object. -/
theorem loadPayload_eq_ok {text : Str} {payload : List (Str × Json)}
    (h : loadPayload text = .ok payload) : loads text = .ok (.dict payload) := by
  unfold loadPayload at h
  split at h
  · split at h
    · cases h
    · cases h
  · rename_i hloads
    obtain rfl := Except.ok.inj h
    exact hloads
  · cases h

/-- The bytes are not UTF-8, or nest deeper than the stack has room for: reading them raises past
    every `except` clause of the pipeline. -/
def badText (b : Bytes) : Bool :=
  match decodeUtf8 b with
  | .error _ => true
  | .ok text => match loads text with
    | .error e => e = .recursionError
    | .ok _ => false

/-- A body is good if it is text on which `json.loads` does not run out of stack. -/
theorem badText_eq_false {b : Bytes} {text : Str} (htext : decodeUtf8 b = .ok text)
    (hloads : loads text ≠ .error .recursionError) : badText b = false := by
  unfold badText
  rw [htext]
  dsimp only
  cases hres : loads text with
  | ok v => rfl
  | error e =>
    refine decide_eq_false fun he => ?_
    rw [hres, he] at hloads
    exact hloads rfl

theorem badText_eq_true {b : Bytes} {text : Str} (htext : decodeUtf8 b = .ok text)
    (hloads : loads text = .error .recursionError) : badText b = true := by
  unfold badText
  rw [htext]
  dsimp only
  rw [hloads]
  rfl

/-- A payload that was read is an object that passed its checks. -/
theorem parseMessage_eq_ok {config : Config} {b : Bytes} {c : Str} {now : Int}
    {http : Option HTTPResponse} {r : Response}
    (h : (do parsePayload config (← decodeUtf8 b) c now http) = .ok r) :
    ∃ text payload, decodeUtf8 b = .ok text ∧ loads text = .ok (.dict payload) ∧
      readResponse payload http.isSome = .ok r ∧ checkResponse config c now http r = .ok () := by
  obtain ⟨text, htext, h⟩ := bind_eq_ok.mp h
  obtain ⟨payload, hload, h⟩ := bind_eq_ok.mp h
  obtain ⟨r', hread, h⟩ := bind_eq_ok.mp h
  obtain ⟨_, hcheck, h⟩ := bind_eq_ok.mp h
  obtain rfl := Except.ok.inj h
  exact ⟨text, payload, htext, loadPayload_eq_ok hload, hread, hcheck⟩

/-- Reading a message: **everything but a bad text is a refusal**. -/
theorem parseMessage_error {config : Config} {b : Bytes} {c : Str} {now : Int}
    {http : Option HTTPResponse} {e : Exc}
    (h : (do parsePayload config (← decodeUtf8 b) c now http) = .error e) :
    (Refusal e ∧ badText b = false) ∨ (e.isBedrockError = false ∧ badText b = true) := by
  -- the text, the payload, the fields, the checks: only the first two can raise what is no
  -- `BedrockError`
  rcases bind_eq_error.mp h with h | ⟨text, htext, h⟩
  · right
    rw [decodeUtf8_error h, badText, h]
    exact ⟨rfl, rfl⟩
  · rcases bind_eq_error.mp h with h | ⟨payload, hload, h⟩
    · rcases loadPayload_error h with ⟨hrefusal, hloads⟩ | ⟨rfl, hrec⟩
      · exact Or.inl ⟨hrefusal, badText_eq_false htext hloads⟩
      · exact Or.inr ⟨rfl, badText_eq_true htext hrec⟩
    · have hgood : badText b = false := by
        refine badText_eq_false htext ?_
        rw [loadPayload_eq_ok hload]
        intro hne
        cases hne
      refine Or.inl ⟨?_, hgood⟩
      rcases bind_eq_error.mp h with h | ⟨r, _, h⟩
      · exact readResponse_raises _ _ e h
      · rcases bind_eq_error.mp h with h | ⟨_, _, h⟩
        · exact checkResponse_raises _ _ _ _ _ e h
        · cases h

/-- A message that was accepted was good text. -/
theorem parseMessage_ok_good {config : Config} {b : Bytes} {c : Str} {now : Int}
    {http : Option HTTPResponse} {r : Response}
    (h : (do parsePayload config (← decodeUtf8 b) c now http) = .ok r) : badText b = false := by
  obtain ⟨text, payload, htext, hload, -, -⟩ := parseMessage_eq_ok h
  refine badText_eq_false htext ?_
  rw [hload]
  intro hne
  cases hne

/-- **`verify_signed_response` raises** `UNSIGNED_RESPONSE` for the headers of an unsigned response,
    some other `BedrockError`, or — for a signed message that is a bad text — something else. -/
theorem verifySignedResponse_error [Ed25519] {config : Config} {http : HTTPResponse} {c : Str}
    {now : Int} {e : Exc} (h : verifySignedResponse config http c now = .error e) :
    (signedHeaders http = false ∧ e = unsignedError) ∨
    (signedHeaders http = true ∧ Refusal e ∧
      ∀ m, openSigned config http = .ok m → badText m = false) ∨
    (e.isBedrockError = false ∧ ∃ m, openSigned config http = .ok m ∧ badText m = true) := by
  rcases bind_eq_error.mp h with hopen | ⟨m, hopen, h⟩
  · rcases openSigned_error hopen with hunsigned | ⟨hsigned, hrefusal⟩
    · exact Or.inl hunsigned
    · refine Or.inr (Or.inl ⟨hsigned, hrefusal, fun m hm => ?_⟩)
      rw [hopen] at hm
      cases hm
  · rcases parseMessage_error h with ⟨hrefusal, hgood⟩ | ⟨hother, hbad⟩
    · refine Or.inr (Or.inl ⟨?_, hrefusal, fun m' hm' => ?_⟩)
      · obtain ⟨_, hsigned, _⟩ := bind_eq_ok.mp hopen
        simpa using raiseIf_eq_ok.mp hsigned
      · rw [hopen] at hm'
        obtain rfl := Except.ok.inj hm'
        exact hgood
    · exact Or.inr (Or.inr ⟨hother, m, hopen, hbad⟩)

/-- **What an accepted response has passed**: the envelope, the text, the payload, and the checks. -/
theorem verifySignedResponse_eq_ok [Ed25519] {config : Config} {http : HTTPResponse} {c : Str}
    {now : Int} {r : Response} (h : verifySignedResponse config http c now = .ok r) :
    ∃ m text payload, openSigned config http = .ok m ∧ badText m = false ∧
      decodeUtf8 m = .ok text ∧ loads text = .ok (.dict payload) ∧
      readResponse payload true = .ok r ∧ checkResponse config c now (some http) r = .ok () := by
  obtain ⟨m, hopen, h⟩ := bind_eq_ok.mp h
  obtain ⟨text, payload, htext, hload, hread, hcheck⟩ := parseMessage_eq_ok h
  exact ⟨m, text, payload, hopen, parseMessage_ok_good h, htext, hload, hread, hcheck⟩

/-- **`parse_unsigned_revocation` raises** a `BedrockError`, unless the headers are those of the
    unsigned revocation and the body is a bad text. -/
theorem parseUnsignedRevocation_error {config : Config} {http : HTTPResponse} {c : Str}
    {now : Int} {e : Exc} (h : parseUnsignedRevocation config http c now = .error e) :
    (e.isBedrockError = true ∧ (unsignedHeaders http && badText http.body) = false) ∨
    (e.isBedrockError = false ∧ (unsignedHeaders http && badText http.body) = true) := by
  rcases bind_eq_error.mp h with h | ⟨_, hheaders, h⟩
  · obtain ⟨hheaders, rfl⟩ := raiseIf_eq_error.mp h
    rw [hheaders]
    exact Or.inl ⟨rfl, rfl⟩
  · have hheaders : unsignedHeaders http = true := by simpa using raiseIf_eq_ok.mp hheaders
    rw [hheaders, Bool.true_and]
    -- the parse comes first, the two conditions of a revocation on what it returned
    have hassoc : ((do parsePayload config (← decodeUtf8 http.body) c now none : Except Exc Response) >>=
        fun r => do
          raiseIf (r.code ≠ str "SIGNING_KEY_REVOKED" ∨ r.terminationMessage = none)
            (bedrock .unsignedResponse
              "Unsigned Bedrock response is diagnostic only and cannot be trusted.")
          return r) = .error e := by
      rw [← h]
      exact bind_assoc _ _ _
    rcases bind_eq_error.mp hassoc with hparse | ⟨r, hparse, h⟩
    · rcases parseMessage_error hparse with ⟨hrefusal, hgood⟩ | hother
      · exact Or.inl ⟨hrefusal.isBedrockError, hgood⟩
      · exact Or.inr hother
    · left
      refine ⟨?_, parseMessage_ok_good hparse⟩
      rcases bind_eq_error.mp h with h | ⟨_, _, h⟩
      · obtain ⟨-, rfl⟩ := raiseIf_eq_error.mp h
        rfl
      · cases h

/-- An unsigned answer is accepted for one code only. -/
theorem parseUnsignedRevocation_eq_ok {config : Config} {http : HTTPResponse} {c : Str}
    {now : Int} {r : Response} (h : parseUnsignedRevocation config http c now = .ok r) :
    badText http.body = false ∧ r.code = str "SIGNING_KEY_REVOKED" ∧
      checkResponse config c now none r = .ok () := by
  obtain ⟨_, _, h⟩ := bind_eq_ok.mp h
  obtain ⟨text, htext, h⟩ := bind_eq_ok.mp h
  obtain ⟨r', hparse, h⟩ := bind_eq_ok.mp h
  obtain ⟨_, hcode, h⟩ := bind_eq_ok.mp h
  obtain rfl := Except.ok.inj h
  have hmessage : (do parsePayload config (← decodeUtf8 http.body) c now none) = .ok r' := by
    rw [htext]
    exact hparse
  obtain ⟨-, -, -, -, -, hcheck⟩ := parseMessage_eq_ok hmessage
  refine ⟨parseMessage_ok_good hmessage, ?_, hcheck⟩
  exact not_not.mp fun hne => raiseIf_eq_ok.mp hcode (Or.inl hne)

end Text

/-! ## What was accepted -/

/-- A field that was read is in the payload with this value. -/
theorem requireString_eq_ok {payload : List (Str × Json)} {name : String} {value : Str}
    (h : requireString payload name = .ok value) : getField payload (str name) = .str value := by
  unfold requireString at h
  split at h
  · rename_i hfield
    rw [hfield, Except.ok.inj h]
  · cases h

theorem requireBool_eq_ok {payload : List (Str × Json)} {name : String} {value : Bool}
    (h : requireBool payload name = .ok value) : getField payload (str name) = .bool value := by
  unfold requireBool at h
  split at h
  · rename_i hfield
    rw [hfield, Except.ok.inj h]
  · cases h

theorem requireInt_eq_ok {payload : List (Str × Json)} {name : String} {value : Int}
    (h : requireInt payload name = .ok value) : getField payload (str name) = .int value := by
  unfold requireInt at h
  split at h
  · rename_i hfield
    rw [hfield, Except.ok.inj h]
  · cases h

/-- An optional field that has a value is that string of the payload. -/
theorem optionalString_eq_ok {payload : List (Str × Json)} {name : String} {value : Str}
    (h : optionalString payload name = .ok (some value)) :
    getField payload (str name) = .str value := by
  unfold optionalString at h
  split at h
  · cases Except.ok.inj h
  · rename_i hfield
    rw [hfield, Option.some.inj (Except.ok.inj h)]
  · cases h

/-- A signed payload that was read has a key id. -/
theorem readKeyId_signed {payload : List (Str × Json)} {keyId : Option Str}
    (h : readKeyId payload true = .ok keyId) :
    ∃ kid, keyId = some kid ∧ getField payload (str "kid") = .str kid := by
  obtain ⟨kid, hkid, h⟩ := bind_eq_ok.mp h
  exact ⟨kid, (Except.ok.inj h).symm, requireString_eq_ok hkid⟩

/-- The fields of a signed response, in its payload. -/
structure ReadsAs (payload : List (Str × Json)) (r : Response) : Prop where
  keyId : ∃ kid, r.keyId = some kid ∧ getField payload (str "kid") = .str kid
  system : getField payload (str "system") = .str r.system
  code : getField payload (str "response_code") = .str r.code
  isError : getField payload (str "is_error") = .bool r.isError
  isFailure : getField payload (str "is_failure") = .bool r.isFailure
  authed : getField payload (str "authed") = .bool r.authed
  challenge : getField payload (str "challenge") = .str r.challenge
  serverTime : getField payload (str "server_time") = .int r.serverTime
  sessionToken : ∀ t, r.sessionToken = some t → getField payload (str "session_token") = .str t
  licenseKeyHash : ∀ t, r.licenseKeyHash = some t →
    getField payload (str "license_key_hash") = .str t
  usernameHash : ∀ t, r.usernameHash = some t → getField payload (str "username_hash") = .str t
  invisibleFolderToken : ∀ t, r.invisibleFolderToken = some t →
    getField payload (str "invisible_folder_token") = .str t

/-- **The response says what the payload says**, field by field. -/
theorem readResponse_eq_ok {payload : List (Str × Json)} {r : Response}
    (h : readResponse payload true = .ok r) : ReadsAs payload r := by
  -- one step for each field; the ones without a name are fields the checks do not read
  obtain ⟨_, _, h⟩ := bind_eq_ok.mp h
  obtain ⟨_, hkid, h⟩ := bind_eq_ok.mp h
  obtain ⟨_, hsystem, h⟩ := bind_eq_ok.mp h
  obtain ⟨_, hcode, h⟩ := bind_eq_ok.mp h
  obtain ⟨_, _, h⟩ := bind_eq_ok.mp h
  obtain ⟨_, herror, h⟩ := bind_eq_ok.mp h
  obtain ⟨_, hfailure, h⟩ := bind_eq_ok.mp h
  obtain ⟨_, hauthed, h⟩ := bind_eq_ok.mp h
  obtain ⟨_, _, h⟩ := bind_eq_ok.mp h
  obtain ⟨_, hchallenge, h⟩ := bind_eq_ok.mp h
  obtain ⟨_, htime, h⟩ := bind_eq_ok.mp h
  obtain ⟨_, htoken, h⟩ := bind_eq_ok.mp h
  obtain ⟨_, hlicense, h⟩ := bind_eq_ok.mp h
  obtain ⟨_, husername, h⟩ := bind_eq_ok.mp h
  obtain ⟨_, _, h⟩ := bind_eq_ok.mp h
  obtain ⟨_, _, h⟩ := bind_eq_ok.mp h
  obtain ⟨_, hfolder, h⟩ := bind_eq_ok.mp h
  obtain ⟨_, _, h⟩ := bind_eq_ok.mp h
  obtain rfl := Except.ok.inj h
  exact {
    keyId := readKeyId_signed hkid
    system := requireString_eq_ok hsystem
    code := requireString_eq_ok hcode
    isError := requireBool_eq_ok herror
    isFailure := requireBool_eq_ok hfailure
    authed := requireBool_eq_ok hauthed
    challenge := requireString_eq_ok hchallenge
    serverTime := requireInt_eq_ok htime
    sessionToken := fun t ht => optionalString_eq_ok (ht ▸ htoken)
    licenseKeyHash := fun t ht => optionalString_eq_ok (ht ▸ hlicense)
    usernameHash := fun t ht => optionalString_eq_ok (ht ▸ husername)
    invisibleFolderToken := fun t ht => optionalString_eq_ok (ht ▸ hfolder) }

/-- What `checkBinding` lets through. -/
structure Bound (config : Config) (c : Str) (now : Int) (r : Response) : Prop where
  /-- The response code is one the protocol has. -/
  known : responseCodeIsKnown r.code = true
  /-- The three flags are the ones of the code. -/
  authed : r.authed = expectedAuthenticated r.code
  isError : r.isError = expectedError r.code
  isFailure : r.isFailure = expectedFailure r.code
  /-- The response is for this system. -/
  system : r.system = config.systemId
  /-- It answers this request. -/
  challenge : r.challenge = c
  /-- The server's clock is within the allowed skew. -/
  fresh : |r.serverTime - now| ≤ config.maxServerClockSkewSeconds

/-- What the binding check lets through is bound to the request. -/
theorem checkBinding_eq_ok {config : Config} {c : Str} {now : Int} {r : Response}
    (h : checkBinding config c now r = .ok ()) : Bound config c now r := by
  obtain ⟨_, hknown, h⟩ := bind_eq_ok.mp h
  obtain ⟨_, hflags, h⟩ := bind_eq_ok.mp h
  obtain ⟨_, hsystem, h⟩ := bind_eq_ok.mp h
  obtain ⟨_, hchallenge, hfresh⟩ := bind_eq_ok.mp h
  have hflags := raiseIf_eq_ok.mp hflags
  push Not at hflags
  exact {
    known := by simpa using raiseIf_eq_ok.mp hknown
    authed := hflags.1
    isError := hflags.2.1
    isFailure := hflags.2.2
    system := not_not.mp (raiseIf_eq_ok.mp hsystem)
    challenge := not_not.mp (raiseIf_eq_ok.mp hchallenge)
    fresh := not_lt.mp (raiseIf_eq_ok.mp hfresh) }

theorem checkResponse_bound {config : Config} {c : Str} {now : Int} {http : Option HTTPResponse}
    {r : Response} (h : checkResponse config c now http r = .ok ()) : Bound config c now r := by
  obtain ⟨_, _, h⟩ := bind_eq_ok.mp h
  obtain ⟨_, _, h⟩ := bind_eq_ok.mp h
  exact checkBinding_eq_ok h

/-- The key id is that of the header and, if one is pinned, the pinned one. -/
theorem checkResponse_keyId {config : Config} {c : Str} {now : Int} {http : HTTPResponse}
    {r : Response} (h : checkResponse config c now (some http) r = .ok ()) :
    r.keyId = some (http.header (str "x-bedrock-key-id")) ∧
      (truthy config.signingKeyId = true → r.keyId = config.signingKeyId) := by
  obtain ⟨_, _, h⟩ := bind_eq_ok.mp h
  obtain ⟨_, hkey, _⟩ := bind_eq_ok.mp h
  obtain ⟨_, hheader, hpin⟩ := bind_eq_ok.mp hkey
  refine ⟨not_not.mp (raiseIf_eq_ok.mp hheader), fun htrue => ?_⟩
  exact not_not.mp fun hne => raiseIf_eq_ok.mp hpin ⟨htrue, hne⟩

/-- **A genuine response** to the challenge `c`: signed under the pinned key, about this request,
    and fresh; `payload` is the object it carries. -/
structure Genuine [CallStack] [Ed25519] (config : Config) (http : HTTPResponse) (c : Str)
    (now : Int) (payload : List (Str × Json)) : Prop where
  /-- The body is, character by character, the encoding of a signature and the message it signs. -/
  signed : ∃ key sig msg text,
    config.signingPublicKey = rstripPad (urlsafeB64Encode key) ∧ key.length = 32 ∧
    decodeLatin1 http.body = rstripPad (urlsafeB64Encode (sig ++ msg)) ∧ sig.length = 64 ∧
    Ed25519.verify key sig msg = true ∧
    decodeUtf8 msg = .ok text ∧ loads text = .ok (.dict payload)
  /-- The payload answers this request. -/
  challenge : getField payload (str "challenge") = .str c
  /-- It is for this system. -/
  system : getField payload (str "system") = .str config.systemId
  /-- It names the key id of the header. -/
  keyId : getField payload (str "kid") = .str (http.header (str "x-bedrock-key-id"))
  /-- That is the pinned one, where one is pinned. -/
  pin : ∀ k, config.signingKeyId = some k → k ≠ [] → http.header (str "x-bedrock-key-id") = k
  /-- The server's clock is within the allowed skew. -/
  fresh : ∃ t : Int, getField payload (str "server_time") = .int t ∧
    |t - now| ≤ config.maxServerClockSkewSeconds
  /-- The code is known, and the flags are its flags. -/
  flags : ∃ code, getField payload (str "response_code") = .str code ∧
    responseCodeIsKnown code = true ∧
    getField payload (str "authed") = .bool (expectedAuthenticated code) ∧
    getField payload (str "is_error") = .bool (expectedError code) ∧
    getField payload (str "is_failure") = .bool (expectedFailure code)

/-- A signed message is the body's text behind a signature that verifies. -/
theorem openSigned_eq_ok [Ed25519] {config : Config} {http : HTTPResponse} {msg : Bytes}
    (h : openSigned config http = .ok msg) :
    signedHeaders http = true ∧ ∃ key sig,
      config.signingPublicKey = rstripPad (urlsafeB64Encode key) ∧ key.length = 32 ∧
      decodeLatin1 http.body = rstripPad (urlsafeB64Encode (sig ++ msg)) ∧ sig.length = 64 ∧
      Ed25519.verify key sig msg = true := by
  obtain ⟨_, hheaders, h⟩ := bind_eq_ok.mp h
  obtain ⟨signedBytes, hbody, h⟩ := bind_eq_ok.mp h
  obtain ⟨_, hlen, h⟩ := bind_eq_ok.mp h
  obtain ⟨key, hkey, h⟩ := bind_eq_ok.mp h
  obtain ⟨_, hverify, h⟩ := bind_eq_ok.mp h
  obtain rfl := Except.ok.inj h
  obtain ⟨hpinned, hkeylen⟩ := pinnedKey_eq_ok hkey
  refine ⟨by simpa using raiseIf_eq_ok.mp hheaders, key, signedBytes.take SIGNATURE_BYTES, hpinned,
    hkeylen, ?_, ?_, by simpa using raiseIf_eq_ok.mp hverify⟩
  · rw [List.take_append_drop]
    exact base64UrlDecode_canonical hbody
  · have := raiseIf_eq_ok.mp hlen
    rw [List.length_take, SIGNATURE_BYTES]
    rw [SIGNATURE_BYTES] at this
    omega

/-- **Acceptance is sound**: what `verify_signed_response` returns is the reading of a genuine
    response to the challenge. -/
theorem genuine_of_accepted [CallStack] [Ed25519] {config : Config} {http : HTTPResponse} {c : Str}
    {now : Int} {r : Response} (h : verifySignedResponse config http c now = .ok r) :
    ∃ payload, Genuine config http c now payload ∧ ReadsAs payload r ∧ Bound config c now r := by
  obtain ⟨m, text, payload, hopen, -, htext, hload, hread, hcheck⟩ := verifySignedResponse_eq_ok h
  obtain ⟨-, key, sig, hkey, hkeylen, hbody, hsig, hverify⟩ := openSigned_eq_ok hopen
  have hreads := readResponse_eq_ok hread
  have hbound := checkResponse_bound hcheck
  obtain ⟨hheader, hpin⟩ := checkResponse_keyId hcheck
  obtain ⟨kid, hkid, hfield⟩ := hreads.keyId
  obtain rfl : kid = http.header (str "x-bedrock-key-id") := Option.some.inj (hkid ▸ hheader)
  refine ⟨payload, ?_, hreads, hbound⟩
  -- what the signature covers, what the request asked for, and what the client was configured with
  exact {
    signed := ⟨key, sig, m, text, hkey, hkeylen, hbody, hsig, hverify, htext, hload⟩
    challenge := hbound.challenge ▸ hreads.challenge
    system := hbound.system ▸ hreads.system
    keyId := hfield
    pin := by
      intro k hk hne
      have htrue : truthy config.signingKeyId = true := by
        rw [hk]
        exact decide_eq_true hne
      exact Option.some.inj (hheader.symm.trans ((hpin htrue).trans hk))
    fresh := ⟨r.serverTime, hreads.serverTime, hbound.fresh⟩
    flags := ⟨r.code, hreads.code, hbound.known, hbound.authed ▸ hreads.authed,
      hbound.isError ▸ hreads.isError, hbound.isFailure ▸ hreads.isFailure⟩ }

/-- **One challenge a response**: a response that is accepted for two challenges (at any two times)
    is accepted for one. -/
theorem accepted_challenge_unique [CallStack] [Ed25519] {config : Config} {http : HTTPResponse}
    {c c' : Str} {now now' : Int} {r r' : Response}
    (h : verifySignedResponse config http c now = .ok r)
    (h' : verifySignedResponse config http c' now' = .ok r') : c = c' := by
  obtain ⟨m, text, payload, hopen, -, htext, hload, hread, hcheck⟩ := verifySignedResponse_eq_ok h
  obtain ⟨m', text', payload', hopen', -, htext', hload', hread', hcheck'⟩ :=
    verifySignedResponse_eq_ok h'
  obtain rfl := Except.ok.inj (hopen.symm.trans hopen')
  obtain rfl := Except.ok.inj (htext.symm.trans htext')
  obtain rfl : payload = payload' := Json.dict.inj (Except.ok.inj (hload.symm.trans hload'))
  obtain rfl := Except.ok.inj (hread.symm.trans hread')
  exact (checkResponse_bound hcheck).challenge.symm.trans (checkResponse_bound hcheck').challenge

/-! ## Signed responses to run the model with -/

/-- A public key, as it is pinned. -/
def samplePublicKey : Str := str "11qYAYKxCrfVS_7TyWQHOg7hcvPapiMlrwIaaPcHURo"

/-- The signed answer to an `init` with the challenge of 64 zero bytes. -/
def sampleInitBody : Bytes := [
  112, 69, 45, 45, 117, 119, 120, 101, 110, 78, 95, 119, 67, 100, 66, 75, 78, 103, 87, 114, 56,
  67, 83, 89, 51, 90, 111, 86, 51, 121, 88, 120, 83, 56, 117, 99, 56, 104, 102, 118, 74, 83, 54,
  67, 95, 81, 57, 106, 83, 86, 54, 48, 89, 105, 50, 68, 50, 81, 97, 115, 103, 120, 66, 106, 74,
  48, 67, 78, 86, 101, 110, 99, 99, 100, 85, 119, 118, 114, 109, 101, 116, 54, 106, 80, 66, 110,
  115, 105, 99, 72, 74, 118, 100, 71, 57, 106, 98, 50, 120, 102, 100, 109, 86, 121, 99, 50, 108,
  118, 98, 105, 73, 54, 73, 109, 74, 108, 90, 72, 74, 118, 89, 50, 115, 116, 100, 106, 69, 105,
  76, 67, 74, 114, 97, 87, 81, 105, 79, 105, 74, 114, 77, 83, 73, 115, 73, 110, 78, 53, 99, 51,
  82, 108, 98, 83, 73, 54, 73, 107, 70, 67, 81, 48, 82, 70, 82, 107, 100, 73, 83, 85, 112, 76, 84,
  69, 49, 79, 84, 49, 66, 82, 85, 108, 78, 85, 73, 105, 119, 105, 99, 109, 86, 122, 99, 71, 57,
  117, 99, 50, 86, 102, 89, 50, 57, 107, 90, 83, 73, 54, 73, 107, 57, 76, 73, 105, 119, 105, 97,
  72, 86, 116, 89, 87, 53, 102, 99, 109, 86, 122, 99, 71, 57, 117, 99, 50, 85, 105, 79, 105, 73,
  105, 76, 67, 74, 112, 99, 49, 57, 108, 99, 110, 74, 118, 99, 105, 73, 54, 90, 109, 70, 115, 99,
  50, 85, 115, 73, 109, 108, 122, 88, 50, 90, 104, 97, 87, 120, 49, 99, 109, 85, 105, 79, 109, 90,
  104, 98, 72, 78, 108, 76, 67, 74, 104, 100, 88, 82, 111, 90, 87, 81, 105, 79, 110, 82, 121, 100,
  87, 85, 115, 73, 109, 104, 49, 98, 87, 70, 117, 88, 51, 82, 112, 98, 87, 85, 105, 79, 105, 73,
  105, 76, 67, 74, 122, 90, 88, 74, 50, 90, 88, 74, 102, 100, 71, 108, 116, 90, 83, 73, 54, 77,
  84, 65, 119, 77, 67, 119, 105, 89, 50, 104, 104, 98, 71, 120, 108, 98, 109, 100, 108, 73, 106,
  111, 105, 81, 85, 70, 66, 81, 85, 70, 66, 81, 85, 70, 66, 81, 85, 70, 66, 81, 85, 70, 66, 81,
  85, 70, 66, 81, 85, 70, 66, 81, 85, 70, 66, 81, 85, 70, 66, 81, 85, 70, 66, 81, 85, 70, 66, 81,
  85, 70, 66, 81, 85, 70, 66, 81, 85, 70, 66, 81, 85, 70, 66, 81, 85, 70, 66, 81, 85, 70, 66, 81,
  85, 70, 66, 81, 85, 70, 66, 81, 85, 70, 66, 81, 85, 70, 66, 81, 85, 70, 66, 81, 85, 70, 66, 81,
  85, 70, 66, 81, 85, 70, 66, 81, 85, 70, 66, 81, 85, 70, 66, 81, 85, 70, 66, 81, 85, 69, 105, 76,
  67, 74, 122, 90, 88, 78, 122, 97, 87, 57, 117, 88, 51, 82, 118, 97, 50, 86, 117, 73, 106, 111,
  105, 81, 108, 74, 76, 88, 122, 65, 105, 76, 67, 74, 115, 97, 87, 78, 108, 98, 110, 78, 108, 88,
  50, 116, 108, 101, 86, 57, 111, 89, 88, 78, 111, 73, 106, 111, 105, 89, 109, 85, 121, 79, 84,
  99, 48, 78, 84, 81, 50, 79, 84, 99, 52, 90, 84, 77, 51, 77, 122, 108, 108, 78, 109, 81, 50, 90,
  71, 69, 52, 78, 87, 77, 48, 89, 109, 85, 53, 90, 106, 77, 122, 78, 71, 78, 108, 77, 122, 74,
  107, 90, 106, 74, 105, 79, 87, 90, 107, 78, 71, 73, 50, 90, 109, 89, 120, 89, 106, 85, 49, 89,
  122, 66, 107, 78, 84, 100, 108, 79, 87, 81, 48, 78, 67, 73, 115, 73, 109, 108, 117, 100, 109,
  108, 122, 97, 87, 74, 115, 90, 86, 57, 109, 98, 50, 120, 107, 90, 88, 74, 102, 100, 71, 57, 114,
  90, 87, 52, 105, 79, 105, 74, 112, 90, 105, 48, 119, 73, 110, 48]

/-- The signed answer to a `beat` with the challenge of 64 bytes of one. -/
def sampleBeatBody : Bytes := [
  112, 71, 105, 84, 113, 117, 67, 97, 57, 79, 117, 55, 73, 103, 84, 120, 84, 45, 107, 103, 87,
  104, 80, 74, 76, 120, 122, 66, 80, 118, 81, 117, 121, 99, 95, 102, 56, 117, 66, 107, 90, 89, 67,
  121, 50, 111, 50, 112, 95, 101, 56, 114, 117, 112, 122, 57, 85, 115, 122, 71, 118, 90, 99, 54,
  52, 112, 97, 109, 77, 88, 112, 85, 81, 100, 56, 85, 118, 90, 65, 57, 114, 95, 66, 55, 67, 88,
  115, 105, 99, 72, 74, 118, 100, 71, 57, 106, 98, 50, 120, 102, 100, 109, 86, 121, 99, 50, 108,
  118, 98, 105, 73, 54, 73, 109, 74, 108, 90, 72, 74, 118, 89, 50, 115, 116, 100, 106, 69, 105,
  76, 67, 74, 114, 97, 87, 81, 105, 79, 105, 74, 114, 77, 83, 73, 115, 73, 110, 78, 53, 99, 51,
  82, 108, 98, 83, 73, 54, 73, 107, 70, 67, 81, 48, 82, 70, 82, 107, 100, 73, 83, 85, 112, 76, 84,
  69, 49, 79, 84, 49, 66, 82, 85, 108, 78, 85, 73, 105, 119, 105, 99, 109, 86, 122, 99, 71, 57,
  117, 99, 50, 86, 102, 89, 50, 57, 107, 90, 83, 73, 54, 73, 107, 57, 76, 73, 105, 119, 105, 97,
  72, 86, 116, 89, 87, 53, 102, 99, 109, 86, 122, 99, 71, 57, 117, 99, 50, 85, 105, 79, 105, 73,
  105, 76, 67, 74, 112, 99, 49, 57, 108, 99, 110, 74, 118, 99, 105, 73, 54, 90, 109, 70, 115, 99,
  50, 85, 115, 73, 109, 108, 122, 88, 50, 90, 104, 97, 87, 120, 49, 99, 109, 85, 105, 79, 109, 90,
  104, 98, 72, 78, 108, 76, 67, 74, 104, 100, 88, 82, 111, 90, 87, 81, 105, 79, 110, 82, 121, 100,
  87, 85, 115, 73, 109, 104, 49, 98, 87, 70, 117, 88, 51, 82, 112, 98, 87, 85, 105, 79, 105, 73,
  105, 76, 67, 74, 122, 90, 88, 74, 50, 90, 88, 74, 102, 100, 71, 108, 116, 90, 83, 73, 54, 77,
  84, 65, 119, 77, 67, 119, 105, 89, 50, 104, 104, 98, 71, 120, 108, 98, 109, 100, 108, 73, 106,
  111, 105, 81, 86, 70, 70, 81, 107, 70, 82, 82, 85, 74, 66, 85, 85, 86, 67, 81, 86, 70, 70, 81,
  107, 70, 82, 82, 85, 74, 66, 85, 85, 86, 67, 81, 86, 70, 70, 81, 107, 70, 82, 82, 85, 74, 66,
  85, 85, 86, 67, 81, 86, 70, 70, 81, 107, 70, 82, 82, 85, 74, 66, 85, 85, 86, 67, 81, 86, 70, 70,
  81, 107, 70, 82, 82, 85, 74, 66, 85, 85, 86, 67, 81, 86, 70, 70, 81, 107, 70, 82, 82, 85, 74,
  66, 85, 85, 86, 67, 81, 86, 70, 70, 81, 107, 70, 82, 82, 85, 74, 66, 85, 85, 86, 67, 81, 86, 69,
  105, 76, 67, 74, 122, 90, 88, 78, 122, 97, 87, 57, 117, 88, 51, 82, 118, 97, 50, 86, 117, 73,
  106, 111, 105, 81, 108, 74, 71, 88, 122, 69, 105, 102, 81]

/-- The signed answer to an `init` with the challenge of 64 bytes of two, without a folder token. -/
def sampleOtherBody : Bytes := [
  67, 84, 54, 48, 119, 70, 116, 76, 50, 52, 87, 78, 98, 74, 97, 77, 122, 100, 110, 110, 107, 122,
  100, 69, 112, 109, 54, 116, 49, 89, 111, 65, 109, 97, 83, 87, 99, 101, 53, 116, 71, 121, 69,
  105, 74, 117, 67, 111, 56, 84, 106, 67, 57, 73, 85, 54, 45, 48, 84, 81, 51, 87, 70, 52, 121,
  103, 102, 68, 51, 76, 87, 87, 88, 108, 120, 66, 100, 52, 53, 90, 78, 57, 52, 82, 65, 88, 115,
  105, 99, 72, 74, 118, 100, 71, 57, 106, 98, 50, 120, 102, 100, 109, 86, 121, 99, 50, 108, 118,
  98, 105, 73, 54, 73, 109, 74, 108, 90, 72, 74, 118, 89, 50, 115, 116, 100, 106, 69, 105, 76, 67,
  74, 114, 97, 87, 81, 105, 79, 105, 74, 114, 77, 83, 73, 115, 73, 110, 78, 53, 99, 51, 82, 108,
  98, 83, 73, 54, 73, 107, 70, 67, 81, 48, 82, 70, 82, 107, 100, 73, 83, 85, 112, 76, 84, 69, 49,
  79, 84, 49, 66, 82, 85, 108, 78, 85, 73, 105, 119, 105, 99, 109, 86, 122, 99, 71, 57, 117, 99,
  50, 86, 102, 89, 50, 57, 107, 90, 83, 73, 54, 73, 107, 57, 76, 73, 105, 119, 105, 97, 72, 86,
  116, 89, 87, 53, 102, 99, 109, 86, 122, 99, 71, 57, 117, 99, 50, 85, 105, 79, 105, 73, 105, 76,
  67, 74, 112, 99, 49, 57, 108, 99, 110, 74, 118, 99, 105, 73, 54, 90, 109, 70, 115, 99, 50, 85,
  115, 73, 109, 108, 122, 88, 50, 90, 104, 97, 87, 120, 49, 99, 109, 85, 105, 79, 109, 90, 104,
  98, 72, 78, 108, 76, 67, 74, 104, 100, 88, 82, 111, 90, 87, 81, 105, 79, 110, 82, 121, 100, 87,
  85, 115, 73, 109, 104, 49, 98, 87, 70, 117, 88, 51, 82, 112, 98, 87, 85, 105, 79, 105, 73, 105,
  76, 67, 74, 122, 90, 88, 74, 50, 90, 88, 74, 102, 100, 71, 108, 116, 90, 83, 73, 54, 77, 84, 65,
  119, 77, 67, 119, 105, 89, 50, 104, 104, 98, 71, 120, 108, 98, 109, 100, 108, 73, 106, 111, 105,
  81, 87, 100, 74, 81, 48, 70, 110, 83, 85, 78, 66, 90, 48, 108, 68, 81, 87, 100, 74, 81, 48, 70,
  110, 83, 85, 78, 66, 90, 48, 108, 68, 81, 87, 100, 74, 81, 48, 70, 110, 83, 85, 78, 66, 90, 48,
  108, 68, 81, 87, 100, 74, 81, 48, 70, 110, 83, 85, 78, 66, 90, 48, 108, 68, 81, 87, 100, 74, 81,
  48, 70, 110, 83, 85, 78, 66, 90, 48, 108, 68, 81, 87, 100, 74, 81, 48, 70, 110, 83, 85, 78, 66,
  90, 48, 108, 68, 81, 87, 100, 74, 81, 48, 70, 110, 83, 85, 78, 66, 90, 48, 108, 68, 81, 87, 99,
  105, 76, 67, 74, 122, 90, 88, 78, 122, 97, 87, 57, 117, 88, 51, 82, 118, 97, 50, 86, 117, 73,
  106, 111, 105, 81, 108, 74, 76, 88, 122, 73, 105, 76, 67, 74, 115, 97, 87, 78, 108, 98, 110, 78,
  108, 88, 50, 116, 108, 101, 86, 57, 111, 89, 88, 78, 111, 73, 106, 111, 105, 78, 50, 77, 122,
  78, 109, 73, 119, 89, 84, 108, 107, 90, 87, 82, 107, 90, 84, 69, 120, 79, 87, 77, 51, 78, 84,
  69, 50, 78, 84, 107, 49, 78, 50, 77, 50, 89, 122, 108, 106, 77, 84, 103, 51, 90, 84, 89, 49, 90,
  71, 89, 120, 90, 87, 85, 49, 90, 71, 73, 52, 78, 50, 77, 48, 89, 122, 85, 52, 89, 87, 81, 49,
  77, 68, 78, 104, 90, 68, 103, 52, 89, 50, 74, 108, 77, 121, 74, 57]

/-- Ed25519 on the messages above, which this key signed. -/
@[reducible] def sampleEd25519 : Ed25519 where
  verify key signature message :=
    rstripPad (urlsafeB64Encode key) = samplePublicKey &&
      [sampleInitBody, sampleBeatBody, sampleOtherBody].any fun body =>
        rstripPad (urlsafeB64Encode (signature ++ message)) = decodeLatin1 body

/-- A stack of a hundred frames. -/
@[reducible] def sampleStack : CallStack := ⟨100⟩

/-- The configuration of the sample client. -/
def sampleConfig : Config where
  systemId := str "ABCDEFGHIJKLMNOPQRST"
  version := str "bypass"
  hwid := str "1"
  slHwidStore := []
  slHwidExtraMandatory := []
  beatRateSeconds := 30
  maxServerClockSkewSeconds := 120
  baseUrl := str "https://systemlocker.net"
  invisibleFolderBaseUrl := str "https://invisiblefolder.net"
  programDigest := none
  signingKeyId := some (str "k1")
  invisibleFolderApiKey := none
  signingPublicKey := samplePublicKey
  automaticHeartbeats := true

/-- A response of the server with the headers of a signed one. -/
def signedHTTP (body : Bytes) : HTTPResponse where
  status := 200
  body := body
  headers := (((∅ : Dict Str).insert (str "x-bedrock-protocol") (str "bedrock-v1")).insert
    (str "x-bedrock-signed") (str "true")).insert (str "x-bedrock-key-id") (str "k1")
  error := []

/-- The headers of the one unsigned response that is looked at. -/
def unsignedHTTP (body : Bytes) : HTTPResponse where
  status := 200
  body := body
  headers := ((∅ : Dict Str).insert (str "x-bedrock-protocol") (str "bedrock-v1")).insert
    (str "x-bedrock-signed") (str "false")
  error := []

/-- What the signed answer to the `init` reads as. -/
def sampleInitResponse : Response where
  code := str "OK"
  humanResponse := []
  isError := false
  isFailure := false
  authed := true
  protocolVersion := str "bedrock-v1"
  keyId := some (str "k1")
  system := str "ABCDEFGHIJKLMNOPQRST"
  challenge := generateChallenge (List.replicate 64 0)
  serverTime := 1000
  humanTime := []
  sessionToken := some (str "BRK_0")
  licenseKeyHash := some (str "be2974546978e3739e6d6da85c4be9f334ce32df2b9fd4b6ff1b55c0d57e9d44")
  usernameHash := none
  terminationMessage := none
  ssoUrl := none
  invisibleFolderToken := some (str "if-0")
  responseVariables := ∅

theorem sampleInit_verified :
    @verifySignedResponse sampleStack sampleEd25519 sampleConfig (signedHTTP sampleInitBody)
      (generateChallenge (List.replicate 64 0)) 1000 = .ok sampleInitResponse := by
  decide +kernel

end Bedrock.Protocol

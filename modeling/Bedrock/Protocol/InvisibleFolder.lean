/-
  `invisible_folder.py`: file delivery, in terms of what the requests come to.

  1. **Requests** — the prerequisites, the URLs and the percent encoding of metadata keys.

  2. **Answers** — the error message of a failed request, and the metadata with its checks in the
     source's order.

  3. **`download_if_new`** — the metadata request, the comparison with the revision the caller knows
     (`planDownload`), the download.  `Path(destination)` is never the empty string, so the check for
     it never fires and is left out.

  `only_bedrock_error_iff` says when nothing but `BedrockError` escapes, here and in the two
  verification entry points.
-/
import Bedrock.Protocol.Verify

open Lib.Fallible Bedrock.Python

namespace Bedrock.Protocol

def DOWNLOAD_PREFIX : Str := str "/a/"
def METADATA_PREFIX : Str := str "/api/v1/files/"
def METADATA_SUFFIX : Str := str "/metadata"
def REVISIONS_KEY : Str := str "__revisions"

/-! ## Requests -/

/-- `[A-Za-z0-9_-]`. -/
def isReferenceChar (c : CodePoint) : Bool := b64Alphabet.contains c

/-- `^[A-Za-z0-9_-]{4,128}$`: the `$` also matches before a newline at the end. -/
def validReferenceId (referenceId : Str) : Bool :=
  let body := if referenceId.getLast? = some (chr '\n') then referenceId.dropLast else referenceId
  4 ≤ body.length && body.length ≤ 128 && body.all isReferenceChar

/-- `quote(value, safe="-_.")`. -/
def percentEncode (value : Str) : Except Exc Str := do
  let b ← encodeUtf8 value
  return b.flatMap fun x =>
    if isUnreserved x then [Fin.ofNat _ x.toNat]
    else chr '%' :: [upperHex (x.toNat / 16), upperHex (x.toNat % 16)].map fun d => Fin.ofNat _ d.toNat

/-- `base_url.rstrip("/") + path`. -/
def endpoint (baseUrl path : Str) : Str := (baseUrl.reverse.dropWhile (· = chr '/')).reverse ++ path

/-- `_check_prerequisites`. -/
def checkPrerequisites (config : Config) (referenceId : Str) : Except Exc Unit := do
  raiseIf ((str "https://").isPrefixOf config.invisibleFolderBaseUrl = false)
    (bedrock .configuration "Invisible Folder base URL must use HTTPS.")
  raiseIf (validReferenceId referenceId = false)
    (bedrock .configuration "Invisible Folder reference ID must be 4 through 128 URL-safe characters.")

/-- Where a file is downloaded from. -/
def downloadUrl (config : Config) (referenceId : Str) : Str :=
  endpoint config.invisibleFolderBaseUrl DOWNLOAD_PREFIX ++ referenceId

/-- Where its metadata is asked for: the keys are quoted, the reference id is not, since its characters
    need no quoting. -/
def metadataUrl (config : Config) (referenceId : Str) (keys : List Str) : Except Exc Str := do
  let url := endpoint config.invisibleFolderBaseUrl METADATA_PREFIX ++ referenceId ++ METADATA_SUFFIX
  if keys = [] then return url
  else
    let encoded ← keys.mapM percentEncode
    return url ++ str "?keys[]=" ++ List.intercalate (str "&keys[]=") encoded

/-! ## Answers -/

/-- `InvisibleFolderFile`. -/
structure InvisibleFolderFile where
  id : Str
  referenceId : Str
  name : Str
  mimeType : Str
  size : Int
  downloads : Int
  uploadedAt : Str
  permissionTypeId : Int

/-- One metadata value. -/
structure MetadataEntry where
  value : Str
  createdAt : Option Str

/-- `InvisibleFolderMetadata`: the file, and the values of the keys that were asked for. -/
structure InvisibleFolderMetadata where
  /-- The file's own record. -/
  file : InvisibleFolderFile
  /-- The metadata by key, in the order of the answer. -/
  values : List (Str × MetadataEntry)

/-- `values.get(key)`. -/
def InvisibleFolderMetadata.get (m : InvisibleFolderMetadata) (key : Str) : Option MetadataEntry :=
  (m.values.find? fun item => item.1 = key).map Prod.snd

/-- A string field of a payload, or nothing. -/
def stringField (payload : List (Str × Json)) (name : String) : Option Str :=
  match getField payload (str name) with
  | .str s => some s
  | _ => none

/-- The errors of a metadata document: it has another shape .. -/
def shapeError : Exc :=
  bedrock .invalidPayload "Invisible Folder metadata response has the wrong shape."

/-- .. a field is not there .. -/
def missingFieldError (name : String) : Exc :=
  .bedrockError .invalidPayload
    [.lit "Invisible Folder file field '", .lit name, .lit "' is missing or has the wrong type."]

/-- .. or has the wrong type. -/
def typeError (name : String) : Exc :=
  .bedrockError .invalidPayload
    [.lit "Invisible Folder file field '", .lit name, .lit "' has the wrong type."]

/-- A text field of a file. -/
def fileString (file : List (Str × Json)) (name : String) : Except Exc Str :=
  match getField file (str name) with
  | .str s => .ok s
  | _ => .error (missingFieldError name)

/-- A count: an `int` that is not negative. -/
def fileCount (file : List (Str × Json)) (name : String) : Except Exc Int :=
  match getField file (str name) with
  | .int n => if n < 0 then .error (typeError name) else .ok n
  | _ => .error (typeError name)

/-- The permission bits of a file. -/
def filePermission (file : List (Str × Json)) : Except Exc Int :=
  match getField file (str "permission_type_id") with
  | .int n => .ok n
  | _ => .error (typeError "permission_type_id")

/-- `FILE_STRING_FIELDS` in their order, then the numbers. -/
def readFile (file : List (Str × Json)) : Except Exc InvisibleFolderFile := do
  let id ← fileString file "id"
  let referenceId ← fileString file "reference_id"
  let name ← fileString file "name"
  let mimeType ← fileString file "mime_type"
  let uploadedAt ← fileString file "uploaded_at"
  let size ← fileCount file "size"
  let downloads ← fileCount file "downloads"
  let permissionTypeId ← filePermission file
  return { id, referenceId, name, mimeType, size, downloads, uploadedAt, permissionTypeId }

/-- An entry of the document that is no file. -/
def entryError : Exc :=
  bedrock .invalidPayload "Invisible Folder metadata entry has the wrong type."

/-- The creation time of an entry. -/
def readCreatedAt (entry : List (Str × Json)) : Except Exc (Option Str) :=
  match getField entry (str "created_at") with
  | .null => .ok none
  | .str s => .ok (some s)
  | _ => .error
      (bedrock .invalidPayload "Invisible Folder metadata creation time has the wrong type.")

/-- One item of `metadata`. -/
def readEntry (item : Str × Json) : Except Exc (Str × MetadataEntry) :=
  match item.2 with
  | .dict entry =>
    match getField entry (str "value") with
    | .str value => do return (item.1, ⟨value, ← readCreatedAt entry⟩)
    | _ => .error entryError
  | _ => .error entryError

/-- `payload.get("data")`, of an object only. -/
def dataField (payload : Json) : Json :=
  match payload with
  | .dict items => getField items (str "data")
  | _ => .null

/-- The checks of `_parse_metadata` on a decoded payload. -/
def readMetadata (payload : Json) : Except Exc InvisibleFolderMetadata :=
  match dataField payload with
  | .dict data =>
    match getField data (str "file"), getField data (str "metadata") with
    | .dict file, .dict metadata => do
      let file ← readFile file
      let values ← metadata.mapM readEntry
      return { file, values }
    | _, _ => .error shapeError
  | _ => .error shapeError

section Folder

variable [CallStack]

/-- `_parse_metadata`. -/
def parseMetadata (bodyText : Str) : Except Exc InvisibleFolderMetadata :=
  match loads bodyText with
  | .error e =>
    if e.isValueError then
      .error (bedrock .invalidPayload "Invisible Folder metadata JSON is invalid.")
    else .error e
  | .ok payload => readMetadata payload

/-- The message an error payload carries. -/
def payloadMessage : Json → Str
  | .dict items => ((stringField items "message").orElse fun _ => stringField items "error").getD []
  | _ => []

/-- `_error_message`. -/
def errorMessage (http : HTTPResponse) : Except Exc Str :=
  match (do loads (← decodeUtf8 http.body)) with
  | .error e => if e.isValueError then .ok [] else .error e
  | .ok payload => .ok (payloadMessage payload)

/-- `_transport_error`. -/
def folderTransportError (action : String) (http : HTTPResponse) : Exc :=
  if http.error ≠ [] then
    .bedrockError .transport [.lit "Invisible Folder ", .lit action, .lit " failed: ", .str http.error]
  else .bedrockError .transport
    [.lit "Invisible Folder ", .lit action, .lit " returned HTTP ", .int http.status, .lit "."]

/-- The exception of a failed request, the server's message in it if there is one. -/
def failedRequest {α : Type} (action : String) (http : HTTPResponse) : Except Exc α := do
  let message ← errorMessage http
  if message ≠ [] then
    .error (.bedrockError .transport
      [.lit "Invisible Folder ", .lit action, .lit " failed: ", .str message])
  else .error (folderTransportError action http)

/-- `_handle_download_response`. -/
def handleDownloadResponse (http : HTTPResponse) : Except Exc Bytes :=
  if http.ok = false then failedRequest "download" http else .ok http.body

/-- `download`, given the token held and what the request comes to. -/
def download (config : Config) (token referenceId : Str) (http : HTTPResponse) :
    Except Exc Bytes := do
  checkPrerequisites config referenceId
  raiseIf (token = []) (bedrock .sessionTerminated
    "No Invisible Folder token is available. Request one during initialization or a heartbeat.")
  handleDownloadResponse http

/-- `metadata`. -/
def metadata (config : Config) (referenceId : Str) (keys : List Str) (http : HTTPResponse) :
    Except Exc InvisibleFolderMetadata := do
  checkPrerequisites config referenceId
  let _ ← metadataUrl config referenceId keys
  if http.ok = false then failedRequest "metadata request" http
  else parseMetadata (← decodeUtf8 http.body)

/-! ## `download_if_new` -/

/-- `DownloadIfNewResult`. -/
structure DownloadIfNewResult where
  /-- False where the stored revision is the current one. -/
  downloaded : Bool
  /-- The revision the result is about. -/
  revision : Str
  /-- What the metadata request answered. -/
  metadata : InvisibleFolderMetadata
  /-- The payload, where no destination was given. -/
  bytes : Option Bytes
  /-- The destination, and ghost: what was written there. -/
  destination : Option (Str × Bytes)

/-- The bytes a result delivered. -/
def DownloadIfNewResult.delivered (r : DownloadIfNewResult) : Option Bytes :=
  r.bytes.orElse fun _ => r.destination.map Prod.snd

/-- The server's revision, and whether the file has to be downloaded. -/
def planDownload (current : InvisibleFolderMetadata) (knownRevision : Str) :
    Except Exc (Str × Bool) :=
  match current.get REVISIONS_KEY with
  | none => .error
      (bedrock .invalidPayload "Invisible Folder metadata did not contain __revisions.")
  | some entry => .ok (entry.value, !(knownRevision ≠ [] && knownRevision = entry.value))

/-- `destination.write_bytes(payload)`, and the exception it is turned into. -/
def writeDestination (written : Except Exc Unit) : Except Exc Unit :=
  match written with
  | .error e =>
    if e.isOSError then .error
      (bedrock .localFailure "Could not write Invisible Folder download destination.")
    else .error e
  | .ok _ => .ok ()

/-- What one download contributes: the token held, the outcome of the request and of the write. -/
structure Delivery where
  /-- The token of the download request. -/
  token : Str
  /-- Its answer. -/
  http : HTTPResponse
  /-- What writing the destination comes to. -/
  written : Except Exc Unit

/-- The second half of `download_if_new`. -/
def deliver (config : Config) (referenceId : Str) (destination : Option Str)
    (current : InvisibleFolderMetadata) (revision : Str) (d : Delivery) :
    Except Exc DownloadIfNewResult := do
  let payload ← download config d.token referenceId d.http
  match destination with
  | none => return ⟨true, revision, current, some payload, none⟩
  | some path => do
    writeDestination d.written
    return ⟨true, revision, current, none, some (path, payload)⟩

/-- `download_if_new`. -/
def downloadIfNew (config : Config) (referenceId knownRevision : Str) (destination : Option Str)
    (metadataHttp : HTTPResponse) (d : Delivery) : Except Exc DownloadIfNewResult := do
  let current ← metadata config referenceId [REVISIONS_KEY] metadataHttp
  let (revision, new) ← planDownload current knownRevision
  if new then deliver config referenceId destination current revision d
  else return ⟨false, revision, current, none, none⟩

end Folder

/-! ## What is raised -/

/-- The computation returns or raises `BedrockError`. -/
def OnlyBedrock {α : Type} (x : Except Exc α) : Prop := Raises (fun e => e.isBedrockError = true) x

/-- The bytes are UTF-8. -/
def Utf8 (b : Bytes) : Prop := ∃ text, decodeUtf8 b = .ok text

/-- `json.loads` returns or raises a `ValueError` on the text of these bytes. -/
def JsonReturns [CallStack] (b : Bytes) : Prop :=
  ∀ text, decodeUtf8 b = .ok text → loads text ≠ .error .recursionError

/-- The prerequisites of a request are met. -/
def Allowed (config : Config) (referenceId : Str) : Prop :=
  checkPrerequisites config referenceId = .ok ()

instance (config : Config) (referenceId : Str) : Decidable (Allowed config referenceId) :=
  inferInstanceAs (Decidable (_ = _))

theorem onlyBedrock_error {α : Type} {e : Exc} :
    OnlyBedrock (.error e : Except Exc α) ↔ e.isBedrockError = true :=
  ⟨fun h => h e rfl, fun h => raises_error h⟩

theorem checkPrerequisites_raises (config : Config) (referenceId : Str) :
    OnlyBedrock (checkPrerequisites config referenceId) :=
  raises_bind (raises_raiseIf rfl) fun _ => raises_raiseIf rfl

/-! ### Reading metadata -/

theorem fileString_raises (file : List (Str × Json)) (name : String) :
    OnlyBedrock (fileString file name) := by
  unfold fileString
  split
  · exact raises_ok _
  · exact raises_error rfl

theorem fileCount_raises (file : List (Str × Json)) (name : String) :
    OnlyBedrock (fileCount file name) := by
  unfold fileCount
  split
  · split
    · exact raises_error rfl
    · exact raises_ok _
  · exact raises_error rfl

theorem filePermission_raises (file : List (Str × Json)) : OnlyBedrock (filePermission file) := by
  unfold filePermission
  split
  · exact raises_ok _
  · exact raises_error rfl

theorem readFile_raises (file : List (Str × Json)) : OnlyBedrock (readFile file) := by
  have hs := fileString_raises file
  have hc := fileCount_raises file
  unfold readFile
  exact raises_bind (hs _) fun _ => raises_bind (hs _) fun _ => raises_bind (hs _) fun _ =>
    raises_bind (hs _) fun _ => raises_bind (hs _) fun _ => raises_bind (hc _) fun _ =>
    raises_bind (hc _) fun _ => raises_bind (filePermission_raises _) fun _ => raises_ok _

theorem readEntry_raises (item : Str × Json) : OnlyBedrock (readEntry item) := by
  unfold readEntry
  split
  · split
    · refine raises_bind ?_ fun _ => raises_ok _
      unfold readCreatedAt
      split
      · exact raises_ok _
      · exact raises_ok _
      · exact raises_error rfl
    · exact raises_error rfl
  · exact raises_error rfl

theorem readMetadata_raises (payload : Json) : OnlyBedrock (readMetadata payload) := by
  unfold readMetadata
  split
  · split
    · refine raises_bind (readFile_raises _) fun _ => raises_bind ?_ fun _ => raises_ok _
      intro e he
      rcases mapM_cases (f := readEntry) _ with ⟨values, hvalues, -⟩ | ⟨item, -, e', he', hfail⟩
      · rw [hvalues] at he
        cases he
      · rw [hfail] at he
        obtain rfl := Except.error.inj he
        exact readEntry_raises item _ he'
    · exact raises_error rfl
  · exact raises_error rfl

section Folder

variable [CallStack]

/-- Where `json.loads` returns or raises `ValueError`, a body is bad exactly if it is not UTF-8. -/
theorem badText_iff {b : Bytes} (h : JsonReturns b) : badText b = false ↔ Utf8 b := by
  constructor
  · intro hgood
    cases htext : decodeUtf8 b with
    | ok text => exact ⟨text, htext⟩
    | error e =>
      rw [badText, htext] at hgood
      cases hgood
  · rintro ⟨text, htext⟩
    exact badText_eq_false htext (h text htext)

/-- On text that `json.loads` does not run out of stack on, parsing raises `BedrockError` only. -/
theorem parseMetadata_raises {text : Str} (h : loads text ≠ .error .recursionError) :
    OnlyBedrock (parseMetadata text) := by
  unfold parseMetadata
  split
  · rename_i e he
    have hjson := loads_error he
    have hvalue : e.isValueError = true := by
      rw [Exc.isJsonError, Bool.or_eq_true, decide_eq_true_eq] at hjson
      rcases hjson with hvalue | rfl
      · exact hvalue
      · exact absurd he h
    rw [if_pos hvalue]
    exact raises_error rfl
  · exact readMetadata_raises _

/-- The message of a failed request is found or left out: its handler names `ValueError`, and every
    error of the text is one. -/
theorem errorMessage_ok {http : HTTPResponse} (h : JsonReturns http.body) :
    ∃ message, errorMessage http = .ok message := by
  unfold errorMessage
  cases hload : (do loads (← decodeUtf8 http.body) : Except Exc Json) with
  | ok payload => exact ⟨_, rfl⟩
  | error e =>
    refine ⟨[], if_pos ?_⟩
    rcases bind_eq_error.mp hload with hdecode | ⟨text, htext, he⟩
    · rw [decodeUtf8_error hdecode]
      rfl
    · have hjson := loads_error he
      rw [Exc.isJsonError, Bool.or_eq_true, decide_eq_true_eq] at hjson
      rcases hjson with hvalue | rfl
      · exact hvalue
      · exact absurd he (h text htext)

/-- So a failed request ends in a `BedrockError`. -/
theorem failedRequest_raises {α : Type} {action : String} {http : HTTPResponse}
    (h : JsonReturns http.body) : OnlyBedrock (failedRequest action http : Except Exc α) := by
  obtain ⟨message, hmessage⟩ := errorMessage_ok h
  unfold failedRequest
  rw [hmessage, ok_bind]
  split
  · exact raises_error rfl
  · refine raises_error ?_
    unfold folderTransportError
    split <;> rfl

/-- **`download` raises nothing but `BedrockError`.** -/
theorem download_raises (config : Config) (token referenceId : Str) {http : HTTPResponse}
    (h : JsonReturns http.body) : OnlyBedrock (download config token referenceId http) := by
  refine raises_bind (checkPrerequisites_raises _ _) fun _ => raises_bind (raises_raiseIf rfl)
    fun _ => ?_
  unfold handleDownloadResponse
  split
  · exact failedRequest_raises h
  · exact raises_ok _

omit [CallStack] in
/-- Keys that can be encoded have a URL. -/
theorem metadataUrl_ok (config : Config) (referenceId : Str) {keys : List Str}
    (hkeys : ∀ key ∈ keys, CanEncode key) : ∃ url, metadataUrl config referenceId keys = .ok url := by
  unfold metadataUrl
  split
  · exact ⟨_, rfl⟩
  · rcases mapM_cases (f := percentEncode) keys with ⟨encoded, hencoded, -⟩ | ⟨key, hkey, e, he, -⟩
    · rw [hencoded]
      exact ⟨_, rfl⟩
    · obtain ⟨b, hb⟩ := encodeUtf8_ok (hkeys key hkey)
      rw [percentEncode, hb] at he
      cases he

/-- **`metadata`** raises something else exactly when its request succeeds with a body that is not
    UTF-8. -/
theorem metadata_onlyBedrock_iff (config : Config) (referenceId : Str) {keys : List Str}
    {http : HTTPResponse} (hkeys : ∀ key ∈ keys, CanEncode key) (h : JsonReturns http.body) :
    OnlyBedrock (metadata config referenceId keys http) ↔
      (Allowed config referenceId → http.ok = true → Utf8 http.body) := by
  obtain ⟨url, hurl⟩ := metadataUrl_ok config referenceId hkeys
  unfold metadata
  -- the checks come before the request: their errors are `BedrockError`s already
  cases hcheck : checkPrerequisites config referenceId with
  | error e =>
    rw [error_bind, onlyBedrock_error]
    refine iff_of_true (checkPrerequisites_raises _ _ e hcheck) fun hallowed => ?_
    rw [Allowed, hcheck] at hallowed
    cases hallowed
  | ok u =>
    rw [ok_bind, hurl, ok_bind]
    -- where the answer is not good, a body that cannot be decoded is caught
    by_cases hok : http.ok = false
    · rw [if_pos hok, hok]
      exact iff_of_true (failedRequest_raises h) fun _ hne => nomatch hne
    · rw [if_neg hok]
      have hok : http.ok = true := by simpa using hok
      -- the text of a good answer is decoded outside of any `try`
      cases htext : decodeUtf8 http.body with
      | error e =>
        rw [error_bind, onlyBedrock_error, decodeUtf8_error htext]
        refine iff_of_false (by decide) fun hutf8 => ?_
        obtain ⟨text, hdecode⟩ := hutf8 hcheck hok
        rw [htext] at hdecode
        cases hdecode
      | ok text =>
        rw [ok_bind]
        exact iff_of_true (parseMetadata_raises (h text htext)) fun _ _ => ⟨text, htext⟩

theorem deliver_raises (config : Config) (referenceId revision : Str)
    (current : InvisibleFolderMetadata) {d : Delivery} (h : JsonReturns d.http.body) :
    OnlyBedrock (deliver config referenceId none current revision d) :=
  raises_bind (download_raises config d.token referenceId h) fun _ => raises_ok _

/-- `download_if_new` in memory adds nothing to what its metadata request raises. -/
theorem downloadIfNew_onlyBedrock_iff (config : Config) (referenceId knownRevision : Str)
    {http : HTTPResponse} {d : Delivery} (h : JsonReturns d.http.body) :
    OnlyBedrock (downloadIfNew config referenceId knownRevision none http d) ↔
      OnlyBedrock (metadata config referenceId [REVISIONS_KEY] http) := by
  unfold downloadIfNew
  cases hmetadata : metadata config referenceId [REVISIONS_KEY] http with
  | error e => rw [error_bind, onlyBedrock_error, onlyBedrock_error]
  | ok current =>
    rw [ok_bind]
    refine iff_of_true ?_ (raises_ok _)
    refine raises_bind ?_ fun plan => ?_
    · unfold planDownload
      split
      · exact raises_error rfl
      · exact raises_ok _
    · obtain ⟨revision, new⟩ := plan
      cases new with
      | true => exact deliver_raises config referenceId revision current h
      | false => exact raises_ok _

/-- **The verification of a signed response** lets nothing else out exactly if the signed message is
    good text. -/
theorem verifySignedResponse_onlyBedrock_iff [Ed25519] (config : Config) (http : HTTPResponse)
    (c : Str) (now : Int) :
    OnlyBedrock (verifySignedResponse config http c now) ↔
      ∀ m, openSigned config http = .ok m → badText m = false := by
  constructor
  · -- left to right: a signed message with a bad text would raise what is no `BedrockError`
    intro honly m hopen
    cases hverify : verifySignedResponse config http c now with
    | ok r =>
      obtain ⟨m', -, -, hopen', hgood, -⟩ := verifySignedResponse_eq_ok hverify
      rw [hopen] at hopen'
      obtain rfl := Except.ok.inj hopen'
      exact hgood
    | error e =>
      rcases verifySignedResponse_error hverify with ⟨hheaders, -⟩ | ⟨-, -, hgood⟩ | ⟨hother, -⟩
      · rw [(openSigned_eq_ok hopen).1] at hheaders
        cases hheaders
      · exact hgood m hopen
      · rw [honly e hverify] at hother
        cases hother
  · -- right to left: what the verification raises on a message with a good text
    intro hgood e he
    rcases verifySignedResponse_error he with ⟨-, rfl⟩ | ⟨-, hrefusal, -⟩ | ⟨-, m, hopen, hbad⟩
    · rfl
    · exact hrefusal.isBedrockError
    · rw [hgood m hopen] at hbad
      cases hbad

/-- **The unsigned revocation** lets nothing else out exactly if a body under its headers is good text.
    -/
theorem parseUnsignedRevocation_onlyBedrock_iff (config : Config) (http : HTTPResponse) (c : Str)
    (now : Int) :
    OnlyBedrock (parseUnsignedRevocation config http c now) ↔
      (unsignedHeaders http && badText http.body) = false := by
  constructor
  · intro honly
    cases hparse : parseUnsignedRevocation config http c now with
    | ok r => rw [(parseUnsignedRevocation_eq_ok hparse).1, Bool.and_false]
    | error e =>
      rcases parseUnsignedRevocation_error hparse with ⟨-, hgood⟩ | ⟨hother, -⟩
      · exact hgood
      · rw [honly e hparse] at hother
        cases hother
  · intro hgood e he
    rcases parseUnsignedRevocation_error he with ⟨hbedrock, -⟩ | ⟨-, hbad⟩
    · exact hbedrock
    · rw [hgood] at hbad
      cases hbad

/-- **When only `BedrockError` escapes.**  For encodable keys, and where `json.loads` returns or
    raises `ValueError` on the texts at hand: the verification of a signed response iff its signed
    message is UTF-8, the unsigned revocation iff a body under its headers is, the metadata request
    and the in-memory `download_if_new` iff a successful answer is, and the download always. -/
theorem only_bedrock_error_iff [Ed25519] (config : Config) (http : HTTPResponse) (c : Str)
    (now : Int) (referenceId knownRevision token : Str) (keys : List Str) (d : Delivery)
    (hkeys : ∀ key ∈ keys, CanEncode key) (hbody : JsonReturns http.body)
    (hmessage : ∀ m, openSigned config http = .ok m → JsonReturns m)
    (hdelivery : JsonReturns d.http.body) :
    (OnlyBedrock (verifySignedResponse config http c now) ↔
      ∀ m, openSigned config http = .ok m → Utf8 m) ∧
    (OnlyBedrock (parseUnsignedRevocation config http c now) ↔
      (unsignedHeaders http = true → Utf8 http.body)) ∧
    (OnlyBedrock (metadata config referenceId keys http) ↔
      (Allowed config referenceId → http.ok = true → Utf8 http.body)) ∧
    OnlyBedrock (download config token referenceId http) ∧
    (OnlyBedrock (downloadIfNew config referenceId knownRevision none http d) ↔
      (Allowed config referenceId → http.ok = true → Utf8 http.body)) := by
  refine ⟨?_, ?_, metadata_onlyBedrock_iff config referenceId hkeys hbody,
    download_raises config token referenceId hbody, ?_⟩
  · rw [verifySignedResponse_onlyBedrock_iff]
    exact forall₂_congr fun m hopen => badText_iff (hmessage m hopen)
  · rw [parseUnsignedRevocation_onlyBedrock_iff, Bool.and_eq_false_imp]
    exact imp_congr_right fun _ => badText_iff hbody
  · -- `download_if_new` asks for metadata with no keys but its own
    rw [downloadIfNew_onlyBedrock_iff config referenceId knownRevision hdelivery]
    refine metadata_onlyBedrock_iff config referenceId ?_ hbody
    intro key hkey
    rw [List.mem_singleton.mp hkey]
    exact canEncode_of_isAscii (by decide +kernel)

end Folder

/-! ## Two answers -/

/-- A body that was read is one on which `json.loads` returns. -/
theorem jsonReturns_of_isOk [CallStack] {b : Bytes}
    (h : (do loads (← decodeUtf8 b) : Except Exc Json).isOk = true) : JsonReturns b := by
  intro text htext hrec
  rw [htext, ok_bind, hrec] at h
  cases h

/-- The body `{}`, for all five. -/
theorem only_bedrock_error_iff_sample :
    @OnlyBedrock Response (@verifySignedResponse sampleStack sampleEd25519 sampleConfig
      (unsignedHTTP [123, 125]) [] 1000) ∧
    @OnlyBedrock Response (@parseUnsignedRevocation sampleStack sampleConfig
      (unsignedHTTP [123, 125]) [] 1000) ∧
    OnlyBedrock (@metadata sampleStack sampleConfig (str "file-1") [] (unsignedHTTP [123, 125])) ∧
    OnlyBedrock (@download sampleStack sampleConfig (str "IFO_1") (str "file-1")
      (unsignedHTTP [123, 125])) ∧
    OnlyBedrock (@downloadIfNew sampleStack sampleConfig (str "file-1") (str "7") none
      (unsignedHTTP [123, 125]) ⟨str "IFO_1", unsignedHTTP [123, 125], .ok ()⟩) := by
  have hbody : @JsonReturns sampleStack [123, 125] :=
    @jsonReturns_of_isOk sampleStack _ (by decide +kernel)
  have hutf8 : Utf8 [123, 125] := ⟨[123, 125], by decide⟩
  -- the answer is not signed, so there is no signed message
  have hopen : ∀ m, @openSigned sampleEd25519 sampleConfig (unsignedHTTP [123, 125]) ≠ .ok m := by
    intro m hm
    have hnone : ¬ (@openSigned sampleEd25519 sampleConfig (unsignedHTTP [123, 125])).isOk = true := by
      decide +kernel
    rw [hm] at hnone
    exact hnone rfl
  obtain ⟨hverify, hunsigned, hmetadata, hdownload, hnew⟩ :=
    @only_bedrock_error_iff sampleStack sampleEd25519 sampleConfig (unsignedHTTP [123, 125]) [] 1000
      (str "file-1") (str "7") (str "IFO_1") [] ⟨str "IFO_1", unsignedHTTP [123, 125], .ok ()⟩
      (fun _ hkey => absurd hkey List.not_mem_nil) hbody (fun m hm => absurd hm (hopen m)) hbody
  exact ⟨hverify.mpr fun m hm => absurd hm (hopen m), hunsigned.mpr fun _ => hutf8,
    hmetadata.mpr fun _ _ => hutf8, hdownload, hnew.mpr fun _ _ => hutf8⟩

/-- The one-byte body `b"\xff"` raises `UnicodeDecodeError` from the unsigned revocation and from
    the metadata request. -/
theorem unreadableBody_escapes :
    ¬ OnlyBedrock (@parseUnsignedRevocation sampleStack sampleConfig (unsignedHTTP [0xFF]) [] 1000) ∧
    ¬ OnlyBedrock (@metadata sampleStack sampleConfig (str "file-1") [] (unsignedHTTP [0xFF])) := by
  have hbody : @JsonReturns sampleStack [0xFF] := by
    intro text htext
    cases htext
  have hutf8 : ¬ Utf8 [0xFF] := by
    rintro ⟨text, htext⟩
    cases htext
  constructor
  · rw [@parseUnsignedRevocation_onlyBedrock_iff sampleStack]
    decide +kernel
  · rw [@metadata_onlyBedrock_iff sampleStack sampleConfig (str "file-1") [] (unsignedHTTP [0xFF])
      (fun _ hkey => absurd hkey List.not_mem_nil) hbody]
    intro h
    exact hutf8 (h (by decide +kernel) (by decide +kernel))

end Bedrock.Protocol

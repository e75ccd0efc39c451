/-
  Acceptance: what the client takes on the word of a response was signed for exactly this request.

  Three things are taken from a response — a session, a rotated token, an Invisible Folder token —
  by two callers with checks of their own.  For each of them the response is traced back to the one
  function that lets a message through, `verify_signed_response`; the unsigned fallback never gets
  this far, because its only code is not an authenticated one.
-/
import Bedrock.Protocol.Client

open Lib.Fallible Bedrock.Python

namespace Bedrock.Protocol

section Acceptance

variable [CallStack] [Ed25519]

/-- A rotation took its token from this payload. -/
structure RotatedBy (payload : List (Str × Json)) (s : BedrockSession) : Prop where
  /-- Only this code lets a heartbeat go on. -/
  code : getField payload (str "response_code") = .str (str "OK")
  /-- The token is the payload's. -/
  token : getField payload (str "session_token") = .str s.token
  /-- A rotated token has its own prefix. -/
  rotated : (str "BRF_").isPrefixOf s.token = true

/-- A session was started from this payload, for this identity. -/
structure StartedBy [Sha256] (q : Request) (payload : List (Str × Json)) (c : Client) : Prop where
  /-- Either of the two codes lets a session start. -/
  code : getField payload (str "response_code") = .str (str "OK") ∨
    getField payload (str "response_code") = .str (str "OUTDATED")
  /-- The installed session holds the payload's token. -/
  token : ∃ i, c.session = some i ∧ getField payload (str "session_token") = .str i.token ∧
    (str "BRK_").isPrefixOf i.token = true
  /-- The payload carries the hash of the identity that was sent. -/
  identity : ∃ identityHash, sha256Hex q.identity = .ok identityHash ∧
    getField payload (str (if q.keyAuthentication then "license_key_hash" else "username_hash")) =
      .str identityHash

/-- A heartbeat that changes the token or the count. -/
theorem genuine_of_rotated {config : Config} {s : BedrockSession} {b : Beat}
    (h : (s.heartbeat config b).2.token ≠ s.token ∨
      (s.heartbeat config b).2.completed ≠ s.completed) :
    ∃ payload, Genuine config b.outcome b.challenge b.now payload ∧
      RotatedBy payload (s.heartbeat config b).2 := by
  obtain ⟨r, token, hverify, hcode, -, htoken, hprefix, hres⟩ := heartbeat_changes h
  obtain ⟨payload, hgenuine, hreads, -⟩ := genuine_of_accepted hverify
  rw [hres]
  exact ⟨payload, hgenuine, hcode ▸ hreads.code, hreads.sessionToken token htoken, hprefix⟩

omit [CallStack] [Ed25519] in
/-- A heartbeat returns the response it verified. -/
theorem accept_returns {s : BedrockSession} {r r' : Response} (h : (s.accept r).1 = .ok r') :
    r' = r := by
  unfold BedrockSession.accept at h
  split at h
  · exact (Except.ok.inj h).symm
  · split at h
    · exact (Except.ok.inj h).symm
    · split at h
      · cases h
      · exact (Except.ok.inj h).symm

/-- What `receive` returns came out of one of the two pipelines. -/
theorem receive_returns {config : Config} {s : BedrockSession} {b : Beat} {http : HTTPResponse}
    {r : Response} (h : (s.receive config b http).1 = .ok r) :
    verifySignedResponse config http b.challenge b.now = .ok r ∨
      parseUnsignedRevocation config http b.challenge b.nowUnsigned = .ok r := by
  unfold BedrockSession.receive at h
  split at h
  · rename_i hverify
    rw [accept_returns h]
    exact Or.inl hverify
  · split at h
    · unfold BedrockSession.receiveUnsigned at h
      split at h
      · rename_i hparse
        rw [accept_returns h]
        exact Or.inr hparse
      · cases h
    · cases h

/-- A heartbeat that returns an authenticated response verified it. -/
theorem verified_of_authed {config : Config} {s : BedrockSession} {b : Beat} {r : Response}
    (h : (s.heartbeat config b).1 = .ok r) (hauthed : r.authed = true) :
    verifySignedResponse config b.outcome b.challenge b.now = .ok r := by
  unfold BedrockSession.heartbeat at h
  split at h
  · cases h
  · by_cases hsend : Sendable config s
    · rw [exchange_sendable hsend] at h
      dsimp only at h
      split at h
      · cases h
      · rcases receive_returns h with hverify | hparse
        · exact hverify
        · -- the code of an unsigned response is not an authenticated one
          obtain ⟨-, hcode, hcheck⟩ := parseUnsignedRevocation_eq_ok hparse
          have hexpected := (checkResponse_bound hcheck).authed
          rw [hauthed, hcode] at hexpected
          exact absurd hexpected (by decide +kernel)
    · rw [exchange_unsendable hsend] at h
      cases h

/-- A heartbeat through the client that gives the Invisible Folder object a token. -/
theorem genuine_of_heartbeatNow {config : Config} {c : Client} {b : Beat}
    (h : (heartbeatNow config c b).2.folderSets ≠ c.folderSets) :
    ∃ payload, Genuine config b.outcome b.challenge b.now payload := by
  unfold heartbeatNow at h
  split at h
  · exact absurd rfl h
  · rename_i i hsession
    dsimp only at h
    split at h
    · exact absurd rfl h
    · rename_i r hres
      by_cases hauthed : r.authed = true
      · obtain ⟨payload, hgenuine, -⟩ := genuine_of_accepted (verified_of_authed hres hauthed)
        exact ⟨payload, hgenuine⟩
      · rw [if_neg hauthed] at h
        exact absurd rfl h

section Start

variable [Sha256]

omit [CallStack] [Ed25519] [Sha256] in
theorem code_of_authenticated {code : Str} (h : expectedAuthenticated code = true) :
    code = str "OK" ∨ code = str "OUTDATED" := by
  rw [expectedAuthenticated, Bool.or_eq_true, decide_eq_true_eq, decide_eq_true_eq] at h
  exact h

/-- A session that was started, and a token that was set with it. -/
theorem genuine_of_started {config : Config} {c : Client} {q : Request}
    (h : (∃ r, (authenticate config c q).1 = .ok ⟨r, true⟩) ∨
      (authenticate config c q).2.session ≠ c.session ∨
      (authenticate config c q).2.folderSets ≠ c.folderSets) :
    ∃ payload, Genuine config q.http q.challenge q.now payload ∧
      StartedBy q payload (authenticate config c q).2 := by
  have hspec := authenticate_spec config c q
  generalize authenticate config c q = res at hspec h
  -- a call that raises or rejects leaves the session and the folder alone
  have hidle : ∀ {result : Except Exc AuthenticationResult} {c' : Client},
      (∀ r, result ≠ .ok ⟨r, true⟩) → c'.session = c.session → c'.folderSets = c.folderSets →
      ¬ ((∃ r, result = .ok ⟨r, true⟩) ∨ c'.session ≠ c.session ∨ c'.folderSets ≠ c.folderSets) := by
    intro result c' hresult hsession hfolder hchange
    rcases hchange with ⟨r, hr⟩ | hno | hno
    · exact hresult r hr
    · exact hno hsession
    · exact hno hfolder
  cases hspec with
  | refused e cache => exact absurd h (hidle (fun r hr => by cases hr) rfl rfl)
  | rejected r cache hjudge => exact absurd h (hidle (fun r hr => by cases hr) rfl rfl)
  | commitRaised r token ss e cache hjudge hcommit =>
    exact absurd h (hidle (fun r hr => by cases hr) rfl rfl)
  | started r token ss cache hjudge huses hcommits =>
    obtain ⟨-, hverify, hcheck⟩ := judge_eq_ok hjudge
    obtain ⟨hauthed, hexpected, htoken, hprefix, identityHash, hhash, hidentity⟩ :=
      checkInit_eq_ok hcheck
    obtain ⟨payload, hgenuine, hreads, -⟩ := genuine_of_accepted hverify
    refine ⟨payload, hgenuine, ?_⟩
    have hfield := hreads.sessionToken token htoken
    constructor
    · rcases code_of_authenticated (hexpected ▸ hauthed) with hcode | hcode
      · exact Or.inl (hcode ▸ hreads.code)
      · exact Or.inr (hcode ▸ hreads.code)
    · refine ⟨_, rfl, ?_⟩
      show getField payload (str "session_token") =
        .str (startThread config q (newSession _ q token)).system.session.token ∧ _
      rw [Installed.token, startThread_session]
      exact ⟨hfield, hprefix⟩
    · refine ⟨identityHash, hhash, ?_⟩
      unfold responseHash at hidentity
      split at hidentity
      · rename_i hkey
        rw [if_pos hkey]
        exact hreads.licenseKeyHash identityHash hidentity
      · rename_i hkey
        rw [if_neg hkey]
        exact hreads.usernameHash identityHash hidentity

/-- **Acceptance is sound.**  A call of `_authenticate` that starts a session, replaces the installed
    one or sets an Invisible Folder token, a heartbeat that rotates the token or counts, and a
    `heartbeat_now` that sets a token, each did so on a genuine response to its own challenge; and
    no response is accepted for two challenges. -/
theorem acceptance_sound (config : Config) :
    (∀ c q, ((∃ r, (authenticate config c q).1 = .ok ⟨r, true⟩) ∨
        (authenticate config c q).2.session ≠ c.session ∨
        (authenticate config c q).2.folderSets ≠ c.folderSets) →
      ∃ payload, Genuine config q.http q.challenge q.now payload ∧
        StartedBy q payload (authenticate config c q).2) ∧
    (∀ (s : BedrockSession) b, ((s.heartbeat config b).2.token ≠ s.token ∨
        (s.heartbeat config b).2.completed ≠ s.completed) →
      ∃ payload, Genuine config b.outcome b.challenge b.now payload ∧
        RotatedBy payload (s.heartbeat config b).2) ∧
    (∀ c b, (heartbeatNow config c b).2.folderSets ≠ c.folderSets →
      ∃ payload, Genuine config b.outcome b.challenge b.now payload) ∧
    ∀ http c c' now now' r r', verifySignedResponse config http c now = .ok r →
      verifySignedResponse config http c' now' = .ok r' → c = c' :=
  ⟨fun _ _ h => genuine_of_started h, fun _ _ h => genuine_of_rotated h,
    fun _ _ h => genuine_of_heartbeatNow h,
    fun _ _ _ _ _ _ _ h h' => accepted_challenge_unique h h'⟩

end Start

end Acceptance

/-! ## A run of it -/

/-- The key whose hash the signed answer to the `init` gives. -/
def sampleIdentity : Str := str "key-1"

/-- SHA-256 of that key and of another one. -/
@[reducible] def sampleIdentityHash : Sha256 where
  sha256 := fun b =>
    if b = bytesOf "key-1" then
      [0xbe, 0x29, 0x74, 0x54, 0x69, 0x78, 0xe3, 0x73, 0x9e, 0x6d, 0x6d, 0xa8, 0x5c, 0x4b, 0xe9, 0xf3,
       0x34, 0xce, 0x32, 0xdf, 0x2b, 0x9f, 0xd4, 0xb6, 0xff, 0x1b, 0x55, 0xc0, 0xd5, 0x7e, 0x9d, 0x44]
    else if b = bytesOf "key-2" then
      [0x7c, 0x36, 0xb0, 0xa9, 0xde, 0xdd, 0xe1, 0x19, 0xc7, 0x51, 0x65, 0x95, 0x7c, 0x6c, 0x9c, 0x18,
       0x7e, 0x65, 0xdf, 0x1e, 0xe5, 0xdb, 0x87, 0xc4, 0xc5, 0x8a, 0xd5, 0x03, 0xad, 0x88, 0xcb, 0xe3]
    else List.replicate 32 0
  length_sha256 := fun b => by
    split
    · rfl
    · split
      · rfl
      · exact List.length_replicate

/-- `authenticate_with_key("key-1")`, answered by the server. -/
def sampleRequest : Request where
  extraFields := [(str "key", .text sampleIdentity)]
  identity := sampleIdentity
  keyAuthentication := true
  requestIfToken := true
  requestedVariables := []
  random := List.replicate 64 0
  prepared := .error []
  http := signedHTTP sampleInitBody
  now := 1000
  committed := .ok ()
  monotonic := 0
  wall := 0

/-- The sample request is accepted. -/
theorem sampleRequest_judged :
    @judge sampleStack sampleEd25519 sampleIdentityHash sampleConfig sampleRequest =
      .ok (sampleInitResponse, some (str "BRK_0")) := by
  unfold judge
  rw [if_neg (by decide +kernel)]
  show (@verifySignedResponse sampleStack sampleEd25519 sampleConfig (signedHTTP sampleInitBody)
    (generateChallenge (List.replicate 64 0)) 1000 >>= _) = _
  rw [sampleInit_verified]
  decide +kernel

/-- With a configured identifier, a request that is judged good starts a session. -/
theorem authenticate_of_judged [CallStack] [Ed25519] [Sha256] {config : Config} {c : Client}
    {q : Request} {r : Response} {token : Str} (hhwid : config.hwid ≠ [])
    (hform : FormEncodes (initForm config q config.hwid))
    (h : judge config q = .ok (r, some token)) :
    authenticate config c q = (.ok ⟨r, true⟩, startSession config c q r token) := by
  unfold authenticate chooseHwid
  rw [if_pos hhwid]
  dsimp only
  rw [postForm_ok hform]
  dsimp only
  rw [h]
  rfl

/-- It starts a session, whatever the client did before. -/
theorem sampleRequest_starts (c : Client) :
    @authenticate sampleStack sampleEd25519 sampleIdentityHash sampleConfig c sampleRequest =
      (.ok ⟨sampleInitResponse, true⟩,
        startSession sampleConfig c sampleRequest sampleInitResponse (str "BRK_0")) := by
  refine @authenticate_of_judged sampleStack sampleEd25519 sampleIdentityHash _ _ _ _ _
    (by decide +kernel) ?_ sampleRequest_judged
  exact (@postForm_eq_ok _ sampleRequest.http sampleRequest.http (by decide +kernel)).2

/-- The session of the sample request was started by the payload that the server signed for it. -/
theorem acceptance_sound_sample :
    ∃ payload, @Genuine sampleStack sampleEd25519 sampleConfig (signedHTTP sampleInitBody)
        (generateChallenge (List.replicate 64 0)) 1000 payload ∧
      @StartedBy sampleIdentityHash sampleRequest payload
        (@authenticate sampleStack sampleEd25519 sampleIdentityHash sampleConfig .new
          sampleRequest).2 :=
  (@acceptance_sound sampleStack sampleEd25519 sampleIdentityHash sampleConfig).1 .new
    sampleRequest (Or.inl ⟨sampleInitResponse, by rw [sampleRequest_starts]⟩)

end Bedrock.Protocol

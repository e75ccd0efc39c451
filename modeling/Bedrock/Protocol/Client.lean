/-
  `client.py`: authentication and the control of the installed session.

  1. **State** — the installed session with its thread, the failure hook, the Invisible Folder token
     and the cache of SL-HWID sessions.  Ghost fields: a number and an identity for every session
     made, the sessions that were replaced (`retired`), the responses accepted on behalf of each
     session and the SL-HWID sessions that were committed.

  2. **`_authenticate`** — in the source's stages: the identifier (`chooseHwid`), everything that
     depends on the response (`judge`), the commit, and `startSession`, whose four steps are kept
     apart so that what holds between them can be said too.

  3. **What one call does** — `authenticate_spec`: it raises or returns without touching anything but
     the SL-HWID cache, or starts a session.

  `slhwid.prepare` and the commit of its session are verified on their own; what they come to is an
  input here.
-/
import Bedrock.Protocol.Heartbeat

open Lib.Fallible Lib.Transition Bedrock.Python

namespace Bedrock.Protocol

/-! ## State -/

/-- A prepared SL-HWID session, by what the client reads of it. -/
structure SsSession where
  hwid : Str
  deriving DecidableEq

/-- A session object: its number and, ghost, the identity it was started for. -/
structure Installed where
  /-- The number it was made under, counted from zero. -/
  number : Nat
  /-- The licence key or username it was made for. -/
  identity : Str
  /-- The session and its background thread. -/
  system : System

/-- Its session is alive .. -/
def Installed.alive (i : Installed) : Bool := i.system.session.alive

/-- .. and holds this token. -/
def Installed.token (i : Installed) : Str := i.system.session.token

/-- It is stopped. -/
def Installed.stop (i : Installed) : Installed :=
  { i with system := { i.system with session := i.system.session.stop } }

/-- The fields of a `Client` that its methods read and write. -/
structure Client where
  /-- `_session`, the session installed last. -/
  session : Option Installed
  /-- `_failure_hook`, what `on_heartbeat_failure` was last called with. -/
  failureHook : Option Hook
  /-- The token of the Invisible Folder object. -/
  folderToken : Str
  /-- `_ss_sessions`: the SL-HWID session of each identity. -/
  ssSessions : Dict SsSession
  /-- Ghost: how many sessions were made. -/
  created : Nat
  /-- Ghost: the sessions that were replaced. -/
  retired : List Installed
  /-- Ghost: the responses accepted, with the number of the session they belong to. -/
  accepted : List (Nat × Response)
  /-- Ghost: the SL-HWID sessions `commit` was called on. -/
  commits : List SsSession
  /-- Ghost: every token the Invisible Folder object was given. -/
  folderSets : List Str

/-- A client before its first call. -/
def Client.new : Client where
  session := none
  failureHook := none
  folderToken := []
  ssSessions := ∅
  created := 0
  retired := []
  accepted := []
  commits := []
  folderSets := []

/-- One call of `_authenticate`, and what the world contributes to it: the random bytes, what
    `slhwid.prepare` comes to (an identifier, or the text of its exception), the outcome of the
    request, the clocks, and what the commit raises. -/
structure Request where
  /-- The fields that only this kind of authentication sends. -/
  extraFields : Form
  /-- What the signed response has to carry the hash of. -/
  identity : Str
  keyAuthentication : Bool
  requestIfToken : Bool
  /-- `variables`: the names of the variables asked for. -/
  requestedVariables : List Str
  /-- The random bytes of the challenge. -/
  random : Bytes
  /-- The identifier `slhwid.prepare` comes to, or the text of its exception. -/
  prepared : Except Str Str
  /-- The answer to the request. -/
  http : HTTPResponse
  /-- The clock the response is checked by. -/
  now : Int
  /-- What the commit comes to. -/
  committed : Except Exc Unit
  /-- The two clocks where the heartbeat thread starts. -/
  monotonic : ℚ
  wall : ℚ

/-- The challenge of an initialization. -/
def Request.challenge (q : Request) : Str := generateChallenge q.random

/-- The arguments `authenticate_with_key` passes on. -/
def Request.withKey (q : Request) (licenseKey : Str) : Request :=
  { q with
    extraFields := [(str "key", .text licenseKey)], identity := licenseKey, keyAuthentication := true }

/-- The arguments `authenticate_with_password` passes on. -/
def Request.withPassword (q : Request) (username password : Str) : Request :=
  { q with
    extraFields := [(str "username", .text username), (str "password", .text password)]
    identity := username
    keyAuthentication := false }

/-- `AuthenticationResult`. -/
structure AuthenticationResult where
  /-- The verified response. -/
  response : Response
  /-- False where the server rejected the identity. -/
  sessionStarted : Bool
  deriving DecidableEq

/-! ## The stages of `_authenticate` -/

/-- `_prepare_secret_sharing`. -/
def prepareSecretSharing (c : Client) (q : Request) : Except Exc SsSession × Client :=
  match c.ssSessions.lookup q.identity with
  | some cached => (.ok cached, c)
  | none =>
    match q.prepared with
    | .error text =>
      (.error (.bedrockError .localFailure
        [.lit "Secret-sharing HWID unavailable: ", .str text]), c)
    | .ok hwid => (.ok ⟨hwid⟩, { c with ssSessions := c.ssSessions.insert q.identity ⟨hwid⟩ })

/-- The identifier to submit, and the SL-HWID session it came from. -/
def chooseHwid (config : Config) (c : Client) (q : Request) :
    Except Exc (Str × Option SsSession) × Client :=
  if config.hwid ≠ [] then (.ok (config.hwid, none), c)
  else
    match prepareSecretSharing c q with
    | (.error e, c) => (.error e, c)
    | (.ok ss, c) => (.ok (ss.hwid, some ss), c)

/-- The form of an initialization: what identifies the user, then the common fields, then those that are
    set. -/
def initForm (config : Config) (q : Request) (hwid : Str) : Form :=
  q.extraFields ++
  [(str "system", .text config.systemId), (str "hwid", .text hwid),
    (str "version", .text config.version),
    (str "beatrate", .text (str (toString
      (config.beatRateSeconds.num.tdiv config.beatRateSeconds.den)))),
    (str "challenge", .text q.challenge)] ++
  (if truthy config.programDigest then
    [(str "digest", .text (config.programDigest.getD []))] else []) ++
  (if q.requestIfToken then [(str "init-if", .text (str "true"))] else []) ++
  (if q.requestedVariables ≠ [] then [(str "variables[]", .texts q.requestedVariables)] else [])

/-- The error of an initialization without an answer. -/
def initTransportError (http : HTTPResponse) : Exc :=
  if http.error ≠ [] then
    .bedrockError .transport [.lit "Bedrock initialization transport failed: ", .str http.error]
  else .bedrockError .transport
    [.lit "Bedrock initialization returned HTTP ", .int http.status, .lit "."]

/-- The hash the response gives for the identity. -/
def responseHash (q : Request) (r : Response) : Option Str :=
  if q.keyAuthentication then r.licenseKeyHash else r.usernameHash

/-- The checks of `_authenticate` on a verified response: `none` for a rejection, the session token
    otherwise. -/
def checkInit [Sha256] (q : Request) (r : Response) : Except Exc (Option Str) :=
  if r.authed ≠ expectedAuthenticated r.code then
    .error (bedrock .invalidPayload "Bedrock authentication flags contradict the response code.")
  else if r.authed = false then
    if r.responseVariables ≠ ∅ ∨ r.invisibleFolderToken ≠ none then
      .error (bedrock .invalidPayload
        "A rejected Bedrock initialization returned successful-only data.")
    else .ok none
  else
    match r.sessionToken with
    | none => .error (bedrock .invalidPayload
        "Authenticated Bedrock response did not contain a session token.")
    | some token =>
      if (str "BRK_").isPrefixOf token = false then
        .error (bedrock .invalidPayload
          "Bedrock initialization returned an invalid session token format.")
      else
        match sha256Hex q.identity with
        | .error e => .error e
        | .ok identityHash =>
          -- the hash of the key or of the user name, whichever was sent
          if responseHash q r ≠ some identityHash then .error (bedrock .invalidPayload
            "Bedrock response identity hash does not match the authentication request.")
          else .ok (some token)

section Verified

variable [CallStack] [Ed25519] [Sha256]

/-- Everything `_authenticate` does with the response before it touches the client. -/
def judge (config : Config) (q : Request) : Except Exc (Response × Option Str) := do
  if q.http.ok = false then .error (initTransportError q.http)
  else
    let r ← verifySignedResponse config q.http q.challenge q.now
    return (r, ← checkInit q r)

/-! ### Starting a session -/

/-- The client in the middle of starting a session: what is installed, and the session object that
    is not installed yet. -/
structure Starting where
  /-- The client as it is between two steps of the start. -/
  client : Client
  /-- The session made but not installed yet. -/
  fresh : Option Installed

/-- `previous.stop()`. -/
def stopPrevious (c : Client) : Client := { c with session := c.session.map Installed.stop }

/-- `BedrockSession(self, token, self._failure_hook)`. -/
def newSession (c : Client) (q : Request) (token : Str) : Installed where
  number := c.created
  identity := q.identity
  system := System.new token c.failureHook

/-- `session.start()`, when the configuration asks for it. -/
def startThread (config : Config) (q : Request) (i : Installed) : Installed :=
  if config.automaticHeartbeats then { i with system := startLoop i.system q.monotonic q.wall }
  else i

/-- `self._session = session`. -/
def install (c : Client) (r : Response) (i : Installed) : Client :=
  { c with
    session := some i
    created := c.created + 1
    retired := c.retired ++ c.session.toList
    accepted := c.accepted ++ [(i.number, r)] }

/-- `if response.invisible_folder_token is not None: self._invisible_folder.set_token(..)`. -/
def setFolderToken (c : Client) (r : Response) : Client :=
  { c with
    folderToken := r.invisibleFolderToken.getD c.folderToken
    folderSets := c.folderSets ++ r.invisibleFolderToken.toList }

/-- The states a start goes through. -/
def startSteps (config : Config) (c : Client) (q : Request) (r : Response) (token : Str) :
    List Starting :=
  let stopped := stopPrevious c
  let fresh := newSession c q token
  let started := startThread config q fresh
  let installed := install stopped r started
  [⟨stopped, none⟩, ⟨stopped, some fresh⟩, ⟨stopped, some started⟩, ⟨installed, none⟩,
    ⟨setFolderToken installed r, none⟩]

/-- The state a start ends in. -/
def startSession (config : Config) (c : Client) (q : Request) (r : Response) (token : Str) :
    Client :=
  setFolderToken (install (stopPrevious c) r (startThread config q (newSession c q token))) r

/-- From the accepted response on: the commit, and the new session. -/
def conclude (config : Config) (c : Client) (q : Request) (ss : Option SsSession) (r : Response)
    (token : Str) : Except Exc AuthenticationResult × Client :=
  match ss with
  | none => (.ok ⟨r, true⟩, startSession config c q r token)
  | some ss =>
    let c := { c with commits := c.commits ++ [ss] }
    match q.committed with
    | .error e => (.error e, c)
    | .ok _ => (.ok ⟨r, true⟩, startSession config c q r token)

/-- `_authenticate`. -/
def authenticate (config : Config) (c : Client) (q : Request) :
    Except Exc AuthenticationResult × Client :=
  match chooseHwid config c q with
  | (.error e, c) => (.error e, c)
  | (.ok (hwid, ss), c) =>
    match postForm (initForm config q hwid) q.http with
    | .error e => (.error e, c)
    | .ok _ =>
      match judge config q with
      | .error e => (.error e, c)
      | .ok (r, none) => (.ok ⟨r, false⟩, c)
      | .ok (r, some token) => conclude config c q ss r token

/-! ## Session control -/

/-- What a heartbeat raises where no session was started. -/
def noSessionError : Exc := bedrock .sessionTerminated "No Bedrock session is active."

/-- `heartbeat_now`. -/
def heartbeatNow (config : Config) (c : Client) (b : Beat) : Except Exc Response × Client :=
  match c.session with
  | none => (.error noSessionError, c)
  | some i =>
    let res := i.system.session.heartbeat config b
    let c := { c with session := some { i with system := { i.system with session := res.2 } } }
    match res.1 with
    | .error e => (.error e, c)
    | .ok r =>
      let c := { c with accepted := c.accepted ++ [(i.number, r)] }
      (.ok r, if r.authed then setFolderToken c r else c)

/-- A pass of the installed session's heartbeat thread. -/
def loopPass (config : Config) (c : Client) (t : Tick) : Client :=
  { c with session := c.session.map fun i => { i with system := loopTick config i.system t } }

/-- `on_heartbeat_failure`. -/
def onHeartbeatFailure (c : Client) (hook : Hook) : Client :=
  { c with
    failureHook := some hook
    session := c.session.map fun i =>
      { i with system := { i.system with session := i.system.session.setHook (some hook) } } }

/-- `shutdown`. -/
def shutdown (c : Client) : Client :=
  { c with
    session := none
    retired := c.retired ++ (c.session.map Installed.stop).toList
    folderToken := [] }

end Verified

/-! ## What one call does -/

section Spec

variable [CallStack] [Ed25519] [Sha256]

omit [CallStack] [Ed25519] in
/-- **A session token is handed on** only from an authenticated response of the right form for the
    submitted identity. -/
theorem checkInit_eq_ok {q : Request} {r : Response} {token : Str}
    (h : checkInit q r = .ok (some token)) :
    r.authed = true ∧ r.authed = expectedAuthenticated r.code ∧ r.sessionToken = some token ∧
      (str "BRK_").isPrefixOf token = true ∧ ∃ identityHash, sha256Hex q.identity = .ok identityHash ∧
        responseHash q r = some identityHash := by
  unfold checkInit at h
  split at h
  · cases h
  · rename_i hflags
    split at h
    · split at h
      · cases h
      · cases Except.ok.inj h
    · rename_i hauthed
      split at h
      · cases h
      · rename_i token' htoken
        split at h
        · cases h
        · rename_i hprefix
          split at h
          · cases h
          · rename_i identityHash hhash
            split at h
            · cases h
            · rename_i hidentity
              obtain rfl := Option.some.inj (Except.ok.inj h)
              exact ⟨by simpa using hauthed, not_not.mp hflags, htoken, by simpa using hprefix,
                identityHash, hhash, not_not.mp hidentity⟩

/-- **An answer that was accepted** came with a status of the two hundreds, was verified, and passed the
    checks of an initialization. -/
theorem judge_eq_ok {config : Config} {q : Request} {r : Response} {token : Option Str}
    (h : judge config q = .ok (r, token)) :
    q.http.ok = true ∧ verifySignedResponse config q.http q.challenge q.now = .ok r ∧
      checkInit q r = .ok token := by
  unfold judge at h
  split at h
  · cases h
  · rename_i hok
    obtain ⟨r', hverify, h⟩ := bind_eq_ok.mp h
    obtain ⟨token', hcheck, h⟩ := bind_eq_ok.mp h
    obtain ⟨rfl, rfl⟩ := Prod.mk.inj (Except.ok.inj h)
    exact ⟨by simpa using hok, hverify, hcheck⟩

/-- The SL-HWID session in use. -/
def UsesSs (config : Config) (ss : Option SsSession) : Prop := config.hwid = [] ↔ ss.isSome = true

omit [CallStack] [Ed25519] [Sha256] in
/-- The choice of the identifier changes nothing of the client but the cache of its secret-sharing
    sessions. -/
theorem chooseHwid_spec (config : Config) (c : Client) (q : Request) :
    ∃ cache, (∃ e, chooseHwid config c q = (.error e, { c with ssSessions := cache })) ∨
      ∃ hwid ss, UsesSs config ss ∧
        chooseHwid config c q = (.ok (hwid, ss), { c with ssSessions := cache }) := by
  unfold chooseHwid
  by_cases hhwid : config.hwid ≠ []
  · rw [if_pos hhwid]
    refine ⟨c.ssSessions, Or.inr ⟨config.hwid, none, ?_, rfl⟩⟩
    exact iff_of_false hhwid (by simp)
  · rw [if_neg hhwid]
    have huses : ∀ ss, UsesSs config (some ss) := fun ss => iff_of_true (not_not.mp hhwid) rfl
    unfold prepareSecretSharing
    cases hcache : c.ssSessions.lookup q.identity with
    | some cached => exact ⟨c.ssSessions, Or.inr ⟨cached.hwid, some cached, huses cached, rfl⟩⟩
    | none =>
      cases hprepared : q.prepared with
      | error text => exact ⟨c.ssSessions, Or.inl ⟨_, rfl⟩⟩
      | ok hwid =>
        exact ⟨c.ssSessions.insert q.identity ⟨hwid⟩, Or.inr ⟨hwid, some ⟨hwid⟩, huses _, rfl⟩⟩

/-- How a call of `_authenticate` ends. -/
inductive AuthEnd (config : Config) (c : Client) (q : Request) :
    Except Exc AuthenticationResult × Client → Prop
  /-- It raised before the response was accepted. -/
  | refused (e : Exc) (cache : Dict SsSession) :
      AuthEnd config c q (.error e, { c with ssSessions := cache })
  /-- The server rejected the identity. -/
  | rejected (r : Response) (cache : Dict SsSession) (h : judge config q = .ok (r, none)) :
      AuthEnd config c q (.ok ⟨r, false⟩, { c with ssSessions := cache })
  /-- The response was accepted and the commit raised. -/
  | commitRaised (r : Response) (token : Str) (ss : SsSession) (e : Exc) (cache : Dict SsSession)
      (h : judge config q = .ok (r, some token)) (hc : q.committed = .error e) :
      AuthEnd config c q
        (.error e, { c with ssSessions := cache, commits := c.commits ++ [ss] })
  /-- The response was accepted and a session was started. -/
  | started (r : Response) (token : Str) (ss : Option SsSession) (cache : Dict SsSession)
      (h : judge config q = .ok (r, some token)) (hss : UsesSs config ss)
      (hc : ss.isSome = true → q.committed = .ok ()) :
      AuthEnd config c q (.ok ⟨r, true⟩,
        startSession config { c with ssSessions := cache, commits := c.commits ++ ss.toList } q r
          token)

/-- **What an authentication can come to**, whatever the client did before. -/
theorem authenticate_spec (config : Config) (c : Client) (q : Request) :
    AuthEnd config c q (authenticate config c q) := by
  unfold authenticate
  -- the stages of the source, one after the other: every early exit leaves the client alone but for the
  -- cache
  obtain ⟨cache, ⟨e, hchoose⟩ | ⟨hwid, ss, huses, hchoose⟩⟩ := chooseHwid_spec config c q
  · rw [hchoose]
    exact .refused e cache
  · rw [hchoose]
    dsimp only
    cases postForm (initForm config q hwid) q.http with
    | error e => exact .refused e cache
    | ok http =>
      dsimp only
      cases hjudge : judge config q with
      | error e => exact .refused e cache
      | ok verdict =>
        obtain ⟨r, token⟩ := verdict
        cases token with
        | none => exact .rejected r cache hjudge
        | some token =>
          dsimp only
          unfold conclude
          cases ss with
          | none =>
            have hstarted := AuthEnd.started (c := c) r token none cache hjudge huses
              fun hsome => nomatch hsome
            simpa using hstarted
          -- the commit comes before the session is replaced: where it raises, the old session goes on
          | some ss =>
            dsimp only
            cases hcommit : q.committed with
            | error e => exact .commitRaised r token ss e cache hjudge hcommit
            | ok u => exact .started r token (some ss) cache hjudge huses fun _ => hcommit

/-- A response that is refused leaves nothing but an exception. -/
theorem authenticate_of_judge_error {config : Config} {c : Client} {q : Request} {e : Exc}
    (h : judge config q = .error e) :
    ∃ e' cache, authenticate config c q = (.error e', { c with ssSessions := cache }) := by
  have hspec := authenticate_spec config c q
  generalize authenticate config c q = res at hspec
  cases hspec with
  | refused e' cache => exact ⟨e', cache, rfl⟩
  | rejected r cache hj => rw [h] at hj; cases hj
  | commitRaised r token ss e' cache hj => rw [h] at hj; cases hj
  | started r token ss cache hj => rw [h] at hj; cases hj

omit [CallStack] [Ed25519] [Sha256] in
/-- Starting the loop changes nothing about the session. -/
@[simp] theorem startThread_session (config : Config) (q : Request) (i : Installed) :
    (startThread config q i).system.session = i.system.session := by
  unfold startThread
  split
  · show (startLoop i.system q.monotonic q.wall).session = _
    unfold startLoop
    split <;> rfl
  · rfl

omit [CallStack] [Ed25519] [Sha256] in
@[simp] theorem startThread_number (config : Config) (q : Request) (i : Installed) :
    (startThread config q i).number = i.number := by
  unfold startThread
  split <;> rfl

omit [Sha256] in
/-- What a heartbeat changes, it changes on a genuine response. -/
theorem heartbeat_changes {config : Config} {s : BedrockSession} {b : Beat}
    (h : (s.heartbeat config b).2.token ≠ s.token ∨
      (s.heartbeat config b).2.completed ≠ s.completed) :
    Rotated config s b (s.heartbeat config b) := by
  by_cases halive : s.alive = true
  · rcases heartbeat_spec config b halive with ⟨-, hrot | ⟨⟨error, response, hres⟩, -⟩⟩ |
      ⟨-, e, sent, -, hres⟩
    · exact hrot
    · rw [hres] at h
      rcases h with h | h
      · exact absurd rfl h
      · exact absurd rfl h
    · rw [hres] at h
      rcases h with h | h
      · exact absurd rfl h
      · exact absurd rfl h
  · rw [heartbeat_dead config b (Bool.eq_false_iff.mpr halive)] at h
    rcases h with h | h
    · exact absurd rfl h
    · exact absurd rfl h

end Spec

end Bedrock.Protocol

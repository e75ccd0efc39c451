/-
  `session.py`: one authenticated session.

  1. **State** — the session's own fields, and two ghost fields: `sent`, the (token, challenge)
     pairs that went out, and `failures`, the calls of the failure hook.  A hook is known by a
     number; what it does is its own affair.

  2. **One heartbeat** — `BedrockSession.heartbeat` follows `_heartbeat_once`: the exchange with its
     one retry, the signed pipeline, the unsigned fallback, the checks of the rotated token.  What
     the world contributes to it is a `Beat`.

  3. **What one heartbeat does** — `heartbeat_spec`: it rotates the token, or ends the session and
     calls the hook, or — exactly when `Escapes` — raises past every handler and leaves the session
     as it was.

  4. **The background loop** — one pass of `_run` is `loopTick`.  A heartbeat is one step here: the
     request lock keeps two of them apart, and a `stop` from another thread while one runs has the
     effect of a `stop` right after it or right before it.
-/
import Bedrock.Protocol.Verify

open Lib.Fallible Bedrock.Python

namespace Bedrock.Protocol

/-! ## State -/

/-- A failure hook, by number. -/
abbrev Hook := Nat

/-- What the hook is called with. -/
structure HeartbeatFailure where
  /-- Why the heartbeat failed. -/
  error : Exc
  /-- The response that ended the session, where one could be read. -/
  response : Option Response
  /-- The heartbeats counted until then. -/
  completedHeartbeats : Nat

/-- The fields of a `BedrockSession` that its methods read and write; `completed` counts the rotations.
    -/
structure BedrockSession where
  /-- `_token`, rotated by every heartbeat that is accepted. -/
  token : Str
  /-- `_hook`. -/
  hook : Option Hook
  /-- `_stop_event.is_set()`. -/
  stopEvent : Bool
  /-- `_alive`. -/
  alive : Bool
  /-- `_completed`. -/
  completed : Nat
  /-- Ghost: the session token and challenge of every request. -/
  sent : List (Str × Str)
  /-- Ghost: the calls of the failure hook. -/
  failures : List (Hook × HeartbeatFailure)

/-- `BedrockSession(client, token, hook)`. -/
def BedrockSession.new (token : Str) (hook : Option Hook) : BedrockSession where
  token := token
  hook := hook
  stopEvent := false
  alive := true
  completed := 0
  sent := []
  failures := []

namespace BedrockSession

/-- `stop`. -/
def stop (s : BedrockSession) : BedrockSession := { s with alive := false, stopEvent := true }

/-- `set_hook`. -/
def setHook (s : BedrockSession) (hook : Option Hook) : BedrockSession := { s with hook := hook }

/-- The call of the registered hook. -/
def callHook (s : BedrockSession) (error : Exc) (response : Option Response) :
    List (Hook × HeartbeatFailure) :=
  match s.hook with
  | none => []
  | some hook => [(hook, ⟨error, response, s.completed⟩)]

/-- `fail`: the hook is called if the session was alive, and the session is over in any case. -/
def fail (s : BedrockSession) (error : Exc) (response : Option Response) : BedrockSession :=
  if s.alive = false then s.stop
  else { s.stop with failures := s.failures ++ s.callHook error response }

/-- A living session calls its hook and stops. -/
theorem fail_alive {s : BedrockSession} (h : s.alive = true) (error : Exc)
    (response : Option Response) :
    s.fail error response = { s.stop with failures := s.failures ++ s.callHook error response } := by
  rw [fail, h]
  rfl

@[simp] theorem alive_fail (s : BedrockSession) (error : Exc) (response : Option Response) :
    (s.fail error response).alive = false := by
  unfold fail
  split <;> rfl

end BedrockSession

/-! ## One heartbeat -/

/-- What the world contributes to a heartbeat: the random bytes, the outcomes of the request and of
    its repetition, and the clock at the two verifications. -/
structure Beat where
  /-- The random bytes of the challenge. -/
  random : Bytes
  /-- Whether the request asks for an Invisible Folder token. -/
  requestInvisibleFolderToken : Bool
  /-- The answer to the first request. -/
  first : HTTPResponse
  /-- The answer to its repetition, where there is one. -/
  retry : HTTPResponse
  /-- The clock a signed response is checked by. -/
  now : Int
  /-- The clock an unsigned revocation is checked by. -/
  nowUnsigned : Int

/-- The challenge of a heartbeat, which both of its requests carry. -/
def Beat.challenge (b : Beat) : Str := generateChallenge b.random

/-- The outcome that counts: the repetition's, after a transport error. -/
def Beat.outcome (b : Beat) : HTTPResponse := if b.first.error ≠ [] then b.retry else b.first

/-- The error of an exchange without an answer .. -/
def transportError (http : HTTPResponse) : Exc :=
  if http.error ≠ [] then
    .bedrockError .transport [.lit "Bedrock heartbeat transport failed: ", .str http.error]
  else .bedrockError .transport
    [.lit "Bedrock heartbeat returned HTTP ", .int http.status, .lit "."]

/-- .. of a heartbeat on a session that is over .. -/
def inactiveError : Exc := bedrock .sessionTerminated "Bedrock session is not active."

/-- .. of an answer without the next token .. -/
def rotationError : Exc :=
  bedrock .invalidPayload "Bedrock heartbeat returned an invalid rotated token format."

/-- `response.termination_message or response.human_response`. -/
def terminationText (r : Response) : Str :=
  if truthy r.terminationMessage then r.terminationMessage.getD [] else r.humanResponse

/-- .. and of one that ends the session. -/
def terminationError (r : Response) : Exc := .bedrockError .sessionTerminated [.str (terminationText r)]

/-- `error.kind == ErrorKind.UNSIGNED_RESPONSE`. -/
def isUnsigned : Exc → Bool
  | .bedrockError kind _ => kind = .unsignedResponse
  | _ => false

namespace BedrockSession

/-- The form of a heartbeat: the token, the system, the challenge, and the wish for an Invisible Folder
    token if there is one. -/
def form (config : Config) (s : BedrockSession) (b : Beat) : Form :=
  [(str "session_token", .text s.token), (str "system", .text config.systemId),
    (str "challenge", .text b.challenge)] ++
  (if b.requestInvisibleFolderToken then [(str "init-if", .text (str "true"))] else [])

/-- The session token goes out with the challenge. -/
def record (s : BedrockSession) (b : Beat) : BedrockSession :=
  { s with sent := s.sent ++ [(s.token, b.challenge)] }

/-- One `post_form`. -/
def post (config : Config) (s : BedrockSession) (b : Beat) (outcome : HTTPResponse) :
    Except Exc HTTPResponse × BedrockSession :=
  match postForm (s.form config b) outcome with
  | .error e => (.error e, s)
  | .ok http => (.ok http, s.record b)

/-- The request, repeated once after a transport error. -/
def exchange (config : Config) (s : BedrockSession) (b : Beat) :
    Except Exc HTTPResponse × BedrockSession :=
  match s.post config b b.first with
  | (.error e, s) => (.error e, s)
  | (.ok http, s) => if http.error ≠ [] then s.post config b b.retry else (.ok http, s)

/-- A verified response ends the session or rotates its token. -/
def accept (s : BedrockSession) (r : Response) : Except Exc Response × BedrockSession :=
  match r.sessionToken with
  | none => (.ok r, s.fail (terminationError r) (some r))
  | some token =>
    if r.code ≠ str "OK" ∨ r.authed = false then (.ok r, s.fail (terminationError r) (some r))
    else if (str "BRF_").isPrefixOf token = false then
      (.error rotationError, s.fail rotationError none)
    else (.ok r, { s with token := token, completed := s.completed + 1 })

section Verified

variable [CallStack] [Ed25519]

/-- The unsigned fallback. -/
def receiveUnsigned (config : Config) (s : BedrockSession) (b : Beat) (http : HTTPResponse) :
    Except Exc Response × BedrockSession :=
  match parseUnsignedRevocation config http b.challenge b.nowUnsigned with
  | .ok r => s.accept r
  | .error e => (.error e, if e.isBedrockError then s.fail e none else s)

/-- The verification with its `except` clauses. -/
def receive (config : Config) (s : BedrockSession) (b : Beat) (http : HTTPResponse) :
    Except Exc Response × BedrockSession :=
  match verifySignedResponse config http b.challenge b.now with
  | .ok r => s.accept r
  | .error e =>
    if isUnsigned e then s.receiveUnsigned config b http
    else (.error e, if e.isBedrockError then s.fail e none else s)

/-- `_heartbeat_once`. -/
def heartbeat (config : Config) (s : BedrockSession) (b : Beat) :
    Except Exc Response × BedrockSession :=
  if s.alive = false then (.error inactiveError, s)
  else
    match s.exchange config b with
    | (.error e, s) => (.error e, s)
    | (.ok http, s) =>
      if http.ok = false then (.error (transportError http), s.fail (transportError http) none)
      else s.receive config b http

end Verified

end BedrockSession

/-! ## What goes out -/

/-- A challenge is text of the base64url alphabet. -/
theorem canEncode_challenge (random : Bytes) : CanEncode (generateChallenge random) := by
  -- every character of a challenge is one of the alphabet, or the padding
  have hchar : ∀ v, isSurrogate (b64Char v) = false := by
    intro v
    have hall : ∀ c ∈ b64Alphabet, isSurrogate c = false := by
      have : b64Alphabet.all (fun c => !isSurrogate c) = true := by decide +kernel
      intro c hc
      simpa using List.all_eq_true.mp this c hc
    unfold b64Char
    by_cases hv : v < b64Alphabet.length
    · rw [getElem!_pos b64Alphabet v hv]
      exact hall _ (List.getElem_mem hv)
    · rw [getElem!_neg b64Alphabet v hv]
      rfl
  intro c hc
  have hmem : c ∈ urlsafeB64Encode random := by
    unfold generateChallenge rstripPad at hc
    exact List.mem_reverse.mp ((List.dropWhile_sublist _).subset (List.mem_reverse.mp hc))
  rcases List.mem_append.mp hmem with hmem | hmem
  · obtain ⟨v, -, rfl⟩ := List.mem_map.mp hmem
    exact hchar v
  · rw [(List.mem_replicate.mp hmem).2]
    decide +kernel

/-- The request of a heartbeat can be written down. -/
def Sendable (config : Config) (s : BedrockSession) : Prop :=
  CanEncode s.token ∧ CanEncode config.systemId

/-- A heartbeat can be posted exactly if its token and its system id can be encoded: the challenge is
    ASCII. -/
theorem formEncodes_iff {config : Config} {s : BedrockSession} {b : Beat} :
    FormEncodes (s.form config b) ↔ Sendable config s := by
  -- the names of the fields are ASCII literals
  have hkey : ∀ name : Str, isAscii name = true → CanEncode name := fun _ => canEncode_of_isAscii
  have hif : ∀ pair ∈ formPairs (if b.requestInvisibleFolderToken then
      [(str "init-if", FormValue.text (str "true"))] else []), CanEncode pair.1 ∧ CanEncode pair.2 := by
    intro pair hpair
    split at hpair
    · obtain rfl := List.mem_singleton.mp hpair
      exact ⟨hkey _ (by decide +kernel), hkey _ (by decide +kernel)⟩
    · exact absurd hpair List.not_mem_nil
  constructor
  · intro h
    constructor
    · exact (h (str "session_token", s.token) (by simp [formPairs, BedrockSession.form])).2
    · exact (h (str "system", config.systemId) (by simp [formPairs, BedrockSession.form])).2
  · -- of the values only the token and the system id are not made by the client itself
    rintro ⟨htoken, hsystem⟩ pair hpair
    unfold BedrockSession.form formPairs at hpair
    rw [List.flatMap_append] at hpair
    rcases List.mem_append.mp hpair with hpair | hpair
    · simp only [List.flatMap_cons, List.flatMap_nil, List.append_nil, List.cons_append,
        List.nil_append, List.mem_cons, List.not_mem_nil, or_false] at hpair
      rcases hpair with rfl | rfl | rfl
      · exact ⟨hkey (str "session_token") (by decide +kernel), htoken⟩
      · exact ⟨hkey (str "system") (by decide +kernel), hsystem⟩
      · exact ⟨hkey (str "challenge") (by decide +kernel), canEncode_challenge b.random⟩
    · exact hif pair hpair

/-- The pairs a heartbeat sends: one, and once more after a transport error. -/
def Beat.sends (b : Beat) (token : Str) : List (Str × Str) :=
  if b.first.error ≠ [] then [(token, b.challenge), (token, b.challenge)]
  else [(token, b.challenge)]

/-- Whatever a heartbeat sends carries its own challenge. -/
theorem mem_sends {b : Beat} {token : Str} {pair : Str × Str} (h : pair ∈ b.sends token) :
    pair = (token, b.challenge) := by
  unfold Beat.sends at h
  split at h
  · rcases List.mem_cons.mp h with rfl | h
    · rfl
    · exact List.mem_singleton.mp h
  · exact List.mem_singleton.mp h

/-- An exchange that can be posted sends one or two requests. -/
theorem exchange_sendable {config : Config} {s : BedrockSession} {b : Beat}
    (h : Sendable config s) :
    s.exchange config b = (.ok b.outcome, { s with sent := s.sent ++ b.sends s.token }) := by
  have hpost : ∀ (s' : BedrockSession) (outcome : HTTPResponse), s'.token = s.token →
      s'.post config b outcome = (.ok outcome, s'.record b) := by
    intro s' outcome htoken
    have hform : FormEncodes (s'.form config b) := formEncodes_iff.mpr (by
      rw [Sendable, htoken]
      exact h)
    rw [BedrockSession.post, postForm_ok hform]
  rw [BedrockSession.exchange, hpost s b.first rfl]
  dsimp only
  unfold Beat.outcome Beat.sends
  by_cases herror : b.first.error ≠ []
  · rw [if_pos herror, if_pos herror, if_pos herror, hpost (s.record b) b.retry rfl]
    simp [BedrockSession.record]
  · rw [if_neg herror, if_neg herror, if_neg herror]
    rfl

theorem exchange_unsendable {config : Config} {s : BedrockSession} {b : Beat}
    (h : ¬ Sendable config s) : s.exchange config b = (.error .unicodeEncodeError, s) := by
  rcases postForm_spec (s.form config b) b.first with ⟨hform, -⟩ | ⟨-, hfail⟩
  · exact absurd (formEncodes_iff.mp hform) h
  · rw [BedrockSession.exchange, BedrockSession.post, hfail]

/-! ## What one heartbeat does -/

/-- The session failed with `error`: it is over and the hook was called. -/
def FailedTo (s : BedrockSession) (res : Except Exc Response × BedrockSession) : Prop :=
  (∃ error response, res.2 = s.fail error response) ∧
    ∀ e, res.1 = .error e → e.isBedrockError = true

/-- **What `_heartbeat_once` makes of a verified response**: it rotates, or the session fails and the
    response says why. -/
theorem accept_spec (s : BedrockSession) (r : Response) :
    (∃ token, r.code = str "OK" ∧ r.authed = true ∧ r.sessionToken = some token ∧
      (str "BRF_").isPrefixOf token = true ∧
      s.accept r = (.ok r, { s with token := token, completed := s.completed + 1 })) ∨
    FailedTo s (s.accept r) := by
  unfold BedrockSession.accept
  cases htoken : r.sessionToken with
  -- the checks of a verified answer, in the order of the source
  | none => exact Or.inr ⟨⟨_, _, rfl⟩, fun e he => nomatch he⟩
  | some token =>
    dsimp only
    by_cases hcode : r.code ≠ str "OK" ∨ r.authed = false
    · rw [if_pos hcode]
      exact Or.inr ⟨⟨_, _, rfl⟩, fun e he => nomatch he⟩
    · rw [if_neg hcode]
      push Not at hcode
      obtain ⟨hok, hauthed⟩ := hcode
      by_cases hprefix : (str "BRF_").isPrefixOf token = false
      · rw [if_pos hprefix]
        refine Or.inr ⟨⟨_, _, rfl⟩, fun e he => ?_⟩
        obtain rfl := Except.error.inj he
        rfl
      · rw [if_neg hprefix]
        exact Or.inl ⟨token, hok, by simpa using hauthed, rfl, by simpa using hprefix, rfl⟩

/-- A response with another code than `OK` ends the session. -/
theorem accept_of_code_ne {s : BedrockSession} {r : Response} (h : r.code ≠ str "OK") :
    FailedTo s (s.accept r) := by
  rcases accept_spec s r with ⟨_, hok, _⟩ | hfailed
  · exact absurd hok h
  · exact hfailed

theorem isUnsigned_of_refusal {e : Exc} (h : Refusal e) : isUnsigned e = false := by
  cases e with
  | bedrockError kind message => exact decide_eq_false (of_decide_eq_true h)
  | _ => rfl

theorem isUnsigned_of_other {e : Exc} (h : e.isBedrockError = false) : isUnsigned e = false := by
  cases e with
  | bedrockError kind message => cases h
  | _ => rfl

/-- The headers of the unsigned revocation are not those of a signed response. -/
theorem unsignedHeaders_of_signed {http : HTTPResponse} (h : signedHeaders http = true) :
    unsignedHeaders http = false := by
  unfold signedHeaders at h
  rw [Bool.and_eq_true, decide_eq_true_eq, decide_eq_true_eq] at h
  rw [unsignedHeaders, decide_eq_false h.2, Bool.false_and]

/-- The session is over, its hook called, its token and count as they were. -/
def Ended (s : BedrockSession) (b : Beat) (res : Except Exc Response × BedrockSession) : Prop :=
  (∃ error response, res.2 = { s.stop with
    failures := s.failures ++ s.callHook error response, sent := s.sent ++ b.sends s.token }) ∧
  ∀ e, res.1 = .error e → e.isBedrockError = true

/-- The call raised something else and left the session as it was. -/
def Escaped (s : BedrockSession) (res : Except Exc Response × BedrockSession) : Prop :=
  ∃ e sent, e.isBedrockError = false ∧ res = (.error e, { s with sent := sent })

/-- A failure behind the exchange ends a living session. -/
theorem ended_of_failedTo {s : BedrockSession} {b : Beat}
    {res : Except Exc Response × BedrockSession} (halive : s.alive = true)
    (h : FailedTo { s with sent := s.sent ++ b.sends s.token } res) : Ended s b res := by
  obtain ⟨⟨error, response, hres⟩, hraise⟩ := h
  refine ⟨⟨error, response, hres.trans ?_⟩, hraise⟩
  exact BedrockSession.fail_alive (s := { s with sent := s.sent ++ b.sends s.token }) halive error
    response

section Verified

variable [CallStack] [Ed25519]

/-- The text of a usable outcome cannot be read: that of a message signed under the pinned key, or
    the body under the headers of the unsigned revocation. -/
def Unreadable (config : Config) (http : HTTPResponse) : Prop :=
  (∃ m, openSigned config http = .ok m ∧ badText m = true) ∨
    (unsignedHeaders http && badText http.body) = true

/-- **The inputs that get past every handler**: a request that cannot be written down, or a usable
    outcome that cannot be read. -/
def Escapes (config : Config) (s : BedrockSession) (b : Beat) : Prop :=
  ¬ Sendable config s ∨ (b.outcome.ok = true ∧ Unreadable config b.outcome)

/-- The session rotated its token on a verified response. -/
def Rotated (config : Config) (s : BedrockSession) (b : Beat)
    (res : Except Exc Response × BedrockSession) : Prop :=
  ∃ r token, verifySignedResponse config b.outcome b.challenge b.now = .ok r ∧
    r.code = str "OK" ∧ r.authed = true ∧ r.sessionToken = some token ∧
    (str "BRF_").isPrefixOf token = true ∧
    res = (.ok r, { s with
      token := token, completed := s.completed + 1, sent := s.sent ++ b.sends s.token })

omit [Ed25519] in
/-- An unsigned answer fails the session, or raises something that is no `BedrockError` and leaves it as
    it was: that is the body which is not good text. -/
theorem receiveUnsigned_spec (config : Config) (s : BedrockSession) (b : Beat)
    (http : HTTPResponse) :
    ((unsignedHeaders http && badText http.body) = false ∧
      FailedTo s (s.receiveUnsigned config b http)) ∨
    ((unsignedHeaders http && badText http.body) = true ∧ ∃ e, e.isBedrockError = false ∧
      s.receiveUnsigned config b http = (.error e, s)) := by
  unfold BedrockSession.receiveUnsigned
  cases hparse : parseUnsignedRevocation config http b.challenge b.nowUnsigned with
  | ok r =>
    -- an unsigned revocation never has the code of a rotation
    obtain ⟨hgood, hcode, -⟩ := parseUnsignedRevocation_eq_ok hparse
    refine Or.inl ⟨by rw [hgood, Bool.and_false], accept_of_code_ne ?_⟩
    rw [hcode]
    decide +kernel
  | error e =>
    dsimp only
    -- what is no `BedrockError` comes out of the text of the body, and nowhere else
    rcases parseUnsignedRevocation_error hparse with ⟨hbedrock, hgood⟩ | ⟨hother, hbad⟩
    · refine Or.inl ⟨hgood, ⟨e, none, by rw [if_pos hbedrock]⟩, fun e' he' => ?_⟩
      obtain rfl := Except.error.inj he'
      exact hbedrock
    · refine Or.inr ⟨hbad, e, hother, ?_⟩
      rw [hother]
      rfl

/-- **What becomes of a usable outcome.** -/
theorem receive_spec (config : Config) (s : BedrockSession) (b : Beat) (http : HTTPResponse) :
    (¬ Unreadable config http ∧
      ((∃ r token, verifySignedResponse config http b.challenge b.now = .ok r ∧
          r.code = str "OK" ∧ r.authed = true ∧ r.sessionToken = some token ∧
          (str "BRF_").isPrefixOf token = true ∧
          s.receive config b http =
            (.ok r, { s with token := token, completed := s.completed + 1 })) ∨
        FailedTo s (s.receive config b http))) ∨
    (Unreadable config http ∧
      ∃ e, e.isBedrockError = false ∧ s.receive config b http = (.error e, s)) := by
  unfold BedrockSession.receive
  cases hverify : verifySignedResponse config http b.challenge b.now with
  | ok r =>
    obtain ⟨m, -, -, hopen, hgood, -⟩ := verifySignedResponse_eq_ok hverify
    left
    constructor
    · rintro (⟨m', hopen', hbad⟩ | hbad)
      · rw [hopen] at hopen'
        obtain rfl := Except.ok.inj hopen'
        rw [hgood] at hbad
        cases hbad
      · rw [unsignedHeaders_of_signed (openSigned_eq_ok hopen).1] at hbad
        cases hbad
    · rcases accept_spec s r with ⟨token, hcode, hauthed, htoken, hprefix, hres⟩ | hfailed
      · exact Or.inl ⟨r, token, rfl, hcode, hauthed, htoken, hprefix, hres⟩
      · exact Or.inr hfailed
  | error e =>
    dsimp only
    rcases verifySignedResponse_error hverify with ⟨hheaders, rfl⟩ | ⟨hheaders, hrefusal, hgood⟩ |
      ⟨hother, m, hopen, hbad⟩
    · -- the headers are not those of a signed response: the unsigned fallback
      rw [if_pos (show isUnsigned unsignedError = true from rfl)]
      have hnone : ¬ ∃ m, openSigned config http = .ok m ∧ badText m = true := by
        rintro ⟨m, hopen, -⟩
        rw [(openSigned_eq_ok hopen).1] at hheaders
        cases hheaders
      rcases receiveUnsigned_spec config s b http with ⟨hgood, hfailed⟩ | ⟨hbad, hescape⟩
      · refine Or.inl ⟨?_, Or.inr hfailed⟩
        rintro (h | hbad)
        · exact hnone h
        · rw [hgood] at hbad
          cases hbad
      · exact Or.inr ⟨Or.inr hbad, hescape⟩
    · rw [isUnsigned_of_refusal hrefusal, if_pos hrefusal.isBedrockError]
      refine Or.inl ⟨?_, Or.inr ⟨⟨e, none, rfl⟩, fun e' he' => ?_⟩⟩
      · rintro (⟨m, hopen, hbad⟩ | hbad)
        · rw [hgood m hopen] at hbad
          cases hbad
        · rw [unsignedHeaders_of_signed hheaders] at hbad
          cases hbad
      · obtain rfl := Except.error.inj he'
        exact hrefusal.isBedrockError
    · refine Or.inr ⟨Or.inl ⟨m, hopen, hbad⟩, e, hother, ?_⟩
      rw [isUnsigned_of_other hother, hother]
      rfl

/-- **One heartbeat of a living session**: unless the inputs escape it rotates the token or ends the
    session; if they do it changes nothing but what was sent. -/
theorem heartbeat_spec (config : Config) {s : BedrockSession} (b : Beat) (halive : s.alive = true) :
    (¬ Escapes config s b ∧
      (Rotated config s b (s.heartbeat config b) ∨ Ended s b (s.heartbeat config b))) ∨
    (Escapes config s b ∧ Escaped s (s.heartbeat config b)) := by
  unfold BedrockSession.heartbeat Escapes
  rw [halive, if_neg (by decide)]
  -- the form is encoded before anything is sent
  by_cases hsend : Sendable config s
  · rw [exchange_sendable hsend]
    dsimp only
    -- a request that is not answered, or not well, ends the session
    by_cases hok : b.outcome.ok = false
    · rw [if_pos hok, hok]
      refine Or.inl ⟨?_, Or.inr (ended_of_failedTo halive ⟨⟨_, _, rfl⟩, fun e he => ?_⟩)⟩
      · rintro (hnot | ⟨hbad, -⟩)
        · exact hnot hsend
        · cases hbad
      · obtain rfl := Except.error.inj he
        unfold transportError
        split <;> rfl
    · rw [if_neg hok]
      have hok : b.outcome.ok = true := by simpa using hok
      rcases receive_spec config { s with sent := s.sent ++ b.sends s.token } b b.outcome with
        ⟨hgood, hres⟩ | ⟨hbad, e, hother, hres⟩
      · refine Or.inl ⟨?_, ?_⟩
        · rintro (hnot | ⟨-, hbad⟩)
          · exact hnot hsend
          · exact hgood hbad
        · rcases hres with ⟨r, token, hverify, hcode, hauthed, htoken, hprefix, hres⟩ | hfailed
          · exact Or.inl ⟨r, token, hverify, hcode, hauthed, htoken, hprefix, hres⟩
          · exact Or.inr (ended_of_failedTo halive hfailed)
      · exact Or.inr ⟨Or.inr ⟨hok, hbad⟩, e, s.sent ++ b.sends s.token, hother, hres⟩
  · -- a token or system id that cannot be encoded raises out of the heartbeat
    rw [exchange_unsendable hsend]
    exact Or.inr ⟨Or.inl hsend, .unicodeEncodeError, s.sent, rfl, rfl⟩

theorem heartbeat_dead (config : Config) {s : BedrockSession} (b : Beat) (h : s.alive = false) :
    s.heartbeat config b = (.error inactiveError, s) := if_pos h

end Verified

end Bedrock.Protocol

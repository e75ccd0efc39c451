/-
  The session token against a server and a network that loses messages.

  1. **Server** — not code of this repository: a parameter (`TokenService`).  What `_heartbeat_once`
     relies on is assumed of it by name: the request with the current token is answered with the next
     one (`Rotates`), and a request that is repeated at once gets the same answer and changes nothing
     (`Idempotent`) — "Repeat the exact token/challenge once so Bedrock can return its cached signed
     response".

  2. **Network** — either exchange of a heartbeat may lose its request or its answer; the client then
     sees a transport error, `HTTPResponse(error=..)`.

  3. **In step** (`in_step`) — along every run of the session, its background loop and the other threads'
     calls: while the session is alive its token is the server's, and the server has rotated as
     often as the client counts; a session that ended lost at most one rotation with it.  The crux
     is that the repeated request reaches an idempotent server (`beat_current`), so that a heartbeat
     rotates once however its exchanges are lost.
-/
import Bedrock.Lib.Retry
import Bedrock.Protocol.Heartbeat

open Lib.Fallible Lib.Transition Lib.Retry Bedrock.Python

namespace Bedrock.Protocol

/-! ## The server -/

/-- What a heartbeat asks the server, beside the constants of the client. -/
structure TokenRequest where
  /-- The token the client holds. -/
  token : Str
  /-- The challenge it drew. -/
  challenge : Str
  requestInvisibleFolderToken : Bool
  deriving DecidableEq

/-- A server of one session, in states of any kind. -/
structure TokenService (Server : Type) where
  /-- Its answer to a request, and its state behind it. -/
  serve : Server → TokenRequest → HTTPResponse × Server
  /-- The current token of the session. -/
  token : Server → Str
  /-- Every token it handed out, the first one included. -/
  issued : Server → List Str

/-- What the world contributes to a heartbeat: the client's random bytes and clocks, and the passage of
    the two exchanges, with the text of the transport error where one is lost. -/
structure Transfer where
  random : Bytes
  requestInvisibleFolderToken : Bool
  /-- What the network does with the first exchange. -/
  first : Passage
  /-- The error text a lost exchange is reported with. -/
  firstError : Str
  /-- What it does with the repetition. -/
  retry : Passage
  retryError : Str
  now : Int
  nowUnsigned : Int

/-- The challenge of the heartbeat .. -/
def Transfer.challenge (x : Transfer) : Str := generateChallenge x.random

/-- .. and what the server sees of either of its requests. -/
def Transfer.request (x : Transfer) (token : Str) : TokenRequest :=
  ⟨token, x.challenge, x.requestInvisibleFolderToken⟩

/-- Both exchanges of the heartbeat fail. -/
def Transfer.lost (x : Transfer) : Bool := x.first.lost && x.retry.lost

/-- `HTTPResponse(error=str(error))`. -/
def lostResponse (error : Str) : HTTPResponse := ⟨0, [], ∅, error⟩

/-- A session with its loop, and the server. -/
structure Online (Server : Type) where
  /-- The client's side. -/
  system : System
  /-- The server's side. -/
  server : Server

/-- A new session, and the server that made it. -/
def Online.new {Server : Type} (token : Str) (hook : Option Hook) (srv : Server) : Online Server :=
  ⟨System.new token hook, srv⟩

/-- What a thread or the program does to a session, with the world's part in it. -/
inductive NetOp
  | heartbeat (x : Transfer)
  | start (monotonic wall : ℚ)
  | tick (monotonic wall : ℚ) (x : Transfer)
  | stop
  | setHook (hook : Option Hook)

/-- The exchanges of an operation, if it has any. -/
def NetOp.transfer : NetOp → Option Transfer
  | .heartbeat x | .tick _ _ x => some x
  | _ => none

section Service

variable {Server : Type} (sv : TokenService Server)

namespace TokenService

/-- The answer to the heartbeat's request with the current token. -/
def reply (srv : Server) (x : Transfer) : HTTPResponse := (sv.serve srv (x.request (sv.token srv))).1

/-- The server behind that request. -/
def after (srv : Server) (x : Transfer) : Server := (sv.serve srv (x.request (sv.token srv))).2

/-- The token it hands out. -/
def next (srv : Server) (x : Transfer) : Str := sv.token (sv.after srv x)

end TokenService

/-! ## A heartbeat on the network -/

/-- The first request, over the network .. -/
def Transfer.firstExchange (x : Transfer) (srv : Server) (token : Str) : Option HTTPResponse × Server :=
  carry sv.serve x.first srv (x.request token)

/-- .. and its repetition. -/
def Transfer.retryExchange (x : Transfer) (srv : Server) (token : Str) : Option HTTPResponse × Server :=
  carry sv.serve x.retry (x.firstExchange sv srv token).2 (x.request token)

/-- The heartbeat as the client sees it. -/
def Transfer.beat (x : Transfer) (srv : Server) (token : Str) : Beat where
  random := x.random
  requestInvisibleFolderToken := x.requestInvisibleFolderToken
  first := (x.firstExchange sv srv token).1.getD (lostResponse x.firstError)
  retry := (x.retryExchange sv srv token).1.getD (lostResponse x.retryError)
  now := x.now
  nowUnsigned := x.nowUnsigned

/-- The server after the heartbeat: the second exchange takes place after a transport error. -/
def Transfer.server (x : Transfer) (srv : Server) (token : Str) : Server :=
  if (x.beat sv srv token).first.error ≠ [] then (x.retryExchange sv srv token).2
  else (x.firstExchange sv srv token).2

/-- The step of the session. -/
def NetOp.op (srv : Server) (token : Str) : NetOp → Op
  | .heartbeat x => .heartbeat (x.beat sv srv token)
  | .start monotonic wall => .start monotonic wall
  | .tick monotonic wall x => .tick ⟨monotonic, wall, x.beat sv srv token⟩
  | .stop => .stop
  | .setHook hook => .setHook hook

/-- What the operation is to the session: the answers are those that came back. -/
def Online.op (o : Online Server) (e : NetOp) : Op := e.op sv o.server o.system.session.token

/-- The heartbeat of the session as the server of the moment answers it. -/
def Online.beat (o : Online Server) (x : Transfer) : Beat := x.beat sv o.server o.system.session.token

/-- The heartbeat a step makes of a living session. -/
def Online.transfer (o : Online Server) (e : NetOp) : Option Transfer :=
  if (beatOf o.system (o.op sv e)).isSome then e.transfer else none

/-- The requests of the step reach the server, if they can be written down. -/
def Online.serverAfter (config : Config) (o : Online Server) (e : NetOp) : Server :=
  match o.transfer sv e with
  | some x =>
    if (encodeForm (o.system.session.form config (o.beat sv x))).isOk then
      x.server sv o.server o.system.session.token
    else o.server
  | none => o.server

section Verified

variable [CallStack] [Ed25519]

/-- One operation, at the session and at the server. -/
def onlineStep (config : Config) (o : Online Server) (e : NetOp) : Online Server :=
  ⟨step config o.system (o.op sv e), o.serverAfter sv config e⟩

/-- **What the server is relied on for** when a heartbeat asks it with the current token: it hands out
    a token that is new and well formed, in a response that passes the client's checks. -/
structure TokenService.Rotates (config : Config) (srv : Server) (x : Transfer) : Prop where
  /-- The next token joins the ones handed out. -/
  issued : sv.issued (sv.after srv x) = sv.issued srv ++ [sv.next srv x]
  /-- No token is handed out twice. -/
  fresh : sv.next srv x ∉ sv.issued srv
  /-- It can be sent back. -/
  encodes : CanEncode (sv.next srv x)
  /-- It looks like a rotated token. -/
  prefixed : (str "BRF_").isPrefixOf (sv.next srv x) = true
  /-- The answer is a success of HTTP. -/
  ok : (sv.reply srv x).ok = true
  /-- The answer verifies against this heartbeat's challenge and hands the next token out. -/
  signed : ∃ r, verifySignedResponse config (sv.reply srv x) x.challenge x.now = .ok r ∧
    r.code = str "OK" ∧ r.authed = true ∧ r.sessionToken = some (sv.next srv x)

/-- A lost exchange is reported with a text. -/
structure Transfer.Reported (x : Transfer) : Prop where
  /-- A lost exchange is reported as an error, not as an empty text. -/
  firstError : x.firstError ≠ []
  retryError : x.retryError ≠ []

/-- The server and the transport do their part in a step that makes a heartbeat. -/
def PromisesKept (config : Config) (o : Online Server) (e : NetOp) : Prop :=
  ∀ x, o.transfer sv e = some x → sv.Rotates config o.server x ∧ x.Reported

/-! ## One heartbeat -/

omit [CallStack] [Ed25519] in
theorem HTTPResponse.error_of_ok {http : HTTPResponse} (h : http.ok = true) : http.error = [] := by
  rw [HTTPResponse.ok, Bool.and_eq_true, Bool.and_eq_true, decide_eq_true_eq] at h
  exact h.1.1

variable {sv}

omit [CallStack] [Ed25519] in
/-- What the client sees and the server does is the exchange, repeated once if no answer arrives. -/
theorem beat_retried {x : Transfer} (hx : x.Reported) {srv : Server} {token : Str}
    (hok : (sv.serve srv (x.request token)).1.ok = true) :
    (x.beat sv srv token).outcome = (retried sv.serve x.first x.retry srv
        (x.request token)).1.getD (lostResponse x.retryError) ∧
      x.server sv srv token = (retried sv.serve x.first x.retry srv (x.request token)).2 := by
  unfold Transfer.server Beat.outcome Transfer.beat Transfer.firstExchange Transfer.retryExchange retried
  dsimp only
  cases hfirst : x.first.lost with
  | true =>
    have hnone := (carry_lost sv.serve hfirst srv (x.request token)).1
    have herror : (lostResponse x.firstError).error ≠ [] := hx.firstError
    rw [hnone, Option.getD_none, if_pos herror, if_pos herror, if_pos rfl]
    exact ⟨rfl, rfl⟩
  | false =>
    rw [carry_delivered sv.serve hfirst, Option.getD_some]
    have hanswer : ¬ (sv.serve srv (x.request token)).1.error ≠ [] :=
      not_not.mpr (HTTPResponse.error_of_ok hok)
    rw [if_neg hanswer, if_neg hanswer]
    exact ⟨rfl, rfl⟩

/-- **An exchange of the current token** ends with the reply and one rotation, unless both its messages
    are lost — and then with a transport error, and the server may have rotated. -/
theorem beat_current (hrepeat : Idempotent sv.serve) {config : Config} {srv : Server} {x : Transfer}
    (hsv : sv.Rotates config srv x) (hx : x.Reported) :
    (x.lost = false ∧ (x.beat sv srv (sv.token srv)).outcome = sv.reply srv x ∧
      x.server sv srv (sv.token srv) = sv.after srv x) ∨
    (x.lost = true ∧ (x.beat sv srv (sv.token srv)).outcome = lostResponse x.retryError ∧
      (x.server sv srv (sv.token srv) = srv ∨ x.server sv srv (sv.token srv) = sv.after srv x)) := by
  obtain ⟨houtcome, hserver⟩ := beat_retried hx hsv.ok
  rw [houtcome, hserver]
  rcases retried_spec hrepeat x.first x.retry srv (x.request (sv.token srv)) with
    ⟨hlost, hres⟩ | ⟨hlost, hnone, hstate⟩
  · rw [hres]
    exact Or.inl ⟨hlost, rfl, rfl⟩
  · rw [hnone]
    exact Or.inr ⟨hlost, rfl, hstate⟩

/-! ## In step -/

variable (sv) in
/-- What holds in every state of the runs in which the promises are kept. -/
structure InStep (o : Online Server) : Prop where
  /-- The promises of the heartbeat hold. -/
  closed : ClosedInv o.system
  /-- So do those of its challenges. -/
  tokens : Tokens o.system.session
  /-- A living client and the server hold the same token. -/
  token : o.system.session.alive = true → o.system.session.token = sv.token o.server
  /-- The client's token can be sent. -/
  encodes : CanEncode o.system.session.token
  /-- It is one the server handed out. -/
  issued : o.system.session.token ∈ sv.issued o.server
  /-- So was every token ever sent. -/
  sent : ∀ pair ∈ o.system.session.sent, pair.1 ∈ sv.issued o.server
  /-- A living client has counted every rotation. -/
  rotations : o.system.session.alive = true →
    (sv.issued o.server).length = o.system.session.completed + 1
  /-- A dead one has missed one at most. -/
  behind : (sv.issued o.server).length ≤ o.system.session.completed + 2

omit [CallStack] [Ed25519] in
/-- Client and server start in step. -/
theorem inStep_new {token : Str} (htoken : CanEncode token) (hook : Option Hook) {srv : Server}
    (hcurrent : sv.token srv = token) (hissued : sv.issued srv = [token]) :
    InStep sv (Online.new token hook srv) where
  closed := closedInv_new token hook
  tokens := tokens_new token hook
  token _ := hcurrent.symm
  encodes := htoken
  issued := by
    show token ∈ sv.issued srv
    rw [hissued]
    exact List.mem_singleton_self token
  sent _ h := absurd h List.not_mem_nil
  rotations _ := congrArg List.length hissued
  behind := by
    show (sv.issued srv).length ≤ 2
    rw [hissued]
    exact Nat.le_succ 1

omit [CallStack] [Ed25519] in
/-- The heartbeat of a step is the one its transfer makes. -/
theorem transfer_of_beat {o : Online Server} {e : NetOp} {b : Beat}
    (h : beatOf o.system (o.op sv e) = some b) : ∃ x, o.transfer sv e = some x ∧ b = o.beat sv x := by
  have hmade : o.transfer sv e = e.transfer := by
    rw [Online.transfer, h]
    rfl
  rw [hmade]
  cases e with
  | heartbeat x =>
    rcases (beatOf_eq_some h).2 with hop | ⟨t, hop, -⟩
    · exact ⟨x, rfl, (Op.heartbeat.inj hop).symm⟩
    · cases hop
  | tick monotonic wall x =>
    rcases (beatOf_eq_some h).2 with hop | ⟨t, hop, rfl⟩
    · cases hop
    · exact ⟨x, rfl, congrArg Tick.beat (Op.tick.inj hop).symm⟩
  -- the other calls make no request
  | start monotonic wall =>
    rcases (beatOf_eq_some h).2 with hop | ⟨t, hop, -⟩
    · cases hop
    · cases hop
  | stop =>
    rcases (beatOf_eq_some h).2 with hop | ⟨t, hop, -⟩
    · cases hop
    · cases hop
  | setHook hook =>
    rcases (beatOf_eq_some h).2 with hop | ⟨t, hop, -⟩
    · cases hop
    · cases hop

/-- The session after a heartbeat that rotated. -/
def rotated (s : BedrockSession) (b : Beat) (token : Str) : BedrockSession :=
  { s with token := token, completed := s.completed + 1, sent := s.sent ++ b.sends s.token }

/-- The session after a heartbeat that reached nobody. -/
def unanswered (s : BedrockSession) (b : Beat) : BedrockSession :=
  ({ s with sent := s.sent ++ b.sends s.token } : BedrockSession).fail (transportError b.outcome) none

variable (sv) in
/-- **A heartbeat of a session in step** gets the reply, and both sides rotate; or gets nothing at all,
    and the session ends. -/
inductive BeatResult (config : Config) (o : Online Server) (x : Transfer) : Prop
  | answered (r : Response) (hlost : x.lost = false)
    (hverify : verifySignedResponse config (o.beat sv x).outcome (o.beat sv x).challenge
      (o.beat sv x).now = .ok r)
    (htoken : r.sessionToken = some (sv.next o.server x))
    (hclient : o.system.session.heartbeat config (o.beat sv x) =
      (.ok r, rotated o.system.session (o.beat sv x) (sv.next o.server x)))
    (hserver : x.server sv o.server o.system.session.token = sv.after o.server x)
  | lost (hlost : x.lost = true) (hfailed : (o.beat sv x).outcome.ok = false)
    (hclient : o.system.session.heartbeat config (o.beat sv x) =
      (.error (transportError (o.beat sv x).outcome), unanswered o.system.session (o.beat sv x)))
    (hserver : x.server sv o.server o.system.session.token = o.server ∨
      x.server sv o.server o.system.session.token = sv.after o.server x)

/-- **What a heartbeat comes to**, with whatever the network loses of it. -/
theorem beat_result (hrepeat : Idempotent sv.serve) {config : Config} (hid : CanEncode config.systemId)
    {o : Online Server} (h : InStep sv o) (halive : o.system.session.alive = true) {x : Transfer}
    (hsv : sv.Rotates config o.server x) (hx : x.Reported) : BeatResult sv config o x := by
  have hsend : Sendable config o.system.session := ⟨h.encodes, hid⟩
  have hbeat : o.beat sv x = x.beat sv o.server (sv.token o.server) := by
    rw [Online.beat, h.token halive]
  -- either the answer arrives, to the first or to the second request, or both are lost
  rcases beat_current hrepeat hsv hx with ⟨hlost, houtcome, hserver⟩ | ⟨hlost, houtcome, hserver⟩
  · obtain ⟨r, hverify, hcode, hauthed, hr⟩ := hsv.signed
    rw [← hbeat] at houtcome
    rw [← h.token halive] at hserver
    have hverify' : verifySignedResponse config (o.beat sv x).outcome (o.beat sv x).challenge
        (o.beat sv x).now = .ok r := by
      rw [houtcome]
      exact hverify
    exact .answered r hlost hverify' hr (heartbeat_rotates halive hsend (by rw [houtcome]; exact hsv.ok)
      hverify' hcode hauthed hr hsv.prefixed) hserver
  · rw [← hbeat] at houtcome
    rw [← h.token halive] at hserver
    have hfailed : (o.beat sv x).outcome.ok = false := by
      rw [houtcome, HTTPResponse.ok, decide_eq_false (show ¬ (lostResponse x.retryError).error = [] from
        hx.retryError)]
      rfl
    exact .lost hlost hfailed (heartbeat_lost halive hsend hfailed) hserver

/-- A step whose promises are kept is proper. -/
theorem proper_of_kept (hrepeat : Idempotent sv.serve) {config : Config}
    (hid : CanEncode config.systemId) {o : Online Server} {e : NetOp} (h : InStep sv o)
    (hkept : PromisesKept sv config o e) : Proper config o.system (o.op sv e) := by
  intro b hb
  obtain ⟨x, hx, rfl⟩ := transfer_of_beat hb
  have halive := (beatOf_eq_some hb).1
  have hescape := heartbeat_spec config (o.beat sv x) halive
  obtain ⟨hsv, hreported⟩ := hkept x hx
  cases beat_result hrepeat hid h halive hsv hreported with
  | answered r hlost hverify htoken hclient hserver =>
    constructor
    · rcases hescape with ⟨hgood, -⟩ | ⟨-, e, sent, -, hres⟩
      · exact hgood
      · rw [hclient] at hres
        cases hres
    · -- the token of the response is the server's next one, which nobody has seen
      rintro token ⟨-, r', hverify', -, -, htoken', -⟩
      obtain rfl := Except.ok.inj (hverify.symm.trans hverify')
      obtain rfl := Option.some.inj (htoken.symm.trans htoken')
      refine ⟨fun hsame => hsv.fresh (hsame ▸ h.issued), fun pair hpair hsame => ?_⟩
      exact hsv.fresh (hsame ▸ h.sent pair hpair)
  | lost hlost hfailed hclient hserver =>
    constructor
    · rcases hescape with ⟨hgood, -⟩ | ⟨-, e, sent, hother, hres⟩
      · exact hgood
      · rw [hclient] at hres
        obtain rfl := Except.error.inj (congrArg Prod.fst hres)
        rw [transportError] at hother
        split at hother
        · cases hother
        · cases hother
    · rintro token ⟨hok, -⟩
      rw [hfailed] at hok
      cases hok

omit [CallStack] [Ed25519] in
/-- A form that can be encoded is. -/
theorem isOk_encodeForm {form : Form} (h : FormEncodes form) : (encodeForm form).isOk = true := by
  have hpost := postForm_ok h (lostResponse [])
  cases hform : encodeForm form with
  | ok body => rfl
  | error e =>
    rw [postForm, hform] at hpost
    cases hpost

omit [CallStack] [Ed25519] in
/-- What is sent carries a token that was issued. -/
theorem mem_issued_of_sends {s : BedrockSession} {b : Beat} {issued : List Str}
    (htoken : s.token ∈ issued) (hsent : ∀ pair ∈ s.sent, pair.1 ∈ issued) :
    ∀ pair ∈ s.sent ++ b.sends s.token, pair.1 ∈ issued := by
  intro pair hpair
  rcases List.mem_append.mp hpair with hpair | hpair
  · exact hsent pair hpair
  · rw [mem_sends hpair]
    exact htoken

variable (sv) in
/-- **What one step can do** to a session and its server that are in step. -/
inductive OnlineResult (o : Online Server) (e : NetOp) (o' : Online Server) : Prop
  | answered (x : Transfer) (b : Beat) (hx : o.transfer sv e = some x)
    (halive : o.system.session.alive = true) (hlost : x.lost = false)
    (hclient : o'.system.session = rotated o.system.session b (sv.next o.server x))
    (hserver : o'.server = sv.after o.server x)
  | lost (x : Transfer) (b : Beat) (hx : o.transfer sv e = some x)
    (halive : o.system.session.alive = true) (hlost : x.lost = true)
    (hclient : o'.system.session = unanswered o.system.session b)
    (hserver : o'.server = o.server ∨ o'.server = sv.after o.server x)
  | quiet (hx : o.transfer sv e = none) (hclient : Unmoved o.system.session o'.system.session)
    (hserver : o'.server = o.server)

/-- **What an operation comes to.** -/
theorem online_result (hrepeat : Idempotent sv.serve) {config : Config}
    (hid : CanEncode config.systemId) {o : Online Server} {e : NetOp} (h : InStep sv o)
    (hkept : PromisesKept sv config o e) : OnlineResult sv o e (onlineStep sv config o e) := by
  -- a call that makes a request, with its result, or one that makes none
  rcases step_session config o.system (o.op sv e) with ⟨b, hb, halive, hsession⟩ | ⟨hnone, hmoved⟩
  · obtain ⟨x, hx, rfl⟩ := transfer_of_beat hb
    have hform : FormEncodes (o.system.session.form config (o.beat sv x)) :=
      formEncodes_iff.mpr ⟨h.encodes, hid⟩
    have hserver : (onlineStep sv config o e).server =
        x.server sv o.server o.system.session.token := by
      show o.serverAfter sv config e = _
      rw [Online.serverAfter, hx]
      exact if_pos (isOk_encodeForm hform)
    obtain ⟨hsv, hreported⟩ := hkept x hx
    cases beat_result hrepeat hid h halive hsv hreported with
    | answered r hlost hverify htoken hclient hrotate =>
      rw [hclient] at hsession
      exact .answered x _ hx halive hlost hsession (hserver.trans hrotate)
    | lost hlost hfailed hclient hstate =>
      rw [hclient] at hsession
      rw [← hserver] at hstate
      exact .lost x _ hx halive hlost hsession hstate
  · have hx : o.transfer sv e = none := by
      rw [Online.transfer, hnone]
      rfl
    refine .quiet hx hmoved ?_
    show o.serverAfter sv config e = _
    rw [Online.serverAfter, hx]

/-- **One step** keeps client and server in step. -/
theorem inStep_step (hrepeat : Idempotent sv.serve) {config : Config} (hid : CanEncode config.systemId)
    (o : Online Server) (e : NetOp) (h : InStep sv o) (hkept : PromisesKept sv config o e) :
    InStep sv (onlineStep sv config o e) := by
  -- the client's side is that of `Heartbeat`; only the relation to the server is new
  have hproper := proper_of_kept hrepeat hid h hkept
  have hclosed : ClosedInv (onlineStep sv config o e).system :=
    closedInv_step config o.system (o.op sv e) h.closed hproper.caught
  have htokens : Tokens (onlineStep sv config o e).system.session :=
    tokens_step config o.system (o.op sv e) h.tokens hproper
  have hresult := online_result hrepeat hid h hkept
  generalize onlineStep sv config o e = o' at hclosed htokens hresult
  obtain ⟨sys, srv⟩ := o'
  cases hresult with
  -- the answer was taken: the client has the token that the server has just issued
  | answered x b hx halive hlost hclient hserver =>
    dsimp only at hclient hserver
    subst hserver
    obtain ⟨hsv, -⟩ := hkept x hx
    refine ⟨hclosed, htokens, ?_, ?_, ?_, ?_, ?_, ?_⟩
    all_goals dsimp only
    · intro _
      rw [hclient]
      rfl
    · rw [hclient]
      exact hsv.encodes
    · rw [hclient, hsv.issued]
      exact List.mem_append_right _ (List.mem_singleton_self _)
    · rw [hclient, hsv.issued]
      exact fun pair hpair => List.mem_append_left _ (mem_issued_of_sends h.issued h.sent pair hpair)
    · intro _
      rw [hclient, hsv.issued, List.length_append, h.rotations halive]
      rfl
    · rw [hclient, hsv.issued, List.length_append, h.rotations halive]
      exact Nat.le_succ _
  -- no answer arrived: the session is over, and the server may be one token ahead
  | lost x b hx halive hlost hclient hserver =>
    dsimp only at hclient hserver
    have hdead : sys.session.alive = false := by
      rw [hclient]
      exact BedrockSession.alive_fail _ _ _
    have hunmoved : Unmoved { o.system.session with
        sent := o.system.session.sent ++ b.sends o.system.session.token } sys.session := by
      rw [hclient]
      exact unmoved_fail _ _
    -- the server has issued one more token, or none
    have hgrown : (∀ token ∈ sv.issued o.server, token ∈ sv.issued srv) ∧
        (sv.issued srv).length ≤ (sv.issued o.server).length + 1 := by
      rcases hserver with rfl | rfl
      · exact ⟨fun _ h => h, Nat.le_succ _⟩
      · rw [(hkept x hx).1.issued]
        exact ⟨fun _ h => List.mem_append_left _ h, (List.length_append ..).le⟩
    have hover : ¬ sys.session.alive = true := by
      rw [hdead]
      decide
    refine ⟨hclosed, htokens, fun hlive => absurd hlive hover, ?_, ?_, ?_,
      fun hlive => absurd hlive hover, ?_⟩
    all_goals dsimp only
    · rw [hunmoved.token]
      exact h.encodes
    · rw [hunmoved.token]
      exact hgrown.1 _ h.issued
    · rw [hunmoved.sent]
      exact fun pair hpair => hgrown.1 _ (mem_issued_of_sends h.issued h.sent pair hpair)
    · have hlen := hgrown.2
      rw [h.rotations halive] at hlen
      rw [hunmoved.completed]
      exact hlen
  -- nothing was sent: both sides stay as they are
  | quiet hx hclient hserver =>
    dsimp only at hclient hserver
    subst hserver
    refine ⟨hclosed, htokens, ?_, ?_, ?_, ?_, ?_, ?_⟩
    all_goals dsimp only
    · intro hlive
      rw [hclient.token]
      exact h.token (hclient.alive hlive)
    · rw [hclient.token]
      exact h.encodes
    · rw [hclient.token]
      exact h.issued
    · rw [hclient.sent]
      exact h.sent
    · intro hlive
      rw [hclient.completed]
      exact h.rotations (hclient.alive hlive)
    · rw [hclient.completed]
      exact h.behind

/-! ## Runs -/

variable (sv) in
/-- What is promised of a session and its server. -/
structure Synchronized (config : Config) (o : Online Server) : Prop where
  /-- A living session holds the server's token, and has counted every rotation. -/
  token : o.system.session.alive = true → o.system.session.token = sv.token o.server ∧
    (sv.issued o.server).length = o.system.session.completed + 1
  /-- The server is never more than one rotation ahead. -/
  behind : (sv.issued o.server).length ≤ o.system.session.completed + 2
  closed : Closed o.system
  challenge : OneChallenge o.system.session
  /-- The next heartbeat ends the session exactly if both its exchanges fail; else both sides take the
      next token. -/
  next : ∀ e x, PromisesKept sv config o e → o.transfer sv e = some x →
    ((onlineStep sv config o e).system.session.alive = true ↔ x.lost = false) ∧
    (x.lost = false → (onlineStep sv config o e).system.session.token = sv.next o.server x ∧
      sv.token (onlineStep sv config o e).server = sv.next o.server x)

/-- In step, the promises of the protocol hold. -/
theorem synchronized_of_inStep (hrepeat : Idempotent sv.serve) {config : Config}
    (hid : CanEncode config.systemId) {o : Online Server} (h : InStep sv o) :
    Synchronized sv config o where
  token halive := ⟨h.token halive, h.rotations halive⟩
  behind := h.behind
  closed := h.closed.closed
  challenge := h.tokens.challenge
  next e x hkept hx := by
    rcases online_result hrepeat hid h hkept with
      ⟨x', b, hx', halive, hlost, hclient, hserver⟩ | ⟨x', b, hx', halive, hlost, hclient, -⟩ |
      ⟨hnone, -, -⟩
    · obtain rfl := Option.some.inj (hx'.symm.trans hx)
      rw [hclient, hserver]
      exact ⟨iff_of_true halive hlost, fun _ => ⟨rfl, rfl⟩⟩
    · obtain rfl := Option.some.inj (hx'.symm.trans hx)
      rw [hclient, hlost]
      refine ⟨iff_of_false ?_ Bool.noConfusion, fun h => Bool.noConfusion h⟩
      rw [unanswered, BedrockSession.alive_fail]
      exact Bool.noConfusion
    · rw [hnone] at hx
      cases hx

variable (sv) in
/-- The step neither stops the session, nor finds the clock changed, nor loses both exchanges of a
    heartbeat. -/
def Calm (o : Online Server) (e : NetOp) : Prop :=
  (∀ x, o.transfer sv e = some x → x.lost = false) ∧ e ≠ .stop ∧
    ∀ monotonic wall x previousMonotonic previousWall, e = .tick monotonic wall x →
      o.system.thread = .running previousMonotonic previousWall →
        clockJumped previousMonotonic previousWall ⟨monotonic, wall, o.beat sv x⟩ = false

/-- **A calm step** does not end the session. -/
theorem alive_of_calm (hrepeat : Idempotent sv.serve) {config : Config}
    (hid : CanEncode config.systemId) {o : Online Server} {e : NetOp} (h : InStep sv o)
    (hkept : PromisesKept sv config o e) (hcalm : Calm sv o e)
    (halive : o.system.session.alive = true) :
    (onlineStep sv config o e).system.session.alive = true := by
  have hlive : ¬ o.system.session.alive = false := by
    rw [halive]
    decide
  rcases online_result hrepeat hid h hkept with
    -- a taken answer keeps the session alive, and a calm call loses none; otherwise nothing was sent
    ⟨x, b, hx, -, hlost, hclient, -⟩ | ⟨x, b, hx, -, hlost, -, -⟩ | ⟨hnone, -, -⟩
  · rw [hclient]
    exact halive
  · rw [hcalm.1 x hx] at hlost
    cases hlost
  · obtain ⟨-, hstop, hclock⟩ := hcalm
    -- without a request, only the clock and `stop` end a session
    cases e with
    | heartbeat x =>
      have hmade : beatOf o.system (o.op sv (.heartbeat x)) = some (o.beat sv x) := if_neg hlive
      rw [Online.transfer, hmade] at hnone
      cases hnone
    | start monotonic wall =>
      show (startLoop o.system monotonic wall).session.alive = true
      unfold startLoop
      split
      · exact halive
      · exact halive
    | tick monotonic wall x =>
      show (loopTick config o.system ⟨monotonic, wall, o.beat sv x⟩).session.alive = true
      unfold loopTick
      split
      · rename_i previousMonotonic previousWall hthread
        have hrunning : o.system.session.stopEvent = false := by
          rw [← Bool.not_eq_true]
          exact fun hevent => hlive (h.closed.event hevent)
        have hjump := hclock monotonic wall x previousMonotonic previousWall rfl hthread
        have hmade : beatOf o.system (o.op sv (.tick monotonic wall x)) = some (o.beat sv x) := by
          show beatOf o.system (.tick ⟨monotonic, wall, o.beat sv x⟩) = _
          rw [beatOf, if_neg hlive, hthread]
          dsimp only
          rw [hrunning, hjump]
          rfl
        rw [Online.transfer, hmade] at hnone
        cases hnone
      · exact halive
    | stop => exact absurd rfl hstop
    | setHook hook => exact halive

/-- **Client and server stay in step.**  In every run of heartbeats, loop passes, stops and hook changes
    against a server that repeats itself to a repeated request, in which the server rotates for each
    request with the current token, whatever exchanges are lost, they are synchronized; and the
    session is alive at the end of a run that never loses both exchanges of a heartbeat, is not
    stopped and sees no clock jump. -/
theorem in_step (hrepeat : Idempotent sv.serve) {config : Config} (hid : CanEncode config.systemId)
    {token : Str} (htoken : CanEncode token) (hook : Option Hook) {srv : Server}
    (hcurrent : sv.token srv = token) (hissued : sv.issued srv = [token]) (ops : List NetOp) :
    (Along (onlineStep sv config) (PromisesKept sv config) (Online.new token hook srv) ops →
      Synchronized sv config (run (onlineStep sv config) (Online.new token hook srv) ops)) ∧
    (Along (onlineStep sv config) (fun o e => PromisesKept sv config o e ∧ Calm sv o e)
      (Online.new token hook srv) ops →
      (run (onlineStep sv config) (Online.new token hook srv) ops).system.session.alive = true) := by
  have hnew : InStep sv (Online.new token hook srv) := inStep_new htoken hook hcurrent hissued
  constructor
  · intro h
    have hstep : ∀ o e, InStep sv o → PromisesKept sv config o e →
        InStep sv (onlineStep sv config o e) := fun o e ho hkept => inStep_step hrepeat hid o e ho hkept
    exact synchronized_of_inStep hrepeat hid (Along.inv hstep h hnew)
  · intro h
    have hstep : ∀ o e, InStep sv o ∧ o.system.session.alive = true →
        PromisesKept sv config o e ∧ Calm sv o e → InStep sv (onlineStep sv config o e) ∧
          (onlineStep sv config o e).system.session.alive = true := fun o e ho hok =>
      ⟨inStep_step hrepeat hid o e ho.1 hok.1, alive_of_calm hrepeat hid ho.1 hok.1 hok.2 ho.2⟩
    exact (Along.inv hstep h ⟨hnew, rfl⟩).2

end Verified

end Service

/-! ## A server that keeps its last answer -/

/-- A server for one session: its token, the request it answered last with the answer, and the tokens
    so far. -/
structure CachingServer where
  token : Str
  answered : Option (TokenRequest × HTTPResponse)
  issued : List Str

/-- The answer kept for this request. -/
def CachingServer.recall (srv : CachingServer) (r : TokenRequest) : Option HTTPResponse :=
  match srv.answered with
  | some (answered, http) => if answered = r then some http else none
  | none => none

/-- It answers the current token with `reply` and `newToken`, and refuses any other but the one it has
    just answered. -/
def cachingService (newToken : Str) (reply refusal : HTTPResponse) : TokenService CachingServer where
  serve srv r :=
    match srv.recall r with
    | some http => (http, srv)
    | none =>
      if r.token = srv.token then (reply, ⟨newToken, some (r, reply), srv.issued ++ [newToken]⟩)
      else (refusal, srv)
  token := CachingServer.token
  issued := CachingServer.issued

/-- The caching server answers a repeated request as before. -/
theorem cachingService_idempotent (newToken : Str) (reply refusal : HTTPResponse) :
    Idempotent (cachingService newToken reply refusal).serve := by
  intro srv r
  unfold cachingService
  dsimp only
  cases hrecall : srv.recall r with
  | some http =>
    dsimp only
    rw [hrecall]
  | none =>
    dsimp only
    by_cases hcurrent : r.token = srv.token
    · have hkept : CachingServer.recall ⟨newToken, some (r, reply), srv.issued ++ [newToken]⟩ r =
          some reply := if_pos rfl
      rw [if_pos hcurrent, hkept]
    · rw [if_neg hcurrent, hrecall]
      exact if_neg hcurrent

/-- It hands out `BRF_1` with the signed sample response. -/
def sampleService : TokenService CachingServer :=
  cachingService (str "BRF_1") (signedHTTP sampleBeatBody) (lostResponse [])

/-- A heartbeat whose answer is lost on the way: the repetition gets it from the cache. -/
def sampleTransfer : Transfer where
  random := List.replicate 64 1
  requestInvisibleFolderToken := false
  first := .answerLost
  firstError := str "timed out"
  retry := .delivered
  retryError := str "timed out"
  now := 1000
  nowUnsigned := 1000

/-- The server of a new session. -/
def sampleServer : CachingServer := ⟨str "BRK_0", none, [str "BRK_0"]⟩

/-- A new session at that server. -/
def sampleOnline : Online CachingServer := .new (str "BRK_0") (some 0) sampleServer

/-- The session after that heartbeat. -/
def sampleRotated : Online CachingServer :=
  @onlineStep CachingServer sampleService sampleStack sampleEd25519 sampleConfig sampleOnline
    (.heartbeat sampleTransfer)

/-- The sample server's next token. -/
theorem sampleService_next : sampleService.next sampleServer sampleTransfer = str "BRF_1" := by
  unfold TokenService.next TokenService.after sampleService cachingService
  dsimp only
  rw [show sampleServer.recall _ = none from rfl]
  exact congrArg CachingServer.token (congrArg Prod.snd (if_pos rfl))

theorem sampleService_rotates : @TokenService.Rotates CachingServer sampleService sampleStack
    sampleEd25519 sampleConfig sampleOnline.server sampleTransfer := by
  refine @TokenService.Rotates.mk CachingServer sampleService sampleStack sampleEd25519 _ _ _ rfl ?_ ?_ ?_
    rfl ⟨sampleBeatResponse, verify_sampleBeat, rfl, rfl, rfl⟩
  · decide +kernel
  · exact canEncode_of_isAscii (by decide +kernel)
  · decide +kernel

/-- The session survives the lost answer and takes the token the server handed out once. -/
theorem in_step_sample :
    @Synchronized CachingServer sampleService sampleStack sampleEd25519 sampleConfig sampleRotated ∧
      sampleRotated.system.session.alive = true ∧
      sampleRotated.system.session.token = str "BRF_1" := by
  have hid : CanEncode sampleConfig.systemId := canEncode_of_isAscii (by decide +kernel)
  have htoken : CanEncode (str "BRK_0") := canEncode_of_isAscii (by decide +kernel)
  have hkept : @PromisesKept CachingServer sampleService sampleStack sampleEd25519 sampleConfig
      sampleOnline (.heartbeat sampleTransfer) := by
    intro x hx
    obtain rfl : sampleTransfer = x := Option.some.inj hx
    exact ⟨sampleService_rotates, by decide +kernel, by decide +kernel⟩
  have hrun := @in_step CachingServer sampleService sampleStack sampleEd25519
    (cachingService_idempotent _ _ _) sampleConfig hid (str "BRK_0") htoken (some 0)
    sampleServer rfl rfl
  have hstart := (hrun []).1 trivial
  rw [run_nil] at hstart
  obtain ⟨-, -, -, -, hnext⟩ := hstart
  have hmade : sampleOnline.transfer sampleService (.heartbeat sampleTransfer) = some sampleTransfer := rfl
  obtain ⟨halive, htaken⟩ := hnext (.heartbeat sampleTransfer) sampleTransfer hkept hmade
  have hsync := (hrun [.heartbeat sampleTransfer]).1 ⟨hkept, trivial⟩
  rw [run_cons, run_nil] at hsync
  have hlost : sampleTransfer.lost = false := rfl
  unfold sampleRotated sampleOnline
  rw [← sampleService_next]
  exact ⟨hsync, halive.mpr hlost, (htaken hlost).1⟩

end Bedrock.Protocol

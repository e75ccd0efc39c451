/-
  Heartbeats over the life of a session: the background loop `_run` next to the calls of other
  threads.

  1. **System** — a session and its heartbeat thread.  A pass of the loop waits, compares the two
     clocks, beats; it ends the thread by returning, or by an exception no clause catches.  Clock
     readings are rationals: the rounding of the float differences is left out.

  2. **One call** (`failClosed_of_alive`) — a heartbeat of a living session ends in one of the two ways
     it should exactly when its inputs do not escape the handlers.

  3. **Runs** — two promises with two conditions.  As long as no input escapes, the loop never ends
     before the session does and the hook is called at most once (`run_closed`).  As long as, besides,
     each token that is taken is new to the session, no token goes out with two challenges
     (`run_oneChallenge`): nothing in the client checks that a rotated token is new.
-/
import Bedrock.Lib.Transition
import Bedrock.Protocol.Session

open Lib.Fallible Lib.Transition Bedrock.Python

namespace Bedrock.Protocol

/-- How far the two clocks of a tick may move apart before the session is failed. -/
def CLOCK_JUMP_TOLERANCE_SECONDS : ℚ := 2

/-- The heartbeat thread: not started, waiting with the clock readings of the last pass, or over. -/
inductive Thread
  /-- `start` was not called. -/
  | idle
  /-- It waits; these are the clocks of its last pass. -/
  | running (previousMonotonic previousWall : ℚ)
  /-- The loop has been left. -/
  | ended

/-- A session together with the state of its background thread. -/
structure System where
  session : BedrockSession
  thread : Thread

/-- What the world contributes to a pass of the loop. -/
structure Tick where
  /-- `time.monotonic()` behind the wait. -/
  monotonic : ℚ
  /-- `time.time()` behind the wait. -/
  wall : ℚ
  /-- The world's part in the heartbeat, where the pass sends one. -/
  beat : Beat

/-- The wall clock and the monotonic clock of one wait disagree by more than the tolerance. -/
def clockJumped (previousMonotonic previousWall : ℚ) (t : Tick) : Bool :=
  |(t.monotonic - previousMonotonic) - (t.wall - previousWall)| > CLOCK_JUMP_TOLERANCE_SECONDS

/-- The error a tick fails the session with when the clocks disagree. -/
def clockError : Exc :=
  bedrock .localFailure "Local clock changed unexpectedly during a Bedrock session."

/-- What a thread or the program does to a session. -/
inductive Op
  /-- `heartbeat`, called by the program. -/
  | heartbeat (b : Beat)
  /-- `start`, with the two clocks the loop begins with. -/
  | start (monotonic wall : ℚ)
  /-- One pass of the loop. -/
  | tick (t : Tick)
  /-- `stop`. -/
  | stop
  /-- `set_hook`. -/
  | setHook (hook : Option Hook)

section Verified

variable [CallStack] [Ed25519]

/-- The thread after a heartbeat of the loop: it returns on a `BedrockError`, dies of another
    exception, and goes on only while the session is alive. -/
def afterBeat (t : Tick) (res : Except Exc Response × BedrockSession) : System :=
  match res with
  | (.error _, s) => ⟨s, .ended⟩
  | (.ok _, s) => ⟨s, if s.alive then .running t.monotonic t.wall else .ended⟩

/-- One pass of `_run`. -/
def loopTick (config : Config) (sys : System) (t : Tick) : System :=
  match sys.thread with
  | .running previousMonotonic previousWall =>
    if sys.session.stopEvent then { sys with thread := .ended }
    else if clockJumped previousMonotonic previousWall t then
      ⟨sys.session.fail clockError none, .ended⟩
    else afterBeat t (sys.session.heartbeat config t.beat)
  | _ => sys

/-- `start`: the thread reads the clocks and waits. -/
def startLoop (sys : System) (monotonic wall : ℚ) : System :=
  match sys.thread with
  | .idle => { sys with thread := .running monotonic wall }
  | _ => sys

/-- One call on the session: a direct heartbeat, or one pass of the background loop. -/
def step (config : Config) (sys : System) : Op → System
  | .heartbeat b => { sys with session := (sys.session.heartbeat config b).2 }
  | .start monotonic wall => startLoop sys monotonic wall
  | .tick t => loopTick config sys t
  | .stop => { sys with session := sys.session.stop }
  | .setHook hook => { sys with session := sys.session.setHook hook }

/-- A new session, its thread not started. -/
def System.new (token : Str) (hook : Option Hook) : System := ⟨.new token hook, .idle⟩

/-! ## One call -/

/-- The first way to end: the token rotated on a verified response, nothing else changed that the
    program can see. -/
def ReturnsRotated (config : Config) (s : BedrockSession) (b : Beat) : Prop :=
  ∃ r token, (s.heartbeat config b).1 = .ok r ∧
    verifySignedResponse config b.outcome b.challenge b.now = .ok r ∧ r.code = str "OK" ∧
    r.sessionToken = some token ∧ (str "BRF_").isPrefixOf token = true ∧
    (s.heartbeat config b).2.alive = true ∧ (s.heartbeat config b).2.token = token ∧
    (s.heartbeat config b).2.completed = s.completed + 1 ∧
    (s.heartbeat config b).2.failures = s.failures

/-- The second way: the session is over and the registered hook was called once. -/
def EndsSession (config : Config) (s : BedrockSession) (b : Beat) : Prop :=
  (s.heartbeat config b).2.alive = false ∧ (s.heartbeat config b).2.token = s.token ∧
    (s.heartbeat config b).2.completed = s.completed ∧
    ∃ error response, (s.heartbeat config b).2.failures = s.failures ++ s.callHook error response

/-- A heartbeat is fail-closed: it ends in exactly one of the two ways. -/
def FailClosed (config : Config) (s : BedrockSession) (b : Beat) : Prop :=
  Xor (ReturnsRotated config s b) (EndsSession config s b)

/-- **A heartbeat of a living session is fail-closed exactly when its inputs do not escape.** -/
theorem failClosed_of_alive (config : Config) {s : BedrockSession} (b : Beat)
    (halive : s.alive = true) : FailClosed config s b ↔ ¬ Escapes config s b := by
  unfold FailClosed ReturnsRotated EndsSession
  rcases heartbeat_spec config b halive with ⟨hgood, hres⟩ | ⟨hbad, e, sent, -, hres⟩
  · refine iff_of_true ?_ hgood
    -- no escape: the heartbeat has rotated the token, or ended the session and called the hook
    rcases hres with ⟨r, token, hverify, hcode, -, htoken, hprefix, hres⟩ |
      ⟨⟨error, response, hres⟩, -⟩
    · rw [hres]
      refine Or.inl ⟨⟨r, token, rfl, hverify, hcode, htoken, hprefix, halive, rfl, rfl, rfl⟩, ?_⟩
      rintro ⟨hdead, -⟩
      rw [halive] at hdead
      cases hdead
    · rw [hres]
      refine Or.inr ⟨⟨rfl, rfl, rfl, error, response, rfl⟩, ?_⟩
      rintro ⟨r, token, -, -, -, -, -, hlive, -⟩
      cases hlive
  · -- an escape: neither, for the call raised and the session is alive
    refine iff_of_false ?_ (not_not.mpr hbad)
    rw [hres]
    rintro (⟨⟨r, token, hret, -⟩, -⟩ | ⟨⟨hdead, -⟩, -⟩)
    · cases hret
    · rw [halive] at hdead
      cases hdead

/-- A heartbeat on a verified response with the next token. -/
theorem heartbeat_rotates {config : Config} {s : BedrockSession} {b : Beat} {r : Response} {token : Str}
    (halive : s.alive = true) (hsend : Sendable config s) (hok : b.outcome.ok = true)
    (hverify : verifySignedResponse config b.outcome b.challenge b.now = .ok r)
    (hcode : r.code = str "OK") (hauthed : r.authed = true) (htoken : r.sessionToken = some token)
    (hkind : (str "BRF_").isPrefixOf token = true) : s.heartbeat config b = (.ok r, { s with
      token := token, completed := s.completed + 1, sent := s.sent ++ b.sends s.token }) := by
  have hno : ¬ (r.code ≠ str "OK" ∨ r.authed = false) := by
    rintro (h | h)
    · exact h hcode
    · rw [hauthed] at h
      cases h
  rw [BedrockSession.heartbeat, if_neg (by rw [halive]; decide), exchange_sendable hsend]
  dsimp only
  rw [hok, if_neg (by decide), BedrockSession.receive, hverify]
  dsimp only
  rw [BedrockSession.accept, htoken]
  dsimp only
  rw [if_neg hno, hkind, if_neg (by decide)]

/-- A heartbeat without a usable outcome ends the session. -/
theorem heartbeat_lost {config : Config} {s : BedrockSession} {b : Beat} (halive : s.alive = true)
    (hsend : Sendable config s) (hok : b.outcome.ok = false) :
    s.heartbeat config b = (.error (transportError b.outcome),
      ({ s with sent := s.sent ++ b.sends s.token } : BedrockSession).fail
        (transportError b.outcome) none) := by
  rw [BedrockSession.heartbeat, if_neg (by rw [halive]; decide), exchange_sendable hsend]
  dsimp only
  rw [if_pos hok]

/-! ## What a step does -/

/-- The heartbeat a step makes of a living session. -/
def beatOf (sys : System) (op : Op) : Option Beat :=
  if sys.session.alive = false then none
  else
    match op with
    | .heartbeat b => some b
    | .tick t =>
      match sys.thread with
      | .running previousMonotonic previousWall =>
        if sys.session.stopEvent || clockJumped previousMonotonic previousWall t then none
        else some t.beat
      | _ => none
    | _ => none

omit [CallStack] [Ed25519] in
/-- A call makes a request only on a living session, and the beat is the call's own. -/
theorem beatOf_eq_some {sys : System} {op : Op} {b : Beat} (h : beatOf sys op = some b) :
    sys.session.alive = true ∧ (op = .heartbeat b ∨ ∃ t, op = .tick t ∧ t.beat = b) := by
  by_cases halive : sys.session.alive = false
  · have hnone : beatOf sys op = none := if_pos halive
    rw [hnone] at h
    cases h
  · refine ⟨Bool.eq_true_of_not_eq_false halive, ?_⟩
    cases op with
    | heartbeat b' =>
      rw [beatOf, if_neg halive] at h
      exact Or.inl (congrArg Op.heartbeat (Option.some.inj h))
    | tick t =>
      rw [beatOf, if_neg halive] at h
      refine Or.inr ⟨t, rfl, ?_⟩
      cases hthread : sys.thread with
      | idle =>
        rw [hthread] at h
        cases h
      | ended =>
        rw [hthread] at h
        cases h
      | running previousMonotonic previousWall =>
        rw [hthread] at h
        dsimp only at h
        split at h
        · cases h
        · exact Option.some.inj h
    -- the other calls make no request
    | start monotonic wall =>
      have hnone : beatOf sys (.start monotonic wall) = none := if_neg halive
      rw [hnone] at h
      cases h
    | stop =>
      have hnone : beatOf sys .stop = none := if_neg halive
      rw [hnone] at h
      cases h
    | setHook hook =>
      have hnone : beatOf sys (.setHook hook) = none := if_neg halive
      rw [hnone] at h
      cases h

omit [CallStack] [Ed25519] in
/-- The beat of a tick is the one the tick carries. -/
theorem beatOf_tick {sys : System} {t : Tick} {b : Beat} (h : beatOf sys (.tick t) = some b) :
    t.beat = b := by
  rcases (beatOf_eq_some h).2 with hop | ⟨t', hop, hbeat⟩
  · cases hop
  · rw [Op.tick.inj hop, hbeat]

/-- The session is as it was, but for its hook, its end and the calls of the hook. -/
structure Unmoved (s s' : BedrockSession) : Prop where
  /-- No rotation. -/
  token : s'.token = s.token
  /-- No heartbeat counted. -/
  completed : s'.completed = s.completed
  /-- No request. -/
  sent : s'.sent = s.sent
  /-- It may have ended, but never comes back. -/
  alive : s'.alive = true → s.alive = true

omit [CallStack] [Ed25519] in
theorem Unmoved.refl (s : BedrockSession) : Unmoved s s := ⟨rfl, rfl, rfl, id⟩

omit [CallStack] [Ed25519] in
/-- Failing a session changes neither its token nor what it has sent. -/
theorem unmoved_fail (s : BedrockSession) (error : Exc) : Unmoved s (s.fail error none) := by
  unfold BedrockSession.fail
  split
  · exact ⟨rfl, rfl, rfl, fun h => Bool.noConfusion h⟩
  · exact ⟨rfl, rfl, rfl, fun h => Bool.noConfusion h⟩

omit [CallStack] [Ed25519] in
/-- After a heartbeat the loop is over only if the call raised or the session is over. -/
theorem afterBeat_eq (t : Tick) (res : Except Exc Response × BedrockSession) :
    ∃ thread, afterBeat t res = ⟨res.2, thread⟩ ∧
      (thread = .ended → (∃ e, res.1 = .error e) ∨ res.2.alive = false) := by
  obtain ⟨out, s⟩ := res
  cases out with
  | error e => exact ⟨.ended, rfl, fun _ => Or.inl ⟨e, rfl⟩⟩
  | ok r =>
    refine ⟨_, rfl, fun hended => Or.inr ?_⟩
    by_cases halive : s.alive = true
    · rw [if_pos halive] at hended
      cases hended
    · exact Bool.eq_false_iff.mpr halive

/-- A pass of a running loop that finds neither the stop event nor a clock jump is a heartbeat. -/
theorem loopTick_beat {config : Config} {sys : System} {t : Tick} {previousMonotonic previousWall : ℚ}
    (hthread : sys.thread = .running previousMonotonic previousWall)
    (hstop : sys.session.stopEvent = false)
    (hjump : clockJumped previousMonotonic previousWall t = false) :
    loopTick config sys t = afterBeat t (sys.session.heartbeat config t.beat) := by
  unfold loopTick
  rw [hthread]
  dsimp only
  rw [hstop, if_neg (by decide), hjump, if_neg (by decide)]

/-- **What a step does to the session**: one heartbeat of a living session, or nothing that matters to
    the token. -/
theorem step_session (config : Config) (sys : System) (op : Op) :
    (∃ b, beatOf sys op = some b ∧ sys.session.alive = true ∧
      (step config sys op).session = (sys.session.heartbeat config b).2) ∨
    (beatOf sys op = none ∧ Unmoved sys.session (step config sys op).session) := by
  by_cases halive : sys.session.alive = false
  · -- a session that is over makes no heartbeat
    refine Or.inr ⟨if_pos halive, ?_⟩
    cases op with
    | heartbeat b =>
      show Unmoved sys.session (sys.session.heartbeat config b).2
      rw [heartbeat_dead config b halive]
      exact Unmoved.refl _
    | start monotonic wall =>
      show Unmoved sys.session (startLoop sys monotonic wall).session
      unfold startLoop
      split
      · exact Unmoved.refl _
      · exact Unmoved.refl _
    | tick t =>
      show Unmoved sys.session (loopTick config sys t).session
      unfold loopTick
      split
      · split
        · exact Unmoved.refl _
        · split
          · exact unmoved_fail _ _
          · obtain ⟨thread, hafter, -⟩ := afterBeat_eq t (sys.session.heartbeat config t.beat)
            rw [hafter, heartbeat_dead config t.beat halive]
            exact Unmoved.refl _
      · exact Unmoved.refl _
    | stop => exact ⟨rfl, rfl, rfl, fun h => Bool.noConfusion h⟩
    | setHook hook => exact ⟨rfl, rfl, rfl, id⟩
  · have hlive : sys.session.alive = true := Bool.eq_true_of_not_eq_false halive
    cases op with
    | heartbeat b => exact Or.inl ⟨b, if_neg halive, hlive, rfl⟩
    | start monotonic wall =>
      refine Or.inr ⟨if_neg halive, ?_⟩
      show Unmoved sys.session (startLoop sys monotonic wall).session
      unfold startLoop
      split
      · exact Unmoved.refl _
      · exact Unmoved.refl _
    | tick t =>
      show (∃ b, _ ∧ _ ∧ (loopTick config sys t).session = _) ∨
        (_ ∧ Unmoved sys.session (loopTick config sys t).session)
      rw [beatOf, if_neg halive]
      unfold loopTick
      cases hthread : sys.thread with
      | idle => exact Or.inr ⟨rfl, Unmoved.refl _⟩
      | ended => exact Or.inr ⟨rfl, Unmoved.refl _⟩
      | running previousMonotonic previousWall =>
        dsimp only
        cases hstop : sys.session.stopEvent with
        | true => exact Or.inr ⟨rfl, Unmoved.refl _⟩
        | false =>
          rw [Bool.false_or]
          cases hjump : clockJumped previousMonotonic previousWall t with
          | true => exact Or.inr ⟨rfl, unmoved_fail _ _⟩
          | false =>
            obtain ⟨thread, hafter, -⟩ := afterBeat_eq t (sys.session.heartbeat config t.beat)
            refine Or.inl ⟨t.beat, rfl, hlive, ?_⟩
            rw [if_neg (by decide), if_neg (by decide), hafter]
    | stop => exact Or.inr ⟨if_neg halive, ⟨rfl, rfl, rfl, fun h => Bool.noConfusion h⟩⟩
    | setHook hook => exact Or.inr ⟨if_neg halive, ⟨rfl, rfl, rfl, id⟩⟩

/-! ## Runs: the loop and the hook -/

/-- What is promised of the loop and the hook. -/
structure Closed (sys : System) : Prop where
  /-- The loop does not end before the session. -/
  loop : sys.thread = .ended → sys.session.alive = false
  /-- The hook is called at most once. -/
  hook : sys.session.failures.length ≤ 1

/-- What carries `Closed` from step to step. -/
structure ClosedInv (sys : System) : Prop where
  closed : Closed sys
  /-- The stop event is set only for a session that is over. -/
  event : sys.session.stopEvent = true → sys.session.alive = false
  /-- A living session has not reported a failure. -/
  uncalled : sys.session.alive = true → sys.session.failures = []

/-- The condition on a step: its heartbeat, if it makes one, does not escape the handlers. -/
def Caught (config : Config) (sys : System) (op : Op) : Prop :=
  ∀ b, beatOf sys op = some b → ¬ Escapes config sys.session b

omit [CallStack] [Ed25519] in
/-- The invariant of fail-closed sessions holds when a session starts. -/
theorem closedInv_new (token : Str) (hook : Option Hook) : ClosedInv (System.new token hook) := by
  refine ⟨⟨?_, Nat.zero_le _⟩, ?_, fun _ => rfl⟩
  · intro h
    cases h
  · intro h
    cases h

omit [CallStack] [Ed25519] in
/-- A session that is over, whatever its thread does. -/
theorem closedInv_over {sys : System} (hdead : sys.session.alive = false)
    (hhook : sys.session.failures.length ≤ 1) : ClosedInv sys := by
  refine ⟨⟨fun _ => hdead, hhook⟩, fun _ => hdead, fun halive => ?_⟩
  rw [hdead] at halive
  cases halive

omit [CallStack] [Ed25519] in
/-- One failure calls the hook at most once. -/
theorem length_callHook_le (s : BedrockSession) (error : Exc) (response : Option Response) :
    (s.callHook error response).length ≤ 1 := by
  unfold BedrockSession.callHook
  split
  · exact Nat.zero_le _
  · exact Nat.le_refl _

omit [CallStack] [Ed25519] in
/-- A living session that fails calls its hook for the first time. -/
theorem length_failures_le {s : BedrockSession} (huncalled : s.failures = []) (error : Exc)
    (response : Option Response) : (s.failures ++ s.callHook error response).length ≤ 1 := by
  rw [huncalled, List.nil_append]
  exact length_callHook_le s error response

/-- **A heartbeat keeps the loop and the hook in order**, whatever becomes of the thread, as long as the
    thread does not end before the session. -/
theorem closedInv_beat {config : Config} {sys : System} {b : Beat} (h : ClosedInv sys)
    (halive : sys.session.alive = true) (hgood : ¬ Escapes config sys.session b) {thread : Thread}
    (hthread : thread = .ended → (sys.session.heartbeat config b).2.alive = false) :
    ClosedInv ⟨(sys.session.heartbeat config b).2, thread⟩ := by
  rcases heartbeat_spec config b halive with ⟨-, hres⟩ | ⟨hbad, -⟩
  · rcases hres with ⟨r, token, -, -, -, -, -, hres⟩ | ⟨⟨error, response, hres⟩, -⟩
    · rw [hres] at hthread ⊢
      exact ⟨⟨hthread, h.closed.hook⟩, h.event, h.uncalled⟩
    · rw [hres]
      exact closedInv_over rfl (length_failures_le (h.uncalled halive) error response)
  · exact absurd hbad hgood

/-- A heartbeat of a session that is over changes nothing. -/
theorem closedInv_dead {config : Config} {sys : System} {b : Beat} (h : ClosedInv sys)
    (hdead : sys.session.alive = false) (thread : Thread) :
    ClosedInv ⟨(sys.session.heartbeat config b).2, thread⟩ := by
  rw [heartbeat_dead config b hdead]
  exact closedInv_over hdead h.closed.hook

/-- A heartbeat that raises leaves the session over, unless its inputs escape. -/
theorem alive_of_raised {config : Config} {s : BedrockSession} {b : Beat} {e : Exc}
    (halive : s.alive = true) (hgood : ¬ Escapes config s b)
    (h : (s.heartbeat config b).1 = .error e) : (s.heartbeat config b).2.alive = false := by
  rcases heartbeat_spec config b halive with ⟨-, hres⟩ | ⟨hbad, -⟩
  · rcases hres with ⟨r, token, -, -, -, -, -, hres⟩ | ⟨⟨error, response, hres⟩, -⟩
    · rw [hres] at h
      cases h
    · rw [hres]
      rfl
  · exact absurd hbad hgood

/-- **One step** whose inputs do not escape keeps the loop and the hook in order. -/
theorem closedInv_step (config : Config) (sys : System) (op : Op) (h : ClosedInv sys)
    (hcaught : Caught config sys op) : ClosedInv (step config sys op) := by
  cases op with
  | heartbeat b =>
    by_cases halive : sys.session.alive = true
    · refine closedInv_beat h halive (hcaught b (by rw [beatOf, halive]; rfl)) fun hended => ?_
      rw [h.closed.loop hended] at halive
      cases halive
    · exact closedInv_dead h (Bool.eq_false_iff.mpr halive) sys.thread
  | start monotonic wall =>
    show ClosedInv (startLoop sys monotonic wall)
    unfold startLoop
    split
    · refine ⟨⟨fun hended => ?_, h.closed.hook⟩, h.event, h.uncalled⟩
      cases hended
    · exact h
  | tick t =>
    show ClosedInv (loopTick config sys t)
    unfold loopTick
    split
    · rename_i previousMonotonic previousWall hthread
      split
      · rename_i hstop
        exact closedInv_over (h.event hstop) h.closed.hook
      · rename_i hstop
        split
        · -- the clock check fails the session before the loop returns
          by_cases halive : sys.session.alive = true
          · rw [BedrockSession.fail_alive halive]
            exact closedInv_over rfl (length_failures_le (h.uncalled halive) clockError none)
          · rw [BedrockSession.fail, if_pos (Bool.eq_false_iff.mpr halive)]
            exact closedInv_over rfl h.closed.hook
        · rename_i hjump
          obtain ⟨thread, hafter, hended⟩ := afterBeat_eq t (sys.session.heartbeat config t.beat)
          rw [hafter]
          by_cases halive : sys.session.alive = true
          · have hbeat : beatOf sys (.tick t) = some t.beat := by
              rw [beatOf, halive, if_neg (by decide), hthread]
              show (if (sys.session.stopEvent || clockJumped previousMonotonic previousWall t) = true
                then none else some t.beat) = some t.beat
              rw [Bool.eq_false_iff.mpr hstop, Bool.eq_false_iff.mpr hjump]
              rfl
            have hgood := hcaught t.beat hbeat
            refine closedInv_beat h halive hgood fun h' => ?_
            rcases hended h' with ⟨e, hraise⟩ | hdead
            · exact alive_of_raised halive hgood hraise
            · exact hdead
          · exact closedInv_dead h (Bool.eq_false_iff.mpr halive) thread
    · exact h
  | stop => exact closedInv_over rfl h.closed.hook
  | setHook hook => exact ⟨⟨h.closed.loop, h.closed.hook⟩, h.event, h.uncalled⟩

/-- **Runs**: along steps whose inputs do not escape, the loop and the hook are in order. -/
theorem run_closed {config : Config} {token : Str} {hook : Option Hook} {ops : List Op}
    (h : Along (step config) (Caught config) (System.new token hook) ops) :
    Closed (run (step config) (System.new token hook) ops) :=
  (Along.inv (fun sys op hinv hok => closedInv_step config sys op hinv hok) h
    (closedInv_new token hook)).closed

/-! ## Runs: the tokens -/

/-- No token has been sent with two challenges. -/
def OneChallenge (s : BedrockSession) : Prop :=
  ∀ token c c', (token, c) ∈ s.sent → (token, c') ∈ s.sent → c = c'

/-- What carries `OneChallenge` from step to step: the next token to be sent has not been. -/
structure Tokens (s : BedrockSession) : Prop where
  /-- No token was sent with two challenges. -/
  challenge : OneChallenge s
  /-- The token held now has not been sent yet. -/
  unsent : s.alive = true → ∀ pair ∈ s.sent, pair.1 ≠ s.token

/-- The response to the heartbeat passes every check, and this is the token it brings. -/
def HandsOut (config : Config) (b : Beat) (token : Str) : Prop :=
  b.outcome.ok = true ∧ ∃ r, verifySignedResponse config b.outcome b.challenge b.now = .ok r ∧
    r.code = str "OK" ∧ r.authed = true ∧ r.sessionToken = some token ∧
    (str "BRF_").isPrefixOf token = true

/-- The token that is taken, if one is, is neither the session's present one nor one it has sent. -/
def HandsOutFresh (config : Config) (s : BedrockSession) (b : Beat) : Prop :=
  ∀ token, HandsOut config b token → token ≠ s.token ∧ ∀ pair ∈ s.sent, pair.1 ≠ token

/-- The condition on a step, for the tokens: its heartbeat, if it makes one, does not escape, and
    takes no token that is not new. -/
def Proper (config : Config) (sys : System) (op : Op) : Prop :=
  ∀ b, beatOf sys op = some b →
    ¬ Escapes config sys.session b ∧ HandsOutFresh config sys.session b

theorem Proper.caught {config : Config} {sys : System} {op : Op} (h : Proper config sys op) :
    Caught config sys op := fun b hb => (h b hb).1

/-- A heartbeat that rotates took its token from a response that passed every check. -/
theorem handsOut_of_rotated {config : Config} {s : BedrockSession} {b : Beat} {r : Response}
    {token : Str} (halive : s.alive = true) (hgood : ¬ Escapes config s b)
    (hres : (s.heartbeat config b).1 = .ok r)
    (hverify : verifySignedResponse config b.outcome b.challenge b.now = .ok r)
    (hcode : r.code = str "OK") (hauthed : r.authed = true) (htoken : r.sessionToken = some token)
    (hkind : (str "BRF_").isPrefixOf token = true) : HandsOut config b token := by
  refine ⟨?_, r, hverify, hcode, hauthed, htoken, hkind⟩
  have hsend : Sendable config s := not_not.mp fun hnot => hgood (Or.inl hnot)
  cases hok : b.outcome.ok with
  | true => rfl
  | false =>
    rw [heartbeat_lost halive hsend hok] at hres
    cases hres

omit [CallStack] [Ed25519] in
/-- A fresh session has sent nothing yet. -/
theorem tokens_new (token : Str) (hook : Option Hook) : Tokens (BedrockSession.new token hook) := by
  constructor
  · intro token c c' h
    exact absurd h List.not_mem_nil
  · intro _ pair h
    exact absurd h List.not_mem_nil

omit [CallStack] [Ed25519] in
/-- Sending the current, unsent token once more keeps every token with one challenge. -/
theorem oneChallenge_append {s : BedrockSession} {b : Beat} (hone : OneChallenge s)
    (hunsent : ∀ pair ∈ s.sent, pair.1 ≠ s.token) :
    OneChallenge { s with sent := s.sent ++ b.sends s.token } := by
  intro token c c' h h'
  rcases List.mem_append.mp h with h | h
  · rcases List.mem_append.mp h' with h' | h'
    · exact hone token c c' h h'
    · exact absurd (Prod.mk.inj (mem_sends h')).1 (hunsent _ h)
  · rcases List.mem_append.mp h' with h' | h'
    · exact absurd (Prod.mk.inj (mem_sends h)).1 (hunsent _ h')
    · rw [(Prod.mk.inj (mem_sends h)).2, (Prod.mk.inj (mem_sends h')).2]

omit [CallStack] [Ed25519] in
/-- What leaves the token and the requests alone keeps the invariant about them. -/
theorem Tokens.unmoved {s s' : BedrockSession} (h : Tokens s) (hmoved : Unmoved s s') : Tokens s' where
  challenge token c c' := by
    rw [hmoved.sent]
    exact h.challenge token c c'
  unsent halive := by
    rw [hmoved.sent, hmoved.token]
    exact h.unsent (hmoved.alive halive)

/-- **A heartbeat keeps the tokens apart**: the one it sent gives way to a new one, or the session is
    over. -/
theorem tokens_beat {config : Config} {s : BedrockSession} {b : Beat} (h : Tokens s)
    (halive : s.alive = true) (hgood : ¬ Escapes config s b) (hfresh : HandsOutFresh config s b) :
    Tokens (s.heartbeat config b).2 := by
  have hone := oneChallenge_append (b := b) h.challenge (h.unsent halive)
  rcases heartbeat_spec config b halive with ⟨-, hres⟩ | ⟨hbad, -⟩
  · rcases hres with ⟨r, token, hverify, hcode, hauthed, htoken, hkind, hres⟩ |
      ⟨⟨error, response, hres⟩, -⟩
    · obtain ⟨hnew, hnever⟩ := hfresh token (handsOut_of_rotated halive hgood (congrArg Prod.fst hres)
        hverify hcode hauthed htoken hkind)
      rw [hres]
      refine ⟨hone, fun _ pair hpair => ?_⟩
      rcases List.mem_append.mp hpair with hpair | hpair
      · exact hnever pair hpair
      · rw [mem_sends hpair]
        exact hnew.symm
    · rw [hres]
      refine ⟨hone, fun hlive => ?_⟩
      cases hlive
  · exact absurd hbad hgood

/-- **One step** that is proper keeps the tokens apart. -/
theorem tokens_step (config : Config) (sys : System) (op : Op) (h : Tokens sys.session)
    (hproper : Proper config sys op) : Tokens (step config sys op).session := by
  rcases step_session config sys op with ⟨b, hb, halive, hsession⟩ | ⟨-, hmoved⟩
  · obtain ⟨hgood, hfresh⟩ := hproper b hb
    rw [hsession]
    exact tokens_beat h halive hgood hfresh
  · exact h.unmoved hmoved

/-- **Runs**: along proper steps no token goes out with two challenges. -/
theorem run_oneChallenge {config : Config} {token : Str} {hook : Option Hook} {ops : List Op}
    (h : Along (step config) (Proper config) (System.new token hook) ops) :
    OneChallenge (run (step config) (System.new token hook) ops).session := by
  have hstep : ∀ sys op, Tokens sys.session → Proper config sys op →
      Tokens (step config sys op).session := fun sys op => tokens_step config sys op
  exact (Along.inv hstep h (tokens_new token hook)).challenge

end Verified

/-! ## The results together -/

/-- **Heartbeats are fail-closed.**  One call on a living session ends in exactly one of the two ways
    iff its inputs do not escape; in every run of heartbeats, loop passes, stops and hook changes
    whose inputs do not escape, the background loop does not end while the session reports alive and
    the hook is called at most once; and no token is sent with two challenges if, besides, each token
    that is taken is new to the session. -/
theorem heartbeat_fail_closed [CallStack] [Ed25519] (config : Config) :
    (∀ s b, s.alive = true → (FailClosed config s b ↔ ¬ Escapes config s b)) ∧
    ∀ token hook ops,
      (Along (step config) (Caught config) (System.new token hook) ops →
        Closed (run (step config) (System.new token hook) ops)) ∧
      (Along (step config) (Proper config) (System.new token hook) ops →
        OneChallenge (run (step config) (System.new token hook) ops).session) :=
  ⟨fun _ b halive => failClosed_of_alive config b halive,
    fun _ _ _ => ⟨run_closed, run_oneChallenge⟩⟩

/-- A heartbeat whose two requests both fail in transport. -/
def lostBeat : Beat where
  random := List.replicate 64 1
  requestInvisibleFolderToken := false
  first := ⟨0, [], ∅, str "timed out"⟩
  retry := ⟨0, [], ∅, str "timed out"⟩
  now := 1000
  nowUnsigned := 1000

/-- A heartbeat answered by the next token. -/
def rotatingBeat : Beat :=
  { lostBeat with first := signedHTTP sampleBeatBody }

/-- The next heartbeat, answered by the old response once more. -/
def replayedBeat : Beat :=
  { rotatingBeat with random := List.replicate 64 2 }

/-- Two passes of the loop: the token rotates, then the replay is refused and ends the session. -/
def sampleOps : List Op := [.start 0 0, .tick ⟨30, 30, rotatingBeat⟩, .tick ⟨60, 60, replayedBeat⟩]

/-- What the answer reads as. -/
def sampleBeatResponse : Response :=
  { sampleInitResponse with
    challenge := generateChallenge (List.replicate 64 1)
    sessionToken := some (str "BRF_1")
    licenseKeyHash := none
    invisibleFolderToken := none }

theorem verify_sampleBeat : @verifySignedResponse sampleStack sampleEd25519 sampleConfig
    (signedHTTP sampleBeatBody) (generateChallenge (List.replicate 64 1)) 1000 =
      .ok sampleBeatResponse := by
  decide +kernel

/-- The signed message reads as text, whichever challenge it is held against. -/
theorem sampleBeat_readable : ¬ @Unreadable sampleStack sampleEd25519 sampleConfig
    (signedHTTP sampleBeatBody) := by
  obtain ⟨m, -, -, hopen, hgood, -⟩ :=
    @verifySignedResponse_eq_ok sampleStack sampleEd25519 _ _ _ _ _ verify_sampleBeat
  rintro (⟨m', hopen', hbad⟩ | hbad)
  · obtain rfl := Except.ok.inj (hopen.symm.trans hopen')
    rw [hgood] at hbad
    cases hbad
  · cases hbad

/-- A replay is refused and hands out nothing, so it asks for no freshness. -/
theorem heartbeat_fail_closed_sample :
    @FailClosed sampleStack sampleEd25519 sampleConfig (.new (str "BRK_0") (some 0)) rotatingBeat ∧
    Closed (run (@step sampleStack sampleEd25519 sampleConfig)
      (System.new (str "BRK_0") (some 0)) sampleOps) ∧
    OneChallenge (run (@step sampleStack sampleEd25519 sampleConfig)
      (System.new (str "BRK_0") (some 0)) sampleOps).session := by
  let _ := sampleStack
  let _ := sampleEd25519
  have hsystem : CanEncode sampleConfig.systemId := canEncode_of_isAscii (by decide +kernel)
  have hgood : ∀ (s : BedrockSession) (b : Beat), CanEncode s.token →
      b.outcome = signedHTTP sampleBeatBody → ¬ Escapes sampleConfig s b := by
    rintro s b htoken houtcome (hnot | ⟨-, hbad⟩)
    · exact hnot ⟨htoken, hsystem⟩
    · rw [houtcome] at hbad
      exact sampleBeat_readable hbad
  have hfirst : CanEncode (str "BRK_0") := canEncode_of_isAscii (by decide +kernel)
  have hnext : CanEncode (str "BRF_1") := canEncode_of_isAscii (by decide +kernel)
  -- the first pass takes the token `BRF_1`
  have hrotates := @heartbeat_rotates sampleStack sampleEd25519 sampleConfig (.new (str "BRK_0") (some 0))
    rotatingBeat _ (str "BRF_1") rfl ⟨hfirst, hsystem⟩ rfl verify_sampleBeat rfl rfl rfl
    (by decide +kernel)
  have hcalm : clockJumped 0 0 ⟨30, 30, rotatingBeat⟩ = false := by
    simp [clockJumped, CLOCK_JUMP_TOLERANCE_SECONDS]
  have hstate : step sampleConfig ⟨.new (str "BRK_0") (some 0), .running 0 0⟩
      (.tick ⟨30, 30, rotatingBeat⟩) = ⟨{ BedrockSession.new (str "BRK_0") (some 0) with
        token := str "BRF_1", completed := 1, sent := rotatingBeat.sends (str "BRK_0") },
        .running 30 30⟩ := by
    have htick := @loopTick_beat sampleStack sampleEd25519 sampleConfig
      ⟨.new (str "BRK_0") (some 0), .running 0 0⟩ ⟨30, 30, rotatingBeat⟩ _ _ rfl rfl hcalm
    rw [hrotates] at htick
    exact htick
  obtain ⟨hcall, hrun⟩ := heartbeat_fail_closed sampleConfig
  have hproper : Along (step sampleConfig) (Proper sampleConfig) (System.new (str "BRK_0") (some 0))
      sampleOps := by
    refine ⟨fun b hb => ?_, fun b hb => ?_, ?_⟩
    · cases hb
    · obtain rfl := beatOf_tick hb
      refine ⟨hgood _ _ hfirst rfl, fun token htoken => ?_⟩
      obtain ⟨-, r, hverify, -, -, hr, -⟩ := htoken
      obtain rfl := Except.ok.inj (verify_sampleBeat.symm.trans hverify)
      obtain rfl := Option.some.inj hr
      exact ⟨by decide +kernel, fun pair hpair => absurd hpair List.not_mem_nil⟩
    · show Along _ _ (step sampleConfig ⟨.new (str "BRK_0") (some 0), .running 0 0⟩
        (.tick ⟨30, 30, rotatingBeat⟩)) _
      rw [hstate]
      refine ⟨fun b hb => ?_, trivial⟩
      obtain rfl := beatOf_tick hb
      refine ⟨hgood _ _ hnext rfl, fun token htoken => ?_⟩
      -- the response carries the challenge of the heartbeat before
      obtain ⟨-, r, hverify, -⟩ := htoken
      have hother : ¬ generateChallenge (List.replicate 64 1) =
          generateChallenge (List.replicate 64 2) := by
        decide +kernel
      exact absurd (accepted_challenge_unique verify_sampleBeat hverify) hother
  obtain ⟨hclosed, hone⟩ := hrun (str "BRK_0") (some 0) sampleOps
  exact ⟨(hcall _ rotatingBeat rfl).mpr (hgood _ _ hfirst rfl), hclosed (hproper.mono fun _ _ h => h.caught),
    hone hproper⟩

/-- The body `b"\xff"` under the headers of the unsigned revocation. -/
def unreadableBeat : Beat :=
  { lostBeat with first := unsignedHTTP [0xFF], retry := unsignedHTTP [0xFF] }

/-- A living session with a hook that gets that body: the call raises, the session stays alive and
    the hook is not called. -/
theorem unreadableBody_not_failClosed :
    ¬ @FailClosed sampleStack sampleEd25519 sampleConfig (.new (str "BRK_0") (some 0))
        unreadableBeat ∧
    (@BedrockSession.heartbeat sampleStack sampleEd25519 sampleConfig (.new (str "BRK_0") (some 0))
        unreadableBeat).2.alive = true := by
  have hbad : @Escapes sampleStack sampleEd25519 sampleConfig (.new (str "BRK_0") (some 0))
      unreadableBeat := Or.inr ⟨by decide +kernel, Or.inr (by decide +kernel)⟩
  constructor
  · intro h
    exact (@failClosed_of_alive sampleStack sampleEd25519 sampleConfig _ unreadableBeat rfl).mp h hbad
  · rcases @heartbeat_spec sampleStack sampleEd25519 sampleConfig _ unreadableBeat
      (show (BedrockSession.new (str "BRK_0") (some 0)).alive = true from rfl) with
      ⟨hgood, -⟩ | ⟨-, e, sent, -, hres⟩
    · exact absurd hbad hgood
    · rw [hres]
      rfl

end Bedrock.Protocol

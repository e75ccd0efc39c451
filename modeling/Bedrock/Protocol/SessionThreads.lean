/-
  The threads of one session, step by step.

  1. **Threads** — `Pc` is where a thread stands between two accesses to the session's fields: in
     `heartbeat` (under the request lock), in `fail`, in `stop`.  Any number of threads run, in any
     order.  The background loop's own heartbeats are calls like any other; its clock check fails
     outside of the lock (`ThreadAction.clock`), once, for the loop returns behind it.

  2. **Linearization** — `threads_linearizable`: what the threads do is what the calls do one after
     the other, each at its alive check, a `stop` at its first write.  The call that holds the lock
     is finished in thought (`pending`): nothing another thread may do meanwhile changes its end,
     but for the hook.

  3. **The hook** — `fail` reads `_alive` and clears it in two steps.  The request lock keeps two
     heartbeats from failing twice, not a heartbeat and the clock check: `hook_calls` counts.
-/
import Bedrock.Protocol.Heartbeat

open Lib.Fallible Lib.Transition Bedrock.Python

namespace Bedrock.Protocol

/-! ## What becomes of an outcome -/

/-- The end of a heartbeat whose exchange is over: the token rotates, or the session fails, or an
    exception escapes. -/
inductive Verdict
  /-- The response is accepted, the session goes on with this token. -/
  | rotate (r : Response) (token : Str)
  /-- `fail` is called; `res` is what the heartbeat returns or raises behind it. -/
  | fail (error : Exc) (response : Option Response) (res : Except Exc Response)
  /-- An exception leaves the heartbeat past `fail`. -/
  | escape (e : Exc)

/-- What is returned or raised. -/
def Verdict.result : Verdict → Except Exc Response
  | .rotate r _ => .ok r
  | .fail _ _ res => res
  | .escape e => .error e

/-- What becomes of the session: it rotates, fails, or stays. -/
def Verdict.session (s : BedrockSession) : Verdict → BedrockSession
  | .rotate _ token => { s with token := token, completed := s.completed + 1 }
  | .fail error response _ => s.fail error response
  | .escape _ => s

/-- The checks of a verified response. -/
def acceptVerdict (r : Response) : Verdict :=
  match r.sessionToken with
  | none => .fail (terminationError r) (some r) (.ok r)
  | some token =>
    if r.code ≠ str "OK" ∨ r.authed = false then .fail (terminationError r) (some r) (.ok r)
    else if (str "BRF_").isPrefixOf token = false then .fail rotationError none (.error rotationError)
    else .rotate r token

/-- An exception of a verification: `except BedrockError` fails the session. -/
def raiseVerdict (e : Exc) : Verdict :=
  if e.isBedrockError then .fail e none (.error e) else .escape e

/-- `_heartbeat_once` behind the verification, as a verdict. -/
theorem accept_eq (s : BedrockSession) (r : Response) :
    s.accept r = ((acceptVerdict r).result, (acceptVerdict r).session s) := by
  unfold BedrockSession.accept acceptVerdict
  cases r.sessionToken with
  | none => rfl
  | some token =>
    dsimp only
    by_cases hcode : r.code ≠ str "OK" ∨ r.authed = false
    · rw [if_pos hcode, if_pos hcode]
      rfl
    · rw [if_neg hcode, if_neg hcode]
      by_cases hprefix : (str "BRF_").isPrefixOf token = false
      · rw [if_pos hprefix, if_pos hprefix]
        rfl
      · rw [if_neg hprefix, if_neg hprefix]
        rfl

theorem raise_eq (s : BedrockSession) (e : Exc) :
    ((.error e, if e.isBedrockError then s.fail e none else s) : Except Exc Response × BedrockSession) =
      ((raiseVerdict e).result, (raiseVerdict e).session s) := by
  unfold raiseVerdict
  by_cases h : e.isBedrockError = true
  · rw [if_pos h, if_pos h]
    rfl
  · rw [if_neg h, if_neg h]
    rfl

section Verified

variable [CallStack] [Ed25519]

/-- `_heartbeat_once` behind the exchange, as far as it does not touch the session. -/
def verdict (config : Config) (b : Beat) (http : HTTPResponse) : Verdict :=
  if http.ok = false then .fail (transportError http) none (.error (transportError http))
  else
    match verifySignedResponse config http b.challenge b.now with
    | .ok r => acceptVerdict r
    | .error e =>
      if isUnsigned e then
        match parseUnsignedRevocation config http b.challenge b.nowUnsigned with
        | .ok r => acceptVerdict r
        | .error e => raiseVerdict e
      else raiseVerdict e

/-- The verdict is what the code does with the outcome. -/
theorem judge_eq (config : Config) (s : BedrockSession) (b : Beat) (http : HTTPResponse) :
    (if http.ok = false then (.error (transportError http), s.fail (transportError http) none)
      else s.receive config b http) =
        ((verdict config b http).result, (verdict config b http).session s) := by
  unfold verdict
  by_cases hok : http.ok = false
  · rw [if_pos hok, if_pos hok]
    rfl
  rw [if_neg hok, if_neg hok]
  unfold BedrockSession.receive
  cases verifySignedResponse config http b.challenge b.now with
  | ok r => exact accept_eq s r
  | error e =>
    dsimp only
    by_cases hunsigned : isUnsigned e = true
    · rw [if_pos hunsigned, if_pos hunsigned]
      unfold BedrockSession.receiveUnsigned
      cases parseUnsignedRevocation config http b.challenge b.nowUnsigned with
      | ok r => exact accept_eq s r
      | error e => exact raise_eq s e
    · rw [if_neg hunsigned, if_neg hunsigned]
      exact raise_eq s e

end Verified

/-! ## Threads -/

/-- Where a thread stands in `fail`: at the read of `_alive`, at the two writes of `stop` and the one
    behind it, at the read of `_hook`, at its call. -/
inductive FailAt
  /-- `was_alive = self._alive`. -/
  | read
  /-- The first write of `stop`. -/
  | clear (wasAlive : Bool)
  /-- Its second, `self._stop_event.set()`. -/
  | signal (wasAlive : Bool)
  /-- `self._alive = False` behind `stop`. -/
  | clearAgain (wasAlive : Bool)
  /-- `hook = self._hook`. -/
  | pick
  /-- `hook(failure)`. -/
  | call (hook : Hook)

/-- Where a thread stands.  A failure of a heartbeat keeps what the heartbeat will return or raise;
    the failure of the clock check returns nothing. -/
inductive Pc
  /-- Not in the session. -/
  | idle
  /-- In front of the request lock. -/
  | called (b : Beat)
  /-- Inside, at the test of `_alive`. -/
  | entered (b : Beat)
  /-- At the read of the token. -/
  | forming (b : Beat)
  /-- At the first request. -/
  | sending (b : Beat) (token : Str)
  /-- At its repetition. -/
  | resending (b : Beat) (token : Str)
  /-- The answer is there and is judged. -/
  | judging (b : Beat) (http : HTTPResponse)
  /-- At the writes of an accepted heartbeat. -/
  | rotating (r : Response) (token : Str)
  /-- In `fail`. -/
  | failing (place : FailAt) (error : Exc) (response : Option Response)
      (res : Option (Except Exc Response))
  /-- At the release of the request lock. -/
  | leaving (res : Except Exc Response)
  /-- At the second write of `stop`. -/
  | stopping

/-- The session, who holds the request lock, where the threads stand; `clocked` is the thread of the
    loop once its clock check has failed, and `results` is a history variable, what the heartbeats
    returned or raised. -/
structure Threads where
  /-- The fields all threads share. -/
  session : BedrockSession
  /-- The thread in the `with self._request_lock`. -/
  requestLock : Option Nat
  /-- Where each thread stands. -/
  pc : Nat → Pc
  /-- The thread whose clock check failed; there is one at most. -/
  clocked : Option Nat
  /-- History: what the heartbeats returned or raised, in the order they left. -/
  results : List (Except Exc Response)

/-- A thread calls one of the methods, or goes on by one access. -/
inductive ThreadAction
  /-- `heartbeat`. -/
  | call (i : Nat) (b : Beat)
  /-- The clock check of the loop fails. -/
  | clock (i : Nat)
  /-- `stop`. -/
  | stop (i : Nat)
  /-- `set_hook`. -/
  | setHook (hook : Option Hook)
  /-- The thread's next access. -/
  | go (i : Nat)

/-- A new session, no thread inside. -/
def Threads.new (token : Str) (hook : Option Hook) : Threads :=
  ⟨.new token hook, none, fun _ => .idle, none, []⟩

/-- Thread `i` moves on. -/
def Threads.set (t : Threads) (i : Nat) (pc : Pc) : Threads :=
  { t with pc := Function.update t.pc i pc }

/-- The form with the token read for it. -/
def tokenForm (config : Config) (token : Str) (b : Beat) : Form :=
  BedrockSession.form config (.new token none) b

/-- Behind `fail` a heartbeat leaves; the loop has returned. -/
def Pc.behindFail : Option (Except Exc Response) → Pc
  | some res => .leaving res
  | none => .idle

/-- One access of `fail`. -/
def BedrockSession.failStep (s : BedrockSession) (error : Exc) (response : Option Response)
    (res : Option (Except Exc Response)) : FailAt → BedrockSession × Pc
  | .read => (s, .failing (.clear s.alive) error response res)
  | .clear wasAlive => ({ s with alive := false }, .failing (.signal wasAlive) error response res)
  | .signal wasAlive =>
    ({ s with stopEvent := true }, .failing (.clearAgain wasAlive) error response res)
  | .clearAgain wasAlive =>
    ({ s with alive := false },
      if wasAlive then .failing .pick error response res else .behindFail res)
  | .pick =>
    match s.hook with
    | some hook => (s, .failing (.call hook) error response res)
    | none => (s, .behindFail res)
  | .call hook =>
    ({ s with failures := s.failures ++ [(hook, ⟨error, response, s.completed⟩)] }, .behindFail res)

section Verified

variable [CallStack] [Ed25519]

/-- One access of a thread to the session. -/
def BedrockSession.access (config : Config) (s : BedrockSession) : Pc → BedrockSession × Pc
  | .entered b => (s, if s.alive = false then .leaving (.error inactiveError) else .forming b)
  | .forming b => (s, .sending b s.token)
  | .sending b token =>
    match postForm (tokenForm config token b) b.first with
    | .error e => (s, .leaving (.error e))
    | .ok http => ({ s with sent := s.sent ++ [(token, b.challenge)] },
        if http.error ≠ [] then .resending b token else .judging b http)
  | .resending b token =>
    match postForm (tokenForm config token b) b.retry with
    | .error e => (s, .leaving (.error e))
    | .ok http => ({ s with sent := s.sent ++ [(token, b.challenge)] }, .judging b http)
  | .judging b http =>
    match verdict config b http with
    | .rotate r token => (s, .rotating r token)
    | .fail error response res => (s, .failing .read error response (some res))
    | .escape e => (s, .leaving (.error e))
  | .rotating r token => ({ s with token := token, completed := s.completed + 1 }, .leaving (.ok r))
  | .failing place error response res => s.failStep error response res place
  | .stopping => ({ s with stopEvent := true }, .idle)
  | pc => (s, pc)

/-- Thread `i`, which stands at `pc`, moves on. -/
def Threads.go (config : Config) (t : Threads) (i : Nat) : Pc → Threads
  | .called b =>
    match t.requestLock with
    | none => { t with requestLock := some i }.set i (.entered b)
    | some _ => t
  | .leaving res => { t with requestLock := none, results := t.results ++ [res] }.set i .idle
  | pc => { t with session := (t.session.access config pc).1 }.set i (t.session.access config pc).2

/-- One access. A call of a busy thread, and a step of a thread that waits for the lock, change nothing.
    -/
def Threads.step (config : Config) (t : Threads) : ThreadAction → Threads
  | .call i b =>
    match t.pc i with
    | .idle => t.set i (.called b)
    | _ => t
  | .clock i =>
    match t.pc i, t.clocked with
    | .idle, none => { t with clocked := some i }.set i (.failing .read clockError none none)
    | _, _ => t
  | .stop i =>
    match t.pc i with
    | .idle => { t with session := { t.session with alive := false } }.set i .stopping
    | _ => t
  | .setHook hook => { t with session := t.session.setHook hook }
  | .go i => t.go config i (t.pc i)

/-! ## The end of a call in thought -/

/-- What a call still does to the session: what it sends, the token it rotates to, whether it ends
    the session. -/
structure Effect where
  /-- The requests that still go out. -/
  sent : List (Str × Str)
  /-- The token the session will take. -/
  rotates : Option Str
  /-- Whether the session will end. -/
  ends : Bool

/-- The effect on a session, all at once. -/
def Effect.apply (e : Effect) (s : BedrockSession) : BedrockSession :=
  { s with
    sent := s.sent ++ e.sent
    token := e.rotates.getD s.token
    completed := s.completed + (if e.rotates.isSome then 1 else 0)
    alive := s.alive && !e.ends }

/-- Nothing is left to do. -/
def Effect.none : Effect := ⟨[], .none, false⟩

/-- A request goes out in front of it. -/
def Effect.after (pair : Str × Str) (e : Effect) : Effect := { e with sent := pair :: e.sent }

/-- What a verdict will do to the session. -/
def Verdict.effect : Verdict → Effect
  | .rotate _ token => ⟨[], some token, false⟩
  | .fail .. => ⟨[], .none, true⟩
  | .escape _ => .none

/-- What is left to do behind the exchange. -/
def judged (config : Config) (b : Beat) (http : HTTPResponse) : Except Exc Response × Effect :=
  ((verdict config b http).result, (verdict config b http).effect)

/-- From the repetition on. -/
def repeated (config : Config) (token : Str) (b : Beat) : Except Exc Response × Effect :=
  match postForm (tokenForm config token b) b.retry with
  | .error e => (.error e, .none)
  | .ok http => ((judged config b http).1, (judged config b http).2.after (token, b.challenge))

/-- From the first request on. -/
def requested (config : Config) (token : Str) (b : Beat) : Except Exc Response × Effect :=
  match postForm (tokenForm config token b) b.first with
  | .error e => (.error e, .none)
  | .ok http =>
    let rest := if http.error ≠ [] then repeated config token b else judged config b http
    (rest.1, rest.2.after (token, b.challenge))

/-- What is left of the call of a thread that has passed its alive check. -/
def remaining (config : Config) (token : Str) : Pc → Option (Except Exc Response × Effect)
  | .forming b => some (requested config token b)
  | .sending b token => some (requested config token b)
  | .resending b token => some (repeated config token b)
  | .judging b http => some (judged config b http)
  | .rotating r token => some (.ok r, ⟨[], some token, false⟩)
  | .failing _ _ _ (some res) => some (res, ⟨[], .none, true⟩)
  | .leaving res => some (res, .none)
  | _ => .none

/-- The session but for the event and the calls of the hook. -/
def BedrockSession.visible (s : BedrockSession) : BedrockSession :=
  { s with stopEvent := false, failures := [] }

omit [CallStack] [Ed25519] in
@[simp] theorem Effect.apply_none (s : BedrockSession) : Effect.none.apply s = s := by
  simp [Effect.apply, Effect.none]

omit [CallStack] [Ed25519] in
theorem Effect.apply_after (pair : Str × Str) (e : Effect) (s : BedrockSession) :
    (e.after pair).apply s = e.apply { s with sent := s.sent ++ [pair] } := by
  rw [Effect.apply, Effect.apply, List.append_assoc]
  rfl

omit [CallStack] [Ed25519] in
/-- An effect is the same on sessions that look the same. -/
theorem Effect.apply_visible (e : Effect) {s s' : BedrockSession} (h : s.visible = s'.visible) :
    (e.apply s).visible = (e.apply s').visible := by
  simp only [BedrockSession.visible, BedrockSession.mk.injEq] at h ⊢
  obtain ⟨htoken, hhook, _, halive, hcompleted, hsent, _⟩ := h
  simp only [Effect.apply, htoken, hhook, halive, hcompleted, hsent, and_self]

omit [CallStack] [Ed25519] in
/-- What others see of a verdict is its effect. -/
theorem Verdict.session_visible (s : BedrockSession) (v : Verdict) :
    (v.session s).visible = (v.effect.apply s).visible := by
  cases v with
  | rotate r token => simp [Verdict.session, Verdict.effect, Effect.apply, BedrockSession.visible]
  | fail error response res =>
    simp only [Verdict.session, Verdict.effect, BedrockSession.fail]
    split <;> simp [Effect.apply, BedrockSession.stop, BedrockSession.visible]
  | escape e => rw [Verdict.session, Verdict.effect, Effect.apply_none]

/-- The end of an exchange, on the session as it is then. -/
def ended (config : Config) (b : Beat) : Except Exc HTTPResponse × BedrockSession →
    Except Exc Response × BedrockSession
  | (.error e, s) => (.error e, s)
  | (.ok http, s) => ((verdict config b http).result, (verdict config b http).session s)

/-- A heartbeat at one go: the alive check, the exchange, the end. -/
theorem heartbeat_eq (config : Config) (s : BedrockSession) (b : Beat) :
    s.heartbeat config b =
      if s.alive = false then (.error inactiveError, s) else ended config b (s.exchange config b) := by
  unfold BedrockSession.heartbeat ended
  by_cases hdead : s.alive = false
  · rw [if_pos hdead, if_pos hdead]
  · rw [if_neg hdead, if_neg hdead]
    obtain ⟨out, s'⟩ := s.exchange config b
    cases out with
    | error e => rfl
    | ok http => exact judge_eq config s' b http

/-- **The atomic heartbeat is its effect**, but for the event and the hook. -/
theorem heartbeat_requested (config : Config) {s : BedrockSession} (halive : s.alive = true) (b : Beat) :
    (s.heartbeat config b).1 = (requested config s.token b).1 ∧
      (s.heartbeat config b).2.visible = ((requested config s.token b).2.apply s).visible := by
  have hform : ∀ s : BedrockSession, s.form config b = tokenForm config s.token b := fun _ => rfl
  rw [heartbeat_eq, if_neg (by rw [halive]; decide)]
  unfold BedrockSession.exchange BedrockSession.post requested
  rw [hform]
  -- the form does not encode: no request, no effect
  cases hfirst : postForm (tokenForm config s.token b) b.first with
  | error e => exact ⟨rfl, by rw [Effect.apply_none]; rfl⟩
  | ok http =>
    dsimp only
    -- a transport error: the second request carries the same token
    by_cases herror : http.error ≠ []
    · have htoken : (s.record b).token = s.token := rfl
      rw [if_pos herror, if_pos herror, hform, htoken, repeated]
      cases hretry : postForm (tokenForm config s.token b) b.retry with
      | error e =>
        refine ⟨rfl, ?_⟩
        rw [Effect.apply_after, Effect.apply_none]
        rfl
      | ok http' =>
        refine ⟨rfl, ?_⟩
        rw [Effect.apply_after, Effect.apply_after]
        exact Verdict.session_visible _ _
    · rw [if_neg herror, if_neg herror]
      refine ⟨rfl, ?_⟩
      rw [Effect.apply_after]
      exact Verdict.session_visible _ _

end Verified

/-! ## The invariant -/

/-- The thread is behind the acquisition of the request lock. -/
def Pc.inside : Pc → Bool
  | .idle | .called _ | .stopping => false
  | .failing _ _ _ res => res.isSome
  | _ => true

/-- `fail` has cleared `_alive`. -/
def FailAt.cleared : FailAt → Bool
  | .read | .clear _ => false
  | _ => true

/-- What a thread knows about the session is true of it: the token it read, and that the session is
    over once `fail` has cleared it. -/
def Pc.Fits (token : Str) (alive : Bool) : Pc → Prop
  | .sending _ token' | .resending _ token' => token' = token
  | .failing place _ _ _ => place.cleared = true → alive = false
  | _ => True

/-- **The invariant of the threads**: one of them is inside the lock at most, and what each knows of the
    session is true. -/
structure Threads.Good (t : Threads) : Prop where
  /-- A thread is inside exactly if it holds the request lock. -/
  inside : ∀ i, (t.pc i).inside = true ↔ t.requestLock = some i
  /-- A token read by a thread is still the session's. -/
  fits : ∀ i, (t.pc i).Fits t.session.token t.session.alive

/-- It holds in front of all calls. -/
theorem Threads.good_new (token : Str) (hook : Option Hook) : (Threads.new token hook).Good where
  inside := fun i => by
    constructor
    · intro h
      cases h
    · intro h
      cases h
  fits := fun _ => trivial

/-- A thread that does not hold the lock knows no token. -/
theorem Pc.Fits.outside {token token' : Str} {alive alive' : Bool} {pc : Pc} (h : pc.Fits token alive)
    (hout : pc.inside = false) (hdead : alive = false → alive' = false) : pc.Fits token' alive' := by
  cases pc with
  | sending b token => cases hout
  | resending b token => cases hout
  | failing place error response res => exact fun hc => hdead (h hc)
  | _ => trivial

/-- What a thread knows stays true when the session ends. -/
theorem Pc.Fits.mono {token : Str} {alive alive' : Bool} {pc : Pc} (h : pc.Fits token alive)
    (hdead : alive = false → alive' = false) : pc.Fits token alive' := by
  cases pc with
  | sending b token => exact h
  | resending b token => exact h
  | failing place error response res => exact fun hc => hdead (h hc)
  | _ => trivial

/-- **One thread moves**: the invariant is kept if the thread stays on its side of the lock, knows the
    truth, and does not bring the session back or change the token from outside. -/
theorem Threads.Good.move {t : Threads} (h : t.Good) (i : Nat) (s : BedrockSession) (pc : Pc)
    (hin : pc.inside = (t.pc i).inside) (hfit : pc.Fits s.token s.alive)
    (hdead : t.session.alive = false → s.alive = false)
    (htoken : (t.pc i).inside = false → s.token = t.session.token) :
    ({ t with session := s }.set i pc).Good where
  inside := fun j => by
    by_cases hj : j = i
    · subst hj
      rw [show (({ t with session := s } : Threads).set j pc).pc j = pc from Function.update_self .., hin]
      exact h.inside j
    · rw [show (({ t with session := s } : Threads).set i pc).pc j = t.pc j from
        Function.update_of_ne hj ..]
      exact h.inside j
  fits := fun j => by
    by_cases hj : j = i
    · subst hj
      rw [show (({ t with session := s } : Threads).set j pc).pc j = pc from Function.update_self ..]
      exact hfit
    · rw [show (({ t with session := s } : Threads).set i pc).pc j = t.pc j from
        Function.update_of_ne hj ..]
      cases hout : (t.pc i).inside with
      | false => exact htoken hout ▸ (h.fits j).mono hdead
      | true =>
        -- the thread that moves holds the lock, so this one does not
        have hlock := (h.inside i).mp hout
        refine (h.fits j).outside (Bool.eq_false_iff.mpr fun hj' => hj ?_) hdead
        exact Option.some.inj (((h.inside j).mp hj').symm.trans hlock)

section Verified

variable [CallStack] [Ed25519]

/-- A thread that is neither at the lock nor about to leave it. -/
def Pc.Moving : Pc → Prop
  | .called _ | .leaving _ => False
  | _ => True

omit [CallStack] [Ed25519] in
theorem Pc.behindFail_inside (res : Option (Except Exc Response)) :
    (Pc.behindFail res).inside = res.isSome := by
  cases res <;> rfl

omit [CallStack] [Ed25519] in
theorem Pc.behindFail_fits (res : Option (Except Exc Response)) (token : Str) (alive : Bool) :
    (Pc.behindFail res).Fits token alive := by
  cases res <;> trivial

omit [CallStack] [Ed25519] in
/-- One access of `fail` keeps what the thread knows true. -/
theorem failStep_good {s : BedrockSession} {place : FailAt} (error : Exc)
    (response : Option Response) (res : Option (Except Exc Response))
    (hfit : place.cleared = true → s.alive = false) :
    (s.failStep error response res place).2.inside = res.isSome ∧
      (s.failStep error response res place).2.Fits (s.failStep error response res place).1.token
        (s.failStep error response res place).1.alive ∧
      (s.alive = false → (s.failStep error response res place).1.alive = false) ∧
      (s.failStep error response res place).1.token = s.token := by
  cases place with
  | read => exact ⟨rfl, (by intro h; cases h), id, rfl⟩
  -- after this write the session is over for everybody
  | clear wasAlive => exact ⟨rfl, fun _ => rfl, fun _ => rfl, rfl⟩
  | signal wasAlive => exact ⟨rfl, fun _ => hfit rfl, id, rfl⟩
  | clearAgain wasAlive =>
    cases wasAlive with
    | true => exact ⟨rfl, fun _ => rfl, fun _ => rfl, rfl⟩
    | false => exact ⟨Pc.behindFail_inside res, Pc.behindFail_fits res _ _, fun _ => rfl, rfl⟩
  -- without a hook there is nothing to call
  | pick =>
    unfold BedrockSession.failStep
    cases s.hook with
    | some hook => exact ⟨rfl, fun _ => hfit rfl, id, rfl⟩
    | none => exact ⟨Pc.behindFail_inside res, Pc.behindFail_fits res _ _, id, rfl⟩
  | call hook => exact ⟨Pc.behindFail_inside res, Pc.behindFail_fits res _ _, id, rfl⟩

/-- **One access** keeps the thread on its side of the lock and its knowledge true. -/
theorem access_good (config : Config) {s : BedrockSession} {pc : Pc} (hmoving : pc.Moving)
    (hfit : pc.Fits s.token s.alive) :
    (s.access config pc).2.inside = pc.inside ∧
      (s.access config pc).2.Fits (s.access config pc).1.token (s.access config pc).1.alive ∧
      (s.alive = false → (s.access config pc).1.alive = false) ∧
      (pc.inside = false → (s.access config pc).1.token = s.token) := by
  cases pc with
  | idle => exact ⟨rfl, trivial, id, fun _ => rfl⟩
  | called b => exact absurd hmoving id
  -- step by step, the lock is held from the first access of a heartbeat to its last
  | entered b =>
    rw [BedrockSession.access]
    by_cases hdead : s.alive = false
    · rw [if_pos hdead]
      exact ⟨rfl, trivial, id, fun _ => rfl⟩
    · rw [if_neg hdead]
      exact ⟨rfl, trivial, id, fun _ => rfl⟩
  | forming b => exact ⟨rfl, rfl, id, fun _ => rfl⟩
  | sending b token =>
    rw [BedrockSession.access]
    cases postForm (tokenForm config token b) b.first with
    | error e => exact ⟨rfl, trivial, id, fun _ => rfl⟩
    | ok http =>
      dsimp only
      by_cases herror : http.error ≠ []
      · rw [if_pos herror]
        exact ⟨rfl, hfit, id, fun _ => rfl⟩
      · rw [if_neg herror]
        exact ⟨rfl, trivial, id, fun _ => rfl⟩
  | resending b token =>
    rw [BedrockSession.access]
    cases postForm (tokenForm config token b) b.retry with
    | error e => exact ⟨rfl, trivial, id, fun _ => rfl⟩
    | ok http => exact ⟨rfl, trivial, id, fun _ => rfl⟩
  | judging b http =>
    rw [BedrockSession.access]
    cases verdict config b http with
    | rotate r token => exact ⟨rfl, trivial, id, fun _ => rfl⟩
    | fail error response res => exact ⟨rfl, (by intro h; cases h), id, fun _ => rfl⟩
    | escape e => exact ⟨rfl, trivial, id, fun _ => rfl⟩
  -- only a rotation moves the token, and it happens under the lock
  | rotating r token => exact ⟨rfl, trivial, id, by intro h; cases h⟩
  | failing place error response res =>
    obtain ⟨hin, hfits, hdead, htoken⟩ := failStep_good error response res hfit
    exact ⟨hin, hfits, hdead, fun _ => htoken⟩
  | leaving res => exact absurd hmoving id
  | stopping => exact ⟨rfl, trivial, id, fun _ => rfl⟩

/-! ## One access, seen from the end of the call -/

/-- **The holder's access** does not change how its call ends. -/
theorem access_remaining (config : Config) {s : BedrockSession} {pc : Pc} (hmoving : pc.Moving)
    (hfit : pc.Fits s.token s.alive) {res : Except Exc Response} {e : Effect}
    (h : remaining config s.token pc = some (res, e)) :
    ∃ e', remaining config (s.access config pc).1.token (s.access config pc).2 = some (res, e') ∧
      (e'.apply (s.access config pc).1).visible = (e.apply s).visible := by
  cases pc with
  | idle => cases h
  | called b => exact absurd hmoving id
  | entered b => cases h
  | forming b => exact ⟨e, h, rfl⟩
  | sending b token =>
    obtain rfl : token = s.token := hfit
    have h : requested config s.token b = (res, e) := Option.some.inj h
    rw [requested] at h
    rw [BedrockSession.access]
    cases hpost : postForm (tokenForm config s.token b) b.first with
    | error e' =>
      rw [hpost] at h
      obtain ⟨rfl, rfl⟩ := Prod.mk.inj h
      exact ⟨.none, rfl, rfl⟩
    | ok http =>
      rw [hpost] at h
      dsimp only at h ⊢
      by_cases herror : http.error ≠ []
      · rw [if_pos herror] at h ⊢
        obtain ⟨rfl, rfl⟩ := Prod.mk.inj h
        exact ⟨(repeated config s.token b).2, rfl, by rw [Effect.apply_after]⟩
      · rw [if_neg herror] at h ⊢
        obtain ⟨rfl, rfl⟩ := Prod.mk.inj h
        exact ⟨(judged config b http).2, rfl, by rw [Effect.apply_after]⟩
  | resending b token =>
    obtain rfl : token = s.token := hfit
    have h : repeated config s.token b = (res, e) := Option.some.inj h
    rw [repeated] at h
    rw [BedrockSession.access]
    cases hpost : postForm (tokenForm config s.token b) b.retry with
    | error e' =>
      rw [hpost] at h
      obtain ⟨rfl, rfl⟩ := Prod.mk.inj h
      exact ⟨.none, rfl, rfl⟩
    | ok http =>
      rw [hpost] at h
      obtain ⟨rfl, rfl⟩ := Prod.mk.inj h
      exact ⟨(judged config b http).2, rfl, by rw [Effect.apply_after]⟩
  | judging b http =>
    have h : judged config b http = (res, e) := Option.some.inj h
    rw [judged] at h
    rw [BedrockSession.access]
    obtain ⟨rfl, rfl⟩ := Prod.mk.inj h
    cases verdict config b http with
    | rotate r token => exact ⟨_, rfl, rfl⟩
    | fail error response res => exact ⟨_, rfl, rfl⟩
    | escape e => exact ⟨_, rfl, rfl⟩
  | rotating r token =>
    obtain ⟨rfl, rfl⟩ := Prod.mk.inj (Option.some.inj h)
    refine ⟨.none, rfl, ?_⟩
    rw [Effect.apply_none]
    simp [Effect.apply, BedrockSession.access, BedrockSession.visible]
  | failing place error response res' =>
    cases res' with
    | none => cases h
    | some res' =>
      obtain ⟨rfl, rfl⟩ := Prod.mk.inj (Option.some.inj h)
      -- past the clearing of `_alive` the session is over whether or not the call is finished
      have hdone : ∀ s' : BedrockSession, s'.visible = { s.visible with alive := false } →
          (Effect.none.apply s').visible = ((⟨[], .none, true⟩ : Effect).apply s).visible := by
        intro s' hs'
        rw [Effect.apply_none, hs']
        simp [Effect.apply, BedrockSession.visible]
      have hsame : place.cleared = true → s.visible = { s.visible with alive := false } := fun hc => by
        rw [← hfit hc]
        rfl
      cases place with
      | read => exact ⟨_, rfl, rfl⟩
      | clear wasAlive => exact ⟨_, rfl, by simp [Effect.apply, BedrockSession.access,
          BedrockSession.failStep, BedrockSession.visible]⟩
      | signal wasAlive => exact ⟨_, rfl, rfl⟩
      | clearAgain wasAlive =>
        cases wasAlive with
        | true => exact ⟨_, rfl, by simp [Effect.apply, BedrockSession.access,
            BedrockSession.failStep, BedrockSession.visible]⟩
        | false => exact ⟨.none, rfl, hdone _ rfl⟩
      | pick =>
        rw [BedrockSession.access, BedrockSession.failStep]
        cases s.hook with
        | some hook => exact ⟨_, rfl, rfl⟩
        | none => exact ⟨.none, rfl, hdone _ (hsame rfl)⟩
      | call hook => exact ⟨.none, rfl, hdone _ (hsame rfl)⟩
  | leaving res => exact absurd hmoving id
  | stopping => cases h

/-- What takes effect in an access: a heartbeat at its alive check, the clock check at the write that
    ends the session. -/
def Pc.takesEffect : Pc → List Op
  | .entered b => [.heartbeat b]
  | .failing (.clear _) _ _ none => [.stop]
  | _ => []

omit [CallStack] [Ed25519] in
theorem stop_visible (s : BedrockSession) : s.stop.visible = { s.visible with alive := false } := rfl

/-- **An access from outside of the lock** looks like nothing, or like `stop`. -/
theorem access_outside (config : Config) {s : BedrockSession} {pc : Pc} (hmoving : pc.Moving)
    (hfit : pc.Fits s.token s.alive) (hout : pc.inside = false) :
    (pc.takesEffect = [] ∧ (s.access config pc).1.visible = s.visible) ∨
      (pc.takesEffect = [.stop] ∧ (s.access config pc).1.visible = s.stop.visible) := by
  -- outside of the lock only `stop` and the clock check have accesses; their effect is one write of
  -- `_alive`
  cases pc with
  | idle => exact Or.inl ⟨rfl, rfl⟩
  | called b => exact absurd hmoving id
  | failing place error response res =>
    cases res with
    | some res => cases hout
    | none =>
      cases place with
      | read => exact Or.inl ⟨rfl, rfl⟩
      | clear wasAlive => exact Or.inr ⟨rfl, rfl⟩
      | signal wasAlive => exact Or.inl ⟨rfl, rfl⟩
      | clearAgain wasAlive =>
        refine Or.inl ⟨rfl, ?_⟩
        have hdead := hfit rfl
        simp [BedrockSession.access, BedrockSession.failStep, BedrockSession.visible, hdead]
      | pick =>
        refine Or.inl ⟨rfl, ?_⟩
        rw [BedrockSession.access, BedrockSession.failStep]
        cases s.hook <;> rfl
      | call hook => exact Or.inl ⟨rfl, rfl⟩
  | stopping => exact Or.inl ⟨rfl, rfl⟩
  | _ => cases hout

/-! ## The simulation -/

/-- What takes effect in a step. -/
def linearized (t : Threads) : ThreadAction → List Op
  | .stop i =>
    match t.pc i with
    | .idle => [.stop]
    | _ => []
  | .setHook hook => [.setHook hook]
  | .go i => (t.pc i).takesEffect
  | _ => []

/-- The results of the calls one after the other. -/
def noteResult (config : Config) (sys : System) (op : Op) (results : List (Except Exc Response)) :
    List (Except Exc Response) :=
  match op with
  | .heartbeat b => results ++ [(sys.session.heartbeat config b).1]
  | _ => results

/-- One more result and its effect, or nothing. -/
def owedBy : Option (Except Exc Response × Effect) → List (Except Exc Response) × Effect
  | some (res, e) => ([res], e)
  | none => ([], .none)

/-- What the holder of the request lock still owes. -/
def Threads.owed (config : Config) (t : Threads) : List (Except Exc Response) × Effect :=
  owedBy (t.requestLock.bind fun i => remaining config t.session.token (t.pc i))

/-- The calls one after the other have come as far as the threads, once the holder is finished. -/
structure Follows (config : Config) (t : Threads) (a : System × List (Except Exc Response)) : Prop where
  /-- The call inside has already returned in the sequential run. -/
  results : a.2 = t.results ++ (t.owed config).1
  /-- Its remaining accesses lead to the same session. -/
  session : a.1.session.visible = ((t.owed config).2.apply t.session).visible

omit [CallStack] [Ed25519] in
theorem Effect.apply_stop (e : Effect) (s : BedrockSession) :
    (e.apply s.stop).visible = (e.apply s).stop.visible := by
  simp [Effect.apply, BedrockSession.stop, BedrockSession.visible]

omit [CallStack] [Ed25519] in
theorem stop_visible_congr {s s' : BedrockSession} (h : s.visible = s'.visible) :
    s.stop.visible = s'.stop.visible := by
  rw [stop_visible, stop_visible, h]

theorem owed_free (config : Config) {t : Threads} (h : t.requestLock = none) :
    t.owed config = ([], .none) := by
  rw [Threads.owed, h]
  rfl

theorem owed_holder (config : Config) {t : Threads} {i : Nat} (h : t.requestLock = some i)
    {res : Except Exc Response} {e : Effect}
    (hrem : remaining config t.session.token (t.pc i) = some (res, e)) : t.owed config = ([res], e) := by
  rw [Threads.owed, h, Option.bind_some, hrem, owedBy]

theorem owed_entered (config : Config) {t : Threads} {i : Nat} (h : t.requestLock = some i)
    {b : Beat} (hpc : t.pc i = .entered b) : t.owed config = ([], .none) := by
  rw [Threads.owed, h, Option.bind_some, hpc]
  rfl

/-- A thread outside of the lock does not change what the holder owes. -/
theorem owed_outside (config : Config) {t : Threads} (hgood : t.Good) {i : Nat}
    (hout : (t.pc i).inside = false) {s : BedrockSession} (htoken : s.token = t.session.token) (pc : Pc) :
    ({ t with session := s }.set i pc).owed config = t.owed config := by
  rw [Threads.owed, Threads.owed]
  show owedBy (t.requestLock.bind fun j => remaining config s.token (Function.update t.pc i pc j)) = _
  cases hlock : t.requestLock with
  | none => rfl
  | some j =>
    have hne : j ≠ i := fun hji => by
      have hin := (hgood.inside j).mpr hlock
      rw [hji, hout] at hin
      cases hin
    rw [Option.bind_some, Option.bind_some, Function.update_of_ne hne, htoken]

/-- The atomic calls see what the threads see. -/
theorem heartbeat_follows (config : Config) {s s' : BedrockSession} (h : s'.visible = s.visible)
    (b : Beat) :
    (s.alive = false → s'.heartbeat config b = (.error inactiveError, s')) ∧
      (s.alive = true → (s'.heartbeat config b).1 = (requested config s.token b).1 ∧
        (s'.heartbeat config b).2.visible = ((requested config s.token b).2.apply s).visible) := by
  have halive : s'.alive = s.alive := by
    have hsame : s'.visible.alive = s.visible.alive := by rw [h]
    exact hsame
  have htoken : s'.token = s.token := by
    have hsame : s'.visible.token = s.visible.token := by rw [h]
    exact hsame
  constructor
  · intro hdead
    rw [heartbeat_eq, if_pos (halive.trans hdead)]
  · intro hlive
    obtain ⟨hres, hvis⟩ := heartbeat_requested config (halive.trans hlive) b
    rw [htoken] at hres hvis
    exact ⟨hres, hvis.trans (Effect.apply_visible _ h)⟩

omit [CallStack] [Ed25519] in
theorem Threads.pc_set_self (t : Threads) (i : Nat) (pc : Pc) : (t.set i pc).pc i = pc :=
  Function.update_self ..

omit [CallStack] [Ed25519] in
theorem Threads.pc_set_ne (t : Threads) {i j : Nat} (h : j ≠ i) (pc : Pc) :
    (t.set i pc).pc j = t.pc j := Function.update_of_ne h ..

/-- Inside, a thread is at its alive check or past it. -/
theorem inside_cases (config : Config) (token : Str) {pc : Pc} (h : pc.inside = true) :
    (∃ b, pc = .entered b) ∨
      pc.takesEffect = [] ∧ ∃ res e, remaining config token pc = some (res, e) := by
  cases pc with
  | idle => cases h
  | called b => cases h
  | entered b => exact Or.inl ⟨b, rfl⟩
  | failing place error response res =>
    cases res with
    | none => cases h
    | some res =>
      refine Or.inr ⟨?_, _, _, rfl⟩
      cases place <;> rfl
  | stopping => cases h
  | _ => exact Or.inr ⟨rfl, _, _, rfl⟩

/-- A step from outside of the lock: the calls one after the other follow with what takes effect. -/
theorem follows_outside {config : Config} {t : Threads} {a : System × List (Except Exc Response)}
    (hgood : t.Good) (h : Follows config t a) {i : Nat} (hout : (t.pc i).inside = false)
    {s : BedrockSession} (htoken : s.token = t.session.token) (pc : Pc) {ops : List Op}
    (hops : ops = [] ∧ s.visible = t.session.visible ∨
      ops = [.stop] ∧ s.visible = t.session.stop.visible) :
    Follows config ({ t with session := s }.set i pc)
      (run (noteStep (step config) (noteResult config)) a ops) := by
  have howed := owed_outside config hgood hout htoken pc
  rcases hops with ⟨rfl, hsame⟩ | ⟨rfl, hstop⟩
  · refine ⟨by rw [howed]; exact h.results, ?_⟩
    rw [howed]
    exact h.session.trans (Effect.apply_visible _ hsame.symm)
  · refine ⟨by rw [howed]; exact h.results, ?_⟩
    rw [howed]
    refine (stop_visible_congr h.session).trans ?_
    rw [← Effect.apply_stop]
    exact Effect.apply_visible _ hstop.symm

/-- A step of the holder past its alive check: nothing takes effect. -/
theorem follows_inside {config : Config} {t : Threads} {a : System × List (Except Exc Response)}
    (hgood : t.Good) (h : Follows config t a) {i : Nat} (hmoving : (t.pc i).Moving)
    (hlock : t.requestLock = some i) {res : Except Exc Response} {e : Effect}
    (hrem : remaining config t.session.token (t.pc i) = some (res, e)) :
    Follows config ({ t with session := (t.session.access config (t.pc i)).1 }.set i
      (t.session.access config (t.pc i)).2) a := by
  obtain ⟨e', hrem', hvis⟩ := access_remaining config hmoving (hgood.fits i) hrem
  have hbefore := owed_holder config hlock hrem
  have hafter := owed_holder config (i := i) (t := ({ t with session :=
    (t.session.access config (t.pc i)).1 } : Threads).set i (t.session.access config (t.pc i)).2)
    hlock (show _ = some (res, e') by rw [Threads.pc_set_self]; exact hrem')
  refine ⟨by rw [hafter, h.results, hbefore]; rfl, ?_⟩
  rw [hafter, h.session, hbefore]
  exact hvis.symm

/-- **The alive check** is where a heartbeat takes effect. -/
theorem follows_entered {config : Config} {t : Threads} {a : System × List (Except Exc Response)}
    (h : Follows config t a) {i : Nat} {b : Beat} (hpc : t.pc i = .entered b)
    (hlock : t.requestLock = some i) :
    Follows config ({ t with session := (t.session.access config (t.pc i)).1 }.set i
        (t.session.access config (t.pc i)).2)
      (run (noteStep (step config) (noteResult config)) a [.heartbeat b]) := by
  have hbefore := owed_entered config hlock hpc
  have hsession := h.session
  have hresults := h.results
  rw [hbefore, Effect.apply_none] at hsession
  rw [hbefore, List.append_nil] at hresults
  obtain ⟨hdead, hlive⟩ := heartbeat_follows config hsession b
  -- behind this access the thread owes the rest of its heartbeat: a result and an effect
  have hafter : ∀ res e, remaining config t.session.token (t.session.access config (t.pc i)).2 =
      some (res, e) → ({ t with session := (t.session.access config (t.pc i)).1 }.set i
        (t.session.access config (t.pc i)).2).owed config = ([res], e) := fun res e hrem => by
    refine owed_holder config (i := i) (t := ({ t with session := (t.session.access config (t.pc i)).1 } :
      Threads).set i (t.session.access config (t.pc i)).2) hlock ?_
    rw [Threads.pc_set_self]
    rw [hpc] at hrem ⊢
    exact hrem
  -- the session was over: the heartbeat raises, and has no effect
  cases halive : t.session.alive with
  | false =>
    have howed := hafter (.error inactiveError) .none (by
      rw [hpc, BedrockSession.access, if_pos halive]
      rfl)
    refine ⟨?_, ?_⟩
    · rw [howed]
      show a.2 ++ [(a.1.session.heartbeat config b).1] = t.results ++ [.error inactiveError]
      rw [hdead halive, hresults]
    · rw [howed, Effect.apply_none]
      show (a.1.session.heartbeat config b).2.visible = _
      rw [hdead halive, hpc]
      exact hsession
  -- the session is alive: the whole heartbeat takes effect here, and is carried out later
  | true =>
    obtain ⟨hres, hvis⟩ := hlive halive
    have howed := hafter (requested config t.session.token b).1 (requested config t.session.token b).2 (by
      rw [hpc, BedrockSession.access, if_neg (by rw [halive]; decide)]
      rfl)
    refine ⟨?_, ?_⟩
    · rw [howed]
      show a.2 ++ [(a.1.session.heartbeat config b).1] = t.results ++ [_]
      rw [hres, hresults]
    · rw [howed]
      show (a.1.session.heartbeat config b).2.visible = _
      rw [hvis, hpc]
      rfl

/-- A thread between the lock and the end of its heartbeat goes on by one access to the session. -/
theorem go_moving (config : Config) (t : Threads) (i : Nat) {pc : Pc} (h : pc.Moving) :
    t.go config i pc = { t with session := (t.session.access config pc).1 }.set i
      (t.session.access config pc).2 := by
  cases pc with
  | called b => exact absurd h id
  | leaving res => exact absurd h id
  | _ => rfl

omit [CallStack] [Ed25519] in
/-- Taking the lock. -/
theorem good_called {t : Threads} (hgood : t.Good) {i : Nat} (hlock : t.requestLock = none) (b : Beat) :
    ({ t with requestLock := some i }.set i (.entered b)).Good := by
  refine ⟨fun j => ?_, fun j => ?_⟩
  · by_cases hj : j = i
    · subst hj
      rw [Threads.pc_set_self]
      exact ⟨fun _ => rfl, fun _ => rfl⟩
    · rw [Threads.pc_set_ne _ hj]
      refine iff_of_false (fun hin => ?_) fun hsame => hj (Option.some.inj hsame).symm
      rw [show t.requestLock = some j from (hgood.inside j).mp hin] at hlock
      cases hlock
  · by_cases hj : j = i
    · subst hj
      rw [Threads.pc_set_self]
      trivial
    · rw [Threads.pc_set_ne _ hj]
      exact hgood.fits j

omit [CallStack] [Ed25519] in
/-- Releasing it. -/
theorem good_leaving {t : Threads} (hgood : t.Good) {i : Nat} (hlock : t.requestLock = some i)
    (results : List (Except Exc Response)) :
    ({ t with requestLock := none, results := results }.set i .idle).Good := by
  refine ⟨fun j => ?_, fun j => ?_⟩
  · refine iff_of_false (fun hin => ?_) fun hsome => by cases hsome
    by_cases hj : j = i
    · subst hj
      rw [Threads.pc_set_self] at hin
      cases hin
    · rw [Threads.pc_set_ne _ hj] at hin
      exact hj (Option.some.inj (((hgood.inside j).mp hin).symm.trans hlock))
  · by_cases hj : j = i
    · subst hj
      rw [Threads.pc_set_self]
      trivial
    · rw [Threads.pc_set_ne _ hj]
      exact hgood.fits j

/-- **Every step** keeps the invariant. -/
theorem good_step (config : Config) {t : Threads} (hgood : t.Good) (act : ThreadAction) :
    (t.step config act).Good := by
  cases act with
  | call i b =>
    rw [Threads.step]
    cases hpc : t.pc i with
    | idle =>
      exact hgood.move i t.session (.called b) (by rw [hpc]; rfl) trivial id fun _ => rfl
    | _ => exact hgood
  -- a clock check that fails enters `fail` without the lock
  | clock i =>
    rw [Threads.step]
    cases hpc : t.pc i with
    | idle =>
      cases t.clocked with
      | none =>
        have hgood' : ({ t with clocked := some i } : Threads).Good := ⟨hgood.inside, hgood.fits⟩
        exact hgood'.move i t.session (.failing .read clockError none none)
          (by rw [show ({ t with clocked := some i } : Threads).pc i = .idle from hpc]; rfl)
          (by intro hc; cases hc) id fun _ => rfl
      | some j => exact hgood
    | _ => exact hgood
  | stop i =>
    rw [Threads.step]
    cases hpc : t.pc i with
    | idle =>
      exact hgood.move i { t.session with alive := false } .stopping (by rw [hpc]; rfl)
        trivial (fun _ => rfl) fun _ => rfl
    | _ => exact hgood
  | setHook hook => exact ⟨hgood.inside, hgood.fits⟩
  | go i =>
    show (t.go config i (t.pc i)).Good
    by_cases hmoving : (t.pc i).Moving
    · rw [go_moving config t i hmoving]
      obtain ⟨hin, hfit, hdead, htoken⟩ := access_good config hmoving (hgood.fits i)
      exact hgood.move i _ _ hin hfit hdead htoken
    · -- not a move: the thread waits for the lock, or gives it back
      cases hpc : t.pc i with
      | called b =>
        rw [Threads.go]
        cases hlock : t.requestLock with
        | none => exact good_called hgood hlock b
        | some j => exact hgood
      | leaving res => exact good_leaving hgood ((hgood.inside i).mp (by rw [hpc]; rfl)) _
      | _ =>
        rw [hpc] at hmoving
        exact absurd trivial hmoving

/-- **Every step**: the calls one after the other follow it. -/
theorem follows_step (config : Config) {t : Threads} {a : System × List (Except Exc Response)}
    (hgood : t.Good) (h : Follows config t a) (act : ThreadAction) :
    Follows config (t.step config act)
      (run (noteStep (step config) (noteResult config)) a (linearized t act)) := by
  cases act with
  | call i b =>
    rw [Threads.step]
    cases hpc : t.pc i with
    | idle =>
      exact follows_outside hgood h (by rw [hpc]; rfl) (s := t.session) rfl (.called b)
        (Or.inl ⟨rfl, rfl⟩)
    | _ => exact h
  | clock i =>
    rw [Threads.step]
    cases hpc : t.pc i with
    | idle =>
      cases t.clocked with
      | none =>
        have hgood' : ({ t with clocked := some i } : Threads).Good := ⟨hgood.inside, hgood.fits⟩
        have h' : Follows config { t with clocked := some i } a := ⟨h.results, h.session⟩
        exact follows_outside hgood' h'
          (by rw [show ({ t with clocked := some i } : Threads).pc i = .idle from hpc]; rfl)
          (s := t.session) rfl _ (Or.inl ⟨rfl, rfl⟩)
      | some j => exact h
    | _ => exact h
  | stop i =>
    rw [Threads.step, linearized]
    cases hpc : t.pc i with
    | idle =>
      exact follows_outside hgood h (by rw [hpc]; rfl) (s := { t.session with alive := false }) rfl
        .stopping (Or.inr ⟨rfl, rfl⟩)
    | _ => exact h
  -- the hook is an attribute of its own: setting it commutes with what is owed
  | setHook hook =>
    refine ⟨h.results, ?_⟩
    show (a.1.session.setHook hook).visible = (((t.owed config).2.apply t.session).setHook hook).visible
    have hsession := h.session
    simp only [BedrockSession.visible, BedrockSession.mk.injEq] at hsession
    simp only [BedrockSession.visible, BedrockSession.setHook, hsession]
  | go i =>
    show Follows config (t.go config i (t.pc i)) (run _ a (t.pc i).takesEffect)
    by_cases hmoving : (t.pc i).Moving
    · rw [go_moving config t i hmoving]
      obtain ⟨_, _, _, htoken⟩ := access_good config hmoving (hgood.fits i)
      cases hside : (t.pc i).inside with
      | false =>
        exact follows_outside hgood h hside (htoken hside) _
          (access_outside config hmoving (hgood.fits i) hside)
      | true =>
        -- inside: the first access is where the heartbeat takes effect, the others do what is owed
        have hlock := (hgood.inside i).mp hside
        rcases inside_cases config t.session.token hside with ⟨b, hpc⟩ | ⟨hnone, res, e, hrem⟩
        · rw [show (t.pc i).takesEffect = [.heartbeat b] by rw [hpc]; rfl]
          exact follows_entered h hpc hlock
        · rw [hnone]
          exact follows_inside hgood h hmoving hlock hrem
    · cases hpc : t.pc i with
      | called b =>
        rw [Threads.go]
        cases hlock : t.requestLock with
        | none =>
          -- taking the lock: the debt is now that of a heartbeat that has not begun, which is none
          have hbefore := owed_free config hlock
          have hafter := owed_entered config (i := i) (b := b)
            (t := ({ t with requestLock := some i } : Threads).set i (.entered b)) rfl
            (Threads.pc_set_self ..)
          exact ⟨by rw [hafter, ← hbefore]; exact h.results, by rw [hafter, ← hbefore]; exact h.session⟩
        | some j => exact h
      | leaving res =>
        -- giving the lock back: the result is recorded, and the debt is paid
        have hbefore := owed_holder config ((hgood.inside i).mp (by rw [hpc]; rfl))
          (show _ = some (res, .none) by rw [hpc]; rfl)
        have hafter := owed_free config (t := ({ t with
          requestLock := none, results := t.results ++ [res] } : Threads).set i .idle) rfl
        rw [Threads.go]
        refine ⟨?_, ?_⟩
        · show a.2 = t.results ++ [res] ++ _
          rw [h.results, hbefore, hafter, List.append_nil]
        · show a.1.session.visible = (Effect.apply _ t.session).visible
          rw [h.session, hbefore, hafter]
      | _ =>
        rw [hpc] at hmoving
        exact absurd trivial hmoving

/-! ## The result -/

/-- The threads after a run. -/
abbrev threadRun (config : Config) (token : Str) (hook : Option Hook) (acts : List ThreadAction) :
    Threads := run (Threads.step config) (.new token hook) acts

/-- The operations of a run in the order in which they take effect. -/
def sequential (config : Config) (token : Str) (hook : Option Hook) (acts : List ThreadAction) :
    List Op := history (Threads.step config) linearized (.new token hook) acts

/-- The calls one after the other, and their results. -/
def sequentialRun (config : Config) (token : Str) (hook : Option Hook) (acts : List ThreadAction) :
    System × List (Except Exc Response) :=
  run (noteStep (step config) (noteResult config)) (System.new token hook, [])
    (sequential config token hook acts)

/-- **Every run follows the sequential one**, by induction on the accesses. -/
theorem threadRun_follows (config : Config) (token : Str) (hook : Option Hook)
    (acts : List ThreadAction) :
    (threadRun config token hook acts).Good ∧
      Follows config (threadRun config token hook acts) (sequentialRun config token hook acts) := by
  refine simulates (R := fun t a => t.Good ∧ Follows config t a)
    (fun t a act h => ⟨good_step config h.1 act, follows_step config h.1 h.2 act⟩) acts
    ⟨Threads.good_new token hook, ?_⟩
  exact ⟨rfl, by rw [owed_free config rfl, Effect.apply_none]; rfl⟩

omit [CallStack] [Ed25519] in
theorem Effect.sent_prefix (e : Effect) (s : BedrockSession) : s.sent <+: (e.apply s).sent :=
  List.prefix_append _ _

/-- **The threads of a session are linearizable**: in every interleaving of any number of threads
    that call `heartbeat`, `stop` and `set_hook` while the loop checks its clocks,

    1. at most one thread is inside of a heartbeat;
    2. the results, and what the session looks like, are those of the calls one after the other, once
       the heartbeat inside is finished; where none is inside, they are so as they stand;
    3. no token goes out with two challenges, if the calls one after the other are proper. -/
theorem threads_linearizable (config : Config) (token : Str) (hook : Option Hook)
    (acts : List ThreadAction) :
    (∀ i j, ((threadRun config token hook acts).pc i).inside = true →
      ((threadRun config token hook acts).pc j).inside = true → i = j) ∧
    Follows config (threadRun config token hook acts) (sequentialRun config token hook acts) ∧
    ((∀ i, ((threadRun config token hook acts).pc i).inside = false) →
      (threadRun config token hook acts).results = (sequentialRun config token hook acts).2 ∧
      (threadRun config token hook acts).session.visible =
        (sequentialRun config token hook acts).1.session.visible) ∧
    (Along (step config) (Proper config) (System.new token hook) (sequential config token hook acts) →
      ∀ token' c c', (token', c) ∈ (threadRun config token hook acts).session.sent →
        (token', c') ∈ (threadRun config token hook acts).session.sent → c = c') := by
  obtain ⟨hgood, hfollows⟩ := threadRun_follows config token hook acts
  refine ⟨fun i j hi hj => ?_, hfollows, fun hfree => ?_, fun hproper token' c c' hc hc' => ?_⟩
  · exact Option.some.inj (((hgood.inside i).mp hi).symm.trans ((hgood.inside j).mp hj))
  · have hlock : (threadRun config token hook acts).requestLock = none := by
      cases hlock : (threadRun config token hook acts).requestLock with
      | none => rfl
      | some i =>
        have hin := (hgood.inside i).mpr hlock
        rw [hfree i] at hin
        cases hin
    have hresults := hfollows.results
    have hsession := hfollows.session
    rw [owed_free config hlock, List.append_nil] at hresults
    rw [owed_free config hlock, Effect.apply_none] at hsession
    exact ⟨hresults.symm, hsession.symm⟩
  · -- what has gone out is the beginning of what goes out one call after the other
    have hone := run_oneChallenge hproper
    have hsent : (sequentialRun config token hook acts).1.session.sent =
        (((threadRun config token hook acts).owed config).2.apply
          (threadRun config token hook acts).session).sent := by
      have hsession := congrArg BedrockSession.sent hfollows.session
      exact hsession
    rw [sequentialRun, run_noteStep_fst] at hsent
    have hpre : ∀ pair ∈ (threadRun config token hook acts).session.sent,
        pair ∈ (run (step config) (System.new token hook)
          (sequential config token hook acts)).session.sent := fun pair hpair => by
      rw [hsent]
      exact (Effect.sent_prefix _ _).subset hpair
    exact hone token' c c' (hpre _ hc) (hpre _ hc')

end Verified

/-- Thread 0 is in a heartbeat that gets no answer; thread 1 stops the session between its two
    requests. -/
def stoppedInside : List ThreadAction :=
  [.call 0 lostBeat, .go 0, .go 0, .go 0, .go 0, .stop 1, .go 0]

/-- A lost heartbeat of the sample session is proper. -/
theorem lostBeat_proper : @Proper sampleStack sampleEd25519 sampleConfig
    (System.new (str "BRK_0") (some 0)) (.heartbeat lostBeat) := by
  intro b hb
  obtain rfl : lostBeat = b := Option.some.inj hb
  have hlost : ¬ lostBeat.outcome.ok = true := by decide +kernel
  refine ⟨?_, fun token htoken => absurd htoken.1 hlost⟩
  rintro (hnot | ⟨hok, -⟩)
  · exact hnot ⟨canEncode_of_isAscii (by decide +kernel), canEncode_of_isAscii (by decide +kernel)⟩
  · exact hlost hok

set_option maxRecDepth 4000 in
/-- The two requests have one challenge. -/
theorem threads_linearizable_sample :
    (@threadRun sampleStack sampleEd25519 sampleConfig (str "BRK_0") (some 0)
      stoppedInside).session.sent.length = 2 ∧
    ∀ token c c', (token, c) ∈ (@threadRun sampleStack sampleEd25519 sampleConfig (str "BRK_0") (some 0)
        stoppedInside).session.sent →
      (token, c') ∈ (@threadRun sampleStack sampleEd25519 sampleConfig (str "BRK_0") (some 0)
        stoppedInside).session.sent → c = c' := by
  have hops : @sequential sampleStack sampleEd25519 sampleConfig (str "BRK_0") (some 0) stoppedInside =
      [.heartbeat lostBeat, .stop] := rfl
  refine ⟨by decide +kernel, (@threads_linearizable sampleStack sampleEd25519 sampleConfig (str "BRK_0")
    (some 0) stoppedInside).2.2.2 ?_⟩
  rw [hops]
  refine ⟨lostBeat_proper, fun b hb => ?_, trivial⟩
  unfold beatOf at hb
  split at hb
  · cases hb
  · cases hb

end Bedrock.Protocol

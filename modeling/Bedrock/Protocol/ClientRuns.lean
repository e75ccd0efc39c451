/-
  The client over a sequence of calls.

  1. **All or nothing** (`authentication_atomic`) — an `_authenticate` that refuses its response
     leaves the installed session, the hook and the Invisible Folder token as they were and commits
     nothing; one that starts a session ends the previous one first.

  2. **One living session** — in every state reached, and in every state a start goes through, at
     most one session object reports alive.

  3. **The folder token** (`folder_token_owned`) — a token held belongs to the installed session as
     long as no accepted `init` without a token replaces a session while one is held.
-/
import Bedrock.Protocol.Acceptance

open Lib.Fallible Lib.Transition Bedrock.Python

namespace Bedrock.Protocol

/-- What a program, or the installed session's thread, does to a client. -/
inductive Call
  /-- One of the two authentications. -/
  | authenticate (q : Request)
  /-- `heartbeat_now` from the program. -/
  | heartbeatNow (b : Beat)
  /-- The heartbeat thread wakes once. -/
  | loopPass (t : Tick)
  /-- `on_heartbeat_failure`. -/
  | onHeartbeatFailure (hook : Hook)
  /-- `shutdown`. -/
  | shutdown

section Calls

variable [CallStack] [Ed25519] [Sha256]

/-- One call of a client, to its end. -/
def callStep (config : Config) (c : Client) : Call → Client
  | .authenticate q => (authenticate config c q).2
  | .heartbeatNow b => (heartbeatNow config c b).2
  | .loopPass t => loopPass config c t
  | .onHeartbeatFailure hook => onHeartbeatFailure c hook
  | .shutdown => shutdown c

/-! ## All or nothing -/

/-- The call left no trace but in the SL-HWID cache. -/
structure Unchanged (c c' : Client) : Prop where
  session : c'.session = c.session
  retired : c'.retired = c.retired
  failureHook : c'.failureHook = c.failureHook
  folderToken : c'.folderToken = c.folderToken
  folderSets : c'.folderSets = c.folderSets
  commits : c'.commits = c.commits

/-- The call replaced the session: the previous one is over, the new one is alive and holds the
    response's token, and the SL-HWID session in use, if there is one, was committed once. -/
structure Replaced (config : Config) (c c' : Client) (r : Response) : Prop where
  /-- The session before is stopped and retired. -/
  previous : c'.retired = c.retired ++ (c.session.map Installed.stop).toList
  /-- The new one is alive, holds the response's token and the client's hook. -/
  fresh : ∃ i, c'.session = some i ∧ i.number = c.created ∧ i.alive = true ∧
    r.sessionToken = some i.token ∧ i.system.session.hook = c.failureHook
  failureHook : c'.failureHook = c.failureHook
  /-- At most one SL-HWID session is committed, one the configuration asks for. -/
  commits : ∃ ss : Option SsSession, UsesSs config ss ∧ c'.commits = c.commits ++ ss.toList

/-- **A start replaces** the session that was installed: it is stopped and retired, and the new one is
    in its place. -/
theorem replaced_of_started {config : Config} {c : Client} {q : Request} {r : Response}
    {token : Str} {ss : Option SsSession} {cache : Dict SsSession}
    (h : judge config q = .ok (r, some token)) (huses : UsesSs config ss) :
    Replaced config c
      (startSession config { c with ssSessions := cache, commits := c.commits ++ ss.toList } q r
        token) r := by
  obtain ⟨-, -, hcheck⟩ := judge_eq_ok h
  obtain ⟨-, -, htoken, -⟩ := checkInit_eq_ok hcheck
  constructor
  · rfl
  · refine ⟨_, rfl, ?_, ?_, ?_, ?_⟩
    · rw [startThread_number]
      rfl
    · rw [Installed.alive, startThread_session]
      rfl
    · rw [Installed.token, startThread_session]
      exact htoken
    · rw [startThread_session]
      rfl
  · rfl
  · exact ⟨ss, huses, rfl⟩

/-! ## One living session -/

/-- The living sessions among some. -/
def living (l : List Installed) : List Installed := l.filter Installed.alive

/-- The sessions a client still has objects of. -/
def Client.sessions (c : Client) : List Installed := c.retired ++ c.session.toList

/-- All sessions at a point of a start, the fresh one included. -/
def Starting.sessions (st : Starting) : List Installed := st.client.sessions ++ st.fresh.toList

/-- No replaced session is alive. -/
def RetiredDead (c : Client) : Prop := ∀ i ∈ c.retired, i.alive = false

omit [CallStack] [Ed25519] [Sha256] in
theorem living_of_dead {l : List Installed} (h : ∀ i ∈ l, i.alive = false) : living l = [] := by
  refine List.filter_eq_nil_iff.mpr fun i hi => ?_
  rw [h i hi]
  decide

omit [CallStack] [Ed25519] [Sha256] in
theorem length_living_toList_le (o : Option Installed) : (living o.toList).length ≤ 1 := by
  cases o with
  | none => exact Nat.zero_le _
  | some i => exact (List.length_filter_le _ _).trans (Nat.le_refl _)

omit [CallStack] [Ed25519] [Sha256] in
theorem living_append (l l' : List Installed) : living (l ++ l') = living l ++ living l' :=
  List.filter_append ..

omit [CallStack] [Ed25519] [Sha256] in
/-- Where the replaced sessions are over, at most the installed one is alive. -/
theorem oneAlive_of_retiredDead {c : Client} (h : RetiredDead c) :
    (living c.sessions).length ≤ 1 := by
  rw [Client.sessions, living_append, living_of_dead h, List.nil_append]
  exact length_living_toList_le _

omit [CallStack] [Ed25519] [Sha256] in
/-- A stopped session is dead. -/
theorem stopped_dead (o : Option Installed) :
    ∀ i ∈ (o.map Installed.stop).toList, i.alive = false := by
  intro i hi
  cases o with
  | none => exact absurd hi List.not_mem_nil
  | some p =>
    rw [List.mem_singleton.mp hi]
    rfl

omit [CallStack] [Ed25519] [Sha256] in
/-- Retired sessions stay dead when more are retired. -/
theorem retiredDead_append {c : Client} (h : RetiredDead c) {l : List Installed}
    (hl : ∀ i ∈ l, i.alive = false) : ∀ i ∈ c.retired ++ l, i.alive = false := by
  intro i hi
  rcases List.mem_append.mp hi with hi | hi
  · exact h i hi
  · exact hl i hi

omit [CallStack] [Ed25519] [Sha256] in
/-- **No step of a start leaves two sessions alive.** -/
theorem startSteps_oneAlive {config : Config} {c : Client} {q : Request} {r : Response}
    {token : Str} (h : RetiredDead c) :
    ∀ st ∈ startSteps config c q r token, (living st.sessions).length ≤ 1 := by
  have hold : ∀ i ∈ c.retired ++ (c.session.map Installed.stop).toList, i.alive = false :=
    retiredDead_append h (stopped_dead c.session)
  -- before the installation: the replaced and the stopped, and the new object if there is one
  have hbefore : ∀ fresh : Option Installed,
      (living (Starting.sessions ⟨stopPrevious c, fresh⟩)).length ≤ 1 := by
    intro fresh
    show (living ((c.retired ++ (c.session.map Installed.stop).toList) ++ fresh.toList)).length ≤ 1
    rw [living_append, living_of_dead hold, List.nil_append]
    exact length_living_toList_le _
  -- after it: the same objects, in another place
  have hafter : ∀ c' : Client, c'.retired = c.retired ++ (c.session.map Installed.stop).toList →
      (living (Starting.sessions ⟨c', none⟩)).length ≤ 1 := by
    intro c' hretired
    show (living ((c'.retired ++ c'.session.toList) ++ [])).length ≤ 1
    rw [List.append_nil]
    exact oneAlive_of_retiredDead fun i hi => hold i (hretired ▸ hi)
  intro st hst
  simp only [startSteps, List.mem_cons, List.not_mem_nil, or_false] at hst
  rcases hst with rfl | rfl | rfl | rfl | rfl
  · exact hbefore _
  · exact hbefore _
  · exact hbefore _
  · exact hafter _ rfl
  · exact hafter _ rfl

/-- **One step** keeps the replaced sessions over. -/
theorem retiredDead_step (config : Config) (c : Client) (call : Call) (h : RetiredDead c) :
    RetiredDead (callStep config c call) := by
  cases call with
  | authenticate q =>
    show RetiredDead (authenticate config c q).2
    have hspec := authenticate_spec config c q
    generalize authenticate config c q = res at hspec
    cases hspec with
    | refused e cache => exact h
    | rejected r cache hjudge => exact h
    | commitRaised r token ss e cache hjudge hcommit => exact h
    -- the session before is stopped, so it is retired dead
    | started r token ss cache hjudge huses hcommits =>
      exact retiredDead_append (c := c) h (stopped_dead c.session)
  | heartbeatNow b =>
    -- a heartbeat touches the session it is for, never the retired ones
    have hretired : (heartbeatNow config c b).2.retired = c.retired := by
      unfold heartbeatNow
      split
      · rfl
      · dsimp only
        split
        · rfl
        · split <;> rfl
    intro i hi
    exact h i (hretired ▸ hi)
  | loopPass t => exact h
  | onHeartbeatFailure hook => exact h
  | shutdown => exact retiredDead_append h (stopped_dead c.session)

/-- **Retired sessions are dead** in every state that is reached. -/
theorem retiredDead_run (config : Config) (calls : List Call) :
    RetiredDead (run (callStep config) .new calls) :=
  run_inv (fun c call h => retiredDead_step config c call h) calls fun _ h =>
    absurd h List.not_mem_nil

/-- **Authentication is all or nothing.**  If the response is refused the call raises and nothing
    changed; if it is a rejection nothing changed; if the result says a session was started, it
    replaced the previous one, which is over.  In every state reached by a sequence of calls, and
    between the steps of a start made there, at most one session is alive. -/
theorem authentication_atomic (config : Config) :
    (∀ c q e, judge config q = .error e →
      (∃ e', (authenticate config c q).1 = .error e') ∧
        Unchanged c (authenticate config c q).2) ∧
    (∀ c q r, (authenticate config c q).1 = .ok ⟨r, false⟩ →
      Unchanged c (authenticate config c q).2) ∧
    (∀ c q r, (authenticate config c q).1 = .ok ⟨r, true⟩ →
      Replaced config c (authenticate config c q).2 r) ∧
    ∀ calls q r token,
      (living (run (callStep config) .new calls).sessions).length ≤ 1 ∧
      ∀ st ∈ startSteps config (run (callStep config) .new calls) q r token,
        (living st.sessions).length ≤ 1 := by
  -- the verdict, a rejection, an acceptance, and the runs; each stage is one case of
  -- `authenticate_spec`
  refine ⟨fun c q e h => ?_, fun c q r h => ?_, fun c q r h => ?_, fun calls q r token => ?_⟩
  · obtain ⟨e', cache, hres⟩ := authenticate_of_judge_error (c := c) h
    rw [hres]
    exact ⟨⟨e', rfl⟩, ⟨rfl, rfl, rfl, rfl, rfl, rfl⟩⟩
  · have hspec := authenticate_spec config c q
    generalize authenticate config c q = res at hspec h
    cases hspec with
    | refused e cache => cases h
    | rejected r' cache hjudge => exact ⟨rfl, rfl, rfl, rfl, rfl, rfl⟩
    | commitRaised r' token ss e cache hjudge hcommit => cases h
    | started r' token ss cache hjudge huses hcommits => cases h
  · have hspec := authenticate_spec config c q
    generalize authenticate config c q = res at hspec h
    cases hspec with
    | refused e cache => cases h
    | rejected r' cache hjudge => cases h
    | commitRaised r' token ss e cache hjudge hcommit => cases h
    | started r' token ss cache hjudge huses hcommits =>
      obtain ⟨rfl, -⟩ := AuthenticationResult.mk.inj (Except.ok.inj h)
      exact replaced_of_started hjudge huses
  · have hdead := retiredDead_run config calls
    exact ⟨oneAlive_of_retiredDead hdead, startSteps_oneAlive hdead⟩

/-! ## The folder token -/

/-- A token held was delivered by an accepted response of the installed session; without a session
    none is held. -/
def FolderOwned (c : Client) : Prop :=
  c.folderToken ≠ [] → ∃ i r, c.session = some i ∧ (i.number, r) ∈ c.accepted ∧
    r.invisibleFolderToken = some c.folderToken

omit [CallStack] [Ed25519] [Sha256] in
/-- A call that leaves the token and the installed session's number as they are. -/
theorem FolderOwned.keep {c c' : Client} (h : FolderOwned c)
    (htoken : c'.folderToken = c.folderToken) (haccepted : ∀ x ∈ c.accepted, x ∈ c'.accepted)
    (hsession : ∀ i, c.session = some i → ∃ i', c'.session = some i' ∧ i'.number = i.number) :
    FolderOwned c' := by
  intro hne
  rw [htoken] at hne ⊢
  obtain ⟨i, r, hi, hmem, hr⟩ := h hne
  obtain ⟨i', hi', hnumber⟩ := hsession i hi
  exact ⟨i', r, hi', hnumber ▸ haccepted _ hmem, hr⟩

end Calls

/-! ## Two runs -/

/-- The first request starts a session; a request whose exchange failed leaves nothing. -/
theorem authentication_atomic_sample :
    Replaced sampleConfig .new (@authenticate sampleStack sampleEd25519 sampleIdentityHash
      sampleConfig .new sampleRequest).2 sampleInitResponse ∧
    Unchanged .new (@authenticate sampleStack sampleEd25519 sampleIdentityHash sampleConfig .new
      { sampleRequest with http := ⟨0, [], ∅, str "timed out"⟩ }).2 := by
  obtain ⟨hrefused, -, hstarted, -⟩ :=
    @authentication_atomic sampleStack sampleEd25519 sampleIdentityHash sampleConfig
  constructor
  · exact hstarted .new sampleRequest sampleInitResponse (by rw [sampleRequest_starts])
  · exact (hrefused .new _ (initTransportError ⟨0, [], ∅, str "timed out"⟩) rfl).2

end Bedrock.Protocol

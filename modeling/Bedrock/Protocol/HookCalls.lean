/-
  The end of a session among its threads: how often the hook is called, and what still goes out.

  1. **Calls owed** — a thread in `fail` that has seen the session alive will call the hook
     (`Pc.beatOwes`, `Pc.clockOwes`).  Calls made and calls owed together stay below the bound
     (`HookInv`): a heartbeat fails under the request lock and clears `_alive` before it leaves, so
     the next one sees the session over; the clock check fails once, but outside of the lock.

  2. **The result** — `hook_calls`: one call, and one more only if the clock check fails.  Both happen
     in the run `raceRun`, although the hook is meant to be called once per session.

  3. **Behind the end** — `requests_after_end`: once the session is over, only the heartbeat inside
     goes on; it sends at most two more requests and rotates the token at most once.
-/
import Bedrock.Protocol.SessionThreads

open Lib.Fallible Lib.Transition Bedrock.Python

namespace Bedrock.Protocol

/-! ## Calls owed -/

/-- `fail` will call the hook if there is one; in front of its first read, `atRead`. -/
def FailAt.owes (atRead : Nat) : FailAt → Nat
  | .read => atRead
  | .clear wasAlive | .signal wasAlive | .clearAgain wasAlive => if wasAlive then 1 else 0
  | .pick | .call _ => 1

/-- A failing heartbeat that saw the session alive. -/
def Pc.beatOwes : Pc → Nat
  | .failing place _ _ (some _) => place.owes 0
  | _ => 0

/-- The failing clock check, unless it saw the session over. -/
def Pc.clockOwes : Pc → Nat
  | .failing place _ _ none => place.owes 1
  | _ => 0

/-- The failing clock check. -/
def Pc.clocking : Pc → Bool
  | .failing _ _ _ none => true
  | _ => false

/-- What the thread owes, if there is one. -/
def owesAt (owes : Pc → Nat) (who : Option Nat) (pc : Nat → Pc) : Nat :=
  match who with
  | some i => owes (pc i)
  | none => 0

/-- What the heartbeat inside the lock owes .. -/
def Threads.beatOwes (t : Threads) : Nat := owesAt Pc.beatOwes t.requestLock t.pc

/-- .. and what the failed clock check does. -/
def Threads.clockOwes (t : Threads) : Nat := owesAt Pc.clockOwes t.clocked t.pc

/-- The calls of the clock check. -/
def Threads.clockCalls (t : Threads) : Nat := if t.clocked.isSome then 1 else 0

theorem owesAt_update_self (owes : Pc → Nat) (i : Nat) (pcs : Nat → Pc) (pc : Pc) :
    owesAt owes (some i) (Function.update pcs i pc) = owes pc := by
  rw [owesAt, Function.update_self]

theorem owesAt_update_ne (owes : Pc → Nat) {who : Option Nat} {i : Nat} (h : who ≠ some i)
    (pcs : Nat → Pc) (pc : Pc) : owesAt owes who (Function.update pcs i pc) = owesAt owes who pcs := by
  cases who with
  | none => rfl
  | some j =>
    have hj : j ≠ i := fun hj => h (congrArg some hj)
    rw [owesAt, owesAt, Function.update_of_ne hj]

/-- A move that does not change what the thread owes changes nothing in the sum. -/
theorem owesAt_update_eq (owes : Pc → Nat) (who : Option Nat) {i : Nat} {pcs : Nat → Pc} {pc : Pc}
    (h : owes pc = owes (pcs i)) : owesAt owes who (Function.update pcs i pc) = owesAt owes who pcs := by
  by_cases hwho : who = some i
  · rw [hwho, owesAt_update_self, h, owesAt]
  · exact owesAt_update_ne owes hwho pcs pc

/-- A thread inside a heartbeat is no clock check. -/
theorem Pc.clockOwes_inside {pc : Pc} (h : pc.inside = true) : pc.clockOwes = 0 := by
  cases pc with
  | failing place error response res =>
    cases res with
    | none => cases h
    | some res => rfl
  | _ => rfl

theorem Pc.clocking_inside {pc : Pc} (h : pc.clocking = true) : pc.inside = false := by
  cases pc with
  | failing place error response res =>
    cases res with
    | none => rfl
    | some res => cases h
  | _ => cases h

/-- Only a failing clock check owes a call. -/
theorem Pc.clockOwes_of_not {pc : Pc} (h : pc.clocking = false) : pc.clockOwes = 0 := by
  cases pc with
  | failing place error response res =>
    cases res with
    | none => cases h
    | some res => rfl
  | _ => rfl

/-! ## One access -/

/-- **`fail` of the clock check**: a call made was owed. -/
theorem failStep_clockOwes (s : BedrockSession) (place : FailAt) (error : Exc)
    (response : Option Response) :
    (s.failStep error response none place).1.failures.length +
        (s.failStep error response none place).2.clockOwes ≤
      s.failures.length + (Pc.failing place error response none).clockOwes := by
  cases place with
  | read =>
    -- who enters `fail` may have to call; seeing the session over cancels the debt
    show s.failures.length + (if s.alive then 1 else 0) ≤ s.failures.length + 1
    split <;> omega
  | clear wasAlive => exact Nat.le_refl _
  | signal wasAlive => exact Nat.le_refl _
  -- a session that was over is not failed again: nobody is called
  | clearAgain wasAlive =>
    cases wasAlive with
    | true => exact Nat.le_refl _
    | false => exact Nat.le_refl _
  | pick =>
    rw [BedrockSession.failStep]
    cases s.hook with
    | none => exact Nat.le_add_right _ _
    | some hook => exact Nat.le_refl _
  -- the call itself: one more call made, one less owed
  | call hook =>
    show (s.failures ++ [_]).length + 0 ≤ s.failures.length + 1
    rw [List.length_append]
    exact Nat.le_refl _

/-- **`fail` of a heartbeat**: a call made was owed; one comes to be owed only on a living session,
    and by the time it is made the session is over. -/
theorem failStep_beatOwes {s : BedrockSession} {place : FailAt} (error : Exc)
    (response : Option Response) (res : Except Exc Response)
    (hfit : place.cleared = true → s.alive = false) :
    (s.failStep error response (some res) place).1.failures.length +
          (s.failStep error response (some res) place).2.beatOwes ≤
        s.failures.length + (Pc.failing place error response (some res)).beatOwes ∧
      ((s.failStep error response (some res) place).1.alive = true →
        (s.failStep error response (some res) place).2.beatOwes = 0 →
        (Pc.failing place error response (some res)).beatOwes = 0) ∨
    s.alive = true ∧ (Pc.failing place error response (some res)).beatOwes = 0 ∧
      (s.failStep error response (some res) place).2.beatOwes = 1 ∧
      (s.failStep error response (some res) place).1 = s := by
  cases place with
  | read =>
    -- somebody else has ended the session: this thread leaves the hook alone
    cases halive : s.alive with
    | false =>
      have hstep : s.failStep error response (some res) .read =
          (s, .failing (.clear false) error response (some res)) := by
        rw [BedrockSession.failStep, halive]
      rw [hstep]
      exact Or.inl ⟨Nat.le_refl _, fun _ _ => rfl⟩
    -- the one place at which a heartbeat starts to owe its call
    | true =>
      have hstep : s.failStep error response (some res) .read =
          (s, .failing (.clear true) error response (some res)) := by
        rw [BedrockSession.failStep, halive]
      rw [hstep]
      exact Or.inr ⟨rfl, rfl, rfl, rfl⟩
  | clear wasAlive => exact Or.inl ⟨Nat.le_refl _, fun _ h => h⟩
  | signal wasAlive => exact Or.inl ⟨Nat.le_refl _, fun _ h => h⟩
  | clearAgain wasAlive =>
    cases wasAlive with
    | true => exact Or.inl ⟨Nat.le_refl _, fun _ h => h⟩
    | false => exact Or.inl ⟨Nat.le_refl _, fun _ _ => rfl⟩
  | pick =>
    -- behind the clear the session is over, whoever cleared it first
    have hdead := hfit rfl
    rw [BedrockSession.failStep]
    cases s.hook with
    | none =>
      refine Or.inl ⟨Nat.le_add_right _ _, fun hlive => ?_⟩
      rw [hdead] at hlive
      cases hlive
    | some hook => exact Or.inl ⟨Nat.le_refl _, fun _ h => h⟩
  | call hook =>
    have hdead := hfit rfl
    refine Or.inl ⟨?_, fun hlive => ?_⟩
    · show (s.failures ++ [_]).length + 0 ≤ s.failures.length + 1
      rw [List.length_append]
      exact Nat.le_refl _
    · rw [show (s.failStep error response (some res) (.call hook)).1.alive = s.alive from rfl,
        hdead] at hlive
      cases hlive

section Verified

variable [CallStack] [Ed25519]

/-- Only a failing clock check goes on as one. -/
theorem access_clocking (config : Config) {s : BedrockSession} {pc : Pc} (hmoving : pc.Moving)
    (hfit : pc.Fits s.token s.alive) (h : (s.access config pc).2.clocking = true) :
    pc.clocking = true := by
  have hout : pc.inside = false := by
    rw [← (access_good config hmoving hfit).1]
    exact Pc.clocking_inside h
  cases pc with
  | failing place error response res =>
    cases res with
    | none => rfl
    | some res => cases hout
  | idle => cases h
  | called b => exact absurd hmoving id
  | stopping => cases h
  | _ => cases hout

/-- An access from outside of the lock. -/
theorem access_clockOwes (config : Config) {s : BedrockSession} {pc : Pc} (hmoving : pc.Moving)
    (hout : pc.inside = false) :
    (s.access config pc).1.failures.length + (s.access config pc).2.clockOwes ≤
      s.failures.length + pc.clockOwes := by
  cases pc with
  | failing place error response res =>
    cases res with
    | none => exact failStep_clockOwes s place error response
    | some res => cases hout
  | idle => exact Nat.le_refl _
  | called b => exact absurd hmoving id
  | stopping => exact Nat.le_refl _
  | _ => cases hout

/-- An access of the holder. -/
theorem access_beatOwes (config : Config) {s : BedrockSession} {pc : Pc}
    (hfit : pc.Fits s.token s.alive) (hin : pc.inside = true) :
    (s.access config pc).1.failures.length + (s.access config pc).2.beatOwes ≤
        s.failures.length + pc.beatOwes ∧
      ((s.access config pc).1.alive = true → (s.access config pc).2.beatOwes = 0 → pc.beatOwes = 0) ∨
    s.alive = true ∧ pc.beatOwes = 0 ∧ (s.access config pc).2.beatOwes = 1 ∧
      (s.access config pc).1 = s := by
  cases pc with
  -- only `fail` owes anything; every other access of a heartbeat leaves both sides as they are
  | failing place error response res =>
    cases res with
    | none => cases hin
    | some res => exact failStep_beatOwes error response res hfit
  | entered b =>
    rw [BedrockSession.access]
    by_cases hdead : s.alive = false
    · rw [if_pos hdead]
      exact Or.inl ⟨Nat.le_refl _, fun _ _ => rfl⟩
    · rw [if_neg hdead]
      exact Or.inl ⟨Nat.le_refl _, fun _ _ => rfl⟩
  | sending b token =>
    rw [BedrockSession.access]
    cases postForm (tokenForm config token b) b.first with
    | error e => exact Or.inl ⟨Nat.le_refl _, fun _ _ => rfl⟩
    | ok http =>
      dsimp only
      by_cases herror : http.error ≠ []
      · rw [if_pos herror]
        exact Or.inl ⟨Nat.le_refl _, fun _ _ => rfl⟩
      · rw [if_neg herror]
        exact Or.inl ⟨Nat.le_refl _, fun _ _ => rfl⟩
  | resending b token =>
    rw [BedrockSession.access]
    cases postForm (tokenForm config token b) b.retry with
    | error e => exact Or.inl ⟨Nat.le_refl _, fun _ _ => rfl⟩
    | ok http => exact Or.inl ⟨Nat.le_refl _, fun _ _ => rfl⟩
  | judging b http =>
    rw [BedrockSession.access]
    cases verdict config b http with
    | rotate r token => exact Or.inl ⟨Nat.le_refl _, fun _ _ => rfl⟩
    | fail error response res => exact Or.inl ⟨Nat.le_refl _, fun _ _ => rfl⟩
    | escape e => exact Or.inl ⟨Nat.le_refl _, fun _ _ => rfl⟩
  | idle => cases hin
  | called b => cases hin
  | stopping => cases hin
  | _ => exact Or.inl ⟨Nat.le_refl _, fun _ _ => rfl⟩

/-! ## The invariant -/

/-- Calls made and owed stay within one for the heartbeats and one for the clock check; as long as
    the session is alive and no heartbeat is about to call, the heartbeats have not called. -/
structure HookInv (t : Threads) : Prop where
  /-- The request lock is respected. -/
  good : t.Good
  /-- Only the thread of the loop fails the session by its clock check. -/
  clocker : ∀ i, (t.pc i).clocking = true → t.clocked = some i
  /-- Calls made and calls under way: one, and one more for a clock check. -/
  bound : t.session.failures.length + t.beatOwes + t.clockOwes ≤ 1 + t.clockCalls
  /-- While the session lives and no heartbeat fails, only the clock check calls the hook. -/
  uncalled : t.session.alive = true → t.beatOwes = 0 →
    t.session.failures.length + t.clockOwes ≤ t.clockCalls

omit [CallStack] [Ed25519] in
/-- Nothing is owed in front of the first call. -/
theorem hookInv_new (token : Str) (hook : Option Hook) : HookInv (.new token hook) where
  good := Threads.good_new token hook
  clocker := fun i h => by cases h
  bound := Nat.zero_le _
  uncalled := fun _ _ => Nat.zero_le _

omit [CallStack] [Ed25519] in
/-- Only the thread of the clock check is in it, also after a move of another one. -/
theorem clocker_set {t : Threads} (h : ∀ i, (t.pc i).clocking = true → t.clocked = some i) {i : Nat}
    {pc : Pc} (hpc : pc.clocking = true → t.clocked = some i) :
    ∀ j, ((Function.update t.pc i pc) j).clocking = true → t.clocked = some j := fun j hj => by
  by_cases hji : j = i
  · subst hji
    rw [Function.update_self] at hj
    exact hpc hj
  · rw [Function.update_of_ne hji] at hj
    exact h j hj

omit [CallStack] [Ed25519] in
/-- **A thread outside of the lock moves** and makes no call that was not owed. -/
theorem HookInv.outside {t : Threads} (h : HookInv t) (i : Nat) (s : BedrockSession) (pc : Pc)
    (hgood : ({ t with session := s }.set i pc).Good) (hout : (t.pc i).inside = false)
    (hclock : pc.clocking = true → (t.pc i).clocking = true)
    (howes : s.failures.length + pc.clockOwes ≤ t.session.failures.length + (t.pc i).clockOwes)
    (halive : s.alive = true → t.session.alive = true) :
    HookInv ({ t with session := s }.set i pc) := by
  have hlock : t.requestLock ≠ some i := fun hlock => by
    have hin := (h.good.inside i).mpr hlock
    rw [hout] at hin
    cases hin
  have hbeat : ({ t with session := s }.set i pc).beatOwes = t.beatOwes :=
    owesAt_update_ne Pc.beatOwes hlock t.pc pc
  have hsum : s.failures.length + ({ t with session := s }.set i pc).clockOwes ≤
      t.session.failures.length + t.clockOwes := by
    show s.failures.length + owesAt Pc.clockOwes t.clocked (Function.update t.pc i pc) ≤
      t.session.failures.length + owesAt Pc.clockOwes t.clocked t.pc
    by_cases hwho : t.clocked = some i
    · rw [hwho, owesAt_update_self]
      exact howes
    · rw [owesAt_update_ne _ hwho]
      -- the clock check runs in another thread, if at all
      have hzero : (t.pc i).clockOwes = 0 := Pc.clockOwes_of_not
        (Bool.eq_false_iff.mpr fun hc => hwho (h.clocker i hc))
      omega
  have hbound := h.bound
  have hcalls : ({ t with session := s }.set i pc).clockCalls = t.clockCalls := rfl
  refine ⟨hgood, clocker_set h.clocker fun hc => h.clocker i (hclock hc), ?_, fun hlive hnone => ?_⟩
  · show s.failures.length + _ + _ ≤ _
    rw [hbeat, hcalls]
    omega
  · rw [hbeat] at hnone
    have := h.uncalled (halive hlive) hnone
    show s.failures.length + _ ≤ _
    rw [hcalls]
    omega

/-- **The holder moves.** -/
theorem HookInv.inside (config : Config) {t : Threads} (h : HookInv t) {i : Nat}
    (hmoving : (t.pc i).Moving) (hin : (t.pc i).inside = true) :
    HookInv ({ t with session := (t.session.access config (t.pc i)).1 }.set i
      (t.session.access config (t.pc i)).2) := by
  have hlock := (h.good.inside i).mp hin
  obtain ⟨hside, hfit, hdead, htoken⟩ := access_good config hmoving (h.good.fits i)
  have hgood := h.good.move i _ _ hside hfit hdead htoken
  have hclock : ({ t with session := (t.session.access config (t.pc i)).1 }.set i
      (t.session.access config (t.pc i)).2).clockOwes = t.clockOwes :=
    owesAt_update_eq _ _ (by rw [Pc.clockOwes_inside hin, Pc.clockOwes_inside (hside.trans hin)])
  have hbefore : t.beatOwes = (t.pc i).beatOwes := by rw [Threads.beatOwes, hlock, owesAt]
  have hafter : ({ t with session := (t.session.access config (t.pc i)).1 }.set i
      (t.session.access config (t.pc i)).2).beatOwes = (t.session.access config (t.pc i)).2.beatOwes := by
    show owesAt _ t.requestLock (Function.update t.pc i _) = _
    rw [hlock, owesAt_update_self]
  have hcalls : ({ t with session := (t.session.access config (t.pc i)).1 }.set i
      (t.session.access config (t.pc i)).2).clockCalls = t.clockCalls := rfl
  have hbound := h.bound
  rw [hbefore] at hbound
  refine ⟨hgood, clocker_set h.clocker fun hc =>
      h.clocker i (access_clocking config hmoving (h.good.fits i) hc),
    ?_, fun hlive hnone => ?_⟩
  · show (t.session.access config (t.pc i)).1.failures.length + _ + _ ≤ _
    rw [hafter, hclock, hcalls]
    rcases access_beatOwes config (h.good.fits i) hin with ⟨hsum, _⟩ | ⟨hlive, hzero, hone, hsame⟩
    · omega
    · -- the session is alive, so no heartbeat has called yet
      have := h.uncalled hlive (hbefore.trans hzero)
      rw [hone, hsame]
      omega
  · show (t.session.access config (t.pc i)).1.failures.length + _ ≤ _
    rw [hafter] at hnone
    rw [hclock, hcalls]
    rcases access_beatOwes config (h.good.fits i) hin with ⟨hsum, hkeep⟩ | ⟨_, _, hone, _⟩
    · have hzero := hkeep hlive hnone
      have halive : t.session.alive = true := by
        by_contra hover
        rw [show (t.session.access config (t.pc i)).1.alive = true from hlive] at hdead
        exact absurd (hdead (Bool.eq_false_iff.mpr hover)) (by decide)
      have := h.uncalled halive (hbefore.trans hzero)
      omega
    · rw [hone] at hnone
      cases hnone

omit [CallStack] [Ed25519] in
/-- Taking or releasing the lock: no call is owed there. -/
theorem HookInv.relock {t t' : Threads} (h : HookInv t) (i : Nat) (pc : Pc) (hgood : t'.Good)
    (hsession : t'.session = t.session) (hpcs : t'.pc = Function.update t.pc i pc)
    (hclocked : t'.clocked = t.clocked) (hzero : (t.pc i).clockOwes = 0) (hzero' : pc.clockOwes = 0)
    (hnot : pc.clocking = false) (hbeat : t.beatOwes = 0) (hbeat' : t'.beatOwes = 0) : HookInv t' := by
  have hclock : t'.clockOwes = t.clockOwes := by
    rw [Threads.clockOwes, hclocked, hpcs]
    exact owesAt_update_eq _ _ (hzero'.trans hzero.symm)
  have hcalls : t'.clockCalls = t.clockCalls := by rw [Threads.clockCalls, hclocked, Threads.clockCalls]
  refine ⟨hgood, ?_, ?_, fun hlive _ => ?_⟩
  · rw [hpcs, hclocked]
    exact clocker_set h.clocker fun hc => by rw [hnot] at hc; cases hc
  · rw [hsession, hbeat', hclock, hcalls, ← hbeat]
    exact h.bound
  · rw [hsession, hclock, hcalls]
    rw [hsession] at hlive
    exact h.uncalled hlive hbeat

/-- **Every step** keeps the invariant. -/
theorem hookInv_step (config : Config) {t : Threads} (h : HookInv t) (act : ThreadAction) :
    HookInv (t.step config act) := by
  cases act with
  | call i b =>
    rw [Threads.step]
    cases hpc : t.pc i with
    | idle =>
      -- a thread that starts a call is outside of the lock, where it owes nothing
      have hout : (t.pc i).inside = false := by rw [hpc]; rfl
      exact h.outside i t.session (.called b)
        (h.good.move i t.session (.called b) hout.symm trivial id fun _ => rfl) hout
        (fun hc => by cases hc) (Nat.le_add_right _ _) id
    | _ => exact h
  | clock i =>
    rw [Threads.step]
    cases hpc : t.pc i with
    | idle =>
      -- the clock check fails once; from now on it owes its one call
      cases hclock : t.clocked with
      | none =>
        have hout : (t.pc i).inside = false := by rw [hpc]; rfl
        have hlock : t.requestLock ≠ some i := fun hlock => by
          have hin := (h.good.inside i).mpr hlock
          rw [hout] at hin
          cases hin
        have hbefore : t.clockOwes = 0 ∧ t.clockCalls = 0 := by
          rw [Threads.clockOwes, Threads.clockCalls, hclock]
          exact ⟨rfl, rfl⟩
        have hafter : ({ t with clocked := some i }.set i (.failing .read clockError none none)).beatOwes =
              t.beatOwes ∧
            ({ t with clocked := some i }.set i (.failing .read clockError none none)).clockOwes = 1 ∧
            ({ t with clocked := some i }.set i (.failing .read clockError none none)).clockCalls = 1 :=
          ⟨owesAt_update_ne _ hlock _ _, owesAt_update_self _ _ _ _, rfl⟩
        obtain ⟨hbeat, hone, hcall⟩ := hafter
        have hgood' : ({ t with clocked := some i } : Threads).Good := ⟨h.good.inside, h.good.fits⟩
        have hbound := h.bound
        refine ⟨hgood'.move i t.session (.failing .read clockError none none) hout.symm
          (by intro hc; cases hc) id fun _ => rfl, fun j hj => ?_, ?_, fun hlive hnone => ?_⟩
        · by_cases hji : j = i
          · rw [hji]
            rfl
          · rw [Threads.pc_set_ne _ hji] at hj
            have := h.clocker j hj
            rw [hclock] at this
            cases this
        · rw [hbeat, hone, hcall]
          show t.session.failures.length + _ + 1 ≤ 1 + 1
          omega
        · rw [hbeat] at hnone
          rw [hone, hcall]
          have := h.uncalled hlive hnone
          show t.session.failures.length + 1 ≤ 1
          omega
      | some j => exact h
    | _ => exact h
  | stop i =>
    rw [Threads.step]
    cases hpc : t.pc i with
    | idle =>
      have hout : (t.pc i).inside = false := by rw [hpc]; rfl
      exact h.outside i { t.session with alive := false } .stopping
        (h.good.move i { t.session with alive := false } .stopping hout.symm trivial
          (fun _ => rfl) fun _ => rfl) hout (fun hc => by cases hc) (Nat.le_add_right _ _)
        (fun hlive => by cases hlive)
    | _ => exact h
  | setHook hook => exact ⟨⟨h.good.inside, h.good.fits⟩, h.clocker, h.bound, h.uncalled⟩
  -- the step of a thread: its access to the session, or taking and giving back the lock
  | go i =>
    have hgood := good_step config h.good (.go i)
    have hstep : t.step config (.go i) = t.go config i (t.pc i) := rfl
    rw [hstep] at hgood ⊢
    by_cases hmoving : (t.pc i).Moving
    · cases hside : (t.pc i).inside with
      | false =>
        rw [go_moving config t i hmoving] at hgood ⊢
        obtain ⟨_, _, hdead, _⟩ := access_good config hmoving (h.good.fits i)
        refine h.outside i _ _ hgood hside (access_clocking config hmoving (h.good.fits i))
          (access_clockOwes config hmoving hside) fun hlive => ?_
        -- outside of the lock, only an access that sees the session alive can owe more
        by_contra hover
        rw [hlive] at hdead
        exact absurd (hdead (Bool.eq_false_iff.mpr hover)) (by decide)
      | true =>
        rw [go_moving config t i hmoving]
        exact h.inside config hmoving hside
    · cases hpc : t.pc i with
      | called b =>
        rw [hpc, Threads.go] at hgood
        rw [Threads.go]
        cases hlock : t.requestLock with
        | none =>
          rw [hlock] at hgood
          refine h.relock i (.entered b) hgood rfl rfl rfl (by rw [hpc]; rfl) rfl rfl ?_ ?_
          · rw [Threads.beatOwes, hlock, owesAt]
          · exact owesAt_update_self _ _ _ _
        | some j => exact h
      | leaving res =>
        rw [hpc, Threads.go] at hgood
        rw [Threads.go]
        have hlock := (h.good.inside i).mp (by rw [hpc]; rfl)
        refine h.relock i .idle hgood rfl rfl rfl (by rw [hpc]; rfl) rfl rfl ?_ rfl
        rw [Threads.beatOwes, hlock, owesAt, hpc]
        rfl
      | _ =>
        rw [hpc] at hmoving
        exact absurd trivial hmoving

/-- **The invariant holds in every run**, by induction on the accesses. -/
theorem threadRun_hookInv (config : Config) (token : Str) (hook : Option Hook)
    (acts : List ThreadAction) : HookInv (threadRun config token hook acts) := by
  have hstep : ∀ t act, HookInv t → HookInv (Threads.step config t act) := fun _ act h =>
    hookInv_step config h act
  exact run_inv hstep acts (hookInv_new token hook)

/-- **The hook is called at most once by the heartbeats**, all threads together, and once more only if
    the clock check of the loop fails. -/
theorem hook_calls (config : Config) (token : Str) (hook : Option Hook) (acts : List ThreadAction) :
    (threadRun config token hook acts).session.failures.length ≤
      1 + (threadRun config token hook acts).clockCalls := by
  have := (threadRun_hookInv config token hook acts).bound
  omega

/-! ## Behind the end -/

/-- A measure `f` of the session that the threads can raise by `w` at most once it is over. -/
structure Spends (config : Config) (f : BedrockSession → Nat) (w : Pc → Nat) : Prop where
  /-- A thread outside has nothing left to spend. -/
  outside : ∀ pc, pc.inside = false → w pc = 0
  entered : ∀ b, w (.entered b) = 0
  leaving : ∀ res, w (.leaving res) = 0
  /-- What an access adds to an ended session is taken from the thread. -/
  access : ∀ (s : BedrockSession) (pc : Pc), pc.Moving → s.alive = false →
    f (s.access config pc).1 + w (s.access config pc).2 ≤ f s + w pc
  /-- `stop` and `set_hook` are free. -/
  stop : ∀ s : BedrockSession, f { s with alive := false } = f s
  hook : ∀ (s : BedrockSession) (hook : Option Hook), f (s.setHook hook) = f s

/-- **Every step** of a session that is over: it stays over, and the measure with what is left of it
    does not grow. -/
theorem Spends.step {config : Config} {f : BedrockSession → Nat} {w : Pc → Nat}
    (hw : Spends config f w) {t : Threads} (hgood : t.Good) (hover : t.session.alive = false)
    (act : ThreadAction) :
    (t.step config act).session.alive = false ∧
      f (t.step config act).session + owesAt w (t.step config act).requestLock (t.step config act).pc ≤
        f t.session + owesAt w t.requestLock t.pc := by
  -- a thread that is idle has spent nothing yet
  have hidle : ∀ {i}, t.pc i = .idle → ∀ pc : Pc, pc.inside = false →
      owesAt w t.requestLock (Function.update t.pc i pc) = owesAt w t.requestLock t.pc :=
    fun {i} hpc pc hout => owesAt_update_eq w _ (by rw [hw.outside pc hout, hpc, hw.outside _ rfl])
  cases act with
  | call i b =>
    rw [Threads.step]
    cases hpc : t.pc i with
    | idle => exact ⟨hover, (congrArg (f t.session + ·) (hidle hpc (.called b) rfl)).le⟩
    | _ => exact ⟨hover, Nat.le_refl _⟩
  | clock i =>
    rw [Threads.step]
    cases hpc : t.pc i with
    | idle =>
      cases t.clocked with
      | none => exact ⟨hover, (congrArg (f t.session + ·) (hidle hpc _ rfl)).le⟩
      | some j => exact ⟨hover, Nat.le_refl _⟩
    | _ => exact ⟨hover, Nat.le_refl _⟩
  | stop i =>
    rw [Threads.step]
    cases hpc : t.pc i with
    | idle =>
      refine ⟨rfl, ?_⟩
      show f { t.session with alive := false } + owesAt w t.requestLock (Function.update t.pc i .stopping) ≤ _
      rw [hw.stop, hidle hpc .stopping rfl]
    | _ => exact ⟨hover, Nat.le_refl _⟩
  | setHook hook => exact ⟨hover, (congrArg (· + owesAt w t.requestLock t.pc) (hw.hook t.session hook)).le⟩
  | go i =>
    show (t.go config i (t.pc i)).session.alive = false ∧ f (t.go config i (t.pc i)).session +
      owesAt w (t.go config i (t.pc i)).requestLock (t.go config i (t.pc i)).pc ≤ _
    by_cases hmoving : (t.pc i).Moving
    · rw [go_moving config t i hmoving]
      obtain ⟨hside, _, hdead, _⟩ := access_good config hmoving (hgood.fits i)
      refine ⟨hdead hover, ?_⟩
      have haccess := hw.access t.session (t.pc i) hmoving hover
      show f (t.session.access config (t.pc i)).1 + owesAt w t.requestLock
        (Function.update t.pc i (t.session.access config (t.pc i)).2) ≤ _
      -- the holder spends what it had left; the others are outside and spend nothing
      by_cases hlock : t.requestLock = some i
      · rw [hlock, owesAt_update_self, owesAt]
        exact haccess
      · have hout : (t.pc i).inside = false :=
          Bool.eq_false_iff.mpr fun hin => hlock ((hgood.inside i).mp hin)
        rw [owesAt_update_ne w hlock]
        rw [hw.outside _ hout, hw.outside _ (hside.trans hout)] at haccess
        omega
    · cases hpc : t.pc i with
      | called b =>
        rw [Threads.go]
        cases hlock : t.requestLock with
        | none =>
          refine ⟨hover, ?_⟩
          show f t.session + owesAt w (some i) (Function.update t.pc i (.entered b)) ≤ _
          rw [owesAt_update_self, hw.entered]
          exact Nat.le_add_right _ _
        | some j => exact ⟨hover, by rw [hlock]⟩
      | leaving res =>
        rw [Threads.go]
        exact ⟨hover, Nat.le_add_right _ _⟩
      | _ =>
        rw [hpc] at hmoving
        exact absurd trivial hmoving

/-- The requests a thread inside may still send. -/
def Pc.posts : Pc → Nat
  | .forming _ | .sending .. => 2
  | .resending .. => 1
  | _ => 0

/-- The rotations it may still make. -/
def Pc.rotations : Pc → Nat
  | .forming _ | .sending .. | .resending .. | .judging .. | .rotating .. => 1
  | _ => 0

omit [CallStack] [Ed25519] in
/-- `fail` sends nothing and rotates nothing. -/
theorem failStep_spends (s : BedrockSession) (place : FailAt) (error : Exc) (response : Option Response)
    (res : Option (Except Exc Response)) :
    (s.failStep error response res place).1.sent = s.sent ∧
      (s.failStep error response res place).1.completed = s.completed ∧
      (s.failStep error response res place).2.posts = 0 ∧
      (s.failStep error response res place).2.rotations = 0 := by
  have hbehind : (Pc.behindFail res).posts = 0 ∧ (Pc.behindFail res).rotations = 0 := by
    cases res <;> exact ⟨rfl, rfl⟩
  cases place with
  | clearAgain wasAlive =>
    cases wasAlive with
    | true => exact ⟨rfl, rfl, rfl, rfl⟩
    | false => exact ⟨rfl, rfl, hbehind⟩
  | pick =>
    rw [BedrockSession.failStep]
    cases s.hook with
    | none => exact ⟨rfl, rfl, hbehind⟩
    | some hook => exact ⟨rfl, rfl, rfl, rfl⟩
  | call hook => exact ⟨rfl, rfl, hbehind⟩
  | _ => exact ⟨rfl, rfl, rfl, rfl⟩

/-- What an access of a session that is over sends and rotates was left to do. -/
theorem access_spends (config : Config) {s : BedrockSession} {pc : Pc} (hmoving : pc.Moving)
    (hover : s.alive = false) :
    (s.access config pc).1.sent.length + (s.access config pc).2.posts ≤ s.sent.length + pc.posts ∧
      (s.access config pc).1.completed + (s.access config pc).2.rotations ≤
        s.completed + pc.rotations := by
  cases pc with
  | called b => exact absurd hmoving id
  | leaving res => exact absurd hmoving id
  -- `_alive` is read before the first request: a heartbeat that starts now sends nothing
  | entered b =>
    rw [BedrockSession.access, if_pos hover]
    exact ⟨Nat.le_refl _, Nat.le_refl _⟩
  -- the second request is still to come, if this one is not answered
  | sending b token =>
    rw [BedrockSession.access]
    cases postForm (tokenForm config token b) b.first with
    | error e => exact ⟨Nat.le_add_right _ _, Nat.le_add_right _ _⟩
    | ok http =>
      dsimp only
      rw [List.length_append]
      by_cases herror : http.error ≠ []
      · rw [if_pos herror]
        exact ⟨Nat.le_refl _, Nat.le_refl _⟩
      · rw [if_neg herror]
        exact ⟨Nat.le_succ _, Nat.le_refl _⟩
  | resending b token =>
    rw [BedrockSession.access]
    cases postForm (tokenForm config token b) b.retry with
    | error e => exact ⟨Nat.le_add_right _ _, Nat.le_add_right _ _⟩
    | ok http =>
      dsimp only
      rw [List.length_append]
      exact ⟨Nat.le_refl _, Nat.le_refl _⟩
  -- only a rotation completes a heartbeat, and it is still to come
  | judging b http =>
    rw [BedrockSession.access]
    cases verdict config b http with
    | rotate r token => exact ⟨Nat.le_refl _, Nat.le_refl _⟩
    | fail error response res => exact ⟨Nat.le_refl _, Nat.le_add_right _ _⟩
    | escape e => exact ⟨Nat.le_refl _, Nat.le_add_right _ _⟩
  | failing place error response res =>
    obtain ⟨hsent, hcompleted, hposts, hrotations⟩ := failStep_spends s place error response res
    rw [BedrockSession.access, hsent, hcompleted, hposts, hrotations]
    exact ⟨Nat.le_refl _, Nat.le_refl _⟩
  | _ => exact ⟨Nat.le_refl _, Nat.le_refl _⟩

/-- Behind the end a heartbeat spends its requests. -/
theorem spends_sent (config : Config) : Spends config (fun s => s.sent.length) Pc.posts where
  outside := fun pc hout => by
    cases pc with
    | forming b => cases hout
    | sending b token => cases hout
    | resending b token => cases hout
    | _ => rfl
  entered := fun _ => rfl
  leaving := fun _ => rfl
  access := fun _ _ hmoving hover => (access_spends config hmoving hover).1
  stop := fun _ => rfl
  hook := fun _ _ => rfl

theorem spends_completed (config : Config) :
    Spends config (fun s => s.completed) Pc.rotations where
  outside := fun pc hout => by
    cases pc with
    | forming b => cases hout
    | sending b token => cases hout
    | resending b token => cases hout
    | judging b http => cases hout
    | rotating r token => cases hout
    | _ => rfl
  entered := fun _ => rfl
  leaving := fun _ => rfl
  access := fun _ _ hmoving hover => (access_spends config hmoving hover).2
  stop := fun _ => rfl
  hook := fun _ _ => rfl

/-- **Every run** of a session that is over. -/
theorem Spends.run {config : Config} {f : BedrockSession → Nat} {w : Pc → Nat}
    (hw : Spends config f w) {t : Threads} (hgood : t.Good) (hover : t.session.alive = false)
    (acts : List ThreadAction) :
    (run (Threads.step config) t acts).session.alive = false ∧
      f (run (Threads.step config) t acts).session ≤ f t.session + owesAt w t.requestLock t.pc := by
  induction acts generalizing t with
  | nil => exact ⟨hover, Nat.le_add_right _ _⟩
  | cons act acts ih =>
    obtain ⟨hover', hless⟩ := hw.step hgood hover act
    obtain ⟨hend, hbound⟩ := ih (good_step config hgood act) hover'
    exact ⟨hend, hbound.trans hless⟩

omit [CallStack] [Ed25519] in
/-- What one thread owes bounds what is owed. -/
theorem owesAt_le {w : Pc → Nat} {n : Nat} (h : ∀ pc, w pc ≤ n) (who : Option Nat) (pcs : Nat → Pc) :
    owesAt w who pcs ≤ n := by
  cases who with
  | none => exact Nat.zero_le _
  | some i => exact h _

omit [CallStack] [Ed25519] in
theorem Pc.posts_le (pc : Pc) : pc.posts ≤ 2 := by
  cases pc <;> simp [Pc.posts]

omit [CallStack] [Ed25519] in
theorem Pc.rotations_le (pc : Pc) : pc.rotations ≤ 1 := by
  cases pc <;> simp [Pc.rotations]

/-- **Once a session is over it stays over**, and in all that the threads still do at most two more
    requests go out and the token rotates at most once; where no heartbeat is inside, nothing goes out
    and nothing rotates. -/
theorem requests_after_end (config : Config) (token : Str) (hook : Option Hook)
    (acts : List ThreadAction) (hover : (threadRun config token hook acts).session.alive = false)
    (later : List ThreadAction) :
    (threadRun config token hook (acts ++ later)).session.alive = false ∧
      (threadRun config token hook (acts ++ later)).session.sent.length ≤
        (threadRun config token hook acts).session.sent.length + 2 ∧
      (threadRun config token hook (acts ++ later)).session.completed ≤
        (threadRun config token hook acts).session.completed + 1 ∧
      ((∀ i, ((threadRun config token hook acts).pc i).inside = false) →
        (threadRun config token hook (acts ++ later)).session.sent.length ≤
            (threadRun config token hook acts).session.sent.length ∧
          (threadRun config token hook (acts ++ later)).session.completed ≤
            (threadRun config token hook acts).session.completed) := by
  -- both bounds are spending arguments, for the requests and for the rotations
  have hgood := (threadRun_hookInv config token hook acts).good
  obtain ⟨hend, hsent⟩ := (spends_sent config).run hgood hover later
  obtain ⟨_, hcompleted⟩ := (spends_completed config).run hgood hover later
  rw [← run_append] at hend hsent hcompleted
  refine ⟨hend, hsent.trans (Nat.add_le_add_left (owesAt_le Pc.posts_le _ _) _),
    hcompleted.trans (Nat.add_le_add_left (owesAt_le Pc.rotations_le _ _) _), fun hfree => ?_⟩
  -- with every thread outside nobody holds the lock, and nothing is left to spend
  have hlock : (threadRun config token hook acts).requestLock = none := by
    cases hlock : (threadRun config token hook acts).requestLock with
    | none => rfl
    | some i =>
      have hin := (hgood.inside i).mpr hlock
      rw [hfree i] at hin
      cases hin
  rw [hlock] at hsent hcompleted
  exact ⟨hsent, hcompleted⟩

end Verified

/-- The clock check of thread 1 reads `_alive`; then a heartbeat of thread 0 gets no answer and fails;
    then thread 1 goes on. -/
def raceRun : List ThreadAction :=
  [.clock 1, .go 1, .call 0 lostBeat] ++ List.replicate 13 (.go 0) ++ List.replicate 5 (.go 1)

/-- Both call the hook. -/
example : (@threadRun sampleStack sampleEd25519 sampleConfig (str "BRK_0") (some 0)
    raceRun).session.failures.length = 2 := by
  decide +kernel

/-- Behind the stop: the heartbeat that is inside ends, and thread 1 tries another one. -/
def behindStop : List ThreadAction :=
  List.replicate 12 (.go 0) ++ [.call 1 lostBeat] ++ List.replicate 4 (.go 1)

/-- Thread 1 stops the session while thread 0 is between its two requests: the second one goes out, and
    with it the two requests are all. -/
theorem requests_after_end_sample :
    (@threadRun sampleStack sampleEd25519 sampleConfig (str "BRK_0") (some 0)
      stoppedInside.dropLast).session.sent.length = 1 ∧
    (@threadRun sampleStack sampleEd25519 sampleConfig (str "BRK_0") (some 0)
      (stoppedInside.dropLast ++ behindStop)).session.sent.length = 2 ∧
    (@threadRun sampleStack sampleEd25519 sampleConfig (str "BRK_0") (some 0)
      (stoppedInside.dropLast ++ behindStop)).session.alive = false ∧
    ∀ later, (@threadRun sampleStack sampleEd25519 sampleConfig (str "BRK_0") (some 0)
      (stoppedInside.dropLast ++ behindStop ++ later)).session.sent.length ≤ 2 := by
  have hsent : (@threadRun sampleStack sampleEd25519 sampleConfig (str "BRK_0") (some 0)
      (stoppedInside.dropLast ++ behindStop)).session.sent.length = 2 := by decide +kernel
  have hover := (@requests_after_end sampleStack sampleEd25519 sampleConfig (str "BRK_0") (some 0)
    stoppedInside.dropLast (by decide +kernel) behindStop).1
  refine ⟨by decide +kernel, hsent, hover, fun later => ?_⟩
  -- after `behindStop` the heartbeat has given the lock back
  have hfree : ∀ i, ((@threadRun sampleStack sampleEd25519 sampleConfig (str "BRK_0") (some 0)
      (stoppedInside.dropLast ++ behindStop)).pc i).inside = false := by
    intro i
    rw [Bool.eq_false_iff, ne_eq, (@threadRun_hookInv sampleStack sampleEd25519 sampleConfig
      (str "BRK_0") (some 0) (stoppedInside.dropLast ++ behindStop)).good.inside i]
    have hlock : (@threadRun sampleStack sampleEd25519 sampleConfig (str "BRK_0") (some 0)
      (stoppedInside.dropLast ++ behindStop)).requestLock = none := by decide +kernel
    rw [hlock]
    exact Option.some_ne_none i |>.symm
  have hnone := (@requests_after_end sampleStack sampleEd25519 sampleConfig (str "BRK_0") (some 0)
    (stoppedInside.dropLast ++ behindStop) hover later).2.2.2 hfree
  exact hnone.1.trans hsent.le

end Bedrock.Protocol

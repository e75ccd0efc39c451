/-
  A request that is repeated once, against a server behind a network that loses messages.

  1. **Passage** — an exchange is delivered, or its request is lost, or its answer is: then the server
     has done its part and the client does not know.

  2. **Idempotence** — the server answers a repeated request as it did the first time and does not act
     again.

  3. **At most once** (`retried_spec`) — with an idempotent server, a request that is repeated once has
     the effect and the answer of one request, unless both exchanges fail; and then it had no effect or
     the effect of one.
-/
import Mathlib.Logic.Basic

namespace Lib.Retry

variable {Server Request Answer : Type}

/-- What becomes of one exchange on the network. -/
inductive Passage
  | delivered | requestLost | answerLost
  deriving DecidableEq, Repr

/-- No answer comes back. -/
def Passage.lost : Passage → Bool
  | .delivered => false
  | .requestLost | .answerLost => true

/-- One exchange: what arrives at the client, and the server behind it. -/
def carry (serve : Server → Request → Answer × Server) (p : Passage) (s : Server) (r : Request) :
    Option Answer × Server :=
  match p with
  | .delivered => (some (serve s r).1, (serve s r).2)
  | .requestLost => (none, s)
  | .answerLost => (none, (serve s r).2)

/-- The exchange, repeated once if no answer arrives. -/
def retried (serve : Server → Request → Answer × Server) (p q : Passage) (s : Server) (r : Request) :
    Option Answer × Server :=
  if p.lost then carry serve q (carry serve p s r).2 r else carry serve p s r

/-- A repeated request is answered as the first time, and has no further effect. -/
def Idempotent (serve : Server → Request → Answer × Server) : Prop :=
  ∀ s r, serve (serve s r).2 r = serve s r

variable (serve : Server → Request → Answer × Server)

/-- A request without an answer was served or not. -/
theorem carry_lost {p : Passage} (h : p.lost = true) (s : Server) (r : Request) :
    (carry serve p s r).1 = none ∧ ((carry serve p s r).2 = s ∨ (carry serve p s r).2 = (serve s r).2) := by
  cases p with
  | delivered => cases h
  | requestLost => exact ⟨rfl, Or.inl rfl⟩
  | answerLost => exact ⟨rfl, Or.inr rfl⟩

theorem carry_delivered {p : Passage} (h : p.lost = false) (s : Server) (r : Request) :
    carry serve p s r = (some (serve s r).1, (serve s r).2) := by
  cases p with
  | delivered => rfl
  | requestLost => cases h
  | answerLost => cases h

variable {serve}

/-- **At most once.** -/
theorem retried_spec (h : Idempotent serve) (p q : Passage) (s : Server) (r : Request) :
    ((p.lost && q.lost) = false ∧ retried serve p q s r = (some (serve s r).1, (serve s r).2)) ∨
    ((p.lost && q.lost) = true ∧ (retried serve p q s r).1 = none ∧
      ((retried serve p q s r).2 = s ∨ (retried serve p q s r).2 = (serve s r).2)) := by
  unfold retried
  cases hp : p.lost with
  | false => exact Or.inl ⟨rfl, carry_delivered serve hp s r⟩
  | true =>
    rw [if_pos rfl]
    -- the server stands before the request or behind it; its answer is the same
    obtain ⟨-, hbefore | hbehind⟩ := carry_lost serve hp s r
    · rw [hbefore]
      cases hq : q.lost with
      | false => exact Or.inl ⟨rfl, carry_delivered serve hq s r⟩
      | true => exact Or.inr ⟨rfl, carry_lost serve hq s r⟩
    · rw [hbehind]
      cases hq : q.lost with
      | false =>
        refine Or.inl ⟨rfl, ?_⟩
        rw [carry_delivered serve hq, h]
      | true =>
        obtain ⟨hnone, hstate⟩ := carry_lost serve hq (serve s r).2 r
        rw [h, or_self] at hstate
        exact Or.inr ⟨rfl, hnone, Or.inr hstate⟩

end Lib.Retry

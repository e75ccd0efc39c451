/-
  `Session.commit` catches what its parts raise.

  1. **Drawing** — a source that runs dry, and a salt loop that finds no salt, raise `SsError`.

  2. **Refresh** — `refreshCore_raises`: over the factors of a session that `prepare` returned, the
     refresh raises `SsError` only.  The crux is that these factors can be encoded, so that every slot
     has a coordinate, and that the writer accepts the shares that were dealt.

  3. **Commit** — `commit_returns`: over a store whose operations raise `OSError` or `SsError`, the
     commit of such a session returns; `commit_escapes`: what else the lock raises comes out.
-/
import Bedrock.Slhwid.Corrupt
import Bedrock.Slhwid.Projection
import Bedrock.Slhwid.Runs

open Lib.Fallible Bedrock.Python

namespace Bedrock.Slhwid

/-- What `commit` catches: `except (OSError, SsError)`. -/
def isCaught (e : Exc) : Bool := e.isOSError || e.isSsError

/-! ## Drawing -/

/-- A draw of one element raises `SsError` only. -/
theorem drawElem_raises (d : Bytes) :
    Ensures drawElem d (fun _ _ => True) (fun e _ => e.isSsError = true) := by
  refine Ensures.bind (Q := fun _ _ => True) trivial fun chunk d' _ => ?_
  refine Ensures.bind (Q := fun _ _ => True) (Ensures.lift (fun _ _ => trivial) fun e he => ?_)
    fun _ _ _ => trivial
  rw [raiseIf_eq_error] at he
  rw [← he.2]
  rfl

theorem drawElems_raises : ∀ (n : Nat) (d : Bytes),
    Ensures (drawElems n) d (fun _ _ => True) (fun e _ => e.isSsError = true) := by
  intro n
  induction n with
  | zero => intro d; trivial
  | succ n ih =>
    intro d
    refine Ensures.bind (drawElem_raises d) fun c d' _ => ?_
    exact Ensures.bind (ih d') fun _ _ _ => trivial

theorem drawCoeffs_raises (n : Nat) (d : Bytes) :
    Ensures (drawCoeffs n) d (fun _ _ => True) (fun e _ => e.isSsError = true) := by
  refine Ensures.bind (drawElems_raises n d) fun _ d₁ _ => ?_
  refine Ensures.bind (drawElems_raises n d₁) fun _ d₂ _ => ?_
  refine Ensures.bind (drawElems_raises n d₂) fun _ d₃ _ => ?_
  exact Ensures.bind (drawElems_raises n d₃) fun _ _ _ => trivial

section Hashing

variable [Sha256]

/-- Where every slot has a coordinate under every salt, only the search itself can fail. -/
theorem saltLoop_raises {slots : List Slot}
    (h : ∀ s ∈ slots, ∀ salt < 256, ∃ x, deriveX s.name s.value salt = .ok x) {e : Exc} :
    ∀ {tries salt : Nat}, salt + tries ≤ 256 → saltLoop slots tries salt = .error e →
      e.isSsError = true := by
  intro tries
  induction tries with
  | zero =>
    intro salt _ hrun
    rw [← Except.error.inj hrun]
    rfl
  | succ tries ih =>
    intro salt hle hrun
    rcases mapM_cases (f := fun s : Slot => deriveX s.name s.value salt) slots with
      ⟨xs, hxs, _⟩ | ⟨s, hs, e', he', _⟩
    · rw [saltLoop, hxs, ok_bind] at hrun
      by_cases hnd : xs.Nodup
      · rw [if_pos hnd] at hrun
        cases hrun
      · rw [if_neg hnd] at hrun
        exact ih (by omega) hrun
    · obtain ⟨x, hx⟩ := h s hs salt (by omega)
      rw [hx] at he'
      cases he'

/-! ## The refresh -/

/-- The factors and hard locks of a session that `prepare` returned, as far as the refresh needs
    them. -/
structure Refreshable (k : Limbs) (F : Dict Str) (M : Finset Str) : Prop where
  /-- The key's limbs are reduced. -/
  reduced : k.Reduced
  /-- Every slot is one of the current version. -/
  slots : SlotsIn (allowedNames currentNormVersion) F
  /-- Every value can be encoded. -/
  encode : ValuesEncode F
  /-- The stored secret is mandatory. -/
  slstore : str "slstore" ∈ M

/-- Every slot has a coordinate under every salt. -/
theorem Refreshable.coordinate {k : Limbs} {F : Dict Str} {M : Finset Str} (h : Refreshable k F M) :
    ∀ s ∈ slotList F M, ∀ salt < 256, ∃ x, deriveX s.name s.value salt = .ok x := by
  intro s hs salt hsalt
  obtain ⟨n, hn, rfl⟩ := List.mem_map.mp hs
  exact deriveX_ok hsalt (allowedNames_ascii (h.slots n (mem_sortedKeys.mp hn)).1) (h.encode n)

/-- **The refresh raises `SsError` only.** -/
theorem refreshCore_raises {k : Limbs} {F : Dict Str} {M : Finset Str} (hr : Refreshable k F M)
    {d d' : Bytes} {e : Exc} (h : refreshCore k F M d = .error e d') : e.isSsError = true := by
  rcases refreshCore_cases k F M with hnone | ⟨t, hM, ht, heq⟩
  · rw [hnone] at h
    cases h
  rw [heq] at h
  have hMF : ∀ n ∈ M, n ∈ F := fun n hn => Dict.mem_of_get_ne_nil (hM n hn)
  obtain ⟨_, _, hm, hle, _⟩ := threshold_spec ht
  rcases run_bind_eq_error.mp h with hb | ⟨⟨shares, salt⟩, d₁, hb, h⟩
  · -- the shares cannot be built
    rcases run_bind_eq_error.mp hb with hloop | ⟨_, d₂, _, hb⟩
    · exact saltLoop_raises hr.coordinate (by omega) (lift_eq_error.mp hloop).1
    rcases run_bind_eq_error.mp hb with hdraw | ⟨_, _, _, hb⟩
    · exact (drawCoeffs_raises (t - 1) d₂).of_error hdraw
    · cases hb
  · -- they can, and then the writer accepts them
    obtain ⟨hsalt, _, _, S, _⟩ := buildShares_sharing hr.reduced (by omega) hb
    dsimp only at h
    rw [checkWord_ok hr.reduced, lift_ok_bind, serializeHelper_eq
      (S.writable (Or.inr rfl) hsalt hr.slots hr.slstore hMF hm hle)] at h
    cases h

/-! ## Sessions -/

/-- A session that `prepare` returned, whatever its store held and whatever failed. -/
def Prepared (s : Session) : Prop :=
  ∃ (o : Options) (collected : Dict Str) (w w' : World Disk), prepareWith o collected w = .ok s w'

/-- What holds of every session holds of a prepared one. -/
theorem Prepared.inv {s : Session} (h : Prepared s) : ∃ files collected, Entry.Inv files ⟨s, collected⟩ := by
  obtain ⟨o, collected, w, w', hrun⟩ := h
  obtain ⟨nf, hnf, ⟨_, _, hhas, blob, hp, k, _, hrec⟩ | ⟨_, henr⟩⟩ :=
    (prepareWith_ensures o collected w).of_ok hrun
  · exact ⟨w.store.dir.files, collected, hrec.entry hnf hhas⟩
  · exact ⟨w'.store.dir.files, collected, henr.entry hnf⟩

/-- A prepared session has what a refresh needs. -/
theorem Prepared.refreshable {s : Session} (h : Prepared s) {k : Limbs} (hk : s.key = some k) :
    Refreshable k s.factors s.mandatory := by
  obtain ⟨files, collected, hinv⟩ := h.inv
  obtain ⟨hred, hslots, hslstore⟩ := hinv.refreshable
  obtain ⟨nf, hnf, _, hproj⟩ := hinv.launched
  exact ⟨hred k hk, hslots,
    projectFactors_values_encode (launchRaw_encode (normalizeFactors_encode hnf).2) hproj, hslstore⟩

/-! ## The commit -/

section Stores

variable {σ : Type} [Store σ]

/-- What the operations of a store raise is caught. -/
structure Catches (σ : Type) [Store σ] : Prop where
  /-- What reading the helper raises is caught by `commit` .. -/
  readHelper : ∀ hid (x : σ),
    Ensures (Store.readHelper hid) x (fun _ _ => True) (fun e _ => isCaught e = true)
  /-- .. and so is what writing it raises. -/
  writeHelper : ∀ hid blob (x : σ),
    Ensures (Store.writeHelper hid blob) x (fun _ _ => True) (fun e _ => isCaught e = true)

/-- **The commit of a prepared session returns**, if what the lock raises is caught. -/
theorem commit_returns (hstore : Catches σ) {s : Session} (hs : Prepared s) {w : World σ}
    (hlock : Ensures (Store.acquire : EStateM Exc σ Unit) w.store (fun _ _ => True)
      (fun e _ => isCaught e = true)) : (s.commit w).2.1 = .ok () := by
  unfold Session.commit
  cases hkey : s.key with
  | none => rfl
  | some k =>
    dsimp only
    by_cases hopen : s.committed = true
    · rw [if_pos hopen]
    rw [if_neg hopen]
    have hbody : Ensures (commitLocked s k : Prog σ Session) w (fun _ _ => True)
        (fun e _ => isCaught e = true) := by
      refine Ensures.bind (onStore_ensures hlock) fun _ w₁ _ => ?_
      refine Ensures.bind (onStore_ensures (hstore.readHelper deviceHelperId w₁.store)) fun r w₂ _ => ?_
      obtain ⟨current, found⟩ := r
      dsimp only
      by_cases hstale : ¬ found = true ∨ current ≠ s.expectedHelper
      · rw [if_pos hstale]
        trivial
      rw [if_neg hstale]
      refine Ensures.bind (Q := fun _ _ => True) ?_ fun r w₃ _ => ?_
      · unfold Ensures onSource
        cases hrun : refreshCore k s.factors s.mandatory w₂.source with
        | ok r d => trivial
        | error e d =>
          show isCaught e = true
          rw [isCaught, refreshCore_raises (hs.refreshable hkey) hrun, Bool.or_true]
      cases r with
      | none => trivial
      | some blob =>
        exact Ensures.bind (onStore_ensures (hstore.writeHelper deviceHelperId blob w₃.store))
          fun _ _ _ => trivial
    cases hrun : commitLocked s k w with
    | ok s' w' => rfl
    | error e w' =>
      have hcaught := hbody.of_error hrun
      rw [isCaught] at hcaught
      exact if_pos hcaught

/-- **What the lock raises and nothing catches comes out of the commit** of an open session. -/
theorem commit_escapes {s : Session} {k : Limbs} (hkey : s.key = some k) (hopen : s.committed = false)
    {w : World σ} {e : Exc} (he : isCaught e = false)
    (hlock : Ensures (Store.acquire : EStateM Exc σ Unit) w.store (fun _ _ => False)
      (fun e' _ => e' = e)) : (s.commit w).2.1 = .error e := by
  have hbody : Ensures (commitLocked s k : Prog σ Session) w (fun _ _ => False) (fun e' _ => e' = e) :=
    Ensures.bind (onStore_ensures hlock) fun _ _ h => h.elim
  unfold Session.commit
  rw [hkey]
  dsimp only
  rw [hopen, if_neg (by decide)]
  cases hrun : commitLocked s k w with
  | ok s' w' => exact (hbody.of_ok hrun).elim
  | error e' w' =>
    obtain rfl := hbody.of_error hrun
    rw [isCaught] at he
    dsimp only
    rw [he]
    rfl

end Stores

end Hashing

end Bedrock.Slhwid

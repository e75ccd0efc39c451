/-
  What `prepare` and `commit` do to a `DirStore`, whatever fails on the way.

  1. **The stored secret** — it is written only where there is none (`SecretMade`), so the factors a
     launch sees (`launchRaw`) do not change once it exists.

  2. **Dealt helpers** — `Dealt k F M blob`: `blob` is a helper that the writer produced from shares
     of `k` over the factors `F`, hard-locking `M`, under the threshold rule.  Enrollment and refresh
     write nothing else (`refreshCore_ensures`, `enroll_ensures`).

  3. **The two calls** — `prepareWith_ensures` and `commit_cases`.
-/
import Bedrock.Slhwid.Drift
import Bedrock.Slhwid.Session

open Lib.Fallible Bedrock.Python

namespace Bedrock.Slhwid

/-! ## Stores and sources -/

section Programs

variable {σ α : Type}

/-- A step on the store leaves the random source alone. -/
theorem onStore_ensures {m : EStateM Exc σ α} {w : World σ} {Q : α → σ → Prop} {E : Exc → σ → Prop}
    (h : Ensures m w.store Q E) :
    Ensures (onStore m) w (fun a w' => Q a w'.store) (fun e w' => E e w'.store) := by
  unfold Ensures at h ⊢
  unfold onStore
  cases hrun : m w.store with
  | ok a s => rw [hrun] at h; exact h
  | error e s => rw [hrun] at h; exact h

theorem onStore_ok {m : EStateM Exc σ α} {w : World σ} {a : α} {s : σ} (h : m w.store = .ok a s) :
    onStore m w = .ok a ⟨s, w.source⟩ := by
  unfold onStore
  rw [h]

theorem onStore_error {m : EStateM Exc σ α} {w : World σ} {e : Exc} {s : σ}
    (h : m w.store = .error e s) : onStore m w = .error e ⟨s, w.source⟩ := by
  unfold onStore
  rw [h]

/-- So a step that returned returned on the store. -/
theorem onStore_eq_ok {m : EStateM Exc σ α} {w w' : World σ} {a : α} (h : onStore m w = .ok a w') :
    ∃ s, m w.store = .ok a s ∧ w' = ⟨s, w.source⟩ := by
  unfold onStore at h
  cases hrun : m w.store with
  | ok b s =>
    rw [hrun] at h
    obtain ⟨rfl, rfl⟩ := EStateM.Result.ok.inj h
    exact ⟨s, rfl, rfl⟩
  | error e s =>
    rw [hrun] at h
    cases h

/-- A draw leaves the store alone, and may fail at the end of the source. -/
theorem onSource_ensures {m : DrawM α} {w : World σ} {Q : α → Prop}
    (h : ∀ a d', m w.source = .ok a d' → Q a) :
    Ensures (onSource m) w (fun a w' => Q a ∧ w'.store = w.store) (fun _ w' => w'.store = w.store) := by
  unfold Ensures onSource
  cases hrun : m w.source with
  | ok a d => exact ⟨h a d hrun, rfl⟩
  | error e d => rfl

/-- Draws may be joined. -/
theorem onSource_bind {β : Type} (m : DrawM α) (f : α → DrawM β) :
    (onSource (m >>= f) : Prog σ β) = onSource m >>= fun a => onSource (f a) := by
  funext w
  show onSource (m >>= f) w = (onSource m >>= fun a => onSource (f a)) w
  rw [run_bind, onSource, onSource, run_bind]
  cases m w.source with
  | ok a d => rfl
  | error e d => rfl

theorem onSource_lift (x : Except Exc α) : (onSource (lift x) : Prog σ α) = lift x := by
  funext w
  cases x with
  | ok a => rfl
  | error e => rfl

theorem onSource_pure (a : α) : (onSource (pure a) : Prog σ α) = pure a := rfl

end Programs

/-! ## The stored secret -/

/-- The factors have an `slstore`, reported or stored. -/
def HasSlstore (files : Dict Bytes) (raw : Dict Str) : Prop :=
  raw.get (str "slstore") ≠ [] ∨
    ∃ v : Bytes, v.length = 32 ∧ files.lookup slstoreFile = some (slstorePrefix ++ v)

/-- The factors a launch works with: those reported, completed by the stored secret. -/
def launchRaw (files : Dict Bytes) (raw : Dict Str) : Dict Str :=
  if raw.get (str "slstore") ≠ [] then raw
  else match files.lookup slstoreFile with
    | some data => raw.insert (str "slstore") (hexStr (data.drop slstorePrefix.length))
    | none => raw

/-- The secret file is as before, or was created with a fresh secret. -/
def SecretMade (d d' : Dir) : Prop :=
  d' = d ∨ d.files.lookup slstoreFile = none ∧
    ∃ v : Bytes, v.length = 32 ∧ d' = d.write slstoreFile (slstorePrefix ++ v)

theorem launchRaw_reported {files : Dict Bytes} {raw : Dict Str}
    (h : raw.get (str "slstore") ≠ []) : launchRaw files raw = raw := if_pos h

theorem launchRaw_stored {files : Dict Bytes} {raw : Dict Str} {v : Bytes}
    (h : raw.get (str "slstore") = [])
    (hfile : files.lookup slstoreFile = some (slstorePrefix ++ v)) :
    launchRaw files raw = raw.insert (str "slstore") (hexStr v) := by
  rw [launchRaw, if_neg (not_not.mpr h), hfile]
  show raw.insert (str "slstore") (hexStr ((slstorePrefix ++ v).drop slstorePrefix.length)) = _
  rw [List.drop_left]

/-- The factors of a launch only depend on the secret file. -/
theorem launchRaw_congr {files files' : Dict Bytes} (raw : Dict Str)
    (h : files'.lookup slstoreFile = files.lookup slstoreFile) :
    launchRaw files' raw = launchRaw files raw := by
  rw [launchRaw, h, launchRaw]

/-- Only a missing `slstore` is completed. -/
theorem launchRaw_get {files : Dict Bytes} {raw : Dict Str} {n : Str}
    (h : n ≠ str "slstore" ∨ raw.get (str "slstore") ≠ []) : (launchRaw files raw).get n = raw.get n := by
  unfold launchRaw
  by_cases hraw : raw.get (str "slstore") ≠ []
  · rw [if_pos hraw]
  · rw [if_neg hraw]
    cases files.lookup slstoreFile with
    | none => rfl
    | some data => exact Dict.get_insert_ne (h.resolve_right hraw) _ _

/-- What the launch knows of the secret depends on what was reported of it. -/
theorem launchRaw_get_slstore {files : Dict Bytes} {raw raw' : Dict Str}
    (h : raw'.get (str "slstore") = raw.get (str "slstore")) :
    (launchRaw files raw').get (str "slstore") = (launchRaw files raw).get (str "slstore") := by
  unfold launchRaw
  rw [h]
  by_cases hraw : raw.get (str "slstore") ≠ []
  · rw [if_pos hraw, if_pos hraw, h]
  · rw [if_neg hraw, if_neg hraw]
    cases files.lookup slstoreFile with
    | none => exact h
    | some data => rw [Dict.get_insert_self, Dict.get_insert_self]

/-- What two launches report alike, they complete alike. -/
theorem launchRaw_same {files : Dict Bytes} {raw raw' : Dict Str} {n : Str}
    (h : raw'.get n = raw.get n) : (launchRaw files raw').get n = (launchRaw files raw).get n := by
  by_cases hn : n = str "slstore"
  · subst hn
    exact launchRaw_get_slstore h
  · rw [launchRaw_get (Or.inl hn), launchRaw_get (Or.inl hn), h]

/-- The file of the helper, which all applications share. -/
def deviceFile : Str := helperFile deviceHelperId

theorem slstoreFile_ne : slstoreFile ≠ deviceFile := by decide +kernel

/-- Creating the secret leaves the helper alone. -/
theorem SecretMade.device {d d' : Dir} (h : SecretMade d d') :
    d'.files.lookup deviceFile = d.files.lookup deviceFile := by
  obtain rfl | ⟨_, v, _, rfl⟩ := h
  · rfl
  · exact d.lookup_write_ne _ slstoreFile_ne.symm

/-- `read_slstore`: nothing changes; a damaged secret raises. -/
theorem readSlstore_run (d : Disk) : (Store.readSlstore : EStateM Exc Disk (Option Bytes)) d =
    if d.fault = .none then
      match d.dir.files.lookup slstoreFile with
      | some data => match unwrapSlstore data with
        | .ok v => .ok (some v) d.next
        | .error e => .error e d.next
      | none => .ok none d.next
    else .error ioError d.next := by
  show (readFile slstoreFile >>= _) d = _
  rw [run_bind, readFile_run]
  by_cases h : d.fault = .none
  · rw [if_pos h, if_pos h]
    dsimp only
    cases d.dir.files.lookup slstoreFile with
    | none => rfl
    | some data =>
      dsimp only
      cases unwrapSlstore data with
      | ok v => rfl
      | error e => rfl
  · rw [if_neg h, if_neg h]

/-- Without failures of the disk. -/
theorem readSlstore_quiet (d : Dir) :
    (Store.readSlstore : EStateM Exc Disk (Option Bytes)) ⟨d, []⟩ =
      match d.files.lookup slstoreFile with
      | some data => match unwrapSlstore data with
        | .ok v => .ok (some v) ⟨d, []⟩
        | .error e => .error e ⟨d, []⟩
      | none => .ok none ⟨d, []⟩ := (readSlstore_run ⟨d, []⟩).trans (if_pos rfl)

/-- A stored secret is a prefixed one of 32 bytes. -/
theorem readSlstore_ensures (d : Disk) :
    Ensures (Store.readSlstore : EStateM Exc Disk (Option Bytes)) d
      (fun r d' => d' = d.next ∧ (r = none ∧ d.dir.files.lookup slstoreFile = none ∨
        ∃ v : Bytes, r = some v ∧ v.length = 32 ∧
          d.dir.files.lookup slstoreFile = some (slstorePrefix ++ v)))
      (fun _ d' => d' = d.next) := by
  unfold Ensures
  rw [readSlstore_run]
  by_cases h : d.fault = .none
  · rw [if_pos h]
    cases hfile : d.dir.files.lookup slstoreFile with
    | none => exact ⟨rfl, Or.inl ⟨rfl, rfl⟩⟩
    | some data =>
      dsimp only
      cases hdata : unwrapSlstore data with
      | error e => rfl
      | ok v =>
        obtain ⟨rfl, hlen⟩ := unwrapSlstore_eq_ok.mp hdata
        exact ⟨rfl, Or.inr ⟨v, rfl, hlen, rfl⟩⟩
  · rw [if_neg h]

/-- `read_helper`: nothing changes. -/
theorem readHelper_run (hid : Str) (d : Disk) :
    (Store.readHelper hid : EStateM Exc Disk (Bytes × Bool)) d = if d.fault = .none then
        .ok (match d.dir.files.lookup (helperFile hid) with
          | some blob => (blob, true)
          | none => ([], false)) d.next
      else .error ioError d.next := by
  show (readFile (helperFile hid) >>= _) d = _
  rw [run_bind, readFile_run]
  by_cases h : d.fault = .none
  · rw [if_pos h, if_pos h]
    dsimp only
    cases d.dir.files.lookup (helperFile hid) with
    | some blob => rfl
    | none => rfl
  · rw [if_neg h, if_neg h]

/-- Without failures a read returns what is stored. -/
theorem readHelper_quiet (hid : Str) (d : Dir) :
    (Store.readHelper hid : EStateM Exc Disk (Bytes × Bool)) ⟨d, []⟩ =
      .ok (match d.files.lookup (helperFile hid) with
        | some blob => (blob, true)
        | none => ([], false)) ⟨d, []⟩ := (readHelper_run hid ⟨d, []⟩).trans (if_pos rfl)

theorem readHelper_ensures (hid : Str) (d : Disk) :
    Ensures (Store.readHelper hid : EStateM Exc Disk (Bytes × Bool)) d
      (fun r d' => d' = d.next ∧ (r.2 = false ∧ d.dir.files.lookup (helperFile hid) = none ∨
        r.2 = true ∧ d.dir.files.lookup (helperFile hid) = some r.1))
      (fun _ d' => d' = d.next) := by
  unfold Ensures
  rw [readHelper_run]
  by_cases h : d.fault = .none
  · rw [if_pos h]
    refine ⟨rfl, ?_⟩
    cases hfile : d.dir.files.lookup (helperFile hid) with
    | none => exact Or.inl ⟨rfl, rfl⟩
    | some blob => exact Or.inr ⟨rfl, rfl⟩
  · rw [if_neg h]

/-- Taking the lock does not touch the files. -/
theorem acquire_run (d : Disk) : ∃ e, (Store.acquire : EStateM Exc Disk Unit) d =
    if d.fault = .none then .ok () d.next else .error e d.next := by
  refine ⟨.osError [.lit "slhwid: storage is busy; retry the operation"],
    (run_bind_ok (nextFault_run d) _).trans ?_⟩
  cases d.fault with
  | none => rfl
  | before => rfl
  | after => rfl

/-- Taking the lock changes no file. -/
theorem acquire_ensures (d : Disk) :
    Ensures (Store.acquire : EStateM Exc Disk Unit) d (fun _ d' => d' = d.next)
      (fun _ d' => d' = d.next) := by
  obtain ⟨e, hrun⟩ := acquire_run d
  unfold Ensures
  rw [hrun]
  by_cases h : d.fault = .none
  · rw [if_pos h]
  · rw [if_neg h]

/-- The read-only injection gives the factors of the launch. -/
theorem injectSlstore_ensures (raw : Dict Str) (hraw : raw.get (str "slstore") = []) (d : Disk) :
    Ensures (injectSlstore raw : EStateM Exc Disk (Dict Str)) d
      (fun r d' => d'.dir = d.dir ∧ r = launchRaw d.dir.files raw ∧
        (r.get (str "slstore") ≠ [] → HasSlstore d.dir.files raw)) (fun _ d' => d'.dir = d.dir) := by
  refine Ensures.bind ((readSlstore_ensures d).mono (fun _ _ h => h) fun _ _ h => by rw [h]; rfl)
    fun r d' hr => ?_
  obtain ⟨rfl, ⟨rfl, hfile⟩ | ⟨v, rfl, hv, hfile⟩⟩ := hr
  · refine ⟨rfl, ?_, fun hne => absurd hraw hne⟩
    rw [launchRaw, if_neg (not_not.mpr hraw), hfile]
  · show Ensures (lift (raiseIf (v.length ≠ 32) wrongSize) >>= _) d.next _ _
    rw [raiseIf_neg (not_not.mpr hv)]
    exact ⟨rfl, (launchRaw_stored hraw hfile).symm, fun _ => Or.inr ⟨v, hv, hfile⟩⟩

/-- `_ensure_slstore`: the secret is read, or created where there was none. -/
theorem ensureSlstore_ensures (w : World Disk) :
    Ensures (ensureSlstore : Prog Disk Str) w
      (fun r w' => SecretMade w.store.dir w'.store.dir ∧
        ∃ v : Bytes, v.length = 32 ∧ r = hexStr v ∧
          w'.store.dir.files.lookup slstoreFile = some (slstorePrefix ++ v))
      (fun _ w' => SecretMade w.store.dir w'.store.dir) := by
  refine Ensures.bind ((onStore_ensures (readSlstore_ensures w.store)).mono (fun _ _ h => h)
    fun _ w' h => Or.inl (by rw [h]; rfl)) fun r w₁ hr => ?_
  -- a stored secret is taken over; without one, 32 bytes are drawn and written
  obtain ⟨hnext, ⟨rfl, hfile⟩ | ⟨v, rfl, hv, hfile⟩⟩ := hr
  · have hsame : ∀ w' : World Disk, w'.store = w₁.store → SecretMade w.store.dir w'.store.dir :=
      fun w' h => Or.inl (by rw [h, hnext]; rfl)
    refine Ensures.bind (Q := fun (_ : Bytes) w₂ => w₂.store = w₁.store)
      ((onSource_ensures (Q := fun _ => True) fun _ _ _ => trivial).mono (fun _ _ h => h.2)
        fun _ w₂ h => hsame w₂ h) fun v w₂ hw₂ => ?_
    -- a source that runs dry gives fewer bytes, which the size check refuses
    refine Ensures.bind (Ensures.lift (Q := fun _ w' => w' = w₂ ∧ v.length = 32)
      (fun _ h => ⟨rfl, not_not.mp (raiseIf_eq_ok.mp h)⟩) fun _ _ => hsame w₂ hw₂) fun _ w₃ hv => ?_
    obtain ⟨rfl, hv⟩ := hv
    have hmade : ∀ d', d' = w₃.store.dir.write slstoreFile (slstorePrefix ++ v) →
        SecretMade w.store.dir d' := fun d' hw =>
      Or.inr ⟨hfile, v, hv, by rw [hw, hw₂, hnext]; rfl⟩
    refine Ensures.bind (onStore_ensures (writeFile_ensures slstoreFile (slstorePrefix ++ v) w₃.store)
      |>.mono (fun _ _ h => h) fun _ w' h => ?_) fun _ w₄ hw => ?_
    · rcases h.1 with h | h
      · exact Or.inl (by rw [h, hw₂, hnext]; rfl)
      · exact hmade _ h
    · exact ⟨hmade _ hw.1, v, hv, rfl, by rw [hw.1]; exact Dir.lookup_write_self _ _ _⟩
  · show Ensures (lift (raiseIf (v.length ≠ 32) wrongSize) >>= _) w₁ _ _
    rw [raiseIf_neg (not_not.mpr hv)]
    exact ⟨Or.inl (by rw [hnext]; rfl), v, hv, rfl, by rw [hnext]; exact hfile⟩

/-- Enrollment works with the factors of the launch, after creating the secret if needed. -/
theorem withSlstore_ensures (raw : Dict Str) (w : World Disk) :
    Ensures (withSlstore raw : Prog Disk (Dict Str)) w
      (fun r w' => SecretMade w.store.dir w'.store.dir ∧
        HasSlstore w'.store.dir.files raw ∧ r = launchRaw w'.store.dir.files raw)
      (fun _ w' => SecretMade w.store.dir w'.store.dir) := by
  unfold withSlstore
  by_cases hraw : raw.get (str "slstore") ≠ []
  · rw [if_pos hraw]
    exact ⟨Or.inl rfl, Or.inl hraw, (launchRaw_reported hraw).symm⟩
  · rw [if_neg hraw]
    refine Ensures.bind (ensureSlstore_ensures w) fun r w' h => ?_
    obtain ⟨hmade, v, hv, rfl, hfile⟩ := h
    exact ⟨hmade, Or.inr ⟨v, hv, hfile⟩, (launchRaw_stored (not_not.mp hraw) hfile).symm⟩

/-! ## The steps in front of the sharing -/

theorem length_slotList (F : Dict Str) (M : Finset Str) :
    (slotList F M).length = F.keys.length := by
  rw [slotList, List.length_map, length_sortedKeys]

theorem count_slotList {F : Dict Str} {M : Finset Str} (hM : ∀ n ∈ M, n ∈ F) :
    ((slotList F M).filter Slot.mandatory).length = M.card := by
  rw [slotList, List.filter_map, List.length_map, ← length_filter_sortedKeys hM]
  rfl

/-- A key is drawn reduced. -/
theorem drawKey_reduced {d d' : Bytes} {k : Limbs} (h : drawKey d = .ok k d') : k.Reduced := by
  obtain ⟨_, _, ha, h⟩ := run_bind_eq_ok.mp h
  obtain ⟨_, _, hb, h⟩ := run_bind_eq_ok.mp h
  obtain ⟨_, _, hc, h⟩ := run_bind_eq_ok.mp h
  obtain ⟨_, _, he, h⟩ := run_bind_eq_ok.mp h
  cases h
  intro i
  fin_cases i
  · exact drawElem_lt ha
  · exact drawElem_lt hb
  · exact drawElem_lt hc
  · exact drawElem_lt he

/-- The check is passed exactly if every hard lock has a value. -/
theorem checkMandatory_eq_ok {factors : Dict Str} {mandatory : Finset Str} :
    checkMandatory factors mandatory = .ok () ↔ ∀ n ∈ mandatory, factors.get n ≠ [] := by
  rw [checkMandatory, forM_eq_ok]
  constructor
  · intro h n hn
    exact raiseIf_eq_ok.mp (h n (mem_sortedSet.mpr hn))
  · intro h n hn
    exact raiseIf_neg (h n (mem_sortedSet.mp hn))

section Hashing

variable [Sha256]

/-! ## Dealt helpers -/

/-- `blob` was written by `serialize_helper` for shares of `k` over `F`, hard-locking `M`. -/
def Dealt (k : Limbs) (F : Dict Str) (M : Finset Str) (blob : Bytes) : Prop :=
  ∃ (shares : Dict Limbs) (t salt : Nat), k.Reduced ∧ (∀ n ∈ F, F.get n ≠ []) ∧ (∀ n ∈ M, n ∈ F) ∧
    threshold F.keys.length M.card = .ok t ∧
    Writable shares M t salt (checkWordOf k) currentNormVersion ∧
    serializeHelper shares M t salt (checkWordOf k) currentNormVersion = .ok blob ∧
    Nonempty (Sharing k t salt F shares)

/-- The sharing steps of enrollment and refresh deal a helper. -/
theorem dealt_of_run {k : Limbs} (hk : k.Reduced) {F : Dict Str}
    (hF : SlotsIn (allowedNames currentNormVersion) F) {M : Finset Str} (hslstore : str "slstore" ∈ M)
    (hM : ∀ n ∈ M, F.get n ≠ []) {t : Nat} (ht : threshold F.keys.length M.card = .ok t)
    {d d' : Bytes} {shares : Dict Limbs} {salt : Nat}
    (hb : buildShares k (slotList F M) t d = .ok (shares, salt) d') {blob : Bytes}
    (hser : serializeHelper shares M t salt (checkWordOf k) currentNormVersion = .ok blob) :
    Dealt k F M blob := by
  obtain ⟨_, _, hm, hle, _⟩ := threshold_spec ht
  have hMF : ∀ n ∈ M, n ∈ F := fun n hn => Dict.mem_of_get_ne_nil (hM n hn)
  obtain ⟨hsalt, _, _, S, _⟩ := buildShares_sharing hk (by omega) hb
  exact ⟨shares, t, salt, hk, fun n hn => (hF n hn).2, hMF, ht,
    S.writable (Or.inr rfl) hsalt hF hslstore hMF hm hle, hser, ⟨S⟩⟩

theorem Dealt.reduced {k : Limbs} {F : Dict Str} {M : Finset Str} {blob : Bytes}
    (hd : Dealt k F M blob) : k.Reduced := by
  obtain ⟨_, _, _, hk, _⟩ := hd
  exact hk

/-- **A dealt helper is readable**, and what is read is what was dealt. -/
theorem Dealt.helper {k : Limbs} {F : Dict Str} {M : Finset Str} {blob : Bytes}
    (hd : Dealt k F M blob) :
    ∃ h, parseHelper blob = .ok h ∧ h.normVersion = currentNormVersion ∧
      h.checkWord = checkWordOf k ∧ h.mandatory = M ∧ h.slots.length = F.keys.length ∧
      h.mandatoryCount = M.card ∧ threshold F.keys.length M.card = .ok h.threshold ∧
      Nonempty (h.Splits k F M) := by
  obtain ⟨shares, t, salt, hk, hF, hM, ht, hw, hser, ⟨S⟩⟩ := hd
  let h := helperOf shares M t salt (checkWordOf k) currentNormVersion
  -- the shares have the names of the factors, and so do the slots of the helper
  have hkeys : sortedKeys shares = sortedKeys F := sortedKeys_congr S.mem_shares
  have hblob : blob = h.bytes := Except.ok.inj (hser.symm.trans (serializeHelper_eq hw))
  refine ⟨h, by rw [hblob]; exact parseHelper_bytes hw.valid, rfl, rfl, ?_, ?_, ?_, ht,
    ⟨S.splits hk hF M _⟩⟩
  · -- what is read back as hard-locked is what was asked for, since all of it is shared
    ext n
    rw [Helper.mandatory, List.mem_toFinset, List.mem_map]
    constructor
    · rintro ⟨s, hs, rfl⟩
      obtain ⟨hs, hm⟩ := List.mem_filter.mp hs
      obtain ⟨n, _, rfl⟩ := List.mem_map.mp hs
      exact of_decide_eq_true hm
    · intro hn
      exact ⟨_, List.mem_filter.mpr ⟨List.mem_map_of_mem (hkeys ▸ mem_sortedKeys.mpr (hM n hn)),
        decide_eq_true hn⟩, rfl⟩
  · show ((sortedKeys shares).map _).length = _
    rw [List.length_map, hkeys, length_sortedKeys]
  · rw [helperOf_mandatoryCount, hkeys]
    exact length_filter_sortedKeys hM

/-- **When `refresh_core` has work to do**: every hard lock has a value, and the slots have a
    threshold. -/
theorem refreshCore_cases (k : Limbs) (F : Dict Str) (M : Finset Str) :
    refreshCore k F M = pure none ∨
    ∃ t, (∀ n ∈ M, F.get n ≠ []) ∧ threshold F.keys.length M.card = .ok t ∧
      refreshCore k F M = (do
        let (shares, salt) ← buildShares k (slotList F M) t
        let cw ← lift (checkWord k)
        let blob ← lift (serializeHelper shares M t salt cw currentNormVersion)
        return some blob) := by
  unfold refreshCore
  by_cases hall : ∃ name ∈ M, F.get name = []
  · rw [if_pos hall]
    exact Or.inl rfl
  rw [if_neg hall]
  have hM : ∀ n ∈ M, F.get n ≠ [] := fun n hn hnil => hall ⟨n, hn, hnil⟩
  have hMF : ∀ n ∈ M, n ∈ F := fun n hn => Dict.mem_of_get_ne_nil (hM n hn)
  dsimp only
  rw [length_slotList, count_slotList hMF]
  cases ht : threshold F.keys.length M.card with
  | error e =>
    dsimp only
    rw [if_pos (threshold_error ht)]
    exact Or.inl rfl
  | ok t => exact Or.inr ⟨t, hM, rfl, rfl⟩

/-- **`refresh_core`** writes dealt helpers over its factors, or nothing. -/
theorem refreshCore_ensures {k : Limbs} (hk : k.Reduced) {F : Dict Str}
    (hF : SlotsIn (allowedNames currentNormVersion) F) {M : Finset Str}
    (hslstore : str "slstore" ∈ M) {d d' : Bytes} {blob : Bytes}
    (h : refreshCore k F M d = .ok (some blob) d') : Dealt k F M blob := by
  rcases refreshCore_cases k F M with hnone | ⟨t, hM, ht, heq⟩
  · rw [hnone] at h
    cases h
  rw [heq] at h
  obtain ⟨⟨shares, salt⟩, d₁, hb, h⟩ := run_bind_eq_ok.mp h
  obtain ⟨cw, d₂, hcw, h⟩ := run_bind_eq_ok.mp h
  obtain ⟨b, d₃, hser, h⟩ := run_bind_eq_ok.mp h
  cases h
  have hcw := (lift_eq_ok.mp hcw).1
  rw [checkWord_ok hk] at hcw
  obtain rfl := Except.ok.inj hcw
  exact dealt_of_run hk hF hslstore hM ht hb (lift_eq_ok.mp hser).1

/-! ## Enrollment -/

/-- What an enrollment has worked out before it writes the helper. -/
structure Deal where
  /-- The values the key is shared over. -/
  factors : Dict Str
  mandatory : Finset Str
  key : Limbs
  /-- The helper that was written. -/
  blob : Bytes

/-- The steps of `enroll` between the secret and the helper: they draw, and touch no store. -/
def deal (raw : Dict Str) (requested : Finset Str) : DrawM Deal := do
  let factors ← lift (projectFactors raw currentNormVersion)
  lift (checkMandatory factors (mapMandatoryToCurrent requested))
  let t ← lift (threshold factors.keys.length (mapMandatoryToCurrent requested).card)
  let k ← drawKey
  let p ← buildShares k (slotList factors (mapMandatoryToCurrent requested)) t
  let cw ← lift (checkWord k)
  let blob ← lift (serializeHelper p.1 (mapMandatoryToCurrent requested) t p.2 cw currentNormVersion)
  return ⟨factors, mapMandatoryToCurrent requested, k, blob⟩

/-- The session of an enrollment. -/
def Deal.session (p : Deal) (hwid : Str) : Session where
  hwid := hwid
  fresh := true
  drifted := []
  pending := false
  key := some p.key
  factors := p.factors
  mandatory := p.mandatory
  expectedHelper := p.blob

/-- The steps behind them: the helper is written, and the session made. -/
def finishEnroll {σ : Type} [Store σ] (hid : Str) (p : Deal) : Prog σ Session := do
  onStore (Store.writeHelper hid p.blob)
  let hwid ← lift (hwidOf p.key)
  return p.session hwid

/-- **Enrollment in three parts**: the secret, the deal, the helper. -/
theorem enroll_eq {σ : Type} [Store σ] (raw : Dict Str) (requested : Finset Str) (hid : Str) :
    (enroll raw requested hid : Prog σ Session) =
      withSlstore raw >>= fun raw => onSource (deal raw requested) >>= finishEnroll hid := by
  simp only [enroll, deal, finishEnroll, Deal.session, onSource_bind, onSource_lift, bind_assoc,
    onSource_pure, pure_bind]

/-- What was dealt. -/
theorem deal_eq_ok {raw : Dict Str} {requested : Finset Str} (hreq : str "slstore" ∈ requested)
    {d d' : Bytes} {p : Deal} (h : deal raw requested d = .ok p d') :
    projectFactors raw currentNormVersion = .ok p.factors ∧
      p.mandatory = mapMandatoryToCurrent requested ∧ Dealt p.key p.factors p.mandatory p.blob := by
  obtain ⟨F, _, hF, h⟩ := run_bind_eq_ok.mp h
  obtain ⟨_, _, hM, h⟩ := run_bind_eq_ok.mp h
  obtain ⟨t, _, ht, h⟩ := run_bind_eq_ok.mp h
  obtain ⟨k, _, hk, h⟩ := run_bind_eq_ok.mp h
  obtain ⟨⟨shares, salt⟩, _, hb, h⟩ := run_bind_eq_ok.mp h
  obtain ⟨cw, _, hcw, h⟩ := run_bind_eq_ok.mp h
  obtain ⟨blob, _, hser, h⟩ := run_bind_eq_ok.mp h
  cases h
  have hF := (lift_eq_ok.mp hF).1
  have hk := drawKey_reduced hk
  have hcw := (lift_eq_ok.mp hcw).1
  rw [checkWord_ok hk] at hcw
  obtain rfl := Except.ok.inj hcw
  exact ⟨hF, rfl, dealt_of_run hk (projectFactors_spec hF) (slstore_mem_map hreq)
    (checkMandatory_eq_ok.mp (lift_eq_ok.mp hM).1) (lift_eq_ok.mp ht).1 hb (lift_eq_ok.mp hser).1⟩

/-- What an enrollment leaves behind: the secret, then the dealt helper of the session's key. -/
structure Enrolled (raw : Dict Str) (file : Str) (d d' : Dir) (s : Session) : Prop where
  /-- The helper is a deal of the session's key. -/
  dealt : ∃ k, Dealt k s.factors s.mandatory s.expectedHelper ∧ s.hwid = hwidStr k ∧ s.key = some k
  /-- At most the secret was made, then the helper written. -/
  stored : ∃ d₁, SecretMade d d₁ ∧ d' = d₁.write file s.expectedHelper ∧ HasSlstore d₁.files raw ∧
    projectFactors (launchRaw d₁.files raw) currentNormVersion = .ok s.factors
  /-- It can be committed. -/
  open_ : s.committed = false

/-- What a failed enrollment may leave behind. -/
def EnrollFailed (file : Str) (d d' : Dir) : Prop :=
  ∃ d₁, SecretMade d d₁ ∧
    (d' = d₁ ∨ ∃ k F M blob, Dealt k F M blob ∧ d' = d₁.write file blob)

/-- **An enrollment** that returns has stored the helper of its session; one that raises has left the
    helper alone or has written one whose session is lost. -/
theorem enroll_ensures (raw : Dict Str) {requested : Finset Str} (hreq : str "slstore" ∈ requested)
    (hid : Str) (w : World Disk) :
    Ensures (enroll raw requested hid : Prog Disk Session) w
      (fun s w' => Enrolled raw (helperFile hid) w.store.dir w'.store.dir s)
      (fun _ w' => EnrollFailed (helperFile hid) w.store.dir w'.store.dir) := by
  rw [enroll_eq]
  refine Ensures.bind ((withSlstore_ensures raw w).mono (fun _ _ h => h)
    fun _ _ h => ⟨_, h, Or.inl rfl⟩) fun raw' w₁ h => ?_
  obtain ⟨hmade, hhas, rfl⟩ := h
  -- until the helper is written, a failure leaves only the secret behind
  refine Ensures.bind ((onSource_ensures fun p d' (hp : deal _ _ _ = .ok p d') =>
    deal_eq_ok hreq hp).mono (fun _ _ h => h) fun _ w' h => ⟨_, hmade, Or.inl (by rw [h])⟩)
    fun p w₂ h => ?_
  obtain ⟨⟨hF, hM, hdealt⟩, hw₂⟩ := h
  refine Ensures.bind (onStore_ensures (writeFile_ensures (helperFile hid) p.blob w₂.store)
    |>.mono (fun _ _ h => h) fun _ w' h => ?_) fun _ w₃ hw => ?_
  · rw [hw₂] at h
    rcases h.1 with hsame | hwrote
    · exact ⟨_, hmade, Or.inl hsame⟩
    · exact ⟨_, hmade, Or.inr ⟨_, _, _, _, hdealt, hwrote⟩⟩
  · rw [hw₂] at hw
    rw [hwidOf_ok hdealt.reduced, lift_ok_bind]
    exact {
      dealt := ⟨p.key, hdealt, rfl, rfl⟩
      stored := ⟨_, hmade, hw.1, hhas, hF⟩
      open_ := rfl }

/-! ## Recovery -/

/-- What a recovered session holds. -/
structure Recovered (raw : Dict Str) (blob : Bytes) (s : Session) (h : Helper) (k : Limbs) : Prop where
  /-- The stored helper is accepted .. -/
  parsed : parseHelper blob = .ok h
  reduced : k.Reduced
  /-- .. and the key is the one of its check word. -/
  word : checkWordOf k = h.checkWord
  hwid : s.hwid = hwidStr k
  key : s.key = some k
  /-- The values are the machine's, in the current version. -/
  factors : projectFactors raw currentNormVersion = .ok s.factors
  /-- The mandatory set is the helper's, carried over. -/
  mandatory : s.mandatory = mapMandatoryToCurrent h.mandatory
  /-- The session remembers the helper byte by byte. -/
  expected : s.expectedHelper = blob
  /-- The secret was readable. -/
  slstore : raw.get (str "slstore") ≠ []
  /-- It can be committed. -/
  open_ : s.committed = false

/-- **A recovery that returned** has read the helper and found its key. -/
theorem recoverSession_eq_ok {raw : Dict Str} {blob : Bytes} {s : Session}
    (hrun : recoverSession raw blob = .ok s) : ∃ h k, Recovered raw blob s h k := by
  unfold recoverSession at hrun
  obtain ⟨h, hparse, hrun⟩ := bind_eq_ok.mp hrun
  -- the handler around the parser turns one error into another, and lets a helper through
  have hparse' : parseHelper blob = .ok h := by
    unfold parseStored at hparse
    cases hp : parseHelper blob with
    | ok h' => rw [hp] at hparse; exact hparse
    | error e => rw [hp] at hparse; cases hparse
  obtain ⟨recovery, hrecovery, hrun⟩ := bind_eq_ok.mp hrun
  obtain ⟨r, hr, hrun⟩ := bind_eq_ok.mp hrun
  obtain ⟨_, hok, hrun⟩ := bind_eq_ok.mp hrun
  obtain ⟨factors, hfactors, hrun⟩ := bind_eq_ok.mp hrun
  obtain rfl := Except.ok.inj hrun
  have hok : r.ok = true := not_not.mp (raiseIf_eq_ok.mp hok)
  have hr' : recoverHelper h recovery = .ok r := by
    rw [recoverCore, hparse'] at hr; exact hr
  obtain ⟨k, hkey, hk, hword, hhwid⟩ := recoverHelper_sound hr' hok
  -- every parsed helper hard-locks the secret, so a recovery that succeeded has seen it
  obtain ⟨slot, hslot, hname, hmand⟩ := (parseHelper_eq_ok hparse').1.slstore
  have hpres := recoverHelper_present hr' hok slot hslot hmand
  rw [hname, projectFactors_slstore hrecovery] at hpres
  exact ⟨h, k, {
    parsed := hparse', reduced := hk, word := hword, hwid := hhwid, key := hkey
    factors := hfactors, mandatory := rfl, expected := rfl, slstore := hpres, open_ := rfl }⟩

/-- **A dealt helper recovers without drift** on the factors it was dealt over. -/
theorem Dealt.recoverSession {k : Limbs} {F : Dict Str} {M : Finset Str} {blob : Bytes}
    (hd : Dealt k F M blob) {raw : Dict Str} (hF : projectFactors raw currentNormVersion = .ok F) :
    ∃ session, recoverSession raw blob = .ok session ∧ session.hwid = hwidStr k ∧
      session.drifted = [] ∧ session.pending = false ∧ session.fresh = false := by
  obtain ⟨h, hparse, hnorm, _, _, _, _, _, ⟨S⟩⟩ := hd.helper
  have hvalid := (parseHelper_eq_ok hparse).1
  have hp : Placed h.slots h.salt F S.x := {
    nodup := hvalid.names_nodup
    derive := fun s hs _ => S.deriveX_eq s hs
    inj := fun s hs s' hs' _ _ hx => S.x_inj s hs s' hs' hx }
  obtain ⟨r, hr, hok, _, hid, hnil, hpend⟩ := S.recovers_same hp hvalid.threshold_le
  have hcore : recoverCore blob F = .ok r := by
    rw [recoverCore, hparse]; exact hr
  refine ⟨{ hwid := r.hwid, fresh := false, drifted := r.dead, pending := r.pending, key := r.key,
            factors := F, mandatory := mapMandatoryToCurrent h.mandatory, expectedHelper := blob },
    ?_, hid, hnil, hpend, rfl⟩
  rw [Slhwid.recoverSession, parseStored, hparse, ok_bind, hnorm, hF, ok_bind, hcore, ok_bind,
    raiseIf_neg (not_not.mpr hok), ok_bind]
  rfl

/-- A recovered session is not a fresh one. -/
theorem recoverSession_fresh {raw : Dict Str} {blob : Bytes} {s : Session}
    (h : recoverSession raw blob = .ok s) : s.fresh = false := by
  obtain ⟨_, _, h⟩ := bind_eq_ok.mp h
  obtain ⟨_, _, h⟩ := bind_eq_ok.mp h
  obtain ⟨_, _, h⟩ := bind_eq_ok.mp h
  obtain ⟨_, _, h⟩ := bind_eq_ok.mp h
  obtain ⟨_, _, h⟩ := bind_eq_ok.mp h
  obtain rfl := Except.ok.inj h
  rfl

/-! ## `prepare` -/

section Dispatch

variable {σ : Type} [Store σ] {o : Options} {hid : Str} {w w' : World σ} {blob : Bytes} {found : Bool}

/-- Nothing stored, or forced: the reported factors are enrolled as they are. -/
theorem prepareLocked_enroll (hread : onStore (Store.readHelper hid) w = .ok (blob, found) w')
    (h : found = false ∨ o.forceReenroll = true) (raw : Dict Str) (requested : Finset Str) :
    prepareLocked o raw requested hid w = enroll raw requested hid w' := by
  unfold prepareLocked
  rw [run_bind_ok hread]
  dsimp only
  have hcond : ¬ (found = true ∧ ¬ o.forceReenroll = true ∧ raw.get (str "slstore") = []) := by
    rintro ⟨hfound, hforce, _⟩
    rcases h with h | h
    · rw [h] at hfound
      cases hfound
    · exact hforce h
  rw [completeRaw, if_neg hcond, pure_bind, if_pos (h.imp (fun h => by rw [h]; decide) id)]

/-- Otherwise the stored helper is recovered from. -/
theorem prepareLocked_recover (hread : onStore (Store.readHelper hid) w = .ok (blob, true) w')
    (h : o.forceReenroll = false) (raw : Dict Str) (requested : Finset Str) :
    prepareLocked o raw requested hid w =
      (completeRaw o true raw >>= fun raw => lift (recoverSession raw blob) : Prog σ Session) w' := by
  have hbranch : ¬ (¬ true = true ∨ o.forceReenroll = true) := by rw [h]; decide
  have hrecover : (fun raw => if ¬ true = true ∨ o.forceReenroll = true then enroll raw requested hid
      else lift (recoverSession raw blob)) =
      fun raw => (lift (recoverSession raw blob) : Prog σ Session) := funext fun _ => if_neg hbranch
  rw [← hrecover]
  unfold prepareLocked
  rw [run_bind_ok hread]

end Dispatch

omit [Sha256] in
/-- The stored secret is asked for as a hard lock whether the caller names it or not. -/
theorem requestedMandatory_slstore {extra : List Str} {M : Finset Str}
    (h : requestedMandatory extra = .ok M) : str "slstore" ∈ M := by
  refine foldlM_inv (fun _ M => str "slstore" ∈ M) (fun _ _ _ M' _ hin hstep => ?_)
    (Finset.mem_singleton_self _) h
  obtain ⟨_, _, hstep⟩ := bind_eq_ok.mp hstep
  obtain rfl := Except.ok.inj hstep
  exact Finset.mem_insert_of_mem hin

/-- A call enrolls when no helper is stored or re-enrollment is forced. -/
def Enrolling (o : Options) (d : Dir) : Prop :=
  o.forceReenroll = true ∨ d.files.lookup deviceFile = none

omit [Sha256] in
/-- Completed, the reported factors are those of the launch. -/
theorem completeRaw_ensures {o : Options} (hforce : o.forceReenroll = false) (nf : Dict Str)
    (w : World Disk) :
    Ensures (completeRaw o true nf : Prog Disk (Dict Str)) w
      (fun raw w' => w'.store.dir = w.store.dir ∧ raw = launchRaw w.store.dir.files nf ∧
        (raw.get (str "slstore") ≠ [] → HasSlstore w.store.dir.files nf))
      (fun _ w' => w'.store.dir = w.store.dir) := by
  unfold completeRaw
  by_cases hnil : nf.get (str "slstore") = []
  · rw [if_pos ⟨rfl, by rw [hforce]; decide, hnil⟩]
    exact onStore_ensures (injectSlstore_ensures nf hnil w.store)
  · rw [if_neg fun h => hnil h.2.2]
    exact ⟨rfl, (launchRaw_reported hnil).symm, fun _ => Or.inl hnil⟩

/-- `prepare` recovers: over the stored helper and the factors of the launch, the files untouched. -/
def RecoversStored (o : Options) (w : World Disk) (nf : Dict Str)
    (r : EStateM.Result Exc (World Disk) Session) : Prop :=
  o.forceReenroll = false ∧ ∃ blob w', w.store.dir.files.lookup deviceFile = some blob ∧
    w'.store.dir = w.store.dir ∧
    ((launchRaw w.store.dir.files nf).get (str "slstore") ≠ [] → HasSlstore w.store.dir.files nf) ∧
    r = lift (recoverSession (launchRaw w.store.dir.files nf) blob) w'

/-- **What `prepare` does**, all of it: it raises over untouched files, or enrolls behind two
    operations of the store, or recovers. -/
theorem prepareWith_cases (o : Options) (collected : Dict Str) (w : World Disk) :
    (∃ e w', prepareWith o collected w = .error e w' ∧ w'.store.dir = w.store.dir) ∨
    ∃ M nf, requestedMandatory o.extraMandatory = .ok M ∧ normalizeFactors collected = .ok nf ∧
      (Enrolling o w.store.dir ∧ prepareWith o collected w =
          enroll nf M deviceHelperId ⟨w.store.next.next, w.source⟩ ∨
        RecoversStored o w nf (prepareWith o collected w)) := by
  cases hM : requestedMandatory o.extraMandatory with
  | error e => exact Or.inl ⟨e, w, by rw [prepareWith, hM]; rfl, rfl⟩
  | ok M =>
  cases hnf : normalizeFactors collected with
  | error e => exact Or.inl ⟨e, w, by rw [prepareWith, hM, lift_ok_bind, hnf]; rfl, rfl⟩
  | ok nf =>
  have hrun : prepareWith o collected w = (onStore Store.acquire >>= fun _ =>
      prepareLocked o nf M deviceHelperId : Prog Disk Session) w := by
    rw [prepareWith, hM, lift_ok_bind, hnf, lift_ok_bind]
  obtain ⟨busy, hlock⟩ := acquire_run w.store
  have hread := readHelper_run deviceHelperId w.store.next
  by_cases hfree : w.store.fault = .none
  swap
  · rw [if_neg hfree] at hlock
    exact Or.inl ⟨busy, ⟨w.store.next, w.source⟩, by rw [hrun, run_bind, onStore_error hlock], rfl⟩
  rw [if_pos hfree] at hlock
  rw [run_bind_ok (onStore_ok hlock)] at hrun
  by_cases hseen : w.store.next.fault = .none
  swap
  · rw [if_neg hseen] at hread
    exact Or.inl ⟨ioError, ⟨w.store.next.next, w.source⟩,
      by rw [hrun, prepareLocked, run_bind, onStore_error hread], rfl⟩
  rw [if_pos hseen] at hread
  have hfile : w.store.next.dir.files.lookup (helperFile deviceHelperId) =
      w.store.dir.files.lookup deviceFile := rfl
  rw [hfile] at hread
  by_cases henroll : Enrolling o w.store.dir
  · -- enrollment: the reported factors are used as they are
    refine Or.inr ⟨M, nf, rfl, rfl, Or.inl ⟨henroll, hrun.trans
      (prepareLocked_enroll (onStore_ok hread) (henroll.symm.imp (fun hnone => ?_) id) nf M)⟩⟩
    rw [hnone]
  · -- recovery: the stored secret completes the factors
    obtain ⟨hforce, hsome⟩ := not_or.mp henroll
    rw [Bool.not_eq_true] at hforce
    obtain ⟨blob, hblob⟩ := Option.ne_none_iff_exists'.mp hsome
    rw [hblob] at hread
    rw [prepareLocked_recover (onStore_ok hread) hforce] at hrun
    have hraw := completeRaw_ensures hforce nf ⟨w.store.next.next, w.source⟩
    cases hcomplete : completeRaw o true nf (⟨w.store.next.next, w.source⟩ : World Disk) with
    | error e w' =>
      exact Or.inl ⟨e, w', by rw [hrun, run_bind, hcomplete], hraw.of_error hcomplete⟩
    | ok raw w' =>
      obtain ⟨hsame, rfl, hhas⟩ := hraw.of_ok hcomplete
      exact Or.inr ⟨M, nf, rfl, rfl, Or.inr ⟨hforce, blob, w', hblob, hsame, hhas,
        hrun.trans (run_bind_ok hcomplete _)⟩⟩

/-- **`prepare`** returns a recovered session without touching the store, or an enrolled one; where
    it raises, the store is untouched or it was enrolling. -/
theorem prepareWith_ensures (o : Options) (collected : Dict Str) (w : World Disk) :
    Ensures (prepareWith o collected : Prog Disk Session) w
      (fun s w' => ∃ nf, normalizeFactors collected = .ok nf ∧
        ((o.forceReenroll = false ∧ w'.store.dir = w.store.dir ∧ HasSlstore w.store.dir.files nf ∧
            ∃ blob h k, w.store.dir.files.lookup deviceFile = some blob ∧
              Recovered (launchRaw w.store.dir.files nf) blob s h k) ∨
          (Enrolling o w.store.dir ∧ Enrolled nf deviceFile w.store.dir w'.store.dir s)))
      (fun _ w' => w'.store.dir = w.store.dir ∨
        (Enrolling o w.store.dir ∧ EnrollFailed deviceFile w.store.dir w'.store.dir)) := by
  unfold Ensures
  obtain ⟨e, w', hrun, hsame⟩ | ⟨M, nf, hM, hnf, ⟨henroll, hrun⟩ |
    ⟨hforce, blob, w', hblob, hsame, hhas, hrun⟩⟩ := prepareWith_cases o collected w
  · rw [hrun]
    exact Or.inl hsame
  · rw [hrun]
    exact (enroll_ensures nf (requestedMandatory_slstore hM) deviceHelperId _).mono
      (fun s w' hs => ⟨nf, hnf, Or.inr ⟨henroll, hs⟩⟩) fun _ w' hf => Or.inr ⟨henroll, hf⟩
  · rw [hrun]
    refine Ensures.lift (fun s hs => ?_) fun _ _ => Or.inl hsame
    obtain ⟨h, k, hrec⟩ := recoverSession_eq_ok hs
    exact ⟨nf, hnf, Or.inl ⟨hforce, hsame, hhas hrec.slstore, blob, h, k, hblob, hrec⟩⟩

omit [Sha256] in
/-- On a quiet disk the factors of a launch are completed from the files, which stay as they are. -/
theorem completeRaw_run {d : Dir} {nf : Dict Str} (hhas : HasSlstore d.files nf) (extra : List Str)
    (source : Bytes) :
    (completeRaw ⟨extra, false⟩ true nf : Prog Disk (Dict Str)) ⟨⟨d, []⟩, source⟩ =
      .ok (launchRaw d.files nf) ⟨⟨d, []⟩, source⟩ := by
  unfold completeRaw
  by_cases hnil : nf.get (str "slstore") = []
  · obtain ⟨v, hv, hfile⟩ := hhas.resolve_left (not_not.mpr hnil)
    have hread := readSlstore_quiet d
    rw [hfile] at hread
    dsimp only at hread
    rw [unwrapSlstore_eq_ok.mpr ⟨rfl, hv⟩] at hread
    have hinject : (injectSlstore nf : EStateM Exc Disk (Dict Str)) ⟨d, []⟩ =
        .ok (launchRaw d.files nf) ⟨d, []⟩ := by
      refine (run_bind_ok hread _).trans ?_
      dsimp only
      rw [raiseIf_neg (not_not.mpr hv), lift_ok_bind, launchRaw_stored hnil hfile]
      rfl
    rw [if_pos ⟨rfl, Bool.false_ne_true, hnil⟩]
    unfold onStore
    rw [hinject]
  · rw [if_neg fun h => hnil h.2.2, launchRaw_reported hnil]
    rfl

/-- **`prepare` without failures**, on a stored helper: it recovers from the helper and the factors
    of the launch, and leaves everything as it is. -/
theorem prepareWith_run {extra : List Str} {M : Finset Str} (hM : requestedMandatory extra = .ok M)
    {collected nf : Dict Str} (hnf : normalizeFactors collected = .ok nf) {d : Dir} {blob : Bytes}
    (hfile : d.files.lookup deviceFile = some blob) (hhas : HasSlstore d.files nf) (source : Bytes) :
    prepareWith ⟨extra, false⟩ collected (⟨⟨d, []⟩, source⟩ : World Disk) =
      lift (recoverSession (launchRaw d.files nf) blob) (⟨⟨d, []⟩, source⟩ : World Disk) := by
  have hread : onStore (Store.readHelper deviceHelperId) (⟨⟨d, []⟩, source⟩ : World Disk) =
      .ok (blob, true) ⟨⟨d, []⟩, source⟩ := by
    have hread := readHelper_quiet deviceHelperId d
    rw [show d.files.lookup (helperFile deviceHelperId) = some blob from hfile] at hread
    exact onStore_ok hread
  have hlock : onStore Store.acquire (⟨⟨d, []⟩, source⟩ : World Disk) = .ok () ⟨⟨d, []⟩, source⟩ := rfl
  unfold prepareWith
  rw [hM, lift_ok_bind, hnf, lift_ok_bind]
  refine (run_bind_ok hlock _).trans ((prepareLocked_recover hread rfl nf M).trans ?_)
  exact run_bind_ok (completeRaw_run hhas extra source) _

/-! ## `commit` -/

/-- What a commit may do to the files: nothing, or replace the helper its session was prepared from
    by a refreshed one. -/
def Refreshed (s : Session) (d d' : Dir) : Prop :=
  d' = d ∨ ∃ k blob, s.key = some k ∧ s.committed = false ∧
    d.files.lookup deviceFile = some s.expectedHelper ∧ Dealt k s.factors s.mandatory blob ∧
    d' = d.write deviceFile blob

/-- **A commit** under the lock leaves the helper alone or replaces it by one that is dealt over the
    factors of the session, with the hard locks of the session; in the session itself only what was
    pending changes. -/
theorem commitLocked_ensures {s : Session} {k : Limbs} (hkey : s.key = some k)
    (hopen : s.committed = false) (hk : k.Reduced)
    (hF : SlotsIn (allowedNames currentNormVersion) s.factors) (hslstore : str "slstore" ∈ s.mandatory)
    (w : World Disk) :
    Ensures (commitLocked s k : Prog Disk Session) w
      (fun s' w' => (s' = s ∨ s' = { s with pending := false, drifted := [] }) ∧
        Refreshed s w.store.dir w'.store.dir)
      (fun _ w' => Refreshed s w.store.dir w'.store.dir) := by
  -- nothing is written before the refresh has been drawn
  refine Ensures.bind ((onStore_ensures (acquire_ensures w.store)).mono (fun _ _ h => h)
    fun _ _ h => Or.inl (by rw [h]; rfl)) fun _ w₁ hlock => ?_
  refine Ensures.bind ((onStore_ensures (readHelper_ensures deviceHelperId w₁.store)).mono
    (fun _ _ h => h) fun _ _ h => Or.inl (by rw [h, hlock]; rfl)) fun r w₂ h => ?_
  obtain ⟨hread, hr⟩ := h
  have hsame : w₂.store.dir = w.store.dir := by rw [hread, hlock]; rfl
  obtain ⟨current, found⟩ := r
  dsimp only at hr ⊢
  rw [hlock, show w.store.next.dir = w.store.dir from rfl] at hr
  -- another launch has replaced the helper: the commit keeps its hands off
  by_cases hstale : ¬ found = true ∨ current ≠ s.expectedHelper
  · rw [if_pos hstale]
    exact ⟨Or.inl rfl, Or.inl hsame⟩
  rw [if_neg hstale]
  rw [not_or, not_not, not_not] at hstale
  obtain ⟨hfound, hcurrent⟩ := hstale
  have hfile : w.store.dir.files.lookup deviceFile = some s.expectedHelper := by
    rcases hr with hr | hr
    · rw [hfound] at hr; exact absurd hr.1 (by decide)
    · rw [← hcurrent]; exact hr.2
  refine Ensures.bind ((onSource_ensures (Q := fun r => ∀ blob, r = some blob →
    Dealt k s.factors s.mandatory blob) fun r d' hrun blob hb => ?_).mono (fun _ _ h => h)
    fun _ w' h => Or.inl (by rw [h]; exact hsame)) fun r w₃ h => ?_
  · rw [hb] at hrun
    exact refreshCore_ensures hk hF hslstore hrun
  obtain ⟨hdealt, hw₃⟩ := h
  rw [← hw₃] at hsame
  -- `refresh_core` may refuse to deal, and then nothing is written either
  cases r with
  | none => exact ⟨Or.inl rfl, Or.inl hsame⟩
  | some blob =>
    have hwrote : ∀ d', d' = w₃.store.dir.write deviceFile blob → Refreshed s w.store.dir d' :=
      fun d' hw => Or.inr ⟨k, blob, hkey, hopen, hfile, hdealt blob rfl, by rw [hw, hsame]⟩
    refine Ensures.bind (onStore_ensures (writeFile_ensures (helperFile deviceHelperId) blob w₃.store)
      |>.mono (fun _ _ h => h) fun _ w' h => ?_) fun _ w₄ hw => ?_
    · rcases h.1 with h | h
      · exact Or.inl (h.trans hsame)
      · exact hwrote _ h
    · exact ⟨Or.inr rfl, hwrote _ hw.1⟩

/-- **`commit`**: the session keeps what it was prepared with and loses its key; the store is
    untouched or refreshed. -/
theorem commit_cases {s : Session} (hk : ∀ k, s.key = some k → k.Reduced)
    (hF : SlotsIn (allowedNames currentNormVersion) s.factors) (hslstore : str "slstore" ∈ s.mandatory)
    (w : World Disk) :
    (s.commit w).1.key = none ∧ (s.commit w).1.hwid = s.hwid ∧
      (s.commit w).1.factors = s.factors ∧ (s.commit w).1.mandatory = s.mandatory ∧
      (s.commit w).1.expectedHelper = s.expectedHelper ∧
      Refreshed s w.store.dir (s.commit w).2.2.store.dir := by
  unfold Session.commit
  cases hkey : s.key with
  | none => exact ⟨hkey, rfl, rfl, rfl, rfl, Or.inl rfl⟩
  | some k =>
    dsimp only
    -- a session commits once; the second call does nothing
    by_cases hopen : s.committed = true
    · rw [if_pos hopen]
      exact ⟨rfl, rfl, rfl, rfl, rfl, Or.inl rfl⟩
    rw [if_neg hopen]
    rw [Bool.not_eq_true] at hopen
    have hspec := commitLocked_ensures hkey hopen (hk k hkey) hF hslstore w
    -- whether it raises or not, the key is given away
    cases hrun : commitLocked s k w with
    | ok s' w' =>
      obtain ⟨hs', hdisk⟩ := hspec.of_ok hrun
      refine ⟨rfl, ?_, ?_, ?_, ?_, hdisk⟩
      · rcases hs' with rfl | rfl <;> rfl
      · rcases hs' with rfl | rfl <;> rfl
      · rcases hs' with rfl | rfl <;> rfl
      · rcases hs' with rfl | rfl <;> rfl
    | error e w' => exact ⟨rfl, rfl, rfl, rfl, rfl, hspec.of_error hrun⟩

/-- A session without a key does nothing. -/
theorem commit_of_key_none {σ : Type} [Store σ] {s : Session} (h : s.key = none) (w : World σ) :
    s.commit w = (s, .ok (), w) := by
  unfold Session.commit
  rw [h]

end Hashing

end Bedrock.Slhwid

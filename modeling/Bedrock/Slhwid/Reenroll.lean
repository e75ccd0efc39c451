/-
  `force_reenroll` over damaged files.

  1. **Draws** — where bytes are left no draw fails (`drawElem_ok`, `drawCoeffs_ok`), and the salt
     loop stops at the first salt that separates the slots (`saltLoop_ok`).

  2. **Nothing else can fail** — a deal over enough slots with every hard lock available returns
     (`deal_ok`), so an enrollment fails only where its secret or its store does.

  3. **The defect** — the forced path reads the stored secret with the helpers of the normal path: a
     damaged helper is overwritten, a damaged secret makes `read_slstore` raise, and no option gets
     past it.  `reenroll_recovers_iff` says that nothing else stands in the way.
-/
import Bedrock.Slhwid.Corrupt
import Bedrock.Slhwid.RunResults

open Lib.Fallible Lib.LittleEndian Bedrock.Python

namespace Bedrock.Slhwid

/-! ## Draws -/

/-- Eight bytes are enough for one field element. -/
theorem drawElem_ok {d : Bytes} (h : 8 ≤ d.length) : ∃ v, drawElem d = .ok v (d.drop 8) := by
  have hlen : (d.take 8).length = 8 := List.length_take_of_le h
  have hsource : source 8 d = .ok (d.take 8) (d.drop 8) := rfl
  refine ⟨ofLE (d.take 8) % P, (run_bind_ok hsource _).trans ?_⟩
  rw [raiseIf_neg (not_not.mpr hlen), lift_ok_bind]
  rfl

/-- And eight for each of `n` elements. -/
theorem drawElems_ok {n : Nat} {d : Bytes} (h : 8 * n ≤ d.length) :
    ∃ cs, drawElems n d = .ok cs (d.drop (8 * n)) := by
  induction n generalizing d with
  | zero => exact ⟨[], rfl⟩
  | succ n ih =>
    obtain ⟨c, hc⟩ := drawElem_ok (show 8 ≤ d.length by omega)
    obtain ⟨cs, hcs⟩ := ih (d := d.drop 8) (by rw [List.length_drop]; omega)
    rw [List.drop_drop] at hcs
    refine ⟨c :: cs, (run_bind_ok hc _).trans ((run_bind_ok hcs _).trans ?_)⟩
    rw [show 8 * (n + 1) = 8 + 8 * n by omega]
    rfl

/-- Four rows of `n` coefficients take 32 bytes each column. -/
theorem drawCoeffs_ok {n : Nat} {d : Bytes} (h : 32 * n ≤ d.length) :
    ∃ cs d', drawCoeffs n d = .ok cs d' := by
  obtain ⟨a, ha⟩ := drawElems_ok (show 8 * n ≤ d.length by omega)
  obtain ⟨b, hb⟩ := drawElems_ok (n := n) (d := d.drop (8 * n)) (by rw [List.length_drop]; omega)
  rw [List.drop_drop] at hb
  obtain ⟨c, hc⟩ := drawElems_ok (n := n) (d := d.drop (8 * n + 8 * n))
    (by rw [List.length_drop]; omega)
  rw [List.drop_drop] at hc
  obtain ⟨e, he⟩ := drawElems_ok (n := n) (d := d.drop (8 * n + 8 * n + 8 * n))
    (by rw [List.length_drop]; omega)
  exact ⟨_, _, (run_bind_ok ha _).trans ((run_bind_ok hb _).trans ((run_bind_ok hc _).trans
    (run_bind_ok he _)))⟩

/-- A key takes 32 bytes of the source. -/
theorem drawKey_ok {d : Bytes} (h : 32 ≤ d.length) : ∃ k, drawKey d = .ok k (d.drop 32) := by
  obtain ⟨a, ha⟩ := drawElem_ok (show 8 ≤ d.length by omega)
  obtain ⟨b, hb⟩ := drawElem_ok (d := d.drop 8) (by rw [List.length_drop]; omega)
  rw [List.drop_drop] at hb
  obtain ⟨c, hc⟩ := drawElem_ok (d := d.drop 16) (by rw [List.length_drop]; omega)
  rw [List.drop_drop] at hc
  obtain ⟨e, he⟩ := drawElem_ok (d := d.drop 24) (by rw [List.length_drop]; omega)
  rw [List.drop_drop] at he
  exact ⟨_, (run_bind_ok ha _).trans ((run_bind_ok hb _).trans ((run_bind_ok hc _).trans
    (run_bind_ok he _)))⟩

section Hashing

variable [Sha256]

/-! ## The salt loop -/

/-- What can be derived under one salt can be derived under every salt of one byte. -/
theorem deriveX_salt {slot value : Str} {salt salt' x : Nat} (h : deriveX slot value salt = .ok x)
    (hlt : salt' < 256) : ∃ x', deriveX slot value salt' = .ok x' := by
  obtain ⟨_, _, h⟩ := bind_eq_ok.mp h
  obtain ⟨slotBytes, hslot, h⟩ := bind_eq_ok.mp h
  obtain ⟨valueBytes, hvalue, _⟩ := bind_eq_ok.mp h
  have hhead : [0, salt', 0].mapM byte = .ok ([0, salt', 0].map UInt8.ofNat) :=
    mapM_ok fun n hn => byte_ok (by
      simp only [List.mem_cons, List.not_mem_nil, or_false] at hn
      omega)
  rw [deriveX, hhead, ok_bind, hslot, ok_bind, hvalue, ok_bind]
  exact ⟨_, rfl⟩

/-- The loop returns if some salt it reaches separates the slots. -/
theorem saltLoop_ok {slots : List Slot} {good : Nat} {xs : List Nat}
    (hxs : slots.mapM (fun s => deriveX s.name s.value good) = .ok xs) (hnd : xs.Nodup)
    {tries salt : Nat} (hle : salt ≤ good) (hgood : good < salt + tries) (hlt : good < 256) :
    ∃ p, saltLoop slots tries salt = .ok p := by
  induction tries generalizing salt with
  | zero => omega
  | succ tries ih =>
    rcases mapM_cases (f := fun s : Slot => deriveX s.name s.value salt) slots with
      ⟨ys, hys, _⟩ | ⟨s, hs, e, he, _⟩
    · rw [saltLoop, hys, ok_bind]
      by_cases hyd : ys.Nodup
      · exact ⟨_, if_pos hyd⟩
      · have hne : salt ≠ good := fun heq => by
          rw [heq, hxs] at hys
          exact hyd (Except.ok.inj hys ▸ hnd)
        rw [if_neg hyd]
        exact ih (by omega) (by omega)
    · rcases mapM_cases (f := fun s : Slot => deriveX s.name s.value good) slots with
        ⟨_, _, hall⟩ | ⟨_, _, e', _, hfail⟩
      · obtain ⟨x, hx⟩ := hall s hs
        obtain ⟨x', hx'⟩ := deriveX_salt hx (show salt < 256 by omega)
        rw [hx'] at he
        cases he
      · rw [hxs] at hfail
        cases hfail

/-- Distinct coordinates are distinct in every order of the slots. -/
theorem DistinctCoordinates.slotList {F : Dict Str} (hF : ∀ n ∈ F, F.get n ≠ []) {salt : Nat}
    (h : DistinctCoordinates F.keys F salt) (M : Finset Str) :
    ∃ xs, (slotList F M).mapM (fun s => deriveX s.name s.value salt) = .ok xs ∧ xs.Nodup := by
  obtain ⟨xs, hxs, hnd⟩ := h
  have hall : (F.keys.filter fun n => F.get n ≠ []) = F.keys :=
    List.filter_eq_self.mpr fun n hn => decide_eq_true (hF n (AList.mem_keys.mp hn))
  rw [hall] at hxs
  let x : Str → Nat := fun n => (deriveX n (F.get n) salt).toOption.getD 0
  obtain ⟨hderive, rfl⟩ := mapM_eq_ok (g := x) (fun n _ b hb => by
    simp [x, hb, Except.toOption]) hxs
  have hperm : (sortedKeys F).Perm F.keys := List.perm_insertionSort (· ≤ ·) F.keys
  refine ⟨(sortedKeys F).map x, ?_, (hperm.map x).nodup_iff.mpr hnd⟩
  rw [Slhwid.slotList, List.mapM_map]
  exact mapM_ok fun n hn => hderive n (hperm.mem_iff.mp hn)

/-! ## The deal -/

/-- **The shares are dealt and written** over factors that meet the rule, given a salt and enough
    bytes. -/
theorem share_ok {k : Limbs} (hk : k.Reduced) {F : Dict Str}
    (hF : SlotsIn (allowedNames currentNormVersion) F) {M : Finset Str} (hslstore : str "slstore" ∈ M)
    (hM : ∀ n ∈ M, F.get n ≠ []) {t : Nat} (ht : threshold F.keys.length M.card = .ok t) {salt : Nat}
    (hsalt : salt < 255) (hdistinct : DistinctCoordinates F.keys F salt) {d : Bytes}
    (hbytes : 32 * (t - 1) ≤ d.length) :
    ∃ shares salt' d' blob, buildShares k (slotList F M) t d = .ok (shares, salt') d' ∧
      serializeHelper shares M t salt' (checkWordOf k) currentNormVersion = .ok blob := by
  obtain ⟨_, _, hm, hle, _⟩ := threshold_spec ht
  have hMF : ∀ n ∈ M, n ∈ F := fun n hn => Dict.mem_of_get_ne_nil (hM n hn)
  obtain ⟨xs, hxs, hnd⟩ := hdistinct.slotList (fun n hn => (hF n hn).2) M
  obtain ⟨⟨ys, salt'⟩, hloop⟩ := saltLoop_ok hxs hnd (Nat.zero_le salt) (show salt < 0 + 255 by omega)
    (by omega)
  obtain ⟨coeffs, d', hcoeffs⟩ := drawCoeffs_ok hbytes
  -- so the shares are built, and the writer accepts them
  obtain ⟨⟨shares, salt''⟩, hb⟩ : ∃ p, buildShares k (Slhwid.slotList F M) t d = .ok p d' :=
    ⟨_, (run_bind_ok (lift_eq_ok.mpr ⟨hloop, rfl⟩) _).trans (run_bind_ok hcoeffs _)⟩
  obtain ⟨hlt, _, _, S, _⟩ := buildShares_sharing hk (by omega) hb
  exact ⟨shares, salt'', d', _, hb,
    serializeHelper_eq (S.writable (Or.inr rfl) hlt hF hslstore hMF hm hle)⟩

/-- **A deal returns** over factors that meet the rule, given a salt and enough bytes. -/
theorem deal_ok {raw F : Dict Str} (hF : projectFactors raw currentNormVersion = .ok F)
    {requested : Finset Str} (hreq : str "slstore" ∈ requested)
    (hM : ∀ n ∈ mapMandatoryToCurrent requested, F.get n ≠ []) {t : Nat}
    (ht : threshold F.keys.length (mapMandatoryToCurrent requested).card = .ok t) {salt : Nat}
    (hsalt : salt < 255) (hdistinct : DistinctCoordinates F.keys F salt) {d : Bytes}
    (hbytes : 32 * t ≤ d.length) : ∃ p d', deal raw requested d = .ok p d' := by
  obtain ⟨_, _, hm, _⟩ := threshold_spec ht
  obtain ⟨k, hk⟩ := drawKey_ok (show 32 ≤ d.length by omega)
  have hred := drawKey_reduced hk
  obtain ⟨shares, salt', d', blob, hb, hser⟩ := share_ok hred (projectFactors_spec hF)
    (slstore_mem_map hreq) hM ht hsalt hdistinct (d := d.drop 32) (by rw [List.length_drop]; omega)
  refine ⟨⟨F, mapMandatoryToCurrent requested, k, blob⟩, d', ?_⟩
  unfold deal
  rw [hF, lift_ok_bind, checkMandatory_eq_ok.mpr hM, lift_ok_bind, ht, lift_ok_bind]
  refine (run_bind_ok hk _).trans ((run_bind_ok hb _).trans ?_)
  rw [checkWord_ok hred, lift_ok_bind, hser]
  rfl

/-! ## The forced path -/

omit [Sha256] in
/-- The extra names land in the schema, hence they are names at all. -/
theorem matchesSlotName_of_mapped {name : Str}
    (h : currentMandatoryName name ∈ allowedNames currentNormVersion) :
    matchesSlotName name = true := by
  have hlists : (∀ n ∈ [str "product_uuid", str "board_serial", str "system_uuid",
        str "system_serial", str "chassis_serial"], matchesSlotName n = true) ∧
      (∀ n ∈ [str "gpu_id", str "monitor_edid"], matchesSlotName n = true) ∧
      (∀ n ∈ [str "computer_name", str "os_build"], matchesSlotName n = true) ∧
      matchesSlotName (str "mac") = true ∧
      ∀ n ∈ allowedNames currentNormVersion, matchesSlotName n = true := by decide +kernel
  obtain ⟨h₁, h₂, h₃, h₄, h₅⟩ := hlists
  unfold currentMandatoryName at h
  split_ifs at h with hplatform hdisplay hsoftware hmac
  · exact h₁ name hplatform
  · exact h₂ name hdisplay
  · exact h₃ name hsoftware
  · rw [hmac]
    exact h₄
  · exact h₅ name h

omit [Sha256] in
/-- Accepted names are exactly the ones added to the slstore lock. -/
theorem requestedMandatory_eq {extra : List Str} (h : ∀ name ∈ extra, matchesSlotName name = true) :
    requestedMandatory extra = .ok (insert (str "slstore") extra.toFinset) := by
  obtain ⟨M, hM, hset⟩ := foldlM_ok addMandatory
    (fun seen M => M = insert (str "slstore") seen.toFinset) (l := extra) (s := {str "slstore"})
    (fun seen name M hname hM => ⟨insert name M, by
      rw [addMandatory, raiseIf_neg (not_not.mpr (h name hname))]; rfl, by
      rw [hM, List.toFinset_append, Finset.insert_comm, List.toFinset_cons, List.toFinset_nil,
        Finset.union_comm, Finset.insert_union]
      rfl⟩) rfl
  rw [requestedMandatory, hM, hset]

/-- The hard-locked slots that an application asks for. -/
def mandatorySlots (extra : List Str) : Finset Str :=
  mapMandatoryToCurrent (insert (str "slstore") extra.toFinset)

/-- Without failures of the disk, the forced path only enrolls. -/
theorem prepareWith_forced {extra : List Str} {M : Finset Str}
    (hM : requestedMandatory extra = .ok M) {collected nf : Dict Str}
    (hnf : normalizeFactors collected = .ok nf) (d : Dir) (source : Bytes) :
    prepareWith ⟨extra, true⟩ collected (d.world source []) =
      enroll nf M deviceHelperId (d.world source []) := by
  have hlock : onStore Store.acquire (d.world source []) = .ok () (d.world source []) := rfl
  obtain ⟨r, hread⟩ : ∃ r, onStore (Store.readHelper deviceHelperId) (d.world source []) =
      .ok r (d.world source []) := ⟨_, onStore_ok (readHelper_quiet deviceHelperId d)⟩
  unfold prepareWith
  rw [hM, lift_ok_bind, hnf, lift_ok_bind]
  exact (run_bind_ok hlock _).trans (prepareLocked_enroll hread (Or.inr rfl) nf M)

/-! ## The secret -/

/-- `slstore.bin` is absent, or holds a secret in its frame. -/
def SecretReadable (files : Dict Bytes) : Prop :=
  ∀ data, files.lookup slstoreFile = some data →
    ∃ v : Bytes, v.length = 32 ∧ data = slstorePrefix ++ v

/-- The stored secret, or the one drawn where none can be read. -/
def secretOf (files : Dict Bytes) (source : Bytes) : Bytes :=
  match files.lookup slstoreFile with
  | some data => (unwrapSlstore data).toOption.getD (source.take 32)
  | none => source.take 32

/-- The factors, completed by a secret if they report none. -/
def withSecret (raw : Dict Str) (v : Bytes) : Dict Str :=
  if raw.get (str "slstore") ≠ [] then raw else raw.insert (str "slstore") (hexStr v)

omit [Sha256] in
/-- With a readable secret the factors are completed, and at most 32 bytes drawn. -/
theorem withSlstore_ok {raw : Dict Str} {d : Dir} {source : Bytes}
    (h : raw.get (str "slstore") ≠ [] ∨ SecretReadable d.files) (hbytes : 32 ≤ source.length) :
    ∃ (d' : Dir) (rest : Bytes), withSlstore raw (d.world source []) =
        .ok (withSecret raw (secretOf d.files source)) (d'.world rest []) ∧
      source.length ≤ rest.length + 32 := by
  unfold withSlstore withSecret
  by_cases hraw : raw.get (str "slstore") ≠ []
  · rw [if_pos hraw, if_pos hraw]
    exact ⟨d, source, rfl, by omega⟩
  rw [if_neg hraw, if_neg hraw]
  suffices hensure : ∃ (d' : Dir) (rest : Bytes), ensureSlstore (d.world source []) =
      .ok (hexStr (secretOf d.files source)) (d'.world rest []) ∧
        source.length ≤ rest.length + 32 by
    obtain ⟨d', rest, hrun, hlen⟩ := hensure
    exact ⟨d', rest, run_bind_ok hrun _, hlen⟩
  have hread := readSlstore_quiet d
  unfold secretOf
  cases hfile : d.files.lookup slstoreFile with
  | none =>
    rw [hfile] at hread
    have hstore : onStore Store.readSlstore (d.world source []) = .ok none (d.world source []) :=
      onStore_ok hread
    have hdraw : onSource (Slhwid.source 32) (d.world source []) =
        .ok (source.take 32) (d.world (source.drop 32) []) := rfl
    refine ⟨d.write slstoreFile (slstorePrefix ++ source.take 32), source.drop 32,
      (run_bind_ok hstore _).trans ((run_bind_ok hdraw _).trans ?_), ?_⟩
    · rw [raiseIf_neg (not_not.mpr (List.length_take_of_le hbytes)), lift_ok_bind]
      rfl
    · rw [List.length_drop]
      omega
  | some data =>
    obtain ⟨v, hv, rfl⟩ := (h.resolve_left hraw) data hfile
    have hunwrap := unwrapSlstore_eq_ok.mpr (show slstorePrefix ++ v = slstorePrefix ++ v ∧
      v.length = 32 from ⟨rfl, hv⟩)
    rw [hfile] at hread
    dsimp only at hread
    rw [hunwrap] at hread
    have hstore : onStore Store.readSlstore (d.world source []) =
        .ok (some v) (d.world source []) := onStore_ok hread
    refine ⟨d, source, (run_bind_ok hstore _).trans ?_, by omega⟩
    dsimp only
    rw [raiseIf_neg (not_not.mpr hv), lift_ok_bind, hunwrap]
    rfl

omit [Sha256] in
/-- **The defect**: a damaged secret raises, forced or not. -/
theorem withSlstore_damaged {raw : Dict Str} (hraw : raw.get (str "slstore") = []) {d : Dir}
    (h : ¬ SecretReadable d.files) (source : Bytes) :
    ∃ e, withSlstore raw (d.world source []) = .error e (d.world source []) := by
  unfold SecretReadable at h
  push Not at h
  obtain ⟨data, hfile, hbad⟩ := h
  have hread := readSlstore_quiet d
  rw [hfile] at hread
  dsimp only at hread
  cases hunwrap : unwrapSlstore data with
  | ok v =>
    obtain ⟨hdata, hv⟩ := unwrapSlstore_eq_ok.mp hunwrap
    exact absurd hdata (hbad v hv)
  | error e =>
    rw [hunwrap] at hread
    have hstore : onStore Store.readSlstore (d.world source []) = .error e (d.world source []) :=
      onStore_error hread
    have hensure : ensureSlstore (d.world source []) = .error e (d.world source []) := by
      rw [ensureSlstore, run_bind, hstore]
    refine ⟨e, ?_⟩
    rw [withSlstore, if_neg (not_not.mpr hraw), run_bind, hensure]

/-! ## Two launches -/

/-- The session hard-locks the requested names under the current schema. -/
theorem enroll_mandatory {raw : Dict Str} {M : Finset Str} (hreq : str "slstore" ∈ M) {hid : Str}
    {w w' : World Disk} {s : Session} (h : enroll raw M hid w = .ok s w') :
    s.mandatory = mapMandatoryToCurrent M := by
  rw [enroll_eq] at h
  obtain ⟨raw', w₁, _, h⟩ := run_bind_eq_ok.mp h
  obtain ⟨p, w₂, hdeal, h⟩ := run_bind_eq_ok.mp h
  obtain ⟨⟨_, hM, _⟩, _⟩ := (onSource_ensures (σ := Disk) (w := w₁)
    fun p d' (hp : deal _ _ w₁.source = .ok p d') => deal_eq_ok hreq hp).of_ok hdeal
  obtain ⟨_, _, _, h⟩ := run_bind_eq_ok.mp h
  obtain ⟨_, _, _, h⟩ := run_bind_eq_ok.mp h
  cases h
  exact hM

/-- An enrolling `prepare`, with the hard locks it was asked for. -/
theorem prepareWith_fresh {o : Options} {collected : Dict Str} {w w' : World Disk} {s : Session}
    (hrun : prepareWith o collected w = .ok s w') (hfresh : s.fresh = true) :
    ∃ nf, normalizeFactors collected = .ok nf ∧ Enrolled nf deviceFile w.store.dir w'.store.dir s ∧
      s.mandatory = mandatorySlots o.extraMandatory := by
  obtain ⟨e, w₁, herr, _⟩ | ⟨M, nf, hM, hnf, ⟨_, henroll⟩ | ⟨_, blob, w₁, _, _, _, hrec⟩⟩ :=
    prepareWith_cases o collected w
  · rw [hrun] at herr
    cases herr
  · have hreq := requestedMandatory_slstore hM
    rw [henroll] at hrun
    refine ⟨nf, hnf, (enroll_ensures nf hreq deviceHelperId ⟨w.store.next.next, w.source⟩).of_ok hrun, ?_⟩
    have hset := requestedMandatory_eq (requestedMandatory_eq_ok hM)
    rw [hM] at hset
    rw [enroll_mandatory hreq hrun, Except.ok.inj hset, mandatorySlots]
  · rw [hrun] at hrec
    rw [recoverSession_fresh (lift_eq_ok.mp hrec.symm).1] at hfresh
    cases hfresh

/-- What the next launch finds after an enrollment. -/
theorem Enrolled.found {nf : Dict Str} {d d' : Dir} {s : Session} (h : Enrolled nf deviceFile d d' s) :
    d'.files.lookup deviceFile = some s.expectedHelper ∧ HasSlstore d'.files nf ∧
      projectFactors (launchRaw d'.files nf) currentNormVersion = .ok s.factors := by
  obtain ⟨d₁, _, rfl, hhas, hproj⟩ := h.stored
  have hkeep : (d₁.write deviceFile s.expectedHelper).files.lookup slstoreFile =
      d₁.files.lookup slstoreFile := d₁.lookup_write_ne _ slstoreFile_ne
  rw [← launchRaw_congr nf hkeep] at hproj
  rw [HasSlstore, ← hkeep] at hhas
  exact ⟨Dir.lookup_write_self _ _ _, hhas, hproj⟩

/-- **Signals that no slot is computed from do not matter** to the next launch. -/
theorem Enrolled.relaunch_of_same {nf nf' : Dict Str} {d d' : Dir} {s : Session}
    (h : Enrolled nf deviceFile d d' s) {collected' : Dict Str}
    (hnf' : normalizeFactors collected' = .ok nf') (hsame : ∀ n, SlotSignal n → nf'.get n = nf.get n)
    {extra : List Str} {M : Finset Str} (hM : requestedMandatory extra = .ok M) (source : Bytes) :
    ∃ s', prepareWith ⟨extra, false⟩ collected' (d'.world source []) =
      .ok s' (d'.world source []) ∧ s'.fresh = false ∧ s'.hwid = s.hwid := by
  obtain ⟨k, hdealt, hid, _⟩ := h.dealt
  obtain ⟨hfile, hhas, hproj⟩ := h.found
  have hslstore : nf'.get (str "slstore") = nf.get (str "slstore") :=
    hsame _ (Or.inl (by decide +kernel))
  have hhas' : HasSlstore d'.files nf' := by
    rw [HasSlstore, hslstore]
    exact hhas
  have hproj' : projectFactors (launchRaw d'.files nf') currentNormVersion = .ok s.factors := by
    rw [projectFactors_congr fun n hn => launchRaw_same (hsame n hn), hproj]
  obtain ⟨s', hs', hhwid, _, _, hfresh⟩ := hdealt.recoverSession hproj'
  refine ⟨s', ?_, hfresh, hhwid.trans hid.symm⟩
  rw [Dir.world, prepareWith_run hM hnf' hfile hhas' source, hs']
  rfl

/-- **After an enrollment the next launch recovers it**, on the same signals. -/
theorem Enrolled.relaunch {nf : Dict Str} {d d' : Dir} {s : Session}
    (h : Enrolled nf deviceFile d d' s) {collected : Dict Str}
    (hnf : normalizeFactors collected = .ok nf) {extra : List Str} {M : Finset Str}
    (hM : requestedMandatory extra = .ok M) (source : Bytes) :
    ∃ s', prepareWith ⟨extra, false⟩ collected (d'.world source []) =
      .ok s' (d'.world source []) ∧ s'.fresh = false ∧ s'.hwid = s.hwid :=
  h.relaunch_of_same hnf (fun _ _ => rfl) hM source

/-- The signals allow an enrollment: with this secret, eight slots, every hard lock asked for and a
    slot besides, a salt that separates the slots, and bytes for all draws. -/
def Enrollable (extra : List Str) (raw : Dict Str) (source : Bytes) : Prop :=
  ∃ F t salt, projectFactors raw currentNormVersion = .ok F ∧ 8 ≤ F.keys.length ∧
    (∀ n ∈ mandatorySlots extra, F.get n ≠ []) ∧ (mandatorySlots extra).card < F.keys.length ∧
    threshold F.keys.length (mandatorySlots extra).card = .ok t ∧ 32 * (t + 1) ≤ source.length ∧
    salt < 255 ∧ DistinctCoordinates F.keys F salt

/-- `prepare` with `force_reenroll` enrolls, and the next `prepare` has the same identifier. -/
def ReenrollRecovers (extra : List Str) (collected : Dict Str) (d : Dir) (source : Bytes) : Prop :=
  ∃ s w, prepareWith ⟨extra, true⟩ collected (d.world source []) = .ok s w ∧ s.fresh = true ∧
    ∀ source', ∃ s' w', prepareWith ⟨extra, false⟩ collected (w.store.dir.world source' []) =
      .ok s' w' ∧ s'.hwid = s.hwid

/-- An enrollment with a readable secret goes through. -/
theorem enroll_ok {extra : List Str} {nf : Dict Str} {d : Dir} {source : Bytes}
    (h : Enrollable extra (withSecret nf (secretOf d.files source)) source)
    (hsecret : nf.get (str "slstore") ≠ [] ∨ SecretReadable d.files) :
    ∃ s w, enroll nf (insert (str "slstore") extra.toFinset) deviceHelperId (d.world source []) =
      .ok s w ∧ s.fresh = true := by
  obtain ⟨F, t, salt, hF, hn, hM, _, ht, hbytes, hsalt, hdistinct⟩ := h
  obtain ⟨d', rest, hwith, hrest⟩ := withSlstore_ok hsecret (show 32 ≤ source.length by omega)
  have hreq : str "slstore" ∈ insert (str "slstore") extra.toFinset := Finset.mem_insert_self _ _
  obtain ⟨p, rest', hdeal⟩ := deal_ok hF hreq hM ht hsalt hdistinct (d := rest) (by omega)
  obtain ⟨_, _, hdealt⟩ := deal_eq_ok hreq hdeal
  have hsource : onSource (deal (withSecret nf (secretOf d.files source))
      (insert (str "slstore") extra.toFinset)) (d'.world rest []) = .ok p (d'.world rest' []) := by
    unfold onSource
    rw [Dir.world, hdeal]
    rfl
  have hwrite : onStore (Store.writeHelper deviceHelperId p.blob) (d'.world rest' []) =
      .ok () ((d'.write deviceFile p.blob).world rest' []) := rfl
  refine ⟨p.session (hwidStr p.key), (d'.write deviceFile p.blob).world rest' [], ?_, rfl⟩
  rw [enroll_eq]
  refine (run_bind_ok hwith _).trans ((run_bind_ok hsource _).trans
    ((run_bind_ok hwrite _).trans ?_))
  rw [hwidOf_ok hdealt.reduced, lift_ok_bind]
  rfl

/-- What an enrollable application asks for are slot names. -/
theorem Enrollable.requested {extra : List Str} {raw : Dict Str} {source : Bytes}
    (h : Enrollable extra raw source) :
    requestedMandatory extra = .ok (insert (str "slstore") extra.toFinset) := by
  obtain ⟨F, _, _, hF, _, hslots, _⟩ := h
  refine requestedMandatory_eq fun name hname => matchesSlotName_of_mapped ?_
  have hmem : currentMandatoryName name ∈ mandatorySlots extra :=
    Finset.mem_image_of_mem _ (Finset.mem_insert_of_mem (List.mem_toFinset.mpr hname))
  exact (projectFactors_spec hF _ (Dict.mem_of_get_ne_nil (hslots _ hmem))).1

/-- Over a damaged secret the forced path raises. -/
theorem not_reenrollRecovers {extra : List Str} {M : Finset Str}
    (hM : requestedMandatory extra = .ok M) {collected nf : Dict Str}
    (hnf : normalizeFactors collected = .ok nf) (hraw : nf.get (str "slstore") = []) {d : Dir}
    (hbad : ¬ SecretReadable d.files) (source : Bytes) :
    ¬ ReenrollRecovers extra collected d source := by
  rintro ⟨s, w, hrun, _⟩
  obtain ⟨e, herr⟩ := withSlstore_damaged hraw hbad source
  rw [prepareWith_forced hM hnf, enroll_eq, run_bind, herr] at hrun
  cases hrun

/-- **Re-enrolling recovers from any stored state but a damaged secret**: on signals that allow an
    enrollment, and over any files, `prepare` with `force_reenroll` enrolls and the next launch
    agrees, exactly when the signals report an `slstore` of their own or `slstore.bin` is absent or
    in order.  The helper file does not matter. -/
theorem reenroll_recovers_iff {extra : List Str} {collected nf : Dict Str}
    (hnf : normalizeFactors collected = .ok nf) {d : Dir} {source : Bytes}
    (h : Enrollable extra (withSecret nf (secretOf d.files source)) source) :
    ReenrollRecovers extra collected d source ↔
      nf.get (str "slstore") ≠ [] ∨ SecretReadable d.files := by
  have hM := h.requested
  constructor
  · intro hrecovers
    by_contra hno
    obtain ⟨hraw, hbad⟩ := not_or.mp hno
    exact not_reenrollRecovers hM hnf (not_not.mp hraw) hbad source hrecovers
  · intro hsecret
    obtain ⟨s, w, hrun, hfresh⟩ := enroll_ok h hsecret
    rw [← prepareWith_forced hM hnf] at hrun
    obtain ⟨nf', hnf', henr, _⟩ := prepareWith_fresh hrun hfresh
    obtain rfl := Except.ok.inj (hnf.symm.trans hnf')
    refine ⟨s, w, hrun, hfresh, fun source' => ?_⟩
    obtain ⟨s', hs', _, hhwid⟩ := henr.relaunch hnf hM source'
    exact ⟨s', _, hs', hhwid⟩

end Hashing

/-! ## Two broken stores -/

/-- The signals of the sample machine allow an enrollment. -/
theorem sample_enrollable : ∃ nf, normalizeFactors sampleSignals = .ok nf ∧
    nf.get (str "slstore") = [] ∧
    @Enrollable sampleHash [] (withSecret nf (List.replicate 32 7)) (List.replicate 400 7) := by
  let _ := sampleHash
  obtain ⟨nf, _, hnf, hcheck⟩ := exists_of_checks (show checks (fun nf _ =>
    nf.get (str "slstore") == [] && checks (fun F _ => decide (8 ≤ F.keys.length ∧
      (∀ n ∈ mandatorySlots [], F.get n ≠ []) ∧ (mandatorySlots []).card < F.keys.length ∧
      threshold F.keys.length (mandatorySlots []).card = .ok 6 ∧
      DistinctCoordinates F.keys F 0))
      (lift (projectFactors (withSecret nf (List.replicate 32 7)) currentNormVersion) ()))
    (lift (normalizeFactors sampleSignals) ()) = true by decide +kernel)
  obtain ⟨hnil, hcheck⟩ := Bool.and_eq_true_iff.mp hcheck
  obtain ⟨F, _, hF, hcheck⟩ := exists_of_checks hcheck
  obtain ⟨hn, hM, hm, ht, hdistinct⟩ := of_decide_eq_true hcheck
  exact ⟨nf, (lift_eq_ok.mp hnf).1, beq_iff_eq.mp hnil, F, 6, 0, (lift_eq_ok.mp hF).1, hn, hM, hm, ht,
    by rw [List.length_replicate]; decide, by decide, hdistinct⟩

/-- Over stray bytes instead of a helper, with the secret in order, re-enrolling works. -/
theorem reenroll_recovers_iff_sample :
    @ReenrollRecovers sampleHash [] sampleSignals (storeWith [1, 2, 3]) (List.replicate 400 7) := by
  let _ := sampleHash
  obtain ⟨nf, hnf, _, henroll⟩ := sample_enrollable
  have hsecret : secretOf (storeWith [1, 2, 3]).files (List.replicate 400 7) = List.replicate 32 7 := by
    decide +kernel
  refine (reenroll_recovers_iff hnf (by rw [hsecret]; exact henroll)).mpr (Or.inr fun data hdata => ?_)
  rw [storeWith_secret] at hdata
  exact ⟨List.replicate 32 7, rfl, (Option.some.inj hdata).symm⟩

/-- A store whose secret was overwritten with stray bytes. -/
def damagedSecret : Dir := ⟨AList.insert slstoreFile [1, 2, 3] ∅, []⟩

/-- **Re-enrolling does not recover from every corrupt state**: on the sample machine, whose signals
    allow an enrollment, it raises over stray bytes instead of the secret. -/
theorem damagedSecret_not_recovered : ∃ nf, normalizeFactors sampleSignals = .ok nf ∧
    @Enrollable sampleHash [] (withSecret nf (secretOf damagedSecret.files (List.replicate 400 7)))
      (List.replicate 400 7) ∧
    ¬ @ReenrollRecovers sampleHash [] sampleSignals damagedSecret (List.replicate 400 7) := by
  let _ := sampleHash
  obtain ⟨nf, hnf, hnil, henroll⟩ := sample_enrollable
  have hsecret : secretOf damagedSecret.files (List.replicate 400 7) = List.replicate 32 7 := by
    decide +kernel
  rw [← hsecret] at henroll
  refine ⟨nf, hnf, henroll, not_reenrollRecovers henroll.requested hnf hnil (fun hreadable => ?_) _⟩
  obtain ⟨v, hv, hdata⟩ := hreadable [1, 2, 3] (AList.lookup_insert _)
  have hlen := congrArg List.length hdata
  rw [List.length_append, hv] at hlen
  exact absurd hlen (by decide)

end Bedrock.Slhwid

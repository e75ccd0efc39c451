/-
  Which helper bytes are reported as corrupt.

  1. **The defect** — the record loop decodes a name with `bytes.decode("ascii")` before it checks it
     against the allowed names.  A name with a byte of `0x80` or more makes it raise
     `UnicodeDecodeError`, which is no `CorruptHelperError`; the blob needs no secret, since the
     integrity hash is unkeyed (`parseHelper_nonAscii`).

  2. **Everything else** is reported: whatever the parser raises on any other blob is a
     `CorruptHelperError` (`parseHelper_error`); no read leaves the body.

  3. **`prepare`** — `corrupt_reported_iff`: over any stored helper and a valid secret, `prepare` ends
     in a session, a `CorruptHelperError` or a `DriftError` exactly when no record name is of this
     kind, provided the call itself is in order.
-/
import Bedrock.Slhwid.SessionSpec

open Lib.Fallible Lib.LittleEndian Bedrock.Python

namespace Bedrock.Slhwid

/-! ## One record -/

/-- A record in front whose name has a byte outside ASCII, with room behind it for a flag and a
    share. -/
def NonAsciiRecord (rest : Bytes) : Prop :=
  ∃ (len : UInt8) (name tail : Bytes), rest = len :: (name ++ tail) ∧ name.length = len.toNat ∧
    33 ≤ tail.length ∧ ∃ x ∈ name, 128 ≤ x.toNat

/-- A byte from 128 on is no ASCII. -/
theorem decodeAscii_error {b : Bytes} (h : ∃ x ∈ b, 128 ≤ x.toNat) :
    decodeAscii b = .error .unicodeDecodeError := by
  obtain ⟨x, hx, hbig⟩ := h
  refine if_neg fun hall => ?_
  have hsmall := of_decide_eq_true (List.all_eq_true.mp hall x hx)
  omega

/-- Such a record makes the decoder raise. -/
theorem parseSlot_nonAscii {allowed : List Str} {st : SlotLoop} (h : NonAsciiRecord st.rest) :
    parseSlot allowed st = .error .unicodeDecodeError := by
  obtain ⟨len, name, tail, hrest, hlen, htail, hbad⟩ := h
  have hpos : 0 < name.length := by
    obtain ⟨x, hx, _⟩ := hbad
    exact List.length_pos_of_mem hx
  have hsize : st.rest.length = 1 + len.toNat + tail.length := by
    rw [hrest, List.length_cons, List.length_append, hlen]
    omega
  have hfirst : st.rest[0]? = some len := by rw [hrest]; rfl
  have hname : slice st.rest 1 (1 + len.toNat) = name := by
    rw [hrest]
    exact slice_mid (a := [len]) rfl (by rw [hlen]; rfl)
  rw [parseSlot, raiseIf_neg (by omega), ok_bind, index_eq_ok.mpr hfirst, ok_bind]
  dsimp only
  rw [raiseIf_neg (by omega), ok_bind, hname, decodeAscii_error hbad, error_bind]

/-- A check that reports corruption raises nothing else. -/
theorem raiseIf_corrupt {c : Prop} [Decidable c] {what : Message} {e : Exc}
    (h : raiseIf c (corrupt what) = .error e) : e.isCorruptHelperError = true := by
  rw [raiseIf_eq_error] at h
  rw [← h.2]
  rfl

/-- **One pass raises nothing else**: every other record it stops at is reported as corrupt. -/
theorem parseSlot_error {allowed : List Str} {st : SlotLoop} {e : Exc}
    (h : parseSlot allowed st = .error e) :
    e.isCorruptHelperError = true ∨ NonAsciiRecord st.rest := by
  unfold parseSlot at h
  rcases bind_eq_error.mp h with h | ⟨_, hone, h⟩
  · exact Or.inl (raiseIf_corrupt h)
  rw [raiseIf_eq_ok] at hone
  obtain ⟨len, hlen⟩ : ∃ len, st.rest[0]? = some len :=
    ⟨_, List.getElem?_eq_getElem (by omega)⟩
  rw [index_eq_ok.mpr hlen, ok_bind] at h
  dsimp only at h
  rcases bind_eq_error.mp h with h | ⟨_, hfit, h⟩
  · exact Or.inl (raiseIf_corrupt h)
  rw [raiseIf_eq_ok] at hfit
  rcases bind_eq_error.mp h with h | ⟨name, _, h⟩
  · obtain ⟨_, hbad⟩ := decodeAscii_eq_error h
    refine Or.inr ⟨len, _, st.rest.drop (1 + len.toNat), ?_, ?_, ?_, hbad⟩
    · have hcut := slice_append (b := st.rest) (i := 0) (j := 1) (k := 1 + len.toNat) (by omega)
        (by omega) (by omega)
      rw [slice_single hlen] at hcut
      rw [← List.cons_append, ← List.singleton_append, hcut]
      exact (List.take_append_drop _ st.rest).symm
    · rw [length_slice (by omega)]
      omega
    · rw [List.length_drop]
      omega
  -- behind the name every read is inside the record
  obtain ⟨flag, hflag⟩ : ∃ flag, st.rest[1 + len.toNat]? = some flag :=
    ⟨_, List.getElem?_eq_getElem (by omega)⟩
  rcases bind_eq_error.mp h with h | ⟨_, _, h⟩
  · exact Or.inl (raiseIf_corrupt h)
  rcases bind_eq_error.mp h with h | ⟨_, _, h⟩
  · exact Or.inl (raiseIf_corrupt h)
  rw [index_eq_ok.mpr hflag, ok_bind] at h
  rcases bind_eq_error.mp h with h | ⟨_, _, h⟩
  · exact Or.inl (raiseIf_corrupt h)
  rcases bind_eq_error.mp h with h | ⟨share, _, h⟩
  · rw [unpackLimbs, if_neg (by omega)] at h
    cases h
  rcases bind_eq_error.mp h with h | ⟨_, _, h⟩
  · exact Or.inl (raiseIf_corrupt h)
  · cases h

/-! ## The stages in front of the loop -/

/-- The header is refused with `CorruptHelperError`. -/
theorem readHeader_error {body : Bytes} (hlen : 8 ≤ body.length) {e : Exc}
    (h : readHeader body = .error e) : e.isCorruptHelperError = true := by
  -- the frame is long enough for the eight bytes of a header
  have hindex : ∀ i, i < 8 → ∃ x, index body i = .ok x := fun i hi =>
    ⟨_, index_eq_ok.mpr (List.getElem?_eq_getElem (by omega))⟩
  obtain ⟨b₀, h₀⟩ := hindex 0 (by omega)
  obtain ⟨b₁, h₁⟩ := hindex 1 (by omega)
  obtain ⟨b₂, h₂⟩ := hindex 2 (by omega)
  obtain ⟨b₃, h₃⟩ := hindex 3 (by omega)
  obtain ⟨b₄, h₄⟩ := hindex 4 (by omega)
  obtain ⟨b₅, h₅⟩ := hindex 5 (by omega)
  obtain ⟨b₆, h₆⟩ := hindex 6 (by omega)
  obtain ⟨b₇, h₇⟩ := hindex 7 (by omega)
  unfold readHeader at h
  rw [h₀, ok_bind] at h
  rcases bind_eq_error.mp h with h | ⟨_, _, h⟩
  · exact raiseIf_corrupt h
  rw [h₁, ok_bind] at h
  rcases bind_eq_error.mp h with h | ⟨_, _, h⟩
  · exact raiseIf_corrupt h
  rw [h₆, ok_bind, h₇, ok_bind] at h
  rcases bind_eq_error.mp h with h | ⟨_, _, h⟩
  · exact raiseIf_corrupt h
  dsimp only at h
  rw [h₃, ok_bind, h₄, ok_bind, h₂, ok_bind, h₅, ok_bind] at h
  rcases bind_eq_error.mp h with h | ⟨_, _, h⟩
  · exact raiseIf_corrupt h
  rcases bind_eq_error.mp h with h | ⟨_, _, h⟩
  · exact raiseIf_corrupt h
  · cases h

section Hashing

variable [Sha256]

theorem openFrame_error {blob : Bytes} {e : Exc} (h : openFrame blob = .error e) :
    e.isCorruptHelperError = true := by
  unfold openFrame at h
  rcases bind_eq_error.mp h with h | ⟨_, _, h⟩
  · exact raiseIf_corrupt h
  rcases bind_eq_error.mp h with h | ⟨_, hlong, h⟩
  · exact raiseIf_corrupt h
  rw [raiseIf_eq_ok] at hlong
  rcases bind_eq_error.mp h with h | ⟨_, _, h⟩
  · exact raiseIf_corrupt h
  rcases bind_eq_error.mp h with h | ⟨_, _, h⟩
  · exact raiseIf_corrupt h
  rcases bind_eq_error.mp h with h | ⟨_, _, h⟩
  · rw [unpackI, if_neg (by omega)] at h
    cases h
  rcases bind_eq_error.mp h with h | ⟨_, _, h⟩
  · exact raiseIf_corrupt h
  · cases h

/-! ## The whole blob -/

/-- A blob in order up to a record with a name that is not ASCII: the frame, the header `hd`, and the
    records of `slots` are what the parser wants, and `rest` comes next. -/
structure BrokenAt (blob : Bytes) (hd : Header) (slots : List HelperSlot) (rest cw : Bytes) : Prop where
  /-- The blob is framed correctly. -/
  frame : blob = frame (hd.bytes ++ (slots.flatMap HelperSlot.bytes ++ rest)) cw
  length_le : (hd.bytes ++ (slots.flatMap HelperSlot.bytes ++ rest)).length ≤ 4020
  length_checkWord : cw.length = 32
  /-- Its header is sound. -/
  header : hd.Valid
  /-- The header announces more slots than were read. -/
  slots_lt : slots.length < hd.n
  /-- The slots in front of the bad record are sound .. -/
  valid : ∀ s ∈ slots, s.name ∈ allowedNames hd.normVersion ∧ s.share.Reduced
  /-- .. and in order. -/
  sorted : (slots.map HelperSlot.name).Pairwise (· < ·)
  /-- The next record's name is not ASCII. -/
  record : NonAsciiRecord rest

/-- Some record name has a byte outside ASCII, and nothing in front of it is wrong. -/
def NonAsciiName (blob : Bytes) : Prop := ∃ hd slots rest cw, BrokenAt blob hd slots rest cw

/-- **The defect**: such a blob is not reported as corrupt. -/
theorem parseHelper_nonAscii {blob : Bytes} (h : NonAsciiName blob) :
    parseHelper blob = .error .unicodeDecodeError := by
  obtain ⟨hd, slots, rest, cw, h⟩ := h
  have hhead : hd.bytes.length = 8 := rfl
  have hlen : 8 ≤ (hd.bytes ++ (slots.flatMap HelperSlot.bytes ++ rest)).length := by
    rw [List.length_append]
    omega
  have hdrop : (hd.bytes ++ (slots.flatMap HelperSlot.bytes ++ rest)).drop 8 =
      slots.flatMap HelperSlot.bytes ++ rest := List.drop_left' hhead
  -- the records in front are read, then the loop meets the bad one
  obtain ⟨st, hrun, hrest, _, _⟩ := loop_run rest slots
    (LoopInv.init (allowedNames hd.normVersion) (slots.flatMap HelperSlot.bytes ++ rest)) rfl
    h.sorted (Or.inl rfl) h.valid
  have hloop : iterate (parseSlot (allowedNames hd.normVersion)) hd.n
      ⟨slots.flatMap HelperSlot.bytes ++ rest, [], [], 0, []⟩ = .error .unicodeDecodeError := by
    have hlt := h.slots_lt
    rw [show hd.n = slots.length + ((hd.n - slots.length - 1) + 1) by omega, iterate_add, hrun, ok_bind,
      iterate, parseSlot_nonAscii (by rw [hrest]; exact h.record), error_bind]
  unfold parseHelper
  rw [h.frame, openFrame_frame hlen h.length_le h.length_checkWord, ok_bind]
  dsimp only
  rw [readHeader_bytes h.header, ok_bind, hdrop, hloop, error_bind]

/-- **Every other blob is parsed or reported.** -/
theorem parseHelper_error {blob : Bytes} {e : Exc} (h : parseHelper blob = .error e) :
    e.isCorruptHelperError = true ∨ NonAsciiName blob := by
  unfold parseHelper at h
  -- the checks in the order of the source; only a record can raise another exception
  rcases bind_eq_error.mp h with h | ⟨⟨body, cw⟩, hframe, h⟩
  · exact Or.inl (openFrame_error h)
  obtain ⟨hblob, hlo, hhi, hcw⟩ := openFrame_eq_ok hframe
  rcases bind_eq_error.mp h with h | ⟨hd, hhead, h⟩
  · exact Or.inl (readHeader_error hlo h)
  obtain ⟨hvalid, hbody⟩ := readHeader_eq_ok hlo hhead
  rcases bind_eq_error.mp h with h | ⟨st, hrun, h⟩
  · obtain ⟨j, st, _, hj, hinv, hfail⟩ := iterate_error LoopInv.step
      (LoopInv.init (allowedNames hd.normVersion) (body.drop 8)) h
    refine (parseSlot_error hfail).imp id fun hbad => ⟨hd, st.slots, st.rest, cw, ?_⟩
    -- what was read before the bad record is the blob's beginning
    have hpay : body = hd.bytes ++ (st.slots.flatMap HelperSlot.bytes ++ st.rest) := by
      rw [← hinv.bytes]
      exact hbody
    exact {
      frame := by rw [hblob, ← hpay]
      length_le := by rw [← hpay]; exact hhi
      length_checkWord := hcw
      header := hvalid
      slots_lt := by rw [hinv.length]; omega
      valid := hinv.mem
      sorted := hinv.sorted
      record := hbad }
  rcases bind_eq_error.mp h with h | ⟨_, _, h⟩
  · exact Or.inl (raiseIf_corrupt h)
  rcases bind_eq_error.mp h with h | ⟨_, _, h⟩
  · exact Or.inl (raiseIf_corrupt h)
  rcases bind_eq_error.mp h with h | ⟨_, _, h⟩
  · exact Or.inl (raiseIf_corrupt h)
  · cases h

/-- `parse_helper` returns, or raises `CorruptHelperError`. -/
def ParsesOrReports (blob : Bytes) : Prop :=
  (∃ h, parseHelper blob = .ok h) ∨ ∃ e, parseHelper blob = .error e ∧ e.isCorruptHelperError = true

/-- **The parser parses or reports** every blob but those with a slot name that is not ASCII. -/
theorem parsesOrReports_iff (blob : Bytes) : ParsesOrReports blob ↔ ¬ NonAsciiName blob := by
  constructor
  · rintro hreport hbad
    rcases hreport with ⟨h, hok⟩ | ⟨e, herr, hcorrupt⟩
    · rw [parseHelper_nonAscii hbad] at hok
      cases hok
    · rw [parseHelper_nonAscii hbad] at herr
      obtain rfl := Except.error.inj herr
      cases hcorrupt
  · intro hgood
    cases hrun : parseHelper blob with
    | ok h => exact Or.inl ⟨h, hrun⟩
    | error e => exact Or.inr ⟨e, hrun, (parseHelper_error hrun).resolve_right hgood⟩

/-! ## `prepare` over a stored helper -/

/-- A `CorruptHelperError` or a `DriftError`. -/
def isVerdict (e : Exc) : Bool := e.isCorruptHelperError || e.isDriftError

/-- The slots of the stored helper that the factors `raw` fill have distinct coordinates. -/
def SlotsApart (blob : Bytes) (raw : Dict Str) : Prop :=
  ∀ h F, parseHelper blob = .ok h → projectFactors raw h.normVersion = .ok F →
    DistinctCoordinates (h.slots.map HelperSlot.name) F h.salt

/-- **Recovery raises a verdict**, or it returns. -/
theorem recoverSession_error {raw : Dict Str} (hraw : ValuesEncode raw) {blob : Bytes}
    (hgood : ¬ NonAsciiName blob) (hapart : SlotsApart blob raw) {e : Exc}
    (h : recoverSession raw blob = .error e) : isVerdict e = true := by
  unfold recoverSession at h
  -- a helper that does not parse is answered with the advice to enroll again
  cases hparse : parseHelper blob with
  | error e' =>
    have hcorrupt := (parseHelper_error hparse).resolve_right hgood
    rw [parseStored, hparse] at h
    dsimp only at h
    rw [if_pos hcorrupt, error_bind] at h
    obtain rfl := Except.error.inj h
    rfl
  -- on a helper that parses, the recovery returns; a verdict is what it failed with
  | ok hp =>
    have hvalid := (parseHelper_eq_ok hparse).1
    have hne : ∀ s ∈ hp.slots, s.name ≠ [] := fun s hs => hvalid.name_ne_nil hs
    obtain ⟨F, hF⟩ := projectFactors_ok hraw hvalid.norm
    obtain ⟨x, hplaced⟩ := (hapart hp F hparse hF).placed hvalid.names_nodup
      fun s hs => List.mem_map_of_mem hs
    obtain ⟨r, hr⟩ := recoverHelper_total hplaced hne
    obtain ⟨factors, hfactors⟩ := projectFactors_ok hraw (Or.inr rfl)
    have hcore : recoverCore blob F = .ok r := by
      rw [recoverCore, hparse]
      exact hr
    rw [parseStored, hparse] at h
    dsimp only at h
    rw [ok_bind, hF, ok_bind, hcore, ok_bind] at h
    rcases bind_eq_error.mp h with h | ⟨_, _, h⟩
    · rw [raiseIf_eq_error] at h
      rw [← h.2]
      split <;> rfl
    · rw [hfactors, ok_bind] at h
      cases h

/-- `prepare` ended in a session or a verdict. -/
def EndsWell : EStateM.Result Exc (World Disk) Session → Prop
  | .ok _ _ => True
  | .error e _ => isVerdict e = true

omit [Sha256] in
/-- Requested names of the right shape are taken. -/
theorem requestedMandatory_ok {extra : List Str} (h : ∀ name ∈ extra, matchesSlotName name = true) :
    ∃ M, requestedMandatory extra = .ok M := by
  obtain ⟨M, hM, _⟩ := foldlM_ok addMandatory (fun _ _ => True) (l := extra) (s := {str "slstore"})
    (fun _ name M hname _ => ⟨insert name M, by
      rw [addMandatory, raiseIf_neg (not_not.mpr (h name hname))]; rfl, trivial⟩) trivial
  exact ⟨M, hM⟩

omit [Sha256] in
theorem requestedMandatory_eq_ok {extra : List Str} {M : Finset Str}
    (h : requestedMandatory extra = .ok M) : ∀ name ∈ extra, matchesSlotName name = true := by
  refine foldlM_inv (fun seen _ => ∀ name ∈ seen, matchesSlotName name = true)
    (fun seen name M M' _ hseen hstep => ?_) (fun _ hn => absurd hn List.not_mem_nil) h
  obtain ⟨_, hmatch, _⟩ := bind_eq_ok.mp hstep
  rw [raiseIf_eq_ok, not_not] at hmatch
  intro n hn
  rcases List.mem_append.mp hn with hold | hnew
  · exact hseen n hold
  · rw [List.mem_singleton.mp hnew]
    exact hmatch

omit [Sha256] in
theorem requestedMandatory_error {extra : List Str} {e : Exc} (h : requestedMandatory extra = .error e) :
    isVerdict e = false := by
  refine foldlM_error (P := fun e => isVerdict e = false) (fun name _ M e hstep => ?_) h
  rcases bind_eq_error.mp hstep with h | ⟨_, _, h⟩
  · rw [raiseIf_eq_error] at h
    rw [← h.2]
    rfl
  · cases h

omit [Sha256] in
/-- The factors of a launch can be encoded: the stored secret is added in hexadecimal. -/
theorem launchRaw_encode {files : Dict Bytes} {raw : Dict Str} (h : ValuesEncode raw) :
    ValuesEncode (launchRaw files raw) := by
  unfold launchRaw
  split
  · exact h
  · split
    · exact h.insert _ (canEncode_hexStr _)
    · exact h

/-- `prepare` refuses extra slot names that are none, and signals that cannot be encoded, before it
    looks at the store. -/
theorem prepareWith_inputs {extra : List Str} {collected : Dict Str} {w : World Disk}
    (h : EndsWell (prepareWith ⟨extra, false⟩ collected w)) :
    (∀ name ∈ extra, matchesSlotName name = true) ∧ ∀ item ∈ collected.entries, CanEncode item.2 := by
  unfold prepareWith at h
  cases hM : requestedMandatory extra with
  | error e =>
    rw [hM] at h
    have hverdict : isVerdict e = true := h
    rw [requestedMandatory_error hM] at hverdict
    cases hverdict
  | ok M =>
    rw [hM, lift_ok_bind] at h
    cases hnf : normalizeFactors collected with
    | error e =>
      rw [hnf] at h
      have hverdict : isVerdict e = true := h
      rw [normalizeFactors_eq_error hnf] at hverdict
      cases hverdict
    | ok nf => exact ⟨requestedMandatory_eq_ok hM, (normalizeFactors_encode hnf).1⟩

/-- **Corrupt helpers are reported as corrupt**, exactly when no record name has a byte outside
    ASCII: `parse_helper` then returns or raises `CorruptHelperError`; and over the stored blob and a
    valid secret, the coordinates of the present slots being distinct, `prepare` then ends in a
    session or a verdict — provided the extra slot names are valid and the signals can be encoded. -/
theorem corrupt_reported_iff (blob : Bytes) :
    (ParsesOrReports blob ↔ ¬ NonAsciiName blob) ∧
    ∀ (d : Dir) (secret : Bytes), d.files.lookup deviceFile = some blob → secret.length = 32 →
      d.files.lookup slstoreFile = some (slstorePrefix ++ secret) →
      ∀ (extra : List Str) (collected : Dict Str) (source : Bytes),
        (∀ nf, normalizeFactors collected = .ok nf → SlotsApart blob (launchRaw d.files nf)) →
        (EndsWell (prepareWith ⟨extra, false⟩ collected (d.world source [])) ↔
          ¬ NonAsciiName blob ∧ (∀ name ∈ extra, matchesSlotName name = true) ∧
            ∀ item ∈ collected.entries, CanEncode item.2) := by
  refine ⟨parsesOrReports_iff blob, fun d secret hfile hlen hsecret extra collected source hapart => ?_⟩
  -- the launch comes down to `recoverSession` on the stored blob
  have hrun : ∀ {M nf}, requestedMandatory extra = .ok M → normalizeFactors collected = .ok nf →
      prepareWith ⟨extra, false⟩ collected (d.world source []) =
        lift (recoverSession (launchRaw d.files nf) blob) (d.world source []) := fun hM hnf =>
    prepareWith_run hM hnf hfile (Or.inr ⟨secret, hlen, hsecret⟩) source
  constructor
  · intro hends
    obtain ⟨hextra, hcollected⟩ := prepareWith_inputs hends
    -- a name outside of ASCII raises out of the parser, past the handler for corrupt helpers
    refine ⟨fun hbad => ?_, hextra, hcollected⟩
    obtain ⟨M, hM⟩ := requestedMandatory_ok hextra
    obtain ⟨nf, hnf⟩ := normalizeFactors_ok hcollected
    have hraise : recoverSession (launchRaw d.files nf) blob = .error .unicodeDecodeError := by
      rw [recoverSession, parseStored, parseHelper_nonAscii hbad]
      rfl
    rw [hrun hM hnf, hraise] at hends
    cases hends
  · rintro ⟨hgood, hextra, hcollected⟩
    obtain ⟨M, hM⟩ := requestedMandatory_ok hextra
    obtain ⟨nf, hnf⟩ := normalizeFactors_ok hcollected
    rw [hrun hM hnf]
    cases hsession : recoverSession (launchRaw d.files nf) blob with
    | ok session => trivial
    | error e =>
      exact recoverSession_error (launchRaw_encode (normalizeFactors_encode hnf).2) hgood
        (hapart nf hnf) hsession

/-! ## A broken store -/

/-- A valid header, then the record of a slot whose name is the byte `0x80`. -/
def nonAsciiPayload : Bytes := [1, 2, 0, 8, 1, 6, 0, 0, 1, 0x80] ++ List.replicate 33 0

/-- The blob around it: anyone can compute the integrity hash. -/
def nonAsciiBlob : Bytes := frame nonAsciiPayload (List.replicate 32 0)

/-- A store with a blob and a valid secret. -/
def storeWith (blob : Bytes) : Dir where
  files := AList.insert deviceFile blob
    (AList.insert slstoreFile (slstorePrefix ++ List.replicate 32 7) ∅)
  log := []

omit [Sha256] in
theorem storeWith_device (blob : Bytes) : (storeWith blob).files.lookup deviceFile = some blob :=
  AList.lookup_insert _

omit [Sha256] in
theorem storeWith_secret (blob : Bytes) :
    (storeWith blob).files.lookup slstoreFile = some (slstorePrefix ++ List.replicate 32 7) :=
  (AList.lookup_insert_ne slstoreFile_ne).trans (AList.lookup_insert _)

/-- In the sample blob one name is not ASCII. -/
theorem nonAsciiBlob_broken : NonAsciiName nonAsciiBlob := by
  refine ⟨⟨2, 0, 8, 1, 6⟩, [], 1 :: ([0x80] ++ List.replicate 33 0), List.replicate 32 0, ?_⟩
  exact {
    frame := rfl
    length_le := by decide
    length_checkWord := rfl
    header := by constructor <;> decide
    slots_lt := by decide
    valid := fun _ hs => absurd hs List.not_mem_nil
    sorted := List.Pairwise.nil
    record := ⟨1, [0x80], List.replicate 33 0, rfl, rfl, by decide, 0x80, by simp, by decide⟩ }

/-- Whatever SHA-256 is, the parser raises `UnicodeDecodeError` on this blob, and so does `prepare`. -/
theorem nonAsciiBlob_escapes : ¬ ParsesOrReports nonAsciiBlob ∧
    ¬ EndsWell (prepareWith ⟨[], false⟩ ∅ ((storeWith nonAsciiBlob).world [] [])) := by
  refine ⟨fun h => (parsesOrReports_iff _).mp h nonAsciiBlob_broken, fun h => ?_⟩
  have hM : requestedMandatory [] = .ok {str "slstore"} := rfl
  have hnf : normalizeFactors ∅ = .ok ∅ := rfl
  have hraise : recoverSession (launchRaw (storeWith nonAsciiBlob).files ∅) nonAsciiBlob =
      .error .unicodeDecodeError := by
    rw [recoverSession, parseStored, parseHelper_nonAscii nonAsciiBlob_broken]
    rfl
  rw [Dir.world, prepareWith_run hM hnf (storeWith_device _)
    (Or.inr ⟨List.replicate 32 7, rfl, storeWith_secret _⟩) [], hraise] at h
  cases h

end Hashing

/-- **Not every corrupt blob is reported.** -/
theorem nonAsciiBlob_not_reported : ¬ @ParsesOrReports sampleHash (@nonAsciiBlob sampleHash) ∧
    ¬ EndsWell (@prepareWith Disk sampleHash _ ⟨[], false⟩ ∅
      ((storeWith (@nonAsciiBlob sampleHash)).world [] [])) :=
  @nonAsciiBlob_escapes sampleHash

/-- A store that holds three stray bytes is reported as corrupt. -/
theorem corrupt_reported_iff_sample :
    EndsWell (@prepareWith Disk sampleHash _ ⟨[str "tpm_ek"], false⟩ (dict [(str "cpu_id", str "x86")])
      ((storeWith [1, 2, 3]).world [] [])) := by
  let _ := sampleHash
  have hframe : openFrame [1, 2, 3] = .error (corrupt [.lit "truncated"]) := rfl
  have hparse : parseHelper [1, 2, 3] = .error (corrupt [.lit "truncated"]) := by
    rw [parseHelper, hframe]
    rfl
  have hgood : ¬ NonAsciiName [1, 2, 3] := (corrupt_reported_iff [1, 2, 3]).1.mp
    (Or.inr ⟨_, hparse, rfl⟩)
  refine ((corrupt_reported_iff [1, 2, 3]).2 (storeWith [1, 2, 3]) (List.replicate 32 7)
    (storeWith_device _) rfl (storeWith_secret _) _ _ [] ?_).mpr ⟨hgood, by decide, ?_⟩
  · intro nf _ h F hok
    rw [hparse] at hok
    cases hok
  · intro item hitem
    obtain rfl : item = ⟨str "cpu_id", str "x86"⟩ := List.mem_singleton.mp hitem
    intro c hc
    have hall : (str "x86").all (fun c => !isSurrogate c) = true := by decide
    exact Bool.not_eq_true' _ ▸ List.all_eq_true.mp hall c hc

end Bedrock.Slhwid

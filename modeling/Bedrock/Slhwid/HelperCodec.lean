/-
  The helper codec is a bijection.

  1. **The format** — `Helper.bytes` spells a parsed helper back out, and `Helper.Valid` lists what
     the parser insists on: a known schema, strictly sorted allowed names, reduced shares, a
     mandatory `slstore`, and `0 < mandatory < threshold ≤ slots`.

  2. **The parser** — `parseHelper_eq_ok`: `parseHelper blob = ok h` exactly when `h` is valid and
     `blob` is ITS bytes.  Every byte of an accepted blob is therefore forced by the helper.  The
     crux is the record loop (`parseSlot_eq_ok`, then `LoopInv.step` and `loop_run`): one pass consumes
     exactly the bytes of the slot it appends.

  3. **The writer** — `serializeHelper_eq`: on arguments a caller may pass, `serialize_helper` writes
     `Helper.bytes` of the helper it was asked for.
-/
import Bedrock.Slhwid.Helper

open Lib.Fallible Lib.LittleEndian Bedrock.Python

namespace Bedrock.Slhwid

/-! ## The bytes of a helper -/

/-- The bytes of ASCII text. -/
def asciiBytes (s : Str) : Bytes := s.map fun c => UInt8.ofNat c.val

/-- A slot as it is written: the name behind its length, the mark of a hard lock, the four limbs of the
    share. -/
def HelperSlot.bytes (s : HelperSlot) : Bytes :=
  [UInt8.ofNat s.name.length] ++ asciiBytes s.name ++ [if s.mandatory then 1 else 0] ++
    limbBytes s.share

/-- How many slots are hard locks. -/
def Helper.mandatoryCount (h : Helper) : Nat := h.slots.countP HelperSlot.mandatory

/-- The fixed part in front of the slots .. -/
def Helper.header (h : Helper) : Bytes :=
  [1, h.normVersion, h.salt, h.slots.length, h.mandatoryCount, h.threshold, 0, 0].map UInt8.ofNat

/-- .. and both together. -/
def Helper.payload (h : Helper) : Bytes := h.header ++ h.slots.flatMap HelperSlot.bytes

section Hashing

variable [Sha256]

/-- Magic, length, payload, check word and the hash of them all. -/
def frame (payload cw : Bytes) : Bytes :=
  let blob := helperMagic ++ toLE 4 payload.length ++ payload ++ cw
  blob ++ sha256 blob

/-- **The bytes of a helper**: the payload in its frame. -/
def Helper.bytes (h : Helper) : Bytes := frame h.payload h.checkWord

end Hashing

/-- What the parser insists on. -/
structure Helper.Valid (h : Helper) : Prop where
  /-- One of the two known versions. -/
  norm : h.normVersion = legacyNormVersion ∨ h.normVersion = currentNormVersion
  salt_lt : h.salt < 256
  /-- Every slot is one of that version. -/
  allowed : ∀ s ∈ h.slots, s.name ∈ allowedNames h.normVersion
  /-- The names go up. -/
  sorted : (h.slots.map HelperSlot.name).Pairwise (· < ·)
  /-- The shares are reduced. -/
  reduced : ∀ s ∈ h.slots, s.share.Reduced
  threshold_le : h.threshold ≤ h.slots.length
  mandatory_pos : 0 < h.mandatoryCount
  /-- The mandatory slots alone never recover the key. -/
  mandatory_lt : h.mandatoryCount < h.threshold
  /-- The stored secret is one of them. -/
  slstore : ∃ s ∈ h.slots, s.name = str "slstore" ∧ s.mandatory = true
  length_checkWord : h.checkWord.length = 32

/-! ## One record -/

theorem length_asciiBytes (s : Str) : (asciiBytes s).length = s.length := List.length_map _

theorem HelperSlot.length_bytes (s : HelperSlot) : s.bytes.length = s.name.length + 34 := by
  simp only [HelperSlot.bytes, List.length_append, List.length_singleton, length_asciiBytes,
    length_limbBytes]
  omega

/-- Where limb `i` stands inside the four. -/
theorem limbBytes_split (a c : Bytes) (k : Limbs) (i : Fin 4) :
    ∃ p q, a ++ limbBytes k ++ c = p ++ toLE 8 (k i) ++ q ∧ p.length = a.length + 8 * i.val := by
  fin_cases i
  · exact ⟨a, toLE 8 (k 1) ++ toLE 8 (k 2) ++ toLE 8 (k 3) ++ c, by simp [limbBytes], by simp⟩
  · exact ⟨a ++ toLE 8 (k 0), toLE 8 (k 2) ++ toLE 8 (k 3) ++ c, by simp [limbBytes], by simp⟩
  · exact ⟨a ++ toLE 8 (k 0) ++ toLE 8 (k 1), toLE 8 (k 3) ++ c, by simp [limbBytes], by simp⟩
  · exact ⟨a ++ toLE 8 (k 0) ++ toLE 8 (k 1) ++ toLE 8 (k 2), c, by simp [limbBytes], by simp⟩

/-- Reading four limbs back from where they were written. -/
theorem unpackLimbs_bytes {a c : Bytes} {k : Limbs} (hk : k.Reduced) {off : Nat}
    (hoff : off = a.length) : unpackLimbs (a ++ limbBytes k ++ c) off = .ok k := by
  subst hoff
  have hlen : ¬ (a ++ limbBytes k ++ c).length < a.length + 32 := by simp
  rw [unpackLimbs, if_neg hlen]
  congr 1
  funext i
  obtain ⟨p, q, hsplit, hp⟩ := limbBytes_split a c k i
  have hki := hk i
  rw [P_eq] at hki
  rw [hsplit, slice_mid hp.symm (by rw [hp, length_toLE])]
  exact ofLE_toLE_of_lt (by omega)

/-- Four limbs that were read are spelled by the bytes they were read from. -/
theorem unpackLimbs_eq_ok {b : Bytes} {off : Nat} {k : Limbs} (h : unpackLimbs b off = .ok k) :
    off + 32 ≤ b.length ∧ limbBytes k = slice b off (off + 32) := by
  unfold unpackLimbs at h
  split at h
  · cases h
  · rename_i hlen
    obtain rfl := Except.ok.inj h
    have hread : ∀ j, j + 8 ≤ b.length → toLE 8 (ofLE (slice b j (j + 8))) = slice b j (j + 8) :=
      fun j hj => toLE_ofLE (by rw [length_slice hj]; omega)
    refine ⟨by omega, ?_⟩
    show toLE 8 (ofLE (slice b off (off + 8))) ++ toLE 8 (ofLE (slice b (off + 8) (off + 8 + 8))) ++
      toLE 8 (ofLE (slice b (off + 16) (off + 16 + 8))) ++
      toLE 8 (ofLE (slice b (off + 24) (off + 24 + 8))) = _
    rw [hread _ (by omega), hread _ (by omega), hread _ (by omega), hread _ (by omega),
      slice_append (by omega) (by omega) (by omega), slice_append (by omega) (by omega) (by omega),
      slice_append (by omega) (by omega) (by omega)]

/-- The slot at the head of the bytes still to be read, in a state where it may come next. -/
structure NextSlot (allowed : List Str) (st : SlotLoop) (s : HelperSlot) : Prop where
  /-- The slot is one of the version. -/
  mem : s.name ∈ allowed
  /-- It is not there yet. -/
  fresh : s.name ∉ st.seen
  /-- It comes behind the one before. -/
  after : st.previous ≠ [] → st.previous < s.name
  /-- Its share is reduced. -/
  reduced : s.share.Reduced

/-- The loop variables after slot `s`, with `rest` still to be read. -/
def SlotLoop.push (st : SlotLoop) (s : HelperSlot) (rest : Bytes) : SlotLoop where
  rest := rest
  seen := s.name :: st.seen
  previous := s.name
  mandatoryCount := st.mandatoryCount + if s.mandatory then 1 else 0
  slots := st.slots ++ [s]

/-- The record of a slot in front of `rest`, cut where the parser cuts it. -/
theorem slot_cuts (s : HelperSlot) (rest : Bytes) :
    (s.bytes ++ rest)[0]? = some (UInt8.ofNat s.name.length) ∧
    slice (s.bytes ++ rest) 1 (1 + s.name.length) = asciiBytes s.name ∧
    (s.bytes ++ rest)[1 + s.name.length]? = some (if s.mandatory then 1 else 0) ∧
    (s.bytes ++ rest).drop (2 + s.name.length + 32) = rest := by
  have hname := length_asciiBytes s.name
  refine ⟨rfl, ?_, ?_, ?_⟩
  · have hcut : s.bytes ++ rest = [UInt8.ofNat s.name.length] ++ asciiBytes s.name ++
        ([if s.mandatory then 1 else 0] ++ limbBytes s.share ++ rest) := by
      simp [HelperSlot.bytes]
    rw [hcut]
    exact slice_mid rfl (by rw [hname]; rfl)
  · have hcut : s.bytes ++ rest = ([UInt8.ofNat s.name.length] ++ asciiBytes s.name) ++
        (if s.mandatory then 1 else 0) :: (limbBytes s.share ++ rest) := by
      simp [HelperSlot.bytes]
    rw [hcut, List.getElem?_append_right (by simp [hname])]
    simp [hname, Nat.add_comm]
  · rw [List.drop_append_of_le_length (by rw [s.length_bytes]; omega),
      List.drop_of_length_le (by rw [s.length_bytes]; omega), List.nil_append]

/-- **One pass reads one slot**: a record that may come next is appended and its bytes consumed. -/
theorem parseSlot_push {allowed : List Str} {st : SlotLoop} {s : HelperSlot} {rest : Bytes}
    (hrest : st.rest = s.bytes ++ rest) (hs : NextSlot allowed st s) (hascii : isAscii s.name = true)
    (hpos : 0 < s.name.length) (hlt : s.name.length < 256) :
    parseSlot allowed st = .ok (st.push s rest) := by
  -- where the record is cut: length byte, name, flag, share
  obtain ⟨hlen, hname, hflag, hdrop⟩ := slot_cuts s rest
  have hbytes := s.length_bytes
  have hlenNat : (UInt8.ofNat s.name.length).toNat = s.name.length := by
    simp [Nat.mod_eq_of_lt hlt]
  have hshare : unpackLimbs (s.bytes ++ rest) (2 + s.name.length) = .ok s.share := by
    have hcut : s.bytes ++ rest = ([UInt8.ofNat s.name.length] ++ asciiBytes s.name ++
        [if s.mandatory then 1 else 0]) ++ limbBytes s.share ++ rest := rfl
    rw [hcut]
    refine unpackLimbs_bytes hs.reduced ?_
    rw [List.length_append, List.length_append, length_asciiBytes]
    simp; omega
  have hflagNat : (if s.mandatory then (1 : UInt8) else 0).toNat = if s.mandatory then 1 else 0 := by
    cases s.mandatory <;> rfl
  -- the checks of the parser, in its order; every one of them passes
  rw [parseSlot, hrest, raiseIf_neg (by rw [List.length_append, hbytes]; omega), ok_bind,
    index_eq_ok.mpr hlen, ok_bind, hlenNat]
  dsimp only
  rw [raiseIf_neg (by rw [List.length_append, hbytes]; omega), ok_bind, hname, asciiBytes,
    decodeAscii_encode hascii, ok_bind, raiseIf_neg (not_not.mpr hs.mem), ok_bind,
    raiseIf_neg (by
      rintro (h | ⟨hne, hge⟩)
      · exact hs.fresh h
      · exact absurd (hs.after hne) (not_lt.mpr hge)), ok_bind,
    index_eq_ok.mpr hflag, ok_bind, hflagNat, raiseIf_neg (by cases s.mandatory <;> simp), ok_bind,
    hshare, ok_bind, raiseIf_neg (not_not.mpr hs.reduced), ok_bind, hdrop]
  have hmand : decide ((if s.mandatory then 1 else 0) = 1) = s.mandatory := by
    cases s.mandatory <;> rfl
  rw [hmand]
  rfl

/-- The record at the head of the bytes still to be read, as the parser cut it. -/
theorem record_bytes {b name : Bytes} {nameLen flag : UInt8} {share : Limbs}
    (hlen : b[0]? = some nameLen) (hname : slice b 1 (1 + nameLen.toNat) = name)
    (hflag : b[1 + nameLen.toNat]? = some flag)
    (hshare : unpackLimbs b (2 + nameLen.toNat) = .ok share) :
    b = [nameLen] ++ name ++ [flag] ++ limbBytes share ++ b.drop (2 + nameLen.toNat + 32) := by
  obtain ⟨hfit, hlimbs⟩ := unpackLimbs_eq_ok hshare
  have hfirst := slice_single hlen
  have hmid := slice_single hflag
  rw [show 1 + nameLen.toNat + 1 = 2 + nameLen.toNat by omega] at hmid
  rw [← hfirst, ← hname, ← hmid, hlimbs, slice_append (by omega) (by omega) (by omega),
    slice_append (by omega) (by omega) (by omega), slice_append (by omega) (by omega) (by omega)]
  exact (List.take_append_drop _ b).symm

/-- **One pass, inverted**: what the parser accepts is a record of a slot that may come next. -/
theorem parseSlot_eq_ok {allowed : List Str} {st st' : SlotLoop} (h : parseSlot allowed st = .ok st') :
    ∃ s rest, st.rest = s.bytes ++ rest ∧ NextSlot allowed st s ∧ st' = st.push s rest := by
  unfold parseSlot at h
  obtain ⟨_, _, h⟩ := bind_eq_ok.mp h
  obtain ⟨nameLen, hlen, h⟩ := bind_eq_ok.mp h
  obtain ⟨_, hfit, h⟩ := bind_eq_ok.mp h
  obtain ⟨name, hname, h⟩ := bind_eq_ok.mp h
  obtain ⟨_, hmem, h⟩ := bind_eq_ok.mp h
  obtain ⟨_, hseen, h⟩ := bind_eq_ok.mp h
  obtain ⟨flag, hflag, h⟩ := bind_eq_ok.mp h
  obtain ⟨_, hflag01, h⟩ := bind_eq_ok.mp h
  obtain ⟨share, hshare, h⟩ := bind_eq_ok.mp h
  obtain ⟨_, hred, h⟩ := bind_eq_ok.mp h
  obtain rfl := Except.ok.inj h
  rw [raiseIf_eq_ok] at hfit hmem hseen hflag01 hred
  obtain ⟨_, hascii⟩ := decodeAscii_eq_ok hname
  rw [index_eq_ok] at hlen hflag
  -- the two fields that the slot stores in another form are still spelled by their bytes
  have hnameLen : name.length = nameLen.toNat := by
    have hcut := length_slice (b := st.rest) (i := 1) (j := 1 + nameLen.toNat) (by omega)
    rw [← hascii, List.length_map] at hcut
    omega
  have hflagByte : (if decide (flag.toNat = 1) then (1 : UInt8) else 0) = flag := by
    apply UInt8.toNat_inj.mp
    by_cases h1 : flag.toNat = 1
    · simp [h1]
    · have h0 : flag.toNat = 0 := by omega
      simp [h0]
  refine ⟨⟨name, decide (flag.toNat = 1), share⟩, st.rest.drop (2 + nameLen.toNat + 32), ?_, ?_, rfl⟩
  · have hrec := record_bytes hlen hascii.symm hflag hshare
    show st.rest = [UInt8.ofNat name.length] ++ asciiBytes name ++
      [if decide (flag.toNat = 1) then (1 : UInt8) else 0] ++ limbBytes share ++ _
    rw [hflagByte, hnameLen, UInt8.ofNat_toNat]
    exact hrec
  · exact {
      mem := not_not.mp hmem
      fresh := fun hin => hseen (Or.inl hin)
      after := fun hne => not_le.mp fun hle => hseen (Or.inr ⟨hne, hle⟩)
      reduced := not_not.mp hred }

/-! ## The record loop -/

/-- The loop invariant: the slots read so far spell the bytes consumed, are valid, and are in
    order; the other variables are what the source keeps about them. -/
structure LoopInv (allowed : List Str) (start : Bytes) (i : Nat) (st : SlotLoop) : Prop where
  /-- The records read so far are the bytes consumed so far. -/
  bytes : start = st.slots.flatMap HelperSlot.bytes ++ st.rest
  /-- There are as many as passes. -/
  length : st.slots.length = i
  mem : ∀ s ∈ st.slots, s.name ∈ allowed ∧ s.share.Reduced
  sorted : (st.slots.map HelperSlot.name).Pairwise (· < ·)
  /-- `seen` holds their names. -/
  seen : ∀ n, n ∈ st.seen ↔ n ∈ st.slots.map HelperSlot.name
  /-- The mandatory ones were counted. -/
  count : st.mandatoryCount = st.slots.countP HelperSlot.mandatory
  /-- The last name is the greatest. -/
  previous : ∀ s ∈ st.slots, st.previous ≠ [] ∧ s.name ≤ st.previous

/-- **The loop over the slots**: its invariant holds in front of the first slot. -/
theorem LoopInv.init (allowed : List Str) (start : Bytes) :
    LoopInv allowed start 0 ⟨start, [], [], 0, []⟩ where
  bytes := rfl
  length := rfl
  mem := fun _ hs => absurd hs (List.not_mem_nil)
  sorted := List.Pairwise.nil
  seen := fun _ => Iff.rfl
  count := rfl
  previous := fun _ hs => absurd hs (List.not_mem_nil)

/-- A pass keeps the invariant. -/
theorem LoopInv.push {allowed : List Str} {start : Bytes} {i : Nat} {st : SlotLoop}
    (hinv : LoopInv allowed start i st) {s : HelperSlot} {rest : Bytes}
    (hrest : st.rest = s.bytes ++ rest) (hs : NextSlot allowed st s) (hne : s.name ≠ []) :
    LoopInv allowed start (i + 1) (st.push s rest) where
  bytes := by
    rw [hinv.bytes, hrest]
    simp [SlotLoop.push]
  -- one invariant for each thing the loop remembers
  length := by
    show (st.slots ++ [s]).length = i + 1
    rw [List.length_append, hinv.length]; rfl
  mem := fun s' hs' => by
    rcases List.mem_append.mp hs' with h | h
    · exact hinv.mem s' h
    · rw [List.mem_singleton.mp h]; exact ⟨hs.mem, hs.reduced⟩
  sorted := by
    show ((st.slots ++ [s]).map HelperSlot.name).Pairwise (· < ·)
    rw [List.map_append, List.pairwise_append]
    refine ⟨hinv.sorted, List.pairwise_singleton _ _, fun n hn n' hn' => ?_⟩
    obtain ⟨s', hs', rfl⟩ := List.mem_map.mp hn
    obtain rfl : n' = s.name := by simpa using hn'
    obtain ⟨hpne, hple⟩ := hinv.previous s' hs'
    exact lt_of_le_of_lt hple (hs.after hpne)
  seen := fun n => by
    show n ∈ s.name :: st.seen ↔ n ∈ (st.slots ++ [s]).map HelperSlot.name
    rw [List.mem_cons, hinv.seen n, List.map_append, List.mem_append, List.map_singleton,
      List.mem_singleton, or_comm]
  count := by
    show st.mandatoryCount + _ = (st.slots ++ [s]).countP HelperSlot.mandatory
    rw [hinv.count, List.countP_append, List.countP_singleton]
  previous := fun s' hs' => by
    show s.name ≠ [] ∧ s'.name ≤ s.name
    refine ⟨hne, ?_⟩
    rcases List.mem_append.mp hs' with h | h
    · obtain ⟨hpne, hple⟩ := hinv.previous s' h
      exact le_of_lt (lt_of_le_of_lt hple (hs.after hpne))
    · rw [List.mem_singleton.mp h]

theorem LoopInv.step {v : Nat} {start : Bytes} (i : Nat) (st st' : SlotLoop)
    (hinv : LoopInv (allowedNames v) start i st) (h : parseSlot (allowedNames v) st = .ok st') :
    LoopInv (allowedNames v) start (i + 1) st' := by
  obtain ⟨s, rest, hrest, hs, rfl⟩ := parseSlot_eq_ok h
  refine hinv.push hrest hs fun hnil => ?_
  have hpos := (allowedNames_length_lt hs.mem).1
  rw [hnil] at hpos
  exact absurd hpos (Nat.lt_irrefl 0)

/-- A slot that comes later in a sorted list may come next. -/
theorem LoopInv.next {allowed : List Str} {start : Bytes} {i : Nat} {st : SlotLoop}
    (hinv : LoopInv allowed start i st) {s : HelperSlot} {later : List HelperSlot}
    (hsorted : ((st.slots ++ s :: later).map HelperSlot.name).Pairwise (· < ·))
    (hprev : st.previous = [] ∨ ∃ s' ∈ st.slots, s'.name = st.previous)
    (hmem : s.name ∈ allowed) (hred : s.share.Reduced) : NextSlot allowed st s := by
  rw [List.map_append, List.pairwise_append] at hsorted
  have hlt : ∀ s' ∈ st.slots, s'.name < s.name := fun s' hs' =>
    hsorted.2.2 _ (List.mem_map_of_mem hs') _ (List.mem_cons_self ..)
  refine ⟨hmem, fun hin => ?_, fun hne => ?_, hred⟩
  · obtain ⟨s', hs', heq⟩ := List.mem_map.mp ((hinv.seen _).mp hin)
    exact absurd (hlt s' hs') (by rw [heq]; exact lt_irrefl _)
  · rcases hprev with h | ⟨s', hs', heq⟩
    · exact absurd h hne
    · rw [← heq]; exact hlt s' hs'

/-- **The loop reads back what was written**: from the bytes of a sorted list of valid slots it
    collects exactly that list, leaving what follows. -/
theorem loop_run {v : Nat} {start : Bytes} (tail : Bytes) :
    ∀ (later : List HelperSlot) {i : Nat} {st : SlotLoop}, LoopInv (allowedNames v) start i st →
      st.rest = later.flatMap HelperSlot.bytes ++ tail →
      ((st.slots ++ later).map HelperSlot.name).Pairwise (· < ·) →
      (st.previous = [] ∨ ∃ s' ∈ st.slots, s'.name = st.previous) →
      (∀ s ∈ later, s.name ∈ allowedNames v ∧ s.share.Reduced) →
      ∃ st', iterate (parseSlot (allowedNames v)) later.length st = .ok st' ∧
        st'.rest = tail ∧ st'.slots = st.slots ++ later ∧
        LoopInv (allowedNames v) start (i + later.length) st' := by
  -- over the records still to be read
  intro later
  induction later with
  | nil =>
    intro i st hinv hrest _ _ _
    exact ⟨st, rfl, hrest, (List.append_nil _).symm, hinv⟩
  | cons s later ih =>
    intro i st hinv hrest hsorted hprev hvalid
    obtain ⟨hmem, hred⟩ := hvalid s (List.mem_cons_self ..)
    obtain ⟨hpos, hle⟩ := allowedNames_length_lt hmem
    have hnext := hinv.next hsorted hprev hmem hred
    rw [List.flatMap_cons, List.append_assoc] at hrest
    have hpass := parseSlot_push hrest hnext (allowedNames_ascii hmem) hpos (by omega)
    have hinv' := hinv.push hrest hnext (List.ne_nil_of_length_pos hpos)
    obtain ⟨st', hrun, hrest', hslots, hlast⟩ := ih hinv' rfl
      (by show ((st.slots ++ [s] ++ later).map HelperSlot.name).Pairwise (· < ·)
          simpa using hsorted)
      (Or.inr ⟨s, List.mem_append_right _ (List.mem_singleton_self s), rfl⟩)
      (fun s' hs' => hvalid s' (List.mem_cons_of_mem s hs'))
    refine ⟨st', ?_, hrest', ?_, ?_⟩
    · rw [List.length_cons, iterate, hpass]; exact hrun
    · rw [hslots]; simp [SlotLoop.push]
    · rw [List.length_cons, show i + (later.length + 1) = i + 1 + later.length by omega]
      exact hlast

/-! ## The payload header -/

/-- The eight header bytes of the given fields. -/
def Header.bytes (hd : Header) : Bytes :=
  [1, hd.normVersion, hd.salt, hd.n, hd.mandatory, hd.threshold, 0, 0].map UInt8.ofNat

/-- What the header checks let through. -/
structure Header.Valid (hd : Header) : Prop where
  /-- One of the two known versions. -/
  norm : hd.normVersion = legacyNormVersion ∨ hd.normVersion = currentNormVersion
  salt_lt : hd.salt < 256
  n_pos : 0 < hd.n
  /-- At most 14 records. -/
  n_le : hd.n ≤ 14
  mandatory_pos : 0 < hd.mandatory
  /-- Some optional slot is needed. -/
  mandatory_lt : hd.mandatory < hd.threshold
  threshold_le : hd.threshold ≤ hd.n

/-- Eight bytes, by name. -/
theorem exists_eight {body : Bytes} (h : 8 ≤ body.length) :
    ∃ b₀ b₁ b₂ b₃ b₄ b₅ b₆ b₇ rest, body = [b₀, b₁, b₂, b₃, b₄, b₅, b₆, b₇] ++ rest := by
  match body, h with
  | b₀ :: b₁ :: b₂ :: b₃ :: b₄ :: b₅ :: b₆ :: b₇ :: rest, _ =>
    exact ⟨b₀, b₁, b₂, b₃, b₄, b₅, b₆, b₇, rest, rfl⟩

/-- **The header, inverted**: the first eight bytes are those of the fields that are returned. -/
theorem readHeader_eq_ok {body : Bytes} {hd : Header} (hlen : 8 ≤ body.length)
    (h : readHeader body = .ok hd) : hd.Valid ∧ body = hd.bytes ++ body.drop 8 := by
  -- eight bytes by name, then the checks of the source in its order
  obtain ⟨b₀, b₁, b₂, b₃, b₄, b₅, b₆, b₇, rest, rfl⟩ := exists_eight hlen
  unfold readHeader at h
  obtain ⟨x₀, h₀, h⟩ := bind_eq_ok.mp h
  obtain ⟨_, hversion, h⟩ := bind_eq_ok.mp h
  obtain ⟨x₁, h₁, h⟩ := bind_eq_ok.mp h
  obtain ⟨_, hnorm, h⟩ := bind_eq_ok.mp h
  obtain ⟨x₆, h₆, h⟩ := bind_eq_ok.mp h
  obtain ⟨x₇, h₇, h⟩ := bind_eq_ok.mp h
  obtain ⟨_, hres, h⟩ := bind_eq_ok.mp h
  obtain ⟨x₃, h₃, h⟩ := bind_eq_ok.mp h
  obtain ⟨x₄, h₄, h⟩ := bind_eq_ok.mp h
  obtain ⟨x₂, h₂, h⟩ := bind_eq_ok.mp h
  obtain ⟨x₅, h₅, h⟩ := bind_eq_ok.mp h
  obtain ⟨_, hcount, h⟩ := bind_eq_ok.mp h
  obtain ⟨_, hthr, h⟩ := bind_eq_ok.mp h
  obtain rfl := Except.ok.inj h
  rw [raiseIf_eq_ok] at hversion hnorm hres hcount hthr
  cases h₀; cases h₁; cases h₂; cases h₃; cases h₄; cases h₅; cases h₆; cases h₇
  rw [length_allowedNames] at hcount
  have hsalt := b₂.toNat_lt
  -- what is left of the blob are the eight bytes that were read
  refine ⟨by constructor <;> (dsimp only; omega), ?_⟩
  have hone : b₀ = 1 := UInt8.toNat_inj.mp (not_not.mp hversion)
  have hzero : b₆ = 0 ∧ b₇ = 0 := by
    rw [not_or, not_not, not_not] at hres; exact hres
  obtain ⟨rfl, rfl⟩ := hzero
  subst hone
  simp [Header.bytes]

/-- **The header, read back.** -/
theorem readHeader_bytes {hd : Header} (hv : hd.Valid) (rest : Bytes) :
    readHeader (hd.bytes ++ rest) = .ok hd := by
  -- every number of a valid header fits its byte
  have hnat : ∀ {v : Nat}, v < 256 → (UInt8.ofNat v).toNat = v := fun hlt => by
    simp [Nat.mod_eq_of_lt hlt]
  have hnorm : hd.normVersion < 256 := by
    rcases hv.norm with h | h <;> rw [h] <;> decide
  have hn := hnat (show hd.n < 256 by have := hv.n_le; omega)
  have ht := hnat (show hd.threshold < 256 by have := hv.n_le; have := hv.threshold_le; omega)
  have hm := hnat (show hd.mandatory < 256 by
    have := hv.n_le; have := hv.threshold_le; have := hv.mandatory_lt; omega)
  have hindex : ∀ i x, (hd.bytes ++ rest)[i]? = some x → index (hd.bytes ++ rest) i = .ok x :=
    fun i x h => index_eq_ok.mpr h
  unfold readHeader
  rw [hindex 0 1 rfl, ok_bind, raiseIf_neg (by decide), ok_bind,
    hindex 1 (UInt8.ofNat hd.normVersion) rfl, ok_bind, hnat hnorm,
    raiseIf_neg (by rcases hv.norm with h | h <;> rw [h] <;> decide), ok_bind,
    hindex 6 0 rfl, ok_bind, hindex 7 0 rfl, ok_bind, raiseIf_neg (by decide), ok_bind]
  dsimp only
  rw [hindex 3 (UInt8.ofNat hd.n) rfl, ok_bind, hindex 4 (UInt8.ofNat hd.mandatory) rfl, ok_bind,
    hindex 2 (UInt8.ofNat hd.salt) rfl, ok_bind, hindex 5 (UInt8.ofNat hd.threshold) rfl, ok_bind,
    hn, ht, hm, hnat hv.salt_lt, length_allowedNames]
  have hcount : ¬ (hd.n = 0 ∨ hd.n > 14) := by
    have := hv.n_pos; have := hv.n_le; omega
  have hthr : ¬ (hd.threshold = 0 ∨ hd.threshold > hd.n ∨ hd.mandatory = 0 ∨
      hd.mandatory ≥ hd.threshold) := by
    have := hv.mandatory_pos; have := hv.mandatory_lt; have := hv.threshold_le; omega
  rw [raiseIf_neg hcount, ok_bind, raiseIf_neg hthr]
  rfl

/-! ## Bounds of a valid helper -/

theorem Helper.header_eq (h : Helper) :
    h.header = Header.bytes ⟨h.normVersion, h.salt, h.slots.length, h.mandatoryCount, h.threshold⟩ :=
  rfl

theorem Helper.Valid.names_nodup {h : Helper} (hv : h.Valid) :
    (h.slots.map HelperSlot.name).Nodup := hv.sorted.imp fun hlt => ne_of_lt hlt

theorem Helper.Valid.name_ne_nil {h : Helper} (hv : h.Valid) {s : HelperSlot} (hs : s ∈ h.slots) :
    s.name ≠ [] := List.ne_nil_of_length_pos (allowedNames_length_lt (hv.allowed s hs)).1

/-- Distinct allowed names are at most fourteen. -/
theorem Helper.Valid.length_slots {h : Helper} (hv : h.Valid) : h.slots.length ≤ 14 := by
  have hsub : h.slots.map HelperSlot.name ⊆ allowedNames h.normVersion := fun n hn => by
    obtain ⟨s, hs, rfl⟩ := List.mem_map.mp hn
    exact hv.allowed s hs
  have hle := (hv.names_nodup.subperm hsub).length_le
  rwa [List.length_map, length_allowedNames] at hle

/-- The numbers in the header of a valid helper fit their fields. -/
theorem Helper.Valid.header {h : Helper} (hv : h.Valid) :
    Header.Valid ⟨h.normVersion, h.salt, h.slots.length, h.mandatoryCount, h.threshold⟩ where
  norm := hv.norm
  salt_lt := hv.salt_lt
  n_pos := by
    have := hv.mandatory_pos; have := hv.mandatory_lt; have := hv.threshold_le
    show 0 < h.slots.length
    omega
  n_le := hv.length_slots
  mandatory_pos := hv.mandatory_pos
  mandatory_lt := hv.mandatory_lt
  threshold_le := hv.threshold_le

theorem Helper.Valid.length_payload {h : Helper} (hv : h.Valid) :
    8 ≤ h.payload.length ∧ h.payload.length ≤ 4020 := by
  have hhead : h.header.length = 8 := rfl
  have hslots : ∀ l : List HelperSlot, (∀ s ∈ l, s ∈ h.slots) →
      (l.flatMap HelperSlot.bytes).length ≤ 54 * l.length := by
    intro l
    induction l with
    | nil => intro _; exact Nat.le_refl 0
    | cons s l ih =>
      intro hl
      have hs := (allowedNames_length_lt (hv.allowed s (hl s (List.mem_cons_self ..)))).2
      have hrest := ih fun s' hs' => hl s' (List.mem_cons_of_mem s hs')
      rw [List.flatMap_cons, List.length_append, s.length_bytes, List.length_cons]
      omega
  have hall := hslots h.slots fun _ hs => hs
  have hn := hv.length_slots
  rw [Helper.payload, List.length_append, hhead]
  omega

/-! ## The frame -/

section Hashing

variable [Sha256]

/-- Magic, length and hash are forty-four bytes. -/
theorem length_frame (payload cw : Bytes) :
    (frame payload cw).length = 44 + payload.length + cw.length := by
  have hmagic : helperMagic.length = 8 := rfl
  simp only [frame, List.length_append, hmagic, length_toLE, length_sha256]
  omega

/-- **The frame, read back.** -/
theorem openFrame_frame {payload cw : Bytes} (hpos : 8 ≤ payload.length)
    (hle : payload.length ≤ 4020) (hcw : cw.length = 32) :
    openFrame (frame payload cw) = .ok (payload, cw) := by
  have hlen := length_frame payload cw
  have hmagic : helperMagic.length = 8 := rfl
  let blob := helperMagic ++ toLE 4 payload.length ++ payload ++ cw
  have hblob : blob.length = 12 + payload.length + 32 := by
    simp only [blob, List.length_append, hmagic, length_toLE, hcw]
  have hframe : frame payload cw = blob ++ sha256 blob := rfl
  have hcut : (frame payload cw).length - 32 = blob.length := by omega
  have hI : unpackI (frame payload cw) 8 = .ok payload.length := by
    rw [unpackI, if_neg (by omega)]
    have hmid : slice (frame payload cw) 8 (8 + 4) = toLE 4 payload.length := by
      have hsplit : frame payload cw =
          helperMagic ++ toLE 4 payload.length ++ (payload ++ cw ++ sha256 blob) := by
        simp [hframe, blob]
      rw [hsplit]
      exact slice_mid hmagic.symm (by rw [hmagic, length_toLE])
    rw [hmid, ofLE_toLE_of_lt (by omega)]
  have hbody : slice (frame payload cw) 12 (12 + payload.length) = payload := by
    have hsplit : frame payload cw =
        (helperMagic ++ toLE 4 payload.length) ++ payload ++ (cw ++ sha256 blob) := by
      simp [hframe, blob]
    rw [hsplit]
    exact slice_mid (by simp [hmagic]) (by simp [hmagic])
  have hword : slice (frame payload cw) (12 + payload.length) (12 + payload.length + 32) = cw := by
    have hsplit : frame payload cw =
        (helperMagic ++ toLE 4 payload.length ++ payload) ++ cw ++ sha256 blob := by
      simp [hframe, blob]
    rw [hsplit]
    exact slice_mid (by simp [hmagic]; omega) (by simp [hmagic, hcw]; omega)
  have hhead : (frame payload cw).take 8 = helperMagic := by
    have hsplit : frame payload cw =
        helperMagic ++ (toLE 4 payload.length ++ payload ++ cw ++ sha256 blob) := by
      simp [hframe, blob]
    rw [hsplit, List.take_left' hmagic]
  unfold openFrame
  rw [raiseIf_neg (by omega), ok_bind, raiseIf_neg (by omega), ok_bind,
    raiseIf_neg (not_not.mpr hhead), ok_bind, raiseIf_neg (by
      rw [hcut, hframe, List.take_left, List.drop_left]; exact not_not.mpr rfl), ok_bind, hI, ok_bind,
    raiseIf_neg (by omega), ok_bind, hbody, hword]
  rfl

/-- **The frame, inverted**: magic, length and hash are forced. -/
theorem openFrame_eq_ok {blob body cw : Bytes} (h : openFrame blob = .ok (body, cw)) :
    blob = frame body cw ∧ 8 ≤ body.length ∧ body.length ≤ 4020 ∧ cw.length = 32 := by
  unfold openFrame at h
  obtain ⟨_, hbig, h⟩ := bind_eq_ok.mp h
  obtain ⟨_, hsmall, h⟩ := bind_eq_ok.mp h
  obtain ⟨_, hmagic, h⟩ := bind_eq_ok.mp h
  obtain ⟨_, hhash, h⟩ := bind_eq_ok.mp h
  obtain ⟨len, hlen, h⟩ := bind_eq_ok.mp h
  obtain ⟨_, hfit, h⟩ := bind_eq_ok.mp h
  cases h
  rw [raiseIf_eq_ok] at hbig hsmall hmagic hhash hfit
  have hlenLE : toLE 4 len = slice blob 8 12 := by
    unfold unpackI at hlen
    rw [if_neg (by omega)] at hlen
    obtain rfl := Except.ok.inj hlen
    exact toLE_ofLE (by rw [length_slice (by omega)])
  have hbody : (slice blob 12 (12 + len)).length = len := by
    rw [length_slice (by omega)]; omega
  -- the four parts in front of the hash are the blob without its last 32 bytes
  have hfront : helperMagic ++ toLE 4 len ++ slice blob 12 (12 + len) ++
      slice blob (12 + len) (12 + len + 32) = blob.take (blob.length - 32) := by
    have h0 : blob.take 8 = slice blob 0 8 := rfl
    rw [← not_not.mp hmagic, h0, hlenLE, slice_append (by omega) (by omega) (by omega),
      slice_append (by omega) (by omega) (by omega), slice_append (by omega) (by omega) (by omega),
      show blob.length - 32 = 12 + len + 32 by omega]
    rfl
  refine ⟨?_, by omega, by omega, by rw [length_slice (by omega)]; omega⟩
  show blob = _ ++ sha256 _
  rw [hbody, hfront, not_not.mp hhash, List.take_append_drop]

/-! ## The whole blob -/

/-- **Reading back**: the bytes of a valid helper parse to that helper. -/
theorem parseHelper_bytes {h : Helper} (hv : h.Valid) : parseHelper h.bytes = .ok h := by
  obtain ⟨hlo, hhi⟩ := hv.length_payload
  have hdrop : h.payload.drop 8 = h.slots.flatMap HelperSlot.bytes := List.drop_left' rfl
  obtain ⟨st, hrun, hrest, hslots, hinv⟩ := loop_run [] h.slots
    (LoopInv.init (allowedNames h.normVersion) (h.payload.drop 8))
    (by rw [hdrop, List.append_nil]) hv.sorted (Or.inl rfl)
    (fun s hs => ⟨hv.allowed s hs, hv.reduced s hs⟩)
  have hslots' : st.slots = h.slots := hslots
  unfold parseHelper
  rw [Helper.bytes, openFrame_frame hlo hhi hv.length_checkWord, ok_bind]
  dsimp only
  rw [show h.payload = h.header ++ h.slots.flatMap HelperSlot.bytes from rfl, h.header_eq,
    readHeader_bytes hv.header, ok_bind, ← h.header_eq]
  dsimp only
  have hany : st.slots.any (fun s => s.name = str "slstore" && s.mandatory) = true := by
    obtain ⟨s, hs, hname, hmand⟩ := hv.slstore
    rw [hslots']
    exact List.any_eq_true.mpr ⟨s, hs, by simp [hname, hmand]⟩
  have hcount : st.mandatoryCount = h.mandatoryCount := by
    rw [hinv.count, hslots']; rfl
  rw [show (h.header ++ h.slots.flatMap HelperSlot.bytes).drop 8 = h.payload.drop 8 from rfl, hrun,
    ok_bind, raiseIf_neg (not_not.mpr hrest), ok_bind, raiseIf_neg (not_not.mpr hcount), ok_bind,
    raiseIf_neg (not_not.mpr hany), ok_bind, hslots']
  rfl

/-- **Writing back**: an accepted blob is the bytes of the helper it parsed to, which is valid. -/
theorem parseHelper_eq_ok {blob : Bytes} {h : Helper} (hp : parseHelper blob = .ok h) :
    h.Valid ∧ blob = h.bytes := by
  unfold parseHelper at hp
  obtain ⟨⟨body, cw⟩, hframe, hp⟩ := bind_eq_ok.mp hp
  obtain ⟨hd, hhead, hp⟩ := bind_eq_ok.mp hp
  obtain ⟨st, hrun, hp⟩ := bind_eq_ok.mp hp
  obtain ⟨_, hrest, hp⟩ := bind_eq_ok.mp hp
  obtain ⟨_, hcount, hp⟩ := bind_eq_ok.mp hp
  obtain ⟨_, hslstore, hp⟩ := bind_eq_ok.mp hp
  obtain rfl := Except.ok.inj hp
  rw [raiseIf_eq_ok, not_not] at hrest hcount hslstore
  obtain ⟨hblob, hlen, _, hcw⟩ := openFrame_eq_ok hframe
  obtain ⟨hhd, hbody⟩ := readHeader_eq_ok hlen hhead
  have hinv := iterate_inv LoopInv.step (LoopInv.init (allowedNames hd.normVersion) (body.drop 8)) hrun
  rw [Nat.zero_add] at hinv
  have hmand : st.slots.countP HelperSlot.mandatory = hd.mandatory := by rw [← hinv.count, hcount]
  have hpay : body = hd.bytes ++ st.slots.flatMap HelperSlot.bytes := by
    have hb := hinv.bytes
    rw [hrest, List.append_nil] at hb
    rw [← hb]; exact hbody
  refine ⟨{
    norm := hhd.norm
    salt_lt := hhd.salt_lt
    allowed := fun s hs => (hinv.mem s hs).1
    sorted := hinv.sorted
    reduced := fun s hs => (hinv.mem s hs).2
    threshold_le := by show hd.threshold ≤ st.slots.length; rw [hinv.length]; exact hhd.threshold_le
    mandatory_pos := by show 0 < st.slots.countP _; rw [hmand]; exact hhd.mandatory_pos
    mandatory_lt := by show st.slots.countP _ < hd.threshold; rw [hmand]; exact hhd.mandatory_lt
    slstore := by
      obtain ⟨s, hs, h⟩ := List.any_eq_true.mp hslstore
      rw [Bool.and_eq_true, decide_eq_true_eq] at h
      exact ⟨s, hs, h⟩
    length_checkWord := hcw }, ?_⟩
  rw [hblob, hpay, Helper.bytes]
  congr 1
  rw [Helper.payload, Helper.header_eq]
  show _ = Header.bytes ⟨hd.normVersion, hd.salt, st.slots.length, _, hd.threshold⟩ ++ _
  rw [hinv.length]
  show _ = Header.bytes ⟨hd.normVersion, hd.salt, hd.n, st.slots.countP _, hd.threshold⟩ ++ _
  rw [hmand]

end Hashing

/-! ## The writer -/

/-- The share of a slot, as the writer looks it up. -/
def shareOf (shares : Dict Limbs) (n : Str) : Limbs := (shares.lookup n).getD default

/-- The helper `serialize_helper` is asked to write. -/
def helperOf (shares : Dict Limbs) (mandatory : Finset Str) (t salt : Nat) (cw : Bytes)
    (normVersion : Nat) : Helper where
  normVersion := normVersion
  salt := salt
  threshold := t
  slots := (sortedKeys shares).map fun n => ⟨n, decide (n ∈ mandatory), shareOf shares n⟩
  checkWord := cw

/-- What the callers of `serialize_helper` promise about its arguments. -/
structure Writable (shares : Dict Limbs) (mandatory : Finset Str) (t salt : Nat) (cw : Bytes)
    (normVersion : Nat) : Prop where
  /-- One of the two known versions. -/
  norm : normVersion = legacyNormVersion ∨ normVersion = currentNormVersion
  salt_lt : salt < 256
  /-- Every slot is one of that version. -/
  allowed : ∀ n ∈ shares, n ∈ allowedNames normVersion
  reduced : ∀ n share, shares.lookup n = some share → share.Reduced
  /-- The stored secret is there, and mandatory. -/
  slstore : str "slstore" ∈ shares ∧ str "slstore" ∈ mandatory
  mandatory_pos : 1 ≤ ((sortedKeys shares).filter (· ∈ mandatory)).length
  /-- Some optional slot is needed. -/
  mandatory_lt : ((sortedKeys shares).filter (· ∈ mandatory)).length < t
  /-- There are enough slots for the threshold. -/
  threshold_le : t ≤ (sortedKeys shares).length
  length_checkWord : cw.length = 32

/-- A new helper has the factors' names, sorted. -/
theorem helperOf_names (shares : Dict Limbs) (mandatory : Finset Str) (t salt : Nat) (cw : Bytes)
    (normVersion : Nat) :
    (helperOf shares mandatory t salt cw normVersion).slots.map HelperSlot.name =
      sortedKeys shares := by
  show ((sortedKeys shares).map _).map _ = _
  rw [List.map_map]
  exact List.map_id _

theorem helperOf_mandatoryCount (shares : Dict Limbs) (mandatory : Finset Str) (t salt : Nat)
    (cw : Bytes) (normVersion : Nat) :
    (helperOf shares mandatory t salt cw normVersion).mandatoryCount =
      ((sortedKeys shares).filter (· ∈ mandatory)).length := by
  rw [Helper.mandatoryCount, helperOf, List.countP_map, List.countP_eq_length_filter]
  rfl

/-- The shares of the factors are reduced. -/
theorem shareOf_reduced {shares : Dict Limbs}
    (h : ∀ n share, shares.lookup n = some share → share.Reduced) {n : Str} (hn : n ∈ shares) :
    (shareOf shares n).Reduced := by
  obtain ⟨share, hs⟩ := Option.isSome_iff_exists.mp (AList.lookup_isSome.mpr hn)
  rw [shareOf, hs]
  exact h n share hs

/-- Such arguments describe a valid helper. -/
theorem Writable.valid {shares : Dict Limbs} {mandatory : Finset Str} {t salt : Nat} {cw : Bytes}
    {v : Nat} (h : Writable shares mandatory t salt cw v) :
    (helperOf shares mandatory t salt cw v).Valid where
  norm := h.norm
  salt_lt := h.salt_lt
  allowed := fun s hs => by
    obtain ⟨n, hn, rfl⟩ := List.mem_map.mp hs
    exact h.allowed n (mem_sortedKeys.mp hn)
  sorted := by rw [helperOf_names]; exact sortedKeys_pairwise_lt shares
  reduced := fun s hs => by
    obtain ⟨n, hn, rfl⟩ := List.mem_map.mp hs
    exact shareOf_reduced h.reduced (mem_sortedKeys.mp hn)
  threshold_le := by
    show t ≤ ((sortedKeys shares).map _).length
    rw [List.length_map]; exact h.threshold_le
  mandatory_pos := by rw [helperOf_mandatoryCount]; exact h.mandatory_pos
  mandatory_lt := by rw [helperOf_mandatoryCount]; exact h.mandatory_lt
  slstore := ⟨⟨str "slstore", decide (str "slstore" ∈ mandatory), _⟩,
    List.mem_map.mpr ⟨_, mem_sortedKeys.mpr h.slstore.1, rfl⟩, rfl, decide_eq_true h.slstore.2⟩
  length_checkWord := h.length_checkWord

/-- The record loop of the writer appends the slots' bytes, one record a name. -/
theorem serializeSlots_eq {shares : Dict Limbs} (mandatory : Finset Str) {v : Nat} :
    ∀ (names : List Str) (payload : Bytes),
      (∀ n ∈ names, n ∈ allowedNames v ∧ n ∈ shares ∧ (shareOf shares n).Reduced) →
      names.foldlM (serializeSlot shares mandatory) payload = .ok (payload ++
        (names.map fun n => HelperSlot.mk n (decide (n ∈ mandatory)) (shareOf shares n)).flatMap
          HelperSlot.bytes) := by
  intro names
  induction names with
  | nil => intro payload _; simp [pure, Except.pure]
  | cons n names ih =>
    intro payload h
    obtain ⟨hmem, hin, hred⟩ := h n (List.mem_cons_self ..)
    obtain ⟨share, hs⟩ := Option.isSome_iff_exists.mp (AList.lookup_isSome.mpr hin)
    have hshare : shareOf shares n = share := by rw [shareOf, hs]; rfl
    have hlen := (allowedNames_length_lt hmem).2
    have hpass : serializeSlot shares mandatory payload n =
        .ok (payload ++ HelperSlot.bytes ⟨n, decide (n ∈ mandatory), shareOf shares n⟩) := by
      rw [serializeSlot, encodeAscii_ok (allowedNames_ascii hmem), ok_bind, List.length_map,
        byte_ok (by omega), ok_bind, Dict.item_eq_ok.mpr hs, ok_bind,
        packLimbs_ok (hshare ▸ hred), ok_bind, hshare]
      simp [HelperSlot.bytes, asciiBytes]
    rw [List.foldlM_cons, hpass, ok_bind, ih _ fun n' hn' => h n' (List.mem_cons_of_mem n hn')]
    simp

/-- **The writer writes the format.** -/
theorem serializeHelper_eq [Sha256] {shares : Dict Limbs} {mandatory : Finset Str} {t salt : Nat}
    {cw : Bytes} {v : Nat} (h : Writable shares mandatory t salt cw v) :
    serializeHelper shares mandatory t salt cw v =
      .ok (helperOf shares mandatory t salt cw v).bytes := by
  have hv := h.valid
  have hn := hv.length_slots
  have hlen : (helperOf shares mandatory t salt cw v).slots.length = (sortedKeys shares).length :=
    List.length_map _
  have hnorm : v < 256 := by rcases h.norm with rfl | rfl <;> decide
  have hmand := h.mandatory_lt
  have hthr := h.threshold_le
  have hbytes : ∀ l : List Nat, (∀ x ∈ l, x < 256) → l.mapM byte = .ok (l.map UInt8.ofNat) :=
    fun l hl => mapM_ok fun x hx => byte_ok (hl x hx)
  have hsalt := h.salt_lt
  have hpay := hv.length_payload
  have hloop := serializeSlots_eq mandatory (v := v) (sortedKeys shares)
    ((helperOf shares mandatory t salt cw v).header) fun n hn' =>
      have hin := mem_sortedKeys.mp hn'
      ⟨h.allowed n hin, hin, shareOf_reduced h.reduced hin⟩
  have hheader : (helperOf shares mandatory t salt cw v).header =
      [1, v, salt, (sortedKeys shares).length].map UInt8.ofNat ++
        [((sortedKeys shares).filter (· ∈ mandatory)).length, t, 0, 0].map UInt8.ofNat := by
    rw [Helper.header, hlen, helperOf_mandatoryCount]
    rfl
  unfold serializeHelper
  dsimp only
  rw [hbytes _ (by simp; omega), ok_bind, hbytes _ (by simp; omega), ok_bind, ← hheader, hloop,
    ok_bind]
  show (packI (helperOf shares mandatory t salt cw v).payload.length >>= _) = _
  rw [packI, if_pos (by omega), ok_bind]
  rfl

/-! ## A parsed helper, as the writer's arguments -/

/-- The share map of a helper. -/
def Helper.shares (h : Helper) : Dict Limbs :=
  h.slots.foldl (fun shares s => shares.insert s.name s.share) ∅

/-- A slot's share is found under its name. -/
theorem lookup_shares {slots : List HelperSlot} (hnd : (slots.map HelperSlot.name).Nodup)
    (shares : Dict Limbs) : ∀ s ∈ slots,
    (slots.foldl (fun shares s => shares.insert s.name s.share) shares).lookup s.name =
      some s.share := by
  induction slots generalizing shares with
  | nil => intro s hs; exact absurd hs (List.not_mem_nil)
  | cons s₀ slots ih =>
    rw [List.map_cons, List.nodup_cons] at hnd
    have hkeep : ∀ (l : List HelperSlot) (d : Dict Limbs), s₀.name ∉ l.map HelperSlot.name →
        (l.foldl (fun shares s => shares.insert s.name s.share) d).lookup s₀.name =
          d.lookup s₀.name := by
      intro l
      induction l with
      | nil => intro d _; rfl
      | cons s l ihl =>
        intro d hl
        rw [List.map_cons, List.mem_cons, not_or] at hl
        rw [List.foldl_cons, ihl _ hl.2, AList.lookup_insert_ne hl.1]
    intro s hs
    rw [List.foldl_cons]
    rcases List.mem_cons.mp hs with rfl | hs
    · rw [hkeep slots _ hnd.1, AList.lookup_insert]
    · exact ih hnd.2 _ s hs

/-- The names of the share map are the slots' names. -/
theorem mem_shares {h : Helper} {n : Str} : n ∈ h.shares ↔ n ∈ h.slots.map HelperSlot.name := by
  unfold Helper.shares
  suffices hgen : ∀ (l : List HelperSlot) (d : Dict Limbs),
      n ∈ l.foldl (fun shares s => shares.insert s.name s.share) d ↔
        n ∈ d ∨ n ∈ l.map HelperSlot.name by
    rw [hgen]
    exact or_iff_right (AList.notMem_empty n)
  intro l
  induction l with
  | nil => intro d; simp
  | cons s l ih =>
    intro d
    rw [List.foldl_cons, ih, AList.mem_insert, List.map_cons, List.mem_cons]
    tauto

/-- The names of the shares that were read are those of the slots. -/
theorem Helper.Valid.sortedKeys_shares {h : Helper} (hv : h.Valid) :
    sortedKeys h.shares = h.slots.map HelperSlot.name := by
  refine List.Perm.eq_of_pairwise (fun a b _ _ hab hba => absurd hab (lt_asymm hba))
    (sortedKeys_pairwise_lt _) hv.sorted ?_
  refine (List.perm_ext_iff_of_nodup ?_ ?_).mpr fun n => ?_
  · exact (sortedKeys_pairwise_lt _).imp fun hlt => ne_of_lt hlt
  · exact hv.sorted.imp fun hlt => ne_of_lt hlt
  · rw [mem_sortedKeys, mem_shares]

theorem Helper.Valid.mem_mandatory {h : Helper} (hv : h.Valid) {s : HelperSlot} (hs : s ∈ h.slots) :
    s.name ∈ h.mandatory ↔ s.mandatory = true := by
  have hnd := hv.names_nodup
  rw [Helper.mandatory, List.mem_toFinset, List.mem_map]
  constructor
  · rintro ⟨s', hs', hname⟩
    obtain ⟨hs', hmand⟩ := List.mem_filter.mp hs'
    rwa [List.inj_on_of_nodup_map hnd hs' hs hname] at hmand
  · intro hmand
    exact ⟨s, List.mem_filter.mpr ⟨hs, hmand⟩, rfl⟩

theorem Helper.Valid.slstore_mem {h : Helper} (hv : h.Valid) : str "slstore" ∈ h.mandatory := by
  obtain ⟨s, hs, hname, hmand⟩ := hv.slstore
  rw [← hname]
  exact (hv.mem_mandatory hs).mpr hmand

theorem Helper.Valid.mandatory_allowed {h : Helper} (hv : h.Valid) {n : Str}
    (hn : n ∈ h.mandatory) : n ∈ allowedNames h.normVersion := by
  obtain ⟨s, hs, rfl⟩ := List.mem_map.mp (List.mem_toFinset.mp hn)
  exact hv.allowed s (List.mem_filter.mp hs).1

/-- Splitting a valid helper into arguments and putting it together again. -/
theorem Helper.Valid.helperOf_eq {h : Helper} (hv : h.Valid) :
    helperOf h.shares h.mandatory h.threshold h.salt h.checkWord h.normVersion = h := by
  have hnd := hv.names_nodup
  have hslots : (sortedKeys h.shares).map (fun n =>
      HelperSlot.mk n (decide (n ∈ h.mandatory)) (shareOf h.shares n)) = h.slots := by
    rw [hv.sortedKeys_shares, List.map_map]
    conv_rhs => rw [← List.map_id h.slots]
    refine List.map_congr_left fun s hs => ?_
    have hmand : decide (s.name ∈ h.mandatory) = s.mandatory := by
      rw [Bool.eq_iff_iff, decide_eq_true_eq]; exact hv.mem_mandatory hs
    have hshare : shareOf h.shares s.name = s.share := by
      rw [shareOf, Helper.shares, lookup_shares hnd ∅ s hs]; rfl
    show HelperSlot.mk s.name (decide (s.name ∈ h.mandatory)) (shareOf h.shares s.name) = s
    rw [hmand, hshare]
  unfold helperOf
  rw [hslots]

/-- The arguments a valid helper splits into are ones the writer accepts. -/
theorem Helper.Valid.writable {h : Helper} (hv : h.Valid) :
    Writable h.shares h.mandatory h.threshold h.salt h.checkWord h.normVersion := by
  have hnd := hv.names_nodup
  have hcount : ((sortedKeys h.shares).filter (· ∈ h.mandatory)).length = h.mandatoryCount := by
    rw [← helperOf_mandatoryCount h.shares h.mandatory h.threshold h.salt h.checkWord h.normVersion,
      hv.helperOf_eq]
  exact {
    norm := hv.norm
    salt_lt := hv.salt_lt
    allowed := fun n hn => by
      obtain ⟨s, hs, rfl⟩ := List.mem_map.mp (mem_shares.mp hn)
      exact hv.allowed s hs
    reduced := fun n share hn => by
      obtain ⟨s, hs, rfl⟩ := List.mem_map.mp (mem_shares.mp
        (AList.lookup_isSome.mp (Option.isSome_iff_exists.mpr ⟨share, hn⟩)))
      rw [Helper.shares, lookup_shares hnd ∅ s hs] at hn
      obtain rfl := Option.some.inj hn
      exact hv.reduced s hs
    slstore := by
      obtain ⟨s, hs, hname, _⟩ := hv.slstore
      refine ⟨?_, hv.slstore_mem⟩
      rw [← hname]
      exact mem_shares.mpr (List.mem_map_of_mem hs)
    mandatory_pos := by rw [hcount]; exact hv.mandatory_pos
    mandatory_lt := by rw [hcount]; exact hv.mandatory_lt
    threshold_le := by
      rw [hv.sortedKeys_shares, List.length_map]; exact hv.threshold_le
    length_checkWord := hv.length_checkWord }

end Bedrock.Slhwid

/-
  `slhwid/_collect_windows.py`, `_system_uuid`: the walk over the firmware's SMBIOS table.

  1. **Program** — two nested loops over bytes that the firmware supplies: the outer one reads a
     structure's header and skips its formatted area by the length byte, the inner one looks for the
     double NUL behind its strings.  The state has the offset and, for the bound on the reads, the end
     of the furthest read so far.

  2. **One pass** — `Pass` says what a pass of the outer loop can do, whatever the bytes are
     (`walkPass_ensures`).  Every further pass moves the offset, so the loops end (`walk_ensures`).

  3. **Structures** — over a concatenation of well-formed structures the walk is at the start of one in
     every pass: the first double NUL behind a formatted area is the end of the string set
     (`StopsAt.structure_end`).
-/
import Bedrock.Lib.Delimited
import Bedrock.Lib.LittleEndian
import Bedrock.Lib.Loop
import Bedrock.Lib.Search
import Bedrock.Python.Hash

open Lib.Fallible Lib.Loop Lib.LittleEndian Lib.Delimited Lib.Search Bedrock.Python

namespace Bedrock.Slhwid

/-! ## The text of a UUID -/

/-- `b[start:stop:-1]`, down to the first byte where there is no `stop`. -/
def sliceDown (b : Bytes) (start : Nat) (stop : Option Nat) : Bytes :=
  (slice b (stop.elim 0 (· + 1)) (start + 1)).reverse

/-- `str(uuid.UUID(bytes=b))`. -/
def uuidStr (b : Bytes) : Except Exc Str := do
  raiseIf (b.length ≠ 16) (.valueError "bytes is not a 16-char string")
  let hex := hexStr b
  return hex.take 8 ++ str "-" ++ (hex.drop 8).take 4 ++ str "-" ++ (hex.drop 12).take 4 ++ str "-" ++
    (hex.drop 16).take 4 ++ str "-" ++ hex.drop 20

/-- The bytes of the UUID field, its first three numbers turned round. -/
def ordered (raw : Bytes) : Bytes :=
  sliceDown raw 3 none ++ sliceDown raw 5 (some 3) ++ sliceDown raw 7 (some 5) ++ raw.drop 8

/-- What is returned for a UUID field. -/
def uuidOf (raw : Bytes) : Except Exc Str :=
  if ((ordered raw).any fun b => b ≠ 0) ∧ ordered raw ≠ List.replicate 16 0xFF then
    uuidStr (ordered raw)
  else return []

/-! ## The walk -/

/-- The offset, and the end of the furthest read. -/
structure Walk where
  offset : Nat
  reach : Nat

/-- A step of the walk reads the table, moves the offset and may raise. -/
abbrev WalkM := EStateM Exc Walk

/-- `table[i]`. -/
def readByte (table : Bytes) (i : Nat) : WalkM UInt8 := do
  modify fun w => { w with reach := max w.reach (i + 1) }
  lift (index table i)

/-- `table[start:stop]`. -/
def readSlice (table : Bytes) (start stop : Nat) : WalkM Bytes := do
  modify fun w => { w with reach := max w.reach stop }
  return slice table start stop

/-- `offset += n`. -/
def advance (n : Nat) : WalkM Unit := modify fun w => { w with offset := w.offset + n }

/-- One test of the inner loop, and its body. -/
def scanPass (table : Bytes) : WalkM (Option Unit) := do
  let offset := (← get).offset
  if ¬ offset + 1 < table.length then return some ()
  let pair ← readSlice table offset (offset + 2)
  if pair = [0, 0] then return some ()
  advance 1
  return none

/-- The inner loop, and the step over the double NUL.  The passes are never used up, which is part of
    `scan_ensures`. -/
def scan (table : Bytes) : WalkM Unit := do
  match ← forever (scanPass table) (table.length + 1) with
  | some () => advance 2
  | none => throw .recursionError

/-- One test of the outer loop, and its body; a result is what the function returns. -/
def walkPass (table : Bytes) : WalkM (Option Str) := do
  let offset := (← get).offset
  if ¬ offset + 4 ≤ table.length then return some []
  let kind ← readByte table offset
  let length ← readByte table (offset + 1)
  if length.toNat < 4 ∨ offset + length.toNat > table.length then return some []
  if kind = 1 ∧ length.toNat ≥ 24 then
    let raw ← readSlice table (offset + 8) (offset + 24)
    let uuid ← lift (uuidOf raw)
    return some uuid
  advance length.toNat
  scan table
  return none

/-- The outer loop.  Its passes are never used up either (`walk_ensures`). -/
def walk (table : Bytes) : WalkM Str := do
  match ← forever (walkPass table) (table.length + 1) with
  | some uuid => return uuid
  | none => throw .recursionError

/-- What the two calls of `GetSystemFirmwareTable` return, and the buffer behind the second. -/
structure Firmware where
  /-- What the first call returns. -/
  size : Int
  /-- What the second returns. -/
  filled : Int
  /-- The buffer behind it. -/
  data : Bytes
  length_data : data.length = size.toNat

/-- `_system_uuid`. -/
def systemUuid (fw : Firmware) : Except Exc Str := do
  if fw.size = 0 ∨ fw.size > 1024 * 1024 then return []
  raiseIf (fw.size < 0) (.valueError ("Array length must be >= 0, not " ++ toString fw.size))
  if fw.filled ≠ fw.size ∨ fw.size < 8 then return []
  outcome (walk (fw.data.drop 8) ⟨0, 0⟩)

/-! ## What the text says -/

/-- `v` in `w` bytes, most significant byte first. -/
def toBE (w v : Nat) : Bytes := (toLE w v).reverse

/-- The text of a UUID field: three little-endian numbers, of four, two and two bytes, and eight
    bytes as they stand. -/
def fieldText (raw : Bytes) : Str :=
  hexStr (toBE 4 (ofLE (slice raw 0 4))) ++ str "-" ++ hexStr (toBE 2 (ofLE (slice raw 4 6))) ++
    str "-" ++ hexStr (toBE 2 (ofLE (slice raw 6 8))) ++ str "-" ++ hexStr (slice raw 8 10) ++
    str "-" ++ hexStr (slice raw 10 16)

/-- A field of zeros or of `FF`s is no UUID. -/
def uuidText (raw : Bytes) : Str :=
  if (∀ b ∈ raw, b = 0) ∨ (∀ b ∈ raw, b = 0xFF) then [] else fieldText raw

theorem toBE_ofLE {w : Nat} {b : Bytes} (h : b.length = w) : toBE w (ofLE b) = b.reverse := by
  rw [toBE, toLE_ofLE h]

/-- Every byte prints as two hexadecimal digits. -/
theorem length_hexStr (b : Bytes) : (hexStr b).length = 2 * b.length := by
  induction b with
  | nil => rfl
  | cons x b ih =>
    show (hexByte x ++ hexStr b).length = _
    rw [List.length_append, ih, List.length_cons]
    show 2 + 2 * b.length = _
    omega

/-- The text has the five parts of the bytes. -/
theorem uuidStr_parts {a b c d e : Bytes} (ha : a.length = 4) (hb : b.length = 2) (hc : c.length = 2)
    (hd : d.length = 2) (he : e.length = 6) :
    uuidStr (a ++ b ++ c ++ d ++ e) = .ok (hexStr a ++ str "-" ++ hexStr b ++ str "-" ++ hexStr c ++
      str "-" ++ hexStr d ++ str "-" ++ hexStr e) := by
  have hlen : (a ++ b ++ c ++ d ++ e).length = 16 := by
    simp only [List.length_append, ha, hb, hc, hd, he]
  have hhex : hexStr (a ++ b ++ c ++ d ++ e) =
      hexStr a ++ (hexStr b ++ (hexStr c ++ (hexStr d ++ hexStr e))) := by
    simp only [hexStr, List.flatMap_append, List.append_assoc]
  have ha' : (hexStr a).length = 8 := by rw [length_hexStr, ha]
  have hb' : (hexStr b).length = 4 := by rw [length_hexStr, hb]
  have hc' : (hexStr c).length = 4 := by rw [length_hexStr, hc]
  have hd' : (hexStr d).length = 4 := by rw [length_hexStr, hd]
  -- the digits of the five parts in a row, then cut at 8, 12, 16 and 20
  rw [uuidStr, raiseIf_neg (not_not.mpr hlen), ok_bind, hhex]
  generalize hall : hexStr a ++ (hexStr b ++ (hexStr c ++ (hexStr d ++ hexStr e))) = hex
  have h₀ : hex.take 8 = hexStr a := by rw [← hall]; exact List.take_left' ha'
  have h₈ : hex.drop 8 = hexStr b ++ (hexStr c ++ (hexStr d ++ hexStr e)) := by
    rw [← hall]; exact List.drop_left' ha'
  have h₁₂ : hex.drop 12 = hexStr c ++ (hexStr d ++ hexStr e) := by
    show hex.drop (8 + 4) = _
    rw [← List.drop_drop, h₈]; exact List.drop_left' hb'
  have h₁₆ : hex.drop 16 = hexStr d ++ hexStr e := by
    show hex.drop (12 + 4) = _
    rw [← List.drop_drop, h₁₂]; exact List.drop_left' hc'
  have h₂₀ : hex.drop 20 = hexStr e := by
    show hex.drop (16 + 4) = _
    rw [← List.drop_drop, h₁₆]; exact List.drop_left' hd'
  dsimp only
  rw [h₀, h₈, h₁₂, h₁₆, h₂₀, List.take_left' hb', List.take_left' hc', List.take_left' hd']
  rfl

section Field

variable {raw : Bytes} (h : raw.length = 16)

include h

/-- The field order of a UUID, with its first three groups byte-swapped. -/
theorem ordered_eq : ordered raw = toBE 4 (ofLE (slice raw 0 4)) ++ toBE 2 (ofLE (slice raw 4 6)) ++
    toBE 2 (ofLE (slice raw 6 8)) ++ slice raw 8 10 ++ slice raw 10 16 := by
  rw [toBE_ofLE (w := 4) (b := slice raw 0 4) (length_slice (by omega)),
    toBE_ofLE (w := 2) (b := slice raw 4 6) (length_slice (by omega)),
    toBE_ofLE (w := 2) (b := slice raw 6 8) (length_slice (by omega)),
    List.append_assoc _ (slice raw 8 10), slice_append (by omega) (by omega) (by omega)]
  show _ ++ raw.drop 8 = _ ++ (raw.take 16).drop 8
  rw [List.take_of_length_le h.le]
  rfl

theorem length_ordered : (ordered raw).length = 16 := by
  rw [ordered_eq h]
  simp only [List.length_append, toBE, List.length_reverse, length_toLE]
  rw [length_slice (by omega), length_slice (by omega)]

/-- Reordering adds no byte either, so an all-zero or all-one UUID stays one. -/
theorem mem_ordered {b : UInt8} : b ∈ ordered raw ↔ b ∈ raw := by
  have hraw : raw = slice raw 0 4 ++ slice raw 4 6 ++ slice raw 6 8 ++ raw.drop 8 := by
    rw [slice_append (by omega) (by omega) (by omega), slice_append (by omega) (by omega) (by omega)]
    exact (List.take_append_drop 8 raw).symm
  conv_rhs => rw [hraw]
  simp only [ordered, sliceDown, List.mem_append, List.mem_reverse]
  rfl

/-- **What is returned for a UUID field** is its text. -/
theorem uuidOf_eq : uuidOf raw = .ok (uuidText raw) := by
  have hzero : ((ordered raw).any fun b => b ≠ 0) = true ↔ ¬ ∀ b ∈ raw, b = 0 := by
    rw [List.any_eq_true, not_forall₂]
    simp only [mem_ordered h, decide_eq_true_eq, exists_prop]
  have hfull : ordered raw = List.replicate 16 0xFF ↔ ∀ b ∈ raw, b = 0xFF := by
    rw [List.eq_replicate_iff]
    simp only [mem_ordered h, length_ordered h, true_and]
  unfold uuidOf uuidText
  by_cases hnone : (∀ b ∈ raw, b = 0) ∨ (∀ b ∈ raw, b = 0xFF)
  · rw [if_neg (by rw [hzero, Ne, hfull, ← not_or, not_not]; exact hnone), if_pos hnone]
    rfl
  · rw [if_pos (by rw [hzero, Ne, hfull, ← not_or]; exact hnone), if_neg hnone, ordered_eq h]
    refine uuidStr_parts ?_ ?_ ?_ (length_slice (by omega)) (length_slice (by omega))
    · rw [toBE, List.length_reverse, length_toLE]
    · rw [toBE, List.length_reverse, length_toLE]
    · rw [toBE, List.length_reverse, length_toLE]

end Field

/-! ## One pass -/

/-- A read inside the table returns its byte and moves the reach past it. -/
theorem readByte_run {table : Bytes} {i : Nat} (hi : i < table.length) (w : Walk) :
    readByte table i w = .ok (table.get ⟨i, hi⟩) { w with reach := max w.reach (i + 1) } := by
  have hindex : index table i = .ok (table.get ⟨i, hi⟩) := index_eq_ok.mpr (List.getElem?_eq_getElem hi)
  show lift (index table i) _ = _
  rw [hindex]
  rfl

theorem readSlice_run (table : Bytes) (start stop : Nat) (w : Walk) :
    readSlice table start stop w = .ok (slice table start stop) { w with reach := max w.reach stop } :=
  rfl

theorem advance_run (n : Nat) (w : Walk) :
    advance n w = .ok () { w with offset := w.offset + n } := rfl

/-- Where the inner loop stops: at the first double NUL, or where no two bytes are left. -/
structure StopsAt (table : Bytes) (start stop : Nat) : Prop where
  start_le : start ≤ stop
  /-- No double NUL before it .. -/
  before : ∀ j, start ≤ j → j < stop → j + 1 < table.length ∧ slice table j (j + 2) ≠ [0, 0]
  /-- .. and one there, unless the table is over. -/
  here : stop + 1 < table.length → slice table stop (stop + 2) = [0, 0]

/-- **The inner loop** reads within the table and ends where it should. -/
theorem scan_ensures {table : Bytes} {w : Walk} (hreach : w.reach ≤ table.length) :
    Ensures (scan table) w (fun _ w' => w'.reach ≤ table.length ∧
      ∃ stop, StopsAt table w.offset stop ∧ w'.offset = stop + 2) (fun _ _ => False) := by
  -- the invariant of the scan: reads stay inside the table, and no NUL pair was passed
  let Inv : Walk → Prop := fun s => s.reach ≤ table.length ∧ w.offset ≤ s.offset ∧
    ∀ j, w.offset ≤ j → j < s.offset → j + 1 < table.length ∧ slice table j (j + 2) ≠ [0, 0]
  refine Ensures.bind (forever_ensures (I := Inv) (μ := fun s => table.length - s.offset)
    (Q := fun _ s => s.reach ≤ table.length ∧ StopsAt table w.offset s.offset) ?_ ?_ ?_) fun r s h => ?_
  · rintro s ⟨hs, hle, hbefore⟩
    refine Ensures.bind_ok (run_get s) ?_
    by_cases hmore : s.offset + 1 < table.length
    · rw [if_neg (not_not.mpr hmore)]
      refine Ensures.bind_ok (readSlice_run table _ _ s) ?_
      have hs' : max s.reach (s.offset + 2) ≤ table.length := by omega
      -- the terminator, or one byte further
      by_cases hpair : slice table s.offset (s.offset + 2) = [0, 0]
      · rw [if_pos hpair]
        exact ⟨hs', hle, hbefore, fun _ => hpair⟩
      · rw [if_neg hpair]
        refine Ensures.bind_ok (advance_run 1 _) ⟨⟨hs', by show w.offset ≤ s.offset + 1; omega, ?_⟩, ?_⟩
        · intro j hj hlt
          rcases Nat.lt_succ_iff_lt_or_eq.mp hlt with hlt | rfl
          · exact hbefore j hj hlt
          · exact ⟨hmore, hpair⟩
        · show table.length - (s.offset + 1) < table.length - s.offset
          omega
    · rw [if_pos hmore]
      exact ⟨hs, hle, hbefore, fun h => absurd h hmore⟩
  · exact ⟨hreach, le_rfl, fun j hj hlt => by omega⟩
  · omega
  · obtain ⟨_, rfl, hs, hstop⟩ := h
    exact ⟨hs, s.offset, hstop, rfl⟩

/-- **What a pass can do**: its result, and the offset behind it. -/
inductive Pass (table : Bytes) (offset : Nat) : Option Str → Nat → Prop
  /-- the table is over -/
  | finished : table.length < offset + 4 → Pass table offset (some []) offset
  /-- the length byte makes no sense -/
  | broken {length : UInt8} : table[offset + 1]? = some length →
      length.toNat < 4 ∨ table.length < offset + length.toNat → Pass table offset (some []) offset
  /-- a type-1 structure with a UUID -/
  | system {length : UInt8} : table[offset]? = some 1 → table[offset + 1]? = some length →
      24 ≤ length.toNat → offset + length.toNat ≤ table.length →
      Pass table offset (some (uuidText (slice table (offset + 8) (offset + 24)))) offset
  /-- another structure -/
  | skipped {kind length : UInt8} {stop : Nat} : table[offset]? = some kind →
      table[offset + 1]? = some length → 4 ≤ length.toNat →
      offset + length.toNat ≤ table.length → ¬ (kind = 1 ∧ 24 ≤ length.toNat) →
      StopsAt table (offset + length.toNat) stop → Pass table offset none (stop + 2)

/-- **One pass** reads within the table, and does one of these. -/
theorem walkPass_ensures {table : Bytes} {w : Walk} (hreach : w.reach ≤ table.length) :
    Ensures (walkPass table) w
      (fun r w' => w'.reach ≤ table.length ∧ Pass table w.offset r w'.offset) (fun _ _ => False) := by
  refine Ensures.bind_ok (run_get w) ?_
  by_cases hmore : w.offset + 4 ≤ table.length
  · rw [if_neg (not_not.mpr hmore)]
    have h₀ : w.offset < table.length := by omega
    have h₁ : w.offset + 1 < table.length := by omega
    refine Ensures.bind_ok (readByte_run h₀ w) (Ensures.bind_ok (readByte_run h₁ _) ?_)
    have hkind : table[w.offset]? = some (table.get ⟨w.offset, h₀⟩) := List.getElem?_eq_getElem h₀
    have hlength : table[w.offset + 1]? = some (table.get ⟨w.offset + 1, h₁⟩) :=
      List.getElem?_eq_getElem h₁
    generalize table.get ⟨w.offset, h₀⟩ = kind at hkind ⊢
    generalize table.get ⟨w.offset + 1, h₁⟩ = length at hlength ⊢
    have hread : max (max w.reach (w.offset + 1)) (w.offset + 1 + 1) ≤ table.length := by omega
    -- a structure that overruns the table ends the walk
    by_cases hbroken : length.toNat < 4 ∨ w.offset + length.toNat > table.length
    · rw [if_pos hbroken]
      exact ⟨hread, Pass.broken hlength hbroken⟩
    rw [if_neg hbroken]
    have hfits : w.offset + length.toNat ≤ table.length := by omega
    -- system information ends it too; every other structure is skipped with its strings
    by_cases hsystem : kind = 1 ∧ length.toNat ≥ 24
    · rw [if_pos hsystem]
      refine Ensures.bind_ok (readSlice_run table _ _ _) ?_
      rw [uuidOf_eq (by rw [length_slice (by omega)]; omega)]
      refine ⟨?_, Pass.system (hsystem.1 ▸ hkind) hlength hsystem.2 hfits⟩
      show max (max (max w.reach (w.offset + 1)) (w.offset + 1 + 1)) (w.offset + 24) ≤ table.length
      omega
    · rw [if_neg hsystem]
      refine Ensures.bind_ok (advance_run _ _) (Ensures.bind (scan_ensures hread) fun _ w' h => ?_)
      obtain ⟨hreach', stop, hstop, hoffset⟩ := h
      refine ⟨hreach', ?_⟩
      rw [hoffset]
      exact Pass.skipped hkind hlength (by omega) hfits hsystem hstop
  · rw [if_pos hmore]
    exact ⟨hreach, Pass.finished (by omega)⟩

/-- A pass that goes round has moved on. -/
theorem Pass.advances {table : Bytes} {offset next : Nat} (h : Pass table offset none next) :
    table.length - next < table.length - offset := by
  cases h with
  | skipped _ hlength _ hfits _ hstop =>
    have hle := hstop.start_le
    omega

/-- A pass at the end of the table, or past it, finds nothing. -/
theorem Pass.at_end {table : Bytes} {offset next : Nat} {r : Option Str} (h : Pass table offset r next)
    (hend : table.length ≤ offset) : r = some [] := by
  have hnone : table[offset]? = none := List.getElem?_eq_none hend
  cases h with
  | finished _ => rfl
  | broken _ _ => rfl
  | system hkind _ _ _ => rw [hnone] at hkind; cases hkind
  | skipped hkind _ _ _ _ _ => rw [hnone] at hkind; cases hkind

/-- **The walk ends**, within the table, in a pass that returns: an invariant that every further pass
    keeps holds there. -/
theorem walk_ensures {table : Bytes} {I : Nat → Prop} {w : Walk} (hreach : w.reach ≤ table.length)
    (hw : I w.offset)
    (hstep : ∀ offset next, I offset → Pass table offset none next → I next) :
    Ensures (walk table) w (fun uuid w' => w'.reach ≤ table.length ∧
      ∃ offset next, I offset ∧ Pass table offset (some uuid) next) (fun _ _ => False) := by
  refine Ensures.bind (forever_ensures (I := fun s => s.reach ≤ table.length ∧ I s.offset)
    (μ := fun s => table.length - s.offset)
    (Q := fun uuid s => s.reach ≤ table.length ∧
      ∃ offset next, I offset ∧ Pass table offset (some uuid) next) ?_ ⟨hreach, hw⟩ ?_) fun r s h => ?_
  · rintro s ⟨hs, hI⟩
    refine (walkPass_ensures hs).mono (fun r s' h => ?_) fun _ _ h => h
    obtain ⟨hs', hpass⟩ := h
    cases r with
    | some uuid => exact ⟨hs', s.offset, s'.offset, hI, hpass⟩
    | none => exact ⟨⟨hs', hstep _ _ hI hpass⟩, hpass.advances⟩
  · omega
  · obtain ⟨uuid, rfl, hs, hend⟩ := h
    exact ⟨hs, hend⟩

/-! ## Structures -/

/-- A well-formed structure: its type, the formatted area behind the two header bytes, its strings. -/
structure SmbiosStructure where
  /-- The type byte. -/
  kind : UInt8
  /-- The formatted area behind the type and length bytes. -/
  body : Bytes
  /-- The strings behind it. -/
  strings : List Bytes
  four_le : 4 ≤ body.length + 2
  lt_256 : body.length + 2 < 256
  /-- No string is empty or has a NUL. -/
  text : ∀ t ∈ strings, t ≠ [] ∧ (0 : UInt8) ∉ t

namespace SmbiosStructure

/-- The length byte counts the header too. -/
def length (s : SmbiosStructure) : Nat := s.body.length + 2

/-- The formatted area of a structure: type, length byte and body. -/
def formatted (s : SmbiosStructure) : Bytes := s.kind :: UInt8.ofNat s.length :: s.body

/-- Every string with a NUL behind it, and one more; two NULs where there is none. -/
def stringSet (s : SmbiosStructure) : Bytes :=
  if s.strings = [] then [0, 0] else s.strings.flatMap (· ++ [0]) ++ [0]

/-- A structure as the table holds it, with its string set behind it. -/
def bytes (s : SmbiosStructure) : Bytes := s.formatted ++ s.stringSet

/-- System information, long enough for a UUID. -/
def isSystem (s : SmbiosStructure) : Bool := s.kind = 1 ∧ 24 ≤ s.length

/-- The UUID field. -/
def uuidField (s : SmbiosStructure) : Bytes := slice s.formatted 8 24

theorem length_formatted (s : SmbiosStructure) : s.formatted.length = s.length := rfl

theorem toNat_length (s : SmbiosStructure) : (UInt8.ofNat s.length).toNat = s.length := by
  rw [UInt8.toNat_ofNat']
  exact Nat.mod_eq_of_lt s.lt_256

/-- The set of strings ends in a double NUL. -/
theorem stringSet_end (s : SmbiosStructure) : ∃ text, s.stringSet = text ++ [0, 0] := by
  unfold stringSet
  by_cases hnone : s.strings = []
  · rw [if_pos hnone]
    exact ⟨[], rfl⟩
  · rw [if_neg hnone]
    obtain ⟨first, last, hstrings⟩ := List.eq_nil_or_concat s.strings |>.resolve_left hnone
    rw [hstrings, List.concat_eq_append, List.flatMap_append]
    exact ⟨first.flatMap (· ++ [0]) ++ last, by simp⟩

/-- That is its only one. -/
theorem stringSet_last (s : SmbiosStructure) {before after : Bytes}
    (h : s.stringSet = before ++ 0 :: 0 :: after) : after = [] := by
  unfold stringSet at h
  by_cases hnone : s.strings = []
  · rw [if_pos hnone] at h
    have hlen := congrArg List.length h
    simp only [List.length_append, List.length_cons, List.length_nil] at hlen
    exact List.length_eq_zero_iff.mp (by omega)
  · rw [if_neg hnone] at h
    exact double_separator_last hnone s.text h

/-- The two together, by offsets. -/
theorem stringSet_pair (s : SmbiosStructure) : ∃ n, s.stringSet.length = n + 2 ∧
    slice s.stringSet n (n + 2) = [0, 0] ∧ ∀ i < n, slice s.stringSet i (i + 2) ≠ [0, 0] := by
  obtain ⟨text, htext⟩ := s.stringSet_end
  have hlen : s.stringSet.length = text.length + 2 := by
    rw [htext, List.length_append]
    rfl
  refine ⟨text.length, hlen, ?_, fun i hi hpair => ?_⟩
  · rw [htext]
    exact slice_append_right text [0, 0] 0 2
  · have hnil := s.stringSet_last (eq_of_slice_pair hpair)
    have hdrop := List.length_drop (i := i + 2) (l := s.stringSet)
    rw [hnil, hlen, List.length_nil] at hdrop
    omega

end SmbiosStructure

/-- The identifier in a table of structures: the UUID of the first system information. -/
def systemText (structures : List SmbiosStructure) : Str :=
  match structures.find? SmbiosStructure.isSystem with
  | some s => uuidText s.uuidField
  | none => []

/-- **The inner loop stops at the end of the string set.** -/
theorem StopsAt.structure_end {before rest : Bytes} {s : SmbiosStructure} {stop : Nat}
    (h : StopsAt (before ++ (s.bytes ++ rest)) (before.length + s.length) stop) :
    stop + 2 = before.length + s.bytes.length := by
  obtain ⟨n, hset, hend, hnot⟩ := s.stringSet_pair
  have hlen : s.bytes.length = s.length + (n + 2) := by
    rw [SmbiosStructure.bytes, List.length_append, hset]
    rfl
  -- what the loop sees at an offset within the set
  have hsee : ∀ i, i ≤ n → slice (before ++ (s.bytes ++ rest)) (before.length + (s.length + i))
      (before.length + (s.length + i) + 2) = slice s.stringSet i (i + 2) := by
    intro i hi
    rw [Nat.add_assoc before.length, slice_append_right, slice_append_left (by omega),
      SmbiosStructure.bytes, Nat.add_assoc s.length, ← s.length_formatted, slice_append_right]
  obtain ⟨i, rfl⟩ : ∃ i, stop = before.length + (s.length + i) :=
    ⟨stop - (before.length + s.length), by have := h.start_le; omega⟩
  rcases Nat.lt_trichotomy i n with hlt | rfl | hgt
  · have hhere := h.here (by rw [List.length_append, List.length_append]; omega)
    rw [hsee i hlt.le] at hhere
    exact absurd hhere (hnot i hlt)
  · omega
  · have hbefore := (h.before (before.length + (s.length + n)) (by omega) (by omega)).2
    rw [hsee _ le_rfl] at hbefore
    exact absurd hend hbefore

/-- The header of a structure, read at its offset. -/
theorem header_at (before rest : Bytes) (s : SmbiosStructure) :
    (before ++ (s.bytes ++ rest))[before.length]? = some s.kind ∧
    (before ++ (s.bytes ++ rest))[before.length + 1]? = some (UInt8.ofNat s.length) := by
  constructor
  · rw [List.getElem?_append_right le_rfl, Nat.sub_self]
    rfl
  · rw [List.getElem?_append_right (by omega), Nat.add_sub_cancel_left]
    rfl

/-- **One pass at the start of a structure** returns its identifier, or is at the start of the next. -/
theorem Pass.structure_cases {before rest : Bytes} {s : SmbiosStructure} {r : Option Str} {next : Nat}
    (h : Pass (before ++ (s.bytes ++ rest)) before.length r next) :
    (s.isSystem = true ∧ r = some (uuidText s.uuidField)) ∨
    (s.isSystem = false ∧ r = none ∧ next = before.length + s.bytes.length) := by
  have hfour := s.four_le
  have hbytes : s.bytes.length = s.length + s.stringSet.length := by
    rw [SmbiosStructure.bytes, List.length_append, s.length_formatted]
  obtain ⟨n, hset, _, _⟩ := s.stringSet_pair
  have htable : (before ++ (s.bytes ++ rest)).length = before.length + (s.bytes.length + rest.length) := by
    rw [List.length_append, List.length_append]
  have hlength : s.length = s.body.length + 2 := rfl
  obtain ⟨hkind, hL⟩ := header_at before rest s
  cases h with
  | finished hend => omega
  -- this structure is whole, so the walk cannot call it broken
  | broken hL' hbad =>
    obtain rfl := Option.some.inj (hL.symm.trans hL')
    rw [s.toNat_length] at hbad
    omega
  -- the UUID is read where this structure has it
  | system hkind' hL' hlong hfits =>
    obtain rfl := Option.some.inj (hL.symm.trans hL')
    have hone : s.kind = 1 := Option.some.inj (hkind.symm.trans hkind')
    rw [s.toNat_length] at hlong
    refine Or.inl ⟨decide_eq_true ⟨hone, hlong⟩, ?_⟩
    rw [slice_append_right, SmbiosStructure.bytes, List.append_assoc,
      slice_append_left (by rw [s.length_formatted]; exact hlong)]
    rfl
  | skipped hkind' hL' _ _ hother hstop =>
    obtain rfl := Option.some.inj (hL.symm.trans hL')
    obtain rfl := Option.some.inj (hkind.symm.trans hkind')
    rw [s.toNat_length] at hother hstop
    exact Or.inr ⟨decide_eq_false hother, rfl, hstop.structure_end⟩

/-- The offset is the start of a structure that no system information stands in front of. -/
def AtStructure (structures : List SmbiosStructure) (offset : Nat) : Prop :=
  ∃ done todo, structures = done ++ todo ∧ offset = (done.flatMap SmbiosStructure.bytes).length ∧
    ∀ s ∈ done, s.isSystem = false

/-- A pass at such a start: it returns the identifier, or it is at such a start again. -/
theorem Pass.at_structure {structures : List SmbiosStructure} {offset next : Nat} {r : Option Str}
    (hat : AtStructure structures offset)
    (h : Pass (structures.flatMap SmbiosStructure.bytes) offset r next) :
    match r with
    | some uuid => uuid = systemText structures
    | none => AtStructure structures next := by
  obtain ⟨done, todo, rfl, rfl, hdone⟩ := hat
  have hfind : (done ++ todo).find? SmbiosStructure.isSystem = todo.find? SmbiosStructure.isSystem := by
    rw [List.find?_append, List.find?_eq_none.mpr fun s hs => by rw [hdone s hs]; decide]
    rfl
  cases todo with
  | nil =>
    -- behind the last structure the table is over
    rw [List.append_nil] at h
    obtain rfl := h.at_end le_rfl
    show _ = systemText _
    rw [systemText, hfind]
    rfl
  | cons s todo =>
    rw [List.flatMap_append, List.flatMap_cons] at h
    rcases h.structure_cases with ⟨hsystem, rfl⟩ | ⟨hother, rfl, rfl⟩
    · show _ = systemText _
      rw [systemText, hfind, List.find?_cons_of_pos hsystem]
    · refine ⟨done ++ [s], todo, by rw [List.append_assoc]; rfl, ?_, fun s' hs' => ?_⟩
      · rw [List.flatMap_append, List.length_append, List.flatMap_singleton]
      · rcases List.mem_append.mp hs' with hs' | hs'
        · exact hdone s' hs'
        · rw [List.mem_singleton.mp hs']
          exact hother

/-! ## The function -/

/-- The firmware hands out its table: both calls agree on a size that the code accepts. -/
structure Firmware.Returns (fw : Firmware) : Prop where
  /-- The second call fills what the first announced. -/
  filled : fw.filled = fw.size
  /-- There is a header to skip. -/
  header : 8 ≤ fw.size
  /-- The size is one that is read. -/
  limit : fw.size ≤ 1024 * 1024

theorem systemUuid_returns {fw : Firmware} (h : fw.Returns) :
    systemUuid fw = outcome (walk (fw.data.drop 8) ⟨0, 0⟩) := by
  obtain ⟨hfilled, hheader, hlimit⟩ := h
  rw [systemUuid, if_neg (by omega), raiseIf_neg (by omega), ok_bind, if_neg (by omega)]

/-- Without a table there is no identifier. -/
theorem systemUuid_refused {fw : Firmware} (h : ¬ fw.Returns) (hsize : 0 ≤ fw.size) :
    systemUuid fw = .ok [] := by
  rw [systemUuid]
  by_cases hbad : fw.size = 0 ∨ fw.size > 1024 * 1024
  · exact if_pos hbad
  · have hrefused : fw.filled ≠ fw.size ∨ fw.size < 8 := by
      by_contra hgood
      exact h ⟨by omega, by omega, by omega⟩
    rw [if_neg hbad, raiseIf_neg (by omega), ok_bind]
    exact if_pos hrefused

/-- **The SMBIOS walk is total and correct.**  Over every table that the firmware hands out it returns,
    and reads nothing past the table's end.  Over a concatenation of structures it returns the UUID of
    the first type-1 structure that has one, or the empty string where that is blank or missing. -/
theorem smbios_walk (data : Bytes) :
    ∃ uuid w, walk (data.drop 8) ⟨0, 0⟩ = .ok uuid w ∧ w.reach ≤ (data.drop 8).length ∧
      (∀ fw : Firmware, fw.data = data → fw.Returns → systemUuid fw = .ok uuid) ∧
      ∀ structures : List SmbiosStructure,
        data.drop 8 = structures.flatMap SmbiosStructure.bytes → uuid = systemText structures := by
  let Inv : Nat → Prop := fun offset => ∀ structures : List SmbiosStructure,
    data.drop 8 = structures.flatMap SmbiosStructure.bytes → AtStructure structures offset
  have hstart : Inv 0 := by
    intro structures _
    exact ⟨[], structures, rfl, rfl, fun s hs => absurd hs List.not_mem_nil⟩
  have hstep : ∀ offset next, Inv offset → Pass (data.drop 8) offset none next → Inv next :=
    fun offset next hat hpass structures htable =>
      Pass.at_structure (r := none) (hat structures htable) (htable ▸ hpass)
  have hwalk := walk_ensures (I := Inv) (w := ⟨0, 0⟩) (Nat.zero_le _) hstart hstep
  cases hrun : walk (data.drop 8) ⟨0, 0⟩ with
  | error e w => exact (hwalk.of_error hrun).elim
  | ok uuid w =>
    obtain ⟨hreach, offset, next, hat, hpass⟩ := hwalk.of_ok hrun
    refine ⟨uuid, w, rfl, hreach, fun fw hdata hreturns => ?_, fun structures htable => ?_⟩
    · rw [systemUuid_returns hreturns, hdata, hrun]
      rfl
    · exact Pass.at_structure (r := some uuid) (hat structures htable) (htable ▸ hpass)

/-- A BIOS structure with two strings, and system information without any. -/
def sampleStructures : List SmbiosStructure := [
  ⟨0, [1, 0, 1, 2], [bytesOf "Vendor", bytesOf "1.0"], by decide, by decide, by decide +kernel⟩,
  ⟨1, [2, 0, 1, 2, 3, 4, 0x33, 0x22, 0x11, 0x00, 0x55, 0x44, 0x77, 0x66, 0x88, 0x99, 0xAA, 0xBB, 0xCC,
    0xDD, 0xEE, 0xFF, 6, 0], [], by decide, by decide, by decide⟩]

/-- The two structures behind the eight byte header of the firmware call. -/
def sampleFirmware : Firmware where
  size := 54
  filled := 54
  data := [0, 3, 0, 0, 46, 0, 0, 0] ++ sampleStructures.flatMap SmbiosStructure.bytes
  length_data := by decide +kernel

/-- The walk over the sample table finds the UUID and prints its groups in field order. -/
theorem smbios_walk_sample :
    systemUuid sampleFirmware = .ok (str "00112233-4455-6677-8899-aabbccddeeff") := by
  obtain ⟨uuid, w, _, _, hreturns, hcorrect⟩ := smbios_walk sampleFirmware.data
  have htext : systemText sampleStructures = str "00112233-4455-6677-8899-aabbccddeeff" := by
    decide +kernel
  rw [hreturns sampleFirmware rfl ⟨by decide, by decide, by decide⟩, hcorrect sampleStructures rfl, htext]

end Bedrock.Slhwid

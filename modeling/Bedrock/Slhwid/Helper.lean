/-
  `slhwid/core.py`, the helper blob: `serialize_helper` and `parse_helper`.

  Layout: an 8-byte magic, the payload length (`<I`), the payload, the 32-byte check word, and the
  SHA-256 of all that.  The payload is an 8-byte header — format, schema, salt, slot count, mandatory
  count, threshold, two reserved zeros — and one record per slot in name order: name length, name,
  flag, and the four limbs of the share (`<4Q`).

  `parse_helper` is one long Python function; here its three stages are named (`openFrame`,
  `readHeader`, the record loop over `parseSlot`) and `parseHelper` runs them in the source's order,
  with the source's checks.
-/
import Bedrock.Slhwid.Sharing

open Lib.Fallible Lib.LittleEndian Bedrock.Python

namespace Bedrock.Slhwid

/-- The eight bytes every helper blob starts with. -/
def helperMagic : Bytes := bytesOf "SLSSHWID"

/-- One slot of a helper: its name, whether it is hard-locked, and its masked share. -/
structure HelperSlot where
  /-- The slot's name. -/
  name : Str
  /-- Its flag in the record. -/
  mandatory : Bool
  /-- The four limbs of its share. -/
  share : Limbs
  deriving DecidableEq, Inhabited

/-- A parsed helper blob, without its framing and its digest. -/
structure Helper where
  /-- The version its values are projected in. -/
  normVersion : Nat
  /-- The salt of the coordinates. -/
  salt : Nat
  /-- How many shares recover the key. -/
  threshold : Nat
  /-- The records, in name order. -/
  slots : List HelperSlot
  /-- The hash that tells a recovered key. -/
  checkWord : Bytes
  deriving DecidableEq

/-- The hard-locked names of a helper. -/
def Helper.mandatory (h : Helper) : Finset Str :=
  ((h.slots.filter HelperSlot.mandatory).map HelperSlot.name).toFinset

/-! ## Writing -/

/-- `struct.pack("<I", v)`. -/
def packI (v : Nat) : Except Exc Bytes := if v < 2 ^ 32 then .ok (toLE 4 v) else .error .structError

/-- One pass of the record loop of `serialize_helper`. -/
def serializeSlot (shares : Dict Limbs) (mandatory : Finset Str) (payload : Bytes) (name : Str) :
    Except Exc Bytes := do
  let encoded ← encodeAscii name
  let len ← byte encoded.length
  let share ← shares.item name
  let packed ← packLimbs share
  return payload ++ [len] ++ encoded ++ [if name ∈ mandatory then 1 else 0] ++ packed

section Hashing

variable [Sha256]

/-- `serialize_helper`. -/
def serializeHelper (shares : Dict Limbs) (mandatory : Finset Str) (t salt : Nat) (cw : Bytes)
    (normVersion : Nat) : Except Exc Bytes := do
  let names := sortedKeys shares
  let head ← [1, normVersion, salt, names.length].mapM byte
  let tail ← [(names.filter (· ∈ mandatory)).length, t, 0, 0].mapM byte
  let payload ← names.foldlM (serializeSlot shares mandatory) (head ++ tail)
  let len ← packI payload.length
  let blob := helperMagic ++ len ++ payload ++ cw
  return blob ++ sha256 blob

end Hashing

/-! ## Reading -/

/-- The error of a blob that does not parse; the rest of the message says what is wrong with it. -/
def corrupt (what : Message) : Exc :=
  .corruptHelperError (.lit "slhwid: stored helper data is corrupt: " :: what)

/-- `struct.unpack_from("<4Q", b, off)`. -/
def unpackLimbs (b : Bytes) (off : Nat) : Except Exc Limbs :=
  if b.length < off + 32 then .error .structError
  else .ok fun i => ofLE (slice b (off + 8 * i.val) (off + 8 * i.val + 8))

/-- `struct.unpack_from("<I", b, off)[0]`. -/
def unpackI (b : Bytes) (off : Nat) : Except Exc Nat :=
  if b.length < off + 4 then .error .structError else .ok (ofLE (slice b off (off + 4)))

/-- The fields of the payload header that the parser keeps. -/
structure Header where
  normVersion : Nat
  salt : Nat
  /-- The number of records that follow. -/
  n : Nat
  /-- The number of mandatory ones among them. -/
  mandatory : Nat
  threshold : Nat

/-- Header checks of `parse_helper`, `body[0]` to `body[7]`. -/
def readHeader (body : Bytes) : Except Exc Header := do
  let version ← index body 0
  raiseIf (version.toNat ≠ 1) (corrupt [.lit "unsupported version ", .int version.toNat])
  let normVersion ← index body 1
  raiseIf (normVersion.toNat ≠ legacyNormVersion ∧ normVersion.toNat ≠ currentNormVersion)
    (corrupt [.lit "unsupported factor schema ", .int normVersion.toNat])
  let reserved₁ ← index body 6
  let reserved₂ ← index body 7
  raiseIf (reserved₁ ≠ 0 ∨ reserved₂ ≠ 0) (corrupt [.lit "reserved header bits set"])
  let allowed := allowedNames normVersion.toNat
  let n ← index body 3
  let mandatory ← index body 4
  let salt ← index body 2
  let threshold ← index body 5
  raiseIf (n.toNat = 0 ∨ n.toNat > allowed.length) (corrupt [.lit "invalid slot count"])
  raiseIf (threshold.toNat = 0 ∨ threshold.toNat > n.toNat ∨ mandatory.toNat = 0 ∨
    mandatory.toNat ≥ threshold.toNat) (corrupt [.lit "invalid threshold"])
  return ⟨normVersion.toNat, salt.toNat, n.toNat, mandatory.toNat, threshold.toNat⟩

/-- The variables of the record loop. -/
structure SlotLoop where
  /-- The bytes not read yet. -/
  rest : Bytes
  /-- The names so far. -/
  seen : List Str
  /-- The last of them. -/
  previous : Str
  /-- The mandatory ones so far. -/
  mandatoryCount : Nat
  /-- The records so far. -/
  slots : List HelperSlot

/-- One pass of the record loop of `parse_helper`. -/
def parseSlot (allowed : List Str) (st : SlotLoop) : Except Exc SlotLoop := do
  raiseIf (st.rest.length < 1) (corrupt [.lit "slot truncated"])
  let nameLen ← index st.rest 0
  let len := nameLen.toNat
  raiseIf (len = 0 ∨ st.rest.length < 1 + len + 1 + 32) (corrupt [.lit "slot truncated"])
  -- a non-ASCII byte in the name raises here, and not as a `CorruptHelperError`
  let name ← decodeAscii (slice st.rest 1 (1 + len))
  raiseIf (name ∉ allowed) (corrupt [.lit "invalid slot ", .repr name])
  raiseIf (name ∈ st.seen ∨ (st.previous ≠ [] ∧ st.previous ≥ name))
    (corrupt [.lit "duplicate or unsorted slot ", .repr name])
  let flags ← index st.rest (1 + len)
  raiseIf (flags.toNat ≠ 0 ∧ flags.toNat ≠ 1) (corrupt [.lit "invalid slot flags"])
  let mandatory := decide (flags.toNat = 1)
  let share ← unpackLimbs st.rest (2 + len)
  raiseIf (¬ share.Reduced) (corrupt [.lit "share limb out of range"])
  return {
    rest := st.rest.drop (2 + len + 32)
    seen := name :: st.seen
    previous := name
    mandatoryCount := st.mandatoryCount + if mandatory then 1 else 0
    slots := st.slots ++ [⟨name, mandatory, share⟩] }

section Hashing

variable [Sha256]

/-- Frame checks of `parse_helper`: size, magic, integrity hash, length; the body and the check
    word. -/
def openFrame (blob : Bytes) : Except Exc (Bytes × Bytes) := do
  raiseIf (blob.length > 4096) (corrupt [.lit "oversized"])
  raiseIf (blob.length < 8 + 4 + 8 + 32 + 32) (corrupt [.lit "truncated"])
  raiseIf (blob.take 8 ≠ helperMagic) (corrupt [.lit "magic mismatch"])
  raiseIf (sha256 (blob.take (blob.length - 32)) ≠ blob.drop (blob.length - 32))
    (corrupt [.lit "integrity mismatch"])
  let payloadLen ← unpackI blob 8
  raiseIf (payloadLen < 8 ∨ payloadLen > 4096 ∨ 12 + payloadLen + 64 ≠ blob.length)
    (corrupt [.lit "length mismatch"])
  return (slice blob 12 (12 + payloadLen), slice blob (12 + payloadLen) (12 + payloadLen + 32))

/-- `parse_helper`. -/
def parseHelper (blob : Bytes) : Except Exc Helper := do
  let (body, cw) ← openFrame blob
  let hd ← readHeader body
  let st ← iterate (parseSlot (allowedNames hd.normVersion)) hd.n ⟨body.drop 8, [], [], 0, []⟩
  raiseIf (st.rest ≠ []) (corrupt [.lit "trailing bytes"])
  raiseIf (st.mandatoryCount ≠ hd.mandatory) (corrupt [.lit "mandatory count mismatch"])
  raiseIf (¬ st.slots.any fun s => s.name = str "slstore" && s.mandatory)
    (corrupt [.lit "mandatory slstore missing"])
  return ⟨hd.normVersion, hd.salt, hd.threshold, st.slots, cw⟩

end Hashing

end Bedrock.Slhwid

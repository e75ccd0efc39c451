/-
  What `derive_x`, `check_word`, `hwid_of` and `_group_value` feed SHA-256.

  1. **Inputs** — `HashCall.input` is the byte string a call hashes; each of the four functions is a
     function of the digest of its input (`deriveX_eq`, `checkWord_eq`, `hwidOf_eq`, `groupValue_eq`).

  2. **Separation** — the first four bytes of an input name the function (`input_tag`), and the four
     tags differ.

  3. **Injectivity** — a slot name has no NUL, so the NUL behind it says where the value starts; a key
     is four fields of eight bytes.
-/
import Bedrock.Python.Base64RoundTrip
import Bedrock.Slhwid.Projection

open Lib.Fallible Lib.LittleEndian Lib.Delimited Bedrock.Python

namespace Bedrock.Slhwid

/-- The functions of `core.py` that hash facts about the machine or the key. -/
inductive Encoder
  | deriveX | checkWord | hwidOf | groupValue
  deriving DecidableEq

/-- A call of one of them. -/
inductive HashCall
  | deriveX (slot value : Str) (salt : Nat)
  | checkWord (k : Limbs)
  | hwidOf (k : Limbs)
  | groupValue (name : Str) (members : List Str) (raw : Dict Str)

namespace HashCall

/-- The function that makes the input. -/
def encoder : HashCall → Encoder
  | deriveX .. => .deriveX
  | checkWord _ => .checkWord
  | hwidOf _ => .hwidOf
  | groupValue .. => .groupValue

/-- The bytes that the call hands to `hashlib.sha256`, in one piece or in several `update`s. -/
def input : HashCall → Except Exc Bytes
  | deriveX slot value salt => do
    let head ← [0, salt, 0].mapM byte
    let slotBytes ← encodeAscii slot
    let valueBytes ← encodeUtf8 value
    return bytesOf "SL-SS-X1" ++ head ++ slotBytes ++ [0] ++ valueBytes
  | checkWord k => do
    let kb ← keyBytes k
    return [1] ++ bytesOf "SL-SS-CW1" ++ kb
  | hwidOf k => do
    let kb ← keyBytes k
    return [2] ++ bytesOf "SL-SS-ID1" ++ kb
  | groupValue name members raw => groupBytes name members raw

end HashCall

/-! ## The functions hash their inputs -/

section Hashing

variable [Sha256]

/-- `derive_x` hashes its input. -/
theorem deriveX_eq (slot value : Str) (salt : Nat) :
    deriveX slot value salt = (HashCall.deriveX slot value salt).input >>= fun b =>
      pure (1 + (ofLE ((sha256 b).take 8) &&& P) % (P - 1)) := by
  rw [deriveX, HashCall.input]
  simp only [bind_assoc, pure_bind]

theorem checkWord_eq (k : Limbs) :
    checkWord k = (HashCall.checkWord k).input >>= fun b => pure (sha256 b) := by
  rw [checkWord, HashCall.input]
  simp only [bind_assoc, pure_bind]

theorem hwidOf_eq (k : Limbs) :
    hwidOf k = (HashCall.hwidOf k).input >>= fun b => pure (rstripPad (urlsafeB64Encode (sha256 b))) := by
  rw [hwidOf, HashCall.input]
  simp only [bind_assoc, pure_bind]

end Hashing

/-! ## Separation -/

/-- How the inputs of a function start. -/
def Encoder.tag : Encoder → Bytes
  | deriveX => bytesOf "SL-S"
  | checkWord => [1] ++ bytesOf "SL-"
  | hwidOf => [2] ++ bytesOf "SL-"
  | groupValue => bytesOf "SL-H"

theorem Encoder.tag_injective : Function.Injective Encoder.tag := by
  intro e e' h
  revert h
  cases e <;> cases e' <;> decide +kernel

/-- **An input starts with its tag.** -/
theorem HashCall.input_tag {c : HashCall} {b : Bytes} (h : c.input = .ok b) :
    b.take 4 = c.encoder.tag := by
  cases c with
  | deriveX slot value salt =>
    obtain ⟨head, _, h⟩ := bind_eq_ok.mp h
    obtain ⟨slotBytes, _, h⟩ := bind_eq_ok.mp h
    obtain ⟨valueBytes, _, h⟩ := bind_eq_ok.mp h
    obtain rfl := Except.ok.inj h
    rfl
  | checkWord k =>
    obtain ⟨kb, _, h⟩ := bind_eq_ok.mp h
    obtain rfl := Except.ok.inj h
    rfl
  | hwidOf k =>
    obtain ⟨kb, _, h⟩ := bind_eq_ok.mp h
    obtain rfl := Except.ok.inj h
    rfl
  | groupValue name members raw =>
    obtain ⟨nameBytes, _, h⟩ := bind_eq_ok.mp h
    rw [foldlM_groupMember] at h
    obtain ⟨tail, _, h⟩ := bind_eq_ok.mp h
    obtain rfl := Except.ok.inj h
    rfl

/-- No input of one function is an input of another. -/
theorem HashCall.encoder_eq {c c' : HashCall} {b : Bytes} (h : c.input = .ok b)
    (h' : c'.input = .ok b) : c.encoder = c'.encoder :=
  Encoder.tag_injective ((input_tag h).symm.trans (input_tag h'))

/-! ## Injectivity -/

/-- ASCII text is determined by its bytes. -/
theorem encodeAscii_inj {s s' : Str} {b : Bytes} (h : encodeAscii s = .ok b)
    (h' : encodeAscii s' = .ok b) : s = s' := by
  have hback : ∀ {s : Str}, encodeAscii s = .ok b → decodeAscii b = .ok s := by
    intro s h
    unfold encodeAscii at h
    split at h
    · rename_i hascii
      rw [← Except.ok.inj h]
      exact decodeAscii_encode hascii
    · cases h
  exact Except.ok.inj ((hback h).symm.trans (hback h'))

/-- A name without NULs is encoded without zero bytes. -/
theorem encodeAscii_no_zero {s : Str} {b : Bytes} (h : encodeAscii s = .ok b)
    (hs : ∀ c ∈ s, c.val ≠ 0) : (0 : UInt8) ∉ b := by
  unfold encodeAscii at h
  split at h
  · rename_i hascii
    obtain rfl := Except.ok.inj h
    intro hmem
    obtain ⟨c, hc, hzero⟩ := List.mem_map.mp hmem
    have hsmall := isAscii_iff.mp hascii c hc
    have hval := congrArg UInt8.toNat hzero
    rw [UInt8.toNat_ofNat', Nat.mod_eq_of_lt (by omega)] at hval
    exact hs c hc hval
  · cases h

/-- The three bytes behind the tag of `derive_x` hold the salt. -/
theorem saltBytes_eq_ok {salt : Nat} {head : Bytes} (h : [0, salt, 0].mapM byte = .ok head) :
    salt < 256 ∧ head = [0, UInt8.ofNat salt, 0] := by
  rw [List.mapM_cons, List.mapM_cons] at h
  obtain ⟨a, ha, h⟩ := bind_eq_ok.mp h
  obtain ⟨rest, hrest, h⟩ := bind_eq_ok.mp h
  obtain ⟨b, hb, hrest⟩ := bind_eq_ok.mp hrest
  obtain ⟨tail, htail, hrest⟩ := bind_eq_ok.mp hrest
  obtain rfl := Except.ok.inj h
  obtain rfl := Except.ok.inj hrest
  obtain rfl := Except.ok.inj ha
  obtain rfl := Except.ok.inj htail
  unfold byte at hb
  split at hb
  · rename_i hsalt
    obtain rfl := Except.ok.inj hb
    exact ⟨hsalt, rfl⟩
  · cases hb

/-- **`derive_x`**: the input determines the slot, the value and the salt. -/
theorem deriveX_input_inj {slot slot' value value' : Str} {salt salt' : Nat}
    (hslot : ∀ c ∈ slot, c.val ≠ 0) (hslot' : ∀ c ∈ slot', c.val ≠ 0) {b : Bytes}
    (h : (HashCall.deriveX slot value salt).input = .ok b)
    (h' : (HashCall.deriveX slot' value' salt').input = .ok b) :
    slot = slot' ∧ value = value' ∧ salt = salt' := by
  obtain ⟨head, hhead, h⟩ := bind_eq_ok.mp h
  obtain ⟨slotBytes, hs, h⟩ := bind_eq_ok.mp h
  obtain ⟨valueBytes, hv, h⟩ := bind_eq_ok.mp h
  obtain ⟨head', hhead', h'⟩ := bind_eq_ok.mp h'
  obtain ⟨slotBytes', hs', h'⟩ := bind_eq_ok.mp h'
  obtain ⟨valueBytes', hv', h'⟩ := bind_eq_ok.mp h'
  obtain ⟨hsalt, rfl⟩ := saltBytes_eq_ok hhead
  obtain ⟨hsalt', rfl⟩ := saltBytes_eq_ok hhead'
  have hbytes := (Except.ok.inj h).trans (Except.ok.inj h').symm
  simp only [List.append_assoc] at hbytes
  obtain ⟨hheads, hrest⟩ := List.append_inj (List.append_cancel_left hbytes) rfl
  -- the salt is one byte, and the first NUL behind it ends the slot
  have hone : UInt8.ofNat salt = UInt8.ofNat salt' := by
    injection hheads with _ htail
    injection htail
  have hval := congrArg UInt8.toNat hone
  rw [UInt8.toNat_ofNat', UInt8.toNat_ofNat', Nat.mod_eq_of_lt (by omega),
    Nat.mod_eq_of_lt (by omega)] at hval
  obtain ⟨rfl, rfl⟩ := append_cons_inj (encodeAscii_no_zero hs hslot)
    (encodeAscii_no_zero hs' hslot') hrest
  exact ⟨encodeAscii_inj hs hs', encodeUtf8_inj hv hv', hval⟩

/-- **`check_word` and `hwid_of`**: behind a prefix of its own, four packed limbs determine the key. -/
theorem keyBytes_behind_inj (tag : Bytes) {k k' : Limbs} {b : Bytes}
    (h : (keyBytes k >>= fun kb => pure (tag ++ kb)) = .ok b)
    (h' : (keyBytes k' >>= fun kb => pure (tag ++ kb)) = .ok b) : k = k' := by
  obtain ⟨kb, hkb, h⟩ := bind_eq_ok.mp h
  obtain ⟨kb', hkb', h'⟩ := bind_eq_ok.mp h'
  obtain rfl := List.append_cancel_left ((Except.ok.inj h).trans (Except.ok.inj h').symm)
  obtain ⟨hk, rfl⟩ := packLimbs_eq_ok.mp hkb
  obtain ⟨hk', hb⟩ := packLimbs_eq_ok.mp hkb'
  exact limbBytes_inj hk hk' hb

/-! ## All four functions -/

/-- A check word whose base64 is an HWID is a collision of SHA-256 between the two inputs. -/
theorem collision_of_coincide [Sha256] {k k' : Limbs} {w : Bytes} (hw : checkWord k = .ok w)
    (hid : hwidOf k' = .ok (rstripPad (urlsafeB64Encode w))) :
    ∃ b b', (HashCall.checkWord k).input = .ok b ∧ (HashCall.hwidOf k').input = .ok b' ∧
      b ≠ b' ∧ sha256 b = sha256 b' := by
  rw [checkWord_eq] at hw
  rw [hwidOf_eq] at hid
  obtain ⟨b, hb, hw⟩ := bind_eq_ok.mp hw
  obtain ⟨b', hb', hid⟩ := bind_eq_ok.mp hid
  obtain rfl := Except.ok.inj hw
  refine ⟨b, b', hb, hb', fun h => ?_, (rstripPad_encode_inj (Except.ok.inj hid)).symm⟩
  cases HashCall.encoder_eq hb (h ▸ hb')

/-- **Hash inputs are injective and separated**: an input belongs to one function; that of `derive_x`
    determines the triple, for slot names without NULs, and those of `check_word` and `hwid_of` the
    key.  So a check word is another text than every HWID, but for a collision. -/
theorem hash_inputs_separated :
    (∀ (c c' : HashCall) (b : Bytes), c.input = .ok b → c'.input = .ok b → c.encoder = c'.encoder) ∧
    (∀ (slot slot' value value' : Str) (salt salt' : Nat) (b : Bytes),
      (∀ c ∈ slot, c.val ≠ 0) → (∀ c ∈ slot', c.val ≠ 0) →
      (HashCall.deriveX slot value salt).input = .ok b →
      (HashCall.deriveX slot' value' salt').input = .ok b →
      slot = slot' ∧ value = value' ∧ salt = salt') ∧
    (∀ (k k' : Limbs) (b : Bytes), (HashCall.checkWord k).input = .ok b →
      (HashCall.checkWord k').input = .ok b → k = k') ∧
    (∀ (k k' : Limbs) (b : Bytes), (HashCall.hwidOf k).input = .ok b →
      (HashCall.hwidOf k').input = .ok b → k = k') ∧
    (∀ (_ : Sha256) (k k' : Limbs) (w : Bytes), checkWord k = .ok w →
      hwidOf k' = .ok (rstripPad (urlsafeB64Encode w)) →
      ∃ b b', (HashCall.checkWord k).input = .ok b ∧ (HashCall.hwidOf k').input = .ok b' ∧
        b ≠ b' ∧ sha256 b = sha256 b') := by
  -- the four tags, then each function by itself, then the two digests of one key
  refine ⟨?_, ?_, ?_, ?_, ?_⟩
  · intro c c' b h h'
    exact HashCall.encoder_eq h h'
  · intro slot slot' value value' salt salt' b hslot hslot' h h'
    exact deriveX_input_inj hslot hslot' h h'
  · intro k k' b h h'
    exact keyBytes_behind_inj ([1] ++ bytesOf "SL-SS-CW1") h h'
  · intro k k' b h h'
    exact keyBytes_behind_inj ([2] ++ bytesOf "SL-SS-ID1") h h'
  · intro _ k k' w hw hid
    exact collision_of_coincide hw hid

/-- The input of one slot, which no other triple has; and the key `0`, where the check word and the HWID
    of the sample hash do coincide. -/
theorem hash_inputs_separated_sample :
    (∀ slot value salt, (∀ c ∈ slot, c.val ≠ 0) → (HashCall.deriveX slot value salt).input =
        .ok (bytesOf "SL-SS-X1" ++ [0, 7, 0] ++ bytesOf "cpu_id" ++ [0] ++ bytesOf "Ryzen") →
      slot = str "cpu_id" ∧ value = str "Ryzen" ∧ salt = 7) ∧
    ∃ b b', (HashCall.checkWord ![0, 0, 0, 0]).input = .ok b ∧
      (HashCall.hwidOf ![0, 0, 0, 0]).input = .ok b' ∧ b ≠ b' ∧ sampleDigest b = sampleDigest b' := by
  have hinput : (HashCall.deriveX (str "cpu_id") (str "Ryzen") 7).input =
      .ok (bytesOf "SL-SS-X1" ++ [0, 7, 0] ++ bytesOf "cpu_id" ++ [0] ++ bytesOf "Ryzen") := by
    decide +kernel
  have hslot : ∀ c ∈ str "cpu_id", c.val ≠ 0 := by
    have hall : (str "cpu_id").all (fun c => c.val != 0) = true := by decide +kernel
    intro c hc
    exact bne_iff_ne.mp (List.all_eq_true.mp hall c hc)
  refine ⟨fun slot value salt hnul h =>
      hash_inputs_separated.2.1 slot _ value _ salt _ _ hnul hslot h hinput,
    hash_inputs_separated.2.2.2.2 sampleHash ![0, 0, 0, 0] ![0, 0, 0, 0] (List.replicate 32 0) ?_ ?_⟩
  · decide +kernel
  · decide +kernel

end Bedrock.Slhwid

/-
  `hwid/core.py`: the legacy identifier of a machine.

  The usable factors are written down in a fixed order, each with its name, and the text is hashed.
  Nothing in a value is escaped.

  1. **Text** — `canonicalString` is the join of the `contents`: the factors that are there and no
     placeholder, in the order of `factorOrder` (`canonicalString_eq`).

  2. **Readings** — a value may itself contain `&factor=..|value=..`, and then the text reads like
     that of a machine with more factors.  The `readings` of a machine are its contents with every
     such value taken apart (`readValue`); two machines have one text exactly if their readings are
     the same (`canonicalString_eq_iff`).

  3. **Identifiers** — `legacy_encoding_iff`: for machines with different contents, what the readings
     decide for the text they decide for the identifier too, unless the hash collides.

  `str.lower()` goes by the Unicode tables of the interpreter; nothing here depends on them.
-/
import Bedrock.Lib.Delimited
import Bedrock.Python.Base64RoundTrip
import Bedrock.Slhwid.Normalize

open Lib.Fallible Lib.Delimited Bedrock.Python

namespace Bedrock.Hwid

/-- `str.lower()`. -/
class CaseTables where
  lower : Str → Str

export CaseTables (lower)

/-- `FACTOR_ORDER`. -/
def factorOrder : List Str := [
  str "machine_guid", str "product_uuid", str "board_serial", str "cpu_id", str "disk_serial",
  str "mac"]

/-- `PLACEHOLDERS`. -/
def placeholders : List Str := [
  [], str "none", str "unknown", str "default string", str "to be filled by o.e.m.",
  str "not specified", str "system serial number"]

/-- `f"factor={name}|value={value}"`. -/
def part (name value : Str) : Str := str "factor=" ++ name ++ str "|value=" ++ value

section Hashing

variable [CaseTables]

/-- `normalize`: trimmed, in lower case, without NULs; a MAC also without separators. -/
def normalize (name raw : Str) : Str :=
  let value := lower (Slhwid.strip (raw.filter fun c => c.val ≠ 0))
  if name = str "mac" then
    Slhwid.remove (str " ") (Slhwid.remove (str "-") (Slhwid.remove (str ":") value))
  else value

/-- One pass of the loop over `FACTOR_ORDER`. -/
def addPart (factors : Dict Str) (parts : List Str) (name : Str) : List Str :=
  match factors.lookup name with
  | none => parts
  | some raw =>
    let value := normalize name raw
    if value = [] ∨ value ∈ placeholders then parts else parts ++ [part name value]

/-- `canonical_string`. -/
def canonicalString (factors : Dict Str) : Str :=
  List.intercalate (str "&") (factorOrder.foldl (addPart factors) [])

/-- `from_canonical`: 43 characters of base64url. -/
def fromCanonical [Sha256] (canonical : Str) : Except Exc Str := do
  let bytes ← encodeUtf8 canonical
  return rstripPad (urlsafeB64Encode (sha256 bytes))

/-- `compose`. -/
def compose [Sha256] (factors : Dict Str) : Except Exc Str := fromCanonical (canonicalString factors)

/-! ## Contents -/

/-- The normalized value of a factor that is there and no placeholder. -/
def usable (factors : Dict Str) (name : Str) : Option Str := do
  let raw ← factors.lookup name
  let value := normalize name raw
  if value = [] ∨ value ∈ placeholders then none else some value

/-- **The contents of a map of factors**: what is usable, in the order of composition. -/
def contents (factors : Dict Str) : List (Str × Str) :=
  factorOrder.filterMap fun name => (usable factors name).map fun value => (name, value)

/-- The text is the join of the contents. -/
theorem canonicalString_eq (factors : Dict Str) : canonicalString factors =
    List.intercalate (str "&") ((contents factors).map fun e => part e.1 e.2) := by
  have hloop : ∀ (names : List Str) (parts : List Str), names.foldl (addPart factors) parts =
      parts ++ (names.filterMap fun name => (usable factors name).map fun value => (name, value)).map
        fun e => part e.1 e.2 := by
    intro names
    induction names with
    | nil => intro parts; exact (List.append_nil parts).symm
    | cons name names ih =>
      intro parts
      rw [List.foldl_cons, ih, addPart, List.filterMap_cons, usable]
      cases factors.lookup name with
      | none => rfl
      | some raw =>
        dsimp only [Option.bind_eq_bind, Option.bind_some]
        split
        · rfl
        · rw [List.append_assoc]
          rfl
  rw [canonicalString, hloop, List.nil_append]
  rfl

/-- What is composed is named by the factor order. -/
theorem mem_contents {factors : Dict Str} {e : Str × Str} (h : e ∈ contents factors) :
    e.1 ∈ factorOrder := by
  obtain ⟨name, hname, he⟩ := List.mem_filterMap.mp h
  obtain ⟨value, _, rfl⟩ := Option.map_eq_some_iff.mp he
  exact hname

/-! ## Readings -/

/-- The separator, `&`. -/
def amp : CodePoint := 38

/-- What stands before the value of a factor. -/
def marker (name : Str) : Str := str "factor=" ++ name ++ str "|value="

/-- Could a factor start here? -/
def startsPart (text : Str) : Bool := factorOrder.any fun name => (marker name).isPrefixOf text

/-- The factor that a part names, and the value behind it. -/
def readPart (text : Str) : Str × Str :=
  match factorOrder.find? fun name => (marker name).isPrefixOf text with
  | some name => (name, text.drop (marker name).length)
  | none => ([], text)

/-- A value, and the factors that follow inside of it: cut at every `&` behind which one could start. -/
def readValue (e : Str × Str) : List (Str × Str) :=
  match cuts amp startsPart e.2 with
  | [] => []
  | value :: further => (e.1, value) :: further.map readPart

/-- **The readings of a map of factors**: its contents, with the values that embed further factors taken
    apart. -/
def readings (factors : Dict Str) : List (Str × Str) := (contents factors).flatMap readValue

end Hashing

theorem amp_not_mem_marker {name : Str} (h : name ∈ factorOrder) : amp ∉ marker name := by
  revert name
  decide +kernel

/-- No marker reaches over a separator. -/
theorem startsPart_stops : StopsAtSep amp startsPart := by
  intro l rest
  have hopens : ∀ name ∈ factorOrder,
      (marker name).isPrefixOf (l ++ amp :: rest) = (marker name).isPrefixOf l := by
    intro name hname
    rw [Bool.eq_iff_iff, List.isPrefixOf_iff_prefix, List.isPrefixOf_iff_prefix]
    constructor
    · rintro ⟨tail, htail⟩
      rcases List.append_eq_append_iff.mp htail with ⟨m, rfl, _⟩ | ⟨m, hm, hrest⟩
      · exact List.prefix_append _ _
      · cases m with
        | nil => rw [List.append_nil] at hm; rw [hm]
        | cons c m =>
          obtain ⟨rfl, _⟩ := List.cons.inj hrest
          exact absurd (by rw [hm]; simp) (amp_not_mem_marker hname)
    · exact fun h => h.trans (List.prefix_append _ _)
  rw [startsPart, startsPart, Bool.eq_iff_iff, List.any_eq_true, List.any_eq_true]
  exact exists_congr fun name => and_congr_right fun hname => by rw [hopens name hname]

/-- A rendered part starts like a part. -/
theorem startsPart_part {name : Str} (hname : name ∈ factorOrder) (value : Str) :
    startsPart (part name value) = true := by
  rw [startsPart, List.any_eq_true]
  refine ⟨name, hname, List.isPrefixOf_iff_prefix.mpr ⟨value, ?_⟩⟩
  rfl

theorem part_ne_nil (name value : Str) : part name value ≠ [] := by
  rw [part, List.append_assoc, List.append_assoc]
  exact List.append_ne_nil_of_left_ne_nil (by decide) _

/-- **A text that starts like a part is one.** -/
theorem part_readPart {text : Str} (h : startsPart text = true) :
    (readPart text).1 ∈ factorOrder ∧ part (readPart text).1 (readPart text).2 = text := by
  unfold readPart
  split
  · rename_i name hname
    have hhead : (marker name).isPrefixOf text = true := by
      simpa using List.find?_some hname
    obtain ⟨tail, rfl⟩ := List.isPrefixOf_iff_prefix.mp hhead
    refine ⟨List.mem_of_find?_eq_some hname, ?_⟩
    show marker name ++ List.drop (marker name).length (marker name ++ tail) = _
    rw [List.drop_left]
  · rename_i hnone
    obtain ⟨name, hname, hhead⟩ := List.any_eq_true.mp h
    exact absurd hhead (List.find?_eq_none.mp hnone name hname)

/-- **The cuts of a part** are the parts of its reading. -/
theorem cuts_part {e : Str × Str} (hname : e.1 ∈ factorOrder) :
    cuts amp startsPart (part e.1 e.2) = (readValue e).map (fun e => part e.1 e.2) ∧
      ∀ r ∈ readValue e, r.1 ∈ factorOrder := by
  obtain ⟨value, further, hcuts⟩ := List.exists_cons_of_ne_nil
    (show cuts amp startsPart e.2 ≠ [] from cuts_ne_nil e.2)
  obtain ⟨_, hfurther⟩ := start_of_cuts startsPart_stops hcuts
  have hpart : cuts amp startsPart (part e.1 e.2) = part e.1 value :: further := by
    show cuts amp startsPart (marker e.1 ++ e.2) = _
    rw [cuts_append_left (amp_not_mem_marker hname), hcuts]
    rfl
  have hback : (further.map readPart).map (fun e => part e.1 e.2) = further := by
    rw [List.map_map]
    conv_rhs => rw [← List.map_id further]
    exact List.map_congr_left fun q hq => (part_readPart (hfurther q hq)).2
  rw [hpart, readValue, hcuts]
  refine ⟨by rw [List.map_cons, hback], fun r hr => ?_⟩
  rcases List.mem_cons.mp hr with rfl | hr
  · exact hname
  · obtain ⟨q, hq, rfl⟩ := List.mem_map.mp hr
    exact (part_readPart (hfurther q hq)).1

/-! ## Plain values -/

/-- The value does not read like further factors. -/
def Plain (value : Str) : Prop := ∀ name ∈ factorOrder, ¬ amp :: marker name <:+: value

/-- A plain value is read as one. -/
theorem readValue_of_plain {e : Str × Str} (h : Plain e.2) : readValue e = [e] := by
  have hcuts : cuts amp startsPart e.2 = [e.2] := by
    refine cuts_eq_singleton fun before after hsplit => ?_
    by_contra hstart
    rw [Bool.not_eq_false, startsPart, List.any_eq_true] at hstart
    obtain ⟨name, hname, hhead⟩ := hstart
    obtain ⟨tail, rfl⟩ := List.isPrefixOf_iff_prefix.mp hhead
    refine h name hname ⟨before, tail, ?_⟩
    rw [hsplit]
    simp
  rw [readValue, hcuts]
  rfl

/-- The name and the value of a part can be read off. -/
theorem part_inj {name name' value value' : Str} (hname : name ∈ factorOrder)
    (hname' : name' ∈ factorOrder) (h : part name value = part name' value') :
    name = name' ∧ value = value' := by
  have hbar : ∀ name ∈ factorOrder, (124 : CodePoint) ∉ str "factor=" ++ name := by decide +kernel
  have hsplit : (str "factor=" ++ name) ++ 124 :: (str "value=" ++ value) =
      (str "factor=" ++ name') ++ 124 :: (str "value=" ++ value') := by
    have hpart : ∀ name value : Str,
        (str "factor=" ++ name) ++ 124 :: (str "value=" ++ value) = part name value := by
      intro name value
      rw [part, List.append_assoc _ (str "|value=") value]
      rfl
    rw [hpart, hpart, h]
  obtain ⟨hhead, htail⟩ := append_cons_inj (hbar name hname) (hbar name' hname') hsplit
  exact ⟨List.append_cancel_left hhead, List.append_cancel_left htail⟩

/-- Rendered parts determine the names and values they were rendered from. -/
theorem map_part_inj : ∀ {es es' : List (Str × Str)}, (∀ e ∈ es, e.1 ∈ factorOrder) →
    (∀ e ∈ es', e.1 ∈ factorOrder) →
      es.map (fun e => part e.1 e.2) = es'.map (fun e => part e.1 e.2) → es = es'
  | [], [], _, _, _ => rfl
  | [], _ :: _, _, _, h => nomatch h
  | _ :: _, [], _, _, h => nomatch h
  | e :: es, e' :: es', hes, hes', h => by
    obtain ⟨hhead, htail⟩ := List.cons.inj h
    obtain ⟨hname, hvalue⟩ :=
      part_inj (hes e List.mem_cons_self) (hes' e' List.mem_cons_self) hhead
    rw [Prod.ext hname hvalue, map_part_inj (fun f hf => hes f (List.mem_cons_of_mem e hf))
      (fun f hf => hes' f (List.mem_cons_of_mem e' hf)) htail]

/-! ## What the text tells -/

section Hashing

variable [CaseTables]

/-- Every rendered part of a map starts like a part. -/
theorem startsPart_contents {factors : Dict Str} :
    ∀ text ∈ (contents factors).map fun e => part e.1 e.2, startsPart text = true := by
  intro text htext
  obtain ⟨e, he, rfl⟩ := List.mem_map.mp htext
  exact startsPart_part (mem_contents he) e.2

/-- The cuts of the contents are the parts of the readings. -/
theorem flatMap_cuts_contents (factors : Dict Str) :
    ((contents factors).map fun e => part e.1 e.2).flatMap (cuts amp startsPart) =
      (readings factors).map fun e => part e.1 e.2 := by
  rw [List.flatMap_map, readings, List.map_flatMap]
  exact List.flatMap_congr fun e he => (cuts_part (mem_contents he)).1

theorem mem_readings {factors : Dict Str} {r : Str × Str} (h : r ∈ readings factors) :
    r.1 ∈ factorOrder := by
  obtain ⟨e, he, hr⟩ := List.mem_flatMap.mp h
  exact (cuts_part (mem_contents he)).2 r hr

/-- Without a usable factor there is no text and nothing to read. -/
theorem canonicalString_of_nil {factors : Dict Str} (h : contents factors = []) :
    canonicalString factors = [] ∧ readings factors = [] := by
  rw [canonicalString_eq, readings, h]
  exact ⟨rfl, rfl⟩

/-- With a usable factor there are both. -/
theorem canonicalString_of_ne_nil {factors : Dict Str} (h : contents factors ≠ []) :
    canonicalString factors ≠ [] ∧ readings factors ≠ [] := by
  obtain ⟨e, rest, hcontents⟩ := List.exists_cons_of_ne_nil h
  constructor
  · intro htext
    have hfirst : part e.1 e.2 <+: canonicalString factors := by
      rw [canonicalString_eq, hcontents, List.map_cons]
      exact prefix_intercalate _ _
    rw [htext, List.prefix_nil] at hfirst
    exact part_ne_nil _ _ hfirst
  · have hname : e.1 ∈ factorOrder := mem_contents (by rw [hcontents]; exact List.mem_cons_self)
    rw [readings, hcontents, List.flatMap_cons]
    refine List.append_ne_nil_of_left_ne_nil (fun hnil => ?_) _
    have hcuts := (cuts_part hname).1
    rw [hnil] at hcuts
    exact cuts_ne_nil _ hcuts

/-- **Two machines have one text** exactly if they have the same readings. -/
theorem canonicalString_eq_iff (F G : Dict Str) :
    canonicalString F = canonicalString G ↔ readings F = readings G := by
  -- one of the two may have no usable factor: then there is no text either, and nothing to read
  by_cases hF : contents F = []
  · obtain ⟨htext, hread⟩ := canonicalString_of_nil hF
    by_cases hG : contents G = []
    · obtain ⟨htext', hread'⟩ := canonicalString_of_nil hG
      rw [htext, htext', hread, hread']
      exact ⟨fun _ => rfl, fun _ => rfl⟩
    · obtain ⟨htext', hread'⟩ := canonicalString_of_ne_nil hG
      rw [htext, hread]
      exact ⟨fun h => absurd h.symm htext', fun h => absurd h.symm hread'⟩
  · by_cases hG : contents G = []
    · obtain ⟨htext, hread⟩ := canonicalString_of_ne_nil hF
      obtain ⟨htext', hread'⟩ := canonicalString_of_nil hG
      rw [htext', hread']
      exact ⟨fun h => absurd h htext, fun h => absurd h hread⟩
    · -- otherwise the joined texts are equal exactly if their cuts are
      have hjoin := intercalate_eq_iff startsPart_stops
        (mt List.map_eq_nil_iff.mp hF) (mt List.map_eq_nil_iff.mp hG)
        startsPart_contents startsPart_contents
      rw [flatMap_cuts_contents, flatMap_cuts_contents] at hjoin
      rw [canonicalString_eq, canonicalString_eq]
      refine hjoin.trans ⟨?_, ?_⟩
      · exact map_part_inj (fun e he => mem_readings he) (fun e he => mem_readings he)
      · exact congrArg (List.map fun e : Str × Str => part e.1 e.2)

/-- **Plain values are told apart**: a map with no other values is read as its contents. -/
theorem readings_of_plain {F : Dict Str} (hF : ∀ e ∈ contents F, Plain e.2) :
    readings F = contents F := by
  rw [readings, List.flatMap_congr fun e he => readValue_of_plain (hF e he)]
  exact List.flatMap_singleton' _

/-! ## Identifiers -/

/-- The two texts are different inputs of the hash with one digest. -/
def Collide [Sha256] (F G : Dict Str) : Prop :=
  ∃ a b, encodeUtf8 (canonicalString F) = .ok a ∧ encodeUtf8 (canonicalString G) = .ok b ∧ a ≠ b ∧
    sha256 a = sha256 b

/-- One identifier for two texts is a collision. -/
theorem collide_of_compose [Sha256] {F G : Dict Str} {hwid : Str} (hF : compose F = .ok hwid)
    (hG : compose G = .ok hwid) (hne : canonicalString F ≠ canonicalString G) : Collide F G := by
  obtain ⟨a, ha, hF⟩ := bind_eq_ok.mp hF
  obtain ⟨b, hb, hG⟩ := bind_eq_ok.mp hG
  have hdigest : sha256 a = sha256 b :=
    rstripPad_encode_inj (Except.ok.inj (hF.trans hG.symm))
  refine ⟨a, b, ha, hb, fun heq => ?_, hdigest⟩
  rw [← heq] at hb
  exact hne (encodeUtf8_inj ha hb)

/-- **When the legacy encoding tells two machines apart.**  For any two maps of factors with different
    contents: the texts differ if and only if the readings do; then one identifier for both is a
    collision of the hash, and otherwise both have one identifier. -/
theorem legacy_encoding_iff [Sha256] {F G : Dict Str} (hdiff : contents F ≠ contents G) :
    (canonicalString F ≠ canonicalString G ↔ readings F ≠ readings G) ∧
    (readings F ≠ readings G →
      ∀ hwid, compose F = .ok hwid → compose G = .ok hwid → Collide F G) ∧
    (readings F = readings G →
      compose F = compose G ∧ ∃ e, (e ∈ contents F ∨ e ∈ contents G) ∧ ¬ Plain e.2) := by
  refine ⟨not_congr (canonicalString_eq_iff F G), fun hread hwid hF hG => ?_, fun hread => ⟨?_, ?_⟩⟩
  · exact collide_of_compose hF hG (mt (canonicalString_eq_iff F G).mp hread)
  · rw [compose, compose, (canonicalString_eq_iff F G).mpr hread]
  · by_contra hno
    push Not at hno
    rw [readings_of_plain fun e he => hno e (Or.inl he),
      readings_of_plain fun e he => hno e (Or.inr he)] at hread
    exact hdiff hread

end Hashing

/-- The tables, as far as ASCII goes. -/
@[reducible] def asciiTables : CaseTables := ⟨Slhwid.foldAscii⟩

/-- A machine whose GUID reads like a GUID and a MAC. -/
def embeddingFactors : Dict Str :=
  (∅ : Dict Str).insert (str "machine_guid") (str "4f5a&factor=mac|value=001122aabbcc")

/-- It is read as having both. -/
example : @readings asciiTables embeddingFactors =
    [(str "machine_guid", str "4f5a"), (str "mac", str "001122aabbcc")] := by
  decide +kernel

/-- A machine that has both. -/
def plainFactors : Dict Str :=
  ((∅ : Dict Str).insert (str "machine_guid") (str "4F5A")).insert (str "mac") (str "00:11:22:aa:bb:cc")

/-- **Two machines, one identifier**: they have different factors, and no hash can tell. -/
theorem embedding_not_told_apart :
    @contents asciiTables embeddingFactors ≠ @contents asciiTables plainFactors ∧
    @canonicalString asciiTables embeddingFactors = @canonicalString asciiTables plainFactors ∧
    ∀ hash : Sha256, @compose asciiTables hash embeddingFactors =
      @compose asciiTables hash plainFactors := by
  have htext : @canonicalString asciiTables embeddingFactors =
      @canonicalString asciiTables plainFactors := by decide +kernel
  exact ⟨by decide +kernel, htext, fun hash => congrArg (@fromCanonical hash) htext⟩

/-- Two machines with different GUIDs. -/
theorem legacy_encoding_sample :
    @canonicalString asciiTables plainFactors ≠
      @canonicalString asciiTables (plainFactors.insert (str "machine_guid") (str "4f5b")) := by
  refine (@legacy_encoding_iff asciiTables Slhwid.sampleHash plainFactors
    (plainFactors.insert (str "machine_guid") (str "4f5b")) (by decide +kernel)).1.mpr ?_
  decide +kernel

end Bedrock.Hwid

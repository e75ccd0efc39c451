/-
  What a request says and what a server reads of it: form bodies (`transport.py`), the query of a
  metadata request (`invisible_folder.py`) and the portal URL (`sso.py`).

  1. **Codes** — `quote` and `quote_plus` are escape codes over bytes: `percentEncode_eq_ok` and
     `quotePlus_eq_ok_iff` say so of the functions of the source.

  2. **The reader** — `readForm` is any server's side, `application/x-www-form-urlencoded`: cut at `&`,
     each field at its first `=`, `+` for a space, percent words for bytes, all of it UTF-8.  It is not
     code of this repository but what the client's encoders are for.

  3. **Round trips** — `form_read_back`: the body of a form is read as exactly the pairs that were put
     in, so no value can end its field, add a field or pass for another (`requests_read_back`);
     `url_read_back`: so are the keys of a metadata URL and the system id of the portal URL.
-/
import Bedrock.Lib.Delimited
import Bedrock.Lib.Escape
import Bedrock.Protocol.Acceptance
import Bedrock.Protocol.Identifiers

open Lib.Fallible Lib.Escape Lib.Delimited Bedrock.Python

namespace Bedrock.Protocol

/-! ## The codes -/

/-- The value of a hexadecimal digit, in either case. -/
def hexValue (b : UInt8) : Option Nat :=
  let n := b.toNat
  if 48 ≤ n ∧ n ≤ 57 then some (n - 48)
  else if 65 ≤ n ∧ n ≤ 70 then some (n - 55)
  else if 97 ≤ n ∧ n ≤ 102 then some (n - 87)
  else none

/-- The byte of two hexadecimal digits. -/
def hexByte (high low : UInt8) : Option UInt8 := do
  return UInt8.ofNat ((← hexValue high) * 16 + (← hexValue low))

theorem hexValue_upperHex {n : Nat} (h : n < 16) : hexValue (upperHex n) = some n := by
  revert n
  decide +kernel

theorem hexByte_upperHex (b : UInt8) :
    hexByte (upperHex (b.toNat / 16)) (upperHex (b.toNat % 16)) = some b := by
  have hb := b.toNat_lt
  unfold hexByte
  rw [hexValue_upperHex (by omega), hexValue_upperHex (by omega)]
  show some (UInt8.ofNat (b.toNat / 16 * 16 + b.toNat % 16)) = some b
  rw [Nat.div_add_mod', UInt8.ofNat_toNat]

/-- Percent encoding, with the bytes that stay. -/
def percentCode (literal : UInt8 → Bool) (hescaped : literal 37 = false) : EscapeCode UInt8 where
  esc := 37
  literal := literal
  word b := (upperHex (b.toNat / 16), upperHex (b.toNat % 16))
  unword := hexByte
  esc_escaped := hescaped
  unword_word := hexByte_upperHex

/-- `quote`. -/
def quoteCode : EscapeCode UInt8 := percentCode isUnreserved (by decide)

/-- What `quote_plus` hands to `quote`: the space stays, to become a plus. -/
def staysPlus (b : UInt8) : Bool := b.toNat = 32 || isUnreserved b

/-- The escape code of `quote_plus`, spaces apart. -/
def plusCode : EscapeCode UInt8 := percentCode staysPlus (by decide)

/-- `replace(" ", "+")` .. -/
def spaceToPlus (b : UInt8) : UInt8 := if b = 32 then 43 else b

/-- .. and what undoes it. -/
def plusToSpace (b : UInt8) : UInt8 := if b = 43 then 32 else b

/-- A byte of percent-encoded text: unreserved, a space, or a percent sign. -/
def isPercentText (b : UInt8) : Bool := staysPlus b || b = 37

theorem isPercentText_upperHex {n : Nat} (h : n < 16) : isPercentText (upperHex n) = true := by
  revert n
  decide +kernel

/-- Percent-encoded text has no reserved byte in it. -/
theorem isPercentText_of_mem {literal : UInt8 → Bool} {hescaped : literal 37 = false}
    (hlit : ∀ b, literal b = true → staysPlus b = true) {b : UInt8} {l : Bytes}
    (h : b ∈ (percentCode literal hescaped).encode l) : isPercentText b = true := by
  rcases EscapeCode.mem_encode _ h with h | rfl | ⟨c, rfl | rfl⟩
  · rw [isPercentText, hlit b h]
    rfl
  · show isPercentText 37 = true
    decide
  · exact isPercentText_upperHex (by have := c.toNat_lt; omega)
  · exact isPercentText_upperHex (Nat.mod_lt _ (by omega))

/-- **`quote_plus` is an escape code**, spaces apart. -/
theorem quotePlus_eq_ok_iff {s : Str} {q : Bytes} : quotePlus s = .ok q ↔
    ∃ b, encodeUtf8 s = .ok b ∧ q = (plusCode.encode b).map spaceToPlus := by
  have hsymbol : ∀ x : UInt8, (if x.toNat = 32 then [43] else if isUnreserved x then [x]
      else [37, upperHex (x.toNat / 16), upperHex (x.toNat % 16)]) =
        (plusCode.encodeSymbol x).map spaceToPlus := by
    decide +kernel
  have hword : ∀ b : Bytes, (b.flatMap fun x => if x.toNat = 32 then [43]
      else if isUnreserved x then [x]
      else [37, upperHex (x.toNat / 16), upperHex (x.toNat % 16)]) =
        (plusCode.encode b).map spaceToPlus := fun b => by
    rw [EscapeCode.encode, List.map_flatMap]
    exact List.flatMap_congr fun x _ => hsymbol x
  constructor
  · intro h
    obtain ⟨b, hb, h⟩ := bind_eq_ok.mp h
    exact ⟨b, hb, (Except.ok.inj h).symm.trans (hword b)⟩
  · rintro ⟨b, hb, rfl⟩
    rw [quotePlus, hb, ← hword b]
    rfl

/-- **`quote` is an escape code**; what it makes is ASCII. -/
theorem percentEncode_eq_ok {s t : Str} : percentEncode s = .ok t ↔
    ∃ b, encodeUtf8 s = .ok b ∧ t = decodeLatin1 (quoteCode.encode b) := by
  -- one byte: a letter of the URL alphabet stays, any other is escaped by its two digits
  have hsymbol : ∀ x : UInt8, (if isUnreserved x then [Fin.ofNat 0x110000 x.toNat]
      else chr '%' :: [upperHex (x.toNat / 16), upperHex (x.toNat % 16)].map
        fun d => Fin.ofNat 0x110000 d.toNat) = decodeLatin1 (quoteCode.encodeSymbol x) := by
    intro x
    unfold EscapeCode.encodeSymbol
    by_cases hx : isUnreserved x = true
    · rw [if_pos hx, if_pos (show quoteCode.literal x = true from hx)]
      rfl
    · rw [if_neg hx, if_neg (show ¬ quoteCode.literal x = true from hx)]
      rfl
  have hword : ∀ b : Bytes, (b.flatMap fun x => if isUnreserved x then [Fin.ofNat 0x110000 x.toNat]
      else chr '%' :: [upperHex (x.toNat / 16), upperHex (x.toNat % 16)].map
        fun d => Fin.ofNat 0x110000 d.toNat) = decodeLatin1 (quoteCode.encode b) := fun b => by
    rw [EscapeCode.encode, decodeLatin1, List.map_flatMap]
    exact List.flatMap_congr fun x _ => hsymbol x
  constructor
  · intro h
    obtain ⟨b, hb, h⟩ := bind_eq_ok.mp h
    exact ⟨b, hb, (Except.ok.inj h).symm.trans (hword b)⟩
  · rintro ⟨b, hb, rfl⟩
    rw [percentEncode, hb, ← hword b]
    rfl

/-! ## The reader -/

/-- One name or value of a form. -/
def readText (field : Bytes) : Except Exc Str :=
  decodeUtf8 (unescape 37 hexByte (field.map plusToSpace))

/-- One field: what stands in front of the first `=`, and what stands behind it. -/
def readPair (field : Bytes) : Except Exc (Str × Str) := do
  let parts := splitFirst 61 field
  let name ← readText parts.1
  let value ← readText parts.2
  return (name, value)

/-- The pairs of an urlencoded text, empty fields left out. -/
def readForm (text : Bytes) : Except Exc (List (Str × Str)) :=
  ((text.splitOn 38).filter fun field => field ≠ []).mapM readPair

example : readForm (bytesOf "key=a%26b%3D1+%C3%A9&system=S&&beat") =
    .ok [(str "key", str "a&b=1 " ++ [0xE9]), (str "system", str "S"), (str "beat", [])] := by
  decide +kernel

/-! ## Round trips -/

/-- No reserved byte but the plus occurs in what `quote_plus` makes. -/
theorem quotePlus_text {s : Str} {q : Bytes} (h : quotePlus s = .ok q) :
    (38 : UInt8) ∉ q ∧ (61 : UInt8) ∉ q := by
  obtain ⟨b, -, rfl⟩ := quotePlus_eq_ok_iff.mp h
  have hbyte : ∀ c ∈ (plusCode.encode b).map spaceToPlus,
      ∃ x, isPercentText x = true ∧ c = spaceToPlus x := by
    intro c hc
    obtain ⟨x, hx, rfl⟩ := List.mem_map.mp hc
    exact ⟨x, isPercentText_of_mem (fun _ h => h) hx, rfl⟩
  have hkept : ∀ x : UInt8, isPercentText x = true → spaceToPlus x ≠ 38 ∧ spaceToPlus x ≠ 61 := by
    decide +kernel
  constructor
  · intro hmem
    obtain ⟨x, hx, heq⟩ := hbyte _ hmem
    exact (hkept x hx).1 heq.symm
  · intro hmem
    obtain ⟨x, hx, heq⟩ := hbyte _ hmem
    exact (hkept x hx).2 heq.symm

/-- **A quoted text is read back.** -/
theorem readText_quotePlus {s : Str} {q : Bytes} (h : quotePlus s = .ok q) : readText q = .ok s := by
  obtain ⟨b, hb, rfl⟩ := quotePlus_eq_ok_iff.mp h
  have hback : ∀ x : UInt8, isPercentText x = true → plusToSpace (spaceToPlus x) = x := by
    decide +kernel
  have hmap : ((plusCode.encode b).map spaceToPlus).map plusToSpace = plusCode.encode b := by
    rw [List.map_map]
    conv_rhs => rw [← List.map_id (plusCode.encode b)]
    exact List.map_congr_left fun x hx => hback x (isPercentText_of_mem (fun _ h => h) hx)
  rw [readText, hmap]
  exact (congrArg decodeUtf8 (plusCode.decode_encode b)).trans (decodeUtf8_encodeUtf8 hb)

/-- **A field is read back**, and has no separator in it. -/
theorem readPair_encodePair {pair : Str × Str} {field : Bytes} (h : encodePair pair = .ok field) :
    readPair field = .ok pair ∧ (38 : UInt8) ∉ field ∧ field ≠ [] := by
  obtain ⟨key, hkey, h⟩ := bind_eq_ok.mp h
  obtain ⟨value, hvalue, h⟩ := bind_eq_ok.mp h
  obtain rfl := Except.ok.inj h
  have hsplit : splitFirst 61 (key ++ [61] ++ value) = (key, value) := by
    rw [List.append_assoc]
    exact splitFirst_append (quotePlus_text hkey).2 value
  refine ⟨?_, ?_, by simp⟩
  · rw [readPair, hsplit, readText_quotePlus hkey, ok_bind, readText_quotePlus hvalue]
    rfl
  · simp [(quotePlus_text hkey).1, (quotePlus_text hvalue).1]

/-- Fields without separators are found again. -/
theorem readForm_intercalate {fields : List Bytes}
    (h : ∀ field ∈ fields, (38 : UInt8) ∉ field ∧ field ≠ []) :
    readForm (List.intercalate [38] fields) = fields.mapM readPair := by
  have hsplit : ((List.intercalate [38] fields).splitOn 38).filter (fun field => field ≠ []) =
      fields := by
    by_cases hnil : fields = []
    · rw [hnil]
      rfl
    · rw [List.splitOn_intercalate 38 (fun f hf => (h f hf).1) hnil]
      exact List.filter_eq_self.mpr fun f hf => decide_eq_true (h f hf).2
  rw [readForm, hsplit]

/-- **The body of a form is read as the pairs that were put in.** -/
theorem form_read_back {form : Form} {body : Bytes} (h : encodeForm form = .ok body) :
    readForm body = .ok (formPairs form) := by
  obtain ⟨fields, hfields, h⟩ := bind_eq_ok.mp h
  obtain rfl := Except.ok.inj h
  have hfield : ∀ field ∈ fields, (38 : UInt8) ∉ field ∧ field ≠ [] := by
    intro field hfield
    obtain ⟨pair, hpair⟩ := exists_of_mem_mapM hfields field hfield
    exact (readPair_encodePair hpair).2
  have hback : ∀ pair field, encodePair pair = .ok field → readPair field = .ok (id pair) :=
    fun pair field hpair => (readPair_encodePair hpair).1
  rw [readForm_intercalate hfield, mapM_read_back hback hfields, List.map_id]

/-! ### The requests of the protocol -/

/-- The values a server reads under a name. -/
def valuesOf (pairs : List (Str × Str)) (name : Str) : List Str :=
  (pairs.filter fun pair => pair.1 = name).map Prod.snd

/-- A field of one text has one item, one of several has them all. -/
def FormValue.items : FormValue → List Str
  | .text s => [s]
  | .texts items => items

/-- The values the client puts under a name of its `dict`. -/
def Form.valuesAt (form : Form) (name : Str) : List Str :=
  ((form.lookup name).map FormValue.items).getD []

theorem valuesOf_append (pairs pairs' : List (Str × Str)) (name : Str) :
    valuesOf (pairs ++ pairs') name = valuesOf pairs name ++ valuesOf pairs' name := by
  rw [valuesOf, List.filter_append, List.map_append]
  rfl

/-- A field of the `dict` becomes one pair for each of its items. -/
theorem formPairs_cons (field : Str × FormValue) (form : Form) :
    formPairs (field :: form) = (field.2.items.map fun item => (field.1, item)) ++ formPairs form := by
  obtain ⟨name, value⟩ := field
  cases value with
  | text s => rfl
  | texts items => rfl

/-- Under its own name it has its items, under any other none. -/
theorem valuesOf_field (name name' : Str) (items : List Str) :
    valuesOf (items.map fun item => (name, item)) name' = if name = name' then items else [] := by
  unfold valuesOf
  rw [List.filter_map, List.map_map]
  split
  · rename_i h
    have hall : items.filter ((fun pair : Str × Str => decide (pair.1 = name')) ∘
        fun item => (name, item)) = items := List.filter_eq_self.mpr fun _ _ => decide_eq_true h
    rw [hall]
    exact List.map_id items
  · rename_i h
    have hnone : items.filter ((fun pair : Str × Str => decide (pair.1 = name')) ∘
        fun item => (name, item)) = [] := List.filter_eq_nil_iff.mpr fun _ _ => by simpa using h
    rw [hnone]
    rfl

/-- **Under a name of a `dict` form stand exactly its own values.** -/
theorem valuesOf_formPairs {form : Form} (hnames : (form.map Prod.fst).Nodup) (name : Str) :
    valuesOf (formPairs form) name = form.valuesAt name := by
  induction form with
  | nil => rfl
  | cons field form ih =>
    obtain ⟨hnew, hnames⟩ := List.nodup_cons.mp hnames
    rw [formPairs_cons, valuesOf_append, valuesOf_field, ih hnames]
    unfold Form.valuesAt
    rw [List.lookup_cons]
    by_cases hname : name = field.1
    · subst hname
      have habsent : form.lookup field.1 = none := List.lookup_eq_none_iff.mpr fun pair hpair => by
        have hne : pair.1 ≠ field.1 := fun h => hnew (h ▸ List.mem_map_of_mem hpair)
        simpa using fun h => hne h.symm
      rw [if_pos rfl, habsent, beq_self_eq_true]
      exact List.append_nil _
    · have hbeq : (name == field.1) = false := beq_eq_false_iff_ne.mpr hname
      rw [if_neg (fun h => hname h.symm), hbeq]
      rfl

/-- A request the client posts: an initialization with a license key or with a password, or a
    heartbeat. -/
inductive Posted (config : Config) : Form → Prop
  /-- An authentication by licence key. -/
  | key (q : Request) (licenseKey hwid : Str) :
    Posted config (initForm config (q.withKey licenseKey) hwid)
  /-- An authentication by username and password. -/
  | password (q : Request) (username password hwid : Str) :
    Posted config (initForm config (q.withPassword username password) hwid)
  /-- A heartbeat. -/
  | beat (s : BedrockSession) (b : Beat) : Posted config (s.form config b)

/-- A field that may be left out has its own name or none. -/
theorem names_optional (c : Prop) [Decidable c] (name : Str) (value : FormValue) :
    ((if c then [(name, value)] else [] : Form).map Prod.fst).Sublist [name] := by
  split
  · exact List.Sublist.refl _
  · exact List.nil_sublist _

/-- No request has two fields of one name. -/
theorem Posted.names_nodup {config : Config} {form : Form} (h : Posted config form) :
    (form.map Prod.fst).Nodup := by
  -- the fixed fields come first, each optional group behind them adds one name
  have hinit : ∀ (q : Request) (hwid : Str), ((initForm config q hwid).map Prod.fst).Sublist
      (q.extraFields.map Prod.fst ++ [str "system", str "hwid", str "version", str "beatrate",
        str "challenge"] ++ [str "digest"] ++ [str "init-if"] ++ [str "variables[]"]) := by
    intro q hwid
    unfold initForm
    rw [List.map_append, List.map_append, List.map_append, List.map_append]
    exact (((List.Sublist.refl _).append (names_optional _ _ _)).append (names_optional _ _ _)).append
      (names_optional _ _ _)
  cases h with
  | key q licenseKey hwid => exact (hinit (q.withKey licenseKey) hwid).nodup (by
      show ([str "key"] ++ _ ++ _ ++ _ ++ _).Nodup
      decide +kernel)
  | password q username password hwid => exact (hinit (q.withPassword username password) hwid).nodup (by
      show ([str "username", str "password"] ++ _ ++ _ ++ _ ++ _).Nodup
      decide +kernel)
  | beat s b =>
    -- of the heartbeat form, only the request for a folder token is optional
    have hnames : ((s.form config b).map Prod.fst).Sublist
        ([str "session_token", str "system", str "challenge"] ++ [str "init-if"]) := by
      unfold BedrockSession.form
      rw [List.map_append]
      exact (List.Sublist.refl _).append (names_optional _ _ _)
    exact hnames.nodup (by decide +kernel)

/-- **What a server reads of a request** under each name is what the client put there, and nothing
    stands under another name — whatever characters the values are made of. -/
theorem requests_read_back {config : Config} {form : Form} (hposted : Posted config form)
    {body : Bytes} (hbody : encodeForm form = .ok body) :
    ∃ pairs, readForm body = .ok pairs ∧ ∀ name, valuesOf pairs name = form.valuesAt name :=
  ⟨formPairs form, form_read_back hbody, valuesOf_formPairs hposted.names_nodup⟩

/-- A license key that tries to be another field. -/
def sampleInjection : Str := str "K&system=other&challenge=1+1%"

/-- The injected text is the value of its own field; the system and the challenge are the client's. -/
theorem requests_read_back_sample :
    ∃ body pairs, encodeForm (initForm sampleConfig (sampleRequest.withKey sampleInjection) []) =
        .ok body ∧ readForm body = .ok pairs ∧ valuesOf pairs (str "key") = [sampleInjection] ∧
      valuesOf pairs (str "system") = [sampleConfig.systemId] ∧
      valuesOf pairs (str "challenge") = [sampleRequest.challenge] := by
  have hok : (encodeForm (initForm sampleConfig (sampleRequest.withKey sampleInjection) [])).isOk =
      true := by decide +kernel
  cases hbody : encodeForm (initForm sampleConfig (sampleRequest.withKey sampleInjection) []) with
  | error e =>
    rw [hbody] at hok
    cases hok
  | ok body =>
    obtain ⟨pairs, hread, hvalues⟩ := requests_read_back (.key sampleRequest sampleInjection []) hbody
    refine ⟨body, pairs, rfl, hread, ?_, ?_, ?_⟩
    · rw [hvalues]
      decide +kernel
    · rw [hvalues]
      decide +kernel
    · rw [hvalues]
      decide +kernel

/-! ### URLs -/

/-- `GOOGLE_SSO_PORTAL`. -/
def GOOGLE_SSO_PORTAL : Str := str "https://systemlocker.net/user/sso?system="

/-- `google_sso_url`; `quote(system_id, safe="")` and `quote(value, safe="-_.")` leave the same
    characters alone. -/
def googleSsoUrl (systemId : Str) : Except Exc Str := do
  return GOOGLE_SSO_PORTAL ++ (← percentEncode systemId)

/-- What a server reads behind the path of a URL: nothing, or the query after its question mark. -/
def readQuery : Str → Except Exc (List (Str × Str))
  | [] => .ok []
  | c :: query =>
    if c = chr '?' then do readForm (← encodeAscii query)
    else .error (.valueError "no query")

/-- The bytes of ASCII text. -/
def asciiBytes (s : Str) : Bytes := s.map fun c => UInt8.ofNat c.val

/-- A text that stands in a query and is read as `value`. -/
structure QueryText (text value : Str) : Prop where
  /-- It can stand in a request line. -/
  ascii : isAscii text = true
  /-- It is read back as the value. -/
  read : readText (asciiBytes text) = .ok value
  /-- No separator is in it. -/
  noAnd : (38 : UInt8) ∉ asciiBytes text
  noEq : (61 : UInt8) ∉ asciiBytes text

/-- **A quoted text is read back.** -/
theorem queryText_percentEncode {s t : Str} (h : percentEncode s = .ok t) : QueryText t s := by
  obtain ⟨b, hb, rfl⟩ := percentEncode_eq_ok.mp h
  -- the letters that stay are read as themselves, and what is read is ASCII without separators
  have hstays : ∀ x : UInt8, isUnreserved x = true → staysPlus x = true := by decide +kernel
  have hbyte : ∀ x : UInt8, isPercentText x = true →
      x.toNat < 128 ∧ x ≠ 38 ∧ x ≠ 61 ∧ plusToSpace x = x := by decide +kernel
  have htext : ∀ x ∈ quoteCode.encode b, x.toNat < 128 ∧ x ≠ 38 ∧ x ≠ 61 ∧ plusToSpace x = x :=
    fun x hx => hbyte x (isPercentText_of_mem hstays hx)
  have hval : ∀ x : UInt8, (Fin.ofNat 0x110000 x.toNat).val = x.toNat := fun x =>
    Nat.mod_eq_of_lt (by have := x.toNat_lt; omega)
  have hbytes : asciiBytes (decodeLatin1 (quoteCode.encode b)) = quoteCode.encode b := by
    rw [asciiBytes, decodeLatin1, List.map_map]
    conv_rhs => rw [← List.map_id (quoteCode.encode b)]
    refine List.map_congr_left fun x _ => ?_
    show UInt8.ofNat (Fin.ofNat 0x110000 x.toNat).val = x
    rw [hval, UInt8.ofNat_toNat]
  have hplus : (quoteCode.encode b).map plusToSpace = quoteCode.encode b := by
    conv_rhs => rw [← List.map_id (quoteCode.encode b)]
    exact List.map_congr_left fun x hx => (htext x hx).2.2.2
  refine ⟨isAscii_iff.mpr fun c hc => ?_, ?_, ?_, ?_⟩
  · obtain ⟨x, hx, rfl⟩ := List.mem_map.mp hc
    rw [hval]
    exact (htext x hx).1
  · -- the bytes are read back by the escape code, the text by the decoder
    rw [readText, hbytes, hplus]
    exact (congrArg decodeUtf8 (quoteCode.decode_encode b)).trans (decodeUtf8_encodeUtf8 hb)
  · rw [hbytes]
    exact fun hmem => (htext _ hmem).2.1 rfl
  · rw [hbytes]
    exact fun hmem => (htext _ hmem).2.2.1 rfl

/-- `name=text`. -/
def queryField (name text : Str) : Str := name ++ chr '=' :: text

theorem asciiBytes_queryField (name text : Str) :
    asciiBytes (queryField name text) = asciiBytes name ++ 61 :: asciiBytes text := by
  rw [asciiBytes, queryField, List.map_append]
  rfl

/-- A field of two quoted texts is read as both. -/
theorem readPair_queryField {name name' text value : Str} (hname : QueryText name name')
    (htext : QueryText text value) :
    readPair (asciiBytes (queryField name text)) = .ok (name', value) := by
  rw [asciiBytes_queryField, readPair, splitFirst_append hname.noEq, hname.read, ok_bind, htext.read]
  rfl

/-- **A query of quoted values under one name is read back.** -/
theorem query_read_back {name name' : Str} (hname : QueryText name name') {values parts : List Str}
    (h : values.mapM percentEncode = .ok parts) :
    readQuery (chr '?' :: List.intercalate [chr '&'] (parts.map (queryField name))) =
      .ok (values.map fun value => (name', value)) := by
  have hpart : ∀ part ∈ parts, ∃ value, QueryText part value := fun part hp => by
    obtain ⟨value, hvalue⟩ := exists_of_mem_mapM h part hp
    exact ⟨value, queryText_percentEncode hvalue⟩
  -- every field is ASCII without an `&` in it, so the query splits where it was joined
  have hascii : isAscii (List.intercalate [chr '&'] (parts.map (queryField name))) = true := by
    refine isAscii_iff.mpr fun c hc => ?_
    rcases mem_intercalate hc with hc | ⟨field, hfield, hc⟩
    · rw [List.mem_singleton.mp hc]
      decide
    · obtain ⟨part, hp, rfl⟩ := List.mem_map.mp hfield
      obtain ⟨value, hvalue⟩ := hpart part hp
      rcases List.mem_append.mp hc with hc | hc
      · exact isAscii_iff.mp hname.ascii c hc
      · rcases List.mem_cons.mp hc with rfl | hc
        · decide
        · exact isAscii_iff.mp hvalue.ascii c hc
  have hbytes : asciiBytes (List.intercalate [chr '&'] (parts.map (queryField name))) =
      List.intercalate [38] (parts.map fun part => asciiBytes (queryField name part)) := by
    rw [map_intercalate (g := asciiBytes) rfl (fun a b => List.map_append) rfl, List.map_map]
    rfl
  have hfield : ∀ field ∈ parts.map (fun part => asciiBytes (queryField name part)),
      (38 : UInt8) ∉ field ∧ field ≠ [] := by
    intro field hfield
    obtain ⟨part, hp, rfl⟩ := List.mem_map.mp hfield
    obtain ⟨value, hvalue⟩ := hpart part hp
    rw [asciiBytes_queryField]
    exact ⟨by simp [hname.noAnd, hvalue.noAnd], by simp⟩
  have hback : ∀ value part, percentEncode value = .ok part →
      readPair (asciiBytes (queryField name part)) = .ok (name', value) := fun value part hv =>
    readPair_queryField hname (queryText_percentEncode hv)
  rw [readQuery, if_pos rfl, encodeAscii_ok hascii, ok_bind]
  show readForm (asciiBytes _) = _
  rw [hbytes, readForm_intercalate hfield, List.mapM_map]
  exact mapM_read_back hback h

theorem queryText_keys : QueryText (str "keys[]") (str "keys[]") :=
  ⟨by decide +kernel, by decide +kernel, by decide +kernel, by decide +kernel⟩

theorem queryText_system : QueryText (str "system") (str "system") :=
  ⟨by decide +kernel, by decide +kernel, by decide +kernel, by decide +kernel⟩

/-- **What a server reads in the URLs**: behind the route, the metadata keys of the caller, whatever
    characters they are made of, and nothing else — no query at all where there are no keys; behind the
    portal, the system id. -/
theorem url_read_back (config : Config) (referenceId : Str) :
    (∀ keys url, metadataUrl config referenceId keys = .ok url → ∃ query,
      url = endpoint config.invisibleFolderBaseUrl METADATA_PREFIX ++ referenceId ++ METADATA_SUFFIX ++
        query ∧ (query = [] ↔ keys = []) ∧
      readQuery query = .ok (keys.map fun key => (str "keys[]", key))) ∧
    ∀ systemId url, googleSsoUrl systemId = .ok url → ∃ query,
      url = str "https://systemlocker.net/user/sso" ++ query ∧
        readQuery query = .ok [(str "system", systemId)] := by
  constructor
  · intro keys url hurl
    unfold metadataUrl at hurl
    dsimp only at hurl
    split at hurl
    · rename_i hnil
      obtain rfl := Except.ok.inj hurl
      exact ⟨[], (List.append_nil _).symm, iff_of_true rfl hnil, by rw [hnil]; rfl⟩
    · rename_i hkeys
      obtain ⟨parts, hparts, hurl⟩ := bind_eq_ok.mp hurl
      obtain rfl := Except.ok.inj hurl
      -- the question mark is written only if there is a key
      have hne : parts ≠ [] := by
        obtain ⟨key, keys, rfl⟩ := List.exists_cons_of_ne_nil hkeys
        rw [List.mapM_cons] at hparts
        obtain ⟨part, _, hparts⟩ := bind_eq_ok.mp hparts
        obtain ⟨parts', _, hparts⟩ := bind_eq_ok.mp hparts
        obtain rfl := Except.ok.inj hparts
        exact List.cons_ne_nil part parts'
      -- `"?keys[]=" + "&keys[]=".join(..)` is the same text as fields joined by `&`
      have hfields : str "keys[]=" ++ List.intercalate (str "&keys[]=") parts =
          List.intercalate [chr '&'] (parts.map (queryField (str "keys[]"))) := by
        have hsep : str "&keys[]=" = [chr '&'] ++ str "keys[]=" := by decide +kernel
        have hname : queryField (str "keys[]") = fun part => str "keys[]=" ++ part := by
          funext part
          show str "keys[]" ++ ([chr '='] ++ part) = _
          rw [← List.append_assoc]
          rfl
        rw [hsep, append_intercalate [chr '&'] (str "keys[]=") hne, hname]
      refine ⟨_, ?_, iff_of_false (List.cons_ne_nil _ _) hkeys, query_read_back queryText_keys hparts⟩
      rw [← hfields, List.append_assoc _ (str "?keys[]=")]
      rfl
  · intro systemId url hurl
    obtain ⟨text, htext, hurl⟩ := bind_eq_ok.mp hurl
    obtain rfl := Except.ok.inj hurl
    have hparts : [systemId].mapM percentEncode = .ok [text] := by
      rw [List.mapM_cons, htext]
      rfl
    refine ⟨_, ?_, query_read_back queryText_system hparts⟩
    have hportal : GOOGLE_SSO_PORTAL = str "https://systemlocker.net/user/sso" ++ str "?system=" := by
      decide +kernel
    rw [List.map_singleton, List.intercalate_singleton, hportal, List.append_assoc]
    rfl

/-- Two keys, the first of which tries to be two, and a system id with a space. -/
theorem url_read_back_sample : ∃ url query url' query',
    metadataUrl sampleConfig (str "file-1") [sampleInjection, str "revisions"] = .ok url ∧
    url = endpoint sampleConfig.invisibleFolderBaseUrl METADATA_PREFIX ++ str "file-1" ++
      METADATA_SUFFIX ++ query ∧ query ≠ [] ∧
    readQuery query = .ok [(str "keys[]", sampleInjection), (str "keys[]", str "revisions")] ∧
    googleSsoUrl (str "SL 1&x") = .ok url' ∧
    url' = str "https://systemlocker.net/user/sso" ++ query' ∧
    readQuery query' = .ok [(str "system", str "SL 1&x")] := by
  have hok : (metadataUrl sampleConfig (str "file-1") [sampleInjection, str "revisions"]).isOk = true ∧
      (googleSsoUrl (str "SL 1&x")).isOk = true := by decide +kernel
  cases hurl : metadataUrl sampleConfig (str "file-1") [sampleInjection, str "revisions"] with
  | error e =>
    rw [hurl] at hok
    cases hok.1
  | ok url =>
    cases hportal : googleSsoUrl (str "SL 1&x") with
    | error e =>
      rw [hportal] at hok
      cases hok.2
    | ok url' =>
      obtain ⟨query, hquery, hempty, hread⟩ :=
        (url_read_back sampleConfig (str "file-1")).1 _ url hurl
      obtain ⟨query', hquery', hread'⟩ := (url_read_back sampleConfig (str "file-1")).2 _ url' hportal
      exact ⟨url, query, url', query', rfl, hquery, mt hempty.mp (List.cons_ne_nil _ _), hread, rfl,
        hquery', hread'⟩

end Bedrock.Protocol

/-
  The identifiers that are checked against a pattern: the system id, the reference id of a file and the
  names of extra hard locks.

  1. **The patterns** — each of the three tests is `re.match` of its pattern (`matchesSystemId_iff`,
     `validReferenceId_iff`, `matchesSlotName_iff`), and the words of the pattern are the documented
     grammar.

  2. **The defect** — the patterns end in `$`, so each test lets one more kind of string through: a
     word of its grammar with a newline behind it.  `exactGrammar_iff` says that there is no other.

  3. **Where they go** — a reference id is spliced into URLs as it is; without the newline nothing but
     route text and its own characters stands behind the base (`urls_of_referenceId`).
-/
import Bedrock.Protocol.Configuration
import Bedrock.Protocol.InvisibleFolder
import Bedrock.Slhwid.Corrupt

open Lib.Fallible Bedrock.Python Bedrock.Slhwid

namespace Bedrock.Protocol

/-! ## The grammars -/

/-- Exactly 20 ASCII letters or digits. -/
def IsSystemId (s : Str) : Prop := s.length = 20 ∧ ∀ c ∈ s, isSystemIdChar c = true

/-- 4 to 128 characters from `A-Z a-z 0-9 _ -`. -/
def IsReferenceId (s : Str) : Prop := 4 ≤ s.length ∧ s.length ≤ 128 ∧ ∀ c ∈ s, isReferenceChar c = true

/-- `[a-z]`. -/
def isLower (c : CodePoint) : Bool := 97 ≤ c.val && c.val ≤ 122

/-- A lowercase ASCII letter, and at most 31 characters from `a-z 0-9 _` behind it. -/
def IsSlotName (s : Str) : Prop :=
  ∃ c rest, s = c :: rest ∧ isLower c = true ∧ rest.length ≤ 31 ∧ ∀ c ∈ rest, isSlotChar c = true

/-! ## The patterns -/

/-- `^[A-Za-z0-9]{20}$`. -/
def systemIdPattern : List Item := [⟨isSystemIdChar, 20, 20⟩]

/-- `^[A-Za-z0-9_-]{4,128}$`. -/
def referenceIdPattern : List Item := [⟨isReferenceChar, 4, 128⟩]

/-- `^[a-z][a-z0-9_]{0,31}$`. -/
def slotNamePattern : List Item := [⟨isLower, 1, 1⟩, ⟨isSlotChar, 0, 31⟩]

/-- No pattern takes a newline: only the `$` does. -/
theorem newline_notMem_patterns :
    ∀ p ∈ [systemIdPattern, referenceIdPattern, slotNamePattern], ∀ item ∈ p,
      item.set newline = false := by
  intro p hp
  simp only [List.mem_cons, List.not_mem_nil, or_false] at hp
  rcases hp with rfl | rfl | rfl
  · intro item hitem
    rw [List.mem_singleton.mp hitem]
    decide +kernel
  · intro item hitem
    rw [List.mem_singleton.mp hitem]
    decide +kernel
  · intro item hitem
    rcases List.mem_cons.mp hitem with rfl | hitem
    · decide +kernel
    · rw [List.mem_singleton.mp hitem]
      decide +kernel

/-- The words of the pattern are the system ids. -/
theorem words_systemId {s : Str} : Words systemIdPattern s ↔ IsSystemId s := by
  rw [systemIdPattern, words_single, IsSystemId]
  constructor
  · rintro ⟨hlo, hhi, hset⟩
    exact ⟨Nat.le_antisymm hhi hlo, hset⟩
  · rintro ⟨hlen, hset⟩
    exact ⟨Nat.le_of_eq hlen.symm, Nat.le_of_eq hlen, hset⟩

theorem words_referenceId {s : Str} : Words referenceIdPattern s ↔ IsReferenceId s := words_single

theorem words_slotName {s : Str} : Words slotNamePattern s ↔ IsSlotName s := by
  constructor
  · rintro ⟨u, v, rfl, hlo, hhi, hset, hv⟩
    obtain ⟨c, rfl⟩ := List.length_eq_one_iff.mp (Nat.le_antisymm hhi hlo)
    obtain ⟨_, hlen, hrest⟩ := words_single.mp hv
    exact ⟨c, v, rfl, hset c List.mem_cons_self, hlen, hrest⟩
  · rintro ⟨c, rest, rfl, hc, hlen, hrest⟩
    refine ⟨[c], rest, rfl, Nat.le_refl 1, Nat.le_refl 1, ?_, words_single.mpr ⟨Nat.zero_le _, hlen, hrest⟩⟩
    intro c' hc'
    rw [List.mem_singleton.mp hc']
    exact hc

/-! ## The tests are matches -/

/-- **What `re.match` accepts** is a match of the pattern: for system ids. -/
theorem matchesSystemId_iff {s : Str} : matchesSystemId s = true ↔ Match systemIdPattern s := by
  rw [match_iff (newline_notMem_patterns _ (by simp)), words_systemId, matchesSystemId, IsSystemId,
    Bool.and_eq_true, beq_iff_eq, List.all_eq_true]

theorem validReferenceId_iff {s : Str} : validReferenceId s = true ↔ Match referenceIdPattern s := by
  rw [match_iff (newline_notMem_patterns _ (by simp)), words_referenceId, IsReferenceId]
  show (decide (4 ≤ (beforeNewline s).length) && decide ((beforeNewline s).length ≤ 128) &&
    (beforeNewline s).all isReferenceChar) = true ↔ _
  rw [Bool.and_eq_true, Bool.and_eq_true, decide_eq_true_eq, decide_eq_true_eq, List.all_eq_true,
    and_assoc]

theorem matchesSlotName_iff {s : Str} : matchesSlotName s = true ↔ Match slotNamePattern s := by
  rw [match_iff (newline_notMem_patterns _ (by simp)), words_slotName]
  have hbefore : (if s.getLast? = some 10 then s.dropLast else s) = beforeNewline s := rfl
  rw [matchesSlotName, hbefore]
  cases beforeNewline s with
  | nil =>
    constructor
    · intro h; cases h
    · rintro ⟨c, rest, heq, _⟩; cases heq
  | cons c rest =>
    show (isLower c && decide (rest.length ≤ 31) && rest.all isSlotChar) = true ↔ _
    rw [Bool.and_eq_true, Bool.and_eq_true, decide_eq_true_eq, List.all_eq_true, and_assoc]
    constructor
    · rintro ⟨hc, hlen, hrest⟩
      exact ⟨c, rest, rfl, hc, hlen, hrest⟩
    · rintro ⟨c', rest', heq, hc, hlen, hrest⟩
      obtain ⟨rfl, rfl⟩ := List.cons.inj heq
      exact ⟨hc, hlen, hrest⟩

/-! ## What is accepted -/

/-- With the other fields valid, the system id decides. -/
theorem validateConfig_systemId {hwidMode : Str} {config : Config}
    (hvalid : ∃ id, validateConfig hwidMode { config with systemId := id } = .ok ()) (s : Str) :
    validateConfig hwidMode { config with systemId := s } = .ok () ↔ matchesSystemId s = true := by
  obtain ⟨id, hid⟩ := hvalid
  obtain ⟨h₁, _, hrest⟩ := validateConfig_eq_ok.mp hid
  rw [validateConfig_eq_ok]
  constructor
  · rintro ⟨_, h, _⟩
    exact h
  · intro h
    exact ⟨h₁, h, hrest⟩

/-- With the other names valid, an extra name decides. -/
theorem requestedMandatory_name {before after : List Str}
    (hvalid : ∀ name ∈ before ++ after, matchesSlotName name = true) (s : Str) :
    (∃ M, requestedMandatory (before ++ s :: after) = .ok M) ↔ matchesSlotName s = true := by
  constructor
  · rintro ⟨M, hM⟩
    exact requestedMandatory_eq_ok hM s (List.mem_append_right _ List.mem_cons_self)
  · intro hs
    apply requestedMandatory_ok
    intro name hname
    rcases List.mem_append.mp hname with hb | hname
    · exact hvalid name (List.mem_append_left _ hb)
    · rcases List.mem_cons.mp hname with rfl | ha
      · exact hs
      · exact hvalid name (List.mem_append_right _ ha)

/-- The base of a URL. -/
def urlBase (config : Config) : Str := endpoint config.invisibleFolderBaseUrl []

/-- A part of the query: percent-encoded text. -/
def IsEncoded (part : Str) : Prop := ∃ key, percentEncode key = .ok part

/-- Behind the base of its URLs, `s` puts route text and characters of a reference id only; the keys of a
    metadata request follow in the query. -/
def UrlsClean (s : Str) : Prop :=
  ∀ config, (∃ id, downloadUrl config s = urlBase config ++ str "/a/" ++ id ∧
      ∀ c ∈ id, isReferenceChar c = true) ∧
    ∀ keys url, metadataUrl config s keys = .ok url → ∃ id query,
      url = urlBase config ++ str "/api/v1/files/" ++ id ++ str "/metadata" ++ query ∧
      (∀ c ∈ id, isReferenceChar c = true) ∧
      (query = [] ∨ ∃ parts : List Str, (∀ part ∈ parts, IsEncoded part) ∧
        query = str "?keys[]=" ++ List.intercalate (str "&keys[]=") parts)

/-- **A reference id of the grammar keeps the URLs clean.** -/
theorem urls_of_referenceId {s : Str} (h : IsReferenceId s) : UrlsClean s := by
  intro config
  obtain ⟨_, _, hset⟩ := h
  have hbase : ∀ path, endpoint config.invisibleFolderBaseUrl path = urlBase config ++ path := fun path => by
    rw [urlBase, endpoint, endpoint, List.append_nil]
  refine ⟨⟨s, ?_, hset⟩, ?_⟩
  · rw [downloadUrl, hbase]
    rfl
  · intro keys url hurl
    -- keys are percent-encoded, so each of them is clean by itself
    unfold metadataUrl at hurl
    dsimp only at hurl
    split at hurl
    · obtain rfl := Except.ok.inj hurl
      refine ⟨s, [], ?_, hset, Or.inl rfl⟩
      rw [hbase, List.append_nil]
      rfl
    · obtain ⟨parts, hparts, hurl⟩ := bind_eq_ok.mp hurl
      obtain rfl := Except.ok.inj hurl
      refine ⟨s, str "?keys[]=" ++ List.intercalate (str "&keys[]=") parts, ?_, hset,
        Or.inr ⟨parts, ?_, rfl⟩⟩
      · rw [hbase]
        simp only [List.append_assoc]
        rfl
      · intro part hpart
        exact exists_of_mem_mapM hparts part hpart

/-- **The three tests accept exactly their grammar** at the string `s`, as the value that is checked
    beside otherwise valid ones, and an accepted reference id keeps the URLs clean. -/
structure ExactGrammar (s : Str) : Prop where
  /-- A configuration that is sound with some system id is sound with exactly the ids of the grammar. -/
  systemId : ∀ (hwidMode : Str) (config : Config),
    (∃ id, validateConfig hwidMode { config with systemId := id } = .ok ()) →
    (validateConfig hwidMode { config with systemId := s } = .ok () ↔ IsSystemId s)
  /-- The reference ids are exactly those of the grammar. -/
  referenceId : validReferenceId s = true ↔ IsReferenceId s
  /-- One more name among accepted ones is accepted exactly if the grammar has it. -/
  slotName : ∀ before after, (∀ name ∈ before ++ after, matchesSlotName name = true) →
    ((∃ M, requestedMandatory (before ++ s :: after) = .ok M) ↔ IsSlotName s)
  /-- What is accepted goes into a URL as it stands. -/
  urls : validReferenceId s = true → UrlsClean s

/-- **The one kind of string that is wrongly accepted**: a word of a grammar with a newline behind it. -/
theorem exactGrammar_iff (s : Str) : ExactGrammar s ↔
    ∀ w, s = w ++ [newline] → ¬ IsSystemId w ∧ ¬ IsReferenceId w ∧ ¬ IsSlotName w := by
  -- each pattern is exact, but for the newline that its `$` lets through
  have hsystem : (Match systemIdPattern s ↔ IsSystemId s) ↔ ¬ ∃ w, IsSystemId w ∧ s = w ++ [newline] := by
    simp only [← words_systemId]
    exact match_iff_words_iff (newline_notMem_patterns _ (by simp))
  have hreference : (Match referenceIdPattern s ↔ IsReferenceId s) ↔
      ¬ ∃ w, IsReferenceId w ∧ s = w ++ [newline] := by
    simp only [← words_referenceId]
    exact match_iff_words_iff (newline_notMem_patterns _ (by simp))
  have hslot : (Match slotNamePattern s ↔ IsSlotName s) ↔ ¬ ∃ w, IsSlotName w ∧ s = w ++ [newline] := by
    simp only [← words_slotName]
    exact match_iff_words_iff (newline_notMem_patterns _ (by simp))
  constructor
  · -- left to right: the texts are taken as the code takes them, each in a call that is otherwise valid
    intro hexact w hs
    have hvalid : ∃ id, validateConfig (str "sl-hwid") { sampleConfig with systemId := id } = .ok () :=
      ⟨sampleConfig.systemId, by decide +kernel⟩
    have hname := hexact.slotName [] [] fun name hname => absurd hname List.not_mem_nil
    have hid := hexact.systemId _ _ hvalid
    rw [validateConfig_systemId hvalid, matchesSystemId_iff] at hid
    rw [requestedMandatory_name (fun name hname => absurd hname List.not_mem_nil),
      matchesSlotName_iff] at hname
    refine ⟨fun hw => ?_, fun hw => ?_, fun hw => ?_⟩
    · exact hsystem.mp hid ⟨w, hw, hs⟩
    · exact hreference.mp (validReferenceId_iff.symm.trans hexact.referenceId) ⟨w, hw, hs⟩
    · exact hslot.mp hname ⟨w, hw, hs⟩
  · -- right to left: without such a newline each of the three tests is its grammar
    intro hno
    have hreferenceId : validReferenceId s = true ↔ IsReferenceId s := by
      rw [validReferenceId_iff]
      exact hreference.mpr fun ⟨w, hw, hs⟩ => (hno w hs).2.1 hw
    refine ⟨fun hwidMode config hvalid => ?_, hreferenceId, fun before after hvalid => ?_,
      fun h => urls_of_referenceId (hreferenceId.mp h)⟩
    · rw [validateConfig_systemId hvalid, matchesSystemId_iff]
      exact hsystem.mpr fun ⟨w, hw, hs⟩ => (hno w hs).1 hw
    · rw [requestedMandatory_name hvalid, matchesSlotName_iff]
      exact hslot.mpr fun ⟨w, hw, hs⟩ => (hno w hs).2.2 hw

/-- **All three tests let a newline through**, and the reference id takes it into the URL. -/
theorem newline_not_exactGrammar :
    validateConfig (str "sl-hwid") { sampleConfig with systemId := str "ABCDEFGHIJKLMNOPQRST\n" } = .ok () ∧
    validReferenceId (str "abcd\n") = true ∧
    downloadUrl sampleConfig (str "abcd\n") = str "https://invisiblefolder.net/a/abcd\n" ∧
    (∃ M, requestedMandatory [str "tpm_ek\n"] = .ok M) ∧
    ∀ s ∈ [str "ABCDEFGHIJKLMNOPQRST\n", str "abcd\n", str "tpm_ek\n"], ¬ ExactGrammar s := by
  refine ⟨by decide +kernel, by decide +kernel, by decide +kernel,
    requestedMandatory_ok (by decide +kernel), ?_⟩
  have hreference : ∀ s ∈ [str "ABCDEFGHIJKLMNOPQRST\n", str "abcd\n", str "tpm_ek\n"],
      validReferenceId s = true ∧ ¬ s.all isReferenceChar = true := by decide +kernel
  intro s hs hexact
  obtain ⟨haccepted, hset⟩ := hreference s hs
  exact hset (List.all_eq_true.mpr (hexact.referenceId.mp haccepted).2.2)

end Bedrock.Protocol

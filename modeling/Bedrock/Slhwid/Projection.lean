/-
  From the reported signals to the slots: what normalization keeps, and what a projection tells of it.

  1. **What is kept** — every value that `normalize_factors` keeps is nonempty, free of NULs and
     short (`keptSignal_usable`), and everything behind it, the projection and the coordinates, then
     goes through (`deriveX_ok`).

  2. **The defect** — `is_sane_factor` measures a value with a strict `encode`, so ONE reported value
     with a lone surrogate makes the whole of `normalize_factors` raise (`degradesGracefully_iff`).

  3. **Groups** — a group's slot is the hash of its members' encoding.  One changed member changes
     the encoding whatever the values are (`groupBytes_inj`); that any number of changed members do,
     text moved from one to another included, rests on the NUL behind every value, which no value
     contains (`groupBytes_get_inj`).

  4. **Local and lossless** — a slot is computed from its own members (`slot_local`) and tells them
     apart (`slot_lossless`).
-/
import Bedrock.Lib.Delimited
import Bedrock.Slhwid.Normalize

open Lib.Fallible Lib.Delimited Bedrock.Python

namespace Bedrock.Slhwid

/-! ## What is kept -/

/-- A value that every later stage can take. -/
structure Usable (value : Str) : Prop where
  /-- An empty value is no value. -/
  ne_nil : value ≠ []
  /-- No NUL .. -/
  nul_free : ∀ c ∈ value, c.val ≠ 0
  /-- .. and at most 4096 bytes of UTF-8. -/
  short : ∃ b, encodeUtf8 value = .ok b ∧ b.length ≤ 4096

theorem Usable.encode {value : Str} (h : Usable value) : CanEncode value := by
  obtain ⟨b, hb, _⟩ := h.short
  exact encodeUtf8_eq_ok hb

/-- Stripping adds no character. -/
theorem mem_of_mem_strip {s : Str} {c : CodePoint} (h : c ∈ strip s) : c ∈ s := by
  rw [strip, List.mem_reverse] at h
  have hback := (List.dropWhile_sublist isSpace).subset h
  rw [List.mem_reverse] at hback
  exact (List.dropWhile_sublist isSpace).subset hback

/-- **Normalizing removes every NUL.** -/
theorem normalize_nul_free (name raw : Str) : ∀ c ∈ normalize name raw, c.val ≠ 0 := by
  have hvalue : ∀ c ∈ foldAscii (strip (raw.filter fun c => c.val ≠ 0)), c.val ≠ 0 := by
    intro c hc
    obtain ⟨d, hd, rfl⟩ := List.mem_map.mp hc
    have hd0 := of_decide_eq_true (List.mem_filter.mp (mem_of_mem_strip hd)).2
    split
    · rename_i hup
      have hval : (Fin.ofNat 0x110000 (d.val + 32)).val = d.val + 32 := Nat.mod_eq_of_lt (by omega)
      omega
    · exact hd0
  intro c hc
  unfold normalize at hc
  dsimp only at hc
  split at hc
  · have hdash := (List.mem_filter.mp hc).1
    exact hvalue c (List.mem_filter.mp hdash).1
  · exact hvalue c hc

/-- A sane value is not empty and at most 4096 bytes. -/
theorem isSaneFactor_eq_true {name value : Str} (h : isSaneFactor name value = .ok true) :
    value ≠ [] ∧ ∃ b, encodeUtf8 value = .ok b ∧ b.length ≤ 4096 := by
  by_cases hnil : value = []
  · rw [isSaneFactor, if_pos hnil] at h
    cases h
  rw [isSaneFactor, if_neg hnil] at h
  obtain ⟨b, hb, h⟩ := bind_eq_ok.mp h
  by_cases hbad : b.length > 4096 ∨ isMissing value
  · rw [if_pos hbad] at h
    cases h
  · exact ⟨hnil, b, hb, not_lt.mp fun hlong => hbad (Or.inl hlong)⟩

/-- A signal that is kept is usable. -/
theorem keptSignal_usable {name raw v : Str} (h : keptSignal name raw = some v) : Usable v := by
  unfold keptSignal at h
  split at h
  · rename_i hsane
    obtain rfl := Option.some.inj h
    obtain ⟨hne, hshort⟩ := isSaneFactor_eq_true hsane
    exact ⟨hne, normalize_nul_free name raw, hshort⟩
  · cases h

theorem normalizeFactors_usable {raw nf : Dict Str} (h : normalizeFactors raw = .ok nf) {n v : Str}
    (hv : nf.lookup n = some v) : Usable v := by
  rw [normalizeFactors_lookup h] at hv
  obtain ⟨_, _, hkept⟩ := Option.bind_eq_some_iff.mp hv
  exact keptSignal_usable hkept

section Hashing

variable [Sha256]

/-! ## Groups -/

/-- What `_group_value` hashes. -/
def groupBytes (name : Str) (members : List Str) (raw : Dict Str) : Except Exc Bytes := do
  let nameBytes ← encodeAscii name
  members.foldlM (groupMember raw) (bytesOf "SL-HWID-GROUP2" ++ [0] ++ nameBytes ++ [0])

theorem groupValue_eq (name : Str) (members : List Str) (raw : Dict Str) :
    groupValue name members raw = (groupBytes name members raw >>= fun encoded =>
      pure (if members.any fun member => raw.get member ≠ [] then hexStr (sha256 encoded) else [])) :=
  (bind_assoc ..).symm

omit [Sha256] in
/-- The members add bytes at the end. -/
theorem foldlM_groupMember (raw : Dict Str) : ∀ (members : List Str) (b : Bytes),
    members.foldlM (groupMember raw) b =
      (members.foldlM (groupMember raw) [] >>= fun e => pure (b ++ e)) := by
  intro members
  -- over the members; what was written before them stays in front
  induction members with
  | nil =>
    intro b
    show Except.ok b = Except.ok (b ++ [])
    rw [List.append_nil]
  | cons m rest ih =>
    intro b
    rw [List.foldlM_cons, List.foldlM_cons, groupMember, groupMember]
    cases encodeAscii m with
    | error e => rfl
    | ok name =>
      cases encodeUtf8 (raw.get m) with
      | error e => rfl
      | ok value =>
        show rest.foldlM (groupMember raw) (b ++ name ++ [0] ++ value ++ [0]) =
          (rest.foldlM (groupMember raw) ([] ++ name ++ [0] ++ value ++ [0]) >>= fun e => pure (b ++ e))
        rw [ih, ih ([] ++ name ++ [0] ++ value ++ [0])]
        cases rest.foldlM (groupMember raw) [] with
        | error e => rfl
        | ok tail =>
          show Except.ok _ = Except.ok _
          simp only [List.append_assoc, List.nil_append]

omit [Sha256] in
/-- **One member is determined by the encoding and the other members.** -/
theorem foldlM_groupMember_inj {raw raw' : Dict Str} {m : Str} : ∀ {members : List Str},
    m ∈ members → members.Nodup → (∀ n ∈ members, n ≠ m → raw'.get n = raw.get n) → ∀ {b e : Bytes},
    members.foldlM (groupMember raw) b = .ok e → members.foldlM (groupMember raw') b = .ok e →
    raw'.get m = raw.get m := by
  intro members
  induction members with
  | nil => intro hm; exact absurd hm List.not_mem_nil
  | cons a rest ih =>
    intro hm hnd hsame b e h h'
    obtain ⟨hfirst, hrest⟩ := List.nodup_cons.mp hnd
    rw [List.foldlM_cons] at h h'
    by_cases ha : a = m
    · -- the bytes behind this member are the same
      subst ha
      have hne : ∀ n ∈ rest, n ≠ a := fun n hn heq => hfirst (heq ▸ hn)
      obtain ⟨b₁, hstep, h⟩ := bind_eq_ok.mp h
      obtain ⟨b₂, hstep', h'⟩ := bind_eq_ok.mp h'
      rw [foldlM_groupMember_congr fun n hn => hsame n (List.mem_cons_of_mem a hn) (hne n hn)] at h'
      rw [foldlM_groupMember] at h h'
      obtain ⟨tail, htail, h⟩ := bind_eq_ok.mp h
      obtain ⟨tail', htail', h'⟩ := bind_eq_ok.mp h'
      obtain rfl := Except.ok.inj (htail.symm.trans htail')
      have hbytes : b₂ = b₁ := List.append_cancel_right
        ((Except.ok.inj h').trans (Except.ok.inj h).symm)
      subst hbytes
      obtain ⟨name, hname, hstep⟩ := bind_eq_ok.mp hstep
      obtain ⟨value, hvalue, hstep⟩ := bind_eq_ok.mp hstep
      obtain ⟨name', hname', hstep'⟩ := bind_eq_ok.mp hstep'
      obtain ⟨value', hvalue', hstep'⟩ := bind_eq_ok.mp hstep'
      obtain rfl := Except.ok.inj (hname.symm.trans hname')
      have heq := (Except.ok.inj hstep').trans (Except.ok.inj hstep).symm
      obtain rfl : value' = value :=
        List.append_cancel_left (List.append_cancel_right heq)
      exact encodeUtf8_inj hvalue' hvalue
    · have hsame_a := hsame a List.mem_cons_self ha
      obtain ⟨b₁, hstep, h⟩ := bind_eq_ok.mp h
      obtain ⟨b₂, hstep', h'⟩ := bind_eq_ok.mp h'
      rw [groupMember, hsame_a, ← groupMember] at hstep'
      obtain rfl := Except.ok.inj (hstep.symm.trans hstep')
      exact ih ((List.mem_cons.mp hm).resolve_left fun heq => ha heq.symm) hrest
        (fun n hn hne => hsame n (List.mem_cons_of_mem a hn) hne) h h'

omit [Sha256] in
/-- **The encoding of a group tells one changed member**: if the others are the same, so is it. -/
theorem groupBytes_inj {raw raw' : Dict Str} {name m : Str} {members : List Str} (hm : m ∈ members)
    (hnd : members.Nodup) (hsame : ∀ n ∈ members, n ≠ m → raw'.get n = raw.get n) {e : Bytes}
    (h : groupBytes name members raw = .ok e) (h' : groupBytes name members raw' = .ok e) :
    raw'.get m = raw.get m := by
  obtain ⟨nameBytes, hname, h⟩ := bind_eq_ok.mp h
  obtain ⟨nameBytes', hname', h'⟩ := bind_eq_ok.mp h'
  obtain rfl := Except.ok.inj (hname.symm.trans hname')
  exact foldlM_groupMember_inj hm hnd hsame h h'

/-! ## Slots and their signals -/

omit [Sha256] in
/-- A member of a group is sent to the group's slot. -/
theorem slot_of_member {g : Str × List Str} (hg : g ∈ currentFactorGroups) {m : Str} (hm : m ∈ g.2) :
    currentMandatoryName m = g.1 := by
  have htable : ∀ g ∈ currentFactorGroups, ∀ m ∈ g.2, currentMandatoryName m = g.1 := by decide +kernel
  exact htable g hg m hm

omit [Sha256] in
theorem slot_of_direct {n : Str} (hn : n ∈ currentDirectFactorNames) : currentMandatoryName n = n :=
  currentMandatoryName_of_current (List.mem_append_left _ hn)

omit [Sha256] in
/-- The encoding of a group depends on its members. -/
theorem groupBytes_congr {raw raw' : Dict Str} {name : Str} {members : List Str}
    (h : ∀ m ∈ members, raw'.get m = raw.get m) :
    groupBytes name members raw' = groupBytes name members raw := by
  unfold groupBytes
  simp only [foldlM_groupMember_congr h]

/-- A name is a direct slot, a group's slot, or none. -/
theorem slot_cases {raw F : Dict Str} (hF : projectFactors raw currentNormVersion = .ok F) (n : Str) :
    n ∈ currentDirectFactorNames ∨ (∃ g ∈ currentFactorGroups, g.1 = n) ∨ F.get n = [] := by
  by_cases hn : F.get n = []
  · exact Or.inr (Or.inr hn)
  · rcases List.mem_append.mp (projectFactors_spec hF n (Dict.mem_of_get_ne_nil hn)).1 with hd | hg
    · exact Or.inl hd
    · exact Or.inr (Or.inl (List.mem_map.mp hg))

/-- The slots can be encoded if the signals can: a hash is hexadecimal text. -/
theorem projectFactors_encode {raw F : Dict Str} (h : ValuesEncode raw)
    (hF : projectFactors raw currentNormVersion = .ok F) : ValuesEncode F := by
  intro n
  obtain ⟨hdirect, hgroup⟩ := projectFactors_get hF
  rcases slot_cases hF n with hn | ⟨g, hg, rfl⟩ | hn
  · rw [hdirect n hn]
    exact h n
  · have hvalue := hgroup g hg
    rw [groupValue_eq] at hvalue
    obtain ⟨e, _, hvalue⟩ := bind_eq_ok.mp hvalue
    rw [← Except.ok.inj hvalue]
    split
    · exact canEncode_hexStr _
    · exact fun c hc => absurd hc List.not_mem_nil
  · rw [hn]
    exact fun c hc => absurd hc List.not_mem_nil

/-! ## Local and lossless -/

omit [Sha256] in
/-- The UTF-8 form of a code point other than NUL has no zero byte. -/
theorem utf8Char_no_zero {c : CodePoint} {b : Bytes} (h : utf8Char c = some b) (hc : c.val ≠ 0) :
    (0 : UInt8) ∉ b := by
  have hbyte : ∀ n, 0 < n → n < 256 → (0 : UInt8) ≠ UInt8.ofNat n := fun n hpos hn heq => by
    have hval := congrArg UInt8.toNat heq
    rw [UInt8.toNat_ofNat', Nat.mod_eq_of_lt (by omega)] at hval
    exact absurd hval.symm (by simpa using by omega)
  have hlt := c.isLt
  unfold utf8Char at h
  split_ifs at h with h₁ h₂ h₃ h₄
  all_goals
    obtain rfl := Option.some.inj h
    simp only [List.mem_cons, List.not_mem_nil, or_false, not_or]
  · exact hbyte _ (by omega) (by omega)
  · exact ⟨hbyte _ (by omega) (by omega), hbyte _ (by omega) (by omega)⟩
  · exact ⟨hbyte _ (by omega) (by omega), hbyte _ (by omega) (by omega), hbyte _ (by omega) (by omega)⟩
  · exact ⟨hbyte _ (by omega) (by omega), hbyte _ (by omega) (by omega), hbyte _ (by omega) (by omega),
      hbyte _ (by omega) (by omega)⟩

omit [Sha256] in
/-- **Text without NULs is encoded without zero bytes.** -/
theorem encodeUtf8_no_zero : ∀ {s : Str} {b : Bytes}, encodeUtf8 s = .ok b → (∀ c ∈ s, c.val ≠ 0) →
    (0 : UInt8) ∉ b := by
  intro s
  induction s with
  | nil =>
    intro b h _
    obtain rfl := Except.ok.inj h
    exact List.not_mem_nil
  | cons c s ih =>
    intro b h hs
    rw [encodeUtf8] at h
    cases hc : utf8Char c with
    | none =>
      rw [hc] at h
      cases h
    | some first =>
      rw [hc] at h
      obtain ⟨tail, htail, h⟩ := bind_eq_ok.mp h
      obtain rfl := Except.ok.inj h
      rw [List.mem_append, not_or]
      exact ⟨utf8Char_no_zero hc (hs c List.mem_cons_self),
        ih htail fun c' hc' => hs c' (List.mem_cons_of_mem c hc')⟩

/-- No value of the dictionary has a NUL. -/
def NulFree (d : Dict Str) : Prop := ∀ n, ∀ c ∈ d.get n, c.val ≠ 0

omit [Sha256] in
/-- Normalized signals have no NULs, which end names and values in the encoding. -/
theorem normalizeFactors_nulFree {raw nf : Dict Str} (h : normalizeFactors raw = .ok nf) : NulFree nf := by
  intro n c hc
  rw [Dict.get] at hc
  cases hv : nf.lookup n with
  | none =>
    rw [hv] at hc
    exact absurd hc List.not_mem_nil
  | some v =>
    rw [hv] at hc
    exact (normalizeFactors_usable h hv).nul_free c hc

omit [Sha256] in
/-- **The members are determined by the encoding**: the NUL behind each value says where it ends. -/
theorem foldlM_groupMember_get_inj {raw raw' : Dict Str} (hraw : NulFree raw) (hraw' : NulFree raw') :
    ∀ {members : List Str} {b e : Bytes}, members.foldlM (groupMember raw) b = .ok e →
    members.foldlM (groupMember raw') b = .ok e → ∀ m ∈ members, raw'.get m = raw.get m := by
  intro members
  induction members with
  | nil => intro b e _ _ m hm; exact absurd hm List.not_mem_nil
  | cons a rest ih =>
    intro b e h h'
    rw [List.foldlM_cons] at h h'
    obtain ⟨b₁, hstep, h⟩ := bind_eq_ok.mp h
    obtain ⟨b₂, hstep', h'⟩ := bind_eq_ok.mp h'
    obtain ⟨name, hname, hstep⟩ := bind_eq_ok.mp hstep
    obtain ⟨value, hvalue, hstep⟩ := bind_eq_ok.mp hstep
    obtain ⟨name', hname', hstep'⟩ := bind_eq_ok.mp hstep'
    obtain ⟨value', hvalue', hstep'⟩ := bind_eq_ok.mp hstep'
    obtain rfl := Except.ok.inj (hname.symm.trans hname')
    obtain rfl := Except.ok.inj hstep
    obtain rfl := Except.ok.inj hstep'
    -- the first member separates the two texts: its value ends at the next zero byte
    rw [foldlM_groupMember] at h h'
    obtain ⟨tail, htail, h⟩ := bind_eq_ok.mp h
    obtain ⟨tail', htail', h'⟩ := bind_eq_ok.mp h'
    have hbytes : b ++ name ++ [0] ++ (value' ++ 0 :: tail') = b ++ name ++ [0] ++ (value ++ 0 :: tail) := by
      have hsum := (Except.ok.inj h').trans (Except.ok.inj h).symm
      simpa only [List.append_assoc, List.cons_append, List.nil_append] using hsum
    -- no value has a zero in it, so both cuts are at the same place
    obtain ⟨rfl, rfl⟩ := append_cons_inj (encodeUtf8_no_zero hvalue' (hraw' a))
      (encodeUtf8_no_zero hvalue (hraw a)) (List.append_cancel_left hbytes)
    intro m hm
    rcases List.mem_cons.mp hm with rfl | hm
    · exact encodeUtf8_inj hvalue' hvalue
    · exact ih htail htail' m hm

omit [Sha256] in
/-- **The encoding of a group tells all of its members**, if no value has a NUL. -/
theorem groupBytes_get_inj {raw raw' : Dict Str} (hraw : NulFree raw) (hraw' : NulFree raw')
    {name : Str} {members : List Str} {e : Bytes} (h : groupBytes name members raw = .ok e)
    (h' : groupBytes name members raw' = .ok e) : ∀ m ∈ members, raw'.get m = raw.get m := by
  obtain ⟨nameBytes, hname, h⟩ := bind_eq_ok.mp h
  obtain ⟨nameBytes', hname', h'⟩ := bind_eq_ok.mp h'
  obtain rfl := Except.ok.inj (hname.symm.trans hname')
  exact foldlM_groupMember_get_inj hraw hraw' h h'

/-- The signals that a v2 slot is computed from. -/
def slotMembers (slot : Str) : List Str :=
  if slot ∈ currentDirectFactorNames then [slot] else (currentFactorGroups.lookup slot).getD []

/-- The keys at which two dictionaries differ. -/
def changedKeys (d d' : Dict Str) : Finset Str :=
  (d.keys ++ d'.keys).toFinset.filter fun n => d.lookup n ≠ d'.lookup n

omit [Sha256] in
/-- A changed key is one with another value, or with one on one side only. -/
@[simp] theorem mem_changedKeys {d d' : Dict Str} {n : Str} :
    n ∈ changedKeys d d' ↔ d.lookup n ≠ d'.lookup n := by
  rw [changedKeys, Finset.mem_filter, List.mem_toFinset, List.mem_append]
  refine and_iff_right_of_imp fun hne => ?_
  by_contra hno
  rw [not_or] at hno
  rw [AList.lookup_eq_none.mpr hno.1, AList.lookup_eq_none.mpr hno.2] at hne
  exact hne rfl

omit [Sha256] in
/-- Where no value is empty, `get` tells absence from every value. -/
theorem lookup_eq_iff_get_eq {d d' : Dict Str} (hd : ∀ n ∈ d, d.get n ≠ []) (hd' : ∀ n ∈ d', d'.get n ≠ [])
    (n : Str) : d.lookup n = d'.lookup n ↔ d.get n = d'.get n := by
  have hsome : ∀ {d : Dict Str}, (∀ n ∈ d, d.get n ≠ []) → ∀ {v}, d.lookup n = some v → v ≠ [] := by
    intro d hd v hv hnil
    refine hd n (AList.lookup_isSome.mp (by rw [hv]; rfl)) ?_
    rw [Dict.get, hv]
    exact hnil
  rw [Dict.get, Dict.get]
  cases h : d.lookup n with
  | none =>
    cases h' : d'.lookup n with
    | none => exact ⟨fun _ => rfl, fun _ => rfl⟩
    | some v' =>
      constructor
      · intro heq; cases heq
      · intro heq; exact absurd heq.symm (hsome hd' h')
  | some v =>
    cases h' : d'.lookup n with
    | none =>
      constructor
      · intro heq; cases heq
      · intro heq; exact absurd heq (hsome hd h)
    | some v' => exact ⟨fun heq => Option.some.inj heq, fun heq => congrArg some heq⟩

omit [Sha256] in
/-- The members of a direct slot, and of a group. -/
theorem slotMembers_direct {n : Str} (h : n ∈ currentDirectFactorNames) : slotMembers n = [n] := if_pos h

omit [Sha256] in
theorem slotMembers_group {g : Str × List Str} (hg : g ∈ currentFactorGroups) : slotMembers g.1 = g.2 := by
  have htable : ∀ g ∈ currentFactorGroups, slotMembers g.1 = g.2 := by decide +kernel
  exact htable g hg

omit [Sha256] in
/-- A slot with members is a direct slot or a group. -/
theorem slotMembers_cases {slot m : Str} (h : m ∈ slotMembers slot) :
    (slot ∈ currentDirectFactorNames ∧ m = slot) ∨
    ∃ g ∈ currentFactorGroups, g.1 = slot ∧ m ∈ g.2 := by
  unfold slotMembers at h
  split at h
  · rename_i hd
    exact Or.inl ⟨hd, List.mem_singleton.mp h⟩
  · cases hl : currentFactorGroups.lookup slot with
    | none =>
      rw [hl] at h
      exact absurd h List.not_mem_nil
    | some members =>
      rw [hl] at h
      obtain ⟨before, after, hgroups, _⟩ := List.lookup_eq_some_iff.mp hl
      refine Or.inr ⟨(slot, members), ?_, rfl, h⟩
      rw [hgroups]
      exact List.mem_append_right _ List.mem_cons_self

omit [Sha256] in
/-- The slot of a member is that of the hard-lock table. -/
theorem slot_of_mem_slotMembers {slot m : Str} (h : m ∈ slotMembers slot) :
    currentMandatoryName m = slot := by
  rcases slotMembers_cases h with ⟨hd, rfl⟩ | ⟨g, hg, rfl, hm⟩
  · exact slot_of_direct hd
  · exact slot_of_member hg hm

/-- **A slot depends on no signal outside its own member list.** -/
theorem slot_local {raw raw' A A' : Dict Str} (hA : projectFactors raw currentNormVersion = .ok A)
    (hA' : projectFactors raw' currentNormVersion = .ok A') {slot : Str}
    (hsame : ∀ m ∈ slotMembers slot, raw'.get m = raw.get m) : A'.get slot = A.get slot := by
  obtain ⟨hdirect, hgroup⟩ := projectFactors_get hA
  obtain ⟨hdirect', hgroup'⟩ := projectFactors_get hA'
  have hname : slot ∈ currentDirectFactorNames → A'.get slot = A.get slot := fun hd => by
    rw [hdirect slot hd, hdirect' slot hd]
    apply hsame
    rw [slotMembers_direct hd]
    exact List.mem_cons_self
  have hmembers : (∃ g ∈ currentFactorGroups, g.1 = slot) → A'.get slot = A.get slot := by
    rintro ⟨g, hg, rfl⟩
    rw [slotMembers_group hg] at hsame
    have hvalue : groupValue g.1 g.2 raw' = groupValue g.1 g.2 raw := groupValue_congr hsame
    rw [hgroup g hg, hgroup' g hg] at hvalue
    exact Except.ok.inj hvalue
  rcases slot_cases hA slot with hd | hg | hnone
  · exact hname hd
  · exact hmembers hg
  rcases slot_cases hA' slot with hd | hg | hnone'
  · exact hname hd
  · exact hmembers hg
  · rw [hnone, hnone']

/-- "SHA-256 does not collide on the group encodings" of the two maps. -/
def NoGroupCollision (raw raw' : Dict Str) : Prop :=
  ∀ g ∈ currentFactorGroups, ∀ e e', groupBytes g.1 g.2 raw = .ok e → groupBytes g.1 g.2 raw' = .ok e' →
    sha256 e = sha256 e' → e = e'

/-- A digest is never written as the empty string. -/
theorem hexStr_sha256_ne_nil (e : Bytes) : hexStr (sha256 e) ≠ [] := by
  intro hnil
  have hlen := length_sha256 e
  rw [hexStr_inj (hnil.trans (show [] = hexStr [] from rfl))] at hlen
  exact absurd hlen (by decide)

/-- **A slot tells its members apart**, absent ones included. -/
theorem slot_lossless {raw raw' A A' : Dict Str} (hraw : NulFree raw) (hraw' : NulFree raw')
    (hhash : NoGroupCollision raw raw') (hA : projectFactors raw currentNormVersion = .ok A)
    (hA' : projectFactors raw' currentNormVersion = .ok A') {slot : Str} (heq : A'.get slot = A.get slot) :
    ∀ m ∈ slotMembers slot, raw'.get m = raw.get m := by
  obtain ⟨hdirect, hgroup⟩ := projectFactors_get hA
  obtain ⟨hdirect', hgroup'⟩ := projectFactors_get hA'
  intro m hm
  rcases slotMembers_cases hm with ⟨hd, rfl⟩ | ⟨g, hg, rfl, hmember⟩
  · rw [← hdirect m hd, ← hdirect' m hd]
    exact heq
  have hvalue := hgroup g hg
  have hvalue' := hgroup' g hg
  rw [groupValue_eq] at hvalue hvalue'
  obtain ⟨e, he, hvalue⟩ := bind_eq_ok.mp hvalue
  obtain ⟨e', he', hvalue'⟩ := bind_eq_ok.mp hvalue'
  have hval := Except.ok.inj hvalue
  have hval' := Except.ok.inj hvalue'
  -- the value of a group without members is empty, and no digest is
  have habsent : ∀ {raw : Dict Str}, ¬ (g.2.any fun member => raw.get member ≠ []) = true →
      raw.get m = [] := fun {raw} hno => by
    by_contra hne
    exact hno (List.any_eq_true.mpr ⟨m, hmember, decide_eq_true hne⟩)
  by_cases hsome : (g.2.any fun member => raw.get member ≠ []) = true
  · by_cases hsome' : (g.2.any fun member => raw'.get member ≠ []) = true
    · rw [if_pos hsome] at hval
      rw [if_pos hsome'] at hval'
      have hdigest : sha256 e = sha256 e' := hexStr_inj (hval.trans (heq.symm.trans hval'.symm))
      obtain rfl := hhash g hg e e' he he' hdigest
      exact groupBytes_get_inj hraw hraw' he he' m hmember
    · rw [if_pos hsome] at hval
      rw [if_neg hsome'] at hval'
      exact absurd (hval.trans (heq.symm.trans hval'.symm)) (hexStr_sha256_ne_nil e)
  · by_cases hsome' : (g.2.any fun member => raw'.get member ≠ []) = true
    · rw [if_neg hsome] at hval
      rw [if_pos hsome'] at hval'
      exact absurd (hval'.trans (heq.trans hval.symm)) (hexStr_sha256_ne_nil e')
    · rw [habsent hsome, habsent hsome']

/-- **Projection is local and lossless**, for any two maps whose values can be encoded: not more slots
    change than signals did, a slot changes only if one of its members did, and it does change then. -/
theorem projection_local_lossless {R R' : Dict Str} (hR : ∀ item ∈ R.entries, CanEncode item.2)
    (hR' : ∀ item ∈ R'.entries, CanEncode item.2) :
    ∃ nf nf' A A', normalizeFactors R = .ok nf ∧ normalizeFactors R' = .ok nf' ∧
      projectFactors nf currentNormVersion = .ok A ∧ projectFactors nf' currentNormVersion = .ok A' ∧
      (changedKeys A A').card ≤ (changedKeys nf nf').card ∧
      (∀ slot, (∀ m ∈ slotMembers slot, nf.lookup m = nf'.lookup m) → A.lookup slot = A'.lookup slot) ∧
      (NoGroupCollision nf nf' → ∀ slot, ∀ m ∈ slotMembers slot, nf.lookup m ≠ nf'.lookup m →
        A.lookup slot ≠ A'.lookup slot) := by
  obtain ⟨nf, hnf⟩ := normalizeFactors_ok hR
  obtain ⟨nf', hnf'⟩ := normalizeFactors_ok hR'
  obtain ⟨A, hA⟩ := projectFactors_ok (normalizeFactors_encode hnf).2 (Or.inr rfl)
  obtain ⟨A', hA'⟩ := projectFactors_ok (normalizeFactors_encode hnf').2 (Or.inr rfl)
  have hsignals : ∀ n, nf.lookup n = nf'.lookup n ↔ nf.get n = nf'.get n := lookup_eq_iff_get_eq
    (fun _ hn => normalizeFactors_ne_nil hnf hn) fun _ hn => normalizeFactors_ne_nil hnf' hn
  have hslots : ∀ n, A.lookup n = A'.lookup n ↔ A.get n = A'.get n := lookup_eq_iff_get_eq
    (fun n hn => (projectFactors_spec hA n hn).2) fun n hn => (projectFactors_spec hA' n hn).2
  have hlocal : ∀ slot, (∀ m ∈ slotMembers slot, nf.lookup m = nf'.lookup m) →
      A.lookup slot = A'.lookup slot := by
    intro slot hsame
    rw [hslots]
    exact (slot_local hA hA' fun m hm => ((hsignals m).mp (hsame m hm)).symm).symm
  refine ⟨nf, nf', A, A', hnf, hnf', hA, hA', ?_, hlocal, ?_⟩
  · -- a changed slot is the slot of a changed signal
    have hsub : changedKeys A A' ⊆ (changedKeys nf nf').image currentMandatoryName := by
      intro slot hslot
      rw [mem_changedKeys] at hslot
      by_contra hno
      refine hslot (hlocal slot fun m hm => ?_)
      by_contra hne
      exact hno (Finset.mem_image.mpr ⟨m, mem_changedKeys.mpr hne, slot_of_mem_slotMembers hm⟩)
    exact (Finset.card_le_card hsub).trans Finset.card_image_le
  · intro hhash slot m hm hne heq
    rw [hslots] at heq
    refine hne ((hsignals m).mpr ?_)
    exact (slot_lossless (normalizeFactors_nulFree hnf) (normalizeFactors_nulFree hnf') hhash hA hA'
      heq.symm m hm).symm

end Hashing

/-- A machine that reports the two serial numbers of its case. -/
def caseSignals (systemSerial chassisSerial : String) : Dict Str :=
  ((∅ : Dict Str).insert (str "system_serial") (str systemSerial)).insert (str "chassis_serial")
    (str chassisSerial)

/-- A character moved from one serial number to the other is another platform. -/
theorem projection_local_lossless_sample : ∃ nf nf' A A',
    normalizeFactors (caseSignals "PF2X7K9A" "CN041") = .ok nf ∧
    normalizeFactors (caseSignals "PF2X7K9" "ACN041") = .ok nf' ∧
    @projectFactors sampleHash nf currentNormVersion = .ok A ∧
    @projectFactors sampleHash nf' currentNormVersion = .ok A' ∧
    A.lookup (str "platform_identity") ≠ A'.lookup (str "platform_identity") := by
  let _ := sampleHash
  -- one evaluation: the serials differ, and no group of the two machines collides
  have hrun : checks (fun nf _ => checks (fun nf' _ =>
      decide (nf.lookup (str "system_serial") ≠ nf'.lookup (str "system_serial")) &&
      currentFactorGroups.all fun g => checks (fun e _ => checks (fun e' _ =>
          decide (sha256 e = sha256 e' → e = e'))
        (lift (groupBytes g.1 g.2 nf') ())) (lift (groupBytes g.1 g.2 nf) ()))
      (lift (normalizeFactors (caseSignals "PF2X7K9" "ACN041")) ()))
      (lift (normalizeFactors (caseSignals "PF2X7K9A" "CN041")) ()) = true := by decide +kernel
  obtain ⟨nf, _, hnf, hrun⟩ := exists_of_checks hrun
  obtain ⟨nf', _, hnf', hrun⟩ := exists_of_checks hrun
  obtain ⟨hne, hgroups⟩ := Bool.and_eq_true_iff.mp hrun
  have hnf := (lift_eq_ok.mp hnf).1
  have hnf' := (lift_eq_ok.mp hnf').1
  have hhash : NoGroupCollision nf nf' := by
    intro g hg e e' he he' hdigest
    obtain ⟨e₁, _, he₁, hcheck⟩ := exists_of_checks (List.all_eq_true.mp hgroups g hg)
    obtain ⟨e₂, _, he₂, hcheck⟩ := exists_of_checks hcheck
    obtain rfl := Except.ok.inj ((lift_eq_ok.mp he₁).1.symm.trans he)
    obtain rfl := Except.ok.inj ((lift_eq_ok.mp he₂).1.symm.trans he')
    exact of_decide_eq_true hcheck hdigest
  obtain ⟨nf₁, nf₂, A, A', h₁, h₂, hA, hA', _, _, hloss⟩ :=
    projection_local_lossless (normalizeFactors_encode hnf).1 (normalizeFactors_encode hnf').1
  obtain rfl := Except.ok.inj (h₁.symm.trans hnf)
  obtain rfl := Except.ok.inj (h₂.symm.trans hnf')
  exact ⟨nf₁, nf₂, A, A', h₁, h₂, hA, hA',
    hloss hhash _ (str "system_serial") (by decide +kernel) (of_decide_eq_true hne)⟩

section Hashing

variable [Sha256]

/-! ## Coordinates -/

/-- Another value that can be encoded has a coordinate too. -/
theorem deriveX_value {slot value value' : Str} {salt x : Nat} (h : deriveX slot value salt = .ok x)
    (hvalue : CanEncode value') : ∃ x', deriveX slot value' salt = .ok x' := by
  obtain ⟨head, hhead, h⟩ := bind_eq_ok.mp h
  obtain ⟨slotBytes, hslot, _⟩ := bind_eq_ok.mp h
  obtain ⟨valueBytes, hbytes⟩ := encodeUtf8_ok hvalue
  rw [deriveX, hhead, ok_bind, hslot, ok_bind, hbytes, ok_bind]
  exact ⟨_, rfl⟩

/-- A salt byte, an ASCII slot and a value that can be encoded have a coordinate. -/
theorem deriveX_ok {slot value : Str} {salt : Nat} (hsalt : salt < 256) (hslot : isAscii slot = true)
    (hvalue : CanEncode value) : ∃ x, deriveX slot value salt = .ok x := by
  obtain ⟨b, hb⟩ := encodeUtf8_ok hvalue
  have hhead : [0, salt, 0].mapM byte = .ok ([0, salt, 0].map UInt8.ofNat) :=
    mapM_ok fun n hn => byte_ok (by
      rcases List.mem_cons.mp hn with rfl | hn
      · omega
      rcases List.mem_cons.mp hn with rfl | hn
      · exact hsalt
      · rw [List.mem_singleton.mp hn]; omega)
  rw [deriveX, hhead, ok_bind, encodeAscii_ok hslot, ok_bind, hb, ok_bind]
  exact ⟨_, rfl⟩

/-! ## One bad signal -/

/-- **No signal takes the identifier down**: the whole map is normalized, each signal by itself, to
    usable values, and both projections and every coordinate of theirs go through. -/
def DegradesGracefully (raw : Dict Str) : Prop :=
  ∃ nf, normalizeFactors raw = .ok nf ∧
    (∀ n, nf.lookup n = (raw.lookup n).bind (keptSignal n)) ∧
    (∀ n v, nf.lookup n = some v → Usable v) ∧
    ∀ v ∈ [legacyNormVersion, currentNormVersion], ∃ F, projectFactors nf v = .ok F ∧
      ∀ n ∈ F, ∀ salt < 256, ∃ x, deriveX n (F.get n) salt = .ok x

/-- Both projections of encodable values have encodable values. -/
theorem projectFactors_values_encode {raw F : Dict Str} {v : Nat} (h : ValuesEncode raw)
    (hF : projectFactors raw v = .ok F) : ValuesEncode F := by
  by_cases hv : v = legacyNormVersion
  · rw [projectFactors, if_pos hv] at hF
    obtain rfl := Except.ok.inj hF
    intro n
    rw [get_pick]
    split
    · exact h n
    · exact fun c hc => absurd hc List.not_mem_nil
  · have hcur : v = currentNormVersion := by
      by_contra hne
      rw [projectFactors, if_neg hv, raiseIf_pos hne] at hF
      cases hF
    subst hcur
    exact projectFactors_encode h hF

/-- **One bad signal**: the identifier survives exactly the maps whose values can all be encoded. -/
theorem degradesGracefully_iff (raw : Dict Str) :
    DegradesGracefully raw ↔ ∀ item ∈ raw.entries, CanEncode item.2 := by
  constructor
  · rintro ⟨nf, hnf, _⟩
    exact (normalizeFactors_encode hnf).1
  · intro h
    obtain ⟨nf, hnf⟩ := normalizeFactors_ok h
    have hencode := (normalizeFactors_encode hnf).2
    refine ⟨nf, hnf, normalizeFactors_lookup hnf, fun n v hv => normalizeFactors_usable hnf hv, ?_⟩
    intro v hv
    have hschema : v = legacyNormVersion ∨ v = currentNormVersion := by simpa using hv
    obtain ⟨F, hF⟩ := projectFactors_ok hencode hschema
    refine ⟨F, hF, fun n hn salt hsalt => ?_⟩
    exact deriveX_ok hsalt (allowedNames_ascii (projectFactors_spec hF n hn).1)
      (projectFactors_values_encode hencode hF n)

end Hashing

/-- A machine whose host name has a byte that is not UTF-8: `os.uname` reports it as a surrogate. -/
def badHostSignals : Dict Str :=
  ((∅ : Dict Str).insert (str "machine_guid") (str "4f5a2c1e-77b0-4d52-8c1a-3e9d0b6f7a11")).insert
    (str "computer_name") (str "host" ++ [0xDCE9])

/-- **The bad host name takes the machine GUID with it.** -/
theorem badHost_not_degradesGracefully :
    normalizeFactors badHostSignals = .error .unicodeEncodeError ∧
    ¬ @DegradesGracefully sampleHash badHostSignals := by
  have hrun : normalizeFactors badHostSignals = .error .unicodeEncodeError := by decide +kernel
  refine ⟨hrun, ?_⟩
  rintro ⟨nf, hnf, _⟩
  rw [hrun] at hnf
  cases hnf

end Bedrock.Slhwid

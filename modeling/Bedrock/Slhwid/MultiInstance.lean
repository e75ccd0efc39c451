/-
  Factors with several instances.

  A machine has several memory modules, network cards or batteries, and reports them as one signal:
  `_multi_instance` drops the empty ones, sorts the others and joins them with `|`.  The core then
  normalizes the joined text.  So the sort sees the instances as the driver wrote them, in upper or
  lower case and padded or not, and the fold comes too late to undo it.

  1. **Enumeration** — `multiInstance_perm`: the order in which the instances were found never shows.

  2. **Fields** — `normalize_multiInstance`: the normalized signal is the join of the `fields`, the
     instances in the order of their raw text, cut at every `|` of their own.  Two lists give one
     signal exactly if they have the same fields (`normalize_multiInstance_inj`).

  3. **Formatting** — `formatting_independent_iff`: the signal depends on nothing but the normalized
     instances exactly if there is at most one.  Of two lists of instances as a driver should write
     them (`Clean`), the signals are the same exactly if both sort the normalized instances alike.
-/
import Bedrock.Lib.Delimited
import Bedrock.Slhwid.Normalize

open Lib.Delimited Bedrock.Python

namespace Bedrock.Slhwid

/-- `_multi_instance`, the Linux and the Windows one. -/
def multiInstance (values : List Str) : Str :=
  List.intercalate (str "|") (sortStrs (values.filter fun value => value ≠ []))

/-- **The order of enumeration never shows.** -/
theorem multiInstance_perm {L L' : List Str} (h : L.Perm L') : multiInstance L = multiInstance L' := by
  have hsort : sortStrs (L.filter fun value => value ≠ []) =
      sortStrs (L'.filter fun value => value ≠ []) := by
    refine List.Perm.eq_of_pairwise (fun a b _ _ (hab : a ≤ b) (hba : b ≤ a) => le_antisymm hab hba)
      (List.pairwise_insertionSort _ _) (List.pairwise_insertionSort _ _) ?_
    exact (List.perm_insertionSort _ _).trans ((h.filter _).trans (List.perm_insertionSort _ _).symm)
  rw [multiInstance, multiInstance, hsort]

/-- The instances are the same ones, apart from what `normalize` takes away from each. -/
def SameInstances (name : Str) (L L' : List Str) : Prop :=
  (L.map (normalize name)).Perm (L'.map (normalize name))

/-! ## Fields -/

/-- The separator, `|`. -/
def bar : CodePoint := 124

/-- `s.lstrip()` and `s.rstrip()`, the two halves of `strip`. -/
def lstrip (s : Str) : Str := s.dropWhile isSpace

def rstrip (s : Str) : Str := (s.reverse.dropWhile isSpace).reverse

/-- `s.replace("\x00", "")`. -/
def dropNul (s : Str) : Str := s.filter fun c => c.val ≠ 0

/-- What `normalize` does to every character that it keeps. -/
def foldField (name s : Str) : Str :=
  if name = str "mac" ∨ name = str "nic_identity" then remove (str "-") (remove (str ":") (foldAscii s))
  else foldAscii s

theorem normalize_eq (name raw : Str) :
    normalize name raw = foldField name (rstrip (lstrip (dropNul raw))) := rfl

/-- Trimming a join trims its first item on the left .. -/
def trimFirst : List Str → List Str
  | [] => [[]]
  | p :: ps => lstrip p :: ps

/-- .. and its last one on the right. -/
def trimLast : List Str → List Str
  | [] => [[]]
  | [p] => [rstrip p]
  | p :: q :: ps => p :: trimLast (q :: ps)

/-- **The fields of a signal**: the instances in the order of their raw text, each cut at every `|` of
    its own, without NULs, trimmed where the signal begins and ends, and folded. -/
def fields (name : Str) (values : List Str) : List Str :=
  let instances := sortStrs (values.filter fun value => value ≠ [])
  let parts := instances.flatMap fun value => value.splitOn bar
  (trimLast (trimFirst (parts.map dropNul))).map (foldField name)

/-- Trimming on the left stops at the first character that is no white space. -/
theorem lstrip_append_cons {a b : Str} {c : CodePoint} (hc : isSpace c = false) :
    lstrip (a ++ c :: b) = lstrip a ++ c :: b := by
  induction a with
  | nil => exact List.dropWhile_cons_of_neg (by simp [hc])
  | cons d a ih =>
    by_cases hd : isSpace d = true
    · rw [lstrip, List.cons_append, List.dropWhile_cons_of_pos hd, lstrip,
        List.dropWhile_cons_of_pos hd]
      exact ih
    · rw [lstrip, List.cons_append, List.dropWhile_cons_of_neg hd, lstrip,
        List.dropWhile_cons_of_neg hd]
      rfl

theorem rstrip_eq (s : Str) : rstrip s = (lstrip s.reverse).reverse := rfl

theorem rstrip_append_cons {a b : Str} {c : CodePoint} (hc : isSpace c = false) :
    rstrip (a ++ c :: b) = a ++ c :: rstrip b := by
  rw [rstrip_eq, rstrip_eq, List.reverse_append, List.reverse_cons, List.append_assoc,
    List.singleton_append, lstrip_append_cons hc]
  simp

/-- A separator is no white space: only the first item of a join is trimmed on the left. -/
theorem lstrip_intercalate (ps : List Str) :
    lstrip (List.intercalate [bar] ps) = List.intercalate [bar] (trimFirst ps) := by
  cases ps with
  | nil => rfl
  | cons p ps =>
    cases ps with
    | nil => rw [trimFirst, List.intercalate_singleton, List.intercalate_singleton]
    | cons q ps =>
      rw [trimFirst, List.intercalate_cons_cons, List.intercalate_cons_cons, List.append_assoc,
        List.singleton_append, lstrip_append_cons (by decide), List.append_assoc,
        List.singleton_append]

/-- There is always a last item. -/
theorem trimLast_ne_nil (ps : List Str) : trimLast ps ≠ [] := by
  cases ps with
  | nil => exact List.cons_ne_nil _ _
  | cons p ps => cases ps with
    | nil => exact List.cons_ne_nil _ _
    | cons q ps => exact List.cons_ne_nil _ _

theorem rstrip_intercalate : ∀ ps : List Str,
    rstrip (List.intercalate [bar] ps) = List.intercalate [bar] (trimLast ps)
  | [] => rfl
  | [p] => by rw [trimLast, List.intercalate_singleton, List.intercalate_singleton]
  | p :: q :: ps => by
    rw [trimLast, List.intercalate_cons_of_ne_nil (trimLast_ne_nil _), ← rstrip_intercalate (q :: ps),
      List.intercalate_cons_cons, List.append_assoc, List.singleton_append,
      rstrip_append_cons (by decide), List.append_assoc, List.singleton_append]

/-- Folding goes character by character. -/
theorem foldField_append (name a b : Str) :
    foldField name (a ++ b) = foldField name a ++ foldField name b := by
  unfold foldField
  split
  · simp only [foldAscii, remove, List.map_append, List.filter_append]
  · exact List.map_append

theorem foldField_bar (name : Str) : foldField name [bar] = [bar] := by
  unfold foldField
  split
  · decide
  · decide

theorem foldField_nil (name : Str) : foldField name [] = [] := by
  unfold foldField
  split
  · rfl
  · rfl

/-- **The normalized signal is the join of its fields.** -/
theorem normalize_multiInstance (name : Str) (values : List Str) :
    normalize name (multiInstance values) = List.intercalate [bar] (fields name values) := by
  have hjoin : multiInstance values = List.intercalate [bar]
      ((sortStrs (values.filter fun value => value ≠ [])).flatMap fun value => value.splitOn bar) := by
    rw [intercalate_flatMap (List.splitOn_ne_nil bar) fun p => List.intercalate_splitOn bar]
    rfl
  rw [normalize_eq, hjoin, map_intercalate (g := dropNul) rfl (fun a b => List.filter_append a b)
    (by decide : dropNul [bar] = [bar]), lstrip_intercalate, rstrip_intercalate,
    map_intercalate (foldField_nil name) (foldField_append name) (foldField_bar name)]
  rfl

theorem mem_dropNul {s : Str} {c : CodePoint} (h : c ∈ dropNul s) : c ∈ s := (List.mem_filter.mp h).1

theorem mem_lstrip {s : Str} {c : CodePoint} (h : c ∈ lstrip s) : c ∈ s :=
  (List.dropWhile_sublist _).subset h

theorem mem_rstrip {s : Str} {c : CodePoint} (h : c ∈ rstrip s) : c ∈ s := by
  rw [rstrip_eq, List.mem_reverse] at h
  exact List.mem_reverse.mp (mem_lstrip h)

/-- Folding makes no separator. -/
theorem bar_mem_foldField {name s : Str} (h : bar ∈ foldField name s) : bar ∈ s := by
  have hfold : ∀ s : Str, bar ∈ foldAscii s → bar ∈ s := by
    intro s hs
    obtain ⟨d, hd, heq⟩ := List.mem_map.mp hs
    split at heq
    · rename_i hup
      have hval := congrArg Fin.val heq
      have hsmall : (Fin.ofNat 0x110000 (d.val + 32)).val = d.val + 32 :=
        Nat.mod_eq_of_lt (by omega)
      have hbar : bar.val = 124 := rfl
      omega
    · rwa [← heq]
  unfold foldField at h
  split at h
  · exact hfold s (List.mem_filter.mp (List.mem_filter.mp h).1).1
  · exact hfold s h

/-- Trimming the first item of several adds no character. -/
theorem mem_trimFirst {ps : List Str} {q : Str} (h : q ∈ trimFirst ps) {c : CodePoint} (hc : c ∈ q) :
    ∃ p ∈ ps, c ∈ p := by
  cases ps with
  | nil =>
    rw [List.mem_singleton.mp h] at hc
    exact absurd hc List.not_mem_nil
  | cons p ps =>
    rcases List.mem_cons.mp h with rfl | hq
    · exact ⟨p, List.mem_cons_self, mem_lstrip hc⟩
    · exact ⟨q, List.mem_cons_of_mem p hq, hc⟩

theorem mem_trimLast : ∀ {ps : List Str} {q : Str}, q ∈ trimLast ps → ∀ {c : CodePoint}, c ∈ q →
    ∃ p ∈ ps, c ∈ p
  | [], q, h, c, hc => by
    rw [List.mem_singleton.mp h] at hc
    exact absurd hc List.not_mem_nil
  | [p], q, h, c, hc => by
    rw [List.mem_singleton.mp h] at hc
    exact ⟨p, List.mem_singleton_self p, mem_rstrip hc⟩
  | p :: r :: ps, q, h, c, hc => by
    rcases List.mem_cons.mp h with rfl | hq
    · exact ⟨q, List.mem_cons_self, hc⟩
    · obtain ⟨p', hp', hc'⟩ := mem_trimLast hq hc
      exact ⟨p', List.mem_cons_of_mem p hp', hc'⟩

/-- No field has a separator in it. -/
theorem bar_not_mem_fields {name : Str} {values : List Str} :
    ∀ field ∈ fields name values, bar ∉ field := by
  intro field hfield hbar
  obtain ⟨q, hq, rfl⟩ := List.mem_map.mp hfield
  obtain ⟨r, hr, hbar⟩ := mem_trimLast hq (bar_mem_foldField hbar)
  obtain ⟨p, hp, hbar⟩ := mem_trimFirst hr hbar
  obtain ⟨part, hpart, rfl⟩ := List.mem_map.mp hp
  obtain ⟨value, _, hsplit⟩ := List.mem_flatMap.mp hpart
  exact not_mem_of_mem_splitOn hsplit (mem_dropNul hbar)

theorem fields_ne_nil (name : Str) (values : List Str) : fields name values ≠ [] := by
  rw [fields, ne_eq, List.map_eq_nil_iff]
  exact trimLast_ne_nil _

/-- **Two lists give one signal** exactly if they have the same fields. -/
theorem normalize_multiInstance_inj {name : Str} {L L' : List Str} :
    normalize name (multiInstance L) = normalize name (multiInstance L') ↔
      fields name L = fields name L' := by
  rw [normalize_multiInstance, normalize_multiInstance]
  constructor
  · intro h
    rw [← List.splitOn_intercalate bar bar_not_mem_fields (fields_ne_nil name L), h,
      List.splitOn_intercalate bar bar_not_mem_fields (fields_ne_nil name L')]
  · intro h
    rw [h]

/-- An instance without anything for `normalize` to take away but letter case and the separators of a
    MAC, and without a separator of its own. -/
structure Clean (p : Str) : Prop where
  /-- The part says something. -/
  nonempty : p ≠ []
  /-- It is not dropped for a NUL. -/
  noNul : ∀ c ∈ p, c.val ≠ 0
  /-- Nothing is stripped from it .. -/
  left : lstrip p = p
  right : rstrip p = p
  /-- It is one instance. -/
  noBar : bar ∉ p

theorem Clean.dropNul_eq {p : Str} (h : Clean p) : dropNul p = p :=
  List.filter_eq_self.mpr fun c hc => by simpa using h.noNul c hc

theorem Clean.normalize_eq {p : Str} (h : Clean p) (name : Str) : normalize name p = foldField name p := by
  rw [Bedrock.Slhwid.normalize_eq, h.dropNul_eq, h.left, h.right]

/-- Trimmed items stay as they are. -/
theorem trimLast_eq_self : ∀ {ps : List Str}, ps ≠ [] → (∀ p ∈ ps, rstrip p = p) → trimLast ps = ps
  | [], hne, _ => absurd rfl hne
  | [p], _, h => by rw [trimLast, h p List.mem_cons_self]
  | p :: q :: ps, _, h => by
    rw [trimLast, trimLast_eq_self (List.cons_ne_nil q ps) fun r hr => h r (List.mem_cons_of_mem p hr)]

/-- **The fields of clean instances** are the normalized instances, in the order of their raw text. -/
theorem fields_of_clean {name : Str} {L : List Str} (hne : L ≠ []) (hL : ∀ p ∈ L, Clean p) :
    fields name L = (sortStrs L).map (normalize name) := by
  have hkeep : L.filter (fun value => value ≠ []) = L :=
    List.filter_eq_self.mpr fun p hp => by simpa using (hL p hp).nonempty
  have hsorted : ∀ p ∈ sortStrs L, Clean p := fun p hp => hL p (mem_sortStrs.mp hp)
  have hne' : sortStrs L ≠ [] := by
    rw [← List.length_pos_iff, length_sortStrs]
    exact List.length_pos_iff.mpr hne
  have hparts : (sortStrs L).flatMap (fun value => value.splitOn bar) = sortStrs L := by
    rw [List.flatMap_congr (g := fun p => [p]) fun p hp => List.splitOn_eq_singleton (hsorted p hp).noBar]
    exact List.flatMap_singleton' _
  have hnul : (sortStrs L).map dropNul = sortStrs L := by
    conv_rhs => rw [← List.map_id (sortStrs L)]
    exact List.map_congr_left fun p hp => (hsorted p hp).dropNul_eq
  have hfirst : trimFirst (sortStrs L) = sortStrs L := by
    obtain ⟨p, ps, hcons⟩ := List.exists_cons_of_ne_nil hne'
    rw [hcons] at hsorted ⊢
    rw [trimFirst, (hsorted p List.mem_cons_self).left]
  rw [fields, hkeep, hparts, hnul, hfirst, trimLast_eq_self hne' fun p hp => (hsorted p hp).right]
  exact List.map_congr_left fun p hp => ((hsorted p hp).normalize_eq name).symm

/-! ## Formatting -/

/-- White space and NULs only. -/
def Blank (s : Str) : Prop := ∀ c ∈ s, c.val = 0 ∨ isSpace c = true

/-- A blank instance is nothing after normalization, though it is not empty before. -/
theorem normalize_of_blank {name s : Str} (h : Blank s) : normalize name s = [] := by
  have hempty : lstrip (dropNul s) = [] := by
    refine List.dropWhile_eq_nil_iff.mpr fun c hc => ?_
    obtain ⟨hmem, hnul⟩ := List.mem_filter.mp hc
    exact (h c hmem).resolve_left (by simpa using hnul)
  rw [normalize_eq, hempty]
  exact foldField_nil name

/-- Padding, on both sides. -/
def pad (n : Nat) (s : Str) : Str := List.replicate n 9 ++ (s ++ List.replicate n 9)

/-- Padding does not survive `normalize`. -/
theorem normalize_pad (name : Str) (n : Nat) (s : Str) : normalize name (pad n s) = normalize name s := by
  -- tabs are white space and no NULs
  have hspace : ∀ c ∈ List.replicate n (9 : CodePoint), isSpace c = true := by
    intro c hc
    rw [List.eq_of_mem_replicate hc]
    decide
  have hnul : dropNul (List.replicate n 9) = List.replicate n 9 := by
    refine List.filter_eq_self.mpr fun c hc => ?_
    rw [List.eq_of_mem_replicate hc]
    decide
  have hright : ∀ t : Str, rstrip (t ++ List.replicate n 9) = rstrip t := by
    intro t
    rw [rstrip_eq, List.reverse_append, lstrip,
      List.dropWhile_append_of_pos fun c hc => hspace c (List.mem_reverse.mp hc)]
    rfl
  have hdrop : dropNul (pad n s) = List.replicate n 9 ++ (dropNul s ++ List.replicate n 9) := by
    rw [pad, dropNul, List.filter_append, List.filter_append]
    exact congrArg₂ _ hnul (congrArg₂ _ rfl hnul)
  rw [normalize_eq, normalize_eq, hdrop]
  congr 1
  rw [lstrip, List.dropWhile_append_of_pos hspace]
  show rstrip (List.dropWhile isSpace (dropNul s ++ List.replicate n 9)) = _
  -- a value of white space alone is trimmed away from either side
  rw [List.dropWhile_append]
  split
  · rename_i hempty
    have hnil : lstrip (dropNul s) = [] := List.isEmpty_iff.mp hempty
    rw [hnil, List.dropWhile_eq_nil_iff.mpr hspace]
  · exact hright _

/-- What stands between two characters that are kept is kept too. -/
theorem infix_strip {c d : CodePoint} (hc : isSpace c = false) (hd : isSpace d = false) {m s : Str}
    (h : c :: (m ++ [d]) <:+: s) : c :: (m ++ [d]) <:+: rstrip (lstrip s) := by
  obtain ⟨a, b, rfl⟩ := h
  have hshape : a ++ c :: (m ++ [d]) ++ b = a ++ c :: (m ++ d :: b) := by simp
  have hshape' : lstrip a ++ c :: (m ++ d :: b) = (lstrip a ++ c :: m) ++ d :: b := by simp
  rw [hshape, lstrip_append_cons hc, hshape', rstrip_append_cons hd]
  exact ⟨lstrip a, rstrip b, by simp⟩

/-- Folding keeps tabs. -/
theorem count_tab_foldField (name s : Str) : (foldField name s).count 9 = s.count 9 := by
  -- lower-casing touches letters only, and the characters that are removed are no tabs
  have hfold : ∀ s : Str, (foldAscii s).count 9 = s.count 9 := by
    intro s
    induction s with
    | nil => rfl
    | cons c s ih =>
      have hhead : ((if 65 ≤ c.val ∧ c.val ≤ 90 then Fin.ofNat _ (c.val + 32) else c : CodePoint) == 9) =
          (c == 9) := by
        split
        · rename_i hup
          have hsmall : (Fin.ofNat 0x110000 (c.val + 32)).val = c.val + 32 :=
            -- a lowered letter is no tab, and neither is the capital
            Nat.mod_eq_of_lt (by omega)
          have hnine : ((9 : CodePoint)).val = 9 := rfl
          rw [Bool.eq_iff_iff, beq_iff_eq, beq_iff_eq]
          constructor
          · intro h
            have hval := congrArg Fin.val h
            omega
          · intro h
            have hval := congrArg Fin.val h
            omega
        · rfl
      rw [foldAscii, List.map_cons, List.count_cons, List.count_cons, hhead]
      exact congrArg (· + _) ih
  have hremove : ∀ (ch s : Str), (9 : CodePoint) ∉ ch → (remove ch s).count 9 = s.count 9 := by
    intro ch s hch
    exact List.count_filter (by simpa using hch)
  unfold foldField
  split
  · rw [hremove _ _ (by decide), hremove _ _ (by decide), hfold]
  · exact hfold s

/-- Neighbours stand next to each other in the join. -/
theorem infix_intercalate {a b : Str} (before after : List Str) :
    a ++ bar :: b <:+: List.intercalate [bar] (before ++ a :: b :: after) := by
  have hpair : a ++ bar :: b <:+: List.intercalate [bar] (a :: b :: after) := by
    cases after with
    | nil =>
      rw [List.intercalate_cons_cons, List.intercalate_singleton, List.append_assoc]
      exact List.infix_rfl
    | cons c after =>
      rw [List.intercalate_cons_cons, List.intercalate_cons_cons]
      exact ⟨[], bar :: List.intercalate [bar] (c :: after), by simp⟩
  cases before with
  | nil => exact hpair
  | cons p before =>
    rw [intercalate_append (List.cons_ne_nil _ _) (List.cons_ne_nil _ _)]
    exact hpair.trans ⟨List.intercalate [bar] (p :: before) ++ [bar], [], by simp⟩

/-- **Padding shows** in a signal of several instances, one of which is not blank. -/
theorem le_count_tab (name : Str) {L : List Str} {p : Str} (hp : p ∈ L) (hblank : ¬ Blank p)
    (hlen : 2 ≤ L.length) {n : Nat} (hn : 0 < n) :
    n ≤ (normalize name (multiInstance (L.map (pad n)))).count 9 := by
  obtain ⟨c, hc, hkept⟩ : ∃ c ∈ p, ¬ (c.val = 0 ∨ isSpace c = true) := by
    by_contra hno
    push Not at hno
    exact hblank hno
  rw [not_or, Bool.not_eq_true] at hkept
  obtain ⟨u, v, rfl⟩ := List.append_of_mem hc
  -- the sorted instances: none was dropped, and `p` has a neighbour
  let sorted := sortStrs ((L.map (pad n)).filter fun value => value ≠ [])
  have hall : (L.map (pad n)).filter (fun value => value ≠ []) = L.map (pad n) := by
    refine List.filter_eq_self.mpr fun value hvalue => ?_
    obtain ⟨q, _, rfl⟩ := List.mem_map.mp hvalue
    have hne : pad n q ≠ [] := by
      rw [pad]
      refine List.append_ne_nil_of_left_ne_nil (fun hnil => ?_) _
      rw [List.replicate_eq_nil_iff] at hnil
      omega
    simpa using hne
  have hmem : pad n (u ++ c :: v) ∈ sorted := by
    rw [mem_sortStrs, hall]
    exact List.mem_map_of_mem hp
  have hlen' : 2 ≤ sorted.length := by
    rw [length_sortStrs, hall, List.length_map]
    exact hlen
  -- between the kept character and the separator next to it stands the padding
  have hinfix : ∃ d e m, isSpace d = false ∧ isSpace e = false ∧ d.val ≠ 0 ∧ e.val ≠ 0 ∧
      n ≤ List.count 9 m ∧ d :: (m ++ [e]) <:+: List.intercalate [bar] sorted := by
    obtain ⟨before, after, hsplit⟩ := List.append_of_mem hmem
    rw [hsplit] at hlen' ⊢
    cases after with
    | cons q after =>
      refine ⟨c, bar, v ++ List.replicate n 9, hkept.2, by decide, hkept.1, by decide, ?_,
        List.IsInfix.trans ?_ (infix_intercalate before after)⟩
      · rw [List.count_append, List.count_replicate_self]
        omega
      · exact ⟨List.replicate n 9 ++ u, q, by simp [pad]⟩
    | nil =>
      obtain ⟨before, q, rfl⟩ : ∃ before' q, before = before' ++ [q] := by
        cases before using List.reverseRecOn with
        | nil => rw [List.nil_append] at hlen'; simp at hlen'
        | append_singleton before q => exact ⟨before, q, rfl⟩
      rw [List.append_assoc, List.singleton_append]
      refine ⟨bar, c, List.replicate n 9 ++ u, by decide, hkept.2, by decide, hkept.1, ?_,
        List.IsInfix.trans ?_ (infix_intercalate before [])⟩
      · rw [List.count_append, List.count_replicate_self]
        omega
      · exact ⟨q, v ++ List.replicate n 9, by simp [pad]⟩
  obtain ⟨d, e, m, hd, he, hd0, he0, hcount, hinfix⟩ := hinfix
  have hnul := hinfix.filter fun c => c.val ≠ 0
  have hshape : (d :: (m ++ [e])).filter (fun c => c.val ≠ 0) = d :: (dropNul m ++ [e]) := by
    rw [List.filter_cons_of_pos (by simpa using hd0), List.filter_append,
      List.filter_cons_of_pos (by simpa using he0), List.filter_nil]
    rfl
  rw [hshape] at hnul
  have hstripped := infix_strip hd he hnul
  rw [normalize_eq, count_tab_foldField]
  refine le_trans ?_ (hstripped.count_le 9)
  rw [List.count_cons, List.count_append, dropNul, List.count_filter (by decide)]
  omega

/-- The separators of a join are kept. -/
theorem bar_mem_normalize (name : Str) {s : Str} (h : bar ∈ s) : bar ∈ normalize name s := by
  have hmem : bar ∈ rstrip (lstrip (dropNul s)) := by
    show bar ∈ strip (dropNul s)
    rw [mem_strip (by decide)]
    exact List.mem_filter.mpr ⟨h, by decide⟩
  obtain ⟨a, b, hsplit⟩ := List.append_of_mem hmem
  rw [normalize_eq, hsplit, ← List.singleton_append, foldField_append, foldField_append, foldField_bar]
  simp

theorem sameInstances_map {name : Str} {L : List Str} {f : Str → Str}
    (h : ∀ p ∈ L, normalize name (f p) = normalize name p) : SameInstances name L (L.map f) := by
  rw [SameInstances, List.map_map, List.map_congr_left (f := normalize name ∘ f) h]

/-- Blank instances can be left out of a signal or kept in it. -/
theorem exists_blank_variants (name : Str) {L : List Str} (hblank : ∀ p ∈ L, Blank p)
    (hlen : 2 ≤ L.length) : ∃ L₁ L₂, SameInstances name L L₁ ∧ SameInstances name L L₂ ∧
      normalize name (multiInstance L₁) ≠ normalize name (multiInstance L₂) := by
  have hsame : ∀ s : Str, Blank s → SameInstances name L (L.map fun _ => s) := by
    intro s hs
    refine sameInstances_map fun p hp => ?_
    rw [normalize_of_blank hs, normalize_of_blank (hblank p hp)]
  -- all instances empty, or all of them one blank: the first are filtered out, the others joined
  refine ⟨L.map fun _ => [], L.map fun _ => [32], hsame [] fun c hc => absurd hc List.not_mem_nil,
    hsame [32] fun c hc => Or.inr ?_, fun heq => ?_⟩
  · rw [List.mem_singleton.mp hc]
    decide
  have hnone : (L.map fun _ => ([] : Str)).filter (fun value => value ≠ []) = [] := by
    refine List.filter_eq_nil_iff.mpr fun value hvalue => ?_
    obtain ⟨_, _, rfl⟩ := List.mem_map.mp hvalue
    simp
  have hall : (L.map fun _ => ([32] : Str)).filter (fun value => value ≠ []) = L.map fun _ => [32] := by
    refine List.filter_eq_self.mpr fun value hvalue => ?_
    obtain ⟨_, _, rfl⟩ := List.mem_map.mp hvalue
    rfl
  have hempty : multiInstance (L.map fun _ => []) = [] := by
    rw [multiInstance, hnone]
    rfl
  have hbar : bar ∈ multiInstance (L.map fun _ => [32]) := by
    have hlen' : 2 ≤ (sortStrs (L.map fun _ => ([32] : Str))).length := by
      rw [length_sortStrs, List.length_map]
      exact hlen
    rw [multiInstance, hall]
    obtain ⟨a, rest, hsort⟩ := List.exists_cons_of_length_pos (lt_of_lt_of_le Nat.zero_lt_two hlen')
    rw [hsort] at hlen' ⊢
    obtain ⟨b, after, rfl⟩ := List.exists_cons_of_length_pos
      (Nat.lt_of_succ_le (Nat.le_of_succ_le_succ hlen'))
    exact (infix_intercalate [] after).subset (by simp)
  have hmem := bar_mem_normalize name hbar
  rw [← heq, hempty] at hmem
  rw [normalize_of_blank fun c hc => absurd hc List.not_mem_nil] at hmem
  exact absurd hmem List.not_mem_nil

/-- A signal of one instance is that instance, normalized. -/
theorem normalize_multiInstance_singleton (name p : Str) :
    normalize name (multiInstance [p]) = normalize name p := by
  by_cases hp : p = []
  · rw [hp]
    rfl
  · have hkeep : ([p] : List Str).filter (fun value => value ≠ []) = [p] := by
      rw [List.filter_cons_of_pos (by simpa using hp), List.filter_nil]
    rw [multiInstance, hkeep]
    show normalize name (List.intercalate (str "|") [p]) = _
    rw [List.intercalate_singleton]

/-- **Independence of formatting.**  The signal is the same for every list with the same normalized
    instances if and only if there is at most one; and of two such lists it is the same if and only
    if the instances, in the order of their raw text, have the same fields — for clean instances, if
    and only if sorting the raw texts puts the same normalized instance at every place. -/
theorem formatting_independent_iff (name : Str) (L : List Str) :
    ((∀ L', SameInstances name L L' →
        normalize name (multiInstance L) = normalize name (multiInstance L')) ↔ L.length ≤ 1) ∧
    ∀ L', SameInstances name L L' →
      (normalize name (multiInstance L) = normalize name (multiInstance L') ↔
        fields name L = fields name L') ∧
      ((∀ p ∈ L, Clean p) → (∀ p ∈ L', Clean p) →
        (normalize name (multiInstance L) = normalize name (multiInstance L') ↔
          (sortStrs L).map (normalize name) = (sortStrs L').map (normalize name))) := by
  refine ⟨⟨fun hsame => ?_, fun hlen L' hL' => ?_⟩, fun L' hL' =>
    ⟨normalize_multiInstance_inj, fun hL hclean => ?_⟩⟩
  · -- at least two instances: some formatting of them is visible
    by_contra hlen
    have hlen' : 2 ≤ L.length := by omega
    by_cases hblank : ∀ p ∈ L, Blank p
    · obtain ⟨L₁, L₂, h₁, h₂, hne⟩ := exists_blank_variants name hblank hlen'
      exact hne ((hsame L₁ h₁).symm.trans (hsame L₂ h₂))
    · push Not at hblank
      -- a separator keeps the tabs in front of it, so padding an instance that is not blank shows
      obtain ⟨p, hp, hkept⟩ := hblank
      let n := (normalize name (multiInstance L)).count 9 + 1
      have hpad : SameInstances name L (L.map (pad n)) :=
        sameInstances_map fun q _ => normalize_pad name n q
      have hle := le_count_tab name hp hkept hlen' (Nat.succ_pos _ : 0 < n)
      rw [← hsame _ hpad] at hle
      exact absurd hle (Nat.not_succ_le_self _)
  · -- one instance, or none: there is nothing to join
    have hlen' := hL'.length_eq
    rw [List.length_map, List.length_map] at hlen'
    match L, L', hlen, hlen', hL' with
    | [], [], _, _, _ => rfl
    | [p], [q], _, _, hL' =>
      rw [normalize_multiInstance_singleton, normalize_multiInstance_singleton]
      exact List.singleton_perm_singleton.mp hL'
  · -- clean instances are their own fields
    have hlen := hL'.length_eq
    rw [List.length_map, List.length_map] at hlen
    rw [normalize_multiInstance_inj]
    by_cases hne : L = []
    · rw [hne] at hlen ⊢
      rw [List.length_eq_zero_iff.mp hlen.symm]
      exact iff_of_true rfl rfl
    · have hne' : L' ≠ [] := fun hnil => hne (List.length_eq_zero_iff.mp (by rw [hlen, hnil]; rfl))
      rw [fields_of_clean hne hL, fields_of_clean hne' hclean]

/-- Two modules found in the other order. -/
theorem modules_same_signal :
    normalize (str "memory_modules") (multiInstance [str "a1", str "B2"]) =
      normalize (str "memory_modules") (multiInstance [str "B2", str "a1"]) := by
  refine ((formatting_independent_iff (str "memory_modules") [str "a1", str "B2"]).2
    [str "B2", str "a1"] ?_).1.mpr ?_
  · exact (List.Perm.swap (str "B2") (str "a1") []).map _
  · decide +kernel

/-- **Two modules in another case**: they sort the other way round. -/
theorem modules_not_same_signal :
    SameInstances (str "memory_modules") [str "a1", str "B2"] [str "A1", str "b2"] ∧
    normalize (str "memory_modules") (multiInstance [str "a1", str "B2"]) = str "b2|a1" ∧
    normalize (str "memory_modules") (multiInstance [str "A1", str "b2"]) = str "a1|b2" := by
  refine ⟨?_, ?_, ?_⟩
  · rw [SameInstances]
    decide +kernel
  · decide +kernel
  · decide +kernel

end Bedrock.Slhwid

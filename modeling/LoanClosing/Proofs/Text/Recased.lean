import LoanClosing.Text.Ascii
import LoanClosing.Text.Blank
import LoanClosing.Text.Lowercase

/-!
# Texts up to ASCII case and blanks around them

Making the ASCII capitals of a text small commutes with trimming it and with taking it apart, and is
lost in its lower-case form: no property of characters that these look at tells a capital from its
small letter, not even in the rule for a final sigma. Blanks put around a text are lost in trimming.
-/

namespace LoanClosing.Text

variable {a b : String} {cs blanks : List Char}

/-! ### Capitals made small -/

theorem toLower_of_not_capital {c : Char} (h : ¬(65 ≤ c.toNat ∧ c.toNat ≤ 90)) : c.toLower = c := by
  unfold Char.toLower
  split
  · next hc => exact absurd hc (by simpa [UInt32.le_iff_toNat_le] using h)
  · rfl

/-- What does not tell the 26 capitals from their small letters does not tell any characters from
their small ones. -/
theorem apply_toLower {α : Type} (f : Char → α)
    (h : ∀ n : Fin 26, f (Char.ofNat (n + 65)).toLower = f (Char.ofNat (n + 65))) (c : Char) :
    f c.toLower = f c := by
  by_cases hc : 65 ≤ c.toNat ∧ c.toNat ≤ 90
  · have hn := h ⟨c.toNat - 65, by omega⟩
    have he : c.toNat - 65 + 65 = c.toNat := by omega
    rwa [he, Char.ofNat_toNat] at hn
  · rw [toLower_of_not_capital hc]

theorem toLower_toLower (c : Char) : c.toLower.toLower = c.toLower :=
  apply_toLower Char.toLower (by decide) c

theorem map_toLower_toLower (cs : List Char) :
    (cs.map Char.toLower).map Char.toLower = cs.map Char.toLower := by
  rw [List.map_map]
  exact List.map_congr_left fun c _ ↦ toLower_toLower c

theorem toList_lowerAscii (s : String) : (lowerAscii s).toList = s.toList.map Char.toLower := by
  rw [lowerAscii, String.toList_ofList]

theorem lowerAscii_lowerAscii (s : String) : lowerAscii (lowerAscii s) = lowerAscii s := by
  rw [lowerAscii, toList_lowerAscii, map_toLower_toLower, ← lowerAscii]

theorem lowerAscii_intercalate (separator : String) (pieces : List String) :
    lowerAscii (separator.intercalate pieces) =
      (lowerAscii separator).intercalate (pieces.map lowerAscii) := by
  rw [← String.toList_inj, toList_lowerAscii, String.toList_intercalate, String.toList_intercalate,
    toList_lowerAscii]
  induction pieces with
  | nil => rfl
  | cons piece pieces ih =>
    cases pieces with
    | nil => simp only [List.map_cons, List.map_nil, List.intercalate_singleton, toList_lowerAscii]
    | cons next pieces =>
      simp only [List.map_cons, List.intercalate_cons_cons, List.map_append, toList_lowerAscii]
        at ih ⊢
      rw [ih]

theorem sameFolded_iff : sameFolded a b = true ↔ lowerAscii a = lowerAscii b := by
  rw [sameFolded, beq_iff_eq, lowerAscii, lowerAscii, String.ofList_inj]

theorem sameFolded_self (s : String) : sameFolded s s = true := sameFolded_iff.2 rfl

theorem sameFolded_lowerAscii_left : sameFolded (lowerAscii a) b = sameFolded a b := by
  rw [Bool.eq_iff_iff, sameFolded_iff, sameFolded_iff, lowerAscii_lowerAscii]

theorem sameFolded_lowerAscii_right : sameFolded a (lowerAscii b) = sameFolded a b := by
  rw [Bool.eq_iff_iff, sameFolded_iff, sameFolded_iff, lowerAscii_lowerAscii]

theorem isBlank_toLower (c : Char) : isBlank c.toLower = isBlank c :=
  apply_toLower isBlank (by decide) c

theorem isCased_toLower (c : Char) : isCased c.toLower = isCased c :=
  apply_toLower isCased (by decide) c

/-- No letter is case-ignorable: the ranges of that property leave the ASCII letters out. -/
theorem isCaseIgnorable_of_letter {c : Char}
    (h : 65 ≤ c.toNat ∧ c.toNat ≤ 90 ∨ 97 ≤ c.toNat ∧ c.toNat ≤ 122) :
    isCaseIgnorable c = false := by
  have hranges : ∀ range ∈ CaseTable.caseIgnorable,
      range.2 < 65 ∨ 90 < range.1 ∧ range.2 < 97 ∨ 122 < range.1 := by decide +kernel
  rw [isCaseIgnorable, inRanges, List.any_eq_false]
  intro range hr
  have hout := hranges range hr
  simp only [Bool.and_eq_true, decide_eq_true_eq]
  omega

theorem isCaseIgnorable_toLower (c : Char) : isCaseIgnorable c.toLower = isCaseIgnorable c := by
  refine apply_toLower isCaseIgnorable (fun n ↦ ?_) c
  have hcapital : ∀ n : Fin 26, 65 ≤ (Char.ofNat (n + 65)).toNat ∧
      (Char.ofNat (n + 65)).toNat ≤ 90 := by decide
  have hsmall : ∀ n : Fin 26, 97 ≤ (Char.ofNat (n + 65)).toLower.toNat ∧
      (Char.ofNat (n + 65)).toLower.toNat ≤ 122 := by decide
  rw [isCaseIgnorable_of_letter (.inl (hcapital n)), isCaseIgnorable_of_letter (.inr (hsmall n))]

theorem lowerChar_toLower (c : Char) : lowerChar c.toLower = lowerChar c :=
  apply_toLower lowerChar (by decide) c

/-- What is no ASCII letter is equal to a character or to its small one, but to neither alone. -/
theorem toLower_beq {sign : Char} (h : sign.isAlpha = false) (c : Char) :
    (c.toLower == sign) = (c == sign) := by
  have hne {d : Char} (hd : d.isAlpha = true) : (d == sign) = false := by
    rw [beq_eq_false_iff_ne]
    rintro rfl
    rw [h] at hd
    cases hd
  have hletters : ∀ n : Fin 26, (Char.ofNat (n + 65)).toLower.isAlpha = true ∧
      (Char.ofNat (n + 65)).isAlpha = true := by decide
  exact apply_toLower (· == sign) (fun n ↦ (hne (hletters n).1).trans (hne (hletters n).2).symm) c

theorem isIdentifierStart_toLower (c : Char) : isIdentifierStart c.toLower = isIdentifierStart c :=
  apply_toLower isIdentifierStart (by decide) c

theorem isIdentifierPart_toLower (c : Char) : isIdentifierPart c.toLower = isIdentifierPart c :=
  apply_toLower isIdentifierPart (by decide) c

theorem isIdentifier_map_toLower (cs : List Char) :
    isIdentifier (cs.map Char.toLower) = isIdentifier cs := by
  cases cs with
  | nil => rfl
  | cons c cs =>
    have hpart : isIdentifierPart ∘ Char.toLower = isIdentifierPart :=
      funext isIdentifierPart_toLower
    rw [List.map_cons, isIdentifier, isIdentifier, isIdentifierStart_toLower, List.all_map, hpart]

theorem dropWhile_map_toLower {p : Char → Bool} (h : ∀ c, p c.toLower = p c) (cs : List Char) :
    (cs.map Char.toLower).dropWhile p = (cs.dropWhile p).map Char.toLower := by
  have hp : p ∘ Char.toLower = p := funext h
  rw [List.dropWhile_map, hp]

theorem takeWhile_map_toLower {p : Char → Bool} (h : ∀ c, p c.toLower = p c) (cs : List Char) :
    (cs.map Char.toLower).takeWhile p = (cs.takeWhile p).map Char.toLower := by
  have hp : p ∘ Char.toLower = p := funext h
  rw [List.takeWhile_map, hp]

theorem trimChars_map_toLower (cs : List Char) :
    trimChars (cs.map Char.toLower) = (trimChars cs).map Char.toLower := by
  simp only [trimChars, trimStart, trimEnd, dropWhile_map_toLower isBlank_toLower,
    ← List.map_reverse]

theorem contains_map_toLower {sign : Char} (h : sign.isAlpha = false) (cs : List Char) :
    (cs.map Char.toLower).contains sign = cs.contains sign := by
  induction cs with
  | nil => rfl
  | cons c cs ih =>
    rw [List.map_cons, List.contains_cons, List.contains_cons, ih, Bool.beq_comm, toLower_beq h,
      Bool.beq_comm]

/-- A separator that is no letter separates the same pieces. -/
theorem splitAt_map_toLower {separator : Char} (h : separator.isAlpha = false) (cs : List Char) :
    splitAt separator (cs.map Char.toLower) =
      (splitAt separator cs).map (List.map Char.toLower) := by
  induction cs with
  | nil => rfl
  | cons c cs ih =>
    rw [List.map_cons, splitAt, splitAt, toLower_beq h, ih]
    split
    · rfl
    · cases splitAt separator cs <;> rfl

theorem startsCased_map_toLower (cs : List Char) :
    startsCased (cs.map Char.toLower) = startsCased cs := by
  rw [startsCased, startsCased, dropWhile_map_toLower isCaseIgnorable_toLower]
  cases cs.dropWhile isCaseIgnorable with
  | nil => rfl
  | cons c rest => exact isCased_toLower c

theorem lowerFrom_map_toLower (before cs : List Char) :
    lowerFrom (before.map Char.toLower) (cs.map Char.toLower) = lowerFrom before cs := by
  induction cs generalizing before with
  | nil => rfl
  | cons c cs ih =>
    have ih := ih (c :: before)
    rw [List.map_cons] at ih
    rw [List.map_cons, lowerFrom, lowerFrom, ih, toLower_beq (by decide), toLower_beq (by decide),
      lowerChar_toLower, startsCased_map_toLower, startsCased_map_toLower]

/-- Capitals made small are lost in the lower-case form. -/
theorem lowerChars_map_toLower (cs : List Char) :
    lowerChars (cs.map Char.toLower) = lowerChars cs :=
  lowerFrom_map_toLower [] cs

/-! ### Paths made small behind their first segment -/

/-- A path with all that is behind its first segment made small. -/
def foldTail : List Char → List Char
  | [] => []
  | c :: rest => if c = '.' then c :: rest.map Char.toLower else c :: foldTail rest

theorem map_toLower_foldTail (path : List Char) :
    (foldTail path).map Char.toLower = path.map Char.toLower := by
  induction path with
  | nil => rfl
  | cons c rest ih =>
    rw [foldTail]
    by_cases hc : c = '.'
    · rw [if_pos hc, List.map_cons, map_toLower_toLower, List.map_cons]
    · rw [if_neg hc, List.map_cons, ih, List.map_cons]

/-- The first segment of a path ends at a point or with the path. -/
theorem exists_foldTail_eq (path : List Char) : ∃ head tail, path = head ++ tail ∧
    foldTail path = head ++ tail.map Char.toLower ∧ '.' ∉ head ∧
    (tail = [] ∨ ∃ rest, tail = '.' :: rest) := by
  induction path with
  | nil => exact ⟨[], [], rfl, rfl, List.not_mem_nil, .inl rfl⟩
  | cons c rest ih =>
    rw [foldTail]
    by_cases hc : c = '.'
    · subst hc
      exact ⟨[], '.' :: rest, rfl, rfl, List.not_mem_nil, .inr ⟨rest, rfl⟩⟩
    · obtain ⟨head, tail, rfl, hf, hh, ht⟩ := ih
      refine ⟨c :: head, tail, rfl, ?_, ?_, ht⟩
      · rw [if_neg hc, hf, List.cons_append]
      · rw [List.mem_cons, not_or]
        exact ⟨Ne.symm hc, hh⟩

/-- The first piece of a path stays, and the others are made small. -/
theorem exists_splitAt_foldTail (path : List Char) : ∃ head more,
    splitAt '.' path = head :: more ∧
      splitAt '.' (foldTail path) = head :: more.map (List.map Char.toLower) := by
  obtain ⟨head, tail, hp, hf, hh, ht⟩ := exists_foldTail_eq path
  rw [hf, hp]
  rcases ht with rfl | ⟨rest, rfl⟩
  · refine ⟨head, [], ?_, ?_⟩
    · rw [List.append_nil, splitAt_of_notMem hh]
    · rw [List.map_nil, List.append_nil, splitAt_of_notMem hh, List.map_nil]
  · have hpoint : Char.toLower '.' = '.' := by decide
    refine ⟨head, splitAt '.' rest, ?_, ?_⟩
    · rw [splitAt_append_cons, splitAt_of_notMem hh, List.singleton_append]
    · rw [List.map_cons, hpoint, splitAt_append_cons, splitAt_of_notMem hh,
        splitAt_map_toLower (by decide), List.singleton_append]

/-! ### Blanks around a text -/

theorem dropWhile_of_blank (h : ∀ c ∈ blanks, isBlank c = true) :
    blanks.dropWhile isBlank = [] := by
  rw [← List.append_nil blanks, List.dropWhile_append_of_pos h]
  rfl

theorem trimChars_blank_append (h : ∀ c ∈ blanks, isBlank c = true) (cs : List Char) :
    trimChars (blanks ++ cs) = trimChars cs := by
  rw [trimChars, trimStart, List.dropWhile_append_of_pos h]
  rfl

theorem trimChars_append_blank (h : ∀ c ∈ blanks, isBlank c = true) (cs : List Char) :
    trimChars (cs ++ blanks) = trimChars cs := by
  have hr : ∀ c ∈ blanks.reverse, isBlank c = true := by simpa using h
  rw [trimChars, trimChars, trimStart, trimStart, List.dropWhile_append]
  split
  · next he => rw [dropWhile_of_blank h, List.isEmpty_iff.1 he]
  · rw [trimEnd, trimEnd, List.reverse_append, List.dropWhile_append_of_pos hr]

theorem trimChars_of_blank (h : ∀ c ∈ blanks, isBlank c = true) : trimChars blanks = [] :=
  trimChars_append_blank h []

theorem comma_notMem_of_blank (h : ∀ c ∈ blanks, isBlank c = true) : ',' ∉ blanks :=
  fun hc ↦ absurd (h ',' hc) (by decide)

/-! ### Spellings of one text -/

/-- A text of blanks only. -/
def Blank (s : String) : Prop := ∀ c ∈ s.toList, isBlank c = true

instance : DecidablePred Blank := fun s ↦ List.decidableBAll (isBlank · = true) s.toList

/-- One text is the other with blanks put around it, with the case of ASCII letters changed, or
both, any number of times and in either direction. -/
inductive Respelled : String → String → Prop
  | padded (before s after : String) (hb : Blank before) (ha : Blank after) :
    Respelled s (before ++ s ++ after)
  | recased {a b : String} (h : sameFolded a b = true) : Respelled a b
  | symm {a b : String} (h : Respelled a b) : Respelled b a
  | trans {a b c : String} (h : Respelled a b) (h' : Respelled b c) : Respelled a c

/-- Trimmed and with its capitals made small, a text is the same in all spellings. -/
theorem Respelled.map_toLower_trimChars_eq {a b : String} (h : Respelled a b) :
    (trimChars a.toList).map Char.toLower = (trimChars b.toList).map Char.toLower := by
  induction h with
  | padded before s after hb ha =>
    rw [String.toList_append, String.toList_append, trimChars_append_blank ha,
      trimChars_blank_append hb]
  | recased h => rw [← trimChars_map_toLower, ← trimChars_map_toLower, eq_of_beq h]
  | symm _ ih => exact ih.symm
  | trans _ _ ih ih' => exact ih.trans ih'

end LoanClosing.Text

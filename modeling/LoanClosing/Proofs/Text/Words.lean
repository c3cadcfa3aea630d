import LoanClosing.Text.Ascii
import LoanClosing.Text.Blank
import Mathlib.Data.List.DropRight

/-!
# The words of a text

The words of a text are its maximal runs of characters that are not blank. A text has one list of
them, whatever blanks stand in front of them, after them and between them. Written with one space
between two of them the words stay the same, and the text has no blank at its ends and no other
blank than these spaces.
-/

namespace LoanClosing.Text

variable {cs rest w : List Char} {ws : List (List Char)}

/-! ### Words and runs -/

/-- One or more characters, none of them blank. -/
structure IsWord (w : List Char) : Prop where
  ne_nil : w ≠ []
  not_isBlank : ∀ c ∈ w, isBlank c = false

instance : DecidablePred IsWord := fun w ↦
  decidable_of_iff (w.isEmpty = false ∧ w.all (fun c ↦ !isBlank c) = true)
    ⟨fun ⟨hne, h⟩ ↦ ⟨by simpa using hne, by simpa using h⟩,
      fun ⟨hne, h⟩ ↦ ⟨by simpa using hne, by simpa using h⟩⟩

/-- The maximal runs of characters of a text that are not blank, in order. A blank belongs to no
run, and where a run ends the text ends or goes on with a blank. -/
inductive Runs : List Char → List (List Char) → Prop
  | nil : Runs [] []
  | blank {c : Char} {cs : List Char} {ws : List (List Char)} (hc : isBlank c = true)
      (h : Runs cs ws) : Runs (c :: cs) ws
  | word {w rest : List Char} {ws : List (List Char)} (hw : IsWord w)
      (hr : ∀ c ∈ rest.head?, isBlank c = true) (h : Runs rest ws) : Runs (w ++ rest) (w :: ws)

theorem Runs.isWord (h : Runs cs ws) : ∀ w ∈ ws, IsWord w := by
  induction h with
  | nil => simp
  | blank _ _ ih => exact ih
  | word hw _ _ ih => exact List.forall_mem_cons.2 ⟨hw, ih⟩

theorem IsWord.exists_cons (h : IsWord w) : ∃ c cs, w = c :: cs ∧ isBlank c = false := by
  obtain ⟨c, cs, rfl⟩ := List.exists_cons_of_ne_nil h.ne_nil
  exact ⟨c, cs, rfl, h.not_isBlank c List.mem_cons_self⟩

theorem words_cons_of_blank {c : Char} (h : isBlank c = true) (cs : List Char) :
    words (c :: cs) = words cs := by
  rw [words.eq_def]
  exact if_pos h

/-- A run at the front is the first word. -/
theorem words_append (hw : IsWord w) (hr : ∀ c ∈ rest.head?, isBlank c = true) :
    words (w ++ rest) = w :: words rest := by
  obtain ⟨hne, hw⟩ := hw
  induction w with
  | nil => exact absurd rfl hne
  | cons c w ih =>
    have hc : isBlank c = false := hw c List.mem_cons_self
    cases w with
    | nil =>
      cases rest with
      | nil => simp [words, hc]
      | cons d rest => simp [words, hc, hr d rfl]
    | cons d w =>
      have hd : isBlank d = false := hw d (by simp)
      have ih := ih (List.cons_ne_nil d w) fun e he ↦ hw e (List.mem_cons_of_mem c he)
      rw [List.cons_append] at ih
      rw [List.cons_append, List.cons_append, words, ih]
      simp [hc, hd, consWord]

theorem Runs.words_eq (h : Runs cs ws) : words cs = ws := by
  induction h with
  | nil => rfl
  | blank hc _ ih => rw [words_cons_of_blank hc, ih]
  | word hw hr _ ih => rw [words_append hw hr, ih]

theorem runs_words (cs : List Char) : Runs cs (words cs) := by
  -- A word may take more than one character, so the induction is on the length.
  induction hn : cs.length using Nat.strong_induction_on generalizing cs with
  | _ n ih =>
    cases cs with
    | nil => exact .nil
    | cons c cs =>
      by_cases hc : isBlank c = true
      · rw [words_cons_of_blank hc]
        exact .blank hc (ih _ (by simp [← hn]) cs rfl)
      · let p := fun d ↦ !isBlank d
        have hp : p c = true := by simpa [p] using hc
        have hw : IsWord ((c :: cs).takeWhile p) :=
          ⟨by simp [hp], fun d hd ↦ by simpa [p] using List.mem_takeWhile_imp hd⟩
        have hr : ∀ d ∈ ((c :: cs).dropWhile p).head?, isBlank d = true := by
          intro d hd
          have hstop := List.head?_dropWhile_not p (c :: cs)
          rw [Option.mem_def.1 hd] at hstop
          simpa [p] using hstop
        have hlt : ((c :: cs).dropWhile p).length < n := by
          have := List.length_dropWhile_le p cs
          rw [List.dropWhile_cons_of_pos hp, ← hn, List.length_cons]
          omega
        have hruns := Runs.word hw hr (ih _ hlt _ rfl)
        rwa [← words_append hw hr, List.takeWhile_append_dropWhile] at hruns

/-- The runs of a text are its words. -/
theorem runs_iff : Runs cs ws ↔ ws = words cs :=
  ⟨fun h ↦ h.words_eq.symm, fun h ↦ h ▸ runs_words cs⟩

/-! ### What a text begins with -/

/-- Blanks at the front belong to no word. -/
theorem words_blank_append {blanks : List Char} (h : ∀ c ∈ blanks, isBlank c = true)
    (cs : List Char) : words (blanks ++ cs) = words cs := by
  induction blanks with
  | nil => rfl
  | cons c blanks ih =>
    rw [List.cons_append, words_cons_of_blank (h c List.mem_cons_self),
      ih fun d hd ↦ h d (List.mem_cons_of_mem c hd)]

/-- A text without words is blank. -/
theorem isBlank_of_words_eq_nil (h : words cs = []) : ∀ c ∈ cs, isBlank c = true := by
  have hr := runs_words cs
  rw [h] at hr
  generalize hv : ([] : List (List Char)) = vs at hr
  induction hr with
  | nil => simp
  | blank hc hr ih =>
    obtain rfl := hv
    exact List.forall_mem_cons.2 ⟨hc, ih hr.words_eq rfl⟩
  | word => cases hv

/-- A text with words is blanks, the first word, and a rest with the other words. -/
theorem exists_of_words_eq_cons (h : words cs = w :: ws) :
    ∃ blanks rest, cs = blanks ++ (w ++ rest) ∧ (∀ c ∈ blanks, isBlank c = true) ∧ IsWord w ∧
      (∀ c ∈ rest.head?, isBlank c = true) ∧ words rest = ws := by
  have hr := runs_words cs
  rw [h] at hr
  generalize hv : w :: ws = vs at hr
  induction hr with
  | nil => cases hv
  | blank hc hr ih =>
    obtain rfl := hv
    obtain ⟨blanks, rest, rfl, hb, hrest⟩ := ih hr.words_eq rfl
    exact ⟨_ :: blanks, rest, rfl, List.forall_mem_cons.2 ⟨hc, hb⟩, hrest⟩
  | word hw hr hruns ih =>
    obtain ⟨rfl, rfl⟩ := List.cons.inj hv
    exact ⟨[], _, rfl, by simp, hw, hr, hruns.words_eq⟩

theorem afterBlanks?_eq_some_iff :
    afterBlanks? cs = some rest ↔
      ∃ blanks, cs = blanks ++ rest ∧ blanks ≠ [] ∧ (∀ c ∈ blanks, isBlank c = true) ∧
        ∀ c ∈ rest.head?, isBlank c = false := by
  constructor
  · intro h
    cases cs with
    | nil => cases h
    | cons c cs =>
      simp only [afterBlanks?, Option.ite_none_right_eq_some, Option.some.injEq] at h
      obtain ⟨hc, rfl⟩ := h
      refine ⟨c :: cs.takeWhile isBlank, ?_, List.cons_ne_nil _ _,
        List.forall_mem_cons.2 ⟨hc, fun d hd ↦ List.mem_takeWhile_imp hd⟩, fun d hd ↦ ?_⟩
      · rw [trimStart, List.cons_append, List.takeWhile_append_dropWhile]
      · have hstop := List.head?_dropWhile_not isBlank cs
        rw [trimStart, Option.mem_def] at hd
        rw [hd] at hstop
        simpa using hstop
  · rintro ⟨blanks, rfl, hne, hb, hr⟩
    obtain ⟨c, blanks, rfl⟩ := List.exists_cons_of_ne_nil hne
    obtain ⟨hc, hb⟩ := List.forall_mem_cons.1 hb
    rw [List.cons_append, afterBlanks?, if_pos hc, trimStart, List.dropWhile_append_of_pos hb]
    cases rest with
    | nil => rfl
    | cons d rest => rw [List.dropWhile_cons_of_neg (by simp [hr d rfl])]

theorem suffix_of_afterBlanks? (h : afterBlanks? cs = some rest) : rest <:+ cs := by
  obtain ⟨blanks, rfl, -⟩ := afterBlanks?_eq_some_iff.1 h
  exact List.suffix_append blanks rest

/-- A text that ends with a word does not end with a blank. -/
theorem IsWord.not_isBlank_getLast? (hw : IsWord w) (h : w <:+ cs) :
    ∀ c ∈ cs.getLast?, isBlank c = false := by
  intro c hc
  obtain ⟨front, rfl⟩ := h
  rw [List.getLast?_append_of_ne_nil front hw.ne_nil] at hc
  exact hw.not_isBlank c (List.mem_of_getLast? hc)

/-- The first word of a text that begins with a blank is behind its blanks. -/
theorem exists_afterBlanks?_of_words_eq_cons (h : words cs = w :: ws)
    (hb : ∀ c ∈ cs.head?, isBlank c = true) :
    ∃ rest, afterBlanks? cs = some (w ++ rest) ∧ IsWord w ∧ rest <:+ cs ∧
      (∀ c ∈ rest.head?, isBlank c = true) ∧ words rest = ws := by
  obtain ⟨blanks, rest, rfl, hblanks, hw, hr, hrest⟩ := exists_of_words_eq_cons h
  obtain ⟨c, cs, rfl, hc⟩ := hw.exists_cons
  refine ⟨rest, ?_, hw, ⟨blanks ++ (c :: cs), List.append_assoc ..⟩, hr, hrest⟩
  refine afterBlanks?_eq_some_iff.2 ⟨blanks, rfl, ?_, hblanks, by simpa using hc⟩
  rintro rfl
  exact absurd (hb c rfl) (by simp [hc])

/-- Where a word stands behind blanks, it is the next word. -/
theorem words_of_afterBlanks? (h : afterBlanks? cs = some (w ++ rest))
    (hw : IsWord w) (hr : ∀ c ∈ rest.head?, isBlank c = true) :
    words cs = w :: words rest ∧ ∀ c ∈ cs.head?, isBlank c = true := by
  obtain ⟨blanks, rfl, hne, hb, -⟩ := afterBlanks?_eq_some_iff.1 h
  obtain ⟨c, blanks, rfl⟩ := List.exists_cons_of_ne_nil hne
  exact ⟨by rw [words_blank_append hb, words_append hw hr], by simpa using hb c List.mem_cons_self⟩

theorem identifierAtFront?_eq_some_iff :
    identifierAtFront? cs = some (w, rest) ↔
      cs = w ++ rest ∧ isIdentifier w = true ∧ ∀ c ∈ rest.head?, isIdentifierPart c = false := by
  constructor
  · intro h
    cases cs with
    | nil => cases h
    | cons c cs =>
      simp only [identifierAtFront?, Option.ite_none_right_eq_some, Option.some.injEq,
        Prod.mk.injEq] at h
      obtain ⟨hc, rfl, rfl⟩ := h
      refine ⟨by simp, ?_, fun d hd ↦ ?_⟩
      · rw [isIdentifier, hc, Bool.true_and, List.all_eq_true]
        exact fun d hd ↦ List.mem_takeWhile_imp hd
      · have hstop := List.head?_dropWhile_not isIdentifierPart cs
        rw [Option.mem_def.1 hd] at hstop
        simpa using hstop
  · rintro ⟨rfl, hw, hr⟩
    cases w with
    | nil => cases hw
    | cons c w =>
      rw [isIdentifier, Bool.and_eq_true, List.all_eq_true] at hw
      have hd : rest.dropWhile isIdentifierPart = rest := by
        cases rest with
        | nil => rfl
        | cons d rest => rw [List.dropWhile_cons_of_neg (by simp [hr d rfl])]
      have ht : rest.takeWhile isIdentifierPart = [] := by
        cases rest with
        | nil => rfl
        | cons d rest => rw [List.takeWhile_cons_of_neg (by simp [hr d rfl])]
      rw [List.cons_append, identifierAtFront?, if_pos hw.1, List.dropWhile_append_of_pos hw.2,
        List.takeWhile_append_of_pos hw.2, hd, ht, List.append_nil]

/-- A text is trimmed if it neither begins nor ends with a blank. -/
theorem trimChars_eq_self_iff :
    trimChars cs = cs ↔
      (∀ c ∈ cs.head?, isBlank c = false) ∧ ∀ c ∈ cs.getLast?, isBlank c = false := by
  have hstart (cs : List Char) :
      cs.dropWhile isBlank = cs ↔ ∀ c ∈ cs.head?, isBlank c = false := by
    cases cs with
    | nil => simp
    | cons c cs => simp [List.dropWhile_eq_self_iff]
  have hend : trimEnd cs = cs ↔ ∀ c ∈ cs.getLast?, isBlank c = false := by
    rw [trimEnd, List.reverse_eq_iff, hstart, List.head?_reverse]
  constructor
  · intro h
    have hs : trimStart cs = cs := by
      apply (List.dropWhile_suffix isBlank).eq_of_length_le
      calc cs.length = (trimChars cs).length := by rw [h]
        _ ≤ (trimStart cs).length := by
          rw [trimChars, trimEnd, List.length_reverse]
          exact (List.length_dropWhile_le ..).trans_eq (List.length_reverse ..)
    rw [trimChars, hs] at h
    exact ⟨(hstart cs).1 hs, hend.1 h⟩
  · rintro ⟨hh, hl⟩
    rw [trimChars, trimStart, (hstart cs).2 hh, hend.2 hl]

/-- A trimmed text has no blanks in front of the rest. -/
theorem eq_nil_of_trimChars_blank_append {blanks : List Char}
    (h : trimChars (blanks ++ rest) = blanks ++ rest) (hb : ∀ c ∈ blanks, isBlank c = true) :
    blanks = [] := by
  cases blanks with
  | nil => rfl
  | cons c blanks =>
    have hhead := (trimChars_eq_self_iff.1 h).1 c rfl
    exact absurd (hb c List.mem_cons_self) (by simp [hhead])

/-- Behind its last word a trimmed text has nothing. -/
theorem eq_nil_of_trimChars_of_words (h : trimChars cs = cs) (hr : rest <:+ cs)
    (hw : words rest = []) : rest = [] := by
  rcases List.eq_nil_or_concat rest with rfl | ⟨front, c, rfl⟩
  · rfl
  · have hc : isBlank c = true := isBlank_of_words_eq_nil hw c (by simp)
    obtain ⟨before, rfl⟩ := hr
    have hlast := (trimChars_eq_self_iff.1 h).2 c
    rw [List.concat_eq_append, ← List.append_assoc, List.getLast?_concat] at hlast
    exact absurd (hlast rfl) (by simp [hc])

/-! ### Words with one space in between -/

theorem runs_spaced (h : ∀ w ∈ ws, IsWord w) : Runs ([' '].intercalate ws) ws := by
  induction ws with
  | nil => exact .nil
  | cons w ws ih =>
    obtain ⟨hw, hws⟩ := List.forall_mem_cons.1 h
    cases ws with
    | nil => simpa using Runs.word hw (by simp) .nil
    | cons v ws =>
      rw [List.intercalate_cons_cons, List.append_assoc, List.singleton_append]
      exact .word hw (by simp [isBlank]) (.blank (by decide) (ih hws))

theorem words_spaced (h : ∀ w ∈ ws, IsWord w) : words ([' '].intercalate ws) = ws :=
  (runs_spaced h).words_eq

/-- The text of one word is that word. -/
theorem spaced_eq_iff (h : ∀ w ∈ ws, IsWord w) (hw : IsWord w) :
    [' '].intercalate ws = w ↔ ws = [w] := by
  constructor
  · intro he
    have hv : words ([' '].intercalate [w]) = [w] := words_spaced (by simpa using hw)
    rw [List.intercalate_singleton, ← he, words_spaced h] at hv
    rw [hv, he]
  · rintro rfl
    exact List.intercalate_singleton

theorem exists_spaced_cons (h : IsWord w) (ws : List (List Char)) :
    ∃ c cs, [' '].intercalate (w :: ws) = c :: cs ∧ isBlank c = false := by
  obtain ⟨c, cs, rfl, hc⟩ := h.exists_cons
  exact ⟨c, [' '].intercalate (cs :: ws), List.intercalate_cons_cons_left, hc⟩

/-- The text goes on with a blank where its first word ends. -/
theorem exists_spaced_eq_append (w : List Char) (ws : List (List Char)) :
    ∃ rest, [' '].intercalate (w :: ws) = w ++ rest ∧ ∀ c ∈ rest.head?, isBlank c = true := by
  cases ws with
  | nil => exact ⟨[], by simp, by simp⟩
  | cons v ws => exact ⟨' ' :: [' '].intercalate (v :: ws), by simp, by simp [isBlank]⟩

theorem spaced_ne_nil (h : ∀ w ∈ ws, IsWord w) (hne : ws ≠ []) : [' '].intercalate ws ≠ [] := by
  obtain ⟨w, ws, rfl⟩ := List.exists_cons_of_ne_nil hne
  obtain ⟨c, cs, he, -⟩ := exists_spaced_cons (h w List.mem_cons_self) ws
  exact he ▸ List.cons_ne_nil c cs

theorem trimStart_spaced (h : ∀ w ∈ ws, IsWord w) :
    trimStart ([' '].intercalate ws) = [' '].intercalate ws := by
  cases ws with
  | nil => rfl
  | cons w ws =>
    obtain ⟨c, cs, he, hc⟩ := exists_spaced_cons (h w List.mem_cons_self) ws
    rw [he, trimStart, List.dropWhile_cons_of_neg (by simp [hc])]

theorem not_isBlank_getLast_spaced (h : ∀ w ∈ ws, IsWord w)
    (hne : [' '].intercalate ws ≠ []) : isBlank (([' '].intercalate ws).getLast hne) = false := by
  induction ws with
  | nil => exact absurd rfl hne
  | cons w ws ih =>
    obtain ⟨hw, hws⟩ := List.forall_mem_cons.1 h
    cases ws with
    | nil => simpa using hw.not_isBlank _ (List.getLast_mem hw.ne_nil)
    | cons v ws =>
      have hlast := spaced_ne_nil hws (List.cons_ne_nil v ws)
      simpa [List.getLast_append_right, List.getLast_cons hlast] using ih hws hlast

theorem trimEnd_spaced (h : ∀ w ∈ ws, IsWord w) :
    trimEnd ([' '].intercalate ws) = [' '].intercalate ws :=
  List.rdropWhile_eq_self_iff.2 fun hne ↦ by simp [not_isBlank_getLast_spaced h hne]

theorem trimChars_spaced (h : ∀ w ∈ ws, IsWord w) :
    trimChars ([' '].intercalate ws) = [' '].intercalate ws := by
  rw [trimChars, trimStart_spaced h, trimEnd_spaced h]

/-- The spaces in between are the only blanks. -/
theorem eq_space_of_mem_spaced (h : ∀ w ∈ ws, IsWord w) {c : Char} (hb : isBlank c = true)
    (hc : c ∈ [' '].intercalate ws) : c = ' ' := by
  induction ws with
  | nil => simp at hc
  | cons w ws ih =>
    obtain ⟨hw, hws⟩ := List.forall_mem_cons.1 h
    have hout : c ∉ w := fun hc ↦ by simp [hw.not_isBlank c hc] at hb
    cases ws with
    | nil => exact absurd (by simpa using hc) hout
    | cons v ws =>
      rw [List.intercalate_cons_cons, List.append_assoc, List.singleton_append] at hc
      rcases List.mem_append.1 hc with hc | hc
      · exact absurd hc hout
      · exact (List.mem_cons.1 hc).elim id (ih hws)

/-! ### Dotted names -/

theorem splitAt_eq_splitOn (separator : Char) (cs : List Char) :
    splitAt separator cs = cs.splitOn separator := by
  induction cs with
  | nil => rfl
  | cons c cs ih =>
    obtain ⟨piece, pieces, hs⟩ := List.exists_cons_of_ne_nil (List.splitOn_ne_nil separator cs)
    rw [splitAt, List.splitOn_cons_eq_if_modifyHead, ih, hs]
    rfl

theorem isBlank_of_isIdentifierPart {c : Char} (h : isIdentifierPart c = true) :
    isBlank c = false := by
  have hrange : 48 ≤ c.toNat ∧ c.toNat < 128 := by
    unfold isIdentifierPart Char.isAlphanum Char.isAlpha Char.isUpper Char.isLower Char.isDigit at h
    simp only [Bool.or_eq_true, Bool.and_eq_true, decide_eq_true_eq, beq_iff_eq, ge_iff_le,
      UInt32.le_iff_toNat_le] at h
    have : '9'.val.toNat = 57 := rfl
    have : '0'.val.toNat = 48 := rfl
    have : 'A'.val.toNat = 65 := rfl
    have : 'Z'.val.toNat = 90 := rfl
    have : 'a'.val.toNat = 97 := rfl
    have : 'z'.val.toNat = 122 := rfl
    have hval : c.toNat = c.val.toNat := rfl
    rcases h with h | rfl
    · omega
    · decide
  rw [isBlank]
  simp only [Bool.or_eq_false_iff, Bool.and_eq_false_iff, decide_eq_false_iff_not,
    beq_eq_false_iff_ne]
  omega

/-- An identifier is one word. -/
theorem isWord_of_isIdentifier (h : isIdentifier w = true) : IsWord w := by
  cases w with
  | nil => cases h
  | cons c cs =>
    rw [isIdentifier, Bool.and_eq_true, List.all_eq_true] at h
    refine ⟨List.cons_ne_nil c cs, List.forall_mem_cons.2 ⟨?_, fun d hd ↦
      isBlank_of_isIdentifierPart (h.2 d hd)⟩⟩
    apply isBlank_of_isIdentifierPart
    simp only [isIdentifierStart, isIdentifierPart, Char.isAlphanum, Bool.or_eq_true] at h ⊢
    exact h.1.imp_left .inl

theorem point_notMem_of_isIdentifier (h : isIdentifier w = true) : '.' ∉ w := by
  cases w with
  | nil => simp
  | cons c cs =>
    simp only [isIdentifier, Bool.and_eq_true, List.all_eq_true] at h
    intro hp
    rcases List.mem_cons.1 hp with rfl | hp
    · exact absurd h.1 (by decide)
    · exact absurd (h.2 _ hp) (by decide)

/-- A dotted name is one or more identifiers with a point between two of them. -/
theorem isDottedName_iff : isDottedName cs = true ↔
    ∃ names, names ≠ [] ∧ (∀ name ∈ names, isIdentifier name = true) ∧
      cs = ['.'].intercalate names := by
  rw [isDottedName, splitAt_eq_splitOn, List.all_eq_true]
  constructor
  · exact fun h ↦ ⟨cs.splitOn '.', List.splitOn_ne_nil _ _, h, (List.intercalate_splitOn '.').symm⟩
  · rintro ⟨names, hne, h, rfl⟩
    have hp : ∀ name ∈ names, '.' ∉ name := fun name hn ↦ point_notMem_of_isIdentifier (h name hn)
    rwa [List.splitOn_intercalate '.' hp hne]

/-- A dotted name is one word. -/
theorem isWord_of_isDottedName (h : isDottedName cs = true) : IsWord cs := by
  obtain ⟨names, hne, hn, rfl⟩ := isDottedName_iff.1 h
  obtain ⟨name, names, rfl⟩ := List.exists_cons_of_ne_nil hne
  clear h hne
  induction names generalizing name with
  | nil => simpa using isWord_of_isIdentifier (hn name List.mem_cons_self)
  | cons other names ih =>
    obtain ⟨hname, hothers⟩ := List.forall_mem_cons.1 hn
    have hword := ih other hothers
    rw [List.intercalate_cons_cons]
    refine ⟨by simp, fun c hc ↦ ?_⟩
    rcases List.mem_append.1 hc with hc | hc
    · rcases List.mem_append.1 hc with hc | hc
      · exact (isWord_of_isIdentifier hname).not_isBlank c hc
      · obtain rfl := List.mem_singleton.1 hc
        decide
    · exact hword.not_isBlank c hc

end LoanClosing.Text

import LoanClosing.Proofs.Condition.Lexeme

/-!
# From what authors write to the strict spelling

Normalizing and marking go through a condition from left to right and know only whether a quote is
open and which character came before. Each of them turns a lexeme of one style into a lexeme of the
next, with what stands behind it rewritten in the same way, as long as the neighbours fit. Since
operands and signs take turns they do, and a spelling stays a spelling of the same tokens.
-/

namespace LoanClosing.Condition

/-! ## Neighbours -/

/-- Tokens stay apart from what is behind them when the characters that meet still do not join. -/
theorem Apart.of_ends {token : Token} {w w' rest rest' : List Char} (h : Apart token w rest)
    (hw : w'.getLast?.any Text.isIdentifierPart = w.getLast?.any Text.isIdentifierPart)
    (hr : rest'.head?.any Text.isIdentifierPart = true →
      rest.head?.any Text.isIdentifierPart = true) : Apart token w' rest' := by
  intro ht hl
  by_contra hh
  rw [Bool.not_eq_false] at hh
  rw [hw] at hl
  have := h ht hl
  rw [hr hh] at this
  exact absurd this (by decide)

/-- No character of an identifier stands right behind a reserved word. -/
theorem Apart.behind_reserved {token : Token} {word : String} {letters rest : List Char}
    (h : Apart token letters rest) (hm : (word, token) ∈ reservedWords)
    (hl : letters.map Char.toLower = word.toList) :
    rest.head?.any Text.isIdentifierPart = false := by
  obtain ⟨hne, ha⟩ := isAlpha_of_reserved hm hl
  have hnumber : ∀ p ∈ reservedWords, ∀ amount, p.2 ≠ .literal (.number amount) := by
    simp [reservedWords]
  apply h (hnumber _ hm)
  rw [List.getLast?_eq_some_getLast hne]
  exact isIdentifierPart_of_isAlpha (ha _ (List.getLast_mem hne))

/-- No character of an identifier stands right behind a path. -/
theorem Apart.behind_path {segments : List String} {marker rest : List Char} {head : String}
    {more : List String} (h : Apart (.path segments) (marker ++ dotted head more) rest)
    (hi : ∀ segment ∈ head :: more, Text.isIdentifier segment.toList = true) :
    rest.head?.any Text.isIdentifierPart = false := by
  obtain ⟨c, hc, hp⟩ := exists_getLast?_dotted hi
  apply h (by simp)
  rw [List.getLast?_append, hc]
  exact hp

theorem getLast?_cons_or (c : Char) (w : List Char) (before : Option Char) :
    (c :: w).getLast?.or before = w.getLast?.or (some c) := by
  rw [List.getLast?_cons]
  cases w.getLast? <;> rfl

/-- The character behind a gap has a gap character before it, or what was before an empty gap. -/
theorem any_getLast?_or_of_gap {p : Char → Bool} {gap : List Char} {before : Option Char}
    (hg : gap.all isGap = true) (hp : ∀ c, isGap c = true → p c = false)
    (h : (gap.getLast?.or before).any p = true) : gap = [] ∧ before.any p = true := by
  cases hl : gap.getLast? with
  | none =>
    rw [hl] at h
    exact ⟨List.getLast?_eq_none_iff.1 hl, h⟩
  | some c =>
    rw [hl] at h
    have hc := List.all_eq_true.1 hg c (List.mem_of_getLast? hl)
    have : p c = true := h
    rw [hp c hc] at this
    exact absurd this (by decide)

theorem joinsEquals_of_isGap {c : Char} (h : isGap c = true) : joinsEquals c = false :=
  of_isGap (p := fun c ↦ joinsEquals c = false) (by decide) h

theorem joinsWord_of_isGap {c : Char} (h : isGap c = true) : joinsWord c = false :=
  of_isGap (p := fun c ↦ joinsWord c = false) (by decide) h

theorem isIdentifierStart_of_isGap {c : Char} (h : isGap c = true) :
    Text.isIdentifierStart c = false :=
  of_isGap (p := fun c ↦ Text.isIdentifierStart c = false) (by decide) h

/-! ## What stays ordinary -/

theorem isOrdinary_of_mem_gap {gap : List Char} (h : gap.all isGap = true) :
    ∀ c ∈ gap, isOrdinary c = true :=
  fun c hc ↦ isOrdinary_of_isGap (List.all_eq_true.1 h c hc)

theorem isOrdinary_of_mem_reserved {letters : List Char} {word : String} {token : Token}
    (h : (word, token) ∈ reservedWords) (hl : letters.map Char.toLower = word.toList) :
    ∀ c ∈ letters, isOrdinary c = true :=
  fun c hc ↦ isOrdinary_of_isIdentifierPart
    (isIdentifierPart_of_isAlpha ((isAlpha_of_reserved h hl).2 c hc))

/-- A number consists of digits, a minus and a point. -/
theorem IsNumeral.mem {minus whole places : List Char} (h : IsNumeral minus whole places) :
    ∀ c ∈ minus ++ whole ++ places, c.isDigit = true ∨ c = '-' ∨ c = '.' := by
  obtain ⟨hm, hw, hp⟩ := h
  intro c hc
  simp only [List.mem_append] at hc
  rcases hc with (hc | hc) | hc
  · rcases hm with rfl | rfl
    · exact absurd hc List.not_mem_nil
    · exact .inr (.inl (List.mem_singleton.1 hc))
  · exact .inl (hw.2 c hc)
  · rcases hp with rfl | ⟨digits, rfl, hd⟩
    · exact absurd hc List.not_mem_nil
    · rcases List.mem_cons.1 hc with rfl | hc
      · exact .inr (.inr rfl)
      · exact .inl (hd.2 c hc)

theorem IsNumeral.isOrdinary {minus whole places : List Char} (h : IsNumeral minus whole places) :
    ∀ c ∈ minus ++ whole ++ places, isOrdinary c = true := by
  intro c hc
  rcases h.mem c hc with hd | rfl | rfl
  · exact isOrdinary_of_isIdentifierPart (isIdentifierPart_of_isDigit hd)
  · decide
  · decide

/-- No word begins in a number. -/
theorem IsNumeral.isIdentifierStart_eq_false {minus whole places : List Char}
    (h : IsNumeral minus whole places) :
    ∀ c ∈ minus ++ whole ++ places, Text.isIdentifierStart c = false := by
  intro c hc
  rcases h.mem c hc with hd | rfl | rfl
  · exact isIdentifierStart_of_isDigit hd
  · decide
  · decide

theorem isOrdinary_of_mem_dotted {head : String} {more : List String}
    (h : ∀ segment ∈ head :: more, Text.isIdentifier segment.toList = true) :
    ∀ c ∈ dotted head more, isOrdinary c = true := by
  intro c hc
  rcases mem_dotted h c hc with hp | rfl
  · exact isOrdinary_of_isIdentifierPart hp
  · decide

/-! ## Plain quotes -/

/-- A plain quote stands for itself. -/
theorem eq_of_mem_plainQuotes {quote form : Char} (h : (quote, form) ∈ plainQuotes) :
    form = quote ∧ isQuote quote = true := by
  have hall : ∀ p ∈ plainQuotes, p.2 = p.1 ∧ isQuote p.1 = true := by decide
  exact hall _ h

theorem map_foldQuote {cs : List Char} (h : ∀ c ∈ cs, foldQuote c = c) :
    cs.map foldQuote = cs := by
  rw [List.map_congr_left h, List.map_id']

theorem map_foldQuote_of_isOrdinary {cs : List Char} (h : ∀ c ∈ cs, isOrdinary c = true) :
    cs.map foldQuote = cs :=
  map_foldQuote fun c hc ↦ foldQuote_of_isOrdinary (h c hc)

/-- Folding quotes makes no character part of an identifier or takes one out. -/
theorem isIdentifierPart_foldQuote (c : Char) :
    Text.isIdentifierPart (foldQuote c) = Text.isIdentifierPart c := by
  by_cases hm : c ∈ typographicQuotes.map Prod.snd
  · obtain ⟨p, hp, rfl⟩ := List.mem_map.1 hm
    have hall : ∀ p ∈ typographicQuotes,
        Text.isIdentifierPart (foldQuote p.2) = Text.isIdentifierPart p.2 := by decide
    exact hall p hp
  · rw [foldQuote_of_notMem hm]

section

variable {names : List String} {token : Token} {w : List Char}

/-- Folding quotes turns what authors write for a token into a spelling with plain quotes. -/
theorem Lexeme.straight (h : Lexeme .authored names token w) :
    Lexeme .straight names token (w.map foldQuote) := by
  cases h with
  | sign h =>
    have hall : ∀ p ∈ strictSigns ++ looseSigns, p.1.map foldQuote = p.1 := by decide
    rw [hall _ h]
    exact .sign h
  | word h hl =>
    rw [map_foldQuote_of_isOrdinary (isOrdinary_of_mem_reserved h hl)]
    exact .word h hl
  | number h ha =>
    rw [map_foldQuote_of_isOrdinary h.isOrdinary]
    exact .number h ha
  | @text quote opening closing body ho hc hq hb =>
    have hall : ∀ p ∈ plainQuotes ++ typographicQuotes,
        foldQuote p.2 = p.1 ∧ (p.1, p.1) ∈ plainQuotes := by decide
    have hbody : body.map foldQuote = body := by
      apply map_foldQuote
      intro c hm
      apply foldQuote_of_notMem
      intro hm'
      obtain ⟨p, hp, rfl⟩ := List.mem_map.1 hm'
      exact hb p hp hm
    have hw : (opening :: body ++ [closing]).map foldQuote = quote :: body ++ [quote] := by
      rw [List.map_append, List.map_cons, (hall _ ho).1, hbody, List.map_singleton, (hall _ hc).1]
    rw [hw]
    exact .text (hall _ ho).2 (hall _ ho).2 hq hb
  | path hn h =>
    rw [show Style.authored.marker = [] from rfl, List.nil_append,
      map_foldQuote_of_isOrdinary (isOrdinary_of_mem_dotted h)]
    exact .path hn h

/-- Folding quotes turns what authors write into a spelling with plain quotes. -/
theorem Spells.straight {tokens : List Token} {cs : List Char}
    (h : Spells .authored names tokens cs) : Spells .straight names tokens (cs.map foldQuote) := by
  have hgap : ∀ {gap : List Char}, gap.all isGap = true → gap.map foldQuote = gap :=
    fun hg ↦ map_foldQuote_of_isOrdinary (isOrdinary_of_mem_gap hg)
  induction h with
  | nil gap hg =>
    rw [hgap hg]
    exact .nil gap hg
  | cons gap w rest hg hw ha _ ih =>
    rw [List.map_append, List.map_append, hgap hg]
    refine .cons gap _ _ hg hw.straight (ha.of_ends ?_ ?_) ih
    · cases hl : w.getLast? <;> simp [hl, isIdentifierPart_foldQuote]
    · cases hh : rest.head? <;> simp [hh, isIdentifierPart_foldQuote]

end

/-! ## One sign for each comparison -/

section

variable {before : Option Char} {rest : List Char}

theorem relax_other {c : Char} (hq : isQuote c = false) (hl : c ≠ '<') (he : c ≠ '=') :
    relax none before (c :: rest) = c :: relax none (some c) rest := by
  rw [relax]
  · simp [hq, he]
  · exact fun _ h ↦ absurd h hl

theorem relax_less (h : rest.head? ≠ some '>') :
    relax none before ('<' :: rest) = '<' :: relax none (some '<') rest := by
  rw [relax]
  · simp [isQuote]
  · rintro more - rfl
    exact h rfl

theorem relax_equals (h : before.any joinsEquals = true ∨ rest.head? = some '=') :
    relax none before ('=' :: rest) = '=' :: relax none (some '=') rest := by
  rw [relax]
  · rcases h with h | h <;> simp [isQuote, h]
  · exact fun _ h ↦ absurd h (by decide)

theorem relax_loneEquals (h : before.any joinsEquals = false) (hr : rest.head? ≠ some '=') :
    relax none before ('=' :: rest) = '=' :: '=' :: relax none (some '=') rest := by
  rw [relax]
  · simp [isQuote, h, hr]
  · exact fun _ h ↦ absurd h (by decide)

/-- Rewriting operators writes no other characters than those of operators. -/
theorem mem_relax {quote before : Option Char} {cs : List Char} {c : Char}
    (h : c ∈ relax quote before cs) : c ∈ cs ∨ c = '=' ∨ c = '!' := by
  revert h
  fun_induction relax quote before cs with
  | case1 => exact .inl
  | _ => grind

theorem relax_of_isOrdinary {w : List Char} (h : ∀ c ∈ w, isOrdinary c = true) :
    relax none before (w ++ rest) = w ++ relax none (w.getLast?.or before) rest := by
  induction w generalizing before with
  | nil => simp
  | cons c w ih =>
    rw [List.forall_mem_cons] at h
    have hl : c ≠ '<' := by rintro rfl; exact absurd h.1 (by decide)
    have he : c ≠ '=' := by rintro rfl; exact absurd h.1 (by decide)
    rw [List.cons_append, relax_other (isQuote_of_isOrdinary h.1) hl he, ih h.2, getLast?_cons_or]
    rfl

/-- What stands between quotes stays. -/
theorem relax_quoted {quote : Char} {body : List Char} (hq : isQuote quote = true)
    (h : quote ∉ body) :
    relax none before (quote :: (body ++ quote :: rest)) =
      quote :: (body ++ quote :: relax none (some quote) rest) := by
  have hin : ∀ before, relax (some quote) before (body ++ quote :: rest) =
      body ++ quote :: relax none (some quote) rest := by
    induction body with
    | nil => simp [relax]
    | cons c body ih =>
      intro before
      rw [List.mem_cons, not_or] at h
      rw [List.cons_append, relax, if_neg (Ne.symm h.1), ih h.2]
      rfl
  rw [relax_quote hq, hin]

/-- A sign of the strict style stays. -/
theorem relax_strictSign {sign : List Char} {token : Token} (h : (sign, token) ∈ strictSigns)
    (hr : token.closes = false → rest.head? ≠ some '=' ∧ rest.head? ≠ some '>') :
    relax none before (sign ++ rest) = sign ++ relax none sign.getLast? rest := by
  simp only [strictSigns, List.mem_cons, Prod.mk.injEq, List.not_mem_nil, or_false] at h
  rcases h with ⟨rfl, rfl⟩ | ⟨rfl, rfl⟩ | ⟨rfl, rfl⟩ | ⟨rfl, rfl⟩ | ⟨rfl, rfl⟩ | ⟨rfl, rfl⟩ |
    ⟨rfl, rfl⟩ | ⟨rfl, rfl⟩ | ⟨rfl, rfl⟩ | ⟨rfl, rfl⟩ | ⟨rfl, rfl⟩
  -- Only a `<` looks at what stands behind it.
  all_goals first
    | simp [relax_other, relax_equals, isQuote, joinsEquals]; done
    | simp [relax_less, hr rfl]; done
    | rw [List.cons_append, relax_less (by simp)]; simp [relax_equals, joinsEquals]

/-- A sign becomes the sign that the strict style has for its token. -/
theorem relax_sign {sign : List Char} {token : Token}
    (h : (sign, token) ∈ strictSigns ++ looseSigns)
    (hb : token.opens = false → before.any joinsEquals = false)
    (hr : token.closes = false → rest.head? ≠ some '=' ∧ rest.head? ≠ some '>') :
    ∃ strict, (strict, token) ∈ strictSigns ∧
      relax none before (sign ++ rest) = strict ++ relax none sign.getLast? rest := by
  rw [List.mem_append] at h
  rcases h with h | h
  · exact ⟨sign, h, relax_strictSign h hr⟩
  · simp only [looseSigns, List.mem_cons, Prod.mk.injEq, List.not_mem_nil, or_false] at h
    rcases h with ⟨rfl, rfl⟩ | ⟨rfl, rfl⟩
    · exact ⟨['=', '='], by decide, relax_loneEquals (hb rfl) (hr rfl).1⟩
    · exact ⟨['!', '='], by decide, by simp [relax, isQuote]⟩

/-- Normalizing puts no character of an identifier in front. -/
theorem head?_relax (h : (relax none before rest).head?.any Text.isIdentifierPart = true) :
    rest.head?.any Text.isIdentifierPart = true := by
  cases rest with
  | nil => exact absurd h (by simp [relax])
  | cons c rest =>
    unfold relax at h
    split at h
    · exact h
    · split at h
      · exact absurd (show Text.isIdentifierPart '!' = true from h) (by decide)
      · split at h
        · exact absurd (show Text.isIdentifierPart '=' = true from h) (by decide)
        · exact h

end

section

variable {names : List String} {token : Token} {w rest : List Char} {before : Option Char}

/-- Normalizing rewrites a lexeme by itself, and what stands behind it as it would without. -/
theorem Lexeme.uniform (h : Lexeme .straight names token w)
    (hb : token.opens = false → before.any joinsEquals = false)
    (hr : token.closes = false → Begins true rest) :
    ∃ strict, Lexeme .uniform names token strict ∧
      relax none before (w ++ rest) = strict ++ relax none w.getLast? rest ∧
      strict.getLast?.any Text.isIdentifierPart = w.getLast?.any Text.isIdentifierPart := by
  -- What is ordinary stays.
  have of_ordinary : Lexeme .uniform names token w → (∀ c ∈ w, isOrdinary c = true) →
      ∃ strict, Lexeme .uniform names token strict ∧
        relax none before (w ++ rest) = strict ++ relax none w.getLast? rest ∧
        strict.getLast?.any Text.isIdentifierPart = w.getLast?.any Text.isIdentifierPart := by
    intro hw ho
    obtain ⟨c, hc, -, -⟩ := hw.exists_getLast?
    refine ⟨w, hw, ?_, rfl⟩
    rw [relax_of_isOrdinary ho, hc]
    rfl
  cases h with
  | sign h =>
    have hr' : token.closes = false → rest.head? ≠ some '=' ∧ rest.head? ≠ some '>' :=
      fun ht ↦ ⟨fun he ↦ (hr ht _ he).1 rfl, fun he ↦ (hr ht _ he).2 rfl⟩
    have hall : ∀ p ∈ strictSigns ++ looseSigns,
        p.1.getLast?.any Text.isIdentifierPart = false := by decide
    obtain ⟨strict, hs, he⟩ := relax_sign h hb hr'
    exact ⟨strict, .sign hs, he, by rw [hall _ h, hall _ (List.mem_append_left _ hs)]⟩
  | word h hl => exact of_ordinary (.word h hl) (isOrdinary_of_mem_reserved h hl)
  | number h ha => exact of_ordinary (.number h ha) h.isOrdinary
  | text ho hc hq ht =>
    obtain ⟨rfl, hquote⟩ := eq_of_mem_plainQuotes ho
    obtain ⟨rfl, -⟩ := eq_of_mem_plainQuotes hc
    refine ⟨_, .text ho hc hq ht, ?_, rfl⟩
    rw [List.getLast?_concat]
    simpa using relax_quoted hquote hq
  | path hn h => exact of_ordinary (.path hn h) (isOrdinary_of_mem_dotted h)

/-- Normalizing a spelling with plain quotes leaves one sign for each comparison. -/
theorem Spells.uniform {tokens : List Token} {cs : List Char} {awaited : Bool}
    (h : Spells .straight names tokens cs) (ht : TakesTurns awaited tokens)
    (hb : awaited = false → before.any joinsEquals = false) :
    Spells .uniform names tokens (relax none before cs) := by
  induction h generalizing awaited before with
  | nil gap hg =>
    have hgap : relax none before (gap ++ []) = gap ++ [] := by
      rw [relax_of_isOrdinary (isOrdinary_of_mem_gap hg), relax]
    rw [List.append_nil] at hgap
    rw [hgap]
    exact .nil gap hg
  | @cons token tokens gap w rest hg hw ha h ih =>
    obtain ⟨ho, ht⟩ := ht
    have hb' : token.opens = false → (gap.getLast?.or before).any joinsEquals = false := by
      intro hopens
      by_contra hj
      rw [Bool.not_eq_false] at hj
      have := (any_getLast?_or_of_gap hg (fun c ↦ joinsEquals_of_isGap) hj).2
      rw [hb (ho.symm.trans hopens)] at this
      exact absurd this (by decide)
    have hr : token.closes = false → Begins true rest := by
      intro hcloses
      rw [hcloses] at ht
      exact h.begins ht
    have hnext : (!token.closes) = false → w.getLast?.any joinsEquals = false := by
      intro hcloses
      obtain ⟨c, hc, -, hj⟩ := hw.exists_getLast?
      rw [hc]
      exact hj (by simpa using hcloses)
    obtain ⟨strict, hs, he, hl⟩ := hw.uniform hb' hr
    rw [List.append_assoc, relax_of_isOrdinary (isOrdinary_of_mem_gap hg), he, ← List.append_assoc]
    exact .cons gap strict _ hg hs (ha.of_ends hl head?_relax) (ih ht hnext)

end

/-! ## A mark in front of each path -/

section

variable {names : List String} {before : Option Char} {rest : List Char}

/-- A character outside of quotes that begins no word stays. -/
theorem mark_of_not_start {c : Char} (hq : isQuote c = false)
    (h : Text.isIdentifierStart c = false ∨ before.any joinsWord = true) :
    mark names none before (c :: rest) = c :: mark names none (some c) rest := by
  rw [mark, if_neg (by rw [hq]; decide), if_neg]
  rcases h with h | h <;> simp [h]

theorem mark_of_not_starts {w : List Char}
    (h : ∀ c ∈ w, isQuote c = false ∧ Text.isIdentifierStart c = false) :
    mark names none before (w ++ rest) = w ++ mark names none (w.getLast?.or before) rest := by
  induction w generalizing before with
  | nil => simp
  | cons c w ih =>
    rw [List.forall_mem_cons] at h
    rw [List.cons_append, mark_of_not_start h.1.1 (.inl h.1.2), ih h.2, getLast?_cons_or]
    rfl

theorem mark_gap {gap : List Char} (hg : gap.all isGap = true) :
    mark names none before (gap ++ rest) =
      gap ++ mark names none (gap.getLast?.or before) rest := by
  apply mark_of_not_starts
  exact fun c hc ↦ ⟨isQuote_of_isOrdinary (isOrdinary_of_mem_gap hg c hc),
    isIdentifierStart_of_isGap (List.all_eq_true.1 hg c hc)⟩

theorem not_start_of_mem_strictSigns {sign : List Char} {token : Token}
    (h : (sign, token) ∈ strictSigns) :
    ∀ c ∈ sign, isQuote c = false ∧ Text.isIdentifierStart c = false := by
  have hall : ∀ p ∈ strictSigns,
      p.1.all (fun c ↦ !isQuote c && !Text.isIdentifierStart c) = true := by decide
  intro c hc
  have hchar := List.all_eq_true.1 (hall _ h) c hc
  rwa [Bool.and_eq_true, Bool.not_eq_true', Bool.not_eq_true'] at hchar

/-- What goes on with a word, a number or a path stays. -/
theorem mark_of_joinsWord {w : List Char} (hb : before.any joinsWord = true)
    (h : ∀ c ∈ w, joinsWord c = true) :
    mark names none before (w ++ rest) = w ++ mark names none (w.getLast?.or before) rest := by
  induction w generalizing before with
  | nil => simp
  | cons c w ih =>
    rw [List.forall_mem_cons] at h
    have hq : isQuote c = false := by
      rw [isQuote, Bool.or_eq_false_iff, beq_eq_false_iff_ne, beq_eq_false_iff_ne]
      constructor <;> (rintro rfl; exact absurd h.1 (by decide))
    have hc : (some c).any joinsWord = true := h.1
    rw [List.cons_append, mark_of_not_start hq (.inr hb), ih hc h.2, getLast?_cons_or]
    rfl

theorem mark_quoted {quote : Char} {body : List Char} (hq : isQuote quote = true)
    (h : quote ∉ body) :
    mark names none before (quote :: (body ++ quote :: rest)) =
      quote :: (body ++ quote :: mark names none (some quote) rest) := by
  have hin : ∀ before, mark names (some quote) before (body ++ quote :: rest) =
      body ++ quote :: mark names none (some quote) rest := by
    induction body with
    | nil => simp [mark]
    | cons c body ih =>
      intro before
      rw [List.mem_cons, not_or] at h
      rw [List.cons_append, mark, if_neg (Ne.symm h.1), ih h.2]
      rfl
  rw [mark, if_pos hq, hin]

theorem joinsWord_of_isIdentifierPart {c : Char} (h : Text.isIdentifierPart c = true) :
    joinsWord c = true := by
  simp [joinsWord, h]

/-- A reserved word stays: it is no name in scope. -/
theorem mark_reserved {letters : List Char} {word : String} {token : Token}
    (h : (word, token) ∈ reservedWords) (hl : letters.map Char.toLower = word.toList)
    (hn : ∀ name ∈ names, ¬ IsReserved name)
    (hr : rest.head?.any Text.isIdentifierPart = false) :
    mark names none before (letters ++ rest) =
      letters ++ mark names none letters.getLast? rest := by
  obtain ⟨hne, ha⟩ := isAlpha_of_reserved h hl
  have hp : ∀ c ∈ letters, Text.isIdentifierPart c = true :=
    fun c hc ↦ isIdentifierPart_of_isAlpha (ha c hc)
  have hno : names.contains (String.ofList letters) = false := by
    by_contra hm
    rw [Bool.not_eq_false, List.contains_iff_mem] at hm
    exact hn _ hm ⟨_, h, by rw [String.toList_ofList, hl]⟩
  obtain ⟨c, more, rfl⟩ := List.exists_cons_of_ne_nil hne
  have hq := isQuote_of_isOrdinary (isOrdinary_of_mem_reserved h hl c List.mem_cons_self)
  have hmore : mark names none (some c) (more ++ rest) =
      more ++ mark names none (more.getLast?.or (some c)) rest :=
    mark_of_joinsWord (joinsWord_of_isIdentifierPart (hp c List.mem_cons_self))
      fun d hd ↦ joinsWord_of_isIdentifierPart (hp d (List.mem_cons_of_mem _ hd))
  rw [List.cons_append, mark, if_neg (by rw [hq]; decide), if_neg, hmore,
    ← getLast?_cons_or c more none, Option.or_none]
  · rfl
  · rw [← List.cons_append, takeWhile_append_of_head? hp hr, hno]
    simp

/-- A path gets its mark where no word goes on: its head is a name in scope. -/
theorem mark_dotted {head : String} {more : List String} (hn : head ∈ names)
    (h : ∀ segment ∈ head :: more, Text.isIdentifier segment.toList = true)
    (hb : before.any joinsWord = false) (hr : rest.head?.any Text.isIdentifierPart = false) :
    mark names none before (dotted head more ++ rest) =
      '@' :: dotted head more ++ mark names none (dotted head more).getLast? rest := by
  have hword : (dotted head more ++ rest).takeWhile Text.isIdentifierPart = head.toList := by
    obtain ⟨-, -, -, -, hp⟩ := exists_of_isIdentifier (h head List.mem_cons_self)
    cases more with
    | nil => exact takeWhile_append_of_head? hp hr
    | cons next more =>
      rw [dotted, List.append_assoc]
      exact takeWhile_append_of_head? hp rfl
  have hjoins : ∀ c ∈ dotted head more, joinsWord c = true := by
    intro c hc
    rcases mem_dotted h c hc with hp | rfl
    · exact joinsWord_of_isIdentifierPart hp
    · decide
  have hquote : ∀ c ∈ dotted head more, isQuote c = false :=
    fun c hc ↦ isQuote_of_isOrdinary (isOrdinary_of_mem_dotted h c hc)
  obtain ⟨c, tail, hd, hs⟩ : ∃ c tail, dotted head more = c :: tail ∧
      Text.isIdentifierStart c = true := exists_dotted_eq (h head List.mem_cons_self)
  rw [hd] at hword hjoins hquote ⊢
  rw [List.forall_mem_cons] at hjoins
  have htail : mark names none (some c) (tail ++ rest) =
      tail ++ mark names none (tail.getLast?.or (some c)) rest :=
    mark_of_joinsWord hjoins.1 hjoins.2
  rw [List.cons_append, mark, if_neg (by rw [hquote c List.mem_cons_self]; decide), if_pos, htail,
    ← getLast?_cons_or c tail none, Option.or_none]
  · rfl
  · rw [← List.cons_append, hword, hs, hb, String.ofList_toList]
    simpa using hn

/-- Marking puts no character of an identifier in front. -/
theorem head?_mark (h : (mark names none before rest).head?.any Text.isIdentifierPart = true) :
    rest.head?.any Text.isIdentifierPart = true := by
  cases rest with
  | nil => exact absurd h (by simp [mark])
  | cons c rest =>
    rw [mark] at h
    split at h
    · exact h
    · split at h
      · exact absurd (show Text.isIdentifierPart '@' = true from h) (by decide)
      · exact h

end

section

variable {names : List String} {token : Token} {w rest : List Char} {before : Option Char}

/-- Marking rewrites a lexeme by itself, and what stands behind it as it would without. -/
theorem Lexeme.marked (h : Lexeme .uniform names token w)
    (hn : ∀ name ∈ names, ¬ IsReserved name)
    (hb : token.opens = true → before.any joinsWord = true →
      w.head?.any Text.isIdentifierPart = false) (ha : Apart token w rest) :
    ∃ marked, Lexeme .marked names token marked ∧
      mark names none before (w ++ rest) = marked ++ mark names none w.getLast? rest ∧
      marked.getLast? = w.getLast? := by
  have hend := h.exists_getLast?
  -- What holds neither a quote nor the first letter of a word stays.
  have of_not_starts : (∀ c ∈ w, isQuote c = false ∧ Text.isIdentifierStart c = false) →
      mark names none before (w ++ rest) = w ++ mark names none w.getLast? rest := by
    intro hw
    obtain ⟨c, hc, -, -⟩ := hend
    rw [mark_of_not_starts hw, hc]
    rfl
  cases h with
  | sign h => exact ⟨w, .sign h, of_not_starts (not_start_of_mem_strictSigns h), rfl⟩
  | word h hl =>
    exact ⟨w, .word h hl, mark_reserved h hl hn (ha.behind_reserved h hl), rfl⟩
  | number h hd =>
    exact ⟨_, .number h hd, of_not_starts fun c hc ↦
      ⟨isQuote_of_isOrdinary (h.isOrdinary c hc), h.isIdentifierStart_eq_false c hc⟩, rfl⟩
  | text ho hc hq ht =>
    obtain ⟨rfl, hquote⟩ := eq_of_mem_plainQuotes ho
    obtain ⟨rfl, -⟩ := eq_of_mem_plainQuotes hc
    refine ⟨_, .text ho hc hq ht, ?_, rfl⟩
    rw [List.getLast?_concat]
    simpa using mark_quoted hquote hq
  | @path head more hm h =>
    -- A path begins like a word, so that what is before it cannot join it.
    have hhead : (dotted head more).head?.any Text.isIdentifierPart = true := by
      obtain ⟨c, tail, hd, hs⟩ : ∃ c tail, dotted head more = c :: tail ∧
          Text.isIdentifierStart c = true := exists_dotted_eq (h head List.mem_cons_self)
      rw [hd]
      exact isIdentifierPart_of_isIdentifierStart hs
    have hb' : before.any joinsWord = false := by
      by_contra hj
      rw [Bool.not_eq_false] at hj
      exact absurd (hhead.symm.trans (hb rfl hj)) (by decide)
    refine ⟨_, .path hm h, mark_dotted hm h hb' (ha.behind_path h), ?_⟩
    obtain ⟨last, hlast, -⟩ := exists_getLast?_dotted h
    rw [List.getLast?_append, List.getLast?_append, hlast]
    rfl

/-- Marking a spelling with one sign for each comparison puts a mark in front of each path. -/
theorem Spells.marked {tokens : List Token} {cs : List Char} {awaited : Bool}
    (h : Spells .uniform names tokens cs) (hn : ∀ name ∈ names, ¬ IsReserved name)
    (ht : TakesTurns awaited tokens)
    (hb : awaited = true → before.any joinsWord = true →
      cs.head?.any Text.isIdentifierPart = false) :
    Spells .marked names tokens (mark names none before cs) := by
  induction h generalizing awaited before with
  | nil gap hg =>
    have hgap : mark names none before (gap ++ []) = gap ++ [] := by rw [mark_gap hg, mark]
    rw [List.append_nil] at hgap
    rw [hgap]
    exact .nil gap hg
  | @cons token tokens gap w rest hg hw ha h ih =>
    obtain ⟨ho, ht⟩ := ht
    obtain ⟨c, more, hc, -, -⟩ := hw.exists_cons
    have hb' : token.opens = true → (gap.getLast?.or before).any joinsWord = true →
        w.head?.any Text.isIdentifierPart = false := by
      intro hopens hj
      obtain ⟨rfl, hj⟩ := any_getLast?_or_of_gap hg (fun c ↦ joinsWord_of_isGap) hj
      have := hb (ho.symm.trans hopens) hj
      rw [hc] at this ⊢
      exact this
    have hnext : (!token.closes) = true → w.getLast?.any joinsWord = true →
        rest.head?.any Text.isIdentifierPart = false := by
      intro hcloses hj
      obtain ⟨d, hd, hp, -⟩ := hw.exists_getLast?
      apply ha
      · rintro amount rfl
        exact absurd hcloses (by simp [Token.closes])
      · rw [hd] at hj ⊢
        exact hp hj
    obtain ⟨marked, hm, he, hl⟩ := hw.marked hn hb' ha
    rw [List.append_assoc, mark_gap hg, he, ← List.append_assoc]
    exact .cons gap marked _ hg hm (ha.of_ends (by rw [hl]) head?_mark) (ih ht hnext)

end

/-- The strict spelling of what authors write for tokens in turns spells the same tokens. -/
theorem Spells.qualify_normalize {names : List String} {tokens : List Token} {cs : List Char}
    (h : Spells .authored names tokens cs) (hn : ∀ name ∈ names, ¬ IsReserved name)
    (ht : TakesTurns true tokens) :
    Spells .marked names tokens (qualify names (normalize cs)) :=
  (h.straight.uniform ht nofun).marked hn ht nofun

end LoanClosing.Condition

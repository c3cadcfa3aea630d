import LoanClosing.Proofs.Condition.Language
import LoanClosing.Proofs.Model.Recased

/-!
# References in another case

Making the letters of a condition small that stand behind the first segment of a reference goes
through normalizing and marking. Normalizing looks at signs only, and marking at words that begin
where no word, number or path goes on, which is never behind a point.
-/

namespace LoanClosing.Condition

/-- A text with the letters made small that stand outside of quotes behind a point, with nothing but
characters of identifiers and points in between. The quote that is open and whether such a point
stands in front are given. -/
def foldTails : Option Char → Bool → List Char → List Char
  | _, _, [] => []
  | some quote, _, c :: rest => c :: foldTails (if c = quote then none else some quote) false rest
  | none, behind, c :: rest =>
    (if behind then c.toLower else c) ::
      foldTails (if isQuote c then some c else none)
        (c == '.' || behind && Text.isIdentifierPart c) rest

/-- The quote that is open behind a text; the one that is open in front is given. -/
def openQuote : Option Char → List Char → Option Char
  | quote, [] => quote
  | some quote, c :: rest => openQuote (if c = quote then none else some quote) rest
  | none, c :: rest => openQuote (if isQuote c then some c else none) rest

/-! ## Characters -/

section

variable {quote : Option Char} {behind : Bool} {c : Char} {cs w rest : List Char}

theorem apply_ite_toLower {α : Type} {f : Char → α} (h : ∀ c, f c.toLower = f c) (behind : Bool)
    (c : Char) : f (if behind = true then c.toLower else c) = f c := by
  cases behind with
  | true => exact h c
  | false => rfl

theorem isQuote_toLower (c : Char) : isQuote c.toLower = isQuote c :=
  Text.apply_toLower isQuote (by decide) c

theorem joinsEquals_toLower (c : Char) : joinsEquals c.toLower = joinsEquals c :=
  Text.apply_toLower joinsEquals (by decide) c

theorem joinsWord_toLower (c : Char) : joinsWord c.toLower = joinsWord c :=
  Text.apply_toLower joinsWord (by decide) c

theorem isGap_toLower (c : Char) : isGap c.toLower = isGap c :=
  Text.apply_toLower isGap (by decide) c

theorem isDigit_toLower (c : Char) : c.toLower.isDigit = c.isDigit :=
  Text.apply_toLower Char.isDigit (by decide) c

theorem isAlpha_toLower (c : Char) : c.toLower.isAlpha = c.isAlpha :=
  Text.apply_toLower Char.isAlpha (by decide) c

/-- Only letters have a small form that is not themselves. -/
theorem toLower_of_isAlpha_eq_false (h : c.isAlpha = false) : c.toLower = c := by
  have hself := Text.toLower_beq h c
  rwa [beq_self_eq_true, beq_iff_eq] at hself

theorem toLower_of_isDigit (h : c.isDigit = true) : c.toLower = c := by
  have hstart := isIdentifierStart_of_isDigit h
  rw [Text.isIdentifierStart, Bool.or_eq_false_iff] at hstart
  exact toLower_of_isAlpha_eq_false hstart.1

theorem toLower_of_isQuote (h : isQuote c = true) : c.toLower = c := by
  rw [isQuote, Bool.or_eq_true, beq_iff_eq, beq_iff_eq] at h
  rcases h with rfl | rfl <;> decide

/-- A text that is made small begins with a sign only where the text does. -/
theorem map_toLower_eq_cons {sign : Char} {cs more : List Char} (hs : sign.isAlpha = false)
    (h : cs.map Char.toLower = sign :: more) :
    ∃ rest, cs = sign :: rest ∧ more = rest.map Char.toLower := by
  obtain ⟨c, rest, rfl, hc, hm⟩ := List.map_eq_cons_iff.1 h
  have hb := Text.toLower_beq hs c
  rw [hc, beq_self_eq_true, eq_comm, beq_iff_eq] at hb
  exact ⟨rest, by rw [hb], hm.symm⟩

theorem foldTails_of_small (h : c.toLower = c) :
    foldTails none behind (c :: rest) = c :: foldTails (if isQuote c then some c else none)
      (c == '.' || behind && Text.isIdentifierPart c) rest := by
  rw [foldTails, h, ite_self]

theorem foldTails_cons (hq : isQuote c = false) :
    foldTails none behind (c :: rest) = (if behind = true then c.toLower else c) ::
      foldTails none (c == '.' || behind && Text.isIdentifierPart c) rest := by
  rw [foldTails, hq, if_neg Bool.false_ne_true]

/-- A word with no point in front stays. -/
theorem foldTails_word (hp : Text.isIdentifierPart c = true) :
    foldTails none false (c :: rest) = c :: foldTails none false rest := by
  have hq : isQuote c = false := isQuote_of_isOrdinary (isOrdinary_of_isIdentifierPart hp)
  have hpoint : (c == '.') = false := by
    rw [beq_eq_false_iff_ne]
    rintro rfl
    exact absurd hp (by decide)
  rw [foldTails_cons hq, if_neg Bool.false_ne_true, hpoint, Bool.false_and, Bool.or_false]

theorem length_foldTails (quote : Option Char) (behind : Bool) (cs : List Char) :
    (foldTails quote behind cs).length = cs.length := by
  fun_induction foldTails quote behind cs with
  | case1 => rfl
  | case2 behind quote c rest ih => rw [List.length_cons, ih, List.length_cons]
  | case3 behind c rest ih => rw [List.length_cons, ih, List.length_cons]

theorem take_foldTails (n : Nat) (quote : Option Char) (behind : Bool) (cs : List Char) :
    (foldTails quote behind cs).take n = foldTails quote behind (cs.take n) := by
  induction n generalizing quote behind cs with
  | zero => rw [List.take_zero, List.take_zero, foldTails]
  | succ n ih =>
    cases cs with
    | nil => rw [foldTails, List.take_nil, foldTails]
    | cons c cs =>
      cases quote with
      | some quote => rw [foldTails, List.take_succ_cons, ih, List.take_succ_cons, foldTails]
      | none => rw [foldTails, List.take_succ_cons, ih, List.take_succ_cons, foldTails]

/-- No letter changes but in case. -/
theorem map_toLower_foldTails (quote : Option Char) (behind : Bool) (cs : List Char) :
    (foldTails quote behind cs).map Char.toLower = cs.map Char.toLower := by
  fun_induction foldTails quote behind cs with
  | case1 => rfl
  | case2 behind quote c rest ih => rw [List.map_cons, ih, List.map_cons]
  | case3 behind c rest ih =>
    rw [List.map_cons, ih, apply_ite_toLower Text.toLower_toLower, List.map_cons]

/-- No sign comes to stand in front or behind. -/
theorem head?_foldTails_eq_some_iff (h : c.isAlpha = false) :
    (foldTails quote behind cs).head? = some c ↔ cs.head? = some c := by
  have hmap := congrArg List.head? (map_toLower_foldTails quote behind cs)
  rw [List.head?_map, List.head?_map] at hmap
  have hsign (cs : List Char) : cs.head? = some c ↔ cs.head?.map Char.toLower = some c := by
    cases cs.head? with
    | none => exact iff_of_false nofun nofun
    | some d =>
      have hd : d = c ↔ d.toLower = c := by rw [← beq_iff_eq, ← Text.toLower_beq h, beq_iff_eq]
      rw [Option.map_some, Option.some.injEq, Option.some.injEq, hd]
  rw [hsign, hmap, ← hsign]

/-- A text is folded by itself, and the rest as its quotes and points leave it. -/
theorem exists_foldTails_append (quote : Option Char) (behind : Bool) (w : List Char) :
    ∃ behind', ∀ rest, foldTails quote behind (w ++ rest) =
      foldTails quote behind w ++ foldTails (openQuote quote w) behind' rest := by
  induction w generalizing quote behind with
  | nil =>
    refine ⟨behind, fun rest ↦ ?_⟩
    rw [List.nil_append, foldTails, openQuote, List.nil_append]
  | cons c w ih =>
    cases quote with
    | some quote =>
      obtain ⟨behind', he⟩ := ih (if c = quote then none else some quote) false
      refine ⟨behind', fun rest ↦ ?_⟩
      rw [List.cons_append, foldTails, he, foldTails, openQuote, List.cons_append]
    | none =>
      obtain ⟨behind', he⟩ := ih (if isQuote c = true then some c else none)
        (c == '.' || behind && Text.isIdentifierPart c)
      refine ⟨behind', fun rest ↦ ?_⟩
      rw [List.cons_append, foldTails, he, foldTails, openQuote, List.cons_append]

/-- Of a path all is folded that is behind its first point, or behind one in front of it. -/
theorem foldTails_path_append (hw : ∀ c ∈ w, Text.isIdentifierPart c = true ∨ c = '.')
    (behind : Bool) (rest : List Char) : foldTails none behind (w ++ rest) =
      (if behind = true then w.map Char.toLower else Text.foldTail w) ++
        foldTails none (behind || w.contains '.') rest := by
  induction w generalizing behind with
  | nil => cases behind <;> rfl
  | cons c w ih =>
    rw [List.forall_mem_cons] at hw
    obtain ⟨hc, hw⟩ := hw
    have hq : isQuote c = false := by
      rcases hc with hp | rfl
      · exact isQuote_of_isOrdinary (isOrdinary_of_isIdentifierPart hp)
      · decide
    have hflag : (c == '.' || behind && Text.isIdentifierPart c) = (behind || '.' == c) := by
      rcases hc with hp | rfl
      · rw [hp, Bool.and_true, Bool.or_comm, Bool.beq_comm]
      · rw [beq_self_eq_true, Bool.true_or, Bool.or_true]
    rw [List.cons_append, foldTails_cons hq, hflag, ih hw, List.contains_cons, ← Bool.or_assoc,
      Text.foldTail]
    cases behind with
    | true => rfl
    | false =>
      by_cases hpoint : c = '.'
      · subst hpoint
        rfl
      · rw [Bool.false_or, beq_eq_false_iff_ne.2 (Ne.symm hpoint), if_neg hpoint]
        rfl

theorem foldTails_path (hw : ∀ c ∈ w, Text.isIdentifierPart c = true ∨ c = '.') :
    foldTails none false w = Text.foldTail w := by
  have happend := foldTails_path_append hw false []
  rwa [List.append_nil, foldTails, List.append_nil, if_neg Bool.false_ne_true] at happend

theorem openQuote_of_plain (hw : ∀ c ∈ w, isQuote c = false) : openQuote none w = none := by
  induction w with
  | nil => rfl
  | cons c w ih =>
    rw [List.forall_mem_cons] at hw
    rw [openQuote, hw.1, if_neg Bool.false_ne_true, ih hw.2]

theorem openQuote_quoted {quote : Char} {body : List Char} (hq : isQuote quote = true)
    (hb : quote ∉ body) : openQuote none (quote :: body ++ [quote]) = none := by
  rw [List.cons_append, openQuote, if_pos hq]
  induction body with
  | nil => rw [List.nil_append, openQuote, if_pos rfl, openQuote]
  | cons c body ih =>
    rw [List.mem_cons, not_or] at hb
    rw [List.cons_append, openQuote, if_neg (Ne.symm hb.1), ih hb.2]

/-- What is no letter stays. -/
theorem foldTails_eq_self (hw : ∀ c ∈ w, c.toLower = c) (quote : Option Char) (behind : Bool) :
    foldTails quote behind w = w := by
  fun_induction foldTails quote behind w with
  | case1 => rfl
  | case2 behind quote c rest ih =>
    rw [List.forall_mem_cons] at hw
    rw [ih hw.2]
  | case3 behind c rest ih =>
    rw [List.forall_mem_cons] at hw
    rw [ih hw.2, hw.1, ite_self]

end

/-! ## Normalizing and marking -/

section

variable {names : List String} {quote before before' : Option Char} {behind : Bool}

/-- Normalizing looks at signs only. -/
theorem relax_foldTails (behind : Bool)
    (hb : before'.any joinsEquals = before.any joinsEquals) (cs : List Char) :
    relax quote before' (foldTails quote behind cs) =
      foldTails quote behind (relax quote before cs) := by
  fun_induction relax quote before cs generalizing before' behind with
  | case1 => rw [foldTails, relax]
  | case2 quote before c rest ih => rw [foldTails, relax, foldTails, ih _ rfl]
  | case3 before c rest hq ih =>
    have hs := toLower_of_isQuote hq
    rw [foldTails_of_small hs, foldTails_of_small hs, if_pos hq, relax_quote hq, ih _ rfl]
  | case4 before rest hq ih =>
    have hsign : foldTails none behind ('<' :: '>' :: rest) =
        '<' :: '>' :: foldTails none false rest := by cases behind <;> rfl
    have hstrict : foldTails none behind ('!' :: '=' :: relax none (some '>') rest) =
        '!' :: '=' :: foldTails none false (relax none (some '>') rest) := by cases behind <;> rfl
    rw [hsign, hstrict, relax, if_neg hq, ih false rfl]
  | case5 before c rest hx hcond hq ih =>
    rw [Bool.and_eq_true, Bool.and_eq_true, decide_eq_true_eq] at hcond
    obtain ⟨⟨rfl, hrest⟩, hbefore⟩ := hcond
    rw [Bool.not_eq_true', ← hb] at hbefore
    rw [bne_iff_ne, Ne] at hrest
    have hsign : foldTails none behind ('=' :: rest) = '=' :: foldTails none false rest := by
      cases behind <;> rfl
    have hstrict : foldTails none behind ('=' :: '=' :: relax none (some '=') rest) =
        '=' :: '=' :: foldTails none false (relax none (some '=') rest) := by cases behind <;> rfl
    rw [hsign, hstrict, relax_loneEquals hbefore, ih false rfl]
    rwa [Ne, head?_foldTails_eq_some_iff (by decide)]
  | case6 before c rest hx hcond hq ih =>
    by_cases hl : c = '<'
    · subst hl
      have hrest : rest.head? ≠ some '>' := by
        intro hh
        obtain ⟨more, rfl⟩ := List.head?_eq_some_iff.1 hh
        exact hx more rfl rfl
      rw [foldTails_of_small (by decide), foldTails_of_small (by decide), if_neg hq, relax_less,
        ih _ rfl]
      rwa [Ne, head?_foldTails_eq_some_iff (by decide)]
    · by_cases he : c = '='
      · subst he
        have hjoined : before'.any joinsEquals = true ∨ rest.head? = some '=' := by
          rw [hb]
          simpa [or_iff_not_imp_right] using hcond
        rw [foldTails_of_small (by decide), foldTails_of_small (by decide), if_neg hq, relax_equals,
          ih _ rfl]
        rwa [head?_foldTails_eq_some_iff (by decide)]
      · have hne {sign : Char} (hs : sign.isAlpha = false) (h : c ≠ sign) :
            (if behind = true then c.toLower else c) ≠ sign := by
          rw [← beq_eq_false_iff_ne,
            apply_ite_toLower (f := (· == sign)) (Text.toLower_beq hs), beq_eq_false_iff_ne]
          exact h
        rw [foldTails, foldTails, if_neg hq, relax_other _ (hne rfl hl) (hne rfl he), ih]
        · exact apply_ite_toLower joinsEquals_toLower behind c
        · rw [apply_ite_toLower isQuote_toLower, Bool.eq_false_iff]
          exact hq

/-- A word with no point in front ends where it did. -/
theorem takeWhile_foldTails (cs : List Char) :
    (foldTails none false cs).takeWhile Text.isIdentifierPart =
      cs.takeWhile Text.isIdentifierPart := by
  induction cs with
  | nil => rw [foldTails]
  | cons c cs ih =>
    cases hp : Text.isIdentifierPart c with
    | true =>
      rw [foldTails_word hp, List.takeWhile_cons_of_pos hp, List.takeWhile_cons_of_pos hp, ih]
    | false =>
      have hnot : ¬ Text.isIdentifierPart c = true := by rw [hp]; decide
      rw [foldTails, if_neg Bool.false_ne_true, List.takeWhile_cons_of_neg hnot,
        List.takeWhile_cons_of_neg hnot]

/-- Behind a point no word begins, and so none is marked. -/
theorem mark_foldTails (hb : before'.any joinsWord = before.any joinsWord)
    (hj : behind = true → before.any joinsWord = true) (cs : List Char) :
    mark names quote before' (foldTails quote behind cs) =
      foldTails quote behind (mark names quote before cs) := by
  have hfalse {before : Option Char} : false = true → before.any joinsWord = true :=
    fun h ↦ absurd h (by decide)
  induction cs generalizing quote before before' behind with
  | nil => rw [mark, foldTails, mark]
  | cons c cs ih =>
    -- A point and what goes on with a name behind it join a word.
    have hnext : (c == '.' || behind && Text.isIdentifierPart c) = true →
        (some c).any joinsWord = true := by
      intro h
      rw [Bool.or_eq_true, Bool.and_eq_true] at h
      rcases h with h | ⟨-, h⟩ <;> simp [joinsWord, h]
    cases quote with
    | some quote => rw [foldTails, mark, mark, foldTails, ih rfl hfalse]
    | none =>
      by_cases hq : isQuote c = true
      · have hs := toLower_of_isQuote hq
        rw [foldTails_of_small hs, if_pos hq, mark, if_pos hq, mark, if_pos hq,
          foldTails_of_small hs, if_pos hq, ih rfl hnext]
      have hq' : isQuote c = false := by rwa [Bool.not_eq_true] at hq
      by_cases hw : Text.isIdentifierStart c = false ∨ before.any joinsWord = true
      · have hqc : isQuote (if behind = true then c.toLower else c) = false := by
          rw [apply_ite_toLower isQuote_toLower, hq']
        have hw' : Text.isIdentifierStart (if behind = true then c.toLower else c) = false ∨
            before'.any joinsWord = true := by
          rw [apply_ite_toLower Text.isIdentifierStart_toLower, hb]
          exact hw
        have hafter : (some (if behind = true then c.toLower else c)).any joinsWord =
            (some c).any joinsWord := apply_ite_toLower joinsWord_toLower behind c
        rw [foldTails_cons hq', mark_of_not_start hqc hw', mark_of_not_start hq' hw,
          foldTails_cons hq', ih hafter hnext]
      · rw [not_or, Bool.not_eq_false] at hw
        obtain rfl : behind = false := by
          rw [← Bool.not_eq_true]
          exact mt hj hw.2
        have hp : Text.isIdentifierPart c = true := isIdentifierPart_of_isIdentifierStart hw.1
        have hmark (rest : List Char) :
            foldTails none false ('@' :: rest) = '@' :: foldTails none false rest := rfl
        have hword : (c :: foldTails none false cs).takeWhile Text.isIdentifierPart =
            (c :: cs).takeWhile Text.isIdentifierPart := by
          rw [← foldTails_word hp, takeWhile_foldTails]
        rw [foldTails_word hp, mark, mark, if_neg hq, if_neg hq, hword, hb]
        split
        · rw [hmark, foldTails_word hp, ih rfl hfalse]
        · rw [foldTails_word hp, ih rfl hfalse]

end

end LoanClosing.Condition

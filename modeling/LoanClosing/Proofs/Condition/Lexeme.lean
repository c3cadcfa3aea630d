import LoanClosing.Proofs.Condition.Grammar
import LoanClosing.Proofs.Text.Recased
import Mathlib.Tactic.ByContra

/-!
# Spelling a row of tokens

`Spells style names tokens cs` says that `cs` is a spelling of the tokens in a style, with gaps
wherever two words would run together and anywhere else. There are four styles, from what authors
may write to what the scanner takes; they differ in their quotes, their signs and what marks a path.
-/

namespace LoanClosing.Condition

/-! ## Styles -/

/-- The words that write a token, in small letters. -/
def reservedWords : List (String × Token) :=
  [("and", .and), ("andalso", .and), ("or", .or), ("orelse", .or), ("not", .not),
   ("true", .literal (.bool true)), ("false", .literal (.bool false)), ("null", .literal .null),
   ("nothing", .literal .null)]

/-- A name that is a reserved word, in any case. -/
def IsReserved (name : String) : Prop :=
  ∃ p ∈ reservedWords, name.toList.map Char.toLower = p.1.toList

/-- The typographic quotes, each with the plain quote that it stands for. -/
def typographicQuotes : List (Char × Char) :=
  [('\x22', '\u201c'), ('\x22', '\u201d'), ('\x22', '\u201e'), ('\x22', '\u201f'),
   ('\x22', '\u2033'), ('\x27', '\u2018'), ('\x27', '\u2019'), ('\x27', '\u201a'),
   ('\x27', '\u201b'), ('\x27', '\u2032')]

/-- The plain quotes, which stand for themselves. -/
def plainQuotes : List (Char × Char) := [('\x22', '\x22'), ('\x27', '\x27')]

/-- The signs that are taken as they are. -/
def strictSigns : List (List Char × Token) :=
  [(['('], .openParen), ([')'], .closeParen), (['!'], .not), (['&', '&'], .and), (['|', '|'], .or),
   (['=', '='], .compare .equal), (['!', '='], .compare .unequal), (['<'], .compare .less),
   (['<', '='], .compare .atMost), (['>'], .compare .greater), (['>', '='], .compare .atLeast)]

/-- The signs that authors write as well. -/
def looseSigns : List (List Char × Token) :=
  [(['='], .compare .equal), (['<', '>'], .compare .unequal)]

/-- The styles of spelling, each stricter than the one before. -/
inductive Style where
  /-- What authors write. -/
  | authored
  /-- With plain quotes only. -/
  | straight
  /-- With one sign for each comparison. -/
  | uniform
  /-- With a mark in front of each path. -/
  | marked

namespace Style

/-- The quotes of a style, with the plain quote that each stands for. -/
def quotes : Style → List (Char × Char)
  | .authored => plainQuotes ++ typographicQuotes
  | _ => plainQuotes

/-- The signs of a style, with the token that each writes. -/
def signs : Style → List (List Char × Token)
  | .authored | .straight => strictSigns ++ looseSigns
  | _ => strictSigns

theorem signs_subset (style : Style) : style.signs ⊆ strictSigns ++ looseSigns := by
  cases style with
  | authored | straight => exact List.Subset.refl _
  | uniform | marked => exact List.subset_append_left _ _

theorem strictSigns_subset (style : Style) : strictSigns ⊆ style.signs := by
  cases style with
  | authored | straight => exact List.subset_append_left _ _
  | uniform | marked => exact List.Subset.refl _

theorem quotes_subset (style : Style) : style.quotes ⊆ plainQuotes ++ typographicQuotes := by
  cases style with
  | authored => exact List.Subset.refl _
  | straight | uniform | marked => exact List.subset_append_left _ _

/-- What stands in front of a path. -/
def marker : Style → List Char
  | .marked => ['@']
  | _ => []

end Style

/-! ## Lexemes -/

/-- One or more digits. -/
def IsDigits (cs : List Char) : Prop := cs ≠ [] ∧ ∀ c ∈ cs, c.isDigit = true

/-- A number as it is written: an optional minus, digits, and an optional point with digits. -/
structure IsNumeral (minus whole places : List Char) : Prop where
  minus : minus = [] ∨ minus = ['-']
  whole : IsDigits whole
  places : places = [] ∨ ∃ digits, places = '.' :: digits ∧ IsDigits digits

/-- The segments of a path with a point between two of them. -/
def dotted : String → List String → List Char
  | head, [] => head.toList
  | head, next :: more => head.toList ++ '.' :: dotted next more

/-- The spellings of a single token in a style, where paths begin with one of the names. -/
inductive Lexeme (style : Style) (names : List String) : Token → List Char → Prop
  | sign {token : Token} {sign : List Char} (h : (sign, token) ∈ style.signs) :
      Lexeme style names token sign
  | word {token : Token} {word : String} {letters : List Char} (h : (word, token) ∈ reservedWords)
      (hl : letters.map Char.toLower = word.toList) : Lexeme style names token letters
  | number {amount : Decimal} {minus whole places : List Char} (h : IsNumeral minus whole places)
      (ha : Decimal.ofChars? (minus ++ whole ++ places) = some amount) :
      Lexeme style names (.literal (.number amount)) (minus ++ whole ++ places)
  | text {quote opening closing : Char} {body : List Char} (ho : (quote, opening) ∈ style.quotes)
      (hc : (quote, closing) ∈ style.quotes) (hq : quote ∉ body)
      (hb : ∀ p ∈ typographicQuotes, p.2 ∉ body) :
      Lexeme style names (.literal (.text (String.ofList body))) (opening :: body ++ [closing])
  | path {head : String} {more : List String} (hn : head ∈ names)
      (h : ∀ segment ∈ head :: more, Text.isIdentifier segment.toList = true) :
      Lexeme style names (.path (head :: more))
        (style.marker ++ dotted head more)

/-- A token and what stands behind it do not run together. Only a number may have a letter right
behind it. -/
def Apart (token : Token) (w rest : List Char) : Prop :=
  (∀ amount, token ≠ .literal (.number amount)) → w.getLast?.any Text.isIdentifierPart = true →
    rest.head?.any Text.isIdentifierPart = false

theorem Apart.of_head? {token : Token} {w rest : List Char}
    (h : rest.head?.any Text.isIdentifierPart = false) : Apart token w rest := fun _ _ ↦ h

theorem Apart.of_getLast? {token : Token} {w rest : List Char}
    (h : w.getLast?.any Text.isIdentifierPart = false) : Apart token w rest :=
  fun _ hl ↦ absurd (h.symm.trans hl) (by decide)

/-- The spellings of a row of tokens: gaps may stand anywhere. -/
inductive Spells (style : Style) (names : List String) : List Token → List Char → Prop
  | nil (gap : List Char) (hg : gap.all isGap = true) : Spells style names [] gap
  | cons {token : Token} {tokens : List Token} (gap w rest : List Char)
      (hg : gap.all isGap = true) (hw : Lexeme style names token w) (ha : Apart token w rest)
      (h : Spells style names tokens rest) :
      Spells style names (token :: tokens) (gap ++ w ++ rest)

/-- The spellings of a condition that authors may write where the names are in scope. -/
def Spelling (names : List String) (e : Expr) (cs : List Char) : Prop :=
  ∃ tokens, Writes .disjunction e tokens ∧ Spells .authored names tokens cs

/-! ## Every condition has a spelling -/

/-- Signs can be written in every style. -/
theorem Lexeme.exists_of_isSign {token : Token} (style : Style) (names : List String)
    (h : token.isSign = true) : ∃ w, Lexeme style names token w := by
  have hall : ∀ token : Token, token.isSign = true → ∃ p ∈ strictSigns, p.2 = token := by
    intro token h
    cases token with
    | literal => exact absurd h (by simp [Token.isSign])
    | path => exact absurd h (by simp [Token.isSign])
    | compare comparison => cases comparison <;> simp [strictSigns]
    | _ => simp [strictSigns]
  obtain ⟨p, hp, rfl⟩ := hall token h
  exact ⟨p.1, .sign (style.strictSigns_subset hp)⟩

/-- Tokens that can be written one by one can be written in a row, with a space before each. -/
theorem Spells.exists_of_lexemes {style : Style} {names : List String} {tokens : List Token}
    (h : ∀ token ∈ tokens, ∃ w, Lexeme style names token w) :
    ∃ cs, Spells style names tokens cs ∧ cs.head?.any Text.isIdentifierPart = false := by
  induction tokens with
  | nil => exact ⟨[], .nil [] rfl, rfl⟩
  | cons token tokens ih =>
    rw [List.forall_mem_cons] at h
    obtain ⟨w, hw⟩ := h.1
    obtain ⟨rest, hs, hr⟩ := ih h.2
    exact ⟨_, .cons [' '] w rest rfl hw (.of_head? hr) hs, rfl⟩

/-- A condition can be spelled as soon as its literals and paths can. -/
theorem Spelling.exists_of_leaves {names : List String} {e : Expr}
    (h : ∀ token ∈ e.leaves, ∃ w, Lexeme .authored names token w) : ∃ cs, Spelling names e cs := by
  obtain ⟨tokens, hw, ht⟩ := Writes.exists_tokens e .disjunction
  have hall : ∀ token ∈ tokens, ∃ w, Lexeme .authored names token w := by
    intro token hm
    rcases ht token hm with hs | hl
    · exact Lexeme.exists_of_isSign _ _ hs
    · exact h token hl
  obtain ⟨cs, hs, -⟩ := Spells.exists_of_lexemes hall
  exact ⟨cs, tokens, hw, hs⟩

/-! ## Characters -/

theorem isIdentifierStart_of_isDigit {c : Char} (h : c.isDigit = true) :
    Text.isIdentifierStart c = false := by
  have ha : c.isAlpha = false := by
    unfold Char.isDigit at h
    unfold Char.isAlpha Char.isUpper Char.isLower
    simp only [ge_iff_le, Bool.and_eq_true, Bool.or_eq_false_iff, Bool.and_eq_false_iff,
      decide_eq_true_eq, decide_eq_false_iff_not, UInt32.le_iff_toNat_le] at h ⊢
    have : '9'.val.toNat = 57 := rfl
    have : 'A'.val.toNat = 65 := rfl
    have : 'a'.val.toNat = 97 := rfl
    omega
  have hu : c ≠ '_' := by
    rintro rfl
    exact absurd h (by decide)
  simp [Text.isIdentifierStart, ha, hu]

theorem isIdentifierPart_of_isDigit {c : Char} (h : c.isDigit = true) :
    Text.isIdentifierPart c = true := by
  simp [Text.isIdentifierPart, Char.isAlphanum, h]

theorem isIdentifierPart_of_isAlpha {c : Char} (h : c.isAlpha = true) :
    Text.isIdentifierPart c = true := by
  simp [Text.isIdentifierPart, Char.isAlphanum, h]

theorem isIdentifierPart_of_isIdentifierStart {c : Char} (h : Text.isIdentifierStart c = true) :
    Text.isIdentifierPart c = true := by
  simp only [Text.isIdentifierStart, Text.isIdentifierPart, Char.isAlphanum, Bool.or_eq_true]
    at h ⊢
  rcases h with h | h
  · exact .inl (.inl h)
  · exact .inr h

/-- Whether a character may occur in a word, a number or a path, or between tokens. -/
def isOrdinary (c : Char) : Bool :=
  Text.isIdentifierPart c || c == '.' || c == '-' || isGap c

theorem isOrdinary_of_isIdentifierPart {c : Char} (h : Text.isIdentifierPart c = true) :
    isOrdinary c = true := by
  simp [isOrdinary, h]

theorem isOrdinary_of_isGap {c : Char} (h : isGap c = true) : isOrdinary c = true := by
  simp [isOrdinary, h]

theorem isQuote_of_isOrdinary {c : Char} (h : isOrdinary c = true) : isQuote c = false := by
  rw [isQuote, Bool.or_eq_false_iff, beq_eq_false_iff_ne, beq_eq_false_iff_ne]
  constructor <;> (rintro rfl; exact absurd h (by decide))

/-- Only the typographic quotes stand for another character. -/
theorem foldQuote_of_notMem {c : Char} (h : c ∉ typographicQuotes.map Prod.snd) :
    foldQuote c = c := by
  simp only [typographicQuotes, List.map_cons, List.map_nil, List.mem_cons, List.not_mem_nil,
    not_or] at h
  simp [foldQuote, h]

theorem foldQuote_of_isOrdinary {c : Char} (h : isOrdinary c = true) : foldQuote c = c := by
  apply foldQuote_of_notMem
  intro hm
  obtain ⟨p, hp, rfl⟩ := List.mem_map.1 hm
  have hall : ∀ p ∈ typographicQuotes, isOrdinary p.2 = false := by decide
  rw [hall p hp] at h
  exact absurd h (by decide)

/-- A character that no sign in front of it takes in, where an operand is awaited, and that does not
go on with an operand, where none is. -/
def Fits : Bool → Char → Prop
  | true, c => c ≠ '=' ∧ c ≠ '>'
  | false, c => c.isDigit = false ∧ c ≠ '.'

/-- A row of characters does not join what it stands behind. -/
def Begins (awaited : Bool) (cs : List Char) : Prop := ∀ c ∈ cs.head?, Fits awaited c

instance (awaited : Bool) (c : Char) : Decidable (Fits awaited c) := by
  cases awaited <;> unfold Fits <;> infer_instance

theorem isIdentifierStart_of_isAlpha {c : Char} (h : c.isAlpha = true) :
    Text.isIdentifierStart c = true := by
  simp [Text.isIdentifierStart, h]

/-- What holds of the four gap characters holds of every gap. -/
theorem of_isGap {p : Char → Prop} (hp : p ' ' ∧ p '\t' ∧ p '\r' ∧ p '\n') {c : Char}
    (h : isGap c = true) : p c := by
  simp only [isGap, Bool.or_eq_true, beq_iff_eq] at h
  obtain ⟨hs, ht, hr, hn⟩ := hp
  rcases h with ((rfl | rfl) | rfl) | rfl
  · exact hs
  · exact ht
  · exact hr
  · exact hn

theorem fits_of_isGap {c : Char} (h : isGap c = true) (awaited : Bool) :
    Fits awaited c := by
  cases awaited <;> exact of_isGap (by decide) h

theorem fits_of_isIdentifierStart {c : Char} (h : Text.isIdentifierStart c = true)
    (awaited : Bool) : Fits awaited c := by
  cases awaited with
  | true => constructor <;> (rintro rfl; exact absurd h (by decide))
  | false =>
    refine ⟨?_, by rintro rfl; exact absurd h (by decide)⟩
    by_contra hd
    rw [Bool.not_eq_false] at hd
    rw [isIdentifierStart_of_isDigit hd] at h
    exact absurd h (by decide)

theorem isIdentifierPart_of_isGap {c : Char} (h : isGap c = true) :
    Text.isIdentifierPart c = false :=
  of_isGap (p := fun c ↦ Text.isIdentifierPart c = false) (by decide) h

theorem isGap_of_isIdentifierPart {c : Char} (h : Text.isIdentifierPart c = true) :
    isGap c = false := by
  by_contra hg
  rw [Bool.not_eq_false] at hg
  rw [isIdentifierPart_of_isGap hg] at h
  exact absurd h (by decide)

theorem joinsEquals_of_isIdentifierPart {c : Char} (h : Text.isIdentifierPart c = true) :
    joinsEquals c = false := by
  by_contra hj
  simp only [joinsEquals, Bool.not_eq_false, Bool.or_eq_true, beq_iff_eq] at hj
  rcases hj with ((rfl | rfl) | rfl) | rfl <;> exact absurd h (by decide)

/-! ## Runs of characters -/

/-- A run of characters of one kind in front of one that is not of the kind. -/
theorem takeWhile_append_of_head? {p : Char → Bool} {w rest : List Char}
    (h : ∀ c ∈ w, p c = true) (hr : rest.head?.any p = false) :
    (w ++ rest).takeWhile p = w := by
  rw [List.takeWhile_append_of_pos h]
  cases rest with
  | nil => simp
  | cons c rest => rw [List.takeWhile_cons_of_neg (by simpa using hr), List.append_nil]

/-- What is behind a run of characters of one kind. -/
theorem dropWhile_append_of_head? {p : Char → Bool} {w rest : List Char}
    (h : ∀ c ∈ w, p c = true) (hr : rest.head?.any p = false) :
    (w ++ rest).dropWhile p = rest := by
  rw [List.dropWhile_append_of_pos h]
  cases rest with
  | nil => rfl
  | cons c rest => exact List.dropWhile_cons_of_neg (by simpa using hr)

/-- Behind the characters of one kind stands one that is not of the kind. -/
theorem any_head?_dropWhile (p : Char → Bool) (cs : List Char) :
    (cs.dropWhile p).head?.any p = false := by
  have hnot := List.head?_dropWhile_not p cs
  cases hh : (cs.dropWhile p).head? with
  | none => rfl
  | some c =>
    rw [hh] at hnot
    exact hnot

theorem take_length_takeWhile (p : Char → Bool) (cs : List Char) :
    cs.take (cs.takeWhile p).length = cs.takeWhile p :=
  (List.prefix_iff_eq_take.1 (List.takeWhile_prefix p)).symm

theorem drop_length_takeWhile (p : Char → Bool) (cs : List Char) :
    cs.drop (cs.takeWhile p).length = cs.dropWhile p := by
  have happend := List.take_append_drop (cs.takeWhile p).length cs
  rw [take_length_takeWhile] at happend
  exact List.append_cancel_left (happend.trans List.takeWhile_append_dropWhile.symm)

/-! ## Words, numbers and paths -/

/-- The token of a word is the one that the reserved word writes. -/
theorem Token.ofWord?_eq_some_iff {letters : List Char} {token : Token} :
    ofWord? letters = some token ↔
      ∃ word, (word, token) ∈ reservedWords ∧ letters.map Char.toLower = word.toList := by
  constructor
  · intro h
    refine ⟨_, ?_, String.toList_ofList.symm⟩
    rw [ofWord?] at h
    split at h
    case h_10 => cases h
    all_goals
      next hw =>
      rw [hw, ← Option.some.inj h]
      decide
  · rintro ⟨word, h, hl⟩
    rw [ofWord?, hl, String.ofList_toList]
    simp only [reservedWords, List.mem_cons, Prod.mk.injEq, List.not_mem_nil, or_false] at h
    rcases h with ⟨rfl, rfl⟩ | ⟨rfl, rfl⟩ | ⟨rfl, rfl⟩ | ⟨rfl, rfl⟩ | ⟨rfl, rfl⟩ | ⟨rfl, rfl⟩ |
      ⟨rfl, rfl⟩ | ⟨rfl, rfl⟩ | ⟨rfl, rfl⟩ <;> rfl

/-- A reserved word in any case consists of letters. -/
theorem isAlpha_of_reserved {letters : List Char} {word : String} {token : Token}
    (h : (word, token) ∈ reservedWords) (hl : letters.map Char.toLower = word.toList) :
    letters ≠ [] ∧ ∀ c ∈ letters, c.isAlpha = true := by
  have hall : ∀ p ∈ reservedWords, p.1.toList ≠ [] ∧ p.1.toList.all Char.isAlpha = true := by
    decide
  obtain ⟨hne, ha⟩ := hall _ h
  constructor
  · rintro rfl
    exact hne hl.symm
  · intro c hc
    rw [← Text.apply_toLower Char.isAlpha (by decide)]
    apply List.all_eq_true.1 ha
    rw [← hl]
    exact List.mem_map_of_mem hc

theorem Token.ofPair?_eq_some_iff {c d : Char} {token : Token} :
    ofPair? c d = some token ↔ ([c, d], token) ∈ strictSigns := by
  constructor
  · intro h
    unfold ofPair? at h
    split at h <;> cases h <;> decide
  · intro h
    simp only [strictSigns, List.mem_cons, Prod.mk.injEq, List.cons.injEq, List.not_mem_nil,
      List.cons_ne_nil, and_false, and_true, false_and, false_or, or_false] at h
    rcases h with ⟨⟨rfl, rfl⟩, rfl⟩ | ⟨⟨rfl, rfl⟩, rfl⟩ | ⟨⟨rfl, rfl⟩, rfl⟩ | ⟨⟨rfl, rfl⟩, rfl⟩ |
      ⟨⟨rfl, rfl⟩, rfl⟩ | ⟨⟨rfl, rfl⟩, rfl⟩ <;> rfl

theorem Token.ofSign?_eq_some_iff {c : Char} {token : Token} :
    ofSign? c = some token ↔ ([c], token) ∈ strictSigns := by
  constructor
  · intro h
    unfold ofSign? at h
    split at h <;> cases h <;> decide
  · intro h
    simp only [strictSigns, List.mem_cons, Prod.mk.injEq, List.cons.injEq, List.not_mem_nil,
      List.nil_eq, List.cons_ne_nil, and_false, and_true, false_and, false_or, or_false] at h
    rcases h with ⟨rfl, rfl⟩ | ⟨rfl, rfl⟩ | ⟨rfl, rfl⟩ | ⟨rfl, rfl⟩ | ⟨rfl, rfl⟩ <;> rfl

theorem numberLength_ne_zero {c : Char} (h : c.isDigit = true) (rest : List Char) :
    numberLength (c :: rest) ≠ 0 := by
  have htake : (c :: rest).takeWhile Char.isDigit = c :: rest.takeWhile Char.isDigit :=
    List.takeWhile_cons_of_pos h
  fun_cases numberLength (c :: rest) with
  | case1 whole hw => exact absurd (htake.symm.trans hw) (List.cons_ne_nil _ _)
  | case2 whole | case3 whole | case4 whole =>
    have hlength : whole.length = (rest.takeWhile Char.isDigit).length + 1 :=
      congrArg List.length htake
    omega

/-- A number ends with a digit. -/
theorem IsNumeral.exists_getLast? {minus whole places : List Char}
    (h : IsNumeral minus whole places) :
    ∃ c, (minus ++ whole ++ places).getLast? = some c ∧ c.isDigit = true := by
  obtain ⟨-, ⟨hne, hw⟩, rfl | ⟨digits, rfl, hne', hd⟩⟩ := h
  · rw [List.append_nil, List.getLast?_append, List.getLast?_eq_some_getLast hne]
    exact ⟨_, rfl, hw _ (List.getLast_mem _)⟩
  · rw [List.getLast?_append, List.getLast?_cons_of_ne_nil hne',
      List.getLast?_eq_some_getLast hne']
    exact ⟨_, rfl, hd _ (List.getLast_mem _)⟩

/-- An identifier has a first character and others. -/
theorem exists_of_isIdentifier {cs : List Char} (h : Text.isIdentifier cs = true) :
    ∃ c more, cs = c :: more ∧ Text.isIdentifierStart c = true ∧
      ∀ d ∈ cs, Text.isIdentifierPart d = true := by
  cases cs with
  | nil => exact absurd h (by decide)
  | cons c more =>
    simp only [Text.isIdentifier, Bool.and_eq_true, List.all_eq_true] at h
    refine ⟨c, more, rfl, h.1, ?_⟩
    rw [List.forall_mem_cons]
    exact ⟨isIdentifierPart_of_isIdentifierStart h.1, h.2⟩

section

variable {head : String} {more : List String}

/-- A path begins with the first character of an identifier. -/
theorem exists_dotted_eq (h : Text.isIdentifier head.toList = true) :
    ∃ c rest, dotted head more = c :: rest ∧ Text.isIdentifierStart c = true := by
  obtain ⟨c, part, hc, hs, -⟩ := exists_of_isIdentifier h
  cases more with
  | nil => exact ⟨c, part, hc, hs⟩
  | cons next more => exact ⟨c, part ++ '.' :: dotted next more, by rw [dotted, hc]; rfl, hs⟩

/-- A path ends with a character of an identifier. -/
theorem exists_getLast?_dotted
    (h : ∀ segment ∈ head :: more, Text.isIdentifier segment.toList = true) :
    ∃ c, (dotted head more).getLast? = some c ∧ Text.isIdentifierPart c = true := by
  induction more generalizing head with
  | nil =>
    obtain ⟨c, part, hc, -, hp⟩ := exists_of_isIdentifier (h head (by simp))
    rw [dotted, List.getLast?_eq_some_getLast (by simp [hc])]
    exact ⟨_, rfl, hp _ (List.getLast_mem _)⟩
  | cons next more ih =>
    obtain ⟨c, hc, hp⟩ := ih fun segment hm ↦ h segment (List.mem_cons_of_mem _ hm)
    refine ⟨c, ?_, hp⟩
    rw [dotted, List.getLast?_append, List.getLast?_cons, hc]
    rfl

/-- A path consists of identifiers and points. -/
theorem mem_dotted (h : ∀ segment ∈ head :: more, Text.isIdentifier segment.toList = true) :
    ∀ c ∈ dotted head more, Text.isIdentifierPart c = true ∨ c = '.' := by
  obtain ⟨-, -, -, -, hp⟩ := exists_of_isIdentifier (h head (by simp))
  induction more generalizing head with
  | nil => exact fun c hc ↦ .inl (hp c hc)
  | cons next more ih =>
    have hnext := fun segment hm ↦ h segment (List.mem_cons_of_mem _ hm)
    obtain ⟨-, -, -, -, hp'⟩ := exists_of_isIdentifier (hnext next (by simp))
    intro c hc
    rw [dotted, List.mem_append, List.mem_cons] at hc
    rcases hc with hc | hc | hc
    · exact .inl (hp c hc)
    · exact .inr hc
    · exact ih hnext hp' c hc

end

/-! ## The ends of a lexeme -/

namespace Lexeme

variable {style : Style} {names : List String} {token : Token} {w : List Char}

/-- A lexeme begins with a character that fits where its token stands, not with a gap. -/
theorem exists_cons (h : Lexeme style names token w) :
    ∃ c more, w = c :: more ∧ isGap c = false ∧ Fits token.opens c := by
  cases h with
  | sign h =>
    have hall : ∀ p ∈ strictSigns ++ looseSigns,
        p.1.head?.any (fun c ↦ !isGap c && decide (Fits p.2.opens c)) = true := by decide
    obtain ⟨c, hc, hf⟩ := (Option.any_eq_true _ _).1 (hall _ (style.signs_subset h))
    rw [Bool.and_eq_true, Bool.not_eq_true', decide_eq_true_eq] at hf
    obtain ⟨more, rfl⟩ := List.head?_eq_some_iff.1 hc
    exact ⟨c, more, rfl, hf⟩
  | word h hl =>
    obtain ⟨hne, ha⟩ := isAlpha_of_reserved h hl
    obtain ⟨c, more, rfl⟩ := List.exists_cons_of_ne_nil hne
    have hs := isIdentifierStart_of_isAlpha (ha c (by simp))
    exact ⟨c, more, rfl, isGap_of_isIdentifierPart (isIdentifierPart_of_isIdentifierStart hs),
      fits_of_isIdentifierStart hs _⟩
  | number h ha =>
    obtain ⟨rfl | rfl, ⟨hne, hw⟩, -⟩ := h
    · obtain ⟨c, more, rfl⟩ := List.exists_cons_of_ne_nil hne
      have hd := hw c (by simp)
      refine ⟨c, _, rfl, isGap_of_isIdentifierPart (isIdentifierPart_of_isDigit hd), ?_⟩
      constructor <;> (rintro rfl; exact absurd hd (by decide))
    · exact ⟨'-', _, rfl, by decide, show Fits true '-' by decide⟩
  | text ho hc hq hb =>
    have hall : ∀ p ∈ plainQuotes ++ typographicQuotes,
        isGap p.2 = false ∧ Fits true p.2 := by decide
    obtain ⟨hg, hf⟩ := hall _ (style.quotes_subset ho)
    exact ⟨_, _, rfl, hg, hf⟩
  | path hn h =>
    obtain ⟨c, rest, hd, hs⟩ := exists_dotted_eq (h _ List.mem_cons_self)
    have hp := isIdentifierPart_of_isIdentifierStart hs
    cases style with
    | marked => exact ⟨'@', _, rfl, by decide, show Fits true '@' by decide⟩
    | _ => exact ⟨c, rest, hd, isGap_of_isIdentifierPart hp, fits_of_isIdentifierStart hs _⟩

/-- A lexeme that ends like a word ends with a letter, a digit or an underscore; one that closes an
operand does not end like a sign. -/
theorem exists_getLast? (h : Lexeme style names token w) :
    ∃ c, w.getLast? = some c ∧ (joinsWord c = true → Text.isIdentifierPart c = true) ∧
      (token.closes = true → joinsEquals c = false) := by
  -- Words, numbers and paths end with a character of an identifier.
  have of_part : ∀ {token : Token} {c : Char}, Text.isIdentifierPart c = true →
      (joinsWord c = true → Text.isIdentifierPart c = true) ∧
        (token.closes = true → joinsEquals c = false) :=
    fun hp ↦ ⟨fun _ ↦ hp, fun _ ↦ joinsEquals_of_isIdentifierPart hp⟩
  cases h with
  | sign h =>
    have hall : ∀ p ∈ strictSigns ++ looseSigns, p.1.getLast?.any (fun c ↦
        !joinsWord c && !(p.2.closes && joinsEquals c)) = true := by decide
    obtain ⟨c, hc, hj⟩ := (Option.any_eq_true _ _).1 (hall _ (style.signs_subset h))
    rw [Bool.and_eq_true, Bool.not_eq_true', Bool.not_eq_true', Bool.and_eq_false_imp] at hj
    exact ⟨c, hc, fun hw ↦ absurd (hj.1.symm.trans hw) (by decide), hj.2⟩
  | word h hl =>
    obtain ⟨hne, ha⟩ := isAlpha_of_reserved h hl
    exact ⟨_, List.getLast?_eq_some_getLast hne,
      of_part (isIdentifierPart_of_isAlpha (ha _ (List.getLast_mem hne)))⟩
  | number h ha =>
    obtain ⟨c, hc, hd⟩ := h.exists_getLast?
    exact ⟨c, hc, of_part (isIdentifierPart_of_isDigit hd)⟩
  | text ho hc hq hb =>
    have hall : ∀ p ∈ plainQuotes ++ typographicQuotes,
        joinsWord p.2 = false ∧ joinsEquals p.2 = false := by decide
    obtain ⟨hw, he⟩ := hall _ (style.quotes_subset hc)
    refine ⟨_, List.getLast?_concat, ?_, fun _ ↦ he⟩
    rw [hw]
    exact fun hf ↦ absurd hf (by decide)
  | path hn h =>
    obtain ⟨c, hc, hp⟩ := exists_getLast?_dotted h
    refine ⟨c, ?_, of_part hp⟩
    rw [List.getLast?_append, hc]
    rfl

end Lexeme

/-- A gap in front decides how a text begins; behind an empty one the rest does. -/
theorem Begins.of_gap {awaited : Bool} {gap rest : List Char} (hg : gap.all isGap = true)
    (hr : Begins awaited rest) : Begins awaited (gap ++ rest) := by
  cases gap with
  | nil => exact hr
  | cons c gap =>
    rintro d ⟨rfl⟩
    simp only [List.all_cons, Bool.and_eq_true] at hg
    exact fits_of_isGap hg.1 awaited

/-- A spelling begins with a gap, or with a character that fits where an operand does or does not
come next. -/
theorem Spells.begins {style : Style} {names : List String} {tokens : List Token} {cs : List Char}
    {awaited : Bool} (h : Spells style names tokens cs) (ht : TakesTurns awaited tokens) :
    Begins awaited cs := by
  cases h with
  | nil _ hg =>
    have hm : Begins awaited (cs ++ []) := .of_gap hg (by simp [Begins])
    rwa [List.append_nil] at hm
  | cons gap w rest hg hw ha h =>
    rw [List.append_assoc]
    apply Begins.of_gap hg
    obtain ⟨c, more, rfl, -, hf⟩ := hw.exists_cons
    rintro d ⟨rfl⟩
    rw [← ht.1]
    exact hf

end LoanClosing.Condition

import LoanClosing.Json.Decode
import LoanClosing.Proofs.Json.Token
import Mathlib.Data.Nat.Digits.Defs

/-!
# Numbers read back

A number reads back in front of anything that cannot go on with it as soon as it reads back by
itself. A whole number of sixty-four bits always does.
-/

namespace LoanClosing.Json

namespace Token

variable {rest : Rest}

/-- Whether what follows cannot go on with a number. -/
def Ends (rest : Rest) : Prop :=
  ∀ c, rest.head? = some (some c) → c.isDigit = false ∧ c ≠ '.' ∧ c ≠ 'e' ∧ c ≠ 'E'

theorem ends_nil : Ends [] := nofun

theorem ends_cons {c : Char} (h : c.isDigit = false ∧ c ≠ '.' ∧ c ≠ 'e' ∧ c ≠ 'E')
    (rest : Rest) : Ends (some c :: rest) := by
  intro d hd
  obtain rfl := Option.some.inj (Option.some.inj hd)
  exact h

/-- Digits stop where no digit follows. -/
theorem leadingDigits_append (h : Ends rest) (cs : Rest) :
    leadingDigits (cs ++ rest) = ((leadingDigits cs).1, (leadingDigits cs).2 ++ rest) := by
  fun_induction leadingDigits cs with
  | case1 c cs hc ih => rw [List.cons_append, leadingDigits, if_pos hc, ih]
  | case2 c cs hc => rw [List.cons_append, leadingDigits, if_neg hc]
  | case3 cs hcs =>
    cases cs with
    | cons c cs =>
      cases c with
      | none => rfl
      | some c => exact absurd rfl (hcs c cs)
    | nil =>
      cases rest with
      | nil => rfl
      | cons c rest =>
        cases c with
        | none => rfl
        | some c =>
          have hd := (h c rfl).1
          simp [leadingDigits, hd]

variable {negative : Bool} {whole places : List Char} {cs left : Rest}
  {value : Except Fault Number}

/-- The digits of an exponent, whose sign has been read. -/
def exponentDigits (negative : Bool) (whole places : List Char) (minus : Bool) (rest : Rest) :
    Token × Rest :=
  match leadingDigits rest with
  | ([], _) => (brokenNumber rest, [])
  | (digits, left) =>
    let size : Int := Text.digitsValue digits
    (.number (floatNumber negative whole places (if minus then -size else size)), left)

/-- What stands behind the digits of an exponent does not matter. -/
theorem exponentDigits_append (h : Ends rest) {minus : Bool}
    (he : exponentDigits negative whole places minus cs = (.number value, left)) :
    exponentDigits negative whole places minus (cs ++ rest) = (.number value, left ++ rest) := by
  unfold exponentDigits at he ⊢
  rw [leadingDigits_append h]
  generalize leadingDigits cs = scanned at he ⊢
  obtain ⟨digits, more⟩ := scanned
  cases digits with
  | nil => cases (Prod.mk.inj he).1
  | cons digit digits =>
    obtain ⟨hv, rfl⟩ := Prod.mk.inj he
    exact Prod.ext hv rfl

/-- An exponent without a sign. -/
theorem exponentPart_unsigned {c : Char} (hm : c ≠ '-') (hp : c ≠ '+') (tail : Rest) :
    exponentPart negative whole places (some c :: tail) =
      exponentDigits negative whole places false (some c :: tail) := by
  unfold exponentPart
  split
  next heq =>
    split at heq
    · next h => exact absurd (Option.some.inj (List.cons.inj h).1) hm
    · next h => exact absurd (Option.some.inj (List.cons.inj h).1) hp
    · obtain ⟨rfl, rfl⟩ := Prod.mk.inj heq
      rfl

/-- What stands behind an exponent does not matter. -/
theorem exponentPart_append (h : Ends rest)
    (he : exponentPart negative whole places cs = (.number value, left)) :
    exponentPart negative whole places (cs ++ rest) = (.number value, left ++ rest) := by
  match cs with
  | [] => cases (Prod.mk.inj he).1
  | none :: cs => cases (Prod.mk.inj he).1
  | some c :: cs =>
    by_cases hm : c = '-'
    · subst hm
      exact exponentDigits_append h
        (show exponentDigits negative whole places true cs = (.number value, left) from he)
    · by_cases hp : c = '+'
      · subst hp
        exact exponentDigits_append h
          (show exponentDigits negative whole places false cs = (.number value, left) from he)
      · rw [exponentPart_unsigned hm hp] at he
        rw [List.cons_append, exponentPart_unsigned hm hp, ← List.cons_append]
        exact exponentDigits_append h he

/-- Whether what follows does not begin with an exponent. -/
def Unscaled (rest : Rest) : Prop := ∀ c, rest.head? = some (some c) → c ≠ 'e' ∧ c ≠ 'E'

theorem Ends.unscaled (h : Ends rest) : Unscaled rest := fun c hc ↦ (h c hc).2.2

theorem unscaled_append (hc : Unscaled cs) (h : Ends rest) : Unscaled (cs ++ rest) := by
  cases cs with
  | nil => exact h.unscaled
  | cons c cs => exact hc

theorem unscaled_or_exponent (rest : Rest) :
    Unscaled rest ∨ ∃ e, (e = 'e' ∨ e = 'E') ∧ ∃ more, rest = some e :: more := by
  by_cases he : ∃ e, (e = 'e' ∨ e = 'E') ∧ rest.head? = some (some e)
  · obtain ⟨e, he, hr⟩ := he
    exact .inr ⟨e, he, List.head?_eq_some_iff.1 hr⟩
  · exact .inl fun c hc ↦ ⟨fun h ↦ he ⟨c, .inl h, hc⟩, fun h ↦ he ⟨c, .inr h, hc⟩⟩

theorem head?_append_ne_point (h : Ends rest) (hc : cs.head? ≠ some (some '.')) :
    (cs ++ rest).head? ≠ some (some '.') := by
  cases cs with
  | nil => exact fun hr ↦ (h '.' hr).2.1 rfl
  | cons c cs => exact hc

variable {e : Char}

theorem afterWhole_exponent (he : e = 'e' ∨ e = 'E') :
    afterWhole negative whole (some e :: cs) = exponentPart negative whole [] cs := by
  rcases he with rfl | rfl <;> rfl

theorem afterWhole_whole (hc : Unscaled cs) (hp : cs.head? ≠ some (some '.')) :
    afterWhole negative whole cs = (.number (wholeNumber negative whole), cs) := by
  unfold afterWhole
  split
  · exact absurd rfl hp
  · exact absurd rfl (hc 'e' rfl).1
  · exact absurd rfl (hc 'E' rfl).2
  · rfl

theorem afterWhole_point_nil (hd : leadingDigits cs = ([], left)) :
    afterWhole negative whole (some '.' :: cs) = (brokenNumber cs, []) := by
  simp only [afterWhole, hd]

theorem afterWhole_point_exponent (hd : leadingDigits cs = (places, some e :: left))
    (hp : places ≠ []) (he : e = 'e' ∨ e = 'E') :
    afterWhole negative whole (some '.' :: cs) = exponentPart negative whole places left := by
  obtain ⟨place, places, rfl⟩ := List.exists_cons_of_ne_nil hp
  rcases he with rfl | rfl <;> simp only [afterWhole, hd]

theorem afterWhole_point (hd : leadingDigits cs = (places, left)) (hp : places ≠ [])
    (hl : Unscaled left) :
    afterWhole negative whole (some '.' :: cs) =
      (.number (floatNumber negative whole places 0), left) := by
  simp only [afterWhole, hd]
  split
  · next h => exact absurd (Prod.mk.inj h).1 hp
  · next h => exact absurd rfl (hl 'e' ((Prod.mk.inj h).2 ▸ rfl)).1
  · next h => exact absurd rfl (hl 'E' ((Prod.mk.inj h).2 ▸ rfl)).2
  · next h => rw [(Prod.mk.inj h).1, (Prod.mk.inj h).2]

/-- What stands behind the part after the whole digits does not matter. -/
theorem afterWhole_append (h : Ends rest)
    (ha : afterWhole negative whole cs = (.number value, left)) :
    afterWhole negative whole (cs ++ rest) = (.number value, left ++ rest) := by
  by_cases hpoint : cs.head? = some (some '.')
  · obtain ⟨cs, rfl⟩ := List.head?_eq_some_iff.1 hpoint
    have happ := leadingDigits_append h cs
    rcases hd : leadingDigits cs with ⟨places, more⟩
    rw [hd] at happ
    by_cases hp : places = []
    · subst hp
      rw [afterWhole_point_nil hd] at ha
      cases (Prod.mk.inj ha).1
    · rcases unscaled_or_exponent more with hm | ⟨e, he, more, rfl⟩
      · rw [afterWhole_point hd hp hm] at ha
        obtain ⟨hv, rfl⟩ := Prod.mk.inj ha
        rw [← hv]
        exact afterWhole_point happ hp (unscaled_append hm h)
      · rw [afterWhole_point_exponent hd hp he] at ha
        exact (afterWhole_point_exponent happ hp he).trans (exponentPart_append h ha)
  · rcases unscaled_or_exponent cs with hc | ⟨e, he, cs, rfl⟩
    · rw [afterWhole_whole hc hpoint] at ha
      obtain ⟨hv, rfl⟩ := Prod.mk.inj ha
      rw [← hv]
      exact afterWhole_whole (unscaled_append hc h) (head?_append_ne_point h hpoint)
    · rw [afterWhole_exponent he] at ha
      exact (afterWhole_exponent he).trans (exponentPart_append h ha)

/-- Whether digits can be the whole part of a number: there are some, and more than one do not begin
with zero. -/
def IsWhole (digits : List Char) : Prop := digits ≠ [] ∧ ∀ d ds, digits ≠ '0' :: d :: ds

theorem numberPart_whole (hd : leadingDigits cs = (whole, left)) (hw : IsWhole whole) :
    numberPart negative cs = afterWhole negative whole left := by
  simp only [numberPart, hd]
  split
  · next h => exact absurd (Prod.mk.inj h).1 hw.1
  · next h => exact absurd (Prod.mk.inj h).1 (hw.2 _ _)
  · next h => rw [(Prod.mk.inj h).1, (Prod.mk.inj h).2]

/-- Digits that are no whole part break the text. -/
theorem numberPart_not_whole (hd : leadingDigits cs = (whole, left)) (hw : ¬IsWhole whole) :
    (numberPart negative cs).1.isBroken = true := by
  simp only [numberPart, hd]
  split
  · rfl
  · rfl
  · next hnil hzero h =>
    obtain ⟨rfl, rfl⟩ := Prod.mk.inj h
    exact absurd ⟨hnil, hzero⟩ hw

/-- What stands behind a number does not matter. -/
theorem numberPart_append (h : Ends rest)
    (hn : numberPart negative cs = (.number value, left)) :
    numberPart negative (cs ++ rest) = (.number value, left ++ rest) := by
  have happ := leadingDigits_append h cs
  rcases hd : leadingDigits cs with ⟨whole, more⟩
  rw [hd] at happ
  by_cases hw : IsWhole whole
  · rw [numberPart_whole hd hw] at hn
    rw [numberPart_whole happ hw]
    exact afterWhole_append h hn
  · have hb : (numberPart negative cs).1.isBroken = true := numberPart_not_whole hd hw
    rw [hn] at hb
    cases hb

/-- Whether a character can begin a number. -/
def BeginsNumber (c : Char) : Prop := c = '-' ∨ c.isDigit = true

theorem next_minus (cs : Rest) : next '-' cs = numberPart true cs := rfl

theorem next_digit {c : Char} (hc : c.isDigit = true) (cs : Rest) :
    next c cs = numberPart false (some c :: cs) := by
  unfold next
  split <;> first | cases hc | exact if_pos hc

/-- What stands behind a token that is a number does not matter. -/
theorem next_append {c : Char} (hc : BeginsNumber c) (h : Ends rest)
    (hn : next c cs = (.number value, left)) :
    next c (cs ++ rest) = (.number value, left ++ rest) := by
  rcases hc with rfl | hc
  · exact numberPart_append h hn
  · rw [next_digit hc] at hn ⊢
    exact numberPart_append h hn

theorem isBlank_of_beginsNumber {c : Char} (hc : BeginsNumber c) : isBlank c = false := by
  rcases hc with rfl | hc
  · rfl
  · by_contra hb
    simp only [isBlank, Bool.not_eq_false, Bool.or_eq_true, beq_iff_eq] at hb
    rcases hb with ((rfl | rfl) | rfl) | rfl <;> cases hc

/-- Where nothing but blanks is left, what stands behind it is scanned alone. -/
theorem scan_append_of_nil (h : scan left = []) (rest : Rest) :
    scan (left ++ rest) = scan rest := by
  induction left with
  | nil => rfl
  | cons c left ih =>
    match c with
    | none => rw [scan] at h; cases h
    | some c =>
      by_cases hb : isBlank c = true
      · rw [scan_blank hb] at h
        rw [List.cons_append, scan_blank hb, ih h]
      · rw [scan, if_neg hb] at h
        split at h <;> cases h

/-- A number that is the whole of a text is scanned the same in front of what cannot go on with
it. -/
theorem scan_number_append {c : Char} (hc : BeginsNumber c)
    (hs : scan (some c :: cs) = [.number value]) (h : Ends rest) :
    scan (some c :: cs ++ rest) = .number value :: scan rest := by
  have hb := isBlank_of_beginsNumber hc
  rw [scan, hb] at hs
  rcases hn : next c cs with ⟨token, left⟩
  simp only [hn, Bool.false_eq_true, if_false] at hs
  split at hs
  · next ht => rw [(List.cons.inj hs).1] at ht; cases ht
  · obtain ⟨rfl, hleft⟩ := List.cons.inj hs
    rw [List.cons_append, scan_cons hb (next_append hc h hn) rfl, scan_append_of_nil hleft]

/-- Whether a token is one that a number or a broken number gives. -/
def Numeric (token : Token) : Prop := token.isBroken = true ∨ ∃ value, token = .number value

theorem numeric_exponentPart (cs : Rest) : Numeric (exponentPart negative whole places cs).1 := by
  unfold exponentPart
  split
  split
  · exact .inl rfl
  · exact .inr ⟨_, rfl⟩

theorem numeric_numberPart (cs : Rest) : Numeric (numberPart negative cs).1 := by
  rcases hd : leadingDigits cs with ⟨whole, left⟩
  by_cases hw : IsWhole whole
  · rw [numberPart_whole hd hw]
    unfold afterWhole
    split
    · split
      · exact .inl rfl
      · exact numeric_exponentPart _
      · exact numeric_exponentPart _
      · exact .inr ⟨_, rfl⟩
    · exact numeric_exponentPart _
    · exact numeric_exponentPart _
    · exact .inr ⟨_, rfl⟩
  · exact .inl (numberPart_not_whole hd hw)

theorem numeric_next {c : Char} (hc : BeginsNumber c) (cs : Rest) : Numeric (next c cs).1 := by
  rcases hc with rfl | hc
  · exact numeric_numberPart cs
  · rw [next_digit hc]
    exact numeric_numberPart _

/-! ### Whole numbers -/

/-- Digits are read up to the end. -/
theorem leadingDigits_map_some {digits : List Char} (h : ∀ c ∈ digits, c.isDigit = true) :
    leadingDigits (digits.map some) = (digits, []) := by
  induction digits with
  | nil => rfl
  | cons c digits ih =>
    have ⟨hc, hcs⟩ := List.forall_mem_cons.1 h
    rw [List.map_cons, leadingDigits, if_pos hc, ih hcs]

theorem isDigit_of_mem_toDigits {c : Char} {n : Nat} (h : c ∈ Nat.toDigits 10 n) :
    c.isDigit = true :=
  Nat.isDigit_of_mem_toDigits (by decide) (by decide) h

theorem digitsValue_toDigits (n : Nat) : Text.digitsValue (Nat.toDigits 10 n) = n := by
  have h := Nat.ofDigitChars_ten_toDigits (n := n)
  rwa [Nat.ofDigitChars_eq_foldl] at h

/-- No zero stands in front of the digits of a number other than zero. -/
theorem head?_toDigits_ne_zero {n : Nat} (h : 0 < n) : (Nat.toDigits 10 n).head? ≠ some '0' := by
  induction n using Nat.strongRecOn with
  | ind n ih =>
    by_cases hn : n < 10
    · rw [Nat.toDigits_of_lt_base hn]
      have key : ∀ k < 10, 0 < k → [Nat.digitChar k].head? ≠ some '0' := by decide
      exact key n hn h
    · have hle : 10 ≤ n := Nat.le_of_not_lt hn
      rw [Nat.toDigits_of_base_le (by decide) hle,
        List.head?_append_of_ne_nil _ Nat.toDigits_ne_nil]
      exact ih (n / 10) (Nat.div_lt_self h (by decide)) (Nat.div_pos hle (by decide))

theorem isWhole_toDigits (n : Nat) : IsWhole (Nat.toDigits 10 n) := by
  refine ⟨Nat.toDigits_ne_nil, fun d ds h ↦ ?_⟩
  rcases Nat.eq_zero_or_pos n with rfl | hn
  · cases h
  · exact head?_toDigits_ne_zero hn (h ▸ rfl)

/-- The digits of a number are read as a whole number, whatever its sign. -/
theorem numberPart_toDigits (negative : Bool) (n : Nat) :
    numberPart negative ((Nat.toDigits 10 n).map some) =
      (.number (wholeNumber negative (Nat.toDigits 10 n)), []) := by
  have hd := leadingDigits_map_some fun c (hc : c ∈ Nat.toDigits 10 n) ↦ isDigit_of_mem_toDigits hc
  rw [numberPart_whole hd (isWhole_toDigits n)]
  exact afterWhole_whole nofun nofun

end Token

namespace Number

open Token

/-- The characters of a whole number. -/
theorem chars_integer_ofNat (n : Nat) :
    chars (.integer (.ofNat n)) = Nat.toDigits 10 n :=
  Nat.toList_repr

theorem chars_integer_negSucc (n : Nat) :
    chars (.integer (.negSucc n)) = '-' :: Nat.toDigits 10 (n + 1) := by
  change ("-" ++ Nat.repr (n + 1)).toList = _
  rw [String.toList_append, Nat.toList_repr]
  rfl

/-- Whether a whole number is one of sixty-four bits, with a sign or without. -/
def InRange (n : Int) : Prop := -2 ^ 63 ≤ n ∧ n < 2 ^ 64

theorem wholeNumber_unsigned {n : Nat} (h : n < 2 ^ 64) :
    wholeNumber false (Nat.toDigits 10 n) = .ok (.integer n) := by
  have hn : n < Nat.pow 2 64 := h
  simp only [wholeNumber, digitsValue_toDigits, Bool.false_and, Bool.false_eq_true, if_false,
    Bool.not_false, Bool.true_and, decide_eq_true hn, if_true]

theorem wholeNumber_signed {n : Nat} (hpos : 0 < n) (h : n ≤ 2 ^ 63) :
    wholeNumber true (Nat.toDigits 10 n) = .ok (.integer (-n)) := by
  have hn : n ≤ Nat.pow 2 63 := h
  simp only [wholeNumber, digitsValue_toDigits, Bool.true_and, decide_eq_true hpos,
    decide_eq_true hn, if_true]

/-! ### Written numbers -/

/-- Whether characters begin as a number does. -/
def Begins (cs : List Char) : Prop := ∃ c tail, cs = c :: tail ∧ BeginsNumber c

theorem Begins.append {cs : List Char} (h : Begins cs) (tail : List Char) :
    Begins (cs ++ tail) := by
  obtain ⟨c, cs, rfl, hc⟩ := h
  exact ⟨c, cs ++ tail, rfl, hc⟩

theorem begins_of_digits {cs : List Char} (hne : cs ≠ []) (h : ∀ c ∈ cs, c.isDigit = true) :
    Begins cs := by
  obtain ⟨c, cs, rfl⟩ := List.exists_cons_of_ne_nil hne
  exact ⟨c, cs, rfl, .inr (h c List.mem_cons_self)⟩

theorem begins_toDigits (n : Nat) : Begins (Nat.toDigits 10 n) :=
  begins_of_digits Nat.toDigits_ne_nil fun _ ↦ isDigit_of_mem_toDigits

theorem begins_positional (coefficient : Nat) (power : Int) :
    Begins (positional coefficient power) := by
  unfold positional
  dsimp only
  split
  · exact ((begins_toDigits coefficient).append _).append _
  · refine Begins.append (Begins.append (begins_of_digits ?_ fun c hc ↦ ?_) _) _
    · refine List.ne_nil_of_length_pos ?_
      simp only [List.length_take, List.length_append, List.length_replicate]
      omega
    · rcases List.mem_append.1 (List.mem_of_mem_take hc) with h | h
      · exact (List.mem_replicate.1 h).2 ▸ rfl
      · exact isDigit_of_mem_toDigits h

theorem begins_scientific (coefficient : Nat) (power : Int) :
    Begins (scientific coefficient power) := by
  unfold scientific
  refine Begins.append (Begins.append ?_ _) _
  split
  · next h => exact absurd h Nat.toDigits_ne_nil
  · next d h => exact h ▸ begins_toDigits coefficient
  · next d ds _ h =>
    exact ⟨d, _, rfl, .inr (isDigit_of_mem_toDigits (h ▸ List.mem_cons_self))⟩

/-- A number is written with a sign or a digit in front. -/
theorem begins_chars (n : Number) : Begins n.chars := by
  match n with
  | .integer (.ofNat n) => exact chars_integer_ofNat n ▸ begins_toDigits n
  | .integer (.negSucc n) => exact ⟨_, _, chars_integer_negSucc n, .inl rfl⟩
  | .float x =>
    unfold chars
    dsimp only
    split
    · exact ⟨'-', _, rfl, .inl rfl⟩
    rw [List.nil_append]
    split
    · exact ⟨'0', _, rfl, .inr rfl⟩
    split
    · exact begins_positional ..
    · exact begins_scientific ..

/-- Whether the characters of a number are scanned as that number. -/
def Faithful (n : Number) : Prop := Token.scan (n.chars.map some) = [.number (.ok n)]

/-- Whether a number, written out, is read as itself. -/
def ReadsBack (n : Number) : Prop := decodeString Decode.json n.text = .ok (.number n)

/-- A number that reads back is the only token of its text. -/
theorem ReadsBack.faithful {n : Number} (h : n.ReadsBack) : n.Faithful := by
  obtain ⟨c, cs, hcs, hc⟩ := begins_chars n
  have hb := isBlank_of_beginsNumber hc
  unfold Faithful
  unfold ReadsBack decodeString decodeTree Node.ofString Node.ofRest text at h
  rw [String.toList_ofList] at h
  simp only [hcs, List.map_cons] at h ⊢
  rcases hn : next c (cs.map some) with ⟨token, left⟩
  -- That the first token is a number is seen from its characters: what is read shows it only by way
  -- of the tree.
  have hnum : Numeric token := by
    have := numeric_next hc (cs.map some)
    rwa [hn] at this
  rcases hnum with ht | ⟨value, rfl⟩
  · rw [Token.scan, hn, hb, if_neg Bool.false_ne_true, if_pos ht] at h
    cases token <;> cases ht
    cases h
  · rw [scan_cons hb hn rfl] at h ⊢
    cases value with
    | error fault => cases h
    | ok m =>
      cases hl : Token.scan left with
      | nil =>
        rw [hl] at h
        obtain rfl : m = n := Json.number.inj (Except.ok.inj h)
        rfl
      | cons token tokens =>
        rw [hl] at h
        cases h

/-- A whole number of sixty-four bits is faithful. -/
theorem faithful_integer {n : Int} (h : InRange n) : Faithful (.integer n) := by
  unfold Faithful
  cases n with
  | ofNat n =>
    have hn : n < 2 ^ 64 := by have := h.2; simp only [Int.ofNat_eq_natCast] at this; omega
    have hp := numberPart_toDigits false n
    rw [chars_integer_ofNat]
    obtain ⟨d, ds, hds⟩ := List.exists_cons_of_ne_nil (Nat.toDigits_ne_nil (n := n) (b := 10))
    have hd : d.isDigit = true := isDigit_of_mem_toDigits (hds ▸ List.mem_cons_self)
    rw [wholeNumber_unsigned hn, hds, List.map_cons, ← next_digit hd] at hp
    rw [hds, List.map_cons, scan_cons (isBlank_of_beginsNumber (.inr hd)) hp rfl, Token.scan]
    rfl
  | negSucc n =>
    have hn : n + 1 ≤ 2 ^ 63 := by have := h.1; omega
    have hp := numberPart_toDigits true (n + 1)
    rw [wholeNumber_signed n.succ_pos hn, ← next_minus] at hp
    rw [chars_integer_negSucc, List.map_cons, scan_cons rfl hp rfl, Token.scan]
    rfl

/-- A faithful number is scanned as itself in front of whatever cannot go on with it. -/
theorem Faithful.scan_append {n : Number} (h : n.Faithful) {rest : Rest} (hr : Ends rest) :
    Token.scan (n.chars.map some ++ rest) = .number (.ok n) :: Token.scan rest := by
  unfold Faithful at h
  obtain ⟨c, cs, hcs, hc⟩ := begins_chars n
  rw [hcs, List.map_cons] at h ⊢
  exact scan_number_append hc h hr

end Number

end LoanClosing.Json

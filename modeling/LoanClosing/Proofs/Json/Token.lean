import LoanClosing.Json.Printer
import LoanClosing.Json.Token
import Mathlib.Data.List.Basic

/-!
# Tokens read back

Signs, words and texts are scanned as the tokens that they were written for, whatever stands behind
them. A text reads back with all its characters: those that stand for themselves, those behind a
backslash and those given by number.
-/

namespace LoanClosing.Json

namespace Token

variable {rest : Rest}

/-! ### Signs, blanks and words -/

theorem scan_blank {c : Char} (h : isBlank c = true) (rest : Rest) :
    scan (some c :: rest) = scan rest := by
  rw [scan, if_pos h]

/-- A token that does not break the text is followed by the tokens of what is left. -/
theorem scan_cons {c : Char} {token : Token} {rest left : Rest} (hb : isBlank c = false)
    (hn : next c rest = (token, left)) (ht : token.isBroken = false) :
    scan (some c :: rest) = token :: scan left := by
  rw [scan, hn]
  simp [hb, ht]

theorem scan_openArray (rest : Rest) : scan (some '[' :: rest) = .openArray :: scan rest :=
  scan_cons rfl rfl rfl

theorem scan_closeArray (rest : Rest) : scan (some ']' :: rest) = .closeArray :: scan rest :=
  scan_cons rfl rfl rfl

theorem scan_openObject (rest : Rest) :
    scan (some '\x7b' :: rest) = .openObject :: scan rest :=
  scan_cons rfl rfl rfl

theorem scan_closeObject (rest : Rest) :
    scan (some '\x7d' :: rest) = .closeObject :: scan rest :=
  scan_cons rfl rfl rfl

theorem scan_colon (rest : Rest) : scan (some ':' :: rest) = .colon :: scan rest :=
  scan_cons rfl rfl rfl

theorem scan_comma (rest : Rest) : scan (some ',' :: rest) = .comma :: scan rest :=
  scan_cons rfl rfl rfl

theorem scan_null (rest : Rest) :
    scan (['n', 'u', 'l', 'l'].map some ++ rest) = .null :: scan rest :=
  scan_cons rfl (by simp [next, word]) rfl

theorem scan_true (rest : Rest) :
    scan (['t', 'r', 'u', 'e'].map some ++ rest) = .bool true :: scan rest :=
  scan_cons rfl (by simp [next, word]) rfl

theorem scan_false (rest : Rest) :
    scan (['f', 'a', 'l', 's', 'e'].map some ++ rest) = .bool false :: scan rest :=
  scan_cons rfl (by simp [next, word]) rfl

/-! ### Texts -/

/-- Characters that have been read without a fault. -/
def Partial.ofChars (cs : List Char) : Partial := ⟨cs.reverse, none, none, true⟩

theorem Partial.push_ofChars (cs : List Char) (c : Char) :
    (ofChars cs).push c = ofChars (cs ++ [c]) := by
  simp [ofChars, push]

/-- A character given by its number, when that is no half of a surrogate pair. -/
theorem Partial.pushUnit_ofChars (cs : List Char) {c : Char} (h : c.toNat < 32) :
    (ofChars cs).pushUnit c.toNat = ofChars (cs ++ [c]) := by
  have hlow : ¬(0xDC00 ≤ c.toNat ∧ c.toNat ≤ 0xDFFF) := by omega
  have hhigh : ¬(0xD800 ≤ c.toNat ∧ c.toNat ≤ 0xDBFF) := by omega
  simp [ofChars, pushUnit, hlow, hhigh]

theorem Partial.close_ofChars (cs : List Char) :
    (ofChars cs).close = .text (.ok (String.ofList cs)) := by
  simp [ofChars, close]

/-- A hexadecimal digit reads back. -/
theorem hexValue?_hexDigit (n : Nat) : Text.hexValue? (hexDigit n) = some (n % 16) := by
  have key : ∀ k < 16, Text.hexValue? (Nat.digitChar k) = some k := by decide
  exact key (n % 16) (Nat.mod_lt n (by decide))

/-- The four digits for a control character read back. -/
theorem hexFour?_control {n : Nat} (h : n < 32) (rest : Rest) :
    hexFour? (some '0' :: some '0' :: some (hexDigit (n / 16)) :: some (hexDigit n) :: rest) =
      some n := by
  have hz : Text.hexValue? '0' = some 0 := by decide
  have hn : n / 16 % 16 * 16 + n % 16 = n := by omega
  simp [hexFour?, hz, hexValue?_hexDigit, hn]

/-- The four digits for a control character are four bytes. -/
theorem byteCount_control (n : Nat) :
    byteCount [some '0', some '0', some (hexDigit (n / 16)), some (hexDigit n)] = 4 := by
  have key : ∀ k < 16, (Nat.digitChar k).utf8Size = 1 := by decide
  have hd (k : Nat) : (hexDigit k).utf8Size = 1 := key (k % 16) (Nat.mod_lt k (by decide))
  have hz : ('0' : Char).utf8Size = 1 := by decide
  simp [byteCount, hd, hz]

/-- A character behind a backslash. -/
theorem textPart_escaped {e c : Char} (he : escaped? e = some c) (cs : List Char) (rest : Rest) :
    textPart (.ofChars cs) (some '\x5c' :: some e :: rest) =
      textPart (.ofChars (cs ++ [c])) rest := by
  rw [textPart.eq_def, ← Partial.push_ofChars]
  generalize hp : Partial.ofChars cs = p
  have hh : p.high = none := hp ▸ rfl
  have hu : e ≠ 'u' := by rintro rfl; cases he
  simp [he, hh]

/-- A control character by its number. -/
theorem textPart_control {c : Char} (h : c.toNat < 32) (cs : List Char) (rest : Rest) :
    textPart (.ofChars cs) (some '\x5c' :: some 'u' :: some '0' :: some '0' ::
        some (hexDigit (c.toNat / 16)) :: some (hexDigit c.toNat) :: rest) =
      textPart (.ofChars (cs ++ [c])) rest := by
  rw [textPart.eq_def]
  simp only [List.take_succ_cons, List.take_zero, byteCount_control, hexFour?_control h,
    Nat.lt_irrefl, if_false, Partial.pushUnit_ofChars _ h, List.drop_succ_cons, List.drop_zero]
  rfl

/-- A character that stands for itself. -/
theorem textPart_plain {c : Char} (hq : c ≠ '\x22') (hb : c ≠ '\x5c') (hc : ¬c.toNat < 32)
    (cs : List Char) (rest : Rest) :
    textPart (.ofChars cs) (some c :: rest) = textPart (.ofChars (cs ++ [c])) rest := by
  rw [textPart.eq_def]
  simp only [hq, hb, hc, if_false, Partial.push_ofChars]

/-- The closing quote. -/
theorem textPart_quote (p : Partial) (rest : Rest) :
    textPart p (some '\x22' :: rest) = (p.close, rest) := by
  rw [textPart.eq_def]
  rfl

/-- Every character inside a text reads back. -/
theorem textPart_escapeChar (c : Char) (cs : List Char) (rest : Rest) :
    textPart (.ofChars cs) ((escapeChar c).map some ++ rest) =
      textPart (.ofChars (cs ++ [c])) rest := by
  have hof {n : Nat} (h : c.toNat = n) : c = Char.ofNat n := by rw [← h, Char.ofNat_toNat]
  unfold escapeChar
  split
  · next h => subst h; exact textPart_escaped rfl cs rest
  split
  · next h => subst h; exact textPart_escaped rfl cs rest
  split
  · next h => exact hof h ▸ textPart_escaped rfl cs rest
  split
  · next h => exact hof h ▸ textPart_escaped rfl cs rest
  split
  · next h => exact hof h ▸ textPart_escaped rfl cs rest
  split
  · next h => exact hof h ▸ textPart_escaped rfl cs rest
  split
  · next h => exact hof h ▸ textPart_escaped rfl cs rest
  split
  · next h => exact textPart_control h cs rest
  · next hq hb _ _ _ _ _ hc => exact textPart_plain hq hb hc cs rest

/-- The characters of a text up to its closing quote read back. -/
theorem textPart_escaped_chars (cs done : List Char) (rest : Rest) :
    textPart (.ofChars done) ((cs.flatMap escapeChar).map some ++ some '\x22' :: rest) =
      (.text (.ok (String.ofList (done ++ cs))), rest) := by
  induction cs generalizing done with
  | nil =>
    rw [List.flatMap_nil, List.map_nil, List.nil_append, textPart_quote, Partial.close_ofChars,
      List.append_nil]
  | cons c cs ih =>
    rw [List.flatMap_cons, List.map_append, List.append_assoc, textPart_escapeChar, ih,
      List.append_assoc, List.singleton_append]

/-- A text reads back. -/
theorem scan_quotedChars (s : String) (rest : Rest) :
    scan ((quotedChars s).map some ++ rest) = .text (.ok s) :: scan rest := by
  have ht := textPart_escaped_chars s.toList [] rest
  rw [List.nil_append, String.ofList_toList] at ht
  rw [quotedChars, List.map_cons, List.map_append, List.cons_append, List.append_assoc]
  exact scan_cons rfl ht rfl

end Token

end LoanClosing.Json

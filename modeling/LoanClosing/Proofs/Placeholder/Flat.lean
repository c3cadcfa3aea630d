import LoanClosing.Proofs.Placeholder.Joined

/-!
# Filling read off the flat text

The leaves of a paragraph put together are one text, its flat text. A token of a text is an opening
brace and all up to the next brace, if that one closes; what stands between is its key. Which tokens
are replaced, and by what, is read off the flat text alone, and so is what stands at each of its
places afterwards: the character itself, unless a replaced token begins there or runs over it.
-/

namespace LoanClosing

namespace Flat

/-- Whether a character is a brace. -/
def isBrace (c : Char) : Bool := c == '\x7b' || c == '\x7d'

/-- The key of the token that a text begins with. -/
def keyAtFront? : List Char → Option (List Char)
  | [] => none
  | c :: rest =>
    let key := rest.takeWhile (!isBrace ·)
    if c = '\x7b' ∧ (rest.drop key.length).head? = some '\x7d' then some key else none

/-- The key of the token that begins at a place of a text. -/
def keyAt? (cs : List Char) (place : Nat) : Option (List Char) := keyAtFront? (cs.drop place)

/-- The keys of the tokens of a text, in order. -/
def keys : List Char → List (List Char)
  | [] => []
  | c :: cs => (keyAtFront? (c :: cs)).toList ++ keys cs

/-- What takes the place of a token, if it is replaced. -/
def replacement? (scope : Scope) (key : List Char) : Option (List Char) :=
  match Placeholder.filling scope key with
  | .put text => some text
  | .missing => some []
  | .keep | .unqualified => none

/-- Whether a token that is replaced begins before a place and ends there or behind it. -/
def isInside (scope : Scope) (cs : List Char) (place : Nat) : Bool :=
  (List.range place).any fun first ↦ (keyAt? cs first).any fun key ↦
    (replacement? scope key).isSome && place ≤ first + key.length + 1

/-- What filling leaves of the character at a place of a text. -/
def standing (scope : Scope) (cs : List Char) (place : Nat) : List Char :=
  match (keyAt? cs place).bind (replacement? scope) with
  | some text => text
  | none => if isInside scope cs place then [] else cs[place]?.toList

/-! ### Tokens -/

/-- Only an opening brace begins a token. -/
theorem keyAtFront?_of_ne {c : Char} (h : c ≠ '\x7b') (rest : List Char) :
    keyAtFront? (c :: rest) = none := by
  simp [keyAtFront?, h]

/-- An opening brace, a key without braces and a closing brace are a token. -/
theorem keyAtFront?_token {key : List Char} (h : ∀ c ∈ key, isBrace c = false)
    (rest : List Char) : keyAtFront? ('\x7b' :: (key ++ '\x7d' :: rest)) = some key := by
  have ht : (key ++ '\x7d' :: rest).takeWhile (!isBrace ·) = key := by
    rw [List.takeWhile_append_of_pos (by simpa using h)]
    simp [isBrace]
  simp [keyAtFront?, ht]

/-- A token is an opening brace, a key without braces and a closing brace. -/
theorem exists_of_keyAtFront? {cs key : List Char} (h : keyAtFront? cs = some key) :
    (∀ c ∈ key, isBrace c = false) ∧ ∃ rest, cs = '\x7b' :: (key ++ '\x7d' :: rest) := by
  cases cs with
  | nil => simp [keyAtFront?] at h
  | cons c rest =>
    simp only [keyAtFront?, Option.ite_none_right_eq_some, Option.some.injEq] at h
    obtain ⟨⟨rfl, hd⟩, rfl⟩ := h
    refine ⟨fun c hc ↦ by simpa using List.mem_takeWhile_imp hc, ?_⟩
    obtain ⟨more, hm⟩ := List.head?_eq_some_iff.mp hd
    refine ⟨more, ?_⟩
    rw [← hm]
    congr 1
    exact (List.prefix_iff_eq_append.mp (List.takeWhile_prefix _)).symm

/-- Where no opening brace stands, no token begins. -/
theorem keyAt?_eq_none {cs : List Char} {place : Nat} (h : cs[place]? ≠ some '\x7b') :
    keyAt? cs place = none := by
  rw [keyAt?]
  cases hd : cs.drop place with
  | nil => rfl
  | cons c rest =>
    apply keyAtFront?_of_ne
    rintro rfl
    apply h
    rw [← List.head?_drop, hd, List.head?_cons]

/-- The token behind a text is the one that the rest begins with. -/
theorem keyAt?_append (before rest : List Char) :
    keyAt? (before ++ rest) before.length = keyAtFront? rest := by
  rw [keyAt?, List.drop_left]

/-- No token begins inside of a token. -/
theorem keyAt?_inside {before key rest : List Char} (h : ∀ c ∈ key, isBrace c = false) {n : Nat}
    (hn : n ≤ key.length) :
    keyAt? (before ++ '\x7b' :: (key ++ '\x7d' :: rest)) (before.length + 1 + n) = none := by
  apply keyAt?_eq_none
  rw [List.getElem?_append_right (by omega), show before.length + 1 + n - before.length = n + 1 by
    omega, List.getElem?_cons_succ]
  by_cases hl : n < key.length
  · rw [List.getElem?_append_left hl, List.getElem?_eq_getElem hl]
    intro he
    have hb := h _ (List.getElem_mem hl)
    rw [Option.some.inj he] at hb
    simp [isBrace] at hb
  · obtain rfl : n = key.length := by omega
    simp

/-- Where no opening brace stands, there are no keys. -/
theorem keys_append_of_noOpen {cs : List Char} (h : ∀ c ∈ cs, c ≠ '\x7b') (rest : List Char) :
    keys (cs ++ rest) = keys rest := by
  induction cs with
  | nil => rfl
  | cons c cs ih =>
    rw [List.cons_append, keys, keyAtFront?_of_ne (h c List.mem_cons_self),
      ih fun d hd ↦ h d (List.mem_cons_of_mem c hd)]
    rfl

/-- The key of a token, and the keys behind it. -/
theorem keys_token {key : List Char} (h : ∀ c ∈ key, isBrace c = false) (rest : List Char) :
    keys ('\x7b' :: (key ++ '\x7d' :: rest)) = key :: keys rest := by
  have hn : ∀ c ∈ key ++ ['\x7d'], c ≠ '\x7b' := by
    rintro c hc rfl
    rcases List.mem_append.mp hc with hc | hc
    · exact absurd (h _ hc) (by decide)
    · exact absurd (List.mem_singleton.mp hc) (by decide)
  have hk := keys_append_of_noOpen hn rest
  rw [List.append_assoc, List.singleton_append] at hk
  rw [keys, keyAtFront?_token h, hk]
  rfl

end Flat

namespace Glyph

/-- Glyphs that are no braces have no braces among their characters. -/
theorem isBrace_chars {glyphs : List Glyph} (h : ∀ glyph ∈ glyphs, glyph.isBrace = false) :
    ∀ c ∈ chars glyphs, Flat.isBrace c = false := by
  intro c hc
  obtain ⟨glyph, hg, he⟩ := List.mem_filterMap.mp hc
  cases glyph with
  | seam => simp [char?] at he
  | char d =>
    obtain rfl : d = c := by simpa [char?] using he
    simpa [isBrace, Flat.isBrace] using h _ hg

/-- An opening brace of glyphs that has no closer begins no token of their characters. -/
theorem keyAtFront?_of_unclosed {glyphs : List Glyph}
    (h : ∀ rest, glyphs.dropWhile (!·.isBrace) ≠ .char '\x7d' :: rest) :
    Flat.keyAtFront? ('\x7b' :: chars glyphs) = none := by
  cases hk : Flat.keyAtFront? ('\x7b' :: chars glyphs) with
  | none => rfl
  | some key =>
    obtain ⟨hb, rest, he⟩ := Flat.exists_of_keyAtFront? hk
    simp only [List.cons.injEq, true_and] at he
    have hj : (joined glyphs).dropWhile (!·.isBrace) = .char '\x7d' :: ofChars rest := by
      have hn : ∀ glyph ∈ ofChars key, (!glyph.isBrace) = true := by
        intro glyph hg
        obtain ⟨c, hc, rfl⟩ := List.mem_map.mp hg
        simpa [isBrace, Flat.isBrace] using hb c hc
      rw [joined, he, ofChars_append, List.dropWhile_append_of_pos hn]
      rfl
    obtain ⟨more, hm⟩ := dropWhile_of_joined hj
    exact absurd hm (h more)

/-- Puts a text for the character at each place; seams stay. -/
def spread (out : Nat → List Char) (place : Nat) : List Glyph → List Glyph
  | [] => []
  | .seam :: glyphs => .seam :: spread out place glyphs
  | .char _ :: glyphs => ofChars (out place) ++ spread out (place + 1) glyphs

variable {out : Nat → List Char}

theorem spread_append (out : Nat → List Char) (place : Nat) (first rest : List Glyph) :
    spread out place (first ++ rest) =
      spread out place first ++ spread out (place + (chars first).length) rest := by
  induction first generalizing place with
  | nil => rfl
  | cons glyph first ih =>
    cases glyph with
    | seam => rw [List.cons_append, spread, spread, ih, chars_seam, List.cons_append]
    | char c =>
      rw [List.cons_append, spread, spread, ih, chars_char, List.length_cons, List.append_assoc,
        show place + 1 + (chars first).length = place + ((chars first).length + 1) by omega]

/-- Where nothing is put for any character, the seams are left. -/
theorem spread_of_nil {place : Nat} {glyphs : List Glyph}
    (h : ∀ n < (chars glyphs).length, out (place + n) = []) :
    spread out place glyphs = glyphs.filter (· == .seam) := by
  induction glyphs generalizing place with
  | nil => rfl
  | cons glyph glyphs ih =>
    cases glyph with
    | seam => rw [spread, ih h]; rfl
    | char c =>
      have h0 := h 0 (by simp)
      rw [spread, ih fun n hn ↦ ?_]
      · simp only [Nat.add_zero] at h0
        rw [h0]
        rfl
      · rw [Nat.add_assoc, Nat.add_comm 1 n]
        exact h (n + 1) (by simpa using hn)

/-- Where every character is put for itself, nothing changes. -/
theorem spread_of_self {place : Nat} {glyphs : List Glyph}
    (h : ∀ n < (chars glyphs).length, out (place + n) = (chars glyphs)[n]?.toList) :
    spread out place glyphs = glyphs := by
  induction glyphs generalizing place with
  | nil => rfl
  | cons glyph glyphs ih =>
    cases glyph with
    | seam => rw [spread, ih h]
    | char c =>
      have h0 := h 0 (by simp)
      simp only [Nat.add_zero, chars_char, List.getElem?_cons_zero, Option.toList_some] at h0
      rw [spread, h0, ih fun n hn ↦ ?_]
      · rfl
      · rw [Nat.add_assoc, Nat.add_comm 1 n, h (n + 1) (by simpa using hn), chars_char,
          List.getElem?_cons_succ]

/-- Texts for the characters of a text. -/
theorem spread_ofChars (out : Nat → List Char) (place : Nat) (cs : List Char) :
    spread out place (ofChars cs) =
      ofChars ((List.range cs.length).flatMap fun n ↦ out (place + n)) := by
  induction cs generalizing place with
  | nil => rfl
  | cons c cs ih =>
    have hs : ∀ n, place + 1 + n = place + (n + 1) := by omega
    rw [ofChars, List.map_cons, spread]
    change _ ++ spread out (place + 1) (ofChars cs) = _
    rw [ih, List.length_cons, List.range_succ_eq_map, List.flatMap_cons, ofChars_append,
      List.flatMap_map]
    simp only [hs, Nat.succ_eq_add_one, Nat.add_zero]

/-- The texts of leaves with a text put for the character at each place. -/
def spreadTexts (out : Nat → List Char) (place : Nat) : List (List Char) → List (List Char)
  | [] => []
  | cs :: more =>
    ((List.range cs.length).flatMap fun n ↦ out (place + n)) ::
      spreadTexts out (place + cs.length) more

/-- Putting texts for characters leaf by leaf. -/
theorem texts_spread_ofTexts (out : Nat → List Char) (place : Nat) (cs : List Char)
    (more : List (List Char)) :
    texts (spread out place (ofTexts (cs :: more))) = spreadTexts out place (cs :: more) := by
  induction more generalizing cs place with
  | nil => rw [ofTexts, spread_ofChars, texts_ofChars, spreadTexts, spreadTexts]
  | cons ds more ih =>
    have ho : ofTexts (cs :: ds :: more) = ofChars cs ++ .seam :: ofTexts (ds :: more) := rfl
    rw [ho, spread_append, spread_ofChars, spread, chars_ofChars, texts_ofChars_append_seam, ih]
    rfl

/-- The text of each leaf, by the number of characters in front of it. -/
theorem getElem?_spreadTexts (out : Nat → List Char) (place : Nat) (texts : List (List Char))
    (i : Nat) :
    (spreadTexts out place texts)[i]? = texts[i]?.map fun cs ↦
      (List.range cs.length).flatMap fun n ↦ out (place + (texts.take i).flatten.length + n) := by
  induction texts generalizing place i with
  | nil => simp [spreadTexts]
  | cons cs texts ih =>
    cases i with
    | zero => simp [spreadTexts]
    | succ i =>
      rw [spreadTexts, List.getElem?_cons_succ, List.getElem?_cons_succ, ih, List.take_succ_cons,
        List.flatten_cons, List.length_append, Nat.add_assoc place]

end Glyph

namespace Flat

variable {scope : Scope} {before cs : List Char}

/-- No token that begins in the first part of a text ends in the second part. -/
def Apart (before cs : List Char) : Prop :=
  ∀ first key, first < before.length → keyAt? (before ++ cs) first = some key →
    first + key.length + 1 < before.length

/-- No token begins in front of a text. -/
theorem apart_nil (cs : List Char) : Apart [] cs := by
  intro first key h
  simp at h

/-- A character that begins no token may be added to the first part. -/
theorem Apart.snoc {c : Char} (h : Apart before (c :: cs)) (hc : keyAtFront? (c :: cs) = none) :
    Apart (before ++ [c]) cs := by
  intro first key hf hk
  rw [List.append_assoc, List.singleton_append] at hk
  rw [List.length_append, List.length_singleton] at hf ⊢
  by_cases he : first = before.length
  · rw [he, keyAt?_append, hc] at hk
    simp at hk
  · have hl := h first key (by omega) hk
    omega

/-- A token may be added to the first part. -/
theorem Apart.token {key : List Char} (hb : ∀ c ∈ key, isBrace c = false)
    (h : Apart before ('\x7b' :: (key ++ '\x7d' :: cs))) :
    Apart (before ++ '\x7b' :: (key ++ ['\x7d'])) cs := by
  intro first other hf hk
  have he : before ++ '\x7b' :: (key ++ ['\x7d']) ++ cs =
      before ++ '\x7b' :: (key ++ '\x7d' :: cs) := by simp
  rw [he] at hk
  simp only [List.length_append, List.length_cons, List.length_nil] at hf ⊢
  rcases Nat.lt_trichotomy first before.length with hl | rfl | hl
  · have := h first other hl hk
    omega
  · rw [keyAt?_append, keyAtFront?_token hb] at hk
    obtain rfl := Option.some.inj hk
    omega
  · obtain ⟨n, rfl⟩ := Nat.exists_eq_add_of_le hl
    rw [Nat.succ_eq_add_one, keyAt?_inside hb (by omega)] at hk
    simp at hk

/-- A character that no replaced token begins with or runs over stays. -/
theorem standing_of_apart {c : Char} (h : Apart before (c :: cs))
    (hc : (keyAtFront? (c :: cs)).bind (replacement? scope) = none) :
    standing scope (before ++ c :: cs) before.length = [c] := by
  have hi : isInside scope (before ++ c :: cs) before.length = false := by
    rw [isInside, List.any_eq_false]
    intro first hf
    cases hk : keyAt? (before ++ c :: cs) first with
    | none => simp
    | some key =>
      have hl := h first key (List.mem_range.mp hf) hk
      simp only [Option.any_some, Bool.and_eq_true, decide_eq_true_eq]
      omega
  rw [standing, keyAt?_append, hc, hi]
  simp

/-- Behind the brace that begins a token, all of it stays, unless the token is replaced. -/
theorem standing_of_kept {key : List Char} (hb : ∀ c ∈ key, isBrace c = false)
    (h : Apart before ('\x7b' :: (key ++ '\x7d' :: cs))) (hr : replacement? scope key = none)
    {n : Nat} (hn : n ≤ key.length) :
    standing scope (before ++ '\x7b' :: (key ++ '\x7d' :: cs)) (before.length + 1 + n) =
      (before ++ '\x7b' :: (key ++ '\x7d' :: cs))[before.length + 1 + n]?.toList := by
  have hi : isInside scope (before ++ '\x7b' :: (key ++ '\x7d' :: cs)) (before.length + 1 + n) =
      false := by
    rw [isInside, List.any_eq_false]
    intro first hf
    cases hk : keyAt? (before ++ '\x7b' :: (key ++ '\x7d' :: cs)) first with
    | none => simp
    | some other =>
      rcases Nat.lt_trichotomy first before.length with hl | rfl | hl
      · have := h first other hl hk
        simp only [Option.any_some, Bool.and_eq_true, decide_eq_true_eq]
        omega
      · rw [keyAt?_append, keyAtFront?_token hb] at hk
        simp [← Option.some.inj hk, hr]
      · obtain ⟨m, rfl⟩ := Nat.exists_eq_add_of_le hl
        have hm := List.mem_range.mp hf
        rw [Nat.succ_eq_add_one, keyAt?_inside hb (by omega)] at hk
        simp at hk
  rw [standing, keyAt?_inside hb hn, hi]
  rfl

/-- Behind the brace that begins a token, nothing of it stays, if the token is replaced. -/
theorem standing_of_replaced {key text : List Char} (hb : ∀ c ∈ key, isBrace c = false)
    (hr : replacement? scope key = some text) {n : Nat} (hn : n ≤ key.length) :
    standing scope (before ++ '\x7b' :: (key ++ '\x7d' :: cs)) (before.length + 1 + n) = [] := by
  have hi : isInside scope (before ++ '\x7b' :: (key ++ '\x7d' :: cs)) (before.length + 1 + n) =
      true := by
    rw [isInside, List.any_eq_true]
    refine ⟨before.length, List.mem_range.mpr (by omega), ?_⟩
    rw [keyAt?_append, keyAtFront?_token hb]
    simp only [Option.any_some, hr, Option.isSome_some, Bool.true_and, decide_eq_true_eq]
    omega
  rw [standing, keyAt?_inside hb hn, hi]
  rfl

/-- At the brace that begins a token stands what replaces it. -/
theorem standing_of_replacement {key text : List Char} (hb : ∀ c ∈ key, isBrace c = false)
    (hr : replacement? scope key = some text) :
    standing scope (before ++ '\x7b' :: (key ++ '\x7d' :: cs)) before.length = text := by
  rw [standing, keyAt?_append, keyAtFront?_token hb]
  simp [hr]

end Flat

end LoanClosing

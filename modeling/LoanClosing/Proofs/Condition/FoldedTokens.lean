import LoanClosing.Proofs.Condition.Folding

/-!
# Scanning references in another case

With the letters made small that stand behind the first segment of a reference, a text is scanned
into the same tokens but for their paths: texts and numbers hold no such letter, words have no case,
and the length of a path depends on none.
-/

namespace LoanClosing.Condition.Token

theorem nameLength_map_toLower (cs : List Char) :
    nameLength (cs.map Char.toLower) = nameLength cs := by
  have hdrop (rest : List Char) : (rest.map Char.toLower).dropWhile Text.isIdentifierPart =
      (rest.dropWhile Text.isIdentifierPart).map Char.toLower :=
    Text.dropWhile_map_toLower Text.isIdentifierPart_toLower rest
  have htake (rest : List Char) : ((rest.map Char.toLower).takeWhile Text.isIdentifierPart).length =
      (rest.takeWhile Text.isIdentifierPart).length := by
    rw [Text.takeWhile_map_toLower Text.isIdentifierPart_toLower, List.length_map]
  have hpoint : Char.toLower '.' = '.' := by decide
  fun_induction nameLength cs with
  | case1 => rw [List.map_nil, nameLength]
  | case2 c rest hc part more hm _ hz ih =>
    rw [List.map_cons, nameLength, Text.isIdentifierStart_toLower, if_pos hc]
    simp only [htake]
    split
    · next more' hm' =>
      rw [hdrop, hm, List.map_cons, hpoint] at hm'
      obtain rfl := (List.cons.inj hm').2
      rw [ih, hz]
    · rfl
  | case3 c rest hc part more hm _ n hn ih =>
    rw [List.map_cons, nameLength, Text.isIdentifierStart_toLower, if_pos hc]
    simp only [htake]
    split
    · next more' hm' =>
      rw [hdrop, hm, List.map_cons, hpoint] at hm'
      obtain rfl := (List.cons.inj hm').2
      rw [ih, hn]
    · next hne =>
      rw [hdrop, hm, List.map_cons, hpoint] at hne
      exact absurd rfl (hne _)
  | case4 c rest hc part hm =>
    rw [List.map_cons, nameLength, Text.isIdentifierStart_toLower, if_pos hc]
    simp only [htake]
    split
    · next more' hm' =>
      rw [hdrop] at hm'
      obtain ⟨more, he, -⟩ := map_toLower_eq_cons rfl hm'
      exact absurd he (hm more)
    · rfl
  | case5 c rest hc => rw [List.map_cons, nameLength, Text.isIdentifierStart_toLower, if_neg hc]

theorem numberLength_map_toLower (cs : List Char) :
    numberLength (cs.map Char.toLower) = numberLength cs := by
  have hdigits (cs : List Char) : (cs.map Char.toLower).takeWhile Char.isDigit =
      cs.takeWhile Char.isDigit := by
    rw [Text.takeWhile_map_toLower isDigit_toLower]
    refine (List.map_congr_left fun c hc ↦ ?_).trans (List.map_id _)
    exact toLower_of_isDigit (List.mem_takeWhile_imp hc)
  have hdrop : (cs.map Char.toLower).dropWhile Char.isDigit =
      (cs.dropWhile Char.isDigit).map Char.toLower :=
    Text.dropWhile_map_toLower isDigit_toLower cs
  rw [numberLength, numberLength, hdigits, hdrop]
  cases cs.takeWhile Char.isDigit with
  | nil => rfl
  | cons first whole =>
    cases cs.dropWhile Char.isDigit with
    | nil => rfl
    | cons c rest =>
      by_cases hc : c = '.'
      · subst hc
        have hpoint : ('.' :: rest).map Char.toLower = '.' :: rest.map Char.toLower := rfl
        simp only [hpoint, hdigits]
      · have hc' : c.toLower ≠ '.' := by
          rw [← beq_eq_false_iff_ne, Text.toLower_beq rfl, beq_eq_false_iff_ne]
          exact hc
        rw [List.map_cons]
        split
        · next h => cases h
        · next h _ => exact absurd (List.cons.inj h).1 hc'
        · split
          · next h => cases h
          · next h _ => exact absurd (List.cons.inj h).1 hc
          · rfl

/-- A token with its path made small behind the first segment. -/
def foldPath : Token → Token
  | .path segments => .path (Scope.foldSegments segments)
  | token => token

theorem foldPath_of_mem_strictSigns {sign : List Char} {token : Token}
    (h : (sign, token) ∈ strictSigns) : foldPath token = token := by
  have hall : ∀ p ∈ strictSigns, foldPath p.2 = p.2 := by decide
  exact hall _ h

theorem foldPath_of_mem_reservedWords {word : String} {token : Token}
    (h : (word, token) ∈ reservedWords) : foldPath token = token := by
  have hall : ∀ p ∈ reservedWords, foldPath p.2 = p.2 := by decide
  exact hall _ h

theorem segmentsOf_foldTail (name : List Char) :
    segmentsOf (Text.foldTail name) = Scope.foldSegments (segmentsOf name) := by
  obtain ⟨head, more, hs, hf⟩ := Text.exists_splitAt_foldTail name
  rw [segmentsOf, segmentsOf, hs, hf, List.map_cons, List.map_cons, Scope.foldSegments,
    List.map_map, List.map_map]
  congr 1
  refine List.map_congr_left fun piece _ ↦ ?_
  rw [Function.comp_apply, Function.comp_apply, Text.lowerAscii, String.toList_ofList]

theorem ofPair?_toLower (c d : Char) : ofPair? c d.toLower = ofPair? c d := by
  have hsigns : ∀ p ∈ strictSigns, p.1.all (fun c ↦ !c.isAlpha) = true := by decide
  have hnone {d : Char} (hd : d.isAlpha = true) : ofPair? c d = none := by
    cases hp : ofPair? c d with
    | none => rfl
    | some token =>
      have hsign := List.all_eq_true.1 (hsigns _ (ofPair?_eq_some_iff.1 hp)) d
        (List.mem_cons_of_mem c List.mem_cons_self)
      rw [hd] at hsign
      cases hsign
  cases hd : d.isAlpha with
  | false => rw [toLower_of_isAlpha_eq_false hd]
  | true =>
    have hd' : d.toLower.isAlpha = true := (isAlpha_toLower d).trans hd
    rw [hnone hd, hnone hd']

section

variable {c : Char}

theorem next?_text_foldTails (hq : isQuote c = true) (behind : Bool) (rest : List Char) :
    next? c (foldTails (some c) behind rest) = (next? c rest).map (Prod.map foldPath id) := by
  have hbody : (foldTails (some c) behind rest).takeWhile (· != c) = rest.takeWhile (· != c) := by
    induction rest generalizing behind with
    | nil => rw [foldTails]
    | cons d rest ih =>
      by_cases hd : d = c
      · rw [foldTails, List.takeWhile_cons_of_neg (by simpa using hd),
          List.takeWhile_cons_of_neg (by simpa using hd)]
      · rw [foldTails, if_neg hd, List.takeWhile_cons_of_pos (by simpa using hd),
          List.takeWhile_cons_of_pos (by simpa using hd), ih]
  rw [next?, if_pos hq, next?, if_pos hq, hbody, length_foldTails]
  dsimp only
  split <;> rfl

theorem next?_path_foldTails (rest : List Char) :
    next? '@' (foldTails none false rest) = (next? '@' rest).map (Prod.map foldPath id) := by
  have hlength : nameLength (foldTails none false rest) = nameLength rest := by
    rw [← nameLength_map_toLower, map_toLower_foldTails, nameLength_map_toLower]
  have hq : ¬ isQuote '@' = true := by decide
  rw [next?, if_neg hq, if_pos rfl, next?, if_neg hq, if_pos rfl, hlength]
  cases hn : nameLength rest with
  | zero => rfl
  | succ n =>
    have hne : nameLength rest ≠ 0 := by omega
    obtain ⟨head, more, behind, hr, hl, hi, -⟩ := exists_of_nameLength_ne_zero hne
    have htake : rest.take (n + 1) = dotted head more := by
      rw [← hn, ← hl, hr, List.take_left]
    simp only [take_foldTails, htake, foldTails_path (mem_dotted hi), segmentsOf_foldTail,
      Option.map_some, Prod.map_apply, foldPath, id]

theorem next?_word_foldTails (hs : Text.isIdentifierStart c = true) (behind behind' : Bool)
    (rest : List Char) :
    next? (if behind = true then c.toLower else c) (foldTails none behind' rest) =
      (next? c rest).map (Prod.map foldPath id) := by
  have hmore : ((foldTails none behind' rest).takeWhile Text.isIdentifierPart).map Char.toLower =
      (rest.takeWhile Text.isIdentifierPart).map Char.toLower := by
    rw [← Text.takeWhile_map_toLower Text.isIdentifierPart_toLower, map_toLower_foldTails,
      Text.takeWhile_map_toLower Text.isIdentifierPart_toLower]
  have hlength := congrArg List.length hmore
  rw [List.length_map, List.length_map] at hlength
  have hq : isQuote c = false := isQuote_of_isOrdinary
    (isOrdinary_of_isIdentifierPart (isIdentifierPart_of_isIdentifierStart hs))
  have hat : c ≠ '@' := by
    rintro rfl
    exact absurd hs (by decide)
  have hat' : (if behind = true then c.toLower else c) ≠ '@' := by
    rw [← beq_eq_false_iff_ne, apply_ite_toLower (f := (· == '@')) (Text.toLower_beq rfl),
      beq_eq_false_iff_ne]
    exact hat
  have hword : ofWord? ((if behind = true then c.toLower else c) ::
      (foldTails none behind' rest).takeWhile Text.isIdentifierPart) =
        ofWord? (c :: rest.takeWhile Text.isIdentifierPart) := by
    rw [ofWord?, ofWord?, List.map_cons, List.map_cons, hmore,
      apply_ite_toLower Text.toLower_toLower]
  rw [next?, apply_ite_toLower isQuote_toLower, hq, if_neg Bool.false_ne_true, if_neg hat',
    apply_ite_toLower Text.isIdentifierStart_toLower, if_pos hs, next?, hq,
    if_neg Bool.false_ne_true, if_neg hat, if_pos hs]
  dsimp only
  rw [hword, hlength]
  cases hw : ofWord? (c :: rest.takeWhile Text.isIdentifierPart) with
  | none => rfl
  | some token =>
    obtain ⟨reserved, hm, -⟩ := ofWord?_eq_some_iff.1 hw
    simp only [Option.map_some, Prod.map_apply, foldPath_of_mem_reservedWords hm, id]

/-- What is taken for a number holds no letters. -/
theorem toLower_of_mem_number (cs : List Char) (h : c ∈ cs.take (numberLength cs)) :
    c.toLower = c := by
  by_cases hz : numberLength cs = 0
  · rw [hz, List.take_zero] at h
    cases h
  · obtain ⟨whole, places, rest, hcs, hl, hn⟩ := exists_of_numberLength_ne_zero hz
    have htake : cs.take (numberLength cs) = [] ++ whole ++ places := by
      rw [← hl, hcs, List.take_left, List.nil_append]
    rw [htake] at h
    rcases hn.mem c h with hd | rfl | rfl
    · exact toLower_of_isDigit hd
    · decide
    · decide

theorem next?_number_foldTails (hd : c.isDigit = true ∨ c = '-') (behind : Bool)
    (rest : List Char) :
    next? c (foldTails none behind rest) = (next? c rest).map (Prod.map foldPath id) := by
  have hnumber {more : Nat} (hsmall : ∀ d ∈ rest.take more, d.toLower = d) :
      next?.number c (foldTails none behind rest) more =
        (next?.number c rest more).map (Prod.map foldPath id) := by
    rw [next?.number, next?.number, take_foldTails, foldTails_eq_self hsmall, Option.map_map]
    rfl
  rcases hd with hd | rfl
  · have hq : isQuote c = false :=
      isQuote_of_isOrdinary (isOrdinary_of_isIdentifierPart (isIdentifierPart_of_isDigit hd))
    have hs := isIdentifierStart_of_isDigit hd
    have hat : c ≠ '@' := by
      rintro rfl
      exact absurd hd (by decide)
    have hnext (rest : List Char) :
        next? c rest = next?.number c rest (numberLength (c :: rest) - 1) := by
      rw [next?, hq, hs, hd, if_neg hat]
      rfl
    have hlength : numberLength (c :: foldTails none behind rest) = numberLength (c :: rest) := by
      rw [← numberLength_map_toLower, List.map_cons, map_toLower_foldTails, ← List.map_cons,
        numberLength_map_toLower]
    rw [hnext, hnext, hlength]
    apply hnumber
    intro d hmem
    apply toLower_of_mem_number (c :: rest)
    have hne := numberLength_ne_zero hd rest
    rw [← Nat.succ_pred_eq_of_ne_zero hne, List.take_succ_cons]
    exact List.mem_cons_of_mem c hmem
  · have hlength : numberLength (foldTails none behind rest) = numberLength rest := by
      rw [← numberLength_map_toLower, map_toLower_foldTails, numberLength_map_toLower]
    have hnext (rest : List Char) : next? '-' rest =
        if numberLength rest = 0 then none else next?.number '-' rest (numberLength rest) := by
      rw [next?]
      cases hn : numberLength rest with
      | zero => rfl
      | succ n => rfl
    rw [hnext, hnext, hlength]
    split
    · rfl
    · exact hnumber fun d ↦ toLower_of_mem_number rest

theorem next?_sign_foldTails (hq : isQuote c = false) (hat : c ≠ '@')
    (hs : Text.isIdentifierStart c = false) (hd : c.isDigit = false) (hm : c ≠ '-')
    (behind : Bool) (rest : List Char) :
    next? c (foldTails none behind rest) = (next? c rest).map (Prod.map foldPath id) := by
  have hpair : (foldTails none behind rest).head?.bind (ofPair? c) =
      rest.head?.bind (ofPair? c) := by
    cases rest with
    | nil => rw [foldTails]
    | cons d rest =>
      rw [foldTails]
      exact apply_ite_toLower (ofPair?_toLower c) behind d
  have hnext (rest : List Char) : next? c rest =
      (rest.head?.bind (ofPair? c)).elim ((ofSign? c).map (·, 0)) fun token ↦ some (token, 1) := by
    rw [next?, hq, hs, hd, if_neg hat, if_neg hm]
    cases rest.head?.bind (ofPair? c) <;> rfl
  rw [hnext, hnext, hpair]
  cases hp : rest.head?.bind (ofPair? c) with
  | some token =>
    obtain ⟨d, -, hd⟩ := Option.bind_eq_some_iff.1 hp
    have hsign := foldPath_of_mem_strictSigns (ofPair?_eq_some_iff.1 hd)
    simp only [Option.elim_some, Option.map_some, Prod.map_apply, hsign, id]
  | none =>
    rw [Option.elim_none]
    cases hs : ofSign? c with
    | none => rfl
    | some token =>
      have hsign := foldPath_of_mem_strictSigns (ofSign?_eq_some_iff.1 hs)
      simp only [Option.map_some, Prod.map_apply, hsign, id]

/-- The scanner takes the same token with its path made small, and as many characters. -/
theorem next?_foldTails (behind : Bool) (c : Char) (rest : List Char) :
    next? (if behind = true then c.toLower else c)
        (foldTails (if isQuote c = true then some c else none)
          (c == '.' || behind && Text.isIdentifierPart c) rest) =
      (next? c rest).map (Prod.map foldPath id) := by
  by_cases hq : isQuote c = true
  · rw [if_pos hq, toLower_of_isQuote hq, ite_self]
    exact next?_text_foldTails hq _ rest
  rw [if_neg hq]
  by_cases hs : Text.isIdentifierStart c = true
  · exact next?_word_foldTails hs _ _ rest
  have hsmall : c.toLower = c := by
    rw [Text.isIdentifierStart, Bool.or_eq_true, not_or, Bool.not_eq_true] at hs
    exact toLower_of_isAlpha_eq_false hs.1
  rw [hsmall, ite_self]
  by_cases hat : c = '@'
  · subst hat
    have hflag : ('@' == '.' || behind && Text.isIdentifierPart '@') = false := by
      cases behind <;> rfl
    rw [hflag]
    exact next?_path_foldTails rest
  by_cases hd : c.isDigit = true ∨ c = '-'
  · exact next?_number_foldTails hd _ rest
  · rw [not_or, Bool.not_eq_true] at hd
    exact next?_sign_foldTails (by simpa using hq) hat (by simpa using hs) hd.1 hd.2 _ rest

variable {w rest : List Char} {token : Token} {taken : Nat}

/-- No quote is open behind a token. -/
theorem Written.openQuote_eq (h : token.Written w rest) : openQuote none w = none := by
  cases h with
  | sign h => exact openQuote_of_plain fun c hc ↦ (not_start_of_mem_strictSigns h c hc).1
  | word h hl =>
    refine openQuote_of_plain fun c hc ↦ ?_
    exact isQuote_of_isOrdinary (isOrdinary_of_mem_reserved h hl c hc)
  | number h => exact openQuote_of_plain fun c hc ↦ isQuote_of_isOrdinary (h.isOrdinary c hc)
  | text hq hb => exact openQuote_quoted hq hb
  | path h =>
    refine openQuote_of_plain fun c hc ↦ ?_
    rcases List.mem_cons.1 hc with rfl | hc
    · decide
    · exact isQuote_of_isOrdinary (isOrdinary_of_mem_dotted h c hc)

/-- Behind a token the rest is folded as outside of quotes. -/
theorem exists_drop_foldTails (h : next? c rest = some (token, taken)) (behind : Bool) :
    ∃ behind', (foldTails (if isQuote c = true then some c else none)
        (c == '.' || behind && Text.isIdentifierPart c) rest).drop taken =
      foldTails none behind' (rest.drop taken) := by
  obtain ⟨more, tail, rfl, rfl, hw⟩ := exists_of_next?_eq_some h
  obtain ⟨behind', he⟩ := exists_foldTails_append none behind (c :: more)
  have happend := he tail
  rw [hw.openQuote_eq, List.cons_append, foldTails, foldTails, List.cons_append] at happend
  refine ⟨behind', ?_⟩
  rw [(List.cons.inj happend).2, List.drop_left, List.drop_left' (length_foldTails _ _ more)]

/-- The tokens stay but for their paths. -/
theorem scan?_foldTails (behind : Bool) (cs : List Char) :
    scan? (foldTails none behind cs) = (scan? cs).map (List.map foldPath) := by
  fun_induction scan? cs generalizing behind with
  | case1 =>
    rw [foldTails, scan?]
    rfl
  | case2 c rest hg ih =>
    have hq : isQuote c = false := isQuote_of_isOrdinary (isOrdinary_of_isGap hg)
    rw [foldTails_cons hq, scan?, apply_ite_toLower isGap_toLower, if_pos hg]
    exact ih _
  | case3 c rest hg hn =>
    rw [foldTails, scan?, apply_ite_toLower isGap_toLower, if_neg hg, next?_foldTails, hn]
    rfl
  | case4 c rest hg token taken hn ih =>
    obtain ⟨behind', hd⟩ := exists_drop_foldTails hn behind
    rw [foldTails, scan?, apply_ite_toLower isGap_toLower, if_neg hg, next?_foldTails, hn]
    simp only [Option.map_some, Prod.map_apply, id]
    rw [hd, ih, Option.map_map, Option.map_map]
    rfl

end

end LoanClosing.Condition.Token

import LoanClosing.Proofs.Condition.FoldedTokens
import LoanClosing.Proofs.Condition.TextEquality
import LoanClosing.Proofs.Placeholder.Recased

/-!
# References in another case

A condition means the same whatever the case of its references is behind their first segments: the
grammar does not look at paths, and each path leads where it led. Together with what is resolved and
filled this says where the case of a path counts at all.
-/

namespace LoanClosing

namespace Condition

/-! ## Reading -/

/-- A condition with its paths made small behind their first segments. -/
def Expr.foldPaths : Expr → Expr
  | .literal value => .literal value
  | .path segments => .path (Scope.foldSegments segments)
  | .not operand => .not operand.foldPaths
  | .and left right => .and left.foldPaths right.foldPaths
  | .or left right => .or left.foldPaths right.foldPaths
  | .compare left comparison right => .compare left.foldPaths comparison right.foldPaths

section

variable {level : Level} {e : Expr} {tokens : List Token}

/-- Only a path is made small. -/
theorem Token.eq_of_foldPath_eq {token token' : Token} (h : token.foldPath = token')
    (hn : ∀ segments, token' ≠ .path segments) : token = token' := by
  cases token with
  | path segments => exact absurd h.symm (hn _)
  | _ => exact h

/-- Folding the paths of tokens folds the paths of the condition that they write. -/
theorem Writes.foldPaths (h : Writes level e tokens) :
    Writes level e.foldPaths (tokens.map Token.foldPath) := by
  induction h with
  | literal value => exact .literal value
  | path segments => exact .path _
  | parens h ih =>
    rw [List.map_append]
    exact ih.parens
  | operand h ih => exact ih.operand
  | compare comparison hl hr ihl ihr =>
    rw [List.map_append]
    exact .compare comparison ihl ihr
  | comparison h ih => exact ih.comparison
  | not h ih => exact ih.not
  | negation h ih => exact ih.negation
  | and hl hr ihl ihr =>
    rw [List.map_append]
    exact ihl.and ihr
  | conjunction h ih => exact ih.conjunction
  | or hl hr ihl ihr =>
    rw [List.map_append]
    exact ihl.or ihr

/-- Tokens write a condition if they do with their paths folded. -/
theorem Writes.exists_of_foldPath (h : Writes level e (tokens.map Token.foldPath)) :
    ∃ unfolded, Writes level unfolded tokens := by
  generalize ht : tokens.map Token.foldPath = folded at h
  -- The sign between two parts is the same token with and without folding.
  have split_sign {tokens lefts rights : List Token} {sign : Token}
      (ht : tokens.map Token.foldPath = lefts ++ sign :: rights)
      (hn : ∀ segments, sign ≠ .path segments) : ∃ lefts' rights',
        tokens = lefts' ++ sign :: rights' ∧ lefts'.map Token.foldPath = lefts ∧
          rights'.map Token.foldPath = rights := by
    obtain ⟨lefts', more, rfl, hl, hm⟩ := List.map_eq_append_iff.1 ht
    obtain ⟨token, rights', rfl, hs, hr⟩ := List.map_eq_cons_iff.1 hm
    exact ⟨lefts', rights', by rw [Token.eq_of_foldPath_eq hs hn], hl, hr⟩
  induction h generalizing tokens with
  | literal value =>
    obtain ⟨token, rest, rfl, hs, hr⟩ := List.map_eq_cons_iff.1 ht
    obtain rfl := List.map_eq_nil_iff.1 hr
    rw [Token.eq_of_foldPath_eq hs nofun]
    exact ⟨_, .literal value⟩
  | path segments =>
    obtain ⟨token, rest, rfl, hs, hr⟩ := List.map_eq_cons_iff.1 ht
    obtain rfl := List.map_eq_nil_iff.1 hr
    cases token with
    | path segments => exact ⟨_, .path segments⟩
    | _ => cases hs
  | parens h ih =>
    obtain ⟨lefts, rights, rfl, hl, hr⟩ := split_sign ht nofun
    obtain rfl := List.map_eq_nil_iff.1 hr
    obtain ⟨token, inner, rfl, hs, hi⟩ := List.map_eq_cons_iff.1 hl
    obtain ⟨e, he⟩ := ih hi
    rw [Token.eq_of_foldPath_eq hs nofun]
    exact ⟨e, he.parens⟩
  | operand h ih =>
    obtain ⟨e, he⟩ := ih ht
    exact ⟨e, he.operand⟩
  | compare comparison hl hr ihl ihr =>
    obtain ⟨lefts, rights, rfl, hl, hr⟩ := split_sign ht nofun
    obtain ⟨left, hl⟩ := ihl hl
    obtain ⟨right, hr⟩ := ihr hr
    exact ⟨_, .compare comparison hl hr⟩
  | comparison h ih =>
    obtain ⟨e, he⟩ := ih ht
    exact ⟨e, he.comparison⟩
  | not h ih =>
    obtain ⟨token, rest, rfl, hs, hr⟩ := List.map_eq_cons_iff.1 ht
    obtain ⟨e, he⟩ := ih hr
    rw [Token.eq_of_foldPath_eq hs nofun]
    exact ⟨_, he.not⟩
  | negation h ih =>
    obtain ⟨e, he⟩ := ih ht
    exact ⟨e, he.negation⟩
  | and hl hr ihl ihr =>
    obtain ⟨lefts, rights, rfl, hl, hr⟩ := split_sign ht nofun
    obtain ⟨left, hl⟩ := ihl hl
    obtain ⟨right, hr⟩ := ihr hr
    exact ⟨_, hl.and hr⟩
  | conjunction h ih =>
    obtain ⟨e, he⟩ := ih ht
    exact ⟨e, he.conjunction⟩
  | or hl hr ihl ihr =>
    obtain ⟨lefts, rights, rfl, hl, hr⟩ := split_sign ht nofun
    obtain ⟨left, hl⟩ := ihl hl
    obtain ⟨right, hr⟩ := ihr hr
    exact ⟨_, hl.or hr⟩

/-- A text is read as the same condition but for the case of its paths. -/
theorem parse?_foldTails (cs : List Char) :
    parse? (foldTails none false cs) = (parse? cs).map Expr.foldPaths := by
  cases hp : parse? cs with
  | some e =>
    obtain ⟨tokens, hs, hw⟩ := parse?_eq_some_iff.1 hp
    rw [Option.map_some, parse?_eq_some_iff, Token.scan?_foldTails, hs]
    exact ⟨_, rfl, hw.foldPaths⟩
  | none =>
    rw [Option.map_none, Option.eq_none_iff_forall_ne_some]
    intro folded hf
    obtain ⟨tokens, hs, hw⟩ := parse?_eq_some_iff.1 hf
    rw [Token.scan?_foldTails, Option.map_eq_some_iff] at hs
    obtain ⟨unfolded, hs, rfl⟩ := hs
    obtain ⟨e, he⟩ := hw.exists_of_foldPath
    rw [parse?_eq_some_iff.2 ⟨unfolded, hs, he⟩] at hp
    cases hp

end

/-! ## Evaluating -/

/-- A failure with the text that it names made small. -/
def Failure.folded : Failure → Failure
  | .illFormed condition => .illFormed (Text.lowerAscii condition)
  | .unbound path => .unbound (Text.lowerAscii path)
  | .notBoolean kind => .notBoolean kind
  | .incomparable left right => .incomparable left right

section

variable {scope : Scope}

theorem bind_mapError_congr {α β : Type} {x y : Except Failure α} {f g : α → Except Failure β}
    (h : x.mapError Failure.folded = y.mapError Failure.folded)
    (hf : ∀ a, (f a).mapError Failure.folded = (g a).mapError Failure.folded) :
    (x >>= f).mapError Failure.folded = (y >>= g).mapError Failure.folded := by
  cases x with
  | ok a =>
    cases y with
    | ok b =>
      obtain rfl := Except.ok.inj h
      exact hf a
    | error failure => cases h
  | error failure =>
    cases y with
    | ok b => cases h
    | error failure' => exact congrArg Except.error (Except.error.inj h)

/-- A path that is not bound is named in small letters all the same. -/
theorem lowerAscii_path (segments : List String) :
    Text.lowerAscii (".".intercalate (Scope.foldSegments segments)) =
      Text.lowerAscii (".".intercalate segments) := by
  have hlower : Text.lowerAscii ∘ Text.lowerAscii = Text.lowerAscii :=
    funext Text.lowerAscii_lowerAscii
  cases segments with
  | nil => rfl
  | cons head more =>
    rw [Scope.foldSegments, Text.lowerAscii_intercalate, Text.lowerAscii_intercalate, List.map_cons,
      List.map_map, hlower, List.map_cons]

/-- A condition with its paths folded has the same value, or none for the same reason. -/
theorem Expr.eval_foldPaths (h : scope.KeysDiffer) (e : Expr) :
    (e.foldPaths.eval scope).mapError Failure.folded =
      (e.eval scope).mapError Failure.folded := by
  induction e with
  | literal value => rfl
  | path segments =>
    rw [foldPaths, eval, eval, Scope.resolveSegments_foldSegments h]
    cases scope.resolveSegments segments with
    | found value => rfl
    | missing => rfl
    | unqualified =>
      exact congrArg (Except.error ∘ Failure.unbound) (lowerAscii_path segments)
  | not operand ih => exact bind_mapError_congr ih fun _ ↦ rfl
  | and left right ihl ihr =>
    refine bind_mapError_congr ihl fun value ↦ bind_mapError_congr rfl fun flag ↦ ?_
    cases flag with
    | false => rfl
    | true => exact bind_mapError_congr ihr fun _ ↦ rfl
  | or left right ihl ihr =>
    refine bind_mapError_congr ihl fun value ↦ bind_mapError_congr rfl fun flag ↦ ?_
    cases flag with
    | false => exact bind_mapError_congr ihr fun _ ↦ rfl
    | true => rfl
  | compare left comparison right ihl ihr =>
    exact bind_mapError_congr ihl fun a ↦ bind_mapError_congr ihr fun b ↦ rfl

/-! ## Conditions in another case -/

/-- One condition is another with the case of ASCII letters changed, but only of those outside of
quotes that stand behind the first segment of a reference. -/
def Recased (condition other : String) : Prop :=
  Text.sameFolded other condition = true ∧
    foldTails none false (other.toList.map foldQuote) =
      foldTails none false (condition.toList.map foldQuote)

variable {condition other : String}

/-- Wherever no quote is open, a reference may be written in another case. -/
theorem recased_of_reference {front reference reference' back : String}
    (hq : openQuote none (front.toList.map foldQuote) = none)
    (hr : Text.isDottedName reference.toList = true)
    (hf : Text.foldTail reference'.toList = Text.foldTail reference.toList) :
    Recased (front ++ reference ++ back) (front ++ reference' ++ back) := by
  have hlower : reference'.toList.map Char.toLower = reference.toList.map Char.toLower := by
    rw [← Text.map_toLower_foldTail, hf, Text.map_toLower_foldTail]
  have hchars : ∀ c ∈ reference.toList, Text.isIdentifierPart c = true ∨ c = '.' := by
    obtain ⟨head, more, hd, hi, -⟩ := exists_of_isDottedName hr
    rw [hd]
    exact mem_dotted hi
  have hchars' : ∀ c ∈ reference'.toList, Text.isIdentifierPart c = true ∨ c = '.' := by
    intro c hc
    have hmem : c.toLower ∈ reference.toList.map Char.toLower := hlower ▸ List.mem_map_of_mem hc
    obtain ⟨d, hd, he⟩ := List.mem_map.1 hmem
    have hpart : Text.isIdentifierPart c = Text.isIdentifierPart d := by
      rw [← Text.isIdentifierPart_toLower, ← he, Text.isIdentifierPart_toLower]
    have hpoint : (c == '.') = (d == '.') := by
      rw [← Text.toLower_beq rfl, ← he, Text.toLower_beq rfl]
    rw [hpart, ← beq_iff_eq (b := '.'), hpoint, beq_iff_eq]
    exact hchars d hd
  have hpoint : reference'.toList.contains '.' = reference.toList.contains '.' := by
    rw [← Text.contains_map_toLower rfl, hlower, Text.contains_map_toLower rfl]
  have hplain {w : List Char} (h : ∀ c ∈ w, Text.isIdentifierPart c = true ∨ c = '.') :
      w.map foldQuote = w := by
    apply map_foldQuote_of_isOrdinary
    intro c hc
    rcases h c hc with hp | rfl
    · exact isOrdinary_of_isIdentifierPart hp
    · decide
  constructor
  · rw [Text.sameFolded, beq_iff_eq]
    simp only [String.toList_append, List.map_append, hlower]
  · obtain ⟨behind, hfront⟩ := exists_foldTails_append none false (front.toList.map foldQuote)
    simp only [String.toList_append, List.map_append, List.append_assoc, hplain hchars,
      hplain hchars', hfront, hq, foldTails_path_append hchars, foldTails_path_append hchars',
      hlower, hf, hpoint]

/-- The strict spelling of a condition with folded references. -/
theorem strictSpelling_foldTails (scope : Scope) (condition : String) :
    qualify scope.names (relax none none (foldTails none false (condition.toList.map foldQuote))) =
      foldTails none false (strictSpelling scope condition) := by
  have hbehind : false = true → (none : Option Char).any joinsWord = true :=
    fun h ↦ absurd h (by decide)
  rw [relax_foldTails false rfl, qualify, mark_foldTails rfl hbehind]
  rfl

/-- Conditions that differ in the case of their references are read as the same condition but for
the case of its paths. -/
theorem Recased.parse?_eq (h : Recased condition other) (scope : Scope) :
    (parse? (strictSpelling scope other)).map Expr.foldPaths =
      (parse? (strictSpelling scope condition)).map Expr.foldPaths := by
  rw [← parse?_foldTails, ← parse?_foldTails, ← strictSpelling_foldTails,
    ← strictSpelling_foldTails, h.2]

/-- Such conditions have the same truth value, or none for the same reason. -/
theorem Recased.evaluate_eq (hc : Recased condition other) (h : scope.KeysDiffer) :
    (evaluate scope other).mapError Failure.folded =
      (evaluate scope condition).mapError Failure.folded := by
  have hparse := hc.parse?_eq scope
  rw [evaluate, evaluate]
  cases ho : parse? (strictSpelling scope other) with
  | none =>
    rw [ho] at hparse
    cases he : parse? (strictSpelling scope condition) with
    | none =>
      exact congrArg (Except.error ∘ Failure.illFormed) (Text.sameFolded_iff.1 hc.1)
    | some e =>
      rw [he] at hparse
      cases hparse
  | some e' =>
    rw [ho] at hparse
    cases he : parse? (strictSpelling scope condition) with
    | none =>
      rw [he] at hparse
      cases hparse
    | some e =>
      rw [he] at hparse
      have hfold : e'.foldPaths = e.foldPaths := Option.some.inj hparse
      refine bind_mapError_congr ?_ fun _ ↦ rfl
      rw [← Expr.eval_foldPaths h, hfold, Expr.eval_foldPaths h]

/-- One holds where the other does. -/
theorem Recased.holds_eq (hc : Recased condition other) (h : scope.KeysDiffer) :
    holds scope other = holds scope condition := by
  have heval := hc.evaluate_eq h
  rw [holds, holds]
  cases ho : evaluate scope other with
  | ok flag =>
    cases he : evaluate scope condition with
    | ok flag' =>
      rw [ho, he] at heval
      exact Except.ok.inj heval
    | error failure =>
      rw [ho, he] at heval
      cases heval
  | error failure =>
    cases he : evaluate scope condition with
    | ok flag' =>
      rw [ho, he] at heval
      cases heval
    | error failure' => rfl

end

end Condition

namespace Scope

variable {scope : Scope}

/-- Where no map or object has two keys that are equal up to ASCII case, the case of a path counts
in its first segment only. Written in another case behind it, a path leads to the same, a
placeholder is filled with the same, and a condition has the same truth value or none for the same
reason. A placeholder that nothing replaces stays as it is written, and failures may name texts in
the case that these are written in. -/
theorem recased_paths_agree (h : scope.KeysDiffer) :
    (∀ path other : String, Text.foldTail other.toList = Text.foldTail path.toList →
      scope.resolve other = scope.resolve path ∧
      scope.resolveItems other = scope.resolveItems path) ∧
    (∀ (block other : Block) (before inner inner' after : List Glyph),
      block.Recased other before inner inner' after →
      other.tally scope = block.tally scope ∧
      ((Flat.replacement? scope (Glyph.chars inner)).isSome = true →
        other.fill scope = block.fill scope) ∧
      (Flat.replacement? scope (Glyph.chars inner) = none →
        ∃ front back,
          block.fill scope = block.withTexts (Glyph.texts
            (front ++ (Segment.placeholder inner).glyphs ++ back)) ∧
          other.fill scope = block.withTexts (Glyph.texts
            (front ++ (Segment.placeholder inner').glyphs ++ back)))) ∧
    (∀ condition other, Condition.Recased condition other →
      (Condition.evaluate scope other).mapError Condition.Failure.folded =
        (Condition.evaluate scope condition).mapError Condition.Failure.folded ∧
      Condition.holds scope other = Condition.holds scope condition) ∧
    ∀ front reference reference' back : String,
      Condition.openQuote none (front.toList.map Condition.foldQuote) = none →
      Text.isDottedName reference.toList = true →
      Text.foldTail reference'.toList = Text.foldTail reference.toList →
      Condition.Recased (front ++ reference ++ back) (front ++ reference' ++ back) := by
  refine ⟨fun path other hp ↦ ?_, fun block other before inner inner' after hb ↦ ?_,
    fun condition other hc ↦ ?_, fun front reference reference' back ↦
      Condition.recased_of_reference⟩
  · have hresolve := resolve_eq_of_foldTail_eq h hp
    refine ⟨hresolve, ?_⟩
    rw [resolveItems, resolveItems, hresolve]
  · exact ⟨hb.tally_eq h, hb.fill_eq h, hb.exists_fill_kept h⟩
  · exact ⟨hc.evaluate_eq h, hc.holds_eq h⟩

theorem recased_paths_agree_product :
    let scope := outermost "Loan" (.object [("Product", .enum ⟨some "Fixed", none, none⟩),
      ("Parties", .list [.text "Ann", .text "Bob"])])
    scope.resolve "Loan.PRODUCT.name" = .found (.text "Fixed") ∧
      scope.resolve "Loan.product.DESCRIPTION" = .found .null ∧
      scope.resolveItems "Loan.parties" = [.text "Ann", .text "Bob"] ∧
      Condition.holds scope "Loan.PARTIES.count > 1" =
        Condition.holds scope "Loan.Parties.Count > 1" := by
  intro scope
  have hkeys : scope.KeysDiffer := by
    refine ⟨⟨?_, ?_⟩, List.forall_mem_nil _⟩
    · decide
    · trivial
  obtain ⟨hpaths, -, hconditions, hreference⟩ := recased_paths_agree hkeys
  refine ⟨?_, ?_, ?_, ?_⟩
  · exact (hpaths "Loan.Product.Name" "Loan.PRODUCT.name" (by decide)).1.trans rfl
  · exact (hpaths "Loan.Product.Description" "Loan.product.DESCRIPTION" (by decide)).1.trans rfl
  · exact (hpaths "Loan.Parties" "Loan.parties" (by decide)).2.trans rfl
  · have hcount := hreference "" "Loan.Parties.Count" "Loan.PARTIES.count" " > 1" rfl (by decide)
      (by decide)
    exact (hconditions _ _ hcount).2

end Scope

end LoanClosing

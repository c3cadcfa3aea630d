import LoanClosing.Proofs.Json.Record
import LoanClosing.Rules.Selection

/-!
# Loan types written and read again

A loan type that is written as a value is read from it again, however deep its conditions are. A
text holds no more than a hundred and twenty-seven containers inside each other, and every part of a
condition takes four of them, so that a loan type can be read from its text exactly if none of its
conditions has more than thirty parts inside each other. A loan type that was read from a text is
one of these, so its own text reads as the same loan type.
-/

namespace LoanClosing

open Json Json.Decode

variable {source : Source} {level : Nat}

/-! ### Operators, joins and requirements -/

namespace Operator

theorem ofName_name (operator : Operator) : ofName operator.name = operator := by
  cases operator <;> rfl

/-- An operator is read from its own name. -/
theorem decode_name (operator : Operator) (source : Source) :
    decode source (.text (.ok operator.name)) = .ok operator :=
  variant_text (by rw [ofName_name])

end Operator

namespace Join

theorem ofName_name (join : Join) : ofName join.name = join := by
  cases join <;> rfl

/-- A join is read from its own name. -/
theorem decode_name (join : Join) (source : Source) :
    decode source (.text (.ok join.name)) = .ok join :=
  variant_text (by rw [ofName_name])

end Join

theorem numbersOfItems_map {α : Type} {write : α → Json} {as : List α}
    (h : ∀ a ∈ as, (write a).numbers = []) : numbersOfItems (as.map write) = [] := by
  induction as with
  | nil => rfl
  | cons a as ih =>
    have ⟨ha, has⟩ := List.forall_mem_cons.1 h
    rw [List.map_cons, numbersOfItems, ha, ih has]
    rfl

theorem numbers_texts (as : List String) : numbersOfItems (as.map .text) = [] :=
  numbersOfItems_map fun _ _ ↦ rfl

theorem fits_texts (as : List String) (hl : level < Node.maxDepth) :
    Json.Fits level (.array (as.map .text)) :=
  .array hl (List.forall_mem_map.2 fun _ _ ↦ .text)

namespace Requirement

theorem decode_ofJson (requirement : Requirement) :
    decode source (.ofJson requirement.toJson) = .ok requirement := by
  have hfield : (required "field" Decode.text).decode source (.text (.ok requirement.field)) =
      .ok requirement.field := rfl
  have hoperator : (defaulted "operator" Operator.decode .equals).decode source
      (.text (.ok requirement.operator.name)) = .ok requirement.operator :=
    requirement.operator.decode_name source
  have hvalues : (defaulted "values" (list Decode.text) []).decode source
      (.ofJson (.array (requirement.values.map .text))) = .ok requirement.values :=
    list_text_ofJson requirement.values
  have hreads := ((reads_only hvalues).and hoperator (.cons (by decide) .nil)).and hfield
    (.cons (by decide) (.cons (by decide) .nil))
  exact congrArg (· >>= _) (hreads.record "Condition")

/-- A requirement takes a level for its values. -/
theorem fits_toJson (requirement : Requirement) (hl : level + 1 < Node.maxDepth) :
    Json.Fits level requirement.toJson :=
  .object (by omega) (List.forall_mem_cons.2 ⟨.text, List.forall_mem_cons.2
    ⟨.text, List.forall_mem_singleton.2 (fits_texts _ hl)⟩⟩)

theorem numbers_toJson (requirement : Requirement) : requirement.toJson.numbers = [] := by
  simp only [toJson, numbers, numbersOfMembers, numbers_texts, List.append_nil]

theorem ensures_decode : Ensures decode source level fun _ ↦ level < Node.maxDepth := by
  intro node requirement hb hd
  obtain ⟨read, hread, -⟩ := exists_of_bind_eq_ok hd
  exact (((ensures_required (.trivial _ source (level + 1))).and
    ((ensures_defaulted (.trivial _ source (level + 1)) True.intro).and
      (ensures_defaulted (.trivial _ source (level + 1)) True.intro).only)).record _ node read hb
        hread).1

end Requirement

/-! ### Conditions -/

namespace RuleNode

mutual

/-- How many parts of a condition stand inside each other. -/
def nesting : RuleNode → Nat
  | .leaf _ => 1
  | .group terms => nestingOf terms + 1

/-- How many parts of a condition stand inside each other in terms. -/
def nestingOf : RuleGroup → Nat
  | [] => 0
  | (node, _) :: terms => max (nesting node) (nestingOf terms)

end

theorem nestingOf_le {terms : RuleGroup} {n : Nat} :
    nestingOf terms ≤ n ↔ ∀ term ∈ terms, term.1.nesting ≤ n := by
  induction terms with
  | nil => exact ⟨nofun, fun _ ↦ Nat.zero_le n⟩
  | cons term terms ih =>
    obtain ⟨node, join⟩ := term
    rw [nestingOf, Nat.max_le, List.forall_mem_cons, ih]

theorem nesting_pos (node : RuleNode) : 0 < node.nesting := by
  cases node <;> exact Nat.succ_pos _

/-- What holds of every requirement, and of every group whose parts it holds of, holds of every part
of a condition. -/
theorem induction_on_parts {motive : RuleNode → Prop}
    (leaf : ∀ requirement, motive (.leaf requirement))
    (group : ∀ terms : RuleGroup, (∀ term ∈ terms, motive term.1) → motive (.group terms))
    (node : RuleNode) : motive node := by
  have key (n : Nat) : ∀ node : RuleNode, node.nesting ≤ n → motive node := by
    induction n with
    | zero => exact fun node h ↦ absurd h (Nat.not_le.2 node.nesting_pos)
    | succ n ih =>
      intro node h
      cases node with
      | leaf requirement => exact leaf requirement
      | group terms =>
        exact group terms fun term ht ↦ ih _ (nestingOf_le.1 (Nat.le_of_succ_le_succ h) term ht)
  exact key node.nesting node (Nat.le_refl _)

/-- The fields of a term, given how its part is read. -/
abbrev termFields (part : Json.Decoder RuleNode) :
    Fields (Option RuleNode × Option Join) (RuleNode × Join) :=
  (required "node" part).and (defaulted "join_to_next" Join.decode .and).only

/-- A term as it is written. -/
def termToJson (term : RuleNode × Join) : Json :=
  .object [("node", term.1.toJson), ("join_to_next", .text term.2.name)]

theorem termsToJson_eq_map (terms : RuleGroup) : termsToJson terms = terms.map termToJson := by
  induction terms with
  | nil => rfl
  | cons term terms ih =>
    rw [termsToJson, ih, List.map_cons]
    rfl

/-- A term is read back when its part is. -/
theorem term_ofJson {part : Json.Decoder RuleNode} {term : RuleNode × Join}
    (h : part source (.ofJson term.1.toJson) = .ok term.1) :
    record "ConditionTerm" (termFields part) source (.ofJson (termToJson term)) = .ok term := by
  have hjoin : (defaulted "join_to_next" Join.decode .and).decode source
      (.text (.ok term.2.name)) = .ok term.2 := term.2.decode_name source
  have hnode : (required "node" part).decode source (.ofJson term.1.toJson) = .ok term.1 := h
  have hother : ("join_to_next" : String) ≠ "node" := by decide
  exact ((reads_only hjoin).and hnode (.cons hother .nil)).record _

/-- A group is read back when all its parts are. -/
theorem decodeGroupOf_ofJson {part : Json.Decoder RuleNode} {terms : RuleGroup}
    (h : ∀ term ∈ terms, part source (.ofJson term.1.toJson) = .ok term.1) :
    decodeGroupOf part source (.ofJson (.object [("terms", .array (termsToJson terms))])) =
      .ok terms := by
  have hterms : (defaulted "terms" (list (record "ConditionTerm" (termFields part))) []).decode
      source (.ofJson (.array (termsToJson terms))) = .ok terms := by
    rw [termsToJson_eq_map]
    exact list_ofJson fun term ht ↦ term_ofJson (h term ht)
  exact (reads_only hterms).record _

/-- A part of a condition is read back by a reader that goes as deep as it. -/
theorem decodeWithin_ofJson {depth : Nat} {node : RuleNode} (h : node.nesting ≤ depth) :
    decodeWithin depth source (.ofJson node.toJson) = .ok node := by
  induction depth generalizing node with
  | zero => exact absurd h (Nat.not_le.2 node.nesting_pos)
  | succ depth ih =>
    cases node with
    | leaf requirement =>
      rw [toJson]
      exact variant_member rfl (congrArg (Except.map RuleNode.leaf) requirement.decode_ofJson)
    | group terms =>
      have hterms := nestingOf_le.1 (Nat.le_of_succ_le_succ h)
      rw [toJson]
      exact variant_member rfl (congrArg (Except.map RuleNode.group)
        (decodeGroupOf_ofJson fun term ht ↦ ih (hterms term ht)))

theorem height_le_heightOfItems {items : List Json} {item : Json} (h : item ∈ items) :
    (Node.ofJson item).height ≤ Node.heightOfItems (Node.ofItems items) := by
  induction items with
  | nil => cases h
  | cons first items ih =>
    rw [Node.ofItems, Node.heightOfItems]
    rcases List.mem_cons.1 h with rfl | h
    · exact Nat.le_max_left ..
    · exact Nat.le_trans (ih h) (Nat.le_max_right ..)

/-- A tree of terms is as deep as their parts. -/
theorem nestingOf_le_height {terms : RuleGroup}
    (h : ∀ term ∈ terms, term.1.nesting ≤ (Node.ofJson term.1.toJson).height) :
    nestingOf terms ≤ (Node.ofJson (.object [("terms", .array (termsToJson terms))])).height := by
  refine nestingOf_le.2 fun term ht ↦ Nat.le_trans (h term ht) ?_
  have hterm : (Node.ofJson term.1.toJson).height ≤ (Node.ofJson (termToJson term)).height :=
    Nat.le_succ_of_le (Nat.le_max_left ..)
  have hmem : termToJson term ∈ terms.map termToJson := List.mem_map_of_mem ht
  have hitem := height_le_heightOfItems hmem
  rw [termsToJson_eq_map]
  exact Nat.le_succ_of_le (Nat.le_trans (Nat.le_succ_of_le (Nat.le_trans hterm hitem))
    (Nat.le_max_left ..))

/-- A tree is as deep as the condition that it is the tree of. -/
theorem nesting_le_height (node : RuleNode) :
    node.nesting ≤ (Node.ofJson node.toJson).height := by
  induction node using induction_on_parts with
  | leaf requirement => exact Nat.le_add_left 1 _
  | group terms ih =>
    have h := nestingOf_le_height ih
    exact Nat.succ_le_succ (Nat.le_trans h (Nat.le_max_left ..))

/-- A group is read back. -/
theorem decodeGroup_ofJson (terms : RuleGroup) :
    decodeGroup source (.ofJson (.object [("terms", .array (termsToJson terms))])) = .ok terms := by
  have hheight := nestingOf_le_height fun term (_ : term ∈ terms) ↦ nesting_le_height term.1
  exact decodeGroupOf_ofJson fun term ht ↦
    decodeWithin_ofJson (Nat.le_succ_of_le (nestingOf_le.1 hheight term ht))

theorem numbers_terms {terms : RuleGroup} (h : ∀ term ∈ terms, term.1.toJson.numbers = []) :
    numbersOfItems (termsToJson terms) = [] := by
  rw [termsToJson_eq_map]
  refine numbersOfItems_map fun term ht ↦ ?_
  simp only [termToJson, numbers, numbersOfMembers, h term ht, List.append_nil]

theorem numbers_toJson (node : RuleNode) : node.toJson.numbers = [] := by
  induction node using induction_on_parts with
  | leaf requirement =>
    simp only [toJson, numbers, numbersOfMembers, requirement.numbers_toJson, List.append_nil]
  | group terms ih =>
    simp only [toJson, numbers, numbersOfMembers, numbers_terms ih, List.append_nil]

/-! ### How deep a condition may be in a text -/

/-- Terms fit where their parts do, two levels below. -/
theorem fits_terms {terms : RuleGroup} (hl : level + 1 < Node.maxDepth)
    (h : ∀ term ∈ terms, level + 2 < Node.maxDepth ∧ Json.Fits (level + 3) term.1.toJson) :
    Json.Fits level (.object [("terms", .array (termsToJson terms))]) := by
  refine .object (by omega) (List.forall_mem_singleton.2 (.array hl ?_))
  rw [termsToJson_eq_map]
  exact List.forall_mem_map.2 fun term ht ↦ .object (h term ht).1
    (List.forall_mem_cons.2 ⟨(h term ht).2, List.forall_mem_singleton.2 .text⟩)

/-- A part of a condition fits if there are four levels for each part in it. -/
theorem fits_toJson (node : RuleNode) :
    ∀ level, level + 4 * node.nesting ≤ Node.maxDepth + 1 → Json.Fits level node.toJson := by
  induction node using induction_on_parts with
  | leaf requirement =>
    intro level h
    rw [nesting] at h
    have hleaf : Json.Fits (level + 1) requirement.toJson := requirement.fits_toJson (by omega)
    rw [toJson]
    exact .object (by omega) (List.forall_mem_singleton.2 hleaf)
  | group terms ih =>
    intro level h
    rw [nesting] at h
    have hgroup : Json.Fits (level + 1) (.object [("terms", .array (termsToJson terms))]) := by
      refine fits_terms (by omega) fun term ht ↦ ?_
      have hpos := term.1.nesting_pos
      have hle : term.1.nesting ≤ nestingOf terms := nestingOf_le.1 (Nat.le_refl _) term ht
      exact ⟨by omega, ih term ht (level + 4) (by omega)⟩
    rw [toJson]
    exact .object (by omega) (List.forall_mem_singleton.2 hgroup)

/-- Terms that are read from a group have parts that fit four levels below. -/
theorem ensures_decodeGroupOf {part : Json.Decoder RuleNode} {P : RuleNode → Prop}
    (h : Ensures part source (level + 3) P) :
    Ensures (decodeGroupOf part) source level fun terms ↦
      level < Node.maxDepth ∧ ∀ term ∈ terms, P term.1 := by
  have hterm : Ensures (record "ConditionTerm" (termFields part)) source (level + 2)
      fun term ↦ P term.1 :=
    (((ensures_required h).and (ensures_defaulted (.trivial _ source (level + 3))
      True.intro).only).record _).imp fun _ ht ↦ ht.2.1
  exact (ensures_defaulted (ensures_list hterm) (List.forall_mem_nil _)).only.record _

/-- Whatever is read of a condition at a level that leaves two in four leaves four levels for each
part in it. -/
theorem ensures_decodeWithin (depth : Nat) :
    ∀ level, level % 4 = 2 → Ensures (decodeWithin depth) source level fun node ↦
      level + 4 * node.nesting ≤ Node.maxDepth + 1 := by
  -- A leaf without values or a group without terms takes only two containers to read. It still has
  -- four levels left, because every part keeps the level modulo four.
  induction depth with
  | zero => exact fun level _ node a _ h ↦ absurd h (refuse_ne_ok _ _ _)
  | succ depth ih =>
    intro level hl
    refine ChoicesEnsure.variant ⟨?_, ?_⟩
    · intro name a h
      split at h
      · cases h
      · split at h <;> cases h
    · intro name decode h hlevel
      have hmax : Node.maxDepth = 127 := rfl
      split at h
      · obtain rfl := Payload.data.inj (Except.ok.inj h)
        intro node a hb hd
        obtain ⟨requirement, hread, rfl⟩ := exists_of_map_eq_ok hd
        have hin := Requirement.ensures_decode node requirement hb hread
        rw [nesting]
        omega
      · split at h
        · obtain rfl := Payload.data.inj (Except.ok.inj h)
          intro node a hb hd
          obtain ⟨terms, hread, rfl⟩ := exists_of_map_eq_ok hd
          have ⟨hin, hterms⟩ :=
            ensures_decodeGroupOf (ih (level + 4) (by omega)) node terms hb hread
          have hle : nestingOf terms ≤ (Node.maxDepth + 1 - (level + 4)) / 4 :=
            nestingOf_le.2 fun term ht ↦ by have := hterms term ht; omega
          rw [nesting]
          omega
        · cases h

end RuleNode

/-! ### Rules and loan types -/

namespace OutputRule

/-- How many parts of the condition stand inside each other. -/
def nesting (rule : OutputRule) : Nat := rule.condition.elim 0 RuleNode.nestingOf

/-- The member for a condition. -/
def conditionToJson (condition : Option RuleGroup) : Json :=
  condition.elim .null fun terms ↦ .object [("terms", .array (RuleNode.termsToJson terms))]

theorem decode_condition (condition : Option RuleGroup) :
    option RuleNode.decodeGroup source (.ofJson (conditionToJson condition)) = .ok condition := by
  cases condition with
  | none => rfl
  | some terms => exact congrArg (Except.map some) (RuleNode.decodeGroup_ofJson terms)

theorem decode_ofJson (rule : OutputRule) : decode source (.ofJson rule.toJson) = .ok rule := by
  have hname : (required "name" Decode.text).decode source (.text (.ok rule.name)) =
      .ok rule.name := rfl
  have hcondition : (defaulted "if" (option RuleNode.decodeGroup) none).decode source
      (.ofJson (conditionToJson rule.condition)) = .ok rule.condition :=
    decode_condition rule.condition
  have hdocuments : (defaulted "then_generate" (list Decode.text) []).decode source
      (.ofJson (.array (rule.documents.map .text))) = .ok rule.documents :=
    list_text_ofJson rule.documents
  have hreads := ((reads_only hdocuments).and hcondition (.cons (by decide) .nil)).and hname
    (.cons (by decide) (.cons (by decide) .nil))
  exact congrArg (· >>= _) (hreads.record "OutputRule")

theorem fits_condition {condition : Option RuleGroup}
    (h : condition.elim 0 RuleNode.nestingOf ≤ 30) : Json.Fits 3 (conditionToJson condition) := by
  cases condition with
  | none => exact .null
  | some terms =>
    exact RuleNode.fits_terms (by decide) fun term ht ↦ ⟨by decide, RuleNode.fits_toJson _ _ (by
      have := RuleNode.nestingOf_le.1 h term ht
      have hmax : Node.maxDepth = 127 := rfl
      omega)⟩

theorem numbers_condition (condition : Option RuleGroup) :
    (conditionToJson condition).numbers = [] := by
  cases condition with
  | none => rfl
  | some terms =>
    have h := RuleNode.numbers_terms fun term (_ : term ∈ terms) ↦ term.1.numbers_toJson
    simp only [conditionToJson, Option.elim, numbers, numbersOfMembers, h, List.append_nil]

theorem numbers_toJson (rule : OutputRule) : rule.toJson.numbers = [] := by
  have h := numbers_condition rule.condition
  unfold conditionToJson at h
  simp only [toJson, numbers, numbersOfMembers, h, numbers_texts, List.append_nil]

theorem fits_toJson {rule : OutputRule} (h : rule.nesting ≤ 30) : Json.Fits 2 rule.toJson :=
  .object (by decide) (List.forall_mem_cons.2 ⟨.text, List.forall_mem_cons.2
    ⟨fits_condition h, List.forall_mem_singleton.2 (fits_texts _ (by decide))⟩⟩)

theorem ensures_decode : Ensures decode source 2 fun rule ↦ rule.nesting ≤ 30 := by
  have hcondition : Ensures (option RuleNode.decodeGroup) source 3 fun condition ↦
      ∀ terms, condition = some terms → RuleNode.nestingOf terms ≤ 30 := by
    refine ensures_option fun node terms hb hd ↦ RuleNode.nestingOf_le.2 fun term ht ↦ ?_
    have hmax : Node.maxDepth = 127 := rfl
    have := (RuleNode.ensures_decodeGroupOf (RuleNode.ensures_decodeWithin _ 6 rfl) node terms hb
      hd).2 term ht
    omega
  intro node rule hb hd
  obtain ⟨⟨name, condition, documents⟩, hread, hd⟩ := exists_of_bind_eq_ok hd
  obtain rfl := Except.ok.inj hd
  have hnesting := (((ensures_required (.trivial _ source 3)).and
    ((ensures_defaulted hcondition fun _ h ↦ by cases h).and
      (ensures_defaulted (.trivial _ source 3) True.intro).only)).record _ node _ hb hread).2.2.1
  cases condition with
  | none => exact Nat.zero_le 30
  | some terms => exact hnesting terms rfl

end OutputRule

namespace LoanType

theorem decode_ofJson (loanType : LoanType) :
    decode source (.ofJson loanType.toJson) = .ok loanType := by
  have hname : (defaulted "name" Decode.text "").decode source (.text (.ok loanType.name)) =
      .ok loanType.name := rfl
  have hdocuments : (defaulted "default_documents" (list Decode.text) []).decode source
      (.ofJson (.array (loanType.defaultDocuments.map .text))) = .ok loanType.defaultDocuments :=
    list_text_ofJson loanType.defaultDocuments
  have hrules : (defaulted "rules" (list OutputRule.decode) []).decode source
      (.ofJson (.array (loanType.rules.map OutputRule.toJson))) = .ok loanType.rules :=
    list_ofJson fun rule _ ↦ rule.decode_ofJson
  have hreads := ((reads_only hrules).and hdocuments (.cons (by decide) .nil)).and hname
    (.cons (by decide) (.cons (by decide) .nil))
  exact congrArg (· >>= _) (hreads.record "LoanType")

theorem numbers_toJson (loanType : LoanType) : loanType.toJson.numbers = [] := by
  have h := numbersOfItems_map fun rule (_ : rule ∈ loanType.rules) ↦ rule.numbers_toJson
  simp only [toJson, numbers, numbersOfMembers, h, numbers_texts, List.append_nil]

/-- Whether no condition has more than thirty parts inside each other. -/
def Shallow (loanType : LoanType) : Prop := ∀ rule ∈ loanType.rules, rule.nesting ≤ 30

theorem fits_toJson {loanType : LoanType} (h : loanType.Shallow) : Json.Fits 0 loanType.toJson :=
  .object (by decide) (List.forall_mem_cons.2 ⟨.text, List.forall_mem_cons.2
    ⟨fits_texts _ (by decide), List.forall_mem_singleton.2 (.array (by decide)
      (List.forall_mem_map.2 fun rule hr ↦ OutputRule.fits_toJson (h rule hr)))⟩⟩)

/-- A loan type that is read from a text has no condition deeper than that. -/
theorem ensures_decode : Ensures decode source 0 Shallow := by
  intro node loanType hb hd
  obtain ⟨⟨name, documents, rules⟩, hread, hd⟩ := exists_of_bind_eq_ok hd
  obtain rfl := Except.ok.inj hd
  exact (((ensures_defaulted (.trivial _ source 1) True.intro).and
    ((ensures_defaulted (.trivial _ source 1) True.intro).and
      (ensures_defaulted (ensures_list OutputRule.ensures_decode)
        (List.forall_mem_nil _)).only)).record _ node _ hb hread).2.2.2

theorem shallow_of_decodeString {text : String} {loanType : LoanType}
    (h : decodeString decode text = .ok loanType) : loanType.Shallow := by
  obtain ⟨read, hread, h⟩ := exists_of_bind_eq_ok h
  split at h
  · cases h
  · exact Except.ok.inj h ▸ ensures_decode _ read (Node.bounded_ofRest _) hread

/-- A shallow loan type is read from its own text in either layout. -/
theorem Shallow.decodeString_toJson {loanType : LoanType} (h : loanType.Shallow) :
    decodeString decode loanType.toJson.compact = .ok loanType ∧
      decodeString decode loanType.toJson.pretty = .ok loanType := by
  have hfits := fits_toJson h
  have hnumbers : ∀ x, .float x ∈ loanType.toJson.numbers → (Number.float x).ReadsBack :=
    fun x hx ↦ nomatch loanType.numbers_toJson ▸ hx
  exact ⟨(hfits.decodeString_compact hnumbers).trans loanType.decode_ofJson,
    (hfits.decodeString_pretty hnumbers).trans loanType.decode_ofJson⟩

/-- A loan type that is written as a value is read from it again. It is read from its text again, in
either layout, exactly if no condition has more than thirty parts inside each other. A loan type
that was read from any text is read from its own text again, is then written as the same text, and
selects the same documents in every context. -/
theorem decode_toJson :
    (∀ loanType, decodeValue decode loanType.toJson = .ok loanType) ∧
    (∀ loanType, decodeString decode loanType.toJson.compact = .ok loanType ↔
      ∀ rule ∈ loanType.rules, rule.nesting ≤ 30) ∧
    (∀ loanType, decodeString decode loanType.toJson.pretty = .ok loanType ↔
      ∀ rule ∈ loanType.rules, rule.nesting ≤ 30) ∧
    ∀ text loanType, decodeString decode text = .ok loanType →
      ∃ again, decodeString decode loanType.toJson.compact = .ok again ∧ again = loanType ∧
        again.toJson.compact = loanType.toJson.compact ∧
        ∀ trace context, again.select trace context = loanType.select trace context :=
  ⟨fun loanType ↦ loanType.decode_ofJson,
    fun _ ↦ ⟨shallow_of_decodeString, fun h ↦ (Shallow.decodeString_toJson h).1⟩,
    fun _ ↦ ⟨shallow_of_decodeString, fun h ↦ (Shallow.decodeString_toJson h).2⟩,
    fun _ loanType h ↦ ⟨loanType, (shallow_of_decodeString h).decodeString_toJson.1, rfl, rfl,
      fun _ _ ↦ rfl⟩⟩

theorem toJson_injective {loanType other : LoanType} (h : loanType.toJson = other.toJson) :
    loanType = other := by
  have hread : decodeValue decode loanType.toJson = .ok loanType := loanType.decode_ofJson
  have hother : decodeValue decode other.toJson = .ok other := other.decode_ofJson
  exact Except.ok.inj (hread.symm.trans (h ▸ hother))

/-- A loan type whose only condition is a requirement inside of groups. -/
def inGroups (count : Nat) : LoanType :=
  ⟨"Deep", [], [⟨"Rule", some (count.repeat (fun terms ↦ [(.group terms, .and)])
    [(.leaf ⟨"State", .equals, ["CA"]⟩, .and)]), ["Rider"]⟩]⟩

/-- The text of a loan type with a requirement inside of thirty groups is refused. -/
theorem decodeString_inGroups :
    decodeString decode (inGroups 30).toJson.compact = .error (.malformed .tooDeep) ∧
      ¬∀ loanType, decodeString decode loanType.toJson.compact = .ok loanType := by
  have hnumbers : ∀ n ∈ (inGroups 30).toJson.numbers, n.Faithful :=
    fun n hn ↦ nomatch (inGroups 30).numbers_toJson ▸ hn
  have htree : decodeString decode (inGroups 30).toJson.compact =
      decode .text (Node.nested 0 (inGroups 30).toJson) :=
    decodeString_of_scan (scan_compact hnumbers)
  have hread : (decode .text (Node.nested 0 (inGroups 30).toJson)).map toJson =
      .error (.malformed .tooDeep) := by decide +kernel
  have hdeep : decodeString decode (inGroups 30).toJson.compact = .error (.malformed .tooDeep) := by
    rw [htree]
    cases h : decode .text (Node.nested 0 (inGroups 30).toJson) with
    | ok loanType => rw [h] at hread; cases hread
    | error error => rw [h] at hread; exact congrArg _ (Except.error.inj hread)
  refine ⟨hdeep, fun h ↦ ?_⟩
  have hok := h (inGroups 30)
  rw [hdeep] at hok
  cases hok

/-- A loan type as another program may have written it: fields by name or by place or left out,
aliases of operators and joins, a name that is no operator. -/
def looseText : String :=
  "\x7b\x22rules\x22: [[\x22Flood\x22, [[[\x7b\x22leaf\x22: [\x22Zone\x22, \x22==\x22]\x7d, " ++
    "\x22||\x22], [\x7b\x22group\x22: \x7b\x7d\x7d], [\x7b\x22leaf\x22: " ++
    "[\x22State\x22, \x22Above\x22, [\x22CA, NY\x22]]\x7d]]]], " ++
    "\x7b\x22name\x22: \x22Always\x22\x7d]\x7d"

/-- The loan type in that text. -/
def loose : LoanType :=
  ⟨"", [], [⟨"Flood", some [(.leaf ⟨"Zone", .equals, []⟩, .or), (.group [], .and),
    (.leaf ⟨"State", .unknown, ["CA, NY"]⟩, .and)], []⟩, ⟨"Always", none, []⟩]⟩

theorem decode_toJson_loose :
    decodeString decode looseText = .ok loose ∧
    ∃ again, decodeString decode loose.toJson.compact = .ok again ∧ again = loose ∧
      again.toJson.compact = loose.toJson.compact ∧
      ∀ trace context, again.select trace context = loose.select trace context := by
  have hread : (decodeString decode looseText).map toJson = .ok loose.toJson := by decide +kernel
  obtain ⟨loanType, hloose, hj⟩ := exists_of_map_eq_ok hread
  obtain rfl := toJson_injective hj
  exact ⟨hloose, decode_toJson.2.2.2 looseText _ hloose⟩

end LoanType

end LoanClosing

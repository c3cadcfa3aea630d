import LoanClosing.Proofs.Model.Texts
import LoanClosing.Proofs.Rules.Distinct
import LoanClosing.Proofs.Text.Recased

/-!
# Spelling does not matter

Requirements are compared without regard to ASCII case, to blanks around texts and to how values are
spread over texts and commas. So a loan type asks for the same documents however its requirements
and the values of the context are spelled. A field may be spelled freely where the context leaves no
choice between several keys.
-/

namespace LoanClosing

/-! ### Values -/

namespace Requirement

/-- The values in one text, as they are compared. -/
def itemsOf (cs : List Char) : List (List Char) :=
  (((Text.splitAt ',' cs).map Text.trimChars).filter (· ≠ [])).map Text.lowerChars

theorem expected_eq (requirement : Requirement) :
    requirement.expected = requirement.values.flatMap fun value ↦ itemsOf value.toList := by
  have hblank (cs : List Char) : String.ofList cs = "" ↔ cs = [] := String.ofList_eq_empty_iff
  simp [expected, expandedValues, itemsOf, List.map_flatMap, List.filter_flatMap, List.filter_map,
    Function.comp_def, hblank]

/-- A comma stands between the values before it and those after it. -/
theorem itemsOf_append_comma (before after : List Char) :
    itemsOf (before ++ ',' :: after) = itemsOf before ++ itemsOf after := by
  simp only [itemsOf, Text.splitAt_append_cons, List.map_append, List.filter_append]

theorem itemsOf_joined (first second : String) :
    itemsOf (first ++ "," ++ second).toList = itemsOf first.toList ++ itemsOf second.toList := by
  rw [String.toList_append, String.toList_append, List.append_assoc]
  exact itemsOf_append_comma _ _

/-- Without a comma there is at most one value, and blanks around it do not matter. -/
theorem itemsOf_eq_of_trimChars_eq {cs cs' : List Char} (h : ',' ∉ cs) (h' : ',' ∉ cs')
    (ht : Text.trimChars cs = Text.trimChars cs') : itemsOf cs = itemsOf cs' := by
  simp only [itemsOf, Text.splitAt_of_notMem h, Text.splitAt_of_notMem h', List.map_singleton, ht]

variable {blanks : List Char}

theorem itemsOf_of_blank (h : ∀ c ∈ blanks, Text.isBlank c = true) : itemsOf blanks = [] :=
  itemsOf_eq_of_trimChars_eq (Text.comma_notMem_of_blank h) List.not_mem_nil
    (Text.trimChars_of_blank h)

theorem itemsOf_blank_append (h : ∀ c ∈ blanks, Text.isBlank c = true) (cs : List Char) :
    itemsOf (blanks ++ cs) = itemsOf cs := by
  have hpiece {cs : List Char} (hc : ',' ∉ cs) : itemsOf (blanks ++ cs) = itemsOf cs :=
    itemsOf_eq_of_trimChars_eq (by simp [Text.comma_notMem_of_blank h, hc]) hc
      (Text.trimChars_blank_append h cs)
  by_cases hc : ',' ∈ cs
  · -- The blanks belong to what stands before the first comma.
    obtain ⟨first, rest, rfl, hf⟩ := List.eq_append_cons_of_mem hc
    rw [← List.append_assoc, itemsOf_append_comma, itemsOf_append_comma, hpiece hf]
  · exact hpiece hc

theorem itemsOf_append_blank (h : ∀ c ∈ blanks, Text.isBlank c = true) (cs : List Char) :
    itemsOf (cs ++ blanks) = itemsOf cs := by
  have hpiece {cs : List Char} (hc : ',' ∉ cs) : itemsOf (cs ++ blanks) = itemsOf cs :=
    itemsOf_eq_of_trimChars_eq (by simp [Text.comma_notMem_of_blank h, hc]) hc
      (Text.trimChars_append_blank h cs)
  by_cases hc : ',' ∈ cs
  · -- The blanks belong to what stands after the last comma.
    obtain ⟨last, rest, hr, hl⟩ := List.eq_append_cons_of_mem (List.mem_reverse.2 hc)
    have hcs : cs = rest.reverse ++ ',' :: last.reverse := by
      rw [← List.reverse_reverse cs, hr]
      simp
    rw [hcs, List.append_assoc, List.cons_append, itemsOf_append_comma, itemsOf_append_comma,
      hpiece (by simpa using hl)]
  · exact hpiece hc

theorem itemsOf_map_toLower (cs : List Char) : itemsOf (cs.map Char.toLower) = itemsOf cs := by
  have htrim : Text.trimChars ∘ List.map Char.toLower =
      List.map Char.toLower ∘ Text.trimChars := funext Text.trimChars_map_toLower
  have hlower : Text.lowerChars ∘ List.map Char.toLower = Text.lowerChars :=
    funext Text.lowerChars_map_toLower
  have hblank (cs : List Char) : decide (cs.map Char.toLower ≠ []) = decide (cs ≠ []) := by simp
  rw [itemsOf, itemsOf, Text.splitAt_map_toLower (by decide), List.map_map, htrim,
    ← List.map_map, List.filter_map, List.map_map, hlower, Function.comp_def]
  simp only [hblank]

/-- One list of values is the other with the case of ASCII letters changed, with blanks put around a
value or around a comma in one, with a value taken apart at a comma, or with a blank value more, any
number of times and in either direction. -/
inductive Relisted : List String → List String → Prop
  | recased {values values' : List String}
    (h : List.Forall₂ (fun value value' ↦ Text.sameFolded value value' = true) values values') :
    Relisted values values'
  | padded {left right : String} (hl : Text.Blank left) (hr : Text.Blank right)
    (before : List String) (value : String) (after : List String) :
    Relisted (before ++ value :: after) (before ++ (left ++ value ++ right) :: after)
  | spaced {left right : String} (hl : Text.Blank left) (hr : Text.Blank right)
    (before : List String) (first second : String) (after : List String) :
    Relisted (before ++ (first ++ "," ++ second) :: after)
      (before ++ (first ++ left ++ "," ++ (right ++ second)) :: after)
  | split (before : List String) (first second : String) (after : List String) :
    Relisted (before ++ (first ++ "," ++ second) :: after) (before ++ first :: second :: after)
  | blank {value : String} (h : Text.Blank value) (before after : List String) :
    Relisted (before ++ after) (before ++ value :: after)
  | symm {values values' : List String} (h : Relisted values values') : Relisted values' values
  | trans {values values' values'' : List String} (h : Relisted values values')
    (h' : Relisted values' values'') : Relisted values values''

/-- Values that are listed differently are compared as the same ones in the same order. -/
theorem Relisted.flatMap_itemsOf_eq {values values' : List String} (h : Relisted values values') :
    (values.flatMap fun value ↦ itemsOf value.toList) =
      values'.flatMap fun value ↦ itemsOf value.toList := by
  induction h with
  | recased h =>
    induction h with
    | nil => rfl
    | cons h _ ih =>
      rw [List.flatMap_cons, List.flatMap_cons, ih, ← itemsOf_map_toLower, eq_of_beq h,
        itemsOf_map_toLower]
  | padded hl hr before value after =>
    simp only [List.flatMap_append, List.flatMap_cons, String.toList_append,
      itemsOf_append_blank hr, itemsOf_blank_append hl]
  | spaced hl hr before first second after =>
    simp only [List.flatMap_append, List.flatMap_cons, itemsOf_joined]
    rw [String.toList_append, String.toList_append, itemsOf_append_blank hl,
      itemsOf_blank_append hr]
  | split before first second after =>
    simp only [List.flatMap_append, List.flatMap_cons, itemsOf_joined, List.append_assoc]
  | blank h before after =>
    rw [List.flatMap_append, List.flatMap_append, List.flatMap_cons, itemsOf_of_blank h,
      List.nil_append]
  | symm _ ih => exact ih.symm
  | trans _ _ ih ih' => exact ih.trans ih'

theorem folded_eq_of_respelled {value value' : String} (h : Text.Respelled value value') :
    folded value = folded value' := by
  rw [folded, folded, ← Text.lowerChars_map_toLower, h.map_toLower_trimChars_eq,
    Text.lowerChars_map_toLower]

end Requirement

/-! ### Contexts -/

namespace Context

variable {context other : Context} {field field' : String}

/-- Two contexts with the same keys, whose values may be spelled differently. -/
def Respelled (context other : Context) : Prop :=
  List.Forall₂ (fun entry entry' ↦ entry.1 = entry'.1 ∧ Text.Respelled entry.2 entry'.2)
    context.entries other.entries

/-- At most one key is the same as a field up to blanks around it and ASCII case. -/
def Unambiguous (context : Context) (field : String) : Prop :=
  ∀ key ∈ Table.keys context.entries, ∀ key' ∈ Table.keys context.entries,
    sameKey key field = true → sameKey key' field = true → key = key'

instance (context : Context) (field : String) : Decidable (context.Unambiguous field) :=
  inferInstanceAs (Decidable (∀ key ∈ Table.keys context.entries,
    ∀ key' ∈ Table.keys context.entries, _ → _ → key = key'))

theorem Respelled.map_folded_findWhere? (h : context.Respelled other) (test : String → Bool) :
    (Table.findWhere? test context.entries).map Requirement.folded =
      (Table.findWhere? test other.entries).map Requirement.folded := by
  obtain ⟨entries⟩ := context
  obtain ⟨others⟩ := other
  replace h : List.Forall₂ _ entries others := h
  induction h with
  | nil => rfl
  | @cons entry entry' _ _ h _ ih =>
    obtain ⟨hkey, hvalue⟩ := h
    rw [Table.findWhere?, Table.findWhere?, hkey]
    split
    · exact congrArg some (Requirement.folded_eq_of_respelled hvalue)
    · exact ih

/-- A field has the same value in both contexts, up to its spelling. -/
theorem Respelled.map_folded_get? (h : context.Respelled other) (field : String) :
    (context.get? field).map Requirement.folded = (other.get? field).map Requirement.folded := by
  simp only [get?, Table.find?_eq_findWhere?, Option.map_or, h.map_folded_findWhere?]

theorem sameKey_eq_of_respelled (h : Text.Respelled field field') (key : String) :
    sameKey key field = sameKey key field' := by
  simp only [sameKey, Text.sameFolded, Text.trim, String.toList_ofList,
    h.map_toLower_trimChars_eq]

theorem sameKey_self (key : String) : sameKey key key = true := BEq.rfl

/-- Where at most one key is the same as a field, a key that is the field itself is that one, so
that looking the field up as it is first makes no difference. -/
theorem Unambiguous.get?_eq (h : context.Unambiguous field) :
    context.get? field = Table.findWhere? (sameKey · field) context.entries := by
  rw [get?]
  cases hf : Table.find? field context.entries with
  | none => rfl
  | some value =>
    have hmem : field ∈ Table.keys context.entries := Table.mem_keys_of_find? hf
    have htest : ∀ key ∈ Table.keys context.entries, (key == field) = sameKey key field := by
      intro key hk
      rw [Bool.eq_iff_iff, beq_iff_eq]
      exact ⟨fun he ↦ he ▸ sameKey_self key, fun hs ↦ h key hk field hmem hs (sameKey_self field)⟩
    rw [Option.some_or, ← hf, Table.find?_eq_findWhere?, Table.findWhere?_congr htest]

/-- Where at most one key is the same as a field, the field may be spelled differently. -/
theorem Unambiguous.get?_respelled (h : context.Unambiguous field)
    (hr : Text.Respelled field field') : context.get? field = context.get? field' := by
  have hsame : (sameKey · field) = (sameKey · field') := funext (sameKey_eq_of_respelled hr)
  have h' : context.Unambiguous field' := by
    intro key hk key' hk'
    rw [← sameKey_eq_of_respelled hr, ← sameKey_eq_of_respelled hr]
    exact h key hk key' hk'
  rw [h.get?_eq, h'.get?_eq, hsame]

end Context

/-! ### Requirements, conditions and loan types -/

/-- Two requirements that differ in how their values are listed and, where the context leaves no
choice, in how the field is spelled. -/
structure Requirement.Respelled (context : Context) (requirement requirement' : Requirement) :
    Prop where
  field : requirement.field = requirement'.field ∨
    context.Unambiguous requirement.field ∧ Text.Respelled requirement.field requirement'.field
  operator : requirement.operator = requirement'.operator
  values : Relisted requirement.values requirement'.values

mutual

/-- Two conditions of one shape whose requirements may be spelled differently. -/
inductive RuleNode.Respelled (context : Context) : RuleNode → RuleNode → Prop
  | leaf {requirement requirement' : Requirement} (h : requirement.Respelled context requirement') :
    Respelled context (.leaf requirement) (.leaf requirement')
  | group {terms terms' : RuleGroup} (h : RuleNode.TermsRespelled context terms terms') :
    Respelled context (.group terms) (.group terms')

/-- Two groups of one shape whose requirements may be spelled differently. -/
inductive RuleNode.TermsRespelled (context : Context) : RuleGroup → RuleGroup → Prop
  | nil : TermsRespelled context [] []
  | cons {node node' : RuleNode} {terms terms' : RuleGroup}
    (h : RuleNode.Respelled context node node') (join : Join)
    (ht : TermsRespelled context terms terms') :
    TermsRespelled context ((node, join) :: terms) ((node', join) :: terms')

end

/-- Two rules for the same documents whose conditions may be spelled differently. -/
structure OutputRule.Respelled (context : Context) (rule rule' : OutputRule) : Prop where
  condition : Option.Rel (RuleNode.TermsRespelled context) rule.condition rule'.condition
  documents : rule.documents = rule'.documents

/-- Two loan types whose rules may be spelled differently. -/
structure LoanType.Respelled (context : Context) (loanType loanType' : LoanType) : Prop where
  defaultDocuments : loanType.defaultDocuments = loanType'.defaultDocuments
  rules : List.Forall₂ (OutputRule.Respelled context) loanType.rules loanType'.rules

variable {context other : Context}

theorem Requirement.holds_eq_any (context : Context) (requirement : Requirement) :
    requirement.holds context = ((context.get? requirement.field).map folded).any
      (accepts requirement.operator · requirement.expected) := by
  rw [holds]
  cases context.get? requirement.field <;> rfl

theorem Requirement.Respelled.holds_eq {requirement requirement' : Requirement}
    (hc : context.Respelled other) (h : requirement.Respelled context requirement') :
    requirement'.holds other = requirement.holds context := by
  have hget : context.get? requirement.field = context.get? requirement'.field := by
    rcases h.field with hf | ⟨hu, hf⟩
    · rw [hf]
    · exact hu.get?_respelled hf
  rw [holds_eq_any, holds_eq_any, hget, hc.map_folded_get?, h.operator, expected_eq, expected_eq,
    h.values.flatMap_itemsOf_eq]

namespace RuleNode

mutual

theorem Respelled.holds_eq (hc : context.Respelled other) {node node' : RuleNode}
    (h : RuleNode.Respelled context node node') : holds other node' = holds context node := by
  cases h with
  | leaf h => exact h.holds_eq hc
  | group h => rw [holds, holds, h.outcomes_eq hc]

theorem TermsRespelled.outcomes_eq (hc : context.Respelled other) {terms terms' : RuleGroup}
    (h : TermsRespelled context terms terms') :
    outcomes other terms' = outcomes context terms := by
  cases h with
  | nil => rfl
  | cons h join ht => rw [outcomes, outcomes, h.holds_eq hc, ht.outcomes_eq hc]

end

end RuleNode

namespace OutputRule

theorem Respelled.matchesIn_eq (hc : context.Respelled other) {rule rule' : OutputRule}
    (h : rule.Respelled context rule') : rule'.matchesIn other = rule.matchesIn context := by
  obtain ⟨hcondition, -⟩ := h
  rw [matchesIn, matchesIn]
  generalize rule.condition = terms?, rule'.condition = terms'? at hcondition
  cases hcondition with
  | none => rfl
  | some ht => exact (RuleNode.Respelled.group ht).holds_eq hc

theorem documentsOf_eq_of_respelled (hc : context.Respelled other) {rules rules' : List OutputRule}
    (h : List.Forall₂ (OutputRule.Respelled context) rules rules') :
    documentsOf other rules' = documentsOf context rules := by
  induction h with
  | nil => rfl
  | cons h _ ih => rw [documentsOf_cons, documentsOf_cons, h.matchesIn_eq hc, h.documents, ih]

end OutputRule

namespace LoanType

/-- However the values of a context are spelled, the evaluation of a requirement has the same
outcome if its values are listed differently, and if its field is spelled differently where at most
one key is the same as that. So a loan type selects the same documents if all of its requirements
are spelled differently at once. -/
theorem documentIds_select_of_respelled (h : context.Respelled other) :
    (∀ requirement requirement' : Requirement, requirement.Respelled context requirement' →
      ∀ rule rule' tracer tracer',
        (requirement'.evaluate other rule' tracer').1 =
          (requirement.evaluate context rule tracer).1) ∧
    ∀ loanType loanType' : LoanType, loanType.Respelled context loanType' → ∀ trace trace',
      (loanType'.select trace' other).documentIds =
        (loanType.select trace context).documentIds := by
  refine ⟨fun requirement requirement' hr rule rule' tracer tracer' ↦ ?_,
    fun loanType loanType' hl trace trace' ↦ ?_⟩
  · rw [requirement.evaluate_eq, requirement'.evaluate_eq]
    exact hr.holds_eq h
  · rw [documentIds_select_eq, documentIds_select_eq, offered, offered, hl.defaultDocuments,
      OutputRule.documentsOf_eq_of_respelled h hl.rules]

/-- A rider for two states, asked for in two spellings. -/
theorem documentIds_select_rider :
    let loanType : LoanType := ⟨"Purchase", ["Note"],
      [⟨"State rider", some [(.leaf ⟨"State", .oneOf, ["CA, NY"]⟩, .and)], ["Rider"]⟩]⟩
    let loanType' : LoanType := ⟨"Purchase", ["Note"],
      [⟨"State rider", some [(.leaf ⟨" state", .oneOf, ["", "ca", " NY"]⟩, .and)], ["Rider"]⟩]⟩
    (loanType.select false ⟨[("State", "CA")]⟩).documentIds = ["Note", "Rider"] ∧
      (loanType'.select true ⟨[("State", "Ca ")]⟩).documentIds =
        (loanType.select false ⟨[("State", "CA")]⟩).documentIds := by
  intro loanType loanType'
  have hpadded : Text.Respelled "Ca" "Ca " :=
    .padded "" "Ca" " " (by decide) (by decide)
  have hvalue : Text.Respelled "CA" "Ca " := .trans (.recased (by decide)) hpadded
  have hfield : Text.Respelled "State" " state" :=
    .trans (.recased (by decide)) (.padded " " "state" "" (by decide) (by decide))
  have hvalues : Requirement.Relisted ["CA, NY"] ["", "ca", " NY"] :=
    .trans (.recased (.cons (by decide) .nil))
      (.trans (.split [] "ca" " NY" []) (.blank (by decide) [] ["ca", " NY"]))
  have hcontext : Context.Respelled ⟨[("State", "CA")]⟩ ⟨[("State", "Ca ")]⟩ :=
    .cons ⟨rfl, hvalue⟩ .nil
  have hrequirement : Requirement.Respelled ⟨[("State", "CA")]⟩ ⟨"State", .oneOf, ["CA, NY"]⟩
      ⟨" state", .oneOf, ["", "ca", " NY"]⟩ := ⟨.inr ⟨by decide, hfield⟩, rfl, hvalues⟩
  have hloanType : loanType.Respelled ⟨[("State", "CA")]⟩ loanType' :=
    ⟨rfl, .cons ⟨.some (.cons (.leaf hrequirement) .and .nil), rfl⟩ .nil⟩
  exact ⟨by decide, (documentIds_select_of_respelled hcontext).2 _ _ hloanType false true⟩

end LoanType

end LoanClosing

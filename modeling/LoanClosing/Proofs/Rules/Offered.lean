import LoanClosing.Proofs.Rules.Evaluation

/-!
# The documents offered

The default documents and the rules that match offer documents, some of them more than once. After
any number of rules the documents selected are the first occurrences among those offered so far, and
the lines can be told from that list and the rules alone.
-/

namespace LoanClosing

namespace OutputRule

/-- The documents of the rules that match. -/
def documentsOf (context : Context) (rules : List OutputRule) : List String :=
  (rules.filter (matchesIn context)).flatMap documents

@[simp] theorem documentsOf_nil (context : Context) : documentsOf context [] = [] := rfl

theorem documentsOf_cons (context : Context) (rule : OutputRule) (rules : List OutputRule) :
    documentsOf context (rule :: rules) =
      (if rule.matchesIn context then rule.documents else []) ++ documentsOf context rules := by
  rw [documentsOf, List.filter_cons]
  split <;> rfl

/-- The line about a document that a rule selects, given the documents offered before it. -/
def activationLine (rule : String) (before : List String) (id : String) : TraceEntry :=
  ⟨some rule, if id ∈ before then id ++ " already selected" else "activated " ++ id⟩

/-- The lines about a rule, given the documents offered before it: one for each requirement, one for
the outcome, and one for each document if the rule matches. -/
def lines (context : Context) (before : List String) (rule : OutputRule) : List TraceEntry :=
  RuleNode.linesOf context rule.name rule.requirements ++
    ⟨some rule.name, if rule.matchesIn context then "rule matched" else "rule did not match"⟩ ::
      if rule.matchesIn context then
        rule.documents.mapIdx fun i id ↦
          activationLine rule.name (before ++ rule.documents.take i) id
      else []

end OutputRule

/-- One more document is a first occurrence unless it was offered before. -/
theorem eraseDups_concat (ids : List String) (id : String) :
    (ids ++ [id]).eraseDups = if id ∈ ids then ids.eraseDups else ids.eraseDups ++ [id] := by
  rw [List.eraseDups_append, List.cons_removeAll]
  by_cases h : id ∈ ids
  · simp [h]
  · simp [h, List.eraseDups_cons]

namespace Draft

/-- A draft whose documents are the first occurrences among those offered. -/
def ofOffered (offered : List String) (tracer : Tracer) : Draft :=
  ⟨offered.eraseDups.reverse, offered.eraseDups, tracer, fun _ ↦ List.mem_reverse⟩

variable (tracer : Tracer)

/-- A document is selected if it was not offered before. -/
theorem push_ofOffered (offered : List String) (id : String) :
    (ofOffered offered tracer).push id =
      (!offered.contains id, ofOffered (offered ++ [id]) tracer) := by
  by_cases h : id ∈ offered <;> simp [push, ofOffered, eraseDups_concat, h]

/-- The line about a default document. -/
def defaultLine (id : String) : TraceEntry := ⟨none, "default document " ++ id⟩

/-- The default documents are told about at their first occurrences. -/
theorem foldl_addDefault (ids offered : List String) :
    ids.foldl addDefault (ofOffered offered (tracer.append (offered.eraseDups.map defaultLine))) =
      ofOffered (offered ++ ids)
        (tracer.append ((offered ++ ids).eraseDups.map defaultLine)) := by
  induction ids generalizing offered with
  | nil => rw [List.foldl_nil, List.append_nil]
  | cons id ids ih =>
    have hstep : addDefault
        (ofOffered offered (tracer.append (offered.eraseDups.map defaultLine))) id =
        ofOffered (offered ++ [id])
          (tracer.append ((offered ++ [id]).eraseDups.map defaultLine)) := by
      rw [addDefault, push_ofOffered, eraseDups_concat]
      by_cases h : id ∈ offered
      · simp [h]
      · simp [h, note, ofOffered, Tracer.note_eq, defaultLine]
    rw [List.foldl_cons, hstep, ih, List.append_assoc, List.singleton_append]

/-- A rule tells about each of its documents, whether it was offered before or not. -/
theorem foldl_activate (rule : String) (ids offered : List String) :
    ids.foldl (activate rule) (ofOffered offered tracer) =
      ofOffered (offered ++ ids) (tracer.append (ids.mapIdx fun i id ↦
        OutputRule.activationLine rule (offered ++ ids.take i) id)) := by
  induction ids generalizing offered tracer with
  | nil => simp
  | cons id ids ih =>
    have hstep : activate rule (ofOffered offered tracer) id =
        ofOffered (offered ++ [id])
          (tracer.append [OutputRule.activationLine rule offered id]) := by
      rw [activate, push_ofOffered, OutputRule.activationLine]
      by_cases h : id ∈ offered <;> simp [h, note, ofOffered, Tracer.note_eq]
    rw [List.foldl_cons, hstep, ih, Tracer.append_append, List.mapIdx_cons]
    simp

/-- A rule offers its documents if it matches. -/
theorem applyRule_ofOffered (context : Context) (offered : List String) (rule : OutputRule) :
    applyRule context (ofOffered offered tracer) rule =
      ofOffered (offered ++ if rule.matchesIn context then rule.documents else [])
        (tracer.append (rule.lines context offered)) := by
  have hdraft : applyRule context (ofOffered offered tracer) rule =
      let draft := ofOffered offered
        (tracer.append (RuleNode.linesOf context rule.name rule.requirements ++
          [⟨some rule.name,
            if rule.matchesIn context then "rule matched" else "rule did not match"⟩]))
      if rule.matchesIn context then rule.documents.foldl (activate rule.name) draft
      else draft := by
    rw [applyRule, ofOffered, rule.evaluate_eq, ← Tracer.append_append]
    cases rule.matchesIn context <;> rfl
  rw [hdraft, OutputRule.lines]
  cases rule.matchesIn context with
  | false => simp
  | true => simp [foldl_activate]

/-- After any number of rules the documents are the first occurrences among those offered, and each
rule has told about what was offered before it. -/
theorem foldl_applyRule (context : Context) (rules : List OutputRule) (offered : List String) :
    rules.foldl (applyRule context) (ofOffered offered tracer) =
      ofOffered (offered ++ OutputRule.documentsOf context rules)
        (tracer.append (rules.mapIdx fun i rule ↦
          rule.lines context
            (offered ++ OutputRule.documentsOf context (rules.take i))).flatten) := by
  induction rules generalizing offered tracer with
  | nil => simp
  | cons rule rules ih =>
    rw [List.foldl_cons, applyRule_ofOffered, ih, Tracer.append_append, List.mapIdx_cons,
      List.flatten_cons, OutputRule.documentsOf_cons, List.append_assoc]
    simp [OutputRule.documentsOf_cons]

end Draft

namespace LoanType

/-- All documents that are offered: the default ones, then those of the rules that match. -/
def offered (context : Context) (loanType : LoanType) : List String :=
  loanType.defaultDocuments ++ OutputRule.documentsOf context loanType.rules

/-- The lines about a loan type: one for each default document at its first occurrence, then those
about each rule, given the documents offered before it. -/
def lines (context : Context) (loanType : LoanType) : List TraceEntry :=
  loanType.defaultDocuments.eraseDups.map Draft.defaultLine ++
    (loanType.rules.mapIdx fun i rule ↦ rule.lines context
      (loanType.defaultDocuments ++ OutputRule.documentsOf context (loanType.rules.take i))).flatten

/-- A selection has the first occurrences among the documents offered, and the lines about the loan
type if they are asked for. -/
theorem select_eq (trace : Bool) (loanType : LoanType) (context : Context) :
    loanType.select trace context =
      ⟨(loanType.offered context).eraseDups, if trace then loanType.lines context else []⟩ := by
  have hdefault : loanType.defaultDocuments.foldl Draft.addDefault (.start trace) =
      .ofOffered loanType.defaultDocuments ((Tracer.start trace).append
        (loanType.defaultDocuments.eraseDups.map Draft.defaultLine)) := by
    simpa [Draft.ofOffered, Draft.start] using
      Draft.foldl_addDefault (.start trace) loanType.defaultDocuments []
  have hevaluate : loanType.evaluate trace context =
      .ofOffered (loanType.offered context)
        ((Tracer.start trace).append (loanType.lines context)) := by
    rw [evaluate, hdefault, Draft.foldl_applyRule, Tracer.append_append]
    rfl
  rw [select, hevaluate, Draft.ofOffered, Tracer.lines_append_start]

end LoanType

end LoanClosing

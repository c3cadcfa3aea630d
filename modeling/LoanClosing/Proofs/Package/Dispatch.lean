import LoanClosing.Package.Dispatch
import LoanClosing.Proofs.Rules.Distinct
import Mathlib.Data.List.Nodup

/-!
# What a dispatch does

A dispatch changes nothing, or it adds one tracker to the desk and a job for each selected document
to the queue, in order, with the numbers that come next. The documents are all different.
-/

namespace LoanClosing

namespace Packages

/-- The jobs that a dispatch makes, numbered from the given number. -/
def jobsFor (model : Value) (tracker : Nat) : Nat → List (String × Document) → List Job
  | _, [] => []
  | number, (id, document) :: documents =>
    ⟨⟨number⟩, id, document, model, some tracker, none⟩ ::
      jobsFor model tracker (number + 1) documents

variable {model : Value} {tracker number : Nat} {documents : List (String × Document)}

@[simp] theorem length_jobsFor (model : Value) (tracker number : Nat)
    (documents : List (String × Document)) :
    (jobsFor model tracker number documents).length = documents.length := by
  induction documents generalizing number with
  | nil => rfl
  | cons entry documents ih => simp [jobsFor, ih]

/-- The jobs have the documents as their keys. -/
theorem map_key_jobsFor (model : Value) (tracker number : Nat)
    (documents : List (String × Document)) :
    (jobsFor model tracker number documents).map Job.key = documents.map Prod.fst := by
  induction documents generalizing number with
  | nil => rfl
  | cons entry documents ih => simp [jobsFor, ih]

/-- The jobs are numbered one after another. -/
theorem map_id_jobsFor (model : Value) (tracker number : Nat)
    (documents : List (String × Document)) :
    (jobsFor model tracker number documents).map Job.id =
      (List.range' number documents.length).map JobId.mk := by
  induction documents generalizing number with
  | nil => rfl
  | cons entry documents ih => simp [jobsFor, ih, List.range'_succ]

/-- All the jobs are bound to the tracker. -/
theorem tracker_of_mem_jobsFor {job : Job}
    (h : job ∈ jobsFor model tracker number documents) : job.tracker = some tracker := by
  induction documents generalizing number with
  | nil => simp [jobsFor] at h
  | cons entry documents ih =>
    rw [jobsFor, List.mem_cons] at h
    cases h with
    | inl h => rw [h]
    | inr h => exact ih h

/-- The jobs report to their own tracker. -/
theorem filter_jobsFor_self (model : Value) (tracker number : Nat)
    (documents : List (String × Document)) :
    (jobsFor model tracker number documents).filter (·.tracker == some tracker) =
      jobsFor model tracker number documents := by
  apply List.filter_eq_self.mpr
  intro job hj
  rw [tracker_of_mem_jobsFor hj]
  exact beq_self_eq_true _

/-- The jobs report to no other tracker. -/
theorem filter_jobsFor_of_ne {place : Nat} (h : tracker ≠ place) :
    (jobsFor model tracker number documents).filter (·.tracker == some place) = [] := by
  apply List.filter_eq_nil_iff.mpr
  intro job hj
  rw [tracker_of_mem_jobsFor hj]
  simpa using h

/-- The jobs are put at the end of the queue, and nothing else at the desk changes. -/
theorem enqueueAll_eq (model : Value) (tracker : Nat) (desk : Desk)
    (documents : List (String × Document)) :
    enqueueAll model tracker desk documents =
      ({ desk with
          queue := desk.queue ++ jobsFor model tracker desk.nextJob documents
          nextJob := desk.nextJob + documents.length },
        (jobsFor model tracker desk.nextJob documents).map Job.id) := by
  induction documents generalizing desk with
  | nil => simp [enqueueAll, jobsFor]
  | cons entry documents ih =>
    obtain ⟨id, document⟩ := entry
    simp only [enqueueAll, ih, Desk.newJob, Desk.enqueue, jobsFor, List.append_assoc,
      List.cons_append, List.nil_append, List.map_cons, List.length_cons]
    rw [Nat.add_comm documents.length 1, Nat.add_assoc]

/-- Templates are read in the order of the documents. -/
theorem map_fst_readTemplates {reader : TemplateReader} {store : TemplateStore}
    {ids : List String} (h : readTemplates reader store ids = .ok documents) :
    documents.map Prod.fst = ids := by
  induction ids generalizing documents with
  | nil =>
    obtain rfl : [] = documents := by simpa [readTemplates] using h
    rfl
  | cons id ids ih =>
    rw [readTemplates] at h
    cases hd : readTemplate reader store id with
    | error error =>
      rw [hd] at h
      cases h
    | ok document =>
      cases hr : readTemplates reader store ids with
      | error error =>
        rw [hd, hr] at h
        cases h
      | ok more =>
        rw [hd, hr] at h
        obtain rfl : (id, document) :: more = documents := Except.ok.inj h
        rw [List.map_cons, ih hr]

/-- The packages with a tracker opened for a loan and the jobs of its documents in the queue. -/
def entered (packages : Packages) (loan : String) (model : Value)
    (documents : List (String × Document)) : Packages where
  desk := { packages.desk with
    trackers := packages.desk.trackers ++ [.ofExpected documents.length]
    queue := packages.desk.queue ++
      jobsFor model packages.desk.trackers.length packages.desk.nextJob documents
    nextJob := packages.desk.nextJob + documents.length }
  loans := Table.put loan packages.desk.trackers.length packages.loans

/-- The receipt for documents that are dispatched next. -/
def receiptFor (packages : Packages) (loan : String) (documents : List (String × Document)) :
    Receipt where
  loan := loan
  documentIds := documents.map Prod.fst
  jobs := (List.range' packages.desk.nextJob documents.length).map JobId.mk

/-- The receipt names the jobs that are made. -/
theorem map_id_jobsFor_receiptFor (packages : Packages) (loan : String) (model : Value)
    (documents : List (String × Document)) :
    (jobsFor model packages.desk.trackers.length packages.desk.nextJob documents).map Job.id =
      (packages.receiptFor loan documents).jobs := by
  rw [map_id_jobsFor, receiptFor]

section Dispatch

variable {reader : TemplateReader} {store : TemplateStore} {loanType : LoanType}
  {context : Context}

/-- When a template cannot be read, nothing happens. -/
theorem dispatchWith_of_error {error : PackageError} (packages : Packages) (loan : String)
    (h : readTemplates reader store (loanType.select false context).documentIds = .error error) :
    packages.dispatchWith reader store loan loanType context model =
      (packages, .error error) := by
  simp only [dispatchWith, h]

/-- When all templates are read, the documents are entered. -/
theorem dispatchWith_of_ok (packages : Packages) (loan : String)
    (h : readTemplates reader store (loanType.select false context).documentIds = .ok documents) :
    packages.dispatchWith reader store loan loanType context model =
      (packages.entered loan model documents, .ok (packages.receiptFor loan documents)) := by
  simp only [dispatchWith, h, Desk.addTracker, enqueueAll_eq, map_id_jobsFor,
    map_fst_readTemplates h, entered, receiptFor]

end Dispatch

/-- A dispatch fails and changes nothing, or it enters different documents and gives a receipt. -/
theorem dispatch_cases (packages : Packages) (store : TemplateStore) (loan : String)
    (loanType : LoanType) (context : Context) (model : Value) :
    (∃ error, packages.dispatch store loan loanType context model = (packages, .error error)) ∨
    ∃ documents : List (String × Document), (documents.map Prod.fst).Nodup ∧
      packages.dispatch store loan loanType context model =
        (packages.entered loan model documents, .ok (packages.receiptFor loan documents)) := by
  have hn := loanType.nodup_documentIds_select false context
  cases hr : readTemplates Document.ofBytes store (loanType.select false context).documentIds with
  | error error => exact .inl ⟨error, dispatchWith_of_error packages loan hr⟩
  | ok documents =>
    exact .inr ⟨documents, map_fst_readTemplates hr ▸ hn, dispatchWith_of_ok packages loan hr⟩

end Packages

end LoanClosing

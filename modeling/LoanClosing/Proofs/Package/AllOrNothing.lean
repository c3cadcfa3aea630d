import LoanClosing.Proofs.Package.Dispatch
import Mathlib.Data.List.Forall2

/-!
# Dispatching all documents or none

A dispatch reads the templates of all selected documents, in order, before it changes anything. It
fails at the first document whose template cannot be read, and then all is as it was; else each
document has its job in the queue, and one new tracker waits for all of them. This holds of any
store and of any way to read a template.
-/

namespace LoanClosing

/-- No two jobs have the same text for their numbers. -/
theorem JobId.text_injective : Function.Injective JobId.text := by
  intro a b h
  have hp : Text.padded 6 a.number = Text.padded 6 b.number := by
    simpa [JobId.text, String.ext_iff] using h
  have hv : ∀ n, Nat.ofDigitChars 10 (Text.padded 6 n) 0 = n := by
    intro n
    rw [Text.padded, Nat.ofDigitChars_append, Nat.ofDigitChars_replicate_zero, Nat.mul_zero,
      Nat.ofDigitChars_ten_toDigits]
  obtain ⟨number⟩ := a
  rw [JobId.mk.injEq, ← hv number, hp, hv]

namespace Packages

/-- The template of a document is in the store and is read. The document has the parts of what is
read, and also its name, unless that is empty: then it has the name of the template. -/
def Reads (reader : TemplateReader) (store : TemplateStore) (id : String) (document : Document) :
    Prop :=
  ∃ bytes read, store id = .ok (some bytes) ∧ reader bytes = .ok read ∧
    document.containers = read.containers ∧
    document.name = if read.name = "" then id else read.name

/-- Why the template of a document is not read: the store cannot be reached, it does not have the
template, or the template cannot be read. -/
inductive Fails (reader : TemplateReader) (store : TemplateStore) (id : String) :
    PackageError → Prop where
  | unavailable {reason : String} (h : store id = .error reason) :
    Fails reader store id (.unavailable reason)
  | absent (h : store id = .ok none) : Fails reader store id (.templateNotFound id)
  | unreadable {bytes : ByteArray} {error : Document.StoredError}
    (h : store id = .ok (some bytes)) (hr : reader bytes = .error error) :
    Fails reader store id (.unreadable error)

variable {reader : TemplateReader} {store : TemplateStore} {id : String}

/-- A template is read, or there is a reason why it is not. -/
theorem readTemplate_cases (reader : TemplateReader) (store : TemplateStore) (id : String) :
    (∃ error, readTemplate reader store id = .error error ∧ Fails reader store id error) ∨
    ∃ document, readTemplate reader store id = .ok document ∧
      Reads reader store id document := by
  unfold readTemplate
  cases hs : store id with
  | error reason => exact .inl ⟨_, rfl, .unavailable hs⟩
  | ok stored =>
    cases stored with
    | none => exact .inl ⟨_, rfl, .absent hs⟩
    | some bytes =>
      cases hr : reader bytes with
      | error error =>
        exact .inl ⟨_, by simp [hr, bind, Except.bind, Except.mapError], .unreadable hs hr⟩
      | ok read =>
        refine .inr ⟨if read.name = "" then { read with name := id } else read, ?_, bytes, read,
          hs, hr, ?_, ?_⟩
        · simp [hr, bind, Except.bind, Except.mapError]
        · split <;> rfl
        · split <;> rfl

/-- All templates are read, or one is not after all before it are. -/
theorem readTemplates_cases (reader : TemplateReader) (store : TemplateStore)
    (ids : List String) :
    (∃ error done id rest, readTemplates reader store ids = .error error ∧
      ids = done ++ id :: rest ∧ (∀ other ∈ done, ∃ document, Reads reader store other document) ∧
      Fails reader store id error) ∨
    ∃ documents, readTemplates reader store ids = .ok documents ∧
      List.Forall₂ (Reads reader store) ids (documents.map Prod.snd) := by
  induction ids with
  | nil => exact .inr ⟨[], rfl, .nil⟩
  | cons id ids ih =>
    rw [readTemplates]
    obtain ⟨error, he, hf⟩ | ⟨document, hd, hr⟩ := readTemplate_cases reader store id
    · exact .inl ⟨error, [], id, ids, by rw [he]; rfl, rfl, by simp, hf⟩
    · obtain ⟨error, done, other, rest, he, rfl, ha, hf⟩ | ⟨documents, hd', hr'⟩ := ih
      · refine .inl ⟨error, id :: done, other, rest, by rw [hd, he]; rfl, rfl, ?_, hf⟩
        exact List.forall_mem_cons.mpr ⟨⟨document, hr⟩, ha⟩
      · exact .inr ⟨(id, document) :: documents, by rw [hd, hd']; rfl, .cons hr hr'⟩

/-- What a dispatch of documents for a loan changes. -/
structure Dispatched (reader : TemplateReader) (store : TemplateStore) (loan : String)
    (model : Value) (ids : List String) (before after : Packages) (receipt : Receipt) : Prop where
  /-- There is one job for each document at the end of the queue, in order, for what is read of its
  template. They all report to the new tracker, and the receipt lists them. -/
  queue : ∃ jobs, after.desk.queue = before.desk.queue ++ jobs ∧ jobs.map Job.key = ids ∧
    List.Forall₂ (Reads reader store) ids (jobs.map Job.document) ∧
    (∀ job ∈ jobs, job.tracker = some before.desk.trackers.length ∧ job.model = model ∧
      job.handle = none) ∧
    receipt.jobs = jobs.map Job.id
  /-- There is one new tracker, which waits for that many merges. -/
  trackers : after.desk.trackers = before.desk.trackers ++ [.ofExpected ids.length]
  /-- The new tracker is that of the loan. -/
  registered : Table.find? loan after.loans = some before.desk.trackers.length ∧
    after.tracker? loan = some (.ofExpected ids.length)
  /-- Other loans keep their trackers. -/
  others : ∀ other, other ≠ loan → Table.find? other after.loans = Table.find? other before.loans
  /-- The receipt is for the loan and names its documents, none of them twice. -/
  listed : receipt.loan = loan ∧ receipt.documentIds = ids ∧ ids.Nodup
  /-- The jobs have different numbers, also as texts, and none that was given out before. -/
  numbers : receipt.jobs.length = ids.length ∧ (receipt.jobs.map JobId.text).Nodup ∧
    ∀ id ∈ receipt.jobs, before.desk.nextJob ≤ id.number ∧ id.number < after.desk.nextJob
  nextJob : after.desk.nextJob = before.desk.nextJob + ids.length
  handles : after.desk.handles = before.desk.handles
  bulletin : after.desk.bulletin = before.desk.bulletin

variable {model : Value} {tracker number : Nat} {documents : List (String × Document)}

/-- The jobs are for the documents. -/
theorem map_document_jobsFor (model : Value) (tracker number : Nat)
    (documents : List (String × Document)) :
    (jobsFor model tracker number documents).map Job.document = documents.map Prod.snd := by
  induction documents generalizing number with
  | nil => rfl
  | cons entry documents ih => simp [jobsFor, ih]

/-- The jobs are made with the data of the loan, and nobody has taken a handle of them. -/
theorem of_mem_jobsFor {job : Job} (h : job ∈ jobsFor model tracker number documents) :
    job.model = model ∧ job.handle = none := by
  induction documents generalizing number with
  | nil => simp [jobsFor] at h
  | cons entry documents ih =>
    rw [jobsFor, List.mem_cons] at h
    cases h with
    | inl h => rw [h]; exact ⟨rfl, rfl⟩
    | inr h => exact ih h

/-- Entering documents that are read changes what a dispatch changes. -/
theorem dispatched_entered (packages : Packages) (loan : String) (model : Value)
    (hn : (documents.map Prod.fst).Nodup)
    (hr : List.Forall₂ (Reads reader store) (documents.map Prod.fst) (documents.map Prod.snd)) :
    Dispatched reader store loan model (documents.map Prod.fst) packages
      (packages.entered loan model documents) (packages.receiptFor loan documents) where
  queue := by
    refine ⟨_, rfl, map_key_jobsFor .., ?_, ?_, (map_id_jobsFor_receiptFor ..).symm⟩
    · rw [map_document_jobsFor]
      exact hr
    · intro job hj
      exact ⟨tracker_of_mem_jobsFor hj, of_mem_jobsFor hj⟩
  trackers := by rw [List.length_map]; rfl
  registered := by
    have hf : Table.find? loan (packages.entered loan model documents).loans =
        some packages.desk.trackers.length := Table.find?_put_self ..
    refine ⟨hf, ?_⟩
    rw [tracker?, hf, List.length_map]
    exact List.getElem?_concat_length
  others := fun other ho ↦ Table.find?_put_of_ne ho ..
  listed := ⟨rfl, rfl, hn⟩
  numbers := by
    refine ⟨by simp [receiptFor], ?_, ?_⟩
    · rw [receiptFor]
      exact ((List.nodup_range' 1 (by decide)).map fun a b he ↦ congrArg JobId.number he).map
        JobId.text_injective
    · intro id hi
      obtain ⟨n, hm, rfl⟩ := List.mem_map.mp hi
      exact List.mem_range'_1.mp hm
  nextJob := by rw [List.length_map]; rfl
  handles := rfl
  bulletin := rfl

/-- A dispatch does all or nothing, whatever the store and however templates are read. It fails
when, in the order of the selection, a document comes whose template is not read, and gives the
reason for the first such document; then nothing has changed at all. Otherwise it succeeds, and
every selected document has been dispatched. -/
theorem dispatchWith_all_or_nothing (reader : TemplateReader) (packages : Packages)
    (store : TemplateStore) (loan : String) (loanType : LoanType) (context : Context)
    (model : Value) :
    let ids := (loanType.select false context).documentIds
    (∃ error done id rest,
      packages.dispatchWith reader store loan loanType context model = (packages, .error error) ∧
      ids = done ++ id :: rest ∧ (∀ other ∈ done, ∃ document, Reads reader store other document) ∧
      Fails reader store id error) ∨
    ∃ after receipt,
      packages.dispatchWith reader store loan loanType context model = (after, .ok receipt) ∧
      Dispatched reader store loan model ids packages after receipt := by
  intro ids
  obtain ⟨error, done, id, rest, he, hi, hd, hf⟩ | ⟨documents, hd, hr⟩ :=
    readTemplates_cases reader store ids
  · exact .inl ⟨error, done, id, rest, dispatchWith_of_error packages loan he, hi, hd, hf⟩
  · have hi : documents.map Prod.fst = ids := map_fst_readTemplates hd
    have hn : ids.Nodup := loanType.nodup_documentIds_select false context
    rw [← hi] at hn hr
    refine .inr ⟨_, _, dispatchWith_of_ok packages loan hd, ?_⟩
    rw [← hi]
    exact dispatched_entered packages loan model hn hr

end Packages

end LoanClosing

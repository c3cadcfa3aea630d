import LoanClosing.Proofs.Merging.Account
import LoanClosing.Proofs.Package.Dispatch

/-!
# The office

An office is the floor where packages are merged together with the tracker of each loan and the
receipts given out so far. Loans are dispatched at any time, also while jobs of other dispatches, or
of an earlier one of the same loan, wait, are merged or are reported; jobs report in any order, and
none is dropped. The books of an office tie all this together: every receipt has its tracker, every
job that is not reported belongs to one receipt, and every tracker stands as its receipt and these
jobs say.
-/

namespace LoanClosing

/-- The last receipt of a loan. -/
def Receipt.latest? (receipts : List Receipt) (loan : String) : Option Receipt :=
  (receipts.filter (·.loan == loan)).getLast?

/-- A floor, the tracker of each loan, and the receipts given out, oldest first. -/
structure Office where
  floor : Floor
  loans : List (String × Nat)
  receipts : List Receipt

namespace Packages

/-- The packages after all jobs that wait are merged and reported in the order given. -/
def afterBatch (settings : MergeSettings) (packages : Packages) (order : List Job) : Packages :=
  { packages with desk := Desk.finishAll settings { packages.desk with queue := [] } order }

/-- The jobs that wait are merged and reported first one first. -/
theorem processPending_eq (settings : MergeSettings) (packages : Packages) :
    packages.processPending settings =
      (packages.afterBatch settings packages.desk.queue, packages.desk.queue.length) := rfl

end Packages

namespace Office

/-- An office where nothing has happened. -/
def opened (maxConcurrency capacity : Nat) : Office :=
  ⟨.opened maxConcurrency (.opened capacity), [], []⟩

/-- The packages of an office. -/
def packages (office : Office) : Packages := ⟨office.floor.desk, office.loans⟩

/-- The office with other packages. -/
def withPackages (office : Office) (packages : Packages) : Office :=
  { office with floor := { office.floor with desk := packages.desk }, loans := packages.loans }

/-- Dispatches the package of a loan and keeps the receipt, if there is one. -/
def dispatch (office : Office) (store : TemplateStore) (loan : String) (loanType : LoanType)
    (context : Context) (model : Value) : Office :=
  let (packages, result) := office.packages.dispatch store loan loanType context model
  { office.withPackages packages with
    receipts := match result with
      | .ok receipt => office.receipts ++ [receipt]
      | .error _ => office.receipts }

/-- Merges all jobs that wait and reports them in the order given. -/
def batch (settings : MergeSettings) (office : Office) (order : List Job) : Office :=
  office.withPackages (office.packages.afterBatch settings order)

/-- The offices that can be reached. Jobs are merged a batch at a time, or one step of one job at a
time; a dispatch may come at any time. -/
inductive Reached (settings : MergeSettings) : Office → Prop where
  | opened (maxConcurrency capacity : Nat) : Reached settings (opened maxConcurrency capacity)
  | dispatch {office : Office} (h : Reached settings office) (store : TemplateStore)
    (loan : String) (loanType : LoanType) (context : Context) (model : Value) :
    Reached settings (office.dispatch store loan loanType context model)
  | batch {office : Office} (h : Reached settings office) {order : List Job}
    (ho : order.Perm office.floor.desk.queue) : Reached settings (office.batch settings order)
  | work {office : Office} (h : Reached settings office) {step : FloorStep} {floor : Floor}
    (hs : office.floor.step? settings step = some floor) :
    Reached settings { office with floor := floor }

end Office

/-! ### The books -/

/-- What ties packages, receipts, and jobs that are not reported together. -/
structure Books (packages : Packages) (receipts : List Receipt) (jobs : List Job) : Prop where
  /-- Every receipt has its tracker, in the same place. -/
  length : packages.desk.trackers.length = receipts.length
  /-- The tracker of a loan is that of its last receipt. -/
  known : ∀ loan, Receipt.latest? receipts loan =
    (Table.find? loan packages.loans).bind (receipts[·]?)
  /-- The tracker of a loan exists. -/
  placed : ∀ loan place, Table.find? loan packages.loans = some place → place < receipts.length
  /-- Every job belongs to a receipt and reports to its tracker. -/
  bound : ∀ job ∈ jobs, ∃ place receipt, job.tracker = some place ∧
    receipts[place]? = some receipt ∧ job.id ∈ receipt.jobs
  /-- Every tracker stands as its receipt and the jobs that report to it say. -/
  account : ∀ (place : Nat) (receipt : Receipt) (tracker : Tracker),
    receipts[place]? = some receipt → packages.desk.trackers[place]? = some tracker →
    tracker.Account receipt.documentIds (jobs.filter (·.tracker == some place))
  /-- The numbers of all jobs are taken. -/
  numbered : ∀ receipt ∈ receipts, ∀ id ∈ receipt.jobs, id.number < packages.desk.nextJob
  /-- No job is on two receipts. -/
  distinct : (receipts.flatMap Receipt.jobs).Nodup
  /-- Every job on a receipt is announced once, or it is not reported. -/
  conserved : (packages.desk.announced ++ jobs.map Job.id).Perm (receipts.flatMap Receipt.jobs)

/-- The last receipt of a loan is the one just given out, if it is for the loan. -/
theorem Receipt.latest?_append (receipts : List Receipt) (receipt : Receipt) (loan : String) :
    latest? (receipts ++ [receipt]) loan =
      if receipt.loan = loan then some receipt else latest? receipts loan := by
  rw [latest?, latest?, List.filter_append]
  split
  · next h => simp [h]
  · next h => simp [h]

namespace Books

variable {packages : Packages} {receipts : List Receipt} {jobs others : List Job}

/-- The books of an office where nothing has happened. -/
theorem opened (capacity : Nat) : Books (.opened capacity) [] [] where
  length := rfl
  known := by
    intro loan
    rfl
  placed := by
    intro loan place h
    simp [Packages.opened, Table.find?] at h
  bound := by simp
  account := by simp
  numbered := by simp
  distinct := List.nodup_nil
  conserved := .refl _

/-- The books depend neither on the order of the jobs nor on the queue. -/
theorem move (h : Books packages receipts jobs) (queue : List Job) (hp : others.Perm jobs) :
    Books { packages with desk := { packages.desk with queue := queue } } receipts others where
  length := h.length
  known := h.known
  placed := h.placed
  bound := by
    intro job hj
    exact h.bound job (hp.mem_iff.mp hj)
  account := by
    intro place receipt tracker hr hd
    exact (h.account place receipt tracker hr hd).perm (hp.symm.filter _)
  numbered := h.numbered
  distinct := h.distinct
  conserved := ((hp.map Job.id).append_left _).trans h.conserved

/-- A report takes its job off the books. -/
theorem report {job : Job} (h : Books packages receipts (job :: jobs))
    (result : Except MergeError ByteArray) :
    Books { packages with desk := packages.desk.report job result } receipts jobs := by
  obtain ⟨place, receipt, hj, -, -⟩ := h.bound job List.mem_cons_self
  have ht := packages.desk.trackers_report hj result
  refine ⟨?_, h.known, h.placed, ?_, ?_, ?_, h.distinct, ?_⟩
  · rw [ht, List.length_modify]
    exact h.length
  · exact fun other ho ↦ h.bound other (List.mem_cons_of_mem job ho)
  · intro other receipt tracker hr hd
    rw [ht, List.getElem?_modify] at hd
    by_cases he : place = other
    · subst he
      rw [Option.map_eq_map, Option.map_eq_some_iff] at hd
      obtain ⟨before, hb, rfl⟩ := hd
      rw [if_pos rfl]
      have ha := h.account place receipt before hr hb
      rw [List.filter_cons_of_pos (by simp [hj])] at ha
      exact ha.record _
    · simp only [he, if_false, id_map'] at hd
      have ha := h.account other receipt tracker hr hd
      rwa [List.filter_cons_of_neg (by simp [hj, he])] at ha
  · rw [Desk.nextJob_report]
    exact h.numbered
  · rw [Desk.announced_report, List.append_assoc]
    exact h.conserved

/-- Reports of jobs, one after another, take them off the books. -/
theorem finishAll (settings : MergeSettings) (h : Books packages receipts (others ++ jobs)) :
    Books { packages with desk := Desk.finishAll settings packages.desk others } receipts jobs := by
  induction others generalizing packages with
  | nil => exact h
  | cons job others ih => exact ih (h.report _)

/-- No job reports to a tracker that is not there. -/
theorem filter_eq_nil (h : Books packages receipts jobs) {place : Nat}
    (hp : receipts.length ≤ place) : jobs.filter (·.tracker == some place) = [] := by
  rw [List.filter_eq_nil_iff]
  intro job hj
  obtain ⟨other, receipt, ho, hr, -⟩ := h.bound job hj
  have hlt : other < receipts.length := (List.getElem?_eq_some_iff.mp hr).1
  have hne : other ≠ place := by omega
  simp [ho, hne]

/-- The jobs of the next receipt are on no other receipt. -/
theorem nodup_receiptFor (h : Books packages receipts jobs) (loan : String)
    (documents : List (String × Document)) :
    ((receipts ++ [packages.receiptFor loan documents]).flatMap Receipt.jobs).Nodup := by
  rw [List.flatMap_append, List.flatMap_singleton, List.nodup_append]
  refine ⟨h.distinct, ?_, ?_⟩
  · exact (List.nodup_range' 1 (by decide)).map fun a b he ↦ congrArg JobId.number he
  · intro id ho other hn he
    obtain ⟨receipt, hr, hi⟩ := List.mem_flatMap.mp ho
    obtain ⟨number, hm, rfl⟩ := List.mem_map.mp hn
    have hold := h.numbered receipt hr id hi
    rw [he] at hold
    exact Nat.lt_irrefl _ (Nat.lt_of_lt_of_le hold (List.mem_range'_1.mp hm).1)

/-- The new tracker stands as its receipt and its jobs say, and so do all others. -/
theorem account_entered (h : Books packages receipts jobs) (loan : String) (model : Value)
    {documents : List (String × Document)} (hd : (documents.map Prod.fst).Nodup) {place : Nat}
    {receipt : Receipt} {tracker : Tracker}
    (hr : (receipts ++ [packages.receiptFor loan documents])[place]? = some receipt)
    (ht : (packages.entered loan model documents).desk.trackers[place]? = some tracker) :
    tracker.Account receipt.documentIds
      ((jobs ++ Packages.jobsFor model packages.desk.trackers.length packages.desk.nextJob
        documents).filter (·.tracker == some place)) := by
  have hl := h.length
  rw [Packages.entered] at ht
  rw [List.filter_append]
  by_cases hp : place < receipts.length
  · rw [List.getElem?_append_left hp] at hr
    rw [List.getElem?_append_left (hl ▸ hp)] at ht
    have hn : packages.desk.trackers.length ≠ place := by omega
    rw [Packages.filter_jobsFor_of_ne hn, List.append_nil]
    exact h.account place receipt tracker hr ht
  · have hlt := (List.getElem?_eq_some_iff.mp hr).1
    rw [List.length_append, List.length_singleton] at hlt
    obtain rfl : packages.desk.trackers.length = place := by omega
    rw [hl, List.getElem?_concat_length, Option.some.injEq] at hr
    rw [List.getElem?_concat_length, Option.some.injEq] at ht
    subst hr ht
    rw [h.filter_eq_nil (Nat.le_of_eq hl.symm), List.nil_append, Packages.filter_jobsFor_self,
      ← Packages.length_jobsFor model packages.desk.trackers.length packages.desk.nextJob]
    exact .opened hd (Packages.map_key_jobsFor ..)

/-- A dispatch enters its receipt and its jobs. -/
theorem dispatch (h : Books packages receipts jobs) (loan : String) (model : Value)
    {documents : List (String × Document)} (hd : (documents.map Prod.fst).Nodup) :
    Books (packages.entered loan model documents)
      (receipts ++ [packages.receiptFor loan documents])
      (jobs ++ Packages.jobsFor model packages.desk.trackers.length packages.desk.nextJob
        documents) where
  length := by simp [Packages.entered, h.length]
  known := by
    intro other
    rw [Receipt.latest?_append, Packages.receiptFor, Packages.entered]
    by_cases he : loan = other
    · subst he
      simp [h.length]
    · rw [if_neg he, h.known, Table.find?_put_of_ne (Ne.symm he)]
      cases hf : Table.find? other packages.loans with
      | none => rfl
      | some place =>
        have hp := h.placed other place hf
        exact (List.getElem?_append_left hp).symm
  placed := by
    intro other place hf
    have hl := h.length
    rw [Packages.entered] at hf
    rw [List.length_append, List.length_singleton]
    by_cases he : other = loan
    · subst he
      obtain rfl : packages.desk.trackers.length = place := by simpa using hf
      omega
    · rw [Table.find?_put_of_ne he] at hf
      exact Nat.lt_succ_of_lt (h.placed other place hf)
  bound := by
    intro job hj
    rw [List.mem_append] at hj
    cases hj with
    | inl hj =>
      obtain ⟨place, receipt, ht, hr, hi⟩ := h.bound job hj
      have hp : place < receipts.length := (List.getElem?_eq_some_iff.mp hr).1
      exact ⟨place, receipt, ht, by rw [List.getElem?_append_left hp, hr], hi⟩
    | inr hj =>
      refine ⟨packages.desk.trackers.length, packages.receiptFor loan documents,
        Packages.tracker_of_mem_jobsFor hj, ?_, ?_⟩
      · rw [h.length, List.getElem?_concat_length]
      · rw [← packages.map_id_jobsFor_receiptFor loan model]
        exact List.mem_map_of_mem hj
  account := by
    intro place receipt tracker hr ht
    exact h.account_entered loan model hd hr ht
  numbered := by
    intro receipt hr id hi
    rw [List.mem_append, List.mem_singleton] at hr
    cases hr with
    | inl hr => exact Nat.lt_add_right _ (h.numbered receipt hr id hi)
    | inr hr =>
      subst hr
      obtain ⟨number, hm, rfl⟩ := List.mem_map.mp hi
      exact (List.mem_range'_1.mp hm).2
  distinct := h.nodup_receiptFor loan documents
  conserved := by
    rw [List.flatMap_append, List.flatMap_singleton, List.map_append, ← List.append_assoc,
      packages.map_id_jobsFor_receiptFor loan model]
    exact h.conserved.append_right _

end Books

/-! ### The books of an office -/

namespace Office

/-- The books of an office. -/
def Kept (office : Office) : Prop :=
  Books office.packages office.receipts office.floor.unreported

variable {settings : MergeSettings} {office : Office}

/-- A dispatch keeps the books. -/
theorem Kept.dispatch (h : office.Kept) (store : TemplateStore) (loan : String)
    (loanType : LoanType) (context : Context) (model : Value) :
    (office.dispatch store loan loanType context model).Kept := by
  rw [Kept, Office.dispatch]
  obtain ⟨error, hd⟩ | ⟨documents, hn, hd⟩ :=
    office.packages.dispatch_cases store loan loanType context model
  · rw [hd]
    exact h
  · rw [hd]
    have hp (jobs : List Job) :
        ((office.floor.desk.queue ++ jobs) ++ office.floor.tasks.map MergeTask.job).Perm
          (office.floor.unreported ++ jobs) := by
      rw [Floor.unreported, List.append_assoc, List.append_assoc]
      exact List.perm_append_comm.append_left _
    exact (Books.dispatch h loan model hn).move _ (hp _)

/-- A batch leaves the jobs that were taken before. -/
theorem unreported_batch (settings : MergeSettings) (office : Office) (order : List Job) :
    (office.batch settings order).floor.unreported = office.floor.tasks.map MergeTask.job := by
  simp only [Floor.unreported, Office.batch, withPackages, Packages.afterBatch,
    Desk.queue_finishAll, List.nil_append]

/-- A batch keeps the books, in whichever order its jobs are reported. -/
theorem Kept.batch (h : office.Kept) {order : List Job}
    (ho : order.Perm office.floor.desk.queue) : (office.batch settings order).Kept := by
  have hb := (Books.move h [] (ho.append_right (office.floor.tasks.map MergeTask.job))).finishAll
    settings
  rw [Kept, unreported_batch]
  exact hb

/-- A step on the floor keeps the books. -/
theorem Kept.work (h : office.Kept) {step : FloorStep} {floor : Floor}
    (hs : office.floor.step? settings step = some floor) :
    Kept { office with floor := floor } := by
  obtain ⟨queue, hd, hp⟩ | ⟨place, job, result, -, -, hd, hp⟩ := Floor.step?_cases hs
  · have hb := Books.move h queue hp
    rw [Kept, packages, hd]
    exact hb
  · have hb := (Books.move h office.floor.desk.queue hp.symm).report result
    rw [Kept, packages, hd]
    exact hb

/-- The books are kept in every office that can be reached. -/
theorem Reached.kept (h : Reached settings office) : office.Kept := by
  induction h with
  | opened maxConcurrency capacity => exact Books.opened capacity
  | dispatch h store loan loanType context model ih =>
    exact ih.dispatch store loan loanType context model
  | batch h ho ih => exact ih.batch ho
  | work h hs ih => exact ih.work hs

end Office

end LoanClosing

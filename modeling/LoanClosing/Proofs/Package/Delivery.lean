import LoanClosing.Proofs.Package.Office

/-!
# Delivery of packages

No package is lost, mixed up with another one, or left hanging: this is what the books of an office
say about the status of each loan.
-/

namespace LoanClosing

/-- Every loan with a receipt is failed, or it is complete with the documents of its last receipt,
each once. -/
def Packages.Delivered (packages : Packages) (receipts : List Receipt) : Prop :=
  ∀ loan receipt, Receipt.latest? receipts loan = some receipt →
    (∃ failure, packages.status loan = .ok (.failed failure)) ∨
    ∃ sizes, packages.status loan = .ok (.complete sizes) ∧
      (Table.keys sizes).Perm receipt.documentIds ∧ (Table.keys sizes).Nodup

namespace Tracker

variable {tracker : Tracker}

/-- A tracker is pending as long as it has no outcome. -/
theorem outcome_of_status_pending {expected remaining : Nat}
    (h : tracker.status = .pending expected remaining) :
    tracker.outcome = none ∧ tracker.remaining = remaining := by
  rw [status] at h
  cases ho : tracker.outcome with
  | none =>
    rw [ho] at h
    injection h with _ hr
    exact ⟨rfl, hr⟩
  | some outcome =>
    rw [ho] at h
    cases outcome <;> cases h

/-- A complete tracker shows the keys of its outputs. -/
theorem outcome_of_status_complete {sizes : List (String × Nat)}
    (h : tracker.status = .complete sizes) :
    ∃ outputs, tracker.outcome = some (.complete outputs) ∧
      Table.keys sizes = Table.keys outputs := by
  rw [status] at h
  cases ho : tracker.outcome with
  | none =>
    rw [ho] at h
    cases h
  | some outcome =>
    rw [ho] at h
    cases outcome with
    | complete outputs =>
      injection h with h
      refine ⟨outputs, rfl, ?_⟩
      rw [← h, Table.keys, Table.keys, List.map_map]
      rfl
    | failed failure => cases h

end Tracker

namespace Books

variable {packages : Packages} {receipts : List Receipt} {jobs : List Job}

/-- A job is on one receipt only. -/
theorem place_eq (h : Books packages receipts jobs) {place other : Nat} {receipt next : Receipt}
    {id : JobId} (hr : receipts[place]? = some receipt) (hn : receipts[other]? = some next)
    (hi : id ∈ receipt.jobs) (ho : id ∈ next.jobs) : place = other := by
  have hd := List.pairwise_iff_getElem.mp (List.nodup_flatMap.mp h.distinct).2
  obtain ⟨hlr, rfl⟩ := List.getElem?_eq_some_iff.mp hr
  obtain ⟨hln, rfl⟩ := List.getElem?_eq_some_iff.mp hn
  by_contra hne
  cases Nat.lt_or_gt_of_ne hne with
  | inl hlt => exact hd place other hlr hln hlt hi ho
  | inr hlt => exact hd other place hln hlr hlt ho hi

/-- The jobs bound to a tracker are those of its receipt that are not announced. -/
theorem length_bound (h : Books packages receipts jobs) {place : Nat} {receipt : Receipt}
    (hr : receipts[place]? = some receipt) :
    (jobs.filter (·.tracker == some place)).length =
      receipt.jobs.countP (· ∉ packages.desk.announced) := by
  have hn : (packages.desk.announced ++ jobs.map Job.id).Nodup :=
    h.conserved.nodup_iff.mpr h.distinct
  have hj := List.nodup_append.mp hn
  have hm : receipt ∈ receipts := List.mem_of_getElem? hr
  have hown : receipt.jobs.Nodup := (List.nodup_flatMap.mp h.distinct).1 receipt hm
  have hleft : ((jobs.filter (·.tracker == some place)).map Job.id).Nodup :=
    (List.filter_sublist.map Job.id).nodup hj.2.1
  have hright : (receipt.jobs.filter (· ∉ packages.desk.announced)).Nodup := hown.filter _
  rw [List.countP_eq_length_filter, ← List.length_map Job.id]
  refine ((List.perm_ext_iff_of_nodup hleft hright).mpr fun id ↦ ?_).length_eq
  simp only [List.mem_map, List.mem_filter, beq_iff_eq, decide_eq_true_eq]
  constructor
  · rintro ⟨job, ⟨hjob, ht⟩, rfl⟩
    obtain ⟨other, next, ho, hnext, hi⟩ := h.bound job hjob
    obtain rfl : other = place := Option.some.inj (ho.symm.trans ht)
    obtain rfl : next = receipt := Option.some.inj (hnext.symm.trans hr)
    refine ⟨hi, fun ha ↦ ?_⟩
    exact hj.2.2 job.id ha job.id (List.mem_map_of_mem hjob) rfl
  · rintro ⟨hi, ha⟩
    have hall : id ∈ packages.desk.announced ++ jobs.map Job.id :=
      h.conserved.mem_iff.mpr (List.mem_flatMap.mpr ⟨receipt, hm, hi⟩)
    obtain hin | hin := List.mem_append.mp hall
    · exact absurd hin ha
    · obtain ⟨job, hjob, rfl⟩ := List.mem_map.mp hin
      obtain ⟨other, next, ho, hnext, hon⟩ := h.bound job hjob
      obtain rfl : other = place := h.place_eq hnext hr hon hi
      exact ⟨job, ⟨hjob, ho⟩, rfl⟩

/-- A loan without a receipt has no tracker, and one with a receipt has the tracker that was opened
for its last receipt. -/
theorem tracker?_eq (h : Books packages receipts jobs) (loan : String) :
    (Receipt.latest? receipts loan = none ∧ packages.tracker? loan = none) ∨
    ∃ place receipt tracker, receipts[place]? = some receipt ∧
      Receipt.latest? receipts loan = some receipt ∧
      packages.desk.trackers[place]? = some tracker ∧
      packages.tracker? loan = some tracker ∧
      tracker.Account receipt.documentIds (jobs.filter (·.tracker == some place)) := by
  have hk := h.known loan
  cases hf : Table.find? loan packages.loans with
  | none =>
    left
    rw [hf] at hk
    refine ⟨hk, ?_⟩
    rw [Packages.tracker?, hf]
    rfl
  | some place =>
    right
    have hp := h.placed loan place hf
    have ht : place < packages.desk.trackers.length := h.length ▸ hp
    have hr := List.getElem?_eq_getElem hp
    have hd := List.getElem?_eq_getElem ht
    refine ⟨place, receipts[place], packages.desk.trackers[place], hr, ?_, hd, ?_, ?_⟩
    · rw [hk, hf]
      exact hr
    · rw [Packages.tracker?, hf]
      exact hd
    · exact h.account place _ _ hr hd

/-- A pending tracker waits for the jobs of its receipt that are not announced, and there is one. -/
theorem pending (h : Books packages receipts jobs) {place : Nat} {receipt : Receipt}
    {tracker : Tracker} {expected remaining : Nat} (hr : receipts[place]? = some receipt)
    (ht : packages.desk.trackers[place]? = some tracker)
    (hs : tracker.status = .pending expected remaining) :
    0 < remaining ∧ remaining = receipt.jobs.countP (· ∉ packages.desk.announced) := by
  obtain ⟨ho, rfl⟩ := Tracker.outcome_of_status_pending hs
  obtain ⟨hl, hpos, -⟩ := (h.account place receipt tracker hr ht).pending ho
  exact ⟨hpos, hl.trans (h.length_bound hr)⟩

/-- A complete package holds the documents of the last receipt, each once. -/
theorem complete (h : Books packages receipts jobs) {loan : String}
    {sizes : List (String × Nat)} (hs : packages.status loan = .ok (.complete sizes)) :
    ∃ receipt, Receipt.latest? receipts loan = some receipt ∧
      (Table.keys sizes).Perm receipt.documentIds ∧ (Table.keys sizes).Nodup := by
  rw [Packages.status] at hs
  obtain ⟨-, ht⟩ | ⟨place, receipt, tracker, -, hl, -, ht, ha⟩ := h.tracker?_eq loan
  · rw [ht] at hs
    cases hs
  · rw [ht] at hs
    obtain ⟨outputs, ho, hk⟩ := Tracker.outcome_of_status_complete (Except.ok.inj hs)
    have hp := ha.complete outputs ho
    rw [hk]
    exact ⟨receipt, hl, hp, hp.nodup_iff.mpr ha.nodup⟩

/-- Once all jobs are reported, all packages are delivered. -/
theorem delivered (h : Books packages receipts []) : packages.Delivered receipts := by
  intro loan receipt hl
  obtain ⟨hn, -⟩ | ⟨place, last, tracker, -, hlast, -, ht, ha⟩ := h.tracker?_eq loan
  · rw [hn] at hl
    cases hl
  · obtain rfl : last = receipt := Option.some.inj (hlast.symm.trans hl)
    have hs : packages.status loan = .ok tracker.status := by rw [Packages.status, ht]
    cases hst : tracker.status with
    | pending expected remaining =>
      exact absurd (Tracker.outcome_of_status_pending hst).1 ha.outcome_ne_none
    | complete sizes =>
      rw [hst] at hs
      obtain ⟨other, ho, hp, hn⟩ := h.complete hs
      obtain rfl : other = last := Option.some.inj (ho.symm.trans hlast)
      exact .inr ⟨sizes, hs, hp, hn⟩
    | failed failure => exact .inl ⟨failure, hst ▸ hs⟩

/-- A job that is reported is on one receipt, and only loans with that last receipt notice. -/
theorem tracker?_report (h : Books packages receipts jobs) {job : Job} (hj : job ∈ jobs)
    (result : Except MergeError ByteArray) :
    ∃ receipt ∈ receipts, job.id ∈ receipt.jobs ∧
      ∀ loan, Receipt.latest? receipts loan ≠ some receipt →
        Packages.tracker? { packages with desk := packages.desk.report job result } loan =
          packages.tracker? loan := by
  obtain ⟨place, receipt, ht, hr, hi⟩ := h.bound job hj
  refine ⟨receipt, List.mem_of_getElem? hr, hi, fun loan hl ↦ ?_⟩
  rw [Packages.tracker?, Packages.tracker?, Desk.trackers_report _ ht]
  cases hf : Table.find? loan packages.loans with
  | none => rfl
  | some other =>
    have hne : place ≠ other := by
      rintro rfl
      apply hl
      rw [h.known, hf]
      exact hr
    exact List.getElem?_modify_ne _ _ hne

/-- A dispatch leaves the trackers of other loans alone. -/
theorem tracker?_dispatch (h : Books packages receipts jobs) (store : TemplateStore)
    {loan other : String} (ho : other ≠ loan) (loanType : LoanType) (context : Context)
    (model : Value) :
    (packages.dispatch store loan loanType context model).1.tracker? other =
      packages.tracker? other := by
  obtain ⟨error, hd⟩ | ⟨documents, -, hd⟩ :=
    packages.dispatch_cases store loan loanType context model
  · rw [hd]
  · rw [hd, Packages.tracker?, Packages.tracker?, Packages.entered, Table.find?_put_of_ne ho]
    cases hf : Table.find? other packages.loans with
    | none => rfl
    | some place =>
      have hp : place < packages.desk.trackers.length := h.length ▸ h.placed other place hf
      exact List.getElem?_append_left hp

end Books

/-! ### What an office promises -/

/-- What holds of the packages of an office, whatever has happened there. -/
structure Office.Sound (settings : MergeSettings) (office : Office) : Prop where
  /-- There is a tracker for each receipt. -/
  trackers : office.floor.desk.trackers.length = office.receipts.length
  /-- A loan without a receipt is not known; any other loan has the status of the tracker that was
  opened for its last receipt. -/
  current : ∀ loan,
    (Receipt.latest? office.receipts loan = none ∧
      office.packages.status loan = .error (.unknownLoan loan)) ∨
    ∃ (place : Nat) (receipt : Receipt) (tracker : Tracker),
      office.receipts[place]? = some receipt ∧
      Receipt.latest? office.receipts loan = some receipt ∧
      office.floor.desk.trackers[place]? = some tracker ∧
      office.packages.status loan = .ok tracker.status
  /-- Every job on a receipt is announced once, or it is not reported. -/
  conserved : (office.floor.desk.announced ++ office.floor.unreported.map Job.id).Perm
    (office.receipts.flatMap Receipt.jobs)
  /-- No job is on two receipts. -/
  distinct : (office.receipts.flatMap Receipt.jobs).Nodup
  /-- A pending tracker waits for the jobs of its receipt that are not announced, and there is
  one. -/
  pending : ∀ (place : Nat) (receipt : Receipt) (tracker : Tracker) (expected remaining : Nat),
    office.receipts[place]? = some receipt → office.floor.desk.trackers[place]? = some tracker →
    tracker.status = .pending expected remaining →
    0 < remaining ∧ remaining = receipt.jobs.countP (· ∉ office.floor.desk.announced)
  /-- A complete package holds the documents of the last receipt, each once. -/
  complete : ∀ loan sizes, office.packages.status loan = .ok (.complete sizes) →
    ∃ receipt, Receipt.latest? office.receipts loan = some receipt ∧
      (Table.keys sizes).Perm receipt.documentIds ∧ (Table.keys sizes).Nodup
  /-- Once all jobs are reported, all packages are delivered. -/
  delivered : office.floor.unreported = [] → office.packages.Delivered office.receipts
  /-- When no job is taken yet, merging all that wait delivers all packages, in whichever order the
  jobs are reported. -/
  batch : office.floor.tasks = [] → ∀ order : List Job, order.Perm office.floor.desk.queue →
    (office.packages.afterBatch settings order).Delivered office.receipts
  /-- A report of a job changes nothing for loans with another last receipt than that of the job. -/
  reported : ∀ job ∈ office.floor.unreported, ∀ result : Except MergeError ByteArray,
    ∃ receipt ∈ office.receipts, job.id ∈ receipt.jobs ∧
      ∀ loan, Receipt.latest? office.receipts loan ≠ some receipt →
        Packages.tracker? ⟨office.floor.desk.report job result, office.loans⟩ loan =
          office.packages.tracker? loan
  /-- A dispatch changes nothing for other loans. -/
  dispatched : ∀ store loan loanType context model other, other ≠ loan →
    (office.packages.dispatch store loan loanType context model).1.tracker? other =
      office.packages.tracker? other ∧
    (office.packages.dispatch store loan loanType context model).1.status other =
      office.packages.status other

/-- Every office that can be reached keeps its promises. -/
theorem Office.Reached.sound {settings : MergeSettings} {office : Office}
    (h : Reached settings office) : office.Sound settings where
  trackers := h.kept.length
  current := by
    intro loan
    obtain ⟨hl, ht⟩ | ⟨place, receipt, tracker, hr, hl, hd, ht, -⟩ := h.kept.tracker?_eq loan
    · exact .inl ⟨hl, by rw [Packages.status, ht]⟩
    · exact .inr ⟨place, receipt, tracker, hr, hl, hd, by rw [Packages.status, ht]⟩
  conserved := h.kept.conserved
  distinct := h.kept.distinct
  pending := by
    intro place receipt tracker expected remaining hr ht hs
    exact h.kept.pending hr ht hs
  complete := by
    intro loan sizes hs
    exact h.kept.complete hs
  delivered := by
    intro hu
    have hb := h.kept
    rw [Kept, hu] at hb
    exact hb.delivered
  batch := by
    intro ht order ho
    have hb : (office.batch settings order).Kept := h.kept.batch ho
    rw [Kept, unreported_batch, ht] at hb
    exact hb.delivered
  reported := by
    intro job hj result
    exact h.kept.tracker?_report hj result
  dispatched := by
    intro store loan loanType context model other ho
    have ht := h.kept.tracker?_dispatch store ho loanType context model
    exact ⟨ht, by rw [Packages.status, Packages.status, ht]⟩

/-- A store that has a template for the note only. -/
def TemplateStore.noteOnly : TemplateStore := fun id ↦
  .ok (if id = "note" then some (Document.stored ⟨"Note", [⟨"body", []⟩]⟩) else none)

/-- An office where a loan is dispatched again while its first job still waits, after a dispatch of
another loan that failed. -/
def Office.redispatched : Office :=
  (((opened 2 4).dispatch .noteOnly "L-1" ⟨"Purchase", ["note"], []⟩ .empty .null).dispatch
    .noteOnly "L-2" ⟨"Purchase", ["note", "deed"], []⟩ .empty .null).dispatch
    .noteOnly "L-1" ⟨"Purchase", ["note"], []⟩ .empty .null

/-- The later job is reported first, and the package of the loan is complete. -/
theorem Office.sound_redispatched_batch :
    let settings : MergeSettings := ⟨⟨"Loan", 3⟩, .plainText⟩
    let office := redispatched.batch settings redispatched.floor.desk.queue.reverse
    Reached settings office ∧ office.Sound settings ∧
      office.receipts = [⟨"L-1", ["note"], [⟨1⟩]⟩, ⟨"L-1", ["note"], [⟨2⟩]⟩] ∧
      office.packages.status "L-1" = .ok (.complete [("note", 0)]) := by
  intro settings office
  have hr : Reached settings office := by
    refine .batch ?_ (List.reverse_perm _)
    exact (((Reached.opened 2 4).dispatch ..).dispatch ..).dispatch ..
  exact ⟨hr, Reached.sound hr, by decide +kernel, by decide +kernel⟩

end LoanClosing

import LoanClosing.Document.Stored
import LoanClosing.Model.Value
import LoanClosing.Rules.Context
import LoanClosing.Rules.LoanType

/-!
# A sample loan

A loan type with its rules and templates, and a loan of that type. The service starts with these
templates, and the demonstration dispatches this loan.
-/

namespace LoanClosing

/-- How the borrower uses the property. -/
inductive Occupancy where
  | primary
  | secondHome
  | investment
  deriving DecidableEq, Repr

namespace Occupancy

/-- The occupancy of a name; any other name means a primary residence. -/
def ofName (name : String) : Occupancy :=
  match Text.lowerAscii (Text.trim name) with
  | "investment" => .investment
  | "second" | "second-home" => .secondHome
  | _ => .primary

/-- The name of an occupancy. -/
def name : Occupancy → String
  | .primary => "Primary"
  | .secondHome => "SecondHome"
  | .investment => "Investment"

/-- An occupancy as a choice of the loan data. -/
def choice (occupancy : Occupancy) : EnumValue where
  name := some occupancy.name
  value := some (match occupancy with
    | .primary => 1
    | .secondHome => 2
    | .investment => 3)
  description := some (match occupancy with
    | .primary => "Primary Residence"
    | .secondHome => "Second Home"
    | .investment => "Investment Property")

end Occupancy

namespace Sample

/-! ## The loan type -/

/-- A term with one value to compare with. -/
def term (field : String) (operator : Operator) (value : String) (join : Join) : RuleNode × Join :=
  (.leaf ⟨field, operator, [value]⟩, join)

/-- The loan type. -/
def loanType : LoanType where
  name := "Conventional Purchase"
  defaultDocuments := ["promissory-note", "closing-disclosure"]
  rules := [
    { name := "West coast addendum"
      condition := some [term "PropertyState" .oneOf "CA, OR, WA" .and]
      documents := ["state-addendum"] },
    { name := "Non-owner occupancy rider"
      condition := some [
        term "Occupancy" .notEquals "Primary" .or,
        term "HasCoBorrower" .equals "yes" .and]
      documents := ["occupancy-rider", "promissory-note"] }]

/-! ## The loan -/

/-- What the rules know about the loan. -/
def context : Context :=
  .ofList [("PropertyState", "CA"), ("Occupancy", "Primary"), ("HasCoBorrower", "yes")]

/-- A whole number. -/
def count (n : Int64) : Value := .number (.ofInt64 n)

/-- The data of the loan. -/
def model : Value := .object [
  ("Amount", count 512000),
  ("Borrowers", .list [
    .object [("Email", .text "ada@example.com"), ("Name", .text "Ada Lovelace"),
      ("Role", .text "Borrower")],
    .object [("Email", .null), ("Name", .text "Charles Babbage"), ("Role", .text "Co-Borrower")]]),
  ("Closing", .date ⟨2025, 11, 14, by decide⟩),
  ("Fees", .map [
    ("Appraisal", count 550), ("Origination", count 2560), ("Recording", count 120)]),
  ("Number", .text "LN-2025-0042"),
  ("Occupancy", .enum Occupancy.primary.choice),
  ("Product", .enum ⟨some "Fixed30", some 30, some "30-Year Fixed"⟩),
  ("Property", .object [
    ("City", .text "Oakland"), ("State", .text "CA"), ("Street", .text "1180 Harbor View Dr")]),
  ("Rate", .number ⟨6125, 3, by decide, by decide⟩),
  ("TermMonths", count 360)]

/-! ## The templates -/

/-- A container of plain paragraphs. -/
def lines (name : String) (texts : List String) : Container := ⟨name, texts.map .ofText⟩

/-- The line for the signature of a borrower, part of it in bold. -/
def signatureLine : Block where
  leaves := [
    .plain "Signed: \x7b",
    ⟨"borrower.Na", .object [("bold", .bool true)]⟩,
    .plain "me\x7d (\x7bborrower.Role\x7d)"]
  format := .null

/-- The promissory note. -/
def promissoryNote : Document where
  name := "Promissory Note"
  containers := [
    lines "header" ["Loan \x7bLoan.Number\x7d"],
    { name := "body"
      blocks :=
        [.ofText ("FOR VALUE RECEIVED, the undersigned promise to pay $\x7bLoan.Amount\x7d at " ++
            "\x7bLoan.Rate\x7d% over \x7bLoan.TermMonths\x7d months."),
          .ofText "Product:\x7bTAB\x7d\x7bLoan.Product\x7d",
          .ofText "FOREACH borrower in Loan.Borrowers",
          signatureLine,
          .ofText "IF borrower.Email <> null",
          .ofText "Notices to \x7bborrower.Email\x7d",
          .ofText "ENDIF",
          .ofText "ENDFOREACH"] },
    lines "footer" ["Closing \x7bLoan.Closing\x7d"]]

/-- The closing disclosure. -/
def closingDisclosure : Document where
  name := "Closing Disclosure"
  containers := [lines "body" [
    "Property: \x7bLoan.Property.Street\x7d, \x7bLoan.Property.City\x7d " ++
      "\x7bLoan.Property.State\x7d",
    "Origination fee: $\x7bLoan.Fees.Origination\x7d",
    "Appraisal fee: $\x7bLoan.Fees.appraisal\x7d",
    "IF Loan.Amount > 500000 and Loan.Occupancy = 'Primary'",
    "High-balance primary residence disclosure applies.",
    "ENDIF"]]

/-- The state addendum. -/
def stateAddendum : Document where
  name := "State Addendum"
  containers := [lines "body" [
    "\x7bLoan.Property.State\x7d addendum to loan \x7bLoan.Number\x7d, " ++
      "\x7bLoan.Borrowers.Count\x7d signers."]]

/-- The occupancy rider. -/
def occupancyRider : Document where
  name := "Occupancy Rider"
  containers := [lines "body" ["Occupancy: \x7bLoan.Occupancy.Description\x7d"]]

/-- The templates under the identifiers of their documents. -/
def templates : List (String × Document) := [
  ("promissory-note", promissoryNote),
  ("closing-disclosure", closingDisclosure),
  ("state-addendum", stateAddendum),
  ("occupancy-rider", occupancyRider)]

/-- The templates as they are stored. -/
def stored : List (String × ByteArray) := templates.map fun (id, template) ↦ (id, template.stored)

end Sample

end LoanClosing

import LoanClosing.Settings.LogField
import LoanClosing.Text.Blank
import LoanClosing.Text.Bytes
import LoanClosing.Text.Letter

/-!
# Log filters

A log filter is a list of directives with commas between them. A directive is a level, a target, or
a target and a level; a target may be narrowed to a span and to a field. For one place the last
directive counts. Some targets are kept quiet unless the filter text has their name in it.
-/

namespace LoanClosing

/-- How much is logged. -/
inductive LogLevel where
  | off
  | error
  | warn
  | info
  | debug
  | trace
  deriving DecidableEq, Repr

namespace LogLevel

/-- The name of a level. -/
def name : LogLevel → String
  | .off => "off"
  | .error => "error"
  | .warn => "warn"
  | .info => "info"
  | .debug => "debug"
  | .trace => "trace"

/-- All levels, the quietest first. -/
def all : List LogLevel := [.off, .error, .warn, .info, .debug, .trace]

/-- Reads a level: its name in any ASCII case, or its number. -/
def read? (s : String) : Option LogLevel :=
  match (Text.readNat? s).bind fun n ↦ all[n]? with
  | some level => some level
  | none => all.find? fun level ↦ Text.sameFolded level.name s

end LogLevel

/-- A directive. -/
structure LogDirective where
  target : Option String
  /-- The span that the target is narrowed to. -/
  span : Option String
  /-- The field that there must be. -/
  field : Option LogField
  level : LogLevel
  deriving DecidableEq, Repr

/-- What is wrong with a directive. -/
inductive LogFilterProblem where
  | unreadable
  | unknownLevel
  /-- The value of a field cannot be searched for. -/
  | unusableField (problem : Text.PatternProblem)
  deriving DecidableEq, Repr

/-- Why there is no log filter. -/
inductive LogFilterError where
  | invalid (filter : String) (problem : LogFilterProblem)
  /-- Logging could not be set up. -/
  | notInstalled (reason : String)
  deriving DecidableEq, Repr

/-- The text of a problem. -/
def LogFilterProblem.message : LogFilterProblem → String
  | .unreadable => "invalid filter directive"
  | .unknownLevel =>
    "error parsing level filter: expected one of \"off\", \"error\", \"warn\", \"info\", " ++
      "\"debug\", \"trace\", or a number 0-5"
  | .unusableField .malformed => "invalid field filter: error building NFA"
  | .unusableField .wordBoundary =>
    "invalid field filter: unsupported regex feature for DFAs: cannot build DFAs for regexes " ++
      "with Unicode word boundaries; switch to ASCII word boundaries, or heuristically enable " ++
      "Unicode word boundaries or use a different regex engine"

/-- The text of an error. -/
def LogFilterError.message : LogFilterError → String
  | .invalid filter problem => "invalid log filter '" ++ filter ++ "': " ++ problem.message
  | .notInstalled reason => "telemetry error: " ++ reason

namespace LogDirective

/-- Whether a directive narrows its target. -/
def isNarrow (directive : LogDirective) : Bool := directive.span.isSome || directive.field.isSome

/-- The part of a directive in brackets. -/
def bracketText (directive : LogDirective) : String :=
  if directive.isNarrow then
    let field := match directive.field with
      | none => ""
      | some field => "\x7b" ++ field.text ++ "\x7d"
    "[" ++ directive.span.getD "" ++ field ++ "]"
  else ""

/-- The text of a directive. -/
def text (directive : LogDirective) : String :=
  let place := directive.target.getD "" ++ directive.bracketText
  if directive.target.isSome || directive.isNarrow then place ++ "=" ++ directive.level.name
  else directive.level.name

/-- Whether two directives are about the same place. -/
def samePlace (a b : LogDirective) : Bool :=
  a.target == b.target && a.span == b.span &&
    match a.field, b.field with
    | none, none => true
    | some x, some y => x.same y
    | _, _ => false

/-- Whether a directive can be decided where something is logged, without a span that is running. -/
def isStatic (directive : LogDirective) : Bool :=
  directive.span.isNone && (directive.field.bind LogField.value).isNone

/-- Where the reading of a directive stands. -/
inductive Progress where
  | start
  | levelOrTarget
  | span (from_ : Nat)
  | field (from_ : Nat)
  | bracket
  | target
  | level (from_ : Nat)

/-- What a directive has been read to be. -/
structure Draft where
  target : Option String
  span : Option String
  field : Option LogField

/-- Whether a directive may start with a character. -/
def mayStart (c : Char) : Bool := c == '-' || c == ':' || c == '_' || Text.isLetterOrNumber c

/-- The part of a text from one byte up to another. -/
def part (cs : List Char) (first last : Nat) : String :=
  String.ofList (Text.byteSlice cs first last)

/-- Takes the character at a place. Places are bytes, counted behind the blanks that a text starts
with; the parts are those of the text with these blanks. -/
def step (cs : List Char) (place : Nat) (c : Char) (draft : Draft) :
    Progress → Except LogFilterProblem (Progress × Draft)
  | .start =>
    if c = '[' then .ok (.span (place + 1), draft)
    else if mayStart c then .ok (.levelOrTarget, draft)
    else .error .unreadable
  | .levelOrTarget =>
    if c = '=' then .ok (.level (place + 1), { draft with target := some (part cs 0 place) })
    else if c = '[' then .ok (.span (place + 1), { draft with target := some (part cs 0 place) })
    else .ok (.levelOrTarget, draft)
  | .span first =>
    if c = ']' then .ok (.target, { draft with span := some (part cs first place) })
    else if c = '\x7b' then
      let name := part cs first place
      .ok (.field (place + 1), { draft with span := if name = "" then none else some name })
    else .ok (.span first, draft)
  | .field first =>
    if c = '\x7d' then
      match Text.byteSlice cs first place with
      | [] => .error .unreadable
      | field =>
        match LogField.read field with
        | .ok field => .ok (.bracket, { draft with field := some field })
        | .error problem => .error (.unusableField problem)
    else .ok (.field first, draft)
  | .bracket => if c = ']' then .ok (.target, draft) else .error .unreadable
  | .target => if c = '=' then .ok (.level (place + 1), draft) else .error .unreadable
  | .level first => .ok (.level first, draft)

/-- Takes characters from a place on. -/
def steps (cs : List Char) :
    Nat → Progress × Draft → List Char → Except LogFilterProblem (Progress × Draft)
  | _, state, [] => .ok state
  | place, (progress, draft), c :: rest => do
    let state ← step cs place c draft progress
    steps cs (place + c.utf8Size) state rest

/-- The directive that has been read when a text ends. -/
def finish (cs : List Char) : Progress × Draft → Except LogFilterProblem LogDirective
  | (.levelOrTarget, _) =>
    let word := String.ofList cs
    match LogLevel.read? word with
    | some level => .ok ⟨none, none, none, level⟩
    | none => .ok ⟨some word, none, none, .trace⟩
  | (.level first, draft) =>
    match part cs first (Text.byteCount cs) with
    | "" => .ok ⟨draft.target, draft.span, draft.field, .trace⟩
    | word =>
      match LogLevel.read? word with
      | some level => .ok ⟨draft.target, draft.span, draft.field, level⟩
      | none => .error .unknownLevel
  | (.target, draft) => .ok ⟨draft.target, draft.span, draft.field, .trace⟩
  | _ => .error .unreadable

/-- Reads a directive. -/
def read (cs : List Char) : Except LogFilterProblem LogDirective := do
  finish cs (← steps cs 0 (.start, ⟨none, none, none⟩) (Text.trimChars cs))

/-- Puts a directive in place of the one about the same place, or at the end. -/
def addTo (directive : LogDirective) (directives : List LogDirective) : List LogDirective :=
  if directives.any directive.samePlace then
    directives.map fun other ↦ if directive.samePlace other then directive else other
  else directives ++ [directive]

end LogDirective

/-- A log filter. A directive that asks for a field without a value is both static and narrow. -/
structure LogFilter where
  /-- The static directives, of which no two are about the same place. -/
  statics : List LogDirective
  /-- The directives that narrow their target, of which no two are about the same place. -/
  narrow : List LogDirective
  deriving DecidableEq, Repr

namespace LogFilter

/-- All directives, those that are in both parts twice. -/
def directives (filter : LogFilter) : List LogDirective := filter.statics ++ filter.narrow

/-- The filter of directives; of two about the same place the later one counts. -/
def ofDirectives (directives : List LogDirective) : LogFilter where
  statics := (directives.filter LogDirective.isStatic).foldl (fun ds d ↦ d.addTo ds) []
  narrow := (directives.filter LogDirective.isNarrow).foldl (fun ds d ↦ d.addTo ds) []

/-- Reads directives in order. -/
def readAll : List (List Char) → Except LogFilterProblem (List LogDirective)
  | [] => .ok []
  | cs :: more => do
    let directive ← LogDirective.read cs
    let directives ← readAll more
    .ok (directive :: directives)

/-- Reads a filter. An empty one logs errors only. -/
def read (s : String) : Except LogFilterError LogFilter :=
  match readAll ((Text.splitAt ',' s.toList).filter (!·.isEmpty)) with
  | .error problem => .error (.invalid s problem)
  | .ok [] => .ok (ofDirectives [⟨none, none, none, .error⟩])
  | .ok directives => .ok (ofDirectives directives)

/-- The targets that are kept quiet. -/
def quietTargets : List String := ["hyper", "h2", "tower"]

/-- Keeps a target quiet unless a text has its name in it. -/
def quiet (s : String) (filter : LogFilter) (target : String) : LogFilter :=
  if Text.occursIn target.toList s.toList then filter
  else
    { filter with
      statics := LogDirective.addTo ⟨some target, none, none, .warn⟩ filter.statics }

/-- The filter of a configured level. -/
def ofLevel (s : String) : Except LogFilterError LogFilter :=
  (read s).map fun filter ↦ quietTargets.foldl (quiet s) filter

/-- The filter to use: the requested one if it can be read, else that of the configured level. -/
def choose (requested : Option String) (level : String) : Except LogFilterError LogFilter :=
  match requested.map read with
  | some (.ok filter) => .ok filter
  | _ => ofLevel level

end LogFilter

end LoanClosing

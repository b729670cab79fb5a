import Deduction.Journal.Event
import Deduction.Session.Basic

/-!
# The journal

The events that belong to an operation, in order. They are worked out from what the operation is
given, beside the operation itself, so that answers do not depend on whether a journal is kept.
-/

namespace Deduction.Journal

/-! ### Statements and rules -/

/-- Reading a text. -/
def ofParse (text : String) : List Event :=
  .parsing text :: match (Token.scan text).fault with
    | some e => [.scanStopped e, .scanFailed e]
    | none =>
      match Formula.parseCounted text with
      | .ok (f, used) => [.parsed used f]
      | .error _ => [.parseFailed]

/-- Concluding: a statement that was built is read back. -/
def ofConclusion : Option Conclusion → List Event
  | some (.built f) => ofParse f.render
  | _ => []

/-- Applying a schema to one statement. -/
def ofApplyOne (b : Batch) (conclude : Formula → Option Conclusion) (f : Formula) :
    List Event :=
  if b.rule.isReplacement then
    match f.at? b.path with
    | some g => ofConclusion (conclude g)
    | none => []
  else ofConclusion (conclude f)

/-- Running applications in order, with the events of each and its arguments as text. -/
def ofCollect {α : Type} (b : Batch) (apply : α → Except RuleError Formula)
    (events : α → List Event) (shown : α → String) : List α → List Event
  | [] => []
  | a :: rest =>
    events a ++ match apply a with
      | .ok _ => ofCollect b apply events shown rest
      | .error e =>
        if b.silent then
          .applicationSkipped b.rule.terse (shown a) e.reason ::
            ofCollect b apply events shown rest
        else [.applicationFailed b.rule.terse (shown a)]

/-- Running all applications of a batch. -/
def ofApplications {α : Type} (b : Batch) (apply : α → Except RuleError Formula)
    (events : α → List Event) (shown : α → String) (args : List α) : List Event :=
  ofCollect b apply events shown args ++ match Batch.collect b.silent apply args with
    | .ok results => [.batchDone b.rule.terse (toString results.length) b.silent]
    | .error _ => []

/-- Running a batch; one that is refused leaves no event. -/
def ofBatch (b : Batch) : List Event :=
  match b.rule.schema, b.checkPath with
  | .ok (.unary conclude), .ok () =>
    ofApplications b (b.applyOne conclude) (ofApplyOne b conclude) Formula.render b.first
  | .ok (.binary conclude), .ok () =>
    match b.seconds with
    | .ok seconds =>
      ofApplications b (b.applyTwo conclude) (fun fs => ofConclusion (conclude fs.1 fs.2))
        (fun fs => fs.1.render ++ ", " ++ fs.2.render) (Batch.pairs b.first seconds)
    | .error _ => []
  | _, _ => []

/-- Looking up a rule. -/
def ofLookup (name : String) : List Event :=
  match Rule.lookup? name with
  | some _ => []
  | none => [.ruleUnknown name]

/-! ### Facts -/

/-- Storing a statement. -/
def ofAdd (b : FactBase) (f : Formula) : Event :=
  if b.contains f then .factRepeated f.render else .factStored (toString b.next) f.render

/-- Storing statements in order. -/
def ofAddAll (b : FactBase) : List Formula → List Event
  | [] => []
  | f :: fs => ofAdd b f :: ofAddAll (b.add f).1 fs

/-! ### Sessions -/

/-- Carrying out a command. -/
def ofCommand (s : Session) (command : Command) : List Event :=
  .commandReceived command.word s.mode.name :: match command with
    | .done =>
      s.facts.conclusion.toList.map fun f => .conclusionChecked f.render s.facts.isProven
    | .reset => [.storeCleared]
    | _ => []

/-- Running a batch and storing its results. -/
def ofRunBatch (s : Session) (b : Batch) : List Event :=
  ofBatch b ++ match b.run with
    | .ok results =>
      let added := (Session.storeResults s.facts results).2
      ofAddAll s.facts results ++
        [.resultsRecorded (b.rule.label s.verboseRules) added.length results.length]
    | .error _ => []

/-- Carrying out a line in rule mode. -/
def ofRule (s : Session) (line : String) : List Event :=
  match RuleCall.parse line with
  | .error _ => []
  | .ok call =>
    ofLookup call.name ++ match s.requestOf line with
      | .ok (.run batch) => ofRunBatch s batch
      | _ => []

/-- Taking a line as the statement to add. -/
def ofAddition (s : Session) (pending : Pending) (line : String) : List Event :=
  ofParse line ++ match Formula.parse line with
    | .ok addend => ofRunBatch s (pending.batch addend)
    | .error _ => []

/-- Taking a line as a premise. -/
def ofPremise (s : Session) (line : String) : List Event :=
  ofParse line ++ match Formula.parse line with
    | .ok f => [ofAdd s.facts f]
    | .error _ => []

/-- Answering a line. -/
def ofLine (s : Session) (line : String) : List Event :=
  if Text.isBlankText line then []
  else match s.pending with
    | some pending => ofAddition s pending line
    | none =>
      match Command.ofLine? line s.mode with
      | some command => ofCommand s command
      | none =>
        match s.mode with
        | .premise => ofPremise s line
        | .conclusion => ofParse line
        | .rule => ofRule s line

end Deduction.Journal

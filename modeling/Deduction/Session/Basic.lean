import Deduction.Rule.Batch
import Deduction.Session.Command
import Deduction.Session.RuleCall

/-!
# Proof sessions

A session takes one line at a time. Premises come first; `therefore` asks for the conclusion, and
once a conclusion is accepted every further line is a rule call whose results are stored as facts.
`done` tells whether the conclusion has been reached, and `reset` starts over. An addition called
without the statement to add waits for it: until a line is read as a statement, no line is taken
for anything else.
-/

namespace Deduction

/-- An addition that waits for the statement to add. -/
structure Pending where
  candidates : List Formula
  silent : Bool

/-- The batch that completes an addition. -/
def Pending.batch (pending : Pending) (addend : Formula) : Batch :=
  { rule := .add, first := pending.candidates, second := .one addend, silent := pending.silent }

/-- The state of a session. -/
structure Session where
  facts : FactBase := {}
  mode : Mode := .premise
  /-- Whether results are reported under the verbose names of the rules. -/
  verboseRules : Bool := false
  pending : Option Pending := none

/-- What a line is answered with. -/
structure Reply where
  messages : List String := []
  errors : List String := []
  finished : Bool := false
  deriving DecidableEq

namespace Session

def additionPrompt : String := "enter the statement to add:"

/-! ### Listings -/

/-- The lines that list the facts, with the conclusion once rules are being applied. -/
def factListing (s : Session) : List String :=
  let facts := s.facts.entries.map fun e => toString e.1 ++ "\t" ++ e.2.render
  let conclusion :=
    if s.mode = .rule then
      s.facts.conclusion.toList.flatMap fun f => ["", "Conclusion: " ++ f.render]
    else []
  ["", "Facts:"] ++ facts ++ conclusion ++ [""]

/-- A text with spaces after it, up to `width` characters. -/
def padded (width : Nat) (text : String) : String :=
  text ++ String.ofList (List.replicate (width - text.length) ' ')

/-- The line of the catalog for a rule. -/
def ruleLine (rule : Rule) : String :=
  "  " ++ padded 6 rule.terse ++ " " ++ rule.verbose ++
    (if rule.isImplemented then "" else " (not implemented)")

/-- The lines of help for a mode. -/
def helpText (mode : Mode) : List String :=
  let commands := "Commands: " ++ ", ".intercalate ((Command.available mode).map Command.word)
  if mode = .rule then
    commands :: "Apply a rule with name(arg0[,arg1]); use * for every fact." ::
      Rule.all.map ruleLine
  else [commands, "Enter statements using p q r s t and -> <-> V ^ ~ ( )"]

/-! ### Commands and statements -/

def runCommand (s : Session) : Command → Session × Reply
  | .exit => (s, { finished := true })
  | .therefore => ({ s with mode := .conclusion }, { messages := ["Enter the conclusion"] })
  | .done =>
    let verdict :=
      if s.facts.isProven then "You've shown the conclusion to be true!"
      else "It appears you still haven't shown the conclusion to be true.  " ++
        "Are you sure the argument is valid?"
    (s, { messages := [verdict] })
  | .showFacts => (s, { messages := s.factListing })
  | .reset =>
    ({ s with facts := .empty, mode := .premise },
      { messages := ["Clearing facts, entering premise mode."] })
  | .help => (s, { messages := helpText s.mode })

/-- Stores a line as a premise. -/
def acceptPremise (s : Session) (line : String) : Session × Reply :=
  match Formula.parse line with
  | .ok f => ({ s with facts := (s.facts.add f).1 }, {})
  | .error e => (s, { errors := [e.message] })

/-- Takes a line as the conclusion. -/
def acceptConclusion (s : Session) (line : String) : Session × Reply :=
  match Formula.parse line with
  | .ok f =>
    ({ s with facts := { s.facts with conclusion := some f }, mode := .rule },
      { messages := ["Entering rule mode"] })
  | .error e => (s, { errors := [e.message] })

/-! ### Rules -/

/-- Stores results in order; also gives the new ones with the size of the store after each. -/
def storeResults (b : FactBase) : List Formula → FactBase × List (Nat × Formula)
  | [] => (b, [])
  | f :: fs =>
    let (b, new) := b.add f
    let (final, added) := storeResults b fs
    (final, if new then (b.size, f) :: added else added)

/-- Stores the results of a rule and reports the new ones. -/
def record (s : Session) (rule : Rule) (results : List Formula) : Session × Reply :=
  let (facts, added) := storeResults s.facts results
  let report (e : Nat × Formula) : String :=
    toString e.1 ++ "\t" ++ e.2.render ++ "  (" ++ rule.label s.verboseRules ++ ")"
  ({ s with facts := facts }, { messages := added.map report })

/-- Runs a batch and stores its results. -/
def runBatch (s : Session) (batch : Batch) : Session × Reply :=
  match batch.run with
  | .ok results => s.record batch.rule results
  | .error e => (s, { errors := [e.message] })

/-- What a rule call asks for. -/
inductive Request where
  /-- To run a batch. -/
  | run (batch : Batch)
  /-- To wait for the statement to add. -/
  | wait (pending : Pending)

/-- The facts that an argument of a call to `rule` stands for; a number has to be in use. -/
def selectFor (s : Session) (rule : Rule) (reference : String) : Except Refusal (List Formula) :=
  match s.facts.select reference with
  | .ok [] =>
    if reference = FactBase.wildcard then .ok []
    else .error (.rule (.noSuchFact rule reference))
  | selected => selected

/-- What a call to `rule` with the given arguments asks for. -/
def request (s : Session) (rule : Rule) (call : RuleCall) : Except Refusal Request :=
  match call.arguments with
  | [] => .error (.rule .invalidCall)
  | reference :: more => do
    let first ← s.selectFor rule reference
    let silent := reference = FactBase.wildcard
    match more with
    | [] =>
      if rule = .add then return .wait ⟨first, silent⟩
      else return .run { rule, first, silent }
    | second :: _ =>
      if rule.isReplacement then
        let path ← RuleCall.readPath rule second
        return .run { rule, first, silent, path := (path.getD []).map Int.ofNat }
      else
        let candidates ← s.selectFor rule second
        return .run { rule, first, second := .many candidates, silent := call.usesWildcard }

/-- What a line in rule mode asks for. -/
def requestOf (s : Session) (line : String) : Except Refusal Request :=
  match RuleCall.parse line with
  | .error e => .error (.rule e)
  | .ok call =>
    match Rule.lookup? call.name with
    | none => .error (.rule (.noSuchRule call.name))
    | some rule => s.request rule call

/-- Carries out a line in rule mode. -/
def runRule (s : Session) (line : String) : Except Text.NumeralFault (Session × Reply) :=
  match s.requestOf line with
  | .error (.numeral e) => .error e
  | .error (.rule e) => .ok (s, { errors := [e.message] })
  | .ok (.run batch) => .ok (s.runBatch batch)
  | .ok (.wait pending) =>
    .ok ({ s with pending := some pending }, { messages := [additionPrompt] })

/-- Takes a line as the statement to add. -/
def completeAddition (s : Session) (pending : Pending) (line : String) : Session × Reply :=
  match Formula.parse line with
  | .error e => (s, { errors := [e.message], messages := [additionPrompt] })
  | .ok addend => ({ s with pending := none } : Session).runBatch (pending.batch addend)

/-! ### Lines -/

/-- Answers a line. Only a number with too many digits is beyond an answer. -/
def handle (s : Session) (line : String) : Except Text.NumeralFault (Session × Reply) :=
  if Text.isBlankText line then .ok (s, {})
  else match s.pending with
    | some pending => .ok (s.completeAddition pending line)
    | none =>
      match Command.ofLine? line s.mode with
      | some command => .ok (s.runCommand command)
      | none =>
        match s.mode with
        | .premise => .ok (s.acceptPremise line)
        | .conclusion => .ok (s.acceptConclusion line)
        | .rule => s.runRule line

end Session

end Deduction

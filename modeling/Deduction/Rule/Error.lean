import Deduction.Formula.Basic
import Deduction.Rule.Basic

/-!
# Refused rule calls

The reasons for which a rule call is refused. A refusal names its subject, which is the rule, the
name that was typed, or just "rule" where no rule is known yet, and it gives the reason in words.
-/

namespace Deduction

/-- Why a rule call is refused. -/
inductive RuleError where
  /-- The statements do not have the shape the rule asks for. -/
  | notApplicable (rule : Rule)
  /-- The text of the result cannot be read. -/
  | unreadable (rule : Rule) (text : String)
  /-- The text of the result is read as something else. -/
  | misread (rule : Rule) (text : String)
  | notImplemented (rule : Rule)
  /-- A place inside a statement was given to a rule that takes whole statements. -/
  | takesNoPath (rule : Rule)
  | missingArgument (rule : Rule)
  | notOneAddend (rule : Rule)
  /-- A single statement was given where the rule takes a list of candidates. -/
  | notAList (rule : Rule) (f : Formula)
  /-- The rule was given more or fewer statements than it takes. -/
  | wrongCount (rule : Rule) (given : Nat)
  /-- A step of a path is neither 1 nor 2. -/
  | stepOutOfRange (rule : Rule)
  /-- A step of a path leads to an operand that is not there. -/
  | noSuchOperand (rule : Rule)
  | invalidPath (rule : Rule)
  | invalidReference (key : String)
  | noSuchFact (rule : Rule) (key : String)
  | invalidCall
  | tooManyArguments (name : String)
  | noSuchRule (name : String)
  deriving DecidableEq

namespace RuleError

/-- A number of things in words that follow it. -/
def counted (n : Nat) (thing : String) : String :=
  toString n ++ " " ++ thing ++ (if n = 1 then "" else "s")

/-- The reason when a rule that takes the statements named by its roles is given another number of
them: how many are too many, or which ones are missing. -/
def countReason (rule : Rule) (given : Nat) : String :=
  let missing := (rule.roles.drop given).map fun role => "'" ++ role ++ "'"
  rule.plainName ++ "() " ++
    if missing.isEmpty then
      "takes " ++ counted rule.roles.length "positional argument" ++ " but " ++ toString given ++
        (if given = 1 then " was given" else " were given")
    else
      "missing " ++ counted missing.length "required positional argument" ++ ": " ++
        " and ".intercalate missing

/-- What the refusal is about. -/
def subject : RuleError → String
  | notApplicable rule | unreadable rule _ | misread rule _ | notImplemented rule
  | takesNoPath rule | missingArgument rule | notOneAddend rule | stepOutOfRange rule
  | noSuchOperand rule | invalidPath rule | noSuchFact rule _ | notAList rule _
  | wrongCount rule _ => rule.terse
  | invalidReference _ | invalidCall => "rule"
  | tooManyArguments name | noSuchRule name => name

def reason : RuleError → String
  | notApplicable _ => "Rule could not be applied"
  | unreadable _ text => "Result '" ++ text ++ "' is not a statement"
  | misread _ text => "Result '" ++ text ++ "' does not read back"
  | notImplemented _ => "Rule not implemented"
  | takesNoPath _ => "Rule does not take statement coordinates"
  | missingArgument _ => "Missing second argument"
  | notOneAddend _ => "Exactly one statement can be added"
  | notAList _ f => "'" ++ f.shape ++ "' object is not iterable"
  | wrongCount rule given => countReason rule given
  | stepOutOfRange _ => "Location too large or small"
  | noSuchOperand _ => "Invalid location"
  | invalidPath _ => "Invalid statement coordinates"
  | invalidReference key => "Invalid fact reference '" ++ key ++ "'"
  | noSuchFact _ key => "No fact numbered " ++ key
  | invalidCall => "Rule format must be name(arg0[,arg1])"
  | tooManyArguments _ => "Too many arguments"
  | noSuchRule _ => "No such rule"

/-- The line that reports the refusal. -/
def message (e : RuleError) : String :=
  "Error executing " ++ e.subject ++ " - " ++ e.reason

end RuleError

end Deduction

import Deduction.Text.Digit
import Deduction.Text.Quoted

/-!
# Options

The grammar of the command line. First every argument is sorted: an option, which may carry a
value, an option nobody knows, or a plain argument; after `--` all arguments are plain. Long
options may be shortened as long as one option is meant. Text attached to a short option that
takes no value is read as more short options. Then the options are carried out from left to right;
asking for help ends this at once. What no option has used up is reported when all options have
been carried out.
-/

namespace Deduction.CommandLine

/-- The options of the command line. -/
inductive Flag where
  | help | script | verbose | debug | verboseRules
  deriving DecidableEq

namespace Flag

def all : List Flag := [help, script, verbose, debug, verboseRules]

def names : Flag → List String
  | help => ["-h", "--help"]
  | script => ["-s", "--script"]
  | verbose => ["-v", "--verbose"]
  | debug => ["--debug"]
  | verboseRules => ["--verbose-rules"]

/-- Every name with its option. -/
def byName : List (String × Flag) := all.flatMap fun flag => flag.names.map (·, flag)

def ofName? (name : String) : Option Flag := (byName.find? (·.1 = name)).map (·.2)

def takesValue (flag : Flag) : Bool := flag = script

/-- The names of an option in an error message. -/
def display (flag : Flag) : String := "/".intercalate flag.names

end Flag

/-- Why a command line is refused. -/
inductive UsageError where
  | missingValue (flag : Flag)
  /-- A value was given to an option that takes none. -/
  | unwantedValue (flag : Flag) (value : String)
  /-- A shortened option has several meanings. -/
  | ambiguous (argument : String) (names : List String)
  | unrecognized (arguments : List String)
  deriving DecidableEq

def UsageError.message : UsageError → String
  | missingValue flag => "argument " ++ flag.display ++ ": expected one argument"
  | unwantedValue flag value =>
    "argument " ++ flag.display ++ ": ignored explicit argument " ++ Text.quoted value
  | ambiguous argument names =>
    "ambiguous option: " ++ argument ++ " could match " ++ ", ".intercalate names
  | unrecognized arguments => "unrecognized arguments: " ++ " ".intercalate arguments

/-! ### Sorting the arguments -/

/-- An argument by its kind; to an option, text may be attached in the same argument. -/
inductive Word where
  | option (flag : Flag) (long : Bool) (attached : Option (List Char))
  | unknown (text : String)
  | plain (text : String)
  /-- The argument `--`. -/
  | separator

/-- Whether a name starts with two dashes. -/
def isLong (name : List Char) : Bool := ['-', '-'].isPrefixOf name

/-- The part of an argument before the first equals sign, and the text after it. -/
def cutAtEquals (cs : List Char) : List Char × Option (List Char) :=
  match cs.dropWhile (· ≠ '=') with
  | [] => (cs, none)
  | _ :: attached => (cs.takeWhile (· ≠ '='), some attached)

/-- The options that an argument which names none in full may mean, with their names. -/
def candidates (cs : List Char) : List (String × Word) :=
  if isLong cs then
    let (start, attached) := cutAtEquals cs
    (Flag.byName.filter fun entry => start.isPrefixOf entry.1.toList).map fun entry =>
      (entry.1, .option entry.2 true attached)
  else
    (Flag.byName.filter fun entry => entry.1.toList = cs.take 2).map fun entry =>
      (entry.1, .option entry.2 false (some (cs.drop 2)))

/-- A negative number in decimal digits, with at most one point; a line feed may follow. -/
def isNegativeNumber : List Char → Bool
  | '-' :: rest =>
    let digits := if rest.getLast? = some '\n' then rest.dropLast else rest
    let isRun (cs : List Char) : Bool := !cs.isEmpty && cs.all Text.isDecimal
    isRun digits || match digits.dropWhile Text.isDecimal with
      | '.' :: fraction => isRun fraction
      | _ => false
  | _ => false

/-- Sorts an argument other than `--`. -/
def sortArgument (argument : String) : Except UsageError Word :=
  let cs := argument.toList
  match cs with
  | '-' :: _ :: _ =>
    let (start, attached) := cutAtEquals cs
    match Flag.ofName? (String.ofList start) with
    | some flag => .ok (.option flag (isLong start) attached)
    | none =>
      match candidates cs with
      | [(_, word)] => .ok word
      | [] =>
        if isNegativeNumber cs || cs.contains ' ' then .ok (.plain argument)
        else .ok (.unknown argument)
      | several => .error (.ambiguous argument (several.map (·.1)))
  | _ => .ok (.plain argument)

/-- Sorts the arguments. -/
def sortArguments : List String → Except UsageError (List Word)
  | [] => .ok []
  | argument :: rest =>
    if argument = "--" then .ok (.separator :: rest.map .plain)
    else do
      let word ← sortArgument argument
      return word :: (← sortArguments rest)

/-! ### Carrying out the options -/

/-- The settings that the options make. -/
structure Options where
  script : Option String := none
  verbose : Bool := false
  debug : Bool := false
  verboseRules : Bool := false
  deriving DecidableEq

/-- What a command line asks for. -/
inductive Invocation where
  | help
  | start (options : Options)
  deriving DecidableEq

/-- The options joined in one argument: those that are settled, with their values, and one that
is still to be settled by what follows. -/
structure Cluster where
  settled : List (Flag × Option String)
  unsettled : Option Flag

/-- Takes apart an argument in which text is attached to `flag`: the value of the option or, after
a short option without one, the letters of more short options. -/
def unpack (flag : Flag) (long : Bool) (attached : List Char) : Except UsageError Cluster :=
  if flag.takesValue then .ok ⟨[(flag, some (String.ofList attached))], none⟩
  else
    let unwanted := UsageError.unwantedValue flag (String.ofList attached)
    match attached with
    | [] => .error unwanted
    | c :: rest =>
      if long then .error unwanted
      else match Flag.ofName? (String.ofList ['-', c]) with
        | none => .error unwanted
        | some next =>
          if rest.isEmpty then .ok ⟨[(flag, none)], some next⟩
          else (unpack next false rest).map fun cluster =>
            { cluster with settled := (flag, none) :: cluster.settled }

/-- The options in one argument. -/
def clusterOf (flag : Flag) (long : Bool) : Option (List Char) → Except UsageError Cluster
  | none => .ok ⟨[], some flag⟩
  | some attached => unpack flag long attached

/-- The value by which an option is left without one. -/
def noValue : String := "--"

/-- Carries out settled options; none if help is asked for. Of several scripts the last one
counts, and `--` in the place of a script stands for no script. -/
def settle (options : Options) : List (Flag × Option String) → Option Options
  | [] => some options
  | (.help, _) :: _ => none
  | (.script, value) :: rest =>
    settle { options with script := value.filter (· ≠ noValue) } rest
  | (.verbose, _) :: rest => settle { options with verbose := true } rest
  | (.debug, _) :: rest => settle { options with debug := true } rest
  | (.verboseRules, _) :: rest => settle { options with verboseRules := true } rest

/-- Carries out sorted arguments, with the settings made and the arguments left over so far. -/
def carryOut (options : Options) (leftover : List String) :
    List Word → Except UsageError Invocation
  | [] => if leftover.isEmpty then .ok (.start options) else .error (.unrecognized leftover)
  | .plain text :: rest => carryOut options (leftover ++ [text]) rest
  | .unknown text :: rest => carryOut options (leftover ++ [text]) rest
  | .separator :: rest => carryOut options (leftover ++ ["--"]) rest
  | .option flag long attached :: rest => do
    let cluster ← clusterOf flag long attached
    match cluster.unsettled with
    | none =>
      match settle options cluster.settled with
      | none => return .help
      | some options => carryOut options leftover rest
    | some last =>
      if last.takesValue then
        match rest with
        | .plain value :: rest =>
          match settle options (cluster.settled ++ [(last, some value)]) with
          | none => return .help
          | some options => carryOut options leftover rest
        | _ => throw (.missingValue last)
      else
        match settle options (cluster.settled ++ [(last, none)]) with
        | none => return .help
        | some options => carryOut options leftover rest

/-- Reads a command line. -/
def readArguments (arguments : List String) : Except UsageError Invocation := do
  carryOut {} [] (← sortArguments arguments)

end Deduction.CommandLine

import Deduction.Text.Blank
import Deduction.Text.Lowercase

/-!
# The rule catalog

The named rules. Every rule has a terse name, by which it is called, and a verbose one. Rules of
inference take whole statements; rules of replacement change a part of a statement. Of the rules
of replacement only double negation can be carried out; the others are known by name alone.
-/

namespace Deduction

/-- The named rules, in the order of the catalog. -/
inductive Rule where
  | mp | mt | ds | hs | simp | conj | cd | abs | add
  | dm | com | assoc | dist | dn | trans | impl | equiv | exp | taut
  deriving DecidableEq

namespace Rule

def all : List Rule :=
  [mp, mt, ds, hs, simp, conj, cd, abs, add, dm, com, assoc, dist, dn, trans, impl, equiv, exp,
    taut]

/-- The name a rule is called by. -/
def terse : Rule → String
  | mp => "MP"
  | mt => "MT"
  | ds => "DS"
  | hs => "HS"
  | simp => "Simp"
  | conj => "Conj"
  | cd => "CD"
  | abs => "Abs"
  | add => "Add"
  | dm => "DM"
  | com => "Com"
  | assoc => "Assoc"
  | dist => "Dist"
  | dn => "DN"
  | trans => "Trans"
  | impl => "Impl"
  | equiv => "Equiv"
  | exp => "Exp"
  | taut => "Taut"

def verbose : Rule → String
  | mp => "Modus Ponens"
  | mt => "Modus Tollens"
  | ds => "Disjunctive Syllogism"
  | hs => "Hypothetical Syllogism"
  | simp => "Simplification"
  | conj => "Conjunction"
  | cd => "Constructive Dilemma"
  | abs => "Absorption"
  | add => "Addition"
  | dm => "DeMorgans"
  | com => "Commutation"
  | assoc => "Association"
  | dist => "Distribution"
  | dn => "Double Negation"
  | trans => "Transposition"
  | impl => "Material Implication"
  | equiv => "Material Equivalence"
  | exp => "Exportation"
  | taut => "Tautology"

/-- The number of statements one application takes; for addition, the added one counts. -/
def arity : Rule → Nat
  | mp | mt | ds | hs | conj | cd | add => 2
  | _ => 1

/-- The parts that the statements play in an application, in order, for the rules that can be
carried out. -/
def roles : Rule → List String
  | mp => ["implication", "antecedent"]
  | mt => ["implication", "negated_consequent"]
  | ds => ["disjunction", "negated_disjunct"]
  | hs | conj => ["first", "second"]
  | simp => ["conjunction"]
  | cd => ["implications", "disjunction"]
  | abs => ["implication"]
  | add => ["formula", "addend"]
  | dn => ["formula"]
  | _ => []

/-- The verbose name in lower case, with underscores for spaces. -/
def plainName (rule : Rule) : String :=
  String.ofList (rule.verbose.toList.map fun c => if c = ' ' then '_' else c.toLower)

def isReplacement : Rule → Bool
  | mp | mt | ds | hs | simp | conj | cd | abs | add => false
  | _ => true

/-- Whether the rule can be carried out. -/
def isImplemented (rule : Rule) : Bool := !rule.isReplacement || rule = dn

/-- The name under which results are reported. -/
def label (rule : Rule) (verbose : Bool) : String :=
  if verbose then rule.verbose else rule.terse

/-- Finds a rule by its terse name, whatever the letter case and the blanks around it. -/
def lookup? (name : String) : Option Rule :=
  let wanted := Text.lowercase (Text.strip name)
  all.find? fun rule => Text.lowercase rule.terse = wanted

end Rule

end Deduction

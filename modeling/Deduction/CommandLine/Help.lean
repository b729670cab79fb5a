/-!
# Usage and help texts
-/

namespace Deduction.CommandLine

def programName : String := "run_proofer.py"

/-- The line that shows how the program is called. -/
def usage : String :=
  "usage: " ++ programName ++ " [-h] [-s SCRIPT] [-v] [--debug] [--verbose-rules]\n"

def optionHelp : List String :=
  ["Proofer - The Logic Engine",
    "",
    "options:",
    "  -h, --help            show this help message and exit",
    "  -s SCRIPT, --script SCRIPT",
    "                        Read session input from a file",
    "  -v, --verbose         Enable verbose output",
    "  --debug               Enable debug output (overrides --verbose)",
    "  --verbose-rules       Show full rule names instead of abbreviations"]

def examples : List String :=
  ["Examples:",
    "  python run_proofer.py",
    "  python run_proofer.py -s proof.txt",
    "  python run_proofer.py --debug",
    "",
    "Session:",
    "  Enter premises one per line, type 'therefore' and enter the conclusion,",
    "  then apply rules such as MP(1,2), Simp(3), Add(1) or DN(2,1.2).",
    "  'facts' lists the statements, 'done' checks the conclusion.",
    "",
    "Script file format:",
    "  proof.txt:",
    "    p -> q",
    "    p",
    "    therefore",
    "    q",
    "    MP(1,2)",
    "    done",
    "        "]

/-- The help page. -/
def helpPage : String :=
  usage ++ String.join (("" :: optionHelp ++ "" :: examples).map (· ++ "\n"))

end Deduction.CommandLine

-- The arguments of a command line: options and the scripts to run.
import Scriptling.Text.Digit
import Scriptling.Text.Quoted

namespace Scriptling.CommandLine

/-- What one argument is. -/
inductive Argument
  | script (text : String)
  /-- The first double dash: all arguments after it are scripts. -/
  | dashes
  | help
  /-- The help option with something attached that it does not take. -/
  | helpWith (value : String)
  | unknown (text : String)
  deriving DecidableEq, Repr

/-- What a row of letters behind the first `-h` asks for. Every `h` asks for help once more; the
row from any other letter on is a value, and none is taken. -/
def moreHelp : List Char → Argument
  | [] => .help
  | c :: rest => if c = 'h' then moreHelp rest else .helpWith (String.ofList (c :: rest))

/-- What `-h` is with more characters behind it. An equals sign right behind it is not one of
them, but asks for a value that is not empty. -/
def shortHelp : List Char → Argument
  | ['='] => .helpWith ""
  | '=' :: value => moreHelp value
  | rest => moreHelp rest

/-- A text without a line feed at its end. -/
def dropLineFeed (cs : List Char) : List Char :=
  if cs.getLast? = some '\n' then cs.dropLast else cs

/-- The text reads as a negative number: digits with at most one point, and a digit after it. A
line feed may follow. -/
def isNegativeNumber (afterDash : List Char) : Bool :=
  let cs := dropLineFeed afterDash
  match cs.dropWhile Text.isDigit with
  | [] => !cs.isEmpty
  | '.' :: fraction => !fraction.isEmpty && fraction.all Text.isDigit
  | _ => false

/-- What an argument before the double dash is. Long options may be cut short; a single dash, a
negative number and a text with a space in it are scripts. -/
def classify (text : String) : Argument :=
  let cs := text.toList
  let name := cs.takeWhile (· ≠ '=')
  let attached := (cs.dropWhile (· ≠ '=')).drop 1
  match cs with
  | '-' :: second :: rest =>
    if second = '-' then
      if name.isPrefixOf "--help".toList then
        if name = cs then .help else .helpWith (String.ofList attached)
      else if cs.contains ' ' then .script text
      else .unknown text
    else if second = 'h' then shortHelp rest
    else if isNegativeNumber (second :: rest) || cs.contains ' ' then .script text
    else .unknown text
  | _ => .script text

/-- Classify arguments up to the double dash; all after it are scripts. -/
def classifyAll : List String → List Argument
  | [] => []
  | "--" :: rest => .dashes :: rest.map .script
  | text :: rest => classify text :: classifyAll rest

/-- What a command line asks for. -/
inductive Demand
  | help
  /-- Something is attached to the help option. -/
  | helpWith (value : String)
  | unrecognized (arguments : List String)
  | run (scripts : List String)
  deriving DecidableEq, Repr

/-- How far the scripts have been gathered: they are the first arguments that stand together. -/
inductive Gathered
  | before
  | inside (scripts : List String)
  | after (scripts : List String)
  deriving DecidableEq, Repr

def Gathered.scripts : Gathered → List String
  | before => []
  | inside scripts | after scripts => scripts

/-- An option ends the scripts that stand together. -/
def Gathered.close : Gathered → Gathered
  | inside scripts => after scripts
  | done => done

/-- One more argument that is no option, given the arguments not recognized so far. -/
def Gathered.add (text : String) (extras : List String) : Gathered → Gathered × List String
  | before => (inside [text], extras)
  | inside scripts => (inside (scripts ++ [text]), extras)
  | after scripts => (after scripts, extras ++ [text])

/-- Go through arguments. Options that are not known, and scripts that stand apart from the
first ones, are not recognized; the first double dash among the scripts is left out. -/
def gather (done : Gathered) (extras : List String) : List Argument → Demand
  | [] => if extras.isEmpty then .run (done.scripts.erase "--") else .unrecognized extras
  | .help :: _ => .help
  | .helpWith value :: _ => .helpWith value
  | .unknown text :: rest => gather done.close (extras ++ [text]) rest
  | .script text :: rest =>
    let next := done.add text extras
    gather next.1 next.2 rest
  | .dashes :: rest =>
    let next := done.add "--" extras
    gather next.1 next.2 rest

/-- What a command line asks for. -/
def read (arguments : List String) : Demand := gather .before [] (classifyAll arguments)

/-! ## Texts -/

def usage : String := "usage: itl [-h] [script ...]\n"

def helpText : String :=
  usage ++
  "\nRun ITL scripts.\n" ++
  "\npositional arguments:\n" ++
  "  script      file to run (if empty, starts the interactive shell)\n" ++
  "\noptions:\n" ++
  "  -h, --help  show this help message and exit\n"

/-- What is written about arguments that cannot be used. -/
def complaint (problem : String) : String := usage ++ "itl: error: " ++ problem ++ "\n"

def unrecognizedText (arguments : List String) : String :=
  complaint ("unrecognized arguments: " ++ " ".intercalate arguments)

def helpWithText (value : String) : String :=
  complaint ("argument -h/--help: ignored explicit argument " ++ Text.quoted value)

/-- What is written about more than one script. -/
def tooManyText : String := "Usage: itl [script]\n"

end Scriptling.CommandLine

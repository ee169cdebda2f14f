import ImportAtlas.Command.Option
import ImportAtlas.Console.Printing
import ImportAtlas.Decimal.Reader
import ImportAtlas.Path.Basic
import ImportAtlas.Text.Digit

set_option autoImplicit false

/-!
# Commands

A command line names one of five commands with its options and words, or asks
for the version or for help.  Of an option given twice the last value counts,
except for those that collect values.  The values given are checked in the order
in which their options first appear.
-/

namespace ImportAtlas

/-- What an analysis is asked for on a command line. -/
structure AnalysisArguments where
  entries : List String
  projectRoot : Option Path
  output : Option Path
  title : Option String
  maxDepth : Option Int
  treeDepth : Option Int
  showDeps : Option Bool
  exclude : List String
  asJson : Bool
  deriving DecidableEq, Repr

/-- A command with its arguments. -/
inductive Command where
  | help
  | version
  | analyze (arguments : AnalysisArguments)
  | validate (entries : List String) (projectRoot : Option Path)
  | tree (folder : Option Path) (depth : Option Int) (asJson : Bool)
  | watch (arguments : AnalysisArguments)
  | config (assignments : List String) (reset : Bool)
  deriving DecidableEq, Repr

namespace Command

/-- The greatest number of digits of a count. -/
def maxDigits : Nat := 4300

/-- The integer that a word spells, in the digits of any script. -/
def integer? (word : String) : Option Int := do
  let (negative, rest) := Decimal.splitSign
    ((Text.trimBy Text.isWhiteSpace word.toList).map Text.plainDigit)
  let digits ← Decimal.groupedDigits? rest
  if maxDigits < digits.length then none
  let n : Int := Decimal.natOfDigits digits
  return if negative then -n else n

/-- The integer that a word spells, if it is not below a bound. -/
def count? (least : Int) (word : String) : Option Int :=
  (integer? word).filter fun n => least ≤ n

/-- The least value of an option that takes an integer. -/
def least? : OptionName → Option Int
  | .maxDepth | .treeDepth => some 0
  | .workers | .depth => some 1
  | _ => none

/-- The value of an option that was given last. -/
def last? (given : List GivenOption) (name : OptionName) : Option String :=
  (given.reverse.find? fun o => o.name == name).map GivenOption.value

/-- The values of an option in order. -/
def values (given : List GivenOption) (name : OptionName) : List String :=
  (given.filter fun o => o.name == name).map GivenOption.value

/-- Whether an option was given. -/
def isGiven (given : List GivenOption) (name : OptionName) : Bool :=
  given.any fun o => o.name == name

/-- The path of an option. -/
def path? (given : List GivenOption) (name : OptionName) : Option Path :=
  (last? given name).map Path.ofString

/-- The integer of an option. -/
def integerOf? (given : List GivenOption) (name : OptionName) : Option Int :=
  (last? given name).bind integer?

/-- Refuses a path that cannot be asked about. -/
def checkPath (word : String) : Except Ending Unit :=
  let path := Path.ofString word
  if path.holdsNul then .error (.broken (.disk ⟨.nulInPath .lookUp, path⟩)) else .ok ()

/-- Checks the value of an option. -/
def checkOption (given : List GivenOption) (name : OptionName) : Except Ending Unit :=
  let value := (last? given name).getD ""
  match name with
  | .projectRoot | .output => checkPath value
  | _ =>
    match least? name with
    | none => .ok ()
    | some least => if (count? least value).isSome then .ok () else .error .misused

/-- The options and words of a command, with every value checked. -/
def scan (known : List OptionName) (words : List String) :
    Except Ending (List GivenOption × List String) := do
  let (given, words) ← (scanOptions (known ++ [.help]) true words).mapError fun _ => .misused
  if !isGiven given .help then
    (given.map GivenOption.name).eraseDups.forM (checkOption given)
  return (given, words)

/-- The answer to a request for help, else a command. -/
def unlessHelp (given : List GivenOption) (command : Except Ending Command) :
    Except Ending Command :=
  if isGiven given .help then .ok .help else command

/-- Whether dependency counts are wanted; of two opposite options the last counts. -/
def showDeps? (given : List GivenOption) : Option Bool :=
  (given.reverse.find? fun o => o.name == .showDeps || o.name == .hideDeps).map fun o =>
    o.name == .showDeps

/-- The arguments of an analysis. -/
def analysisArguments (given : List GivenOption) (words : List String) : AnalysisArguments where
  entries := words
  projectRoot := path? given .projectRoot
  output := path? given .output
  title := last? given .title
  maxDepth := integerOf? given .maxDepth
  treeDepth := integerOf? given .treeDepth
  showDeps := showDeps? given
  exclude := values given .exclude
  asJson := isGiven given .json

/-- The options of an analysis and of watching alike. -/
def sharedOptions : List OptionName :=
  [.projectRoot, .output, .title, .maxDepth, .treeDepth, .showDeps, .hideDeps, .exclude, .verbose]

/-- Reads the arguments of `analyze`. -/
def parseAnalyze (words : List String) : Except Ending Command := do
  let (given, words) ← scan (sharedOptions ++ [.workers, .json]) words
  unlessHelp given (.ok (.analyze (analysisArguments given words)))

/-- Reads the arguments of `watch`. -/
def parseWatch (words : List String) : Except Ending Command := do
  let (given, words) ← scan sharedOptions words
  unlessHelp given (.ok (.watch (analysisArguments given words)))

/-- Reads the arguments of `validate`, which needs an entry. -/
def parseValidate (words : List String) : Except Ending Command := do
  let (given, words) ← scan [.projectRoot] words
  unlessHelp given
    (if words = [] then .error .misused else .ok (.validate words (path? given .projectRoot)))

/-- Reads the arguments of `tree`, which takes one folder at most. -/
def parseTree (words : List String) : Except Ending Command := do
  let (given, words) ← scan [.depth, .json] words
  let depth := integerOf? given .depth
  unlessHelp given <|
    match words with
    | [] => .ok (.tree none depth (isGiven given .json))
    | folder :: more => do
      checkPath folder
      if more != [] then throw .misused
      return .tree (some (Path.ofString folder)) depth (isGiven given .json)

/-- Reads the arguments of `config`, which takes no words. -/
def parseConfig (words : List String) : Except Ending Command := do
  let (given, words) ← scan [.assign, .reset] words
  unlessHelp given
    (if words = [] then .ok (.config (values given .assign) (isGiven given .reset))
    else .error .misused)

/-- The commands by name. -/
def parsers : List (String × (List String → Except Ending Command)) :=
  [("analyze", parseAnalyze), ("validate", parseValidate), ("tree", parseTree),
    ("watch", parseWatch), ("config", parseConfig)]

/-- Reads a command line. -/
def parse (words : List String) : Except Ending Command := do
  let (given, words) ← (scanOptions [.version, .help] false words).mapError fun _ => Ending.misused
  match given with
  | first :: _ => return if first.name = .version then .version else .help
  | [] =>
    match words with
    | [] => throw .misused
    | name :: rest =>
      match Assoc.get? name parsers with
      | some read => read rest
      | none => throw .misused

end Command

end ImportAtlas

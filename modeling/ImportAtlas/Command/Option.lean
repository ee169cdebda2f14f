set_option autoImplicit false

/-!
# Options on a command line

An option is written with two dashes and its name or with one dash and its
letter.  Its value is the next word, or follows the name behind an equals sign
or the letter directly; letters may share a dash.  The word `--` ends the
options.  `scan` takes a command line apart into its options and its other words;
it refuses names it does not know, a value where none belongs and a missing one.
-/

namespace ImportAtlas

/-- What an option stands for. -/
inductive OptionName where
  | help
  | version
  | projectRoot
  | output
  | title
  | maxDepth
  | treeDepth
  | showDeps
  | hideDeps
  | exclude
  | workers
  | json
  | verbose
  | depth
  | assign
  | reset
  deriving DecidableEq, Repr

namespace OptionName

/-- Whether an option has a value. -/
def takesValue : OptionName → Bool
  | projectRoot | output | title | maxDepth | treeDepth | exclude | workers | depth | assign => true
  | _ => false

/-- The name that is written with two dashes. -/
def long : OptionName → String
  | help => "help"
  | version => "version"
  | projectRoot => "project-root"
  | output => "output"
  | title => "title"
  | maxDepth => "max-depth"
  | treeDepth => "tree-depth"
  | showDeps => "show-deps"
  | hideDeps => "no-show-deps"
  | exclude => "exclude"
  | workers => "workers"
  | json => "json"
  | verbose => "verbose"
  | depth => "depth"
  | assign => "set"
  | reset => "reset"

/-- The letter that is written with one dash. -/
def short? : OptionName → Option Char
  | version => some 'v'
  | projectRoot => some 'p'
  | output => some 'o'
  | title => some 't'
  | exclude => some 'x'
  | workers => some 'j'
  | depth => some 'd'
  | _ => none

end OptionName

/-- An option as it was given, with its value if it takes one. -/
structure GivenOption where
  name : OptionName
  value : String
  deriving DecidableEq, Repr

/-- Why a command line makes no sense. -/
inductive Misuse where
  | unknownOption (word : String)
  | missingValue (name : OptionName)
  | unwantedValue (name : OptionName)
  deriving DecidableEq, Repr

/-- The options of one word, and one that takes the next word as its value. -/
abbrev WordOptions := List GivenOption × Option OptionName

namespace OptionName

/-- The options of letters behind one dash. -/
def letters (known : List OptionName) : List Char → Except Misuse WordOptions
  | [] => .ok ([], none)
  | c :: rest =>
    match known.find? fun name => name.short? == some c with
    | none => .error (.unknownOption (String.ofList ['-', c]))
    | some name =>
      if name.takesValue then
        if rest = [] then .ok ([], some name) else .ok ([⟨name, String.ofList rest⟩], none)
      else do
        let (found, waiting) ← letters known rest
        return (⟨name, ""⟩ :: found, waiting)

/-- The option of a name behind two dashes, with the value behind an equals sign if there is one. -/
def named (name : OptionName) (value : Option String) : Except Misuse WordOptions :=
  match name.takesValue, value with
  | true, some value => .ok ([⟨name, value⟩], none)
  | true, none => .ok ([], some name)
  | false, some _ => .error (.unwantedValue name)
  | false, none => .ok ([⟨name, ""⟩], none)

/-- The options of a word that begins with a dash. -/
def ofWord (known : List OptionName) (word : List Char) : Except Misuse WordOptions :=
  match word with
  | '-' :: '-' :: body =>
    let name := String.ofList (body.takeWhile (· != '='))
    match known.find? fun n => n.long == name with
    | none => .error (.unknownOption (String.ofList word))
    | some n =>
      match body.dropWhile (· != '=') with
      | [] => n.named none
      | _ :: value => n.named (some (String.ofList value))
  | _ => letters known (word.drop 1)

end OptionName

/-- Whether a word holds options. -/
def isOptionWord (word : String) : Bool :=
  match word.toList with
  | '-' :: _ :: _ => true
  | _ => false

/-- The options and the other words of a command line.  Where options must come first, the first
other word ends them. -/
def scanOptions (known : List OptionName) (mixed : Bool) :
    List String → Except Misuse (List GivenOption × List String)
  | [] => .ok ([], [])
  | word :: rest =>
    if word = "--" then .ok ([], rest)
    else if isOptionWord word then
      match OptionName.ofWord known word.toList, rest with
      | .error misuse, _ => .error misuse
      | .ok (_, some name), [] => .error (.missingValue name)
      | .ok (found, some name), value :: rest => do
        let (more, words) ← scanOptions known mixed rest
        return (found ++ ⟨name, value⟩ :: more, words)
      | .ok (found, none), rest => do
        let (more, words) ← scanOptions known mixed rest
        return (found ++ more, words)
    else if mixed then do
      let (more, words) ← scanOptions known mixed rest
      return (more, word :: words)
    else .ok ([], word :: rest)

end ImportAtlas

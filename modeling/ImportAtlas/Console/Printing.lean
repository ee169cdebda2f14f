import ImportAtlas.Analysis.Entry
import ImportAtlas.Console.Library
import ImportAtlas.Settings.Library

set_option autoImplicit false

/-!
# Printing

A command prints as it goes and may end before its last step.  `Printing` keeps
the text printed so far even then.
-/

namespace ImportAtlas

/-- Why a command breaks off with an error of its own. -/
inductive CommandFault where
  | disk (fault : DiskFault)
  | analysis (error : AnalysisError)
  | settings (fault : SettingsFault)
  | notText (fault : Text.Utf8Fault)
  /-- a text cannot be written because of surrogates in it -/
  | notEncodable (fault : Text.EncodeFault)
  | markup (fault : MarkupFault)
  deriving DecidableEq, Repr

/-- The wording of a fault. -/
def CommandFault.message : CommandFault → String
  | disk fault => fault.message
  | analysis error => error.message
  | settings fault => fault.message
  | notText fault => fault.message
  | notEncodable fault => fault.message
  | markup fault => fault.message

/-- How a command ends. -/
inductive Ending where
  | finished
  /-- it has said why and fails -/
  | failed
  /-- the arguments make no sense -/
  | misused
  | broken (fault : CommandFault)
  deriving DecidableEq, Repr

/-- The number with which a program ends. -/
def Ending.exitCode : Ending → Nat
  | finished => 0
  | failed => 1
  | misused => 2
  | broken _ => 1

/-- A computation that prints and may end the command. -/
abbrev Printing := ExceptT Ending (StateM String)

namespace Printing

/-- What is printed and how it ends, behind what was printed before. -/
def runFrom {α : Type} (p : Printing α) (before : String) : Except Ending α × String :=
  ExceptT.run p before

/-- What is printed and how it ends. -/
def output {α : Type} (p : Printing α) : Except Ending α × String :=
  p.runFrom ""

/-- Prints a text and ends the line. -/
def echo (text : String) : Printing Unit :=
  modify fun printed => printed ++ text ++ "\n"

/-- Ends the command with a fault. -/
def fail {α : Type} (fault : CommandFault) : Printing α :=
  throw (.broken fault)

/-- A step that may fail. -/
def attempt {ε α : Type} (fault : ε → CommandFault) : Except ε α → Printing α
  | .ok a => pure a
  | .error e => fail (fault e)

section

variable [Console]

/-- Prints a text as the screen shows it. -/
def line (text : String) : Printing Unit :=
  echo (Console.shown text)

/-- The text of a message. -/
def textOf (message : String) : Printing String :=
  attempt .markup (Console.plain message)

/-- Prints a message. -/
def say (message : String) : Printing Unit := do
  line (← textOf message)

/-- Prints a table. -/
def printTable (table : Table) : Printing Unit :=
  (Console.table table).forM echo

/-- Prints a tree. -/
def printBranch (branch : Branch) : Printing Unit := do
  (← attempt .markup (Console.tree branch)).forM echo

end

end Printing

end ImportAtlas

import ImportAtlas.Path.Kind
import ImportAtlas.Reference.Token

set_option autoImplicit false

/-!
# Reference forms

A code file refers to others by four forms: a static import, a `require` call, a
dynamic `import` call, and a `lazy` wrapper around a dynamic import.  A
stylesheet has two: `@import` and `url(...)`.  `Form.read?` reads one form at the
front of a text.

The dynamic form is the only one that looks ahead for more than the next piece:
between its opening parenthesis and the first closing one it takes the last
place where a specifier can be read, and that specifier may itself run past the
parenthesis.
-/

namespace ImportAtlas.Reference

open Text

/-- The ways in which a file refers to another. -/
inductive Form where
  /-- `import x, { y } from 's'`, or `import 's'` for its effects alone -/
  | staticImport
  /-- `require('s')` -/
  | require
  /-- `import(... 's'` -/
  | dynamicImport
  /-- `lazy(() => import('s'`, with a comment allowed before the specifier -/
  | lazyImport
  /-- `@import 's'` -/
  | styleImport
  /-- `url('s')` -/
  | url
  deriving DecidableEq, Repr

/-- One binding of a static import: a braced list, `* as` and a name, or a name. -/
def binding? : List Char → Option (List Char)
  | [] => none
  | '{' :: cs => symbol? '}' (cs.dropWhile (· != '}'))
  | '*' :: cs => do
    let s ← blanks? cs
    let s ← keyword? "as" s
    let s ← blanks? s
    name? s
  | c :: cs => name? (c :: cs)

theorem length_of_binding? {s r : List Char} (h : binding? s = some r) :
    r.length < s.length := by
  unfold binding? at h
  split at h
  · cases h
  · rename_i cs
    have := length_of_symbol? h
    have := (List.dropWhile_suffix (l := cs) (· != '}')).length_le
    simp only [List.length_cons]; omega
  · rename_i cs
    simp only [Option.bind_eq_bind, Option.bind_eq_some_iff] at h
    obtain ⟨a, ha, b, hb, c, hc, hr⟩ := h
    have := length_of_blanks? ha
    have := length_of_keyword? hb
    have := length_of_blanks? hc
    have := length_of_name? hr
    simp only [List.length_cons]; omega
  · exact length_of_name? h

set_option linter.unusedVariables false in
/-- What follows the further bindings of a static import, each after a comma.  A comma without a
binding behind it leaves no way to read the import. -/
def moreBindings? (s : List Char) : Option (List Char) :=
  match hs : symbol? ',' (blanks s) with
  | none => some s
  | some r =>
    match hr : binding? (blanks r) with
    | none => none
    | some t => moreBindings? t
termination_by s.length
decreasing_by
  have := length_of_symbol? hs
  have := length_of_binding? hr
  have := length_blanks_le s
  have := length_blanks_le r
  omega

/-- The bindings of a static import with the word `from` and the blanks around it. -/
def clause? (s : List Char) : Option (List Char) := do
  let s ← binding? s
  let s ← moreBindings? s
  let s ← blanks? s
  let s ← keyword? "from" s
  blanks? s

/-- The specifier that starts last before the first closing parenthesis. -/
def lastSpecifier? : List Char → Option (List Char × List Char)
  | [] => none
  | c :: cs => if c = ')' then none else lastSpecifier? cs <|> specifier? (c :: cs)

/-- A call of one quoted specifier: blanks, parenthesis, specifier, parenthesis. -/
def quotedCall? (s : List Char) : Option (List Char × List Char) := do
  let s ← symbol? '(' (blanks s)
  let (body, s) ← specifier? s
  let s ← symbol? ')' s
  return (body, s)

/-- What follows a comment at the front and the blanks behind it; a text without a comment is left
as it is. -/
def skipComment? (s : List Char) : Option (List Char) :=
  match keyword? "/*" s with
  | none => some s
  | some s => (afterComment? s).map blanks

namespace Form

/-- Reads a form at the front of a text: the specifier and what follows the form. -/
def read? : Form → List Char → Option (List Char × List Char)
  | staticImport, s => do
    let s ← keyword? "import" s
    let s ← blanks? s
    match clause? s with
    | some s => specifier? s
    | none => specifier? s
  | require, s => do
    let s ← keyword? "require" s
    quotedCall? s
  | dynamicImport, s => do
    let s ← keyword? "import" s
    let s ← symbol? '(' (blanks s)
    lastSpecifier? s
  | lazyImport, s => do
    let s ← keyword? "lazy" s
    let s ← symbol? '(' (blanks s)
    let s ← keyword? "()" (blanks s)
    let s ← keyword? "=>" (blanks s)
    let s ← keyword? "import" (blanks s)
    let s ← symbol? '(' (blanks s)
    let s ← skipComment? s
    specifier? s
  | styleImport, s => do
    let s ← keyword? "@import" s
    let s ← blanks? s
    specifier? s
  | url, s => do
    let s ← keyword? "url" s
    quotedCall? s

end Form

/-- The forms scanned in a kind of file, in the order in which their references are listed. -/
def forms : SourceKind → List Form
  | .code => [.staticImport, .require, .dynamicImport, .lazyImport]
  | .style => [.styleImport, .url]

end ImportAtlas.Reference

import ImportAtlas.Assoc
import ImportAtlas.Text.Blank

set_option autoImplicit false

/-!
# Files of variables

A variables file binds names to values, one binding to a line.  A binding may
begin with `export`, its name may be in single quotes, and its value is a quoted
text, which may span lines, or the rest of the line up to a comment.  A name
without an equals sign is bound to nothing.  A line that is no binding is
skipped from the place where it goes wrong.

A value may refer to variables by `$` and braces, with a default behind `:-`;
earlier bindings come before the surrounding variables.
-/

namespace ImportAtlas.Standard.EnvFile

/-- A name and its value, if it has one. -/
abbrev Binding := String × Option String

/-- A blank other than a line end. -/
def isSpace (c : Char) : Bool :=
  Text.isBlank c && c != '\n'

/-- What follows the space at the front. -/
def skipSpace (s : List Char) : List Char :=
  s.dropWhile isSpace

/-- What follows the rest of the line. -/
def skipLine (s : List Char) : List Char :=
  (s.dropWhile (· != '\n')).drop 1

/-- What follows the word `export` and the space behind it. -/
def skipExport (s : List Char) : List Char :=
  match "export".toList.isPrefixOf? s with
  | some (c :: rest) => if isSpace c then skipSpace rest else s
  | _ => s

/-- A character of a name without quotes. -/
def isNameChar (c : Char) : Bool :=
  c != '=' && c != '#' && !Text.isBlank c

/-- A quoted text behind its opening quote.  A quote behind a backslash belongs to the text, unless
no other quote closes it. -/
def quotedBody? (quote : Char) : List Char → Option (List Char × List Char)
  | [] => none
  | '\\' :: c :: rest =>
    if c = quote then
      match quotedBody? quote rest with
      | some (body, after) => some ('\\' :: c :: body, after)
      | none => some (['\\'], rest)
    else (quotedBody? quote (c :: rest)).map fun (body, after) => ('\\' :: body, after)
  | c :: rest =>
    if c = quote then some ([], rest)
    else (quotedBody? quote rest).map fun (body, after) => (c :: body, after)

/-- A text with its escapes replaced; a backslash before any other character stands for itself. -/
def unescape (meaning? : Char → Option Char) : List Char → List Char
  | [] => []
  | '\\' :: c :: rest =>
    match meaning? c with
    | some d => d :: unescape meaning? rest
    | none => '\\' :: unescape meaning? (c :: rest)
  | c :: rest => c :: unescape meaning? rest

/-- The escapes in single quotes. -/
def singleEscape? : Char → Option Char
  | '\\' => some '\\'
  | '\'' => some '\''
  | _ => none

/-- The escapes in double quotes. -/
def doubleEscape? : Char → Option Char
  | '\\' => some '\\'
  | '\'' => some '\''
  | '"' => some '"'
  | 'a' => some '\x07'
  | 'b' => some '\x08'
  | 'f' => some '\x0c'
  | 'n' => some '\n'
  | 'r' => some '\r'
  | 't' => some '\t'
  | 'v' => some '\x0b'
  | _ => none

/-- The text before a comment, which needs a blank before its number sign. -/
def cutComment : List Char → List Char
  | [] => []
  | c :: rest =>
    if Text.isBlank c && (rest.dropWhile Text.isBlank).head? == some '#' then []
    else c :: cutComment rest

/-- The name at the front, none for a comment. -/
def name? : List Char → Option (Option (List Char) × List Char)
  | '#' :: rest => some (none, '#' :: rest)
  | '\'' :: rest =>
    match rest.takeWhile (· != '\''), rest.dropWhile (· != '\'') with
    | c :: name, _ :: after => some (some (c :: name), after)
    | _, _ => none
  | s =>
    match s.takeWhile isNameChar with
    | [] => none
    | name => some (some name, s.dropWhile isNameChar)

/-- The value behind an equals sign. -/
def value? : List Char → Option (List Char × List Char)
  | '\'' :: rest =>
    (quotedBody? '\'' rest).map fun (body, after) => (unescape singleEscape? body, after)
  | '"' :: rest =>
    (quotedBody? '"' rest).map fun (body, after) => (unescape doubleEscape? body, after)
  | s => some (Text.trimEnd (cutComment (s.takeWhile (· != '\n'))), s.dropWhile (· != '\n'))

/-- The value behind a name, if there is one.  A failure is the place of the value. -/
def assigned (s : List Char) : Except (List Char) (Option (List Char) × List Char) :=
  match s with
  | '=' :: rest =>
    match value? (skipSpace rest) with
    | some (value, after) => .ok (some value, after)
    | none => .error (skipSpace rest)
  | _ => .ok (none, s)

/-- What follows an optional comment and the end of the line.  A failure is the place of what
stands there instead. -/
def lineEnd (s : List Char) : Except (List Char) (List Char) :=
  let s := match skipSpace s with
    | '#' :: rest => rest.dropWhile (· != '\n')
    | _ => s
  match skipSpace s with
  | [] => .ok []
  | '\n' :: rest => .ok rest
  | other => .error other

/-- The binding at the front, which does not start with a blank, and what follows it.  A failure is
the place where the line goes wrong. -/
def binding (s : List Char) : Except (List Char) (Option Binding × List Char) := do
  let s := skipExport s
  match name? s with
  | none => throw s
  | some (name, rest) =>
    let (value, rest) ← assigned (skipSpace rest)
    let rest ← lineEnd rest
    return (name.map fun name => (String.ofList name, value.map String.ofList), rest)

/-- The binding at the front, or nothing for a comment or a bad line, and what follows it. -/
def next (s : List Char) : Option Binding × List Char :=
  match binding s with
  | .ok found => found
  | .error place => (none, skipLine place)

/-- The bindings of a text.  Each line read leaves less of the text. -/
def bindingsFrom (s : List Char) : List Binding :=
  match s.dropWhile Text.isBlank with
  | [] => []
  | c :: line =>
    let (found, rest) := next (c :: line)
    if rest.length < s.length then found.toList ++ bindingsFrom rest else found.toList
termination_by s.length

/-! ## References -/

/-- A reference behind its dollar sign and brace: the name and the default. -/
def reference? (s : List Char) : Option (List Char × List Char × List Char) :=
  let isName (c : Char) := c != '\x7d' && c != ':'
  match s.dropWhile isName with
  | '\x7d' :: after => some (s.takeWhile isName, [], after)
  | ':' :: '-' :: rest =>
    match rest.dropWhile (· != '\x7d') with
    | _ :: after => some (s.takeWhile isName, rest.takeWhile (· != '\x7d'), after)
    | [] => none
  | _ => none

theorem reference?_shorter {s name fallback after : List Char}
    (h : reference? s = some (name, fallback, after)) : after.length < s.length := by
  have drops (p : Char → Bool) (l : List Char) : (l.dropWhile p).length ≤ l.length :=
    (List.dropWhile_sublist p).length_le
  unfold reference? at h
  simp only at h
  split at h
  · rename_i after' heq
    have := drops (fun c => c != '\x7d' && c != ':') s
    rw [heq] at this
    simp only [Option.some.injEq, Prod.mk.injEq] at h
    obtain ⟨_, _, rfl⟩ := h
    simp only [List.length_cons] at this
    omega
  · rename_i rest heq
    have h1 := drops (fun c => c != '\x7d' && c != ':') s
    rw [heq] at h1
    have h2 := drops (· != '\x7d') rest
    split at h
    · rename_i after' heq2
      rw [heq2] at h2
      simp only [Option.some.injEq, Prod.mk.injEq] at h
      obtain ⟨_, _, rfl⟩ := h
      simp only [List.length_cons] at h1 h2
      omega
    · simp at h
  · simp at h

/-- A text with its references replaced by what `lookup` says of a name and a default. -/
def expand (lookup : List Char → List Char → List Char) : List Char → List Char
  | [] => []
  | '$' :: '\x7b' :: rest =>
    match _h : reference? rest with
    | some (name, fallback, after) => lookup name fallback ++ expand lookup after
    | none => '$' :: expand lookup ('\x7b' :: rest)
  | c :: rest => c :: expand lookup rest
termination_by s => s.length
decreasing_by
  · have := reference?_shorter _h
    simp only [List.length_cons]
    omega
  all_goals simp

/-- What a name stands for: the value of an earlier binding, else of a surrounding variable, else
the default.  A name bound to nothing stands for the empty text. -/
def lookup (earlier : List Binding) (environment : List (String × String))
    (name fallback : List Char) : List Char :=
  let key := String.ofList name
  match Assoc.get? key earlier with
  | some value => (value.getD "").toList
  | none =>
    match Assoc.get? key environment with
    | some value => value.toList
    | none => fallback

/-- Adds a binding with its references replaced. -/
def bind (environment : List (String × String)) (earlier : List Binding) (b : Binding) :
    List Binding :=
  let value := b.2.map fun v => String.ofList (expand (lookup earlier environment) v.toList)
  Assoc.put b.1 value earlier

/-- The bindings of a file's text among the surrounding variables. -/
def parse (environment : List (String × String)) (text : String) : List Binding :=
  (bindingsFrom text.toList).foldl (bind environment) []

end ImportAtlas.Standard.EnvFile

import ImportAtlas.Text.Blank

set_option autoImplicit false

/-!
# Markup

Messages carry tags in square brackets that say how a text looks, such as
`[red]` and `[/red]`.  A tag begins with a letter a to z, a slash, a number sign
or an at sign behind its bracket, and holds no second opening bracket.  A
backslash before a tag makes it text, and two stand for one.  On a plain screen
tags leave nothing behind; but a closing tag must have something to close.
-/

namespace ImportAtlas.Standard.Markup

/-- A piece of markup: text, or a tag without its brackets and the place where it stands. -/
inductive Piece where
  | text (chars : List Char)
  | tag (body : List Char) (position : Nat)
  deriving DecidableEq, Repr

/-- Whether a character may begin a tag. -/
def beginsTag (c : Char) : Bool :=
  ('a' ≤ c && c ≤ 'z') || c == '#' || c == '/' || c == '@'

/-- A character that neither ends nor reopens a tag. -/
def isInner (c : Char) : Bool :=
  c != ']' && c != '['

/-- The tag behind an opening bracket and what follows its closing bracket. -/
def tagBody? : List Char → Option (List Char × List Char)
  | [] => none
  | c :: rest =>
    if beginsTag c then
      match rest.dropWhile isInner with
      | ']' :: after => some (c :: rest.takeWhile isInner, after)
      | _ => none
    else none

/-- The tag at the front with the number of backslashes before it, and what follows. -/
def front? (s : List Char) : Option (Nat × List Char × List Char) :=
  let slashes := (s.takeWhile (· == '\\')).length
  match s.drop slashes with
  | '[' :: rest => (tagBody? rest).map fun (body, after) => (slashes, body, after)
  | _ => none

theorem front?_shorter {s body after : List Char} {slashes : Nat}
    (h : front? s = some (slashes, body, after)) : after.length < s.length := by
  simp only [front?] at h
  split at h
  · rename_i rest heq
    obtain ⟨⟨b, a⟩, hb, he⟩ := Option.map_eq_some_iff.1 h
    simp only [Prod.mk.injEq] at he
    obtain ⟨_, _, rfl⟩ := he
    have hs : rest.length < s.length := by
      have := congrArg List.length heq
      simp only [List.length_drop, List.length_cons] at this
      omega
    unfold tagBody? at hb
    split at hb
    · simp at hb
    · split at hb
      · split at hb
        · rename_i tail _ _ _ hd
          have hl := (List.dropWhile_sublist isInner (l := tail)).length_le
          rw [hd] at hl
          simp only [Option.some.injEq, Prod.mk.injEq] at hb
          obtain ⟨_, rfl⟩ := hb
          simp only [List.length_cons] at hs hl
          omega
        · simp at hb
      · simp at hb
  · simp at h

/-- The pieces of a tag with backslashes before it. -/
def tagPieces (slashes : Nat) (body : List Char) (position : Nat) : List Piece :=
  let kept := Piece.text (List.replicate (slashes / 2) '\\')
  if slashes % 2 = 1 then [kept, .text ('[' :: (body ++ [']']))]
  else [kept, .tag body (position + slashes)]

/-- The pieces of markup from a place on; `before` is the text read since the last tag, the last
character first. -/
def piecesFrom (position : Nat) (before : List Char) (s : List Char) : List Piece :=
  match s with
  | [] => [.text before.reverse]
  | c :: rest =>
    match _h : front? (c :: rest) with
    | some (slashes, body, after) =>
      .text before.reverse ::
        (tagPieces slashes body position ++
          piecesFrom (position + slashes + body.length + 2) [] after)
    | none => piecesFrom (position + 1) (c :: before) rest
termination_by s.length
decreasing_by
  · exact front?_shorter _h
  · simp

/-- The pieces of markup. -/
def pieces (markup : String) : List Piece :=
  piecesFrom 0 [] markup.toList

/-- A text in which a backslash before a bracket is dropped. -/
def dropEscapes : List Char → List Char
  | [] => []
  | '\\' :: '[' :: rest => '[' :: dropEscapes rest
  | c :: rest => c :: dropEscapes rest

/-- The full names of the attributes that have a short one. -/
def attributeNames : List (List Char × List Char) :=
  [("b", "bold"), ("d", "dim"), ("i", "italic"), ("u", "underline"), ("r", "reverse"),
    ("c", "conceal"), ("s", "strike"), ("uu", "underline2"), ("o", "overline")].map fun e =>
      (e.1.toList, e.2.toList)

/-- The name by which tags are compared: trimmed, in lower case, attributes by their full name. -/
def tagName (name : List Char) : List Char :=
  let name := (Text.trim name).map Char.toLower
  ((attributeNames.find? fun e => e.1 == name).map Prod.snd).getD name

/-- Why markup is wrong. -/
inductive Fault where
  /-- a closing tag that no open tag matches -/
  | unmatched (body : String) (position : Nat)
  /-- a closing tag without a name where nothing is open -/
  | nothingOpen (position : Nat)
  deriving DecidableEq, Repr

/-- The wording of a fault. -/
def Fault.message : Fault → String
  | unmatched body position =>
    "closing tag '[" ++ body ++ "]' at position " ++ toString position ++
      " doesn't match any open tag"
  | nothingOpen position =>
    "closing tag '[/]' at position " ++ toString position ++ " has nothing to close"

/-- The open tags after a tag, the last opened first. -/
def openAfter (opened : List (List Char)) (body : List Char) (position : Nat) :
    Except Fault (List (List Char)) :=
  match body.takeWhile (· != '=') with
  | '/' :: name =>
    if Text.trim name = [] then
      if opened = [] then .error (.nothingOpen position) else .ok (opened.drop 1)
    else if opened.contains (tagName name) then .ok (opened.erase (tagName name))
    else .error (.unmatched (String.ofList body) position)
  | name => .ok (tagName name :: opened)

/-- The text of pieces while tags are open. -/
def textOf : List (List Char) → List Piece → Except Fault (List Char)
  | _, [] => .ok []
  | opened, .text chars :: rest => do return dropEscapes chars ++ (← textOf opened rest)
  | opened, .tag body position :: rest => do textOf (← openAfter opened body position) rest

/-- The text that markup leaves on a plain screen. -/
def plain (markup : String) : Except Fault String :=
  (textOf [] (pieces markup)).map String.ofList

end ImportAtlas.Standard.Markup

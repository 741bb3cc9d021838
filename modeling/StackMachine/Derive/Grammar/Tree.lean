import StackMachine.Derive.Code

/-!
Tokens as trees: a tree is a token, or all that stands between two brackets. Angles are plain tokens
here, since only the grammar tells an angle bracket from a comparison.
-/

namespace StackMachine.Derive.Grammar

/-! ## 1. Trees -/

inductive Bracket where
  | round
  | square
  | curly
deriving DecidableEq, Repr

namespace Bracket

def opening : Bracket → String
  | round => "("
  | square => "["
  | curly => "\x7b"

def closing : Bracket → String
  | round => ")"
  | square => "]"
  | curly => "\x7d"

def ofOpening? (token : String) : Option Bracket :=
  [round, square, curly].find? (·.opening == token)

end Bracket

inductive Tree where
  /-- A token. It is joint if it is punctuation and other punctuation follows without a gap. -/
  | token (text : String) (joint : Bool)
  | group (bracket : Bracket) (body : List Tree)

mutual

/-- The tokens of a tree. -/
def Tree.code : Tree → Code
  | .token text _ => [text]
  | .group bracket body => [bracket.opening] ++ Tree.codes body ++ [bracket.closing]

/-- The tokens of trees in a row. -/
def Tree.codes : List Tree → Code
  | [] => []
  | tree :: rest => tree.code ++ Tree.codes rest

end

/-! ## 2. Tokens -/

/-- Characters that are tokens of their own. -/
def isPunctuation (c : Char) : Bool := "+-*/%^!&|=<>@.,;:#$?~()[]\x7b\x7d".toList.contains c

/-- Characters of names and numbers. -/
def isWord (c : Char) : Bool := c.isAlphanum || c = '_' || 0x7f < c.toNat

/-- Length of a name at the front of a text, with the mark `r#` of a raw name. -/
def nameLength (text : List Char) : Nat :=
  match text with
  | 'r' :: '#' :: rest => 2 + (rest.takeWhile isWord).length
  | _ => (text.takeWhile isWord).length

/-- Length of the first token. A text that starts with a literal is that literal. -/
def tokenLength : List Char → Nat
  | [] => 0
  | '\'' :: rest =>
    let n := nameLength rest
    if n = 0 ∨ rest[n]? = some '\'' then 1 + rest.length else 1 + n
  | c :: rest =>
    if isPunctuation c then 1
    else if c = '"' ∨ c.isDigit ∨ rest.contains '"' then 1 + rest.length
    else
      let n := max 1 (nameLength (c :: rest))
      if (c :: rest)[n]? = some '\'' then 1 + rest.length else n

/-- The tokens of a text, in order. -/
def lex : List Char → List Tree
  | [] => []
  | c :: cs =>
    let n := tokenLength (c :: cs) - 1
    let rest := cs.drop n
    let joint := isPunctuation c && rest.head?.any isPunctuation
    if c = ' ' then lex rest else .token (String.ofList (c :: cs.take n)) joint :: lex rest
termination_by text => text.length
decreasing_by
  all_goals
    simp only [List.length_drop, List.length_cons]
    omega

/-! ## 3. Nesting -/

/-- What was read since the innermost open bracket, and each open bracket with what was read before
it. -/
structure Nesting where
  current : List Tree
  opened : List (List Tree × Bracket)

namespace Nesting

def add (n : Nesting) (tree : Tree) : Nesting := { n with current := n.current ++ [tree] }

def next (n : Nesting) (tree : Tree) : Nesting :=
  match tree with
  | .group .. => n.add tree
  | .token text _ =>
    match Bracket.ofOpening? text, n.opened with
    | some bracket, opened => ⟨[], (n.current, bracket) :: opened⟩
    | none, [] => n.add tree
    | none, (before, bracket) :: opened =>
      if text = bracket.closing then ⟨before ++ [.group bracket n.current], opened⟩ else n.add tree

/-- All trees; a bracket that nothing closes stays a token. -/
def trees (n : Nesting) : List Tree :=
  n.opened.foldl
    (fun current (before, bracket) => before ++ [.token bracket.opening false] ++ current) n.current

end Nesting

/-- The trees of a list of texts. -/
def Tree.ofTexts (texts : List String) : List Tree :=
  ((texts.flatMap fun text => lex text.toList).foldl Nesting.next ⟨[], []⟩).trees

/-! ## 4. Kinds of tokens -/

/-- Whether a token is a name or a keyword. -/
def isName (token : String) : Bool :=
  token.toList.head?.any (fun c => isWord c && !c.isDigit) && !token.toList.contains '"' &&
    !token.toList.contains '\''

/-- Names that the language keeps for itself. -/
def keywords : List String :=
  ["_", "abstract", "as", "async", "await", "become", "box", "break", "const", "continue", "crate",
    "do", "dyn", "else", "enum", "extern", "false", "final", "fn", "for", "if", "impl", "in", "let",
    "loop", "macro", "match", "mod", "move", "mut", "override", "priv", "pub", "ref", "return",
    "Self", "self", "static", "struct", "super", "trait", "true", "try", "type", "typeof", "unsafe",
    "unsized", "use", "virtual", "where", "while", "yield"]

/-- Whether a token is a name and not a keyword. -/
def isIdentifier (token : String) : Bool := isName token && !keywords.contains token

/-- Whether a token is a lifetime: a quote opens it and none closes it. -/
def isLifetime (token : String) : Bool :=
  token.toList.head? = some '\'' && token.toList.getLast? ≠ some '\''

/-- Whether a token is a literal. -/
def isLiteral (token : String) : Bool :=
  token.toList.head?.any (fun c => isWord c || c = '"' || c = '\'') && !isName token &&
    !isLifetime token

end StackMachine.Derive.Grammar

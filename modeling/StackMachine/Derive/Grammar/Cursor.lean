import StackMachine.Derive.Code
import StackMachine.Derive.Grammar.Tree

/-!
A cursor in a list of trees: what is left to read, and what was written for the part already read. A
rule of the grammar is a step from cursor to cursor.
-/

namespace StackMachine.Derive.Grammar

structure Cursor where
  /-- What is left to read. -/
  rest : List Tree
  /-- What was written so far. -/
  out : Code

namespace Cursor

/-! ## 1. Looking ahead -/

def ofTrees (trees : List Tree) : Cursor := ⟨trees, []⟩

def isAtEnd (c : Cursor) : Bool := c.rest.isEmpty

/-- The next tree, if it is a token. -/
def token? (c : Cursor) : Option String :=
  match c.rest with
  | .token text _ :: _ => some text
  | _ => none

def sees (c : Cursor) (token : String) : Bool := c.token? = some token

def seesAny (c : Cursor) (tokens : List String) : Bool := c.token?.any tokens.contains

/-- Whether two tokens without a gap come next. -/
def seesPair (c : Cursor) (first second : String) : Bool :=
  match c.rest with
  | .token a true :: .token b _ :: _ => a = first && b = second
  | _ => false

/-- Whether a group in these brackets comes next. -/
def opens (c : Cursor) (bracket : Bracket) : Bool :=
  match c.rest with
  | .group b _ :: _ => b = bracket
  | _ => false

def seesGroup (c : Cursor) : Bool := c.opens .round || c.opens .square || c.opens .curly

/-- What stands in the group that comes next. -/
def body (c : Cursor) : Cursor :=
  match c.rest with
  | .group _ trees :: _ => ofTrees trees
  | _ => ofTrees []

/-- The view some trees ahead. -/
def ahead (c : Cursor) (n : Nat) : Cursor := { c with rest := c.rest.drop n }

def seesName (c : Cursor) : Bool := c.token?.any isName

def seesIdentifier (c : Cursor) : Bool := c.token?.any isIdentifier

def seesLifetime (c : Cursor) : Bool := c.token?.any isLifetime

def seesLiteral (c : Cursor) : Bool := c.token?.any isLiteral

/-- A path separator. -/
def seesSeparator (c : Cursor) : Bool := c.seesPair ":" ":"

/-- A colon that is not half of a path separator. -/
def seesColon (c : Cursor) : Bool := c.sees ":" && !c.seesSeparator

def seesArrow (c : Cursor) : Bool := c.seesPair "-" ">"

/-- The arrow of a match arm. -/
def seesArmArrow (c : Cursor) : Bool := c.seesPair "=" ">"

/-- Two dots or more. -/
def seesDots (c : Cursor) : Bool := c.seesPair "." "."

/-- The mark of an invocation: an exclamation mark in front of a group. -/
def seesInvocation (c : Cursor) : Bool := c.sees "!" && (c.ahead 1).seesGroup

/-! ## 2. Moving -/

/-- Reads a tree and writes nothing. -/
def skip (c : Cursor) : Cursor := { c with rest := c.rest.tail }

def write (c : Cursor) (code : Code) : Cursor := { c with out := c.out ++ code }

/-- Reads a tree and writes it as it is. -/
def take (c : Cursor) : Cursor :=
  match c.rest with
  | [] => c
  | tree :: _ => c.skip.write tree.code

def takeTwo (c : Cursor) : Cursor := c.take.take

/-- Takes a token if it comes next. -/
def takeIf (c : Cursor) (token : String) : Cursor := if c.sees token then c.take else c

/-- Takes all that is left as it is. -/
def takeAll (c : Cursor) : Cursor := ⟨[], c.out ++ Tree.codes c.rest⟩

/-- Writes as it is what was read up to another cursor. -/
def takeUpTo (c last : Cursor) : Cursor :=
  ⟨last.rest, c.out ++ Tree.codes (c.rest.take (c.rest.length - last.rest.length))⟩

/-- Applies a rule to all that stands in the group that comes next. -/
def inside (c : Cursor) (rule : Cursor → Cursor) : Cursor :=
  match c.rest with
  | .group bracket trees :: _ =>
    c.skip.write ([bracket.opening] ++ (rule (ofTrees trees)).takeAll.out ++ [bracket.closing])
  | _ => c

/-- Repeats a step until it declines, at most so many times. -/
def loop (step : Cursor → Option Cursor) : Nat → Cursor → Cursor
  | 0, c => c
  | n + 1, c =>
    match step c with
    | some next => loop step n next
    | none => c

/-- Repeats a step until it declines. Every step reads something, so the length of what is left
bounds their number. -/
def many (c : Cursor) (step : Cursor → Option Cursor) : Cursor := loop step c.rest.length c

/-- A rule between commas, up to the end. -/
def commaList (rule : Cursor → Cursor) (c : Cursor) : Cursor :=
  c.many fun c => if c.isAtEnd then none else some ((rule c).takeIf ",")

/-- The view behind a path without arguments, if one comes next. -/
def beyondPath? (c : Cursor) : Option Cursor :=
  let seesPart (c : Cursor) : Bool :=
    c.seesIdentifier || c.seesAny ["self", "Self", "super", "crate"]
  let c := if c.seesSeparator then c.ahead 2 else c
  if seesPart c then
    some ((c.ahead 1).many fun c =>
      if c.seesSeparator && seesPart (c.ahead 2) then some (c.ahead 3) else none)
  else none

end Cursor

/-! ## 3. Lists between angle brackets -/

/-- An entry of a list between angle brackets. -/
structure Entry where
  isLifetime : Bool
  code : Code
  /-- Whether a comma follows. -/
  comma : Bool
deriving DecidableEq, Repr

def Entry.written (e : Entry) : Code := if e.comma then e.code ++ [","] else e.code

/-- The entries in the order in which they were read. -/
def inOrder (entries : List Entry) : Code := entries.flatMap Entry.written

/-- The entries with the lifetimes in front. Where no comma follows the last lifetime, one is put
between the lifetimes and the rest. -/
def lifetimesFirst (entries : List Entry) : Code :=
  let (lifetimes, others) := entries.partition (·.isLifetime)
  let join : Code := match lifetimes.getLast? with
    | some last => if last.comma || others.isEmpty then [] else [","]
    | none => []
  inOrder lifetimes ++ join ++ inOrder others

namespace Cursor

/-- The entries up to the closing angle. -/
def entries (isLifetime : Cursor → Bool) (rule : Cursor → Cursor) :
    Nat → Cursor → List Entry × Cursor
  | 0, c => ([], c)
  | n + 1, c =>
    if c.isAtEnd || c.sees ">" then ([], c)
    else
      let last := rule { c with out := [] }
      let next := { last with out := c.out }
      if next.sees "," then
        let (others, after) := entries isLifetime rule n next.skip
        (⟨isLifetime c, last.out, true⟩ :: others, after)
      else ([⟨isLifetime c, last.out, false⟩], next)

/-- Reads a list in angle brackets; what is written for it is up to `write`. -/
def angleList (c : Cursor) (isLifetime : Cursor → Bool) (rule : Cursor → Cursor)
    (write : List Entry → Code) :
    Cursor :=
  let (entries, last) := entries isLifetime rule c.rest.length c.skip
  if c.sees "<" && last.sees ">" then last.skip.write (write entries) else c.take

end Cursor

/-! ## 4. Rules -/

/-- The rules of the grammar that contain each other. A rule takes them for the types, bounds,
expressions, patterns and statements inside what it reads. -/
structure Rules where
  /-- A type. The flag tells whether it may be a sum of bounds. -/
  type : Bool → Cursor → Cursor
  /-- Bounds with plus signs between them. -/
  bounds : Cursor → Cursor
  /-- An expression. The flag tells whether a curly bracket behind a name belongs to it. -/
  expression : Bool → Cursor → Cursor
  /-- An expression as a statement or as the body of an arm: one that ends with a block goes on only
  with a dot or a question mark. -/
  statementExpression : Cursor → Cursor
  pattern : Cursor → Cursor
  statements : Cursor → Cursor

/-- Rules that leave everything as it is. -/
def Rules.verbatim : Rules where
  type _ := Cursor.takeAll
  bounds := Cursor.takeAll
  expression _ := Cursor.takeAll
  statementExpression := Cursor.takeAll
  pattern := Cursor.takeAll
  statements := Cursor.takeAll

end StackMachine.Derive.Grammar

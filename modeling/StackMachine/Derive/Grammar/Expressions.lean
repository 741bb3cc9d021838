import StackMachine.Decimal
import StackMachine.Derive.Grammar.Declarations

/-!
Patterns, expressions and statements.

An expression is read as operands with operators between them; how strongly an operator binds does
not matter for what is written. At the place of an operand an angle opens a qualified path and a bar
opens a closure, at the place of an operator they are operators.
-/

namespace StackMachine.Derive.Grammar

/-! ## 1. Field numbers -/

/-- Value of digits in a base, none if there is another character. -/
def digitsIn? (base : Nat) (digits : List Char) : Option Nat :=
  let value (c : Char) : Nat :=
    if c.isDigit then c.toNat - '0'.toNat else c.toLower.toNat - 'a'.toNat + 10
  if digits.isEmpty || digits.any (fun c => !c.isAlphanum || base ≤ value c) then none
  else some (digits.foldl (fun n c => n * base + value c) 0)

/-- The number of a field, in decimal digits without underscores. -/
def fieldNumber (text : List Char) : String :=
  let value? := match text.filter (· ≠ '_') with
    | '0' :: 'x' :: digits => digitsIn? 16 digits
    | '0' :: 'o' :: digits => digitsIn? 8 digits
    | '0' :: 'b' :: digits => digitsIn? 2 digits
    | digits => digitsIn? 10 digits
  match value? with
  | some n => Decimal.ofNat n
  | none => String.ofList text

/-- Field numbers behind a dot: two of them may have been read as one literal. -/
def fieldNumbers (text : String) : Code :=
  (["."] : Code).intercalate ((text.toList.splitOn '.').map ([fieldNumber ·]))

/-- The name or number of a field. -/
def fieldKey (c : Cursor) : Cursor :=
  match c.token? with
  | some token => if isLiteral token then c.skip.write [fieldNumber token.toList] else c.take
  | none => c

/-! ## 2. Patterns -/

/-- A field of a struct pattern. -/
def fieldPattern (g : Rules) (c : Cursor) : Cursor :=
  let c := attributes g c
  if (c.seesName || c.seesLiteral) && (c.ahead 1).seesColon then g.pattern (fieldKey c).take
  else g.pattern c

/-- A path in a pattern with what it applies to. -/
def pathPattern (g : Rules) (c : Cursor) : Cursor :=
  let c := (if c.sees "<" then qualifiedPath g true c else path g true c).cursor
  if c.seesInvocation then c.takeTwo
  else if c.opens .round then c.inside (Cursor.commaList g.pattern)
  else if c.opens .curly then c.inside (Cursor.commaList (fieldPattern g))
  else c

/-- The mark of a range in a pattern. Three dots are an old way to write two dots and an equals
sign. -/
def rangeMark (c : Cursor) : Cursor :=
  if (c.ahead 1).seesDots then c.takeTwo.skip.write ["="] else c.takeTwo.takeIf "="

/-- The next part of a pattern, if it goes on. -/
def patternPart? (g : Rules) (c : Cursor) : Option Cursor :=
  if c.seesAny ["&", "mut", "ref", "-", "@"] || c.seesLifetime || c.seesLiteral then some c.take
  else if c.opens .round || c.opens .square then some (c.inside (Cursor.commaList g.pattern))
  else if c.sees "const" && (c.ahead 1).opens .curly then some (c.take.inside g.statements)
  else if c.seesDots then some (rangeMark c)
  else if c.seesAny ["if", "in", "box"] then none
  else if c.seesName || c.sees "<" || c.seesSeparator then some (pathPattern g c)
  else none

/-- A pattern without alternatives. From a `box` on it is left as it is. -/
def onePattern (g : Rules) (c : Cursor) : Cursor :=
  let c := c.many (patternPart? g)
  if c.sees "box" then
    c.takeUpTo (c.many fun c => if c.sees "box" then some c.take else patternPart? g c)
  else c

/-- A pattern with alternatives. -/
def patternRule (g : Rules) (c : Cursor) : Cursor :=
  (onePattern g (c.takeIf "|")).many fun c =>
    if c.sees "|" then some (onePattern g c.take) else none

/-! ## 3. Operands -/

/-- Whether an operand may come next. -/
def seesOperand (structs : Bool) (c : Cursor) : Bool :=
  c.opens .round || c.opens .square || structs && c.opens .curly || c.seesLifetime ||
    c.seesLiteral ||
    c.seesAny ["-", "!", "*", "&", "|", "<", "#"] || c.seesSeparator || c.seesDots ||
    c.seesName && !c.seesAny ["as", "else", "in", "where"]

def block (g : Rules) (c : Cursor) : Cursor := c.inside g.statements

/-- A field of a struct expression. -/
def fieldValue (g : Rules) (c : Cursor) : Cursor :=
  let c := attributes g c
  if (c.seesName || c.seesLiteral) && (c.ahead 1).seesColon then g.expression true (fieldKey c).take
  else if c.seesDots then
    let c := c.takeTwo
    if seesOperand true c then g.expression true c else c
  else fieldKey c

def arm (g : Rules) (c : Cursor) : Cursor :=
  let c := patternRule g (attributes g c)
  let c := if c.sees "if" then g.expression true c.take else c
  let c := if c.seesArmArrow then g.statementExpression c.takeTwo else c.take
  c.takeIf ","

/-- A parameter of a closure. -/
def closureInput (g : Rules) (c : Cursor) : Cursor :=
  let c := onePattern g (attributes g c)
  let c := if c.seesColon then g.type true c.take else c
  c.takeIf ","

/-- A closure from its first bar on. -/
def closure (g : Rules) (structs : Bool) (c : Cursor) : Cursor :=
  let c := c.take.many fun c => if c.isAtEnd || c.sees "|" then none else some (closureInput g c)
  let c := c.takeIf "|"
  if c.seesArrow then block g (result g true c) else g.expression structs c

/-- The branches behind the condition of an `if`. -/
def branches (g : Rules) (c : Cursor) : Cursor :=
  let c := block g c
  if !c.sees "else" then c
  else if (c.ahead 1).sees "if" then g.expression true c.take
  else block g c.take

/-- Whether the lifetimes of a closure come next, and not a loop over a qualified path. -/
def seesClosureBinder (c : Cursor) : Bool :=
  c.sees "for" && (c.ahead 1).sees "<" && ((c.ahead 2).seesLifetime || (c.ahead 2).sees ">")

/-- An expression that starts with a keyword, if that keyword starts one. -/
def keywordOperand? (g : Rules) (structs : Bool) (c : Cursor) : Option Cursor :=
  let next := c.ahead 1
  if c.sees "if" then some (branches g (g.expression false c.take))
  else if c.sees "while" then some (block g (g.expression false c.take))
  else if seesClosureBinder c then
    let c := (binder g c).many fun c => if c.seesName then some c.take else none
    some (closure g structs c)
  else if c.sees "for" then some (block g (g.expression false ((g.pattern c.take).takeIf "in")))
  else if c.sees "match" then
    some ((g.expression false c.take).inside fun c =>
      (innerAttributes g c).many fun c => if c.isAtEnd then none else some (arm g c))
  else if c.seesAny ["loop", "unsafe", "try", "const"] && next.opens .curly then
    some (block g c.take)
  else if c.sees "async" && next.opens .curly then some (block g c.take)
  else if c.sees "async" && next.sees "move" && (c.ahead 2).opens .curly then
    some (block g c.takeTwo)
  else if c.seesAny ["move", "static", "async", "const"] then
    some (closure g structs (c.many fun c => if c.seesName then some c.take else none))
  else if c.sees "let" then
    let c := g.pattern c.take
    some (if c.sees "=" then g.expression structs c.take else c)
  else if c.sees "become" then some (c.takeUpTo (g.expression true c.take))
  else if c.seesAny ["return", "break", "continue", "yield"] then
    let c := c.take
    let c := if c.seesLifetime && !(c.ahead 1).seesColon then c.take else c
    some (if seesOperand structs c then g.expression structs c else c)
  else none

/-- A path as an operand, with what it applies to. -/
def pathOperand (g : Rules) (structs : Bool) (c : Cursor) : Cursor :=
  let c := (if c.sees "<" then qualifiedPath g true c else path g true c).cursor
  if c.seesInvocation then c.takeTwo
  else if structs && c.opens .curly then c.inside (Cursor.commaList (fieldValue g))
  else c

/-- Expressions between commas or semicolons. -/
def expressionList (g : Rules) (c : Cursor) : Cursor :=
  c.many fun c => if c.isAtEnd then none else some (((g.expression true c).takeIf ",").takeIf ";")

/-- An operand without its signs and without what follows it. -/
def bareOperand (g : Rules) (structs : Bool) (c : Cursor) : Cursor :=
  if c.opens .curly then block g c
  else if c.seesGroup then c.inside (expressionList g)
  else if c.seesLiteral then c.take
  else if c.sees "|" then closure g structs c
  else if c.sees "builtin" && (c.ahead 1).sees "#" then c.takeTwo.takeTwo
  else
    match keywordOperand? g structs c with
    | some c => c
    | none => if c.seesName || c.sees "<" || c.seesSeparator then pathOperand g structs c else c

/-- A sign, a label or an attribute in front of an operand. -/
def sign? (g : Rules) (c : Cursor) : Option Cursor :=
  if c.seesAny ["-", "!", "*"] then some c.take
  else if c.sees "&" then
    let c := c.take
    let c := if c.sees "raw" && (c.ahead 1).seesAny ["const", "mut"] then c.takeTwo else c
    some (c.takeIf "mut")
  else if c.seesLifetime && (c.ahead 1).seesColon then some c.takeTwo
  else if c.sees "#" then some (attributes g c)
  else none

/-- What follows an operand: a field, a call, an index, a question mark. -/
def suffix? (g : Rules) (c : Cursor) : Option Cursor :=
  if c.sees "?" then some c.take
  else if c.opens .round || c.opens .square then some (c.inside (expressionList g))
  else if c.sees "." && !c.seesDots then
    let c := c.take
    if c.seesLiteral then some (c.skip.write (fieldNumbers (c.token?.getD "")))
    else
      let c := c.take
      some (if c.seesSeparator && (c.ahead 2).sees "<" then genericArguments g c.takeTwo else c)
  else none

/-! ## 4. Expressions -/

/-- Operators of more than one character, the longer first. -/
def longOperators : List (List String) :=
  [["<", "<", "="], [">", ">", "="], [".", ".", "="], [".", ".", "."], ["&", "&"], ["|", "|"],
    ["<", "<"], [">", ">"], ["=", "="], ["!", "="], ["<", "="], [">", "="], ["+", "="], ["-", "="],
    ["*", "="], ["/", "="], ["%", "="], ["^", "="], ["&", "="], ["|", "="], [".", "."]]

/-- Whether these tokens come next without gaps. -/
def seesRun (c : Cursor) : List String → Bool
  | [] => true
  | [token] => c.sees token
  | first :: second :: rest => c.seesPair first second && seesRun (c.ahead 1) (second :: rest)

/-- Number of tokens of the operator that comes next. -/
def operatorLength (c : Cursor) : Nat :=
  if c.seesArmArrow then 0
  else
    match longOperators.find? (seesRun c) with
    | some operator => operator.length
    | none => if c.seesAny ["+", "-", "*", "/", "%", "^", "&", "|", "<", ">", "="] then 1 else 0

/-- Takes so many tokens. -/
def takeTokens : Nat → Cursor → Cursor
  | 0, c => c
  | n + 1, c => takeTokens n c.take

/-- An operand with its signs and what follows it. A range need not have a start nor an end. -/
def operand (g : Rules) (structs : Bool) (c : Cursor) : Cursor :=
  let c := c.many (sign? g)
  if c.seesDots then
    let c := takeTokens (operatorLength c) c
    if seesOperand structs c then g.expression structs c else c
  else (bareOperand g structs c).many (suffix? g)

/-- What follows a whole operand, and then operators with their operands. -/
def operators (g : Rules) (structs : Bool) (c : Cursor) : Cursor :=
  (c.many (suffix? g)).many fun c =>
    if c.sees "as" then some (g.type false c.take)
    else if c.seesDots then
      let c := takeTokens (operatorLength c) c
      some (if seesOperand structs c then operand g structs c else c)
    else
      match operatorLength c with
      | 0 => none
      | n => some (operand g structs (takeTokens n c))

def expressionRule (g : Rules) (structs : Bool) (c : Cursor) : Cursor :=
  operators g structs (operand g structs c)

/-- Whether an expression comes next that ends with its block when it stands as a statement. -/
def seesBlockLike (c : Cursor) : Bool :=
  let next := c.ahead 1
  c.opens .curly || c.seesAny ["if", "while", "match"] || c.sees "for" && !seesClosureBinder c ||
    c.seesAny ["loop", "unsafe", "try", "const"] && next.opens .curly ||
      c.seesLifetime && next.seesColon

/-- An expression that ends with its block, unless a dot or a question mark follows. -/
def blockLike (g : Rules) (c : Cursor) : Cursor :=
  let c := bareOperand g true (c.many (sign? g))
  if c.sees "?" || c.sees "." && !c.seesDots then operators g true c else c

def statementExpressionRule (g : Rules) (c : Cursor) : Cursor :=
  let c := attributes g c
  if seesBlockLike c then blockLike g c else expressionRule g true c

/-! ## 5. Statements -/

/-- A declaration of variables. -/
def letStatement (g : Rules) (c : Cursor) : Cursor :=
  let c := onePattern g c.take
  let c := if c.seesColon then g.type true c.take else c
  let c := if c.sees "=" then g.expression true c.take else c
  let c := if c.sees "else" then block g c.take else c
  c.takeIf ";"

/-- Whether attributes and then a declaration come next. -/
def seesAttributedDeclaration (c : Cursor) : Bool :=
  seesDeclaration (c.many fun c =>
    if c.sees "#" && (c.ahead 1).opens .square then some c.skip.skip else none)

/-- Whether a macro comes next whose argument is in curly brackets. -/
def seesCurlyInvocation (c : Cursor) : Bool :=
  c.beyondPath?.any fun c => c.sees "!" && (c.ahead 1).opens .curly

def statement (g : Rules) (c : Cursor) : Cursor :=
  if c.sees ";" then c.take
  else if seesAttributedDeclaration c then declaration g c
  else
    let c := attributes g c
    if c.sees "let" then letStatement g c
    else
      let last :=
        (if seesCurlyInvocation c then blockLike g c else statementExpressionRule g c).takeIf ";"
      if last.rest.length < c.rest.length then last else c.take

def statementsRule (g : Rules) (c : Cursor) : Cursor :=
  (innerAttributes g c).many fun c => if c.isAtEnd then none else some (statement g c)

/-! ## 6. Rules inside rules, as deep as the text needs -/

/-- The rules, when they may stand in each other so many times. -/
def rules : Nat → Rules
  | 0 => .verbatim
  | n + 1 =>
    let g := rules n
    { type := typeRule g
      bounds := boundsRule g
      expression := expressionRule g
      statementExpression := statementExpressionRule g
      pattern := patternRule g
      statements := statementsRule g }

/-- What a rule writes for a list of texts. Every rule inside another has read a token before, so
the number of tokens bounds the depth. -/
def reread (rule : Rules → Cursor → Cursor) (texts : List String) : Code :=
  let trees := Tree.ofTexts texts
  (rule (rules (2 * (Tree.codes trees).length + 2)) (.ofTrees trees)).takeAll.out

end StackMachine.Derive.Grammar

import StackMachine.Derive.Grammar.Cursor

/-!
Types, paths, bounds and generic parameters.

They are written as they are read, up to this: lists in angle brackets have their lifetimes first, a
colon with no bound behind it is left out in front of the next parameter, a question mark goes
before the lifetimes that a bound declares, and neither a path separator nor empty angle brackets
stand before the arguments of a function trait. What the grammar does not know in full, such as a
bound under `const`, is left as it is.
-/

namespace StackMachine.Derive.Grammar

/-! ## 1. Attributes and constants -/

/-- What an attribute holds: only the value behind an equals sign is an expression. -/
def attributeBody (g : Rules) (c : Cursor) : Cursor :=
  let c := c.many fun c => if c.seesName || c.sees ":" then some c.take else none
  if c.sees "=" then g.expression true c.take else c

/-- Attributes of what follows them. -/
def attributes (g : Rules) (c : Cursor) : Cursor :=
  c.many fun c =>
    if c.sees "#" && (c.ahead 1).opens .square then some (c.take.inside (attributeBody g)) else none

/-- Attributes of what they stand in. -/
def innerAttributes (g : Rules) (c : Cursor) : Cursor :=
  c.many fun c =>
    if c.sees "#" && (c.ahead 1).sees "!" && (c.ahead 2).opens .square then
      some (c.takeTwo.inside (attributeBody g))
    else none

/-- Whether a constant comes next that can be told from a type. -/
def seesConstant (c : Cursor) : Bool := c.seesLiteral || c.sees "-" || c.opens .curly

/-- A constant argument: a literal, perhaps with a sign, a name, or a block. -/
def constant (g : Rules) (c : Cursor) : Cursor :=
  if c.opens .curly then c.inside g.statements
  else if c.sees "-" then c.takeTwo
  else c.take

/-! ## 2. Bounds that need no path -/

/-- Whether a bound comes next. -/
def seesBound (c : Cursor) : Bool :=
  c.opens .round || c.opens .square || c.seesLifetime || c.seesAny ["?", "~"] || c.seesSeparator ||
    c.seesName && !c.sees "where"

/-- Lifetimes with plus signs between them. -/
def lifetimeBounds (c : Cursor) : Cursor :=
  c.many fun c => if c.seesLifetime || c.sees "+" then some c.take else none

/-! ## 3. Paths -/

/-- An argument of a generic type. -/
def genericArgument (g : Rules) (c : Cursor) : Cursor :=
  if c.seesLifetime && !(c.ahead 1).sees "+" then c.take
  else if seesConstant c then constant g c
  else
    let c := g.type true c
    if c.sees "=" then if seesConstant c.skip then constant g c.take else g.type true c.take
    else if c.seesColon then g.bounds c.take
    else c

/-- Arguments in angle brackets. -/
def genericArguments (g : Rules) (c : Cursor) : Cursor :=
  c.angleList (fun c => c.seesLifetime && !(c.ahead 1).sees "+") (genericArgument g) fun entries =>
    Code.angles (lifetimesFirst entries)

/-- A path that was read. -/
structure PathRead where
  cursor : Cursor
  /-- What was written up to the last name, without the angle brackets behind it. -/
  named : Code
  /-- Whether there is an argument between these brackets. -/
  hasArguments : Bool

/-- A path whose last name has no angle brackets behind it. -/
def PathRead.plain (c : Cursor) : PathRead := ⟨c, c.out, false⟩

/-- Names with path separators between them, each perhaps with arguments. In an expression an angle
opens arguments only behind a separator. -/
def pathNames (g : Rules) (inExpression : Bool) : Nat → Cursor → PathRead
  | 0, c => .plain c
  | n + 1, c =>
    let c := c.take
    let read : PathRead :=
      if !inExpression && c.sees "<" && !c.seesPair "<" "=" then
        ⟨genericArguments g c, c.out, !(c.ahead 1).sees ">"⟩
      else if c.seesSeparator && (c.ahead 2).sees "<" then
        ⟨genericArguments g c.takeTwo, c.out, !(c.ahead 3).sees ">"⟩
      else .plain c
    if read.cursor.seesSeparator && (read.cursor.ahead 2).seesName then
      pathNames g inExpression n read.cursor.takeTwo
    else read

/-- A path. -/
def path (g : Rules) (inExpression : Bool) (c : Cursor) : PathRead :=
  let c := if c.seesSeparator then c.takeTwo else c
  pathNames g inExpression c.rest.length c

/-- The result type behind an arrow. -/
def result (g : Rules) (plus : Bool) (c : Cursor) : Cursor :=
  if c.seesArrow then g.type plus c.takeTwo else c

/-- Arguments and result of a function trait; a separator and empty angle brackets in front of them
are left out. -/
def functionArguments (g : Rules) (read : PathRead) : Cursor :=
  let c := read.cursor
  let c' := if c.seesSeparator && (c.ahead 2).opens .round then c.skip.skip else c
  if !read.hasArguments && c'.opens .round then
    result g false ({ c' with out := read.named }.inside (Cursor.commaList (g.type true)))
  else c

/-- A path in a type given in angle brackets, perhaps as an implementor of a trait. -/
def qualifiedPath (g : Rules) (inExpression : Bool) (c : Cursor) : PathRead :=
  let c := g.type true c.take
  let c := if c.sees "as" then functionArguments g (path g false c.take) else c
  let c := c.takeIf ">"
  if c.seesSeparator then pathNames g inExpression c.rest.length c.takeTwo else .plain c

/-- A path in a type: behind the arguments of a function trait it may go on to an associated
type. -/
def associatedPath (g : Rules) : Nat → PathRead → Cursor
  | 0, read => read.cursor
  | n + 1, read =>
    let c := functionArguments g read
    if c.rest.length < read.cursor.rest.length && c.seesSeparator && (c.ahead 2).seesName then
      associatedPath g n (pathNames g false c.rest.length c.takeTwo)
    else c

/-! ## 4. Parameters -/

/-- A generic parameter. -/
def parameter (g : Rules) (c : Cursor) : Cursor :=
  let c := attributes g c
  if c.sees "const" then
    let c := c.takeTwo
    let c := if c.seesColon then g.type true c.take else c
    if c.sees "=" then constant g c.take else c
  else if c.seesLifetime then
    let c := c.take
    if !c.seesColon then c else if c.skip.seesLifetime then lifetimeBounds c.take else c.skip
  else
    let c := c.take
    let c := if !c.seesColon then c else if seesBound c.skip then g.bounds c.take else c.skip
    if c.sees "=" then g.type true c.take else c

/-- Whether the parameter that comes next is a lifetime. -/
def isLifetimeParameter (c : Cursor) : Bool :=
  (c.many fun c => if c.sees "#" then some c.skip.skip else none).seesLifetime

/-- Parameters in angle brackets; an empty list is left out. -/
def genericParameters (g : Rules) (c : Cursor) : Cursor :=
  if c.sees "<" then
    c.angleList isLifetimeParameter (parameter g) fun entries =>
      if entries.isEmpty then [] else Code.angles (lifetimesFirst entries)
  else c

/-- The lifetimes that a `for` declares. -/
def binder (g : Rules) (c : Cursor) : Cursor :=
  if c.sees "for" && (c.ahead 1).sees "<" then
    c.take.angleList isLifetimeParameter (parameter g) fun entries => Code.angles (inOrder entries)
  else c

/-! ## 5. Bounds -/

/-- Whether a bound stands under `const`. -/
def isConstBound (g : Rules) (c : Cursor) : Bool :=
  let c := binder g c
  c.opens .square || c.seesAny ["const", "~"]

/-- A trait in a bound, with its modifiers. -/
def traitBound (g : Rules) (c : Cursor) : Cursor :=
  let declared := binder g { c with out := [] }
  let c := { declared with out := c.out }
  let c := if c.opens .square then c.take else c
  let c := (c.takeIf "~").takeIf "const"
  let c := c.takeIf "?"
  let c := if declared.out.isEmpty then binder g c else c.write declared.out
  functionArguments g (path g false c)

def bound (g : Rules) (c : Cursor) : Cursor :=
  if c.seesLifetime then c.take
  else if c.sees "use" then genericArguments g c.take
  else if c.opens .round then
    if isConstBound g c.body then c.take else c.inside (traitBound g)
  else
    let last := traitBound g c
    if isConstBound g c then c.takeUpTo last else last

/-- More bounds behind a plus sign. -/
def moreBounds (g : Rules) (c : Cursor) : Cursor :=
  c.many fun c =>
    if !c.sees "+" then none
    else if seesBound c.skip then some (bound g c.take)
    else some c.take

/-- Bounds with plus signs between them. -/
def boundsRule (g : Rules) (c : Cursor) : Cursor :=
  moreBounds g (if seesBound c then bound g c else c)

/-- A single bound, or bounds with plus signs between them. -/
def boundsOrOne (g : Rules) (plus : Bool) (c : Cursor) : Cursor :=
  if plus then boundsRule g c else if seesBound c then bound g c else c

/-! ## 6. Types -/

/-- A parameter of a function type. Only the first may be `mut self`, and it is left as it is. -/
def functionParameter (g : Rules) (isFirst : Bool) (c : Cursor) : Cursor :=
  let c := attributes g c
  if isFirst && c.sees "mut" && (c.ahead 1).sees "self" then
    let last := c.takeTwo
    c.takeUpTo (if last.seesColon then g.type true last.take else last)
  else
    let c := if c.seesName && (c.ahead 1).seesColon then c.takeTwo else c
    if c.seesDots then c.takeTwo.take else g.type true c

def functionParameters (g : Rules) (c : Cursor) : Cursor :=
  if c.isAtEnd then c
  else Cursor.commaList (functionParameter g false) ((functionParameter g true c).takeIf ",")

/-- A function type behind its binder. -/
def functionType (g : Rules) (c : Cursor) : Cursor :=
  let c :=
    c.many fun c => if c.seesAny ["unsafe", "extern"] || c.seesLiteral then some c.take else none
  result g false ((c.takeIf "fn").inside (functionParameters g))

/-- A path as a type. -/
def pathType (g : Rules) (c : Cursor) : Cursor :=
  let read := if c.sees "<" then qualifiedPath g false c else path g false c
  if read.cursor.seesInvocation then read.cursor.takeTwo else associatedPath g c.rest.length read

/-- A type in round brackets, or several. -/
def bracketedTypes (g : Rules) (c : Cursor) : Cursor :=
  if c.seesLifetime || c.sees "?" then boundsRule g c else c.commaList (g.type true)

def typeRule (g : Rules) (plus : Bool) (c : Cursor) : Cursor :=
  let sum (c : Cursor) : Cursor := if plus then moreBounds g c else c
  if c.sees "for" then
    let c := binder g c
    if c.seesAny ["fn", "unsafe", "extern"] then functionType g c
    else if c.sees "dyn" then boundsOrOne g plus c.take
    else sum (pathType g c)
  else if c.opens .round then sum (c.inside (bracketedTypes g))
  else if c.opens .square then
    c.inside fun c =>
      let c := g.type true c
      if c.sees ";" then g.expression true c.take else c
  else if c.seesAny ["fn", "unsafe", "extern"] then functionType g c
  else if c.sees "dyn" then
    if (c.ahead 1).sees "*" then c.takeUpTo (boundsOrOne g plus c.takeTwo)
    else boundsOrOne g plus c.take
  else if c.sees "impl" then boundsOrOne g plus c.take
  else if c.sees "*" then g.type false c.takeTwo
  else if c.sees "&" then
    let c := c.take
    let c := if c.seesLifetime then c.take else c
    g.type false (c.takeIf "mut")
  else if c.sees "builtin" && (c.ahead 1).sees "#" then c.takeTwo.takeTwo
  else if c.seesLifetime then boundsRule g c
  else if c.seesName || c.sees "<" || c.seesSeparator then sum (pathType g c)
  else c.takeIf "!"

/-! ## 7. Conditions on parameters -/

/-- A condition of a `where` clause. -/
def predicate (g : Rules) (c : Cursor) : Cursor :=
  if c.seesLifetime then
    let c := c.take
    if c.seesColon then lifetimeBounds c.take else c
  else
    let c := g.type true (binder g c)
    if c.seesColon then boundsRule g c.take else c

/-- A `where` clause; one without conditions is left out. -/
def conditions (g : Rules) (c : Cursor) : Cursor :=
  let isOver (c : Cursor) : Bool := c.isAtEnd || c.opens .curly || c.sees ";" || c.sees "="
  if !c.sees "where" then c
  else if isOver c.skip then c.skip
  else c.take.many fun c => if isOver c then none else some ((predicate g c).takeIf ",")

end StackMachine.Derive.Grammar

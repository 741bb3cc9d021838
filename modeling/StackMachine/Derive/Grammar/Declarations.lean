import StackMachine.Derive.Grammar.Types

/-!
Declarations inside a block: functions, types, constants, traits, implementations, modules.

Their parameters and conditions are written as for any generic item. Forms that are allowed
elsewhere but not where they stand, such as a function without a body in a block, are left as they
are.
-/

namespace StackMachine.Derive.Grammar

/-- Where a declaration stands. -/
inductive Scope where
  | block
  | traitBody
  | implBody
  | foreign
deriving DecidableEq, Repr

/-- A declaration that was read, and whether it is to be left as it is. -/
structure Declared where
  cursor : Cursor
  isVerbatim : Bool

/-! ## 1. Parts -/

/-- A `pub`, perhaps with a place in round brackets. A longer path in them is the type of a tuple
field. -/
def visibility (c : Cursor) : Cursor :=
  if c.sees "pub" then
    let c := c.take
    let isPlace :=
      c.body.sees "in" || c.body.seesAny ["crate", "self", "super"] && (c.body.ahead 1).isAtEnd
    if c.opens .round && isPlace then c.take else c
  else c

def namedField (g : Rules) (c : Cursor) : Cursor :=
  let c := (visibility (attributes g c)).take
  let c := if c.seesColon then g.type true c.take else c
  if c.sees "=" then g.expression true c.take else c

def tupleField (g : Rules) (c : Cursor) : Cursor := g.type true (visibility (attributes g c))

def fieldList (g : Rules) (c : Cursor) : Cursor :=
  if c.opens .curly then c.inside (Cursor.commaList (namedField g))
  else if c.opens .round then c.inside (Cursor.commaList (tupleField g))
  else c

/-- A variant of an enum; its visibility is left out. -/
def variant (g : Rules) (c : Cursor) : Cursor :=
  let c := attributes g c
  let c := fieldList g { visibility c with out := c.out }.take
  if c.sees "=" then g.expression true c.take else c

/-- A parameter of a function: a pattern and its type. -/
def functionInput (g : Rules) (c : Cursor) : Cursor :=
  let dots (c : Cursor) : Cursor := c.takeTwo.take
  let c := attributes g c
  if c.seesDots then dots c
  else
    let c := g.pattern c
    if !c.seesColon then c else if c.skip.seesDots then dots c.take else g.type true c.take

/-- Bounds behind a colon; a colon without bounds is left out. -/
def optionalBounds (g : Rules) (c : Cursor) : Cursor :=
  if !c.seesColon then c else if seesBound c.skip then boundsRule g c.take else c.skip

/-- Everything up to a semicolon, as it is. -/
def upToSemicolon (c : Cursor) : Cursor :=
  (c.many fun c => if c.isAtEnd || c.sees ";" then none else some c.take).takeIf ";"

/-! ## 2. Functions -/

/-- What may stand before the `fn` of a function. -/
def seesQualifier (c : Cursor) : Bool :=
  c.seesAny ["const", "async", "unsafe", "safe", "default", "extern"] || c.seesLiteral

def seesFunction (c : Cursor) : Bool :=
  (c.many fun c => if seesQualifier c then some c.skip else none).sees "fn"

def function (g : Rules) (scope : Scope) (c : Cursor) : Declared :=
  let isSafe := c.sees "safe"
  let c := c.many fun c => if seesQualifier c then some c.take else none
  let c := genericParameters g c.takeTwo
  let c := conditions g (result g true (c.inside (Cursor.commaList (functionInput g))))
  if c.opens .curly then ⟨c.inside g.statements, scope = .foreign⟩
  else ⟨c.takeIf ";", isSafe || scope = .block || scope = .implBody⟩

/-! ## 3. Members -/

/-- A constant or a static variable. -/
def constantItem (g : Rules) (scope : Scope) (c : Cursor) : Declared :=
  let isStatic := c.sees "static"
  let c := (c.take.takeIf "mut").take
  let isGeneric := c.sees "<"
  let c := genericParameters g c
  let hasType := c.seesColon
  let c := if hasType then g.type true c.take else c
  let hasValue := c.sees "="
  let c := if hasValue then g.expression true c.take else c
  let hasConditions := c.sees "where"
  let c := (conditions g c).takeIf ";"
  let isWhole := if isStatic && scope = .foreign then !hasValue else hasValue || scope = .traitBody
  ⟨c, isGeneric || !hasType || hasConditions || !isWhole⟩

/-- A name for a type. -/
def typeItem (g : Rules) (scope : Scope) (c : Cursor) : Declared :=
  let c := genericParameters g c.takeTwo
  let hasBounds := c.seesColon
  let c := conditions g (optionalBounds g c)
  let hasType := c.sees "="
  let c := (conditions g (if hasType then g.type true c.take else c)).takeIf ";"
  match scope with
  | .traitBody => ⟨c, false⟩
  | .foreign => ⟨c, hasBounds || hasType⟩
  | _ => ⟨c, hasBounds || !hasType⟩

/-- A use of a macro as a declaration. -/
def invocationItem (c : Cursor) : Cursor :=
  let c := c.many fun c => if c.seesGroup || c.isAtEnd then none else some c.take
  c.take.takeIf ";"

/-- A member of a trait, an implementation or a foreign block. A member of a trait is not marked as
public or as a default. -/
def member (g : Rules) (scope : Scope) (c : Cursor) : Cursor :=
  let start := c
  let c := attributes g c
  let isMarked := c.sees "pub" || c.sees "default" && !(c.ahead 1).sees "!"
  let c := visibility c
  let read : Declared :=
    if seesFunction c then function g scope c
    else
      let c := if isMarked then c.takeIf "default" else c
      if c.sees "type" then typeItem g scope c
      else if c.seesAny ["const", "static"] then constantItem g scope c
      else if c.seesAny ["safe", "unsafe"] && (c.ahead 1).sees "static" then
        ⟨(constantItem g scope c.take).cursor, true⟩
      else ⟨invocationItem c, false⟩
  if read.isVerbatim || isMarked && scope = .traitBody then start.takeUpTo read.cursor
  else read.cursor

def members (g : Rules) (scope : Scope) (c : Cursor) : Cursor :=
  (innerAttributes g c).many fun c => if c.isAtEnd then none else some (member g scope c)

/-! ## 4. Declarations -/

/-- A struct, a union or an enum. -/
def dataItem (g : Rules) (c : Cursor) : Cursor :=
  let isEnum := c.sees "enum"
  let c := conditions g (genericParameters g c.takeTwo)
  let c := if isEnum then c.inside (Cursor.commaList (variant g)) else fieldList g c
  (conditions g c).takeIf ";"

def traitItem (g : Rules) (c : Cursor) : Cursor :=
  let c := optionalBounds g (genericParameters g c.takeTwo)
  if c.sees "=" then (conditions g (boundsRule g c.take)).takeIf ";"
  else (conditions g c).inside (members g .traitBody)

/-- Whether an angle opens the parameters of an implementation, and not a qualified path. -/
def seesParameters (c : Cursor) : Bool :=
  let next := c.ahead 1
  c.sees "<" && (next.seesAny [">", "#", "const"] ||
    (next.seesName || next.seesLifetime) &&
    ((c.ahead 2).seesColon || (c.ahead 2).seesAny [",", ">", "="]))

/-- The first type of an implementation, and whether it is a path: only a path names a trait. -/
def implHead (g : Rules) (c : Cursor) : Cursor × Bool :=
  if c.seesSeparator ||
      c.seesName && !c.seesAny ["dyn", "impl", "fn", "unsafe", "extern", "for", "_"] then
    let last := associatedPath g c.rest.length (path g false c)
    if last.seesAny ["for", "where"] || last.opens .curly then (last, true)
    else (g.type true c, false)
  else (g.type true c, false)

/-- An implementation. One under `const`, and one of what is not a trait, is left as it is. -/
def implItem (g : Rules) (c : Cursor) : Declared :=
  let c := c.take
  let c := if seesParameters c then genericParameters g c else c
  let isConst := c.sees "const" || c.sees "?"
  let c := (c.takeIf "?").takeIf "const"
  let isNegative := c.sees "!" && !(c.ahead 1).opens .curly
  let (last, isPath) := implHead g (if isNegative then c.take else c)
  let isOfTrait := last.sees "for"
  let c :=
    if isOfTrait then g.type true last.take
    else if isNegative then c.takeUpTo last
    else last
  ⟨(conditions g c).inside (members g .implBody), isConst || isOfTrait && !isPath⟩

/-- Whether a declaration comes next. -/
def seesDeclaration (c : Cursor) : Bool :=
  let next := c.ahead 1
  c.seesAny ["pub", "fn", "use", "struct", "enum", "trait", "mod", "type", "impl", "extern"] ||
    seesFunction c ||
    c.seesAny ["static", "const"] && next.seesName && !next.seesAny ["move", "async", "static"] ||
    c.sees "unsafe" && next.seesAny ["impl", "trait", "extern", "auto", "mod"] ||
    c.sees "default" && next.seesAny ["impl", "unsafe"] || c.sees "auto" && next.sees "trait" ||
    c.sees "union" && next.seesIdentifier || c.sees "macro" ||
    c.beyondPath?.any (fun c => c.sees "!" && (c.ahead 1).seesIdentifier)

/-- A declaration in a block. -/
def declaration (g : Rules) (c : Cursor) : Cursor :=
  let start := c
  let c := attributes g c
  let isPublic := c.sees "pub"
  let c := visibility c
  let read : Declared :=
    if seesFunction c then function g .block c
    else
      let c :=
        if (c.ahead 1).sees "!" then c else (((c.takeIf "default").takeIf "unsafe").takeIf "auto")
      if c.seesAny ["struct", "union", "enum"] then ⟨dataItem g c, false⟩
      else if c.sees "trait" then ⟨traitItem g c, false⟩
      else if c.sees "impl" then
        let read := implItem g c
        ⟨read.cursor, isPublic || read.isVerbatim⟩
      else if c.sees "type" then typeItem g .block c
      else if c.seesAny ["const", "static"] then constantItem g .block c
      else if c.sees "mod" then
        let c := c.takeTwo
        ⟨if c.opens .curly then c.inside g.statements else c.takeIf ";", false⟩
      else if c.sees "extern" && !(c.ahead 1).sees "crate" then
        let c := c.take
        ⟨(if c.seesLiteral then c.take else c).inside (members g .foreign), false⟩
      else if c.seesAny ["use", "extern"] then ⟨upToSemicolon c, false⟩
      else if c.sees "macro" then
        let c := c.takeTwo
        ⟨(if c.opens .round then c.take else c).take, false⟩
      else ⟨invocationItem c, false⟩
  if read.isVerbatim then start.takeUpTo read.cursor else read.cursor

end StackMachine.Derive.Grammar

import StackMachine.Derive.Grammar.Expressions

/-!
Generic parameters and `where` clauses of the item for which code is generated. Bounds and
conditions are read by the grammar and written anew.
-/

namespace StackMachine.Derive

open Code

/-- A parameter where it is declared. -/
def Parameter.declaration : Parameter → Code
  | lifetime name => ["'" ++ name]
  | type name bounds =>
      if bounds.isEmpty then [name] else [name, ":"] ++ Grammar.reread Grammar.boundsRule bounds
  | const name kind => ["const", name, ":"] ++ Grammar.reread (Grammar.typeRule · true) [kind]

/-- A parameter where it is used. -/
def Parameter.use : Parameter → Code
  | lifetime name => ["'" ++ name]
  | type name _ => [name]
  | const name _ => [name]

/-- The parameters as entries of a list: a comma follows each but the last. -/
def parameterEntries (write : Parameter → Code) : List Parameter → List Grammar.Entry
  | [] => []
  | [p] => [⟨p.isLifetime, write p, false⟩]
  | p :: rest => ⟨p.isLifetime, write p, true⟩ :: parameterEntries write rest

/-- Parameters in angle brackets; no parameters are nothing. -/
def parameterList (write : Parameter → Code) (parameters : List Parameter) : Code :=
  if parameters.isEmpty then []
  else angles (Grammar.lifetimesFirst (parameterEntries write parameters))

def whereClause (predicates : List (List String)) : Code :=
  if predicates.isEmpty then []
  else "where" :: commaSeparated (predicates.map (Grammar.reread Grammar.predicate))

/-- An implementation of a trait for the type of the header. -/
def Header.implementation (h : Header) (trait body : Code) : Code :=
  ["impl"] ++ parameterList Parameter.declaration h.parameters ++ trait ++ ["for", h.name] ++
    parameterList Parameter.use h.parameters ++ whereClause h.predicates ++ braces body

end StackMachine.Derive

import StackMachine.Fault

/-!
Labels: names for positions in the program. A definition is a name with a colon behind it; a name
may be defined once.
-/

namespace StackMachine.Assembly

/-- A letter or underscore, then letters, digits and underscores. Only ASCII counts. -/
def isIdentifier (name : String) : Bool :=
  match name.toList with
  | [] => false
  | c :: cs => (c.isAlpha || c == '_') && cs.all fun c => c.isAlphanum || c == '_'

/-- The name in a label definition: a token of at least two characters that ends in a colon. -/
def definedName? (token : String) : Option String :=
  match token.toList.reverse with
  | ':' :: c :: cs => some (String.ofList (c :: cs).reverse)
  | _ => none

/-- Label names with the positions that they stand for. -/
structure Labels where
  entries : List (String × Nat)
deriving DecidableEq, Repr

namespace Labels

def empty : Labels := ⟨[]⟩

def find? (labels : Labels) (name : String) : Option Nat := labels.entries.lookup name

def define (labels : Labels) (name : String) (index : Nat) : Except Fault Labels :=
  if !isIdentifier name then .error (.invalidOperand (name ++ ":"))
  else if (labels.find? name).isSome then .error (.duplicateLabel name)
  else .ok ⟨(name, index) :: labels.entries⟩

def resolve (labels : Labels) (name : String) : Except Fault Nat :=
  match labels.find? name with
  | some index => .ok index
  | none => .error (.undefinedLabel name)

end Labels
end StackMachine.Assembly

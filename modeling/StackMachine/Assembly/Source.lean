import StackMachine.Assembly.Statement
import StackMachine.Program

/-!
Assembly of a whole source in two passes: the first collects statements and labels, the second turns
every statement into an instruction. A label stands for the number of statements before it, so it
may be used before its definition.
-/

namespace StackMachine.Assembly

/-- What the first pass has found so far. -/
structure Layout where
  labels : Labels
  statements : Array Statement

namespace Layout

def empty : Layout := ⟨.empty, #[]⟩

/-- Adds a statement if there are tokens for one. -/
def addStatement (layout : Layout) (line : Nat) : List Token → Layout
  | [] => layout
  | head :: operands => { layout with statements := layout.statements.push ⟨line, head, operands⟩ }

def addLine (layout : Layout) (line : Nat) (text : String) : Except Fault Layout :=
  match Token.scan text with
  | [] => .ok layout
  | head :: rest =>
    match definedName? head.text with
    | none => .ok (layout.addStatement line (head :: rest))
    | some name =>
      match layout.labels.define name layout.statements.size with
      | .error cause => .error (located line head cause)
      | .ok labels => .ok ({ layout with labels }.addStatement line rest)

/-- Adds lines, of which the first has number `line`. -/
def addLines (layout : Layout) (line : Nat) : List String → Except Fault Layout
  | [] => .ok layout
  | text :: rest =>
    match layout.addLine line text with
    | .error cause => .error cause
    | .ok layout => layout.addLines (line + 1) rest

def ofSource (source : String) : Except Fault Layout := empty.addLines 1 (Text.lines source)

end Layout

/-- The instructions of all statements, or the first fault. -/
def instructions (labels : Labels) : List Statement → Except Fault (List Instruction)
  | [] => .ok []
  | s :: rest =>
    match s.instruction labels with
    | .error cause => .error cause
    | .ok i =>
      match instructions labels rest with
      | .error cause => .error cause
      | .ok is => .ok (i :: is)

/-- The program that a source text stands for. Faulty labels are reported first, then an excess of
statements, then the first faulty statement. -/
def assemble (source : String) : Except Trap Program :=
  match Layout.ofSource source with
  | .error cause => .error (.fault cause)
  | .ok ⟨labels, statements⟩ =>
    if Program.capacity ≤ statements.size then
      .error (.fault (.programTooLarge statements.size Program.capacity))
    else
      match instructions labels statements.toList with
      | .error cause => .error (.fault cause)
      | .ok is => (Program.ofList is).mapError .breach

end StackMachine.Assembly

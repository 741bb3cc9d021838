import StackMachine.Assembly.Source
import StackMachine.Files.Tree

/-!
Programs and sources in files.
-/

namespace StackMachine.Files

/-- A fault of the file at `path`. -/
def ioFault (path : String) (e : FileError) : Fault := .io path e.message

/-- The program in a file, given what reading the file gave. -/
def programOf (path : String) (contents : Except FileError Bytes) : Except Fault Program :=
  match contents with
  | .error e => .error (ioFault path e)
  | .ok bytes => Program.ofImage bytes

/-- The program that the source in a file stands for, given what reading the file gave. -/
def assemblyOf (path : String) (contents : Except FileError Bytes) : Except Trap Program :=
  match asText contents with
  | .error e => .error (.fault (ioFault path e))
  | .ok source => Assembly.assemble source

namespace Tree

def loadProgram (t : Tree) (path : String) : Except Fault Program := programOf path (t.read path)

def assembleFile (t : Tree) (path : String) : Except Trap Program := assemblyOf path (t.read path)

/-- Writes the image of a program. -/
def saveProgram (t : Tree) (path : String) (p : Program) : Except Fault Tree :=
  (t.write path p.image).mapError (ioFault path)

end Tree
end StackMachine.Files

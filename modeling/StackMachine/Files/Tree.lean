import StackMachine.Codec
import StackMachine.Text.Quoted

/-!
A tree of files and directories, with links and special files, and what reading and writing a path
in it does. The system may refuse any access; a write that it refuses changes nothing.
-/

namespace StackMachine.Files

/-- Why a path cannot be read or written. -/
inductive FileError where
  | notFound
  | accessDenied
  | notADirectory
  | isADirectory
  | noSpace
  | nameTooLong
  | tooManyLinks
  | zeroInPath
  | notText
  /-- Any other answer of the system, in its own words. -/
  | other (text : String)
deriving DecidableEq, Repr

def FileError.message : FileError → String
  | notFound => "No such file or directory (os error 2)"
  | accessDenied => "Permission denied (os error 13)"
  | notADirectory => "Not a directory (os error 20)"
  | isADirectory => "Is a directory (os error 21)"
  | noSpace => "No space left on device (os error 28)"
  | nameTooLong => "File name too long (os error 36)"
  | tooManyLinks => "Too many levels of symbolic links (os error 40)"
  | zeroInPath => "file name contained an unexpected NUL byte"
  | notText => "stream did not contain valid UTF-8"
  | other text => text

/-- Bytes that a name may have. -/
def longestName : Nat := 255

/-- Bytes that a path may have. -/
def longestPath : Nat := 4095

/-- Symbolic links that a path may go through. -/
def mostLinks : Nat := 40

/-! ## 1. Places and nodes -/

/-- Where a node is: the names that lead to it from the root. None of them is `.` or `..`. -/
structure Place where
  names : List String
deriving DecidableEq, Repr

namespace Place

def root : Place := ⟨[]⟩

/-- The directory that holds a place; the root holds itself. -/
def up (p : Place) : Place := ⟨p.names.dropLast⟩

/-- Where a name leads from a directory. -/
def step (p : Place) (name : String) : Place :=
  if name = "." then p
  else if name = ".." then p.up
  else ⟨p.names ++ [name]⟩

/-- Where a path starts that is followed in a directory. -/
def start (p : Place) (path : String) : Place :=
  if path.toList.head? = some '/' then root else p

end Place

/-- What the system answers instead of granting an access, where it does not grant it: because a
right is missing, the disk is full or a device fails. -/
structure Refusals where
  read : Option FileError
  /-- Writing a file, or creating one in a directory. -/
  write : Option FileError
  /-- Going through a directory. -/
  pass : Option FileError
deriving DecidableEq, Repr

def Refusals.empty : Refusals := ⟨none, none, none⟩

inductive Kind where
  | directory
  | file (contents : Bytes)
  /-- A special file. Nothing of what is written to it is kept, and reading gives what it shows. -/
  | device (shows : Bytes)
  /-- A symbolic link. -/
  | link (target : String)
deriving DecidableEq, Repr

structure Node where
  /-- All places of the node. A file with hard links has several. -/
  places : List Place
  kind : Kind
  refusals : Refusals := .empty
deriving DecidableEq, Repr

/-- What is read from a node. No path leads to a link. -/
def Node.read (node : Node) : Except FileError Bytes :=
  match node.refusals.read with
  | some e => .error e
  | none =>
    match node.kind with
    | .directory => .error .isADirectory
    | .file contents => .ok contents
    | .device shows => .ok shows
    | .link _ => .error .tooManyLinks

/-! ## 2. Looking up -/

structure Tree where
  /-- Every node but the root. -/
  nodes : List Node
  /-- The working directory. -/
  here : Place
  /-- What the root refuses. -/
  root : Refusals := .empty
  /-- What a new file refuses. -/
  mask : Refusals := .empty
deriving DecidableEq, Repr

namespace Tree

/-- The node at a place. -/
def look (t : Tree) (place : Place) : Except FileError Node :=
  match place.names.getLast? with
  | none => .ok ⟨[place], .directory, t.root⟩
  | some name =>
    if longestName < name.utf8ByteSize then .error .nameTooLong
    else
      match t.nodes.find? (place ∈ ·.places) with
      | some node => .ok node
      | none => .error .notFound

/-- Whether a path may go on behind a place. -/
def enter (t : Tree) (place : Place) : Except FileError Unit :=
  match t.look place with
  | .error e => .error e
  | .ok node =>
    match node.kind with
    | .directory =>
      match node.refusals.pass with
      | some e => .error e
      | none => .ok ()
    | _ => .error .notADirectory

/-- The target of the symbolic link at a place. -/
def link? (t : Tree) (place : Place) : Option String :=
  match t.look place with
  | .error _ => none
  | .ok node =>
    match node.kind with
    | .link target => some target
    | _ => none

/-- The names that a path goes through. -/
def steps (path : String) : List String :=
  ((path.toList.splitOn '/').filter (· ≠ [])).map String.ofList

/-- Whether a path ends in a slash, and so asks for a directory. -/
def asksDirectory (path : String) : Bool := path.toList.getLast? = some '/'

/-- The names that the target of a link goes through. Where it asks for a directory, a dot does so
in its stead. -/
def targetSteps (target : String) : List String :=
  steps target ++ if asksDirectory target then ["."] else []

/-- Why a path leads nowhere in any tree. -/
def refusal? (path : String) : Option FileError :=
  if path.toList.contains '\x00' then some .zeroInPath
  else if path = "" then some .notFound
  else if longestPath < path.utf8ByteSize then some .nameTooLong
  else none

/-- Follows names from a place up to the first symbolic link, from where `detour` goes on. Every
name but the last has to lead to a directory. -/
def follow (t : Tree) (detour : Place → List String → Except FileError Place) (place : Place) :
    List String → Except FileError Place
  | [] => .ok place
  | name :: rest =>
    match t.enter place with
    | .error e => .error e
    | .ok () =>
      match t.link? (place.step name) with
      | none => t.follow detour (place.step name) rest
      | some target =>
        match refusal? target with
        | some e => .error e
        | none => detour (place.start target) (targetSteps target ++ rest)

/-- Follows names from a place, through so many symbolic links at most. -/
def walk (t : Tree) : Nat → Place → List String → Except FileError Place
  | 0 => t.follow fun _ _ => .error .tooManyLinks
  | links + 1 => t.follow (t.walk links)

/-- The place that a path leads to. There need not be a node. -/
def locate (t : Tree) (path : String) : Except FileError Place :=
  match refusal? path with
  | some e => .error e
  | none => t.walk mostLinks (t.here.start path) (steps path)

/-- The node that a path leads to. -/
def find (t : Tree) (path : String) : Except FileError Node :=
  match t.locate path with
  | .error e => .error e
  | .ok place =>
    match t.look place with
    | .error e => .error e
    | .ok node =>
      if asksDirectory path ∧ node.kind ≠ .directory then .error .notADirectory else .ok node

def contains (t : Tree) (path : String) : Bool := (t.find path).toOption.isSome

/-- The bytes of a file. -/
def read (t : Tree) (path : String) : Except FileError Bytes :=
  match t.find path with
  | .error e => .error e
  | .ok node => node.read

/-! ## 3. Writing -/

/-- The nodes, with other contents in the file at a place, and so under all its places. -/
def replace (place : Place) (contents : Bytes) : List Node → List Node
  | [] => []
  | node :: rest =>
    if place ∈ node.places then { node with kind := .file contents } :: rest
    else node :: replace place contents rest

/-- Writes to a place: the file there has other contents, or there is a new one. A device keeps
nothing. -/
def put (t : Tree) (place : Place) (contents : Bytes) : Tree :=
  match t.look place with
  | .ok node =>
    match node.kind with
    | .file _ => { t with nodes := replace place contents t.nodes }
    | _ => t
  | .error _ => { t with nodes := t.nodes ++ [⟨[place], .file contents, t.mask⟩] }

/-- Why nothing can be written to a place. A new file asks its directory for the right. -/
def writeRefusal? (t : Tree) (place : Place) : Option FileError :=
  match t.look place with
  | .ok node =>
    match node.kind with
    | .directory => some .isADirectory
    | .link _ => some .tooManyLinks
    | _ => node.refusals.write
  | .error .notFound =>
    match t.look place.up with
    | .error e => some e
    | .ok directory =>
      if directory.kind = .directory then directory.refusals.write else some .notADirectory
  | .error e => some e

/-- Creates a file or replaces its contents. A path that ends in a slash never names a file to
write, whatever is there. -/
def write (t : Tree) (path : String) (contents : Bytes) : Except FileError Tree :=
  match t.locate path with
  | .error e => .error e
  | .ok place =>
    if asksDirectory path then .error .isADirectory
    else
      match t.writeRefusal? place with
      | some e => .error e
      | none => .ok (t.put place contents)

end Tree

/-- The text that a file was found to hold. -/
def asText (contents : Except FileError Bytes) : Except FileError String :=
  match contents with
  | .error e => .error e
  | .ok bytes =>
    match Text.decode? bytes with
    | some text => .ok text
    | none => .error .notText

end StackMachine.Files

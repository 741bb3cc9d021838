import StackMachine.Calendar

/-!
The journal: messages of the tools about themselves, each with a level. Messages below the threshold
are dropped.
-/

namespace StackMachine

inductive Level where
  | debug
  | info
  | warn
  | error
deriving DecidableEq, Repr

namespace Level

/-- Every level, least severe first. -/
def all : List Level := [debug, info, warn, error]

def severity : Level → Nat
  | debug => 0
  | info => 1
  | warn => 2
  | error => 3

def name : Level → String
  | debug => "DEBUG"
  | info => "INFO"
  | warn => "WARN"
  | error => "ERROR"

/-- The escape sequences that colour a message. -/
def colour : Level → String
  | debug => "\x1b[36m"
  | info => ""
  | warn => "\x1b[1m\x1b[33m"
  | error => "\x1b[1m\x1b[31m"

end Level

/-- A message as it was logged, with the settings of that moment. The time is not part of it. -/
structure Message where
  level : Level
  text : String
  showTimestamp : Bool
  showLevel : Bool
  coloured : Bool
deriving DecidableEq, Repr

/-- What is written for a message, given what the clock shows when it is logged. -/
def Message.written (m : Message) (now : Calendar.Instant) : String :=
  let timestamp := if m.showTimestamp then now.timestamp ++ " " else ""
  let tag := if m.showLevel then s!"[{m.level.name}] " else ""
  let line := s!"{timestamp}{tag}{m.text}\n"
  if m.coloured then s!"\x1b[0m{m.level.colour}{line}\x1b[0m" else line

/-- Settings of a journal and the messages that were logged so far. -/
structure Journal where
  threshold : Level
  showTimestamp : Bool
  showLevel : Bool
  coloured : Bool
  messages : Array Message
deriving DecidableEq, Repr

namespace Journal

/-- An empty journal that drops debug messages and shows timestamp and level. -/
def new (coloured : Bool) : Journal where
  threshold := .info
  showTimestamp := true
  showLevel := true
  coloured
  messages := #[]

def isEnabled (j : Journal) (level : Level) : Bool := j.threshold.severity ≤ level.severity

/-- A message under the settings of the journal. -/
def entry (j : Journal) (level : Level) (text : String) : Message :=
  ⟨level, text, j.showTimestamp, j.showLevel, j.coloured⟩

/-- Takes a message in unless its level is below the threshold. -/
def log (j : Journal) (level : Level) (text : String) : Journal :=
  if j.isEnabled level then { j with messages := j.messages.push (j.entry level text) } else j

/-- What is written for messages. The clock is read for each of them, and `clock` gives the readings
in order. -/
def stamped (messages : List Message) (clock : Nat → Calendar.Instant) : String :=
  String.join (messages.mapIdx fun i m => m.written (clock i))

def text (j : Journal) (clock : Nat → Calendar.Instant) : String := stamped j.messages.toList clock

end Journal
end StackMachine

/-!
Tokens of an assembly line: the longest runs of characters other than blanks and commas, up to the
comment. A token knows its column, counted in UTF-8 bytes from one.
-/

namespace StackMachine.Text

/-! ## 1. Blanks and lines -/

/-- First and last code point of each range of characters with the Unicode property White_Space, in
ascending order. -/
def blankRanges : List (Nat × Nat) :=
  [(0x9, 0xd), (0x20, 0x20), (0x85, 0x85), (0xa0, 0xa0), (0x1680, 0x1680), (0x2000, 0x200a),
    (0x2028, 0x2029), (0x202f, 0x202f), (0x205f, 0x205f), (0x3000, 0x3000)]

def isBlank (c : Char) : Bool := blankRanges.any fun (lo, hi) => lo ≤ c.toNat && c.toNat ≤ hi

/-- Cuts a text behind every line feed. -/
def chunks (cs : List Char) : List (List Char) :=
  cs.foldr (fun c rest =>
    match rest with
    | [] => [[c]]
    | chunk :: rest => if c = '\n' then [c] :: chunk :: rest else (c :: chunk) :: rest) []

/-- A chunk without its line feed, and without the carriage return before the line feed. -/
def dropLineEnd (chunk : List Char) : List Char :=
  match chunk.reverse with
  | '\n' :: '\r' :: rest => rest.reverse
  | '\n' :: rest => rest.reverse
  | _ => chunk

/-- A line feed ends a line, and so does a carriage return with a line feed behind it. What follows
the last line feed is a line of its own unless it is empty; a carriage return at its end belongs to
it. -/
def lines (text : String) : List String :=
  (chunks text.toList).map fun chunk => String.ofList (dropLineEnd chunk)

/-- Number of bytes of a text in UTF-8. -/
def byteLength (cs : List Char) : Nat := cs.foldr (fun c n => c.utf8Size + n) 0

end StackMachine.Text

namespace StackMachine.Assembly

/-! ## 2. Tokens -/

structure Token where
  text : String
  offset : Nat
deriving DecidableEq, Repr

namespace Token

def isSeparator (c : Char) : Bool := Text.isBlank c || c == ','

def isTokenChar (c : Char) : Bool := !isSeparator c

/-- The part of a line before its comment. -/
def code (line : List Char) : List Char := line.takeWhile (· ≠ '#')

/-- Tokens of a text that starts `start` bytes behind the beginning of its line. -/
def scanFrom (start : Nat) : List Char → List Token
  | [] => []
  | c :: cs =>
    if isSeparator c then
      scanFrom (start + c.utf8Size) cs
    else
      let run := c :: cs.takeWhile isTokenChar
      ⟨String.ofList run, start + 1⟩ ::
        scanFrom (start + Text.byteLength run) (cs.dropWhile isTokenChar)
termination_by cs => cs.length
decreasing_by
  · exact Nat.lt_succ_self _
  · exact Nat.lt_succ_of_le (List.dropWhile_suffix _).length_le

/-- The tokens of a line. -/
def scan (line : String) : List Token := scanFrom 0 (code line.toList)

end Token
end StackMachine.Assembly

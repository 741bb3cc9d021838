import StackMachine.Derive.Display
import StackMachine.Derive.Record

/-!
Generated code, read back from its tokens.

A reader takes tokens off the front of a code. The readers here know the form of an implementation
and answer with what stands in it: the fields that are written and read, the arms with the names
that they bind. Of a name they ask only that it is one token. Main statements: the code of a record
and the code that shows errors are read back whole, under every header.
-/

namespace StackMachine.Derive

open Code

/-! ## 1. Readers -/

/-- Reads something off the front of a code. -/
abbrev CodeReader := StateT Code Option

namespace CodeReader

/-- The next token, whatever it is. -/
def token : CodeReader String
  | [] => none
  | next :: rest => some (next, rest)

/-- Exactly these tokens. -/
def expect (tokens : Code) : CodeReader Unit := fun code =>
  if tokens.isPrefixOf code then some ((), code.drop tokens.length) else none

/-- Repeats a reader until it declines, at most so many times. -/
def repeated {α : Type} (item : CodeReader α) : Nat → CodeReader (List α)
  | 0, code => some ([], code)
  | n + 1, code =>
    match item code with
    | none => some ([], code)
    | some (first, rest) => (repeated item n rest).map fun others => (first :: others.1, others.2)

/-- Items up to the closing tokens. Every item takes a token, so that the length of the code bounds
their number. -/
def many {α : Type} (item : CodeReader α) (closing : Code) : CodeReader (List α) := fun code =>
  StateT.run (do
    let items ← repeated item code.length
    expect closing
    return items) code

/-- What a reader reads if nothing is left behind it. -/
def whole? {α : Type} (reader : CodeReader α) (code : Code) : Option α :=
  match reader code with
  | some (a, []) => some a
  | _ => none

/-- The reader takes the code off the front of whatever it stands in front of, and answers `a`. -/
def Reads {α : Type} (reader : CodeReader α) (code : Code) (a : α) : Prop :=
  ∀ rest, reader (code ++ rest) = some (a, rest)

section

variable {α β ι : Type} {reader : CodeReader α} {code closing : Code} {a : α}

theorem Reads.whole (h : Reads reader code a) : whole? reader code = some a := by
  have hcode := h []
  rw [List.append_nil] at hcode
  rw [whole?, hcode]

theorem reads_token (name : String) : Reads token [name] name := fun _ => rfl

theorem reads_expect (tokens : Code) : Reads (expect tokens) tokens () := by
  intro rest
  have htokens : tokens.isPrefixOf (tokens ++ rest) = true :=
    List.isPrefixOf_iff_prefix.2 (List.prefix_append tokens rest)
  rw [expect, if_pos htokens, List.drop_left]

theorem Reads.bind {next : α → CodeReader β} {second : Code} {b : β} (hfirst : Reads reader code a)
    (hsecond : Reads (next a) second b) : Reads (reader >>= next) (code ++ second) b := by
  intro rest
  show (reader (code ++ second ++ rest)).bind (fun p => next p.1 p.2) = _
  rw [List.append_assoc, hfirst, Option.bind_some, hsecond]

/-- The answer of a reader, used in a last step that reads nothing. -/
theorem Reads.returning {f : α → β} (h : Reads reader code a) :
    Reads (do return f (← reader)) code (f a) := by
  intro rest
  show (reader (code ++ rest)).bind (fun p => some (f p.1, p.2)) = _
  rw [h, Option.bind_some]

variable {item : CodeReader α} {write : ι → Code} {view : ι → α}

theorem repeated_flatMap (hitem : ∀ i, Reads item (write i) (view i)) {rest : Code}
    (hrest : item rest = none) (is : List ι) (n : Nat) (hn : is.length ≤ n) :
    repeated item n (is.flatMap write ++ rest) = some (is.map view, rest) := by
  -- the repetition ends because the item declines what follows, never because `n` is used up
  induction is generalizing n with
  | nil =>
    cases n with
    | zero => rfl
    | succ n =>
      show repeated item (n + 1) rest = some ([], rest)
      rw [repeated, hrest]
  | cons i is ih =>
    cases n with
    | zero => exact absurd hn (Nat.not_succ_le_zero _)
    | succ n =>
      rw [List.flatMap_cons, List.append_assoc, repeated, hitem i]
      simp only [ih n (Nat.le_of_succ_le_succ hn), Option.map_some, List.map_cons]

theorem length_le_flatMap (hwrite : ∀ i, write i ≠ []) (is : List ι) :
    is.length ≤ (is.flatMap write).length := by
  induction is with
  | nil => exact Nat.le_refl 0
  | cons i is ih =>
    have hi : 0 < (write i).length := List.length_pos_iff.2 (hwrite i)
    rw [List.flatMap_cons, List.length_append, List.length_cons]
    omega

theorem reads_many (hitem : ∀ i, Reads item (write i) (view i)) (hwrite : ∀ i, write i ≠ [])
    (hclosing : ∀ rest, item (closing ++ rest) = none) (is : List ι) :
    Reads (many item closing) (is.flatMap write ++ closing) (is.map view) := by
  intro rest
  rw [List.append_assoc]
  have hlength : is.length ≤ (is.flatMap write ++ (closing ++ rest)).length := by
    rw [List.length_append]
    exact Nat.le_trans (length_le_flatMap hwrite is) (Nat.le_add_right _ _)
  show (repeated item _ (is.flatMap write ++ (closing ++ rest))).bind
    (fun p => (expect closing p.2).bind fun q => some (p.1, q.2)) = _
  rw [repeated_flatMap hitem (hclosing rest) is _ hlength, Option.bind_some,
    reads_expect closing rest]
  rfl

theorem bind_declines {next : α → CodeReader β} (h : reader code = none) :
    (reader >>= next) code = none := by
  show (reader code).bind (fun p => next p.1 p.2) = none
  rw [h, Option.bind_none]

theorem Reads.bind_declines {next : α → CodeReader β} {rest : Code} (h : Reads reader code a)
    (hnext : next a rest = none) :
    (reader >>= next) (code ++ rest) = none := by
  show (reader (code ++ rest)).bind (fun p => next p.1 p.2) = none
  rw [h, Option.bind_some, hnext]

theorem expect_declines {tokens : Code} {first other : String} (htokens : tokens.head? = some first)
    (hcode : code.head? = some other) (hne : first ≠ other) : expect tokens code = none := by
  obtain ⟨tokens', rfl⟩ := List.head?_eq_some_iff.1 htokens
  obtain ⟨code', rfl⟩ := List.head?_eq_some_iff.1 hcode
  have hfalse : (first :: tokens').isPrefixOf (other :: code') = false := by
    rw [List.isPrefixOf_cons_cons, beq_false_of_ne hne, Bool.false_and]
  rw [expect, hfalse, if_neg Bool.false_ne_true]

end

end CodeReader

/-! ## 2. Records -/

/-- The code of an implementation up to its body. -/
def Header.opening (h : Header) (trait : Code) : Code :=
  ["impl"] ++ parameterList Parameter.declaration h.parameters ++ trait ++ ["for", h.name] ++
    parameterList Parameter.use h.parameters ++ whereClause h.predicates ++ ["\x7b"]

theorem Header.implementation_eq (h : Header) (trait body : Code) :
    h.implementation trait body = h.opening trait ++ (body ++ ["\x7d"]) := by
  simp only [implementation, opening, braces, List.append_assoc]

/-- What the code of a record says. -/
structure RecordCode where
  /-- The type parameter of the writer. -/
  sink : String
  /-- The fields that the writer writes, one statement each. -/
  written : List String
  /-- The fields that the reader fills in, one initialiser each. -/
  initialised : List String
deriving DecidableEq, Repr

namespace CodeReader

/-- A statement that writes a field. -/
def writeStatement : CodeReader String := do
  expect (words "crate : : types : : encoding : : Encode : : encode ( & self .")
  let name ← token
  expect [",", "out", ")", ";"]
  return name

/-- An initialiser that reads a field. -/
def initialiser : CodeReader String := do
  let name ← token
  expect (words ": crate : : types : : encoding : : Decode : : decode ( input ) ? ,")
  return name

/-- The two implementations of a record under a header. -/
def record (h : Header) : CodeReader RecordCode := do
  expect (h.opening (words "crate : : types : : encoding : : Encode"))
  expect ["fn", "encode", "<"]
  let sink ← token
  expect (words ": crate : : types : : encoding : : EncodeSink > ( & self , out : & mut")
  expect [sink, ")", "\x7b"]
  let written ← many writeStatement ["\x7d", "\x7d"]
  expect (h.opening (words "crate : : types : : encoding : : Decode"))
  expect (words "fn decode ( input : & mut & [ u8 ] , ) - > : : std : : result : : Result <")
  expect (words "Self , crate : : types : : encoding : : DecodeError > \x7b Ok ( Self \x7b")
  let initialised ← many initialiser ["\x7d", ")", "\x7d", "\x7d"]
  return ⟨sink, written, initialised⟩

theorem words_encode : words "crate : : types : : encoding : : Encode : : encode ( & self ." =
    codecPath ["Encode", "encode"] ++ ["(", "&", "self", "."] := by decide +kernel

theorem words_decode : words ": crate : : types : : encoding : : Decode : : decode ( input ) ? ," =
    ":" :: (codecPath ["Decode", "decode"] ++ ["(", "input", ")", "?", ","]) := by decide +kernel

theorem reads_writeStatement (name : String) : Reads writeStatement (encodeField name) name := by
  have hcode : encodeField name = (codecPath ["Encode", "encode"] ++ ["(", "&", "self", "."]) ++
      ([name] ++ [",", "out", ")", ";"]) := by rfl
  rw [hcode, ← words_encode]
  exact (reads_expect _).bind ((reads_token name).bind (reads_expect _).returning)

theorem reads_initialiser (name : String) : Reads initialiser (decodeField name) name := by
  have hcode : decodeField name =
      [name] ++ ":" :: (codecPath ["Decode", "decode"] ++ ["(", "input", ")", "?", ","]) := by
    rfl
  rw [hcode, ← words_decode]
  exact (reads_token name).bind (reads_expect _).returning

theorem writeStatement_declines (rest : Code) :
    writeStatement (["\x7d", "\x7d"] ++ rest) = none := by
  apply bind_declines
  rw [words_encode]
  exact expect_declines rfl rfl (by decide : "crate" ≠ "\x7d")

theorem initialiser_declines (rest : Code) :
    initialiser (["\x7d", ")", "\x7d", "\x7d"] ++ rest) = none := by
  have hcall : expect (words ": crate : : types : : encoding : : Decode : : decode ( input ) ? ,")
      ([")", "\x7d", "\x7d"] ++ rest) = none := by
    rw [words_decode]
    exact expect_declines rfl rfl (by decide : ":" ≠ ")")
  exact (reads_token _).bind_declines (bind_declines hcall)

theorem reads_record (r : RecordImpl) :
    Reads (record r.header) r.code ⟨sinkParameter, r.encoded, r.decoded⟩ := by
  -- the code is put together from shorter phrases than the reader expects
  have hsink : words ": crate : : types : : encoding : : EncodeSink > ( & self , out : & mut" =
      [":"] ++ codecPath ["EncodeSink"] ++ [">", "("] ++ words "& self , out : & mut" := by
    decide +kernel
  have hresult :
      words "fn decode ( input : & mut & [ u8 ] , ) - > : : std : : result : : Result <" =
      words "fn decode" ++ ["("] ++ words "input : & mut & [ u8 ] ," ++ [")"] ++ words "- >" ++
        rootPath ["std", "result", "Result"] ++ ["<"] := by decide +kernel
  have hself : words "Self , crate : : types : : encoding : : DecodeError > \x7b Ok ( Self \x7b" =
      words "Self ," ++ codecPath ["DecodeError"] ++ [">", "\x7b", "Ok", "(", "Self", "\x7b"] := by
    decide +kernel
  have hencode : words "crate : : types : : encoding : : Encode" = codecPath ["Encode"] := by
    decide +kernel
  have hdecode : words "crate : : types : : encoding : : Decode" = codecPath ["Decode"] := by
    decide +kernel
  have hname : words "fn encode" = ["fn", "encode"] := by decide +kernel
  -- the code, cut where the steps of the reader end
  have hcode : r.code = r.header.opening (words "crate : : types : : encoding : : Encode") ++
      (["fn", "encode", "<"] ++ ([sinkParameter] ++
        (words ": crate : : types : : encoding : : EncodeSink > ( & self , out : & mut" ++
          ([sinkParameter, ")", "\x7b"] ++ ((r.encoded.flatMap encodeField ++ ["\x7d", "\x7d"]) ++
            (r.header.opening (words "crate : : types : : encoding : : Decode") ++ (words
                "fn decode ( input : & mut & [ u8 ] , ) - > : : std : : result : : Result <" ++
              (words "Self , crate : : types : : encoding : : DecodeError > \x7b Ok ( Self \x7b" ++
                (r.decoded.flatMap decodeField ++ ["\x7d", ")", "\x7d", "\x7d"]))))))))) := by
    rw [hsink, hresult, hself, hencode, hdecode]
    simp only [RecordImpl.code, Header.implementation_eq, angles, parens, braces, hname,
      List.append_assoc, List.cons_append, List.nil_append]
  have hwritten := reads_many reads_writeStatement
    (fun name => List.append_ne_nil_of_right_ne_nil _ (List.cons_ne_nil _ _))
    writeStatement_declines r.encoded
  have hinitialised :=
    reads_many reads_initialiser (fun name => List.cons_ne_nil _ _) initialiser_declines r.decoded
  rw [List.map_id'] at hwritten hinitialised
  rw [hcode]
  exact (reads_expect _).bind ((reads_expect _).bind ((reads_token _).bind ((reads_expect _).bind
    ((reads_expect _).bind (hwritten.bind ((reads_expect _).bind
      ((reads_expect _).bind ((reads_expect _).bind hinitialised.returning))))))))

end CodeReader

/-! ## 3. Arms -/

/-- What the code of an arm says. -/
structure ArmCode where
  variant : String
  form : PatternForm
  /-- The names that the pattern binds. -/
  bound : List String
  /-- What the message is written to. -/
  target : String
  /-- The message, a literal. -/
  literal : String
  /-- The arguments behind the message: a name and what it stands for. -/
  arguments : List (String × String)
deriving DecidableEq, Repr

namespace CodeReader

/-- Names with commas between them, and the closing token. -/
def names (closing : String) : CodeReader (List String)
  | name :: next :: rest =>
    if next = "," then (names closing rest).map fun others => (name :: others.1, others.2)
    else if next = closing then some ([name], rest)
    else none
  | _ => none

/-- The bindings of a pattern, the closing token and the arrow. -/
def bindings (closing : String) : CodeReader (List String) := fun code =>
  if [closing, "=", ">"].isPrefixOf code then some ([], code.drop 3)
  else StateT.run (do
    let bound ← names closing
    expect ["=", ">"]
    return bound) code

/-- A pattern and the arrow. -/
def pattern : CodeReader (PatternForm × List String)
  | "(" :: rest => (bindings ")" rest).map fun p => ((.tuple, p.1), p.2)
  | "\x7b" :: rest => (bindings "\x7d" rest).map fun p => ((.named, p.1), p.2)
  | code => StateT.run (do
    expect ["=", ">"]
    return (.unit, [])) code

/-- Named arguments with commas between them, and the closing bracket. -/
def namedArguments : CodeReader (List (String × String))
  | name :: equals :: value :: next :: rest =>
    if equals ≠ "=" then none
    else if next = "," then
      (namedArguments rest).map fun others => ((name, value) :: others.1, others.2)
    else if next = ")" then some ([(name, value)], rest)
    else none
  | _ => none

/-- What follows the message of an arm: perhaps a comma, perhaps named arguments behind it, then a
bracket and a comma. -/
def arguments : CodeReader (List (String × String)) := fun code =>
  if [")", ","].isPrefixOf code then some ([], code.drop 2)
  else if [",", ")", ","].isPrefixOf code then some ([], code.drop 3)
  else StateT.run (do
    expect [","]
    let named ← namedArguments
    expect [","]
    return named) code

def arm : CodeReader ArmCode := do
  expect ["Self", ":", ":"]
  let variant ← token
  let shape ← pattern
  expect ["write", "!", "("]
  let target ← token
  expect [","]
  let literal ← token
  let named ← arguments
  return ⟨variant, shape.1, shape.2, target, literal, named⟩

end CodeReader

/-- What the code that shows errors says. -/
structure DisplayCode where
  /-- The parameter that receives the text. -/
  formatter : String
  arms : List ArmCode
deriving DecidableEq, Repr

namespace CodeReader

/-- What stands between the formatter of the generated function and the arms of its match. -/
def matchOpening : Code :=
  words ": & mut : : std : : fmt : : Formatter < '_ > )" ++
    words "- > : : std : : fmt : : Result \x7b match self \x7b"

/-- The two implementations that show errors under a header. -/
def display (h : Header) : CodeReader DisplayCode := do
  expect (h.opening (words ": : std : : fmt : : Display"))
  expect ["fn", "fmt", "(", "&", "self", ","]
  let formatter ← token
  expect matchOpening
  let arms ← many arm ["\x7d", "\x7d", "\x7d"]
  expect (h.opening (words ": : std : : error : : Error"))
  expect ["\x7d"]
  return ⟨formatter, arms⟩

end CodeReader

/-- The names that the pattern of an arm binds. -/
def Arm.bound (arm : Arm) : List String := if arm.form = .unit then [] else arm.bindings

/-- What the code of an arm says. -/
def Arm.read (arm : Arm) : ArmCode :=
  ⟨arm.variant, arm.form, arm.bound, formatter, Text.quote arm.message,
    arm.bound.map fun name => (name, name)⟩

theorem commaSeparated_cons (first second : Code) (parts : List Code) :
    commaSeparated (first :: second :: parts) =
      first ++ ([","] ++ commaSeparated (second :: parts)) := by
  rw [commaSeparated, List.intercalate_cons_cons, List.append_assoc]
  rfl

namespace CodeReader

variable {closing : String}

theorem reads_names (hcomma : closing ≠ ",") (name : String) (others : List String) :
    Reads (names closing) (commaSeparated ((name :: others).map fun name => [name]) ++ [closing])
      (name :: others) := by
  induction others generalizing name with
  | nil =>
    intro rest
    show names closing (name :: closing :: rest) = _
    rw [names, if_neg hcomma, if_pos rfl]
  | cons second others ih =>
    intro rest
    have hcode :
        commaSeparated ((name :: second :: others).map fun name => [name]) ++ [closing] ++ rest =
        name :: "," ::
          (commaSeparated ((second :: others).map fun name => [name]) ++ [closing] ++ rest) := by
      rw [List.map_cons, List.map_cons, commaSeparated_cons]
      rfl
    rw [hcode, names, if_pos rfl, ih second rest]
    rfl

/-- The token behind the first of some names. -/
theorem exists_second (hequals : closing ≠ "=") (name : String) (others : List String)
    (rest : Code) :
    ∃ second tail, second ≠ "=" ∧
      commaSeparated ((name :: others).map fun name => [name]) ++ (closing :: rest) =
        name :: second :: tail := by
  cases others with
  | nil => exact ⟨closing, rest, hequals, rfl⟩
  | cons second others =>
    refine ⟨",", commaSeparated ((second :: others).map fun name => [name]) ++ closing :: rest,
      by decide, ?_⟩
    rw [List.map_cons, List.map_cons, commaSeparated_cons]
    rfl

theorem reads_bindings (hcomma : closing ≠ ",") (hequals : closing ≠ "=") (bound : List String) :
    Reads (bindings closing)
      (commaSeparated (bound.map fun name => [name]) ++ [closing] ++ ["=", ">"]) bound := by
  cases bound with
  | nil =>
    intro rest
    have harrow : [closing, "=", ">"].isPrefixOf (closing :: "=" :: ">" :: rest) = true :=
      List.isPrefixOf_iff_prefix.2 (List.prefix_append [closing, "=", ">"] rest)
    show bindings closing (closing :: "=" :: ">" :: rest) = _
    rw [bindings, if_pos harrow]
    rfl
  | cons name others =>
    intro rest
    -- a closing token that is a name is not followed by the arrow
    have harrow : [closing, "=", ">"].isPrefixOf
        (commaSeparated ((name :: others).map fun name => [name]) ++ [closing] ++ ["=", ">"] ++
            rest) = false := by
      obtain ⟨second, tail, hsecond, hcode⟩ :=
        exists_second hequals name others ("=" :: ">" :: rest)
      rw [List.append_assoc, List.append_assoc]
      show List.isPrefixOf _ (_ ++ closing :: "=" :: ">" :: rest) = false
      rw [hcode, List.isPrefixOf_cons_cons, List.isPrefixOf_cons_cons, beq_false_of_ne hsecond.symm,
        Bool.false_and, Bool.and_false]
    rw [bindings, harrow, if_neg Bool.false_ne_true]
    exact (reads_names hcomma name others).bind (reads_expect _).returning rest

theorem reads_pattern (a : Arm) : Reads pattern (a.pattern ++ ["=", ">"]) (a.form, a.bound) := by
  obtain ⟨variant, form, names, message⟩ := a
  cases form with
  | unit => exact fun rest => rfl
  | tuple =>
    intro rest
    have hcode : Arm.pattern ⟨variant, .tuple, names, message⟩ ++ ["=", ">"] ++ rest =
        "(" :: (commaSeparated (names.map fun name => [name]) ++ [")"] ++ ["=", ">"] ++ rest) := by
      rfl
    rw [hcode, pattern, reads_bindings (by decide) (by decide) names rest]
    rfl
  | named =>
    intro rest
    have hcode : Arm.pattern ⟨variant, .named, names, message⟩ ++ ["=", ">"] ++ rest =
        "\x7b" :: (commaSeparated (names.map fun name => [name]) ++ ["\x7d"] ++ ["=", ">"] ++
          rest) := by
      rfl
    rw [hcode, pattern, reads_bindings (by decide) (by decide) names rest]
    rfl

theorem reads_namedArguments (name : String) (others : List String) :
    Reads namedArguments (commaSeparated
      ((name :: others).map fun name => [name, "=", name]) ++ [")"])
      ((name :: others).map fun name => (name, name)) := by
  induction others generalizing name with
  | nil =>
    intro rest
    show namedArguments (name :: "=" :: name :: ")" :: rest) = _
    rw [namedArguments, if_neg (fun h => h rfl), if_neg (by decide), if_pos rfl]
    rfl
  | cons second others ih =>
    intro rest
    have hcode : commaSeparated ((name :: second :: others).map fun name => [name, "=", name]) ++
        [")"] ++ rest =
        name :: "=" :: name :: "," ::
          (commaSeparated ((second :: others).map fun name => [name, "=", name]) ++ [")"] ++
            rest) := by
      rw [List.map_cons, List.map_cons, commaSeparated_cons]
      rfl
    rw [hcode, namedArguments, if_neg (fun h => h rfl), if_pos rfl, ih second rest]
    rfl

theorem reads_arguments (a : Arm) :
    Reads arguments (a.arguments ++ [")", ","]) (a.bound.map fun name => (name, name)) := by
  obtain ⟨variant, form, names, message⟩ := a
  by_cases hunit : form = .unit
  · subst hunit
    exact fun rest => rfl
  · have hbound : Arm.bound ⟨variant, form, names, message⟩ = names := if_neg hunit
    have harguments : Arm.arguments ⟨variant, form, names, message⟩ ++ [")", ","] =
        [","] ++ ((commaSeparated (names.map fun name =>
          [name, "=", name]) ++ [")"]) ++ [","]) := by
      rw [List.append_assoc]
      cases form with
      | unit => exact absurd rfl hunit
      | tuple | named => rfl
    rw [hbound, harguments]
    cases names with
    | nil => exact fun rest => rfl
    | cons name others =>
      intro rest
      -- a name that is a bracket is still followed by an equals sign and not by a comma
      obtain ⟨tail, htail⟩ :
          ∃ tail, commaSeparated ((name :: others).map fun name => [name, "=", name]) =
            name :: "=" :: tail := by
        cases others with
        | nil => exact ⟨_, rfl⟩
        | cons second others =>
          rw [List.map_cons, List.map_cons, commaSeparated_cons]
          exact ⟨_, rfl⟩
      have hempty : [",", ")", ","].isPrefixOf ([","] ++ ((commaSeparated
          ((name :: others).map fun name => [name, "=", name]) ++ [")"]) ++ [","]) ++
          rest) = false := by
        rw [htail]
        show ("," == "," && (")" == name && ("," == "=" && true))) = false
        rw [show ("," == "=") = false by rfl, Bool.false_and, Bool.and_false, Bool.and_false]
      rw [arguments, hempty, if_neg Bool.false_ne_true]
      exact (reads_expect [","]).bind
        ((reads_namedArguments name others).bind (reads_expect [","]).returning) rest

theorem reads_arm (a : Arm) : Reads arm a.code a.read := by
  have hcode : a.code = ["Self", ":", ":"] ++
      ([a.variant] ++ ((a.pattern ++ ["=", ">"]) ++ (["write", "!", "("] ++
        ([formatter] ++ ([","] ++ ([Text.quote a.message] ++ (a.arguments ++ [")", ","]))))))) := by
    have hpath : path ["Self", a.variant] = ["Self", ":", ":", a.variant] := by rfl
    simp only [Arm.code, hpath, parens, List.append_assoc, List.cons_append, List.nil_append]
  rw [hcode]
  exact (reads_expect _).bind ((reads_token _).bind ((reads_pattern a).bind ((reads_expect _).bind
    ((reads_token _).bind ((reads_expect _).bind
      ((reads_token _).bind (reads_arguments a).returning))))))

theorem arm_declines (rest : Code) : arm (["\x7d", "\x7d", "\x7d"] ++ rest) = none :=
  bind_declines (expect_declines rfl rfl (by decide : "Self" ≠ "\x7d"))

theorem reads_display (d : DisplayImpl) :
    Reads (display d.header) d.code ⟨formatter, d.arms.map Arm.read⟩ := by
  have hdisplay : words ": : std : : fmt : : Display" = rootPath ["std", "fmt", "Display"] := by
    decide +kernel
  have herror : words ": : std : : error : : Error" = rootPath ["std", "error", "Error"] := by
    decide +kernel
  have hmatch :
      matchOpening =
        words ": & mut" ++ rootPath ["std", "fmt", "Formatter"] ++ ["<", "'_", ">", ")"] ++
          words "- >" ++ rootPath ["std", "fmt", "Result"] ++ ["\x7b"] ++ words "match self" ++
          ["\x7b"] := by
    decide +kernel
  have hname : words "fn fmt" = ["fn", "fmt"] := by decide +kernel
  have hself : words "& self ," = ["&", "self", ","] := by decide +kernel
  -- the code, cut where the steps of the reader end
  have hcode :
      d.code = d.header.opening (words ": : std : : fmt : : Display") ++
        (["fn", "fmt", "(", "&", "self", ","] ++ ([formatter] ++ (matchOpening ++
          ((d.arms.flatMap Arm.code ++ ["\x7d", "\x7d", "\x7d"]) ++
            (d.header.opening (words ": : std : : error : : Error") ++ ["\x7d"]))))) := by
    rw [hdisplay, herror, hmatch]
    simp only [DisplayImpl.code, Header.implementation_eq, angles, parens, braces, hname, hself,
      List.append_assoc, List.cons_append, List.nil_append]
  have harms := reads_many reads_arm
    (fun a => List.append_ne_nil_of_right_ne_nil _ (List.cons_ne_nil _ _)) arm_declines d.arms
  rw [hcode]
  exact (reads_expect _).bind ((reads_expect _).bind ((reads_token _).bind
    ((reads_expect _).bind (harms.bind ((reads_expect _).bind (reads_expect _).returning)))))

end CodeReader
end StackMachine.Derive

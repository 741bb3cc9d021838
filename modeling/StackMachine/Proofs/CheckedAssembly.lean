import StackMachine.Proofs.ImageFormat
import StackMachine.Proofs.TokenPlaces

/-!
Assembly by positions, with a check in front of every operation that has an answer for some
arguments only: slices between two byte positions, entries of a list, differences of counts. The
checks of the checked assembler and of the checked reader of images hold for every input, and the
answers are those of `assemble` and `Program.ofImage`.
-/

namespace StackMachine

/-- An operation was used where it has no answer. -/
inductive Slip where
  /-- A slice ends before it starts. -/
  | inverted (start stop : Nat)
  /-- A position lies behind the end, by so many places. -/
  | outside (excess : Nat)
  /-- A position lies inside of a character, so many bytes behind the first one. -/
  | inside (offset : Nat)
  /-- A list has no entry of that number. -/
  | noEntry (index size : Nat)
  /-- A count would fall below zero. -/
  | belowZero (minuend subtrahend : Nat)
  /-- A count would exceed the largest one. -/
  | aboveCount (count : Nat)
  /-- The instruction pointer would wrap. -/
  | wraps (ip : Word)
  | breach (cause : Breach)
deriving DecidableEq, Repr

namespace Checked

open Assembly

/-! ## 1. Operations with a check -/

section

variable {α : Type} (width : α → Nat)

/-- Number of positions that the entries of a list take up together. -/
def extent (as : List α) : Nat := as.foldr (fun a n => width a + n) 0

/-- Cuts a list at a position, which has to be the first one of an entry or the end. -/
def cut : List α → (position : Nat) → Except Slip (List α × List α)
  | as, 0 => .ok ([], as)
  | [], position + 1 => .error (.outside (position + 1))
  | a :: as, position + 1 =>
    if width a ≤ position + 1 then
      (cut as (position + 1 - width a)).map fun (front, back) => (a :: front, back)
    else
      .error (.inside (position + 1))

/-- The entries between two positions. -/
def slice (as : List α) (start stop : Nat) : Except Slip (List α) :=
  if start ≤ stop then do
    let (front, _) ← cut width as stop
    let (_, middle) ← cut width front start
    return middle
  else
    .error (.inverted start stop)

end

/-- A part of a text, by byte positions. -/
abbrev sliceText (text : List Char) (start stop : Nat) : Except Slip (List Char) :=
  slice Char.utf8Size text start stop

def entry {α : Type} (as : List α) (i : Nat) : Except Slip α :=
  match as[i]? with
  | some a => .ok a
  | none => .error (.noEntry i as.length)

/-- An entry, and the list without it. -/
def takeOut {α : Type} (as : List α) (i : Nat) : Except Slip (α × List α) :=
  (entry as i).map (·, as.eraseIdx i)

def minus (m n : Nat) : Except Slip Nat := if n ≤ m then .ok (m - n) else .error (.belowZero m n)

/-- Computations that may slip, and that may find a fault in their input. -/
abbrev Attempt := ExceptT Fault (Except Slip)

/-- An answer that was found without a slip. -/
def settled {α : Type} (answer : Except Fault α) : Attempt α := ExceptT.mk (.ok answer)

/-- An operation with a check, as a part of a computation. -/
def attempt {α : Type} (result : Except Slip α) : Attempt α := ExceptT.lift result

/-! ## 2. Slices -/

section

variable {α : Type} {width : α → Nat}

theorem extent_append (as bs : List α) :
    extent width (as ++ bs) = extent width as + extent width bs := by
  induction as with
  | nil => exact (Nat.zero_add _).symm
  | cons a as ih =>
    show width a + extent width (as ++ bs) = width a + extent width as + extent width bs
    rw [ih, Nat.add_assoc]

theorem cut_extent (hpos : ∀ a, 0 < width a) (front back : List α) :
    cut width (front ++ back) (extent width front) = .ok (front, back) := by
  induction front with
  | nil => cases back <;> rfl
  | cons a front ih =>
    have hextent : extent width (a :: front) = width a + extent width front := rfl
    obtain ⟨n, hn⟩ : ∃ n, width a = n + 1 := Nat.exists_eq_add_one.2 (hpos a)
    have hposition : extent width (a :: front) = n + extent width front + 1 := by omega
    have hrest : n + extent width front + 1 - width a = extent width front := by omega
    rw [hposition, List.cons_append, cut, if_pos (by omega), hrest, ih]
    rfl

/-- A list can be cut where one of its initial parts ends, and nowhere else. -/
theorem cut_eq_ok_iff (hpos : ∀ a, 0 < width a) {as front back : List α} {position : Nat} :
    cut width as position = .ok (front, back) ↔
      as = front ++ back ∧ position = extent width front := by
  constructor
  · intro h
    induction as generalizing position front with
    | nil =>
      cases position with
      | zero =>
        cases h
        exact ⟨rfl, rfl⟩
      | succ n => cases h
    | cons a as ih =>
      cases position with
      | zero =>
        cases h
        exact ⟨rfl, rfl⟩
      | succ n =>
        rw [cut] at h
        by_cases hwide : width a ≤ n + 1
        · rw [if_pos hwide] at h
          cases hcut : cut width as (n + 1 - width a) with
          | error slip =>
            rw [hcut] at h
            cases h
          | ok parts =>
            rw [hcut] at h
            cases h
            obtain ⟨rfl, hrest⟩ := ih hcut
            refine ⟨rfl, ?_⟩
            show n + 1 = width a + extent width parts.1
            omega
        · rw [if_neg hwide] at h
          cases h
  · rintro ⟨rfl, rfl⟩
    exact cut_extent hpos front back

/-- A slice exists exactly if it starts and ends where initial parts end. -/
theorem slice_eq_ok_iff (hpos : ∀ a, 0 < width a) {as middle : List α} {start stop : Nat} :
    slice width as start stop = .ok middle ↔
      ∃ before after, as = before ++ middle ++ after ∧ start = extent width before ∧
        stop = extent width (before ++ middle) := by
  constructor
  · intro h
    rw [slice] at h
    by_cases horder : start ≤ stop
    · rw [if_pos horder] at h
      cases hstop : cut width as stop with
      | error slip =>
        rw [hstop] at h
        cases h
      | ok parts =>
        rw [hstop] at h
        change (cut width parts.1 start >>= fun parts => pure parts.2) = .ok middle at h
        cases hstart : cut width parts.1 start with
        | error slip =>
          rw [hstart] at h
          cases h
        | ok parts' =>
          rw [hstart] at h
          cases h
          obtain ⟨rfl, rfl⟩ := (cut_eq_ok_iff hpos).1 hstop
          obtain ⟨hfront, rfl⟩ := (cut_eq_ok_iff hpos).1 hstart
          exact ⟨parts'.1, parts.2, by rw [hfront], rfl, by rw [hfront]⟩
    · rw [if_neg horder] at h
      cases h
  · rintro ⟨before, after, rfl, rfl, rfl⟩
    have horder : extent width before ≤ extent width (before ++ middle) := by
      rw [extent_append]
      exact Nat.le_add_right _ _
    rw [slice, if_pos horder, cut_extent hpos]
    change (cut width (before ++ middle) (extent width before) >>= fun parts => pure parts.2) = _
    rw [cut_extent hpos]
    rfl

theorem extent_one (as : List α) : extent (fun _ => 1) as = as.length := by
  induction as with
  | nil => rfl
  | cons a as ih =>
    show 1 + extent (fun _ => 1) as = as.length + 1
    omega

theorem slice_of_le {as : List α} {start length : Nat} (h : start + length ≤ as.length) :
    slice (fun _ => 1) as start (start + length) = .ok ((as.drop start).take length) := by
  apply (slice_eq_ok_iff fun _ => Nat.one_pos).2
  refine ⟨as.take start, (as.drop start).drop length, ?_, ?_, ?_⟩
  · rw [List.append_assoc, List.take_append_drop, List.take_append_drop]
  · rw [extent_one, List.length_take]
    omega
  · rw [extent_one, List.length_append, List.length_take, List.length_take, List.length_drop]
    omega

end

theorem sliceText_byteLength (before middle after : List Char) :
    sliceText (before ++ middle ++ after) (Text.byteLength before)
        (Text.byteLength (before ++ middle)) =
      .ok middle :=
  (slice_eq_ok_iff Char.utf8Size_pos).2 ⟨before, after, rfl, rfl, rfl⟩

-- a text cannot be cut between the two bytes of a letter
example :
    sliceText ['a', 'é', ':'] 1 3 = .ok ['é'] ∧
    sliceText ['a', 'é', ':'] 1 2 = .error (.inside 1) := by
  decide

/-! ## 3. Lines by positions -/

structure Scan where
  tokens : List Token
  /-- The first byte of the token that has not ended yet. -/
  start : Option Nat

/-- Ends the open token at a position. -/
def Scan.close (text : List Char) (stop : Nat) : Scan → Except Slip Scan
  | ⟨tokens, none⟩ => .ok ⟨tokens, none⟩
  | ⟨tokens, some start⟩ => do
    let token ← sliceText text start stop
    return ⟨tokens ++ [⟨String.ofList token, start + 1⟩], none⟩

def Scan.read (text : List Char) (scan : Scan) (place : Nat × Char) : Except Slip Scan :=
  if Token.isSeparator place.2 then scan.close text place.1
  else .ok { scan with start := scan.start.or (some place.1) }

/-- The characters of a text, each with the position of its first byte. -/
def places (start : Nat) : List Char → List (Nat × Char)
  | [] => []
  | c :: cs => (start, c) :: places (start + c.utf8Size) cs

/-- Reads the characters that are left, and ends the token that is open behind the last one. -/
def Scan.finish (text : List Char) : Scan → List (Nat × Char) → Except Slip Scan
  | scan, [] => scan.close text (Text.byteLength text)
  | scan, place :: rest => do
    let next ← scan.read text place
    next.finish text rest

def scan (line : String) : Except Slip (List Token) :=
  let text := Token.code line.toList
  (Scan.finish text ⟨[], none⟩ (places 0 text)).map Scan.tokens

def definesLabel (token : String) : Bool :=
  token.toList.getLast? = some ':' ∧ 1 < token.utf8ByteSize

/-- The text before the last byte. -/
def labelName (token : String) : Except Slip String := do
  let stop ← minus token.utf8ByteSize 1
  let name ← sliceText token.toList 0 stop
  return String.ofList name

/-- Where the open token starts, when `before ++ run` has been read and `run` is what it holds so
far. -/
def opened (before run : List Char) : Option Nat :=
  if run.isEmpty then none else some (Text.byteLength before)

/-- The token that `run` becomes when it is closed. -/
def closing (before run : List Char) : List Token :=
  if run.isEmpty then [] else [⟨String.ofList run, Text.byteLength before + 1⟩]

theorem scanFrom_run {start : Nat} {run rest : List Char} (hne : run ≠ [])
    (hrun : ∀ c ∈ run, Token.isSeparator c = false)
    (hrest : ∀ c ∈ rest.head?, Token.isSeparator c = true) :
    Token.scanFrom start (run ++ rest) =
      ⟨String.ofList run, start + 1⟩ :: Token.scanFrom (start + Text.byteLength run) rest := by
  cases run with
  | nil => exact absurd rfl hne
  | cons d ds =>
    have htoken : ∀ c ∈ ds, Token.isTokenChar c = true := by
      intro c hc
      rw [Token.isTokenChar, hrun c (List.mem_cons_of_mem d hc)]
      rfl
    -- the run ends where the text does, or at a separator
    have hstop :
        rest.takeWhile Token.isTokenChar = [] ∧ rest.dropWhile Token.isTokenChar = rest := by
      cases rest with
      | nil => exact ⟨rfl, rfl⟩
      | cons c cs =>
        have hc : Token.isTokenChar c = false := by
          rw [Token.isTokenChar, hrest c rfl]
          rfl
        rw [List.takeWhile_cons, List.dropWhile_cons, hc]
        exact ⟨rfl, rfl⟩
    have hhead : ¬ Token.isSeparator d = true := by
      rw [hrun d List.mem_cons_self]
      decide
    rw [List.cons_append, Token.scanFrom, if_neg hhead, List.takeWhile_append_of_pos htoken,
      List.dropWhile_append_of_pos htoken, hstop.1, hstop.2, List.append_nil]

theorem scanFrom_closing {before run : List Char} (hrun : ∀ c ∈ run, Token.isSeparator c = false)
    {rest : List Char} (hrest : ∀ c ∈ rest.head?, Token.isSeparator c = true) :
    Token.scanFrom (Text.byteLength before) (run ++ rest) =
      closing before run ++ Token.scanFrom (Text.byteLength (before ++ run)) rest := by
  rw [Grammar.byteLength_append]
  cases run with
  | nil => rfl
  | cons d ds => exact scanFrom_run (List.cons_ne_nil d ds) hrun hrest

theorem close_opened (tokens : List Token) (before run after : List Char) :
    Scan.close (before ++ run ++ after) (Text.byteLength (before ++ run))
      ⟨tokens, opened before run⟩ =
      .ok ⟨tokens ++ closing before run, none⟩ := by
  cases run with
  | nil =>
    show Except.ok (⟨tokens, none⟩ : Scan) = .ok ⟨tokens ++ [], none⟩
    rw [List.append_nil]
  | cons d ds =>
    show (do let token ← sliceText (before ++ (d :: ds) ++ after) _ _; return _) = _
    rw [sliceText_byteLength]
    rfl

/-- From any place in a text, the scan goes on to find the tokens that are left. The run of
characters before the place belongs to the first of them. -/
theorem finish_opened (tokens : List Token) (before run rest : List Char)
    (hrun : ∀ c ∈ run, Token.isSeparator c = false) :
    Scan.finish (before ++ run ++ rest) ⟨tokens, opened before run⟩
      (places (Text.byteLength (before ++ run)) rest) =
      .ok ⟨tokens ++ Token.scanFrom (Text.byteLength before) (run ++ rest), none⟩ := by
  induction rest generalizing tokens before run with
  | nil =>
    have hclose := close_opened tokens before run []
    rw [scanFrom_closing hrun (fun c hc => by cases hc), Token.scanFrom, List.append_nil]
    rw [List.append_nil] at hclose ⊢
    exact hclose
  | cons c cs ih =>
    have hnext :
        Text.byteLength (before ++ run) + c.utf8Size = Text.byteLength (before ++ run ++ [c]) := by
      rw [Grammar.byteLength_append (before ++ run)]
      rfl
    have hregroup : before ++ run ++ c :: cs = before ++ run ++ [c] ++ cs := by
      rw [List.append_assoc _ [c]]
      rfl
    rw [places, hnext, Scan.finish]
    cases hc : Token.isSeparator c with
    | true =>
      -- the separator closes the run, and the scan goes on behind it with no token open
      have hread : Scan.read (before ++ run ++ c :: cs) ⟨tokens, opened before run⟩
          (Text.byteLength (before ++ run), c) =
          .ok ⟨tokens ++ closing before run, none⟩ := by
        rw [Scan.read, if_pos hc]
        exact close_opened tokens before run (c :: cs)
      have hrest :=
        ih (tokens ++ closing before run) (before ++ run ++ [c]) [] (fun d hd => by cases hd)
      rw [List.append_nil] at hrest
      rw [hread, hregroup, scanFrom_closing hrun (fun d hd => by cases hd; exact hc),
        Token.scanFrom, if_pos hc, hnext, ← List.append_assoc tokens]
      exact hrest
    | false =>
      have hread : Scan.read (before ++ run ++ c :: cs) ⟨tokens, opened before run⟩
          (Text.byteLength (before ++ run), c) =
          .ok ⟨tokens, opened before (run ++ [c])⟩ := by
        rw [Scan.read, if_neg (by rw [hc]; decide)]
        cases run with
        | nil => rw [List.append_nil]; rfl
        | cons d ds => rfl
      have hlonger : ∀ d ∈ run ++ [c], Token.isSeparator d = false := by
        intro d hd
        obtain hd | hd := List.mem_append.1 hd
        · exact hrun d hd
        · rw [List.mem_singleton.1 hd]
          exact hc
      have hrest := ih tokens before (run ++ [c]) hlonger
      rw [← List.append_assoc before, List.append_assoc run] at hrest
      rw [hread, hregroup]
      exact hrest

theorem scan_eq (line : String) : scan line = .ok (Token.scan line) := by
  have hscan := finish_opened [] [] [] (Token.code line.toList) (fun c hc => by cases hc)
  exact congrArg (Except.map Scan.tokens) hscan

theorem labelName_eq {token : String} (h : definesLabel token = true) :
    definedName? token = some (String.ofList token.toList.dropLast) ∧
      labelName token = .ok (String.ofList token.toList.dropLast) := by
  obtain ⟨hlast, hsize⟩ := of_decide_eq_true h
  refine ⟨by rw [Grammar.definedName?_eq, if_pos ⟨hsize, hlast⟩], ?_⟩
  obtain ⟨name, hname⟩ := List.getLast?_eq_some_iff.1 hlast
  -- the colon is one byte, so that the position before it is the end of the name
  have hbytes : token.utf8ByteSize = Text.byteLength name + 1 := by
    rw [← String.ofList_toList (s := token), Grammar.utf8ByteSize_ofList, hname,
      Grammar.byteLength_append]
    rfl
  have hslice := sliceText_byteLength [] name [':']
  rw [List.nil_append, ← hname] at hslice
  rw [labelName, hbytes, hname, List.dropLast_concat, ← hname]
  show (do
    let name ← sliceText token.toList 0 (Text.byteLength name)
    return String.ofList name) = _
  rw [show sliceText token.toList 0 (Text.byteLength name) = .ok name from hslice]
  rfl

theorem definedName?_of_not_definesLabel {token : String} (h : definesLabel token = false) :
    definedName? token = none := by
  have hnot := of_decide_eq_false h
  rw [Grammar.definedName?_eq, if_neg (fun hboth => hnot ⟨hboth.2, hboth.1⟩)]

/-! ## 4. Sources by positions -/

/-- What the first pass has found so far: labels, and line numbers with the tokens behind the
label. -/
structure Draft where
  labels : Labels
  statements : List (Nat × List Token)

namespace Draft

def addTokens (draft : Draft) (line : Nat) (tokens : List Token) : Draft :=
  if tokens.isEmpty then draft
  else { draft with statements := draft.statements ++ [(line, tokens)] }

def addLine (draft : Draft) (line : Nat) (text : String) : Attempt Draft := do
  let tokens ← attempt (scan text)
  if tokens.isEmpty then
    return draft
  else
    let head ← attempt (entry tokens 0)
    if definesLabel head.text then
      let (label, rest) ← attempt (takeOut tokens 0)
      let name ← attempt (labelName label.text)
      let labels ← settled ((draft.labels.define name draft.statements.length).mapError
          (located line label))
      return addTokens { draft with labels } line rest
    else
      return draft.addTokens line tokens

def addLines (draft : Draft) (line : Nat) : List String → Attempt Draft
  | [] => return draft
  | text :: rest => do
    let next ← draft.addLine line text
    next.addLines (line + 1) rest

end Draft

def instruction (labels : Labels) (line : Nat) (tokens : List Token) : Attempt Instruction := do
  let head ← attempt (entry tokens 0)
  match Opcode.ofMnemonic? head.text with
  | none => throw (located line head (.unknownMnemonic head.text))
  | some op =>
    let given ← attempt (minus tokens.length 1)
    if given ≠ op.arity then
      throw (located line head (.arityMismatch head.text op.arity given))
    else
      match op.operandKind with
      | none => return .bare op
      | some kind =>
        let token ← attempt (entry tokens 1)
        let w ← settled ((readOperand labels kind token.text).mapError (located line token))
        return .of op w

def instructions (labels : Labels) : List (Nat × List Token) → Attempt (List Instruction)
  | [] => return []
  | (line, tokens) :: rest => do
    let i ← instruction labels line tokens
    let is ← instructions labels rest
    return i :: is

/-- A program in memory, which has to stay below the capacity of the store. -/
def ofRecords (records : List Instruction) : Except Slip Program :=
  (Program.ofList records).mapError .breach

def assemble (source : String) : Attempt Program := do
  let draft ← Draft.addLines ⟨.empty, []⟩ 1 (Text.lines source)
  if Program.capacity ≤ draft.statements.length then
    throw (.programTooLarge draft.statements.length Program.capacity)
  else
    let records ← instructions draft.labels draft.statements
    attempt (ofRecords records)

section

variable {α β : Type}

theorem attempt_bind {result : Except Slip α} {a : α} (h : result = .ok a) (f : α → Attempt β) :
    (attempt result >>= f) = f a := by
  rw [h]
  rfl

theorem settled_bind_ok (a : α) (f : α → Attempt β) : (settled (.ok a) >>= f) = f a := rfl

theorem entry_zero (a : α) (as : List α) : entry (a :: as) 0 = .ok a := rfl

theorem takeOut_zero (a : α) (as : List α) : takeOut (a :: as) 0 = .ok (a, as) := rfl

end

def draftOf (layout : Layout) : Draft :=
  ⟨layout.labels, layout.statements.toList.map fun s => (s.line, s.head :: s.operands)⟩

theorem length_draftOf (layout : Layout) :
    (draftOf layout).statements.length = layout.statements.size := by
  rw [draftOf, List.length_map, Array.length_toList]

theorem draftOf_addStatement (layout : Layout) (line : Nat) (tokens : List Token) :
    draftOf (layout.addStatement line tokens) = (draftOf layout).addTokens line tokens := by
  cases tokens with
  | nil => rfl
  | cons head operands =>
    show Draft.mk layout.labels ((layout.statements.push ⟨line, head, operands⟩).toList.map _) = _
    rw [Array.toList_push, List.map_append]
    rfl

theorem addLine_draftOf (layout : Layout) (line : Nat) (text : String) :
    (draftOf layout).addLine line text = settled ((layout.addLine line text).map draftOf) := by
  rw [Draft.addLine, attempt_bind (scan_eq text), Layout.addLine]
  cases Token.scan text with
  | nil => rfl
  | cons head rest =>
    rw [if_neg (by rw [List.isEmpty_cons]; decide), attempt_bind (entry_zero head rest)]
    cases hdefines : definesLabel head.text with
    | false =>
      simp only [definedName?_of_not_definesLabel hdefines]
      exact congrArg (fun draft => settled (.ok draft))
        (draftOf_addStatement layout line (head :: rest)).symm
    | true =>
      obtain ⟨hname, hslice⟩ := labelName_eq hdefines
      rw [if_pos rfl, attempt_bind (takeOut_zero head rest)]
      simp only [attempt_bind hslice, hname, length_draftOf]
      show (settled (Except.mapError _ (layout.labels.define _ _)) >>= _) = _
      cases layout.labels.define (String.ofList head.text.toList.dropLast)
        layout.statements.size with
      | error cause => rfl
      | ok labels =>
        exact congrArg (fun draft => settled (.ok draft))
          (draftOf_addStatement ⟨labels, layout.statements⟩ line rest).symm

theorem addLines_draftOf (layout : Layout) (line : Nat) (texts : List String) :
    (draftOf layout).addLines line texts = settled ((layout.addLines line texts).map draftOf) := by
  induction texts generalizing layout line with
  | nil => rfl
  | cons text rest ih =>
    rw [Draft.addLines, addLine_draftOf, Layout.addLines]
    cases layout.addLine line text with
    | error cause => rfl
    | ok next => exact ih next (line + 1)

theorem instruction_eq (labels : Labels) (s : Statement) :
    instruction labels s.line (s.head :: s.operands) = settled (s.instruction labels) := by
  obtain ⟨line, head, operands⟩ := s
  rw [instruction, attempt_bind (entry_zero head operands), Statement.instruction]
  cases Opcode.ofMnemonic? head.text with
  | none => rfl
  | some op =>
    -- with the mnemonic there, the operands are one token fewer than the statement has
    have hgiven : minus (head :: operands).length 1 = .ok operands.length := rfl
    simp only [attempt_bind hgiven]
    cases hkind : op.operandKind with
    | none =>
      have harity : op.arity = 0 := by rw [Opcode.arity, Opcode.takesOperand, hkind]; rfl
      cases operands with
      | nil => rw [if_neg (by rw [harity]; exact not_not_intro rfl)]; rfl
      | cons token rest => rw [if_pos (by rw [harity]; exact Nat.succ_ne_zero _)]; rfl
    | some kind =>
      have harity : op.arity = 1 := by rw [Opcode.arity, Opcode.takesOperand, hkind]; rfl
      cases operands with
      | nil => rw [if_pos (by rw [harity]; exact Nat.zero_ne_one)]; rfl
      | cons token rest =>
        cases rest with
        | cons next more => rw [if_pos (by rw [harity]; exact Nat.succ_succ_ne_one _)]; rfl
        | nil =>
          have hoperand : entry [head, token] 1 = .ok token := rfl
          rw [if_neg (by rw [harity]; exact not_not_intro rfl)]
          simp only [attempt_bind hoperand]
          cases readOperand labels kind token.text <;> rfl

theorem instructions_eq (labels : Labels) (ss : List Statement) :
    instructions labels (ss.map fun s => (s.line, s.head :: s.operands)) =
      settled (Assembly.instructions labels ss) := by
  induction ss with
  | nil => rfl
  | cons s rest ih =>
    rw [List.map_cons, instructions, instruction_eq, ih, Assembly.instructions]
    cases s.instruction labels with
    | error cause => rfl
    | ok i => cases Assembly.instructions labels rest <;> rfl

theorem length_instructions {labels : Labels} {ss : List Statement} {is : List Instruction}
    (h : Assembly.instructions labels ss = .ok is) : is.length = ss.length := by
  induction ss generalizing is with
  | nil =>
    cases h
    rfl
  | cons s rest ih =>
    rw [Assembly.instructions] at h
    cases hs : s.instruction labels with
    | error cause =>
      rw [hs] at h
      cases h
    | ok i =>
      cases hrest : Assembly.instructions labels rest with
      | error cause =>
        rw [hs, hrest] at h
        cases h
      | ok js =>
        rw [hs, hrest] at h
        cases h
        rw [List.length_cons, List.length_cons, ih hrest]

/-- The checked assembler never slips. It answers as the assembler does, which therefore keeps its
promises too. -/
theorem assemble_settled (source : String) :
    ∃ answer : Except Fault Program,
      assemble source = settled answer ∧ Assembly.assemble source = answer.mapError .fault := by
  have hlayout : Draft.addLines ⟨.empty, []⟩ 1 (Text.lines source) =
      settled ((Layout.ofSource source).map draftOf) :=
    addLines_draftOf Layout.empty 1 (Text.lines source)
  rw [assemble, hlayout, Assembly.assemble]
  cases Layout.ofSource source with
  | error cause => exact ⟨.error cause, rfl, rfl⟩
  | ok layout =>
    obtain ⟨labels, statements⟩ := layout
    show ∃ answer,
      (if Program.capacity ≤ (draftOf ⟨labels, statements⟩).statements.length then _ else _) = _ ∧
      (if Program.capacity ≤ statements.size then _ else _) = _
    rw [length_draftOf]
    by_cases hfull : Program.capacity ≤ statements.size
    · rw [if_pos hfull, if_pos hfull]
      exact ⟨.error _, rfl, rfl⟩
    · have hread : instructions (draftOf ⟨labels, statements⟩).labels
          (draftOf ⟨labels, statements⟩).statements =
          settled (Assembly.instructions labels statements.toList) :=
        instructions_eq labels statements.toList
      rw [if_neg hfull, if_neg hfull, hread]
      cases his : Assembly.instructions labels statements.toList with
      | error cause => exact ⟨.error cause, rfl, rfl⟩
      | ok is =>
        have hlength : is.length < Program.capacity := by
          rw [length_instructions his, Array.length_toList]
          exact Nat.lt_of_not_le hfull
        obtain ⟨p, hp⟩ : ∃ p, Program.ofList is = .ok p := ⟨_, dif_pos hlength⟩
        refine ⟨.ok p, ?_, ?_⟩
        · show attempt (ofRecords is) = _
          rw [ofRecords, hp]
          rfl
        · show (Program.ofList is).mapError Trap.breach = _
          rw [hp]
          rfl

/-! ## 5. Images by positions -/

/-- Reads `count` records, of which the first one starts at `position`. -/
def readRecords (input : Bytes) : (count position : Nat) → Attempt (List Instruction)
  | 0, _ => return []
  | count + 1, position => do
    let record ← attempt (slice (fun _ => 1) input position (position + Instruction.recordSize))
    let i ← settled ((Codec.ofBytes record).mapError .decode)
    let is ← readRecords input count (position + Instruction.recordSize)
    return i :: is

def ofImage (input : Bytes) : Attempt Program :=
  let count := input.length / Instruction.recordSize
  if input.length % Instruction.recordSize ≠ 0 then
    throw (.misalignedImage input.length Instruction.recordSize)
  else if Program.capacity < count then
    throw (.programTooLarge count Program.capacity)
  else do
    let records ← readRecords input count 0
    if h : records.length ≤ Program.capacity then
      return ⟨records.toArray, h⟩
    else
      attempt (.error (.breach (.programOverfull records.length Program.capacity)))

theorem readRecords_eq {input : Bytes} {count position : Nat}
    (h : position + Instruction.recordSize * count ≤ input.length) :
    readRecords input count position =
      settled (Program.readRecords count (input.drop position)) := by
  induction count generalizing position with
  | zero => rfl
  | succ count ih =>
    rw [Nat.mul_succ] at h
    have hrest : readRecords input count (position + Instruction.recordSize) = _ := ih (by omega)
    rw [readRecords, attempt_bind (slice_of_le (by omega)), hrest, Program.readRecords,
      List.drop_drop]
    cases (Codec.ofBytes ((input.drop position).take Instruction.recordSize) :
      Except _ Instruction) with
    | error cause => rfl
    | ok i =>
      cases Program.readRecords count (input.drop (position + Instruction.recordSize)) <;> rfl

/-- The checked reader of images never slips. -/
theorem ofImage_settled (input : Bytes) : ofImage input = settled (Program.ofImage input) := by
  by_cases halign : input.length % Instruction.recordSize = 0
  · by_cases hfit : input.length / Instruction.recordSize ≤ Program.capacity
    · have hlength :
          input.length = Instruction.recordSize * (input.length / Instruction.recordSize) :=
        (Nat.mul_div_cancel' (Nat.dvd_of_mod_eq_zero halign)).symm
      obtain ⟨is, his, -⟩ := Program.readRecords_of_length hlength
      obtain ⟨p, hp, hrecords⟩ := Program.ofImage_of_readRecords halign hfit his
      have hcount : is.length ≤ Program.capacity := by
        rw [Program.length_readRecords his]; exact hfit
      have hread :
          readRecords input (input.length / Instruction.recordSize) 0 = settled (.ok is) := by
        rw [readRecords_eq (by omega), List.drop_zero, his]
      obtain rfl : p = ⟨is.toArray, hcount⟩ := by
        cases p
        cases hrecords
        rfl
      rw [ofImage, if_neg (not_not_intro halign), if_neg (Nat.not_lt.2 hfit), hread,
        settled_bind_ok, dif_pos hcount, hp]
      rfl
    · rw [ofImage, if_neg (not_not_intro halign), if_pos (Nat.lt_of_not_le hfit),
        Program.ofImage_tooLarge halign (Nat.lt_of_not_le hfit)]
      rfl
  · rw [ofImage, if_pos halign, Program.ofImage_misaligned halign]
    rfl

end Checked
end StackMachine

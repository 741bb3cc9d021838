import StackMachine.Session

/-!
The instruction table: what each operation asks of the stack, what it does, and how it fails.

The table knows nothing of slots. A stack is a list with the top first, arithmetic is that of the
integers, and a result is brought back to a word by its residue modulo `2 ^ 64`. The checks of a row
are made in the order in which they stand.
-/

namespace StackMachine.Table

variable {ω : Type}

/-! ## 1. Configurations and effects -/

/-- The part of a machine that a record can see and change. The top of the stack comes first. -/
structure Config where
  stack : List Word
  ip : Word
  halted : Bool
deriving DecidableEq, Repr

/-- What the table prescribes for a step. -/
inductive Effect where
  -- the configuration stays
  | fails (cause : Fault)
  | moves (next : Config)
  -- the value is offered to the debug output, and the step moves on once it is accepted
  | prints (w : Word) (next : Config)
deriving DecidableEq, Repr

def Config.onward (c : Config) (stack : List Word) : Config := { c with stack, ip := c.ip + 1 }

/-! ## 2. Rows -/

def pushed (w : Word) (c : Config) : Effect :=
  if c.stack.length < Machine.stackCapacity then .moves (c.onward (w :: c.stack))
  else .fails (.stackOverflow Machine.stackCapacity)

/-- `a` and `b`, with `b` on top, make room for the residue of `f a b`. -/
def combined (f : Int → Int → Int) (c : Config) : Effect :=
  match c.stack with
  | b :: a :: below => .moves (c.onward (Int64.ofInt (f a.toInt b.toInt) :: below))
  | short => .fails (.stackUnderflow 2 short.length)

def row (operand : Word) (c : Config) : Opcode → Effect
  | .nop => .moves (c.onward c.stack)
  | .push => pushed operand c
  | .dup =>
    if operand.toInt < 0 then .fails (.illegalOperand .dup operand)
    else
      match c.stack[operand.toInt.toNat]? with
      | none => .fails (.stackUnderflow (operand.toInt.toNat + 1) c.stack.length)
      | some w => pushed w c
  | .plus => combined (· + ·) c
  | .minus => combined (· - ·) c
  | .mult => combined (· * ·) c
  | .div =>
    if 2 ≤ c.stack.length ∧ c.stack.head? = some 0 then .fails .divByZero else combined Int.tdiv c
  | .jmp => .moves { c with ip := operand }
  | .eq => combined (fun a b => if a = b then 1 else 0) c
  | .jmpIf =>
    match c.stack with
    | [] => .fails (.stackUnderflow 1 0)
    | w :: below =>
        .moves (if w = 0 then c.onward below else { c with stack := below, ip := operand })
  | .halt => .moves { c with halted := true }
  | .printDebug =>
    match c.stack with
    | [] => .fails (.stackUnderflow 1 0)
    | w :: below => .prints w (c.onward below)

def recordAt? (program : Program) (ip : Word) : Option Instruction :=
  if 0 ≤ ip.toInt ∧ ip.toInt < program.size then program.records[ip.toInt.toNat]? else none

/-- The effect of the record at the instruction pointer. A tag is the place of an operation in the
table. -/
def effect (program : Program) (c : Config) : Effect :=
  match recordAt? program c.ip with
  | none => .fails (.illegalAccess c.ip program.size)
  | some i =>
    match Opcode.all[i.tag.toNat]? with
    | none => .fails (.illegalInstruction i.tag c.ip)
    | some op => row i.operand c op

theorem getElem?_all_iff {n : Nat} {op : Opcode} : Opcode.all[n]? = some op ↔ op.tag.toNat = n := by
  constructor
  · intro h
    -- the list is short enough to look at every place
    have hn : n < 12 := (List.getElem?_eq_some_iff.1 h).1
    have hplaces : ∀ k < 12, ∀ o ∈ Opcode.all[k]?, o.tag.toNat = k := by decide
    exact hplaces n hn op h
  · rintro rfl
    cases op <;> rfl

variable {program : Program} {c : Config} {i : Instruction}

theorem effect_of_outside (hrec : recordAt? program c.ip = none) :
    effect program c = .fails (.illegalAccess c.ip program.size) := by
  rw [effect, hrec]

theorem effect_of_unknown (hrec : recordAt? program c.ip = some i)
    (hop : Opcode.all[i.tag.toNat]? = none) :
    effect program c = .fails (.illegalInstruction i.tag c.ip) := by
  simp only [effect, hrec, hop]

theorem effect_of_known {op : Opcode} (hrec : recordAt? program c.ip = some i)
    (hop : Opcode.all[i.tag.toNat]? = some op) : effect program c = row i.operand c op := by
  simp only [effect, hrec, hop]

/-! ## 3. What an effect can be -/

/-- A step that fails with a fault of the engine, or moves without touching the halted flag. -/
def Ordinary (c : Config) (e : Effect) : Prop :=
  (∃ cause, e = .fails cause ∧ cause.isEngineFault = true) ∨
    ∃ stack ip, e = .moves { c with stack, ip }

theorem ordinary_pushed (w : Word) (c : Config) : Ordinary c (pushed w c) := by
  unfold pushed
  split
  · exact .inr ⟨_, _, rfl⟩
  · exact .inl ⟨_, rfl, rfl⟩

theorem ordinary_combined (f : Int → Int → Int) (c : Config) : Ordinary c (combined f c) := by
  unfold combined
  split
  · exact .inr ⟨_, _, rfl⟩
  · exact .inl ⟨_, rfl, rfl⟩

theorem ordinary_dup (operand : Word) (c : Config) : Ordinary c (row operand c .dup) := by
  rw [row]
  split
  · exact .inl ⟨_, rfl, rfl⟩
  · split
    · exact .inl ⟨_, rfl, rfl⟩
    · exact ordinary_pushed _ c

theorem ordinary_div (operand : Word) (c : Config) : Ordinary c (row operand c .div) := by
  rw [row]
  split
  · exact .inl ⟨_, rfl, rfl⟩
  · exact ordinary_combined _ c

theorem ordinary_jmpIf (operand : Word) (c : Config) : Ordinary c (row operand c .jmpIf) := by
  rw [row]
  split
  · exact .inl ⟨_, rfl, rfl⟩
  · split
    · exact .inr ⟨_, _, rfl⟩
    · exact .inr ⟨_, _, rfl⟩

/-- Every row is ordinary but two: one sets the halted flag and nothing else, one prints the top. -/
theorem row_cases (operand : Word) (c : Config) (op : Opcode) :
    Ordinary c (row operand c op) ∨
      (op = .halt ∧ row operand c op = .moves { c with halted := true }) ∨
      ∃ w below, op = .printDebug ∧ c.stack = w :: below ∧
        row operand c op = .prints w (c.onward below) := by
  cases op with
  | nop => exact .inl (.inr ⟨_, _, rfl⟩)
  | push => exact .inl (ordinary_pushed operand c)
  | dup => exact .inl (ordinary_dup operand c)
  | plus => exact .inl (ordinary_combined _ c)
  | minus => exact .inl (ordinary_combined _ c)
  | mult => exact .inl (ordinary_combined _ c)
  | div => exact .inl (ordinary_div operand c)
  | jmp => exact .inl (.inr ⟨_, _, rfl⟩)
  | eq => exact .inl (ordinary_combined (fun a b => if a = b then 1 else 0) c)
  | jmpIf => exact .inl (ordinary_jmpIf operand c)
  | halt => exact .inr (.inl ⟨rfl, rfl⟩)
  | printDebug =>
    match hstack : c.stack with
    | [] => exact .inl (.inl ⟨.stackUnderflow 1 0, by simp only [row, hstack], rfl⟩)
    | w :: below => exact .inr (.inr ⟨w, below, rfl, rfl, by simp only [row, hstack]⟩)

def Holding (program : Program) (ip : Word) (op : Opcode) : Prop :=
  ∃ i, recordAt? program ip = some i ∧ i.tag = op.tag

theorem effect_cases (program : Program) (c : Config) :
    Ordinary c (effect program c) ∨
      (Holding program c.ip .halt ∧ effect program c = .moves { c with halted := true }) ∨
      ∃ w below, Holding program c.ip .printDebug ∧ c.stack = w :: below ∧
        effect program c = .prints w (c.onward below) := by
  cases hrec : recordAt? program c.ip with
  | none => exact .inl (.inl ⟨_, effect_of_outside hrec, rfl⟩)
  | some i =>
    cases hop : Opcode.all[i.tag.toNat]? with
    | none => exact .inl (.inl ⟨_, effect_of_unknown hrec hop, rfl⟩)
    | some op =>
      have htag : i.tag = op.tag := UInt32.toNat_inj.1 (getElem?_all_iff.1 hop).symm
      rw [effect_of_known hrec hop]
      obtain hord | ⟨rfl, hrow⟩ | ⟨w, below, rfl, hstack, hrow⟩ := row_cases i.operand c op
      · exact .inl hord
      · exact .inr (.inl ⟨⟨i, hrec, htag⟩, hrow⟩)
      · exact .inr (.inr ⟨w, below, ⟨i, hrec, htag⟩, hstack, hrow⟩)

variable {cause : Fault} {next : Config} {w : Word}

theorem isEngineFault_of_effect (h : effect program c = .fails cause) :
    cause.isEngineFault = true := by
  obtain (⟨cause', he, hengine⟩ | ⟨stack, ip, he⟩) | ⟨-, he⟩ | ⟨w, below, -, -, he⟩ :=
    effect_cases program c
  all_goals
    rw [he] at h
    cases h
  exact hengine

theorem halted_of_effect_moves (h : effect program c = .moves next) :
    next.halted = c.halted ∨ (Holding program c.ip .halt ∧ next = { c with halted := true }) := by
  obtain (⟨cause, he, -⟩ | ⟨stack, ip, he⟩) | ⟨hrec, he⟩ | ⟨w, below, -, -, he⟩ :=
    effect_cases program c
  all_goals
    rw [he] at h
    cases h
  -- the ordinary move and the halt remain
  · exact .inl rfl
  · exact .inr ⟨hrec, rfl⟩

theorem stack_of_effect_prints (h : effect program c = .prints w next) :
    Holding program c.ip .printDebug ∧ ∃ below, c.stack = w :: below ∧ next = c.onward below := by
  obtain (⟨cause, he, -⟩ | ⟨stack, ip, he⟩) | ⟨-, he⟩ | ⟨w, below, hrec, hstack, he⟩ :=
    effect_cases program c
  all_goals
    rw [he] at h
    cases h
  exact ⟨hrec, below, hstack, rfl⟩

/-! ## 4. Steps -/

/-- A configuration and, once the run is over, its outcome. -/
structure Snapshot where
  config : Config
  outcome : Option (Except Fault Unit)

def Snapshot.settled (c : Config) : Snapshot := ⟨c, if c.halted then some (.ok ()) else none⟩

def Snapshot.fallen (c : Config) (cause : Fault) : Snapshot := ⟨c, some (.error cause)⟩

/-- One step by the table: its answer, and the snapshot and the world that it leaves. A run that is
over repeats its outcome. -/
def step (outlet : Outlet ω) (program : Program) : Snapshot × ω → Except Fault Unit × Snapshot × ω
  | (now, world) =>
    match now.outcome with
    | some answer => (answer, now, world)
    | none =>
      match effect program now.config with
      | .fails cause => (.error cause, .fallen now.config cause, world)
      | .moves next => (.ok (), .settled next, world)
      | .prints w next =>
        match outlet.emit w world with
        | (.ok (), world) => (.ok (), .settled next, world)
        | (.error reason, world) =>
          (.error (.debugOutput reason), .fallen now.config (.debugOutput reason), world)

def steps (outlet : Outlet ω) (program : Program) :
    Nat → Snapshot × ω → List (Except Fault Unit) × Snapshot × ω
  | 0, now => ([], now)
  | n + 1, now =>
    let (answer, next) := step outlet program now
    let (answers, last) := steps outlet program n next
    (answer :: answers, last)

end StackMachine.Table

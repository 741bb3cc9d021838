import StackMachine.Assembly.Diagnostic
import StackMachine.Proofs.SourceMeaning
import StackMachine.Proofs.TokenPlaces

/-!
Which fault a source is rejected with, and where it is reported.

Faults have an order: the first faulty label definition, then an excess of instructions, then the
first faulty instruction, and in it the mnemonic, the number of operands and the operand. `Rejects`
says this order without the assembler.
-/

namespace StackMachine.Grammar

open Assembly

/-! ## 1. Faults of a source -/

def texts (source : String) : List String := (rows source.toList).map String.ofList

/-- Why `name` cannot be defined behind the definitions of the names `earlier`. -/
inductive LabelFault (earlier : List String) (name : String) : Fault → Prop
  | malformed (hname : ¬ IsIdentifier name) :
      LabelFault earlier name (.invalidOperand (name ++ ":"))
  | repeated (hname : IsIdentifier name) (hearlier : name ∈ earlier) :
      LabelFault earlier name (.duplicateLabel name)

/-- Why tokens are no instruction, and which of them is to blame. -/
inductive StatementFault (ls : List Line) : List String → Nat → Fault → Prop
  | mnemonic (head : String) (operands : List String) (hhead : ∀ op : Opcode, op.mnemonic ≠ head) :
      StatementFault ls (head :: operands) 0 (.unknownMnemonic head)
  | arity (op : Opcode) (operands : List String) (harity : operands.length ≠ op.arity) :
      StatementFault ls (op.mnemonic :: operands) 0
        (.arityMismatch op.mnemonic op.arity operands.length)
  | operand (op : Opcode) (kind : OperandKind) (hkind : op.operandKind = some kind) (token : String)
      (hword : ∀ w, ¬ Spells token w) (hname : kind = .immediate ∨ ¬ IsIdentifier token) :
      StatementFault ls [op.mnemonic, token] 1 (.invalidOperand token)
  | label (op : Opcode) (hkind : op.operandKind = some .address) (token : String)
      (hname : IsIdentifier token)
      (hlabel : token ∉ labels ls) :
      StatementFault ls [op.mnemonic, token] 1 (.undefinedLabel token)

def LabelsSound (ls : List Line) : Prop :=
  (∀ name ∈ labels ls, IsIdentifier name) ∧ (labels ls).Nodup

/-- The label definition of line number `n` is faulty behind the lines `ls`. It is the first token
of the line. -/
def LabelRejected (ls : List Line) (n : Nat) (text : String) (fault : Fault) : Prop :=
  ∃ name cause byte, (lineOf text).label = some name ∧ LabelFault (labels ls) name cause ∧
    Stands text 0 (name ++ ":") byte ∧ fault = .located n (byte + 1) cause.message

/-- The instruction of line number `n` is faulty in the source with the lines `ls`. -/
def StatementRejected (ls : List Line) (n : Nat) (text : String) (fault : Fault) : Prop :=
  ∃ k token cause byte, StatementFault ls (lineOf text).body k cause ∧
    -- a label definition in front counts as a token of the line
    Stands text ((lineOf text).label.toList.length + k) token byte ∧
      fault = .located n (byte + 1) cause.message

/-- The fault that a source is rejected with. -/
inductive Rejects (source : String) : Fault → Prop
  | label (before : List String) (text : String) (later : List String) (fault : Fault)
      (hsource : texts source = before ++ text :: later)
      (hearlier : LabelsSound (before.map lineOf))
      (hfault : LabelRejected (before.map lineOf) (before.length + 1) text fault) :
      Rejects source fault
  | tooLarge (hlabels : LabelsSound (lines source))
      (hcount : 1024 ≤ (statements (lines source)).length) :
      Rejects source (.programTooLarge (statements (lines source)).length 1024)
  | statement (before : List String) (text : String) (later : List String) (fault : Fault)
      (hlabels : LabelsSound (lines source)) (hcount : (statements (lines source)).length < 1024)
      (hsource : texts source = before ++ text :: later)
      (hearlier : ∀ ts ∈ statements (before.map lineOf), IsStatement (lines source) ts)
      (hfault : StatementRejected (lines source) (before.length + 1) text fault) :
      Rejects source fault

/-- The report of a located fault quotes the line of the source that the fault names. -/
def Quotes (source : String) : Fault → Prop
  | .located line offset message =>
      1 ≤ line ∧ line ≤ (texts source).length ∧
        ∃ text, (texts source)[line - 1]? = some text ∧
          ∀ file, diagnostic file source (.located line offset message) =
            s!"error: {message}\n --> {file}:{Decimal.ofNat line}:{Decimal.ofNat offset}\n" ++
              quote line offset text
  | .programTooLarge .. => True
  | _ => False

theorem texts_eq (source : String) : texts source = Text.lines source := by
  rw [texts, Text.lines, ← map_dropLineEnd_chunks, List.map_map]
  rfl

theorem map_lineOf_texts (source : String) : (texts source).map lineOf = lines source := by
  rw [texts_eq, lines_eq]

/-- A split of a longer list at an element of it is the split at its head, or a split of its
tail. -/
theorem exists_split_cons {α : Type} {P : List α → α → Prop} {x : α} {xs : List α} :
    (∃ before y later, x :: xs = before ++ y :: later ∧ P before y) ↔
      P [] x ∨ ∃ before y later, xs = before ++ y :: later ∧ P (x :: before) y := by
  constructor
  · rintro ⟨before, y, later, heq, hP⟩
    cases before with
    | nil =>
      cases heq
      exact .inl hP
    | cons z before =>
      cases heq
      exact .inr ⟨before, y, later, rfl, hP⟩
  · rintro (hP | ⟨before, y, later, rfl, hP⟩)
    · exact ⟨[], x, xs, rfl, hP⟩
    · exact ⟨x :: before, y, later, rfl, hP⟩

variable {layout : Layout} {ls : List Line}

/-! ## 2. The first pass -/

theorem Describes.define_eq_error_iff (h : Describes layout ls) {name : String} {n : Nat}
    {cause : Fault} :
    layout.labels.define name n = .error cause ↔ LabelFault (labels ls) name cause := by
  unfold Labels.define
  constructor
  · intro hdef
    split at hdef
    · next hid =>
      cases hdef
      refine .malformed fun hname => ?_
      rw [(isIdentifier_iff name).2 hname] at hid
      cases hid
    · next hid =>
      have hname : IsIdentifier name := (isIdentifier_iff name).1 (by simpa using hid)
      split at hdef
      · next hfind =>
        cases hdef
        refine .repeated hname (Decidable.byContradiction fun hnew => ?_)
        rw [h.find?_eq_none_iff.2 hnew] at hfind
        cases hfind
      · cases hdef
  · intro hfault
    cases hfault with
    | malformed hname =>
      have hid : Assembly.isIdentifier name = false :=
        Bool.eq_false_iff.2 fun hid => hname ((isIdentifier_iff name).1 hid)
      simp [hid]
    | repeated hname hearlier =>
      have hfind : (layout.labels.find? name).isSome = true := by
        rw [Option.isSome_iff_ne_none]
        exact fun hnone => h.find?_eq_none_iff.1 hnone hearlier
      simp [(isIdentifier_iff name).2 hname, hfind]

theorem Describes.addLine_eq_error_iff (h : Describes layout ls) (n : Nat) (text : String)
    (fault : Fault) :
    layout.addLine n text = .error fault ↔ LabelRejected ls n text fault := by
  obtain ⟨hlabel, hadd⟩ | ⟨name, head, hlabel, hhead, htext, hadd⟩ := addLine_eq layout n text
  · rw [hadd]
    constructor
    · nofun
    · rintro ⟨name, cause, byte, hname, -⟩
      cases hlabel.symm.trans hname
  · rw [hadd]
    obtain ⟨byte, hplace, hoffset⟩ := stands_of_scan hhead
    rw [htext] at hplace
    constructor
    · intro herror
      match hdef : layout.labels.define name layout.statements.size with
      | .ok labels =>
        rw [hdef] at herror
        cases herror
      | .error cause =>
        rw [hdef] at herror
        cases herror
        refine ⟨name, cause, byte, hlabel, h.define_eq_error_iff.1 hdef, hplace, ?_⟩
        rw [located, hoffset]
    · rintro ⟨name', cause, byte', hname, hfault, hplace', rfl⟩
      cases hlabel.symm.trans hname
      rw [h.define_eq_error_iff.2 hfault, ← hplace.byte_eq hplace', ← hoffset]
      rfl

theorem Describes.labelsSound (h : Describes layout ls) : LabelsSound ls :=
  ⟨h.identifiers, h.distinct⟩

theorem LabelsSound.of_append {l : Line} (h : LabelsSound (ls ++ [l])) {name : String}
    (hlabel : l.label = some name) :
    IsIdentifier name ∧ name ∉ labels ls := by
  obtain ⟨hid, hdistinct⟩ := h
  rw [labels_append, hlabel, Option.toList_some] at hid hdistinct
  refine ⟨hid name (by simp), fun hold => ?_⟩
  exact (List.nodup_append.1 hdistinct).2.2 name hold name (List.mem_singleton_self name) rfl

theorem LabelsSound.of_prefix {more : List Line} (h : LabelsSound (ls ++ more)) :
    LabelsSound ls := by
  obtain ⟨hid, hdistinct⟩ := h
  unfold labels at hid hdistinct
  rw [List.filterMap_append] at hid hdistinct
  exact ⟨fun name hname => hid name (List.mem_append_left _ hname),
    (List.nodup_append.1 hdistinct).1⟩

/-- The first pass stops at the first faulty label definition. -/
theorem Describes.addLines_eq_error_iff (h : Describes layout ls) (n : Nat) (rest : List String)
    (fault : Fault) :
    layout.addLines n rest = .error fault ↔
      ∃ before text later, rest = before ++ text :: later ∧
        LabelsSound (ls ++ before.map lineOf) ∧
        LabelRejected (ls ++ before.map lineOf) (n + before.length) text fault := by
  induction rest generalizing layout ls n with
  | nil =>
    constructor
    · intro herror
      cases herror
    · rintro ⟨before, text, later, hnil, -⟩
      cases before <;> cases hnil
  | cons text rest ih =>
    have hsplit (before : List String) :
        ls ++ (text :: before).map lineOf = (ls ++ [lineOf text]) ++ before.map lineOf := by
      simp
    have hcount (before : List String) : n + (text :: before).length = n + 1 + before.length := by
      rw [List.length_cons]
      omega
    rw [exists_split_cons]
    simp only [hsplit, hcount, List.map_nil, List.append_nil, List.length_nil, Nat.add_zero]
    rw [Layout.addLines, ← h.addLine_eq_error_iff]
    cases hfirst : layout.addLine n text with
    | ok middle =>
      dsimp only
      rw [ih (h.addLine n text hfirst)]
      constructor
      · exact .inr
      · rintro (⟨-, herror⟩ | hlater)
        · cases herror
        · exact hlater
    | error fault' =>
      dsimp only
      constructor
      · exact fun herror => .inl ⟨h.labelsSound, herror⟩
      · rintro (⟨-, herror⟩ | ⟨before, _, _, -, hsound, -⟩)
        · exact herror
        -- a later line cannot be the first faulty one
        · obtain ⟨middle, hmiddle⟩ := h.addLine_exists n text fun name => hsound.of_prefix.of_append
          cases hfirst.symm.trans hmiddle

/-! ## 3. Statements -/

theorem Describes.readOperand_eq_error_iff (h : Describes layout ls) (kind : OperandKind)
    (token : String) (cause : Fault) :
    readOperand layout.labels kind token = .error cause ↔
      (∀ w, ¬ Spells token w) ∧
        (((kind = .immediate ∨ ¬ IsIdentifier token) ∧ cause = .invalidOperand token) ∨
          (kind = .address ∧ IsIdentifier token ∧ token ∉ labels ls ∧
            cause = .undefinedLabel token)) := by
  unfold readOperand
  match hread : Word.read? token with
  | some w =>
    have hspells := read?_eq_some_iff.1 hread
    constructor
    · nofun
    · exact fun hword => absurd hspells (hword.1 w)
  | none =>
    have hword : ∀ w, ¬ Spells token w := by
      intro w hw
      cases hread.symm.trans (read?_eq_some_iff.2 hw)
    match kind with
    | .immediate => simp [hword, eq_comm]
    | .address =>
      by_cases hid : Assembly.isIdentifier token = true
      · have hname := (isIdentifier_iff token).1 hid
        rw [← h.find?_eq_none_iff]
        cases hfind : layout.labels.find? token with
        | none => simp [hid, hword, hname, Labels.resolve, hfind, eq_comm]
        | some index => simp [hid, hname, Labels.resolve, hfind]
      · have hname := mt (isIdentifier_iff token).2 hid
        simp [hid, hword, hname, eq_comm]

theorem arity_of_none {op : Opcode} (hkind : op.operandKind = none) : op.arity = 0 := by
  simp [Opcode.arity, Opcode.takesOperand, hkind]

theorem arity_of_some {op : Opcode} {kind : OperandKind} (hkind : op.operandKind = some kind) :
    op.arity = 1 := by
  simp [Opcode.arity, Opcode.takesOperand, hkind]

theorem instruction_of_unknown {s : Statement} {labels : Labels}
    (hhead : ∀ op : Opcode, op.mnemonic ≠ s.head.text) :
    s.instruction labels = .error (located s.line s.head (.unknownMnemonic s.head.text)) := by
  have hnone : Opcode.ofMnemonic? s.head.text = none := by
    apply Option.eq_none_iff_forall_ne_some.2
    exact fun op hop => hhead op (Opcode.ofMnemonic?_eq_some_iff.1 hop)
  unfold Statement.instruction
  rw [hnone]

theorem instruction_of_arity {s : Statement} {labels : Labels} {op : Opcode}
    (hhead : s.head.text = op.mnemonic) (harity : s.operands.length ≠ op.arity) :
    s.instruction labels =
      .error (located s.line s.head (.arityMismatch op.mnemonic op.arity s.operands.length)) := by
  unfold Statement.instruction
  rw [hhead, Opcode.ofMnemonic?_mnemonic]
  dsimp only
  split
  · next hkind hnil =>
    rw [hnil, arity_of_none hkind] at harity
    exact absurd rfl harity
  · next hkind hone =>
    rw [hone, arity_of_some hkind] at harity
    exact absurd rfl harity
  · rfl

theorem instruction_of_unread {s : Statement} {labels : Labels} {op : Opcode} {kind : OperandKind}
    {t : Token} {cause : Fault} (hhead : s.head.text = op.mnemonic)
    (hkind : op.operandKind = some kind) (hoperands : s.operands = [t])
    (hread : readOperand labels kind t.text = .error cause) :
    s.instruction labels = .error (located s.line t cause) := by
  unfold Statement.instruction
  rw [hhead, Opcode.ofMnemonic?_mnemonic]
  simp only [hkind, hoperands, hread]

theorem Describes.statementFault_of_readOperand (h : Describes layout ls) {op : Opcode}
    {kind : OperandKind} {token : String} {cause : Fault} (hkind : op.operandKind = some kind)
    (hread : readOperand layout.labels kind token = .error cause) :
    StatementFault ls [op.mnemonic, token] 1 cause := by
  obtain ⟨hword, ⟨hname, rfl⟩ | ⟨rfl, hname, hlabel, rfl⟩⟩ :=
    (h.readOperand_eq_error_iff kind token cause).1 hread
  · exact .operand op kind hkind token hword hname
  · exact .label op hkind token hname hlabel

theorem Describes.fault_of_instruction (h : Describes layout ls) {s : Statement} {fault : Fault}
    (herror : s.instruction layout.labels = .error fault) :
    ∃ k token cause, StatementFault ls (tokensOf s) k cause ∧
      (s.head :: s.operands)[k]? = some token ∧
      fault = located s.line token cause := by
  by_cases hknown : ∃ op : Opcode, op.mnemonic = s.head.text
  · obtain ⟨op, hop⟩ := hknown
    unfold tokensOf
    by_cases harity : s.operands.length = op.arity
    · match hkind : op.operandKind with
      | none =>
        -- nothing is left to go wrong
        rw [arity_of_none hkind] at harity
        rw [instruction_of_bare hop.symm hkind (List.eq_nil_of_length_eq_zero harity)] at herror
        cases herror
      | some kind =>
        rw [arity_of_some hkind] at harity
        obtain ⟨t, hoperands⟩ := List.length_eq_one_iff.1 harity
        match hread : readOperand layout.labels kind t.text with
        | .ok w =>
          rw [instruction_of_read hop.symm hkind (by rw [hoperands]; rfl) hread] at herror
          cases herror
        | .error cause =>
          rw [instruction_of_unread hop.symm hkind hoperands hread] at herror
          cases herror
          refine ⟨1, t, cause, ?_, by rw [hoperands]; rfl, rfl⟩
          rw [hoperands, ← hop]
          exact h.statementFault_of_readOperand hkind hread
    · rw [instruction_of_arity hop.symm harity] at herror
      cases herror
      have hlength : s.operands.length = (s.operands.map Token.text).length :=
        (List.length_map _).symm
      refine ⟨0, s.head, _, ?_, rfl, rfl⟩
      rw [← hop, hlength]
      exact .arity op _ (hlength ▸ harity)
  · rw [instruction_of_unknown (not_exists.1 hknown)] at herror
    cases herror
    exact ⟨0, s.head, _, .mnemonic _ _ (not_exists.1 hknown), rfl, rfl⟩

/-- The fault of a statement, with the token to blame. -/
theorem Describes.instruction_eq_error_iff (h : Describes layout ls) (s : Statement)
    (fault : Fault) :
    s.instruction layout.labels = .error fault ↔
      ∃ k token cause, StatementFault ls (tokensOf s) k cause ∧
        (s.head :: s.operands)[k]? = some token ∧
        fault = located s.line token cause := by
  refine ⟨h.fault_of_instruction, ?_⟩
  rintro ⟨k, token, cause, hfault, htoken, rfl⟩
  generalize hts : tokensOf s = ts at hfault
  cases hfault with
  | mnemonic head operands hhead =>
    cases htoken
    obtain ⟨rfl, -⟩ := List.cons.inj hts
    exact instruction_of_unknown hhead
  | arity op operands harity =>
    cases htoken
    obtain ⟨hhead, rfl⟩ := List.cons.inj hts
    rw [List.length_map] at harity ⊢
    exact instruction_of_arity hhead harity
  | operand op kind hkind text hword hname =>
    obtain ⟨hhead, hoperands⟩ := List.cons.inj hts
    obtain ⟨t, ht, rfl⟩ := List.map_eq_singleton_iff.1 hoperands
    rw [ht] at htoken
    cases htoken
    exact instruction_of_unread hhead hkind ht
      ((h.readOperand_eq_error_iff kind token.text _).2 ⟨hword, .inl ⟨hname, rfl⟩⟩)
  | label op hkind text hname hlabel =>
    obtain ⟨hhead, hoperands⟩ := List.cons.inj hts
    obtain ⟨t, ht, rfl⟩ := List.map_eq_singleton_iff.1 hoperands
    rw [ht] at htoken
    cases htoken
    have hword : ∀ w, ¬ Spells token.text w := by
      intro w hw
      cases (read?_eq_none_of_isIdentifier hname).symm.trans (read?_eq_some_iff.2 hw)
    exact instruction_of_unread hhead hkind ht
      ((h.readOperand_eq_error_iff .address token.text _).2 ⟨hword, .inr ⟨rfl, hname, hlabel, rfl⟩⟩)

/-! ## 4. The second pass -/

/-- The statements of lines, of which the first has number `n`. -/
def statementsFrom (n : Nat) : List String → List Statement
  | [] => []
  | text :: rest =>
    match bodyTokens text with
    | [] => statementsFrom (n + 1) rest
    | head :: operands => ⟨n, head, operands⟩ :: statementsFrom (n + 1) rest

theorem statementsFrom_of_blank {n : Nat} {text : String} {rest : List String}
    (hbody : bodyTokens text = []) :
    statementsFrom n (text :: rest) = statementsFrom (n + 1) rest := by
  rw [statementsFrom, hbody]

theorem statementsFrom_of_cons {n : Nat} {text : String} {rest : List String} {head : Token}
    {operands : List Token} (hbody : bodyTokens text = head :: operands) :
    statementsFrom n (text :: rest) = ⟨n, head, operands⟩ :: statementsFrom (n + 1) rest := by
  rw [statementsFrom, hbody]

theorem addStatement_append_statementsFrom (layout : Layout) (n : Nat) (text : String)
    (rest : List String) :
    (layout.addStatement n (bodyTokens text)).statements.toList ++ statementsFrom (n + 1) rest =
      layout.statements.toList ++ statementsFrom n (text :: rest) := by
  cases hbody : bodyTokens text with
  | nil => rw [Layout.addStatement, statementsFrom_of_blank hbody]
  | cons head operands =>
    rw [Layout.addStatement, statementsFrom_of_cons hbody, Array.toList_push, List.append_assoc,
      List.singleton_append]

theorem statements_addLines {next : Layout} (n : Nat) (rest : List String)
    (hok : layout.addLines n rest = .ok next) :
    next.statements.toList = layout.statements.toList ++ statementsFrom n rest := by
  induction rest generalizing layout n with
  | nil =>
    cases hok
    exact (List.append_nil _).symm
  | cons text rest ih =>
    rw [Layout.addLines] at hok
    obtain ⟨-, hadd⟩ | ⟨name, head, -, -, -, hadd⟩ := addLine_eq layout n text
    · rw [hadd] at hok
      exact (ih (n + 1) hok).trans (addStatement_append_statementsFrom layout n text rest)
    · cases hdef : layout.labels.define name layout.statements.size with
      | error cause =>
        rw [hadd, hdef] at hok
        cases hok
      | ok labels =>
        -- a label definition leaves the statements alone
        rw [hadd, hdef] at hok
        exact (ih (n + 1) hok).trans
          (addStatement_append_statementsFrom ⟨labels, layout.statements⟩ n text rest)

theorem statements_of_blank {text : String} (hbody : bodyTokens text = []) (rest : List String) :
    statements ((text :: rest).map lineOf) = statements (rest.map lineOf) := by
  have hline : (lineOf text).body = [] := by
    rw [← map_text_bodyTokens, hbody, List.map_nil]
  simp [statements, hline]

theorem statements_of_cons {text : String} {head : Token} {operands : List Token}
    (hbody : bodyTokens text = head :: operands) (n : Nat) (rest : List String) :
    statements ((text :: rest).map lineOf) =
      tokensOf ⟨n, head, operands⟩ :: statements (rest.map lineOf) := by
  have hline : (lineOf text).body = tokensOf ⟨n, head, operands⟩ := by
    rw [← map_text_bodyTokens, hbody]
    rfl
  simp [statements, hline, tokensOf]

theorem Describes.isStatement_iff (h : Describes layout ls) (s : Statement) :
    IsStatement ls (tokensOf s) ↔ ∃ i, s.instruction layout.labels = .ok i := by
  simp only [Grammar.isStatement_iff, h.instruction_eq_ok_iff]

/-- The fault of the statement on a line is placed in the line. -/
theorem Describes.statementRejected_iff (h : Describes layout ls) {n : Nat} {text : String}
    {head : Token} {operands : List Token} (hbody : bodyTokens text = head :: operands)
    (fault : Fault) :
    StatementRejected ls n text fault ↔
      Statement.instruction layout.labels ⟨n, head, operands⟩ = .error fault := by
  have htokens : tokensOf ⟨n, head, operands⟩ = (lineOf text).body := by
    rw [← map_text_bodyTokens, hbody]
    rfl
  have hplace (k : Nat) :
      (head :: operands)[k]? = (Token.scan text)[(lineOf text).label.toList.length + k]? := by
    rw [← hbody, bodyTokens, List.getElem?_drop]
  rw [h.instruction_eq_error_iff, htokens]
  constructor
  · rintro ⟨k, token, cause, byte, hfault, hstands, rfl⟩
    exact ⟨k, ⟨token, byte + 1⟩, cause, hfault, (hplace k).trans (stands_iff.1 hstands), rfl⟩
  · rintro ⟨k, token, cause, hfault, htoken, rfl⟩
    obtain ⟨byte, hstands, hoffset⟩ := stands_of_scan ((hplace k).symm.trans htoken)
    exact ⟨k, token.text, cause, byte, hfault, hstands, by rw [located, hoffset]⟩

theorem not_statementRejected {n : Nat} {text : String} {fault : Fault}
    (hbody : bodyTokens text = []) :
    ¬ StatementRejected ls n text fault := by
  rintro ⟨k, token, cause, byte, hfault, -⟩
  rw [← map_text_bodyTokens, hbody] at hfault
  cases hfault

theorem instructions_cons_eq_error_iff {labels : Labels} {s : Statement} {rest : List Statement}
    {fault : Fault} :
    instructions labels (s :: rest) = .error fault ↔
      s.instruction labels = .error fault ∨
        (∃ i, s.instruction labels = .ok i) ∧ instructions labels rest = .error fault := by
  rw [instructions]
  cases s.instruction labels with
  | error cause => simp
  | ok i => cases instructions labels rest <;> simp

/-- The second pass stops at the first faulty statement. -/
theorem Describes.instructions_eq_error_iff (h : Describes layout ls) (n : Nat) (rest : List String)
    (fault : Fault) :
    instructions layout.labels (statementsFrom n rest) = .error fault ↔
      ∃ before text later, rest = before ++ text :: later ∧
        (∀ ts ∈ statements (before.map lineOf), IsStatement ls ts) ∧
          StatementRejected ls (n + before.length) text fault := by
  induction rest generalizing n with
  | nil =>
    constructor
    · nofun
    · rintro ⟨before, text, later, hnil, -⟩
      cases before <;> cases hnil
  | cons text rest ih =>
    have hcount (before : List String) : n + (text :: before).length = n + 1 + before.length := by
      rw [List.length_cons]
      omega
    rw [exists_split_cons]
    simp only [hcount, List.length_nil, Nat.add_zero]
    match hbody : bodyTokens text with
    | [] =>
      simp only [statementsFrom_of_blank hbody, ih (n + 1), statements_of_blank hbody,
        not_statementRejected hbody, and_false, false_or]
    | head :: operands =>
      simp only [statementsFrom_of_cons hbody, instructions_cons_eq_error_iff, ih (n + 1),
        statements_of_cons hbody n, List.forall_mem_cons, h.isStatement_iff,
        h.statementRejected_iff hbody]
      constructor
      · rintro (herror | ⟨hok, before, y, later, hrest, hbefore, herror⟩)
        · exact .inl ⟨nofun, herror⟩
        · exact .inr ⟨before, y, later, hrest, ⟨hok, hbefore⟩, herror⟩
      · rintro (⟨-, herror⟩ | ⟨before, y, later, hrest, ⟨hok, hbefore⟩, herror⟩)
        · exact .inl herror
        · exact .inr ⟨hok, before, y, later, hrest, hbefore, herror⟩

/-! ## 5. The assembler -/

theorem ofSource_eq_error_iff (source : String) (fault : Fault) :
    Layout.ofSource source = .error fault ↔
      ∃ before text later, texts source = before ++ text :: later ∧
        LabelsSound (before.map lineOf) ∧
        LabelRejected (before.map lineOf) (before.length + 1) text fault := by
  rw [Layout.ofSource, ← texts_eq, describes_empty.addLines_eq_error_iff]
  simp only [List.nil_append, Nat.add_comm 1]

theorem LabelsSound.exists_layout {source : String} (h : LabelsSound (lines source)) :
    ∃ layout, Layout.ofSource source = .ok layout := by
  rw [lines_eq] at h
  exact describes_empty.addLines_exists 1 (Text.lines source) h.1 h.2

theorem statements_ofSource {source : String} (hlayout : Layout.ofSource source = .ok layout) :
    layout.statements.toList = statementsFrom 1 (texts source) := by
  rw [texts_eq]
  exact statements_addLines 1 (Text.lines source) hlayout

theorem rejects_iff_of_error {source : String} {cause fault : Fault}
    (hlayout : Layout.ofSource source = .error cause) :
    Rejects source fault ↔ fault = cause := by
  have hsound : ¬ LabelsSound (lines source) := by
    intro hlabels
    obtain ⟨layout, hok⟩ := hlabels.exists_layout
    cases hlayout.symm.trans hok
  constructor
  · intro h
    cases h with
    | label before text later _ hsource hearlier hfault =>
      have herror :=
        (ofSource_eq_error_iff source fault).2 ⟨before, text, later, hsource, hearlier, hfault⟩
      exact Except.error.inj (herror.symm.trans hlayout)
    | tooLarge hlabels hcount => exact absurd hlabels hsound
    | statement before text later _ hlabels hcount hsource hearlier hfault =>
      exact absurd hlabels hsound
  · rintro rfl
    obtain ⟨before, text, later, hsource, hearlier, hfault⟩ :=
      (ofSource_eq_error_iff source fault).1 hlayout
    exact .label before text later fault hsource hearlier hfault

theorem rejects_iff_of_ok {source : String} {fault : Fault}
    (hlayout : Layout.ofSource source = .ok layout) :
    Rejects source fault ↔
      (Program.capacity ≤ layout.statements.size ∧
          fault = .programTooLarge layout.statements.size Program.capacity) ∨
        (layout.statements.size < Program.capacity ∧
          instructions layout.labels layout.statements.toList = .error fault) := by
  have h := describes_ofSource hlayout
  rw [statements_ofSource hlayout, h.instructions_eq_error_iff, h.size_statements]
  constructor
  · intro hrejects
    cases hrejects with
    | label before text later _ hsource hearlier hfault =>
      have herror :=
        (ofSource_eq_error_iff source fault).2 ⟨before, text, later, hsource, hearlier, hfault⟩
      cases hlayout.symm.trans herror
    | tooLarge hlabels hcount => exact .inl ⟨hcount, rfl⟩
    | statement before text later _ hlabels hcount hsource hearlier hfault =>
      rw [Nat.add_comm] at hfault
      exact .inr ⟨hcount, before, text, later, hsource, hearlier, hfault⟩
  · rintro (⟨hcount, rfl⟩ | ⟨hcount, before, text, later, hsource, hearlier, hfault⟩)
    · exact .tooLarge h.labelsSound hcount
    · rw [Nat.add_comm] at hfault
      exact .statement before text later fault h.labelsSound hcount hsource hearlier hfault

theorem exists_program_of_instructions {source : String} {is : List Instruction}
    (hlayout : Layout.ofSource source = .ok layout)
    (hsize : layout.statements.size < Program.capacity)
    (hins : instructions layout.labels layout.statements.toList = .ok is) :
    ∃ p, assemble source = .ok p := by
  have h := describes_ofSource hlayout
  have hdenotes := (h.instructions_eq_ok_iff layout.statements.toList is).1 hins
  rw [h.statements_eq] at hdenotes
  rw [h.size_statements] at hsize
  have hfits : is.toArray.size ≤ Program.capacity := by
    rw [List.size_toArray, ← hdenotes.length_eq]
    exact Nat.le_of_lt hsize
  exact ⟨⟨is.toArray, hfits⟩, (h.assemble_eq_ok_iff hlayout _).2 ⟨hsize, hdenotes⟩⟩

/-- The assembler fails with the fault that the source is rejected with. -/
theorem assemble_eq_error_iff (source : String) (e : Trap) :
    assemble source = .error e ↔ ∃ fault, e = .fault fault ∧ Rejects source fault := by
  match hlayout : Layout.ofSource source with
  | .error cause =>
    have hfails : assemble source = .error (.fault cause) := by
      rw [assemble, hlayout]
    rw [hfails]
    simp [rejects_iff_of_error hlayout, eq_comm]
  | .ok layout =>
    simp only [rejects_iff_of_ok hlayout]
    by_cases hsize : Program.capacity ≤ layout.statements.size
    · have hfails : assemble source =
          .error (.fault (.programTooLarge layout.statements.size Program.capacity)) := by
        rw [assemble, hlayout]
        exact if_pos hsize
      rw [hfails]
      simp [hsize, Nat.not_lt.2 hsize, eq_comm]
    · match hins : instructions layout.labels layout.statements.toList with
      | .error cause =>
        have hfails : assemble source = .error (.fault cause) := by
          rw [assemble, hlayout]
          simp only [hsize, if_false, hins]
        rw [hfails]
        simp [hsize, Nat.lt_of_not_le hsize, eq_comm]
      | .ok is =>
        obtain ⟨p, hp⟩ := exists_program_of_instructions hlayout (Nat.lt_of_not_le hsize) hins
        rw [hp]
        simp [hsize]

/-- A rejection names a line of the source, so that its report can quote the line. -/
theorem quotes_located {source : String} {before : List String} {text : String}
    {later : List String} (hsource : texts source = before ++ text :: later) (offset : Nat)
    (message : String) :
    Quotes source (.located (before.length + 1) offset message) := by
  have hline : (texts source)[before.length]? = some text := by
    rw [hsource, List.getElem?_append_right (Nat.le_refl _), Nat.sub_self]
    rfl
  refine ⟨Nat.le_add_left _ _, ?_, text, hline, fun file => ?_⟩
  · rw [hsource, List.length_append, List.length_cons]
    omega
  · rw [texts_eq] at hline
    unfold diagnostic
    simp only [Nat.add_sub_cancel, hline]

theorem quotes_of_rejects {source : String} {fault : Fault} (h : Rejects source fault) :
    Quotes source fault := by
  cases h with
  | label before text later _ hsource hearlier hfault =>
    obtain ⟨name, cause, byte, -, -, -, rfl⟩ := hfault
    exact quotes_located hsource _ _
  | tooLarge hlabels hcount => trivial
  | statement before text later _ hlabels hcount hsource hearlier hfault =>
    obtain ⟨k, token, cause, byte, -, -, rfl⟩ := hfault
    exact quotes_located hsource _ _

/-- A source that is rejected is rejected with its first fault, placed at the first byte of the
token to blame, and the report quotes the line of that token. -/
theorem assemble_reports_first_fault (source : String) (e : Trap) :
    assemble source = .error e ↔
      ∃ fault, e = .fault fault ∧ Rejects source fault ∧ Quotes source fault := by
  rw [assemble_eq_error_iff]
  constructor
  · rintro ⟨fault, rfl, h⟩
    exact ⟨fault, rfl, h, quotes_of_rejects h⟩
  · rintro ⟨fault, rfl, h, -⟩
    exact ⟨fault, rfl, h⟩

end StackMachine.Grammar

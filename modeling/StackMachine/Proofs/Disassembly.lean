import StackMachine.Proofs.SourceFaults

/-!
A listing is a source. Assembling it gives the program back, with operands that are not taken set to
zero; a listing with a record that names no operation is rejected at the first such record.
-/

namespace StackMachine

/-! ## 1. Listings -/

/-- The record with operand zero, unless its operation takes the operand. -/
def Instruction.normal (i : Instruction) : Instruction :=
  match i.opcode? with
  | some op => if op.takesOperand then i else { i with operand := 0 }
  | none => i

def Program.normal (p : Program) : Program :=
  ⟨p.records.map Instruction.normal, by rw [Array.size_map]; exact p.size_le⟩

/-- The listing of a program as one text. -/
def Program.disassembly (p : Program) : String := "\n".intercalate p.listing

def Instruction.words (i : Instruction) : List String :=
  match i.opcode? with
  | some op => if op.takesOperand then [op.mnemonic, i.operand.text] else [op.mnemonic]
  | none => ["<illegal", Decimal.ofNat i.tag.toNat ++ ">"]

/-- A line of a listing is its words with blanks between them. -/
theorem Instruction.text_eq (i : Instruction) : i.text = " ".intercalate i.words := by
  rw [text, words]
  cases i.opcode? with
  | some op =>
    dsimp only
    split <;> rfl
  | none =>
    apply String.toList_inj.1
    change _ = ("<illegal" ++ " " ++ (Decimal.ofNat i.tag.toNat ++ ">")).toList
    simp only [String.toList_append]
    rfl

namespace Grammar

open Assembly

/-! ## 2. Words -/

/-- The text has characters, all of them from `-` to `~`. None of these separates tokens or starts a
comment. -/
def isPlain (text : String) : Bool :=
  !text.toList.isEmpty && text.toList.all fun c => 45 ≤ c.toNat && c.toNat ≤ 126

theorem isPlain_iff {text : String} :
    isPlain text = true ↔ text.toList ≠ [] ∧ ∀ c ∈ text.toList, 45 ≤ c.toNat ∧ c.toNat ≤ 126 := by
  simp [isPlain]

theorem isPlain_append {a b : String} (ha : isPlain a = true) (hb : isPlain b = true) :
    isPlain (a ++ b) = true := by
  rw [isPlain_iff] at ha hb ⊢
  rw [String.toList_append]
  refine ⟨List.append_ne_nil_of_left_ne_nil ha.1 _, fun c hc => ?_⟩
  rcases List.mem_append.1 hc with hc | hc
  · exact ha.2 c hc
  · exact hb.2 c hc

theorem not_special_of_isPlain {text : String} (h : isPlain text = true) {c : Char}
    (hc : c ∈ text.toList) :
    isSeparator c = false ∧ c ≠ '#' := by
  obtain ⟨hlo, hhi⟩ := (isPlain_iff.1 h).2 c hc
  have hranges : ∀ r ∈ Text.blankRanges, r.2 < 45 ∨ 126 < r.1 := by decide
  have hblank : Text.isBlank c = false := by
    apply List.any_eq_false.2
    intro r hr
    have hr := hranges r hr
    simp only [Bool.and_eq_true, decide_eq_true_eq]
    omega
  -- the comma and the number sign stand before the minus sign
  have hcomma : c ≠ ',' := by
    rintro rfl
    exact absurd hlo (by decide)
  refine ⟨?_, ?_⟩
  · rw [isSeparator, hblank, beq_false_of_ne hcomma]
    rfl
  · rintro rfl
    exact absurd hlo (by decide)

theorem isPlain_ofNat (n : Nat) : isPlain (Decimal.ofNat n) = true := by
  rw [isPlain_iff, Decimal.ofNat, String.toList_ofList]
  refine ⟨Nat.toDigits_ne_nil, fun c hc => ?_⟩
  have hdigit := Nat.isDigit_of_mem_toDigits (by decide) (by decide) hc
  have hzero : 48 ≤ c.toNat := of_decide_eq_true (Bool.and_eq_true_iff.1 hdigit).1
  have hnine : c.toNat ≤ 57 := of_decide_eq_true (Bool.and_eq_true_iff.1 hdigit).2
  omega

theorem isPlain_text (w : Word) : isPlain w.text = true := by
  unfold Word.text
  cases w.toInt with
  | ofNat n => exact isPlain_ofNat n
  | negSucc n =>
    have hsign : Decimal.ofInt (.negSucc n) = "-" ++ Decimal.ofNat (n + 1) := by
      apply String.toList_inj.1
      simp only [String.toList_append, Decimal.ofInt, Decimal.ofNat, String.toList_ofList]
      rfl
    rw [hsign]
    exact isPlain_append rfl (isPlain_ofNat (n + 1))

theorem isPlain_mnemonic (op : Opcode) : isPlain op.mnemonic = true := by
  cases op <;> rfl

theorem words_cases (i : Instruction) :
    (∃ op : Opcode, i.words = [op.mnemonic]) ∨
      (∃ op : Opcode, i.words = [op.mnemonic, i.operand.text]) ∨
      i.words = ["<illegal", Decimal.ofNat i.tag.toNat ++ ">"] := by
  unfold Instruction.words
  cases i.opcode? with
  | none => exact .inr (.inr rfl)
  | some op =>
    dsimp only
    split
    · exact .inr (.inl ⟨op, rfl⟩)
    · exact .inl ⟨op, rfl⟩

theorem isPlain_of_mem_words {i : Instruction} {word : String} (h : word ∈ i.words) :
    isPlain word = true := by
  obtain ⟨op, hwords⟩ | ⟨op, hwords⟩ | hwords := words_cases i
  · rw [hwords, List.mem_singleton] at h
    exact h ▸ isPlain_mnemonic op
  · rw [hwords, List.mem_pair] at h
    rcases h with rfl | rfl
    · exact isPlain_mnemonic op
    · exact isPlain_text i.operand
  · rw [hwords, List.mem_pair] at h
    rcases h with rfl | rfl
    · rfl
    · exact isPlain_append (isPlain_ofNat _) rfl

theorem pieces_intercalate {ws : List (List Char)}
    (h : ∀ w ∈ ws, w ≠ [] ∧ ∀ c ∈ w, isSeparator c = false) :
    pieces ([' '].intercalate ws) = ws := by
  induction ws with
  | nil => rfl
  | cons w ws ih =>
    obtain ⟨hne, hrun⟩ := h w List.mem_cons_self
    have hws := ih fun v hv => h v (List.mem_cons_of_mem w hv)
    cases ws with
    | nil =>
      rw [List.intercalate_singleton]
      exact pieces_of_forall hne hrun
    | cons v ws =>
      have hblank : isSeparator ' ' = true := by decide
      have hhead : ∀ c ∈ (' ' :: [' '].intercalate (v :: ws)).head?, isSeparator c = true := by
        rintro c ⟨⟩
        exact hblank
      rw [List.intercalate_cons_cons, List.append_assoc, List.singleton_append,
        pieces_run_append hne hrun hhead, pieces_separator hblank, hws]

theorem mem_intercalate {c : Char} {ws : List (List Char)} (h : c ∈ [' '].intercalate ws) :
    c = ' ' ∨ ∃ w ∈ ws, c ∈ w := by
  induction ws with
  | nil => cases h
  | cons w ws ih =>
    cases ws with
    | nil =>
      rw [List.intercalate_singleton] at h
      exact .inr ⟨w, List.mem_cons_self, h⟩
    | cons v ws =>
      rw [List.intercalate_cons_cons] at h
      rcases List.mem_append.1 h with h | h
      · rcases List.mem_append.1 h with h | h
        · exact .inr ⟨w, List.mem_cons_self, h⟩
        · exact .inl (List.mem_singleton.1 h)
      · rcases ih h with h | ⟨u, hu, hc⟩
        · exact .inl h
        · exact .inr ⟨u, List.mem_cons_of_mem w hu, hc⟩

/-! ## 3. Lines -/

theorem map_ofList_toList (texts : List String) :
    (texts.map String.toList).map String.ofList = texts := by
  rw [List.map_map]
  exact List.map_id'' (fun text => String.ofList_toList) texts

theorem toList_text (i : Instruction) :
    i.text.toList = [' '].intercalate (i.words.map String.toList) := by
  rw [i.text_eq, String.toList_intercalate]
  rfl

theorem mem_text {i : Instruction} {c : Char} (h : c ∈ i.text.toList) :
    c = ' ' ∨ (isSeparator c = false ∧ c ≠ '#') := by
  rw [toList_text] at h
  rcases mem_intercalate h with h | ⟨w, hw, hc⟩
  · exact .inl h
  · obtain ⟨word, hword, rfl⟩ := List.mem_map.1 hw
    exact .inr (not_special_of_isPlain (isPlain_of_mem_words hword) hc)

theorem tokens_text (i : Instruction) : tokens i.text = i.words := by
  have hcode : i.text.toList.takeWhile (· ≠ '#') = i.text.toList := by
    apply List.takeWhile_eq_self_iff.2
    intro c hc
    rcases mem_text hc with rfl | ⟨-, hne⟩
    · decide
    · exact decide_eq_true hne
  have hwords : pieces i.text.toList = i.words.map String.toList := by
    rw [toList_text]
    apply pieces_intercalate
    intro w hw
    obtain ⟨word, hword, rfl⟩ := List.mem_map.1 hw
    have hplain := isPlain_of_mem_words hword
    exact ⟨(isPlain_iff.1 hplain).1, fun c hc => (not_special_of_isPlain hplain hc).1⟩
  rw [tokens, hcode, hwords, map_ofList_toList]

theorem definedName?_mnemonic (op : Opcode) : definedName? op.mnemonic = none := by
  cases op <;> decide

theorem exists_words_eq_cons (i : Instruction) :
    ∃ head rest, i.words = head :: rest ∧ definedName? head = none := by
  obtain ⟨op, hwords⟩ | ⟨op, hwords⟩ | hwords := words_cases i
  · exact ⟨_, _, hwords, definedName?_mnemonic op⟩
  · exact ⟨_, _, hwords, definedName?_mnemonic op⟩
  · exact ⟨_, _, hwords, by decide⟩

theorem dropReturn_of_notMem {row : List Char} (h : '\r' ∉ row) : dropReturn row = row :=
  if_neg fun hlast => h (List.mem_of_getLast? hlast)

theorem rows_intercalate {ls : List (List Char)} (h : ∀ l ∈ ls, l ≠ [] ∧ '\n' ∉ l ∧ '\r' ∉ l) :
    rows (['\n'].intercalate ls) = ls := by
  rcases List.eq_nil_or_concat ls with rfl | ⟨init, last, rfl⟩
  · rfl
  · rw [List.concat_eq_append] at h ⊢
    have hsplit := List.splitOn_intercalate '\n' (fun l hl => (h l hl).2.1) (by simp)
    have hkeep : init.map dropReturn = init := by
      have hsame : ∀ l ∈ init, dropReturn l = id l := fun l hl =>
        dropReturn_of_notMem (h l (List.mem_append_left _ hl)).2.2
      rw [List.map_congr_left hsame, List.map_id]
    -- the last row is kept because it is not empty
    have hlast := (h last (List.mem_append_right _ List.mem_cons_self)).1
    rw [rows, hsplit, List.dropLast_concat, List.getLast?_concat, hkeep]
    simp [hlast]

theorem texts_disassembly (p : Program) : texts p.disassembly = p.listing := by
  have hchars : p.disassembly.toList = ['\n'].intercalate (p.listing.map String.toList) := by
    rw [Program.disassembly, String.toList_intercalate]
    rfl
  have hrows : rows p.disassembly.toList = p.listing.map String.toList := by
    rw [hchars]
    apply rows_intercalate
    intro row hrow
    obtain ⟨text, htext, rfl⟩ := List.mem_map.1 hrow
    obtain ⟨i, -, rfl⟩ := List.mem_map.1 htext
    refine ⟨?_, ?_, ?_⟩
    · intro hnil
      obtain ⟨head, rest, hwords, -⟩ := exists_words_eq_cons i
      have htokens := tokens_text i
      rw [tokens, hnil, hwords] at htokens
      cases htokens
    -- line ends separate tokens, and the only separator of the line is the blank
    · intro hmem
      rcases mem_text hmem with h | ⟨h, -⟩
      · cases h
      · cases h
    · intro hmem
      rcases mem_text hmem with h | ⟨h, -⟩
      · cases h
      · cases h
  rw [texts, hrows, map_ofList_toList]

theorem lineOf_text (i : Instruction) : lineOf i.text = ⟨none, i.words⟩ := by
  obtain ⟨head, rest, hwords, hname⟩ := exists_words_eq_cons i
  rw [lineOf, tokens_text, hwords, ofTokens_cons, hname]

theorem labels_listing (is : List Instruction) :
    labels ((is.map Instruction.text).map lineOf) = [] := by
  apply List.filterMap_eq_nil_iff.2
  intro l hl
  obtain ⟨text, htext, rfl⟩ := List.mem_map.1 hl
  obtain ⟨i, -, rfl⟩ := List.mem_map.1 htext
  rw [lineOf_text]

theorem statements_listing (is : List Instruction) :
    statements ((is.map Instruction.text).map lineOf) = is.map Instruction.words := by
  induction is with
  | nil => rfl
  | cons i is ih =>
    obtain ⟨head, rest, hwords, -⟩ := exists_words_eq_cons i
    unfold statements at ih ⊢
    rw [List.map_cons, List.map_cons, List.map_cons, lineOf_text, List.filter_cons_of_pos, ih,
      List.map_cons]
    simp [hwords]

theorem lines_disassembly (p : Program) :
    lines p.disassembly = (p.records.toList.map Instruction.text).map lineOf := by
  rw [← map_lineOf_texts, texts_disassembly]
  rfl

/-! ## 4. Records -/

section
variable {op : Opcode} {kind : OperandKind} {ls : List Line} {i : Instruction}

theorem words_of_bare (hkind : op.operandKind = none) (w : Word) :
    Instruction.words ⟨op.tag, w⟩ = [op.mnemonic] := by
  simp [Instruction.words, Instruction.opcode?, Opcode.takesOperand, hkind]

theorem words_of_operand (hkind : op.operandKind = some kind) (w : Word) :
    Instruction.words ⟨op.tag, w⟩ = [op.mnemonic, w.text] := by
  simp [Instruction.words, Instruction.opcode?, Opcode.takesOperand, hkind]

theorem normal_of_bare (hkind : op.operandKind = none) (w : Word) :
    Instruction.normal ⟨op.tag, w⟩ = ⟨op.tag, 0⟩ := by
  simp [Instruction.normal, Instruction.opcode?, Opcode.takesOperand, hkind]

theorem normal_of_operand (hkind : op.operandKind = some kind) (w : Word) :
    Instruction.normal ⟨op.tag, w⟩ = ⟨op.tag, w⟩ := by
  simp [Instruction.normal, Instruction.opcode?, Opcode.takesOperand, hkind]

theorem words_of_unknown (h : ∀ op : Opcode, op.tag ≠ i.tag) :
    i.words = ["<illegal", Decimal.ofNat i.tag.toNat ++ ">"] := by
  have hop : i.opcode? = none :=
    Option.eq_none_iff_forall_ne_some.2 fun op hop => h op (Opcode.ofTag?_eq_some_iff.1 hop)
  rw [Instruction.words, hop]

theorem denotes_words (h : ∃ op : Opcode, op.tag = i.tag) : Denotes ls i.words i.normal := by
  obtain ⟨tag, w⟩ := i
  obtain ⟨op, rfl⟩ := h
  match hkind : op.operandKind with
  | none =>
    rw [words_of_bare hkind, normal_of_bare hkind]
    exact .bare op hkind
  | some kind =>
    rw [words_of_operand hkind, normal_of_operand hkind]
    exact .number op kind hkind w.text w (read?_eq_some_iff.1 w.read?_text)

theorem Denotes.normal_eq {ts : List String} (h : Denotes ls ts i) : i.normal = i := by
  cases h with
  | bare op hkind => exact normal_of_bare hkind 0
  | number op kind hkind token w hw => exact normal_of_operand hkind w
  | label op hkind token n hn => exact normal_of_operand hkind (Int64.ofNat n)

theorem Denotes.exists_opcode {ts : List String} (h : Denotes ls ts i) :
    ∃ op : Opcode, op.tag = i.tag := by
  cases h with
  | bare op hkind => exact ⟨op, rfl⟩
  | number op kind hkind token w hw => exact ⟨op, rfl⟩
  | label op hkind token n hn => exact ⟨op, rfl⟩

/-- The first word of a record that names no operation opens the line and is no mnemonic. -/
theorem statementRejected_of_unknown (h : ∀ op : Opcode, op.tag ≠ i.tag) (n : Nat) :
    StatementRejected ls n i.text (.located n 1 "unknown instruction: <illegal") := by
  have hwords := words_of_unknown h
  have hmnemonic : ∀ op : Opcode, op.mnemonic ≠ "<illegal" := by
    intro op
    cases op <;> decide
  refine ⟨0, "<illegal", .unknownMnemonic "<illegal", 0, ?_, ?_, ?_⟩
  · rw [lineOf_text, hwords]
    exact .mnemonic _ _ hmnemonic
  · rw [lineOf_text]
    have htoken : (tokens i.text)[0]? = some "<illegal" := by
      rw [tokens_text, hwords]
      rfl
    refine ⟨htoken, [], ' ' :: (Decimal.ofNat i.tag.toNat ++ ">").toList, ?_, rfl, nofun, rfl⟩
    rw [toList_text, hwords, List.map_cons, List.map_singleton, List.intercalate_cons_cons,
      List.intercalate_singleton, List.append_assoc]
    rfl
  · rfl

end

/-! ## 5. Programs -/

section
variable {p : Program}

theorem labelsSound_disassembly : LabelsSound (lines p.disassembly) := by
  unfold LabelsSound
  rw [lines_disassembly, labels_listing]
  exact ⟨nofun, List.nodup_nil⟩

theorem statements_disassembly :
    statements (lines p.disassembly) = p.records.toList.map Instruction.words := by
  rw [lines_disassembly, statements_listing]

theorem length_statements_disassembly : (statements (lines p.disassembly)).length = p.size := by
  rw [statements_disassembly, List.length_map, Array.length_toList, Program.size]

theorem assemble_disassembly_of_known (hsize : p.size ≤ 1023)
    (h : ∀ i ∈ p.records, ∃ op : Opcode, op.tag = i.tag) :
    assemble p.disassembly = .ok p.normal := by
  have hdenotes : List.Forall₂ (Denotes (lines p.disassembly)) (statements (lines p.disassembly))
      p.normal.records.toList := by
    rw [statements_disassembly, Program.normal, Array.toList_map, List.forall₂_map_left_iff,
      List.forall₂_map_right_iff, List.forall₂_same]
    exact fun i hi => denotes_words (h i (Array.mem_toList_iff.1 hi))
  refine (assemble_eq_ok_iff _ _).2 ⟨?_, hdenotes⟩
  exact {
    identifiers := labelsSound_disassembly.1
    distinct := labelsSound_disassembly.2
    fits := length_statements_disassembly.trans_le hsize
    wellFormed := forall_isStatement_iff.2 ⟨_, hdenotes⟩ }

theorem assemble_disassembly_of_unknown (hsize : p.size ≤ 1023) {before : List Instruction}
    {i : Instruction} {later : List Instruction}
    (hrecords : p.records.toList = before ++ i :: later)
    (hbefore : ∀ j ∈ before, ∃ op : Opcode, op.tag = j.tag) (hi : ∀ op : Opcode, op.tag ≠ i.tag) :
    assemble p.disassembly =
      .error (.fault (.located (before.length + 1) 1 "unknown instruction: <illegal")) := by
  have hsource : texts p.disassembly =
      before.map Instruction.text ++ i.text :: later.map Instruction.text := by
    rw [texts_disassembly, Program.listing, hrecords, List.map_append, List.map_cons]
  have hearlier : ∀ ts ∈ statements ((before.map Instruction.text).map lineOf),
      IsStatement (lines p.disassembly) ts := by
    intro ts hts
    rw [statements_listing] at hts
    obtain ⟨j, hj, rfl⟩ := List.mem_map.1 hts
    exact isStatement_iff.2 ⟨_, denotes_words (hbefore j hj)⟩
  have hrejected :
      StatementRejected (lines p.disassembly) ((before.map Instruction.text).length + 1) i.text
      (.located (before.length + 1) 1 "unknown instruction: <illegal") := by
    rw [List.length_map]
    exact statementRejected_of_unknown hi _
  have hcount : (statements (lines p.disassembly)).length < 1024 := by
    rw [length_statements_disassembly]
    omega
  exact (assemble_eq_error_iff _ _).2
    ⟨_, rfl, .statement _ _ _ _ labelsSound_disassembly hcount hsource hearlier hrejected⟩

theorem exists_denotes_of_assemble {source : String} (h : assemble source = .ok p) {i : Instruction}
    (hi : i ∈ p.records) : ∃ ts, Denotes (lines source) ts i := by
  obtain ⟨ts, -, hts⟩ := exists_statement_of_assemble h hi
  exact ⟨ts, hts⟩

theorem normal_eq_of_assemble {source : String} (h : assemble source = .ok p) : p.normal = p := by
  have hsame : ∀ i ∈ p.records, i.normal = id i := by
    intro i hi
    obtain ⟨ts, hts⟩ := exists_denotes_of_assemble h hi
    exact hts.normal_eq
  obtain ⟨records, hrecords⟩ := p
  rw [Program.normal, Program.mk.injEq, Array.map_congr_left hsame, Array.map_id]

/-- The listing of a program assembles to the program, up to operands that are not taken. A listing
with records that name no operation is rejected at the first byte of the line of the first of
them. -/
theorem assemble_disassembly (p : Program) (hsize : p.size ≤ 1023) :
    ((∀ i ∈ p.records, ∃ op : Opcode, op.tag = i.tag) → assemble p.disassembly = .ok p.normal) ∧
      (∀ source, assemble source = .ok p → p.normal = p ∧ assemble p.disassembly = .ok p) ∧
      ∀ before i later, p.records.toList = before ++ i :: later →
        (∀ j ∈ before, ∃ op : Opcode, op.tag = j.tag) → (∀ op : Opcode, op.tag ≠ i.tag) →
          assemble p.disassembly =
            .error (.fault (.located (before.length + 1) 1 "unknown instruction: <illegal")) := by
  refine ⟨assemble_disassembly_of_known hsize, ?_, ?_⟩
  · intro source hsource
    have hnormal := normal_eq_of_assemble hsource
    have hknown : ∀ i ∈ p.records, ∃ op : Opcode, op.tag = i.tag := by
      intro i hi
      obtain ⟨ts, hts⟩ := exists_denotes_of_assemble hsource hi
      exact hts.exists_opcode
    refine ⟨hnormal, ?_⟩
    rw [assemble_disassembly_of_known hsize hknown, hnormal]
  · intro before i later hrecords hbefore hi
    exact assemble_disassembly_of_unknown hsize hrecords hbefore hi

/-- The least word is read back, an operand that is not taken is lost, and tag 77 names no
operation. -/
theorem assemble_disassembly_least_word :
    (Program.size ⟨#[⟨1, Int64.minValue⟩, ⟨10, 7⟩], by decide⟩ ≤ 1023 ∧
      assemble (Program.disassembly ⟨#[⟨1, Int64.minValue⟩, ⟨10, 7⟩], by decide⟩) =
        .ok ⟨#[⟨1, Int64.minValue⟩, ⟨10, 0⟩], by decide⟩) ∧
    (Program.size ⟨#[⟨1, Int64.minValue⟩, ⟨10, 0⟩], by decide⟩ ≤ 1023 ∧
      assemble (Program.disassembly ⟨#[⟨1, Int64.minValue⟩, ⟨10, 0⟩], by decide⟩) =
        .ok ⟨#[⟨1, Int64.minValue⟩, ⟨10, 0⟩], by decide⟩) ∧
    (Program.size ⟨#[⟨0, 0⟩, ⟨77, 5⟩, ⟨78, 0⟩], by decide⟩ ≤ 1023 ∧
      assemble (Program.disassembly ⟨#[⟨0, 0⟩, ⟨77, 5⟩, ⟨78, 0⟩], by decide⟩) =
        .error (.fault (.located 2 1 "unknown instruction: <illegal"))) := by
  have hknown :
      ∀ i ∈ #[(⟨1, Int64.minValue⟩ : Instruction), ⟨10, 7⟩], ∃ op : Opcode, op.tag = i.tag := by
    intro i hi
    rcases List.mem_cons.1 (Array.mem_toList_iff.2 hi) with rfl | hi
    · exact ⟨.push, rfl⟩
    · rw [List.mem_singleton.1 hi]
      exact ⟨.halt, rfl⟩
  have hnormal : Program.normal ⟨#[⟨1, Int64.minValue⟩, ⟨10, 7⟩], by decide⟩ =
      ⟨#[⟨1, Int64.minValue⟩, ⟨10, 0⟩], by decide⟩ := by
    rw [Program.normal, Program.mk.injEq, List.map_toArray]
    rfl
  have hread : assemble (Program.disassembly ⟨#[⟨1, Int64.minValue⟩, ⟨10, 7⟩], by decide⟩) =
      .ok ⟨#[⟨1, Int64.minValue⟩, ⟨10, 0⟩], by decide⟩ := by
    rw [← hnormal]
    exact (assemble_disassembly _ (by decide)).1 hknown
  have hfirst : ∀ j ∈ [(⟨0, 0⟩ : Instruction)], ∃ op : Opcode, op.tag = j.tag := by
    intro j hj
    rw [List.mem_singleton.1 hj]
    exact ⟨.nop, rfl⟩
  have hunknown : ∀ op : Opcode, op.tag ≠ 77 := by
    intro op
    cases op <;> decide
  refine ⟨⟨by decide, hread⟩, ⟨by decide, ?_⟩, ⟨by decide, ?_⟩⟩
  · exact ((assemble_disassembly _ (by decide)).2.1 _ hread).2
  · exact (assemble_disassembly _ (by decide)).2.2 [⟨0, 0⟩] ⟨77, 5⟩ [⟨78, 0⟩] rfl hfirst hunknown

end

end Grammar
end StackMachine

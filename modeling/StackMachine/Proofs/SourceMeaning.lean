import Mathlib.Data.List.Nodup
import StackMachine.Proofs.Lexing

/-!
The assembler accepts exactly the grammar, and gives every source the program that it denotes.

The first pass keeps a layout that describes the lines read so far; the second pass turns every
statement into the record that the described lines denote.
-/

namespace StackMachine.Grammar

open Assembly

variable {ls : List Line} {l : Line} {name : String} {n : Nat}

/-! ## 1. One more line -/

theorem labels_append (ls : List Line) (l : Line) :
    labels (ls ++ [l]) = labels ls ++ l.label.toList := by
  unfold labels
  rw [List.filterMap_append]
  cases hl : l.label <;> simp [hl]

theorem statements_append (ls : List Line) (l : Line) :
    statements (ls ++ [l]) = statements ls ++ if l.body = [] then [] else [l.body] := by
  unfold statements
  rw [List.map_append, List.filter_append]
  by_cases hbody : l.body = [] <;> simp [hbody]

theorem address_append :
    Address (ls ++ [l]) name n ↔
      Address ls name n ∨ (l.label = some name ∧ n = (statements ls).length) := by
  constructor
  · rintro ⟨before, line, later, heq, hlabel, rfl⟩
    -- the defining line is the new one, or it stood there before
    rcases List.eq_nil_or_concat later with rfl | ⟨later, last, rfl⟩
    · obtain ⟨rfl, hline⟩ := List.append_inj' heq rfl
      cases hline
      exact .inr ⟨hlabel, rfl⟩
    · rw [List.concat_eq_append, ← List.cons_append, ← List.append_assoc] at heq
      obtain ⟨rfl, -⟩ := List.append_inj' heq rfl
      exact .inl ⟨before, line, later, rfl, hlabel, rfl⟩
  · rintro (⟨before, line, later, rfl, hlabel, rfl⟩ | ⟨hlabel, rfl⟩)
    · exact ⟨before, line, later ++ [l], by simp, hlabel, rfl⟩
    · exact ⟨ls, l, [], rfl, hlabel, rfl⟩

theorem mem_labels_iff : name ∈ labels ls ↔ ∃ n, Address ls name n := by
  unfold labels
  rw [List.mem_filterMap]
  constructor
  · rintro ⟨line, hline, hlabel⟩
    obtain ⟨before, later, rfl⟩ := List.append_of_mem hline
    exact ⟨_, before, line, later, rfl, hlabel, rfl⟩
  · rintro ⟨n, before, line, later, rfl, hlabel, -⟩
    exact ⟨line, by simp, hlabel⟩

/-! ## 2. The first pass -/

def tokensOf (s : Statement) : List String := s.head.text :: s.operands.map Token.text

/-- The layout that the first pass has made of the lines `ls`. -/
structure Describes (layout : Layout) (ls : List Line) : Prop where
  statements_eq : layout.statements.toList.map tokensOf = statements ls
  find?_eq (name : String) (n : Nat) : layout.labels.find? name = some n ↔ Address ls name n
  identifiers : ∀ name ∈ labels ls, IsIdentifier name
  distinct : (labels ls).Nodup

variable {layout next : Layout}

theorem describes_empty : Describes .empty [] where
  statements_eq := rfl
  find?_eq := by
    intro name n
    constructor
    · nofun
    · rintro ⟨before, line, later, hnil, -⟩
      cases before <;> cases hnil
  identifiers := nofun
  distinct := List.nodup_nil

theorem Describes.size_statements (h : Describes layout ls) :
    layout.statements.size = (statements ls).length := by
  rw [← h.statements_eq, List.length_map, Array.length_toList]

theorem Describes.find?_eq_none_iff (h : Describes layout ls) :
    layout.labels.find? name = none ↔ name ∉ labels ls := by
  rw [mem_labels_iff, Option.eq_none_iff_forall_ne_some]
  constructor
  · rintro hnone ⟨n, hn⟩
    exact hnone n ((h.find?_eq name n).2 hn)
  · intro hnone n hn
    exact hnone ⟨n, (h.find?_eq name n).1 hn⟩

theorem define_eq_ok_iff {labels labels' : Labels} :
    labels.define name n = .ok labels' ↔
      IsIdentifier name ∧ labels.find? name = none ∧ labels' = ⟨(name, n) :: labels.entries⟩ := by
  unfold Labels.define
  by_cases hid : isIdentifier name = true
  · have hid' := (isIdentifier_iff name).1 hid
    cases hfind : labels.find? name with
    | none => simp [hid, hid', eq_comm]
    | some k => simp [hid]
  · have hid' := mt (isIdentifier_iff name).2 hid
    simp [hid, hid']

theorem statements_addStatement (layout : Layout) (line : Nat) (ts : List Token) :
    (layout.addStatement line ts).statements.toList.map tokensOf =
      layout.statements.toList.map tokensOf ++
        if ts.map Token.text = [] then [] else [ts.map Token.text] := by
  cases ts with
  | nil => exact (List.append_nil _).symm
  | cons head operands =>
    rw [Layout.addStatement, Array.toList_push, List.map_append]
    rfl

theorem labels_addStatement (layout : Layout) (line : Nat) (ts : List Token) :
    (layout.addStatement line ts).labels = layout.labels := by
  cases ts <;> rfl

theorem find?_cons (entries : List (String × Nat)) (key : String) (k : Nat) :
    Labels.find? ⟨(key, k) :: entries⟩ name =
      if name = key then some k else Labels.find? ⟨entries⟩ name := by
  unfold Labels.find?
  rw [List.lookup_cons]
  by_cases h : name = key
  · simp [h]
  · simp [h, beq_false_of_ne h]

theorem Describes.extend_body (h : Describes layout ls) (line : Nat) (ts : List Token)
    (hlabel : l.label = none) (hbody : ts.map Token.text = l.body) :
    Describes (layout.addStatement line ts) (ls ++ [l]) where
  statements_eq := by
    rw [statements_addStatement, h.statements_eq, statements_append, hbody]
  find?_eq := by
    intro name n
    rw [labels_addStatement, h.find?_eq, address_append, hlabel]
    simp
  identifiers := by
    rw [labels_append, hlabel]
    simpa using h.identifiers
  distinct := by
    rw [labels_append, hlabel]
    simpa using h.distinct

theorem Describes.extend_label (h : Describes layout ls) (line : Nat) (ts : List Token)
    (hlabel : l.label = some name) (hbody : ts.map Token.text = l.body) (hid : IsIdentifier name)
    (hnew : name ∉ labels ls) :
    Describes (Layout.addStatement
      ⟨⟨(name, layout.statements.size) :: layout.labels.entries⟩, layout.statements⟩ line ts)
      (ls ++ [l]) where
  statements_eq := by
    rw [statements_addStatement, h.statements_eq, statements_append, hbody]
  find?_eq := by
    intro key n
    rw [labels_addStatement, find?_cons, address_append, hlabel, ← h.size_statements, ← h.find?_eq]
    by_cases hkey : key = name
    -- the name is new, so that the entry in front hides no other
    · subst hkey
      rw [if_pos rfl, h.find?_eq_none_iff.2 hnew]
      constructor
      · rintro ⟨⟩
        exact .inr ⟨rfl, rfl⟩
      · rintro (hold | ⟨-, rfl⟩)
        · cases hold
        · rfl
    · rw [if_neg hkey]
      constructor
      · exact .inl
      · rintro (hold | ⟨hname, -⟩)
        · exact hold
        · exact absurd (Option.some.inj hname).symm hkey
  identifiers := by
    rw [labels_append, hlabel, Option.toList_some]
    intro key hkey
    rcases List.mem_append.1 hkey with hkey | hkey
    · exact h.identifiers key hkey
    · rw [List.mem_singleton.1 hkey]
      exact hid
  distinct := by
    rw [labels_append, hlabel, Option.toList_some]
    exact List.nodup_append.2 ⟨h.distinct, List.nodup_singleton name, by
      intro key hkey other hother
      rw [List.mem_singleton.1 hother]
      rintro rfl
      exact hnew hkey⟩

/-- The tokens of a line behind the label definition. -/
def bodyTokens (text : String) : List Token :=
  (Token.scan text).drop (lineOf text).label.toList.length

theorem map_text_bodyTokens (text : String) :
    (bodyTokens text).map Token.text = (lineOf text).body := by
  unfold bodyTokens lineOf
  rw [← map_text_scan]
  match Token.scan text with
  | [] => rfl
  | head :: rest =>
    rw [List.map_cons, ofTokens_cons]
    match definedName? head.text with
    | none => rfl
    | some name => rfl

theorem addLine_eq (layout : Layout) (line : Nat) (text : String) :
    ((lineOf text).label = none ∧
      layout.addLine line text = .ok (layout.addStatement line (bodyTokens text))) ∨
      ∃ name head, (lineOf text).label = some name ∧ (Token.scan text)[0]? = some head ∧
        head.text = name ++ ":" ∧
        layout.addLine line text =
          match layout.labels.define name layout.statements.size with
          | .error cause => .error (located line head cause)
          | .ok labels =>
            .ok (Layout.addStatement ⟨labels, layout.statements⟩ line (bodyTokens text)) := by
  unfold bodyTokens lineOf
  rw [← map_text_scan]
  unfold Layout.addLine
  match Token.scan text with
  | [] => exact .inl ⟨rfl, rfl⟩
  | head :: rest =>
    rw [List.map_cons, ofTokens_cons]
    dsimp only
    match hname : definedName? head.text with
    | none => exact .inl ⟨rfl, rfl⟩
    | some name => exact .inr ⟨name, head, rfl, rfl, (definedName?_eq_some_iff.1 hname).2, rfl⟩

theorem Describes.addLine (h : Describes layout ls) (line : Nat) (text : String)
    (hok : layout.addLine line text = .ok next) : Describes next (ls ++ [lineOf text]) := by
  have hbody := map_text_bodyTokens text
  obtain ⟨hlabel, hadd⟩ | ⟨name, head, hlabel, -, -, hadd⟩ := addLine_eq layout line text
  · rw [hadd] at hok
    cases hok
    exact h.extend_body line _ hlabel hbody
  · rw [hadd] at hok
    match hdef : layout.labels.define name layout.statements.size with
    | .error cause =>
      rw [hdef] at hok
      cases hok
    | .ok labels =>
      rw [hdef] at hok
      cases hok
      obtain ⟨hid, hnew, rfl⟩ := define_eq_ok_iff.1 hdef
      exact h.extend_label line _ hlabel hbody hid (h.find?_eq_none_iff.1 hnew)

theorem Describes.addLine_exists (h : Describes layout ls) (line : Nat) (text : String)
    (hlabels : ∀ name, (lineOf text).label = some name → IsIdentifier name ∧ name ∉ labels ls) :
    ∃ next, layout.addLine line text = .ok next := by
  obtain ⟨-, hadd⟩ | ⟨name, head, hlabel, -, -, hadd⟩ := addLine_eq layout line text
  · exact ⟨_, hadd⟩
  · obtain ⟨hid, hnew⟩ := hlabels name hlabel
    rw [define_eq_ok_iff.2 ⟨hid, h.find?_eq_none_iff.2 hnew, rfl⟩] at hadd
    exact ⟨_, hadd⟩

theorem Describes.addLines (h : Describes layout ls) (line : Nat) (texts : List String)
    (hok : layout.addLines line texts = .ok next) : Describes next (ls ++ texts.map lineOf) := by
  induction texts generalizing layout line ls with
  | nil =>
    cases hok
    rw [List.map_nil, List.append_nil]
    exact h
  | cons text texts ih =>
    rw [Layout.addLines] at hok
    match hfirst : layout.addLine line text with
    | .error cause =>
      rw [hfirst] at hok
      cases hok
    | .ok middle =>
      rw [hfirst] at hok
      have hrest := ih (h.addLine line text hfirst) (line + 1) hok
      rwa [List.append_assoc] at hrest

theorem Describes.addLines_exists (h : Describes layout ls) (line : Nat) (texts : List String)
    (hid : ∀ name ∈ labels (ls ++ texts.map lineOf), IsIdentifier name)
    (hdistinct : (labels (ls ++ texts.map lineOf)).Nodup) :
    ∃ next, layout.addLines line texts = .ok next := by
  induction texts generalizing layout line ls with
  | nil => exact ⟨layout, rfl⟩
  | cons text texts ih =>
    have hsplit : ls ++ (text :: texts).map lineOf = (ls ++ [lineOf text]) ++ texts.map lineOf := by
      simp
    rw [hsplit] at hid hdistinct
    have hfirst : ∃ middle, layout.addLine line text = .ok middle := by
      apply h.addLine_exists line text
      intro name hlabel
      have hlabels : labels ((ls ++ [lineOf text]) ++ texts.map lineOf) =
          labels ls ++ name :: labels (texts.map lineOf) := by
        simp [labels, hlabel]
      rw [hlabels] at hid hdistinct
      refine ⟨hid name (by simp), ?_⟩
      intro hold
      exact (List.nodup_append.1 hdistinct).2.2 name hold name List.mem_cons_self rfl
    obtain ⟨middle, hmiddle⟩ := hfirst
    obtain ⟨last, hlast⟩ := ih (h.addLine line text hmiddle) (line + 1) hid hdistinct
    exact ⟨last, by rw [Layout.addLines, hmiddle]; exact hlast⟩

/-! ## 3. The second pass -/

theorem Describes.isIdentifier (h : Describes layout ls) (hn : Address ls name n) :
    IsIdentifier name :=
  h.identifiers name (mem_labels_iff.2 ⟨n, hn⟩)

theorem Describes.resolve_eq_ok_iff (h : Describes layout ls) :
    layout.labels.resolve name = .ok n ↔ Address ls name n := by
  rw [← h.find?_eq, Labels.resolve]
  cases layout.labels.find? name <;> simp

theorem Describes.readOperand_eq_ok_iff (h : Describes layout ls) (kind : OperandKind)
    (token : String) (w : Word) :
    readOperand layout.labels kind token = .ok w ↔
      Spells token w ∨ (kind = .address ∧ ∃ n, Address ls token n ∧ w = Int64.ofNat n) := by
  unfold readOperand
  match hread : Word.read? token with
  | some v =>
    -- a numeral is no label, because labels are identifiers
    have hlabel : ∀ n, ¬ Address ls token n := by
      intro n hn
      rw [read?_eq_none_of_isIdentifier (h.isIdentifier hn)] at hread
      cases hread
    rw [← read?_eq_some_iff, hread]
    simp [hlabel]
  | none =>
    have hnumeral : ¬ Spells token w := by
      rw [← read?_eq_some_iff, hread]
      nofun
    match kind with
    | .immediate => simp [hnumeral]
    | .address =>
      by_cases hid : Assembly.isIdentifier token = true
      · match hres : layout.labels.resolve token with
        | .ok k => simp [hid, hnumeral, ← h.resolve_eq_ok_iff, hres, eq_comm]
        | .error cause => simp [hid, hnumeral, ← h.resolve_eq_ok_iff, hres]
      · have hlabel : ∀ n, ¬ Address ls token n := by
          intro n hn
          exact hid ((isIdentifier_iff token).2 (h.isIdentifier hn))
        simp [hid, hnumeral, hlabel]

theorem instruction_of_bare {s : Statement} {op : Opcode} {labels : Labels}
    (hhead : s.head.text = op.mnemonic) (hkind : op.operandKind = none)
    (hoperands : s.operands = []) :
    s.instruction labels = .ok ⟨op.tag, 0⟩ := by
  unfold Statement.instruction
  rw [hhead, Opcode.ofMnemonic?_mnemonic]
  simp only [hkind, hoperands]
  rfl

theorem instruction_of_read {s : Statement} {op : Opcode} {labels : Labels} {kind : OperandKind}
    {token : String} {w : Word} (hhead : s.head.text = op.mnemonic)
    (hkind : op.operandKind = some kind) (hoperands : s.operands.map Token.text = [token])
    (hread : readOperand labels kind token = .ok w) :
    s.instruction labels = .ok ⟨op.tag, w⟩ := by
  obtain ⟨t, ht, rfl⟩ := List.map_eq_singleton_iff.1 hoperands
  unfold Statement.instruction
  rw [hhead, Opcode.ofMnemonic?_mnemonic]
  simp only [hkind, ht, hread]
  rfl

theorem Describes.instruction_eq_ok_iff (h : Describes layout ls) (s : Statement)
    (i : Instruction) :
    s.instruction layout.labels = .ok i ↔ Denotes ls (tokensOf s) i := by
  constructor
  · intro hok
    unfold Statement.instruction at hok
    split at hok
    · cases hok
    · next op hop =>
      have hhead := Opcode.ofMnemonic?_eq_some_iff.1 hop
      unfold tokensOf
      rw [← hhead]
      split at hok
      · next hkind hoperands =>
        cases hok
        rw [hoperands]
        exact .bare op hkind
      · next kind token hkind hoperands =>
        rw [hoperands]
        split at hok
        · next w hw =>
          cases hok
          rcases (h.readOperand_eq_ok_iff kind token.text w).1 hw with hw | ⟨rfl, n, hn, rfl⟩
          · exact .number op kind hkind token.text w hw
          · exact .label op hkind token.text n hn
        · cases hok
      · cases hok
  · intro hden
    generalize hts : tokensOf s = ts at hden
    cases hden with
    | bare op hkind =>
      obtain ⟨hhead, hoperands⟩ := List.cons_eq_cons.1 hts
      exact instruction_of_bare hhead hkind (List.map_eq_nil_iff.1 hoperands)
    | number op kind hkind token w hw =>
      obtain ⟨hhead, hoperands⟩ := List.cons_eq_cons.1 hts
      exact instruction_of_read hhead hkind hoperands
        ((h.readOperand_eq_ok_iff kind token w).2 (.inl hw))
    | label op hkind token n hn =>
      obtain ⟨hhead, hoperands⟩ := List.cons_eq_cons.1 hts
      exact instruction_of_read hhead hkind hoperands
        ((h.readOperand_eq_ok_iff .address token (Int64.ofNat n)).2 (.inr ⟨rfl, n, hn, rfl⟩))

theorem Describes.instructions_eq_ok_iff (h : Describes layout ls) (ss : List Statement)
    (is : List Instruction) :
    instructions layout.labels ss = .ok is ↔ List.Forall₂ (Denotes ls) (ss.map tokensOf) is := by
  induction ss generalizing is with
  | nil =>
    rw [instructions, List.map_nil, List.forall₂_nil_left_iff]
    simp [eq_comm]
  | cons s ss ih =>
    rw [instructions, List.map_cons, List.forall₂_cons_left_iff]
    simp only [← h.instruction_eq_ok_iff, ← ih]
    cases s.instruction layout.labels with
    | error cause => simp
    | ok i =>
      cases instructions layout.labels ss with
      | error cause => simp
      | ok rest => simp [eq_comm]

/-! ## 4. The assembler -/

theorem isOperand_of_spells {token : String} {w : Word} (hw : Spells token w) (kind : OperandKind) :
    IsOperand ls token kind := by
  cases kind with
  | immediate => exact ⟨w, hw⟩
  | address => exact .inl ⟨w, hw⟩

theorem isStatement_of_isOperand {op : Opcode} {kind : OperandKind} {token : String}
    (hkind : op.operandKind = some kind) (htoken : IsOperand ls token kind) :
    IsStatement ls [op.mnemonic, token] := by
  refine ⟨op, [token], rfl, by simp [Opcode.arity, Opcode.takesOperand, hkind], ?_⟩
  intro other hother kind' hkind'
  rw [hkind] at hkind'
  cases hkind'
  rw [List.mem_singleton.1 hother]
  exact htoken

theorem isStatement_iff {ts : List String} : IsStatement ls ts ↔ ∃ i, Denotes ls ts i := by
  constructor
  · rintro ⟨op, operands, rfl, harity, hoperands⟩
    unfold Opcode.arity Opcode.takesOperand at harity
    match hkind : op.operandKind with
    | none =>
      rw [hkind] at harity
      rw [List.eq_nil_of_length_eq_zero harity]
      exact ⟨_, .bare op hkind⟩
    | some kind =>
      rw [hkind] at harity
      obtain ⟨token, rfl⟩ := List.length_eq_one_iff.1 harity
      have htoken := hoperands token List.mem_cons_self kind hkind
      match kind with
      | .immediate =>
        obtain ⟨w, hw⟩ := htoken
        exact ⟨_, .number op _ hkind token w hw⟩
      | .address =>
        rcases htoken with ⟨w, hw⟩ | hlabel
        · exact ⟨_, .number op _ hkind token w hw⟩
        · obtain ⟨n, hn⟩ := mem_labels_iff.1 hlabel
          exact ⟨_, .label op hkind token n hn⟩
  · rintro ⟨i, hden⟩
    cases hden with
    | bare op hkind =>
      exact ⟨op, [], rfl, by simp [Opcode.arity, Opcode.takesOperand, hkind], nofun⟩
    | number op kind hkind token w hw =>
      exact isStatement_of_isOperand hkind (isOperand_of_spells hw kind)
    | label op hkind token n hn =>
      exact isStatement_of_isOperand hkind (.inr (mem_labels_iff.2 ⟨n, hn⟩))

theorem forall_isStatement_iff {tss : List (List String)} :
    (∀ ts ∈ tss, IsStatement ls ts) ↔ ∃ is, List.Forall₂ (Denotes ls) tss is := by
  constructor
  · intro h
    induction tss with
    | nil => exact ⟨[], .nil⟩
    | cons ts tss ih =>
      obtain ⟨i, hi⟩ := isStatement_iff.1 (h ts List.mem_cons_self)
      obtain ⟨is, his⟩ := ih fun ts hts => h ts (List.mem_cons_of_mem _ hts)
      exact ⟨i :: is, .cons hi his⟩
  · rintro ⟨is, his⟩
    induction his with
    | nil => nofun
    | cons hi _ ih => exact List.forall_mem_cons.2 ⟨isStatement_iff.2 ⟨_, hi⟩, ih⟩

theorem mapError_ofList_eq_ok_iff {is : List Instruction} (hlen : is.length < Program.capacity)
    (p : Program) :
    (Program.ofList is).mapError Trap.breach = .ok p ↔ is = p.records.toList := by
  unfold Program.ofList
  rw [dif_pos hlen]
  constructor
  · rintro ⟨⟩
    rfl
  · rintro rfl
    rfl

theorem Describes.assemble_eq_ok_iff {source : String} (h : Describes layout (lines source))
    (hlayout : Layout.ofSource source = .ok layout) (p : Program) :
    assemble source = .ok p ↔
      (statements (lines source)).length < Program.capacity ∧
        List.Forall₂ (Denotes (lines source)) (statements (lines source)) p.records.toList := by
  have hsecond := h.instructions_eq_ok_iff layout.statements.toList
  rw [h.statements_eq] at hsecond
  unfold assemble
  rw [hlayout, ← hsecond, ← h.size_statements]
  dsimp only
  by_cases hsize : layout.statements.size < Program.capacity
  · rw [if_neg (Nat.not_le.2 hsize)]
    match hins : instructions layout.labels layout.statements.toList with
    | .error cause => simp
    | .ok is =>
      -- one record for each statement, so that the store cannot overflow
      have hlen : is.length < Program.capacity := by
        rw [← ((hsecond is).1 hins).length_eq, ← h.size_statements]
        exact hsize
      rw [Except.ok.injEq]
      dsimp only
      rw [mapError_ofList_eq_ok_iff hlen p]
      exact (and_iff_right hsize).symm
  · rw [if_pos (Nat.not_lt.1 hsize)]
    simp [hsize]

theorem describes_ofSource {source : String} (hlayout : Layout.ofSource source = .ok layout) :
    Describes layout (lines source) := by
  rw [lines_eq]
  exact describes_empty.addLines 1 (Text.lines source) hlayout

theorem Grammatical.exists_layout {source : String} (h : Grammatical (lines source)) :
    ∃ layout, Layout.ofSource source = .ok layout := by
  rw [lines_eq] at h
  exact describes_empty.addLines_exists 1 (Text.lines source) h.identifiers h.distinct

theorem assemble_eq_ok_iff (source : String) (p : Program) :
    assemble source = .ok p ↔
      Grammatical (lines source) ∧
        List.Forall₂ (Denotes (lines source)) (statements (lines source)) p.records.toList := by
  constructor
  · intro hp
    match hlayout : Layout.ofSource source with
    | .error cause =>
      unfold assemble at hp
      rw [hlayout] at hp
      cases hp
    | .ok layout =>
      have h := describes_ofSource hlayout
      obtain ⟨hfits, hden⟩ := (h.assemble_eq_ok_iff hlayout p).1 hp
      exact ⟨⟨h.identifiers, h.distinct, Nat.le_of_lt_succ hfits,
        forall_isStatement_iff.2 ⟨_, hden⟩⟩, hden⟩
  · rintro ⟨hg, hden⟩
    obtain ⟨layout, hlayout⟩ := hg.exists_layout
    exact ((describes_ofSource hlayout).assemble_eq_ok_iff hlayout p).2
      ⟨Nat.lt_succ_of_le hg.fits, hden⟩

/-- The program of a source whose lines and labels are known. -/
theorem assemble_of_lines {source : String} {p : Program} (hlines : lines source = ls)
    (hlabels : ∀ name ∈ labels ls, isIdentifier name = true) (hdistinct : (labels ls).Nodup)
    (hfits : (statements ls).length ≤ 1023)
    (hdenotes : List.Forall₂ (Denotes ls) (statements ls) p.records.toList) :
    assemble source = .ok p := by
  subst hlines
  have hidentifiers (name : String) (hname : name ∈ labels (lines source)) : IsIdentifier name :=
    (isIdentifier_iff name).1 (hlabels name hname)
  exact (assemble_eq_ok_iff source p).2
    ⟨⟨hidentifiers, hdistinct, hfits, forall_isStatement_iff.2 ⟨_, hdenotes⟩⟩, hdenotes⟩

theorem size_of_assemble {source : String} {p : Program} (h : assemble source = .ok p) :
    p.size = (statements (lines source)).length :=
  ((assemble_eq_ok_iff source p).1 h).2.length_eq.symm

theorem exists_statement_of_assemble {source : String} {p : Program} (h : assemble source = .ok p)
    {i : Instruction} (hi : i ∈ p.records) :
    ∃ ts ∈ statements (lines source), Denotes (lines source) ts i := by
  have hdenotes := ((assemble_eq_ok_iff source p).1 h).2
  obtain ⟨k, hk, rfl⟩ := List.getElem_of_mem (Array.mem_toList_iff.2 hi)
  have hk' : k < (statements (lines source)).length := hdenotes.length_eq ▸ hk
  exact ⟨_, List.getElem_mem hk', hdenotes.get hk' hk⟩

theorem Grammatical.exists_program {source : String} (h : Grammatical (lines source)) :
    ∃ p, assemble source = .ok p := by
  obtain ⟨is, his⟩ := forall_isStatement_iff.1 h.wellFormed
  have hsize : is.toArray.size ≤ Program.capacity := by
    rw [List.size_toArray, ← his.length_eq]
    exact Nat.le_succ_of_le h.fits
  exact ⟨⟨is.toArray, hsize⟩, (assemble_eq_ok_iff source _).2 ⟨h, his⟩⟩

/-- The assembler accepts exactly the sources of the grammar, and its program holds the records that
the source denotes, one for each line that carries an instruction. -/
theorem assemble_accepts_grammar (source : String) :
    ((∃ p, assemble source = .ok p) ↔ Grammatical (lines source)) ∧
      ∀ p, assemble source = .ok p ↔
        Grammatical (lines source) ∧
          List.Forall₂ (Denotes (lines source)) (statements (lines source)) p.records.toList := by
  refine ⟨⟨?_, Grammatical.exists_program⟩, assemble_eq_ok_iff source⟩
  rintro ⟨p, hp⟩
  exact ((assemble_eq_ok_iff source p).1 hp).1

end StackMachine.Grammar

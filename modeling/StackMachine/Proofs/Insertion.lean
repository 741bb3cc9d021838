import Mathlib.Data.List.InsertIdx
import StackMachine.Proofs.LabelledCode
import StackMachine.Proofs.SourceLayout

/-!
A source with one more line, which holds an instruction without labels. The instructions behind it
move up by one. So do the labels defined behind it, and operands that are written as such labels
follow them. No other operand changes.
-/

namespace StackMachine.Grammar

open Assembly

/-! ## 1. Insertion and relocation -/

/-- The source with a line put behind its first `c` lines. -/
def insertLine (c : Nat) (text source : String) : String :=
  ofStrips ((strips source).insertIdx c text)

/-- The operand of the instruction is written as one of the labels. -/
def Mentions (names ts : List String) : Prop := ∃ token, ts[1]? = some token ∧ token ∈ names

/-- The record `i'` has the operand of `i`, or one more where the operand is written as a label that
moves. -/
structure Relocates (moving ts : List String) (i i' : Instruction) : Prop where
  tag_eq : i'.tag = i.tag
  moves : Mentions moving ts → i'.operand.toInt = i.operand.toInt + 1
  stays : ¬ Mentions moving ts → i'.operand = i.operand

variable {before later : List Line} {l : Line} {name token text source : String} {n : Nat}
  {ts : List String}
  {i : Instruction} {is : List Instruction}

/-! ## 2. Lists -/

section

variable {α β γ : Type} {R : α → β → Prop} {S : α → γ → Prop} {T : α → β → γ → Prop}

theorem insertIdx_length_append (as bs : List α) (x : α) :
    (as ++ bs).insertIdx as.length x = as ++ x :: bs := by
  induction as with
  | nil => rfl
  | cons a as ih =>
    rw [List.cons_append, List.length_cons, List.insertIdx_succ_cons, ih, List.cons_append]

theorem forall₂_insertIdx {as bs : List α} {cs : List γ} (h : List.Forall₂ S (as ++ bs) cs) {a : α}
    {c : γ} (hc : S a c) :
    List.Forall₂ S (as ++ a :: bs) (cs.insertIdx as.length c) := by
  induction as generalizing cs with
  | nil => exact .cons hc h
  | cons a as ih =>
    cases h with
    | cons hfirst hrest => exact .cons hfirst (ih hrest)

/-- Choices that can be made for each pair can be made for all pairs of a list. -/
theorem exists_forall₂_zip {as : List α} {bs : List β} (h : List.Forall₂ R as bs)
    (hchoice : ∀ a b, R a b → ∃ c, S a c ∧ T a b c) :
    ∃ cs, List.Forall₂ S as cs ∧ List.Forall₂ (fun ab c => T ab.1 ab.2 c) (as.zip bs) cs := by
  induction h with
  | nil => exact ⟨[], .nil, .nil⟩
  | cons hab _ ih =>
    obtain ⟨c, hS, hT⟩ := hchoice _ _ hab
    obtain ⟨cs, hSs, hTs⟩ := ih
    exact ⟨c :: cs, .cons hS hSs, .cons hT hTs⟩

end

/-! ## 3. One more line -/

theorem labels_insert (hlabel : l.label = none) :
    labels (before ++ l :: later) = labels (before ++ later) := by
  have hline : labels (l :: later) = labels later := List.filterMap_cons_none hlabel
  rw [labels_append_lines, labels_append_lines, hline]

theorem statements_cons (hbody : l.body ≠ []) (ls : List Line) :
    statements (l :: ls) = l.body :: statements ls :=
  List.filter_cons_of_pos (by simpa using hbody)

theorem statements_insert (hbody : l.body ≠ []) :
    statements (before ++ l :: later) = statements before ++ l.body :: statements later := by
  rw [statements_append_lines, statements_cons hbody]

theorem Address.insert_before (h : Address before name n) : Address (before ++ l :: later) name n :=
  address_split.2 (.inl h)

theorem Address.insert_later (h : Address later name n) (hbody : l.body ≠ []) :
    Address (before ++ l :: later) name ((statements before).length + n + 1) := by
  refine address_split.2 (.inr ⟨n + 1, address_cons.2 (.inr ⟨n, h, ?_⟩), rfl⟩)
  rw [statements_cons hbody, List.length_cons, Nat.add_comm]
  rfl

theorem LabelsSound.notMem_later (h : LabelsSound (before ++ later))
    (hname : name ∈ labels before) :
    name ∉ labels later := by
  intro hlater
  have hdistinct := h.2
  rw [labels_append_lines] at hdistinct
  exact (List.nodup_append.1 hdistinct).2.2 name hname name hlater rfl

theorem LabelsSound.isIdentifier_later (h : LabelsSound (before ++ later))
    (hname : name ∈ labels later) :
    IsIdentifier name := by
  apply h.1
  rw [labels_append_lines]
  exact List.mem_append_right _ hname

theorem relocates_refl {moving : List String} (h : ¬ Mentions moving ts) :
    Relocates moving ts i i :=
  ⟨rfl, fun hmentions => absurd hmentions h, fun _ => rfl⟩

theorem mentions_iff {moving : List String} {head : String} :
    Mentions moving [head, token] ↔ token ∈ moving := by
  constructor
  · rintro ⟨_, ⟨⟩, hmem⟩
    exact hmem
  · exact fun hmem => ⟨token, rfl, hmem⟩

/-- An instruction of the source denotes the relocated record in the longer source. -/
theorem Denotes.relocate (hlabels : LabelsSound (before ++ later))
    (hcount : (statements (before ++ later)).length ≤ 1022) (hbody : l.body ≠ [])
    (h : Denotes (before ++ later) ts i) :
    ∃ i', Denotes (before ++ l :: later) ts i' ∧ Relocates (labels later) ts i i' := by
  cases h with
  | bare op hkind =>
    refine ⟨_, .bare op hkind, relocates_refl ?_⟩
    rintro ⟨_, ⟨⟩, -⟩
  | number op kind hkind token w hw =>
    refine ⟨_, .number op kind hkind token w hw, relocates_refl fun hmentions => ?_⟩
    exact not_spells_of_isIdentifier (hlabels.isIdentifier_later (mentions_iff.1 hmentions)) w hw
  | label op hkind token n hn =>
    have hbound := hn.le_length
    rcases address_split.1 hn with hbefore | ⟨m, hlater, rfl⟩
    · refine ⟨_, .label op hkind token n hbefore.insert_before, relocates_refl fun hmentions => ?_⟩
      exact hlabels.notMem_later (mem_labels_iff.2 ⟨n, hbefore⟩) (mentions_iff.1 hmentions)
    · refine ⟨_, .label op hkind token _ (hlater.insert_later hbody), rfl, fun _ => ?_,
        fun hmentions => ?_⟩
      · show (Int64.ofNat _).toInt = (Int64.ofNat _).toInt + 1
        rw [Int64.toInt_ofNat_of_lt (by omega), Int64.toInt_ofNat_of_lt (by omega)]
        rfl
      · exact absurd (mentions_iff.2 (mem_labels_iff.2 ⟨m, hlater⟩)) hmentions

theorem Denotes.ne_nil {ls : List Line} (h : Denotes ls ts i) : ts ≠ [] := by
  cases h <;> exact List.cons_ne_nil _ _

theorem Denotes.of_nil {ls : List Line} (h : Denotes [] ts i) : Denotes ls ts i :=
  h.mono fun _ _ hn => absurd hn not_address_nil

theorem Denotes.lineOf_eq {ls : List Line} (h : Denotes ls (tokens text) i) :
    lineOf text = ⟨none, tokens text⟩ := by
  have hhead : ∃ (op : Opcode) (operands : List String), tokens text = op.mnemonic :: operands := by
    cases hts : tokens text with
    | nil => exact absurd hts h.ne_nil
    | cons head operands =>
      rw [hts] at h
      cases h <;> exact ⟨_, _, rfl⟩
  obtain ⟨op, operands, hts⟩ := hhead
  rw [lineOf, hts, ofTokens_cons, definedName?_mnemonic]

/-- The records of the longer source are those of the source, relocated, with the record of the new
line among them. -/
theorem Assembles.insert (h : Assembles (before ++ later) is) (hsize : is.length ≤ 1022)
    (hi : Denotes [] ts i) :
    ∃ records, Assembles (before ++ ⟨none, ts⟩ :: later)
      (records.insertIdx (statements before).length i) ∧
      List.Forall₂ (fun tj j' => Relocates (labels later) tj.1 tj.2 j')
        ((statements (before ++ later)).zip is) records := by
  have hbody : Line.body ⟨none, ts⟩ ≠ [] := hi.ne_nil
  have hcount : (statements (before ++ later)).length ≤ 1022 := h.denotes.length_eq.trans_le hsize
  obtain ⟨records, hdenotes, hrelocates⟩ :=
    exists_forall₂_zip h.denotes fun _ _ => Denotes.relocate h.labelsSound hcount hbody
  refine ⟨records, ⟨?_, ?_, ?_⟩, hrelocates⟩
  · unfold LabelsSound
    rw [labels_insert rfl]
    exact h.labelsSound
  · rw [statements_append_lines, List.length_append] at hcount
    rw [statements_insert hbody, List.length_append, List.length_cons]
    omega
  · rw [statements_append_lines] at hdenotes
    rw [statements_insert hbody]
    exact forall₂_insertIdx hdenotes hi.of_nil

theorem Assembles.exists_program {ls : List Line} (h : Assembles ls is) :
    ∃ p : Program, p.records.toList = is := by
  have hsize : is.toArray.size ≤ Program.capacity := by
    have hcount : is.length ≤ 1023 := h.denotes.length_eq ▸ h.fits
    exact hcount.trans (by decide)
  exact ⟨⟨is.toArray, hsize⟩, rfl⟩

/-! ## 4. One more line in the text -/

theorem strips_insertLine (c : Nat) (htext : '\n' ∉ text.toList) :
    strips (insertLine c text source) = (strips source).insertIdx c text := by
  apply strips_ofStrips
  · intro hnil
    have hsub := List.sublist_insertIdx (strips source) c text
    rw [hnil] at hsub
    exact strips_ne_nil source (List.sublist_nil.1 hsub)
  · intro part hpart
    rcases List.eq_or_mem_of_mem_insertIdx hpart with rfl | hmem
    · exact htext
    · exact notMem_of_mem_strips hmem

/-- The rows are those of the lines with the new line among them, although the strips of a source
end in an empty one that is no line. -/
theorem tokenRows_insertLine {c : Nat} (hc : c ≤ (texts source).length)
    (htext : '\n' ∉ text.toList) :
    tokenRows (texts (insertLine c text source)) =
      tokenRows ((texts source).take c ++ text :: (texts source).drop c) := by
  obtain ⟨n, hn⟩ := map_tokens_strips source
  have hlength : (((texts source).take c).map tokens).length = c := by
    rw [List.length_map, List.length_take_of_le hc]
  have hrows : ((strips source).insertIdx c text).map tokens =
      ((texts source).take c ++ text :: (texts source).drop c).map tokens ++
        List.replicate n [] := by
    calc ((strips source).insertIdx c text).map tokens
      _ = (((texts source).take c).map tokens ++
        (((texts source).drop c).map tokens ++ List.replicate n [])).insertIdx c
            (tokens text) := by
          rw [List.map_insertIdx, hn, ← List.append_assoc, ← List.map_append, List.take_append_drop]
      _ = ((texts source).take c).map tokens ++
            tokens text :: (((texts source).drop c).map tokens ++ List.replicate n []) := by
          have hinsert := insertIdx_length_append (((texts source).take c).map tokens)
            (((texts source).drop c).map tokens ++ List.replicate n []) (tokens text)
          rwa [hlength] at hinsert
      _ = ((texts source).take c ++ text :: (texts source).drop c).map tokens ++
          List.replicate n [] := by
          simp
  rw [← tokenRows_strips, strips_insertLine c htext, tokenRows, hrows, List.filter_append,
    List.filter_replicate_of_neg (by simp), List.append_nil]
  rfl

/-- An inserted instruction moves the labels behind it, and nothing else. Let a source of at most
1022 instructions be accepted, and put a line behind its first `c` lines that holds an instruction
and neither defines nor uses a label. The longer source is accepted. Its records are the old ones
and the new one among them, at the place that the lines before it give. An operand that is written
as a label of a line behind the new one has become one larger, and no other operand has changed. -/
theorem assemble_insertLine (source text : String) (c : Nat) (p : Program) (i : Instruction)
    (hp : assemble source = .ok p) (hsize : p.size ≤ 1022) (hc : c ≤ (lines source).length)
    (htext : '\n' ∉ text.toList) (hi : Denotes [] (tokens text) i) :
    ∃ q records, assemble (insertLine c text source) = .ok q ∧
      q.records.toList = records.insertIdx (statements ((lines source).take c)).length i ∧
      List.Forall₂ (fun tj j' => Relocates (labels ((lines source).drop c)) tj.1 tj.2 j')
        ((statements (lines source)).zip p.records.toList) records := by
  rw [← map_lineOf_texts] at hc ⊢
  rw [List.length_map] at hc
  rw [assemble_iff_assembles, ← List.take_append_drop c ((texts source).map lineOf)] at hp
  obtain ⟨records, hassembles, hrelocates⟩ := hp.insert hsize hi
  rw [List.take_append_drop] at hrelocates
  obtain ⟨q, hq⟩ := hassembles.exists_program
  refine ⟨q, records, ?_, hq, hrelocates⟩
  have hpage : ((texts source).take c ++ text :: (texts source).drop c).map lineOf =
      ((texts source).map lineOf).take c ++ ⟨none, tokens text⟩ ::
        ((texts source).map lineOf).drop c := by
    rw [List.map_append, List.map_cons, hi.lineOf_eq, List.map_take, List.map_drop]
  rw [assemble_iff_rowLines, rowLines, tokenRows_insertLine hc htext, hq]
  apply assembles_rowLines.2
  rw [hpage]
  exact hassembles

/-- The new line stands between the labels `a` and `b`, so that the jumps to `b` and `c` are
changed. The jump to `a` and the jump to a number are not. -/
theorem assemble_insertLine_dup :
    let source := "a: JMP_IF c\n\nb: PUSH 3\nJMP 3\nJMP a\nc: JMP b"
    let text := " DUP 0 #"
    let p : Program := ⟨#[.of .jmpIf 4, .of .push 3, .of .jmp 3, .of .jmp 0, .of .jmp 1], by decide⟩
    let q : Program :=
      ⟨#[.of .jmpIf 5, .of .dup 0, .of .push 3, .of .jmp 3, .of .jmp 0, .of .jmp 2], by decide⟩
    assemble source = .ok p ∧ Denotes [] (tokens text) (.of .dup 0) ∧
      assemble (insertLine 2 text source) = .ok q ∧
      ∃ records, q.records.toList = records.insertIdx 1 (.of .dup 0) ∧
        List.Forall₂ (fun tj j' => Relocates ["b", "c"] tj.1 tj.2 j')
          ((statements (lines source)).zip p.records.toList) records := by
  intro source text p q
  have hsource : assemble source = .ok p := by decide +kernel
  have hdup : Denotes [] (tokens text) (.of .dup 0) := by
    have htokens : tokens text = [Opcode.dup.mnemonic, "0"] := by decide +kernel
    rw [htokens]
    exact .number .dup .immediate rfl "0" 0
      (.plain ['0'] (List.cons_ne_nil _ _) (List.forall_mem_singleton.2 rfl))
  have hinserted : assemble (insertLine 2 text source) = .ok q := by decide +kernel
  refine ⟨hsource, hdup, hinserted, ?_⟩
  have hlabels : labels ((lines source).drop 2) = ["b", "c"] := by decide +kernel
  have hplace : (statements ((lines source).take 2)).length = 1 := by decide +kernel
  obtain ⟨q', records, hq', hrecords, hrelocates⟩ :=
    assemble_insertLine source text 2 p (.of .dup 0) hsource (by decide) (by decide +kernel)
      (by decide) hdup
  cases hinserted.symm.trans hq'
  rw [hplace] at hrecords
  rw [hlabels] at hrelocates
  exact ⟨records, hrecords, hrelocates⟩

end StackMachine.Grammar

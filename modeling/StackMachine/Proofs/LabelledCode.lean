import StackMachine.Proofs.ControlFlow
import StackMachine.Proofs.Disassembly

/-!
Programs that come from a source. Their tags all name operations. If no jump of the source is to a
number, a run cannot leave the program but at its end, because a label stands for the number of the
instructions before it.
-/

namespace StackMachine.Grammar

open Assembly

variable {ls : List Line} {name source : String} {n : Nat} {p : Program}

/-- The operand of every jump is a label. -/
def LabelledJumps (ls : List Line) : Prop :=
  ∀ (op : Opcode) (token : String), op.operandKind = some .address →
    [op.mnemonic, token] ∈ statements ls → token ∈ labels ls

/-! ## 1. Records of an assembled program -/

theorem Address.le_length (h : Address ls name n) : n ≤ (statements ls).length := by
  obtain ⟨before, line, later, rfl, -, rfl⟩ := h
  unfold statements
  rw [List.map_append, List.filter_append, List.length_append]
  omega

theorem legal_of_assemble (h : assemble source = .ok p) : p.Legal := by
  intro i hi
  obtain ⟨ts, -, hts⟩ := exists_statement_of_assemble h hi
  exact hts.exists_opcode

-- A label of an accepted source cannot be read as a number.
theorem not_spells_of_mem_labels (h : assemble source = .ok p) {token : String}
    (htoken : token ∈ labels (lines source)) (w : Word) : ¬ Spells token w := by
  have hgrammatical := ((assemble_eq_ok_iff source p).1 h).1
  exact not_spells_of_isIdentifier (hgrammatical.identifiers token htoken) w

theorem covers_address (h : assemble source = .ok p) (hn : Address (lines source) name n) :
    p.Covers (Int64.ofNat n) := by
  have hle : n ≤ p.size := size_of_assemble h ▸ hn.le_length
  have hsize : p.size ≤ 1024 := p.size_le
  have htoInt : (Int64.ofNat n).toInt = n := Int64.toInt_ofNat_of_lt (by omega)
  show 0 ≤ (Int64.ofNat n).toInt ∧ (Int64.ofNat n).toInt ≤ p.size
  omega

theorem jumpsInside_of_assemble (h : assemble source = .ok p)
    (hlabelled : LabelledJumps (lines source)) :
    p.JumpsInside := by
  intro i hi op hop hkind
  obtain ⟨ts, hts, hdenotes⟩ := exists_statement_of_assemble h hi
  have hsame (op' : Opcode) (operand : Word) (hi : i = ⟨op'.tag, operand⟩) : op = op' := by
    rw [hi, Instruction.opcode?, Opcode.ofTag?_tag] at hop
    exact (Option.some.inj hop).symm
  cases hdenotes with
  | bare op' hbare =>
    rw [hsame op' 0 rfl, hbare] at hkind
    cases hkind
  | number op' kind hkind' token w hw =>
    cases hsame op' w rfl
    exact absurd hw (not_spells_of_mem_labels h (hlabelled op token hkind hts) w)
  | label op' hkind' token k hk => exact covers_address h hk

/-! ## 2. Runs of an assembled program -/

variable {ω : Type} (outlet : Outlet ω)

/-- An assembled program is not left by its labels. Let any requests be made, and consider a reply
of the machine while it holds the program of an accepted source. No tag was unknown. If every jump
of the source is to a label, the instruction pointer is between zero and the size of the program, as
it was whenever an observer looked, and a fetch fails only where it is right behind the last
record. -/
theorem assembled_runs_stay_in_code (h : assemble source = .ok p) (first : Program) (world : ω)
    (requests : List (Request ω)) (reply : Reply ω)
    (hreply : reply ∈ Session.transcript outlet requests (Session.boot first world))
    (hprogram : reply.exterior.program = p) :
    (∀ tag ip, reply.answer ≠ .error (.fault (.illegalInstruction tag ip))) ∧
      (LabelledJumps (lines source) →
        p.Covers reply.exterior.ip ∧ (∀ seen, .watched seen ∈ reply.events → p.Covers seen.ip) ∧
          ∀ ip n, reply.answer = .error (.fault (.illegalAccess ip n)) →
            ip = reply.exterior.ip ∧ ip.toInt = p.size ∧ n = p.size) := by
  have hcontained :=
    Session.contained_of_mem_transcript outlet requests (Session.guarded_boot first world) hreply
  subst hprogram
  refine ⟨hcontained.known (legal_of_assemble h), ?_⟩
  intro hlabelled
  have hjumps := jumpsInside_of_assemble h hlabelled
  exact ⟨hcontained.covers hjumps, hcontained.watched hjumps, hcontained.behind hjumps⟩

/-- Two jumps to labels, one of them behind the last instruction: the run falls off the end, and
nowhere else. -/
theorem assembled_runs_stay_in_code_off_end :
    let source := "PUSH 1\nagain: JMP_IF end # leaves the loop\nJMP again\nend:"
    let program : Program := ⟨#[.of .push 1, .of .jmpIf 3, .of .jmp 1], by decide⟩
    let quiet : Outlet Unit := ⟨fun _ world => (.ok (), world)⟩
    assemble source = .ok program ∧ LabelledJumps (lines source) ∧
      ∃ reply ∈ Session.transcript quiet [.run 5] (Session.boot program ()),
        reply.exterior.program = program ∧ reply.answer = .error (.fault (.illegalAccess 3 3)) ∧
          program.Covers reply.exterior.ip ∧ (3 : Word).toInt = program.size := by
  intro source program quiet
  have hlines : lines source =
      [⟨none, ["PUSH", "1"]⟩, ⟨some "again", ["JMP_IF", "end"]⟩, ⟨none, ["JMP", "again"]⟩,
        ⟨some "end", []⟩] := by
    decide +kernel
  have hassemble : assemble source = .ok program := by
    refine assemble_of_lines hlines (by decide +kernel) (by decide) (by decide) ?_
    refine .cons ?_ (.cons ?_ (.cons ?_ .nil))
    · exact .number .push .immediate rfl "1" 1 (read?_eq_some_iff.1 (by decide +kernel))
    · exact .label .jmpIf rfl "end" 3
        ⟨[⟨none, ["PUSH", "1"]⟩, ⟨some "again", ["JMP_IF", "end"]⟩, ⟨none, ["JMP", "again"]⟩], _,
          [], rfl, rfl, rfl⟩
    · exact .label .jmp rfl "again" 1 ⟨[⟨none, ["PUSH", "1"]⟩], _, _, rfl, rfl, rfl⟩
  have hlabelled : LabelledJumps (lines source) := by
    rw [hlines]
    intro op token hkind hmem
    cases op with
    | jmp | jmpIf =>
      simp [statements, Opcode.mnemonic] at hmem
      simp [labels, hmem]
    | nop | push | dup | plus | minus | mult | div | eq | halt | printDebug => cases hkind
  have hprogram :
      ((Request.run 5).serve quiet (Session.boot program ())).1.exterior.program = program := by
    decide +kernel
  have hanswer : ((Request.run 5).serve quiet (Session.boot program ())).1.answer =
      .error (.fault (.illegalAccess 3 3)) := by
    decide +kernel
  have hmem : ((Request.run 5).serve quiet (Session.boot program ())).1 ∈
      Session.transcript quiet [.run 5] (Session.boot program ()) := List.mem_cons_self
  generalize ((Request.run 5).serve quiet (Session.boot program ())).1 = reply
    at hprogram hanswer hmem
  obtain ⟨-, hinside⟩ :=
    assembled_runs_stay_in_code quiet hassemble program () [.run 5] reply hmem hprogram
  obtain ⟨hcovers, -, hbehind⟩ := hinside hlabelled
  exact ⟨hassemble, hlabelled, reply, hmem, hprogram, hanswer, hcovers, (hbehind 3 3 hanswer).2.1⟩

end StackMachine.Grammar

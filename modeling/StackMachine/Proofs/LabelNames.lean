import Mathlib.Logic.Equiv.Basic
import StackMachine.Proofs.Disassembly
import StackMachine.Proofs.SourceLayout

/-!
Labels are bound names: a source means the same when its labels are renamed, as long as different
names stay different.

Renaming works on the text. It puts new tokens in the places of old ones and leaves separators,
comments and line ends as they are. A name may become a mnemonic, because a label definition is
known by its colon and an operand by its place.
-/

namespace StackMachine.Grammar

open Assembly

/-! ## 1. Renaming -/

/-- The names that a label may have. -/
abbrev Identifier : Type := {name : String // isIdentifier name = true}

variable (r : Identifier → Identifier)

/-- The new name of an identifier. A token that is none is left as it is. -/
def renameToken (token : String) : String :=
  if h : isIdentifier token = true then (r ⟨token, h⟩).1 else token

/-- The tokens of an instruction with new names for addresses. -/
def renameBody : List String → List String
  | [] => []
  | head :: operands =>
    if (Opcode.ofMnemonic? head).bind Opcode.operandKind = some .address then
      head :: operands.map (renameToken r)
    else head :: operands

/-- The tokens of a line with new names in the label definition and in addresses. -/
def renameTokens : List String → List String
  | [] => []
  | head :: rest =>
    match definedName? head with
    | some name => (renameToken r name ++ ":") :: renameBody r rest
    | none => renameBody r (head :: rest)

/-- A text with new tokens in the places of its own. -/
def replaceTokens : List Char → List String → List Char
  | [], _ => []
  | c :: cs, new =>
    if isSeparator c then c :: replaceTokens cs new
    else (new.headD "").toList ++ replaceTokens (cs.dropWhile Token.isTokenChar) new.tail
termination_by cs => cs.length
decreasing_by
  · exact Nat.lt_succ_self _
  · exact Nat.lt_succ_of_le (List.dropWhile_suffix _).length_le

def renameText (text : String) : String :=
  .ofList (replaceTokens (text.toList.takeWhile (· ≠ '#')) (renameTokens r (tokens text)) ++
    text.toList.dropWhile (· ≠ '#'))

/-- The source with new names for its labels, where they are defined and where they are used. -/
def renamed (source : String) : String := ofStrips ((strips source).map (renameText r))

def Line.renamed (l : Line) : Line := ⟨l.label.map (renameToken r), renameBody r l.body⟩

/-! ## 2. New tokens in a text -/

/-- The text can be a token of a line. -/
def IsToken (token : String) : Prop :=
  token.toList ≠ [] ∧ ∀ c ∈ token.toList, isSeparator c = false ∧ c ≠ '#'

variable {r} {cs : List Char} {new : List String} {source text token name : String}

theorem head?_replaceTokens (h : ∀ c ∈ cs.head?, isSeparator c = true) (new : List String) :
    (replaceTokens cs new).head? = cs.head? := by
  cases cs with
  | nil => rw [replaceTokens]
  | cons c cs =>
    rw [replaceTokens, if_pos (h c rfl)]
    rfl

theorem mem_replaceTokens {c : Char} (h : c ∈ replaceTokens cs new) :
    c ∈ cs ∨ ∃ token ∈ new, c ∈ token.toList := by
  fun_induction replaceTokens cs new with
  | case1 new => exact .inl h
  | case2 d cs new hd ih =>
    rcases List.mem_cons.1 h with rfl | h
    · exact .inl List.mem_cons_self
    · exact (ih h).imp_left (List.mem_cons_of_mem d)
  | case3 d cs new hd ih =>
    rcases List.mem_append.1 h with h | h
    · cases new with
      | nil => cases h
      | cons token new => exact .inr ⟨token, List.mem_cons_self, h⟩
    · rcases ih h with h | ⟨token, htoken, h⟩
      · exact .inl (List.mem_cons_of_mem d ((List.dropWhile_suffix _).subset h))
      · exact .inr ⟨token, List.mem_of_mem_tail htoken, h⟩

/-- The new tokens are the tokens of the new text. -/
theorem pieces_replaceTokens (hlength : new.length = (pieces cs).length)
    (hnew : ∀ token ∈ new, IsToken token) :
    pieces (replaceTokens cs new) = new.map String.toList := by
  fun_induction replaceTokens cs new with
  | case1 new =>
    rw [List.eq_nil_of_length_eq_zero hlength]
    rfl
  | case2 c cs new hc ih =>
    rw [pieces_separator hc] at hlength ⊢
    exact ih hlength hnew
  | case3 c cs new hc ih =>
    rw [pieces_run hc, List.length_cons] at hlength
    obtain ⟨token, new, rfl⟩ := List.exists_cons_of_length_eq_add_one hlength
    obtain ⟨htoken, hrest⟩ := List.forall_mem_cons.1 hnew
    have hhead :
        ∀ d ∈ (replaceTokens (cs.dropWhile Token.isTokenChar) new).head?, isSeparator d = true := by
      rw [head?_replaceTokens fun _ => isSeparator_of_head_rest]
      exact fun _ => isSeparator_of_head_rest
    have htail :
        pieces (replaceTokens (cs.dropWhile Token.isTokenChar) new) = new.map String.toList :=
      ih (Nat.succ.inj hlength) hrest
    show pieces (token.toList ++ replaceTokens (cs.dropWhile Token.isTokenChar) new) =
        token.toList :: new.map String.toList
    rw [pieces_run_append htoken.1 (fun d hd => (htoken.2 d hd).1) hhead, htail]

theorem isToken_of_isPlain (h : isPlain token = true) : IsToken token :=
  ⟨(isPlain_iff.1 h).1, fun _ => not_special_of_isPlain h⟩

theorem isPlain_of_isIdentifier (h : IsIdentifier name) : isPlain name = true := by
  have hrange {c : Char} (hc : c.isAlphanum = true ∨ c = '_') : 45 ≤ c.toNat ∧ c.toNat ≤ 126 := by
    show 45 ≤ c.val.toNat ∧ c.val.toNat ≤ 126
    rcases hc with hc | rfl
    · rcases Bool.or_eq_true_iff.1 hc with hc | hc
      · rcases Bool.or_eq_true_iff.1 hc with hc | hc
        · have hupper : 65 ≤ c.val.toNat ∧ c.val.toNat ≤ 90 := of_decide_eq_true hc
          omega
        · have hfirst : 97 ≤ c.val.toNat := of_decide_eq_true (Bool.and_eq_true_iff.1 hc).1
          have hlast : c.val.toNat ≤ 122 := of_decide_eq_true (Bool.and_eq_true_iff.1 hc).2
          omega
      · have hfirst : 48 ≤ c.val.toNat := of_decide_eq_true (Bool.and_eq_true_iff.1 hc).1
        have hlast : c.val.toNat ≤ 57 := of_decide_eq_true (Bool.and_eq_true_iff.1 hc).2
        omega
    · decide
  obtain ⟨c, cs, hchars, hc, hcs⟩ := h
  rw [isPlain_iff, hchars]
  refine ⟨List.cons_ne_nil _ _,
    List.forall_mem_cons.2 ⟨hrange (hc.imp_left fun hc => ?_), fun d hd => hrange (hcs d hd)⟩⟩
  exact Bool.or_eq_true_iff.2 (.inl hc)

theorem isToken_of_mem_tokens (h : token ∈ tokens text) : IsToken token := by
  rw [← map_text_scan] at h
  obtain ⟨t, ht, rfl⟩ := List.mem_map.1 h
  obtain ⟨hne, hmem⟩ := exists_text_of_mem_scanFrom ht
  refine ⟨hne, fun c hc => (hmem c hc).imp_right fun hcode => ?_⟩
  have hbefore : c ∈ text.toList.takeWhile (· ≠ '#') := hcode
  simpa using List.mem_takeWhile_imp hbefore

theorem isToken_append {a b : String} (ha : IsToken a) (hb : IsToken b) : IsToken (a ++ b) := by
  rw [IsToken, String.toList_append]
  exact ⟨List.append_ne_nil_of_left_ne_nil ha.1 _, List.forall_mem_append.2 ⟨ha.2, hb.2⟩⟩

theorem renameToken_of_not (h : ¬ isIdentifier token = true) : renameToken r token = token :=
  dif_neg h

theorem isIdentifier_renameToken (h : isIdentifier token = true) :
    isIdentifier (renameToken r token) = true := by
  rw [renameToken, dif_pos h]
  exact (r ⟨token, h⟩).2

theorem isToken_renameToken (h : IsToken token) : IsToken (renameToken r token) := by
  by_cases hid : isIdentifier token = true
  · exact isToken_of_isPlain (isPlain_of_isIdentifier
      ((isIdentifier_iff _).1 (isIdentifier_renameToken hid)))
  · rw [renameToken_of_not hid]
    exact h

theorem length_renameBody (ts : List String) : (renameBody r ts).length = ts.length := by
  cases ts with
  | nil => rfl
  | cons head operands =>
    rw [renameBody]
    split
    · rw [List.length_cons, List.length_map, List.length_cons]
    · rfl

theorem isToken_of_mem_renameBody {ts : List String} (h : ∀ token ∈ ts, IsToken token) :
    ∀ token ∈ renameBody r ts, IsToken token := by
  cases ts with
  | nil => exact h
  | cons head operands =>
    rw [renameBody]
    split
    · obtain ⟨hhead, hoperands⟩ := List.forall_mem_cons.1 h
      refine List.forall_mem_cons.2 ⟨hhead, List.forall_mem_map.2 fun token htoken => ?_⟩
      exact isToken_renameToken (hoperands token htoken)
    · exact h

theorem length_renameTokens (ts : List String) : (renameTokens r ts).length = ts.length := by
  cases ts with
  | nil => rfl
  | cons head rest =>
    rw [renameTokens]
    cases definedName? head with
    | none => exact length_renameBody _
    | some name => rw [List.length_cons, length_renameBody, List.length_cons]

theorem isToken_of_mem_renameTokens {ts : List String} (h : ∀ token ∈ ts, IsToken token) :
    ∀ token ∈ renameTokens r ts, IsToken token := by
  cases ts with
  | nil => exact h
  | cons head rest =>
    rw [renameTokens]
    cases hname : definedName? head with
    | none => exact isToken_of_mem_renameBody h
    | some name =>
      obtain ⟨hhead, hrest⟩ := List.forall_mem_cons.1 h
      refine List.forall_mem_cons.2 ⟨?_, isToken_of_mem_renameBody hrest⟩
      obtain ⟨hne, rfl⟩ := definedName?_eq_some_iff.1 hname
      have hchars := hhead.2
      rw [String.toList_append] at hchars
      have htoken : IsToken name :=
        ⟨fun hnil => hne (String.toList_inj.1 hnil),
          fun c hc => hchars c (List.mem_append_left _ hc)⟩
      exact isToken_append (isToken_renameToken htoken) (isToken_of_isPlain rfl)

theorem tokens_renameText (text : String) :
    tokens (renameText r text) = renameTokens r (tokens text) := by
  have hnew : ∀ token ∈ renameTokens r (tokens text), IsToken token :=
    isToken_of_mem_renameTokens fun _ => isToken_of_mem_tokens
  have hlength : (renameTokens r (tokens text)).length =
      (pieces (text.toList.takeWhile (· ≠ '#'))).length := by
    rw [length_renameTokens, tokens, List.length_map]
  -- no number sign is new, so that the comment starts where it did
  have hcode : ∀ c ∈ replaceTokens (text.toList.takeWhile (· ≠ '#')) (renameTokens r (tokens text)),
      decide (c ≠ '#') = true := by
    intro c hc
    rcases mem_replaceTokens hc with hc | ⟨token, htoken, hc⟩
    · have hkept := List.mem_takeWhile_imp hc
      exact hkept
    · exact decide_eq_true ((hnew token htoken).2 c hc).2
  have hcomment : (text.toList.dropWhile (· ≠ '#')).takeWhile (· ≠ '#') = [] := by
    have hstop := List.head?_dropWhile_not (· ≠ '#') text.toList
    cases hrest : text.toList.dropWhile (· ≠ '#') with
    | nil => rfl
    | cons c rest =>
      rw [hrest] at hstop
      exact List.takeWhile_cons_of_neg (Bool.eq_false_iff.1 hstop)
  rw [renameText, tokens_ofList, List.takeWhile_append_of_pos hcode, hcomment, List.append_nil,
    pieces_replaceTokens hlength hnew, map_ofList_toList]

theorem notMem_renameText (h : '\n' ∉ text.toList) : '\n' ∉ (renameText r text).toList := by
  rw [renameText, String.toList_ofList, List.mem_append, not_or]
  refine ⟨fun hmem => ?_, fun hmem => h ((List.dropWhile_suffix _).subset hmem)⟩
  rcases mem_replaceTokens hmem with hmem | ⟨token, htoken, hmem⟩
  · exact h ((List.takeWhile_prefix _).subset hmem)
  · have htoken := isToken_of_mem_renameTokens (fun _ => isToken_of_mem_tokens) token htoken
    cases (htoken.2 _ hmem).1

theorem tokenRows_renamed (source : String) :
    tokenRows (texts (renamed r source)) = (tokenRows (texts source)).map (renameTokens r) := by
  have hstrips : strips (renamed r source) = (strips source).map (renameText r) := by
    apply strips_ofStrips
    · simpa using strips_ne_nil source
    · exact List.forall_mem_map.2 fun part hpart => notMem_renameText (notMem_of_mem_strips hpart)
  have hrow (ts : List String) : renameTokens r ts ≠ [] ↔ ts ≠ [] := by
    rw [ne_eq, ne_eq, ← List.length_eq_zero_iff, length_renameTokens, List.length_eq_zero_iff]
  have htokens : tokens ∘ renameText r = renameTokens r ∘ tokens := funext tokens_renameText
  rw [← tokenRows_strips, ← tokenRows_strips, hstrips, tokenRows, tokenRows, List.map_map, htokens,
    ← List.map_map, List.filter_map]
  simp only [Function.comp_def, hrow]

/-! ## 3. New names in lines -/

variable {ls : List Line} {n : Nat} {ts : List String}

theorem renameToken_ne_empty (h : token ≠ "") : renameToken r token ≠ "" := by
  by_cases hid : isIdentifier token = true
  · intro hempty
    have hnew : isIdentifier (renameToken r token) = true := isIdentifier_renameToken hid
    rw [hempty] at hnew
    cases hnew
  · rw [renameToken_of_not hid]
    exact h

theorem ofTokens_renameTokens (ts : List String) :
    Line.ofTokens (renameTokens r ts) = (Line.ofTokens ts).renamed r := by
  cases ts with
  | nil => rfl
  | cons head rest =>
    rw [renameTokens, ofTokens_cons]
    cases hname : definedName? head with
    | none =>
      have hhead (operands : List String) :
          Line.ofTokens (head :: operands) = ⟨none, head :: operands⟩ := by
        rw [ofTokens_cons, hname]
      show Line.ofTokens (renameBody r (head :: rest)) = ⟨none, renameBody r (head :: rest)⟩
      rw [renameBody]
      split
      · exact hhead _
      · exact hhead _
    | some name =>
      have hnew : definedName? (renameToken r name ++ ":") = some (renameToken r name) :=
        definedName?_eq_some_iff.2 ⟨renameToken_ne_empty (definedName?_eq_some_iff.1 hname).1, rfl⟩
      dsimp only
      rw [ofTokens_cons, hnew]
      rfl

theorem labels_renamed (ls : List Line) :
    labels (ls.map (Line.renamed r)) = (labels ls).map (renameToken r) := by
  rw [labels, labels, List.filterMap_map, List.map_filterMap]
  rfl

theorem statements_renamed (ls : List Line) :
    statements (ls.map (Line.renamed r)) = (statements ls).map (renameBody r) := by
  have hrow (ts : List String) : renameBody r ts ≠ [] ↔ ts ≠ [] := by
    rw [ne_eq, ne_eq, ← List.length_eq_zero_iff, length_renameBody, List.length_eq_zero_iff]
  have hbody : Line.body ∘ Line.renamed r = renameBody r ∘ Line.body := rfl
  rw [statements, statements, List.map_map, hbody, ← List.map_map, List.filter_map]
  simp only [Function.comp_def, hrow]

theorem Address.renamed (h : Address ls name n) :
    Address (ls.map (Line.renamed r)) (renameToken r name) n := by
  obtain ⟨before, line, later, rfl, hlabel, rfl⟩ := h
  refine ⟨before.map (Line.renamed r), line.renamed r, later.map (Line.renamed r), ?_, ?_, ?_⟩
  · rw [List.map_append, List.map_cons]
  · exact congrArg (Option.map (renameToken r)) hlabel
  · rw [statements_renamed, List.length_map]

theorem renameBody_cons (op : Opcode) (operands : List String) :
    renameBody r (op.mnemonic :: operands) =
      op.mnemonic ::
        if op.operandKind = some .address then operands.map (renameToken r) else operands := by
  rw [renameBody, Opcode.ofMnemonic?_mnemonic, Option.bind_some]
  split <;> rfl

/-- An instruction denotes the same record under new names. Numerals have no names in them. -/
theorem Denotes.renamed {i : Instruction} (h : Denotes ls ts i) :
    Denotes (ls.map (Line.renamed r)) (renameBody r ts) i := by
  cases h with
  | bare op hkind =>
    rw [renameBody_cons, hkind]
    exact .bare op hkind
  | number op kind hkind token w hw =>
    have hid : ¬ isIdentifier token = true :=
      fun hid => not_spells_of_isIdentifier ((isIdentifier_iff token).1 hid) w hw
    rw [renameBody_cons, List.map_singleton, renameToken_of_not hid, ite_self]
    exact .number op kind hkind token w hw
  | label op hkind token n hn =>
    rw [renameBody_cons, if_pos hkind]
    exact .label op hkind _ n hn.renamed

theorem renameToken_inj (hr : Function.Injective r) {name' : String} (h : isIdentifier name = true)
    (h' : isIdentifier name' = true) (heq : renameToken r name = renameToken r name') :
    name = name' := by
  rw [renameToken, renameToken, dif_pos h, dif_pos h'] at heq
  exact congrArg Subtype.val (hr (Subtype.ext heq))

/-- Different labels stay different, so that each is still defined once. -/
theorem LabelsSound.renamed (hr : Function.Injective r) (h : LabelsSound ls) :
    LabelsSound (ls.map (Line.renamed r)) := by
  have hid (name : String) (hname : name ∈ labels ls) : isIdentifier name = true :=
    (isIdentifier_iff name).2 (h.1 name hname)
  unfold LabelsSound
  rw [labels_renamed]
  constructor
  · refine List.forall_mem_map.2 fun name hname => ?_
    exact (isIdentifier_iff _).1 (isIdentifier_renameToken (hid name hname))
  · refine List.Nodup.map_on (fun name hname name' hname' => ?_) h.2
    exact renameToken_inj hr (hid name hname) (hid name' hname')

theorem Assembles.renamed {is : List Instruction} (hr : Function.Injective r)
    (h : Assembles ls is) :
    Assembles (ls.map (Line.renamed r)) is where
  labelsSound := h.labelsSound.renamed hr
  fits := by
    rw [statements_renamed, List.length_map]
    exact h.fits
  denotes := by
    rw [statements_renamed, List.forall₂_map_left_iff]
    exact h.denotes.imp fun _ _ => Denotes.renamed

/-! ## 4. Sources under new names -/

theorem rowLines_renamed (source : String) :
    rowLines (texts (renamed r source)) = (rowLines (texts source)).map (Line.renamed r) := by
  rw [rowLines, tokenRows_renamed, rowLines, List.map_map, List.map_map]
  exact List.map_congr_left fun ts _ => ofTokens_renameTokens ts

/-- Labels are bound names: a source that assembles to a program assembles to the same program when
its labels get new names, where they are defined and where they are used, and different labels get
different names. -/
theorem assemble_renamed (r : Identifier → Identifier) (hr : Function.Injective r) (source : String)
    (p : Program) (h : assemble source = .ok p) : assemble (renamed r source) = .ok p := by
  rw [assemble_iff_rowLines] at h ⊢
  rw [rowLines_renamed]
  exact h.renamed hr

/-- A label takes the name of a mnemonic, and the comment keeps the old name. -/
theorem assemble_renamed_halt :
    let swap : Identifier → Identifier := Equiv.swap ⟨"again", by decide⟩ ⟨"HALT", by decide⟩
    let source := "again:,PUSH 1 # again\r\n\tJMP again\nHALT"
    let program : Program := ⟨#[.of .push 1, .of .jmp 0, .bare .halt], by decide⟩
    Function.Injective swap ∧ assemble source = .ok program ∧
      renamed swap source = "HALT:,PUSH 1 # again\r\n\tJMP HALT\nHALT" ∧
      assemble (renamed swap source) = .ok program := by
  intro swap source program
  have hswap : Function.Injective swap := Equiv.injective _
  have hsource : assemble source = .ok program := by decide +kernel
  exact ⟨hswap, hsource, by decide +kernel, assemble_renamed swap hswap source program hsource⟩

end StackMachine.Grammar

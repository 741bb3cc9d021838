import StackMachine.Proofs.LabelNames

/-!
Where the caret of a report stands.

The report of a located fault ends with the quoted line, behind a gutter that holds its number, and
a line with a caret below it. The caret is moved by the offset of the token, which counts bytes, and
its margin is as wide as the gutter of a number of four digits. A character of several bytes before
the token moves the caret too far to the right, a longer number moves the token; the caret stands
below the token exactly if the two make up for each other.
-/

namespace StackMachine.Grammar

open Assembly

/-! ## 1. Reports and tokens to blame -/

/-- What stands before a quoted line: its number, in four columns or more, and a bar. -/
def gutter (line : Nat) : String := Decimal.padLeft ' ' 4 (Decimal.ofNat line) ++ " | "

/-- The last line of a report: a margin with a bar, then a caret at the offset, which counts from
one. -/
def pointer (offset : Nat) : String :=
  "     | " ++ String.ofList (List.replicate (offset - 1) ' ') ++ "^"

/-- The column of the caret in the last line of a report, counted in characters from zero. -/
def caretColumn? (report : String) : Option Nat :=
  (texts report).getLast?.map fun row => row.toList.idxOf '^'

/-- The column of what follows `before` in a quoted line, counted in characters from zero. -/
def quotedColumn (line : Nat) (before : String) : Nat := (gutter line).length + before.length

/-- Token number `k` of the line, counted from zero, is `token`, between `before` and `after`. -/
structure Places (text : String) (k : Nat) (before token after : String) : Prop where
  text_eq : text = before ++ token ++ after
  getElem?_eq : (tokens text)[k]? = some token
  -- complete tokens stand before it, and none of them runs on into this one
  length_eq : (pieces before.toList).length = k
  separated : ∀ c ∈ before.toList.getLast?, isSeparator c = true

/-- In line number `line` of the source, between `before` and `after`, is the token to blame for the
fault `cause`. -/
inductive Culprit (source : String) : Nat → Fault → String → String → String → Prop
  | intro (above : List String) (text : String) (below : List String) (k : Nat) (cause : Fault)
      (before token after : String)
      (hsource : texts source = above ++ text :: below)
      (hblamed : Blamed (tokenRows (texts source)) (tokenRows above).length k cause)
      (hplaces : Places text k before token after) :
      Culprit source (above.length + 1) cause before token after

variable {source text before token after : String} {k line : Nat}

theorem Places.stands (h : Places text k before token after) :
    Stands text k token (Text.byteLength before.toList) := by
  refine ⟨h.getElem?_eq, before.toList, after.toList, ?_, h.length_eq, h.separated,
    (utf8ByteSize_ofList _).symm⟩
  rw [h.text_eq, String.toList_append, String.toList_append]

theorem Stands.exists_places {byte : Nat} (h : Stands text k token byte) :
    ∃ before after, Places text k before token after := by
  obtain ⟨htoken, before, after, htext, hcount, hend, -⟩ := h
  refine ⟨.ofList before, .ofList after, ?_, htoken, ?_, ?_⟩
  · apply String.toList_inj.1
    rw [htext, String.toList_append, String.toList_append, String.toList_ofList,
      String.toList_ofList]
  · rw [String.toList_ofList]
    exact hcount
  · rw [String.toList_ofList]
    exact hend

/-! ## 2. Lines of a report -/

theorem exists_cons_chunks {cs : List Char} (h : cs ≠ []) :
    ∃ chunk others, Text.chunks cs = chunk :: others := by
  obtain ⟨c, cs, rfl⟩ := List.exists_cons_of_ne_nil h
  cases hrest : Text.chunks cs with
  | nil => exact ⟨[c], [], chunks_cons_of_nil hrest⟩
  | cons chunk others =>
    rw [chunks_cons hrest]
    split
    · exact ⟨[c], chunk :: others, rfl⟩
    · exact ⟨c :: chunk, others, rfl⟩

theorem chunks_append (cs rest : List Char) :
    Text.chunks (cs ++ '\n' :: rest) = Text.chunks (cs ++ ['\n']) ++ Text.chunks rest := by
  induction cs with
  | nil => exact chunks_append_cons List.not_mem_nil rest
  | cons c cs ih =>
    obtain ⟨chunk, others, hchunks⟩ :=
      exists_cons_chunks (List.append_ne_nil_of_right_ne_nil cs (List.cons_ne_nil '\n' []))
    rw [hchunks, List.cons_append] at ih
    rw [List.cons_append, List.cons_append, chunks_cons ih, chunks_cons hchunks]
    split <;> rfl

theorem rows_append (cs rest : List Char) :
    rows (cs ++ '\n' :: rest) = rows (cs ++ ['\n']) ++ rows rest := by
  rw [← map_dropLineEnd_chunks, ← map_dropLineEnd_chunks, ← map_dropLineEnd_chunks, chunks_append,
    List.map_append]

theorem dropReturn_of_ne {row : List Char} (h : row.getLast? ≠ some '\r') : dropReturn row = row :=
  if_neg h

theorem notMem_of_mem_texts (h : text ∈ texts source) : '\n' ∉ text.toList := by
  obtain ⟨row, hrow, rfl⟩ := List.mem_map.1 h
  rw [String.toList_ofList]
  rw [rows, List.mem_append] at hrow
  rcases hrow with hrow | hrow
  · obtain ⟨part, hpart, rfl⟩ := List.mem_map.1 hrow
    have hlacks := notMem_of_mem_splitOn source.toList part (List.dropLast_subset _ hpart)
    unfold dropReturn
    split
    · exact fun hmem => hlacks (List.dropLast_subset _ hmem)
    · exact hlacks
  · have hlast : row ∈ (source.toList.splitOn '\n').getLast? := by
      simpa using (List.mem_filter.1 hrow).1
    exact notMem_of_mem_splitOn source.toList row (List.mem_of_getLast? hlast)

theorem mem_trimReturns {c : Char} (h : c ∈ (trimReturns text).toList) : c ∈ text.toList := by
  rw [trimReturns, String.toList_ofList, List.mem_reverse] at h
  exact List.mem_reverse.1 ((List.dropWhile_suffix _).mem h)

theorem getLast?_trimReturns (text : String) : (trimReturns text).toList.getLast? ≠ some '\r' := by
  rw [trimReturns, String.toList_ofList, List.getLast?_reverse]
  intro h
  have hhead := List.head?_dropWhile_not (· = '\r') text.toList.reverse
  rw [h] at hhead
  cases hhead

theorem trimReturns_of_token (htoken : IsToken token) (before after : String) :
    trimReturns (before ++ token ++ after) = before ++ token ++ trimReturns after := by
  obtain ⟨init, c, hc⟩ : ∃ init c, token.toList = init ++ [c] := by
    rcases List.eq_nil_or_concat token.toList with hnil | ⟨init, c, hc⟩
    · exact absurd hnil htoken.1
    · exact ⟨init, c, hc.trans List.concat_eq_append⟩
  -- a carriage return is a separator, so that the last character of the token stays
  have hstays : decide (c = '\r') = false := by
    apply decide_eq_false
    rintro rfl
    have hplain := (htoken.2 '\r' (by rw [hc]; exact List.mem_concat_self)).1
    cases hplain
  apply String.toList_inj.1
  simp only [trimReturns, String.toList_ofList, String.toList_append, hc]
  simp only [List.reverse_append, List.reverse_cons, List.reverse_nil, List.nil_append,
    List.cons_append]
  rw [List.dropWhile_append]
  split
  · next hempty =>
    rw [List.dropWhile_cons_of_neg (by rw [hstays]; exact Bool.false_ne_true),
      List.isEmpty_iff.1 hempty]
    simp
  · simp

theorem notMem_gutter (line : Nat) : '\n' ∉ (gutter line).toList := by
  have hdigits : '\n' ∉ Nat.toDigits 10 line := by
    intro hmem
    cases Nat.isDigit_of_mem_toDigits (by decide) (by decide) hmem
  simp [gutter, Decimal.padLeft, Decimal.ofNat, hdigits]

theorem notMem_pointer (offset : Nat) : '\n' ∉ (pointer offset).toList := by
  simp [pointer]

theorem getLast?_gutter_append (line : Nat) (text : String) :
    (gutter line ++ trimReturns text).toList.getLast? ≠ some '\r' := by
  intro h
  rw [String.toList_append, List.getLast?_append] at h
  cases hlast : (trimReturns text).toList.getLast? with
  | some c =>
    rw [hlast] at h
    exact getLast?_trimReturns text (hlast.trans h)
  | none =>
    rw [hlast, gutter, String.toList_append, List.getLast?_append] at h
    cases h

theorem getLast?_pointer (offset : Nat) : (pointer offset).toList.getLast? ≠ some '\r' := by
  intro h
  rw [pointer, String.toList_append, List.getLast?_append] at h
  cases h

theorem toList_append_quote (head : String) (line offset : Nat) (text : String) :
    (head ++ quote line offset text).toList = (head ++ "     |").toList ++ '\n' ::
      ((gutter line ++ trimReturns text).toList ++ '\n' ::
        ((pointer offset).toList ++ '\n' :: [])) := by
  have hquote :
      quote line offset text = "     |\n" ++ Decimal.padLeft ' ' 4 (Decimal.ofNat line) ++ " | " ++
      trimReturns text ++ "\n     | " ++ String.ofList (List.replicate (offset - 1) ' ') ++ "^\n" :=
    rfl
  simp [hquote, gutter, pointer]

/-- Whatever comes first, a report that quotes a line ends with that line and the caret. -/
theorem texts_append_quote (head : String) (line offset : Nat) (htext : '\n' ∉ text.toList) :
    ∃ above, texts (head ++ quote line offset text) =
      above ++ [gutter line ++ trimReturns text, pointer offset] := by
  have hquoted : '\n' ∉ (gutter line ++ trimReturns text).toList := by
    rw [String.toList_append, List.mem_append, not_or]
    exact ⟨notMem_gutter line, fun hmem => htext (mem_trimReturns hmem)⟩
  have hrows :
      rows (head ++ quote line offset text).toList = rows ((head ++ "     |").toList ++ ['\n']) ++
      [(gutter line ++ trimReturns text).toList, (pointer offset).toList] := by
    rw [toList_append_quote, rows_append, rows_append_cons hquoted,
      rows_append_cons (notMem_pointer offset), dropReturn_of_ne (getLast?_gutter_append line text),
      dropReturn_of_ne (getLast?_pointer offset)]
    rfl
  refine ⟨(rows ((head ++ "     |").toList ++ ['\n'])).map String.ofList, ?_⟩
  rw [texts, hrows, List.map_append, List.map_cons, List.map_singleton, String.ofList_toList,
    String.ofList_toList]

/-! ## 3. Columns -/

theorem length_le_byteLength (cs : List Char) : cs.length ≤ Text.byteLength cs := by
  induction cs with
  | nil => exact Nat.le_refl 0
  | cons c cs ih =>
    have hcons : Text.byteLength (c :: cs) = c.utf8Size + Text.byteLength cs := rfl
    have hsize : 1 ≤ c.utf8Size := c.utf8Size_pos
    rw [List.length_cons, hcons]
    omega

theorem length_gutter (line : Nat) :
    (gutter line).length = 7 + ((Decimal.ofNat line).length - 4) := by
  have hpadded : (Decimal.padLeft ' ' 4 (Decimal.ofNat line)).length =
      4 - (Decimal.ofNat line).length + (Decimal.ofNat line).length := by
    rw [Decimal.padLeft, ← String.length_toList, String.toList_ofList, List.length_append,
      List.length_replicate, String.length_toList]
  have hbar : " | ".length = 3 := rfl
  rw [gutter, String.length_append, hpadded, hbar]
  omega

theorem idxOf_pointer (offset : Nat) : (pointer offset).toList.idxOf '^' = 7 + (offset - 1) := by
  have hmargin : '^' ∉ ("     | " ++ String.ofList (List.replicate (offset - 1) ' ')).toList := by
    simp
  have hindent : (String.ofList (List.replicate (offset - 1) ' ')).toList.length = offset - 1 := by
    rw [String.toList_ofList, List.length_replicate]
  rw [pointer, String.toList_append, List.idxOf_append_of_notMem hmargin, String.toList_append,
    List.length_append, hindent]
  rfl

theorem caretColumn?_of_texts {report quoted : String} {above : List String} {offset : Nat}
    (h : texts report = above ++ [quoted, pointer offset]) :
    caretColumn? report = some (7 + (offset - 1)) := by
  rw [caretColumn?, h, List.getLast?_append_cons, ← idxOf_pointer]
  rfl

/-! ## 4. The token to blame -/

variable {offset : Nat} {message : String} {cause : Fault}

theorem exists_culprit (h : assemble source = .error (.fault (.located line offset message))) :
    ∃ cause before token after, Culprit source line cause before token after ∧
      message = cause.message := by
  obtain ⟨fault, hfault, hrejects⟩ := (assemble_eq_error_iff source _).1 h
  obtain ⟨hlabels, hcount⟩ | ⟨row, k, cause, hblamed⟩ := hrejects.cases_rows
  · cases h.symm.trans (assemble_of_tooLarge hlabels hcount)
  · obtain ⟨above, text, below, token, byte, hsource, rfl, hplace, hassemble⟩ := hblamed.blames
    obtain ⟨before, after, hplaces⟩ := hplace.exists_places
    cases h.symm.trans hassemble
    exact ⟨cause, before, token, after,
      .intro above text below k cause before token after hsource hblamed hplaces, rfl⟩

/-- The fault is reported at the offset of the token to blame, which counts bytes. -/
theorem Culprit.offset_eq (hculprit : Culprit source line cause before token after)
    (h : assemble source = .error (.fault (.located line offset message))) :
    offset = Text.byteLength before.toList + 1 := by
  cases hculprit with
  | intro above text below k _ _ _ _ hsource hblamed hplaces =>
    obtain ⟨above', text', below', token', byte, hsource', -, hplace, hassemble⟩ := hblamed.blames
    have hsame := h.symm.trans hassemble
    simp only [Except.error.injEq, Trap.fault.injEq, Fault.located.injEq, Nat.add_right_cancel_iff]
      at hsame
    obtain ⟨hlength, rfl, -⟩ := hsame
    obtain ⟨-, htail⟩ := List.append_inj (hsource.symm.trans hsource') hlength
    cases htail
    rw [hplaces.stands.byte_eq hplace]

theorem Culprit.texts_diagnostic (hculprit : Culprit source line cause before token after)
    (file : String) (offset : Nat) (message : String) :
    ∃ above, texts (diagnostic file source (.located line offset message)) =
      above ++ [gutter line ++ before ++ token ++ trimReturns after, pointer offset] := by
  cases hculprit with
  | intro above text below k _ _ _ _ hsource hblamed hplaces =>
    have hmem : text ∈ texts source := by
      rw [hsource]
      exact List.mem_append_right above List.mem_cons_self
    have hline : (Text.lines source)[above.length + 1 - 1]? = some text := by
      rw [← texts_eq, hsource, Nat.add_sub_cancel, List.getElem?_append_right (Nat.le_refl _),
        Nat.sub_self]
      rfl
    have htoken : IsToken token := isToken_of_mem_tokens (List.mem_of_getElem? hplaces.getElem?_eq)
    have hquoted : gutter (above.length + 1) ++ before ++ token ++ trimReturns after =
        gutter (above.length + 1) ++ trimReturns text := by
      rw [hplaces.text_eq, trimReturns_of_token htoken, String.append_assoc, String.append_assoc,
        String.append_assoc]
    rw [hquoted]
    simp only [diagnostic, hline]
    exact texts_append_quote _ _ _ (notMem_of_mem_texts hmem)

theorem pieces_of_separators {cs : List Char} (h : cs.all isSeparator = true) : pieces cs = [] := by
  induction cs with
  | nil => rfl
  | cons c cs ih =>
    rw [List.all_cons, Bool.and_eq_true] at h
    rw [pieces_separator h.1, ih h.2]

/-- A source of one line without a label, whose first token is no mnemonic. -/
theorem Culprit.of_unknown {head : String} (operands : List String)
    (hsource : texts source = [text]) (htokens : tokens text = head :: operands)
    (hlabel : definedName? head = none) (hhead : ∀ op : Opcode, op.mnemonic ≠ head)
    (htext : text = before ++ head ++ after) (hbefore : before.toList.all isSeparator = true) :
    Culprit source 1 (.unknownMnemonic head) before head after := by
  have hline : Line.ofTokens (head :: operands) = ⟨none, head :: operands⟩ := by
    rw [ofTokens_cons, hlabel]
  have htable : tokenRows (texts source) = [head :: operands] := by
    rw [hsource, tokenRows_of_tokens (by rw [htokens]; exact List.cons_ne_nil _ _), htokens]
    rfl
  have hfirst : (Line.ofTokens (head :: operands)).label.toList.length + 0 = 0 := by rw [hline]; rfl
  have hblamed :
      Blamed [head :: operands] 0 ((Line.ofTokens (head :: operands)).label.toList.length + 0)
      (.unknownMnemonic head) := by
    apply Blamed.statement [] (head :: operands) [] 0
    · rw [List.map_singleton, hline]
      exact ⟨fun name hname => absurd hname List.not_mem_nil, List.nodup_nil⟩
    · rw [List.map_singleton, hline]
      show (1 : Nat) < 1024
      decide
    · rfl
    · intro body hbody
      cases hbody
    · rw [hline]
      exact .mnemonic head operands hhead
  rw [hfirst, ← htable] at hblamed
  refine .intro [] text [] 0 _ _ _ _ hsource hblamed ⟨htext, ?_, ?_, ?_⟩
  · rw [htokens]
    rfl
  · rw [pieces_of_separators hbefore]
    rfl
  · intro c hc
    exact List.all_eq_true.1 hbefore c (List.mem_of_getLast? hc)

/-- The caret stands below the token to blame exactly if the bytes beyond one for each character
before the token are as many as the digits beyond four of the line number. If a source is rejected
at a line, that line holds a token to blame. The report, for whatever file, ends with the line,
behind its gutter and without carriage returns at its end, and the line of the caret. The column of
the caret is that of the token exactly if the two numbers agree. -/
theorem caret_below_culprit_iff
    (h : assemble source = .error (.fault (.located line offset message))) (file : String) :
    let report := diagnostic file source (.located line offset message)
    (∃ cause before token after, Culprit source line cause before token after ∧
      message = cause.message) ∧
      ∀ cause before token after, Culprit source line cause before token after →
        (∃ above, texts report =
          above ++ [gutter line ++ before ++ token ++ trimReturns after, pointer offset]) ∧
        (caretColumn? report = some (quotedColumn line before) ↔
          Text.byteLength before.toList - before.length = (Decimal.ofNat line).length - 4) := by
  intro report
  refine ⟨exists_culprit h, fun cause before token after hculprit => ?_⟩
  obtain ⟨above, hreport⟩ := hculprit.texts_diagnostic file offset message
  refine ⟨⟨above, hreport⟩, ?_⟩
  have hbytes : before.length ≤ Text.byteLength before.toList := by
    rw [← String.length_toList]
    exact length_le_byteLength before.toList
  rw [caretColumn?_of_texts hreport, quotedColumn, length_gutter, hculprit.offset_eq h,
    Option.some.injEq]
  omega

/-- A tidy line, apart from the carriage returns at its end. -/
theorem caret_below_culprit_iff_returns :
    let source := "  FOO, 1 # bar\r\r\n"
    let report := diagnostic "prog.basm" source (.located 1 3 "unknown instruction: FOO")
    assemble source = .error (.fault (.located 1 3 "unknown instruction: FOO")) ∧
      Culprit source 1 (.unknownMnemonic "FOO") "  " "FOO" ", 1 # bar\r" ∧
      caretColumn? report = some (quotedColumn 1 "  ") ∧
      ∃ above, texts report = above ++ ["   1 |   FOO, 1 # bar", "     |   ^"] := by
  intro source report
  have hassemble : assemble source = .error (.fault (.located 1 3 "unknown instruction: FOO")) := by
    decide +kernel
  have hculprit : Culprit source 1 (.unknownMnemonic "FOO") "  " "FOO" ", 1 # bar\r" :=
    .of_unknown ["1"] (by decide +kernel) (by decide +kernel) (by decide +kernel)
      (by intro op; cases op <;> decide) rfl
      (by decide +kernel)
  obtain ⟨hreport, hcaret⟩ := (caret_below_culprit_iff hassemble "prog.basm").2 _ _ _ _ hculprit
  refine ⟨hassemble, hculprit, hcaret.2 (by decide +kernel), ?_⟩
  have hquoted :
      gutter 1 ++ "  " ++ "FOO" ++ trimReturns ", 1 # bar\r" = "   1 |   FOO, 1 # bar" := by
    decide +kernel
  have hpointer : pointer 3 = "     |   ^" := by decide +kernel
  rwa [hquoted, hpointer] at hreport

/-- A blank of two bytes before the token moves the caret one column too far. -/
theorem caret_not_below_culprit :
    ¬ ∀ (source file : String) (line offset : Nat) (message : String),
      assemble source = .error (.fault (.located line offset message)) →
        ∀ cause before token after, Culprit source line cause before token after →
          caretColumn? (diagnostic file source (.located line offset message)) =
            some (quotedColumn line before) := by
  intro hcaret
  have hassemble :
      assemble "\u00a0FOO" = .error (.fault (.located 1 3 "unknown instruction: FOO")) := by
    decide +kernel
  have hculprit : Culprit "\u00a0FOO" 1 (.unknownMnemonic "FOO") "\u00a0" "FOO" "" :=
    .of_unknown [] (by decide +kernel) (by decide +kernel) (by decide +kernel)
      (by intro op; cases op <;> decide) rfl
      (by decide +kernel)
  have hcolumn := hcaret "\u00a0FOO" "prog.basm" 1 3 _ hassemble _ _ _ _ hculprit
  -- the caret is in column 9, and the token in column 8
  revert hcolumn
  decide +kernel

end StackMachine.Grammar

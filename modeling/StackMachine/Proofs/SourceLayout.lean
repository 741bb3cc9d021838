import StackMachine.Proofs.SourceFaults

/-!
What the assembler looks at in a source: the tokens of the lines that have any, row by row.

Sources with the same rows have the same outcome. They assemble to one program, or they are rejected
for one reason at one token, and only the number of its line and its column may differ.
-/

namespace StackMachine.Grammar

open Assembly

/-! ## 1. Rows of tokens -/

/-- The tokens of every line that has tokens. -/
def tokenRows (page : List String) : List (List String) := (page.map tokens).filter (· ≠ [])

variable {source text : String} {before later page : List String} {ls : List Line}

theorem tokenRows_append (before later : List String) :
    tokenRows (before ++ later) = tokenRows before ++ tokenRows later := by
  rw [tokenRows, List.map_append, List.filter_append]
  rfl

theorem tokenRows_of_blank (h : tokens text = []) (page : List String) :
    tokenRows (text :: page) = tokenRows page := by
  rw [tokenRows, List.map_cons, h, List.filter_cons_of_neg (by simp)]
  rfl

theorem tokenRows_of_tokens (h : tokens text ≠ []) (page : List String) :
    tokenRows (text :: page) = tokens text :: tokenRows page := by
  rw [tokenRows, List.map_cons, List.filter_cons_of_pos (by simpa using h)]
  rfl

/-- A row is the row of a line. -/
theorem exists_text_of_tokenRows {rows more : List (List String)} {ts : List String}
    (h : tokenRows page = rows ++ ts :: more) :
    ∃ before text later, page = before ++ text :: later ∧ tokenRows before = rows ∧
      tokens text = ts := by
  obtain ⟨first, rest, hsplit, hrows, hrest⟩ := List.filter_eq_append_iff.1 h
  obtain ⟨gap, after, hafter, hgap, -, -⟩ := List.filter_eq_cons_iff.1 hrest
  rw [hafter, ← List.append_assoc, List.map_eq_append_iff] at hsplit
  obtain ⟨before, others, rfl, hbefore, hothers⟩ := hsplit
  obtain ⟨text, later, rfl, htext, -⟩ := List.map_eq_cons_iff.1 hothers
  refine ⟨before, text, later, rfl, ?_, htext⟩
  rw [tokenRows, hbefore, List.filter_append, hrows, List.filter_eq_nil_iff.2 hgap, List.append_nil]

/-! ## 2. Line feeds -/

/-- The parts of a text between its line feeds. -/
def strips (source : String) : List String := (source.toList.splitOn '\n').map String.ofList

/-- The text with these parts between its line feeds. -/
def ofStrips (parts : List String) : String := "\n".intercalate parts

theorem strips_ofStrips {parts : List String} (hne : parts ≠ [])
    (h : ∀ part ∈ parts, '\n' ∉ part.toList) :
    strips (ofStrips parts) = parts := by
  have hsplit :
      (['\n'].intercalate (parts.map String.toList)).splitOn '\n' = parts.map String.toList := by
    apply List.splitOn_intercalate
    · intro cs hcs
      obtain ⟨part, hpart, rfl⟩ := List.mem_map.1 hcs
      exact h part hpart
    · simpa using hne
  have hfeed : "\n".toList = ['\n'] := rfl
  rw [strips, ofStrips, String.toList_intercalate, hfeed, hsplit, List.map_map]
  exact List.map_id'' (fun part => String.ofList_toList) parts

theorem notMem_of_mem_splitOn (cs : List Char) : ∀ row ∈ cs.splitOn '\n', '\n' ∉ row := by
  by_cases h : '\n' ∈ cs
  · obtain ⟨first, rest, heq, hfirst⟩ := List.eq_append_cons_of_mem h
    have hlt : rest.length < cs.length := by
      rw [heq, List.length_append, List.length_cons]
      omega
    rw [heq, List.splitOn_append_cons_self_of_not_mem hfirst]
    exact List.forall_mem_cons.2 ⟨hfirst, notMem_of_mem_splitOn rest⟩
  · rw [List.splitOn_eq_singleton h]
    exact List.forall_mem_singleton.2 h
termination_by cs.length

theorem notMem_of_mem_strips {part : String} (h : part ∈ strips source) : '\n' ∉ part.toList := by
  obtain ⟨row, hrow, rfl⟩ := List.mem_map.1 h
  rw [String.toList_ofList]
  exact notMem_of_mem_splitOn source.toList row hrow

theorem strips_ne_nil (source : String) : strips source ≠ [] := by
  simp [strips, List.splitOn_ne_nil]

theorem tokens_ofList (row : List Char) :
    tokens (.ofList row) = (pieces (row.takeWhile (· ≠ '#'))).map String.ofList := by
  rw [tokens, String.toList_ofList]

-- The carriage return at the end of a row is blank, or it belongs to the comment.
theorem tokens_dropReturn (row : List Char) :
    tokens (.ofList (dropReturn row)) = tokens (.ofList row) := by
  rcases List.eq_nil_or_concat row with rfl | ⟨init, last, rfl⟩
  · rfl
  rw [List.concat_eq_append]
  by_cases hlast : last = '\r'
  · have hdrop : dropReturn (init ++ [last]) = init := by simp [dropReturn, hlast]
    rw [hdrop, tokens_ofList, tokens_ofList, List.takeWhile_append]
    split
    · next hall =>
      have hsep : isSeparator last = true := by
        rw [hlast]
        decide
      have hkeep : [last].takeWhile (· ≠ '#') = [last] := by
        rw [hlast]
        decide
      have hinit : init.takeWhile (· ≠ '#') = init := (List.takeWhile_prefix _).eq_of_length hall
      rw [hkeep, hinit, pieces_append_cons hsep]
      exact congrArg _ (List.append_nil _).symm
    · rfl
  · rw [dropReturn, if_neg (by simpa using hlast)]

/-- A source has a line for each of its strips, except for an empty one at the end. -/
theorem map_tokens_strips (source : String) :
    ∃ n, (strips source).map tokens = (texts source).map tokens ++ List.replicate n [] := by
  obtain ⟨init, last, hsplit⟩ :=
    (List.eq_nil_or_concat (source.toList.splitOn '\n')).resolve_left (List.splitOn_ne_nil _ _)
  rw [strips, texts, rows, hsplit, List.concat_eq_append, List.dropLast_concat,
    List.getLast?_concat]
  have hempty : tokens "" = [] := rfl
  by_cases hlast : last = []
  · exact ⟨1, by simp [hlast, tokens_dropReturn, hempty]⟩
  · exact ⟨0, by simp [hlast, tokens_dropReturn]⟩

theorem tokenRows_strips (source : String) :
    tokenRows (strips source) = tokenRows (texts source) := by
  obtain ⟨n, hn⟩ := map_tokens_strips source
  rw [tokenRows, hn, List.filter_append, List.filter_replicate_of_neg (by simp), List.append_nil]
  rfl

/-! ## 3. Lines with and without tokens -/

theorem labels_append_lines (ls₁ ls₂ : List Line) :
    labels (ls₁ ++ ls₂) = labels ls₁ ++ labels ls₂ :=
  List.filterMap_append

theorem statements_append_lines (ls₁ ls₂ : List Line) :
    statements (ls₁ ++ ls₂) = statements ls₁ ++ statements ls₂ := by
  rw [statements, List.map_append, List.filter_append]
  rfl

theorem address_split {ls₁ ls₂ : List Line} {name : String} {n : Nat} :
    Address (ls₁ ++ ls₂) name n ↔
      Address ls₁ name n ∨ ∃ m, Address ls₂ name m ∧ n = (statements ls₁).length + m := by
  have hcount (ls ls' : List Line) :
      (statements (ls ++ ls')).length = (statements ls).length + (statements ls').length := by
    rw [statements_append_lines, List.length_append]
  constructor
  · rintro ⟨before, line, later, heq, hlabel, rfl⟩
    rcases List.append_eq_append_iff.1 heq with ⟨more, rfl, rfl⟩ | ⟨more, rfl, hmore⟩
    · exact .inr ⟨_, ⟨more, line, later, rfl, hlabel, rfl⟩, hcount _ _⟩
    · cases more with
      | nil =>
        cases hmore
        refine .inr ⟨0, ⟨[], line, later, rfl, hlabel, rfl⟩, ?_⟩
        rw [List.append_nil, Nat.add_zero]
      | cons head more =>
        cases hmore
        exact .inl ⟨before, line, more, rfl, hlabel, rfl⟩
  · rintro (⟨before, line, later, rfl, hlabel, rfl⟩ |
      ⟨m, ⟨before, line, later, rfl, hlabel, rfl⟩, rfl⟩)
    · exact ⟨before, line, later ++ ls₂, by simp, hlabel, rfl⟩
    · exact ⟨ls₁ ++ before, line, later, by simp, hlabel, (hcount _ _).symm⟩

theorem not_address_nil {name : String} {n : Nat} : ¬ Address [] name n := by
  rintro ⟨before, line, later, hnil, -⟩
  cases before <;> cases hnil

theorem address_cons {l : Line} {name : String} {n : Nat} :
    Address (l :: ls) name n ↔
      (l.label = some name ∧ n = 0) ∨ ∃ m, Address ls name m ∧ n = (statements [l]).length + m := by
  have hsplit : Address ([l] ++ ls) name n ↔ _ := address_split
  have hsingle : Address ([] ++ [l]) name n ↔ _ := address_append
  rw [List.nil_append] at hsingle
  rw [List.singleton_append, hsingle] at hsplit
  simpa [not_address_nil, statements] using hsplit

theorem lineOf_of_blank (h : tokens text = []) : lineOf text = ⟨none, []⟩ := by
  rw [lineOf, h]
  rfl

/-- The lines that have tokens. -/
def rowLines (page : List String) : List Line := (tokenRows page).map .ofTokens

theorem rowLines_of_blank (h : tokens text = []) (page : List String) :
    rowLines (text :: page) = rowLines page := by
  rw [rowLines, tokenRows_of_blank h]
  rfl

theorem rowLines_of_tokens (h : tokens text ≠ []) (page : List String) :
    rowLines (text :: page) = lineOf text :: rowLines page := by
  rw [rowLines, tokenRows_of_tokens h]
  rfl

theorem labels_rowLines (page : List String) :
    labels (rowLines page) = labels (page.map lineOf) := by
  induction page with
  | nil => rfl
  | cons text page ih =>
    unfold labels at ih ⊢
    by_cases hblank : tokens text = []
    · rw [rowLines_of_blank hblank, ih, List.map_cons, lineOf_of_blank hblank]
      rfl
    · rw [rowLines_of_tokens hblank, List.map_cons, List.filterMap_cons, List.filterMap_cons, ih]

theorem statements_rowLines (page : List String) :
    statements (rowLines page) = statements (page.map lineOf) := by
  induction page with
  | nil => rfl
  | cons text page ih =>
    unfold statements at ih ⊢
    by_cases hblank : tokens text = []
    · rw [rowLines_of_blank hblank, ih, List.map_cons, lineOf_of_blank hblank]
      rfl
    · rw [rowLines_of_tokens hblank, List.map_cons, List.map_cons, List.map_cons, List.filter_cons,
        List.filter_cons, ih]

theorem address_rowLines {name : String} {n : Nat} :
    Address (rowLines page) name n ↔ Address (page.map lineOf) name n := by
  induction page generalizing n with
  | nil => rfl
  | cons text page ih =>
    rw [List.map_cons, address_cons]
    by_cases hblank : tokens text = []
    · rw [rowLines_of_blank hblank, ih, lineOf_of_blank hblank]
      simp [statements]
    · simp only [rowLines_of_tokens hblank, address_cons, ih]

/-! ## 4. Accepted sources -/

/-- The lines make up an accepted source, and the records are what it denotes. -/
structure Assembles (ls : List Line) (is : List Instruction) : Prop where
  labelsSound : LabelsSound ls
  fits : (statements ls).length ≤ 1023
  denotes : List.Forall₂ (Denotes ls) (statements ls) is

theorem assemble_iff_assembles {p : Program} :
    assemble source = .ok p ↔ Assembles ((texts source).map lineOf) p.records.toList := by
  rw [assemble_eq_ok_iff, map_lineOf_texts]
  constructor
  · rintro ⟨hgrammatical, hdenotes⟩
    exact ⟨⟨hgrammatical.identifiers, hgrammatical.distinct⟩, hgrammatical.fits, hdenotes⟩
  · rintro ⟨hlabels, hfits, hdenotes⟩
    exact ⟨⟨hlabels.1, hlabels.2, hfits, forall_isStatement_iff.2 ⟨_, hdenotes⟩⟩, hdenotes⟩

theorem Denotes.mono {ls' : List Line} (haddress : ∀ name n, Address ls name n → Address ls' name n)
    {ts : List String} {i : Instruction} (h : Denotes ls ts i) : Denotes ls' ts i := by
  cases h with
  | bare op hkind => exact .bare op hkind
  | number op kind hkind token w hw => exact .number op kind hkind token w hw
  | label op hkind token n hn => exact .label op hkind token n (haddress token n hn)

theorem denotes_rowLines {ts : List String} {i : Instruction} :
    Denotes (rowLines page) ts i ↔ Denotes (page.map lineOf) ts i :=
  ⟨.mono fun _ _ => address_rowLines.1, .mono fun _ _ => address_rowLines.2⟩

theorem labelsSound_rowLines : LabelsSound (rowLines page) ↔ LabelsSound (page.map lineOf) := by
  rw [LabelsSound, labels_rowLines]
  rfl

theorem assembles_rowLines {is : List Instruction} :
    Assembles (rowLines page) is ↔ Assembles (page.map lineOf) is := by
  have hdenotes : List.Forall₂ (Denotes (rowLines page)) (statements (rowLines page)) is ↔
      List.Forall₂ (Denotes (page.map lineOf)) (statements (page.map lineOf)) is := by
    rw [statements_rowLines]
    exact ⟨.imp fun _ _ => denotes_rowLines.1, .imp fun _ _ => denotes_rowLines.2⟩
  constructor
  · rintro ⟨hlabels, hfits, his⟩
    exact ⟨labelsSound_rowLines.1 hlabels, statements_rowLines page ▸ hfits, hdenotes.1 his⟩
  · rintro ⟨hlabels, hfits, his⟩
    exact ⟨labelsSound_rowLines.2 hlabels, (statements_rowLines page).symm ▸ hfits, hdenotes.2 his⟩

/-- The program of a source depends on its rows of tokens alone. -/
theorem assemble_iff_rowLines {p : Program} :
    assemble source = .ok p ↔ Assembles (rowLines (texts source)) p.records.toList := by
  rw [assemble_iff_assembles, assembles_rowLines]

/-! ## 5. Rejected sources -/

/-- Why a source with these rows is rejected, if not for its size, and which token of which row is
to blame. -/
inductive Blamed (table : List (List String)) : Nat → Nat → Fault → Prop
  | label (above : List (List String)) (ts : List String) (below : List (List String))
      (name : String) (cause : Fault)
      (htable : table = above ++ ts :: below) (habove : LabelsSound (above.map .ofTokens))
      (hname : (Line.ofTokens ts).label = some name)
      (hfault : LabelFault (labels (above.map .ofTokens)) name cause) :
      Blamed table above.length 0 cause
  | statement (above : List (List String)) (ts : List String) (below : List (List String)) (k : Nat)
      (cause : Fault)
      (hlabels : LabelsSound (table.map .ofTokens))
      (hcount : (statements (table.map .ofTokens)).length < 1024)
      (htable : table = above ++ ts :: below)
      (habove : ∀ body ∈ statements (above.map .ofTokens), IsStatement (table.map .ofTokens) body)
      (hfault : StatementFault (table.map .ofTokens) (Line.ofTokens ts).body k cause) :
      Blamed table above.length ((Line.ofTokens ts).label.toList.length + k) cause

/-- The source is rejected with the message, and the report points at token number `k` of row number
`row`. -/
def Blames (source : String) (row k : Nat) (message : String) : Prop :=
  ∃ before text later token byte, texts source = before ++ text :: later ∧
    (tokenRows before).length = row ∧
    Stands text k token byte ∧
    assemble source = .error (.fault (.located (before.length + 1) (byte + 1) message))

theorem exists_stands {k : Nat} {token : String} (h : (tokens text)[k]? = some token) :
    ∃ byte, Stands text k token byte := by
  rw [← map_text_scan, List.getElem?_map, Option.map_eq_some_iff] at h
  obtain ⟨t, ht, rfl⟩ := h
  obtain ⟨byte, hbyte, -⟩ := stands_of_scan ht
  exact ⟨byte, hbyte⟩

theorem getElem?_of_label {ts : List String} {name : String}
    (h : (Line.ofTokens ts).label = some name) :
    ts[0]? = some (name ++ ":") := by
  cases ts with
  | nil => cases h
  | cons token rest =>
    rw [ofTokens_cons] at h
    cases hname : definedName? token with
    | none =>
      rw [hname] at h
      cases h
    | some name' =>
      rw [hname] at h
      cases h
      exact congrArg some (definedName?_eq_some_iff.1 hname).2

theorem getElem?_body (ts : List String) (k : Nat) :
    ts[(Line.ofTokens ts).label.toList.length + k]? = (Line.ofTokens ts).body[k]? := by
  cases ts with
  | nil => rfl
  | cons token rest =>
    rw [ofTokens_cons]
    cases definedName? token with
    | none =>
      show (token :: rest)[0 + k]? = (token :: rest)[k]?
      rw [Nat.zero_add]
    | some name =>
      show (token :: rest)[1 + k]? = rest[k]?
      rw [Nat.add_comm, List.getElem?_cons_succ]

theorem StatementFault.exists_token {ts : List String} {k : Nat} {cause : Fault}
    (h : StatementFault ls ts k cause) :
    ∃ token, ts[k]? = some token := by
  cases h with
  | mnemonic head operands hhead => exact ⟨head, rfl⟩
  | arity op operands harity => exact ⟨op.mnemonic, rfl⟩
  | operand op kind hkind token hword hname => exact ⟨token, rfl⟩
  | label op hkind token hname hlabel => exact ⟨token, rfl⟩

theorem StatementFault.congr {ls' : List Line} (hlabels : labels ls = labels ls') {ts : List String}
    {k : Nat} {cause : Fault} (h : StatementFault ls ts k cause) :
    StatementFault ls' ts k cause := by
  cases h with
  | mnemonic head operands hhead => exact .mnemonic head operands hhead
  | arity op operands harity => exact .arity op operands harity
  | operand op kind hkind token hword hname => exact .operand op kind hkind token hword hname
  | label op hkind token hname hlabel => exact .label op hkind token hname (hlabels ▸ hlabel)

theorem isStatement_rowLines {ts : List String} :
    IsStatement (rowLines page) ts ↔ IsStatement (page.map lineOf) ts := by
  simp only [isStatement_iff, denotes_rowLines]

/-- What the rows are to blame for, the source is rejected for, at the same token. -/
theorem Blamed.blames {row k : Nat} {cause : Fault}
    (h : Blamed (tokenRows (texts source)) row k cause) :
    Blames source row k cause.message := by
  cases h with
  | label above ts below name _ htable habove hname hfault =>
    obtain ⟨before, text, later, hsource, rfl, rfl⟩ := exists_text_of_tokenRows htable
    obtain ⟨byte, hplace⟩ := exists_stands (getElem?_of_label hname)
    have hearlier : labels ((tokenRows before).map .ofTokens) = labels (before.map lineOf) :=
      labels_rowLines before
    rw [hearlier] at hfault
    have hrejects : Rejects source (.located (before.length + 1) (byte + 1) cause.message) :=
      .label before text later _ hsource (labelsSound_rowLines.1 habove)
        ⟨name, cause, byte, hname, hfault, hplace, rfl⟩
    exact ⟨before, text, later, _, byte, hsource, rfl, hplace,
      (assemble_eq_error_iff _ _).2 ⟨_, rfl, hrejects⟩⟩
  | statement above ts below k _ hlabels hcount htable habove hfault =>
    obtain ⟨before, text, later, hsource, rfl, rfl⟩ := exists_text_of_tokenRows htable
    obtain ⟨token, htoken⟩ := hfault.exists_token
    obtain ⟨byte, hplace⟩ := exists_stands ((getElem?_body _ k).trans htoken)
    have hlines : (texts source).map lineOf = lines source := map_lineOf_texts source
    have hrejects : Rejects source (.located (before.length + 1) (byte + 1) cause.message) := by
      refine .statement before text later _ ?_ ?_ hsource ?_
        ⟨k, token, cause, byte, ?_, hplace, rfl⟩
      · exact hlines ▸ labelsSound_rowLines.1 hlabels
      · rw [← hlines, ← statements_rowLines]
        exact hcount
      · intro body hbody
        rw [← statements_rowLines] at hbody
        exact hlines ▸ isStatement_rowLines.1 (habove body hbody)
      · exact hlines ▸ hfault.congr (labels_rowLines (texts source))
    exact ⟨before, text, later, _, byte, hsource, rfl, hplace,
      (assemble_eq_error_iff _ _).2 ⟨_, rfl, hrejects⟩⟩

theorem tokenRows_split (h : tokens text ≠ []) (before later : List String) :
    tokenRows (before ++ text :: later) = tokenRows before ++ tokens text :: tokenRows later := by
  rw [tokenRows_append, tokenRows_of_tokens h]

/-- A source is rejected for its size, or a token of one of its rows is to blame. -/
theorem Rejects.cases_rows {fault : Fault} (h : Rejects source fault) :
    (LabelsSound (rowLines (texts source)) ∧ 1024 ≤ (statements (rowLines (texts source))).length) ∨
      ∃ row k cause, Blamed (tokenRows (texts source)) row k cause := by
  have hlines : (texts source).map lineOf = lines source := map_lineOf_texts source
  cases h with
  | label before text later _ hsource hearlier hfault =>
    obtain ⟨name, cause, byte, hname, hfault, -, -⟩ := hfault
    have htokens : tokens text ≠ [] := by
      intro hblank
      rw [lineOf_of_blank hblank] at hname
      cases hname
    refine .inr ⟨_, 0, cause,
      .label (tokenRows before) (tokens text) (tokenRows later) name cause ?_ ?_ hname ?_⟩
    · rw [hsource, tokenRows_split htokens]
    · exact labelsSound_rowLines.2 hearlier
    · rw [← labels_rowLines] at hfault
      exact hfault
  | tooLarge hlabels hcount =>
    rw [← hlines] at hlabels hcount
    rw [← statements_rowLines] at hcount
    exact .inl ⟨labelsSound_rowLines.2 hlabels, hcount⟩
  | statement before text later _ hlabels hcount hsource hearlier hfault =>
    obtain ⟨k, token, cause, byte, hfault, -, -⟩ := hfault
    have htokens : tokens text ≠ [] := by
      intro hblank
      rw [lineOf_of_blank hblank] at hfault
      cases hfault
    rw [← hlines] at hlabels hcount hearlier hfault
    refine .inr ⟨_, _, cause,
      .statement (tokenRows before) (tokens text) (tokenRows later) k cause ?_ ?_ ?_ ?_ ?_⟩
    · exact labelsSound_rowLines.2 hlabels
    · rw [← statements_rowLines] at hcount
      exact hcount
    · rw [hsource, tokenRows_split htokens]
    · intro body hbody
      rw [← statements_rowLines] at hearlier
      exact isStatement_rowLines.2 (hearlier body hbody)
    · exact hfault.congr (labels_rowLines (texts source)).symm

theorem assemble_of_tooLarge (hlabels : LabelsSound (rowLines (texts source)))
    (hcount : 1024 ≤ (statements (rowLines (texts source))).length) :
    assemble source =
      .error (.fault (.programTooLarge (statements (rowLines (texts source))).length 1024)) := by
  have hlines : (texts source).map lineOf = lines source := map_lineOf_texts source
  rw [statements_rowLines, hlines] at hcount ⊢
  exact (assemble_eq_error_iff _ _).2
    ⟨_, rfl, .tooLarge (hlines ▸ labelsSound_rowLines.1 hlabels) hcount⟩

/-- Layout does not matter: two sources with the same rows of tokens assemble to the same program,
or both have too many instructions, and equally many, or both are rejected with the same message at
the same token of the same row. -/
theorem assemble_ignores_layout (a b : String) (h : tokenRows (texts a) = tokenRows (texts b)) :
    (∃ p, assemble a = .ok p ∧ assemble b = .ok p) ∨
      (∃ n, assemble a = .error (.fault (.programTooLarge n 1024)) ∧
        assemble b = .error (.fault (.programTooLarge n 1024))) ∨
      ∃ row k message, Blames a row k message ∧ Blames b row k message := by
  have hrows : rowLines (texts a) = rowLines (texts b) := congrArg (List.map _) h
  cases ha : assemble a with
  | ok p =>
    refine .inl ⟨p, rfl, ?_⟩
    rw [assemble_iff_rowLines, hrows] at ha
    exact assemble_iff_rowLines.2 ha
  | error e =>
    obtain ⟨fault, rfl, hrejects⟩ := (assemble_eq_error_iff a e).1 ha
    obtain ⟨hlabels, hcount⟩ | ⟨row, k, cause, hblamed⟩ := hrejects.cases_rows
    · refine .inr (.inl ⟨(statements (rowLines (texts a))).length, ?_, ?_⟩)
      · rw [← ha]
        exact assemble_of_tooLarge hlabels hcount
      · rw [hrows] at hlabels hcount ⊢
        exact assemble_of_tooLarge hlabels hcount
    · refine .inr (.inr ⟨row, k, cause.message, hblamed.blames, ?_⟩)
      rw [h] at hblamed
      exact hblamed.blames

/-- A misspelt label is reported at the same token, in another line and another column. -/
theorem assemble_ignores_layout_misspelt :
    let a := "PUSH 1\nagain: JMP agian\n"
    let b := "# one\n\n PUSH,\t1 # two\r\nagain:  JMP,agian"
    tokenRows (texts a) = tokenRows (texts b) ∧
      assemble a = .error (.fault (.located 2 12 "undefined label: agian")) ∧
      assemble b = .error (.fault (.located 4 13 "undefined label: agian")) ∧
      ∃ row k message, Blames a row k message ∧ Blames b row k message := by
  intro a b
  have hrows : tokenRows (texts a) = tokenRows (texts b) := by decide +kernel
  have ha : assemble a = .error (.fault (.located 2 12 "undefined label: agian")) := by
    decide +kernel
  refine ⟨hrows, ha, by decide +kernel, ?_⟩
  obtain ⟨p, hp, -⟩ | ⟨n, hn, -⟩ | hblames := assemble_ignores_layout a b hrows
  · cases ha.symm.trans hp
  · cases ha.symm.trans hn
  · exact hblames

end StackMachine.Grammar

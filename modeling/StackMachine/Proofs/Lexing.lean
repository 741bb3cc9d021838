import Mathlib.Data.List.TakeWhile
import StackMachine.Proofs.SourceGrammar

/-!
The scanner, the reader of numerals and the checks of names agree with the grammar of tokens.
-/

namespace StackMachine.Grammar

open Assembly

/-! ## 1. Rows -/

theorem rows_append_cons {row : List Char} (hrow : '\n' ∉ row) (rest : List Char) :
    rows (row ++ '\n' :: rest) = dropReturn row :: rows rest := by
  unfold rows
  obtain ⟨first, others, hrest⟩ := List.exists_cons_of_ne_nil (List.splitOn_ne_nil '\n' rest)
  rw [List.splitOn_append_cons_self_of_not_mem hrow, hrest]
  rfl

theorem chunks_cons {c : Char} {cs chunk : List Char} {others : List (List Char)}
    (h : Text.chunks cs = chunk :: others) :
    Text.chunks (c :: cs) =
      if c = '\n' then [c] :: chunk :: others else (c :: chunk) :: others := by
  unfold Text.chunks at h ⊢
  rw [List.foldr_cons, h]

theorem chunks_cons_of_nil {c : Char} {cs : List Char} (h : Text.chunks cs = []) :
    Text.chunks (c :: cs) = [[c]] := by
  unfold Text.chunks at h ⊢
  rw [List.foldr_cons, h]

theorem chunks_append_cons {row : List Char} (hrow : '\n' ∉ row) (rest : List Char) :
    Text.chunks (row ++ '\n' :: rest) = (row ++ ['\n']) :: Text.chunks rest := by
  induction row with
  | nil =>
    cases hrest : Text.chunks rest with
    | nil => exact chunks_cons_of_nil hrest
    | cons chunk others => exact chunks_cons hrest
  | cons c row ih =>
    rw [List.mem_cons, not_or] at hrow
    rw [List.cons_append, chunks_cons (ih hrow.2), if_neg (Ne.symm hrow.1)]
    rfl

theorem chunks_of_notMem {cs : List Char} (hcs : '\n' ∉ cs) :
    Text.chunks cs = [cs].filter (· ≠ []) := by
  induction cs with
  | nil => rfl
  | cons c cs ih =>
    rw [List.mem_cons, not_or] at hcs
    cases cs with
    | nil => rfl
    | cons d ds =>
      rw [chunks_cons (ih hcs.2), if_neg (Ne.symm hcs.1)]
      rfl

theorem dropLineEnd_append (row : List Char) :
    Text.dropLineEnd (row ++ ['\n']) = dropReturn row := by
  rcases List.eq_nil_or_concat row with rfl | ⟨init, last, rfl⟩
  · rfl
  · unfold Text.dropLineEnd dropReturn
    by_cases hlast : last = '\r' <;> simp [hlast]

theorem dropLineEnd_of_notMem {cs : List Char} (hcs : '\n' ∉ cs) : Text.dropLineEnd cs = cs := by
  have hend : ∀ rest, cs.reverse ≠ '\n' :: rest := by
    intro rest hrev
    apply hcs
    rw [← List.mem_reverse, hrev]
    exact List.mem_cons_self
  unfold Text.dropLineEnd
  split
  · next hrev => exact absurd hrev (hend _)
  · next hrev => exact absurd hrev (hend _)
  · rfl

-- By rows and not by characters: what a character adds to a chunk depends on how the chunk ends.
theorem map_dropLineEnd_chunks (cs : List Char) :
    (Text.chunks cs).map Text.dropLineEnd = rows cs := by
  by_cases h : '\n' ∈ cs
  · obtain ⟨row, rest, heq, hrow⟩ := List.eq_append_cons_of_mem h
    have hlt : rest.length < cs.length := by
      rw [heq, List.length_append, List.length_cons]
      omega
    rw [heq, chunks_append_cons hrow, rows_append_cons hrow, List.map_cons, dropLineEnd_append,
      map_dropLineEnd_chunks rest]
  · rw [chunks_of_notMem h, rows, List.splitOn_eq_singleton h]
    by_cases hne : cs = []
    · rw [hne]
      rfl
    · simp [hne, dropLineEnd_of_notMem h]
termination_by cs.length

theorem lines_eq (source : String) : lines source = (Text.lines source).map lineOf := by
  rw [lines, Text.lines, ← map_dropLineEnd_chunks, List.map_map, List.map_map]
  rfl

/-! ## 2. Tokens -/

theorem pieces_separator {c : Char} (hc : isSeparator c = true) (cs : List Char) :
    pieces (c :: cs) = pieces cs := by
  have hsplit := List.splitOnP_append_cons [] cs hc
  rw [List.nil_append, List.splitOnP_nil] at hsplit
  rw [pieces, hsplit, List.singleton_append, List.filter_cons_of_neg (by decide), pieces]

theorem pieces_of_forall {run : List Char} (hne : run ≠ [])
    (hrun : ∀ c ∈ run, isSeparator c = false) :
    pieces run = [run] := by
  rw [pieces, List.splitOnP_eq_singleton hrun, List.filter_cons_of_pos (by simpa using hne),
    List.filter_nil]

theorem pieces_append_cons {c : Char} (hc : isSeparator c = true) (before rest : List Char) :
    pieces (before ++ c :: rest) = pieces before ++ pieces rest := by
  rw [pieces, List.splitOnP_append_cons before rest hc, List.filter_append]
  rfl

theorem pieces_run_append {run rest : List Char} (hne : run ≠ [])
    (hrun : ∀ c ∈ run, isSeparator c = false) (hrest : ∀ c ∈ rest.head?, isSeparator c = true) :
    pieces (run ++ rest) = run :: pieces rest := by
  cases rest with
  | nil =>
    rw [List.append_nil, pieces_of_forall hne hrun]
    rfl
  | cons c rest =>
    have hc : isSeparator c = true := hrest c rfl
    rw [pieces_append_cons hc, pieces_of_forall hne hrun, pieces_separator hc,
      List.singleton_append]

-- The scanner takes the longest run, so that no character of it separates, and a separator or
-- nothing follows it.

theorem isSeparator_of_mem_run {c d : Char} {cs : List Char} (hc : ¬ isSeparator c = true)
    (hd : d ∈ c :: cs.takeWhile Token.isTokenChar) : isSeparator d = false := by
  rcases List.mem_cons.1 hd with rfl | hd
  · exact Bool.eq_false_iff.2 hc
  · have htoken := List.mem_takeWhile_imp hd
    rwa [Token.isTokenChar, Bool.not_eq_true'] at htoken

theorem isSeparator_of_head_rest {d : Char} {cs : List Char}
    (hd : d ∈ (cs.dropWhile Token.isTokenChar).head?) :
    isSeparator d = true := by
  have hstop := List.head?_dropWhile_not Token.isTokenChar cs
  rw [hd] at hstop
  change Token.isTokenChar d = false at hstop
  rwa [Token.isTokenChar, Bool.not_eq_false'] at hstop

theorem run_append_rest (c : Char) (cs : List Char) :
    c :: cs = (c :: cs.takeWhile Token.isTokenChar) ++ cs.dropWhile Token.isTokenChar := by
  rw [List.cons_append, List.takeWhile_append_dropWhile]

/-- The first piece of a text that begins with no separator is the run at its front. -/
theorem pieces_run {c : Char} (hc : ¬ isSeparator c = true) (cs : List Char) :
    pieces (c :: cs) =
      (c :: cs.takeWhile Token.isTokenChar) :: pieces (cs.dropWhile Token.isTokenChar) := by
  rw [run_append_rest c cs]
  exact pieces_run_append (List.cons_ne_nil _ _) (fun _ => isSeparator_of_mem_run hc)
    (fun _ => isSeparator_of_head_rest)

theorem map_text_scanFrom (start : Nat) (cs : List Char) :
    (Token.scanFrom start cs).map Token.text = (pieces cs).map String.ofList := by
  fun_induction Token.scanFrom start cs with
  | case1 start => rfl
  | case2 start c cs hc ih => rw [ih, pieces_separator hc]
  | case3 start c cs hc run ih => rw [List.map_cons, ih, pieces_run hc, List.map_cons]

theorem map_text_scan (line : String) : (Token.scan line).map Token.text = tokens line :=
  map_text_scanFrom 0 _

/-! ## 3. Label definitions -/

theorem definedName?_eq_some_iff {token name : String} :
    definedName? token = some name ↔ name ≠ "" ∧ token = name ++ ":" := by
  have hcolon : ":".toList = [':'] := rfl
  constructor
  · intro h
    unfold definedName? at h
    split at h
    · next c cs hrev =>
      cases h
      have htoken : token.toList = (c :: cs).reverse ++ [':'] := by
        rw [← List.reverse_cons, ← hrev, List.reverse_reverse]
      refine ⟨?_, ?_⟩
      · intro hempty
        have hnil := congrArg String.toList hempty
        rw [String.toList_ofList] at hnil
        simp at hnil
      · apply String.toList_inj.1
        rw [String.toList_append, String.toList_ofList, htoken, hcolon]
    · cases h
  · rintro ⟨hne, rfl⟩
    have hchars : name.toList ≠ [] := by
      intro hnil
      exact hne (String.toList_inj.1 hnil)
    obtain ⟨c, cs, hrev⟩ : ∃ c cs, name.toList.reverse = c :: cs := by
      exact List.exists_cons_of_ne_nil (by simpa using hchars)
    have hback : name = String.ofList (c :: cs).reverse := by
      rw [← hrev, List.reverse_reverse, String.ofList_toList]
    have hall : (name ++ ":").toList.reverse = ':' :: c :: cs := by
      rw [String.toList_append, hcolon, List.reverse_append, hrev]
      rfl
    unfold definedName?
    rw [hall, hback]
    rfl

/-- A token defines a label exactly if it is longer than one byte and ends in a colon. -/
theorem definedName?_eq (token : String) :
    definedName? token =
      if 1 < token.utf8ByteSize ∧ token.toList.getLast? = some ':' then
        some (String.ofList token.toList.dropLast)
      else none := by
  by_cases hlast : token.toList.getLast? = some ':'
  · obtain ⟨cs, hcs⟩ := List.getLast?_eq_some_iff.1 hlast
    have htoken : token = String.ofList cs ++ ":" := by
      apply String.toList_inj.1
      rw [String.toList_append, String.toList_ofList, hcs]
      rfl
    have hsize : token.utf8ByteSize = (String.ofList cs).utf8ByteSize + 1 := by
      rw [htoken, String.utf8ByteSize_append]
      rfl
    have hdrop : token.toList.dropLast = cs := by rw [hcs, List.dropLast_concat]
    -- a colon alone is one byte and defines nothing
    by_cases hempty : String.ofList cs = ""
    · rw [if_neg (by rw [hsize, hempty]; exact fun h => absurd h.1 (by decide))]
      apply Option.eq_none_iff_forall_ne_some.2
      intro name hname
      obtain ⟨hne, hcolon⟩ := definedName?_eq_some_iff.1 hname
      have hsame := htoken.symm.trans hcolon
      exact hne ((String.append_left_inj ":").1 hsame ▸ hempty)
    · have hpos : (String.ofList cs).utf8ByteSize ≠ 0 :=
        fun h => hempty (String.utf8ByteSize_eq_zero_iff.1 h)
      rw [if_pos ⟨by omega, hlast⟩, hdrop]
      exact definedName?_eq_some_iff.2 ⟨hempty, htoken⟩
  · rw [if_neg (fun h => hlast h.2)]
    apply Option.eq_none_iff_forall_ne_some.2
    intro name hname
    obtain ⟨-, rfl⟩ := definedName?_eq_some_iff.1 hname
    apply hlast
    rw [String.toList_append]
    exact List.getLast?_concat

theorem ofTokens_cons (token : String) (rest : List String) :
    Line.ofTokens (token :: rest) =
      match definedName? token with
      | some name => ⟨some name, rest⟩
      | none => ⟨none, token :: rest⟩ := by
  rw [definedName?_eq, Line.ofTokens]
  split
  · rfl
  · rfl

/-! ## 4. Names and numerals -/

theorem isIdentifier_iff (name : String) : isIdentifier name = true ↔ IsIdentifier name := by
  unfold isIdentifier IsIdentifier
  match name.toList with
  | [] => simp
  | c :: cs => simp [List.all_eq_true]

theorem digits?_eq_some_iff {cs : List Char} {n : Nat} :
    Decimal.digits? cs = some n ↔
      cs ≠ [] ∧ (∀ d ∈ cs, d.isDigit = true) ∧ Nat.ofDigitChars 10 cs 0 = n := by
  unfold Decimal.digits?
  by_cases h : (!cs.isEmpty && cs.all Char.isDigit) = true
  · rw [if_pos h]
    rw [Bool.and_eq_true, Bool.not_eq_true', List.isEmpty_eq_false_iff, List.all_eq_true] at h
    constructor
    · rintro ⟨⟩
      exact ⟨h.1, h.2, rfl⟩
    · rintro ⟨-, -, rfl⟩
      rfl
  · rw [if_neg h]
    rw [Bool.and_eq_true, Bool.not_eq_true', List.isEmpty_eq_false_iff, List.all_eq_true] at h
    constructor
    · nofun
    · rintro ⟨hne, hds, -⟩
      exact absurd ⟨hne, hds⟩ h

-- A digit is no sign, so that a numeral that starts with one is not taken apart.
theorem signed?_of_digits {cs : List Char} (hne : cs ≠ []) (hds : ∀ d ∈ cs, d.isDigit = true) :
    Decimal.signed? cs = (Decimal.digits? cs).map Int.ofNat := by
  obtain ⟨d, ds, rfl⟩ := List.exists_cons_of_ne_nil hne
  have hd := hds d List.mem_cons_self
  unfold Decimal.signed?
  split
  · next heq =>
    rw [(List.cons.inj heq).1] at hd
    cases hd
  · unfold Decimal.unsigned?
    split
    · next heq =>
      rw [(List.cons.inj heq).1] at hd
      cases hd
    · rfl

theorem signed?_eq_some_iff {cs : List Char} {i : Int} :
    Decimal.signed? cs = some i ↔ IsNumeral cs i := by
  constructor
  · intro h
    unfold Decimal.signed? at h
    split at h
    · next ds =>
      obtain ⟨n, hn, rfl⟩ := Option.map_eq_some_iff.1 h
      obtain ⟨hne, hds, rfl⟩ := digits?_eq_some_iff.1 hn
      exact .minus ds hne hds
    · obtain ⟨n, hn, rfl⟩ := Option.map_eq_some_iff.1 h
      unfold Decimal.unsigned? at hn
      split at hn
      · next ds _ =>
        obtain ⟨hne, hds, rfl⟩ := digits?_eq_some_iff.1 hn
        exact .plus ds hne hds
      · obtain ⟨hne, hds, rfl⟩ := digits?_eq_some_iff.1 hn
        exact .plain _ hne hds
  · intro h
    cases h with
    | plain ds hne hds =>
      rw [signed?_of_digits hne hds, digits?_eq_some_iff.2 ⟨hne, hds, rfl⟩]
      rfl
    | plus ds hne hds =>
      rw [Decimal.signed?, Decimal.unsigned?, digits?_eq_some_iff.2 ⟨hne, hds, rfl⟩]
      · rfl
      · intro rest hsign
        cases hsign
    | minus ds hne hds =>
      rw [Decimal.signed?, digits?_eq_some_iff.2 ⟨hne, hds, rfl⟩]
      rfl

theorem read?_eq_some_iff {token : String} {w : Word} :
    Word.read? token = some w ↔ Spells token w := by
  unfold Word.read? Spells
  rw [← signed?_eq_some_iff]
  match hi : Decimal.signed? token.toList with
  | none => simp
  | some i =>
    constructor
    · intro h
      change (if Int64.minValue.toInt ≤ i ∧ i ≤ Int64.maxValue.toInt
        then some (Int64.ofInt i) else none) = some w at h
      split at h
      · next hrange =>
        cases h
        rw [Int64.toInt_ofInt_of_le hrange.1 (Int.lt_add_one_of_le hrange.2)]
      · cases h
    · intro h
      cases h
      have hrange : Int64.minValue.toInt ≤ w.toInt ∧ w.toInt ≤ Int64.maxValue.toInt :=
        ⟨Int64.minValue_le_toInt w, Int64.toInt_le w⟩
      change (if _ then some (Int64.ofInt w.toInt) else none) = some w
      rw [if_pos hrange, Int64.ofInt_toInt]

theorem isDigit_eq_false_of_isAlpha {c : Char} (h : c.isAlpha = true) : c.isDigit = false := by
  apply Bool.eq_false_iff.2
  intro hdigit
  have hnine : c.val.toNat ≤ 57 := of_decide_eq_true (Bool.and_eq_true_iff.1 hdigit).2
  -- both alphabets stand behind the digits
  rcases Bool.or_eq_true_iff.1 h with hupper | hlower
  · have hfirst : 65 ≤ c.val.toNat := (of_decide_eq_true hupper).1
    omega
  · have hfirst : 97 ≤ c.val.toNat := of_decide_eq_true (Bool.and_eq_true_iff.1 hlower).1
    omega

theorem read?_eq_none_of_isIdentifier {token : String} (h : IsIdentifier token) :
    Word.read? token = none := by
  obtain ⟨c, cs, hchars, hc, -⟩ := h
  apply Option.eq_none_iff_forall_ne_some.2
  intro w hw
  have hnumeral := read?_eq_some_iff.1 hw
  unfold Spells at hnumeral
  rw [hchars] at hnumeral
  generalize w.toInt = i at hnumeral
  cases hnumeral with
  | plain ds hne hds =>
    have hdigit := hds c List.mem_cons_self
    rcases hc with hc | rfl
    · cases hdigit.symm.trans (isDigit_eq_false_of_isAlpha hc)
    · cases hdigit
  | plus ds hne hds =>
    rcases hc with hc | hc
    · cases hc
    · cases hc
  | minus ds hne hds =>
    rcases hc with hc | hc
    · cases hc
    · cases hc

theorem not_spells_of_isIdentifier {token : String} (h : IsIdentifier token) (w : Word) :
    ¬ Spells token w := by
  intro hw
  cases (read?_eq_none_of_isIdentifier h).symm.trans (read?_eq_some_iff.2 hw)

end StackMachine.Grammar

import Mathlib.Data.List.Sort
import StackMachine.Proofs.CheckedAssembly

/-!
The tokens of a line are the longest runs of characters that do not separate. Runs are said by the
numbers of their first character and of the one behind their last, places in the line by bytes. The
scanner finds all longest runs before the comment, each at its place, and no other list of tokens
describes the line.
-/

namespace StackMachine.Grammar

open Assembly

variable {cs before : List Char} {i j k : Nat} {c : Char} {line : String}

/-! ## 1. Lines and tokens -/

/-- The code points of the characters that are white space. -/
def whiteSpace : List Nat :=
  [0x9, 0xa, 0xb, 0xc, 0xd, 0x20, 0x85, 0xa0, 0x1680, 0x2000, 0x2001, 0x2002, 0x2003, 0x2004,
    0x2005, 0x2006, 0x2007, 0x2008, 0x2009, 0x200a, 0x2028, 0x2029, 0x202f, 0x205f, 0x3000]

def Separates (c : Char) : Prop := c.toNat ∈ whiteSpace ∨ c = ','

/-- The part of a line before its first `#`. -/
def codeOf (line : String) : List Char := line.toList.take (line.toList.idxOf '#')

/-- From character `i` up to character `j`, which is not included, there is at least one character,
and none that separates. -/
structure IsRun (cs : List Char) (i j : Nat) : Prop where
  lt : i < j
  le : j ≤ cs.length
  clean : ∀ k c, i ≤ k → k < j → cs[k]? = some c → ¬ Separates c

/-- A run that is not part of a longer one. -/
structure IsLongestRun (cs : List Char) (i j : Nat) : Prop where
  run : IsRun cs i j
  longest : ∀ i' j', IsRun cs i' j' → i' ≤ i → j ≤ j' → i' = i ∧ j' = j

/-- The number of bytes before character `k`. -/
def byteAt (cs : List Char) (k : Nat) : Nat := (String.ofList (cs.take k)).utf8ByteSize

/-- The characters from `i` up to `j` as a token. -/
def tokenAt (cs : List Char) (i j : Nat) : Token :=
  ⟨String.ofList ((cs.take j).drop i), byteAt cs i + 1⟩

/-- The byte behind the first `byte` bytes of the line belongs to the token. -/
def Covers (token : Token) (byte : Nat) : Prop :=
  token.offset ≤ byte + 1 ∧ byte + 1 < token.offset + token.text.utf8ByteSize

/-- The tokens are longest runs of the line, their texts are the bytes at their places, and they
stand in the order of their places. What they leave out is separators. -/
structure Tokenizes (line : String) (ts : List Token) : Prop where
  longest : ∀ token ∈ ts, ∃ i j, IsLongestRun (codeOf line) i j ∧ token = tokenAt (codeOf line) i j
  quoted :
    ∀ token ∈ ts, line.toByteArray.extract (token.offset - 1)
      (token.offset - 1 + token.text.utf8ByteSize) =
    token.text.toByteArray
  increasing : ts.Pairwise fun token next => token.offset < next.offset
  separated : ∀ k c, (codeOf line)[k]? = some c →
    (∀ token ∈ ts, ¬ Covers token (byteAt (codeOf line) k)) → Separates c

theorem isSeparator_iff : Token.isSeparator c = true ↔ Separates c := by
  have hblank : Text.isBlank c = true ↔ c.toNat ∈ whiteSpace := by
    simp only [Text.isBlank, Text.blankRanges, List.any_cons, List.any_nil, Bool.or_eq_true,
      Bool.and_eq_true, decide_eq_true_eq, Bool.false_eq_true, or_false, whiteSpace, List.mem_cons,
      List.not_mem_nil]
    omega
  rw [Token.isSeparator, Bool.or_eq_true, beq_iff_eq, hblank]
  rfl

theorem codeOf_eq (line : String) : codeOf line = Token.code line.toList := by
  have htest : (fun c : Char => c == '#') = fun c => !decide (c ≠ '#') := by
    funext c
    by_cases hc : c = '#' <;> simp [hc]
  rw [codeOf, Token.code, List.takeWhile_eq_take_findIdx_not, List.idxOf, htest]

/-! ## 2. Runs -/

theorem IsRun.extend_left (h : IsRun cs (k + 1) j) (hc : cs[k]? = some c) (hclean : ¬ Separates c) :
    IsRun cs k j := by
  refine ⟨Nat.lt_of_succ_lt h.lt, h.le, fun m d hm hmj hd => ?_⟩
  obtain rfl | hlt := Nat.eq_or_lt_of_le hm
  · cases hc.symm.trans hd
    exact hclean
  · exact h.clean m d hlt hmj hd

theorem IsRun.extend_right (h : IsRun cs i j) (hc : cs[j]? = some c) (hclean : ¬ Separates c) :
    IsRun cs i (j + 1) := by
  refine ⟨Nat.lt_succ_of_lt h.lt, (List.getElem?_eq_some_iff.1 hc).1, fun m d hm hmj hd => ?_⟩
  obtain rfl | hlt := Nat.eq_or_lt_of_le (Nat.le_of_lt_succ hmj)
  · cases hc.symm.trans hd
    exact hclean
  · exact h.clean m d hm hlt hd

/-- A run is a longest one if separators or the ends of the text enclose it. -/
theorem isLongestRun_iff :
    IsLongestRun cs i j ↔ IsRun cs i j ∧ (∀ k c, k + 1 = i → cs[k]? = some c → Separates c) ∧
      ∀ c, cs[j]? = some c → Separates c := by
  constructor
  · rintro ⟨hrun, hlongest⟩
    -- a neighbour that does not separate would make the run longer
    refine ⟨hrun, ?_, ?_⟩
    · rintro k c rfl hc
      by_contra hclean
      have hsame := (hlongest k j (hrun.extend_left hc hclean) (Nat.le_succ k) (Nat.le_refl j)).1
      omega
    · intro c hc
      by_contra hclean
      have hsame :=
        (hlongest i (j + 1) (hrun.extend_right hc hclean) (Nat.le_refl i) (Nat.le_succ j)).2
      omega
  · rintro ⟨hrun, hleft, hright⟩
    refine ⟨hrun, fun i' j' hwider hi hj => ?_⟩
    have hlt := hrun.lt
    have hle := hwider.le
    -- a longer run would hold one of the separators
    constructor
    · by_contra hne
      have hk : i - 1 < cs.length := by omega
      exact hwider.clean (i - 1) _ (by omega) (by omega) (List.getElem?_eq_getElem hk)
        (hleft (i - 1) _ (by omega) (List.getElem?_eq_getElem hk))
    · by_contra hne
      have hk : j < cs.length := by omega
      exact hwider.clean j _ (by omega) (by omega) (List.getElem?_eq_getElem hk)
        (hright _ (List.getElem?_eq_getElem hk))

/-- Two longest runs with a character in common are the same: together they are a run. -/
theorem IsLongestRun.eq_of_common {i' j' : Nat} (h : IsLongestRun cs i j)
    (h' : IsLongestRun cs i' j') (hi : i ≤ k) (hj : k < j) (hi' : i' ≤ k) (hj' : k < j') :
    i = i' ∧ j = j' := by
  have hboth : IsRun cs (min i i') (max j j') := by
    refine ⟨by omega, Nat.max_le.2 ⟨h.run.le, h'.run.le⟩, fun m c hm hmj hc => ?_⟩
    by_cases hfirst : i ≤ m ∧ m < j
    · exact h.run.clean m c hfirst.1 hfirst.2 hc
    · exact h'.run.clean m c (by omega) (by omega) hc
  have hsame := h.longest _ _ hboth (Nat.min_le_left i i') (Nat.le_max_left j j')
  have hsame' := h'.longest _ _ hboth (Nat.min_le_right i i') (Nat.le_max_right j j')
  omega

/-- Text in front of a longest run leaves it a longest run if a separator stands where the two texts
meet. -/
theorem IsLongestRun.append (h : IsLongestRun cs i j)
    (hseam : ∀ c ∈ before.getLast?, ∀ d ∈ cs.head?, Separates c ∨ Separates d) :
    IsLongestRun (before ++ cs) (before.length + i) (before.length + j) := by
  obtain ⟨hrun, hleft, hright⟩ := isLongestRun_iff.1 h
  have hlt := hrun.lt
  have hle := hrun.le
  refine isLongestRun_iff.2 ⟨⟨?_, ?_, ?_⟩, ?_, ?_⟩
  · omega
  · rw [List.length_append]
    omega
  · intro k c hk hkj hc
    rw [List.getElem?_append_right (by omega)] at hc
    exact hrun.clean _ c (by omega) (by omega) hc
  · intro k c hk hc
    by_cases hinside : k < before.length
    · -- the run begins where the texts meet, and the separator there is not its first character
      have hfirst : 0 < cs.length := by omega
      have hclean := hrun.clean 0 _ (by omega) (by omega) (List.getElem?_eq_getElem hfirst)
      rw [List.getElem?_append_left hinside] at hc
      refine (hseam c ?_ _ ?_).resolve_right hclean
      · rw [List.getLast?_eq_getElem?, show before.length - 1 = k by omega]
        exact hc
      · rw [List.head?_eq_getElem?]
        exact List.getElem?_eq_getElem hfirst
    · rw [List.getElem?_append_right (by omega)] at hc
      exact hleft _ c (by omega) hc
  · intro c hc
    rw [List.getElem?_append_right (by omega), Nat.add_sub_cancel_left] at hc
    exact hright c hc

theorem isLongestRun_front {run rest : List Char} (hne : run ≠ []) (hrun : ∀ c ∈ run, ¬ Separates c)
    (hrest : ∀ c ∈ rest.head?, Separates c) : IsLongestRun (run ++ rest) 0 run.length := by
  refine isLongestRun_iff.2 ⟨⟨List.length_pos_iff.2 hne, ?_, ?_⟩, ?_, ?_⟩
  · rw [List.length_append]
    exact Nat.le_add_right _ _
  · intro k c _ hk hc
    rw [List.getElem?_append_left hk] at hc
    exact hrun c (List.mem_of_getElem? hc)
  · intro k c hk
    cases hk
  · intro c hc
    rw [List.getElem?_append_right (Nat.le_refl _), Nat.sub_self, ← List.head?_eq_getElem?] at hc
    exact hrest c hc

/-! ## 3. Places -/

theorem byteAt_append (before cs : List Char) (k : Nat) :
    byteAt (before ++ cs) (before.length + k) = Text.byteLength before + byteAt cs k := by
  rw [byteAt, byteAt, List.take_length_add_append, utf8ByteSize_ofList, utf8ByteSize_ofList,
    byteLength_append]

/-- The token, with `start` more bytes in front of it. -/
def shifted (start : Nat) (token : Token) : Token := ⟨token.text, start + token.offset⟩

theorem shifted_shifted (m n : Nat) (token : Token) :
    shifted m (shifted n token) = shifted (m + n) token := by
  rw [shifted, shifted, shifted, Nat.add_assoc]

theorem covers_shifted {start byte : Nat} {token : Token} :
    Covers (shifted start token) (start + byte) ↔ Covers token byte := by
  simp only [Covers, shifted]
  omega

theorem tokenAt_append (before cs : List Char) (i j : Nat) :
    tokenAt (before ++ cs) (before.length + i) (before.length + j) =
      shifted (Text.byteLength before) (tokenAt cs i j) := by
  rw [tokenAt, byteAt_append, List.take_length_add_append, List.drop_length_add_append]
  rfl

theorem tokenAt_front (run rest : List Char) :
    tokenAt (run ++ rest) 0 run.length = ⟨String.ofList run, 1⟩ := by
  rw [tokenAt, List.take_left, List.drop_zero]
  rfl

theorem ofList_append_text (h : i ≤ j) :
    String.ofList (cs.take i) ++ (tokenAt cs i j).text = String.ofList (cs.take j) := by
  have hsplit := List.take_append_drop i (cs.take j)
  rw [List.take_take, Nat.min_eq_left h] at hsplit
  rw [tokenAt, ← String.ofList_append, hsplit]

/-- A token reaches from the first byte of its first character up to the first byte behind it. -/
theorem byteAt_add_size (cs : List Char) (h : i ≤ j) :
    byteAt cs i + (tokenAt cs i j).text.utf8ByteSize = byteAt cs j := by
  rw [byteAt, byteAt, ← String.utf8ByteSize_append, ofList_append_text h]

theorem byteAt_lt (hij : i < j) (hj : j ≤ cs.length) : byteAt cs i < byteAt cs j := by
  have hsize := byteAt_add_size cs (Nat.le_of_lt hij)
  have hpos : (tokenAt cs i j).text.utf8ByteSize ≠ 0 := by
    intro hzero
    have hlength :=
      congrArg (fun text => text.toList.length) (String.utf8ByteSize_eq_zero_iff.1 hzero)
    simp only [tokenAt, String.toList_ofList, List.length_drop, List.length_take,
      String.toList_empty, List.length_nil] at hlength
    omega
  omega

theorem byteAt_lt_iff (hi : i ≤ cs.length) (hj : j ≤ cs.length) :
    byteAt cs i < byteAt cs j ↔ i < j := by
  constructor
  · intro h
    by_contra hge
    obtain rfl | hlt := Nat.eq_or_lt_of_le (Nat.le_of_not_lt hge)
    · exact Nat.lt_irrefl _ h
    · exact Nat.lt_asymm h (byteAt_lt hlt hi)
  · exact fun h => byteAt_lt h hj

theorem covers_tokenAt (h : IsRun cs i j) (hk : k < cs.length) :
    Covers (tokenAt cs i j) (byteAt cs k) ↔ i ≤ k ∧ k < j := by
  have hlt := h.lt
  have hle := h.le
  have hsize := byteAt_add_size cs (Nat.le_of_lt hlt)
  have hfirst : byteAt cs k < byteAt cs i ↔ k < i := byteAt_lt_iff (by omega) (by omega)
  have hlast : byteAt cs k < byteAt cs j ↔ k < j := byteAt_lt_iff (by omega) hle
  rw [Covers, show (tokenAt cs i j).offset = byteAt cs i + 1 from rfl]
  omega

theorem extract_between (front text rest : String) :
    (front ++ text ++ rest).toByteArray.extract front.utf8ByteSize
      (front.utf8ByteSize + text.utf8ByteSize) =
      text.toByteArray := by
  have hskip := ByteArray.extract_append_size_add (a := front.toByteArray)
    (b := text.toByteArray ++ rest.toByteArray)
    (i := 0) (j := text.toByteArray.size)
  rw [Nat.add_zero, ByteArray.extract_append_eq_left rfl, String.size_toByteArray,
    String.size_toByteArray] at hskip
  rw [String.append_assoc, String.toByteArray_append, String.toByteArray_append, hskip]

/-- The text of a token is what stands at its place. -/
theorem quoted_tokenAt (line : String) (h : i ≤ j) :
    line.toByteArray.extract (byteAt (codeOf line) i)
      (byteAt (codeOf line) i + (tokenAt (codeOf line) i j).text.utf8ByteSize) =
      (tokenAt (codeOf line) i j).text.toByteArray := by
  have hsplit : String.ofList ((codeOf line).take i) ++ (tokenAt (codeOf line) i j).text ++
      String.ofList ((codeOf line).drop j ++ line.toList.drop (line.toList.idxOf '#')) = line := by
    rw [ofList_append_text h, ← String.ofList_append, ← List.append_assoc, List.take_append_drop,
      codeOf, List.take_append_drop, String.ofList_toList]
  have hbetween :=
    extract_between (String.ofList ((codeOf line).take i)) (tokenAt (codeOf line) i j).text
    (String.ofList ((codeOf line).drop j ++ line.toList.drop (line.toList.idxOf '#')))
  rw [hsplit] at hbetween
  exact hbetween

/-! ## 4. The scanner -/

theorem separates_of_head_rest (hc : c ∈ (cs.dropWhile Token.isTokenChar).head?) : Separates c :=
  isSeparator_iff.1 (isSeparator_of_head_rest hc)

theorem isLongestRun_scanned (hc : ¬ Token.isSeparator c = true) (cs : List Char) :
    IsLongestRun ((c :: cs.takeWhile Token.isTokenChar) ++ cs.dropWhile Token.isTokenChar) 0
      (c :: cs.takeWhile Token.isTokenChar).length := by
  refine isLongestRun_front (List.cons_ne_nil _ _) (fun d hd hsep => ?_)
    (fun d => separates_of_head_rest)
  exact Bool.false_ne_true ((isSeparator_of_mem_run hc hd).symm.trans (isSeparator_iff.2 hsep))

-- The scanner drops separators one by one, and takes runs whole: what it goes on with meets what it
-- leaves behind at a separator.
theorem longest_of_mem_scanFrom {token : Token} {start : Nat}
    (h : token ∈ Token.scanFrom start cs) :
    ∃ i j, IsLongestRun cs i j ∧ token = shifted start (tokenAt cs i j) := by
  fun_induction Token.scanFrom start cs with
  | case1 start => cases h
  | case2 start c cs hc ih =>
    obtain ⟨i, j, hrun, htoken⟩ := ih h
    have hseam : ∀ d ∈ [c].getLast?, ∀ e ∈ cs.head?, Separates d ∨ Separates e := by
      intro d hd e _
      cases hd
      exact .inl (isSeparator_iff.1 hc)
    refine ⟨_, _, hrun.append hseam, ?_⟩
    change token = shifted start (tokenAt ([c] ++ cs) _ _)
    rw [htoken, tokenAt_append, shifted_shifted]
    rfl
  | case3 start c cs hc run ih =>
    rw [run_append_rest c cs]
    obtain htoken | h := List.mem_cons.1 h
    · refine ⟨_, _, isLongestRun_scanned hc cs, ?_⟩
      rw [htoken, tokenAt_front]
      rfl
    · obtain ⟨i, j, hrun, htoken⟩ := ih h
      refine ⟨_, _, hrun.append fun d _ e he => .inr (separates_of_head_rest he), ?_⟩
      rw [htoken, tokenAt_append, shifted_shifted]

theorem covered_by_scanFrom (start : Nat) (cs : List Char) (hclean : ¬ Separates c) :
    ∀ k, cs[k]? = some c →
      ∃ token ∈ Token.scanFrom start cs, Covers token (start + byteAt cs k) := by
  fun_induction Token.scanFrom start cs with
  | case1 start =>
    intro k hk
    cases hk
  | case2 start d cs hd ih =>
    intro k hk
    cases k with
    | zero =>
      cases hk
      exact absurd (isSeparator_iff.1 hd) hclean
    | succ k =>
      obtain ⟨token, htoken, hcovers⟩ := ih k hk
      have hbytes : byteAt (d :: cs) (1 + k) = d.utf8Size + byteAt cs k := byteAt_append [d] cs k
      refine ⟨token, htoken, ?_⟩
      rw [Nat.add_comm k 1, hbytes, ← Nat.add_assoc]
      exact hcovers
  | case3 start d cs hd run ih =>
    intro k hk
    rw [run_append_rest d cs] at hk ⊢
    -- the character is in the first run, or in what the scanner goes on with
    by_cases hfront : k < run.length
    · have hinside := (List.getElem?_eq_some_iff.1 hk).1
      have hcovers :=
        (covers_tokenAt (isLongestRun_scanned hd cs).run hinside).2 ⟨Nat.zero_le k, hfront⟩
      rw [tokenAt_front] at hcovers
      exact ⟨_, List.mem_cons_self, covers_shifted.2 hcovers⟩
    · rw [List.getElem?_append_right (Nat.le_of_not_lt hfront)] at hk
      obtain ⟨token, htoken, hcovers⟩ := ih _ hk
      have hbytes := byteAt_append run (cs.dropWhile Token.isTokenChar) (k - run.length)
      rw [Nat.add_sub_cancel' (Nat.le_of_not_lt hfront)] at hbytes
      refine ⟨token, List.mem_cons_of_mem _ htoken, ?_⟩
      rw [hbytes, ← Nat.add_assoc]
      exact hcovers

theorem pairwise_scanFrom (start : Nat) (cs : List Char) :
    (Token.scanFrom start cs).Pairwise fun token next => token.offset < next.offset := by
  fun_induction Token.scanFrom start cs with
  | case1 start => exact .nil
  | case2 start c cs hc ih => exact ih
  | case3 start c cs hc run ih =>
    refine List.pairwise_cons.2 ⟨fun next hnext => ?_, ih⟩
    obtain ⟨i, j, -, rfl⟩ := longest_of_mem_scanFrom hnext
    have hpos := c.utf8Size_pos
    have hrun :
        Text.byteLength run = c.utf8Size + Text.byteLength (cs.takeWhile Token.isTokenChar) := rfl
    change start + 1 < start + Text.byteLength run + (byteAt _ i + 1)
    omega

/-! ## 5. The one list of tokens -/

theorem tokenizes_scan (line : String) : Tokenizes line (Token.scan line) := by
  have hlongest : ∀ token ∈ Token.scan line, ∃ i j, IsLongestRun (codeOf line) i j ∧
      token = tokenAt (codeOf line) i j := by
    intro token h
    rw [codeOf_eq]
    obtain ⟨i, j, hrun, htoken⟩ := longest_of_mem_scanFrom h
    refine ⟨i, j, hrun, ?_⟩
    rw [htoken, shifted, Nat.zero_add]
  refine ⟨hlongest, ?_, pairwise_scanFrom 0 _, ?_⟩
  · intro token h
    obtain ⟨i, j, hrun, rfl⟩ := hlongest token h
    exact quoted_tokenAt line (Nat.le_of_lt hrun.run.lt)
  · intro k c hk hout
    by_contra hclean
    rw [codeOf_eq] at hk hout
    obtain ⟨token, htoken, hcovers⟩ := covered_by_scanFrom 0 _ hclean k hk
    rw [Nat.zero_add] at hcovers
    exact hout token htoken hcovers

/-- Tokens that leave out nothing but separators are all longest runs: a run that is left out would
have a token on its first character, and that token is the run. -/
theorem Tokenizes.mem_iff {ts : List Token} (h : Tokenizes line ts) (token : Token) :
    token ∈ ts ↔ ∃ i j, IsLongestRun (codeOf line) i j ∧ token = tokenAt (codeOf line) i j := by
  constructor
  · exact h.longest token
  · rintro ⟨i, j, hrun, rfl⟩
    have hlt := hrun.run.lt
    have hi : i < (codeOf line).length := Nat.lt_of_lt_of_le hlt hrun.run.le
    have hclean := hrun.run.clean i _ (Nat.le_refl i) hlt (List.getElem?_eq_getElem hi)
    by_contra hout
    refine hclean (h.separated i _ (List.getElem?_eq_getElem hi) fun token htoken hcovers =>
      hout ?_)
    obtain ⟨i', j', hrun', rfl⟩ := h.longest token htoken
    obtain ⟨hi', hj'⟩ := (covers_tokenAt hrun'.run hi).1 hcovers
    obtain ⟨rfl, rfl⟩ := hrun.eq_of_common hrun' (Nat.le_refl i) hlt hi' hj'
    exact htoken

theorem Tokenizes.eq {ts ts' : List Token} (h : Tokenizes line ts) (h' : Tokenizes line ts') :
    ts = ts' := by
  have : Std.Irrefl fun token next : Token => token.offset < next.offset :=
    ⟨fun token => Nat.lt_irrefl token.offset⟩
  have : Std.Antisymm fun token next : Token => token.offset < next.offset :=
    ⟨fun token next hlt hgt => absurd hlt (Nat.lt_asymm hgt)⟩
  exact h.increasing.eq_of_mem_iff h'.increasing fun token =>
    (h.mem_iff token).trans (h'.mem_iff token).symm

/-- The scanner finds the longest runs before the comment and nothing else. The list that it gives
tokenizes the line, and no other list does. A scan by positions, which keeps the place where the
open token began, gives this list, too. -/
theorem scan_finds_longest_runs (line : String) :
    (∀ token, token ∈ Token.scan line ↔
      ∃ i j, IsLongestRun (codeOf line) i j ∧ token = tokenAt (codeOf line) i j) ∧
      (∀ ts, Tokenizes line ts ↔ ts = Token.scan line) ∧
      Checked.scan line = .ok (Token.scan line) := by
  have hscan := tokenizes_scan line
  refine ⟨hscan.mem_iff, fun ts => ⟨fun h => h.eq hscan, ?_⟩, Checked.scan_eq line⟩
  rintro rfl
  exact hscan

end StackMachine.Grammar

import StackMachine.Proofs.Lexing

/-!
Where a token stands in its line. The place is said without the scanner, by what comes before the
token: complete tokens and separators only. The scanner finds every token at its place.
-/

namespace StackMachine.Grammar

open Assembly

/-! ## 1. Places -/

/-- Token number `k` of the line, counted from zero, is `token`, and its first byte is number `byte`
of the line. -/
def Stands (line : String) (k : Nat) (token : String) (byte : Nat) : Prop :=
  (tokens line)[k]? = some token ∧
    ∃ before after, line.toList = before ++ token.toList ++ after ∧
      -- what comes before holds `k` tokens, and none of them runs on into this one
      (pieces before).length = k ∧ (∀ c ∈ before.getLast?, isSeparator c = true) ∧
      byte = (String.ofList before).utf8ByteSize

theorem utf8ByteSize_ofList (cs : List Char) :
    (String.ofList cs).utf8ByteSize = Text.byteLength cs := by
  induction cs with
  | nil => rfl
  | cons c cs ih =>
    have hcons : String.ofList (c :: cs) = String.singleton c ++ String.ofList cs := by
      apply String.toList_inj.1
      rw [String.toList_append, String.toList_ofList, String.toList_ofList, String.toList_singleton]
      rfl
    rw [hcons, String.utf8ByteSize_append, String.utf8ByteSize_singleton, ih]
    rfl

theorem byteLength_append (cs ds : List Char) :
    Text.byteLength (cs ++ ds) = Text.byteLength cs + Text.byteLength ds := by
  rw [← utf8ByteSize_ofList, ← utf8ByteSize_ofList, ← utf8ByteSize_ofList, String.ofList_append,
    String.utf8ByteSize_append]

theorem pieces_append {before : List Char} (hend : ∀ c ∈ before.getLast?, isSeparator c = true)
    (rest : List Char) :
    pieces (before ++ rest) = pieces before ++ pieces rest := by
  rcases List.eq_nil_or_concat before with rfl | ⟨init, c, rfl⟩
  · rfl
  · rw [List.concat_eq_append] at hend ⊢
    have hc : isSeparator c = true := hend c List.getLast?_concat
    rw [List.append_assoc, List.singleton_append, pieces_append_cons hc, pieces_append_cons hc]
    exact congrArg (· ++ pieces rest) (List.append_nil _).symm

theorem pieces_ne_nil {c : Char} (hc : isSeparator c = false) (cs : List Char) :
    pieces (c :: cs) ≠ [] := by
  rw [pieces_run (Bool.eq_false_iff.1 hc)]
  exact List.cons_ne_nil _ _

/-! ## 2. One place only -/

/-- A token is a text of the line that is not empty and has no separator. -/
theorem exists_text_of_mem_scanFrom {start : Nat} {cs : List Char} {token : Token}
    (h : token ∈ Token.scanFrom start cs) :
    token.text.toList ≠ [] ∧ ∀ c ∈ token.text.toList, isSeparator c = false ∧ c ∈ cs := by
  fun_induction Token.scanFrom start cs with
  | case1 start => cases h
  | case2 start d cs hd ih =>
    obtain ⟨hne, hmem⟩ := ih h
    exact ⟨hne, fun c hc => (hmem c hc).imp_right (List.mem_cons_of_mem d)⟩
  | case3 start d cs hd run ih =>
    rcases List.mem_cons.1 h with rfl | h
    · rw [String.toList_ofList]
      refine ⟨List.cons_ne_nil _ _, fun c hc => ⟨isSeparator_of_mem_run hd hc, ?_⟩⟩
      rw [run_append_rest d cs]
      exact List.mem_append_left _ hc
    · obtain ⟨hne, hmem⟩ := ih h
      refine ⟨hne, fun c hc => (hmem c hc).imp_right fun hrest => ?_⟩
      exact List.mem_cons_of_mem d ((List.dropWhile_suffix _).subset hrest)

theorem exists_cons_of_mem_scanFrom {start : Nat} {cs : List Char} {token : Token}
    (h : token ∈ Token.scanFrom start cs) :
    ∃ d ds, token.text.toList = d :: ds ∧ isSeparator d = false := by
  obtain ⟨hne, hmem⟩ := exists_text_of_mem_scanFrom h
  obtain ⟨d, ds, hchars⟩ := List.exists_cons_of_ne_nil hne
  exact ⟨d, ds, hchars, (hmem d (by rw [hchars]; exact List.mem_cons_self)).1⟩

theorem exists_cons_of_mem_tokens {line token : String} (h : token ∈ tokens line) :
    ∃ d ds, token.toList = d :: ds ∧ isSeparator d = false := by
  rw [← map_text_scan] at h
  obtain ⟨t, ht, rfl⟩ := List.mem_map.1 h
  exact exists_cons_of_mem_scanFrom ht

/-- A text that comes before a token holds fewer tokens than one that reaches into it. -/
theorem length_pieces_lt {before : List Char} {c : Char}
    (hend : ∀ d ∈ before.getLast?, isSeparator d = true) (hc : isSeparator c = false)
    (more : List Char) :
    (pieces before).length < (pieces (before ++ c :: more)).length := by
  have hmore := List.length_pos_iff.2 (pieces_ne_nil hc more)
  rw [pieces_append hend, List.length_append]
  omega

theorem before_eq {before before' rest rest' : List Char} {c c' : Char}
    (h : before ++ c :: rest = before' ++ c' :: rest')
    (hcount : (pieces before).length = (pieces before').length)
    (hend : ∀ d ∈ before.getLast?, isSeparator d = true)
    (hend' : ∀ d ∈ before'.getLast?, isSeparator d = true) (hc : isSeparator c = false)
    (hc' : isSeparator c' = false) : before = before' := by
  -- one of the two is a part of the other, and what it lacks would hold a token
  rcases List.append_eq_append_iff.1 h with ⟨more, rfl, hmore⟩ | ⟨more, rfl, hmore⟩
  · cases more with
    | nil => exact (List.append_nil before).symm
    | cons d more =>
      rw [← (List.cons.inj hmore).1] at hcount
      have hlt := length_pieces_lt hend hc more
      omega
  · cases more with
    | nil => exact List.append_nil before'
    | cons d more =>
      rw [← (List.cons.inj hmore).1] at hcount
      have hlt := length_pieces_lt hend' hc' more
      omega

theorem Stands.byte_eq {line token token' : String} {k byte byte' : Nat}
    (h : Stands line k token byte) (h' : Stands line k token' byte') : byte = byte' := by
  obtain ⟨htoken, before, after, hline, hcount, hend, rfl⟩ := h
  obtain ⟨htoken', before', after', hline', hcount', hend', rfl⟩ := h'
  obtain ⟨c, cs, hc, hsep⟩ := exists_cons_of_mem_tokens (List.mem_of_getElem? htoken)
  obtain ⟨c', cs', hc', hsep'⟩ := exists_cons_of_mem_tokens (List.mem_of_getElem? htoken')
  rw [hc, List.append_assoc, List.cons_append] at hline
  rw [hc', List.append_assoc, List.cons_append] at hline'
  rw [before_eq (hline.symm.trans hline') (hcount.trans hcount'.symm) hend hend' hsep hsep']

/-! ## 3. The scanner -/

theorem isSeparator_of_getLast?_cons {c : Char} {before : List Char} (hc : isSeparator c = true)
    (hend : ∀ d ∈ before.getLast?, isSeparator d = true) :
    ∀ d ∈ (c :: before).getLast?, isSeparator d = true := by
  intro d hd
  rw [List.getLast?_cons] at hd
  cases hlast : before.getLast? with
  | none =>
    rw [hlast] at hd
    cases hd
    exact hc
  | some e =>
    rw [hlast] at hd
    cases hd
    exact hend e hlast

/-- A token behind the first run does not follow it at once, because a separator ends the run. So
the run is one more token in front of it. -/
theorem place_behind_run {c d : Char} {cs before rest : List Char} (hc : ¬ isSeparator c = true)
    (hsplit : cs.dropWhile Token.isTokenChar = before ++ d :: rest) (hd : isSeparator d = false)
    (hend : ∀ e ∈ before.getLast?, isSeparator e = true) :
    let run := c :: cs.takeWhile Token.isTokenChar
    (pieces (run ++ before)).length = (pieces before).length + 1 ∧
      ∀ e ∈ (run ++ before).getLast?, isSeparator e = true := by
  intro run
  cases before with
  | nil =>
    have hhead : d ∈ (cs.dropWhile Token.isTokenChar).head? := by
      rw [hsplit]
      rfl
    cases hd.symm.trans (isSeparator_of_head_rest hhead)
  | cons e more =>
    have hfirst : ∀ f ∈ (e :: more).head?, isSeparator f = true := by
      intro f hf
      have hhead : f ∈ (cs.dropWhile Token.isTokenChar).head? := by
        rw [hsplit]
        exact hf
      exact isSeparator_of_head_rest hhead
    have hrun : ∀ f ∈ run, isSeparator f = false := fun _ => isSeparator_of_mem_run hc
    rw [pieces_run_append (List.cons_ne_nil _ _) hrun hfirst, List.length_cons,
      List.getLast?_append_cons]
    exact ⟨rfl, hend⟩

theorem scanFrom_place (start : Nat) (cs : List Char) (token : Token) :
    ∀ k, (Token.scanFrom start cs)[k]? = some token →
      ∃ before after, cs = before ++ token.text.toList ++ after ∧ (pieces before).length = k ∧
        (∀ c ∈ before.getLast?, isSeparator c = true) ∧
        token.offset = start + Text.byteLength before + 1 := by
  fun_induction Token.scanFrom start cs with
  | case1 start =>
    intro k h
    cases h
  | case2 start c cs hc ih =>
    intro k h
    obtain ⟨before, after, rfl, hcount, hend, hoffset⟩ := ih k h
    refine ⟨c :: before, after, rfl, ?_, isSeparator_of_getLast?_cons hc hend, ?_⟩
    · rw [pieces_separator hc]
      exact hcount
    · have hcons : Text.byteLength (c :: before) = c.utf8Size + Text.byteLength before := rfl
      omega
  | case3 start c cs hc run ih =>
    intro k h
    cases k with
    | zero =>
      cases h
      refine ⟨[], cs.dropWhile Token.isTokenChar, ?_, rfl, ?_, rfl⟩
      · rw [String.toList_ofList]
        exact run_append_rest c cs
      · intro d hd
        cases hd
    | succ k =>
      obtain ⟨before, after, hsplit, hcount, hend, hoffset⟩ := ih k h
      obtain ⟨d, ds, htext, hd⟩ := exists_cons_of_mem_scanFrom (List.mem_of_getElem? h)
      have hbehind : cs.dropWhile Token.isTokenChar = before ++ d :: (ds ++ after) := by
        rw [hsplit, htext, List.append_assoc, List.cons_append]
      obtain ⟨hmore, hends⟩ := place_behind_run hc hbehind hd hend
      refine ⟨run ++ before, after, ?_, hmore.trans (congrArg (· + 1) hcount), hends, ?_⟩
      · rw [run_append_rest c cs, hsplit, List.append_assoc, List.append_assoc, List.append_assoc]
      · rw [byteLength_append]
        omega

theorem stands_of_scan {line : String} {k : Nat} {token : Token}
    (h : (Token.scan line)[k]? = some token) :
    ∃ byte, Stands line k token.text byte ∧ token.offset = byte + 1 := by
  obtain ⟨before, after, hcode, hcount, hend, hoffset⟩ := scanFrom_place 0 _ token k h
  refine ⟨_, ⟨?_, before, after ++ line.toList.dropWhile (· ≠ '#'), ?_, hcount, hend, rfl⟩, ?_⟩
  · rw [← map_text_scan, List.getElem?_map, h]
    rfl
  · rw [← List.append_assoc, ← hcode]
    exact (List.takeWhile_append_dropWhile).symm
  · rw [hoffset, utf8ByteSize_ofList, Nat.zero_add]

/-- The scanner finds every token, and finds it at its place. -/
theorem stands_iff {line token : String} {k byte : Nat} :
    Stands line k token byte ↔ (Token.scan line)[k]? = some ⟨token, byte + 1⟩ := by
  constructor
  · intro h
    -- the token is among those that the scanner finds, and a token has one place only
    have htoken := h.1
    rw [← map_text_scan, List.getElem?_map, Option.map_eq_some_iff] at htoken
    obtain ⟨⟨text, offset⟩, hscan, rfl⟩ := htoken
    obtain ⟨byte', hbyte', hoffset⟩ := stands_of_scan hscan
    rw [hscan, h.byte_eq hbyte', ← hoffset]
  · intro h
    obtain ⟨byte', hbyte', hoffset⟩ := stands_of_scan h
    rw [Nat.succ.inj hoffset]
    exact hbyte'

end StackMachine.Grammar

import StackMachine.Derive.Message

/-!
Naming the placeholders of a message, as one pass over the text. Each field is named by a
replacement of its own in what the replacements before it left. A replacement only puts an `f`
behind opening braces, and what decides about a brace is the text up to the next one: so the
replacements neither make nor hide a place for one another.
-/

namespace StackMachine.Derive

variable {i n : Nat} {cs digits text : List Char}

/-! ## 1. Marks behind opening braces -/

/-- The text with an `f` behind each opening brace where the text behind the brace passes the
test. -/
def mark (test : List Char → Bool) : List Char → List Char
  | [] => []
  | c :: cs => if c = '\x7b' ∧ test cs = true then c :: 'f' :: mark test cs else c :: mark test cs

variable {test first : List Char → Bool}

theorem mark_brace (test : List Char → Bool) (cs : List Char) :
    mark test ('\x7b' :: cs) =
      '\x7b' :: (if test cs then 'f' :: mark test cs else mark test cs) := by
  rw [mark]
  by_cases h : test cs <;> simp [h]

theorem mark_cons_of_ne {c : Char} (hc : c ≠ '\x7b') : mark test (c :: cs) = c :: mark test cs :=
  if_neg fun h => hc h.1

/-- Text without an opening brace is left as it is. -/
theorem mark_append (h : '\x7b' ∉ digits) :
    mark test (digits ++ text) = digits ++ mark test text := by
  induction digits with
  | nil => rfl
  | cons c digits ih =>
    have hc : c ≠ '\x7b' := (List.ne_of_not_mem_cons h).symm
    rw [List.cons_append, mark_cons_of_ne hc, ih (List.not_mem_of_not_mem_cons h), List.cons_append]

/-- Marks do not show up to the first opening brace. -/
theorem isPrefixOf_mark (h : '\x7b' ∉ digits) :
    digits.isPrefixOf (mark test text) = digits.isPrefixOf text := by
  induction digits generalizing text with
  | nil => rw [List.isPrefixOf_nil_left, List.isPrefixOf_nil_left]
  | cons d digits ih =>
    have hd : d ≠ '\x7b' := (List.ne_of_not_mem_cons h).symm
    cases text with
    | nil => rfl
    | cons c cs =>
      by_cases hc : c = '\x7b'
      · -- the first characters differ, with a mark or without
        subst hc
        have hne : (d == '\x7b') = false := beq_eq_false_iff_ne.2 hd
        rw [mark_brace, List.isPrefixOf_cons_cons, List.isPrefixOf_cons_cons, hne, Bool.false_and,
          Bool.false_and]
      · rw [mark_cons_of_ne hc, List.isPrefixOf_cons_cons, List.isPrefixOf_cons_cons,
          ih (List.not_mem_of_not_mem_cons h)]

theorem mark_of_never (h : ∀ cs, test cs = false) (text : List Char) : mark test text = text := by
  induction text with
  | nil => rfl
  | cons c cs ih =>
    rw [mark, if_neg (fun hbrace => Bool.false_ne_true ((h cs).symm.trans hbrace.2)), ih]

/-- Two passes of marks are one, if the second test looks at nothing that a mark changes. -/
theorem mark_mark (hkeeps : ∀ cs, test (mark first cs) = test cs)
    (hmarked : ∀ cs, test ('f' :: cs) = false) (text : List Char) :
    mark test (mark first text) = mark (fun cs => test cs || first cs) text := by
  induction text with
  | nil => rfl
  | cons c cs ih =>
    by_cases hc : c = '\x7b'
    · subst hc
      have hf : 'f' ≠ '\x7b' := by decide
      rw [mark_brace, mark_brace, mark_brace]
      by_cases hfirst : first cs
      · -- a brace that has its mark gets no second one
        rw [if_pos hfirst, hmarked, mark_cons_of_ne hf, ih]
        simp [hfirst]
      · rw [if_neg hfirst, hkeeps, ih]
        simp [hfirst]
    · rw [mark_cons_of_ne hc, mark_cons_of_ne hc, mark_cons_of_ne hc, ih]

/-- A replacement that puts an `f` behind a brace is a pass of marks. -/
theorem replaceAll_eq_mark (h : '\x7b' ∉ digits) (text : List Char) :
    replaceAll ('\x7b' :: digits) ('\x7b' :: 'f' :: digits) text = mark digits.isPrefixOf text := by
  fun_induction replaceAll ('\x7b' :: digits) ('\x7b' :: 'f' :: digits) text with
  | case1 => rfl
  | case2 c cs hfound ih =>
    rw [List.isPrefixOf_cons_cons, Bool.and_eq_true, beq_iff_eq] at hfound
    obtain ⟨rfl, hdigits⟩ := hfound
    obtain ⟨rest, rfl⟩ := List.isPrefixOf_iff_prefix.1 hdigits
    rw [List.length_cons, Nat.add_sub_cancel, List.drop_left] at ih
    rw [mark_brace, if_pos hdigits, mark_append h, ← ih, List.length_cons, Nat.add_sub_cancel,
      List.drop_left]
    rfl
  | case3 c cs hfound ih =>
    rw [ih, mark, if_neg]
    rintro ⟨rfl, hdigits⟩
    exact hfound (by rw [List.isPrefixOf_cons_cons, hdigits]; rfl)

/-! ## 2. Numbers in braces -/

/-- The text goes on with a number and a closing brace. -/
def closesNumber (i : Nat) (cs : List Char) : Bool :=
  ((Decimal.ofNat i).toList ++ ['\x7d']).isPrefixOf cs

/-- The text goes on with a number below `n` and a closing brace. -/
def closesNumberBelow (n : Nat) (cs : List Char) : Bool :=
  (List.range n).any fun i => closesNumber i cs

theorem closesNumber_iff :
    closesNumber i cs = true ↔ ∃ rest, cs = (Decimal.ofNat i).toList ++ '\x7d' :: rest := by
  rw [closesNumber, List.isPrefixOf_iff_prefix]
  constructor
  · rintro ⟨rest, rfl⟩
    exact ⟨rest, by rw [List.append_assoc, List.singleton_append]⟩
  · rintro ⟨rest, rfl⟩
    exact ⟨rest, by rw [List.append_assoc, List.singleton_append]⟩

theorem closesNumberBelow_iff :
    closesNumberBelow n cs = true ↔ ∃ i < n, closesNumber i cs = true := by
  simp only [closesNumberBelow, List.any_eq_true, List.mem_range]

theorem isDigit_of_mem_ofNat {c : Char} (h : c ∈ (Decimal.ofNat i).toList) : c.isDigit = true := by
  rw [Decimal.ofNat, String.toList_ofList] at h
  exact Nat.isDigit_of_mem_toDigits (by decide) (by decide) h

theorem ofNat_ne_nil (i : Nat) : (Decimal.ofNat i).toList ≠ [] := by
  rw [Decimal.ofNat, String.toList_ofList]
  exact Nat.toDigits_ne_nil

theorem brace_not_mem_closing (i : Nat) : '\x7b' ∉ (Decimal.ofNat i).toList ++ ['\x7d'] := by
  intro h
  obtain hdigit | hbrace := List.mem_append.1 h
  · exact absurd (isDigit_of_mem_ofNat hdigit) (by decide)
  · exact absurd (List.mem_singleton.1 hbrace) (by decide)

/-- Numbers begin with digits. -/
theorem closesNumber_cons {c : Char} (hc : c.isDigit = false) (i : Nat) (cs : List Char) :
    closesNumber i (c :: cs) = false := by
  refine Bool.eq_false_iff.2 fun h => ?_
  obtain ⟨rest, hrest⟩ := closesNumber_iff.1 h
  obtain ⟨d, digits, hdigits⟩ := List.exists_cons_of_ne_nil (ofNat_ne_nil i)
  have hd : d.isDigit = true := isDigit_of_mem_ofNat (hdigits ▸ List.mem_cons_self)
  rw [hdigits, List.cons_append, List.cons.injEq] at hrest
  rw [← hrest.1, hc] at hd
  exact Bool.false_ne_true hd

theorem closesNumberBelow_cons {c : Char} (hc : c.isDigit = false) (n : Nat) (cs : List Char) :
    closesNumberBelow n (c :: cs) = false :=
  List.any_eq_false.2 fun i _ => Bool.eq_false_iff.1 (closesNumber_cons hc i cs)

/-! ## 3. Replacements one after the other -/

theorem placeholder_fieldName (i : Nat) :
    placeholder (fieldName i) = '\x7b' :: 'f' :: ((Decimal.ofNat i).toList ++ ['\x7d']) := by
  rw [placeholder, fieldName, String.toList_append]
  rfl

theorem namePlaceholder_eq_mark (i : Nat) (text : List Char) :
    namePlaceholder i text = mark (closesNumber i) text := by
  rw [namePlaceholder, placeholder_fieldName]
  exact replaceAll_eq_mark (brace_not_mem_closing i) text

/-- Fields that are named one after the other, in any order, are named in one pass. -/
theorem foldl_namePlaceholder_eq_mark (order : List Nat) (text : List Char) :
    order.foldl (fun text i => namePlaceholder i text) text =
      mark (fun cs => order.any fun i => closesNumber i cs) text := by
  induction order generalizing text with
  | nil => exact (mark_of_never (fun _ => rfl) text).symm
  | cons i order ih =>
    have hkeeps (cs : List Char) : (order.any fun j => closesNumber j (mark (closesNumber i) cs)) =
        order.any fun j => closesNumber j cs := by
      simp only [closesNumber, isPrefixOf_mark (brace_not_mem_closing _)]
    have hmarked (cs : List Char) : (order.any fun j => closesNumber j ('f' :: cs)) = false :=
      List.any_eq_false.2 fun j _ => Bool.eq_false_iff.1 (closesNumber_cons (by decide) j cs)
    rw [List.foldl_cons, namePlaceholder_eq_mark, ih, mark_mark hkeeps hmarked]
    simp only [List.any_cons, Bool.or_comm]

theorem nameFields_eq_foldl (n : Nat) (text : List Char) :
    nameFields n text =
      (List.range n).reverse.foldl (fun text i => namePlaceholder i text) text := by
  induction n generalizing text with
  | zero => rfl
  | succ n ih =>
    rw [nameFields, ih, List.range_succ, List.reverse_append, List.reverse_singleton,
      List.singleton_append, List.foldl_cons]

/-- All fields are named in one pass. -/
theorem nameFields_eq_mark (n : Nat) (text : List Char) :
    nameFields n text = mark (closesNumberBelow n) text := by
  rw [nameFields_eq_foldl, foldl_namePlaceholder_eq_mark]
  simp only [List.any_reverse]
  rfl

/-! ## 4. One pass -/

/-- Reads the text from left to right, names every placeholder of a field below `n` and copies all
else. -/
def nameAll (n : Nat) : List Char → List Char
  | [] => []
  | c :: cs =>
    match (List.range n).find? fun i => (placeholder (Decimal.ofNat i)).isPrefixOf (c :: cs) with
    | some i =>
        placeholder (fieldName i) ++
          nameAll n (cs.drop ((placeholder (Decimal.ofNat i)).length - 1))
    | none => c :: nameAll n cs
termination_by text => text.length
decreasing_by
  · simp only [List.length_drop, List.length_cons]
    omega
  · simp only [List.length_cons]
    omega

theorem isPrefixOf_placeholder {c : Char} :
    (placeholder (Decimal.ofNat i)).isPrefixOf (c :: cs) = true ↔
      c = '\x7b' ∧ closesNumber i cs = true := by
  rw [placeholder, List.cons_append, List.isPrefixOf_cons_cons, Bool.and_eq_true, beq_iff_eq,
    eq_comm]
  rfl

theorem nameAll_eq_mark (n : Nat) (text : List Char) :
    nameAll n text = mark (closesNumberBelow n) text := by
  fun_induction nameAll n text with
  | case1 => rfl
  | case2 c cs i hfound ih =>
    have hi : i < n := List.mem_range.1 (List.mem_of_find?_eq_some hfound)
    have hprefix : (placeholder (Decimal.ofNat i)).isPrefixOf (c :: cs) = true :=
      List.find?_some (p := fun i => (placeholder (Decimal.ofNat i)).isPrefixOf (c :: cs)) hfound
    obtain ⟨rfl, hcloses⟩ := isPrefixOf_placeholder.1 hprefix
    have hbelow : closesNumberBelow n cs = true := closesNumberBelow_iff.2 ⟨i, hi, hcloses⟩
    -- the text behind the brace is the rest of the placeholder and what follows it
    obtain ⟨rest, hrest⟩ := List.isPrefixOf_iff_prefix.1 hcloses
    have hdrop : cs.drop ((placeholder (Decimal.ofNat i)).length - 1) = rest := by
      rw [← hrest]
      exact List.drop_left
    rw [hdrop] at ih ⊢
    rw [ih, mark_brace, if_pos hbelow, ← hrest, mark_append (brace_not_mem_closing i),
      placeholder_fieldName]
    rfl
  | case3 c cs hfound ih =>
    rw [ih, mark, if_neg]
    rintro ⟨rfl, hbelow⟩
    obtain ⟨i, hi, hcloses⟩ := closesNumberBelow_iff.1 hbelow
    exact List.find?_eq_none.1 hfound i (List.mem_range.2 hi)
      (isPrefixOf_placeholder.2 ⟨rfl, hcloses⟩)

/-- Naming the fields of a message by one replacement after the other is naming them in one pass
over the message. The order of the replacements does not matter: none of them makes, hides or
changes a placeholder of another one. -/
theorem replacements_are_one_pass (message : String) (n : Nat) :
    (namePlaceholders message n).toList = nameAll n message.toList ∧
      ∀ order : List Nat, order.Perm (List.range n) →
        order.foldl (fun text i => namePlaceholder i text) message.toList =
          nameAll n message.toList := by
  rw [nameAll_eq_mark]
  constructor
  · rw [namePlaceholders, String.toList_ofList, nameFields_eq_mark]
  · intro order hperm
    rw [foldl_namePlaceholder_eq_mark]
    simp only [hperm.any_eq]
    rfl

/-- Twelve fields. Of the numbers that begin with 1, one is named before the field 1 and one after
it; the number in two pairs of braces is a placeholder, too, and 12 is none. -/
theorem replacements_are_one_pass_twelve_fields :
    let order := [10, 0, 2, 4, 1, 6, 8, 3, 11, 5, 7, 9]
    let message := "\x7b1\x7d\x7b10\x7d \x7b\x7b11\x7d\x7d \x7b12\x7d\x7b1"
    order.Perm (List.range 12) ∧
      String.ofList (order.foldl (fun text i => namePlaceholder i text) message.toList) =
        "\x7bf1\x7d\x7bf10\x7d \x7b\x7bf11\x7d\x7d \x7b12\x7d\x7b1" ∧
      namePlaceholders message 12 =
        "\x7bf1\x7d\x7bf10\x7d \x7b\x7bf11\x7d\x7d \x7b12\x7d\x7b1" := by
  intro order message
  have hperm : order.Perm (List.range 12) := by decide
  have hpass : String.ofList (nameAll 12 message.toList) =
      "\x7bf1\x7d\x7bf10\x7d \x7b\x7bf11\x7d\x7d \x7b12\x7d\x7b1" := by
    rw [nameAll_eq_mark]
    decide +kernel
  obtain ⟨hnamed, horder⟩ := replacements_are_one_pass message 12
  refine ⟨hperm, by rw [horder order hperm, hpass], ?_⟩
  rw [← hpass, ← hnamed, String.ofList_toList]

end StackMachine.Derive

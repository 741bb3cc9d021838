import StackMachine.Derive.Display
import StackMachine.Proofs.Placeholders

/-!
What the generated code writes, against what the message of a variant says. A message is a format
string: text with escaped braces and with placeholders, read from the left. The generated code
formats a renamed message, and renaming looks for numbers in braces without reading the message from
the left.

Main statement: the two texts are equal if and only if the message does not escape the number of a
field, as in two opening braces, a zero and two closing braces. There the generated code writes the
name of the field where the message has its number.
-/

namespace StackMachine.Derive

namespace Format

/-! ## 1. Reading format strings -/

/-- A character that stands for itself. -/
def IsPlain (c : Char) : Prop := c ≠ '\x7b' ∧ c ≠ '\x7d'

instance (c : Char) : Decidable (IsPlain c) := inferInstanceAs (Decidable (_ ∧ _))

abbrev Plain := { c : Char // IsPlain c }

/-- A part of a format string that has a meaning of its own. -/
inductive Lexeme where
  | literal (c : Plain)
  /-- Two opening braces, for one. -/
  | openBrace
  /-- Two closing braces, for one. -/
  | closeBrace
  /-- A number or a name in braces. -/
  | placeholder (key : List Plain)
deriving DecidableEq

def plainText (cs : List Plain) : List Char := cs.map (·.val)

def Lexeme.spelling : Lexeme → List Char
  | .literal c => [c.val]
  | .openBrace => ['\x7b', '\x7b']
  | .closeBrace => ['\x7d', '\x7d']
  | .placeholder key => '\x7b' :: plainText key ++ ['\x7d']

def spelling (ls : List Lexeme) : List Char := ls.flatMap Lexeme.spelling

mutual

/-- The lexemes of a format string, from left to right. A brace that is neither doubled nor part of
a placeholder is refused. -/
def lexemes : List Char → Option (List Lexeme)
  | [] => some []
  | '\x7b' :: '\x7b' :: cs => (lexemes cs).map (.openBrace :: ·)
  | '\x7d' :: '\x7d' :: cs => (lexemes cs).map (.closeBrace :: ·)
  | '\x7b' :: cs => lexemesInside [] cs
  | c :: cs => if h : IsPlain c then (lexemes cs).map (.literal ⟨c, h⟩ :: ·) else none

/-- The lexemes from inside a placeholder on, of which `key` is read. -/
def lexemesInside (key : List Plain) : List Char → Option (List Lexeme)
  | [] => none
  | c :: cs =>
    if c = '\x7d' then (lexemes cs).map (.placeholder key :: ·)
    else if h : IsPlain c then lexemesInside (key ++ [⟨c, h⟩]) cs
    else none

end

variable {c : Char} {cs text : List Char} {key : List Plain} {l : Lexeme} {ls : List Lexeme}

theorem spelling_cons (l : Lexeme) (ls : List Lexeme) :
    spelling (l :: ls) = l.spelling ++ spelling ls := List.flatMap_cons

theorem lexemes_single (hsingle : ∀ rest, cs = '\x7b' :: rest → False) :
    lexemes ('\x7b' :: cs) = lexemesInside [] cs := by
  rw [lexemes]
  exact hsingle

theorem lexemes_other (hopen : c ≠ '\x7b')
    (hclose : ∀ rest, c = '\x7d' → cs = '\x7d' :: rest → False) :
    lexemes (c :: cs) =
      if h : IsPlain c then (lexemes cs).map (.literal ⟨c, h⟩ :: ·) else none := by
  rw [lexemes]
  · exact fun _ h => absurd h hopen
  · exact hclose
  · exact hopen

theorem spelling_of_map (ih : ∀ ls, lexemes cs = some ls → spelling ls = cs)
    (h : (lexemes cs).map (l :: ·) = some ls) : spelling ls = l.spelling ++ cs := by
  obtain ⟨rest, hrest, rfl⟩ := Option.map_eq_some_iff.1 h
  rw [spelling_cons, ih rest hrest]

/-- The lexemes read off a text spell it. -/
theorem spelling_of_lexemes :
    (∀ text ls, lexemes text = some ls → spelling ls = text) ∧
      ∀ key text ls, lexemesInside key text = some ls →
        spelling ls = '\x7b' :: plainText key ++ text := by
  apply lexemes.mutual_induct (fun text => ∀ ls, lexemes text = some ls → spelling ls = text)
    (fun key text => ∀ ls, lexemesInside key text = some ls →
      spelling ls = '\x7b' :: plainText key ++ text)
  -- outside of placeholders
  · intro ls h
    rw [lexemes, Option.some.injEq] at h
    rw [← h]
    rfl
  · intro cs ih ls h
    rw [lexemes] at h
    exact spelling_of_map ih h
  · intro cs ih ls h
    rw [lexemes] at h
    exact spelling_of_map ih h
  · intro cs hsingle ih ls h
    rw [lexemes_single hsingle] at h
    exact ih ls h
  · intro c cs _ hclose hopen hplain ih ls h
    rw [lexemes_other hopen hclose, dif_pos hplain] at h
    exact spelling_of_map ih h
  · intro c cs _ hclose hopen hplain ls h
    rw [lexemes_other hopen hclose, dif_neg hplain] at h
    cases h
  -- inside of a placeholder
  · intro key ls h
    rw [lexemesInside] at h
    cases h
  · intro key cs ih ls h
    rw [lexemesInside, if_pos rfl] at h
    rw [spelling_of_map ih h, Lexeme.spelling, List.append_assoc, List.singleton_append]
  · intro key c cs hclose hplain ih ls h
    rw [lexemesInside, if_neg hclose, dif_pos hplain] at h
    rw [ih ls h, plainText, plainText, List.map_append, List.cons_append, List.append_assoc]
    rfl
  · intro key c cs hclose hplain ls h
    rw [lexemesInside, if_neg hclose, dif_neg hplain] at h
    cases h

theorem lexemes_plain (c : Plain) (cs : List Char) :
    lexemes (c.val :: cs) = (lexemes cs).map (.literal c :: ·) := by
  have hopen : c.val ≠ '\x7b' := c.property.1
  have hclose : c.val ≠ '\x7d' := c.property.2
  rw [lexemes_other hopen fun _ h => absurd h hclose, dif_pos c.property]

theorem lexemesInside_append (done key : List Plain) (cs : List Char) :
    lexemesInside done (plainText key ++ '\x7d' :: cs) =
      (lexemes cs).map (.placeholder (done ++ key) :: ·) := by
  induction key generalizing done with
  | nil =>
    rw [List.append_nil]
    show lexemesInside done ('\x7d' :: cs) = _
    rw [lexemesInside, if_pos rfl]
  | cons c key ih =>
    show lexemesInside done (c.val :: (plainText key ++ '\x7d' :: cs)) = _
    rw [lexemesInside, if_neg c.property.2, dif_pos c.property, ih, List.append_assoc]
    rfl

theorem lexemes_placeholder (key : List Plain) (cs : List Char) :
    lexemes ('\x7b' :: (plainText key ++ '\x7d' :: cs)) =
      (lexemes cs).map (.placeholder key :: ·) := by
  -- what follows the brace is a character of the key or a closing brace
  have hsingle (rest : List Char) (h : plainText key ++ '\x7d' :: cs = '\x7b' :: rest) : False := by
    cases key with
    | nil => exact absurd (List.cons.inj h).1 (by decide)
    | cons c key => exact c.property.1 (List.cons.inj h).1
  rw [lexemes_single hsingle, lexemesInside_append, List.nil_append]

/-- What is spelt is read back. -/
theorem lexemes_spelling (ls : List Lexeme) : lexemes (spelling ls) = some ls := by
  induction ls with
  | nil => rfl
  | cons l ls ih =>
    rw [spelling_cons]
    cases l with
    | literal c =>
      show lexemes (c.val :: spelling ls) = _
      rw [lexemes_plain, ih]
      rfl
    | openBrace =>
      show lexemes ('\x7b' :: '\x7b' :: spelling ls) = _
      rw [lexemes, ih]
      rfl
    | closeBrace =>
      show lexemes ('\x7d' :: '\x7d' :: spelling ls) = _
      rw [lexemes, ih]
      rfl
    | placeholder key =>
      rw [Lexeme.spelling, List.append_assoc, List.singleton_append, List.cons_append,
        lexemes_placeholder, ih]
      rfl

/-- A text is read as the one list of lexemes that spells it. -/
theorem lexemes_eq_some_iff : lexemes text = some ls ↔ spelling ls = text := by
  constructor
  · exact spelling_of_lexemes.1 text ls
  · rintro rfl
    exact lexemes_spelling ls

/-! ## 2. Filling in -/

/-- An argument: a text, under a name or without one. -/
structure Value where
  name : Option String
  text : String
deriving DecidableEq, Repr

/-- The argument that a placeholder refers to. A number counts the arguments, those with a name too;
anything else is a name. -/
def target? (values : List Value) (key : List Plain) : Option Nat :=
  match Decimal.digits? (plainText key) with
  | some i => if i < values.length then some i else none
  | none => values.findIdx? fun v => v.name = some (String.ofList (plainText key))

def Lexeme.target? (values : List Value) : Lexeme → Option Nat
  | .placeholder key => Format.target? values key
  | _ => none

/-- What a lexeme adds to the text. -/
def Lexeme.text? (values : List Value) : Lexeme → Option (List Char)
  | .literal c => some [c.val]
  | .openBrace => some ['\x7b']
  | .closeBrace => some ['\x7d']
  | .placeholder key => (Format.target? values key).bind fun j => values[j]?.map (·.text.toList)

def text? (values : List Value) : List Lexeme → Option (List Char)
  | [] => some []
  | l :: ls => (l.text? values).bind fun first => (text? values ls).map (first ++ ·)

/-- Every argument has a placeholder that refers to it. -/
def MentionsAll (values : List Value) (ls : List Lexeme) : Prop :=
  ∀ j < values.length, ∃ l ∈ ls, l.target? values = some j

instance (values : List Value) (ls : List Lexeme) : Decidable (MentionsAll values ls) :=
  inferInstanceAs (Decidable (∀ j < values.length, ∃ l ∈ ls, l.target? values = some j))

/-- The text of a format string with its arguments filled in. A string that is no format string has
none, nor has one with a placeholder that refers to no argument, nor one that leaves an argument
unused. -/
def format (values : List Value) (message : String) : Option String :=
  match lexemes message.toList with
  | some ls => if MentionsAll values ls then (text? values ls).map String.ofList else none
  | none => none

variable {values : List Value} {message : String}

theorem format_of_spelling (hmessage : spelling ls = message.toList) (hall : MentionsAll values ls)
    (htext : text? values ls = some text) : format values message = some (String.ofList text) := by
  rw [format, lexemes_eq_some_iff.2 hmessage]
  simp only [if_pos hall, htext, Option.map_some]

theorem exists_of_format {written : String} (h : format values message = some written) :
    ∃ ls, spelling ls = message.toList ∧ MentionsAll values ls ∧
      text? values ls = some written.toList := by
  unfold format at h
  split at h
  · rename_i ls hlexemes
    split at h
    · rename_i hall
      obtain ⟨text, htext, rfl⟩ := Option.map_eq_some_iff.1 h
      exact ⟨ls, lexemes_eq_some_iff.1 hlexemes, hall, by rw [htext, String.toList_ofList]⟩
    · cases h
  · cases h

theorem text?_cons_eq_some_iff : text? values (l :: ls) = some text ↔
    ∃ first rest, l.text? values = some first ∧ text? values ls = some rest ∧
      first ++ rest = text := by
  rw [text?, Option.bind_eq_some_iff]
  simp only [Option.map_eq_some_iff]
  constructor
  · rintro ⟨first, hfirst, rest, hrest, rfl⟩
    exact ⟨first, rest, hfirst, hrest, rfl⟩
  · rintro ⟨first, rest, hfirst, hrest, rfl⟩
    exact ⟨first, hfirst, rest, hrest, rfl⟩

/-! ## 3. Renaming lexemes -/

variable {n : Nat}

/-- The key is the number of one of the first `n` fields, written without leading zeros. -/
def IsFieldNumber (n : Nat) (key : List Plain) : Prop :=
  ∃ i < n, plainText key = (Decimal.ofNat i).toList

instance (n : Nat) (key : List Plain) : Decidable (IsFieldNumber n key) :=
  inferInstanceAs (Decidable (∃ i < n, plainText key = (Decimal.ofNat i).toList))

def letterF : Plain := ⟨'f', by decide⟩

/-- A placeholder with the name of a field instead of its number. -/
def Lexeme.named (n : Nat) : Lexeme → Lexeme
  | .placeholder key => .placeholder (if IsFieldNumber n key then letterF :: key else key)
  | l => l

/-- An escaped opening brace, before the number of one of the first `n` fields and a closing
brace. -/
def EscapesNumber (n : Nat) (l : Lexeme) (ls : List Lexeme) : Prop :=
  l = .openBrace ∧ closesNumberBelow n (spelling ls) = true

instance (n : Nat) (l : Lexeme) (ls : List Lexeme) : Decidable (EscapesNumber n l ls) :=
  inferInstanceAs (Decidable (_ ∧ _))

/-- The lexemes with an `f` before every number that is escaped. -/
def spill (n : Nat) : List Lexeme → List Lexeme
  | [] => []
  | l :: ls => if EscapesNumber n l ls then l :: .literal letterF :: spill n ls else l :: spill n ls

theorem spill_cons_of_ne (hl : l ≠ .openBrace) : spill n (l :: ls) = l :: spill n ls :=
  if_neg fun h => hl h.1

theorem closing_not_mem (key : List Plain) : '\x7d' ∉ plainText key := by
  intro h
  obtain ⟨c, -, hc⟩ := List.mem_map.1 h
  exact c.property.2 hc

theorem opening_not_mem (key : List Plain) : '\x7b' ∉ plainText key := by
  intro h
  obtain ⟨c, -, hc⟩ := List.mem_map.1 h
  exact c.property.1 hc

/-- The text up to the first closing brace tells what is in braces. -/
theorem append_closing_inj {before before' after after' : List Char} (h : '\x7d' ∉ before)
    (h' : '\x7d' ∉ before') (heq : before ++ '\x7d' :: after = before' ++ '\x7d' :: after') :
    before = before' := by
  have htake {before : List Char} (h : '\x7d' ∉ before) (after : List Char) :
      (before ++ '\x7d' :: after).takeWhile (· != '\x7d') = before := by
    have hother (c : Char) (hc : c ∈ before) : (c != '\x7d') = true := by
      rw [bne_iff_ne]
      rintro rfl
      exact h hc
    rw [List.takeWhile_append_of_pos hother, List.takeWhile_cons_of_neg (by decide),
      List.append_nil]
  rw [← htake h after, heq, htake h']

theorem closesNumberBelow_key (n : Nat) (key : List Plain) (cs : List Char) :
    closesNumberBelow n (plainText key ++ '\x7d' :: cs) = true ↔ IsFieldNumber n key := by
  simp only [closesNumberBelow_iff, closesNumber_iff, IsFieldNumber]
  have hdigits (i : Nat) : '\x7d' ∉ (Decimal.ofNat i).toList :=
    fun h => absurd (isDigit_of_mem_ofNat h) (by decide)
  constructor
  · rintro ⟨i, hi, rest, hrest⟩
    exact ⟨i, hi, append_closing_inj (closing_not_mem key) (hdigits i) hrest⟩
  · rintro ⟨i, hi, hkey⟩
    exact ⟨i, hi, cs, by rw [hkey]⟩

theorem spelling_placeholder (key : List Plain) (ls : List Lexeme) :
    spelling (.placeholder key :: ls) = '\x7b' :: (plainText key ++ '\x7d' :: spelling ls) := by
  rw [spelling_cons, Lexeme.spelling, List.append_assoc, List.singleton_append, List.cons_append]

/-- Renaming in the text of a format string names its placeholders, and spills into its escapes. -/
theorem mark_spelling (n : Nat) (ls : List Lexeme) :
    mark (closesNumberBelow n) (spelling ls) = spelling ((spill n ls).map (Lexeme.named n)) := by
  have hclose : '\x7d' ≠ '\x7b' := by decide
  induction ls with
  | nil => rfl
  | cons l ls ih =>
    cases l with
    | literal c =>
      rw [spill_cons_of_ne Lexeme.noConfusion]
      show mark (closesNumberBelow n) (c.val :: spelling ls) = c.val :: _
      rw [mark_cons_of_ne c.property.1, ih]
      rfl
    | openBrace =>
      -- the first brace is followed by the second, which no number begins with
      show mark (closesNumberBelow n) ('\x7b' :: '\x7b' :: spelling ls) = _
      rw [mark_brace, closesNumberBelow_cons (by decide), if_neg Bool.false_ne_true, mark_brace, ih,
        spill]
      by_cases hnumber : closesNumberBelow n (spelling ls) = true
      · rw [if_pos hnumber, if_pos ⟨rfl, hnumber⟩]
        rfl
      · rw [if_neg hnumber, if_neg fun h => hnumber h.2]
        rfl
    | closeBrace =>
      rw [spill_cons_of_ne Lexeme.noConfusion]
      show mark (closesNumberBelow n) ('\x7d' :: '\x7d' :: spelling ls) = _
      rw [mark_cons_of_ne hclose, mark_cons_of_ne hclose, ih]
      rfl
    | placeholder key =>
      have hkey : mark (closesNumberBelow n) (plainText key ++ '\x7d' :: spelling ls) =
          plainText key ++ '\x7d' :: spelling ((spill n ls).map (Lexeme.named n)) := by
        rw [mark_append (opening_not_mem key), mark_cons_of_ne hclose, ih]
      rw [spill_cons_of_ne Lexeme.noConfusion, List.map_cons, Lexeme.named, spelling_placeholder,
        spelling_placeholder, mark_brace, hkey]
      by_cases hnumber : IsFieldNumber n key
      · rw [if_pos ((closesNumberBelow_key n key _).2 hnumber), if_pos hnumber]
        rfl
      · rw [if_neg (fun h => hnumber ((closesNumberBelow_key n key _).1 h)), if_neg hnumber]

/-! ## 4. Names instead of numbers -/

/-- Arguments without names. -/
def positional (fields : List String) : List Value := fields.map (⟨none, ·⟩)

/-- Arguments under the names of their fields. -/
def labelled (fields : List String) : List Value :=
  fields.mapIdx fun i text => ⟨some (fieldName i), text⟩

variable {fields : List String} {i j : Nat}

theorem fieldName_inj (h : fieldName i = fieldName j) : i = j := by
  have hdigits : Nat.toDigits 10 i = Nat.toDigits 10 j := by
    have hlist := congrArg String.toList h
    simp only [fieldName, Decimal.ofNat, String.toList_append, String.toList_ofList] at hlist
    exact List.append_cancel_left hlist
  have hi := Decimal.digits?_toDigits i
  rw [hdigits, Decimal.digits?_toDigits, Option.some.injEq] at hi
  exact hi.symm

theorem findIdx?_labelled (hi : i < fields.length) :
    (labelled fields).findIdx? (fun v => v.name = some (fieldName i)) = some i := by
  rw [List.findIdx?_eq_some_iff_getElem]
  refine ⟨by rw [labelled, List.length_mapIdx]; exact hi, ?_, ?_⟩
  · simp only [labelled, List.getElem_mapIdx, decide_true]
  · intro j hj h
    simp only [labelled, List.getElem_mapIdx, decide_eq_true_eq, Option.some.injEq] at h
    exact absurd (fieldName_inj h) (Nat.ne_of_lt hj)

theorem findIdx?_positional (fields : List String) (name : String) :
    (positional fields).findIdx? (fun v => v.name = some name) = none := by
  rw [List.findIdx?_eq_none_iff]
  intro v hv
  obtain ⟨text, -, rfl⟩ := List.mem_map.1 hv
  rfl

/-- A placeholder for a field refers to the same field under its name. -/
theorem target?_named (h : target? (positional fields) key = some j) :
    target? (labelled fields)
      (if IsFieldNumber fields.length key then letterF :: key else key) = some j := by
  unfold target? at h
  split at h
  · rename_i i hdigits
    rw [positional, List.length_map, Option.ite_none_right_eq_some, Option.some.injEq] at h
    obtain ⟨hi, rfl⟩ := h
    by_cases hnumber : IsFieldNumber fields.length key
    · obtain ⟨k, hk, hkey⟩ := hnumber
      have hik : k = i := by
        rw [hkey, Decimal.ofNat, String.toList_ofList, Decimal.digits?_toDigits, Option.some.injEq]
          at hdigits
        exact hdigits
      have hname : String.ofList (plainText (letterF :: key)) = fieldName i := by
        rw [← hik, fieldName, ← String.toList_inj, String.toList_ofList, String.toList_append,
          ← hkey]
        rfl
      have hletter : Decimal.digits? (plainText (letterF :: key)) = none := rfl
      rw [if_pos ⟨k, hk, hkey⟩, target?, hletter]
      simp only [hname]
      exact findIdx?_labelled hi
    · rw [if_neg hnumber, target?, hdigits]
      simp only [labelled, List.length_mapIdx]
      exact if_pos hi
  · rw [findIdx?_positional] at h
    cases h

theorem Lexeme.target?_named (h : l.target? (positional fields) = some j) :
    (l.named fields.length).target? (labelled fields) = some j := by
  cases l with
  | placeholder key => exact Format.target?_named h
  | literal | openBrace | closeBrace => cases h

theorem getElem?_labelled (fields : List String) (j : Nat) :
    (labelled fields)[j]?.map (·.text.toList) = (positional fields)[j]?.map (·.text.toList) := by
  simp only [labelled, positional, List.getElem?_mapIdx, List.getElem?_map, Option.map_map,
    Function.comp_def]

theorem Lexeme.text?_named {first : List Char} (h : l.text? (positional fields) = some first) :
    (l.named fields.length).text? (labelled fields) = some first := by
  cases l with
  | placeholder key =>
    rw [Lexeme.text?, Option.bind_eq_some_iff] at h
    obtain ⟨j, htarget, hfirst⟩ := h
    rw [named, Lexeme.text?, Format.target?_named htarget, Option.bind_some, getElem?_labelled,
      hfirst]
  | literal | openBrace | closeBrace => exact h

theorem text?_named (h : text? (positional fields) ls = some text) :
    text? (labelled fields) (ls.map (Lexeme.named fields.length)) = some text := by
  induction ls generalizing text with
  | nil => exact h
  | cons l ls ih =>
    obtain ⟨first, rest, hfirst, hrest, htext⟩ := text?_cons_eq_some_iff.1 h
    exact text?_cons_eq_some_iff.2 ⟨first, rest, Lexeme.text?_named hfirst, ih hrest, htext⟩

theorem mentionsAll_named (h : MentionsAll (positional fields) ls) :
    MentionsAll (labelled fields) (ls.map (Lexeme.named fields.length)) := by
  intro j hj
  rw [labelled, List.length_mapIdx] at hj
  obtain ⟨l, hl, htarget⟩ := h j (by rw [positional, List.length_map]; exact hj)
  exact ⟨l.named fields.length, List.mem_map_of_mem hl, Lexeme.target?_named htarget⟩

/-! ## 5. Numbers that are escaped -/

/-- The number of one of the first `n` fields is escaped. -/
def EscapesSome (n : Nat) : List Lexeme → Prop
  | [] => False
  | l :: ls => EscapesNumber n l ls ∨ EscapesSome n ls

instance decidableEscapesSome (n : Nat) : (ls : List Lexeme) → Decidable (EscapesSome n ls)
  | [] => inferInstanceAs (Decidable False)
  | _ :: ls => @instDecidableOr _ _ _ (decidableEscapesSome n ls)

theorem spill_of_not_escapesSome (h : ¬ EscapesSome n ls) : spill n ls = ls := by
  induction ls with
  | nil => rfl
  | cons l ls ih => rw [spill, if_neg fun hl => h (.inl hl), ih fun hls => h (.inr hls)]

theorem sublist_spill (n : Nat) (ls : List Lexeme) : ls.Sublist (spill n ls) := by
  induction ls with
  | nil => exact .slnil
  | cons l ls ih =>
    rw [spill]
    split
    · exact .cons_cons l (.cons _ ih)
    · exact .cons_cons l ih

theorem mentionsAll_spill (n : Nat) (h : MentionsAll values ls) :
    MentionsAll values (spill n ls) := by
  intro j hj
  obtain ⟨l, hl, htarget⟩ := h j hj
  exact ⟨l, (sublist_spill n ls).subset hl, htarget⟩

/-- Every number that is escaped makes the text longer by a character. -/
theorem text?_spill (n : Nat) (h : text? values ls = some text) :
    ∃ longer, text? values (spill n ls) = some longer ∧ text.length ≤ longer.length ∧
      (EscapesSome n ls → text.length < longer.length) := by
  induction ls generalizing text with
  | nil => exact ⟨text, h, Nat.le_refl _, False.elim⟩
  | cons l ls ih =>
    obtain ⟨first, rest, hfirst, hrest, rfl⟩ := text?_cons_eq_some_iff.1 h
    obtain ⟨longer, hlonger, hle, hlt⟩ := ih hrest
    rw [spill]
    by_cases hescapes : EscapesNumber n l ls
    · have hinserted : text? values (.literal letterF :: spill n ls) = some ('f' :: longer) :=
        text?_cons_eq_some_iff.2 ⟨['f'], longer, rfl, hlonger, rfl⟩
      have hlength : (first ++ rest).length < (first ++ 'f' :: longer).length := by
        rw [List.length_append, List.length_append, List.length_cons]
        omega
      rw [if_pos hescapes]
      exact ⟨first ++ 'f' :: longer, text?_cons_eq_some_iff.2 ⟨first, _, hfirst, hinserted, rfl⟩,
        Nat.le_of_lt hlength, fun _ => hlength⟩
    · rw [if_neg hescapes]
      refine ⟨first ++ longer, text?_cons_eq_some_iff.2 ⟨first, longer, hfirst, hlonger, rfl⟩, ?_,
        ?_⟩
      · rw [List.length_append, List.length_append]
        omega
      · intro hsome
        have hrestLt : rest.length < longer.length := hlt (hsome.resolve_left hescapes)
        rw [List.length_append, List.length_append]
        omega

end Format

/-! ## 6. What the generated code writes -/

open Format

/-- The text that an arm writes: every field is an argument under the name that it is bound to. -/
def Arm.written (arm : Arm) (fields : List String) : Option String :=
  format (arm.bindings.zipWith (fun name text => ⟨some name, text⟩) fields) arm.message

theorem zipWith_fieldNames (fields : List String) :
    ((List.range fields.length).map fieldName).zipWith (fun name text => ⟨some name, text⟩) fields =
      labelled fields := by
  apply List.ext_getElem
  · rw [List.length_zipWith, List.length_map, List.length_range, Nat.min_self, labelled,
      List.length_mapIdx]
  · intro j _ _
    simp only [labelled, List.getElem_zipWith, List.getElem_map, List.getElem_range,
      List.getElem_mapIdx]

theorem arm_of_tuple {v : Variant} {message : String} {n : Nat} (hfields : v.fields = .tuple n)
    (hmessage : v.message = .ok message) :
    v.arm = .ok ⟨v.name, .tuple, (List.range n).map fieldName, namePlaceholders message n⟩ := by
  rw [Variant.arm, hmessage, hfields]

/-- A tuple variant whose message is a format string for its fields has an arm that writes a text:
the text of the message with the fields filled in and an `f` before every field number that is
escaped. So it is the text that the message asks for if and only if no field number is escaped. -/
theorem arm_writes_message (v : Variant) (message text : String) (fields : List String)
    (hfields : v.fields = .tuple fields.length) (hmessage : v.message = .ok message)
    (htext : format (positional fields) message = some text) :
    ∃ ls arm written, lexemes message.toList = some ls ∧ v.arm = .ok arm ∧
      arm.written fields = some written ∧
      text? (positional fields) (spill fields.length ls) = some written.toList ∧
      (written = text ↔ ¬ EscapesSome fields.length ls) := by
  obtain ⟨ls, hspelling, hall, hfilled⟩ := exists_of_format htext
  obtain ⟨longer, hspilt, -, hlonger⟩ := text?_spill fields.length hfilled
  refine ⟨ls, _, String.ofList longer, lexemes_eq_some_iff.2 hspelling,
    arm_of_tuple hfields hmessage, ?_, ?_, ?_⟩
  · rw [Arm.written, zipWith_fieldNames]
    refine format_of_spelling ?_ (mentionsAll_named (mentionsAll_spill fields.length hall))
      (text?_named hspilt)
    rw [namePlaceholders, String.toList_ofList, nameFields_eq_mark, ← hspelling, mark_spelling]
  · rw [String.toList_ofList, hspilt]
  · rw [← String.toList_inj, String.toList_ofList]
    constructor
    · intro heq hsome
      exact absurd (congrArg List.length heq) (Nat.ne_of_gt (hlonger hsome))
    · intro hnone
      rw [spill_of_not_escapesSome hnone, hfilled, Option.some.injEq] at hspilt
      exact hspilt.symm

/-- A placeholder between escaped braces, next to one with a leading zero, which stays a number. -/
theorem arm_writes_message_between_braces :
    let v : Variant := ⟨"Range",
      [⟨"error", .list [.str "\x7b\x7b\x7b0\x7d\x7d\x7d \x7b1\x7d \x7b01\x7d"]⟩], .tuple 2⟩
    v.fields = .tuple 2 ∧ v.message = .ok "\x7b\x7b\x7b0\x7d\x7d\x7d \x7b1\x7d \x7b01\x7d" ∧
      format (positional ["a", "b"]) "\x7b\x7b\x7b0\x7d\x7d\x7d \x7b1\x7d \x7b01\x7d" =
        some "\x7ba\x7d b b" ∧
      ∃ arm, v.arm = .ok arm ∧ arm.written ["a", "b"] = some "\x7ba\x7d b b" := by
  intro v
  have htext : format (positional ["a", "b"]) "\x7b\x7b\x7b0\x7d\x7d\x7d \x7b1\x7d \x7b01\x7d" =
      some "\x7ba\x7d b b" := by
    decide +kernel
  obtain ⟨ls, arm, written, hls, harm, hwritten, -, hsame⟩ :=
    arm_writes_message v _ _ ["a", "b"] rfl rfl htext
  have hnone : ((lexemes "\x7b\x7b\x7b0\x7d\x7d\x7d \x7b1\x7d \x7b01\x7d".toList).any fun ls =>
      EscapesSome 2 ls) = false := by
    decide +kernel
  rw [hls, Option.any_some, decide_eq_false_iff_not] at hnone
  rw [hsame.2 hnone] at hwritten
  exact ⟨rfl, rfl, htext, arm, harm, hwritten⟩

/-- The message says to write a zero in braces, and the arm writes the name of the field. -/
theorem arm_writes_name_for_escaped_number :
    let v : Variant := ⟨"Index", [⟨"error", .list [.str "\x7b\x7b0\x7d\x7d \x7b0\x7d"]⟩], .tuple 1⟩
    format (positional ["v"]) "\x7b\x7b0\x7d\x7d \x7b0\x7d" = some "\x7b0\x7d v" ∧
      ∃ arm, v.arm = .ok arm ∧ arm.written ["v"] = some "\x7bf0\x7d v" := by
  intro v
  have hnamed :
      namePlaceholders "\x7b\x7b0\x7d\x7d \x7b0\x7d" 1 = "\x7b\x7bf0\x7d\x7d \x7bf0\x7d" := by
    rw [namePlaceholders, nameFields_eq_mark]
    decide +kernel
  refine ⟨by decide +kernel, _, arm_of_tuple rfl rfl, ?_⟩
  rw [hnamed]
  decide +kernel

end StackMachine.Derive

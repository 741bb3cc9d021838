import StackMachine.Proofs.DerivedDisplay
import StackMachine.Proofs.DerivedRecords
import StackMachine.Proofs.Placeholders

/-!
Names in generated code. The code has names of its own, `f` for the parameter that receives the text
of an error and `S` for the type parameter of a writer, and it puts the names of the declaration
next to them: the fields of a variant into the pattern of an arm, the generic parameters of the item
around the methods.

Main statement: an arm writes to something else than the parameter exactly if the variant has a
field named `f`, and the writer declares a parameter again exactly if the item has one named `S`.
Nothing keeps such items from being accepted.
-/

namespace StackMachine.Derive

/-! ## 1. Scopes -/

/-- The name that an identifier stands for; the mark of a raw identifier is no part of it. -/
def bareName (identifier : String) : String :=
  match identifier.toList with
  | 'r' :: '#' :: name => String.ofList name
  | _ => identifier

def declares (scope : List String) (identifier : String) : Bool :=
  (scope.map bareName).contains (bareName identifier)

/-- The innermost scope that declares the name. The scopes are listed from the inside. -/
def owner? (scopes : List (List String)) (identifier : String) : Option Nat :=
  scopes.findIdx? (declares · identifier)

/-- The name of a parameter in the scope of types and constants. Lifetimes have a scope of their
own. -/
def Parameter.typeName? : Parameter → Option String
  | lifetime _ => none
  | type name _ => some name
  | const name _ => some name

def Header.typeNames (h : Header) : List String := h.parameters.filterMap Parameter.typeName?

section

variable {identifier name : String} {scope : List String}

theorem bareName_eq_iff (hname : ∀ rest, name.toList ≠ 'r' :: '#' :: rest) :
    bareName identifier = name ↔ identifier = name ∨ identifier = "r#" ++ name := by
  have hraw : identifier = "r#" ++ name ↔ identifier.toList = 'r' :: '#' :: name.toList := by
    rw [← String.toList_inj, String.toList_append]
    rfl
  rw [hraw, bareName]
  split
  · rename_i rest hrest
    rw [hrest, ← String.toList_inj, String.toList_ofList]
    constructor
    · rintro rfl
      exact .inr rfl
    · rintro (rfl | h)
      · exact absurd hrest (hname rest)
      · simpa using h
  · rename_i hother
    constructor
    · exact .inl
    · rintro (rfl | h)
      · rfl
      · exact absurd h (hother _)

theorem declares_iff (hname : ∀ rest, name.toList ≠ 'r' :: '#' :: rest) :
    declares scope name = true ↔ name ∈ scope ∨ "r#" ++ name ∈ scope := by
  have hbare : bareName name = name := (bareName_eq_iff hname).2 (.inl rfl)
  rw [declares, List.contains_iff_mem, List.mem_map, hbare]
  constructor
  · rintro ⟨identifier, hmem, hidentifier⟩
    obtain rfl | rfl := (bareName_eq_iff hname).1 hidentifier
    · exact .inl hmem
    · exact .inr hmem
  · rintro (h | h)
    · exact ⟨name, h, hbare⟩
    · exact ⟨_, h, (bareName_eq_iff hname).2 (.inr rfl)⟩

/-- A name that starts with another letter than the mark is not a raw identifier. -/
theorem not_raw_of_head (h : name.toList.head? ≠ some 'r') (rest : List Char) :
    name.toList ≠ 'r' :: '#' :: rest := by
  intro hname
  rw [hname] at h
  exact h rfl

/-- The parameter is meant where the inner scope does not declare its name. -/
theorem owner?_eq_one_iff (name : String) :
    owner? [scope, [name]] name = some 1 ↔ declares scope name = false := by
  have hself : declares [name] name = true := by
    rw [declares, List.contains_iff_mem]
    exact List.mem_singleton.2 rfl
  cases h : declares scope name with
  | true => simp [owner?, List.findIdx?_cons, h]
  | false => simp [owner?, List.findIdx?_cons, h, hself]

theorem owner?_eq_none_iff (name : String) :
    owner? [scope] name = none ↔ declares scope name = false := by
  cases h : declares scope name with
  | true => simp [owner?, List.findIdx?_cons, h]
  | false => simp [owner?, List.findIdx?_cons, h]

end

/-! ## 2. Names of fields -/

theorem toList_fieldName (i : Nat) : (fieldName i).toList = 'f' :: (Decimal.ofNat i).toList := by
  rw [fieldName, String.toList_append]
  rfl

theorem fieldName_ne_formatter (i : Nat) : fieldName i ≠ formatter := by
  intro h
  have hlist : 'f' :: (Decimal.ofNat i).toList = ['f'] := by
    rw [← toList_fieldName, h]
    rfl
  exact ofNat_ne_nil i (List.cons.inj hlist).2

theorem fieldName_ne_raw (i : Nat) : fieldName i ≠ "r#" ++ formatter := by
  intro h
  have hlist : 'f' :: (Decimal.ofNat i).toList = ['r', '#', 'f'] := by
    rw [← toList_fieldName, h]
    rfl
  exact absurd (List.cons.inj hlist).1 (by decide)

/-- The pattern of a variant declares `f` only if the variant has a field of this name. -/
theorem declares_pattern_iff (fields : Fields) :
    declares fields.pattern.2 formatter = false ↔
      ∀ names, fields = .named names → formatter ∉ names ∧ "r#" ++ formatter ∉ names := by
  have hformatter : formatter.toList.head? ≠ some 'r' := by decide
  rw [← Bool.not_eq_true, declares_iff (not_raw_of_head hformatter), not_or]
  cases fields with
  | unit =>
    refine iff_of_true ⟨List.not_mem_nil, List.not_mem_nil⟩ ?_
    intro names h
    cases h
  | tuple count =>
    refine iff_of_true ⟨?_, ?_⟩ ?_
    · intro h
      obtain ⟨i, -, hi⟩ := List.mem_map.1 h
      exact fieldName_ne_formatter i hi
    · intro h
      obtain ⟨i, -, hi⟩ := List.mem_map.1 h
      exact fieldName_ne_raw i hi
    · intro names h
      cases h
  | named names =>
    constructor
    · rintro h _ ⟨⟩
      exact h
    · exact fun h => h names rfl

/-! ## 3. Clashes -/

/-- In generated code an arm writes to the parameter that receives the text, unless its variant has
a field of the same name, as it is or marked as raw; then the field is meant. A generated writer
declares a type parameter that the item does not have, unless the item has a type or a constant of
the same name; then this name is declared twice. -/
theorem names_clash_iff (item : Item) :
    (∀ d, deriveDisplay item = .ok d → ∃ variants code, item.body = .enum variants ∧
      CodeReader.whole? (CodeReader.display item.header) (displayCode item) = some code ∧
      List.Forall₂ (fun v arm => owner? [arm.bound, [code.formatter]] arm.target = some 1 ↔
        ∀ names, v.fields = .named names → "f" ∉ names ∧ "r#f" ∉ names) variants code.arms) ∧
    ∀ r, deriveRecord item = .ok r → ∃ code,
      CodeReader.whole? (CodeReader.record item.header) (recordCode item) = some code ∧
      (owner? [item.header.typeNames] code.sink = none ↔
        "S" ∉ item.header.typeNames ∧ "r#S" ∉ item.header.typeNames) := by
  constructor
  · intro d hd
    obtain ⟨variants, code, hbody, -, hread, hformatter, hshows⟩ := shows_of_deriveDisplay hd
    refine ⟨variants, code, hbody, hread, hshows.imp fun v arm harm => ?_⟩
    -- the names that an arm binds are those of its pattern, and all arms write to the same name
    have hbound : arm.bound = v.fields.pattern.2 := congrArg Prod.snd harm.pattern
    rw [hformatter, harm.target, hbound, owner?_eq_one_iff]
    exact declares_pattern_iff v.fields
  · intro r hr
    obtain ⟨names, hbody⟩ := exists_named_of_deriveRecord hr
    refine ⟨_, whole_recordCode hbody, ?_⟩
    have hsink : sinkParameter.toList.head? ≠ some 'r' := by decide
    rw [owner?_eq_none_iff, ← Bool.not_eq_true, declares_iff (not_raw_of_head hsink), not_or]
    rfl

/-- Of two arms the one for a field named `f` writes to that field, the other to the parameter; a
lifetime named like the type parameter of the writer does no harm. -/
theorem names_clash_iff_beside_tuple :
    let field : Variant := ⟨"A", [⟨"error", .list [.str "\x7br#f\x7d"]⟩], .named ["r#f"]⟩
    let tuple : Variant := ⟨"B", [⟨"error", .list [.str "\x7b0\x7d"]⟩], .tuple 1⟩
    let errors : Item := ⟨⟨"E", [], []⟩, .enum [field, tuple]⟩
    let borrowed : Item := ⟨⟨"R", [.lifetime "S"], []⟩, .struct (.named ["x"])⟩
    (∃ d, deriveDisplay errors = .ok d) ∧ (∃ r, deriveRecord borrowed = .ok r) ∧
      (∃ code first second, CodeReader.whole? (CodeReader.display errors.header)
          (displayCode errors) = some code ∧
        code.arms = [first, second] ∧ owner? [first.bound, [code.formatter]] first.target ≠ some 1 ∧
        owner? [second.bound, [code.formatter]] second.target = some 1) ∧
      ∃ code, CodeReader.whole? (CodeReader.record borrowed.header)
        (recordCode borrowed) = some code ∧
        owner? [borrowed.header.typeNames] code.sink = none := by
  intro field tuple errors borrowed
  obtain ⟨d, hd⟩ : ∃ d, deriveDisplay errors = .ok d := ⟨_, rfl⟩
  obtain ⟨r, hr⟩ : ∃ r, deriveRecord borrowed = .ok r := ⟨_, rfl⟩
  refine ⟨⟨d, hd⟩, ⟨r, hr⟩, ?_, ?_⟩
  · obtain ⟨variants, code, hbody, hread, harms⟩ := (names_clash_iff errors).1 d hd
    cases hbody
    obtain ⟨first, others, hfirst, hothers, hcode⟩ := List.forall₂_cons_left_iff.1 harms
    obtain ⟨second, last, hsecond, hlast, rfl⟩ := List.forall₂_cons_left_iff.1 hothers
    cases List.forall₂_nil_left_iff.1 hlast
    refine ⟨code, first, second, hread, hcode, fun h => ?_, hsecond.2 fun names h => by cases h⟩
    exact (hfirst.1 h ["r#f"] rfl).2 List.mem_cons_self
  · obtain ⟨code, hread, hsink⟩ := (names_clash_iff borrowed).2 r hr
    exact ⟨code, hread, hsink.2 ⟨List.not_mem_nil, List.not_mem_nil⟩⟩

/-- A field named `f` is accepted and takes the place of the parameter; a type named `S` is accepted
and declared again. -/
theorem accepted_names_clash :
    let errors : Item :=
      ⟨⟨"E", [], []⟩, .enum [⟨"A", [⟨"error", .list [.str "\x7bf\x7d"]⟩], .named ["f"]⟩]⟩
    let generic : Item := ⟨⟨"R", [.type "S" []], []⟩, .struct (.named ["x"])⟩
    (∃ d code arm, deriveDisplay errors = .ok d ∧
      CodeReader.whole? (CodeReader.display errors.header) (displayCode errors) = some code ∧
      code.arms = [arm] ∧
      "f" ∈ arm.bound ∧ arm.target = "f" ∧
      owner? [arm.bound, [code.formatter]] arm.target = some 0) ∧
    ∃ r code, deriveRecord generic = .ok r ∧
      CodeReader.whole? (CodeReader.record generic.header) (recordCode generic) = some code ∧
      code.sink = "S" ∧ "S" ∈ generic.header.typeNames := by
  intro errors generic
  constructor
  · have hd : deriveDisplay errors = .ok ⟨errors.header, [⟨"A", .named, ["f"], "\x7bf\x7d"⟩]⟩ := by
      rfl
    have hread := whole_displayCode hd
    exact ⟨_, _, _, hd, hread, rfl, List.mem_cons_self, rfl, by decide +kernel⟩
  · have hbody : generic.body = .struct (.named ["x"]) := rfl
    have hread := whole_recordCode hbody
    exact ⟨_, _, deriveRecord_of_named hbody, hread, rfl, List.mem_cons_self⟩

end StackMachine.Derive

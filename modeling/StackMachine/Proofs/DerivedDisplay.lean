import Mathlib.Data.List.Forall2
import StackMachine.Proofs.GeneratedCode

/-!
When code that shows errors is generated, what stands in it, and what is reported otherwise. The
conditions are said on the declaration alone: which attribute of a variant counts, and what it has
to hold.

Main statement: code is generated exactly for the enums in which every variant declares a message.
Its match has one arm for each variant, in order. Otherwise the code is one error, for the first
variant that declares no message.
-/

namespace StackMachine.Derive

/-! ## 1. Messages -/

/-- The attribute that counts for the message of a variant: the first that is named `error`. -/
def Variant.HasAttribute (v : Variant) (a : Attribute) : Prop :=
  a.path = "error" ∧
    ∃ before after, v.attributes = before ++ a :: after ∧ ∀ b ∈ before, b.path ≠ "error"

/-- The attribute holds one string literal and nothing else. -/
def Variant.Declares (v : Variant) (message : String) : Prop :=
  ∃ a, v.HasAttribute a ∧ a.form = .list [.str message]

/-- The arguments are one literal, and which. -/
inductive Spells : List Argument → Literal → Prop where
  | str (value : String) : Spells [.str value] (.text value)
  | literal (token : String) : Spells [.literal token] .other
  | truth {name : String} (h : name = "true" ∨ name = "false") : Spells [.ident name] .other
  | negative {number : String} (h : number.toList.head?.any Char.isDigit) :
      Spells [.punct "-", .literal number] .other

/-- Why a variant declares no message. -/
inductive Variant.Offends (v : Variant) : Rejection → Prop where
  | missing (h : ∀ a ∈ v.attributes, a.path ≠ "error") : v.Offends (.missingMessage v.name)
  | notAList {a : Attribute} (ha : v.HasAttribute a) (h : ∀ arguments, a.form ≠ .list arguments) :
      v.Offends .notAList
  | notALiteral {a : Attribute} {arguments : List Argument} (ha : v.HasAttribute a)
      (hform : a.form = .list arguments)
      (h : ∀ l, ¬ Spells arguments l) : v.Offends .notALiteral
  | notAString {a : Attribute} {arguments : List Argument} (ha : v.HasAttribute a)
      (hform : a.form = .list arguments)
      (h : Spells arguments .other) : v.Offends .notAString

section

variable {v : Variant} {a : Attribute} {arguments : List Argument} {l : Literal} {message : String}
  {r : Rejection}

theorem find?_eq_some_iff : v.attributes.find? (·.path == "error") = some a ↔ v.HasAttribute a := by
  rw [List.find?_eq_some_iff_append, Variant.HasAttribute]
  simp only [beq_iff_eq, Bool.not_eq_true', beq_eq_false_iff_ne]

theorem find?_eq_none_iff :
    v.attributes.find? (·.path == "error") = none ↔ ∀ a ∈ v.attributes, a.path ≠ "error" := by
  rw [List.find?_eq_none]
  simp only [beq_iff_eq, Ne]

theorem literal?_eq_some_iff : literal? arguments = some l ↔ Spells arguments l := by
  constructor
  · intro h
    unfold literal? at h
    split at h
    · cases h
      exact .str _
    · cases h
      exact .literal _
    · split at h
      · rename_i htruth
        cases h
        exact .truth htruth
      · cases h
    · split at h
      · rename_i hnegative
        obtain ⟨rfl, hdigit⟩ := hnegative
        cases h
        exact .negative hdigit
      · cases h
    · cases h
  · intro h
    cases h with
    | str | literal => rfl
    | truth h => exact if_pos h
    | negative h => exact if_pos ⟨rfl, h⟩

theorem literal?_eq_none_iff : literal? arguments = none ↔ ∀ l, ¬ Spells arguments l := by
  simp only [← literal?_eq_some_iff, Option.eq_none_iff_forall_ne_some, Ne]

/-- A variant has a message or a reason against it. -/
theorem message_cases (v : Variant) :
    (∃ message, v.message = .ok message ∧ v.Declares message) ∨
      ∃ r, v.message = .error r ∧ v.Offends r := by
  unfold Variant.message
  -- the search for the attribute, its form, its literal
  split
  · rename_i hnone
    exact .inr ⟨_, rfl, .missing (find?_eq_none_iff.1 hnone)⟩
  · rename_i a hsome
    have ha := find?_eq_some_iff.1 hsome
    split
    · rename_i arguments hform
      split
      · rename_i message hliteral
        cases literal?_eq_some_iff.1 hliteral
        exact .inl ⟨message, rfl, a, ha, hform⟩
      · rename_i hliteral
        exact .inr ⟨_, rfl, .notAString ha hform (literal?_eq_some_iff.1 hliteral)⟩
      · rename_i hliteral
        exact .inr ⟨_, rfl, .notALiteral ha hform (literal?_eq_none_iff.1 hliteral)⟩
    · rename_i hform
      exact .inr ⟨_, rfl, .notAList ha hform⟩

theorem Variant.Declares.message_eq (h : v.Declares message) : v.message = .ok message := by
  obtain ⟨a, ha, hform⟩ := h
  simp only [Variant.message, find?_eq_some_iff.2 ha, hform, literal?]

theorem Variant.Offends.message_eq (h : v.Offends r) : v.message = .error r := by
  cases h with
  | missing h => rw [Variant.message, find?_eq_none_iff.2 h]
  | @notAList a ha h =>
    rw [Variant.message, find?_eq_some_iff.2 ha]
    cases hform : a.form with
    | list arguments => exact absurd hform (h arguments)
    | path | value => simp only [hform]
  | notALiteral ha hform h =>
    simp only [Variant.message, find?_eq_some_iff.2 ha, hform, literal?_eq_none_iff.2 h]
  | notAString ha hform h =>
    simp only [Variant.message, find?_eq_some_iff.2 ha, hform, literal?_eq_some_iff.2 h]

/-! ## 2. Arms -/

/-- The pattern that takes a variant apart: its form and the names that it binds. -/
def Fields.pattern : Fields → PatternForm × List String
  | .unit => (.unit, [])
  | .tuple count => (.tuple, (List.range count).map fieldName)
  | .named names => (.named, names)

/-- The message as it is formatted: the fields of a tuple go by names. -/
def Fields.formatted (message : String) : Fields → String
  | .tuple count => namePlaceholders message count
  | _ => message

/-- The arm is for the variant: it shows the message that the variant declares with all fields of
the variant. -/
structure Shows (v : Variant) (arm : ArmCode) : Prop where
  variant : arm.variant = v.name
  pattern : (arm.form, arm.bound) = v.fields.pattern
  arguments : arm.arguments = arm.bound.map fun name => (name, name)
  target : arm.target = formatter
  message : ∃ message, v.Declares message ∧ arm.literal = Text.quote (v.fields.formatted message)

theorem arm_of_message (h : v.message = .ok message) :
    v.arm = .ok ⟨v.name, v.fields.pattern.1, v.fields.pattern.2, v.fields.formatted message⟩ := by
  rw [Variant.arm, h]
  cases v.fields with
  | unit | tuple | named => rfl

theorem Variant.Declares.shows (h : v.Declares message) :
    ∃ arm, v.arm = .ok arm ∧ Shows v arm.read := by
  refine ⟨_, arm_of_message h.message_eq, ?_⟩
  have hbound :
      (Arm.bound ⟨v.name, v.fields.pattern.1, v.fields.pattern.2, v.fields.formatted message⟩) =
        v.fields.pattern.2 := by
    cases v.fields with
    | unit | tuple | named => rfl
  exact ⟨rfl, by rw [Arm.read, hbound], rfl, rfl, message, h, rfl⟩

theorem Variant.Offends.arm_eq (h : v.Offends r) : v.arm = .error r := by
  rw [Variant.arm, h.message_eq]

end

/-- The arms of variants that all declare messages. -/
theorem exists_arms {variants : List Variant} (h : ∀ v ∈ variants, ∃ message, v.Declares message) :
    ∃ found, arms variants = .ok found ∧ List.Forall₂ Shows variants (found.map Arm.read) := by
  induction variants with
  | nil => exact ⟨[], rfl, .nil⟩
  | cons v rest ih =>
    obtain ⟨message, hmessage⟩ := h v List.mem_cons_self
    obtain ⟨arm, harm, hshows⟩ := hmessage.shows
    obtain ⟨others, hothers, hall⟩ := ih fun u hu => h u (List.mem_cons_of_mem v hu)
    exact ⟨arm :: others, by rw [arms, harm, hothers], .cons hshows hall⟩

/-- The first variant without a message decides. -/
theorem arms_of_offends {before after : List Variant} {v : Variant} {r : Rejection}
    (hbefore : ∀ u ∈ before, ∃ message, u.Declares message) (hv : v.Offends r) :
    arms (before ++ v :: after) = .error r := by
  induction before with
  | nil => rw [List.nil_append, arms, hv.arm_eq]
  | cons u before ih =>
    obtain ⟨message, hmessage⟩ := hbefore u List.mem_cons_self
    obtain ⟨arm, harm, -⟩ := hmessage.shows
    rw [List.cons_append, arms, harm, ih fun w hw => hbefore w (List.mem_cons_of_mem u hw)]

/-- Either all variants declare messages, or there is a first that does not. -/
theorem all_declare_or_first (variants : List Variant) :
    (∀ v ∈ variants, ∃ message, v.Declares message) ∨
      ∃ before v after r, variants = before ++ v :: after ∧
      (∀ u ∈ before, ∃ message, u.Declares message) ∧ v.Offends r := by
  induction variants with
  | nil => exact .inl fun v hv => absurd hv List.not_mem_nil
  | cons v rest ih =>
    obtain ⟨message, -, hmessage⟩ | ⟨r, -, hr⟩ := message_cases v
    · obtain hall | ⟨before, u, after, r, rfl, hbefore, hu⟩ := ih
      · exact .inl (List.forall_mem_cons.2 ⟨⟨message, hmessage⟩, hall⟩)
      · exact .inr ⟨v :: before, u, after, r, rfl,
          List.forall_mem_cons.2 ⟨⟨message, hmessage⟩, hbefore⟩, hu⟩
    · exact .inr ⟨[], v, rest, r, rfl, fun u hu => absurd hu List.not_mem_nil, hr⟩

/-! ## 3. Derived code -/

section

variable {item : Item} {variants before after : List Variant} {v : Variant} {r : Rejection}

theorem deriveDisplay_of_declares (hbody : item.body = .enum variants)
    (h : ∀ v ∈ variants, ∃ message, v.Declares message) :
    ∃ d, deriveDisplay item = .ok d ∧ d.header = item.header ∧
      List.Forall₂ Shows variants (d.arms.map Arm.read) := by
  obtain ⟨found, hfound, hshows⟩ := exists_arms h
  refine ⟨⟨item.header, found⟩, ?_, rfl, hshows⟩
  rw [deriveDisplay, hbody]
  simp only [hfound]

theorem deriveDisplay_of_offends (hbody : item.body = .enum (before ++ v :: after))
    (hbefore : ∀ u ∈ before, ∃ message, u.Declares message) (hv : v.Offends r) :
    deriveDisplay item = .error r := by
  rw [deriveDisplay, hbody]
  simp only [arms_of_offends hbefore hv]

theorem deriveDisplay_of_not_enum (hbody : ∀ variants, item.body ≠ .enum variants) :
    deriveDisplay item = .error .notAnEnum := by
  rw [deriveDisplay]
  cases h : item.body with
  | enum variants => exact absurd h (hbody variants)
  | struct | union => rfl

end

/-- What an item is rejected for: it is no enum, or its first variant that declares no message. -/
inductive Item.RejectedFor (item : Item) : Rejection → Prop where
  | notAnEnum (h : ∀ variants, item.body ≠ .enum variants) : item.RejectedFor .notAnEnum
  | variant {before after : List Variant} {v : Variant} {r : Rejection}
      (hbody : item.body = .enum (before ++ v :: after))
      (hbefore : ∀ u ∈ before, ∃ message, u.Declares message) (hv : v.Offends r) :
      item.RejectedFor r

theorem Item.RejectedFor.deriveDisplay_eq {item : Item} {r : Rejection} (h : item.RejectedFor r) :
    deriveDisplay item = .error r := by
  cases h with
  | notAnEnum h => exact deriveDisplay_of_not_enum h
  | variant hbody hbefore hv => exact deriveDisplay_of_offends hbody hbefore hv

theorem declares_or_rejected (item : Item) :
    (∃ variants, item.body = .enum variants ∧ ∀ v ∈ variants, ∃ message, v.Declares message) ∨
      ∃ r, item.RejectedFor r := by
  cases hbody : item.body with
  | enum variants =>
    obtain hall | ⟨before, v, after, r, rfl, hbefore, hv⟩ := all_declare_or_first variants
    · exact .inl ⟨variants, rfl, hall⟩
    · exact .inr ⟨r, .variant hbody hbefore hv⟩
  | struct | union => exact .inr ⟨_, .notAnEnum fun variants h => by rw [hbody] at h; cases h⟩

theorem whole_displayCode {item : Item} {d : DisplayImpl} (hd : deriveDisplay item = .ok d) :
    CodeReader.whole? (CodeReader.display d.header) (displayCode item) =
      some ⟨formatter, d.arms.map Arm.read⟩ := by
  rw [displayCode, hd]
  exact (CodeReader.reads_display d).whole

/-- Generated code has one arm for each variant, in order. -/
theorem shows_of_deriveDisplay {item : Item} {d : DisplayImpl} (hd : deriveDisplay item = .ok d) :
    ∃ variants code, item.body = .enum variants ∧ displayCode item = d.code ∧
      CodeReader.whole? (CodeReader.display item.header) (displayCode item) = some code ∧
      code.formatter = formatter ∧
      List.Forall₂ Shows variants code.arms := by
  obtain ⟨variants, hbody, hall⟩ | ⟨r, hr⟩ := declares_or_rejected item
  · obtain ⟨d', hd', hheader, hshows⟩ := deriveDisplay_of_declares hbody hall
    cases hd.symm.trans hd'
    refine ⟨variants, ⟨formatter, d.arms.map Arm.read⟩, hbody, by rw [displayCode, hd], ?_, rfl,
      hshows⟩
    rw [← hheader]
    exact whole_displayCode hd
  · cases hd.symm.trans hr.deriveDisplay_eq

/-- Code that shows errors is generated exactly for the enums in which the first `error` attribute
of every variant holds one string literal. Its tokens are a match with one arm for each variant in
the order of their declaration, and the arm shows the message of that attribute with the fields of
the variant. Any other item is rejected for not being an enum, or for the first variant with another
attribute or none, and its code is this one error. -/
theorem display_derived_iff_declared (item : Item) :
    ((∃ d, deriveDisplay item = .ok d) ↔
      ∃ variants, item.body = .enum variants ∧ ∀ v ∈ variants, ∃ message, v.Declares message) ∧
    (∀ d, deriveDisplay item = .ok d →
      ∃ variants code, item.body = .enum variants ∧ displayCode item = d.code ∧
        CodeReader.whole? (CodeReader.display item.header) (displayCode item) = some code ∧
        List.Forall₂ Shows variants code.arms) ∧
    (∀ r, deriveDisplay item = .error r ↔ item.RejectedFor r) ∧
    ∀ r, deriveDisplay item = .error r → displayCode item = r.code := by
  refine ⟨⟨?_, ?_⟩, ?_, fun r => ⟨?_, Item.RejectedFor.deriveDisplay_eq⟩, ?_⟩
  · rintro ⟨d, hd⟩
    obtain hdeclares | ⟨r, hr⟩ := declares_or_rejected item
    · exact hdeclares
    · cases hd.symm.trans hr.deriveDisplay_eq
  · rintro ⟨variants, hbody, hall⟩
    obtain ⟨d, hd, -⟩ := deriveDisplay_of_declares hbody hall
    exact ⟨d, hd⟩
  · intro d hd
    obtain ⟨variants, code, hbody, hcode, hread, -, hshows⟩ := shows_of_deriveDisplay hd
    exact ⟨variants, code, hbody, hcode, hread, hshows⟩
  · intro h
    obtain ⟨variants, hbody, hall⟩ | ⟨r', hr'⟩ := declares_or_rejected item
    · obtain ⟨d, hd, -⟩ := deriveDisplay_of_declares hbody hall
      cases h.symm.trans hd
    · cases h.symm.trans hr'.deriveDisplay_eq
      exact hr'
  · intro r hr
    rw [displayCode, hr]

/-- The second variant is rejected for its first attribute, though a later one has a message and the
third has none. -/
theorem display_derived_iff_declared_first_offence :
    let full : Variant := ⟨"Full", [⟨"doc", .path⟩, ⟨"error", .list [.str "full"]⟩], .unit⟩
    let late : Variant :=
      ⟨"Late", [⟨"error", .value (.str "x")⟩, ⟨"error", .list [.str "late"]⟩], .tuple 1⟩
    let item : Item := ⟨⟨"E", [], []⟩, .enum [full, late, ⟨"Bare", [], .unit⟩]⟩
    item.RejectedFor .notAList ∧ displayCode item = Rejection.notAList.code := by
  intro full late item
  have hfull : full.HasAttribute ⟨"error", .list [.str "full"]⟩ :=
    ⟨rfl, [⟨"doc", .path⟩], [], rfl, List.forall_mem_singleton.2 (by decide)⟩
  have hlate : late.HasAttribute ⟨"error", .value (.str "x")⟩ :=
    ⟨rfl, [], [⟨"error", .list [.str "late"]⟩], rfl, fun b hb => absurd hb List.not_mem_nil⟩
  have hbody : item.body = .enum ([full] ++ late :: [⟨"Bare", [], .unit⟩]) := rfl
  have hrejected : item.RejectedFor .notAList :=
    .variant hbody (List.forall_mem_singleton.2 ⟨_, _, hfull, rfl⟩)
      (.notAList hlate fun arguments h => by cases h)
  have hitem := display_derived_iff_declared item
  exact ⟨hrejected, hitem.2.2.2 _ ((hitem.2.2.1 _).2 hrejected)⟩

end StackMachine.Derive

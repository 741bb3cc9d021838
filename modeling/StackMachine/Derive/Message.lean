import StackMachine.Decimal

/-!
Messages of error variants. In the message of a tuple variant, positional placeholders are replaced
by named ones.
-/

namespace StackMachine.Derive

/-- Replaces every occurrence of a pattern, from left to right. The pattern is not empty. -/
def replaceAll (pattern replacement : List Char) : List Char → List Char
  | [] => []
  | c :: cs =>
    if pattern.isPrefixOf (c :: cs) then
      replacement ++ replaceAll pattern replacement (cs.drop (pattern.length - 1))
    else
      c :: replaceAll pattern replacement cs
termination_by text => text.length
decreasing_by
  · simp only [List.length_drop, List.length_cons]
    omega
  · simp only [List.length_cons]
    omega

/-- The name that stands for a field of a tuple variant. -/
def fieldName (i : Nat) : String := "f" ++ Decimal.ofNat i

/-- A placeholder: a name or number in braces. -/
def placeholder (name : String) : List Char := '\x7b' :: name.toList ++ ['\x7d']

/-- Names the placeholder of field `i`. -/
def namePlaceholder (i : Nat) (message : List Char) : List Char :=
  replaceAll (placeholder (Decimal.ofNat i)) (placeholder (fieldName i)) message

/-- Names the placeholders of the first `count` fields, the last field first. -/
def nameFields : (count : Nat) → List Char → List Char
  | 0, message => message
  | count + 1, message => nameFields count (namePlaceholder count message)

/-- The message with positional placeholders named. -/
def namePlaceholders (message : String) (count : Nat) : String :=
  String.ofList (nameFields count message.toList)

end StackMachine.Derive

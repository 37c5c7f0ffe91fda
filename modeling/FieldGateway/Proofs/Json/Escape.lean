import FieldGateway.Json.Printer
import Mathlib.Tactic.SplitIfs

-- The three ways in which a character stands inside a text in quotes: behind a backslash as a
-- letter, as its code, or as itself. Every reader of such texts is held against these.
namespace FieldGateway.Json

def letters : List (Char × Char) :=
  [('"', '"'), ('\\', '\\'), ('n', '\n'), ('r', '\r'), ('t', '\t'), ('b', Char.ofNat 8), ('f', Char.ofNat 12)]

inductive Escaped (c : Char) : Text → Prop where
  | letter (listed : (d, c) ∈ letters) : Escaped c ['\\', d]
  | code (small : c.toNat < 32) :
    Escaped c ['\\', 'u', '0', '0', Text.hexChar (c.toNat / 16 % 16), Text.hexChar (c.toNat % 16)]
  | itself (quote : c ≠ '"') (backslash : c ≠ '\\') (large : 32 ≤ c.toNat) : Escaped c [c]

theorem escapedChar_escaped (c : Char) : Escaped c (escapedChar c) := by
  have self : Char.ofNat c.toNat = c := Char.ofNat_toNat c
  unfold escapedChar
  split_ifs with quote backslash newline carriage tab backspace feed small
  · exact .letter (by subst quote; decide)
  · exact .letter (by subst backslash; decide)
  · exact .letter (by subst newline; decide)
  · exact .letter (by subst carriage; decide)
  · exact .letter (by subst tab; decide)
  · exact .letter (by rw [← self, backspace]; decide)
  · exact .letter (by rw [← self, feed]; decide)
  · exact .code small
  · exact .itself quote backslash (Nat.le_of_not_lt small)

theorem hexDigit?_hexChar (small : n < 16) : Text.hexDigit? (Text.hexChar n) = some n := by
  have digits : ∀ d < 16, Text.hexDigit? (Text.hexChar d) = some d := by decide
  exact digits n small

end FieldGateway.Json

import Gatehouse.Text.WordRanges

/-!
Word characters: the Unicode class that identifiers are made of.
-/

namespace Gatehouse.Text

/-- A letter, mark, decimal digit or connector of any script. -/
def isWord (c : Char) : Bool :=
  if c.toNat < 128 then c.isAlphanum || c == '_'
  else wordRanges.any fun r => r.1 ≤ c.toNat && c.toNat ≤ r.2

theorem not_isWord_dot : isWord '.' = false := by decide

theorem not_isWord_slash : isWord '/' = false := by decide

end Gatehouse.Text

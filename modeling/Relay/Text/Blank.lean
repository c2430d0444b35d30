/-!
# Blank text

A name counts as missing when nothing but white space is left of it.  White
space is the Unicode property of that name; the zero-width characters and the
information separators do not have it.
-/

namespace Relay.Text

/-- Membership in the Unicode property `White_Space`. -/
def isWhiteSpace (char : Char) : Bool :=
  let code := char.toNat
  (0x09 ≤ code && code ≤ 0x0D) || code == 0x20 || code == 0x85 || code == 0xA0 ||
    code == 0x1680 || (0x2000 ≤ code && code ≤ 0x200A) || code == 0x2028 || code == 0x2029 ||
    code == 0x202F || code == 0x205F || code == 0x3000

/-- Whether a text holds nothing but white space. -/
def isBlank (text : String) : Bool := text.toList.all isWhiteSpace

example : isBlank "\u00a0\u3000 \t" = true ∧ isBlank "\u200b" = false := by decide

end Relay.Text

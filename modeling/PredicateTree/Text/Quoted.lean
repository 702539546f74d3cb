import PredicateTree.Text.Printable

/-!
# Text.Quoted

A text as a quoted literal: in double quotes, with a backslash before the quote and the backslash,
short forms for the usual controls, and the code point in braces for whatever cannot stand for
itself.
-/

namespace PredicateTree

/-- The digits of `n` in the base sixteen, without leading zeros. -/
def hexDigits (n : Nat) : List Char := Nat.toDigits 16 n

def quotedChar (c : Char) : List Char :=
  match c with
  | '"' => ['\\', '"']
  | '\\' => ['\\', '\\']
  | '\n' => ['\\', 'n']
  | '\r' => ['\\', 'r']
  | '\t' => ['\\', 't']
  | '\x00' => ['\\', '0']
  | c => if isPrintable c then [c] else ['\\', 'u', '\x7b'] ++ hexDigits c.toNat ++ ['\x7d']

def quoted (s : String) : String :=
  String.ofList ('"' :: (s.toList.flatMap quotedChar ++ ['"']))

end PredicateTree

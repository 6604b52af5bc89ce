import TracedEval.Text.Unprintable

/-!
# Quoted texts

A text between double quotes in which every character can be told apart: quotes and backslashes are
escaped, the usual controls have their letters, and any other character without a visible form is
written as its number in braces.
-/

namespace TracedEval.Text

/-- The hexadecimal digits of `n`, in lower case. -/
def hexadecimal (n : Nat) : String := String.ofList (Nat.toDigits 16 n)

/-- How a character stands between the quotes. -/
def escapeQuoted (c : Char) : String :=
  match c with
  | '"' => "\\\""
  | '\\' => "\\\\"
  | '\n' => "\\n"
  | '\r' => "\\r"
  | '\t' => "\\t"
  | '\x00' => "\\0"
  | c => if isUnprintable c then "\\u\x7b" ++ hexadecimal c.toNat ++ "\x7d" else c.toString

/-- The text in quotes. -/
def quoted (s : String) : String :=
  "\"" ++ String.join (s.toList.map escapeQuoted) ++ "\""

end TracedEval.Text

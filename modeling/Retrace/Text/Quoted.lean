import Retrace.Numeral.Basic
import Retrace.Text.Hidden

/-!
# Quoted text in reports

Reports show pieces of text and single characters in quotes, on one line. The
quote itself, the backslash and the common controls are written with a backslash,
and every other hidden character by its number in braces.
-/

namespace Retrace

/-- The hexadecimal digits of a number, without zeros in front. -/
def hexNumeral (n : Nat) : List Char :=
  match (Numeral.hexDigits n 8).dropWhile (· = '0') with
  | [] => ['0']
  | digits => digits

/-- The written form of a character between two marks of a kind. -/
def quoteChar (mark c : Char) : List Char :=
  if c = '\x00' then ['\\', '0']
  else if c = '\t' then ['\\', 't']
  else if c = '\r' then ['\\', 'r']
  else if c = '\n' then ['\\', 'n']
  else if c = '\\' ∨ c = mark then ['\\', c]
  else if isHidden c then ['\\', 'u', '\x7b'] ++ hexNumeral c.toNat ++ ['\x7d']
  else [c]

/-- A piece of text in double quotes. -/
def quotedText (cs : List Char) : String :=
  String.ofList ('"' :: cs.flatMap (quoteChar '"') ++ ['"'])

/-- A character in single quotes. -/
def quotedChar (c : Char) : String :=
  String.ofList ('\x27' :: quoteChar '\x27' c ++ ['\x27'])

end Retrace

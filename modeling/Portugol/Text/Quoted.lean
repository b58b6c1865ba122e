import Portugol.Text.GraphemeExtend
import Portugol.Text.Ignorable
import Portugol.Text.Unprintable

/-! # Quoted text

A quoted text stands between two equal marks. Inside, the mark and the backslash are preceded by a
backslash, the four common controls are written with a letter or a digit, and a character that has no
shape of its own is written by its number in braces. All else stands for itself. -/
namespace Portugol.Text.Quoted

/-- How one character is written between two marks. -/
def escape (mark c : Char) : List Char :=
  if c = mark || c = '\\' then ['\\', c]
  else if c = '\x00' then ['\\', '0']
  else if c = '\t' then ['\\', 't']
  else if c = '\r' then ['\\', 'r']
  else if c = '\n' then ['\\', 'n']
  else if isExtending c || isIgnorable c || isUnprintable c then
    ['\\', 'u', '\x7b'] ++ Nat.toDigits 16 c.toNat ++ ['\x7d']
  else [c]

def quote (text : String) : String :=
  String.ofList ('"' :: text.toList.flatMap (escape '"') ++ ['"'])

def quoteChar (c : Char) : String := String.ofList ('\x27' :: escape '\x27' c ++ ['\x27'])

end Portugol.Text.Quoted

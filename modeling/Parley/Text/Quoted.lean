import Parley.Text.PrintTable
import Parley.Text.Lowercase

/-!
# Quoted form

A text between double quotes in which every character is visible: quotes and backslashes are
escaped, the common control characters have a letter, and all else without a form of its own is
written as its code point.
-/

namespace Parley.Text

/-- The code point in hexadecimal, as it stands in an escape. -/
def hexDigits (n : Nat) : List Char :=
  Nat.toDigits 16 n

/-- Whether a character is not seen by itself: it joins the one before it, or has no picture. -/
def needsCodePoint (c : Char) : Bool :=
  inRanges extenderRanges c || inRanges unprintableRanges c

/-- A character as it stands between quotes. -/
def escapeChar (c : Char) : List Char :=
  if c = '\x00' then ['\\', '0']
  else if c = '\t' then ['\\', 't']
  else if c = '\r' then ['\\', 'r']
  else if c = '\n' then ['\\', 'n']
  else if c = '"' then ['\\', '"']
  else if c = '\\' then ['\\', '\\']
  else if 0x20 ≤ c.toNat && c.toNat < 0x7F then [c]
  else if needsCodePoint c then ['\\', 'u', '\x7b'] ++ hexDigits c.toNat ++ ['\x7d']
  else [c]

def quoted (cs : List Char) : List Char :=
  '"' :: cs.flatMap escapeChar ++ ['"']

end Parley.Text

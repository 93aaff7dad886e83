import VectorIndexing.Text.Combining
import VectorIndexing.Text.Unprintable

/-!
# Quoted texts

A text between double quotes in which every character can be told apart: what would end the
text, break the line, join its neighbour or not show at all is written as an escape.
-/

namespace VectorIndexing

/-- A character written by its code point, in lowercase hexadecimal digits between braces. -/
def escapeCode (c : Char) : List Char :=
  "\\u\x7b".toList ++ Nat.toDigits 16 c.toNat ++ ['}']

/-- A character inside a quoted text. Quotes and backslashes follow a backslash, the common
controls have escapes of one letter, and characters that combine or do not print are written
by their code points. -/
def quoteChar (c : Char) : List Char :=
  if c = '"' ∨ c = '\\' then ['\\', c]
  else if c = '\n' then ['\\', 'n']
  else if c = '\r' then ['\\', 'r']
  else if c = '\t' then ['\\', 't']
  else if c = '\x00' then ['\\', '0']
  else if isCombining c || isUnprintable c then escapeCode c
  else [c]

/-- A text in double quotes. -/
def quoted (text : String) : String :=
  String.ofList ('"' :: text.toList.flatMap quoteChar ++ ['"'])

end VectorIndexing

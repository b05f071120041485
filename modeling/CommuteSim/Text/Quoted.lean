import CommuteSim.Text.Invisible

/-!
# Texts quoted in messages

A text inside a message stands between double quotes, with quotes, backslashes, line ends and every
invisible character escaped.
-/

namespace CommuteSim

/-- A code point as `\u` with its hexadecimal number in braces. -/
def codePointEscape (c : Char) : List Char :=
  ['\\', 'u', '\x7b'] ++ Nat.toDigits 16 c.toNat ++ ['\x7d']

/-- A character as it stands in a quoted text. -/
def quotedChar (c : Char) : List Char :=
  if c = '"' then ['\\', '"']
  else if c = '\\' then ['\\', '\\']
  else if c = '\n' then ['\\', 'n']
  else if c = '\r' then ['\\', 'r']
  else if c = '\t' then ['\\', 't']
  else if c = '\x00' then ['\\', '0']
  else if c < ' ' then codePointEscape c
  else if c < '\x7f' then [c]
  else if Invisible.has c then codePointEscape c
  else [c]

/-- The text between quotes. -/
def quotedText (s : String) : String :=
  String.ofList ('"' :: s.toList.flatMap quotedChar ++ ['"'])

end CommuteSim

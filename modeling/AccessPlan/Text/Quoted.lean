import AccessPlan.Text.Hidden

/-!
# Quoted strings in messages

A message shows a string between quotes in such a way that every character can be seen: quotes,
backslashes and line ends are escaped by name, hidden characters by code point.

* `Text.quoted`: the string between quotes.
-/

namespace AccessPlan.Text

/-- A character as it is shown between quotes. -/
def shown (c : Char) : List Char :=
  if c = '\x00' then ['\\', '0']
  else if c = '\t' then ['\\', 't']
  else if c = '\n' then ['\\', 'n']
  else if c = '\r' then ['\\', 'r']
  else if c = '"' then ['\\', '"']
  else if c = '\\' then ['\\', '\\']
  else if isHidden c then ['\\', 'u', '\x7b'] ++ Nat.toDigits 16 c.toNat ++ ['\x7d']
  else [c]

/-- A string between quotes, with every character visible. -/
def quoted (s : String) : String := String.ofList ('"' :: s.toList.flatMap shown ++ ['"'])

end AccessPlan.Text

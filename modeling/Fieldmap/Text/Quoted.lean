/-!
# Quoted texts

A text is shown in messages and in dumps between double quotes, with the quote,
the backslash and every control character escaped. The written form therefore
never holds a line feed.
-/

namespace Fieldmap.Text

/-- The written form of one character between quotes. -/
def escape (c : Char) : List Char :=
  if c = '"' then ['\\', '"']
  else if c = '\\' then ['\\', '\\']
  else if c = '\x08' then ['\\', 'b']
  else if c = '\x0c' then ['\\', 'f']
  else if c = '\n' then ['\\', 'n']
  else if c = '\r' then ['\\', 'r']
  else if c = '\t' then ['\\', 't']
  else if c.toNat < 0x20 then
    ['\\', 'u', '0', '0', Nat.digitChar (c.toNat / 16), Nat.digitChar (c.toNat % 16)]
  else [c]

/-- The written form of a list of characters, with its quotes. -/
def quoteChars (text : List Char) : List Char :=
  '"' :: text.flatMap escape ++ ['"']

/-- The written form of a text, with its quotes. -/
def quote (text : String) : String :=
  String.ofList (quoteChars text.toList)

@[simp] theorem toList_quote (text : String) :
    (quote text).toList = quoteChars text.toList := by
  simp [quote]

end Fieldmap.Text

import DocumentMapper.Text.Unseen

/-!
# Quoted text

Two ways to write text between quotes: as a string of a JSON text, and as a key
in a message.  Both put a backslash before the quote and before the backslash
itself; they differ in the control characters and in the text that they leave
as it is.
-/

namespace DocumentMapper
namespace Text

def hexText (n : Nat) : String :=
  String.ofList (Nat.toDigits 16 n)

def between (escape : Char -> String) (s : String) : String :=
  "\"" ++ String.join (s.toList.map escape) ++ "\""

/-!
## Strings of a JSON text

Only the quote, the backslash and the control characters below the space are
escaped.
-/

def jsonEscape (c : Char) : String :=
  if c = '"' then "\\\""
  else if c = '\\' then "\\\\"
  else if c = '\x08' then "\\b"
  else if c = '\x0c' then "\\f"
  else if c = '\n' then "\\n"
  else if c = '\r' then "\\r"
  else if c = '\t' then "\\t"
  else if c.toNat < 16 then "\\u000" ++ hexText c.toNat
  else if c.toNat < 32 then "\\u00" ++ hexText c.toNat
  else c.toString

def jsonQuoted (s : String) : String :=
  between jsonEscape s

/-!
## Keys in messages

Here every character that cannot be seen by itself is escaped, by its code point
in hexadecimal digits between braces unless it has a short form.
-/

def keyEscape (c : Char) : String :=
  if c = '\x00' then "\\0"
  else if c = '\t' then "\\t"
  else if c = '\r' then "\\r"
  else if c = '\n' then "\\n"
  else if c = '\\' then "\\\\"
  else if c = '"' then "\\\""
  else if isUnseen c then "\\u\x7b" ++ hexText c.toNat ++ "\x7d"
  else c.toString

def keyQuoted (s : String) : String :=
  between keyEscape s

end Text
end DocumentMapper

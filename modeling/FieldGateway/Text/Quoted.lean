import FieldGateway.Text.Digits
import FieldGateway.Text.Unprintable

namespace FieldGateway.Text

-- How a text is shown inside a message: between double quotes, with short escapes for the
-- common controls and `\u` with braces for everything else that would not be visible.
-- A single quote is left as it is.
def quotedChar (c : Char) : Text :=
  if c = '"' then ['\\', '"']
  else if c = '\\' then ['\\', '\\']
  else if c = '\n' then ['\\', 'n']
  else if c = '\r' then ['\\', 'r']
  else if c = '\t' then ['\\', 't']
  else if c.toNat = 0 then ['\\', '0']
  else if isUnprintable c then ['\\', 'u', '{'] ++ hex c.toNat ++ ['}']
  else [c]

def quoted (t : Text) : Text := '"' :: t.flatMap quotedChar ++ ['"']

end FieldGateway.Text

import FieldGateway.Json.Basic

namespace FieldGateway.Json

-- Only the quote, the backslash and the controls below the space are escaped.
def escapedChar (c : Char) : Text :=
  if c = '"' then ['\\', '"']
  else if c = '\\' then ['\\', '\\']
  else if c = '\n' then ['\\', 'n']
  else if c = '\r' then ['\\', 'r']
  else if c = '\t' then ['\\', 't']
  else if c.toNat = 8 then ['\\', 'b']
  else if c.toNat = 12 then ['\\', 'f']
  else if c.toNat < 32 then ['\\', 'u', '0', '0'] ++ Text.hexPadded 2 c.toNat
  else [c]

def quotedText (t : Text) : Text := '"' :: t.flatMap escapedChar ++ ['"']

mutual
def render : Json → Text
  | .null => ['n', 'u', 'l', 'l']
  | .bool true => ['t', 'r', 'u', 'e']
  | .bool false => ['f', 'a', 'l', 's', 'e']
  | .number n => n.text
  | .text t => quotedText t
  | .array [] => ['[', ']']
  | .array (item :: items) => '[' :: render item ++ renderItems items
  | .object [] => ['{', '}']
  | .object ((key, value) :: fields) => '{' :: quotedText key ++ ':' :: render value ++ renderFields fields
def renderItems : List Json → Text
  | [] => [']']
  | item :: items => ',' :: render item ++ renderItems items
def renderFields : List (Text × Json) → Text
  | [] => ['}']
  | (key, value) :: fields => ',' :: quotedText key ++ ':' :: render value ++ renderFields fields
end

def renderWritten : List (Text × Text) → Text
  | [] => ['{', '}']
  | (key, value) :: fields =>
    '{' :: quotedText key ++ ':' :: value ++ fields.flatMap (fun (key, value) => ',' :: quotedText key ++ ':' :: value) ++
      ['}']

end FieldGateway.Json

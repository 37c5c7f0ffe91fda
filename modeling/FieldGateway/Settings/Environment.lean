import FieldGateway.Settings.Layer

-- The layer that environment variables make. Their names begin with the prefix and two
-- underscores; two more stand wherever a key path has a point. The case of ASCII letters does
-- not count. The settings library lowers all letters; other letters are kept as they are here.
namespace FieldGateway

abbrev Environment := List (Text × Text)

namespace Environment

def separator : Text := "__"

def pointed : Text → Text
  | '_' :: '_' :: rest => '.' :: pointed rest
  | c :: rest => c :: pointed rest
  | [] => []

def key? (start name : Text) : Option Text :=
  (Text.after? (Text.lower (start ++ separator)) (Text.lower name)).map pointed

-- A value is a bool, an integer or a number if it reads as one, tried in this order.
def setting (value : Text) : Setting :=
  let word := Text.lower value
  if word = "true" then .bool true
  else if word = "false" then .bool false
  else match Text.signed? 10 i64Least i64Greatest value with
    | some i => .integer i
    | none => match Binary.read? .double value with
      | some x => .real x
      | none => .text value

def layer (start : Text) (e : Environment) : Setting.Layer :=
  e.foldl (fun layer entry =>
    match key? start entry.1 with
    | some key => Table.put key (setting entry.2) layer
    | none => layer) []

end Environment
end FieldGateway

import FieldGateway.Binary.Reader
import FieldGateway.Table

namespace FieldGateway

-- The values of TOML documents. Points in time are known by their text.
inductive Toml where
  | text (value : Text)
  | integer (value : Int)
  | real (value : Binary .double)
  | bool (value : Bool)
  | moment (text : Text)
  | list (items : List Toml)
  | table (entries : List (Text × Toml))

end FieldGateway

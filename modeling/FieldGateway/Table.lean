import FieldGateway.Text.Basic

namespace FieldGateway

-- Values under names, in ascending order of the names, each name once.
abbrev Table (α : Type) := List (Text × α)

namespace Table

def put (key : Text) (value : α) : Table α → Table α
  | [] => [(key, value)]
  | (k, v) :: rest =>
    if Text.precedes key k then (key, value) :: (k, v) :: rest
    else if key = k then (key, value) :: rest
    else (k, v) :: put key value rest

def get? (key : Text) : Table α → Option α
  | [] => none
  | (k, v) :: rest => if k = key then some v else get? key rest

def erase (key : Text) : Table α → Table α
  | [] => []
  | (k, v) :: rest => if k = key then rest else (k, v) :: erase key rest

def names (t : Table α) : List Text := t.map Prod.fst

end Table
end FieldGateway

import FieldGateway.Topic.Filter
import FieldGateway.Fault

namespace FieldGateway.Topic

structure Template where
  levels : List Text
deriving DecidableEq

inductive TemplateDefect where
  | takesAllLevels (given : Text)
  | tooManyPlaces (given : Text)
deriving DecidableEq

def TemplateDefect.message : TemplateDefect → Text
  | takesAllLevels given => "dataTopic " ++ given ++ " must not contain #"
  | tooManyPlaces given => "dataTopic " ++ given ++ " has more than two + levels"

namespace Template

def read (given : Text) : Except TemplateDefect Template :=
  let ls := Topic.levels given
  if ls.any (· = allLevels) then .error (.takesAllLevels given)
  else if 2 < (ls.filter (· = oneLevel)).length then .error (.tooManyPlaces given)
  else .ok ⟨ls⟩

def filled : (names levels : List Text) → List Text
  | _, [] => []
  | [], levels => levels
  | name :: names, level :: levels =>
    if level = oneLevel then name :: filled names levels
    else level :: filled (name :: names) levels

def render (t : Template) (device resource : Text) : Text :=
  joined (filled [device, resource] t.levels)

def standard : Text := "devices/+/data/+"

end Template
end FieldGateway.Topic

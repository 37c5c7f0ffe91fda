import FieldGateway.Settings.Environment
import FieldGateway.Settings.File

-- The settings of the gateway itself: how it logs, and where it finds its plan.
namespace FieldGateway

structure Settings where
  level : Text
  json : Bool
  directory : Text
deriving DecidableEq

namespace Settings

def standard : Settings := ⟨"info", false, "./config"⟩

def environmentPrefix : Text := "devgate"

def standardLayer : Setting.Layer :=
  [("agent", .table [("config_dir", .text standard.directory)]),
    ("logging", .table [("json", .bool standard.json), ("level", .text standard.level)])]

-- The fields of a group stand in a table under their names, or in a list in order.
def field (place : Nat) (name : Text) : Setting → Option (Option Setting)
  | .table entries => some (Table.get? name entries)
  | .list items => some items[place]?
  | _ => none

def fieldOr (standard : α) (decode : Setting → Option α) (place : Nat) (name : Text) (group : Setting) :
    Option α :=
  match field place name group with
  | none => none
  | some none => some standard
  | some (some value) => decode value

def group (name : Text) (root : Setting) : Setting := (Table.get? name root.entries).getD (.table [])

def ofSetting? (root : Setting) : Option Settings := do
  let logging := group "logging" root
  let level ← fieldOr standard.level Setting.toText? 0 "level" logging
  let json ← fieldOr standard.json Setting.toBool? 1 "json" logging
  let directory ← fieldOr standard.directory Setting.toText? 0 "config_dir" (group "agent" root)
  some ⟨level, json, directory⟩

-- Over the standard settings goes the file, and over that the environment. There may be
-- neither.
def load (disk : Disk) (file : Option Text) (start : Option Text) (environment : Environment) :
    Option Settings :=
  let fileLayer : Option Setting.Layer := match file with
    | some file => Setting.fileLayer disk file
    | none => some []
  let environmentLayer : Setting.Layer := match start with
    | some start => environment.layer start
    | none => []
  match fileLayer with
  | none => none
  | some fileLayer => ofSetting? (.ofLayers [standardLayer, fileLayer, environmentLayer])

end Settings
end FieldGateway

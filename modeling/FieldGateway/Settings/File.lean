import FieldGateway.Disk
import FieldGateway.Json.Reader
import FieldGateway.Settings.Layer
import FieldGateway.Toml.Document
import FieldGateway.Yaml.Document

-- Settings files. The ending of the name says how a file is written. Of the formats that a
-- settings file may have, ini, ron and json5 are left out: a file in one of them is refused.
namespace FieldGateway

inductive SettingsFormat where
  | toml
  | json
  | yaml
deriving DecidableEq

namespace SettingsFormat

def endings : List (Text × SettingsFormat) :=
  [("toml", .toml), ("json", .json), ("yaml", .yaml), ("yml", .yaml)]

def ofName? (name : Text) : Option SettingsFormat :=
  match Text.cutLast? '.' name with
  | some (_ :: _, ending) => endings.lookup ending
  | _ => none

def read? (format : SettingsFormat) (content : Text) : Option Setting :=
  match format with
  | .toml => (Toml.document? content).map fun entries => Setting.ofToml (.table entries)
  | .json => (Json.read? content).map Setting.ofJson
  | .yaml => match Yaml.documents? content with
    | some [] => some (.table [])
    | some [document] => Setting.ofYaml? document
    | _ => none

end SettingsFormat

-- A file that is not there adds nothing. One that is there must hold a table.
def Setting.fileLayer (disk : Disk) (file : Text) : Option Setting.Layer :=
  let path := Path.ofText file
  match disk.bytes path with
  | .error .missing | .error .notDirectory => some []
  | .error _ => none
  | .ok bytes =>
    match SettingsFormat.ofName? (path.getLast?.getD []), Text.ofBytes? bytes with
    | some format, some content => match format.read? content with
      | some (.table entries) => some entries
      | _ => none
    | _, _ => none

end FieldGateway

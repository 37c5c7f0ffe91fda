import FieldGateway.Disk
import FieldGateway.Schema.Device
import FieldGateway.Yaml.Document

-- What a gateway is to run. It stands in three files of one directory.
namespace FieldGateway

inductive Failure where
  | unreadable (file : Text) (reason : FileFault)
  | malformed (file : Text)
  | fault (fault : Fault)

namespace Failure

def message : Failure → Text
  | unreadable file reason => "I/O error in " ++ file ++ ": " ++ reason.message
  | malformed file => "YAML error in " ++ file
  | fault f => f.message

def invalid (file detail : Text) : Failure := fault (.configInvalid (file ++ ": " ++ detail))

end Failure

-- The first document of a file. A file without a document, or with a null one, has the value
-- that is named for that.
def Yaml.load (disk : Disk) (file : Text) (whenEmpty : α) (decode : Schema.Decoder α) : Except Failure α :=
  match disk.text (Path.ofText file) with
  | .error reason => .error (.unreadable file reason)
  | .ok content => match documents? content with
    | none => .error (.malformed file)
    | some [] => .ok whenEmpty
    | some (tree :: _) => match tree.toJson with
      | .error defect => .error (.invalid file defect.message)
      | .ok .null => .ok whenEmpty
      | .ok given => match decode given with
        | .error defect => .error (.invalid file defect.message)
        | .ok value => .ok value

structure Plan where
  buses : List BusSpec
  drivers : List DriverSpec
  devices : List Device

namespace Plan

def busFile : Text := "config.yaml"
def driverFile : Text := "drivers.yaml"
def deviceFile : Text := "devices.yaml"

def inside (directory file : Text) : Text :=
  if directory.isEmpty || directory.getLast? = some '/' then directory ++ file
  else directory ++ ('/' :: file)

def listed (title name : Text) (decode : Schema.Decoder α) : Schema.Decoder (List α) :=
  Schema.FieldSet.decode title (.defaulted name [] (Schema.Decoder.list decode))

def load (disk : Disk) (directory : Text) : Except Failure Plan :=
  let list {α : Type} (file title name : Text) (decode : Schema.Decoder α) : Except Failure (List α) :=
    Yaml.load disk (inside directory file) [] (listed title name decode)
  match list busFile "MessageBusList" "messageBuses" BusSpec.decode with
  | .error failure => .error failure
  | .ok buses => match list driverFile "DriverList" "drivers" DriverSpec.decode with
    | .error failure => .error failure
    | .ok drivers => match list deviceFile "DeviceList" "devices" Device.decode with
      | .error failure => .error failure
      | .ok devices => .ok ⟨buses, drivers, devices⟩

end Plan
end FieldGateway

import FieldGateway.Fault
import FieldGateway.Text.Bytes

-- The files that a gateway can read, by their paths.
namespace FieldGateway

abbrev Path := List Text

structure Disk where
  files : List (Path × List Byte)

inductive FileFault where
  | missing
  | notDirectory
  | isDirectory
  | notText
deriving DecidableEq

def FileFault.message : FileFault → Text
  | missing => "No such file or directory (os error 2)"
  | notDirectory => "Not a directory (os error 20)"
  | isDirectory => "Is a directory (os error 21)"
  | notText => "stream did not contain valid UTF-8"

def Path.ofText (t : Text) : Path :=
  (Text.splitAll '/' t).filter fun step => !step.isEmpty && step != ['.']

namespace Disk

def bytes (d : Disk) (path : Path) : Except FileFault (List Byte) :=
  match d.files.lookup path with
  | some content => .ok content
  | none =>
    if path.isEmpty || d.files.any (fun file => path.isPrefixOf file.1) then .error .isDirectory
    else if d.files.any (fun file => file.1.isPrefixOf path) then .error .notDirectory
    else .error .missing

def text (d : Disk) (path : Path) : Except FileFault Text :=
  match d.bytes path with
  | .error fault => .error fault
  | .ok content => match Text.ofBytes? content with
    | some t => .ok t
    | none => .error .notText

end Disk
end FieldGateway

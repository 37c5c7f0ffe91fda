import FieldGateway.Fault
import FieldGateway.Text.Digits

namespace FieldGateway.Network

structure Host where
  name : Text
  tcpPort : Nat
deriving DecidableEq

inductive HostDefect where
  | missing
  | unreadablePort (given : Text)
deriving DecidableEq

def HostDefect.message : HostDefect → Text
  | missing => "the MQTT broker host is required"
  | unreadablePort given => "invalid MQTT broker port in " ++ given

namespace Host

def standardPort : Nat := 1883
def greatestPort : Nat := 65535

def schemes : List Text := ["tcp://", "mqtt://"]

def bare (given : Text) : Text :=
  Text.dropTrailing (· = '/') ((schemes.findSome? fun s => Text.after? s given).getD given)

def read (given : Text) : Except HostDefect Host :=
  let text := bare given
  if text.isEmpty then .error .missing
  else match Text.cutLast? ':' text with
    | none => .ok ⟨text, standardPort⟩
    | some (name, digits) => match Text.unsigned? 10 greatestPort digits with
      | some n => .ok ⟨name, n⟩
      | none => .error (.unreadablePort given)

end Host
end FieldGateway.Network

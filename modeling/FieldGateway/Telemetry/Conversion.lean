import FieldGateway.Binary.Reader
import FieldGateway.Fault
import FieldGateway.Json.Printer
import FieldGateway.Telemetry.Value
import FieldGateway.Text.Blank
import FieldGateway.Text.Quoted

-- From raw readings to typed values. Integers keep their exact value on the way, and the range
-- of the declared type is checked before anything is narrowed.
namespace FieldGateway

inductive Misfit where
  | numeralTooLarge (numeral : Json.Numeral)
  | unreadableNumber (given : Text)
  | notNumeric (reading : Json)
  | unreadableBool (given : Text)
  | notBool (reading : Json)
  | notText (reading : Json)
  | outOfRange (reading : Json) (type : ValueType)
  | unknownType (name : Text)

namespace Misfit

def message : Misfit → Text
  | numeralTooLarge numeral => "invalid number " ++ numeral.text
  | unreadableNumber given => "unable to parse " ++ Text.quoted given ++ " as a number"
  | notNumeric reading => "unable to cast " ++ reading.render ++ " to a number"
  | unreadableBool given => "unable to parse " ++ Text.quoted given ++ " as a bool"
  | notBool reading => "unable to cast " ++ reading.render ++ " to a bool"
  | notText reading => "unable to cast " ++ reading.render ++ " to a string"
  | outOfRange reading type => reading.render ++ " is out of range for " ++ type.name
  | unknownType name => "none supported value type: " ++ name

end Misfit

-- A number between the reading and its value: whole numbers of up to 128 bits stay exact.
inductive Quantity where
  | whole (value : Int)
  | real (value : Binary .double)

def signedWhole? (negative : Bool) (i : Int) : Option Quantity :=
  let value := if negative then -i else i
  if i128Least ≤ value ∧ value ≤ i128Greatest then some (.whole value) else none

def wholeText? (negative : Bool) (base : Nat) (body : Text) : Option Quantity :=
  (Text.signed? base i128Least i128Greatest body).bind (signedWhole? negative)

-- A sign, then a whole number in hexadecimal behind its mark or in decimal; what is no whole
-- number of 128 bits is tried as a decimal with point and exponent.
def Quantity.read? (t : Text) : Option Quantity :=
  let (negative, body) := splitSign t
  let signedTwice : Bool := match body with
    | c :: _ => c = '+' || c = '-'
    | [] => false
  if signedTwice then none
  else match (Text.after? "0x" body).orElse fun _ => Text.after? "0X" body with
    | some digits => wholeText? negative 16 digits
    | none =>
      match wholeText? negative 10 body with
      | some quantity => some quantity
      | none => (Binary.read? .double t).map .real

def Quantity.ofReading : Json → Except Misfit Quantity
  | .bool b => .ok (.whole (if b then 1 else 0))
  | .number n =>
    match n.toSigned? i64Least i64Greatest, n.toUnsigned? u64Greatest, n.toDouble? with
    | some i, _, _ => .ok (.whole i)
    | none, some u, _ => .ok (.whole u)
    | none, none, some x => .ok (.real (.finite x))
    | none, none, none => .error (.numeralTooLarge n)
  | .text t =>
    match Quantity.read? (Text.trim t) with
    | some quantity => .ok quantity
    | none => .error (.unreadableNumber t)
  | reading => .error (.notNumeric reading)

def Quantity.toInt? : Quantity → Option Int
  | .whole i => some i
  | .real (.finite x) => some x.truncated
  | .real _ => none

def Quantity.toDouble : Quantity → Binary .double
  | .whole i => Binary.ofInt .double i
  | .real x => x

namespace Value

def ofInteger (type : IntegerType) (reading : Json) : Except Misfit Value := do
  let quantity ← Quantity.ofReading reading
  match quantity.toInt? with
  | some i =>
    if within : type.Holds i then .ok (.integer type i within)
    else .error (.outOfRange reading (.integer type))
  | none => .error (.outOfRange reading (.integer type))

def ofDouble (reading : Json) : Except Misfit Value := do
  let quantity ← Quantity.ofReading reading
  let x := quantity.toDouble
  if x.isFinite then .ok (.double x) else .error (.outOfRange reading .double)

-- The range is checked on the double, before rounding to single precision.
def ofSingle (reading : Json) : Except Misfit Value := do
  let quantity ← Quantity.ofReading reading
  let x := quantity.toDouble
  if x.isNan || x.exceeds .single then .error (.outOfRange reading .single)
  else .ok (.single (Binary.convert .single x))

def truths : List Text := ["1", "t", "T", "TRUE", "true", "True"]
def falsehoods : List Text := ["0", "f", "F", "FALSE", "false", "False"]

-- A number is true unless its double is zero, or is too large to be one.
def ofBool : Json → Except Misfit Value
  | .bool b => .ok (.bool b)
  | .number n => .ok (.bool ((n.toDouble?.map fun x => !x.isZero).getD false))
  | .text t =>
    if t ∈ truths then .ok (.bool true)
    else if t ∈ falsehoods then .ok (.bool false)
    else .error (.unreadableBool t)
  | reading => .error (.notBool reading)

def ofText : Json → Except Misfit Value
  | .text t => .ok (.text t)
  | .number n => .ok (.text n.text)
  | .bool true => .ok (.text "true")
  | .bool false => .ok (.text "false")
  | reading => .error (.notText reading)

def ofReading (type : ValueType) (reading : Json) : Except Misfit Value :=
  match type with
  | .bool => ofBool reading
  | .text => ofText reading
  | .integer type => ofInteger type reading
  | .single => ofSingle reading
  | .double => ofDouble reading
  | .object => .ok (.object reading)
  | .other name => .error (.unknownType name)

end Value

def Telemetry.ofReading (name : Text) (type : ValueType) (stamp : Int) (reading : Json) :
    Attempt Telemetry :=
  match Value.ofReading type reading with
  | .ok value => .ok ⟨name, type, value, stamp⟩
  | .error misfit =>
    .error (.unsupportedValue ("fail to parse " ++ name ++ " reading, " ++ misfit.message))

end FieldGateway

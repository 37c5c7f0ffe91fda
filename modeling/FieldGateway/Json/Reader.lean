import FieldGateway.Json.Token

-- Documents are built from their tokens with a stack of open arrays and objects, so that
-- reading recurses on the tokens alone. No key has a meaning of its own: an object whose first
-- key is the mark by which a number library hands on its numbers is an object like any other.
namespace FieldGateway.Json

inductive Frame where
  | array (itemsBefore : List Json)
  | object (fields : Fields) (key : Text)

-- What may come next. The items of an open array are kept in reverse.
inductive Reading where
  | value (stack : List Frame)
  | firstItem (stack : List Frame)
  | afterItem (items : List Json) (stack : List Frame)
  | firstKey (stack : List Frame)
  | nextKey (fields : Fields) (stack : List Frame)
  | afterKey (fields : Fields) (key : Text) (stack : List Frame)
  | afterMember (fields : Fields) (stack : List Frame)
  | finished (document : Json)

def deepest : Nat := 127

def Reading.deliver (value : Json) : List Frame → Reading
  | [] => .finished value
  | .array before :: stack => .afterItem (value :: before) stack
  | .object fields key :: stack => .afterMember (Table.put key value fields) stack

def Reading.start (token : Token) (stack : List Frame) : Option Reading :=
  match token with
  | .null => some (.deliver .null stack)
  | .bool b => some (.deliver (.bool b) stack)
  | .number n => some (.deliver (.number n) stack)
  | .text t => some (.deliver (.text t) stack)
  | .openArray => if stack.length < deepest then some (.firstItem stack) else none
  | .openObject => if stack.length < deepest then some (.firstKey stack) else none
  | _ => none

def Reading.step (token : Token) : Reading → Option Reading
  | .value stack => Reading.start token stack
  | .firstItem stack =>
    if token = .closeArray then some (.deliver (.array []) stack)
    else Reading.start token (.array [] :: stack)
  | .afterItem items stack =>
    if token = .comma then some (.value (.array items :: stack))
    else if token = .closeArray then some (.deliver (.array items.reverse) stack)
    else none
  | .firstKey stack =>
    match token with
    | .closeObject => some (.deliver (.object []) stack)
    | .text key => some (.afterKey [] key stack)
    | _ => none
  | .nextKey fields stack =>
    match token with
    | .text key => some (.afterKey fields key stack)
    | _ => none
  | .afterKey fields key stack =>
    if token = .colon then some (.value (.object fields key :: stack)) else none
  | .afterMember fields stack =>
    if token = .comma then some (.nextKey fields stack)
    else if token = .closeObject then some (.deliver (.object fields) stack)
    else none
  | .finished _ => none

def Reading.run : List Token → Reading → Option Reading
  | [], reading => some reading
  | token :: tokens, reading =>
    match reading.step token with
    | none => none
    | some next => Reading.run tokens next

def read? (t : Text) : Option Json :=
  match tokens? t with
  | none => none
  | some tokens =>
    match Reading.run tokens (.value []) with
    | some (.finished document) => some document
    | _ => none

end FieldGateway.Json

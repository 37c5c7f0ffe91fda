import FieldGateway.Text.Basic

-- Topics are levels between slashes. A filter stands for many topics: `+` takes any one level
-- and `#` all that remain.
namespace FieldGateway.Topic

def levels (t : Text) : List Text := Text.splitAll '/' t

def joined (ls : List Text) : Text := Text.joinAll '/' ls

def oneLevel : Text := ['+']
def allLevels : Text := ['#']

def wellPlaced : List Text → Bool
  | [] => true
  | [last] => last = allLevels || last = oneLevel || last.all fun c => c ≠ '+' && c ≠ '#'
  | level :: rest => (level = oneLevel || level.all fun c => c ≠ '+' && c ≠ '#') && wellPlaced rest

def isFilter (t : Text) : Bool := !t.isEmpty && wellPlaced (levels t)

-- The levels that the wildcards of a filter take, in order, when the topic matches it.
def captured? : (filter topic : List Text) → Option (List Text)
  | [], [] => some []
  | [], _ :: _ => none
  | pattern :: filter, topic =>
    if pattern = allLevels then some topic
    else match topic with
      | [] => none
      | level :: topic =>
        if pattern = oneLevel then (captured? filter topic).map (level :: ·)
        else if pattern = level then captured? filter topic
        else none

def deviceName? (filter topic : Text) : Option Text :=
  match captured? (levels filter) (levels topic) with
  | some ls => if (joined ls).isEmpty then none else some (joined ls)
  | none => none

end FieldGateway.Topic

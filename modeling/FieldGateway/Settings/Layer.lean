import FieldGateway.Json.Basic
import FieldGateway.Text.Digits
import FieldGateway.Toml.Basic
import FieldGateway.Yaml.Tree

-- Settings are merged from layers. A layer assigns values to key paths; tables are merged, and
-- everything else replaces what was there.
namespace FieldGateway

inductive Setting where
  | empty
  | bool (value : Bool)
  | integer (value : Int)
  | real (value : Binary .double)
  | text (value : Text)
  | list (items : List Setting)
  | table (entries : List (Text × Setting))

namespace Setting

def entries : Setting → Table Setting
  | .table entries => entries
  | _ => []

def items : Setting → List Setting
  | .list items => items
  | _ => []

-- A table goes into what is there key by key. If that is no table it is given up for one, but
-- only when there is a key to go into it.
mutual
def merge (key : Text) : Setting → Table Setting → Table Setting
  | .table incoming, root =>
    Table.put key (mergeEach incoming ((Table.get? key root).getD (.table []))) root
  | value, root => Table.put key value root
def mergeEach : List (Text × Setting) → Setting → Setting
  | [], target => target
  | (key, value) :: rest, target => mergeEach rest (.table (merge key value target.entries))
end

inductive Step where
  | key (name : Text)
  | item (place : Nat)
deriving DecidableEq

def replaceAt (place : Nat) (value : Setting) (items : List Setting) : List Setting :=
  let grown := items ++ List.replicate (place + 1 - items.length) .empty
  grown.set place value

def assign (value : Setting) : List Step → Setting → Setting
  | [], _ => value
  | [.key name], current => .table (merge name value current.entries)
  | [.item place], current => .list (replaceAt place value current.items)
  | .key name :: path, current =>
    .table (Table.put name (assign value path ((Table.get? name current.entries).getD .empty)) current.entries)
  | .item place :: path, current =>
    .list (replaceAt place (assign value path ((current.items[place]?).getD .empty)) current.items)

def isKeyChar (c : Char) : Bool := c.isAlphanum || c = ' ' || c = '_' || c = '-'

def isBlank (c : Char) : Bool := c = ' ' || c = '\t'

-- A place is at most the greatest signed integer. Places counted from the end are not read here.
def place? (t : Text) : Option Nat :=
  (Text.natural? 10 (Text.trimWhere isBlank t)).filter fun n => (n : Int) ≤ i64Greatest

def steps? : (fuel : Nat) → Text → Option (List Step)
  | _, [] => some []
  | 0, _ => none
  | fuel + 1, '.' :: rest =>
    let name := rest.takeWhile isKeyChar
    if name.isEmpty then none
    else (steps? fuel (rest.dropWhile isKeyChar)).map (.key name :: ·)
  | fuel + 1, '[' :: rest => match Text.cutFirst? ']' rest with
    | none => none
    | some (place, rest) => match place? place with
      | none => none
      | some n => (steps? fuel rest).map (.item n :: ·)
  | _ + 1, _ => none

-- A key that is no path is taken as it stands.
def path (key : Text) : List Step :=
  let name := key.takeWhile isKeyChar
  match if name.isEmpty then none else steps? key.length (key.dropWhile isKeyChar) with
  | some steps => .key name :: steps
  | none => [.key key]

abbrev Layer := Table Setting

def apply (root : Setting) (layer : Layer) : Setting :=
  layer.foldl (fun root entry => assign entry.2 (path entry.1) root) root

def ofLayers (layers : List Layer) : Setting := layers.foldl apply (.table [])

mutual
def ofToml : Toml → Setting
  | .text t | .moment t => .text t
  | .integer i => .integer i
  | .real x => .real x
  | .bool b => .bool b
  | .list items => .list (ofTomlItems items)
  | .table entries => .table (ofTomlEntries entries)
def ofTomlItems : List Toml → List Setting
  | [] => []
  | item :: items => ofToml item :: ofTomlItems items
def ofTomlEntries : List (Text × Toml) → List (Text × Setting)
  | [] => []
  | (key, value) :: rest => (key, ofToml value) :: ofTomlEntries rest
end

mutual
def ofJson : Json → Setting
  | .null => .empty
  | .bool b => .bool b
  | .number n => match n.toSigned? i64Least i64Greatest with
    | some i => .integer i
    | none => .real (n.toBinary .double)
  | .text t => .text t
  | .array items => .list (ofJsonItems items)
  | .object fields => .table (ofJsonFields fields)
def ofJsonItems : List Json → List Setting
  | [] => []
  | item :: items => ofJson item :: ofJsonItems items
def ofJsonFields : List (Text × Json) → List (Text × Setting)
  | [] => []
  | (key, value) :: rest => (key, ofJson value) :: ofJsonFields rest
end

def yamlKey? : Yaml → Option Text
  | .text t => some t
  | .integer i => some (Text.ofInt i)
  | _ => none

mutual
def ofYaml? : Yaml → Option Setting
  | .null | .alias _ | .bad => some .empty
  | .bool b => some (.bool b)
  | .integer i => some (.integer i)
  | .real t => (Binary.read? .double t).map .real
  | .text t => some (.text t)
  | .list items => (ofYamlItems? items).map .list
  | .map entries => (ofYamlEntries? [] entries).map .table
def ofYamlItems? : List Yaml → Option (List Setting)
  | [] => some []
  | item :: items => match ofYaml? item, ofYamlItems? items with
    | some item, some items => some (item :: items)
    | _, _ => none
def ofYamlEntries? (read : Table Setting) : List (Yaml × Yaml) → Option (Table Setting)
  | [] => some read
  | (key, value) :: rest => match yamlKey? key, ofYaml? value with
    | some name, some setting => ofYamlEntries? (Table.put name setting read) rest
    | _, _ => none
end

def toText? : Setting → Option Text
  | .text t => some t
  | .bool true => some "true"
  | .bool false => some "false"
  | .integer i => some (Text.ofInt i)
  | .real (.finite x) => some (Json.Numeral.spelledOut x).text
  | .real (.infinite negative) => some (if negative then "-inf" else "inf")
  | .real .nan => some "NaN"
  | .empty | .list _ | .table _ => none

def zero : Finite .double := ⟨false, 0, -1074, by decide⟩

def trueWords : List Text := ["1", "true", "on", "yes"]
def falseWords : List Text := ["0", "false", "off", "no"]

def toBool? : Setting → Option Bool
  | .bool b => some b
  | .integer i => some (i != 0)
  | .real x => some (!x.equals (.finite zero))
  | .text t =>
    let word := Text.lower t
    if word ∈ trueWords then some true else if word ∈ falseWords then some false else none
  | .empty | .list _ | .table _ => none

end Setting
end FieldGateway

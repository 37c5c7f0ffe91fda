namespace FieldGateway

-- Text is handled as its list of characters: readers and writers recurse on it,
-- and comparing two lists compares code points, which is also the order of their bytes.
abbrev Text := List Char

instance textOfLiteral : Coe String Text := ⟨String.toList⟩

namespace Text

instance decidableMem (t : Text) (ts : List Text) : Decidable (t ∈ ts) := inferInstance

def after? : (start t : Text) → Option Text
  | [], t => some t
  | _ :: _, [] => none
  | c :: start, d :: t => if c = d then after? start t else none

def splitAll (separator : Char) : Text → List Text
  | [] => [[]]
  | c :: rest =>
    if c = separator then [] :: splitAll separator rest
    else match splitAll separator rest with
      | [] => [[c]]
      | piece :: pieces => (c :: piece) :: pieces

def joinAll (separator : Char) : List Text → Text
  | [] => []
  | [piece] => piece
  | piece :: next :: pieces => piece ++ separator :: joinAll separator (next :: pieces)

def cutFirst? (separator : Char) : Text → Option (Text × Text)
  | [] => none
  | c :: rest =>
    if c = separator then some ([], rest)
    else (cutFirst? separator rest).map fun (before, behind) => (c :: before, behind)

def cutLast? (separator : Char) : Text → Option (Text × Text)
  | [] => none
  | c :: rest =>
    match cutLast? separator rest with
    | some (before, behind) => some (c :: before, behind)
    | none => if c = separator then some ([], rest) else none

def dropTrailing (drops : Char → Bool) (t : Text) : Text :=
  (t.reverse.dropWhile drops).reverse

def trimWhere (drops : Char → Bool) (t : Text) : Text :=
  dropTrailing drops (t.dropWhile drops)

def substitute (old : Char) (filler : Text) (t : Text) : Text :=
  t.flatMap fun c => if c = old then filler else [c]

-- ASCII letters only; every other character is its own lower case here.
def lower (t : Text) : Text := t.map Char.toLower

def separated (between : Text) : List Text → Text
  | [] => []
  | [piece] => piece
  | piece :: next :: pieces => piece ++ between ++ separated between (next :: pieces)

def precedes : (a b : Text) → Bool
  | [], [] => false
  | [], _ :: _ => true
  | _ :: _, [] => false
  | c :: a, d :: b => if c.toNat < d.toNat then true else if d.toNat < c.toNat then false else precedes a b

def insertSorted (t : Text) : List Text → List Text
  | [] => [t]
  | u :: rest => if precedes t u then t :: u :: rest else if t = u then u :: rest else u :: insertSorted t rest

def sorted (ts : List Text) : List Text := ts.foldr insertSorted []

end Text
end FieldGateway

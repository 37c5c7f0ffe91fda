import FieldGateway.Toml.Number

-- Documents: lines that give values to keys, under the headers of tables. Which tables a key
-- may still go into depends on how they came to be.
namespace FieldGateway.Toml

inductive Origin where
  | implied
  | header
  | dotted
deriving DecidableEq

-- A table that grows. Of a table that occurs many times only the last one does.
inductive Node where
  | value (value : Toml)
  | table (origin : Origin) (entries : List (Text × Node))
  | tables (earlier : List Toml) (last : List (Text × Node))

abbrev Entries := Table Node

mutual
def Node.toToml : Node → Toml
  | .value v => v
  | .table _ entries => .table (entriesToToml entries)
  | .tables earlier last => .list (earlier ++ [.table (entriesToToml last)])
def entriesToToml : List (Text × Node) → List (Text × Toml)
  | [] => []
  | (key, node) :: rest => (key, node.toToml) :: entriesToToml rest
end

def Entries.define (entries : Entries) (value : Toml) : List Text → Option Entries
  | [] => none
  | [key] => match Table.get? key entries with
    | none => some (Table.put key (.value value) entries)
    | some _ => none
  | key :: path =>
    let inner : Option Entries := match Table.get? key entries with
      | none => some []
      | some (.table .dotted inner) => some inner
      | some _ => none
    match inner with
    | none => none
    | some inner => (Entries.define inner value path).map fun inner =>
      Table.put key (.table .dotted inner) entries

def Entries.change (entries : Entries) (f : Entries → Option Entries) : List Text → Option Entries
  | [] => f entries
  | key :: path => match Table.get? key entries with
    | none => (Entries.change [] f path).map fun inner => Table.put key (.table .implied inner) entries
    | some (.table .dotted _) => none
    | some (.table origin inner) =>
      (Entries.change inner f path).map fun inner => Table.put key (.table origin inner) entries
    | some (.tables earlier last) =>
      (Entries.change last f path).map fun last => Table.put key (.tables earlier last) entries
    | some (.value _) => none

def Entries.openTable (key : Text) (entries : Entries) : Option Entries :=
  match Table.get? key entries with
  | none => some (Table.put key (.table .header []) entries)
  | some (.table .implied inner) => some (Table.put key (.table .header inner) entries)
  | some _ => none

def Entries.openNext (key : Text) (entries : Entries) : Option Entries :=
  match Table.get? key entries with
  | none => some (Table.put key (.tables [] []) entries)
  | some (.tables earlier last) =>
    some (Table.put key (.tables (earlier ++ [.table (entriesToToml last)]) []) entries)
  | some _ => none

def dropBlank : List Token → List Token
  | .blank :: rest => rest
  | tokens => tokens

def dropFiller (tokens : List Token) : List Token :=
  tokens.dropWhile fun t => t = .blank || t = .newline || t = .comment

def key? : List Token → Option (Text × List Token)
  | .word w :: rest => some (w, rest)
  | .text t false :: rest => some (t, rest)
  | _ => none

-- Keys with points between them. Every key takes a token at least.
def path? : (fuel : Nat) → List Token → Option (List Text × List Token)
  | 0, _ => none
  | fuel + 1, tokens =>
    match key? (dropBlank tokens) with
    | none => none
    | some (key, rest) => match dropBlank rest with
      | .period :: rest => (path? fuel rest).map fun (path, rest) => (key :: path, rest)
      | rest => some ([key], rest)

mutual
def value? : (fuel : Nat) → List Token → Option (Toml × List Token)
  | 0, _ => none
  | fuel + 1, tokens =>
    match tokens with
    | .text t _ :: rest => some (.text t, rest)
    | .word w :: rest => word? w rest
    | .plus :: .word w :: rest => number? w rest
    | .openBracket :: rest => (items? fuel rest).map fun (items, rest) => (.list items, rest)
    | .openBrace :: rest =>
      match dropBlank rest with
      | .closeBrace :: rest => some (.table [], rest)
      | rest => (entries? fuel [] rest).map fun (entries, rest) => (.table (entriesToToml entries), rest)
    | _ => none
def items? : (fuel : Nat) → List Token → Option (List Toml × List Token)
  | 0, _ => none
  | fuel + 1, tokens =>
    match dropFiller tokens with
    | .closeBracket :: rest => some ([], rest)
    | tokens => match value? fuel tokens with
      | none => none
      | some (item, rest) => match dropFiller rest with
        | .comma :: rest => (items? fuel rest).map fun (items, rest) => (item :: items, rest)
        | .closeBracket :: rest => some ([item], rest)
        | _ => none
def entries? : (fuel : Nat) → Entries → List Token → Option (Entries × List Token)
  | 0, _, _ => none
  | fuel + 1, entries, tokens =>
    match definition? fuel entries tokens with
    | none => none
    | some (entries, rest) => match dropBlank rest with
      | .closeBrace :: rest => some (entries, rest)
      | .comma :: rest => entries? fuel entries (dropBlank rest)
      | _ => none
def definition? : (fuel : Nat) → Entries → List Token → Option (Entries × List Token)
  | 0, _, _ => none
  | fuel + 1, entries, tokens =>
    match path? tokens.length tokens with
    | some (path, .equals :: rest) => match value? fuel (dropBlank rest) with
      | none => none
      | some (value, rest) => (entries.define value path).map fun entries => (entries, rest)
    | _ => none
end

def endLine? (tokens : List Token) : Option (List Token) :=
  match dropBlank tokens with
  | [] => some []
  | .newline :: rest => some rest
  | .comment :: rest => some rest
  | _ => none

structure Draft where
  entries : Entries
  path : List Text

def Draft.open (d : Draft) (repeated : Bool) (path : List Text) : Option Draft :=
  match path.getLast? with
  | none => none
  | some key =>
    let add := if repeated then Entries.openNext key else Entries.openTable key
    (d.entries.change add path.dropLast).map fun entries => ⟨entries, path⟩

def header? (tokens : List Token) : Option (Bool × List Text × List Token) :=
  let (repeated, tokens) : Bool × List Token := match tokens with
    | .openBracket :: rest => (true, rest)
    | _ => (false, tokens)
  match path? tokens.length tokens, repeated with
  | some (path, .closeBracket :: rest), false => some (false, path, rest)
  | some (path, .closeBracket :: .closeBracket :: rest), true => some (true, path, rest)
  | _, _ => none

def line? (d : Draft) (tokens : List Token) : Option (Draft × List Token) :=
  match tokens with
  | .openBracket :: rest => match header? rest with
    | none => none
    | some (repeated, path, rest) => (d.open repeated path).map fun d => (d, rest)
  | _ => match path? tokens.length tokens with
    | some (path, .equals :: rest) => match value? (2 * tokens.length) (dropBlank rest) with
      | none => none
      | some (value, rest) =>
        (d.entries.change (fun entries => entries.define value path) d.path).map fun entries =>
          ({ d with entries := entries }, rest)
    | _ => none

def lines? : (fuel : Nat) → Draft → List Token → Option Draft
  | 0, _, _ => none
  | fuel + 1, d, tokens =>
    match dropFiller tokens with
    | [] => some d
    | tokens => match line? d tokens with
      | none => none
      | some (d, rest) => match endLine? rest with
        | none => none
        | some rest => lines? fuel d rest

def document? (t : Text) : Option (Table Toml) :=
  match tokens? t with
  | none => none
  | some tokens => (lines? (tokens.length + 1) ⟨[], []⟩ tokens).map fun d => entriesToToml d.entries

end FieldGateway.Toml

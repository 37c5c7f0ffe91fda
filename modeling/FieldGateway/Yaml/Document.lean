import FieldGateway.Yaml.Token
import FieldGateway.Yaml.Tree

-- From tokens to the documents of a text.
namespace FieldGateway.Yaml

-- The tokens still to come, and the anchors so far. Anchors are numbered; a name stands for the
-- last anchor of that name, and a number has a node once that node is complete.
structure Source where
  tokens : List Token
  names : List (Text × Nat)
  nodes : List (Nat × Yaml)
  anchors : Nat

namespace Source

def drop (s : Source) : Source := { s with tokens := s.tokens.drop 1 }

def head? (s : Source) : Option Token := s.tokens.head?

def declare (s : Source) (name : Text) : Nat × Source :=
  (s.anchors, { s with names := (name, s.anchors) :: s.names, anchors := s.anchors + 1 })

def complete (s : Source) (anchor : Option Nat) (node : Yaml) : Source :=
  match anchor with
  | some n => { s with nodes := (n, node) :: s.nodes }
  | none => s

def resolve (s : Source) (name : Text) : Option Yaml :=
  (s.names.lookup name).map fun n => (s.nodes.lookup n).getD .bad

end Source

-- The nodes of a mapping come in turn as keys and values. A bad node is never taken as a key:
-- the next node is tried in its place.
def paired : (key : Option Yaml) → List Yaml → List (Yaml × Yaml) → List (Yaml × Yaml)
  | _, [], entries => entries
  | none, .bad :: nodes, entries => paired none nodes entries
  | none, key :: nodes, entries => paired (some key) nodes entries
  | some key, value :: nodes, entries => paired none nodes (insert key value entries)

def mapOf (nodes : List Yaml) : Yaml := .map (paired none nodes [])

structure Properties where
  anchor : Option Nat
  tag : Option (Bool × Text)

def Properties.take (s : Source) : Properties × Source :=
  match s.tokens with
  | .anchor name :: .tag standard suffix :: _ =>
    let (n, s) := s.drop.drop.declare name
    (⟨some n, some (standard, suffix)⟩, s)
  | .anchor name :: _ =>
    let (n, s) := s.drop.declare name
    (⟨some n, none⟩, s)
  | .tag standard suffix :: .anchor name :: _ =>
    let (n, s) := s.drop.drop.declare name
    (⟨some n, some (standard, suffix)⟩, s)
  | .tag standard suffix :: _ => (⟨none, some (standard, suffix)⟩, s.drop)
  | _ => (⟨none, none⟩, s)

def scalarOf (isPlain : Bool) (tag : Option (Bool × Text)) (t : Text) : Yaml :=
  if !isPlain then .text t
  else match tag with
    | some (true, suffix) => ofTagged suffix t
    | some (false, _) => .text t
    | none => ofPlain t

def endsKey (t : Option Token) : Bool := t = some .key || t = some .value || t = some .blockEnd
def endsFlowKey (closing : Token) (t : Option Token) : Bool :=
  t = some .value || t = some .flowEntry || t = some closing
def endsFlowValue (closing : Token) (t : Option Token) : Bool := t = some .flowEntry || t = some closing

-- A node, and what is left. Every call inside another one has read a token more or is the last
-- of a fixed few, so the fuel is a bound on the depth.
mutual
def node (isBlock indentless : Bool) : (fuel : Nat) → Source → Option (Yaml × Source)
  | 0, _ => none
  | fuel + 1, s =>
    match s.head? with
    | some (.alias name) => (s.resolve name).map fun n => (n, s.drop)
    | _ =>
      let (properties, s) := Properties.take s
      let content : Option (Yaml × Source) := match s.head? with
        | some .blockEntry =>
          if indentless then (indentlessItems fuel s).map fun (items, s) => (.list items, s)
          else emptyNode properties s
        | some (.scalar isPlain t) => some (scalarOf isPlain properties.tag t, s.drop)
        | some .flowSequence => (flowItems true fuel s.drop).map fun (items, s) => (.list items, s)
        | some .flowMapping => (flowNodes true fuel s.drop).map fun (nodes, s) => (mapOf nodes, s)
        | some .blockSequence =>
          if isBlock then (blockItems fuel s.drop).map fun (items, s) => (.list items, s)
          else emptyNode properties s
        | some .blockMapping =>
          if isBlock then (blockNodes fuel s.drop).map fun (nodes, s) => (mapOf nodes, s)
          else emptyNode properties s
        | _ => emptyNode properties s
      content.map fun (n, s) => (n, s.complete properties.anchor n)
def emptyNode (properties : Properties) (s : Source) : Option (Yaml × Source) :=
  if properties.anchor.isSome || properties.tag.isSome then some (scalarOf true properties.tag [], s)
  else none
def indentlessItems : (fuel : Nat) → Source → Option (List Yaml × Source)
  | 0, _ => none
  | fuel + 1, s =>
    match s.head? with
    | some .blockEntry =>
      let s := s.drop
      let item := if endsKey s.head? || s.head? = some .blockEntry then some (.null, s)
        else node true false fuel s
      match item with
      | some (item, s) => (indentlessItems fuel s).map fun (items, s) => (item :: items, s)
      | none => none
    | _ => some ([], s)
def blockItems : (fuel : Nat) → Source → Option (List Yaml × Source)
  | 0, _ => none
  | fuel + 1, s =>
    match s.head? with
    | some .blockEnd => some ([], s.drop)
    | some .blockEntry =>
      let s := s.drop
      let item := if s.head? = some .blockEntry || s.head? = some .blockEnd then some (.null, s)
        else node true false fuel s
      match item with
      | some (item, s) => (blockItems fuel s).map fun (items, s) => (item :: items, s)
      | none => none
    | _ => none
def blockNodes : (fuel : Nat) → Source → Option (List Yaml × Source)
  | 0, _ => none
  | fuel + 1, s =>
    let key : Option (Yaml × Source) := match s.head? with
      | some .key => if endsKey s.drop.head? then some (.null, s.drop) else node true true fuel s.drop
      | some .value => some (.null, s)
      | _ => none
    match key with
    | none => if s.head? = some .blockEnd then some ([], s.drop) else none
    | some (key, s) => match blockValue fuel s with
      | none => none
      | some (value, s) => (blockNodes fuel s).map fun (nodes, s) => (key :: value :: nodes, s)
def blockValue : (fuel : Nat) → Source → Option (Yaml × Source)
  | 0, _ => none
  | fuel + 1, s =>
    if s.head? = some .value then
      if endsKey s.drop.head? then some (.null, s.drop) else node true true fuel s.drop
    else some (.null, s)
def flowNodes (isFirst : Bool) : (fuel : Nat) → Source → Option (List Yaml × Source)
  | 0, _ => none
  | fuel + 1, s =>
    if s.head? = some .flowMappingEnd then some ([], s.drop)
    else if !isFirst && s.head? != some .flowEntry then none
    else
      let s := if isFirst then s else s.drop
      let entry : Option (Yaml × Yaml × Source) := match s.head? with
        | some .key =>
          if endsFlowKey .flowMappingEnd s.drop.head? then flowValue .flowMappingEnd .null fuel s.drop
          else match node false false fuel s.drop with
            | some (key, s) => flowValue .flowMappingEnd key fuel s
            | none => none
        | some .value => flowValue .flowMappingEnd .null fuel s
        | _ => (node false false fuel s).map fun (key, s) => (key, .null, s)
      if s.head? = some .flowMappingEnd then some ([], s.drop)
      else match entry with
        | none => none
        | some (key, value, s) =>
          (flowNodes false fuel s).map fun (nodes, s) => (key :: value :: nodes, s)
def flowValue (closing : Token) (key : Yaml) : (fuel : Nat) → Source → Option (Yaml × Yaml × Source)
  | 0, _ => none
  | fuel + 1, s =>
    if s.head? = some .value then
      if endsFlowValue closing s.drop.head? then some (key, .null, s.drop)
      else (node false false fuel s.drop).map fun (value, s) => (key, value, s)
    else some (key, .null, s)
def flowItems (isFirst : Bool) : (fuel : Nat) → Source → Option (List Yaml × Source)
  | 0, _ => none
  | fuel + 1, s =>
    if s.head? = some .flowSequenceEnd then some ([], s.drop)
    else if !isFirst && s.head? != some .flowEntry then none
    else
      let s := if isFirst then s else s.drop
      if s.head? = some .flowSequenceEnd then some ([], s.drop)
      else
        let item := if s.head? = some .key then flowPair fuel s.drop else node false false fuel s
        match item with
        | none => none
        | some (item, s) => (flowItems false fuel s).map fun (items, s) => (item :: items, s)
-- A mapping of one pair among the items of a sequence. A mark in place of the key is read over.
def flowPair : (fuel : Nat) → Source → Option (Yaml × Source)
  | 0, _ => none
  | fuel + 1, s =>
    let key := if endsFlowKey .flowSequenceEnd s.head? then some (.null, s.drop)
      else node false false fuel s
    match key with
    | none => none
    | some (key, s) =>
      (flowValue .flowSequenceEnd key fuel s).map fun (key, value, s) => (mapOf [key, value], s)
end

def explicitContent (s : Source) : Option (Yaml × Source) :=
  match s.head? with
  | none | some .directive | some .documentStart | some .documentEnd => some (.null, s)
  | _ => node true false (2 * s.tokens.length + 2) s

def dropWhileHead (t : Token) (s : Source) : Source := { s with tokens := s.tokens.dropWhile (· = t) }

def documentsFrom (implicit : Bool) : (fuel : Nat) → Source → Option (List Yaml)
  | 0, _ => none
  | fuel + 1, s =>
    let s := { (if implicit then s else dropWhileHead .documentEnd s) with names := [] }
    let content : Option (Yaml × Source) := match s.head? with
      | none => none
      | some t =>
        if implicit && t != .directive && t != .documentStart then
          node true false (2 * s.tokens.length + 2) s
        else
          let s := dropWhileHead .directive s
          if s.head? = some .documentStart then explicitContent s.drop else none
    if s.tokens.isEmpty then some []
    else match content with
      | none => none
      | some (document, s) =>
        let s := if s.head? = some .documentEnd then s.drop else s
        (documentsFrom false fuel s).map (document :: ·)

def documents? (t : Text) : Option (List Yaml) :=
  match tokens? t with
  | none => none
  | some tokens => documentsFrom true (tokens.length + 2) ⟨tokens, [], [], 0⟩

end FieldGateway.Yaml

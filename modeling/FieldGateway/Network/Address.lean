import FieldGateway.Fault
import FieldGateway.Text.Digits
import FieldGateway.Text.Duration

-- Addresses to listen on, written as numbers: `1.2.3.4:5` or `[1:2::3%4]:5`.
namespace FieldGateway.Network

inductive Ip where
  | v4 (octets : List Nat)
  | v6 (groups : List Nat) (scope : Nat)
deriving DecidableEq

structure Address where
  ip : Ip
  tcpPort : Nat
deriving DecidableEq

abbrev Front (α : Type) := Text → Option (α × Text)

namespace Front

def mark (c : Char) : Front Unit
  | [] => none
  | d :: rest => if c = d then some ((), rest) else none

-- All digits in front, as one number. There may be a limit on their count, and a zero in
-- front of other digits may be refused.
def number (base greatest : Nat) (count : Option Nat) (zeroFirst : Bool) : Front Nat := fun t =>
  let digits := t.takeWhile fun c => (Text.digit? base c).isSome
  let tooMany : Bool := match count with
    | some limit => limit < digits.length
    | none => false
  let padded : Bool := 1 < digits.length && digits.head? = some '0'
  if tooMany || (padded && !zeroFirst) then none
  else match Text.natural? base digits with
    | some n => if n ≤ greatest then some (n, t.drop digits.length) else none
    | none => none

def separated (separator : Char) (isFirst : Bool) (item : Front α) : Front α := fun t =>
  if isFirst then item t
  else match mark separator t with
    | some (_, rest) => item rest
    | none => none

def octets : (count : Nat) → (isFirst : Bool) → Front (List Nat)
  | 0, _, t => some ([], t)
  | count + 1, isFirst, t => do
    let (octet, t) ← separated '.' isFirst (number 10 255 (some 3) false) t
    let (rest, t) ← octets count false t
    some (octet :: rest, t)

def ipv4 : Front (List Nat) := octets 4 true

def groups : (count : Nat) → (isFirst : Bool) → Text → List Nat × Bool × Text
  | 0, _, t => ([], false, t)
  | count + 1, isFirst, t =>
    match if count = 0 then none else separated ':' isFirst ipv4 t with
    | some ([a, b, c, d], rest) => ([a * 256 + b, c * 256 + d], true, rest)
    | _ => match separated ':' isFirst (number 16 65535 (some 4) true) t with
      | none => ([], false, t)
      | some (group, rest) =>
        let (later, octal, rest) := groups count false rest
        (group :: later, octal, rest)

def ipv6 : Front (List Nat) := fun t =>
  let (head, octal, rest) := groups 8 true t
  if head.length = 8 then some (head, rest)
  else if octal then none
  else do
    let (_, rest) ← mark ':' rest
    let (_, rest) ← mark ':' rest
    let (tail, _, rest) := groups (7 - head.length) true rest
    some (head ++ List.replicate (8 - head.length - tail.length) 0 ++ tail, rest)

def tcpPort : Front Nat := number 10 65535 none true

def scope : Front Nat := fun t => do
  let (_, t) ← mark '%' t
  number 10 4294967295 none true t

def address4 : Front Address := fun t => do
  let (octets, t) ← ipv4 t
  let (_, t) ← mark ':' t
  let (n, t) ← tcpPort t
  some (⟨.v4 octets, n⟩, t)

def address6 : Front Address := fun t => do
  let (_, t) ← mark '[' t
  let (groups, t) ← ipv6 t
  let (scope, t) := (scope t).getD (0, t)
  let (_, t) ← mark ']' t
  let (_, t) ← mark ':' t
  let (n, t) ← tcpPort t
  some (⟨.v6 groups scope, n⟩, t)

end Front

namespace Ip

def octetsText (octets : List Nat) : Text := Text.joinAll '.' (octets.map Text.ofNat)

def groupsText (groups : List Nat) : Text := Text.joinAll ':' (groups.map Text.hex)

def zeroRuns : List Nat → List Nat
  | [] => []
  | g :: rest =>
    let runs := zeroRuns rest
    (if g = 0 then runs.headD 0 + 1 else 0) :: runs

-- The first of the longest runs of zeros is left out, when it is longer than one group.
def text : Ip → Text
  | v4 octets => octetsText octets
  | v6 [0, 0, 0, 0, 0, 65535, a, b] _ => "::ffff:" ++ octetsText [a / 256, a % 256, b / 256, b % 256]
  | v6 groups _ =>
    let runs := zeroRuns groups
    let longest := runs.foldl max 0
    if longest < 2 then groupsText groups
    else
      let start := runs.idxOf longest
      groupsText (groups.take start) ++ "::" ++ groupsText (groups.drop (start + longest))

def isV6 : Ip → Bool
  | v4 _ => false
  | v6 _ _ => true

end Ip

inductive AddressDefect where
  | unreadable (given : Text)
deriving DecidableEq

def AddressDefect.message : AddressDefect → Text
  | unreadable given =>
    "invalid embedded broker address " ++ given ++ ": invalid socket address syntax"

namespace Address

def read? (given : Text) : Option Address :=
  match Front.address4 given with
  | some (address, []) => some address
  | _ => match Front.address6 given with
    | some (address, []) => some address
    | _ => none

def read (given : Text) : Except AddressDefect Address :=
  match read? given with
  | some address => .ok address
  | none => .error (.unreadable given)

def text (a : Address) : Text :=
  match a.ip with
  | .v4 _ => a.ip.text ++ ":" ++ Text.ofNat a.tcpPort
  | .v6 _ scope =>
    "[" ++ a.ip.text ++ (if scope = 0 then [] else '%' :: Text.ofNat scope) ++ "]:" ++ Text.ofNat a.tcpPort

def standard : Address := ⟨.v4 [127, 0, 0, 1], 1883⟩

end Address

def notListening (address : Text) (limit : Duration) : Fault :=
  .connectionFailure ("embedded broker on " ++ address ++ " did not start within " ++ limit.text)

end FieldGateway.Network

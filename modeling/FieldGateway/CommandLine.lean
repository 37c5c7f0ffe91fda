import FieldGateway.Catalog

-- What a gateway is told on its command line. A settings file and a directory may each be named
-- once, in a long or a short form, with the value in the same word or in the next one.
namespace FieldGateway

structure CommandLine where
  settingsFile : Option Text
  directory : Option Text
deriving DecidableEq

namespace CommandLine

inductive Choice where
  | settingsFile
  | directory
deriving DecidableEq

inductive Answer where
  | help
  | version
  | unexpected (word : Text)
  | withoutValue (choice : Choice)
  | repeated (choice : Choice)
deriving DecidableEq

def Choice.name : Choice → Text
  | settingsFile => "settings"
  | directory => "config-dir"

def Choice.letter : Choice → Char
  | settingsFile => 's'
  | directory => 'c'

def Answer.message : Answer → Text
  | help => "Device gateway bridging MQTT and OPC-UA devices onto message buses"
  | version => "devgate " ++ Catalog.version
  | unexpected word => "unexpected argument '" ++ word ++ "' found"
  | withoutValue choice => "a value is required for '--" ++ choice.name ++ "' but none was supplied"
  | repeated choice => "the argument '--" ++ choice.name ++ "' cannot be used multiple times"

inductive Word where
  | plain
  | ending
  | option (choice : Choice) (attached : Option Text)
  | question (answer : Answer)
  | unknown
deriving DecidableEq

namespace Word

def choiceBy [DecidableEq α] (label : Choice → α) (given : α) : Option Choice :=
  [.settingsFile, .directory].find? fun choice => label choice = given

def longQuestions : List (Text × Answer) := [("help", .help), ("version", .version)]
def shortQuestions : List (Char × Answer) := [('h', .help), ('V', .version)]

def ofLong (word : Text) : Word :=
  match Text.cutFirst? '=' word with
  | some (name, value) => match choiceBy Choice.name name with
    | some choice => .option choice (some value)
    | none => .unknown
  | none => match choiceBy Choice.name word, longQuestions.lookup word with
    | some choice, _ => .option choice none
    | none, some answer => .question answer
    | none, none => .unknown

def attachment? : Text → Option Text
  | [] => none
  | '=' :: value => some value
  | value => some value

def ofShort (letter : Char) (behind : Text) : Word :=
  match choiceBy Choice.letter letter, shortQuestions.lookup letter with
  | some choice, _ => .option choice (attachment? behind)
  | none, some answer => .question answer
  | none, none => .unknown

def ofText : Text → Word
  | ['-', '-'] => .ending
  | '-' :: '-' :: word => ofLong word
  | '-' :: letter :: behind => ofShort letter behind
  | _ => .plain

end Word

def empty : CommandLine := ⟨none, none⟩

def get? (c : CommandLine) : Choice → Option Text
  | .settingsFile => c.settingsFile
  | .directory => c.directory

def put (c : CommandLine) (choice : Choice) (value : Text) : CommandLine :=
  match choice with
  | .settingsFile => { c with settingsFile := some value }
  | .directory => { c with directory := some value }

def set (c : CommandLine) (choice : Choice) (value : Text) : Except Answer CommandLine :=
  if (c.get? choice).isSome then .error (.repeated choice)
  else if value.isEmpty then .error (.withoutValue choice)
  else .ok (c.put choice value)

-- `waiting` is the choice whose value should come next.
def addWords (c : CommandLine) (waiting : Option Choice) : List Text → Except Answer CommandLine
  | [] => match waiting with
    | none => .ok c
    | some choice => .error (.withoutValue choice)
  | word :: rest => match Word.ofText word, waiting with
    | .unknown, _ => .error (.unexpected word)
    | .plain, none => .error (.unexpected word)
    | .plain, some choice => match c.set choice word with
      | .ok c => addWords c none rest
      | .error answer => .error answer
    | .ending, waiting => match rest, waiting with
      | extra :: _, _ => .error (.unexpected extra)
      | [], none => .ok c
      | [], some choice => .error (.withoutValue choice)
    | .question _, some choice | .option _ _, some choice => .error (.withoutValue choice)
    | .question answer, none => .error answer
    | .option choice none, none => addWords c (some choice) rest
    | .option choice (some value), none => match c.set choice value with
      | .ok c => addWords c none rest
      | .error answer => .error answer

def ofWords (words : List Text) : Except Answer CommandLine := addWords empty none words

end CommandLine
end FieldGateway

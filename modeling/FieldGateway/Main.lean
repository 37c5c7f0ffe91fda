import FieldGateway.Catalog
import FieldGateway.CommandLine
import FieldGateway.Settings.Basic
import FieldGateway.Startup

-- Checks that a gateway could come up: its settings and its plan are read, and every bus and
-- driver of the plan is made, but nothing is connected.
namespace FieldGateway

def unconnected : Outcomes where
  bus _ spec := .ofKind (Catalog.bus? spec) fun _ => .ok ()
  driver _ spec := .ofKind (Catalog.driver? spec) fun _ => .ok ()
  device _ _ _ := .ok ()

def settingVariables : List String :=
  ["DEVGATE__LOGGING__LEVEL", "DEVGATE__LOGGING__JSON", "DEVGATE__AGENT__CONFIG_DIR"]

def readEnvironment : IO Environment := do
  let values ← settingVariables.mapM fun name => IO.getEnv name
  return (settingVariables.zip values).filterMap fun (name, value) => value.map fun value => (name.toList, value.toList)

def readDisk (files : List Text) : IO Disk := do
  let contents ← files.mapM fun file => do
    match ← (IO.FS.readBinFile (String.ofList file)).toBaseIO with
    | .ok content => return some (Path.ofText file, content.toList.map fun byte => Byte.ofNat byte.toNat)
    | .error _ => return none
  return ⟨contents.filterMap id⟩

def refuse (message : Text) : IO UInt32 := do
  IO.eprintln (String.ofList ("Error: " ++ message))
  return 1

def checkAll (line : CommandLine) : IO UInt32 := do
  let settingsDisk ← readDisk line.settingsFile.toList
  match Settings.load settingsDisk line.settingsFile (some Settings.environmentPrefix) (← readEnvironment) with
  | none => refuse "failed to load settings"
  | some settings =>
    let directory := line.directory.getD settings.directory
    let files := [Plan.busFile, Plan.driverFile, Plan.deviceFile].map (Plan.inside directory)
    match (Startup.run (← readDisk files) directory unconnected).failure with
    | none => return 0
    | some failure => refuse ("driver agent failed, config dir " ++ directory ++ ": " ++ failure.message)

def answerOnly (answer : CommandLine.Answer) : IO UInt32 := do
  match answer with
  | .help | .version =>
    IO.println (String.ofList answer.message)
    return 0
  | .unexpected _ | .withoutValue _ | .repeated _ =>
    IO.eprintln (String.ofList ("error: " ++ answer.message))
    return 2

end FieldGateway

open FieldGateway in
def main (words : List String) : IO UInt32 :=
  match CommandLine.ofWords (words.map String.toList) with
  | .ok line => checkAll line
  | .error answer => answerOnly answer

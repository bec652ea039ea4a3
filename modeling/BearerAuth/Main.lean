import BearerAuth.CommandLine.Check
import Std.Time.DateTime

namespace BearerAuth.Main

def variableNames : List String :=
  ["RUST_LOG", "JWT_AUTH_LOG_LEVEL", "JWT_AUTH_LOG_FORMAT", "JWT_AUTH_LOG_TARGET_FILTER",
    "JWT_AUTH_LOG_INCLUDE_LOCATION", "JWT_AUTH_PARAMS_FILE"] ++
    ParameterName.all.map Parameters.variableName

def readEnvironment : IO (List (String × String)) :=
  variableNames.filterMapM fun name => do
    return (← IO.getEnv name).map fun value => (name, value)

/-- The place that a path leads to from the root, without a look at what is there. -/
def placeOf (path : String) : List String :=
  (Text.split '/' path).foldl (fun place name =>
    if name == "" || name == "." then place
    else if name == ".." then place.dropLast
    else place ++ [name]) []

/-- Takes what is at a path into the files that are known. -/
def readPlace (files : FileSystem) (path : String) : IO FileSystem := do
  let place := placeOf path
  try
    let bytes ← IO.FS.readBinFile path
    return files.put place (.file bytes.toList)
  catch
    | .noFileOrDirectory .. => return files
    | _ => return files.put place .directory

def pathsOf (w : Surroundings) (i : CommandLine.Invocation) : List String :=
  match CommandLine.parameters w i with
  | .error _ => []
  | .ok p =>
    let names := [ParameterName.secretKey, ParameterName.publicKey, ParameterName.keySetLocation]
    let paths := names.filterMap p.string?
    paths ++ paths.filterMap fun text => (Url.parse? text).bind Url.filePath?

/-- What surrounds the command. Only the files that it may read are taken in. -/
def readSurroundings (arguments : List String) : IO Surroundings := do
  let environment ← readEnvironment
  let current := (← IO.currentDir).toString
  let timeOfDay := (← Std.Time.Timestamp.now).toSecondsSinceUnixEpoch.val
  let take (files : FileSystem) (path : String) : IO FileSystem :=
    readPlace files (if path.startsWith "/" then path else s!"{current}/{path}")
  let start : Surroundings := {
    timeOfDay, environment
    instant := ← IO.monoNanosNow
    files := FileSystem.put { workingDirectory := placeOf current } (placeOf current) .directory
    network := fun _ => .unreachable }
  match CommandLine.Invocation.ofArguments environment arguments with
  | .error _ => return start
  | .ok i =>
    let w := { start with files := ← i.paramsFile.toList.foldlM take start.files }
    return { w with files := ← (pathsOf w i).foldlM take w.files }

def logLine (format : LogFormat) (event : Event) : String :=
  match format with
  | .pretty => s!"{event.level.name} {event.area.target}: {event.message}"
  | .json =>
    Json.text (.object [
      ("level", .string event.level.name),
      ("fields", .object (("message", .string event.message) ::
        event.fields.map fun (name, value) => (name, .string value))),
      ("target", .string event.area.target)])

end BearerAuth.Main

def main (arguments : List String) : IO UInt32 := do
  let w ← BearerAuth.Main.readSurroundings arguments
  let (outcome, state) := BearerAuth.CommandLine.run arguments w {}
  let format := (BearerAuth.LogConfig.ofEnvironment w.environment).format
  for event in BearerAuth.CommandLine.shownEvents w.environment state.events do
    IO.eprintln (BearerAuth.Main.logLine format event)
  for line in outcome.lines do
    IO.println line
  if let some error := outcome.error then
    IO.eprintln error
  return UInt32.ofNat outcome.exit

import BearerAuth.Text.Basic
import BearerAuth.Text.Bytes

namespace BearerAuth

/-- What is at a place of a file system. -/
inductive FileEntry where
  | file (bytes : List UInt8)
  | directory
deriving DecidableEq, Repr

/-- Why a file cannot be read. -/
inductive FileError where
  | notFound
  | notDirectory
  | isDirectory
  | nameTooLong
  | nulInName
  | notText
deriving DecidableEq, Repr

def FileError.message : FileError → String
  | .notFound => "No such file or directory (os error 2)"
  | .notDirectory => "Not a directory (os error 20)"
  | .isDirectory => "Is a directory (os error 21)"
  | .nameTooLong => "File name too long (os error 36)"
  | .nulInName => "file name contained an unexpected NUL byte"
  | .notText => "stream did not contain valid UTF-8"

/-- The places of a file system, each by the names that lead to it from the root. -/
structure FileSystem where
  workingDirectory : List String := []
  entries : List (List String × FileEntry) := []
deriving Repr

namespace FileSystem

/-- What is at a place; the root is always there. -/
def entry? (fs : FileSystem) (place : List String) : Option FileEntry :=
  if place.isEmpty then some .directory else fs.entries.lookup place

def remove (fs : FileSystem) (place : List String) : FileSystem :=
  { fs with entries := fs.entries.filter fun e => e.1 != place }

/-- Puts an entry at a place, with the directories that lead to it. -/
def put (fs : FileSystem) (place : List String) (entry : FileEntry) : FileSystem :=
  let parents := (List.range place.length).map fun n => (place.take n, FileEntry.directory)
  { fs with entries := (place, entry) :: ((fs.remove place).entries ++ parents) }

def enter (fs : FileSystem) (place : List String) (name : String) :
    Except FileError (List String) :=
  match fs.entry? place with
  | none => .error .notFound
  | some (.file _) => .error .notDirectory
  | some .directory =>
    if name == "." then .ok place
    else if name == ".." then .ok place.dropLast
    else if 255 < name.utf8ByteSize then .error .nameTooLong
    else .ok (place ++ [name])

def find (fs : FileSystem) (path : String) : Except FileError FileEntry := do
  if path.contains '\x00' then
    throw .nulInName
  if path.isEmpty then
    throw .notFound
  if 4095 < path.utf8ByteSize then
    throw .nameTooLong
  let start := if path.startsWith "/" then [] else fs.workingDirectory
  let names := Text.split '/' path
  let place ← (names.filter (· != "")).foldlM fs.enter start
  match fs.entry? place, names.getLast? == some "" with
  | none, _ => throw .notFound
  | some (.file _), true => throw .notDirectory
  | some entry, _ => return entry

def isFile (fs : FileSystem) (path : String) : Bool :=
  match fs.find path with
  | .ok (.file _) => true
  | _ => false

def read (fs : FileSystem) (path : String) : Except FileError (List UInt8) := do
  match ← fs.find path with
  | .file bytes => return bytes
  | .directory => throw .isDirectory

def readText (fs : FileSystem) (path : String) : Except FileError String := do
  match Text.Utf8.decode? (← fs.read path) with
  | some text => return text
  | none => throw .notText

end FileSystem

end BearerAuth

/-!
# Directories

A directory of files, and reading a file by its path from there. Names with
slashes stand for files in subdirectories. What lies above the directory is
unknown: its parent is a directory in which nothing is found.
-/

namespace JackScopes

inductive ReadFault
  | missing
  | isDirectory
  /-- The path goes on below a plain file. -/
  | notDirectory
  /-- The path, or a name on it, is over its limit. -/
  | nameTooLong
  | notText
  | other (text : String)
  deriving DecidableEq

def ReadFault.text : ReadFault → String
  | missing => "No such file or directory (os error 2)"
  | isDirectory => "Is a directory (os error 21)"
  | notDirectory => "Not a directory (os error 20)"
  | nameTooLong => "File name too long (os error 36)"
  | notText => "stream did not contain valid UTF-8"
  | other text => text

structure Directory where
  files : List (String × ByteArray)

namespace Directory

def pathLimit : Nat := 4095

def nameLimit : Nat := 255

inductive Location
  /-- A directory, by the names that lead down to it. -/
  | inside (names : List String)
  | file (contents : ByteArray)
  | outside

def names (path : String) : List String :=
  (path.toList.splitOn '/').map String.ofList

def find (directory : Directory) (path : List String) : Except ReadFault Location :=
  match directory.files.find? fun file => names file.1 = path with
  | some file => .ok (.file file.2)
  | none =>
    if directory.files.any fun file => path.isPrefixOf (names file.1) then .ok (.inside path)
    else .error .missing

/-- One step along a path. An empty name, as between two slashes, stays. A name over
the limit is refused only where a name could be looked up: below a directory. -/
def step (directory : Directory) (location : Location) (name : String) :
    Except ReadFault Location :=
  match location with
  | .file _ => .error .notDirectory
  | .inside path =>
    if name = "" || name = "." then .ok (.inside path)
    else if name = ".." then .ok (if path.isEmpty then .outside else .inside path.dropLast)
    else if nameLimit < name.utf8ByteSize then .error .nameTooLong
    else directory.find (path ++ [name])
  | .outside =>
    if name = "" || name = "." || name = ".." then .ok .outside
    else if nameLimit < name.utf8ByteSize then .error .nameTooLong
    else .error .missing

/-- Where a whole path leads. Its length is judged before any name on it. -/
def locate (directory : Directory) (path : String) : Except ReadFault Location :=
  if path = "" then .error .missing
  else if pathLimit < path.utf8ByteSize then .error .nameTooLong
  else
    let start := if path.startsWith "/" then Location.outside else .inside []
    (names path).foldlM directory.step start

def readBytes (directory : Directory) (path : String) : Except ReadFault ByteArray :=
  match directory.locate path with
  | .ok (.file contents) => .ok contents
  | .ok _ => .error .isDirectory
  | .error fault => .error fault

end Directory

def decodeText (bytes : ByteArray) : Except ReadFault String :=
  match String.fromUTF8? bytes with
  | some text => .ok text
  | none => .error .notText

def Directory.readText (directory : Directory) (path : String) : Except ReadFault String :=
  (directory.readBytes path).bind decodeText

end JackScopes

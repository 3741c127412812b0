import HabitLedger.Path

/-!
A tree of files and directories, as much of one as settings and documents need. Names from the root
give a place; a path is walked to one, name by name. What cannot be done is refused with the reason,
and a refused step changes nothing, except that directories made on the way stay.
-/

namespace HabitLedger

inductive DiskFault where
  | notFound
  | alreadyThere
  | notDirectory
  | isDirectory
  | busy
  | nameTooLong
  | nulInName
  | notText
  | other (wording : String) (number : UInt32)
  deriving DecidableEq

namespace DiskFault

def message : DiskFault → String
  | .notFound => "No such file or directory (os error 2)"
  | .alreadyThere => "File exists (os error 17)"
  | .notDirectory => "Not a directory (os error 20)"
  | .isDirectory => "Is a directory (os error 21)"
  | .busy => "Device or resource busy (os error 16)"
  | .nameTooLong => "File name too long (os error 36)"
  | .nulInName => "file name contained an unexpected NUL byte"
  | .notText => "stream did not contain valid UTF-8"
  | .other wording number => s!"{wording} (os error {number})"

end DiskFault

inductive Node where
  | directory
  | file (text : String)
  | binary
  deriving DecidableEq

abbrev Place := List String

def longestName : Nat := 255

def longestPath : Nat := 4095

/-- A tree: every place that is taken, except the root, which is a directory. -/
structure Disk where
  nodes : List (Place × Node)

namespace Disk

def empty : Disk := ⟨[]⟩

def node? (disk : Disk) (place : Place) : Option Node :=
  if place = [] then some .directory else disk.nodes.lookup place

def put (disk : Disk) (place : Place) (node : Node) : Disk :=
  ⟨disk.nodes.filter (·.1 ≠ place) ++ [(place, node)]⟩

def remove (disk : Disk) (place : Place) : Disk := ⟨disk.nodes.filter (·.1 ≠ place)⟩

/-- What cannot be the path of anything is refused before it is walked. -/
def checkPath (path : String) : Except DiskFault Unit :=
  if path.toList.contains '\x00' then .error .nulInName
  else if path = "" then .error .notFound
  else if longestPath < path.utf8ByteSize then .error .nameTooLong
  else .ok ()

def next (place : Place) (name : String) : Except DiskFault Place :=
  if name = "." then .ok place
  else if name = ".." then .ok place.dropLast
  else if longestName < name.utf8ByteSize then .error .nameTooLong
  else .ok (place ++ [name])

def walk (disk : Disk) (place : Place) : List String → Except DiskFault Place
  | [] => .ok place
  | name :: rest => match disk.node? place with
    | none => .error .notFound
    | some .directory => do disk.walk (← next place name) rest
    | some _ => .error .notDirectory

def locate (disk : Disk) (path : String) : Except DiskFault Place := do
  checkPath path
  disk.walk [] (Path.parts path)

def find (disk : Disk) (path : String) : Except DiskFault Node := do
  let place ← disk.locate path
  match disk.node? place with
  | none => .error .notFound
  | some .directory => .ok .directory
  | some node => if Path.endsInSlash path then .error .notDirectory else .ok node

def read (disk : Disk) (path : String) : Except DiskFault String := do
  match ← disk.find path with
  | .directory => .error .isDirectory
  | .file text => .ok text
  | .binary => .error .notText

def read? (disk : Disk) (path : String) : Option (Except DiskFault String) :=
  match disk.find path with
  | .ok _ => some (disk.read path)
  | .error _ => none

/-- Makes a directory of every name that has none yet, up to the first name that is refused. What is
told of a file before the last name changes once a directory has been made: from there on every name
is one to be made, and none is only passed through. -/
def makeFrom (disk : Disk) (inTheWay : DiskFault) (place : Place) :
    List String → Disk × Option DiskFault
  | [] => (disk, none)
  | name :: rest => match next place name with
    | .error fault => (disk, some fault)
    | .ok place => match disk.node? place with
      | some .directory => disk.makeFrom inTheWay place rest
      | some _ => (disk, some (if rest = [] then .alreadyThere else inTheWay))
      | none => (disk.put place .directory).makeFrom .alreadyThere place rest

def makeDirectories (disk : Disk) (path : String) : Disk × Option DiskFault :=
  if path = "" then (disk, none)
  else match checkPath path with
    | .error fault => (disk, some fault)
    | .ok () => disk.makeFrom .notDirectory [] ((Path.parts path).filter (· ≠ "."))

inductive Step where
  | makeDirectories (path : String)
  /-- Makes a file without text, or takes the text from one that is there. -/
  | clear (path : String)
  | fill (path text : String)
  | rename (source target : String)
  deriving DecidableEq

def write (disk : Disk) (path : String) (node : Node) : Except DiskFault Disk := do
  let place ← disk.locate path
  if disk.node? place = some .directory ∨ Path.endsInSlash path then .error .isDirectory
  else .ok (disk.put place node)

def move (disk : Disk) (source target : String) : Except DiskFault Disk := do
  let start ← disk.locate source
  let goal ← disk.locate target
  -- Neither the root nor what `.` and `..` lead to can be replaced.
  if (Path.parts target).getLast?.all fun name => name = "." ∨ name = ".." then .error .busy
  else match disk.node? start with
    | none => .error .notFound
    | some node =>
      -- Only files are moved, and a file cannot stand where only a directory may.
      if Path.endsInSlash target then .error .notDirectory
      else if disk.node? goal = some .directory then .error .isDirectory
      else .ok ((disk.remove start).put goal node)

def orUnchanged (disk : Disk) : Except DiskFault Disk → Disk × Option DiskFault
  | .ok next => (next, none)
  | .error fault => (disk, some fault)

def perform (disk : Disk) : Step → Disk × Option DiskFault
  | .makeDirectories path => disk.makeDirectories path
  | .clear path => disk.orUnchanged (disk.write path (.file ""))
  | .fill path text => disk.orUnchanged (disk.write path (.file text))
  | .rename source target => disk.orUnchanged (disk.move source target)

def performAll (disk : Disk) : List Step → Disk × Option DiskFault
  | [] => (disk, none)
  | step :: rest => match disk.perform step with
    | (next, none) => next.performAll rest
    | (next, some fault) => (next, some fault)

def listing (disk : Disk) (directory : Place) : List String :=
  let inside := disk.nodes.filter fun entry =>
    directory.isPrefixOf entry.1 && directory.length < entry.1.length
  let paths := inside.map fun (place, node) =>
    "/".intercalate (place.drop directory.length) ++ if node = .directory then "/" else ""
  paths.mergeSort fun a b => decide (a ≤ b)

end Disk

end HabitLedger

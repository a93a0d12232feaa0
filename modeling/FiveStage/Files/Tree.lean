import FiveStage.Files.Basic

/-!
# Files in memory

A tree of files, and a working directory in it. Paths are followed one name at a time, so that `..`
leads to what holds the directory reached so far: out of the working directory, up to the root.

* `Place`, `Path` : where something is, and a text that leads there;
* `FileTree`, `FileTree.start` : files, directories and devices by place;
* `FileTree.shown` : what has been written to a stream by way of its device;
* `FileTree.reach` : follows a path up to its last name;
* `FileTree.readBytes`, `FileTree.writeBytes`, `FileTree.makeDirectory` : what a program that runs
  in `StateM FileTree` does with them.
-/

namespace FiveStage

/-- A place, by the names on the way to it from the root. -/
structure Place where
  names : List String
  deriving DecidableEq, Repr

namespace Place

/-- The directory that holds all others. -/
def root : Place := ⟨[]⟩

/-- The place some names further on. -/
def descend (p : Place) (names : List String) : Place := ⟨p.names ++ names⟩

/-- The place one name further on. -/
def child (p : Place) (name : String) : Place := p.descend [name]

/-- The directory that holds a place. The root holds itself. -/
def parent (p : Place) : Place := ⟨p.names.dropLast⟩

end Place

/-! ## Paths -/

/-- What the text between two slashes asks for. -/
inductive PathStep where
  | stay | back
  | enter (name : String)
  deriving DecidableEq, Repr

/-- A path. -/
structure Path where
  /-- The steps lead from the root, not from the working directory. -/
  absolute : Bool
  steps : List PathStep
  /-- A slash stands behind the last step. -/
  slashed : Bool
  deriving DecidableEq, Repr

/-- The longest name, in bytes. -/
def maxName : Nat := 255

/-- The longest path, in bytes. -/
def maxPath : Nat := 4095

namespace Path

/-- What a piece of a path asks for; nothing if slashes follow each other. -/
def stepOfPiece? : String → Option PathStep
  | "" => none
  | "." => some .stay
  | ".." => some .back
  | name => some (.enter name)

/-- The path that a text stands for. -/
def ofText (text : String) : Except FileError Path :=
  if text.contains '\x00' then .error .nulInName
  else if text = "" then .error .notFound
  else if maxPath < text.utf8ByteSize then .error .nameTooLong
  else
    .ok
      { absolute := text.startsWith "/"
        steps := (text.splitOn "/").filterMap stepOfPiece?
        slashed := text.endsWith "/" }

end Path

/-! ## The tree -/

/-- What is at a place. -/
inductive FileEntry where
  | file (bytes : Array Byte)
  | directory
  /-- Reads as empty, and keeps nothing of what is written. -/
  | nullDevice
  /-- Has no room for anything that is written. -/
  | fullDevice
  /-- Reads as empty, and shows what is written after what it has shown before. -/
  | stream (shown : Array Byte)
  deriving DecidableEq

/-- Files, directories and devices by place, and the directory that other paths lead from. -/
structure FileTree where
  working : Place
  entries : List (Place × FileEntry)

/-- What a path leads to, before it is known what is there. -/
inductive Target where
  /-- The path ends on a directory that it does not name. -/
  | directory
  /-- The path ends on a name in a directory. -/
  | named (here : Place) (name : String)
  deriving DecidableEq, Repr

namespace FileTree

/-- The directories that every root has. -/
def rootDirectories : List String :=
  ["bin", "boot", "dev", "etc", "home", "lib", "media", "mnt", "opt", "proc", "root", "run", "sbin",
    "srv", "sys", "tmp", "usr", "var"]

/-- A tree with nothing in the working directory, which is a directory for a session among those
that do not last. There is nothing to read on the standard input, and nothing is shown yet. -/
def start : FileTree where
  working := ⟨["tmp", "session"]⟩
  entries :=
    (rootDirectories.map fun name => (⟨[name]⟩, .directory)) ++
      [(⟨["tmp", "session"]⟩, .directory), (⟨["dev", "null"]⟩, .nullDevice),
        (⟨["dev", "full"]⟩, .fullDevice), (⟨["dev", "stdin"]⟩, .nullDevice),
        (⟨["dev", "stdout"]⟩, .stream #[]), (⟨["dev", "stderr"]⟩, .stream #[])]

/-- A place in the working directory. -/
def within (t : FileTree) (names : List String) : Place := t.working.descend names

/-- The place that a path leads from. -/
def origin (t : FileTree) (path : Path) : Place := if path.absolute then .root else t.working

/-- What is at a place. -/
def find? (t : FileTree) (p : Place) : Option FileEntry :=
  if p = .root then some .directory else (t.entries.find? fun (q, _) => q = p).map (·.2)

/-- Takes away what is at a place. -/
def remove (t : FileTree) (p : Place) : FileTree :=
  { t with entries := t.entries.filter fun (q, _) => q ≠ p }

/-- Puts something at a place. -/
def put (t : FileTree) (p : Place) (e : FileEntry) : FileTree :=
  { t with entries := (p, e) :: (t.remove p).entries }

/-- What has been shown by the device of a name. -/
def shown (t : FileTree) (name : String) : Array Byte :=
  match t.find? ⟨["dev", name]⟩ with
  | some (.stream bytes) => bytes
  | _ => #[]

/-- What a name stands for in a directory. -/
def look (t : FileTree) (here : Place) (name : String) : Except FileError (Option FileEntry) :=
  if maxName < name.utf8ByteSize then .error .nameTooLong else .ok (t.find? (here.child name))

/-- One step of a path, which has to lead to a directory. -/
def advance (t : FileTree) (here : Place) : PathStep → Except FileError Place
  | .stay => .ok here
  | .back => .ok here.parent
  | .enter name =>
    match t.look here name with
    | .error e => .error e
    | .ok none => .error .notFound
    | .ok (some .directory) => .ok (here.child name)
    | .ok (some _) => .error .notDirectory

/-- Follows the steps of a path up to the last name. -/
def reach (t : FileTree) (here : Place) : List PathStep → Except FileError Target
  | [] => .ok .directory
  | [.enter name] => .ok (.named here name)
  | step :: rest =>
    match t.advance here step with
    | .error e => .error e
    | .ok next => t.reach next rest

/-- The bytes of a file. A slash at the end of the path wants a directory. -/
def readBytes (t : FileTree) (text : String) : Except FileError (Array Byte) := do
  let path ← Path.ofText text
  match ← t.reach (t.origin path) path.steps with
  | .directory => .error .isDirectory
  | .named here name =>
    match ← t.look here name with
    | none => .error .notFound
    | some .directory => .error .isDirectory
    | some (.file bytes) => if path.slashed then .error .notDirectory else .ok bytes
    | some _ => if path.slashed then .error .notDirectory else .ok #[]

/-- Makes a file, or replaces what is in it. A slash at the end of the path is refused before
anything is looked up. -/
def writeBytes (t : FileTree) (text : String) (bytes : Array Byte) : Except FileError FileTree := do
  let path ← Path.ofText text
  match ← t.reach (t.origin path) path.steps with
  | .directory => .error .isDirectory
  | .named here name =>
    if path.slashed then .error .isDirectory
    else
      match ← t.look here name with
      | some .directory => .error .isDirectory
      | some .nullDevice => .ok t
      | some .fullDevice => .error .noSpace
      | some (.stream old) => .ok (t.put (here.child name) (.stream (old ++ bytes)))
      | _ => .ok (t.put (here.child name) (.file bytes))

/-- Makes a directory, unless there is one. -/
def makeDirectory (t : FileTree) (text : String) : Except FileError FileTree := do
  let path ← Path.ofText text
  match ← t.reach (t.origin path) path.steps with
  | .directory => .ok t
  | .named here name =>
    match ← t.look here name with
    | none => .ok (t.put (here.child name) .directory)
    | some .directory => .ok t
    | some _ => .error .alreadyExists

/-- Runs a change that may be refused, and then changes nothing. -/
def attempt (change : FileTree → Except FileError FileTree) :
    StateM FileTree (Except FileError Unit) := fun t =>
  match change t with
  | .ok t => (.ok (), t)
  | .error e => (.error e, t)

instance : Files (StateM FileTree) where
  readBytes path := fun t => (t.readBytes path, t)
  writeBytes path bytes := attempt fun t => t.writeBytes path bytes
  makeDirectory path := attempt fun t => t.makeDirectory path

end FileTree

end FiveStage

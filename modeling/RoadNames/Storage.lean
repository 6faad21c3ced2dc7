import RoadNames.Config.Model
import RoadNames.Json.Reader
set_option autoImplicit false

/-!
Networks by reference: given by name, or loaded from files. The last few that were loaded are kept, so
that they are not read again; what is read anew is a network of its own.
-/

namespace RoadNames.Storage

inductive FileError where
  | missing (path : String)
  | isDirectory (path : String)
  deriving DecidableEq, Repr

def FileError.message : FileError → String
  | .missing path => "No such file or directory: " ++ shownText path
  | .isDirectory path => "Is a directory: " ++ shownText path

/-- Files by the parts of their paths, and directories that need hold none. -/
structure Files where
  contents : Table (List String) ByteArray
  directories : List (List String)

inductive Entry where
  | file (bytes : ByteArray)
  | directory

namespace Files

def pieces : List Char → List (List Char)
  | [] => [[]]
  | c :: rest =>
    if c = '/' then [] :: pieces rest
    else
      match pieces rest with
      | [] => [[c]]
      | first :: more => (c :: first) :: more

def root : String := "/"

def upward : String := ".."

/-- Where one more piece of a path leads to. Above the working directory lie others; above the root
is the root. -/
def descend (parts : List String) (piece : List Char) : List String :=
  if piece = [] || piece = ['.'] then parts
  else if piece = ['.', '.'] then
    if parts = [] || parts.getLast? = some upward then parts ++ [upward]
    else if parts = [root] then parts
    else parts.dropLast
  else parts ++ [String.ofList piece]

def origin (path : String) : List String := if path.toList.head? = some '/' then [root] else []

def parts (path : String) : List String := (pieces path.toList).foldl descend (origin path)

def leadsTo (directory file : List String) : Bool :=
  directory.length < file.length && file.take directory.length == directory

def empty : Files := ⟨[], []⟩

def isDirectory (files : Files) (parts : List String) : Bool :=
  parts = [root] || parts.all (· = upward) || files.directories.contains parts
    || files.contents.keys.any (leadsTo parts)

/-- The parts that a path leads to, if all on the way to the last one are directories. -/
def follow? (files : Files) : List String → List (List Char) → Option (List String)
  | parts, [] => some parts
  | parts, piece :: rest =>
    if files.isDirectory parts then files.follow? (descend parts piece) rest else none

def resolve? (files : Files) (path : String) : Option (List String) :=
  if path = "" then none else files.follow? (origin path) (pieces path.toList)

def find? (files : Files) (path : String) : Option Entry :=
  match files.resolve? path with
  | none => none
  | some parts =>
    match files.contents.get? parts with
    | some bytes => some (.file bytes)
    | none => if files.isDirectory parts then some .directory else none

def exists? (files : Files) (path : String) : Bool := (files.find? path).isSome

def read (files : Files) (path : String) : Except FileError ByteArray :=
  match files.find? path with
  | some (.file bytes) => .ok bytes
  | some .directory => .error (.isDirectory path)
  | none => .error (.missing path)

def write (files : Files) (path : String) (bytes : ByteArray) : Files :=
  { files with contents := files.contents.set (parts path) bytes }

/-- The files with one opened to append to: made if it is not there, in a directory that is. -/
def openToAppend (files : Files) (path : String) : Except FileError Files :=
  match files.find? path with
  | some (.file _) => .ok files
  | some .directory => .error (.isDirectory path)
  | none => if (files.resolve? path).isSome then .ok (files.write path .empty) else .error (.missing path)

def addDirectory (files : Files) (path : String) : Files :=
  { files with directories := files.directories ++ [parts path] }

def stages (path : String) : List String :=
  let pieces := pieces path.toList
  (List.range pieces.length).map fun k =>
    let stage := "/".intercalate ((pieces.take (k + 1)).map String.ofList)
    if stage = "" then root else stage

def append (files : Files) (path : String) (text : String) : Files :=
  match files.contents.get? (parts path) with
  | some bytes => files.write path (bytes ++ text.toUTF8)
  | none => files.write path text.toUTF8

def added (before after : Files) (path : String) : Option ByteArray :=
  (after.contents.get? (parts path)).map fun bytes =>
    bytes.extract ((before.contents.get? (parts path)).elim 0 ByteArray.size) bytes.size

end Files

/-- A network in memory, told by its number from others with the same contents. -/
structure Handle where
  number : Nat
  network : Network

/-- Networks are kept under the path as it was written, and the format. -/
structure CacheKey where
  file : String
  format : Format
  deriving DecidableEq, Repr

inductive AccessError where
  | load (error : LoadError)
  | file (error : FileError)
  | noNetwork
  | unknownName (name : String)
  | noNames

def AccessError.message : AccessError → String
  | .load error => error.message
  | .file error => error.message
  | .noNetwork => "No graph provided"
  | .unknownName name => name
  | .noNames => "graphs"

structure Library where
  files : Files
  recent : List (CacheKey × Handle)
  next : Nat

structure Access (ε α : Type) where
  library : Library
  warnings : List Warning
  outcome : Except ε α

namespace Library

def capacity : Nat := 8

def ofFiles (files : Files) : Library := ⟨files, [], 0⟩

def fail {ε α : Type} (l : Library) (error : ε) : Access ε α := ⟨l, [], .error error⟩

def enter (l : Library) (g : Network) : Handle × Library :=
  (⟨l.next, g⟩, { l with next := l.next + 1 })

def kept? (l : Library) (key : CacheKey) : Option Handle :=
  (l.recent.find? fun e => e.1 = key).map (·.2)

/-- The network comes to the front, and the one unused for longest goes if there are too many. -/
def keep (l : Library) (key : CacheKey) (h : Handle) : Library :=
  { l with recent := ((key, h) :: l.recent.filter fun e => e.1 ≠ key).take capacity }

def readDocument (file : String) (bytes : ByteArray) : Except LoadError Json :=
  match String.fromUTF8? bytes with
  | none => .error (.data (.notText file))
  | some text =>
    match Json.read text.toList with
    | .error .malformed => .error (.data (.notDocument file))
    | .error (.longInteger digits) => .error (.longInteger digits)
    | .ok document => .ok document

def readNetwork (l : Library) (key : CacheKey) : Access AccessError Handle :=
  match l.files.read key.file with
  | .error e => l.fail (.file e)
  | .ok bytes =>
    match readDocument key.file bytes with
    | .error e => l.fail (.load e)
    | .ok document =>
      match Network.read key.format document with
      | ⟨warnings, .error e⟩ => ⟨l, warnings, .error (.load e)⟩
      | ⟨warnings, .ok g⟩ =>
        let (h, l) := l.enter g
        ⟨l.keep key h, warnings, .ok h⟩

/-- The network in a file: the one that is kept, or else read from the file. -/
def load (l : Library) (file : String) (format : Format) : Access AccessError Handle :=
  match l.kept? ⟨file, format⟩ with
  | some h => ⟨l.keep ⟨file, format⟩ h, [], .ok h⟩
  | none => l.readNetwork ⟨file, format⟩

def loadNamed (l : Library) (file : String) (format : Json) : Access AccessError Handle :=
  match format.lookUp Format.ofName? with
  | .error e => l.fail (.load (.badFormat e))
  | .ok format => l.load file format

structure Given where
  named : Option (Table String Handle)
  default : Option Handle

def resolve (l : Library) (given : Given) (ref : Option Config.NetworkRef) : Access AccessError Handle :=
  match ref with
  | none =>
    match given.default with
    | some h => ⟨l, [], .ok h⟩
    | none => l.fail .noNetwork
  | some (.byName name) =>
    match given.named with
    | none => l.fail .noNames
    | some named =>
      match named.get? name with
      | some h => ⟨l, [], .ok h⟩
      | none => l.fail (.unknownName name)
  | some (.byPath file format mustExist) =>
    if l.files.exists? file then l.load file format
    else if mustExist then l.fail (.file (.missing file))
    else
      let (h, l) := l.enter (Network.empty Network.defaultDigits)
      ⟨l, [], .ok h⟩

end Library

end RoadNames.Storage

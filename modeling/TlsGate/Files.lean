import TlsGate.Text.Split
import TlsGate.Text.Str

/-!
A file system as a value: what stands at each absolute path, and the directory that relative paths
start from. Names are bytes. Reading a file resolves its path component by component, and a path
that leads nowhere has a reason.
-/

set_option autoImplicit false
set_option relaxedAutoImplicit false

namespace TlsGate

inductive FileNode where
  | file (content : Bytes)
  | directory
  deriving DecidableEq, Repr

inductive FileFault where
  | missing
  | isDirectory
  | notDirectory
  | nameTooLong
  | nulInPath
  | unencodable
  deriving DecidableEq, Repr

def FileFault.reason : FileFault → String
  | missing => "No such file or directory"
  | isDirectory => "Is a directory"
  | notDirectory => "Not a directory"
  | nameTooLong => "File name too long"
  | nulInPath => "embedded null byte"
  | unencodable => "surrogates not allowed"

abbrev Location := List Bytes

structure FileSystem where
  nodes : List (Location × FileNode) := []
  home : Location := [Bytes.ofString "srv"]
  deriving Repr

namespace FileSystem

/-- What stands at a location; the working directory and the directories above it always exist. -/
def node? (fs : FileSystem) (l : Location) : Option FileNode :=
  if l.isPrefixOf fs.home then some .directory
  else (fs.nodes.find? (·.1 == l)).map Prod.snd

def slash : UInt8 := 47

def stays (name : Bytes) : Bool := name == [] || name == [46]

def goesUp (name : Bytes) : Bool := name == [46, 46]

def components (path : Bytes) : List Bytes := Text.fields slash path

def base (fs : FileSystem) (path : Bytes) : Location :=
  if path.head? = some slash then [] else fs.home

def enter (fs : FileSystem) (place : Location) (name : Bytes) : Except FileFault Location :=
  match fs.node? place with
  | some .directory =>
    if stays name then .ok place
    else if goesUp name then .ok place.dropLast
    else if 255 < name.length then .error .nameTooLong
    else
      let next := place ++ [name]
      if (fs.node? next).isSome then .ok next else .error .missing
  | some (.file _) => .error .notDirectory
  | none => .error .missing

def resolve (fs : FileSystem) (path : Str) : Except FileFault Location :=
  match path.nameBytes? with
  | none => .error .unencodable
  | some path =>
    if path.contains 0 then .error .nulInPath
    else if path = [] then .error .missing
    else if 4095 < path.length then .error .nameTooLong
    else (components path).foldlM fs.enter (fs.base path)

def read (fs : FileSystem) (path : Str) : Except FileFault Bytes := do
  match fs.node? (← fs.resolve path) with
  | some (.file content) => return content
  | some .directory => throw .isDirectory
  | none => throw .missing

def follow (place : Location) (name : Bytes) : Location :=
  if stays name then place else if goesUp name then place.dropLast else place ++ [name]

def target (fs : FileSystem) (path : Bytes) : Location :=
  (components path).foldl follow (fs.base path)

def put (fs : FileSystem) (l : Location) (n : FileNode) : FileSystem :=
  { fs with nodes := (l, n) :: fs.nodes.filter (·.1 != l) }

def remove (fs : FileSystem) (path : Bytes) : FileSystem :=
  let l := fs.target path
  { fs with nodes := fs.nodes.filter fun entry => !l.isPrefixOf entry.1 }

def write (fs : FileSystem) (path : Bytes) (n : FileNode) : FileSystem :=
  let l := fs.target path
  let above := (List.range l.length).map l.take
  let parents := above.foldl (fun fs place =>
    if (fs.node? place).isSome then fs else fs.put place .directory) (fs.remove path)
  parents.put l n

end FileSystem

end TlsGate

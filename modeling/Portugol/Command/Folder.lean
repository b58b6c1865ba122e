/-! # Files in a folder

The command works in a folder that is given by the files in it, each under the names on the way to it. The folder
lies in surroundings of which only the null device is known. A path is followed name by name: every name but the
last must be one of a directory, and one dot stays while two dots go up, out of the folder too. What cannot be
read or written is refused with the reason of the file system. -/
namespace Portugol.Command

inductive Opened where
  | missing (reason : String)
  | unreadable (reason : String)
  | contents (bytes : List UInt8)
deriving DecidableEq

def noSuchFile : String := "No such file or directory (os error 2)"
def notADirectory : String := "Not a directory (os error 20)"
def isADirectory : String := "Is a directory (os error 21)"
def nameTooLong : String := "File name too long (os error 36)"

def maxName : Nat := 255

def maxPath : Nat := 4095

/-- The files of a folder, each by the names on the way to it. -/
abbrev Folder := List (List String × List UInt8)

inductive Realm where
  | inner
  | outer
deriving DecidableEq

/-- A place by the names on the way to it, from the folder or from the root. -/
structure Site where
  realm : Realm
  names : List String
deriving DecidableEq

namespace Site

def child (s : Site) (name : String) : Site := { s with names := s.names ++ [name] }

/-- The directory that a directory lies in; the root lies in itself. -/
def parent : Site → Site
  | ⟨.inner, []⟩ => ⟨.outer, []⟩
  | s => { s with names := s.names.dropLast }

def origin (path : String) : Site := ⟨if path.toList.head? = some '/' then .outer else .inner, []⟩

end Site

/-- What a path leads to: a directory, a file, a name that is not taken in its directory, or nothing. -/
inductive Place where
  | directory (site : Site)
  | file (site : Site) (bytes : List UInt8)
  | vacancy (site : Site)
  | nothing (reason : String)

namespace Folder

/-- The names on a path; slashes that follow each other are one. -/
def names (path : String) : List String :=
  ((path.toList.splitOn '/').map String.ofList).filter fun name => name ≠ ""

def ofFiles (files : List (String × List UInt8)) : Folder :=
  files.map fun (path, bytes) => ((names path).filter fun name => name ≠ ".", bytes)

/-- What is known outside: a device that is empty and keeps nothing. -/
def surroundings : Folder := [(["dev", "null"], [])]

def filesOf (folder : Folder) : Realm → Folder
  | .inner => folder
  | .outer => surroundings

def step (folder : Folder) (here : Site) (name : String) : Place :=
  if name = "." then .directory here
  else if name = ".." then .directory here.parent
  else if maxName < name.utf8ByteSize then .nothing nameTooLong
  else
    let there := here.child name
    let files := folder.filesOf here.realm
    match files.lookup there.names with
    | some bytes => .file there bytes
    | none => if files.any fun (file, _) => there.names.isPrefixOf file then .directory there else .vacancy there

/-- What names lead to from a directory; only the last may be one of no directory. -/
def walk (folder : Folder) (here : Site) : List String → Place
  | [] => .directory here
  | name :: rest =>
    match folder.step here name with
    | .directory there => walk folder there rest
    | .file there bytes => if rest = [] then .file there bytes else .nothing notADirectory
    | .vacancy there => if rest = [] then .vacancy there else .nothing noSuchFile
    | .nothing reason => .nothing reason

/-- Why a path leads nowhere whatever there is. -/
def malformed? (path : String) : Option String :=
  if path = "" then some noSuchFile else if maxPath < path.utf8ByteSize then some nameTooLong else none

def endsAsDirectory (path : String) : Bool := path.toList.getLast? = some '/'

def read (folder : Folder) (path : String) : Opened :=
  match malformed? path with
  | some reason => .missing reason
  | none =>
    match folder.walk (.origin path) (names path) with
    | .directory _ => .unreadable isADirectory
    | .file _ bytes => if endsAsDirectory path then .missing notADirectory else .contents bytes
    | .vacancy _ => .missing noSuchFile
    | .nothing reason => .missing reason

/-- The place in a directory where a file is written under a name, if one can be. -/
def target (folder : Folder) (path : String) (here : Site) (name : String) : Except String Place :=
  if endsAsDirectory path then .error isADirectory
  else
    match folder.step here name with
    | .directory _ => .error isADirectory
    | .nothing reason => .error reason
    | place => .ok place

/-- The place where a file is written, or the reason why none can be. -/
def writable (folder : Folder) (path : String) : Except String Place :=
  match malformed? path, (names path).getLast? with
  | some reason, _ => .error reason
  | none, none => .error isADirectory
  | none, some name =>
    match folder.walk (.origin path) (names path).dropLast with
    | .directory here => folder.target path here name
    | .file .. => .error notADirectory
    | .vacancy _ => .error noSuchFile
    | .nothing reason => .error reason

def refusal? (folder : Folder) (path : String) : Option String :=
  match folder.writable path with
  | .error reason => some reason
  | .ok _ => none

/-- The names of the new file in the folder that writing at a path makes, if it makes one. -/
def newFile? (folder : Folder) (path : String) : Option (List String) :=
  match folder.writable path with
  | .ok (.vacancy ⟨.inner, names⟩) => some names
  | _ => none

end Folder
end Portugol.Command

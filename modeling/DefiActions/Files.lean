import DefiActions.Error

/-!
# Files

A path is the names on the way to a file. Empty names and single dots in its
text do not count. A set of files holds the content of each file by its path;
the beginnings of these paths are directories.
-/

namespace DefiActions

structure FilePath where
  isAbsolute : Bool
  names : List (List Char)
  deriving DecidableEq, Repr

namespace FilePath

def counts (name : List Char) : Bool := name ≠ [] && name ≠ ['.']

def ofText (s : String) : FilePath where
  isAbsolute := ['/'].isPrefixOf s.toList
  names := (s.toList.splitOn '/').filter counts

def child (p : FilePath) (name : String) : FilePath := { p with names := p.names ++ (ofText name).names }

def text (p : FilePath) : String :=
  let body := ['/'].intercalate p.names
  if p.isAbsolute then String.ofList ('/' :: body)
  else if body = [] then "."
  else String.ofList body

/-- Whether a path lies below another one. -/
def isBelow (p q : FilePath) : Bool :=
  p.isAbsolute = q.isAbsolute && q.names.isPrefixOf p.names && p.names ≠ q.names

end FilePath

abbrev Files := List (FilePath × Bytes)

namespace Files

def get? (files : Files) (p : FilePath) : Option Bytes := files.lookup p

def isDirectory (files : Files) (p : FilePath) : Bool := p.names = [] || files.any (·.1.isBelow p)

def fault (files : Files) (p : FilePath) : FileFault :=
  if files.isDirectory p then .isDirectory
  else if files.any (p.isBelow ·.1) then .throughFile
  else .missing

def read (files : Files) (p : FilePath) : Except Failure Bytes :=
  match files.get? p with
  | some content => .ok content
  | none => throw (.file (files.fault p) p.text)

end Files

end DefiActions

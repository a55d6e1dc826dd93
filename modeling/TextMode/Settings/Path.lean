import TextMode.Text.Basic

/-!
# Paths

A path is shown without empty components and without components that are a single
dot.  Exactly two leading slashes are kept, since they may mean something of their
own; any other number of them is one.
-/

namespace TextMode.Path

def root (path : Text) : Text :=
  match (path.takeWhile (· = '/')).length with
  | 0 => []
  | 2 => ['/', '/']
  | _ => ['/']

/-- The components that name something. -/
def names (path : Text) : List Text :=
  (Text.splitOn '/' path).filter fun part => part ≠ [] && part ≠ ['.']

def normalise (path : Text) : Text :=
  match root path ++ ['/'].intercalate (names path) with
  | [] => ['.']
  | shown => shown

def isAbsolute (path : Text) : Bool :=
  path.head? = some '/'

/-- A path below a directory, unless it is absolute itself. -/
def join (directory path : Text) : Text :=
  if isAbsolute path || directory = ['.'] then path
  else if path = ['.'] then directory
  else if directory.getLast? = some '/' then directory ++ path
  else directory ++ '/' :: path

end TextMode.Path

import LintReport.Text.Basic

/-! # Paths of source files

Making the path that a report gives into the path of a file below a workspace root. A
path is cut at its slashes; empty and single-dot components are dropped and a double
dot takes the component before it away (`normalize`). A path is complete by itself
when it starts with a slash or with a drive letter (`resolve`). -/

namespace LintReport.SourcePath

open Text

/-- The marker that switches off the length limit of a path. -/
def longPathMarker : List Char := ['\\', '\\', '?', '\\']

/-- The path without the marker that it may start with. -/
def withoutMarker (path : List Char) : List Char :=
  (after? longPathMarker path).getD path

/-- The path with slashes for its backslashes. -/
def withSlashes (path : List Char) : List Char :=
  path.map fun char => if char = '\\' then '/' else char

/-- Whether a path starts with a letter of ASCII and a colon. -/
def hasDrive : List Char → Bool
  | letter :: ':' :: _ => letter.isAlpha
  | _ => false

/-- Whether a path starts with a slash. -/
def isRooted (path : List Char) : Bool :=
  path.head? == some '/'

/-- The slashes that a normal path starts with: two when there are exactly two, and one
when there are any other number of them. -/
def leadingSlashes : List Char → List Char
  | '/' :: '/' :: '/' :: _ => ['/']
  | '/' :: '/' :: _ => ['/', '/']
  | '/' :: _ => ['/']
  | _ => []

/-- What the next component does to the components kept so far, the last one first. A
double dot that finds nothing to take away is kept, unless the path is rooted. -/
def keepComponent (rooted : Bool) (kept : List (List Char)) (component : List Char) :
    List (List Char) :=
  if component = [] ∨ component = ['.'] then kept
  else if component = ['.', '.'] then
    match kept with
    | [] => if rooted then [] else [component]
    | last :: before => if last = ['.', '.'] then component :: kept else before
  else component :: kept

/-- The components of a normal path, in order. -/
def normalComponents (rooted : Bool) (components : List (List Char)) : List (List Char) :=
  (components.foldl (keepComponent rooted) []).reverse

/-- The normal form of a path, a single dot when nothing is left of it. -/
def normalize (path : List Char) : List Char :=
  let components := normalComponents (isRooted path) (splitAt '/' path)
  match leadingSlashes path ++ join ['/'] components with
  | [] => ['.']
  | shown => shown

/-- A path seen from a directory: itself when it is rooted, and below the directory
otherwise. -/
def below (directory path : List Char) : List Char :=
  if isRooted path then path
  else if directory = [] ∨ directory.getLast? = some '/' then directory ++ path
  else directory ++ '/' :: path

/-- The normal form of a reported path, below the root unless it is complete by
itself. A complete path keeps its backslashes. -/
def resolveChars (reported root : List Char) : List Char :=
  let path := withoutMarker reported
  if isRooted path || hasDrive (withSlashes path) then normalize path
  else normalize (below root (withSlashes path))

/-- The path of the file that a report names. -/
def resolve (reported root : String) : String :=
  String.ofList (resolveChars reported.toList root.toList)

end LintReport.SourcePath

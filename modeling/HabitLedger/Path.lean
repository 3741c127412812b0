/-!
Paths as texts: names with slashes between them. An empty name means nothing, `.` stays where it is
and `..` goes up. What a path means is decided where it is walked; here paths are only put together
and taken apart.
-/

namespace HabitLedger.Path

def pieces (path : String) : List (List Char) := path.toList.splitOn '/'

def ofPieces (row : List (List Char)) : String := String.ofList (['/'].intercalate row)

def parts (path : String) : List String := ((pieces path).filter (· ≠ [])).map String.ofList

def isIdle (piece : List Char) : Bool := piece = [] || piece = ['.']

def settled (row : List (List Char)) : List (List Char) := (row.reverse.dropWhile isIdle).reverse

def isAbsolute (path : String) : Bool := path.toList.head? = some '/'

def endsInSlash (path : String) : Bool := path.toList.getLast? = some '/'

def below (base path : String) : String :=
  if isAbsolute path then path
  else if base = "" ∨ endsInSlash base then base ++ path
  else base ++ "/" ++ path

/-- A path as it is meant in a working directory. The empty path is meant nowhere. -/
def fromDirectory (directory path : String) : String :=
  if path = "" then "" else below directory path

def parent (path : String) : String := ofPieces (settled (settled (pieces path)).dropLast)

/-- The name at the end of a path, unless it ends by going up or nowhere. -/
def name? (path : String) : Option (List Char) :=
  (settled (pieces path)).getLast?.filter (· ≠ ['.', '.'])

end HabitLedger.Path

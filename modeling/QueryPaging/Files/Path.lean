/-!
# Paths

A path is a text whose pieces are set apart by slashes. Empty pieces and single dots mean nothing,
save a dot that opens a relative path, and two dots lead to the parent directory. What follows the
last dot of a file name is its extension, unless that dot opens the name.
-/

namespace QueryPaging.Path

/-- A step of a path. -/
inductive Component where
  | root
  | here
  | above
  | name (text : String)
deriving DecidableEq

/-- The pieces of a text between slashes. -/
def split : List Char → List (List Char)
  | [] => [[]]
  | c :: rest =>
      match c, split rest with
      | '/', pieces => [] :: pieces
      | _, piece :: pieces => (c :: piece) :: pieces
      | _, [] => [[c]]

/-- The step a piece stands for. A dot counts only where `opens` is set. -/
def step? (opens : Bool) (piece : List Char) : Option Component :=
  match piece with
  | [] => none
  | ['.'] => if opens then some .here else none
  | ['.', '.'] => some .above
  | name => some (.name (String.ofList name))

def isAbsolute (path : String) : Bool :=
  path.toList.head? == some '/'

def components (path : String) : List Component :=
  match split path.toList with
  | [] => []
  | first :: pieces =>
      (if isAbsolute path then [Component.root] else (step? true first).toList)
        ++ pieces.filterMap (step? false)

/-- The file a path leads to. There is none where the path ends in its root or in dots. -/
def fileName? (path : String) : Option String :=
  match (components path).getLast? with
  | some (.name text) => some text
  | _ => none

/-- What follows the last dot of a name, unless that dot opens the name. -/
def extensionOf? (name : String) : Option String :=
  let letters := name.toList.reverse
  match letters.dropWhile (· != '.') with
  | '.' :: _ :: _ => some (String.ofList (letters.takeWhile (· != '.')).reverse)
  | _ => none

def extension? (path : String) : Option String :=
  (fileName? path).bind extensionOf?

/-- Whether a path leads to a document by its extension. -/
def isGraphql (path : String) : Bool :=
  extension? path == some "graphql" || extension? path == some "gql"

/-- A path taken from a directory. An absolute path stands for itself. -/
def join (directory path : String) : String :=
  if isAbsolute path || directory.isEmpty then path
  else if directory.toList.getLast? == some '/' then directory ++ path
  else directory ++ "/" ++ path

def ofPieces (pieces : List (List Char)) : String :=
  String.ofList (['/'].intercalate pieces)

/-- Whether a piece that does not open a path means nothing. -/
def isIdle (piece : List Char) : Bool :=
  (step? false piece).isNone

/-- Pieces without those at the end that mean nothing. The first piece is kept. -/
def trimPieces : List (List Char) → List (List Char)
  | [] => []
  | first :: pieces => first :: (pieces.reverse.dropWhile isIdle).reverse

/-- The directory that holds what a path leads to. -/
def parent? (path : String) : Option String :=
  match trimPieces (split path.toList) with
  | [] => none
  | [[]] => none
  | [_] => if isAbsolute path then none else some ""
  | first :: second :: pieces =>
      let kept := trimPieces (first :: (second :: pieces).dropLast)
      if kept = [[]] then some "/" else some (ofPieces kept)

/-- A directory and the directories above it, up to `fuel` of them. -/
def upwards : (fuel : Nat) → String → List String
  | 0, _ => []
  | fuel + 1, directory =>
      directory :: match parent? directory with
        | some above => upwards fuel above
        | none => []

/-- A directory and all directories above it, from the innermost outwards. -/
def ancestors (directory : String) : List String :=
  upwards (directory.length + 1) directory

def dropSteps? : List Component → List (List Char) → Option (List (List Char))
  | [], pieces => some pieces
  | _ :: _, [] => none
  | step :: steps, piece :: pieces =>
      match step? false piece with
      | none => dropSteps? (step :: steps) pieces
      | some taken => if taken = step then dropSteps? steps pieces else none

def afterFirst (path : String) : List (List Char) :=
  (split path.toList).drop 1

/-- A path as it is seen from a directory that leads to it. Any other path stays as it is. -/
def relativeTo (directory path : String) : String :=
  let rest :=
    match components directory, components path with
    | [], _ => none
    | first :: steps, start :: _ =>
        if first = start then dropSteps? steps (afterFirst path) else none
    | _, [] => none
  match rest with
  | none => path
  | some pieces =>
      match pieces.dropWhile isIdle with
      | [] => ""
      | kept => ofPieces (trimPieces kept)

end QueryPaging.Path

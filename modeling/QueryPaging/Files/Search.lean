import QueryPaging.Files.Access
import QueryPaging.Files.Path
import QueryPaging.Files.Pattern

/-!
# Searching for files

The files that fit a pattern, and lists of paths in which each path stands once, ordered by its
steps.
-/

namespace QueryPaging

/-- A path that could not be read. -/
structure Unreadable where
  path : String
  fault : ReadFault
deriving DecidableEq

namespace Unreadable

def message (unreadable : Unreadable) : String :=
  "failed to read " ++ unreadable.path ++ ": " ++ unreadable.fault.message

end Unreadable

namespace Path

/-! ## Order of paths -/

/-- The place of a step among others of a different kind. -/
def Component.rank : Component → Nat
  | .root => 0
  | .here => 1
  | .above => 2
  | .name _ => 3

/-- Whether a step comes before another. Names are ordered by their characters. -/
def Component.precedes : Component → Component → Bool
  | .name left, .name right => left < right
  | left, right => left.rank < right.rank

/-- Whether some steps come before others. The first that differ decide; fewer steps come
first. -/
def precedes : List Component → List Component → Bool
  | _, [] => false
  | [], _ :: _ => true
  | left :: lefts, right :: rights =>
      if left = right then precedes lefts rights else left.precedes right

/-- The paths with one more, in order. A path that takes the same steps as one already there is
left out. -/
def insertSorted (path : String) : List String → List String
  | [] => [path]
  | first :: others =>
      if components path = components first then first :: others
      else if precedes (components path) (components first) then path :: first :: others
      else first :: insertSorted path others

end Path

/-! ## Patterns of paths -/

/-- A pattern for paths: where it starts, and its steps from there. -/
structure PathPattern where
  start : String
  steps : List PatternStep
  /-- A pattern that ends in a slash fits directories alone. -/
  wantsDirectory : Bool

namespace PathPattern

def ofText? (text : String) : Option PathPattern := do
  let isAbsolute := Path.isAbsolute text
  let pieces := Path.split (if isAbsolute then text.toList.drop 1 else text.toList)
  let wantsDirectory := pieces.getLast? == some []
  let steps ← (if wantsDirectory then pieces.dropLast else pieces).mapM PatternStep.ofPiece?
  return ⟨if isAbsolute then "/" else ".", steps, wantsDirectory⟩

end PathPattern

/-! ## Following a pattern -/

namespace Search

/-- A search for files in some monad. -/
abbrev Searching (m : Type → Type) := ExceptT Unreadable m

variable {m : Type → Type} [Monad m]

/-- The path one step below another. A step from the directory of the program is written by
itself. -/
def below (path name : String) : String :=
  if Path.components path = [.here] then name else Path.join path name

def kind? (access : FileAccess m) (path : String) : Searching m (Option FileKind) :=
  ExceptT.lift (access.kind? path)

def namesBelow (access : FileAccess m) (path : String) : Searching m (List String) := do
  if (← kind? access path) = some .directory then
    match ← ExceptT.lift (access.list path) with
    | .ok names => return names
    | .error fault => throw ⟨path, fault⟩
  else
    return []

/-- Whether a step that is spelled out can be taken. -/
def canTake (access : FileAccess m) (path name : String) : Searching m Bool := do
  if name == "." || name == ".." then
    return (← kind? access path) == some .directory
  else
    return (← kind? access (below path name)).isSome

/-- The dots that fit a step as names. They have to be asked for with a dot. -/
def dotsFitting : PatternStep → List String
  | .wild (.character '.' :: parts) =>
      [".", ".."].filter fun dots => Wildcard.fits (.character '.' :: parts) dots.toList
  | _ => []

/-- The paths that some steps lead to. Every step down uses up one unit of `fuel`. -/
def follow (access : FileAccess m) : (fuel : Nat) → List PatternStep → String →
    Searching m (List String)
  | 0, _, _ => return []
  | _, [], path => return [path]
  | fuel + 1, .literal name :: steps, path => do
      if ← canTake access path name then
        follow access fuel steps (below path name)
      else
        return []
  | fuel + 1, .wild parts :: steps, path => do
      let names := (← namesBelow access path).filter (PatternStep.wild parts).accepts
      let dots := dotsFitting (.wild parts)
      let found ← (names.map (below path) ++ dots.map (Path.join path)).mapM
        (follow access fuel steps)
      return found.flatten
  | fuel + 1, .deep :: steps, path => do
      match steps.dropWhile (· == .deep) with
      | [] => return []
      | step :: later =>
          let found ← (← namesBelow access path).mapM fun name => do
            let child := below path name
            let here ←
              if step.accepts name then follow access fuel later child else pure []
            return here ++ (← follow access fuel (.deep :: step :: later) child)
          return found.flatten

/-- The most steps a path can take: longer ones cannot be opened. -/
def longestPath : Nat := 4096

def files (access : FileAccess m) (pattern : PathPattern) : Searching m (List String) := do
  let found ← follow access longestPath pattern.steps pattern.start
  if pattern.wantsDirectory then
    return []
  else
    found.filterM fun path => return (← kind? access path) == some .file

end Search

end QueryPaging

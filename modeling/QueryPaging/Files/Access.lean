/-!
# Access to files

What a program may ask of the files around it. The questions are answered in some monad, so the same
program runs over real files and over a tree of files held in memory.
-/

namespace QueryPaging

/-- What may stand at a path. -/
inductive FileKind where
  | file
  | directory
deriving DecidableEq

/-- Why a file cannot be read. -/
inductive ReadFault where
  | missing
  | isDirectory
  | notDirectory
  | notText
  | denied
deriving DecidableEq

def ReadFault.message : ReadFault → String
  | .missing => "No such file or directory (os error 2)"
  | .isDirectory => "Is a directory (os error 21)"
  | .notDirectory => "Not a directory (os error 20)"
  | .notText => "stream did not contain valid UTF-8"
  | .denied => "Permission denied (os error 13)"

/-- The questions that a program may ask of the files around it. -/
structure FileAccess (m : Type → Type) where
  /-- The text of a file. -/
  read : String → m (Except ReadFault String)
  /-- What stands at a path. -/
  kind? : String → m (Option FileKind)
  /-- The names in a directory. -/
  list : String → m (Except ReadFault (List String))

end QueryPaging

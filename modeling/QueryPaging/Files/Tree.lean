import QueryPaging.Files.Access
import QueryPaging.Files.Path

/-!
# Trees of files

Files held in memory. A path is followed from the root or from the working directory, with the
directories passed on the way remembered so that two dots lead back up.
-/

namespace QueryPaging

/-- A file or a directory with all it holds. -/
inductive FileNode where
  | file (text : String)
  | directory (entries : List (String × FileNode))

namespace FileNode

def empty : FileNode := .directory []

def kind : FileNode → FileKind
  | .file _ => .file
  | .directory _ => .directory

/-- What a directory holds. -/
def entries? : FileNode → Option (List (String × FileNode))
  | .file _ => none
  | .directory entries => some entries

/-- The entries with one of them replaced, or added to the end. -/
def putEntry (name : String) (node : FileNode) :
    List (String × FileNode) → List (String × FileNode)
  | [] => [(name, node)]
  | (first, old) :: others =>
      if first = name then (first, node) :: others else (first, old) :: putEntry name node others

/-- The tree with a node placed at the end of some names. Directories are made on the way. -/
def place (node : FileNode) : List String → FileNode → FileNode
  | [], _ => node
  | name :: names, tree =>
      let entries := tree.entries?.getD []
      .directory (putEntry name (place node names ((entries.lookup name).getD empty)) entries)

/-- The directory with some names leading to a directory. What is there already stays. -/
def makeDirectory : List String → FileNode → FileNode
  | [], tree => tree
  | name :: names, tree =>
      let entries := tree.entries?.getD []
      .directory
        (putEntry name (makeDirectory names ((entries.lookup name).getD empty)) entries)

/-! ## Following paths -/

/-- Take a step. The trail holds the node reached and then the directories above it, with the root
last. -/
def takeStep (root : FileNode) (trail : List FileNode) (step : Path.Component) :
    Except ReadFault (List FileNode) :=
  match trail with
  | [] => .error .missing
  | here :: above =>
      match step, here.entries? with
      | .root, _ => .ok [root]
      | _, none => .error .notDirectory
      | .here, some _ => .ok (here :: above)
      | .above, some _ => .ok (if above.isEmpty then [here] else above)
      | .name name, some entries =>
          match entries.lookup name with
          | some next => .ok (next :: here :: above)
          | none => .error .missing

end FileNode

/-- A tree of files and the directory in which a program works. -/
structure FileTree where
  root : FileNode
  workingDirectory : String

namespace FileTree

/-- Whether a path asks for a directory by the way it ends. -/
def asksDirectory (path : String) : Bool :=
  match (Path.split path.toList).getLast? with
  | some piece => Path.isIdle piece
  | none => false

def node (tree : FileTree) (path : String) : Except ReadFault FileNode := do
  if path.isEmpty then throw .missing
  let steps := Path.components (Path.join tree.workingDirectory path)
  let trail ← steps.foldlM (FileNode.takeStep tree.root) [tree.root]
  match trail with
  | [] => throw .missing
  | reached :: _ =>
      if asksDirectory path && reached.entries?.isNone then throw .notDirectory
      return reached

def read (tree : FileTree) (path : String) : Except ReadFault String := do
  match ← tree.node path with
  | .file text => return text
  | .directory _ => throw .isDirectory

def kind? (tree : FileTree) (path : String) : Option FileKind :=
  match tree.node path with
  | .ok reached => some reached.kind
  | .error _ => none

def list (tree : FileTree) (path : String) : Except ReadFault (List String) := do
  match (← tree.node path).entries? with
  | some entries => return entries.map Prod.fst
  | none => throw .notDirectory

/-- The files of a tree as a program sees them. -/
def access (tree : FileTree) : FileAccess Id :=
  { read := tree.read
    kind? := tree.kind?
    list := tree.list }

end FileTree

end QueryPaging

import ColumnFormula.Text.Utf8

/-!
# Folders and files

A tree holds the folders and files seen from one place. A path is the list of names that leads
to a folder or file; the empty path leads to the place itself, two dots lead up from it, and an
empty name at the beginning leads to the root of all folders. The tree only ever grows: files
are created, extended and overwritten, and may become folders.
-/

namespace ColumnFormula

/-- The names that lead to a file or folder. -/
abbrev Path := List String

/-- Why a file or folder cannot be used. -/
inductive FileError where
  | notFound
  | isFolder
  | notFolder
  | alreadyExists
  | nameTooLong
  deriving DecidableEq, Repr

/-- What stands at a path. -/
inductive Node where
  | file (bytes : List UInt8)
  | folder
  deriving DecidableEq, Repr

/-- Folders and files by their paths. -/
structure FileTree where
  nodes : List (Path × Node)

namespace FileTree

def empty : FileTree := ⟨[]⟩

/-- The root of all folders. -/
def root : Path := [""]

/-- Whether a path leads to the place itself, to a folder above it or to the root. -/
def isAncestor (path : Path) : Bool :=
  path.all (· == "..") || path == root

def node? (tree : FileTree) (path : Path) : Option Node :=
  if isAncestor path then some .folder else tree.nodes.lookup path

/-- The path of the folder that holds what stands at a path. -/
def parent (path : Path) : Path :=
  if path = root then root
  else if isAncestor path then path ++ [".."]
  else path.dropLast

/-- Whether a folder stands at a path. -/
def isFolder (tree : FileTree) (path : Path) : Bool :=
  tree.node? path = some .folder

/-- Nodes with another node at a path: in place of the one there, or at the end. -/
def setNode (path : Path) (node : Node) : List (Path × Node) → List (Path × Node)
  | [] => [(path, node)]
  | entry :: entries =>
    if entry.1 = path then (path, node) :: entries else entry :: setNode path node entries

/-- The tree with another node at a path. -/
def put (tree : FileTree) (path : Path) (node : Node) : FileTree :=
  ⟨setNode path node tree.nodes⟩

/-- Whether a name has more bytes than a name may have. -/
def isTooLong (name : String) : Bool :=
  255 < name.utf8ByteSize

/-- What stands at a path, if its names can be names at all. -/
def find (tree : FileTree) (path : Path) : Except FileError (Option Node) :=
  if path.any isTooLong then .error .nameTooLong else .ok (tree.node? path)

def read (tree : FileTree) (path : Path) : Except FileError (List UInt8) := do
  match ← tree.find path with
  | some (.file bytes) => .ok bytes
  | some .folder => .error .isFolder
  | none => .error .notFound

/-- The tree with the bytes of a file changed by `f`; a file that does not exist is created
in its folder. -/
def modify (tree : FileTree) (path : Path) (f : List UInt8 → List UInt8) :
    Except FileError FileTree := do
  match ← tree.find path with
  | some (.file bytes) => .ok (tree.put path (.file (f bytes)))
  | some .folder => .error .isFolder
  | none =>
    match tree.node? path.dropLast with
    | some .folder => .ok (tree.put path (.file (f [])))
    | some (.file _) => .error .notFolder
    | none => .error .notFound

def append (tree : FileTree) (path : Path) (bytes : List UInt8) : Except FileError FileTree :=
  tree.modify path (· ++ bytes)

def write (tree : FileTree) (path : Path) (bytes : List UInt8) : Except FileError FileTree :=
  tree.modify path fun _ => bytes

/-- The tree with a folder at `done ++ names`, given one at `done`. -/
def makeFoldersFrom (tree : FileTree) (done : Path) : Path → Except FileError FileTree
  | [] => .ok tree
  | name :: names =>
    let path := done ++ [name]
    if isTooLong name then .error .nameTooLong
    else
      match tree.node? path with
      | some (.file _) => .error (if names.isEmpty then .alreadyExists else .notFolder)
      | some .folder => makeFoldersFrom tree path names
      | none => makeFoldersFrom (tree.put path .folder) path names

/-- The tree with a folder at a path, and the folders that lead to it. -/
def makeFolders (tree : FileTree) (path : Path) : Except FileError FileTree :=
  makeFoldersFrom tree [] path

/-- The tree with a folder in place of the file at a path, if there is one; the folder that
holds it must be there. -/
def replaceByFolder (tree : FileTree) (path : Path) : Except FileError FileTree := do
  match ← tree.find path with
  | some .folder => .error .isFolder
  | some (.file _) => .ok (tree.put path .folder)
  | none =>
    match tree.node? path.dropLast with
    | some .folder => .ok (tree.put path .folder)
    | some (.file _) => .error .notFolder
    | none => .error .notFound

def pathText (path : Path) : String :=
  "/".intercalate path

/-- The files of a tree, in the order of their paths. -/
def files (tree : FileTree) : List String :=
  (tree.nodes.filterMap fun (path, node) =>
    match node with
    | .file _ => some (pathText path)
    | .folder => none).mergeSort (· ≤ ·)

end FileTree

end ColumnFormula

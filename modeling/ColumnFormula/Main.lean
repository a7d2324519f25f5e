import Std.Time.DateTime.Timestamp
import ColumnFormula.CommandLine
import ColumnFormula.Event.Stamp

/-!
# The program

The program reads the files that its command may look at, lets the command work on them,
and extends on the disk what the command has extended.
-/

namespace ColumnFormula.Program

/-- What stands at a path of the disk. -/
def readNode (path : Path) : IO (Option Node) := do
  match ← (IO.FS.readBinFile (FileTree.pathText path)).toBaseIO with
  | .ok bytes => return some (.file bytes.toList)
  | .error (.inappropriateType ..) => return some .folder
  | .error _ => return none

/-- The disk as far as some paths lead, each of them listed behind the folder that holds
it. -/
def readTree (paths : List Path) : IO FileTree :=
  paths.foldlM (fun tree path => do
    if (tree.node? path).isSome || !tree.isFolder path.dropLast then return tree
    match ← readNode path with
    | some node => return tree.put path node
    | none => return tree) .empty

/-- Make a folder that is new, or write what is new in a file behind what it holds. -/
def writeNode (before : FileTree) (path : Path) : Node → IO Unit
  | .folder => if before.isFolder path then pure () else
    IO.FS.createDirAll (FileTree.pathText path)
  | .file bytes => do
    let held := match before.node? path with
      | some (.file held) => held.length
      | _ => 0
    if held < bytes.length then
      let handle ← IO.FS.Handle.mk (FileTree.pathText path) .append
      handle.write ⟨(bytes.drop held).toArray⟩

/-- Run a command on the disk as seen from the working folder. -/
def run (args : List String) : IO UInt32 := do
  let tree ← readTree (CommandLine.watchedPaths args)
  let input ← if args.contains "-" then (← IO.getStdin).readToEnd else pure ""
  let moment ← Std.Time.Timestamp.now
  let now := Stamp.ofMicroseconds (moment.toNanosecondsSinceUnixEpoch.val.toNat / 1000)
  let clock := Binary64.ofRatio false (← IO.monoMsNow) 1000
  let (after, ending) := CommandLine.run { tree, input, now, clock } args
  for (path, node) in after.nodes do
    writeNode tree path node
  match ending with
  | .exit code output errors =>
    IO.print output
    IO.eprint errors
    return code.toUInt32
  | .usage =>
    IO.eprintln CommandLine.helpText
    return 2
  | .crash cause =>
    IO.eprintln cause.message
    return 1

end ColumnFormula.Program

def main (args : List String) : IO UInt32 :=
  ColumnFormula.Program.run args

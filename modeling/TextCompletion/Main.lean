import TextCompletion.Program

/-!
The command line program. It takes a picture of the model directory, runs on that, and writes what
the run leaves behind. Files outside the model directory are not in the picture.
-/

namespace TextCompletion.Snapshot

def node : Nat → String → IO FileNode
  | 0, _ => pure (.directory [])
  | depth + 1, path => do
    let real ← IO.FS.realPath path
    if ← real.isDir then
      let entries ← real.readDir
      let inner ← entries.toList.mapM fun e => do
        try
          pure (some (e.fileName, ← node depth (FilePath.join path e.fileName)))
        catch _ => pure none
      pure (.directory (inner.filterMap id))
    else pure (.file (← IO.FS.readBinFile path).toList)

def maxDepth : Nat := 32

/-- The tree that holds what is at a path, and nothing else. -/
def tree (path : Option String) : IO FileTree := do
  let workingDirectory := (← IO.currentDir).toString
  let empty : FileNode := .directory []
  let root := empty.insert (FilePath.fromRoot "/" workingDirectory) empty
  match path with
  | none => pure { root, workingDirectory }
  | some path =>
    try
      let found ← node maxDepth path
      pure { root := found.insert (FilePath.fromRoot workingDirectory path) root, workingDirectory }
    catch _ => pure { root, workingDirectory }

end TextCompletion.Snapshot

open TextCompletion in
def main (arguments : List String) : IO UInt32 := do
  let setting ← IO.getEnv Verbosity.variableName
  let files ← Snapshot.tree (Program.directory? arguments)
  let result := Program.run { arguments, verbosity := setting.map String.toUTF8, files }
  (← IO.getStderr).putStr result.errorOutput
  try
    (← IO.getStdout).write (ByteArray.mk result.output.toArray)
    (← IO.getStdout).flush
    return UInt32.ofNat result.exitCode
  catch e =>
    let failure : Failure := ⟨[.writeOutput], .stated (toString e)⟩
    let error : RunError := .inference failure.message
    (← IO.getStderr).putStr (error.message ++ "\n")
    return UInt32.ofNat error.exitCode

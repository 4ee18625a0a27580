import BulkTransfer.Cli.Paths

/-!
The program: looks up what a run can touch, runs it, and writes back what has changed.
-/

namespace BulkTransfer.Program

/-- The bytes as the library has them. -/
def bytesOfArray (b : ByteArray) : Bytes := b.toList

/-- The bytes as files and streams have them. -/
def arrayOfBytes (b : Bytes) : ByteArray := ⟨b.toArray⟩

/-- Reads a stream to its end. -/
partial def readAll (stream : IO.FS.Stream) (before : ByteArray) : IO ByteArray := do
  let block ← stream.read 65536
  if block.isEmpty then return before
  readAll stream (before ++ block)

/-- Looks up a path and all that is below it. -/
partial def lookUp (tree : FileTree) (path : String) : IO FileTree := do
  let place := (← IO.currentDir) / path
  if ← place.isDir then
    let mut tree := tree.put (FileTree.placeOf path) .directory
    for entry in ← place.readDir do
      tree ← lookUp tree (Path.join path entry.fileName)
    return tree
  else if ← place.pathExists then
    let bytes ← IO.FS.readBinFile place
    return tree.put (FileTree.placeOf path) (.file (Cli.contentOf (bytesOfArray bytes)))
  else return tree

/-- Looks up a path, with the directories on the way to it. -/
def lookUpWay (tree : FileTree) (path : String) : IO FileTree := do
  let components := Path.components path
  let mut tree := tree
  for n in List.range components.length do
    let above := Path.ofComponents (components.take n)
    if n != 0 && (← ((← IO.currentDir) / above).isDir) then
      tree := tree.put (FileTree.placeOf above) .directory
  lookUp tree path

/-- Looks up paths. -/
def lookUpAll (tree : FileTree) (paths : List String) : IO FileTree := paths.foldlM lookUpWay tree

/-- Looks up the variables that a run can ask for. -/
def environment : IO Cli.Environment := do
  let mut env : Cli.Environment := []
  for name in Cli.variableNames do
    if let some value ← IO.getEnv name then
      env := Keyed.insert name value env
  return env

/-- Takes a step outside. -/
def takeStep : Cli.Change → IO Unit
  | .makeDirectory path => do IO.FS.createDirAll ((← IO.currentDir) / path)
  | .writeFile path bytes => do
    IO.FS.writeBinFile ((← IO.currentDir) / path) (arrayOfBytes bytes)

/-- Writes back and prints what a run leaves. -/
def finish (before : FileTree) (done : Cli.Ended) : IO UInt32 := do
  (Cli.changes before done.tree).forM takeStep
  (← IO.getStdout).write (arrayOfBytes done.console.output)
  (← IO.getStdout).flush
  (← IO.getStderr).write (arrayOfBytes done.console.errors)
  return done.exit.toUInt32

end BulkTransfer.Program

open BulkTransfer Program in
/-- Runs the program. -/
def main (args : List String) : IO UInt32 := do
  let env ← environment
  match Cli.readArguments env args with
  | .error stop => finish .empty (Cli.endStopped env .empty stop)
  | .ok invocation =>
    let tree ← lookUpAll .empty (Cli.configPaths env invocation)
    match Cli.configOf env tree invocation with
    | .error line => finish tree (Cli.endFailed tree line)
    | .ok config =>
      let input ←
        if Cli.readsInput (Cli.homeOf env) invocation.task then
          readAll (← IO.getStdin) .empty
        else pure .empty
      let input := bytesOfArray input
      let tree ← lookUpAll tree (Cli.taskPaths env invocation config input)
      finish tree (Cli.runConfigured env invocation config input tree)

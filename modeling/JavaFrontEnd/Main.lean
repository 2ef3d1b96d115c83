/-
The command line. What the paths among the arguments lead to is read first, whatever they are for;
all else is done without effects.
-/

import JavaFrontEnd.Command

namespace JavaFrontEnd

def ReadFailure.ofError : IO.Error → ReadFailure
  | .noFileOrDirectory .. => .notFound
  | .inappropriateType .. => .notDirectory
  | error => .other (toString error)

/-- What is found under a path. Of a directory only what may hold sources is read. -/
partial def loadEntry (path : String) : IO FileEntry := do
  let location := (← IO.currentDir) / path
  if ← location.isDir then
    let found ← location.readDir
    let entries ← found.toList.filterMapM fun entry => do
      if (← entry.path.isDir) || FileEntry.isSourceName entry.fileName then
        let inner ← loadEntry (FileEntry.pathIn path entry.fileName)
        return some (entry.fileName, inner)
      else return none
    return .directory entries
  else return .file (← IO.FS.readBinFile location)

def loadPath (path : String) : IO (String × Except ReadFailure FileEntry) := do
  let result ← (loadEntry path).toBaseIO
  match result with
  | .ok entry => return (path, .ok entry)
  | .error error => return (path, .error (.ofError error))

def FileLookup.ofLoaded (loaded : List (String × Except ReadFailure FileEntry)) : FileLookup :=
  fun path => (loaded.lookup path).getD (.error .notFound)

end JavaFrontEnd

open JavaFrontEnd in
def main (arguments : List String) : IO UInt32 := do
  let loaded ← match Command.read arguments with
    | .ok command => (command.path :: command.more).mapM loadPath
    | .error _ => pure []
  match Command.runArguments (.ofLoaded loaded) CompilationUnit.outline arguments with
  | some outcome =>
    (← IO.getStdout).putStr outcome.output
    (← IO.getStderr).putStr outcome.errors
    return outcome.code
  | none => return 101

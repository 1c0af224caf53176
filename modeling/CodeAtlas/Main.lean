import CodeAtlas.Assistant.Message
import CodeAtlas.CommandLine.Program
import CodeAtlas.Workspace.Saved
import Std.Time.DateTime.Timestamp

/-!
# Main

Reads the working directory, runs the program in it, and writes back what has changed.
-/

namespace CodeAtlas.Main

def depthLimit : Nat := 64

/-- The entries below a directory, from the outside to the inside. -/
def readEntries : Nat → Trail → List IO.FS.DirEntry → IO (List (Trail × Entry))
  | 0, _, _ => return []
  | depth + 1, trail, found => do
      let mut entries := []
      for item in found do
        let place := trail ++ [item.fileName]
        if ← item.path.isDir then
          let inner ← item.path.readDir
          entries := entries ++ [(place, .directory)] ++
            (← readEntries depth place inner.toList)
        else
          let bytes ← IO.FS.readBinFile item.path
          entries := entries ++ [(place, .file (.bytes bytes.toList))]
      return entries

def readWorkspace : IO Workspace := do
  let here ← IO.currentDir
  let found ← here.readDir
  return .ofFiles ⟨← readEntries depthLimit [] found.toList⟩

def writeEntry (trail : Trail) (entry : Entry) : IO Unit := do
  let path := "/".intercalate trail
  match entry with
  | .directory => IO.FS.createDirAll path
  | .file (.text text) => IO.FS.writeFile path text
  | .file (.bytes bytes) => IO.FS.writeBinFile path ⟨bytes.toArray⟩
  | .file (.graph _) => return

def writeChanges (before after : Workspace) : IO Unit := do
  let old := before.toFiles
  for (trail, entry) in after.toFiles.entries do
    if old.get? trail ≠ some entry then writeEntry trail entry

/-- The variables that settings can come from. -/
def settingNames : List String :=
  ["BACKEND", "DB", "URL", "NAME", "USER", "PASSWORD"].map ("CODECOMPASS_GRAPH_" ++ ·) ++
    ["CODECOMPASS_INDEX_PATH"]

def readEnvironment : IO Environment := do
  let mut environment : Environment := []
  for name in settingNames do
    if let some value ← IO.getEnv name then environment := (name, value) :: environment
  return environment

def readTime : IO Nat := do
  let now ← Std.Time.Timestamp.now
  return now.toMillisecondsSinceUnixEpoch.val.toNat

/-- Serves an assistant line by line until it leaves, and gives the state at the end. -/
partial def serveLines (around : Surroundings Workspace Graph.Handle) (limit : Nat)
    (input output : IO.FS.Stream) (state : Navigator.Situated Workspace Graph.Handle) :
    IO (Navigator.Situated Workspace Graph.Handle) := do
  let line ← input.getLine
  if line.isEmpty then return state
  match Assistant.Message.ofText? line with
  | none => serveLines around limit input output state
  | some message =>
      let (reply, state) := (message.answer around limit).run state
      output.putStrLn reply
      output.flush
      serveLines around limit input output state

def serve (setting : CommandLine.Setting) (configPath : String) (workspace : Workspace) :
    IO (Except CommandLine.Failure Workspace) := do
  match CommandLine.Program.configured setting configPath workspace with
  | .error failure => return .error failure
  | .ok configuration =>
      let around := CommandLine.Program.surroundings setting configuration
      let (_, workspace) ← serveLines around configuration.searchLimit (← IO.getStdin)
        (← IO.getStdout) (CommandLine.Program.navigator configuration, workspace)
      return .ok workspace

end CodeAtlas.Main

open CodeAtlas CodeAtlas.Main in
def main (arguments : List String) : IO UInt32 := do
  let workspace ← readWorkspace
  let setting : CommandLine.Setting :=
    { environment := ← readEnvironment, time := ← readTime }
  match CommandLine.Invocation.parse arguments with
  | .ok ⟨configPath, .serve⟩ =>
      match ← serve setting configPath workspace with
      | .ok after =>
          writeChanges workspace after
          return 0
      | .error failure =>
          IO.eprintln failure.text
          return 2
  | _ =>
      let (output, after) := CommandLine.Program.run setting arguments workspace
      IO.print output.printed
      IO.eprint output.complaint
      writeChanges workspace after
      return UInt32.ofNat output.code

import SlidingSync.CommandLine.Program

/-!
# The executable

Reads the environment and the files that a command needs, runs the command and prints its lines.
Messages about failures go to the standard error.
-/

namespace SlidingSync.Main

open SlidingSync

def target (path : String) : IO PathTarget := do
  try
    let bytes ← IO.FS.readBinFile path
    return .file (String.fromUTF8? bytes)
  catch _ =>
    try
      let found ← IO.FS.realPath path
      return if ← found.isDir then .folder else .file none
    catch _ => return .nothing

def filesAt (paths : List String) : IO Files := do
  let found ← paths.mapM fun path => do return (path, ← target path)
  return fun path => (found.lookup path).getD .nothing

def environment : IO Environment := do
  try
    let bytes ← IO.FS.readBinFile "/proc/self/environ"
    let text := (String.fromUTF8? bytes).getD ""
    return (text.splitOn "\x00").filterMap fun entry =>
      match entry.splitOn "=" with
      | name :: value :: rest => some (name, "=".intercalate (value :: rest))
      | _ => none
  catch _ => return []

def commandPaths (config : Config) : Command → List String
  | .checkConfig => []
  | .inspect _ _ => config.snapshotPath.toList
  | .replay events request _ => request :: events :: config.snapshotPath.toList

def failureText (e : CommandError) : String :=
  let cause :=
    match e.fault with
    | .identifier fault => some fault.message
    | .sync error => error.message?
  match e.task, cause with
  | some task, some cause => task.text ++ ": " ++ cause
  | some task, none => task.text
  | none, some cause => cause
  | none, none => "the command failed"

def runInvocation (environment : Environment) (invocation : Invocation) : IO UInt32 := do
  let sources ← filesAt invocation.config.toList
  match Config.load sources environment invocation.config with
  | .error fault =>
      IO.eprintln ("It looks like your config is invalid. The following error occurred: "
        ++ ((SyncError.config fault).message?.getD "it cannot be read"))
      return 1
  | .ok config =>
      let files ← filesAt (commandPaths config invocation.command)
      match Program.execute files config invocation.command with
      | .error e =>
          IO.eprintln ("Error: " ++ failureText e)
          return 1
      | .ok lines =>
          lines.forM IO.println
          return 0

end SlidingSync.Main

open SlidingSync in
def main (args : List String) : IO UInt32 := do
  let environment ← Main.environment
  match Program.invocation environment args with
  | .ok invocation => Main.runInvocation environment invocation
  | .error fault =>
      let outcome := Program.refused fault
      if outcome.exitCode = 0 then
        outcome.lines.forM IO.println
      else
        IO.eprintln ("error: " ++ fault.name)
        Program.helpLines.forM IO.eprintln
      return UInt32.ofNat outcome.exitCode

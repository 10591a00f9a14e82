import SlidingSync.Command.Inspect
import SlidingSync.Command.Replay
import SlidingSync.CommandLine.Arguments
import SlidingSync.Settings.Load

/-!
# The program

What a run of the program comes to: its exit code and the lines that it prints. The configuration
is loaded before the command starts, and a command that fails prints nothing.
-/

namespace SlidingSync

structure Outcome where
  exitCode : Nat
  lines : List String
  deriving DecidableEq, Repr

namespace Program

/-- The variable that names the configuration where no option does. -/
def configVariable : String :=
  "MATRIXON_CONFIG"

def versionLine : String :=
  "matrixon-sliding-proxy 0.11.0-alpha"

def helpLines : List String :=
  [ "Usage: matrixon-sliding-proxy [OPTIONS] <COMMAND>",
    "",
    "Commands:",
    "  check-config  Load and validate the configuration, then exit",
    "  inspect       Populate the room cache from the snapshot and print a sorted window",
    "  replay        Feed recorded event batches through the cache and print list operations",
    "  help          Print this message or the help of the given subcommand(s)",
    "",
    "Options:",
    "  -c, --config <CONFIG>        Path to configuration file [env: MATRIXON_CONFIG=]",
    "  -l, --log-level <LOG_LEVEL>  Log filter override",
    "  -h, --help                   Print help",
    "  -V, --version                Print version" ]

def refused : ArgumentFault → Outcome
  | .displayHelp => ⟨0, helpLines⟩
  | .displayVersion => ⟨0, [versionLine]⟩
  | _ => ⟨2, []⟩

def execute (files : Files) (config : Config) : Command → Except CommandError (List String)
  | .checkConfig => .ok config.lines
  | .inspect sort window => SlidingSync.inspect files config sort window
  | .replay events request user => SlidingSync.replay files config events request user

def invocation (environment : Environment) (args : List String) :
    Except ArgumentFault Invocation :=
  Invocation.parse (environment.lookup configVariable) args

def run (files : Files) (environment : Environment) (args : List String) : Outcome :=
  match invocation environment args with
  | .error fault => refused fault
  | .ok invocation =>
      match Config.load files environment invocation.config with
      | .error _ => ⟨1, []⟩
      | .ok config =>
          match execute files config invocation.command with
          | .error _ => ⟨1, []⟩
          | .ok lines => ⟨0, lines⟩

end Program

end SlidingSync

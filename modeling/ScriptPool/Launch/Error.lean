import ScriptPool.Directive.Basic
import ScriptPool.Pool.Session

namespace ScriptPool

/-- Why a script file could not be launched. -/
inductive LaunchError where
  | unreadable (path : String)
  | unwritable (path : String)
  | directive (path : String) (e : DirectiveError)
  /-- The instrumented script fails at a line, which stands for a line of the script. -/
  | load (path : String) (line : Nat) (sourceLine? : Option Nat) (message : String)
  | script (e : ScriptError)
  | runtime (e : PoolError)
  | start (e : StartError)
  | settings (fault : SettingsFault)

def LaunchError.message : LaunchError → String
  | .unreadable path => "Failed to read " ++ path
  | .unwritable path => "Failed to write " ++ path
  | .directive path e => "Failed to translate " ++ path ++ ": " ++ e.message
  | .load path line _ message => path ++ ":" ++ toString line ++ ": " ++ message
  | .script e => "Script error: " ++ e.message
  | .runtime e => "Runtime error: " ++ e.message
  | .start e => "Coordinator error: " ++ e.message
  | .settings fault => fault.invalidMessage

end ScriptPool

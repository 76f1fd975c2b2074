import ScriptPool.Text.Line
import ScriptPool.Token.Basic

namespace ScriptPool

open ScriptPool.Text

inductive SettingsFault where
  | emptyPool
  | blankMarker
  | badReceiver (receiver : String)
  | badOutputPrefix
  /-- A reason of the host's own. -/
  | refused (reason : String)
  deriving DecidableEq

/-- Why settings cannot be used. -/
inductive SettingsError where
  /-- The file cannot be read. -/
  | unreadable
  /-- The text is no description of settings. -/
  | malformed
  | invalid (fault : SettingsFault)
  deriving DecidableEq

def SettingsFault.message : SettingsFault → String
  | .emptyPool => "pool_size must be at least 1"
  | .blankMarker => "marker must not be empty"
  | .badReceiver receiver => "receiver `" ++ receiver ++ "` is not a valid global name"
  | .badOutputPrefix => "output_prefix must be a non-empty file name prefix"
  | .refused reason => reason

def SettingsFault.invalidMessage (fault : SettingsFault) : String :=
  "Invalid configuration: " ++ fault.message

structure PoolSettings where
  /-- The number of workers; without it there are as many as the host has processors. -/
  poolSize? : Option Nat
  /-- The milliseconds after which a waiting thread looks again. -/
  pollMillis : Nat
  /-- What the names of worker threads start with. -/
  threadNames : String
  deriving DecidableEq

structure ScriptSettings where
  /-- What a directive line starts with. -/
  marker : String
  /-- The global that holds the coordinator. -/
  receiver : String
  /-- The first line of an instrumented script, in place of the usual one. -/
  header? : Option String
  /-- What the file name of an instrumented script starts with. -/
  outputPrefix : String
  deriving DecidableEq

structure Settings where
  pool : PoolSettings
  script : ScriptSettings
  deriving DecidableEq

namespace PoolSettings

/-- The settings of a pool that nothing is said about. -/
def standard : PoolSettings where
  poolSize? := none
  pollMillis := 10
  threadNames := "taskbag-worker-"

/-- The time between two looks, at least a millisecond. -/
def pollInterval (s : PoolSettings) : Nat :=
  max s.pollMillis 1

/-- A pool needs a worker. -/
def fault? (s : PoolSettings) : Option SettingsFault :=
  if s.poolSize? = some 0 then some .emptyPool else none

end PoolSettings

namespace ScriptSettings

/-- The settings for scripts that nothing is said about. -/
def standard : ScriptSettings where
  marker := "--#"
  receiver := "coordinator"
  header? := none
  outputPrefix := "__parallel_"

/-- The first line of an instrumented script. -/
def headerLine (s : ScriptSettings) : String :=
  s.header?.getD (s.receiver ++ " = Coordinator()")

/-- The first thing that is wrong with the settings, if there is any. -/
def fault? (s : ScriptSettings) : Option SettingsFault :=
  if (trim s.marker.toList).isEmpty then some .blankMarker
  else if !isName s.receiver then some (.badReceiver s.receiver)
  else if s.outputPrefix.isEmpty || s.outputPrefix.toList.any fun c => c = '/' || c = '\\' then
    some .badOutputPrefix
  else none

end ScriptSettings

namespace Settings

/-- The settings of a program that nothing is said about. -/
def standard : Settings :=
  ⟨.standard, .standard⟩

/-- The first thing that is wrong with the settings, the pool's before the scripts'. -/
def fault? (s : Settings) : Option SettingsFault :=
  s.pool.fault?.or s.script.fault?

end Settings

end ScriptPool

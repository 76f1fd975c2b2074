import ScriptPool.Directive.Instrumented
import ScriptPool.File.Disk
import ScriptPool.Launch.Error

/-!
Launching a script file.

The file is read and instrumented, the instrumented script is written next to it, a coordinator is
started, and the script is loaded into its main context. Nothing of the script runs if one of the
earlier steps fails. An error of the script is reported at the line of the author's file.
-/

namespace ScriptPool

/-- The path of the instrumented script: the same folder, and the file name with the prefix. -/
def ScriptSettings.outputPath (s : ScriptSettings) (path : String) : String :=
  Path.withFileName path (s.outputPrefix ++ (Path.fileName? path).getD "")

/-- What instrumenting a file leads to. -/
structure FileOutcome where
  disk : Disk
  events : List Event
  /-- The path that was written, and the instrumented script. -/
  result : Except LaunchError (String × Instrumented)

def instrumentFile (s : ScriptSettings) (disk : Disk) (path : String) : FileOutcome :=
  match disk.read? path with
  | none => ⟨disk, [], .error (.unreadable path)⟩
  | some source =>
    let events := Instrumented.eventsOfLines s (Instrumented.sourceLines source)
    match Instrumented.ofSource s source with
    | .error e => ⟨disk, events, .error (.directive path e)⟩
    | .ok script =>
      let output := s.outputPath path
      match disk.write? output script.toSource with
      | none => ⟨disk, events, .error (.unwritable output)⟩
      | some disk =>
        ⟨disk, events ++ [.scriptWritten path output script.directives], .ok (output, script)⟩

/-- How launching a script ends. -/
inductive LaunchEnding where
  | launched (source output : String) (script : Instrumented)
  | failed (e : LaunchError)
  /-- The script broke off. -/
  | brokeOff (text : String)

/-- What launching a script leads to. -/
structure Launch where
  disk : Disk
  session : Session
  ending : LaunchEnding

namespace Launch

/-- The error for a script that failed to load. -/
def loadError (output : String) (script : Instrumented) : ScriptError → LaunchError
  | .load _ line message => .load output line (script.sourceLine? line) message
  | e => .script e

/-- Loads an instrumented script into the main context of a session. -/
def load (disk : Disk) (s : Session) (path output : String) (script : Instrumented) : Launch :=
  let chunk := (Path.fileName? output).getD output
  match s.perform (.load s.world.main chunk script.toSource) with
  | (s, some (.returned (.errored e))) =>
    let e := loadError output script e
    ⟨disk, (s.modifyEngine (·.report (.scriptFailed e.message path))).shutDown, .failed e⟩
  | (s, some (.brokeOff text)) => ⟨disk, s.shutDown, .brokeOff text⟩
  | (s, _) =>
    ⟨disk, s.modifyEngine (·.report (.scriptLoaded path script.directives)),
      .launched path output script⟩

def run (library : Library) (engine : Engine) (processors : Nat) (settings : Settings)
    (disk : Disk) (path : String) : Launch :=
  match settings.script.fault? with
  | some fault => ⟨disk, .prepare library engine 0, .failed (.settings fault)⟩
  | none =>
    let file := instrumentFile settings.script disk path
    let engine := file.events.foldl Engine.report engine
    match file.result with
    | .error e => ⟨file.disk, .prepare library engine 0, .failed e⟩
    | .ok (output, script) =>
      match Session.start library engine settings.pool processors with
      | (s, some e) => ⟨file.disk, s, .failed (.start e)⟩
      | (s, none) => load file.disk s path output script

end Launch

end ScriptPool

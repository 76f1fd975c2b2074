import ScriptPool.Json.Reader
import ScriptPool.Settings.Basic

namespace ScriptPool

namespace Json

/-- Finds the values for some names among the fields of an object. No known name may occur twice
and every name must be a text. -/
def lookUp? (names : List String) :
    List (List Piece × Json) → Option (List (String × Json))
  | [] => some []
  | (pieces, value) :: rest =>
    match text? pieces, lookUp? names rest with
    | some name, some found =>
      if name ∈ names then
        if (found.lookup name).isSome then none else some ((name, value) :: found)
      else some found
    | _, _ => none

/-- The values that a group gives for its names, in the order of the names. -/
def group? (names : List String) : Json → Option (List (String × Json))
  | .object fields => lookUp? names fields
  | .array items => if names.length < items.length then none else some (names.zip items)
  | _ => none

end Json

namespace Settings

/-- The value of a setting: its standard value if it is not given, nothing if it has the wrong
type. -/
def given {α : Type} (found : List (String × Json)) (name : String) (standard : α)
    (decode : Json → Option α) : Option α :=
  match found.lookup name with
  | some json => decode json
  | none => some standard

/-- A text, or nothing at all. -/
def optionalText? : Json → Option (Option String)
  | .null => some none
  | json => json.asText?.map some

def readPool (json : Json) : Option PoolSettings := do
  let found ← json.group? ["pool_size", "poll_interval_ms", "thread_name_prefix"]
  let standard := PoolSettings.standard
  let poolSize? ← given found "pool_size" standard.poolSize? fun json => json.asNatural?.map some
  let pollMillis ← given found "poll_interval_ms" standard.pollMillis Json.asNatural?
  let threadNames ← given found "thread_name_prefix" standard.threadNames Json.asText?
  pure ⟨poolSize?, pollMillis, threadNames⟩

def readScript (json : Json) : Option ScriptSettings := do
  let found ← json.group? ["marker", "receiver", "header", "output_prefix"]
  let standard := ScriptSettings.standard
  let marker ← given found "marker" standard.marker Json.asText?
  let receiver ← given found "receiver" standard.receiver Json.asText?
  let header? ← given found "header" standard.header? optionalText?
  let outputPrefix ← given found "output_prefix" standard.outputPrefix Json.asText?
  pure ⟨marker, receiver, header?, outputPrefix⟩

def read (json : Json) : Option Settings := do
  let found ← json.group? ["coordinator", "translator"]
  let pool ← given found "coordinator" .standard readPool
  let script ← given found "translator" .standard readScript
  pure ⟨pool, script⟩

/-- The settings that a JSON text describes, if they are valid. -/
def ofText (text : String) : Except SettingsError Settings :=
  match (Json.ofText? text).bind read with
  | none => .error .malformed
  | some settings =>
    match settings.fault? with
    | some fault => .error (.invalid fault)
    | none => .ok settings

/-- The settings that a file describes, given the text of the file if it can be read. -/
def ofFile (contents? : Option String) : Except SettingsError Settings :=
  match contents? with
  | some text => ofText text
  | none => .error .unreadable

end Settings

end ScriptPool

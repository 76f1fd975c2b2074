import ScriptPool.Report.Event

namespace ScriptPool

structure ReportSettings where
  /-- The least important level that is written. -/
  level : Level
  /-- Whether reports are written as JSON. -/
  asJson : Bool
  showPlace : Bool
  showThread : Bool
  showTime : Bool
  /-- Levels for parts of the program. -/
  filters? : Option String

/-- The settings of reports that nothing is said about. -/
def ReportSettings.standard : ReportSettings where
  level := .info
  asJson := false
  showPlace := true
  showThread := true
  showTime := true
  filters? := none

end ScriptPool

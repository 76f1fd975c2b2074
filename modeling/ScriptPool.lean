import ScriptPool.Launch.Script
import ScriptPool.Library.Workbench
import ScriptPool.Outline.Bench
import ScriptPool.Report.Settings
import ScriptPool.Section.Visit
import ScriptPool.Settings.Reader
import ScriptPool.Proofs.Pool.Errand
import ScriptPool.Proofs.Pool.Stride
import ScriptPool.Proofs.Pool.Log
import ScriptPool.Proofs.Pool.Discipline
import ScriptPool.Proofs.Pool.Ledger
import ScriptPool.Proofs.Pool.Watch
import ScriptPool.Proofs.Pool.Join
import ScriptPool.Proofs.Pool.Deed
import ScriptPool.Proofs.Pool.History
import ScriptPool.Proofs.Pool.Steady
import ScriptPool.Proofs.Pool.JoinBarrier
import ScriptPool.Proofs.Pool.JoinAll
import ScriptPool.Proofs.Pool.JoinAllBarrier
import ScriptPool.Proofs.Pool.Teardown
import ScriptPool.Proofs.Script.CallLine
import ScriptPool.Proofs.Value.Plain
import ScriptPool.Proofs.Engine.Tame
import ScriptPool.Proofs.Script.Inline
import ScriptPool.Proofs.Pool.Batch
import ScriptPool.Proofs.Bag.Capture
import ScriptPool.Proofs.Pool.BatchHost
import ScriptPool.Proofs.Pool.BatchRun
import ScriptPool.Proofs.Pool.BatchInline
import ScriptPool.Proofs.Pool.Life
import ScriptPool.Proofs.Pool.MainLock
import ScriptPool.Proofs.Pool.Enactment
import ScriptPool.Proofs.Pool.Barriers
import ScriptPool.Proofs.Pool.Conservation
import ScriptPool.Proofs.Number.Nearest
import ScriptPool.Proofs.Number.Shortest
import ScriptPool.Proofs.Number.ReadBack
import ScriptPool.Proofs.Value.NumberText
import ScriptPool.Proofs.Token.Spelling
import ScriptPool.Proofs.Script.MethodLine
import ScriptPool.Proofs.Directive.LineRole
import ScriptPool.Proofs.Directive.Meaning
import ScriptPool.Proofs.Directive.SectionId
import ScriptPool.Proofs.Value.Owned
import ScriptPool.Proofs.Pool.Secluded
import ScriptPool.Proofs.Pool.Stock
import ScriptPool.Proofs.Pool.Ownership
import ScriptPool.Proofs.Pool.HandleOwner
import ScriptPool.Proofs.Section.Trace
import ScriptPool.Proofs.Section.Exclusion
import ScriptPool.Proofs.Pool.Touch
import ScriptPool.Proofs.Pool.MainBlock
import ScriptPool.Proofs.Pool.MainSerial
import ScriptPool.Proofs.Pool.MainOrder
import ScriptPool.Proofs.Text.Unbroken
import ScriptPool.Proofs.Directive.OutputText
import ScriptPool.Proofs.Directive.Loadable
import ScriptPool.Proofs.Engine.Failing
import ScriptPool.Proofs.Pool.HostFailure
import ScriptPool.Proofs.Script.LoadError
import ScriptPool.Proofs.Launch.AuthorLine
import ScriptPool.Proofs.Token.TokenLine
import ScriptPool.Proofs.Script.Grammar
import ScriptPool.Proofs.Script.Printing
import ScriptPool.Proofs.Script.ChunkGrammar
import ScriptPool.Proofs.Pool.Staff
import ScriptPool.Proofs.Pool.Registration
import ScriptPool.Proofs.Pool.Manning
import ScriptPool.Proofs.Pool.SoleHost
import ScriptPool.Proofs.Pool.Outcome
import ScriptPool.Proofs.Pool.Roster
import ScriptPool.Proofs.Pool.ResizeCall
import ScriptPool.Proofs.Pool.Rebuilt
import ScriptPool.Proofs.Pool.Occupied
import ScriptPool.Proofs.Pool.LockRank
import ScriptPool.Proofs.Pool.Onward
import ScriptPool.Proofs.Pool.ResizeEnds
import ScriptPool.Proofs.Pool.Resize
import ScriptPool.Proofs.Script.CallGrammar
import ScriptPool.Proofs.Directive.SourceLine
import ScriptPool.Proofs.Directive.LineByLine
import ScriptPool.Proofs.Value.Relinquished
import ScriptPool.Proofs.Bag.Arguments
import ScriptPool.Proofs.Pool.Arguments
import ScriptPool.Proofs.Value.Reached
import ScriptPool.Proofs.Token.Spacing
import ScriptPool.Proofs.Token.Locality
import ScriptPool.Proofs.Script.CallTokens
import ScriptPool.Proofs.Directive.Concatenation
import ScriptPool.Proofs.Directive.FunctionName
import ScriptPool.Proofs.Pool.Belongings
import ScriptPool.Proofs.Pool.WriteBack
import ScriptPool.Proofs.Pool.OwnSteps
import ScriptPool.Proofs.Pool.TaskEffect
import ScriptPool.Proofs.Value.Equality
import ScriptPool.Proofs.Value.OrderedTable
import ScriptPool.Proofs.Section.Naming
import ScriptPool.Proofs.Pool.Standing
import ScriptPool.Proofs.Pool.Rejection
import ScriptPool.Proofs.Engine.BigStep
import ScriptPool.Proofs.Script.Adjustment
import ScriptPool.Proofs.Script.Loading
import ScriptPool.Proofs.Value.Count
import ScriptPool.Proofs.Directive.WorkerCount
import ScriptPool.Proofs.File.Components
import ScriptPool.Proofs.File.Disk
import ScriptPool.Proofs.File.OutputPath
import ScriptPool.Proofs.Pool.Survey
import ScriptPool.Proofs.Section.Waiters
import ScriptPool.Proofs.Pool.Tending
import ScriptPool.Proofs.Pool.WorkerRuns

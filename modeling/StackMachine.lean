import StackMachine.Assembly.Diagnostic
import StackMachine.Assembly.Source
import StackMachine.Derive.Display
import StackMachine.Derive.Record
import StackMachine.Files.Path
import StackMachine.Files.Store
import StackMachine.Journal
import StackMachine.Main
import StackMachine.Proofs.BinaryForms
import StackMachine.Proofs.ImageFormat
import StackMachine.Proofs.Lexing
import StackMachine.Proofs.RunInvariant
import StackMachine.Proofs.SourceMeaning
import StackMachine.Proofs.StepEffect
import StackMachine.Proofs.StepRefinement
import StackMachine.Session
import StackMachine.Timing.Table
import StackMachine.Tool.Assembler
import StackMachine.Tool.Runner
import StackMachine.Proofs.FailureAtomicity
import StackMachine.Proofs.FreshStart
import StackMachine.Proofs.TokenPlaces
import StackMachine.Proofs.SourceFaults
import StackMachine.Proofs.Disassembly
import StackMachine.Proofs.Transfer
import StackMachine.Proofs.RecordUse
import StackMachine.Proofs.Absorption
import StackMachine.Proofs.ControlFlow
import StackMachine.Proofs.LabelledCode
import StackMachine.Proofs.FileTree
import StackMachine.Proofs.Pipeline
import StackMachine.Proofs.BoundedRuns
import StackMachine.Proofs.DebugOutput
import StackMachine.Proofs.Streams
import StackMachine.Proofs.CheckedAssembly
import StackMachine.Proofs.CheckedExecution
import StackMachine.Proofs.FuelComposition
import StackMachine.Proofs.ForwardPrograms
import StackMachine.Proofs.StackFrame
import StackMachine.Proofs.FixedWidthDates
import StackMachine.Proofs.TimestampOrder
import StackMachine.Proofs.SourceLayout
import StackMachine.Proofs.LabelNames
import StackMachine.Proofs.Insertion
import StackMachine.Proofs.RunnerOptions
import StackMachine.Proofs.ShortReads
import StackMachine.Proofs.TraceOutput
import StackMachine.Proofs.CaretColumn
import StackMachine.Proofs.OutputFile
import StackMachine.Proofs.DefaultOutput
import StackMachine.Proofs.FormatStrings
import StackMachine.Proofs.PrintingLoop
import StackMachine.Proofs.GeneratedCode
import StackMachine.Proofs.DerivedRecords
import StackMachine.Proofs.DerivedDisplay
import StackMachine.Proofs.Hygiene
import StackMachine.Proofs.ExactAverages
import StackMachine.Proofs.BoundedStack
import StackMachine.Proofs.LongestRuns

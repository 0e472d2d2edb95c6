import Marie.Assembly
import Marie.Json.Program
import Marie.Json.Simulator
import Marie.Simulator.Poke
import Marie.Simulator.Rewind
import Marie.Simulator.Run
import Marie.Simulator.Summary
import Marie.Proofs.History
import Marie.Proofs.Undo
import Marie.Proofs.ExactRewind
import Marie.Proofs.Slicing
import Marie.Proofs.Cycle
import Marie.Proofs.Instruction
import Marie.Proofs.StepRefinement
import Marie.Proofs.Encoding
import Marie.Proofs.SourceReading
import Marie.Proofs.Layout
import Marie.Proofs.Assembler
import Marie.Proofs.Ledger
import Marie.Proofs.CycleLog
import Marie.Proofs.Rerun
import Marie.Proofs.Watching
import Marie.Proofs.Consultation
import Marie.Proofs.DecodedCycle
import Marie.Proofs.Unrecorded
import Marie.Proofs.Polling
import Marie.Proofs.LogIndependence
import Marie.Proofs.Delivery
import Marie.Proofs.SourceEnd
import Marie.Proofs.Loading
import Marie.Proofs.LimitedRun
import Marie.Proofs.JsonFormats
import Marie.Proofs.JsonActions
import Marie.Proofs.Persistence
import Marie.Proofs.Frame
import Marie.Proofs.RunStatus
import Marie.Proofs.CurrentInstruction
import Marie.Proofs.Queries
import Marie.Proofs.Renumbering
import Marie.Proofs.Problems
import Marie.Proofs.LineGrammar
import Marie.Proofs.Tokenizing
import Marie.Proofs.NumberEntry
import Marie.Proofs.Refusals
import Marie.Proofs.ProgramStart
import Marie.Proofs.Termination
import Marie.Proofs.WordForms
import Marie.Proofs.DigitGroups
import Marie.Proofs.Numerals
import Marie.Proofs.ControlState

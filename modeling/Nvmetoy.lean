import Nvmetoy.Framework.Prog
import Nvmetoy.Framework.Interleave
import Nvmetoy.Framework.Refine
import Nvmetoy.Framework.Ghost
import Nvmetoy.Framework.Bytes
import Nvmetoy.Framework.PhaseRing
import Nvmetoy.Framework.PrpWalk
import Nvmetoy.Rust
import Nvmetoy.NvmeSpec
import Nvmetoy.CommandBuilders
import Nvmetoy.Interface
import Nvmetoy.DmaRegion
import Nvmetoy.QueuePair
import Nvmetoy.Driver
import Nvmetoy.Calls
import Nvmetoy.Responses
import Nvmetoy.Ready
import Nvmetoy.DataPointers
import Nvmetoy.Lifetime
import Nvmetoy.Footprint
import Nvmetoy.BlockSize
import Nvmetoy.Transfers
import Nvmetoy.Repl.Text
import Nvmetoy.Repl.Lines
import Nvmetoy.Repl.FileBlocks
import Nvmetoy.Repl.Identification
import Nvmetoy.Repl.BlockMap
import Nvmetoy.Repl.Completion
import Nvmetoy.Repl.Commands
import Nvmetoy.Repl.Coverage
import Nvmetoy.Repl.Session
import Nvmetoy.Repl.Confinement
import Nvmetoy.Repl.Refusals
import Nvmetoy.Repl.Effects
import Nvmetoy.Repl.Panics
import Nvmetoy.Repl.Report
import Nvmetoy.Repl.Run
import Nvmetoy.Repl.Typed
import Nvmetoy.Controller
import Nvmetoy.Layout
import Nvmetoy.RingProtocol
import Nvmetoy.Submissions
import Nvmetoy.ScheduledRuns
import Nvmetoy.Completions
import Nvmetoy.Identifiers
import Nvmetoy.SubmissionRing
import Nvmetoy.Release
import Nvmetoy.Execution
import Nvmetoy.BlockArray
import Nvmetoy.Flight
import Nvmetoy.Ownership
import Nvmetoy.CallTriples
import Nvmetoy.Opening
import Nvmetoy.Programming
import Nvmetoy.Framework.BitFields
import Nvmetoy.CommandLayout
import Nvmetoy.Framework.Runs
import Nvmetoy.Framework.History
import Nvmetoy.BringUp
import Nvmetoy.Script
import Nvmetoy.BlockDevice
import Nvmetoy.SharedArea
import Nvmetoy.Intact
import Nvmetoy.LateAnswers
import Nvmetoy.Repl.Sectors
import Nvmetoy.Repl.Marks
import Nvmetoy.Repl.Spared
import Nvmetoy.Framework.Guard
import Nvmetoy.Mappings
import Nvmetoy.Repl.Refinement
import Nvmetoy.Repl.Mapped
import Nvmetoy.Framework.Solo
import Nvmetoy.Repl.Meaning
import Nvmetoy.Repl.Transcript
import Nvmetoy.LastWrite
import Nvmetoy.Handover

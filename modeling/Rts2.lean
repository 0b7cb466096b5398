import Rts2.Lib.Run
import Rts2.Lib.Chunks
import Rts2.Lib.Decimal
import Rts2.Kernel.Params
import Rts2.Kernel.Data
import Rts2.Kernel.Reader
import Rts2.Kernel.Demux
import Rts2.Kernel.Refinement
import Rts2.Kernel.Chunking
import Rts2.Kernel.Writer
import Rts2.Kernel.Messages
import Rts2.Kernel.Transfer
import Rts2.Kernel.Log
import Rts2.Kernel.Bounds
import Rts2.Kernel.Sizes
import Rts2.Kernel.Addressing
import Rts2.Kernel.Isolation
import Rts2.Kernel.Status
import Rts2.Kernel.MasterState
import Rts2.Central.OpenClose
import Rts2.Central.CloseTimeout
import Rts2.Central.CloseProgress
import Rts2.Lib.Select
import Rts2.Central.CloseOrder
import Rts2.Central.Weather
import Rts2.Kernel.ValueQue
import Rts2.Kernel.ValueReentry
import Rts2.Central.StatusInfo
import Rts2.Lib.SortedMap
import Rts2.Kernel.Timers
import Rts2.Scripts.Elements
import Rts2.Scripts.Blocks
import Rts2.Scripts.Unrolling
import Rts2.Kernel.CommandQue
import Rts2.Kernel.CommandReplies
import Rts2.Kernel.CommandFlow
import Rts2.Kernel.CommandMatch
import Rts2.Kernel.QueEmpty
import Rts2.Lib.SinceLast
import Rts2.Plan.Queue
import Rts2.Plan.Filter
import Rts2.Plan.Stability
import Rts2.Plan.Executor
import Rts2.Plan.Ownership
import Rts2.Plan.Steps
import Rts2.Plan.Observations
import Rts2.Kernel.Fork
import Rts2.External.Execute
import Rts2.External.Exposures
import Rts2.External.Questions
import Rts2.Scripts.Signals
import Rts2.Scripts.Acquired
import Rts2.Scripts.ElseBlock
import Rts2.Scripts.Parsing
import Rts2.Scripts.Reparsing
import Rts2.Scripts.Rereads
import Rts2.Scripts.RoundTrip
import Rts2.Roof.Ford
import Rts2.Roof.Dome
import Rts2.Roof.Closing
import Rts2.Roof.D50
import Rts2.Roof.Motors
import Rts2.Roof.Watched
import Rts2.Roof.Mount
import Rts2.Roof.Interlock
import Rts2.Sensord.Scheduler
import Rts2.Sensord.Coalescing
import Rts2.Kernel.SharedData
import Rts2.Camd.Images
import Rts2.Camd.Segments
import Rts2.Kernel.Arithmetic
import Rts2.Kernel.Operands
import Rts2.Lib.Intervals
import Rts2.Db.Constraints
import Rts2.Db.Satisfied
import Rts2.Lib.Counted
import Rts2.Db.Copies
import Rts2.Db.Printed
import Rts2.Central.BopMask
import Rts2.Kernel.BopState
import Rts2.Kernel.Addresses
import Rts2.Kernel.CommandOwners
import Rts2.Kernel.Reconnect
import Rts2.Kernel.Register
import Rts2.Kernel.CameraImages
import Rts2.Kernel.ImagesFinished
import Rts2.Exec.StartedOnce
import Rts2.Exec.KillTarget
import Rts2.Exec.ExposureWaits
import Rts2.Gemini.Startup
import Rts2.Gemini.CounterResets
import Rts2.Teld.Telescope
import Rts2.Teld.StandsStill
import Rts2.Teld.ExposureBlock
import Rts2.Teld.Corrections
import Rts2.Gemini.Requests
import Rts2.Gemini.Datagrams
import Rts2.Gemini.Moves
import Rts2.Gemini.Reboot
import Rts2.Gemini.TrackingLimit
import Rts2.Kernel.BopBlocks
import Rts2.Scripts.Conditions
import Rts2.Scripts.Expected
import Rts2.Lib.Fuel
import Rts2.Scripts.Stepping
import Rts2.Camd.Window
import Rts2.Roof.StateBits
import Rts2.Lib.BestFirst
import Rts2.Teld.GridSearch
import Rts2.Teld.SafeTargets
import Rts2.Teld.PlannedTargets
import Rts2.Teld.StraightWay
import Rts2.Teld.PlanRuns
import Rts2.Teld.PlanKept
import Rts2.Plan.Requests
import Rts2.External.Dispatch
import Rts2.Lib.Format
import Rts2.Scripts.Operands
import Rts2.Scripts.OperandLists
import Rts2.Scripts.Positions
import Rts2.Scripts.ScriptPosition
import Rts2.Scripts.ExeElement
import Rts2.Values.Selections
import Rts2.Values.Splitting
import Rts2.Values.Arrays
import Rts2.Values.Ranges
import Rts2.Db.ViolatedAltitudes
import Rts2.Lib.Statistics
import Rts2.Values.Statistics
import Rts2.Kernel.SendBounds
import Rts2.Values.IniParser
import Rts2.Lib.InputStream
import Rts2.Values.Sexagesimal
import Rts2.Values.SexagesimalTexts
import Rts2.Values.SexagesimalPairs
import Rts2.Values.ValueClasses
import Rts2.Values.SetCommand
import Rts2.Values.ModeSections
import Rts2.Lib.Crc
import Rts2.Kernel.ModbusCrc
import Rts2.Kernel.PollTable
import Rts2.Kernel.MakePath
import Rts2.Kernel.Expander
import Rts2.Lib.Turns
import Rts2.Teld.GemCounts
import Rts2.Teld.GemFlip
import Rts2.Teld.GemSky
import Rts2.Gemini.CaringLoop
import Rts2.Teld.Offsets
import Rts2.Central.DayCycle
import Rts2.Web.NightBoundaries

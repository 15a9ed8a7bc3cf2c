import RocprofTool.Lib.Runs
import RocprofTool.Lib.UnorderedMap
import RocprofTool.Lib.Loop
import RocprofTool.Lib.CString
import RocprofTool.Lib.Fallible
import RocprofTool.Config
import RocprofTool.Output
import RocprofTool.Version1.Filters
import RocprofTool.Version1.Contexts
import RocprofTool.Version1.Dispatches
import RocprofTool.Version1.Publishing
import RocprofTool.Version1.References
import RocprofTool.Version1.Collecting
import RocprofTool.Version1.Unloading
import RocprofTool.Version2.Output
import RocprofTool.Version3.Output
import RocprofTool.Version3.Targets
import RocprofTool.Version3.Iterations
import RocprofTool.Version3.ThreadTrace.Callback
import RocprofTool.Version3.ThreadTrace.Bookkeeping
import RocprofTool.Version3.ThreadTrace.Windows
import RocprofTool.Version3.Signals.Interpose
import RocprofTool.Version3.Signals.Chaining
import RocprofTool.Version3.Signals.Reentry
import RocprofTool.Lib.Nesting
import RocprofTool.Version3.Correlation.Requests
import RocprofTool.Version3.Correlation.RoundTrip
import RocprofTool.Version3.Markers.Callbacks
import RocprofTool.Version3.Markers.Discipline
import RocprofTool.Version3.Cleanup
import RocprofTool.Version3.CounterGroups
import RocprofTool.Version3.Selection
import RocprofTool.Version3.Cycles
import RocprofTool.Lib.RecursiveMutex
import RocprofTool.Version1.Mutex
import RocprofTool.Version1.Simulation
import RocprofTool.Version3.Lifecycle.EndTimes
import RocprofTool.Version3.Markers.Records
import RocprofTool.Version3.Lifecycle.Recording
import RocprofTool.Version3.Lifecycle.Finalized
import RocprofTool.Version3.Lifecycle.Finalization
import RocprofTool.Version3.ThreadTrace.ShaderData
import RocprofTool.Version3.PeerBarrier
import RocprofTool.Version3.CounterSelection
import RocprofTool.Lib.CMemory
import RocprofTool.Version1.MessageBuffer
import RocprofTool.Version1.Outstanding
import RocprofTool.Version1.DispatchSizes
import RocprofTool.Version1.KernelNames
import RocprofTool.Version3.MissingCounters
import RocprofTool.Version3.CsvText
import RocprofTool.Version3.ThreadTrace.Agents
import RocprofTool.Version3.CodeObjects
import RocprofTool.Version1.Sweeps
import RocprofTool.Lib.Json
import RocprofTool.Version1.MessageJson
import RocprofTool.Version2.Files
import RocprofTool.Lib.TicketRing
import RocprofTool.Util.Submit
import RocprofTool.Util.Doorbell
import RocprofTool.Util.SymbolTable
import RocprofTool.Util.Linearized
import RocprofTool.Version3.Initialization.Buffers
import RocprofTool.Version3.Initialization.Services
import RocprofTool.Lib.Traversal
import RocprofTool.Util.Agents
import RocprofTool.Version1.Pools
import RocprofTool.Version3.Attribution
import RocprofTool.Lib.InputStream
import RocprofTool.Version3.Children
import RocprofTool.Lib.Entries
import RocprofTool.Version3.Shutdown

import PipeWorks.Lib.StepSystem
import PipeWorks.Lib.LatestPut
import PipeWorks.Lib.PopMin
import PipeWorks.Lib.Heapq
import PipeWorks.Lib.Reorder
import PipeWorks.Lib.AnnexB
import PipeWorks.Lib.Fails
import PipeWorks.Lib.PercentCoding
import PipeWorks.Lib.Pattern
import PipeWorks.Lib.Pacing
import PipeWorks.Lib.Notified
import PipeWorks.Lib.HalfEven
import PipeWorks.Lib.Wire
import PipeWorks.Lib.Handles
import PipeWorks.Lib.Positions
import PipeWorks.Python.Exception
import PipeWorks.Python.Json
import PipeWorks.Python.Str
import PipeWorks.Python.Utf8
import PipeWorks.Python.CommandLine
import PipeWorks.Python.Int
import PipeWorks.Python.Float
import PipeWorks.Python.JsonDumps
import PipeWorks.Python.JsonRoundTrip
import PipeWorks.Python.JsonBytes
import PipeWorks.Python.JsonWritable
import PipeWorks.Python.Argparse
import PipeWorks.NvidiaPipe.Receive
import PipeWorks.NvidiaPipe.JitterBuffer
import PipeWorks.NvidiaPipe.JitterOrder
import PipeWorks.NvidiaPipe.Timestamps
import PipeWorks.NvidiaPipe.InputStatus
import PipeWorks.NvidiaPipe.Decode
import PipeWorks.NvidiaPipe.ProcessedFrames
import PipeWorks.NvidiaPipe.Cadence
import PipeWorks.NvidiaPipe.Config
import PipeWorks.NvidiaPipe.Startup
import PipeWorks.NvidiaPipe.HotReload
import PipeWorks.NvidiaPipe.LiveFiles
import PipeWorks.NvidiaPipe.Refresh
import PipeWorks.NvidiaPipe.Reload
import PipeWorks.NvidiaPipe.InferQueue
import PipeWorks.NvidiaPipe.ResultOrder
import PipeWorks.NvidiaPipe.NewestResult
import PipeWorks.NvidiaPipe.EncodedBytes
import PipeWorks.NvidiaPipe.Keyframe
import PipeWorks.NvidiaPipe.Encode
import PipeWorks.NvidiaPipe.Send
import PipeWorks.NvidiaPipe.SendSession
import PipeWorks.NvidiaPipe.RunPipeline
import PipeWorks.NvidiaPipe.Retry
import PipeWorks.NvidiaPipe.Sender
import PipeWorks.NvidiaPipe.OutputStatus
import PipeWorks.NvidiaPipe.StatisticsReporter
import PipeWorks.NvidiaPipe.SenderWorkers
import PipeWorks.NvidiaPipe.Submission
import PipeWorks.NvidiaPipe.OutputOrder
import PipeWorks.NvidiaPipe.SentFrames
import PipeWorks.Plumber.Statistics
import PipeWorks.NvidiaPipe.FrameStatistics
import PipeWorks.Plumber.ReportCheck
import PipeWorks.Plumber.Manager
import PipeWorks.Plumber.Supervision
import PipeWorks.Plumber.Classification
import PipeWorks.Plumber.Shutdown
import PipeWorks.Plumber.Reports
import PipeWorks.Plumber.RecordedReports
import PipeWorks.Plumber.Routes
import PipeWorks.Plumber.Loading
import PipeWorks.Plumber.Handler
import PipeWorks.Plumber.Sending
import PipeWorks.Plumber.Serving
import PipeWorks.Plumber.ReportServed
import PipeWorks.Conductor.EventBroker
import PipeWorks.Conductor.EventDelivery
import PipeWorks.Conductor.ProcessRepository
import PipeWorks.Conductor.CreateProcess
import PipeWorks.Conductor.StreamConnection
import PipeWorks.Conductor.Supervisor
import PipeWorks.Conductor.HeartbeatStatus
import PipeWorks.Conductor.ProcessControl
import PipeWorks.Conductor.Registration
import PipeWorks.Conductor.StartProcess
import PipeWorks.Conductor.StatusEvents
import PipeWorks.Conductor.StatusPage
import PipeWorks.Conductor.WindowsProcess
import PipeWorks.Stream.Args
import PipeWorks.Stream.Process
import PipeWorks.Stream.LogDelivery
import PipeWorks.Stream.LogQueue
import PipeWorks.Stream.Heartbeats
import PipeWorks.Stream.Pipe
import PipeWorks.Stream.PipeAgreement
import PipeWorks.Stream.Guard
import PipeWorks.Conductor.ProcessForm
import PipeWorks.Conductor.StoredRecords

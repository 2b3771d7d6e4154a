import CloudAgent.Lib.Transition
import CloudAgent.Lib.StdSort
import CloudAgent.Net.LwsCommon
import CloudAgent.Net.HttpReply
import CloudAgent.Utils.Base64
import CloudAgent.Control.Preview
import CloudAgent.Streamer.Multiqueue
import CloudAgent.Streamer.Multiqueue.EndOfStream
import CloudAgent.Streamer.Multiqueue.Teardown
import CloudAgent.Proto.SessionRefines
import CloudAgent.Proto.CommandHandler
import CloudAgent.Agent.Upload.OpenSegmenter
import CloudAgent.Agent.Upload.Status
import CloudAgent.Agent.Upload.Completion
import CloudAgent.Agent.Upload.Cancel
import CloudAgent.Agent.Upload.Coverage
import CloudAgent.Agent.Manager.Answers
import CloudAgent.Agent.Manager.Payloads
import CloudAgent.Agent.Manager.Limits
import CloudAgent.Proto.Reconnect
import CloudAgent.Control.Events.Settings
import CloudAgent.Control.Events.Routing
import CloudAgent.Control.Events.Periodic
import CloudAgent.Control.Events.Providers
import CloudAgent.Control.Media.Sinks
import CloudAgent.Control.Media.Recording
import CloudAgent.Control.Manager.RecordEvents
import CloudAgent.Control.Manager.OpenSegmenters
import CloudAgent.Control.Manager.Built
import CloudAgent.Proto.FinalBye
import CloudAgent.Net.Receive
import CloudAgent.Net.Transmit
import CloudAgent.Net.RxThread
import CloudAgent.Streamer.BaseStreamer
import CloudAgent.Streamer.MultiFrag
import CloudAgent.Streamer.Fragments
import CloudAgent.Utils.IsoPacked
import CloudAgent.Streamer.Recordings
import CloudAgent.Lib.Json
import CloudAgent.Lib.Codec
import CloudAgent.Proto.Wire.Values
import CloudAgent.Proto.Wire.Objects
import CloudAgent.Proto.Wire.Event
import CloudAgent.Proto.Wire.Commands
import CloudAgent.Proto.Wire.RoundTrip
import CloudAgent.Proto.Callbacks
import CloudAgent.Proto.Handlers
import CloudAgent.Proto.Completes
import CloudAgent.Proto.Correlates
import CloudAgent.Control.StreamConfig
import CloudAgent.Lib.Intervals
import CloudAgent.Utils.Date
import CloudAgent.Utils.Date.Reference
import CloudAgent.Control.Commands
import CloudAgent.Agent.Upload.ChunkTimes
import CloudAgent.Agent.Timeline.VfsStorage
import CloudAgent.Agent.Timeline.CloudStorage
import CloudAgent.Platform.ReverseTunnel
import CloudAgent.Agent.Timeline.Squash
import CloudAgent.Agent.Upload.CloudCheck
import CloudAgent.Agent.Upload.Terminates
import CloudAgent.Agent.Upload.Requests
import CloudAgent.Agent.Upload.Truth
import CloudAgent.Control.Delivery.Windows
import CloudAgent.Streamer.Recordings.Exports
import CloudAgent.Streamer.Recordings.Session
import CloudAgent.Streamer.MultiFrag.Calls
import CloudAgent.Streamer.MultiFrag.Names
import CloudAgent.Streamer.MultiFrag.Timestamps
import CloudAgent.Streamer.MultiFrag.Recovery
import CloudAgent.Streamer.MultiFrag.Starts
import CloudAgent.Streamer.Ffmpeg.Output
import CloudAgent.Streamer.Ffmpeg.Monotonic
import CloudAgent.Lib.Double
import CloudAgent.Streamer.Ffmpeg.Duration
import CloudAgent.Lib.SparseFile
import CloudAgent.Streamer.Ffmpeg.Memory
import CloudAgent.Lib.LossyStream
import CloudAgent.Streamer.MediaQueue
import CloudAgent.Streamer.Queue
import CloudAgent.Streamer.Queue.Flush
import CloudAgent.Lib.PackBits
import CloudAgent.Utils.MotionMap
import CloudAgent.Net.HttpBody
import CloudAgent.Platform.ReverseTunnel.Writes
import CloudAgent.Streamer.Onvif.MetadataSink
import CloudAgent.Streamer.Onvif.Reassembly
import CloudAgent.Streamer.Onvif.EventStream
import CloudAgent.Lib.StdString
import CloudAgent.Utils.UrlCoding
import CloudAgent.Utils.HidePassword
import CloudAgent.Cloud.Uri
import CloudAgent.Utils.Properties
import CloudAgent.Proto.Wire.EventNames
import CloudAgent.Proto.ReconnectDelay
import CloudAgent.Agent.Manager.Counters
import CloudAgent.Control.StreamConfig.Calls
import CloudAgent.Proto.CamRegister
import CloudAgent.Lib.SshWire
import CloudAgent.Platform.ReverseTunneling
import CloudAgent.Platform.SshKey

import Sparcs.Library.Loop
import Sparcs.Library.FloatOrder
import Sparcs.Library.FloatRounding
import Sparcs.Library.RunScan
import Sparcs.VoltageAnalytics.Detector
import Sparcs.VoltageAnalytics.Bands
import Sparcs.VoltageAnalytics.PhaseScan
import Sparcs.VoltageAnalytics.WindowScan
import Sparcs.VoltageAnalytics.WindowLoop
import Sparcs.VoltageAnalytics.WindowReports
import Sparcs.VoltageAnalytics.PhaseSteps
import Sparcs.VoltageAnalytics.Windows
import Sparcs.VoltageAnalytics.PhaseRuns
import Sparcs.VoltageAnalytics.PhaseSafety
import Sparcs.VoltageAnalytics.BandRuns
import Sparcs.VoltageAnalytics.LongRuns
import Sparcs.VoltageAnalytics.ShortRuns
import Sparcs.VoltageAnalytics.RunSafety
import Sparcs.Library.Framing
import Sparcs.C37.Buffer
import Sparcs.C37.DataChannel
import Sparcs.C37.FrameLoop
import Sparcs.C37.FrameRemoval
import Sparcs.C37.Command
import Sparcs.C37.Reassembly
import Sparcs.Library.Blocks
import Sparcs.Library.OutputRun
import Sparcs.Library.SignedArithmetic
import Sparcs.Library.IntExpr
import Sparcs.Library.Calendar
import Sparcs.Library.SerialTable
import Sparcs.Library.SharedCell
import Sparcs.Library.CallRuns
import Sparcs.C37.Reformat
import Sparcs.C37.Packing
import Sparcs.C37.Seconds
import Sparcs.C37.Reached
import Sparcs.C37.BlockSafety
import Sparcs.C37.Grouping
import Sparcs.C37.Recovery
import Sparcs.C37.Relearning
import Sparcs.C37.LearnedSecond
import Sparcs.C37.BlockLayout
import Sparcs.C37.FracTable
import Sparcs.Library.Crc
import Sparcs.Library.TracedReads
import Sparcs.Library.TracedMemory
import Sparcs.C37.CfgDescriptor
import Sparcs.C37.CfgFrames
import Sparcs.C37.CfgChecksum
import Sparcs.C37.CfgReads
import Sparcs.C37.BlockWalk
import Sparcs.C37.CfgFields
import Sparcs.Archiver.Archivers
import Sparcs.Archiver.Acceptance
import Sparcs.Archiver.Readings
import Sparcs.Archiver.ArchivedSeconds
import Sparcs.Archiver.OfferQueue
import Sparcs.Archiver.Publishing
import Sparcs.Ftp.Gmtime
import Sparcs.Ftp.UnixTime
import Sparcs.Ftp.Archivers
import Sparcs.Ftp.Inserts
import Sparcs.Ftp.Publishing
import Sparcs.Ftp.Statistics
import Sparcs.Discovery.BufferSharing
import Sparcs.Discovery.UpmuFtpAccess
import Sparcs.Discovery.ByteOrder
import Sparcs.Discovery.DataFileNames
import Sparcs.Discovery.Hours
import Sparcs.Discovery.Service
import Sparcs.Discovery.Rules
import Sparcs.Discovery.FileTimes
import Sparcs.Discovery.DataFiles
import Sparcs.Discovery.Closing
import Sparcs.Discovery.PresenceChecks
import Sparcs.Discovery.Clock
import Sparcs.Discovery.Downloads
import Sparcs.Discovery.DirectoryTable
import Sparcs.Discovery.TimeSpecs
import Sparcs.Library.LockedCalls
import Sparcs.Gateway.DbAccess
import Sparcs.Gateway.LockBalance
import Sparcs.Gateway.DirectorySearch
import Sparcs.Library.TextSearch
import Sparcs.Gateway.SerialNumber
import Sparcs.Gateway.CommandQueue
import Sparcs.Query.DayList
import Sparcs.Library.NumberText
import Sparcs.Library.PaddedDecimal
import Sparcs.CassSpeed.Request
import Sparcs.CassSpeed.Client
import Sparcs.CassSpeed.RequestFormat
import Sparcs.CassSpeed.Compressors
import Sparcs.Library.StepBlocks
import Sparcs.CassSpeed.SocketHandler
import Sparcs.CassSpeed.HandlerRuns
import Sparcs.CassSpeed.Interleaving
import Sparcs.CassSpeed.CompressedSteps
import Sparcs.CassSpeed.CompressedBlocks
import Sparcs.CassSpeed.HandlerRows
import Sparcs.CassSpeed.LoopEnds
import Sparcs.CassSpeed.SampleVectors
import Sparcs.CassSpeed.HandlerAnswers
import Sparcs.CassSpeed.TrimmedFront
import Sparcs.CassSpeed.StartTime
import Sparcs.CassSpeed.OutputLengths
import Sparcs.CassSpeed.EndTime
import Sparcs.CassSpeed.CountedSteps
import Sparcs.CassSpeed.ChunkSizes
import Sparcs.Library.Varint
import Sparcs.Library.FieldFormat
import Sparcs.CassSpeed.Messages
import Sparcs.CassSpeed.ResponsePacket
import Sparcs.Library.RaggedRows
import Sparcs.Library.KeyedWrites
import Sparcs.CassSpeed.SavedBody
import Sparcs.CassSpeed.SavedRows
import Sparcs.CassSpeed.SavedPlaces
import Sparcs.CassSpeed.SavedResponses
import Sparcs.Library.Extremes
import Sparcs.Library.Unwrap
import Sparcs.Annotations.Samples
import Sparcs.Annotations.Summary
import Sparcs.Annotations.Unwrapping
import Sparcs.Annotations.UnwrappedPhase
import Sparcs.Annotations.Hourly
import Sparcs.Annotations.EventTimes
import Sparcs.Library.FieldLengths
import Sparcs.Library.RepeatedStates
import Sparcs.CassSpeed.Payloads
import Sparcs.CassSpeed.DownloadLoop
import Sparcs.CassSpeed.DownloadRuns
import Sparcs.Library.Spans
import Sparcs.CassSpeed.SecondArchive
import Sparcs.CassSpeed.HandlerSucceeds
import Sparcs.CassSpeed.ChunkTimes
import Sparcs.CassSpeed.ChunkAnswers
import Sparcs.CassSpeed.ReceivedResponses
import Sparcs.CassSpeed.RecordedChunks
import Sparcs.Library.Tilings
import Sparcs.CassSpeed.RecordedDownloads
import Sparcs.C37.HandedFrames
import Sparcs.Archiver.Deliveries
import Sparcs.Library.FloatConversions
import Sparcs.Recording.UpmuDataMessage
import Sparcs.Recording.StoredRows
import Sparcs.Recording.Archiving
import Sparcs.Recording.ServedRows
import Sparcs.Recording.RecordedStreams
import Sparcs.Recording.RecordedFiles
import Sparcs.Recording.DataFileFormat
import Sparcs.Recording.SharedOutputs
import Sparcs.Recording.SharedFiles

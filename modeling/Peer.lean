import Peer.Base.AppBuffer
import Peer.Base.BufferViews
import Peer.Basis.Advance
import Peer.Basis.Cut
import Peer.Basis.Delimiter
import Peer.Basis.Fields
import Peer.Basis.First
import Peer.Basis.KeepsLargest
import Peer.Basis.Least
import Peer.Basis.LittleEndian
import Peer.Basis.Loop
import Peer.Basis.OrderedIndex
import Peer.Basis.OrderedMap
import Peer.Basis.Outbox
import Peer.Basis.PriorityQueue
import Peer.Basis.ProRata
import Peer.Basis.Rounds
import Peer.Basis.Run
import Peer.Basis.Slices
import Peer.Basis.SortedSet
import Peer.Basis.Stride
import Peer.Basis.Tally
import Peer.Basis.TimeRing
import Peer.Basis.Timetable
import Peer.Basis.Walk
import Peer.Download.ControlMode
import Peer.Download.DownloadMode
import Peer.Download.PieceRequestManager
import Peer.Download.PieceSearch
import Peer.Live.Announce
import Peer.Live.AnnounceAgreement
import Peer.Live.AnnounceMap
import Peer.Live.AssignFilling
import Peer.Live.AssignList
import Peer.Live.BlockArrivals
import Peer.Live.BlockChoice
import Peer.Live.BlockIntegrity
import Peer.Live.BlockNode
import Peer.Live.BlockNodeLaws
import Peer.Live.BlockOrder
import Peer.Live.BlockOwnership
import Peer.Live.BlockRequests
import Peer.Live.BlockRuns
import Peer.Live.BlockStrides
import Peer.Live.Delivery
import Peer.Live.DeliveryRuns
import Peer.Live.HttpDownloader
import Peer.Live.HttpDownloaderCalls
import Peer.Live.HttpDownloaderRuns
import Peer.Live.HttpDownloaderTasks
import Peer.Live.Instance
import Peer.Live.MemoryConsumer
import Peer.Live.MemoryConsumerQuota
import Peer.Live.PointTracker
import Peer.Live.PointTrackerRuns
import Peer.Live.Progress
import Peer.Live.SwitchCalls
import Peer.Live.SwitchController
import Peer.Live.SwitchRuns
import Peer.Live.SwitchTargets
import Peer.Network.HeaderText
import Peer.Network.HttpClient
import Peer.Network.HttpDelivery
import Peer.Network.ProxyForwarding
import Peer.Network.ProxyRequest
import Peer.Network.TcpConnection
import Peer.Network.TcpFraming
import Peer.Network.Uri
import Peer.Network.UriExact
import Peer.Network.UriParts
import Peer.P2P.AssignMap
import Peer.P2P.AssignerPeers
import Peer.P2P.DownloadSpeedLimiter
import Peer.P2P.DownloadSpeedLimits
import Peer.P2P.DuplicateRequests
import Peer.P2P.IpPool
import Peer.P2P.IpPoolAgreement
import Peer.P2P.IpPoolConnect
import Peer.P2P.IpPoolIndexes
import Peer.P2P.IpPoolMarks
import Peer.P2P.LiveAssigner
import Peer.P2P.LiveAssignerRounds
import Peer.P2P.LiveConnections
import Peer.P2P.LiveConnectionsAgreement
import Peer.P2P.LiveRequestAccounts
import Peer.P2P.LiveRequests
import Peer.P2P.PieceTask
import Peer.P2P.PieceTaskAgreement
import Peer.P2P.RidInfoEntry
import Peer.P2P.RidInfoText
import Peer.P2P.SpeedWindows
import Peer.P2P.Text
import Peer.P2P.TextSearch
import Peer.P2P.UploadCache
import Peer.P2P.UploadCacheAnswers
import Peer.P2P.UploadConnections
import Peer.P2P.UploadConnectionsAgreement
import Peer.P2P.UploadSpeedLimiter
import Peer.P2P.UploadSpeedLimits
import Peer.P2P.VodRequestAccounts
import Peer.P2P.VodRequests
import Peer.P2S.GzipDecompresser
import Peer.P2S.GzipSegments
import Peer.Proxy.LiveChannels
import Peer.Proxy.OpenServiceDelivery
import Peer.Proxy.OpenServiceSender
import Peer.Proxy.RangeDelivery
import Peer.Proxy.RangeSender
import Peer.Statistic.Snapshot
import Peer.Statistic.SnapshotCodec
import Peer.Statistic.UploadModule
import Peer.Statistic.UploadTable
import Peer.Storage.Accounting
import Peer.Storage.Admission
import Peer.Storage.Agreement
import Peer.Storage.AppBuffer
import Peer.Storage.Base
import Peer.Storage.BlockAgreement
import Peer.Storage.BlockMap
import Peer.Storage.BlockMapCodec
import Peer.Storage.BlockMapFormat
import Peer.Storage.BlockMapParse
import Peer.Storage.BlockNode
import Peer.Storage.BlockNodeFits
import Peer.Storage.BlockNodeLaws
import Peer.Storage.BlockNodeRuns
import Peer.Storage.BlockRemoval
import Peer.Storage.CacheEviction
import Peer.Storage.Geometry
import Peer.Storage.ManagerInvariant
import Peer.Storage.ManagerStep
import Peer.Storage.MemoryConsumer
import Peer.Storage.MemoryConsumerQuota
import Peer.Storage.MemoryQuota
import Peer.Storage.MemoryQuotaFeasible
import Peer.Storage.MemoryQuotaShares
import Peer.Storage.Merge
import Peer.Storage.MergeRuns
import Peer.Storage.MetaFLVParser
import Peer.Storage.MetaFLVSafety
import Peer.Storage.Mp4FreeBoxes
import Peer.Storage.Mp4FreeRemoval
import Peer.Storage.Mp4Head
import Peer.Storage.Mp4HeadSafety
import Peer.Storage.NextMissing
import Peer.Storage.ParseSafety
import Peer.Storage.PieceParse
import Peer.Storage.Pipeline
import Peer.Storage.PipelineInvariant
import Peer.Storage.PipelineStep
import Peer.Storage.PositionWalk
import Peer.Storage.ReadBack
import Peer.Storage.ResumedProgress
import Peer.Storage.SnapshotResume
import Peer.Storage.SubPieceManager
import Peer.Storage.UploadRead
import Peer.Storage.WriteBack
import Peer.Storage.WriteThrough
import Peer.Stun.NatCheck
import Peer.Stun.NatCheckRuns
import Peer.Tracker.Manager
import Peer.Tracker.ManagerLookups
import Peer.Tracker.ReportDifference
import Peer.Tracker.ResourceSync
import Peer.Tracker.ResourceSyncRuns
import Peer.Tracker.Station
import Peer.Tracker.StationReports

import CloudSync.Lib.Prog
import CloudSync.Lib.KeyedLog
import CloudSync.Lib.UniqueKey
import CloudSync.Core.Types
import CloudSync.Db.Files
import CloudSync.Db.Database
import CloudSync.Db.Queries
import CloudSync.Db.FileCodec
import CloudSync.Db.Migrations
import CloudSync.Db.VfsInodes
import CloudSync.Vfs.MetadataSync
import CloudSync.Vfs.Replay
import CloudSync.Vfs.Incremental
import CloudSync.Vfs.Convergence
import CloudSync.Vfs.Baseline
import CloudSync.Vfs.Handover
import CloudSync.Lib.LogReader
import CloudSync.Vfs.BackgroundSync
import CloudSync.Lib.UnixPath
import CloudSync.Lib.LastSeparator
import CloudSync.Core.CloudPaths
import CloudSync.Lib.Segments
import CloudSync.Core.PathCompositions
import CloudSync.Db.Conflicts
import CloudSync.Db.StoredPaths
import CloudSync.Lib.PriorityHeap
import CloudSync.Sync.Queue
import CloudSync.Sync.QueueOrder
import CloudSync.Providers.GDrive
import CloudSync.Providers.GDriveFeed
import CloudSync.Providers.GDriveListing
import CloudSync.Sync.Engine
import CloudSync.Sync.Refresh
import CloudSync.Sync.Limit
import CloudSync.Sync.RefreshChain
import CloudSync.Vfs.ContentCache
import CloudSync.Sync.Containment
import CloudSync.Vfs.CacheContent
import CloudSync.Vfs.CacheFreshness
import CloudSync.Lib.LastWrite
import CloudSync.Vfs.RowWrites
import CloudSync.Vfs.SyncingRows
import CloudSync.Lib.Threads
import CloudSync.Vfs.DownloadThreads
import CloudSync.Vfs.Inodes
import CloudSync.Vfs.InodeReuse
import CloudSync.Vfs.Mounts
import CloudSync.Vfs.Filesystem
import CloudSync.Vfs.Directory
import CloudSync.Lib.PositionCursor
import CloudSync.Vfs.ReaddirOffsets
import CloudSync.Vfs.ParentChildren
import CloudSync.Vfs.Attributes
import CloudSync.Vfs.DriveAgreement
import CloudSync.Lib.PartReads
import CloudSync.Vfs.FileHandles
import CloudSync.Vfs.HandleReads
import CloudSync.Vfs.ReadOnlyMount
import CloudSync.Providers.TokenStorage
import CloudSync.Providers.TokenFallback
import CloudSync.Providers.TokenScopes
import CloudSync.Lib.LineStream
import CloudSync.Ipc.Transport
import CloudSync.Ipc.Server
import CloudSync.Ipc.Framing
import CloudSync.Ipc.SizeLimit
import CloudSync.Ipc.Client
import CloudSync.Ipc.Matching
import CloudSync.Ipc.ServerLoop
import CloudSync.Ipc.Conversation
import CloudSync.Ipc.Socket
import CloudSync.Ipc.PathResolver
import CloudSync.Ipc.LocalPaths
import CloudSync.Lib.KeyedRows
import CloudSync.Db.Accounts
import CloudSync.Lib.CallRuns
import CloudSync.Db.AccountStore
import CloudSync.Db.AccountBook
import CloudSync.Db.AccountRows
import CloudSync.Daemon.Handler
import CloudSync.Daemon.Confinement
import CloudSync.Daemon.Status
import CloudSync.Daemon.Actions
import CloudSync.Daemon.CacheAgreement
import CloudSync.Daemon.ProviderAccounts
import CloudSync.Daemon.Clients
import CloudSync.Lib.NameTree
import CloudSync.Sync.DaemonLife
import CloudSync.Vfs.PathWalk
import CloudSync.Vfs.LiveMount
import CloudSync.Vfs.FrozenMount

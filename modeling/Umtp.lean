import Umtp.Lib.Prog
import Umtp.Lib.Flags
import Umtp.Lib.Buckets
import Umtp.Lib.Components
import Umtp.Handles.Types
import Umtp.Handles.Hash
import Umtp.Lib.Runs
import Umtp.Handles.Db
import Umtp.Handles.Slots
import Umtp.Handles.Frame
import Umtp.Handles.Identity
import Umtp.Handles.Index
import Umtp.Handles.Refinement
import Umtp.Handles.Losses
import Umtp.Text
import Umtp.Buffers
import Umtp.Os
import Umtp.Ctx
import Umtp.Paths
import Umtp.Constants
import Umtp.Datasets
import Umtp.Folders
import Umtp.Transfer
import Umtp.Incoming
import Umtp.Operations
import Umtp.Storages
import Umtp.Daemon
import Umtp.Effects.Footprint
import Umtp.Effects.Parts
import Umtp.Effects.Phases
import Umtp.Effects.Requests
import Umtp.Effects.Events
import Umtp.MemOs
import Umtp.Reachable
import Umtp.Messages
import Umtp.StaleHandles
import Umtp.Confinement
import Umtp.Handles.Names
import Umtp.Effects.Made
import Umtp.Effects.Roles
import Umtp.NameUniqueness
import Umtp.Latches
import Umtp.Descriptors
import Umtp.StorageIdentity
import Umtp.Answers
import Umtp.Alike
import Umtp.SameRequests
import Umtp.StaleBytes
import Umtp.Cancellation
import Umtp.Mutex
import Umtp.Effects.Opening
import Umtp.Streaming
import Umtp.FileReads
import Umtp.Encoding
import Umtp.DatasetReplies
import Umtp.Utf8
import Umtp.ObjectInfo
import Umtp.PropertyValues
import Umtp.Lib.Links
import Umtp.Ancestry
import Umtp.FileTree
import Umtp.Uploads
import Umtp.ObjectCreation
import Umtp.UploadPlaces
import Umtp.TransferEnds
import Umtp.PartialReads
import Umtp.Reassembly
import Umtp.StoredUploads
import Umtp.Sanitize
import Umtp.StringCodec
import Umtp.ConfigParams
import Umtp.Config
import Umtp.ConfigLines
import Umtp.PropertyLists
import Umtp.Lib.Walks
import Umtp.OwnPaths
import Umtp.WholeNames
import Umtp.UsbStrings
import Umtp.Endpoints
import Umtp.Lib.Removals
import Umtp.TreeRemoval
import Umtp.Deletions
import Umtp.DeletedPlaces
import Umtp.StorageRoots
import Umtp.PokeChains
import Umtp.StorageOptions
import Umtp.FullPathLoops
import Umtp.ConfigSizes
import Umtp.StorageCommands
import Umtp.Lib.SlotTable
import Umtp.StorageRegistry
import Umtp.WriteProtection
import Umtp.Renames
import Umtp.Listings
import Umtp.WholeReplies
import Umtp.Scans
import Umtp.Lib.Mirror
import Umtp.FileEvents

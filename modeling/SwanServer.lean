import SwanServer.Overlay
import SwanServer.BufferedWrite
import SwanServer.Machine
import SwanServer.Interleaving
import SwanServer.OrderedMap
import SwanServer.NestedMap
import SwanServer.ExceptLoops
import SwanServer.Loop
import SwanServer.RelyGuarantee
import SwanServer.Resumption
import SwanServer.Serialisability
import SwanServer.Custody
import SwanServer.LongestPrefix
import SwanServer.LexicalPath
import SwanServer.FileTree
import SwanServer.Utf8
import SwanServer.Text
import SwanServer.Path
import SwanServer.RequestHandler
import SwanServer.Disk
import SwanServer.FileSystem
import SwanServer.FileSystemSpec
import SwanServer.RequestHandlerDelegate
import SwanServer.ApiHandler
import SwanServer.ApiConfinement
import SwanServer.StaticHandler
import SwanServer.DataDirectory
import SwanServer.RequestSafety
import SwanServer.CrudStore
import SwanServer.CrudImage
import SwanServer.CrudRefinement
import SwanServer.EntityDirectory
import SwanServer.Session
import SwanServer.EventLoop
import SwanServer.SessionCustody
import SwanServer.ServerRuns
import SwanServer.Conversations
import SwanServer.SequentialSessions
import SwanServer.DistinctIds
import SwanServer.DirectoryCleanup
import SwanServer.ConcurrentWrites
import SwanServer.ConfigRoundTrip
import SwanServer.ConfigSerialisation
import SwanServer.ConfigQuoting
import SwanServer.ConfigRuns
import SwanServer.ParserInvariant
import SwanServer.ParserProgress
import SwanServer.ConfigWords
import SwanServer.LexerState
import SwanServer.LexerStream
import SwanServer.ConfigComments
import SwanServer.ConfigEndOfInput
import SwanServer.ConfigLineEndings
import SwanServer.ConfigPort
import SwanServer.ConfigExtraction
import SwanServer.ConfigRoots
import SwanServer.ApiLocations
import SwanServer.StaticRoots
import SwanServer.StoredWrites
import SwanServer.ConfigConsumers
import SwanServer.ServerMain
import SwanServer.LaunchedRuns
import SwanServer.Liveness
import SwanServer.FactoryMap
import SwanServer.Dispatch
import SwanServer.Linearisation
import SwanServer.HandlerPool
import SwanServer.Handlers
import SwanServer.ApiProgram
import SwanServer.ResponseHeaders
import SwanServer.ServiceRefinement
import SwanServer.DirectoryFocus
import SwanServer.ApiLocality
import SwanServer.ConcurrentService
import SwanServer.ServiceRuns
import SwanServer.StoredPages
import SwanServer.ConsumerSafety
import SwanServer.RequestIndexing
import SwanServer.FailedRequests
import SwanServer.UsableIds
import SwanServer.WorkPool
import SwanServer.FakeAgreement
import SwanServer.Segmentation
import SwanServer.FileListJson
import SwanServer.PaletteApi
import SwanServer.ColorScan
import SwanServer.PaletteHandler
import SwanServer.PaletteInput
import SwanServer.PaletteJson
import SwanServer.PaletteRuns

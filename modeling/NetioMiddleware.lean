import NetioMiddleware.SortedMap
import NetioMiddleware.CText
import NetioMiddleware.Segments
import NetioMiddleware.StringHelper
import NetioMiddleware.GlobalDefine
import NetioMiddleware.CmdObj
import NetioMiddleware.CmdRoundTrip
import NetioMiddleware.MsgQueue
import NetioMiddleware.MsgqManager
import NetioMiddleware.Inet
import NetioMiddleware.Machine
import NetioMiddleware.Reactor
import NetioMiddleware.TcpNetHandler
import NetioMiddleware.Netio
import NetioMiddleware.AcceptDrain
import NetioMiddleware.WatchList
import NetioMiddleware.ConnLife
import NetioMiddleware.ResponseOrigin
import NetioMiddleware.Dispatcher
import NetioMiddleware.Container
import NetioMiddleware.ContainerSteps
import NetioMiddleware.QueueTally
import NetioMiddleware.Backend
import NetioMiddleware.BackendInv
import NetioMiddleware.BackendRuns
import NetioMiddleware.BackendSound
import NetioMiddleware.RequestPlaces
import NetioMiddleware.NetioSystem
import NetioMiddleware.StrayResponse
import NetioMiddleware.HandlerPool
import NetioMiddleware.FailedSend
import NetioMiddleware.IdentityCheck
import NetioMiddleware.TableBounds
import NetioMiddleware.Channels
import NetioMiddleware.ModHash
import NetioMiddleware.CacheManager
import NetioMiddleware.CacheRefinement
import NetioMiddleware.CacheRestart
import NetioMiddleware.IncrRace
import NetioMiddleware.HashIndex
import NetioMiddleware.IndexLayout
import NetioMiddleware.IndexHistory
import NetioMiddleware.KeyWindow
import NetioMiddleware.Occupancy
import NetioMiddleware.IndexAttach
import NetioMiddleware.IndexTraversal
import NetioMiddleware.IndexSegment
import NetioMiddleware.CmdLength
import NetioMiddleware.RequestData
import NetioMiddleware.ReplyData
import NetioMiddleware.Resumption
import NetioMiddleware.Segmentation
import NetioMiddleware.Rows
import NetioMiddleware.TwinRuns
import NetioMiddleware.ReplyRouting
import NetioMiddleware.Noninterference
import NetioMiddleware.Rounds
import NetioMiddleware.Settlement
import NetioMiddleware.PlainSteps
import NetioMiddleware.ArrivalOrder
import NetioMiddleware.AnswerTexts
import NetioMiddleware.Overload
import NetioMiddleware.Traffic
import NetioMiddleware.SystemHistory
import NetioMiddleware.SystemOutcome
import NetioMiddleware.Completion
import NetioMiddleware.Attendance
import NetioMiddleware.PatientClients
import NetioMiddleware.PatientService
import NetioMiddleware.Statistics
import NetioMiddleware.StatisticsBalance
import NetioMiddleware.StatisticsCache
import NetioMiddleware.WakeChannel
import NetioMiddleware.ReactorInit
import NetioMiddleware.FailedInit
import NetioMiddleware.ContainerMain

import TradeServers.Library.DelimitedStream
import TradeServers.Library.PaddedField
import TradeServers.Library.Execution
import TradeServers.Library.SqlLiteral
import TradeServers.Library.SqlSession
import TradeServers.Library.DecimalText
import TradeServers.Library.NumberedTable
import TradeServers.Bytes
import TradeServers.StatementText
import TradeServers.CLibrary
import TradeServers.LogTimeServer.Codec
import TradeServers.LogTimeServer.Stream
import TradeServers.LogTimeServer.Request
import TradeServers.LogTimeServer.Connection
import TradeServers.LogTimeServer.Server
import TradeServers.LogTimeServer.Isolation
import TradeServers.LogTimeServer.Pool
import TradeServers.LogTimeServer.Workers
import TradeServers.DbLayer.Transaction
import TradeServers.DbLayer.Statement
import TradeServers.DbLayer.Queries
import TradeServers.DbLayer.Records
import TradeServers.DbLayer.Getters
import TradeServers.DbLayer.RoundTrip
import TradeServers.DbLayer.GeneratedID
import TradeServers.Library.SqlFidelity
import TradeServers.LogTimeServer.Fidelity
import TradeServers.LogTimeServer.Replies
import TradeServers.ClientDelimiter.Codec
import TradeServers.LogTimeServer.Sessions
import TradeServers.Slot
import TradeServers.Library.DistinctQueue
import TradeServers.Library.SlidingWindow
import TradeServers.QuoteClient.Ticks
import TradeServers.QuoteClient.Windows
import TradeServers.QuoteClient.Instruments
import TradeServers.QuoteClient.Pipeline
import TradeServers.QuoteClient.TickBuffer
import TradeServers.QuoteClient.Results
import TradeServers.QuoteClient.Delivery
import TradeServers.QuoteClient.Duplicates
import TradeServers.QuoteClient.Lines
import TradeServers.QuoteClient.Subscribers
import TradeServers.Library.LengthPrefixed
import TradeServers.LengthHeader
import TradeServers.CustomRules.Codec
import TradeServers.QuoteClient.Packets
import TradeServers.Library.ResourceLog
import TradeServers.DbLayer.Handle
import TradeServers.DeliPoolServer.Pool
import TradeServers.Library.LockLog
import TradeServers.DeliTimeServer.Locks
import TradeServers.Library.Loop
import TradeServers.Library.Zlib
import TradeServers.DeliTimeServer.Gzip
import TradeServers.DeliTimeServer.Server
import TradeServers.DeliTimeServer.RoundTrip
import TradeServers.Library.FirstWins
import TradeServers.ClientDelimiter.Merge
import TradeServers.DbLayer.Operations
import TradeServers.DbLayer.Fidelity
import TradeServers.DbLayer.Cursor
import TradeServers.Library.BufferWrites
import TradeServers.DbLayer.RecordSet
import TradeServers.DbLayer.Listings
import TradeServers.DbLayer.Rates
import TradeServers.LogTimeServer.Buffers
import TradeServers.QuoteClient.Malformed
import TradeServers.DeliTimeServer.Retry
import TradeServers.ClientDelimiter.Cover
import TradeServers.LogTimeServer.Idle
import TradeServers.Library.Words
import TradeServers.LogTimeServer.Settings
import TradeServers.Library.Simulation
import TradeServers.ThreadPool.Monitor
import TradeServers.LogTimeServer.Threads
import TradeServers.Chat.Codec
import TradeServers.Chat.Server
import TradeServers.LogTimeServer.Wakeups
import TradeServers.LogTimeServer.Sizing
import TradeServers.Library.Overtaking
import TradeServers.ThreadPool.Order
import TradeServers.ComServer.Echo
import TradeServers.DeliPoolServer.Workers
import TradeServers.Library.Linearization
import TradeServers.LogTimeServer.Requests
import TradeServers.Separator.Codec
import TradeServers.LogTimeServer.Serving
import TradeServers.LogTimeServer.Supply

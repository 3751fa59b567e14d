import EventBooking.Lib.Machine
import EventBooking.Lib.Table
import EventBooking.Lib.Pattern
import EventBooking.Lib.Tx
import EventBooking.Uuid
import EventBooking.Contracts
import EventBooking.OutboxTable
import EventBooking.BookingRepository
import EventBooking.InventoryRepository
import EventBooking.Transactions
import EventBooking.NotificationRepository
import EventBooking.Services
import EventBooking.System
import EventBooking.SeatLedger
import EventBooking.Steps
import EventBooking.Journey
import EventBooking.Saga
import EventBooking.Refinement
import EventBooking.Conservation
import EventBooking.Continuation
import EventBooking.Lifecycle
import EventBooking.Redelivery
import EventBooking.Dispatcher
import EventBooking.OutboxSafety
import EventBooking.Stranding
import EventBooking.EventCache
import EventBooking.BookingCalls
import EventBooking.Idempotency
import EventBooking.Lib.Json
import EventBooking.Wire
import EventBooking.Producers
import EventBooking.Lib.OrderedMap
import EventBooking.Lib.FixedWindow
import EventBooking.RateLimiter
import EventBooking.RateLimits
import EventBooking.LimiterAgreement
import EventBooking.Lib.PartitionLog
import EventBooking.KafkaRecords
import EventBooking.SeatRange
import EventBooking.KeylessCalls
import EventBooking.Lib.Paging
import EventBooking.NotificationStore
import EventBooking.NotificationCalls
import EventBooking.ReserveOutcomes
import EventBooking.Spellings
import EventBooking.Lib.Delimited
import EventBooking.Fingerprint
import EventBooking.CacheDeliveries
import EventBooking.Commands
import EventBooking.Announcements
import EventBooking.Deliveries
import EventBooking.Settling
import EventBooking.Correlation
import EventBooking.Transport
import EventBooking.Pacing
import EventBooking.Users
import EventBooking.UserCalls
import EventBooking.BookingPages
import EventBooking.Draining
import EventBooking.EventPages
import EventBooking.SeatCalls
import EventBooking.SeatTransactions
import EventBooking.SeatSerializing


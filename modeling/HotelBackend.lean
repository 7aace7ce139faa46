import HotelBackend.Theory.Runs
import HotelBackend.Theory.Transactions
import HotelBackend.Theory.Tables
import HotelBackend.Common.Json
import HotelBackend.Common.HotelDates
import HotelBackend.Outbox.Counters
import HotelBackend.Files.Uploads
import HotelBackend.Bookings.Service
import HotelBackend.Bookings.Isolation
import HotelBackend.Reports.Consumer
import HotelBackend.Reports.Publication
import HotelBackend.Common.Strings
import HotelBackend.Notifications.NotificationEvent
import HotelBackend.Notifications.EmailTemplate
import HotelBackend.Outbox.Budget
import HotelBackend.Notifications.Delivery
import HotelBackend.Notifications.DeliveryWorker
import HotelBackend.Notifications.Agreement
import HotelBackend.Notifications.Preparation
import HotelBackend.Notifications.HandOff
import HotelBackend.Reports.Agreement
import HotelBackend.Notifications.AttemptBudget
import HotelBackend.Reports.AttemptBudget
import HotelBackend.Common.JsonText
import HotelBackend.Theory.Newest
import HotelBackend.Bookings.LifecyclePayload
import HotelBackend.Reports.BookingStats
import HotelBackend.Reports.StatsConsumer
import HotelBackend.Reports.StatsRebuild
import HotelBackend.Theory.Guarantees
import HotelBackend.Auth.Database
import HotelBackend.Auth.Services
import HotelBackend.Auth.Access
import HotelBackend.Auth.Discipline
import HotelBackend.Auth.Promises
import HotelBackend.Users.ActiveAdmins
import HotelBackend.Auth.Rotation
import HotelBackend.Auth.LiveSessions
import HotelBackend.Retention.Entities
import HotelBackend.Retention.Election
import HotelBackend.Retention.Continuations
import HotelBackend.Retention.Tasks
import HotelBackend.Retention.Refusals
import HotelBackend.Retention.TaskRuns
import HotelBackend.Retention.Window
import HotelBackend.Bookings.LifecycleCodec
import HotelBackend.Bookings.LifecycleThrows
import HotelBackend.Bookings.LifecycleMessage
import HotelBackend.Bookings.LifecycleRelay
import HotelBackend.Auth.Directory
import HotelBackend.Auth.GoogleLogins
import HotelBackend.Theory.LockOrder
import HotelBackend.Bookings.LockOrder
import HotelBackend.Rooms.RoomSearchService
import HotelBackend.Theory.Solo
import HotelBackend.Theory.Writes
import HotelBackend.Bookings.Availability
import HotelBackend.Common.JsonKeys
import HotelBackend.Common.JsonOrder
import HotelBackend.Reports.BookingStatsFact
import HotelBackend.Reports.RoomExportCreate
import HotelBackend.Reports.RoomExportProtocol
import HotelBackend.Reports.RoomExportSnapshot
import HotelBackend.Reports.RoomExportView
import HotelBackend.Theory.Positional
import HotelBackend.Bookings.BookingId
import HotelBackend.Theory.RowOrder
import HotelBackend.Files.AttachmentPositions
import HotelBackend.Notifications.Redrives
import HotelBackend.Theory.Zooms
import HotelBackend.Theory.Throughout
import HotelBackend.Reports.CreateRequests
import HotelBackend.Reports.CreatePromises
import HotelBackend.Reports.IdempotentCreation
import HotelBackend.Bookings.StayDates
import HotelBackend.Reports.BookingStatsReport
import HotelBackend.Notifications.MailRendering
import HotelBackend.Reports.RoomExportSelection
import HotelBackend.Common.RateLimit
import HotelBackend.Outbox.Backoff
import HotelBackend.Outbox.OutboxPollLoop
import HotelBackend.Bookings.Recording
import HotelBackend.Bookings.Entries
import HotelBackend.Bookings.LifecycleWriter
import HotelBackend.Bookings.AuditTrail
import HotelBackend.Bookings.Windows
import HotelBackend.Bookings.LatestRow
import HotelBackend.Bookings.LifecycleOrigin
import HotelBackend.Reports.ReadModel
import HotelBackend.Reports.StatsReport
import HotelBackend.Notifications.MailWriter
import HotelBackend.Theory.SharedLocks
import HotelBackend.Catalog.Database
import HotelBackend.Catalog.Services
import HotelBackend.Catalog.Discipline
import HotelBackend.Catalog.Changes
import HotelBackend.Catalog.Images
import HotelBackend.Catalog.Promises
import HotelBackend.Catalog.Below
import HotelBackend.Catalog.RoomPromises
import HotelBackend.Catalog.Histories
import HotelBackend.Catalog.Lifetimes

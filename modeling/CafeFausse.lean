import CafeFausse.Concurrency.Retry
import CafeFausse.Concurrency.Alone
import CafeFausse.Concurrency.Commits
import CafeFausse.Backend.ReservationGateway
import CafeFausse.Backend.NewsletterGateway
import CafeFausse.Backend.Retry
import CafeFausse.Routines.Unusable
import CafeFausse.Backend.Services
import CafeFausse.Backend.Certainty
import CafeFausse.Concurrency.History
import CafeFausse.Routines.AllocationOptimal
import CafeFausse.Routines.AllocationRanks
import CafeFausse.Concurrency.Checks
import CafeFausse.Transaction.LockOrder
import CafeFausse.Transaction.LockErasure
import CafeFausse.Routines.RowLocks
import CafeFausse.Concurrency.RowLocks
import CafeFausse.Concurrency.Deadlocks
import CafeFausse.Interaction.Machine
import CafeFausse.Frontend.Identity
import CafeFausse.Frontend.NewsletterLookup
import CafeFausse.Frontend.NewsletterPreferences
import CafeFausse.Frontend.LateLookup
import CafeFausse.Frontend.CurrentOffers
import CafeFausse.Backend.Validation
import CafeFausse.Python.Strings
import CafeFausse.Clock.Settings
import CafeFausse.Clock.Candidates
import CafeFausse.Routines.BookingAnswers
import CafeFausse.Concurrency.Timely
import CafeFausse.Backend.Accepted
import CafeFausse.Backend.RetryHistory
import CafeFausse.Calendar.Dates
import CafeFausse.Format.Framing
import CafeFausse.Routines.Fingerprint
import CafeFausse.Python.Datetimes
import CafeFausse.Backend.ReadGateways
import CafeFausse.Backend.Serialization
import CafeFausse.Backend.SlotRoundTrip
import CafeFausse.Backend.Reads
import CafeFausse.Backend.ReadsServed
import CafeFausse.Format.Words
import CafeFausse.Identity.Addresses
import CafeFausse.Backend.Normalized
import CafeFausse.Frontend.ServerAccepts
import CafeFausse.Transaction.Relational
import CafeFausse.Routines.FingerprintFree
import CafeFausse.Routines.ExactRetry
import CafeFausse.Backend.NormalizedInput
import CafeFausse.Backend.CustomerGateway
import CafeFausse.Backend.SameCustomer
import CafeFausse.Format.Utf8
import CafeFausse.Python.JsonScanner
import CafeFausse.Python.JsonLoads
import CafeFausse.Python.JsonText
import CafeFausse.Python.JsonNumbers
import CafeFausse.Python.JsonDumps
import CafeFausse.Python.JsonExact
import CafeFausse.Backend.Requests
import CafeFausse.Backend.Classified
import CafeFausse.Frontend.Posted
import CafeFausse.Frontend.PostedForms
import CafeFausse.Frontend.PostedRuns
import CafeFausse.Transaction.Numbers
import CafeFausse.Routines.BookingRows
import CafeFausse.Routines.PreferenceRows
import CafeFausse.Concurrency.Reports
import CafeFausse.Backend.AnswersDecoded
import CafeFausse.Backend.Projections
import CafeFausse.Backend.Responses
import CafeFausse.Backend.Projected
import CafeFausse.Frontend.Responses
import CafeFausse.Backend.CallRecords
import CafeFausse.Frontend.Told

import ClickScope.Async.Prog
import ClickScope.Async.Pool
import ClickScope.Async.Rely
import ClickScope.Async.Twin
import ClickScope.Async.Wp
import ClickScope.Async.Among
import ClickScope.Limit.FixedWindow
import ClickScope.Order.Quantile
import ClickScope.Heap.Arrays
import ClickScope.Html.Escaping
import ClickScope.Html.Tokenizer
import ClickScope.Iso.Civil
import ClickScope.Iso.Decimal
import ClickScope.Iso.Instant
import ClickScope.Uuid.Reading
import ClickScope.Zod.Value
import ClickScope.Zod.Schema
import ClickScope.Zod.Reparse
import ClickScope.Json.Fields
import ClickScope.Json.Number
import ClickScope.Json.Text
import ClickScope.Json.RoundTrip
import ClickScope.Core.Errors
import ClickScope.Core.Rows
import ClickScope.Core.Db
import ClickScope.Core.Redis
import ClickScope.Core.Jwt
import ClickScope.Core.World
import ClickScope.Core.Tokens
import ClickScope.Core.Text
import ClickScope.Core.LinkService
import ClickScope.Core.LinkCache
import ClickScope.Core.AuthService
import ClickScope.Core.Redirect
import ClickScope.Core.Worker
import ClickScope.Core.System
import ClickScope.Core.Schemas
import ClickScope.Core.App
import ClickScope.Core.LinkRoutes
import ClickScope.Core.RateLimit
import ClickScope.Core.SearchParams
import ClickScope.Core.SentryScrub
import ClickScope.Core.ErrorHandler
import ClickScope.Core.LogPercentiles
import ClickScope.Theory.TokenSeparation
import ClickScope.Theory.Statements
import ClickScope.Theory.Footprint
import ClickScope.Theory.Rules
import ClickScope.Theory.Accounts
import ClickScope.Theory.FirstLogin
import ClickScope.Theory.ClickTables
import ClickScope.Theory.ExactlyOnce
import ClickScope.Theory.Patch
import ClickScope.Theory.Visits
import ClickScope.Theory.ClickFlow
import ClickScope.Theory.PasswordGate
import ClickScope.Theory.Tenants
import ClickScope.Theory.SweptRows
import ClickScope.Theory.Handlers
import ClickScope.Theory.Sweep
import ClickScope.Theory.LoginState
import ClickScope.Theory.CacheFresh
import ClickScope.Theory.SingleUse
import ClickScope.Theory.Creation
import ClickScope.Theory.Staleness
import ClickScope.Theory.KeptRows
import ClickScope.Theory.SequentialCache
import ClickScope.Theory.VisitOutcomes
import ClickScope.Theory.SecondParse
import ClickScope.Theory.Passwords
import ClickScope.Theory.ShortCodes
import ClickScope.Theory.Validation
import ClickScope.Theory.UnlockForm
import ClickScope.Theory.BoundValues
import ClickScope.Theory.ValidatedRequests
import ClickScope.Theory.PatchEffect
import ClickScope.Theory.Pages
import ClickScope.Theory.DailyStats
import ClickScope.Theory.PercentCoding
import ClickScope.Theory.Cookies
import ClickScope.Theory.CacheEncoding
import ClickScope.Theory.SearchParams
import ClickScope.Theory.Redaction
import ClickScope.Theory.ScrubbedEvents
import ClickScope.Theory.AuthorizationCode
import ClickScope.Theory.ShortCodeRoutes
import ClickScope.Theory.UnlockKeys
import ClickScope.Theory.UnlockBudgets
import ClickScope.Theory.MalformedRequests
import ClickScope.Theory.Interstitial
import ClickScope.Theory.Percentiles
import ClickScope.Theory.LogTable
import ClickScope.Async.Drain
import ClickScope.Async.Along
import ClickScope.Theory.Locks
import ClickScope.Theory.Deadlock
import ClickScope.Theory.Integrity
import ClickScope.Theory.RowHistory
import ClickScope.Theory.Deletion
import ClickScope.Theory.Sessions
import ClickScope.Async.Front
import ClickScope.Core.Server
import ClickScope.Theory.Requests
import ClickScope.Theory.ServerRuns
import ClickScope.Theory.Credentials
import ClickScope.Theory.Authorization
import ClickScope.Theory.Ownership
import ClickScope.Async.Meets
import ClickScope.Iso.Datetime
import ClickScope.Zod.Collections
import ClickScope.Json.Written
import ClickScope.Json.Conveyed
import ClickScope.Core.OpenApi
import ClickScope.Theory.Standards
import ClickScope.Theory.Answers
import ClickScope.Theory.RouteAnswers
import ClickScope.Theory.ApiDocument
import ClickScope.Theory.ApiBodies

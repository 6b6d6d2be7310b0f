import RCloneCloud.Lib.Range
import RCloneCloud.Lib.Prog
import RCloneCloud.Lib.Run
import RCloneCloud.Lib.Pool
import RCloneCloud.Lib.Feed
import RCloneCloud.Lib.Path
import RCloneCloud.Lib.Codec
import RCloneCloud.Go.Basic
import RCloneCloud.Mongo.Collection
import RCloneCloud.Mongo.Scan
import RCloneCloud.Storage.Basic
import RCloneCloud.Storage.Load
import RCloneCloud.Storage.Save
import RCloneCloud.Storage.SaveSpec
import RCloneCloud.Storage.SaveCalls
import RCloneCloud.Storage.RoundTrip
import RCloneCloud.Storage.SaveFailures
import RCloneCloud.Storage.Storable
import RCloneCloud.Storage.Watch
import RCloneCloud.Storage.Converge
import RCloneCloud.Storage.Echo
import RCloneCloud.Storage.TwoWriters
import RCloneCloud.Storage.LostUpdate
import RCloneCloud.Storage.Startup
import RCloneCloud.Handler.Params
import RCloneCloud.Handler.Serve
import RCloneCloud.Handler.Mediation
import RCloneCloud.Handler.Escape
import RCloneCloud.Auth.Handler
import RCloneCloud.Auth.Promises
import RCloneCloud.Auth.Tokens
import RCloneCloud.Auth.SingleUse
import RCloneCloud.Auth.Traceable
import RCloneCloud.Auth.Failures
import RCloneCloud.Ui.FolderLink
import RCloneCloud.Ui.JobState
import RCloneCloud.Ui.Dialogs
import RCloneCloud.Ui.DialogStack
import RCloneCloud.Ui.JobsEffects
import RCloneCloud.Ui.JobLife
import RCloneCloud.Ui.JobRuns
import RCloneCloud.Ui.JobsMonotone
import RCloneCloud.Ui.HttpCache
import RCloneCloud.Ui.JobsListed
import RCloneCloud.Ui.LastRead
import RCloneCloud.Ui.CacheTransparent
import RCloneCloud.Lib.Percent
import RCloneCloud.Ui.RequestUrl
import RCloneCloud.Handler.Route
import RCloneCloud.Ui.FileAddress
import RCloneCloud.Storage.Export
import RCloneCloud.Lib.Cut
import RCloneCloud.Storage.Ambiguity
import RCloneCloud.Storage.AllOrNothing
import RCloneCloud.Storage.Ghost
import RCloneCloud.Lib.FlatMap
import RCloneCloud.Storage.FlatMap
import RCloneCloud.Storage.Migrate
import RCloneCloud.Lib.TokenBucket
import RCloneCloud.Security.RateLimit
import RCloneCloud.Handler.PostParams
import RCloneCloud.Ui.LoginRedirect
import RCloneCloud.Lib.Signal
import RCloneCloud.Ui.FileViewer
import RCloneCloud.Lib.Sort
import RCloneCloud.Ui.FolderTable
import RCloneCloud.Lib.Components
import RCloneCloud.Ui.Breadcrumbs
import RCloneCloud.Ui.DialogPaths
import RCloneCloud.Ui.FolderReload
import RCloneCloud.Ui.ReloadRuns
import RCloneCloud.Ui.PollVerdict
import RCloneCloud.Go.Strings
import RCloneCloud.Ui.Pkce
import RCloneCloud.Auth.Pem
import RCloneCloud.Auth.Jwt
import RCloneCloud.Handler.Bearer
import RCloneCloud.Server.Pipeline
import RCloneCloud.Server.Access
import RCloneCloud.Server.Throttle
import RCloneCloud.Server.Env
import RCloneCloud.Server.Reach
import RCloneCloud.Handler.Query
import RCloneCloud.Ui.WebApiService
import RCloneCloud.Server.ServiceCalls
import RCloneCloud.Server.JobLoop
import RCloneCloud.Auth.Session
import RCloneCloud.Lib.Latest
import RCloneCloud.Ui.FolderStore
import RCloneCloud.Server.FolderLoop
import RCloneCloud.Ui.AddItems
import RCloneCloud.Cli.Runtime
import RCloneCloud.Cli.Lives
import RCloneCloud.Server.ConfigFlow
import RCloneCloud.Lib.CookieJar
import RCloneCloud.Ui.QueryUrl
import RCloneCloud.Ui.Login
import RCloneCloud.Server.LoginFlow
import RCloneCloud.Server.Challenge
import RCloneCloud.Server.SignedIn
import RCloneCloud.Server.Undisturbed
import RCloneCloud.Ui.DialogJobs

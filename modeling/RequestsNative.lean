import RequestsNative.Base
import RequestsNative.Ascii
import RequestsNative.Ip
import RequestsNative.Utf8
import RequestsNative.Lib.Machine
import RequestsNative.Lib.Lru
import RequestsNative.Lib.KeyedBags
import RequestsNative.Lib.IndexMap
import RequestsNative.Lib.RankedMap
import RequestsNative.Lib.Percent
import RequestsNative.Lib.Base64
import RequestsNative.Lib.Lines
import RequestsNative.Lib.Head
import RequestsNative.Lib.Crlf
import RequestsNative.Lib.Talk
import RequestsNative.Lib.Channel
import RequestsNative.Lib.Reactive
import RequestsNative.Lib.Effect
import RequestsNative.Transport.Pool
import RequestsNative.Transport.PoolRuns
import RequestsNative.Transport.Lease
import RequestsNative.Transport.ResponseHead
import RequestsNative.Transport.Httparse
import RequestsNative.Transport.Normalize
import RequestsNative.Transport.HeadIo
import RequestsNative.Transport.HeadReads
import RequestsNative.Transport.HeadWrites
import RequestsNative.Transport.HeaderLines
import RequestsNative.Transport.HeadObservation
import RequestsNative.Transport.RequestHead
import RequestsNative.Transport.Uri
import RequestsNative.Transport.PoolKey
import RequestsNative.Transport.Outgoing
import RequestsNative.Transport.Upload
import RequestsNative.Transport.Proxy
import RequestsNative.Transport.ProxyTarget
import RequestsNative.Transport.ProxyCredentials
import RequestsNative.Transport.ProxyReplies
import RequestsNative.Transport.ConnectReplies
import RequestsNative.Transport.Decode
import RequestsNative.Transport.DecodeRuns
import RequestsNative.Transport.Replay
import RequestsNative.Response.Body
import RequestsNative.Response.BodyRuns
import RequestsNative.Blocking.Body
import RequestsNative.Blocking.Async
import RequestsNative.Blocking.Reads
import RequestsNative.Blocking.FrameReads
import RequestsNative.Blocking.Capacity
import RequestsNative.Blocking.Submission
import RequestsNative.Blocking.Delivery
import RequestsNative.Url.Quoting
import RequestsNative.Url.Pieces
import RequestsNative.Url.Prepare
import RequestsNative.Url.PrepareTwice
import RequestsNative.Url.PythonRequote
import RequestsNative.Url.Destination
import RequestsNative.Url.TwoStages
import RequestsNative.Url.QueryPairs
import RequestsNative.Url.Meaning
import RequestsNative.Request.Headers
import RequestsNative.Request.Digest
import RequestsNative.Request.DigestRuns
import RequestsNative.Request.Cookies
import RequestsNative.Python.ContentIterator
import RequestsNative.Python.Retry
import RequestsNative.Python.RetryBudget
import RequestsNative.Python.PoolCache
import RequestsNative.Python.Redirects
import RequestsNative.Python.RedirectRuns
import RequestsNative.Python.RedirectAuth
import RequestsNative.Python.RedirectLimits
import RequestsNative.Python.RedirectRefines
import RequestsNative.Lib.Tally
import RequestsNative.Python.Pump
import RequestsNative.Python.PumpRuns
import RequestsNative.Python.PumpSafety
import RequestsNative.Python.FacadeRegistry
import RequestsNative.Python.FacadeRuns
import RequestsNative.Python.FacadeSafety
import RequestsNative.Lib.Slices
import RequestsNative.Python.LinesIterator
import RequestsNative.Python.DecodedReads
import RequestsNative.Python.NoProxy
import RequestsNative.Python.ContentLength
import RequestsNative.Python.Mounts
import RequestsNative.Python.ProxyUrl
import RequestsNative.Python.Bridge
import RequestsNative.Python.BridgeSteps
import RequestsNative.Python.BridgeRuns
import RequestsNative.Python.HookDispatch
import RequestsNative.Python.AdapterRegistration
import RequestsNative.Python.SessionSendNative
import RequestsNative.Python.Digest401Runs
import RequestsNative.Lib.QuotedList
import RequestsNative.Python.DictHeader
import RequestsNative.Python.BodyStream
import RequestsNative.Python.UrlParse
import RequestsNative.Python.DigestHeader
import RequestsNative.Python.DigestHeaderRuns

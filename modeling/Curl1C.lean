import Curl1C.Lib.Run
import Curl1C.Lib.Sink
import Curl1C.Lib.Rfc4648
import Curl1C.Lib.Refcount
import Curl1C.Lib.Ledger
import Curl1C.Lib.Observe
import Curl1C.Lib.Buckets
import Curl1C.Lib.Dict
import Curl1C.Lib.HashTable
import Curl1C.Lib.HashMap
import Curl1C.Lib.Refine
import Curl1C.Lib.Numbering
import Curl1C.Curl.Proc
import Curl1C.Common.Lookup
import Curl1C.Common.Convert
import Curl1C.Common.Swrite
import Curl1C.Lib.Loop
import Curl1C.Lib.Lines
import Curl1C.Common.TraceDump
import Curl1C.Common.CtrlEvents
import Curl1C.Context.State
import Curl1C.Context.Methods
import Curl1C.Context.Perform
import Curl1C.Context.Run
import Curl1C.Curl.OptionType
import Curl1C.Context.Setopt
import Curl1C.Context.ReadCallback
import Curl1C.Context.Statistics
import Curl1C.Context.Body
import Curl1C.Context.Callbacks
import Curl1C.Context.Headers
import Curl1C.Context.Options
import Curl1C.Context.Cleanup
import Curl1C.Context.Indeterminate
import Curl1C.Context.Files
import Curl1C.Base64.Codec
import Curl1C.Base64.RoundTrip
import Curl1C.Base64.Bounds
import Curl1C.Base64.Script
import Curl1C.Process.Resources
import Curl1C.Process.World
import Curl1C.Process.Share
import Curl1C.Process.Ledgers
import Curl1C.Process.Lifecycle
import Curl1C.Dispatch.Find
import Curl1C.Dispatch.Policy
import Curl1C.NoCaseMap.HashSize
import Curl1C.NoCaseMap.Map
import Curl1C.NoCaseMap.Refinement
import Curl1C.NoCaseMap.Observers
import Curl1C.BLColl.IStringMap
import Curl1C.BLColl.MapRefinement
import Curl1C.BLColl.ToIndex
import Curl1C.BLColl.ReleaseAdd
import Curl1C.BLColl.Collection
import Curl1C.BLColl.SetName
import Curl1C.BLColl.ParamDefs
import Curl1C.BLColl.PropertyCache
import Curl1C.BLColl.BLCollection
import Curl1C.BLPtr.Balance
import Curl1C.Base64.Accept
import Curl1C.Base64.Pointers
import Curl1C.Base64.Statics
import Curl1C.Lib.Reader
import Curl1C.Mime.Part
import Curl1C.Mime.Readback
import Curl1C.Mime.Multipart
import Curl1C.Mime.Rewind
import Curl1C.Curl.Dynbuf
import Curl1C.Curl.Escape
import Curl1C.Mime.Headers
import Curl1C.Mime.Form
import Curl1C.Mime.Resend
import Curl1C.Context.Posting
import Curl1C.Context.FormRequest
import Curl1C.Curl.Smtp
import Curl1C.Curl.HttpChunks
import Curl1C.Context.Mail

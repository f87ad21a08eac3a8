import NginxNettyHls.M3u8Filter.Isolation
import NginxNettyHls.M3u8Filter.NewSeek
import NginxNettyHls.M3u8Filter.Polling
import NginxNettyHls.M3u8Filter.FollowUp
import NginxNettyHls.M3u8Filter.WellFormed
import NginxNettyHls.M3u8Filter.TagOrder
import NginxNettyHls.KeyValue.Faults
import NginxNettyHls.M3u8Filter.Channel
import NginxNettyHls.M3u8Filter.Bodies
import NginxNettyHls.Nginx.Hlsm3u8
import NginxNettyHls.M3u8Filter.Review
import NginxNettyHls.M3u8Filter.QueryLines
import NginxNettyHls.Nginx.Delivered
import NginxNettyHls.M3u8Filter.QueryString
import NginxNettyHls.Nginx.ComplexUri
import NginxNettyHls.Nginx.Gate
import NginxNettyHls.Nginx.SameFile
import NginxNettyHls.M3u8Filter.ReviewWindow
import NginxNettyHls.M3u8Filter.SegmentNames
import NginxNettyHls.M3u8Filter.SeekTime
import NginxNettyHls.M3u8Filter.Swallowed
import NginxNettyHls.Nginx.EntryBuffers
import NginxNettyHls.Nginx.ReadBack
import NginxNettyHls.M3u8Filter.QueryEcho
import NginxNettyHls.Nginx.IndexCallback
import NginxNettyHls.KeyValue.Arrivals
import NginxNettyHls.M3u8Filter.SegmentTimes
import NginxNettyHls.M3u8Filter.StoredSessions
import NginxNettyHls.Nginx.Sprintf
import NginxNettyHls.Nginx.SubrequestArgs
import NginxNettyHls.Nginx.TsHandler
import NginxNettyHls.M3u8Filter.Player
import NginxNettyHls.Nginx.BodyInMemory
import NginxNettyHls.Nginx.Lifecycle
import NginxNettyHls.Nginx.LifecycleRuns
import NginxNettyHls.Nginx.NotModified
import NginxNettyHls.Nginx.OutputFilters
import NginxNettyHls.Nginx.OutputRuns
import NginxNettyHls.KeyValue.Timed
import NginxNettyHls.M3u8Filter.Deployed
import NginxNettyHls.Nginx.RangeBody
import NginxNettyHls.Nginx.Relay
import NginxNettyHls.Nginx.HeaderFilter

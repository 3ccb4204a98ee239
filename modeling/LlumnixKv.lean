import LlumnixKv.Parse.OneSender
import LlumnixKv.Parse.HeadRoundTrip
import LlumnixKv.Parse.TailCoverage
import LlumnixKv.Stub.EveryRank
import LlumnixKv.Stub.HeadCount
import LlumnixKv.Stub.OnWire
import LlumnixKv.Stub.Reports
import LlumnixKv.Client.Ready
import LlumnixKv.Client.Targets
import LlumnixKv.Channel.Quiesce
import LlumnixKv.Channel.Landing
import LlumnixKv.Channel.CopyEffect
import LlumnixKv.Channel.Malformed
import LlumnixKv.Channel.TcpRoundTrip
import LlumnixKv.Channel.StagedProtocol
import LlumnixKv.Scheduler.KvsLoad
import LlumnixKv.Scheduler.Submitting
import LlumnixKv.Scheduler.Redelivery
import LlumnixKv.Scheduler.LostConnection
import LlumnixKv.Scheduler.Peers
import LlumnixKv.Scheduler.Groups

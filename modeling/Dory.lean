import Dory.Foundation.Trace
import Dory.Foundation.KeyedList
import Dory.Foundation.OrderedBag
import Dory.Msg
import Dory.Batch.BatcherCore
import Dory.Batch.SingleTopicBatcher
import Dory.Batch.PerTopicBatcher
import Dory.Batch.ExpiryTracking
import Dory.Batch.PerTopicConservation
import Dory.Util.TopicMap
import Dory.Batch.CombinedTopicsBatcher
import Dory.MsgDispatch.BrokerMsgQueue
import Dory.Foundation.Bytes
import Dory.KafkaProto.ProduceResponseReader
import Dory.Foundation.Buffer
import Dory.Foundation.Simulation
import Dory.KafkaProto.MetadataResponseReader
import Dory.KafkaProto.MetadataRequest
import Dory.KafkaProto.MetadataProto
import Dory.MsgDispatch.ProduceResponseProcessor
import Dory.MsgDispatch.Connector
import Dory.Capped.Writer
import Dory.Capped.Pool
import Dory.InputDg.Format
import Dory.InputDg.Reader
import Dory.InputDg.Writer
import Dory.MsgStateTracker
import Dory.Foundation.OrderedMap
import Dory.Foundation.BatchQueue
import Dory.MsgDispatch.ProduceRequestFactory
import Dory.MsgDispatch.RequestContents
import Dory.MsgDispatch.RequestRuns
import Dory.KafkaProto.ProduceRequestReader
import Dory.KafkaProto.ProduceRequestFormat
import Dory.KafkaProto.ProduceRequestWriter
import Dory.KafkaProto.ProduceRequestRoundTrip
import Dory.MsgRateLimiter
import Dory.Base.ToInteger
import Dory.Foundation.Recency
import Dory.AnomalyTracker
import Dory.Foundation.Runs
import Dory.Foundation.Reindex
import Dory.Metadata
import Dory.Metadata.Sanity
import Dory.Metadata.Contents
import Dory.Metadata.Equality
import Dory.Foundation.CyclicScan
import Dory.RouterThread.ChoosePartition
import Dory.RouterThread
import Dory.RouterThread.MsgStates
import Dory.Foundation.LinkedIndex
import Dory.Thread.SegmentedList
import Dory.Base.Buf
import Dory.Thread.SegmentedList.Pointers
import Dory.Thread.SegmentedList.Spec
import Dory.Thread.SegmentedList.Invariant
import Dory.Thread.SegmentedList.Refinement
import Dory.Thread.ManagedThreadPoolConfig
import Dory.Thread.ManagedThreadPool.Prune
import Dory.Thread.ManagedThreadPool.Pool
import Dory.Thread.ManagedThreadPool.Pruning
import Dory.Thread.ManagedThreadPool.Counted
import Dory.Thread.ManagedThreadPool.Interleaving
import Dory.Thread.Gate
import Dory.Xml.Config.ConfigUtil
import Dory.Foundation.Framing
import Dory.Base.StreamMsgReader
import Dory.Base.StreamMsgWithSizeReader
import Dory.Base.StreamReaderRuns
import Dory.Base.FramedStream
import Dory.StreamClientWorkFn
import Dory.Capped.Reader
import Dory.Util.MsgUtil

import TuyaOpen.Basic.Bytes
import TuyaOpen.Basic.CharArray
import TuyaOpen.Basic.ChunkStream
import TuyaOpen.Basic.Cipher
import TuyaOpen.Basic.Json
import TuyaOpen.Basic.JsonText
import TuyaOpen.Basic.Memory
import TuyaOpen.Basic.PrintBuffer
import TuyaOpen.Basic.Text
import TuyaOpen.Basic.Since
import TuyaOpen.Basic.Tlv
import TuyaOpen.Basic.Transition
import TuyaOpen.Basic.Varint
import TuyaOpen.Common.OperateRet
import TuyaOpen.Common.Crc16
import TuyaOpen.Common.CJson
import TuyaOpen.Security.Symmetry
import TuyaOpen.Security.RawHelpers
import TuyaOpen.Utilities.Base64
import TuyaOpen.Utilities.HashMap
import TuyaOpen.Utilities.Queue
import TuyaOpen.Utilities.RingBuffer
import TuyaOpen.Utilities.MemHeap
import TuyaOpen.Utilities.MemHeapLayout
import TuyaOpen.Utilities.MemHeapInvariant
import TuyaOpen.Utilities.MemHeapCalls
import TuyaOpen.Utilities.MemHeapSound
import TuyaOpen.Utilities.MemHeapRegistry
import TuyaOpen.Utilities.MemHeapCounter
import TuyaOpen.Utilities.MemHeapRealloc
import TuyaOpen.Utilities.WordHeapWords4
import TuyaOpen.Utilities.WordHeapDiagnosis
import TuyaOpen.System.TimeService
import TuyaOpen.System.CalendarTime
import TuyaOpen.System.DateSetting
import TuyaOpen.System.LocalTime
import TuyaOpen.System.WorkQueue
import TuyaOpen.System.SwTimer
import TuyaOpen.System.DelayedWork
import TuyaOpen.System.CancelWork
import TuyaOpen.System.Event
import TuyaOpen.System.EventDispatch
import TuyaOpen.System.EventOrder
import TuyaOpen.AiProtocol.Types
import TuyaOpen.AiProtocol.Codec
import TuyaOpen.AiProtocol.Send
import TuyaOpen.AiProtocol.Receive
import TuyaOpen.AiProtocol.Sequence
import TuyaOpen.AiProtocol.ReceiveLength
import TuyaOpen.AiProtocol.FragmentSafety
import TuyaOpen.AiProtocol.Authentication
import TuyaOpen.AiProtocol.Framing
import TuyaOpen.AiProtocol.RoundTrip
import TuyaOpen.AiProtocol.SendGroup
import TuyaOpen.AiProtocol.ReadReport
import TuyaOpen.AiProtocol.Ownership
import TuyaOpen.AiProtocol.UserAttrs
import TuyaOpen.AiProtocol.UserAttrsSafety
import TuyaOpen.AiProtocol.ChunkUpload
import TuyaOpen.Ble.Transmitter
import TuyaOpen.Ble.TransmitterRoundTrip
import TuyaOpen.Ble.EncoderProgress
import TuyaOpen.Ble.DecoderBounds
import TuyaOpen.Ble.Cryption
import TuyaOpen.Ble.Packet
import TuyaOpen.Ble.Response
import TuyaOpen.Ble.SendLengths
import TuyaOpen.Ble.PacketRoundTrip
import TuyaOpen.Ble.Session
import TuyaOpen.Ble.Duplicates
import TuyaOpen.Ble.Acceptance
import TuyaOpen.Ble.Klv
import TuyaOpen.Ble.FrameSequence
import TuyaOpen.Ble.Advertising
import TuyaOpen.Protocol.Frame
import TuyaOpen.Protocol.Envelope
import TuyaOpen.Protocol.EnvelopeBounds
import TuyaOpen.Lan.Session
import TuyaOpen.Lan.Receive
import TuyaOpen.Lan.Authentic
import TuyaOpen.Lan.Handshake
import TuyaOpen.Lan.Stream
import TuyaOpen.Lan.FrameBounds
import TuyaOpen.Dp.Schema
import TuyaOpen.Dp.Report
import TuyaOpen.Dp.Channels
import TuyaOpen.Dp.Sync
import TuyaOpen.Dp.LocalDump
import TuyaOpen.Dp.Receive
import TuyaOpen.Dp.SchemaParse
import TuyaOpen.Dp.SchemaSplit
import TuyaOpen.Dp.Registry
import TuyaOpen.Dp.CheckLoop
import TuyaOpen.Dp.ReportBuffers
import TuyaOpen.Dp.NodeRun
import TuyaOpen.Dp.ChangeReport
import TuyaOpen.Dp.RejectedReport
import TuyaOpen.Ble.DpValues
import TuyaOpen.Ble.ChannelDownlink
import TuyaOpen.Ble.ChannelUplink
import TuyaOpen.Mqtt.Publish
import TuyaOpen.Mqtt.PublishPass
import TuyaOpen.Mqtt.Subscribe
import TuyaOpen.Kv.Store
import TuyaOpen.Kv.Serialize
import TuyaOpen.Kv.SerializeBuffer
import TuyaOpen.Kv.DeserializeBounds
import TuyaOpen.Netcfg.Provision
import TuyaOpen.Netcfg.WifiListReply
import TuyaOpen.Netcfg.FrameRecv
import TuyaOpen.Netmgr.Manager
import TuyaOpen.Netmgr.WifiConn
import TuyaOpen.Netmgr.WifiInfo
import TuyaOpen.Cli.LineEditor
import TuyaOpen.Cli.ParseBuffer
import TuyaOpen.Button.Handle
import TuyaOpen.Button.Debounce
import TuyaOpen.Button.Events
import TuyaOpen.GkBag.ForceSensor
import TuyaOpen.GkBag.SensorFilter
import TuyaOpen.GkBag.HitPoint
import TuyaOpen.Ble.IdCompress
import TuyaOpen.Http.Download
import TuyaOpen.Cloud.AtopBase
import TuyaOpen.Cloud.AtopOwnership
import TuyaOpen.Cloud.Health
import TuyaOpen.Cloud.RegisterCenter
import TuyaOpen.AiAudio.Player
import TuyaOpen.AiAudio.CloudAsr
import TuyaOpen.Ota.Firmware
import TuyaOpen.Ota.Progress
import TuyaOpen.Ota.ProgressReport
import TuyaOpen.Iot.Client
import TuyaOpen.Iot.Reset
import TuyaOpen.Iot.Activation
import TuyaOpen.Iot.ActivateResponse
import TuyaOpen.Matop.Service
import TuyaOpen.AiBiz.SessionTable
import TuyaOpen.AiBiz.Stream
import TuyaOpen.AiClient.StateMachine
import TuyaOpen.AiClient.Handshake
import TuyaOpen.AiClient.KeepAlive
import TuyaOpen.CoreMqtt.State
import TuyaOpen.CoreMqtt.Records
import TuyaOpen.CoreMqtt.InFlight
import TuyaOpen.CoreMqtt.Order
import TuyaOpen.CoreMqtt.Client
import TuyaOpen.CoreMqtt.Resume

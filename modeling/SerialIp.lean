import SerialIp.BufferRuns
import SerialIp.SerialToSocket
import SerialIp.TelnetDecoding
import SerialIp.SuboptionFraming
import SerialIp.NegotiationRuns
import SerialIp.OptionAgreement
import SerialIp.LockExclusion
import SerialIp.LineSettings
import SerialIp.RawGateway
import SerialIp.PendingData
import SerialIp.SharedSocket
import SerialIp.TelnetModes
import SerialIp.RemoteControl
import SerialIp.SessionEnd
import SerialIp.SerialPort
import SerialIp.EscapeRoundTrip
import SerialIp.ScanBounds
import SerialIp.HonestReply
import SerialIp.ParentSignals
import SerialIp.ChildSignals
import SerialIp.LockLineage
import SerialIp.ConfigurationStrings
import SerialIp.SaneConfig
import SerialIp.SettingEffect
import SerialIp.InputParity
import SerialIp.FailedSend
import SerialIp.SuboptionContent
import SerialIp.BufferRemoval
import SerialIp.LockVerdict
import SerialIp.LockFailure
import SerialIp.PortSelection
import SerialIp.PortRelease
import SerialIp.LineGrammar
import SerialIp.IdleTimer
import SerialIp.PortTable
import SerialIp.EscapeBounds
import SerialIp.ChildTermination
import SerialIp.Dialogue
import SerialIp.Connections
import SerialIp.RawSession
import SerialIp.LockLifecycle
import SerialIp.Detachment
import SerialIp.WrittenConfiguration
import SerialIp.MemorySafety

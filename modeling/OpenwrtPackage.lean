import OpenwrtPackage.Lib.EventRun
import OpenwrtPackage.Lib.SocketTable
import OpenwrtPackage.Lib.Keyed
import OpenwrtPackage.Qmi.Message
import OpenwrtPackage.QmiProxy.Model
import OpenwrtPackage.QmiProxy.World
import OpenwrtPackage.QmiProxy.CtlQueue
import OpenwrtPackage.QmiProxy.CtlForwarding
import OpenwrtPackage.QmiProxy.CtlRouting
import OpenwrtPackage.QmiProxy.ServiceDelivery
import OpenwrtPackage.QmiProxy.Loop
import OpenwrtPackage.MbimProxy.Model
import OpenwrtPackage.MbimProxy.World
import OpenwrtPackage.MbimProxy.Routing
import OpenwrtPackage.MbimProxy.Isolation
import OpenwrtPackage.Lib.FirstFree
import OpenwrtPackage.QrtrProxy.Model
import OpenwrtPackage.QrtrProxy.Ids
import OpenwrtPackage.Lib.CString
import OpenwrtPackage.Ser2mqtt.Hex
import OpenwrtPackage.Ser2mqtt.Modbus
import OpenwrtPackage.Ser2mqtt.Report
import OpenwrtPackage.Ser2mqtt.Framing
import OpenwrtPackage.QrtrProxy.Leak
import OpenwrtPackage.Lib.Directory
import OpenwrtPackage.QrtrProxy.Services
import OpenwrtPackage.Qmi.Qmux
import OpenwrtPackage.QuectelCM.Profile
import OpenwrtPackage.QuectelCM.Requests
import OpenwrtPackage.QuectelCM.Main
import OpenwrtPackage.QuectelCM.Check
import OpenwrtPackage.QuectelCM.LinkAddress
import OpenwrtPackage.QuectelCM.Backoff
import OpenwrtPackage.QuectelCM.Calls
import OpenwrtPackage.QuectelCM.Command
import OpenwrtPackage.QuectelCM.LostResponse
import OpenwrtPackage.Lib.Memory
import OpenwrtPackage.Lib.Tlv
import OpenwrtPackage.QuectelCM.Matching
import OpenwrtPackage.Qmi.Fields
import OpenwrtPackage.QuectelCM.Compose
import OpenwrtPackage.QuectelCM.Encoding
import OpenwrtPackage.QuectelCM.ProfileUpdate
import OpenwrtPackage.Atc.Address
import OpenwrtPackage.QuectelCM.IpConfig
import OpenwrtPackage.QuectelCM.ClientIds
import OpenwrtPackage.AtcProxy.Routing
import OpenwrtPackage.Hypermodem.RunDial
import OpenwrtPackage.Lib.Script
import OpenwrtPackage.Lib.TextFile
import OpenwrtPackage.QuectelCM.ResolvConf
import OpenwrtPackage.Sysupgrade.CleanData
import OpenwrtPackage.Lib.BitPoly
import OpenwrtPackage.Lib.Crc
import OpenwrtPackage.Lib.HostOrder
import OpenwrtPackage.QrtrProxy.HostOrder
import OpenwrtPackage.QuectelCM.HostOrder
import OpenwrtPackage.Ser2mqtt.Crc
import OpenwrtPackage.Ser2mqtt.LineErrors
import OpenwrtPackage.Ser2mqtt.Stream
import OpenwrtPackage.Lib.MachineInt
import OpenwrtPackage.Ser2mqtt.Command
import OpenwrtPackage.QmiProxy.ModemReset
import OpenwrtPackage.Lib.Cut
import OpenwrtPackage.Qmi.Merge
import OpenwrtPackage.Qmi.MergeBounds
import OpenwrtPackage.QrtrProxy.Refusal
import OpenwrtPackage.QrtrProxy.Framing
import OpenwrtPackage.QrtrProxy.Datagram
import OpenwrtPackage.QrtrProxy.Tunnel
import OpenwrtPackage.QuectelCM.TransactionIds
import OpenwrtPackage.QuectelCM.ProxyRead
import OpenwrtPackage.Lib.Reads
import OpenwrtPackage.Qmi.TlvWalk
import OpenwrtPackage.Qmi.TlvBounds
import OpenwrtPackage.QuectelCM.SimIdentity
import OpenwrtPackage.QuectelCM.Failures
import OpenwrtPackage.QuectelCM.SysInfo
import OpenwrtPackage.QuectelCM.RadioType
import OpenwrtPackage.QuectelCM.BufferBounds
import OpenwrtPackage.QuectelCM.ConnectData
import OpenwrtPackage.QuectelCM.MbimReads
import OpenwrtPackage.QuectelCM.MbimBounds
import OpenwrtPackage.Lib.Fold
import OpenwrtPackage.Atc.Fields
import OpenwrtPackage.Atc.Registration
import OpenwrtPackage.Atc.DataCall
import OpenwrtPackage.Lib.Dialogue
import OpenwrtPackage.Atc.Profile
import OpenwrtPackage.QuectelCM.ProfileRetry
import OpenwrtPackage.QuectelCM.Qmap
import OpenwrtPackage.Lib.Ring
import OpenwrtPackage.AtcProxy.CurrentClient
import OpenwrtPackage.Lib.Grep
import OpenwrtPackage.Lib.Uci
import OpenwrtPackage.Autoreboot.Crontab
import OpenwrtPackage.Hypermodem.Firewall
import OpenwrtPackage.Lib.Rewrite
import OpenwrtPackage.QuectelCM.ReplaceStr
import OpenwrtPackage.Lib.Stride
import OpenwrtPackage.QuectelCM.Timeout
import OpenwrtPackage.Lib.Numbering
import OpenwrtPackage.ConfigGenerate.Network
import OpenwrtPackage.Lib.Unicode
import OpenwrtPackage.CJson.Literal
import OpenwrtPackage.CJson.Spelling
import OpenwrtPackage.CJson.Parse
import OpenwrtPackage.CJson.Text
import OpenwrtPackage.Ser2mqtt.Message
import OpenwrtPackage.Lib.Pieces
import OpenwrtPackage.Atc.ReadLine
import OpenwrtPackage.Atc.Reader
import OpenwrtPackage.Atc.Channel
import OpenwrtPackage.Lib.Expansion
import OpenwrtPackage.Lib.UciBatch
import OpenwrtPackage.Mac80211.Detect
import OpenwrtPackage.Lib.Netlink
import OpenwrtPackage.QuectelCM.Rmnetctl
import OpenwrtPackage.QuectelCM.MbimExchange
import OpenwrtPackage.Lib.UciEdit
import OpenwrtPackage.ConfigGenerate.Package
import OpenwrtPackage.Lib.UciBlocks
import OpenwrtPackage.Hypermodem.Restart
import OpenwrtPackage.QuectelCM.Qrtr

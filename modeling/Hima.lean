import Hima.Agps.DataCalls
import Hima.Agps.NotifyWalk
import Hima.Amplifier.EqTable
import Hima.Amplifier.Impedance
import Hima.Amplifier.ModeRuns
import Hima.Amplifier.PatchTrace
import Hima.Amplifier.WaitReg
import Hima.Camera.Admission
import Hima.Camera.BufferRuns
import Hima.Camera.DistortionRuns
import Hima.Camera.InFlightRuns
import Hima.Camera.RingPins
import Hima.Camera.RotateAndCrop
import Hima.Camera.SizeLists
import Hima.Camera.StatusTracker
import Hima.Camera.StreamSets
import Hima.Camera.ZoomRatio
import Hima.CmdQueue.Delivery
import Hima.CmdQueue.Dispatch
import Hima.Conf.LastLine
import Hima.Gps.AdapterRegistry
import Hima.Gps.Framing
import Hima.Gps.HeapBalance
import Hima.Gps.ListDeque
import Hima.Gps.MsgQUnblock
import Hima.Gps.NiAnswers
import Hima.Gps.PositionReports
import Hima.Gps.ThreadHelper
import Hima.Gps.TimerRuns
import Hima.Ipacm.ConntrackFilters
import Hima.Ipacm.DriverAgreement
import Hima.Ipacm.NatIfaces
import Hima.Ipacm.NeighborRuns
import Hima.Ipacm.ParkedConnections
import Hima.Ipacm.PowerSave
import Hima.Ipacm.PrivateSubnets
import Hima.Ipacm.RmDepend
import Hima.Ipacm.StaClients
import Hima.Ipanat.Addressing
import Hima.Ipanat.Checksum
import Hima.Ipanat.DeleteByHandle
import Hima.Ipanat.Layout
import Hima.Ipanat.LifecycleRun
import Hima.Ipanat.RuleMap
import Hima.Ipanat.Updates
import Hima.Lan.HeaderNames
import Hima.Lan.OffloadRuns
import Hima.LanToLan.Announcements
import Hima.LanToLan.HandleRuns
import Hima.LanToLan.PairCount
import Hima.Lights.Light
import Hima.Netlink.AttributeReads
import Hima.Netlink.RouteEvents
import Hima.Nmea.GsvGroups
import Hima.Power.HintOrder
import Hima.Wan.FirewallRounds
import Hima.Xml.SiblingOrder

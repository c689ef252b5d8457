import WixelSdk.AcmTurn
import WixelSdk.BaudRate
import WixelSdk.ControlMotion
import WixelSdk.Cyclic
import WixelSdk.Ds1820
import WixelSdk.FloatExact
import WixelSdk.FloatOps
import WixelSdk.Framing
import WixelSdk.Grouping
import WixelSdk.I2c
import WixelSdk.I2cPulse
import WixelSdk.I2cRecovery
import WixelSdk.I2cTraffic
import WixelSdk.IoRepeater
import WixelSdk.JwsRobot
import WixelSdk.Latch
import WixelSdk.LccMessages
import WixelSdk.LccRobot
import WixelSdk.LccTurn
import WixelSdk.Millivolts
import WixelSdk.Multichannel
import WixelSdk.MultichannelRotation
import WixelSdk.OneWire
import WixelSdk.OneWireBus
import WixelSdk.OneWireCrc
import WixelSdk.OneWireSearch
import WixelSdk.OneWireSelect
import WixelSdk.Packet
import WixelSdk.PacketBits
import WixelSdk.QueueLibrary
import WixelSdk.RadioComChannel
import WixelSdk.RadioComOrder
import WixelSdk.RadioComPacking
import WixelSdk.RadioComPending
import WixelSdk.RadioComPort
import WixelSdk.RadioComReset
import WixelSdk.RadioComRoom
import WixelSdk.RadioComSendRule
import WixelSdk.RadioComTermination
import WixelSdk.RadioLinkFrame
import WixelSdk.RadioLinkParking
import WixelSdk.RadioLinkRestart
import WixelSdk.RadioLinkStatusBytes
import WixelSdk.RadioQueueOrder
import WixelSdk.RadioQueueWakeup
import WixelSdk.RadioSniffer
import WixelSdk.RadioString
import WixelSdk.RateLimit
import WixelSdk.Relay
import WixelSdk.Reporting
import WixelSdk.RobotReport
import WixelSdk.SerialAsciiBinary
import WixelSdk.SerialI2c
import WixelSdk.SerialI2cBytes
import WixelSdk.Servo
import WixelSdk.ServoMoving
import WixelSdk.ServoPulse
import WixelSdk.ShiftRegister
import WixelSdk.Shiftbrite
import WixelSdk.Shuffle
import WixelSdk.SpiMaster
import WixelSdk.TiltMouse
import WixelSdk.TwoWire
import WixelSdk.UartFifo
import WixelSdk.UsbAcknowledge
import WixelSdk.UsbComBlock
import WixelSdk.UsbComNotification
import WixelSdk.UsbComPort
import WixelSdk.UsbComRx
import WixelSdk.UsbComSendRule
import WixelSdk.UsbHidIdle
import WixelSdk.UsbLength
import WixelSdk.UsbLineCoding
import WixelSdk.UsbReenumeration
import WixelSdk.UsbSerial
import WixelSdk.WaypointArrival
import WixelSdk.WaypointNav
import WixelSdk.WaypointReport
import WixelSdk.WirelessAdc
import WixelSdk.WirelessSerial
import WixelSdk.WirelessSerialPacket
import WixelSdk.WordSearch

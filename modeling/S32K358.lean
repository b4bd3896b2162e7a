import S32K358.Lpspi.DataPath
import S32K358.Lpspi.FrameSize
import S32K358.Lpspi.FrameBits
import S32K358.Lpspi.Clock
import S32K358.Lpspi.Progress
import S32K358.Lpspi.ChipSelect
import S32K358.Lpspi.Busy
import S32K358.Lpspi.Release
import S32K358.Lpspi.Interrupt
import S32K358.Lpspi.TransmitFlag
import S32K358.Lpspi.Events
import S32K358.Lpspi.Counts
import S32K358.Lpspi.Representation
import S32K358.Lpspi.Atomic
import S32K358.Lpspi.Reset
import S32K358.Lpspi.Sensor
import S32K358.Lpuart.Receive
import S32K358.Lpuart.Unread
import S32K358.Lpuart.Backend
import S32K358.Lpuart.Transmit
import S32K358.Lpuart.Mux
import S32K358.Soc.Wiring
import S32K358.Soc.Migration
import S32K358.Soc.Snapshot
import S32K358.Demo.Basic
import S32K358.Demo.HandOff
import S32K358.Demo.Uart
import S32K358.Demo.Readings
import S32K358.LpspiIp.AnyHardware
import S32K358.LpspiIp.Sync
import S32K358.LpspiIp.Select
import S32K358.LpspiIp.Async
import S32K358.LpspiIp.Cancel
import S32K358.LpspiIp.HalfDuplex
import S32K358.LpspiIp.Devices
import S32K358.Demo.Motor
import S32K358.LpuartUartIp.Send
import S32K358.LpuartUartIp.Session
import S32K358.Demo.System

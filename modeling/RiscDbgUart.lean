import RiscDbgUart.AbstractCmd
import RiscDbgUart.AbstractPrograms
import RiscDbgUart.BaudGen
import RiscDbgUart.BlockSession
import RiscDbgUart.BlockTransfers
import RiscDbgUart.BusData
import RiscDbgUart.BusDevice
import RiscDbgUart.BusTransfers
import RiscDbgUart.BusyError
import RiscDbgUart.Clocked.Component
import RiscDbgUart.Clocked.Lanes
import RiscDbgUart.Clocked.Machine
import RiscDbgUart.Clocked.Ring
import RiscDbgUart.Clocked.Stream
import RiscDbgUart.Clocked.Stuffing
import RiscDbgUart.CmdErr
import RiscDbgUart.CommandDecoder
import RiscDbgUart.CommandGate
import RiscDbgUart.CommandRequests
import RiscDbgUart.CommandSession
import RiscDbgUart.CommandSymbols
import RiscDbgUart.CommandWindow
import RiscDbgUart.DataMemory
import RiscDbgUart.DataSymbols
import RiscDbgUart.DebugModule
import RiscDbgUart.DebugRom
import RiscDbgUart.DebugSession
import RiscDbgUart.DmAnswers
import RiscDbgUart.DmCsrs
import RiscDbgUart.DmFetch
import RiscDbgUart.DmMem
import RiscDbgUart.DmPkg
import RiscDbgUart.DmRegs
import RiscDbgUart.DmSba
import RiscDbgUart.DmTop
import RiscDbgUart.DmiJtag
import RiscDbgUart.DmiPairing
import RiscDbgUart.DmiProtocol
import RiscDbgUart.DmiReads
import RiscDbgUart.DmiUart
import RiscDbgUart.DmiUartTap
import RiscDbgUart.DtmUart
import RiscDbgUart.EscapeLink
import RiscDbgUart.FlowControl
import RiscDbgUart.HaltSummaries
import RiscDbgUart.HartFlags
import RiscDbgUart.HartSelection
import RiscDbgUart.HeadOfLine
import RiscDbgUart.HostMessages
import RiscDbgUart.HostPort
import RiscDbgUart.HostRead
import RiscDbgUart.HostReads
import RiscDbgUart.HostWrite
import RiscDbgUart.HostWrites
import RiscDbgUart.Inactive
import RiscDbgUart.Isolation
import RiscDbgUart.JtagScans
import RiscDbgUart.JtagSession
import RiscDbgUart.JtagTap
import RiscDbgUart.JtagTransactions
import RiscDbgUart.Labels
import RiscDbgUart.LineRecovery
import RiscDbgUart.Loopback
import RiscDbgUart.ParkedHart
import RiscDbgUart.ProgramBuffer
import RiscDbgUart.ReadAnswers
import RiscDbgUart.ReadDelivery
import RiscDbgUart.ReadInterconnect
import RiscDbgUart.ReadRouting
import RiscDbgUart.ReadRuns
import RiscDbgUart.ReadSide
import RiscDbgUart.ReadTransfer
import RiscDbgUart.RegisterTransfers
import RiscDbgUart.ResumeRequest
import RiscDbgUart.Riscv.Effects
import RiscDbgUart.Riscv.Hart
import RiscDbgUart.Riscv.Run
import RiscDbgUart.Riscv.Saved
import RiscDbgUart.Riscv.Traffic
import RiscDbgUart.RunControl
import RiscDbgUart.RxDeserializer
import RiscDbgUart.RxEscape
import RiscDbgUart.SampleCells
import RiscDbgUart.SerialProgram
import RiscDbgUart.SerialReads
import RiscDbgUart.SerialRoundTrip
import RiscDbgUart.SerialSession
import RiscDbgUart.SerialWrites
import RiscDbgUart.SimpleFifo
import RiscDbgUart.SupportedCommands
import RiscDbgUart.SystemBus
import RiscDbgUart.SystemReset
import RiscDbgUart.TrapRecovery
import RiscDbgUart.TxEscape
import RiscDbgUart.TxLink
import RiscDbgUart.TxSerializer
import RiscDbgUart.Uart
import RiscDbgUart.UartDtmTop
import RiscDbgUart.UartFrame
import RiscDbgUart.UartPkg
import RiscDbgUart.UartRx
import RiscDbgUart.UartSampling
import RiscDbgUart.UartTx
import RiscDbgUart.WordDelivery
import RiscDbgUart.WriteInterconnect
import RiscDbgUart.WriteRuns
import RiscDbgUart.WriteSide

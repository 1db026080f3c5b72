/-
  `dtm_uart.sv` on `dm_top.sv`, as `UART_DTM_TOP.sv` and the test bench connect them: from the serial
  line to the harts' bus and the system bus.

  The two modules meet at the debug module interface, a request channel and a response channel with
  valid and ready each.  Both ends of it are registers or depend on registers only, so the wiring has no
  order to it: `dtmIn` and `dmIn` look at the state before the clock edge.

  The buses and the STB targets stay open; `UART_DTM_TOP.sv` ties them to constants.  What is proved here
  holds for all of their behaviour, or says what it asks of them.

  Whatever is known about the parts alone holds in the whole: `dtm_component` and `dm_component` are the
  two halves, and `uart_component`, `rx_component` and `tx_component` reach into the first of them.

  `accepted` lists the requests that the debug module takes in a cycle, and the lines are given cycle by
  cycle as the pins have them.  These two are what the theorems about this system are stated with.
-/
import RiscDbgUart.DmTop
import RiscDbgUart.DtmUart

set_option linter.unusedVariables false

namespace RiscDbgUart.UartDtmTop

open Clocked
open DmMem (Params)

variable {n w : Nat}

/-- The registers of the transport module and of the debug module. -/
structure State (n : Nat) where
  dtm : DtmUart.State
  dm : DmTop.State n

/-- The serial line and the second channel, the STB targets, and the two buses of the debug module. -/
structure Input (n w : Nat) where
  rx0I : Bool := true
  tx1I : Bool := true
  stbI : ReadInterconnect.Devices := {}
  stbReadyI : WriteInterconnect.Ready := {}
  harts : DmTop.Harts n w := {}
  master : DmTop.Master w := {}

/-- The pins of the transport module. -/
def dtmIn (s : State n) (i : Input n w) : DtmUart.Input :=
  { rx0I := i.rx0I
    tx1I := i.tx1I
    dmiRespValidI := DmCsrs.dmiRespValidO s.dm.csrs.queue
    dmiRespI := DmCsrs.dmiRespO s.dm.csrs.queue
    dmiReqReadyI := DmCsrs.dmiReqReadyO s.dm.csrs.queue
    stbI := i.stbI
    stbReadyI := i.stbReadyI }

/-- The pins of the debug module. -/
def dmIn (s : State n) (i : Input n w) : DmTop.Input n w :=
  { dmi :=
      { reqValidI := s.dtm.dmi.dmiReqValidO
        reqI := s.dtm.dmi.request
        respReadyI := s.dtm.dmi.dmiRespReadyO }
    harts := i.harts
    master := i.master }

/-- The state behind a power-on reset.  The FIFO's memory and a few registers of the TAP are not reset; they
    keep the values of `s`. -/
def reset (r : Rates) (romAddr : Nat) (s : State n) (i : Input n w) : State n :=
  { dtm := DtmUart.reset r s.dtm (dtmIn s i), dm := DmTop.reset romAddr }

/-- One clock edge, with both halves at the same clock. -/
def next (r : Rates) (esc : Byte) (p : Params n) (s : State n) (i : Input n w) : State n :=
  { dtm := DtmUart.next r esc s.dtm (dtmIn s i), dm := DmTop.next p s.dm (dmIn s i) }

/-- The request that the debug module accepts in a cycle: ready and valid are both high. -/
def accepted (s : State n) (i : Input n w) : List DmiReq :=
  if DmTop.accepts s.dm (dmIn s i) then [s.dtm.dmi.request] else []

theorem dtm_component (r : Rates) (esc : Byte) (p : Params n) :
    Component (next r esc p) (DtmUart.next r esc) State.dtm (dtmIn (w := w)) := fun _ _ => rfl

theorem dm_component (r : Rates) (esc : Byte) (p : Params n) :
    Component (next r esc p) (DmTop.next p) State.dm (dmIn (w := w)) := fun _ _ => rfl

/-- The UART with its receiver and its transmitter, two levels down. -/
theorem uart_component (r : Rates) (esc : Byte) (p : Params n) :
    Component (next r esc p) (Uart.next r) (fun s => s.dtm.uart)
      (fun s (i : Input n w) => DtmUart.uartIn s.dtm (dtmIn s i)) :=
  component_trans (dtm_component r esc p) (DtmUart.uart_component r esc)

theorem rx_component (r : Rates) (esc : Byte) (p : Params n) :
    Component (next r esc p) (UartRx.next r) (fun s => s.dtm.uart.rx) (fun _ (i : Input n w) => i.rx0I) :=
  component_trans (uart_component r esc p) (Uart.rx_component r)

theorem tx_component (r : Rates) (esc : Byte) (p : Params n) :
    Component (next r esc p) (UartTx.next r) (fun s => s.dtm.uart.tx)
      (fun s (i : Input n w) => Uart.txIn s.dtm.uart (DtmUart.uartIn s.dtm (dtmIn s i))) :=
  component_trans (uart_component r esc p) (Uart.tx_component r)

end RiscDbgUart.UartDtmTop

/-
  `dm_csrs.sv`, the debug module's end of the bus: a request is accepted when it is valid and the
  response queue is not full, every accepted request pushes a response, and the response at the head
  is taken when the other side is ready.

  The queue is a FIFO of depth 2.  What a response contains is decided by the registers behind it; it
  comes in from outside here, as the word `DECODER` puts on the queue in that cycle.
-/
import RiscDbgUart.UartPkg

set_option linter.unusedVariables false

namespace RiscDbgUart.DmCsrs

structure State where
  respQueue : List (BitVec 32)
deriving DecidableEq, Repr, Inhabited

structure Input where
  dmiReqValidI : Bool
  dmiRespReadyI : Bool
  respQueueData : BitVec 32

def reset : State := { respQueue := [] }

/-- `.DEPTH(2)` -/
abbrev DEPTH : Nat := 2

/-- `dmi_req_ready_o = ~resp_queue_full` -/
def dmiReqReadyO (s : State) : Bool := !(s.respQueue.length == DEPTH)

/-- `dmi_resp_valid_o = ~resp_queue_empty` -/
def dmiRespValidO (s : State) : Bool := !s.respQueue.isEmpty

/-- `dmi_resp_o.data` -/
def dmiRespO (s : State) : BitVec 32 := s.respQueue.headD 0

/-- `resp_queue_push`: a request is accepted. -/
def push (s : State) (i : Input) : Bool := i.dmiReqValidI && dmiReqReadyO s

/-- `resp_queue_pop` -/
def pop (s : State) (i : Input) : Bool := i.dmiRespReadyI && dmiRespValidO s

/-- The edge of the queue: the head leaves when it is taken, and the response of an accepted request goes to
    the end, both in the same cycle if it comes to that. -/
def next (s : State) (i : Input) : State :=
  { respQueue :=
      (if pop s i then s.respQueue.tail else s.respQueue)
        ++ (if push s i then [i.respQueueData] else []) }

end RiscDbgUart.DmCsrs

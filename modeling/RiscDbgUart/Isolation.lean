/-
  The two sides of the debug module do not disturb each other.

  Abstract commands and the harts on one side, the system bus on the other, share one register block, one
  DMI and one response queue.  Take two runs of `dm_top` that the debugger drives alike.  If the harts do
  the same in both, then whatever the system bus answers in either, the harts' side is the same
  (`harts_isolated`): its registers, the flags the harts see, and every answer on the DMI that is not the
  content of a bus register.  If the system bus answers alike in both, then whatever the harts do in
  either, the bus side is the same (`bus_isolated`).

  The relation that carries each run lemma is equality of one side's registers and of the LENGTH of the
  response queue; the contents of the queue may differ, and only the length decides whether a request is
  accepted.

  For each register there is a congruence lemma: on the two sides that are alike it goes to the same value,
  since nothing that differs is read by its formula.  They are collected by `hartsAlike_next` and
  `busAlike_next`, first for the registers and then for the whole module, and `run_coupled` of the library
  carries them along the two runs.
-/
import RiscDbgUart.DmTop

set_option linter.unusedVariables false

namespace RiscDbgUart

variable {n w : Nat}

/-! ## The registers of one side -/

namespace DmRegs

/-- The same registers, but for those of the system bus, and as many answers waiting. -/
structure HartsAlike (s t : State n) : Prop where
  queue : s.queue.respQueue.length = t.queue.respQueue.length
  dmcontrol : s.regs.dmcontrol = t.regs.dmcontrol
  cmderr : s.regs.cmderr = t.regs.cmderr
  command : s.regs.command = t.regs.command
  cmdValid : s.regs.cmdValid = t.regs.cmdValid
  abstractauto : s.regs.abstractauto = t.regs.abstractauto
  progbuf : s.regs.progbuf = t.regs.progbuf
  data : s.regs.data = t.regs.data
  havereset : s.regs.havereset = t.regs.havereset

/-- The same registers of the system bus, `dmactive`, and as many answers waiting. -/
structure BusAlike (s t : State n) : Prop where
  queue : s.queue.respQueue.length = t.queue.respQueue.length
  dmactive : s.regs.dmcontrol.dmactive = t.regs.dmcontrol.dmactive
  sbcs : s.regs.sbcs = t.regs.sbcs
  sbaddr : s.regs.sbaddr = t.regs.sbaddr
  sbdata : s.regs.sbdata = t.regs.sbdata

/-- The same on the DMI: the debugger is one and the same in both runs. -/
structure DmiAlike (i j : Input n w) : Prop where
  valid : i.dmiReqValidI = j.dmiReqValidI
  req : i.dmiReqI = j.dmiReqI
  ready : i.dmiRespReadyI = j.dmiRespReadyI

/-- The same from the harts' side, and on the DMI.  The bus may be different. -/
structure HartsInAlike (i j : Input n w) : Prop extends DmiAlike i j where
  hartinfo : i.hartinfoI = j.hartinfoI
  halted : i.haltedI = j.haltedI
  unavailable : i.unavailableI = j.unavailableI
  resumeack : i.resumeackI = j.resumeackI
  cmderrorValid : i.cmderrorValidI = j.cmderrorValidI
  cmderror : i.cmderrorI = j.cmderrorI
  cmdbusy : i.cmdbusyI = j.cmdbusyI
  data : i.dataI = j.dataI
  dataValid : i.dataValidI = j.dataValidI

/-- The same from the system bus, and on the DMI.  The harts may be different. -/
structure BusInAlike (i j : Input n w) : Prop extends DmiAlike i j where
  sbaddress : i.sbaddressI = j.sbaddressI
  sbdata : i.sbdataI = j.sbdataI
  sbdataValid : i.sbdataValidI = j.sbdataValidI
  sbbusy : i.sbbusyI = j.sbbusyI
  sberrorValid : i.sberrorValidI = j.sberrorValidI
  sberror : i.sberrorI = j.sberrorI

section Requests

variable {s t : State n} {i j : Input n w}

theorem accepts_congr (hq : s.queue.respQueue.length = t.queue.respQueue.length) (h : DmiAlike i j) :
    accepts s i = accepts t j := by
  rw [accepts, accepts, DmCsrs.dmiReqReadyO, DmCsrs.dmiReqReadyO, hq, h.valid]

theorem reads_congr (hq : s.queue.respQueue.length = t.queue.respQueue.length) (h : DmiAlike i j) :
    reads s i = reads t j := by
  rw [reads, reads, accepts_congr hq h, h.req]

theorem writes_congr (hq : s.queue.respQueue.length = t.queue.respQueue.length) (h : DmiAlike i j) :
    writes s i = writes t j := by
  rw [writes, writes, accepts_congr hq h, h.req]

theorem dmCsrAddr_congr (h : DmiAlike i j) : dmCsrAddr i = dmCsrAddr j := by
  rw [dmCsrAddr, dmCsrAddr, h.req]

/-- How many answers wait after the cycle does not depend on what they are. -/
theorem queue_congr (p : BitVec n) (hq : s.queue.respQueue.length = t.queue.respQueue.length)
    (h : DmiAlike i j) :
    (next p s i).queue.respQueue.length = (next p t j).queue.respQueue.length := by
  -- the length after the cycle, from the length before it and the two handshakes
  have hlength (q : DmCsrs.State) (d : DmCsrs.Input) : (DmCsrs.next q d).respQueue.length
      = (if d.dmiRespReadyI && !(q.respQueue.length == 0) then q.respQueue.length - 1
          else q.respQueue.length)
        + (if d.dmiReqValidI && !(q.respQueue.length == 2) then 1 else 0) := by
    have hempty : q.respQueue.isEmpty = (q.respQueue.length == 0) := by
      cases q.respQueue <;> rfl
    rw [DmCsrs.next, List.length_append, DmCsrs.pop, DmCsrs.push, DmCsrs.dmiRespValidO,
      DmCsrs.dmiReqReadyO, hempty]
    congr 1
    · split_ifs
      · exact List.length_tail
      · rfl
    · split_ifs <;> rfl
  show (DmCsrs.next s.queue (queueIn s i)).respQueue.length
    = (DmCsrs.next t.queue (queueIn t j)).respQueue.length
  rw [hlength, hlength, hq]
  show _ = (if j.dmiRespReadyI && _ then _ else _) + (if j.dmiReqValidI && _ then _ else _)
  rw [← h.valid, ← h.ready]
  rfl

end Requests

/-! ## One cycle of the registers, from the harts -/

section Harts

variable {s t : State n} {i j : Input n w}

theorem overwrites_congr (hs : HartsAlike s t) (hi : HartsInAlike i j) (c : DmCsr) :
    overwrites s i c = overwrites t j c := by
  rw [overwrites, overwrites, writes_congr hs.queue hi.toDmiAlike, dmCsrAddr_congr hi.toDmiAlike,
    hi.cmdbusy]

theorem requestsCommand_congr (hs : HartsAlike s t) (hi : HartsInAlike i j) :
    requestsCommand s i = requestsCommand t j := by
  have hw := writes_congr hs.queue hi.toDmiAlike
  have hr := reads_congr hs.queue hi.toDmiAlike
  rw [requestsCommand, requestsCommand, dmCsrAddr_congr hi.toDmiAlike, hw, hr]
  unfold autoexecData autoexecProgbuf
  rw [hs.abstractauto]

theorem accessErr_congr (hs : HartsAlike s t) (hi : HartsInAlike i j) :
    accessErr s i = accessErr t j := by
  have hguarded : guarded s i = guarded t j := by
    rw [guarded, guarded, dmCsrAddr_congr hi.toDmiAlike, writes_congr hs.queue hi.toDmiAlike,
      reads_congr hs.queue hi.toDmiAlike]
  rw [accessErr, accessErr, hguarded, overwrites_congr hs hi, hi.cmdbusy, hs.cmderr, hi.req]

theorem selectedHart_congr (hs : HartsAlike s t) : selectedHart s.regs = selectedHart t.regs := by
  rw [selectedHart, selectedHart, hartselO, hartselO, hs.dmcontrol]

theorem dmcontrol_congr (hs : HartsAlike s t) (hi : HartsInAlike i j) :
    (csrReadWrite s i).d.dmcontrol = (csrReadWrite t j).d.dmcontrol := by
  rw [dmcontrol_d, dmcontrol_d, writes_congr hs.queue hi.toDmiAlike, dmCsrAddr_congr hi.toDmiAlike,
    hi.req, hs.dmcontrol, dmcontrolOverrides, dmcontrolOverrides, hs.dmcontrol, hi.resumeack]

theorem havereset_congr (hs : HartsAlike s t) (hi : HartsInAlike i j) :
    (csrReadWrite s i).d.havereset = (csrReadWrite t j).d.havereset := by
  rw [havereset_d, havereset_d, writesDmControl, writesDmControl,
    writes_congr hs.queue hi.toDmiAlike, dmCsrAddr_congr hi.toDmiAlike, hi.req, ndmresetO, ndmresetO,
    hs.dmcontrol, hs.havereset, selectedHart_congr hs]

/-- **One cycle**, whatever comes from the system bus. -/
theorem hartsAlike_next (p : BitVec n) (hs : HartsAlike s t) (hi : HartsInAlike i j) :
    HartsAlike (next p s i) (next p t j) := by
  have hqueue := queue_congr p hs.queue hi.toDmiAlike
  have hactive : s.regs.dmcontrol.dmactive = t.regs.dmcontrol.dmactive := by rw [hs.dmcontrol]
  have hsi : (next p s i).regs = nextRegs p s i := rfl
  have htj : (next p t j).regs = nextRegs p t j := rfl
  cases hact : t.regs.dmcontrol.dmactive with
  | false =>
    -- inactive: only `dmactive` and `havereset` are not cleared
    rw [hact] at hactive
    rw [nextRegs_inactive s i p hactive] at hsi
    rw [nextRegs_inactive t j p hact] at htj
    refine ⟨hqueue, ?_, ?_, ?_, ?_, ?_, ?_, ?_, ?_⟩ <;> rw [hsi, htj]
    · exact congrArg (fun c : DmControl => { DmControl0 with dmactive := c.dmactive })
        (dmcontrol_congr hs hi)
    · exact congrArg (p &&& ·) (havereset_congr hs hi)
  | true =>
    -- active: each register by its own formula, none of which reads the bus
    rw [hact] at hactive
    rw [nextRegs_active s i p hactive] at hsi
    rw [nextRegs_active t j p hact] at htj
    refine ⟨hqueue, ?_, ?_, ?_, ?_, ?_, ?_, ?_, ?_⟩ <;> rw [hsi, htj]
    · exact dmcontrol_congr hs hi
    · show (csrReadWrite s i).d.cmderr = (csrReadWrite t j).d.cmderr
      rw [cmderr_d, cmderr_d, hi.cmderrorValid, hi.cmderror, accessErr_congr hs hi]
    · show (csrReadWrite s i).d.command = (csrReadWrite t j).d.command
      rw [command_d, command_d, overwrites_congr hs hi, hi.req, hs.command]
    · show (csrReadWrite s i).d.cmdValid = (csrReadWrite t j).d.cmdValid
      rw [cmdValid_d, cmdValid_d, requestsCommand_congr hs hi, hi.cmdbusy]
    · show (csrReadWrite s i).d.abstractauto = (csrReadWrite t j).d.abstractauto
      rw [abstractauto_d, abstractauto_d, overwrites_congr hs hi, hi.req, hs.abstractauto]
    · show (csrReadWrite s i).d.progbuf = (csrReadWrite t j).d.progbuf
      rw [progbuf_d, progbuf_d, dmCsrAddr_congr hi.toDmiAlike, hi.req, hs.progbuf]
      simp only [overwrites_congr hs hi]
    · show (csrReadWrite s i).d.data = (csrReadWrite t j).d.data
      rw [data_d, data_d, dmCsrAddr_congr hi.toDmiAlike, hi.req, hs.data, hi.dataValid, hi.data]
      simp only [overwrites_congr hs hi]
    · exact congrArg (p &&& ·) (havereset_congr hs hi)

/-- The harts' side hears of an acknowledgement to be cleared alike. -/
theorem clearResumeackO_congr (hs : HartsAlike s t) (hi : HartsInAlike i j) :
    (csrReadWrite s i).clearResumeackO = (csrReadWrite t j).clearResumeackO := by
  rw [clearResumeackO_eq, clearResumeackO_eq, writesDmControl, writesDmControl,
    writes_congr hs.queue hi.toDmiAlike, dmCsrAddr_congr hi.toDmiAlike, hi.req, hs.dmcontrol]

/-- Every register but those of the bus is read alike, by cases on the register. -/
theorem readWord_harts (hs : HartsAlike s t) (hi : HartsInAlike i j) {c : DmCsr}
    (hc : c.ofBus = false) : readWord s i c = readWord t j c := by
  have hsel := selectedHart_congr hs
  have hsel' : hartselO s.regs = hartselO t.regs := by rw [hartselO, hartselO, hs.dmcontrol]
  unfold readWord
  cases c with
  | data k => exact congrArg (getWord · k) hs.data
  | dmControl => exact congrArg DmControl.toWord hs.dmcontrol
  -- a status register is made of flags of the harts, which are alike
  | dmStatus =>
    show dmstatus s.regs i = dmstatus t.regs j
    rw [dmstatus, dmstatus, hsel, hsel', hs.havereset, hi.resumeack, hi.unavailable, hi.halted]
  | hartinfo =>
    show getWord i.hartinfoI _ = getWord j.hartinfoI _
    rw [hi.hartinfo, hsel]
  | abstractCS =>
    show abstractcs s.regs i = abstractcs t.regs j
    rw [abstractcs, abstractcs, hi.cmdbusy, hs.cmderr]
  | abstractAuto => exact congrArg AbstractAuto.toWord hs.abstractauto
  | progBuf k => exact congrArg (getWord · k) hs.progbuf
  | haltSum0 | haltSum1 | haltSum2 | haltSum3 =>
    simp only [hi.halted, hsel']
  | command | other => rfl
  -- these are left out by the hypothesis
  | sbcs | sbAddress0 | sbAddress1 | sbData0 | sbData1 => exact absurd hc (by decide)

end Harts

/-! ## One cycle of the registers, from the system bus -/

section Bus

variable {s t : State n} {i j : Input n w}

theorem sbBlocked_congr (hs : BusAlike s t) (hi : BusInAlike i j) : sbBlocked s i = sbBlocked t j := by
  rw [sbBlocked, sbBlocked, hi.sbbusy, hs.sbcs]

theorem overwritesSb_congr (hs : BusAlike s t) (hi : BusInAlike i j) (c : DmCsr) :
    overwritesSb s i c = overwritesSb t j c := by
  rw [overwritesSb, overwritesSb, writes_congr hs.queue hi.toDmiAlike,
    dmCsrAddr_congr hi.toDmiAlike, sbBlocked_congr hs hi]

theorem sbcs_congr (hs : BusAlike s t) (hi : BusInAlike i j) :
    (csrReadWrite s i).d.sbcs = (csrReadWrite t j).d.sbcs := by
  have hrefused : refusedSb s i = refusedSb t j := by
    rw [refusedSb, refusedSb, dmCsrAddr_congr hi.toDmiAlike, writes_congr hs.queue hi.toDmiAlike,
      reads_congr hs.queue hi.toDmiAlike, sbBlocked_congr hs hi, hi.sbbusy]
  rw [sbcs_d, sbcs_d, hrefused, writes_congr hs.queue hi.toDmiAlike, dmCsrAddr_congr hi.toDmiAlike,
    writtenSbcs, writtenSbcs, hi.req, hs.sbcs, sbcsOverrides, sbcsOverrides, hi.sberrorValid,
    hi.sberror, hi.sbbusy]

/-- `dmactive` is the debugger's alone, and it is what clears everything else. -/
theorem dmactive_congr (hs : BusAlike s t) (hi : BusInAlike i j) :
    (csrReadWrite s i).d.dmcontrol.dmactive = (csrReadWrite t j).d.dmcontrol.dmactive := by
  have hactive (s : State n) (i : Input n w) : (csrReadWrite s i).d.dmcontrol.dmactive
      = if writes s i && dmCsrAddr i == .dmControl then (DmControl.ofWord i.dmiReqI.data).dmactive
        else s.regs.dmcontrol.dmactive := by
    rw [dmcontrol_d]
    split_ifs <;> rfl
  rw [hactive, hactive, writes_congr hs.queue hi.toDmiAlike, dmCsrAddr_congr hi.toDmiAlike, hi.req,
    hs.dmactive]

/-- **One cycle**, whatever comes from the harts. -/
theorem busAlike_next (p : BitVec n) (hs : BusAlike s t) (hi : BusInAlike i j) :
    BusAlike (next p s i) (next p t j) := by
  have hqueue := queue_congr p hs.queue hi.toDmiAlike
  have hactive := hs.dmactive
  have hsi : (next p s i).regs = nextRegs p s i := rfl
  have htj : (next p t j).regs = nextRegs p t j := rfl
  cases hact : t.regs.dmcontrol.dmactive with
  | false =>
    -- inactive: only `dmactive` is not cleared
    rw [hact] at hactive
    rw [nextRegs_inactive s i p hactive] at hsi
    rw [nextRegs_inactive t j p hact] at htj
    refine ⟨hqueue, ?_, ?_, ?_, ?_⟩ <;> rw [hsi, htj]
    exact dmactive_congr hs hi
  | true =>
    -- active: the registers of the bus read none of the harts
    rw [hact] at hactive
    rw [nextRegs_active s i p hactive] at hsi
    rw [nextRegs_active t j p hact] at htj
    refine ⟨hqueue, ?_, ?_, ?_, ?_⟩ <;> rw [hsi, htj]
    · exact dmactive_congr hs hi
    · exact sbcs_congr hs hi
    · show (csrReadWrite s i).d.sbaddr = (csrReadWrite t j).d.sbaddr
      rw [sbaddr_d, sbaddr_d, overwritesSb_congr hs hi, overwritesSb_congr hs hi, hi.req,
        hi.sbaddress]
    · show (csrReadWrite s i).d.sbdata = (csrReadWrite t j).d.sbdata
      rw [sbdata_d, sbdata_d, overwritesSb_congr hs hi, overwritesSb_congr hs hi, hi.req, hs.sbdata,
        hi.sbdataValid, hi.sbdata]

/-- The registers of the bus are read alike. -/
theorem readWord_bus (hs : BusAlike s t) (hi : BusInAlike i j) {c : DmCsr} (hc : c.ofBus = true) :
    readWord s i c = readWord t j c := by
  unfold readWord
  cases c with
  | sbcs => exact congrArg Sbcs.toWord hs.sbcs
  | sbAddress0 | sbAddress1 => exact congrArg (getWord · _) hs.sbaddr
  | sbData0 | sbData1 =>
    show (if _ then _ else getWord s.regs.sbdata _) = (if _ then _ else getWord t.regs.sbdata _)
    rw [sbBlocked_congr hs hi, hs.sbdata]
  | _ => exact absurd hc Bool.false_ne_true

end Bus

end DmRegs

/-! ## Whole runs of the debug module -/

namespace DmTop

open Clocked
open DmMem (Params Access)

/-- The same from the harts' side, and as many answers waiting. -/
structure HartsAlike (s t : State n) : Prop where
  mem : s.mem = t.mem
  csrs : DmRegs.HartsAlike s.csrs t.csrs

/-- The same from the side of the system bus, and as many answers waiting. -/
structure BusAlike (s t : State n) : Prop where
  sba : s.sba = t.sba
  csrs : DmRegs.BusAlike s.csrs t.csrs

section Cycle

variable {p : Params n} {s t : State n} {i j : Input n w}

/-- The pins of `dm_mem`, the one pulse that depends on the access of the cycle being given. -/
theorem memInWith_congr (clearResumeack : Bool) (h : HartsAlike s t) (hharts : i.harts = j.harts) :
    DebugModule.memInWith clearResumeack (hartSide s) (hartSideIn s i)
      = DebugModule.memInWith clearResumeack (hartSide t) (hartSideIn t j) := by
  have hhaltreq : DmRegs.haltreqO s.csrs.regs = DmRegs.haltreqO t.csrs.regs := by
    rw [DmRegs.haltreqO, DmRegs.haltreqO, DmRegs.selectedHart_congr h.csrs, h.csrs.dmcontrol]
  have hresumereq : DmRegs.resumereqO s.csrs.regs = DmRegs.resumereqO t.csrs.regs := by
    rw [DmRegs.resumereqO, DmRegs.resumereqO, DmRegs.selectedHart_congr h.csrs, h.csrs.dmcontrol]
  simp only [DebugModule.memInWith, hartSide, hartSideIn, DmRegs.hartselO, hhaltreq, hresumereq,
    h.csrs.dmcontrol, h.csrs.progbuf, h.csrs.data, h.csrs.cmdValid, h.csrs.command, hharts]

/-- What the harts' side drives into the registers. -/
theorem hartsIn_congr (h : HartsAlike s t) (hdmi : i.dmi = j.dmi) (hharts : i.harts = j.harts) :
    DmRegs.HartsInAlike (csrsIn p s i) (csrsIn p t j) := by
  have hmem := memInWith_congr false h hharts
  constructor
  · exact ⟨congrArg Dmi.reqValidI hdmi, congrArg Dmi.reqI hdmi, congrArg Dmi.respReadyI hdmi⟩
  · exact congrArg Harts.hartinfoI hharts
  · exact congrArg DmMem.State.halted h.mem
  · exact congrArg Harts.unavailableI hharts
  · exact congrArg DmMem.State.resuming h.mem
  · show DmMem.cmderrorValidO p s.mem _ = DmMem.cmderrorValidO p t.mem _
    rw [hmem, h.mem]
  · show DmMem.cmderrorO p s.mem _ = DmMem.cmderrorO p t.mem _
    rw [hmem, h.mem]
  · exact congrArg DmMem.cmdbusyO h.mem
  · exact congrArg DmMem.dataO hmem
  · exact congrArg DmMem.dataValidO hmem

/-- What the system bus drives into the registers. -/
theorem busIn_congr (h : BusAlike s t) (hdmi : i.dmi = j.dmi) (hmaster : i.master = j.master) :
    DmRegs.BusInAlike (csrsIn p s i) (csrsIn p t j) := by
  have hsba : sbaIn0 s i = sbaIn0 t j := by
    simp only [sbaIn0, SystemBus.sbaInWith, busSide, SystemBus.sbaddress, SystemBus.sbdata,
      h.csrs.sbaddr, h.csrs.sbdata, h.csrs.sbcs, hmaster]
  constructor
  · exact ⟨congrArg Dmi.reqValidI hdmi, congrArg Dmi.reqI hdmi, congrArg Dmi.respReadyI hdmi⟩
  · show DmSba.sbaddressO s.sba (sbaIn0 s i) = DmSba.sbaddressO t.sba (sbaIn0 t j)
    rw [hsba, h.sba]
  · exact congrArg DmSba.sbdataO hsba
  · exact congrArg DmSba.sbdataValidO hsba
  · exact congrArg DmSba.sbbusyO h.sba
  · show DmSba.sberrorValidO s.sba (sbaIn0 s i) = DmSba.sberrorValidO t.sba (sbaIn0 t j)
    rw [hsba, h.sba]
  · show DmSba.sberrorO s.sba (sbaIn0 s i) = DmSba.sberrorO t.sba (sbaIn0 t j)
    rw [hsba, h.sba]

/-- **One cycle**, whatever the system bus answers. -/
theorem hartsAlike_next (h : HartsAlike s t) (hdmi : i.dmi = j.dmi) (hharts : i.harts = j.harts) :
    HartsAlike (next p s i) (next p t j) := by
  have hin : DmRegs.HartsInAlike (csrsIn p s i) (csrsIn p t j) := hartsIn_congr h hdmi hharts
  refine ⟨?_, DmRegs.hartsAlike_next p.selectableHarts h.csrs hin⟩
  have hclear := DmRegs.clearResumeackO_congr h.csrs hin
  have hmem : DebugModule.memIn p (hartSide s) (hartSideIn s i)
      = DebugModule.memIn p (hartSide t) (hartSideIn t j) := by
    show DebugModule.memInWith (DmRegs.csrReadWrite s.csrs (csrsIn p s i)).clearResumeackO _ _
      = DebugModule.memInWith (DmRegs.csrReadWrite t.csrs (csrsIn p t j)).clearResumeackO _ _
    rw [hclear]
    exact memInWith_congr _ h hharts
  show DmMem.next p s.mem _ = DmMem.next p t.mem _
  rw [hmem, h.mem]

/-- **One cycle**, whatever the harts do. -/
theorem busAlike_next (h : BusAlike s t) (hdmi : i.dmi = j.dmi) (hmaster : i.master = j.master) :
    BusAlike (next p s i) (next p t j) := by
  have hin : DmRegs.BusInAlike (csrsIn p s i) (csrsIn p t j) := busIn_congr h hdmi hmaster
  refine ⟨?_, DmRegs.busAlike_next p.selectableHarts h.csrs hin⟩
  have hdmi' := hin.toDmiAlike
  have hblocked := DmRegs.sbBlocked_congr h.csrs hin
  have hsba : SystemBus.sbaIn (busSide s) (busSideIn p s i)
      = SystemBus.sbaIn (busSide t) (busSideIn p t j) := by
    rw [SystemBus.sbaIn, SystemBus.sbaIn, csrsIn_bus, csrsIn_bus]
    show SystemBus.sbaInWith (DmRegs.csrReadWrite s.csrs (csrsIn p s i)).sbaddressWriteValidO
        (DmRegs.csrReadWrite s.csrs (csrsIn p s i)).sbdataReadValidO
        (DmRegs.csrReadWrite s.csrs (csrsIn p s i)).sbdataWriteValidO _ _
      = SystemBus.sbaInWith (DmRegs.csrReadWrite t.csrs (csrsIn p t j)).sbaddressWriteValidO
        (DmRegs.csrReadWrite t.csrs (csrsIn p t j)).sbdataReadValidO
        (DmRegs.csrReadWrite t.csrs (csrsIn p t j)).sbdataWriteValidO _ _
    rw [DmRegs.sbaddressWriteValidO_eq, DmRegs.sbaddressWriteValidO_eq, DmRegs.sbdataReadValidO_eq,
      DmRegs.sbdataReadValidO_eq, DmRegs.sbdataWriteValidO_eq, DmRegs.sbdataWriteValidO_eq,
      DmRegs.overwritesSb_congr h.csrs hin, DmRegs.overwritesSb_congr h.csrs hin,
      DmRegs.reads_congr h.csrs.queue hdmi', DmRegs.dmCsrAddr_congr hdmi', hblocked, h.csrs.sbcs]
    simp only [SystemBus.sbaInWith, busSide, busSideIn, SystemBus.sbaddress, SystemBus.sbdata,
      h.csrs.sbaddr, h.csrs.sbdata, h.csrs.sbcs, hmaster]
  show DmSba.next s.sba _ = DmSba.next t.sba _
  rw [hsba, h.sba]

/-- Requests are accepted alike, and answered alike as far as the registers they read agree. -/
theorem answered_congr (hq : s.csrs.queue.respQueue.length = t.csrs.queue.respQueue.length)
    (hin : DmRegs.DmiAlike (csrsIn p s i) (csrsIn p t j)) {registers : DmCsr → Bool}
    (hword : ∀ c, registers c = true →
      DmRegs.readWord s.csrs (csrsIn p s i) c = DmRegs.readWord t.csrs (csrsIn p t j) c) :
    answered registers p s i = answered registers p t j := by
  have hreq : i.dmi.reqI = j.dmi.reqI := hin.req
  have haccepts : accepts s i = accepts t j := DmRegs.accepts_congr hq hin
  rw [answered, answered, haccepts, hreq, DmRegs.respQueueData_eq, DmRegs.respQueueData_eq,
    DmRegs.reads_congr hq hin, DmRegs.dmCsrAddr_congr hin]
  cases hr : registers (DmCsr.ofAddr j.dmi.reqI.addr) with
  | false => rw [Bool.and_false, if_neg Bool.false_ne_true, if_neg Bool.false_ne_true]
  | true =>
    have haddr : DmRegs.dmCsrAddr (csrsIn p t j) = DmCsr.ofAddr j.dmi.reqI.addr := rfl
    rw [haddr, hword _ hr]

end Cycle

/-- **The system bus does not disturb the harts.**  In two runs with the same requests on the DMI and the
    same accesses of the harts, the harts' side ends the same and every request to a register that is
    not one of the system bus is answered the same, whatever the system bus answered when. -/
theorem harts_isolated (p : Params n) (romAddr : Nat) (is js : List (Input n w))
    (hdmi : is.map (·.dmi) = js.map (·.dmi)) (hharts : is.map (·.harts) = js.map (·.harts)) :
    HartsAlike (run (next p) (reset romAddr) is) (run (next p) (reset romAddr) js) ∧
      emitted (next p) (answered (fun c => !c.ofBus) p) (reset romAddr) is
        = emitted (next p) (answered (fun c => !c.ofBus) p) (reset romAddr) js := by
  have hinputs := matching_of_map (·.dmi) (·.harts) is js hdmi hharts
  have hstep : ∀ (s t : State n) (i j : Input n w), HartsAlike s t →
      i.dmi = j.dmi ∧ i.harts = j.harts → HartsAlike (next p s i) (next p t j) :=
    fun s t i j h hij => hartsAlike_next h hij.1 hij.2
  have hreset : HartsAlike (reset romAddr : State n) (reset romAddr) :=
    ⟨rfl, rfl, rfl, rfl, rfl, rfl, rfl, rfl, rfl, rfl⟩
  constructor
  · exact run_coupled hstep hinputs hreset
  · refine emitted_coupled hstep ?_ hinputs hreset
    intro s t i j h hij
    have hin : DmRegs.HartsInAlike (csrsIn p s i) (csrsIn p t j) := hartsIn_congr h hij.1 hij.2
    refine answered_congr h.csrs.queue hin.toDmiAlike ?_
    intro c hc
    exact DmRegs.readWord_harts h.csrs hin ((Bool.not_eq_true' _).mp hc)

/-- One hart, with the debug module in the zero page. -/
def soleHart : Params 1 := { selectableHarts := 1, dmBaseAddress := 0 }

/-- A request on the DMI. -/
def dmiReq (addr : BitVec 7) (op : BitVec 2) (data : BitVec 32) : Dmi :=
  { reqValidI := true, reqI := ⟨addr, op, data⟩ }

/-- The debugger activates the module, starts a write on the system bus and reads the status, while a
    hart reports that it is halted. -/
def session (masters : List (Master 32)) : List (Input 1 32) :=
  List.zipWith (fun c m => { dmi := c.1, harts := { busI := c.2 }, master := m })
    [(dmiReq 0x10 DTM_WRITE 1, {}), (dmiReq 0x3c DTM_WRITE 7, {}),
      ({}, { reqI := true, weI := true, addrI := 0x100, beI := 15 }), (dmiReq 0x11 DTM_READ 0, {})]
    masters

/-- A bus that never answers, and one that grants, answers, and answers again unasked. -/
theorem harts_isolated_session :
    HartsAlike (run (next soleHart) (reset 0) (session [{}, {}, {}, {}]))
        (run (next soleHart) (reset 0) (session [{}, {}, ⟨true, false, 0⟩, ⟨false, true, 9⟩])) ∧
      emitted (next soleHart) (answered (fun c => !c.ofBus) soleHart) (reset 0)
          (session [{}, {}, {}, {}])
        = emitted (next soleHart) (answered (fun c => !c.ofBus) soleHart) (reset 0)
          (session [{}, {}, ⟨true, false, 0⟩, ⟨false, true, 9⟩]) :=
  harts_isolated soleHart 0 (session [{}, {}, {}, {}])
    (session [{}, {}, ⟨true, false, 0⟩, ⟨false, true, 9⟩]) rfl rfl

/-- **The harts do not disturb the system bus.**  In two runs with the same requests on the DMI and the
    same answers of the system bus, the bus side ends the same and every request to a register of the
    system bus is answered the same, whatever the harts did. -/
theorem bus_isolated (p : Params n) (romAddr : Nat) (is js : List (Input n w))
    (hdmi : is.map (·.dmi) = js.map (·.dmi)) (hmaster : is.map (·.master) = js.map (·.master)) :
    BusAlike (run (next p) (reset romAddr) is) (run (next p) (reset romAddr) js) ∧
      emitted (next p) (answered DmCsr.ofBus p) (reset romAddr) is
        = emitted (next p) (answered DmCsr.ofBus p) (reset romAddr) js := by
  have hinputs := matching_of_map (·.dmi) (·.master) is js hdmi hmaster
  have hstep : ∀ (s t : State n) (i j : Input n w), BusAlike s t →
      i.dmi = j.dmi ∧ i.master = j.master → BusAlike (next p s i) (next p t j) :=
    fun s t i j h hij => busAlike_next h hij.1 hij.2
  have hreset : BusAlike (reset romAddr : State n) (reset romAddr) :=
    ⟨rfl, rfl, rfl, rfl, rfl, rfl⟩
  constructor
  · exact run_coupled hstep hinputs hreset
  · refine emitted_coupled hstep ?_ hinputs hreset
    intro s t i j h hij
    have hin : DmRegs.BusInAlike (csrsIn p s i) (csrsIn p t j) := busIn_congr h hij.1 hij.2
    refine answered_congr h.csrs.queue hin.toDmiAlike ?_
    intro c hc
    exact DmRegs.readWord_bus h.csrs hin hc

/-- The debugger writes two words to the system bus, with whatever the hart does. -/
def twoWords (accesses : List (Access 32)) : List (Input 1 32) :=
  List.zipWith (fun c a => { dmi := c.1, harts := { busI := a }, master := c.2 })
    [(dmiReq 0x10 DTM_WRITE 1, {}), (dmiReq 0x3c DTM_WRITE 7, {}), ({}, ⟨true, false, 0⟩),
      ({}, ⟨false, true, 0⟩), (dmiReq 0x3c DTM_WRITE 8, {}), (dmiReq 0x39 DTM_READ 0, {})]
    accesses

theorem bus_isolated_twoWords :
    BusAlike (run (next soleHart) (reset 0) (twoWords [{}, {}, {}, {}, {}, {}]))
        (run (next soleHart) (reset 0)
          (twoWords [{}, {}, ⟨true, true, 0x10c, 0, 15⟩, ⟨true, true, 0x380, 5, 15⟩, {},
            ⟨true, true, 0x100, 0, 15⟩])) ∧
      emitted (next soleHart) (answered DmCsr.ofBus soleHart) (reset 0)
          (twoWords [{}, {}, {}, {}, {}, {}])
        = emitted (next soleHart) (answered DmCsr.ofBus soleHart) (reset 0)
          (twoWords [{}, {}, ⟨true, true, 0x10c, 0, 15⟩, ⟨true, true, 0x380, 5, 15⟩, {},
            ⟨true, true, 0x100, 0, 15⟩]) :=
  bus_isolated soleHart 0 (twoWords [{}, {}, {}, {}, {}, {}])
    (twoWords [{}, {}, ⟨true, true, 0x10c, 0, 15⟩, ⟨true, true, 0x380, 5, 15⟩, {},
      ⟨true, true, 0x100, 0, 15⟩]) rfl rfl

end DmTop

end RiscDbgUart

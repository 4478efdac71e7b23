import CanNet.ConsoleTraffic
import CanNet.RxBuffers

/-!
# CanNet.ConsoleReceive

What the program lets in and what becomes of it.

The only filter the program ever sets is that of `ss1_receive_can_response`, at one list position and
for one Rx buffer. So one identifier at most is accepted, the Rx FIFOs stay empty, and the handler
never finds two buffers flagged: what `CanNet.RxBuffers` and `CanNet.RxFifos` need of the traffic
holds of all traffic there is.
-/

namespace CanNet

open Bits RuleList

/-! ## The one filter -/

/-- The call of `ss1_receive_can_response`. -/
def responseCall : FilterCall :=
  .standardBuffer selfCanId (BitVec.ofNat 32 mcanRxStandardFilterId0BufferIndex)
    mcanRxStandardFilterIndex0

theorem responseCall_run (s : Node) : responseCall.run s = ss1ReceiveCanResponse s := rfl

theorem responseCall_inRange : responseCall.InRange := by
  simp only [responseCall, FilterCall.InRange]
  decide

/-- The filter for the response has been set if `asked`, and no other ever. -/
def Listening (asked : Bool) (s : Node) : Prop :=
  ∃ n, Configured (.replicate n responseCall) s ∧ (asked = true ↔ 0 < n)

theorem standardTable_replicate (n : Nat) (i : Nat) :
    standardTable (.replicate n responseCall) i =
      if 0 < n ∧ i = 0 then some ⟨0x47A, .buffer 2⟩ else none := by
  induction n with
  | zero => rfl
  | succ n ih =>
    rw [List.replicate_succ', standardTable_snoc]
    show Function.update (standardTable (.replicate n responseCall)) 0
      (some ⟨0x47A, .buffer 2⟩) i = _
    by_cases hi : i = 0
    · subst hi
      simp
    · rw [Function.update_of_ne hi, ih]
      simp [hi]

theorem extendedTable_replicate (n : Nat) (i : Nat) :
    extendedTable (.replicate n responseCall) i = none := by
  induction n with
  | zero => rfl
  | succ n ih =>
    rw [List.replicate_succ', extendedTable_snoc]
    exact ih

/-- Only the response is accepted, and only once it was asked for. -/
theorem Listening.acceptStandard {asked : Bool} {s : Node} (h : Listening asked s) (id : BitVec 11) :
    s.mcan.acceptStandard id =
      if asked = true ∧ id = 0x47A#11 then some (.buffer 2) else none := by
  obtain ⟨n, ⟨_, hlss, _, _, hgfc, hstd, _⟩, hasked⟩ := h
  have hroute : RoutedBy confMcan1RxStandardIdFilterNum
      (standardTable (.replicate n responseCall)) id.toNat (s.mcan.acceptStandard id) := by
    rw [Mcan.acceptStandard, hlss, hgfc]
    exact hstd.routedBy id
  by_cases hc : asked = true ∧ id = 0x47A#11
  · rw [if_pos hc, hc.2]
    rw [hc.2] at hroute
    refine (hroute.1 _).mpr ⟨0, by decide, ?_, fun j hj => absurd hj (Nat.not_lt_zero j)⟩
    rw [standardTable_replicate, if_pos ⟨hasked.mp hc.1, rfl⟩]
    rfl
  · rw [if_neg hc]
    refine hroute.2.mpr fun i _ d ht => ?_
    rw [standardTable_replicate] at ht
    split at ht
    · rename_i hpos
      have hkey : 0x47A = id.toNat := congrArg Rule.key (Option.some.inj ht)
      exact hc ⟨hasked.mpr hpos.1, BitVec.eq_of_toNat_eq hkey.symm⟩
    · cases ht

theorem Listening.acceptExtended {asked : Bool} {s : Node} (h : Listening asked s) (id : BitVec 29) :
    s.mcan.acceptExtended id = none := by
  obtain ⟨n, ⟨_, _, hlse, hxidam, hgfc, _, hext⟩, _⟩ := h
  have hroute : RoutedBy confMcan1RxExtendedIdFilterNum
      (extendedTable (.replicate n responseCall)) id.toNat (s.mcan.acceptExtended id) := by
    rw [Mcan.acceptExtended, hlse, hgfc, hxidam]
    exact hext.routedBy id
  refine hroute.2.mpr fun i _ d ht => ?_
  rw [extendedTable_replicate] at ht
  cases ht

/-! ## What keeps the filters -/

/-- Nothing about the acceptance filters differs. -/
structure FilterSame (s t : Node) : Prop where
  hw : t.hw = s.hw
  sidfcLss : t.mcan.sidfcLss = s.mcan.sidfcLss
  xidfcLse : t.mcan.xidfcLse = s.mcan.xidfcLse
  xidam : t.mcan.xidam = s.mcan.xidam
  gfc : t.mcan.gfc = s.mcan.gfc
  standard : t.mcan.standardFilter = s.mcan.standardFilter
  extended : t.mcan.extendedFilter = s.mcan.extendedFilter

theorem Listening.of_same {asked : Bool} {s t : Node} (h : Listening asked s)
    (hs : FilterSame s t) : Listening asked t := by
  obtain ⟨n, hc, hasked⟩ := h
  refine ⟨n, ⟨hs.hw.trans hc.hw, hs.sidfcLss.trans hc.sidfcLss, hs.xidfcLse.trans hc.xidfcLse,
    hs.xidam.trans hc.xidam, hs.gfc.trans hc.gfc, ?_, ?_⟩, hasked⟩
  · rw [hs.standard]
    exact hc.standard
  · rw [hs.extended]
    exact hc.extended

/-- The call sets the filter, once more or for the first time. -/
theorem Listening.answer {asked : Bool} {s : Node} (h : Listening asked s) :
    Listening true (ss1ReceiveCanResponse s) := by
  obtain ⟨n, hc, _⟩ := h
  refine ⟨n + 1, ?_, by simp⟩
  rw [List.replicate_succ', ← responseCall_run]
  exact hc.step responseCall_inRange

theorem Listening.busOff {asked : Bool} {s : Node} (h : Listening asked s) :
    Listening asked (busOffBranch s) := by
  obtain ⟨n, hc, hasked⟩ := h
  obtain ⟨_, _, _, hm⟩ := busOffBranch_mcan s
  exact ⟨n, ⟨busOffBranch_hw s, by rw [hm], by rw [hm], by rw [hm], by rw [hm],
    by rw [hm]; exact hc.standard, by rw [hm]; exact hc.extended⟩, hasked⟩

theorem Listening.handler {asked : Bool} {s : Node} (h : Listening asked s) :
    Listening asked (mcan1Int0Handler s) := by
  apply mcan1Int0Handler_keeps (Q := Listening asked) h
  · intro t ht
    obtain ⟨_, hc, _⟩ := id ht
    rw [rxBufferBranch_eq hc.hw]
    exact ht.of_same ⟨rfl, rfl, rfl, rfl, rfl, rfl, rfl⟩
  · intro t ht
    exact ht.of_same ⟨rfl, rfl, rfl, rfl, rfl, rfl, rfl⟩
  · intro _ t ht
    exact ht.of_same ⟨rfl, rfl, rfl, rfl, rfl, rfl, rfl⟩
  · intro t ht
    exact ht.of_same ⟨rfl, rfl, rfl, rfl, rfl, rfl, rfl⟩
  · intro _ t ht
    exact ht.busOff

/-- No event of the node machine touches the filters. -/
theorem Listening.step {asked : Bool} {s s' : Node} {e : NodeEvent} (h : Listening asked s)
    (hs : nodeMachine.step s e = some s') : Listening asked s' := by
  cases e with
  | txMessage idValue length data txElement =>
    obtain ⟨e, _, hcase⟩ := txMessage_step hs
    rcases hcase with ⟨_, rfl⟩ | ⟨_, _, rfl⟩ | ⟨_, _, rfl⟩
    · exact h
    · exact h.of_same ⟨rfl, rfl, rfl, rfl, rfl, rfl, rfl⟩
    · exact h.of_same ⟨rfl, rfl, rfl, rfl, rfl, rfl, rfl⟩
  | busStep =>
    obtain ⟨_, rfl⟩ := busStep_step hs
    exact h.of_same ⟨rfl, rfl, rfl, rfl, rfl, rfl, rfl⟩
  | handler =>
    cases hs
    exact h.handler
  | _ =>
    cases hs
    exact h.of_same ⟨rfl, rfl, rfl, rfl, rfl, rfl, rfl⟩

/-! ## The filter along a run -/

/-- A query to subsystem 1 whose frame was accepted. -/
def Offer.asksSs1 (o : Offer) : Bool := o.taken && (o.cmdId = 3#8 || o.cmdId = 4#8)

theorem recordRequest_same (s t : Node) : FilterSame t (recordRequest s t) := by
  rw [recordRequest]
  cases requestedFrame s t <;> exact ⟨rfl, rfl, rfl, rfl, rfl, rfl, rfl⟩

/-- The commands that ask subsystem 1 for something. -/
theorem asks_ss1_iff {cmdId : Byte} {canId : Word} {cmd : Byte}
    (hsent : sentBy cmdId = some (canId, cmd)) :
    isQuery cmdId = true ∧ canId = ss1CanId ↔ cmdId = 3#8 ∨ cmdId = 4#8 := by
  rcases cmdId_cases cmdId with rfl | rfl | rfl | rfl | rfl | rfl | rfl | rfl | rfl | hbig
  case inr.inr.inr.inr.inr.inr.inr.inr.inr =>
    rw [sentBy_outside hbig] at hsent
    cases hsent
  all_goals
    cases hsent
    try decide

/-- A command opens the filter exactly if it is an accepted query to subsystem 1. -/
theorem Sends.listening {cmdId : Byte} {stack : McanTxElement} {s s' : Node} {asked : Bool}
    (h : Sends cmdId stack s s') (hl : Listening asked s) (typed : Bool) :
    Listening (asked || ({ cmdId := cmdId, typed := typed, taken := sendable s } : Offer).asksSs1)
      (recordRequest s s') := by
  obtain ⟨canId, cmd, status, t, hsent, hsend, rfl⟩ := h.sends
  have ht : Listening asked t := by
    obtain ⟨e, _, hcase⟩ := canTxMessage_some hsend
    rcases hcase with ⟨_, hr⟩ | ⟨_, _, hr⟩ | ⟨_, _, hr⟩
    all_goals
      cases hr
      exact hl.of_same ⟨rfl, rfl, rfl, rfl, rfl, rfl, rfl⟩
  have hok : status = .statusOk ↔ sendable s = true := by
    obtain ⟨status', t', h', hcase⟩ := sendCanCommand_cases canId stack cmd 0#32 s
    rw [hsend] at h'
    cases h'
    rcases hcase with ⟨hs, hst, _⟩ | ⟨hs, hst, _⟩ <;> simp [hs, hst]
  have hasks : (isQuery cmdId = true ∧ status = .statusOk ∧ canId = ss1CanId) ↔
      ({ cmdId := cmdId, typed := typed, taken := sendable s } : Offer).asksSs1 = true := by
    have hiff := asks_ss1_iff hsent
    simp only [Offer.asksSs1, Bool.and_eq_true, Bool.or_eq_true, decide_eq_true_eq, ← hiff, hok]
    tauto
  refine Listening.of_same ?_ (recordRequest_same s _)
  rw [answered]
  split
  · rename_i hc
    rw [hasks.mp hc, Bool.or_true]
    exact ht.answer
  · rename_i hc
    rw [Bool.eq_false_iff.mpr (mt hasks.mpr hc), Bool.or_false]
    exact ht

/-- A step opens the filter exactly if its offer asks subsystem 1 for something. -/
theorem MasterMove.listening {m m' : Master} {e : MasterEvent} {asked : Bool}
    (h : MasterMove m e m') (hl : Listening asked m.node) :
    Listening (asked || (offerOf m e).any Offer.asksSs1) m'.node := by
  have hquiet : offerOf m e = none → Listening (asked || (offerOf m e).any Offer.asksSs1) m.node := by
    intro hnone
    rw [hnone, Option.any_none, Bool.or_false]
    exact hl
  cases h with
  | pressed key stack m' he hidle h =>
    subst he
    cases h with
    | printed texts download hcmd _ _ => exact hquiet (offerOf_printed hcmd)
    | executed cmdId text status s' hcmd _ _ hsends =>
      rw [offerOf_key hcmd]
      exact hsends.listening hl true
  | downloaded stack m' he h =>
    subst he
    cases h with
    | queried q rest s' hdownload hsends =>
      rw [offerOf_queried hdownload]
      exact hsends.listening hl false
    | reported hdownload => exact hquiet (offerOf_reported hdownload)
  | ignored hoffer _ => exact hquiet (offerOf_none hoffer)
  | hardware ev s' hoffer _ _ hs =>
    rw [offerOf_none hoffer, Option.any_none, Bool.or_false]
    exact hl.step hs

/-! ## What is stored -/

/-- If it is about a received frame, it is about Rx buffer 2. -/
def Obs.AboutResponse : Obs → Prop
  | .stored dest _ => dest = .buffer 2
  | .copied dest _ _ _ => dest = .buffer 2
  | _ => True

/-- Nothing but Rx buffer 2 has received or reported anything, and the FIFOs have nothing pending. -/
structure Quiet (s : Node) : Prop where
  reported : ∀ o ∈ s.trace, o.AboutResponse
  others : ∀ k, k < confMcan1RxBufferNum → flagged s k = true → k = 2
  fifo0 : has s.mcan.ir mcanRxFifo0NewMessage = false
  fifo1 : has s.mcan.ir mcanRxFifo1NewMessage = false

/-- Everything but a frame that is stored elsewhere. -/
def StoresResponse : NodeEvent → Prop
  | .rxBuffer k _ => k = 2
  | .rxFifo0 _ | .rxFifo1 _ => False
  | _ => True

theorem raisedBy_rxFifo0 {e : NodeEvent} (h : ∀ x, e ≠ .rxFifo0 x) :
    has (raisedBy e) mcanRxFifo0NewMessage = false := by
  cases e with
  | rxFifo0 x => exact absurd rfl (h x)
  | raise flags => exact has_raise_otherFlags (by decide) flags
  | _ => simp only [raisedBy]; decide

theorem reported_append {trace l : List Obs} (h : ∀ o ∈ trace, o.AboutResponse)
    (hl : ∀ o ∈ l, o.AboutResponse) : ∀ o ∈ trace ++ l, o.AboutResponse := by
  intro o ho
  exact (List.mem_append.mp ho).elim (h o) (hl o)

theorem reported_snoc {trace : List Obs} {o : Obs} (h : ∀ o ∈ trace, o.AboutResponse)
    (ho : o.AboutResponse) : ∀ o' ∈ trace ++ [o], o'.AboutResponse :=
  reported_append h (List.forall_mem_singleton.mpr ho)

/-- The scan reports the buffer that is flagged. -/
theorem Quiet.scan {s : Node} (h : Quiet s) (hw : s.hw = .mcan1) :
    ∀ o ∈ (rxBufferBranch s).trace, o.AboutResponse := by
  rw [rxBufferBranch_eq hw]
  refine reported_append h.reported fun o ho => ?_
  obtain ⟨k, hk, rfl⟩ := List.mem_map.mp ho
  rcases rxBufferScan_cases s.mcan.newData with ⟨_, hscan⟩ | ⟨j, hj, hflag, hscan⟩
  · rw [rxBufferScanned, hscan] at hk
    cases hk
  · rw [rxBufferScanned, hscan] at hk
    rw [List.mem_singleton.mp hk]
    exact congrArg RxDest.buffer (h.others j hj hflag)

theorem Quiet.handler {s : Node} (h : Quiet s) (hw : s.hw = .mcan1) :
    Quiet (mcan1Int0Handler s) where
  reported := by
    rw [mcan1Int0Handler_eq, h.fifo0, h.fifo1, guarded_false, guarded_false]
    refine guarded_keeps (Q := fun t => ∀ o ∈ t.trace, o.AboutResponse) ?_ fun _ t ht => ?_
    · refine guarded_keeps (Q := fun t => ∀ o ∈ t.trace, o.AboutResponse) ?_ fun _ t ht =>
        reported_snoc ht trivial
      cases has s.mcan.ir mcanRxBufferNewMessage with
      | false => exact h.reported
      | true => exact h.scan hw
    · rw [busOffBranch_trace]
      exact reported_snoc ht trivial
  others k hk hflag := by
    refine h.others k hk ?_
    rw [flagged, (bufSame_handler hw).newData] at hflag
    cases hpend : has s.mcan.ir mcanRxBufferNewMessage with
    | false =>
      rw [hpend] at hflag
      exact hflag
    | true =>
      rw [hpend] at hflag
      rcases rxBufferBranch_cases hw with ⟨_, hsame⟩ | ⟨j, _, _, _, hflags, _, _⟩
      · rw [guarded_true, hsame.newData] at hflag
        exact hflag
      · have hj := hflags k
        rw [flagged, show mcanRxGetBufferStatus (rxBufferBranch s).mcan.newData k = true from hflag]
          at hj
        exact (Bool.and_eq_true_iff.mp hj.symm).1
  fifo0 := handler_flag s (.inr (.inl rfl))
  fifo1 := handler_flag s (.inr (.inr (.inl rfl)))

theorem Quiet.step {s s' : Node} {e : NodeEvent} (h : Quiet s) (hw : s.hw = .mcan1)
    (hc : StoresResponse e) (hs : nodeMachine.step s e = some s') : Quiet s' := by
  have hfifo0 : has s'.mcan.ir mcanRxFifo0NewMessage = false :=
    flag_clear_step h.fifo0 (raisedBy_rxFifo0 fun x hx => by rw [hx] at hc; exact hc) hs
  have hfifo1 : has s'.mcan.ir mcanRxFifo1NewMessage = false :=
    flag_clear_step h.fifo1 (raisedBy_rxFifo1 fun x hx => by rw [hx] at hc; exact hc) hs
  cases e with
  | txMessage idValue length data txElement =>
    obtain ⟨e, _, hcase⟩ := txMessage_step hs
    rcases hcase with ⟨_, rfl⟩ | ⟨_, _, rfl⟩ | ⟨_, _, rfl⟩
    · exact h
    · exact ⟨h.reported, h.others, hfifo0, hfifo1⟩
    · exact ⟨reported_snoc (reported_snoc h.reported trivial) trivial, h.others, hfifo0, hfifo1⟩
  | busStep =>
    obtain ⟨_, rfl⟩ := busStep_step hs
    exact ⟨reported_snoc h.reported trivial, h.others, hfifo0, hfifo1⟩
  | rxBuffer k e =>
    cases hs
    have hk2 : k = 2 := hc
    refine ⟨reported_snoc h.reported (congrArg (fun j : Fin _ => RxDest.buffer j) hk2), ?_, hfifo0,
      hfifo1⟩
    intro j hj hflag
    have hk : (k : Nat) < 32 := Nat.lt_of_lt_of_le k.isLt (by decide)
    have hj' : j < 32 := Nat.lt_of_lt_of_le hj (by decide)
    simp only [flagged, Node.emit_mcan, Node.onMcan_mcan, mcanRxGetBufferStatus_store _ _ hk hj',
      Bool.or_eq_true, decide_eq_true_eq] at hflag
    rcases hflag with hflag | hjk
    · exact h.others j hj hflag
    · rw [hjk, hk2]
      rfl
  | rxFifo0 e | rxFifo1 e => exact absurd hc id
  | busOff | raise flags =>
    cases hs
    exact ⟨h.reported, h.others, hfifo0, hfifo1⟩
  | handler =>
    cases hs
    exact h.handler hw

/-! ## The reception of a run -/

/-- The filter is open for whoever has asked, and the Rx buffers are in order. -/
structure ReceptionInv (p : Master × List Offer) : Prop where
  blind : Blind p.1.telemetry
  listening : Listening (p.2.any Offer.asksSs1) p.1.node
  buffers : BufferInv p.1.node
  quiet : Quiet p.1.node

theorem BufferInv.unfiltered {s : Node} : BufferInv s.unfiltered ↔ BufferInv s :=
  ⟨fun h => ⟨h.hw, h.box, h.quiet⟩, fun h => ⟨h.hw, h.box, h.quiet⟩⟩

theorem Quiet.unfiltered {s : Node} : Quiet s.unfiltered ↔ Quiet s :=
  ⟨fun h => ⟨h.reported, h.others, h.fifo0, h.fifo1⟩,
    fun h => ⟨h.reported, h.others, h.fifo0, h.fifo1⟩⟩

theorem callOf_storesResponse {cmdId : Byte} {stack : McanTxElement} {ev : NodeEvent}
    (h : callOf cmdId stack = some ev) : StoresResponse ev := by
  unfold callOf at h
  split at h
  · cases h
  · cases h
    trivial

/-- The filter lets nothing in but the response, into Rx buffer 2. -/
theorem Listening.storesResponse {m : Master} {asked : Bool} {e : MasterEvent} {ev : NodeEvent}
    (h : Listening asked m.node) (hlabel : masterLabel m e = some ev) : StoresResponse ev := by
  cases e with
  | key key stack =>
    simp only [masterLabel] at hlabel
    split at hlabel
    · cases hlabel
    · exact callOf_storesResponse hlabel
  | download stack =>
    simp only [masterLabel] at hlabel
    split at hlabel
    · exact callOf_storesResponse hlabel
    · cases hlabel
  | standardFrame id element =>
    simp only [masterLabel, h.acceptStandard] at hlabel
    split at hlabel
    · cases hlabel
      rfl
    · cases hlabel
  | extendedFrame id element =>
    simp only [masterLabel, h.acceptExtended] at hlabel
    cases hlabel
  | busStep | busOff | raise flags | handler =>
    cases hlabel
    trivial

theorem Quiet.oneFlagged {s : Node} (h : Quiet s) (e : NodeEvent) : OneFlagged s e := by
  cases e with
  | handler =>
    intro _ j k hj hk hfj hfk
    rw [h.others j hj hfj, h.others k hk hfk]
  | _ => trivial

theorem ReceptionInv.step {p p' : Master × List Offer} {e : MasterEvent} (h : ReceptionInv p)
    (hs : observedMaster.step p e = some p') : ReceptionInv p' := by
  obtain ⟨hs, hoffers⟩ := Machine.withHistory_step.mp hs
  have hmove := masterStep_move h.blind hs
  obtain ⟨hquiet, hvisible⟩ := hmove.view
  have hnode : BufferInv p'.1.node.unfiltered ∧ Quiet p'.1.node.unfiltered := by
    have hb := BufferInv.unfiltered.mpr h.buffers
    have hq := Quiet.unfiltered.mpr h.quiet
    cases hl : masterLabel p.1 e with
    | none =>
      rw [hquiet hl]
      exact ⟨hb, hq⟩
    | some ev =>
      have hstep := (Machine.only_step.mp (hvisible ev hl)).2
      exact ⟨hb.step (hq.oneFlagged ev) hstep,
        hq.step hb.hw (h.listening.storesResponse hl) hstep⟩
  refine ⟨hmove.blind h.blind, ?_, BufferInv.unfiltered.mp hnode.1, Quiet.unfiltered.mp hnode.2⟩
  rw [hoffers, List.any_append]
  have hany : (offerOf p.1 e).toList.any Offer.asksSs1 = (offerOf p.1 e).any Offer.asksSs1 := by
    cases offerOf p.1 e <;> simp
  rw [hany]
  exact hmove.listening h.listening

/-- The filter lists before the first call. -/
structure NoFilters (s : Node) : Prop where
  standard : ∀ i, s.mcan.standardFilter i = 0#32
  extended : ∀ i, s.mcan.extendedFilter i = (0#32, 0#32)

theorem listening_boot {s : Node} (h : PowerOn s) (hf : NoFilters s) : Listening false (boot s) := by
  obtain ⟨_, _, _, _, hm⟩ := boot_mcan h
  refine ⟨0, ⟨rfl, by rw [hm], by rw [hm], by rw [hm], by rw [hm], ?_, ?_⟩, by simp⟩
  · intro i id
    rw [hm]
    simp only [hf.standard i, standardAnswer_zero]
    rfl
  · intro i id
    rw [hm]
    simp only [hf.extended i, extendedAnswer_zero]
    rfl

theorem quiet_boot {s : Node} (h : PowerOn s) : Quiet (boot s) := by
  obtain ⟨_, _, _, _, hm⟩ := boot_mcan h
  have htrace : (boot s).trace = [] := h.trace
  have hir : (boot s).mcan.ir = 0#32 := by rw [hm]
  refine ⟨?_, fun k _ hflag => ?_, ?_, ?_⟩
  · rw [htrace]
    nofun
  · rw [show flagged (boot s) k = false by simp [flagged, hm, mcanRxGetBufferStatus]] at hflag
    cases hflag
  · rw [hir]
    decide
  · rw [hir]
    decide

theorem receptionInv_start {s : Node} (h : PowerOn s) (hf : NoFilters s) :
    ReceptionInv (systemInit s, []) where
  blind := blind_telemetryZero
  listening := listening_boot h hf
  buffers := bufferInv_boot h
  quiet := quiet_boot h

theorem reception_run {s : Node} (h : PowerOn s) (hf : NoFilters s) (es : List MasterEvent) :
    observedMaster.Always ReceptionInv (systemInit s, []) es :=
  Machine.always_of_invariant (fun _ _ _ hi hs => ReceptionInv.step hi hs) (receptionInv_start h hf)

/-- A frame is accepted exactly if it answers subsystem 1 and a query of it was accepted before. -/
structure Accepts (p : Master × List Offer) : Prop where
  standard : ∀ id, p.1.node.mcan.acceptStandard id =
    if p.2.any Offer.asksSs1 = true ∧ id = 0x47A#11 then some (.buffer 2) else none
  extended : ∀ id, p.1.node.mcan.acceptExtended id = none

/-- **What is let in.** In every run the controller accepts one identifier, and that one only from the
first accepted query to subsystem 1 on; a bus-off and a refused query change nothing. -/
theorem console_accepts {s : Node} (h : PowerOn s) (hf : NoFilters s) (es : List MasterEvent) :
    observedMaster.Always Accepts (systemInit s, []) es :=
  Machine.always_mono
    (fun _ hi => ⟨hi.listening.acceptStandard, hi.listening.acceptExtended⟩)
    (reception_run h hf es)

/-- What was received is all in Rx buffer 2, and the handler delivers it. -/
structure Delivers (m : Master) : Prop where
  reported : ∀ o ∈ m.node.trace, o.AboutResponse
  delivered : BuffersDelivered m.node

/-- **What becomes of it.** In every run, whatever frames pass on the bus and however late the handler
runs, no frame reaches an Rx FIFO or another Rx buffer, and none is stranded, reported twice or lost
but for one that a newer response replaced. -/
theorem console_delivers {s : Node} (h : PowerOn s) (hf : NoFilters s) (es : List MasterEvent) :
    masterMachine.Always Delivers (systemInit s) es :=
  Machine.always_withHistory.mp
    (Machine.always_mono (fun _ hi => ⟨hi.quiet.reported, hi.buffers.delivered⟩)
      (reception_run h hf es))

theorem noFilters_reset : NoFilters reset := ⟨fun _ => rfl, fun _ => rfl⟩

/-- A foreign frame, a query, its response and a bus-off. -/
def responseEvents : List MasterEvent :=
  [.standardFrame 0x47A#11 blankRxElement, .key '4' blankTxElement, .busStep,
   .standardFrame 0x47A#11 blankRxElement, .extendedFrame 0x47A#29 blankRxElement, .handler,
   .busOff, .handler, .key '4' blankTxElement]

theorem console_accepts_response :
    observedMaster.Always Accepts (systemInit reset, []) responseEvents :=
  console_accepts powerOn_reset noFilters_reset _

theorem console_delivers_response :
    masterMachine.Always Delivers (systemInit reset) responseEvents :=
  console_delivers powerOn_reset noFilters_reset _

end CanNet

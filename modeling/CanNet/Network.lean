import CanNet.ConsoleTraffic
import CanNet.Link
import CanNet.Mega

/-!
# CanNet.Network

The three programs on one bus.

Only the master ever sends: the sketch of subsystem 1 calls none of its send functions, and that of
subsystem 2 has none. A bus step takes the waiting frame out of the master's Tx buffer and offers it
to both subsystems, each of which finds it in its next pass of `loop`. The slaves' results are about
arbitrary frames, the master's about arbitrary calls; here they meet.
-/

namespace CanNet

open Bits
open Slave (passesMask)

structure Network where
  master : Master
  ss1 : Mega
  ss2 : Slave

/-- The frame that the next bus step sends. -/
def Node.busFrame (s : Node) : TxFrame := (s.mcan.txBuffer 0).frame

/-- No frame comes from outside. -/
def networkStep (n : Network) : MasterEvent → Option Network
  | .standardFrame _ _ | .extendedFrame _ _ => none
  | .busStep =>
    match masterStep n.master .busStep, n.master.node.busFrame.toStdFrame with
    | some master, some f =>
      match n.ss1.step f with
      | none => none
      | some ss1 => some { master := master, ss1 := ss1, ss2 := n.ss2.step f }
    | _, _ => none
  | e =>
    match masterStep n.master e with
    | none => none
    | some master => some { n with master := master }

def networkMachine : Machine Network MasterEvent where
  step := networkStep

/-- After the three set-ups. -/
def networkStart (s : Node) (ss1 : Mega) (ss2 : Slave) : Network where
  master := systemInit s
  ss1 := ss1.setup
  ss2 := ss2.setup

/-- The frames that have been on the bus. -/
def Network.frames (n : Network) : List StdFrame :=
  (sentFrames n.master.node.trace).filterMap TxFrame.toStdFrame

/-! ## One step -/

theorem sentFrames_step {s s' : Node} {e : NodeEvent} (he : e ≠ .busStep)
    (hs : nodeMachine.step s e = some s') : sentFrames s'.trace = sentFrames s.trace := by
  cases e with
  | txMessage idValue length data txElement =>
    obtain ⟨e, _, hcase⟩ := txMessage_step hs
    rcases hcase with ⟨_, rfl⟩ | ⟨_, _, rfl⟩ | ⟨_, _, rfl⟩ <;> simp [sentFrames]
  | busStep => exact absurd rfl he
  | handler =>
    cases hs
    rw [← takes_txLog, ← takes_txLog, txLog_handler]
  | _ =>
    cases hs
    simp [sentFrames]

theorem callOf_ne_busStep {cmdId : Byte} {stack : McanTxElement} :
    callOf cmdId stack ≠ some .busStep := by
  intro h
  unfold callOf at h
  split at h <;> cases h

/-- Nothing but a bus step is one to the node machine. -/
theorem label_ne_busStep {m : Master} {e : MasterEvent} (he : e ≠ .busStep) :
    masterLabel m e ≠ some .busStep := by
  intro hl
  cases e with
  | key key stack =>
    simp only [masterLabel] at hl
    split at hl
    · cases hl
    · exact callOf_ne_busStep hl
  | download stack =>
    simp only [masterLabel] at hl
    split at hl
    · exact callOf_ne_busStep hl
    · cases hl
  | standardFrame id element | extendedFrame id element =>
    simp only [masterLabel, receivedEvent] at hl
    split at hl
    · cases hl
    · split at hl <;> cases hl
    · cases hl
    · cases hl
  | busStep => exact he rfl
  | busOff | raise flags | handler => cases hl

theorem MasterMove.sent {m m' : Master} {e : MasterEvent} (h : MasterMove m e m')
    (he : e ≠ .busStep) : sentFrames m'.node.trace = sentFrames m.node.trace := by
  obtain ⟨hquiet, hvisible⟩ := h.view
  have hview : sentFrames m'.node.unfiltered.trace = sentFrames m.node.unfiltered.trace := by
    cases hl : masterLabel m e with
    | none => rw [hquiet hl]
    | some ev =>
      have hev : ev ≠ .busStep := fun hev => label_ne_busStep he (hev ▸ hl)
      exact sentFrames_step hev (Machine.only_step.mp (hvisible ev hl)).2
  exact hview

theorem master_busStep {m m' : Master} (hs : masterStep m .busStep = some m') :
    sentFrames m'.node.trace = sentFrames m.node.trace ++ [m.node.busFrame] := by
  simp only [masterStep] at hs
  split at hs
  · cases hs
  · obtain ⟨s', hnode, rfl⟩ := Master.onNode_some hs
    obtain ⟨_, rfl⟩ := busStep_step hnode
    simp [sentFrames, Node.busFrame]

/-- Everything a step of the network can be: the master alone, or one frame. -/
inductive NetworkMove (n : Network) (e : MasterEvent) : Network → Prop
  | alone (master : Master) (he : e ≠ .busStep) (hs : masterMachine.step n.master e = some master) :
      NetworkMove n e { n with master := master }
  | frame (master : Master) (f : StdFrame) (ss1 : Mega) (he : e = .busStep)
      (hs : masterMachine.step n.master .busStep = some master)
      (hf : n.master.node.busFrame.toStdFrame = some f) (hss1 : n.ss1.step f = some ss1) :
      NetworkMove n e { master := master, ss1 := ss1, ss2 := n.ss2.step f }

theorem networkStep_move {n n' : Network} {e : MasterEvent}
    (hs : networkMachine.step n e = some n') : NetworkMove n e n' := by
  have hother : e ≠ .busStep → (match masterStep n.master e with
      | none => none
      | some master => some { n with master := master }) = some n' → NetworkMove n e n' := by
    intro he hs
    split at hs
    · cases hs
    · rename_i master hm
      cases hs
      exact .alone master he hm
  cases e with
  | standardFrame id element | extendedFrame id element => cases hs
  | busStep =>
    simp only [networkMachine, networkStep] at hs
    split at hs
    · rename_i master f hm hf
      split at hs
      · cases hs
      · rename_i ss1 hss1
        cases hs
        exact .frame master f ss1 rfl hm hf hss1
    · cases hs
  | key key stack => exact hother nofun hs
  | download stack => exact hother nofun hs
  | busOff => exact hother nofun hs
  | raise flags => exact hother nofun hs
  | handler => exact hother nofun hs

theorem NetworkMove.master {n n' : Network} {e : MasterEvent} (h : NetworkMove n e n') :
    masterMachine.step n.master e = some n'.master := by
  cases h with
  | alone master _ hs => exact hs
  | frame master f ss1 he hs _ _ => exact he ▸ hs

theorem NetworkMove.frames {n n' : Network} {e : MasterEvent} (h : NetworkMove n e n')
    (hb : Blind n.master.telemetry) :
    n'.frames = n.frames ∧ n'.ss1 = n.ss1 ∧ n'.ss2 = n.ss2 ∨
      ∃ f, n.master.node.busFrame.toStdFrame = some f ∧ n'.frames = n.frames ++ [f] ∧
        n.ss1.step f = some n'.ss1 ∧ n'.ss2 = n.ss2.step f ∧
        n.master.node.busFrame ∈ sentFrames n'.master.node.trace := by
  cases h with
  | alone master he hs =>
    refine .inl ⟨?_, rfl, rfl⟩
    rw [Network.frames, Network.frames, (masterStep_move hb hs).sent he]
  | frame master f ss1 _ hs hf hss1 =>
    have hsent := master_busStep hs
    refine .inr ⟨f, hf, ?_, hss1, rfl, ?_⟩
    · rw [Network.frames, Network.frames, hsent, List.filterMap_append]
      simp [hf]
    · rw [hsent]
      simp

/-! ## The slaves follow -/

/-- What a command frame is to both subsystems. -/
theorem frameOf_toStdFrame {cmdId : Byte} {f : TxFrame} (h : frameOf cmdId = some f) :
    ∃ canId cmd, sentBy cmdId = some (canId, cmd) ∧ f.toStdFrame = some (commandFrame canId cmd) := by
  obtain ⟨⟨canId, cmd⟩, hsent, rfl⟩ := Option.map_eq_some_iff.mp h
  exact ⟨canId, cmd, hsent, callFrame_toStdFrame canId cmd⟩

theorem sentBy_canId {cmdId : Byte} {canId : Word} {cmd : Byte}
    (h : sentBy cmdId = some (canId, cmd)) : canId = ss1CanId ∨ canId = ss2CanId := by
  rcases cmdId_cases cmdId with rfl | rfl | rfl | rfl | rfl | rfl | rfl | rfl | rfl | hbig
  case inr.inr.inr.inr.inr.inr.inr.inr.inr =>
    rw [sentBy_outside hbig] at h
    cases h
  all_goals
    cases h
    try decide

/-- A command frame is never mistaken by subsystem 2. -/
theorem harmless_commandFrame (p : Slave × List StdFrame) {canId : Word} (cmd : Byte)
    (h : canId = ss1CanId ∨ canId = ss2CanId) : Slave.Harmless p (commandFrame canId cmd) := by
  intro hpass hnone
  rcases h with rfl | rfl
  · have hreject : passesMask (commandFrame ss1CanId cmd).id = false := by
      show passesMask (ss1CanId.setWidth 11) = false
      decide
    rw [hreject] at hpass
    cases hpass
  · cases hnone

/-- The log of subsystem 1 and the LED of subsystem 2 against the frames on the bus. -/
structure NetworkInv (before : List Byte) (p : Network × List Offer) : Prop where
  traffic : TrafficInv (p.1.master, p.2)
  ss1 : Mega.Ready p.1.ss1
  serial : p.1.ss1.serial = before ++ lineCodec.writeAll (p.1.frames.map StdFrame.entry)
  ss2 : Slave.Ready p.1.ss2
  led : p.1.ss2.pin6 = Slave.commanded p.1.frames

/-- The network with the offers its master has made. -/
def observedNetwork : Machine (Network × List Offer) MasterEvent :=
  networkMachine.withHistory fun offers n e => offers ++ (offerOf n.master e).toList

theorem NetworkInv.step {before : List Byte} {p p' : Network × List Offer} {e : MasterEvent}
    (h : NetworkInv before p) (hs : observedNetwork.step p e = some p') : NetworkInv before p' := by
  obtain ⟨hs, hoffers⟩ := Machine.withHistory_step.mp hs
  have hmove := networkStep_move hs
  have htraffic : TrafficInv (p'.1.master, p'.2) :=
    h.traffic.step (p := (p.1.master, p.2)) (Machine.withHistory_step.mpr ⟨hmove.master, hoffers⟩)
  rcases hmove.frames h.traffic.blind with ⟨hframes, h1, h2⟩ | ⟨f, hf, hframes, hss1, hss2, hmem⟩
  · refine ⟨htraffic, h1 ▸ h.ss1, ?_, h2 ▸ h.ss2, ?_⟩
    · rw [h1, hframes]
      exact h.serial
    · rw [h2, hframes]
      exact h.led
  · obtain ⟨ss1', hstep, hready, hlog⟩ := Mega.step_ready h.ss1 f
    rw [hss1] at hstep
    cases hstep
    obtain ⟨cmdId, hcmd⟩ := htraffic.traffic.commands _ hmem
    obtain ⟨canId, cmd, hsent, hstd⟩ := frameOf_toStdFrame hcmd
    rw [hf] at hstd
    cases hstd
    have hled : Slave.Obeys (p.1.ss2.step (commandFrame canId cmd),
        p.1.frames ++ [commandFrame canId cmd]) :=
      (Slave.obeys_step_iff (p := (p.1.ss2, p.1.frames)) h.ss2 h.led rfl).mpr
        (harmless_commandFrame _ cmd (sentBy_canId hsent))
    refine ⟨htraffic, hready, ?_, hss2 ▸ h.ss2.step _, ?_⟩
    · rw [hlog, h.serial, hframes, List.map_append, Codec.writeAll_append, List.append_assoc]
      exact congrArg _ (congrArg _ (List.append_nil _).symm)
    · rw [hss2, hframes]
      exact hled

theorem networkInv_start {s : Node} {ss1 : Mega} (h : PowerOn s) (h1 : ss1.mcp2515.Open)
    (ss2 : Slave) : NetworkInv ss1.serial (networkStart s ss1 ss2, []) := by
  have htrace : (boot s).trace = [] := h.trace
  have hframes : (networkStart s ss1 ss2).frames = [] :=
    congrArg (fun t => (sentFrames t).filterMap TxFrame.toStdFrame) htrace
  refine ⟨trafficInv_start h, Mega.ready_setup h1, ?_, Slave.ready_setup ss2, ?_⟩
  · rw [hframes]
    exact (List.append_nil _).symm
  · rw [hframes]
    exact Slave.setup_pin6 ss2

theorem network_run {s : Node} {ss1 : Mega} (h : PowerOn s) (h1 : ss1.mcp2515.Open) (ss2 : Slave)
    (es : List MasterEvent) :
    observedNetwork.Always (NetworkInv ss1.serial) (networkStart s ss1 ss2, []) es :=
  Machine.always_of_invariant (fun _ _ _ hi hs => NetworkInv.step hi hs) (networkInv_start h h1 ss2)

/-- On the bus, no bus-off pending, and no download running. -/
structure OnLine (m : Master) : Prop where
  idle : m.download = none
  init : m.node.mcan.initBit = false
  cce : m.node.mcan.cceBit = false
  busOff : has m.node.mcan.ir mcanBusOff = false

/-- Neither a command nor a download, nor a step of the bus. -/
def Idle : MasterEvent → Prop
  | .key key _ => keyCommand key = none ∧ key ≠ '0'
  | .raise _ | .handler => True
  | _ => False

/-- The frame `f` waits for the bus. -/
structure Waiting (f : TxFrame) (m : Master) : Prop extends OnLine m where
  blind : Blind m.telemetry
  pending : m.node.mcan.txPending = true
  frame : m.node.busFrame = f

theorem Waiting.of_node {f : TxFrame} {m : Master} (h : Waiting f m) {s : Node}
    (hs : TxSame m.node s) (hoff : has s.mcan.ir mcanBusOff = false) :
    Waiting f { m with node := s } where
  idle := h.idle
  init := by rw [Mcan.initBit, hs.cccr]; exact h.init
  cce := by rw [Mcan.cceBit, hs.cccr]; exact h.cce
  busOff := hoff
  blind := h.blind
  pending := by rw [Mcan.txPending, hs.txbrp]; exact h.pending
  frame := by rw [Node.busFrame, hs.txBuffer]; exact h.frame

/-- A key that sends nothing and starts no download only prints. -/
theorem Master.pressKey_quiet {key : Char} {stack : McanTxElement} {m m' : Master}
    (hcmd : keyCommand key = none) (h0 : key ≠ '0') (hs : m.pressKey key stack = some m') :
    m'.node = m.node ∧ m'.download = m.download ∧ m'.telemetry = m.telemetry := by
  unfold Master.pressKey at hs
  split at hs
  case h_2 => exact absurd rfl h0
  case h_1 | h_3 | h_12 | h_13 =>
    cases hs
    exact ⟨rfl, rfl, rfl⟩
  all_goals cases hcmd

/-- An idle step is always possible, and the frame goes on waiting. -/
theorem Waiting.step {f : TxFrame} {m : Master} {e : MasterEvent} (h : Waiting f m) (he : Idle e) :
    ∃ m', masterMachine.step m e = some m' ∧ Waiting f m' := by
  cases e with
  | key key stack =>
    obtain ⟨m', hpress, _⟩ := Master.pressKey_pressed key stack m
    obtain ⟨hnode, hdownload, htelemetry⟩ := Master.pressKey_quiet he.1 he.2 hpress
    refine ⟨m', ?_, ⟨⟨hdownload.trans h.idle, ?_, ?_, ?_⟩, ?_, ?_, ?_⟩⟩
    · have hfree : m.download.isSome = false := by rw [h.idle]; rfl
      simp only [masterMachine, masterStep, hfree, hpress]
      rfl
    · rw [hnode]; exact h.init
    · rw [hnode]; exact h.cce
    · rw [hnode]; exact h.busOff
    · rw [htelemetry]; exact h.blind
    · rw [hnode]; exact h.pending
    · rw [hnode]; exact h.frame
  | raise flags =>
    refine ⟨_, rfl, h.of_node ⟨rfl, rfl, rfl, rfl, rfl, rfl⟩ ?_⟩
    exact (has_or_otherFlags (by decide)).trans h.busOff
  | handler =>
    refine ⟨_, rfl, h.of_node (txSame_handler h.busOff) ?_⟩
    exact handler_flag m.node (.inr (.inr (.inr rfl)))
  | _ => exact absurd he id

theorem networkStep_alone {n : Network} {e : MasterEvent} {m : Master} (he : Idle e)
    (hs : masterMachine.step n.master e = some m) :
    networkMachine.step n e = some { n with master := m } := by
  have hm : masterStep n.master e = some m := hs
  cases e with
  | key key stack | raise flags | handler => simp only [networkMachine, networkStep, hm]
  | _ => exact absurd he id

theorem Idle.ne_busStep {e : MasterEvent} (h : Idle e) : e ≠ .busStep := by
  rintro rfl
  exact h

theorem Waiting.run {f : TxFrame} (es : List MasterEvent) : ∀ {n : Network}, Waiting f n.master →
    (∀ e ∈ es, Idle e) →
    ∃ m', networkMachine.run n es = some { n with master := m' } ∧ Waiting f m' ∧
      sentFrames m'.node.trace = sentFrames n.master.node.trace := by
  induction es with
  | nil =>
    intro n h _
    exact ⟨n.master, rfl, h, rfl⟩
  | cons e es ih =>
    intro n h hidle
    have he := hidle e List.mem_cons_self
    obtain ⟨m1, hstep, h1⟩ := h.step he
    obtain ⟨m', hrun, h', hsent⟩ := ih (n := { n with master := m1 }) h1 fun e' he' =>
      hidle e' (List.mem_cons_of_mem _ he')
    refine ⟨m', ?_, h', hsent.trans ((masterStep_move h.blind hstep).sent he.ne_busStep)⟩
    rw [Machine.run_cons_some (networkStep_alone he hstep)]
    exact hrun

/-- A command key on line puts its frame up for transmission. -/
theorem OnLine.press {m : Master} (h : OnLine m) (hb : Blind m.telemetry)
    (hw : m.node.hw = .mcan1) {key : Char} {cmdId : Byte} (hkey : keyCommand key = some cmdId)
    (stack : McanTxElement) :
    ∃ m' canId cmd, masterMachine.step m (.key key stack) = some m' ∧
      sentBy cmdId = some (canId, cmd) ∧ Waiting (callFrame canId 4#8 (canMessage cmd 0#32)) m' := by
  obtain ⟨m', hpress, hpressed⟩ := Master.pressKey_pressed key stack m
  have hfree : m.download.isSome = false := by rw [h.idle]; rfl
  have hstep : masterMachine.step m (.key key stack) = some m' := by
    simp only [masterMachine, masterStep, hfree, hpress]
    rfl
  cases hpressed with
  | printed texts download hcmd _ _ =>
    rw [hkey] at hcmd
    cases hcmd
  | executed cmdId' text status s' hcmd _ _ hsends =>
    rw [hkey] at hcmd
    cases hcmd
    obtain ⟨ev, u, hcall, hnode, hview⟩ := hsends.nodeStep
    obtain ⟨⟨canId, cmd⟩, hsent⟩ := Option.isSome_iff_exists.mp (keyCommand_sends hkey)
    simp only [callOf, hsent, Option.some.injEq] at hcall
    subst hcall
    refine ⟨_, canId, cmd, hstep, hsent, ?_⟩
    obtain ⟨e, he, hcase⟩ := txMessage_step hnode
    rcases hcase with ⟨hn, _⟩ | ⟨_, hc, _⟩ | ⟨_, _, rfl⟩
    · rw [hw] at hn
      cases hn
    · rw [h.cce] at hc
      cases hc
    · have hcccr : (recordRequest m.node s').mcan.cccr = m.node.mcan.cccr := by
        have hview := congrArg (fun t : Node => t.mcan.cccr) hview
        exact hview
      have hir : (recordRequest m.node s').mcan.ir = m.node.mcan.ir := by
        have hview := congrArg (fun t : Node => t.mcan.ir) hview
        exact hview
      have htxbrp : (recordRequest m.node s').mcan.txbrp = m.node.mcan.txbrp ||| 1#32 := by
        have hview := congrArg (fun t : Node => t.mcan.txbrp) hview
        exact hview
      have hbuffer : (recordRequest m.node s').mcan.txBuffer 0 = e := by
        have hview := congrArg (fun t : Node => t.mcan.txBuffer 0) hview
        have hupdate : Function.update m.node.mcan.txBuffer 0 e 0 = e := Function.update_self ..
        exact hview.trans hupdate
      refine ⟨⟨h.idle, ?_, ?_, ?_⟩, hb, ?_, ?_⟩
      · rw [Mcan.initBit, hcccr]
        exact h.init
      · rw [Mcan.cceBit, hcccr]
        exact h.cce
      · rw [hir]
        exact h.busOff
      · rw [Mcan.txPending, htxbrp]
        simp
      · rw [Node.busFrame, hbuffer, he]

/-- The bus step that takes a waiting frame. -/
theorem Waiting.busStep {f : TxFrame} {m : Master} (h : Waiting f m) :
    ∃ m', masterStep m .busStep = some m' := by
  simp only [masterStep, h.init, Master.onNode, nodeMachine, nodeStep, Mcan.transmit, h.pending]
  exact ⟨_, rfl⟩

/-- **A command gets through.** In every reachable state in which the master is on line, a command key
is carried to both subsystems by the next bus step, whatever keys that only print, interrupts and
handler runs come in between: subsystem 1 prints it, and subsystem 2 obeys it if it is an LED command
to it. -/
theorem network_command_arrives {s : Node} {ss1 : Mega} (h : PowerOn s) (h1 : ss1.mcp2515.Open)
    {ss2 : Slave} {pre : List MasterEvent} {n : Network}
    (hrun : networkMachine.run (networkStart s ss1 ss2) pre = some n) (honline : OnLine n.master)
    {key : Char} {cmdId : Byte} (hkey : keyCommand key = some cmdId) (stack : McanTxElement)
    {es : List MasterEvent} (hidle : ∀ e ∈ es, Idle e) :
    ∃ n' canId cmd, networkMachine.run n (.key key stack :: (es ++ [.busStep])) = some n' ∧
      sentBy cmdId = some (canId, cmd) ∧ n'.frames = n.frames ++ [commandFrame canId cmd] ∧
      n'.ss1.serial = n.ss1.serial ++ lineCodec.write (commandFrame canId cmd).entry ∧
      n'.ss2.pin6 = if cmdId = 5#8 then .high else if cmdId = 6#8 then .low else n.ss2.pin6 := by
  have halways := network_run h h1 ss2 pre
  have hinv : TxMail n.master.node ∧ Blind n.master.telemetry ∧ Mega.Ready n.ss1 ∧
      Slave.Ready n.ss2 := by
    have hproj : networkMachine.Always (fun n => TxMail n.master.node ∧ Blind n.master.telemetry ∧
        Mega.Ready n.ss1 ∧ Slave.Ready n.ss2) (networkStart s ss1 ss2) pre :=
      Machine.always_withHistory.mp (Machine.always_mono
        (fun _ hi => ⟨hi.traffic.mail.of_unfiltered, hi.traffic.blind, hi.ss1, hi.ss2⟩) halways)
    exact Machine.always_iff_prefix.mp hproj pre (List.prefix_refl pre) n hrun
  obtain ⟨hmail, hblind, hss1, hss2⟩ := hinv
  have hw : n.master.node.hw = .mcan1 := by cases hmail <;> assumption
  obtain ⟨m1, canId, cmd, hpress, hsent, hwait⟩ := honline.press hblind hw hkey stack
  have hkeyStep : networkMachine.step n (.key key stack) = some { n with master := m1 } := by
    have hm : masterStep n.master (.key key stack) = some m1 := hpress
    simp only [networkMachine, networkStep, hm]
  have hsent1 : sentFrames m1.node.trace = sentFrames n.master.node.trace :=
    (masterStep_move hblind hpress).sent nofun
  obtain ⟨m2, hrun2, hwait2, hsent2⟩ := hwait.run es (n := { n with master := m1 }) hidle
  obtain ⟨m3, hbus⟩ := hwait2.busStep
  have hstd : m2.node.busFrame.toStdFrame = some (commandFrame canId cmd) := by
    rw [hwait2.frame]
    exact callFrame_toStdFrame canId cmd
  obtain ⟨ss1', hstep1, _, hlog⟩ := Mega.step_ready hss1 (commandFrame canId cmd)
  have hbusStep : networkMachine.step { n with master := m2 } .busStep = some
      { master := m3, ss1 := ss1', ss2 := n.ss2.step (commandFrame canId cmd) } := by
    simp only [networkMachine, networkStep, hbus, hstd, hstep1]
  refine ⟨{ master := m3, ss1 := ss1', ss2 := n.ss2.step (commandFrame canId cmd) }, canId, cmd, ?_,
    hsent, ?_, hlog, step_commandFrame hss2 hsent⟩
  · rw [Machine.run_cons_some hkeyStep, Machine.run_append, hrun2, Option.bind_some,
      Machine.run_cons_some hbusStep]
    rfl
  · rw [Network.frames, Network.frames, master_busStep hbus, hsent2, hsent1,
      List.filterMap_append]
    simp [hstd]

/-- A key that prints, an error interrupt and its handler run between the LED key and the bus. -/
theorem network_command_arrives_led :
    ∃ n n', networkMachine.run (networkStart reset Mega.reset Slave.reset) [] = some n ∧
      networkMachine.run n (.key '6' blankTxElement ::
        ([.key 'a' blankTxElement, .raise mcanFormatError, .handler] ++ [.busStep])) = some n' ∧
      n'.ss2.pin6 = .high := by
  have honline : OnLine (networkStart reset Mega.reset Slave.reset).master :=
    ⟨rfl, by decide, by decide, by decide⟩
  have hidle : ∀ e ∈ [MasterEvent.key 'a' blankTxElement, .raise mcanFormatError, .handler],
      Idle e := by
    simp [Idle, keyCommand]
  have hkey : keyCommand '6' = some 0x05#8 := rfl
  obtain ⟨n', _, _, hrun, _, _, _, hled⟩ := network_command_arrives powerOn_reset
    Mega.open_reset (Machine.run_nil (networkStart reset Mega.reset Slave.reset)) honline hkey
    blankTxElement hidle
  exact ⟨_, n', rfl, hrun, hled⟩

end CanNet

import CanNet.Acceptance
import CanNet.Lib.Simulation
import CanNet.Overlay
import CanNet.Telemetry
import CanNet.TxMailbox

/-!
# CanNet.Console

`main.c`: start-up and the key loop, and the program around it as one machine.

An event is a key, the next statement of a running `telemetry_get`, a frame that another node puts on
the bus, a step of the hardware, or a run of the interrupt handler. `consoleSimulation` says that the
machine is the node machine of `CanNet.Node` once the acceptance filters are forgotten, so what holds
there along every run holds here.
-/

namespace CanNet

open Bits

/-! ## `main.c` -/

structure Master where
  node : Node
  counters : CmdCounters
  telemetry : Telemetry
  /-- The queries that a running `telemetry_get` has still to make. -/
  download : Option (List TelemetryQuery)
  console : List String

/-- What `display_commands_menu` prints. -/
def commandsMenu : String :=
  "Menu :\r\n  -- Select the command:\r\n" ++
    "  0: Download telemetry. \r\n" ++
    "  1: Get CPU temperature. \r\n" ++
    "  2: System 1: turn ON actuator (LED). \r\n" ++
    "  3: System 1: turn OFF actuator (LED). \r\n" ++
    "  4: System 1: get actuator status (LED). \r\n" ++
    "  5: System 1: get temperature read. \r\n" ++
    "  6: System 2: turn ON actuator (LED). \r\n" ++
    "  7: System 2: turn OFF actuator (LED). \r\n" ++
    "  8: System 2: get actuator status (LED). \r\n" ++
    "  9: System 2: get temperature read. \r\n" ++
    "  a: Get commands counters values. \r\n" ++
    "  h: Display menu \r\n\r\n"

/-- `system_init`, without the clocks, the board and the serial port. -/
def systemInit (s : Node) : Master where
  node := canStart (canInit s)
  counters := cmdInit
  telemetry := telemetryZero
  download := none
  console := [commandsMenu]

/-- The node after a call that may have put a frame up for transmission, with the frame noted as
accepted. -/
def recordRequest (s s' : Node) : Node :=
  match requestedFrame s s' with
  | none => s'
  | some f => s'.emit (.accepted f)

namespace Master

def print (text : String) (m : Master) : Master := { m with console := m.console ++ [text] }

def execute (cmdId : Byte) (cmdPayload : Word) (stack : McanTxElement) (m : Master) :
    Option Master :=
  match commandsModuleExecute stack cmdId cmdPayload m.counters m.node with
  | none => none
  | some (_, counters, node) =>
    some { m with counters := counters, node := recordRequest m.node node }

/-- The `switch` of the main loop. -/
def pressKey (key : Char) (stack : McanTxElement) (m : Master) : Option Master :=
  match key with
  | 'h' => some (m.print commandsMenu)
  | '0' => some { m.print " 0: Download telemetry. \r\n" with download := some telemetryQueries }
  | '1' => some (m.print " 1: Get CPU temperature. \r\n")
  | '2' => (m.print " 2: System 1: turn ON actuator (LED). \r\n").execute 0x01#8 0x123456#32 stack
  | '3' => (m.print " 3: System 1: turn OFF actuator (LED). \r\n").execute 0x02#8 0x123456#32 stack
  | '4' => (m.print " 4: System 1: get actuator status (LED). \r\n").execute 0x03#8 0x123456#32 stack
  | '5' => (m.print " 5: System 1: get temperature read. \r\n").execute 0x04#8 0x123456#32 stack
  | '6' => (m.print " 6: System 2: turn ON actuator (LED). \r\n").execute 0x05#8 0x123456#32 stack
  | '7' => (m.print " 7: System 2: turn OFF actuator (LED). \r\n").execute 0x06#8 0x123456#32 stack
  | '8' => (m.print " 8: System 2: get actuator status (LED). \r\n").execute 0x07#8 0x123456#32 stack
  | '9' => (m.print " 9: System 2: get temperature read. \r\n").execute 0x08#8 0x123456#32 stack
  | 'a' => some (((m.print "Commands counters\r\n").print
      (" Executed commands: " ++ formatU (cmdGetExecutedCount m.counters) ++ " \n\r")).print
      (" Aborted commands: " ++ formatU (cmdGetAbortedCount m.counters) ++ " \n\r"))
  | _ => some m

/-- The next statement of `telemetry_get`. -/
def downloadStep (stack : McanTxElement) (m : Master) : Option Master :=
  match m.download with
  | none => none
  | some (q :: rest) =>
    match q.run stack m.telemetry m.node with
    | none => none
    | some (telemetry, node) =>
      some { m with node := recordRequest m.node node, telemetry := telemetry
                    download := some rest }
  | some [] =>
    let telemetry := telemetryCommands m.counters m.telemetry
    some { m with telemetry := telemetry, download := none
                  console := m.console ++ telemetryReport telemetry }

def onNode (e : NodeEvent) (m : Master) : Option Master :=
  match nodeMachine.step m.node e with
  | none => none
  | some node => some { m with node := node }

end Master

/-! ## The program and its hardware -/

/-- What the peripheral does with a frame that it routes to `dest`. -/
def receivedEvent (dest : Option RxDest) (e : McanRxElement) : Option NodeEvent :=
  match dest with
  | none => none
  | some (.buffer k) => if h : k < confMcan1RxBufferNum then some (.rxBuffer ⟨k, h⟩ e) else none
  | some .fifo0 => some (.rxFifo0 e)
  | some .fifo1 => some (.rxFifo1 e)

/-- `standardFrame` and `extendedFrame` are frames of other nodes, with the element that the
peripheral would store. -/
inductive MasterEvent where
  | key (key : Char) (stack : McanTxElement)
  | download (stack : McanTxElement)
  | standardFrame (id : BitVec 11) (e : McanRxElement)
  | extendedFrame (id : BitVec 29) (e : McanRxElement)
  | busStep
  | busOff
  | raise (flags : Word)
  | handler

def Master.receive (dest : Option RxDest) (e : McanRxElement) (m : Master) : Option Master :=
  if m.node.mcan.initBit then none
  else
    match receivedEvent dest e with
    | none => some m
    | some ev => m.onNode ev

/-- No key is read while `telemetry_get` runs, and a controller with INIT set takes no part in the
traffic. -/
def masterStep (m : Master) : MasterEvent → Option Master
  | .key key stack => if m.download.isSome then none else m.pressKey key stack
  | .download stack => m.downloadStep stack
  | .standardFrame id e => m.receive (m.node.mcan.acceptStandard id) e
  | .extendedFrame id e => m.receive (m.node.mcan.acceptExtended id) e
  | .busStep => if m.node.mcan.initBit then none else m.onNode .busStep
  | .busOff => m.onNode .busOff
  | .raise flags => m.onNode (.raise flags)
  | .handler => m.onNode .handler

def masterMachine : Machine Master MasterEvent where
  step := masterStep

/-! ## What a key does -/

/-- The command of a key. -/
def keyCommand : Char → Option Byte
  | '2' => some 0x01#8
  | '3' => some 0x02#8
  | '4' => some 0x03#8
  | '5' => some 0x04#8
  | '6' => some 0x05#8
  | '7' => some 0x06#8
  | '8' => some 0x07#8
  | '9' => some 0x08#8
  | _ => none

theorem keyCommand_sends {key : Char} {cmdId : Byte} (h : keyCommand key = some cmdId) :
    (sentBy cmdId).isSome = true := by
  unfold keyCommand at h
  split at h <;> cases h <;> rfl

namespace Master

/-- Everything a key can do: print, start a download, or print and execute a command. -/
inductive Pressed (key : Char) (stack : McanTxElement) (m : Master) : Master → Prop
  | printed (texts : List String) (download : Option (List TelemetryQuery))
      (hcmd : keyCommand key = none)
      (htexts : ∀ t ∈ texts, t ≠ ledText true)
      (hdownload : download = m.download ∨ download = some telemetryQueries) :
      Pressed key stack m { m with console := m.console ++ texts, download := download }
  | executed (cmdId : Byte) (text : String) (status : StatusCode) (s' : Node)
      (hcmd : keyCommand key = some cmdId) (htext : text ≠ ledText true)
      (hrun : commandsModuleExecute stack cmdId 0x123456#32 m.counters m.node =
        some (status, cmdAccount cmdId status m.counters, s'))
      (hsends : Sends cmdId stack m.node s') :
      Pressed key stack m
        { m with console := m.console ++ [text], counters := cmdAccount cmdId status m.counters
                 node := recordRequest m.node s' }

theorem execute_pressed {key : Char} (stack : McanTxElement) (m : Master) {cmdId : Byte}
    {text : String} (hcmd : keyCommand key = some cmdId) (htext : text ≠ ledText true) :
    ∃ m', (m.print text).execute cmdId 0x123456#32 stack = some m' ∧ Pressed key stack m m' := by
  obtain ⟨status, s', hdispatch, hsends⟩ :=
    dispatch_sends stack (keyCommand_sends hcmd) 0x123456#32 m.node
  have hrun : commandsModuleExecute stack cmdId 0x123456#32 m.counters m.node =
      some (status, cmdAccount cmdId status m.counters, s') := by
    simp only [commandsModuleExecute, cmdProcess, hdispatch]
  refine ⟨_, ?_, .executed cmdId text status s' hcmd htext hrun hsends⟩
  have hrun' : commandsModuleExecute stack cmdId 0x123456#32 (m.print text).counters
      (m.print text).node = some (status, cmdAccount cmdId status m.counters, s') := hrun
  simp only [execute, hrun']
  rfl

/-- A text that begins with another letter is not the one for a lit LED. -/
theorem append_ne_led {first : String} (rest : String) {c : Char}
    (hfirst : first.toList.head? = some c) (hc : c ≠ 'O') : first ++ rest ≠ ledText true := by
  intro h
  have hhead : (first ++ rest).toList.head? = some c := by
    rw [String.toList_append, List.head?_append, hfirst]
    rfl
  rw [h] at hhead
  exact hc (Option.some.inj hhead).symm

theorem commandsMenu_ne_led : commandsMenu ≠ ledText true := by
  unfold commandsMenu
  iterate 11 rw [String.append_assoc]
  exact append_ne_led _ rfl (by decide)

theorem keyCommand_other {key : Char} (h2 : key ≠ '2') (h3 : key ≠ '3') (h4 : key ≠ '4')
    (h5 : key ≠ '5') (h6 : key ≠ '6') (h7 : key ≠ '7') (h8 : key ≠ '8') (h9 : key ≠ '9') :
    keyCommand key = none := by
  unfold keyCommand
  split <;> first | rfl | contradiction

theorem pressKey_pressed (key : Char) (stack : McanTxElement) (m : Master) :
    ∃ m', m.pressKey key stack = some m' ∧ Pressed key stack m m' := by
  unfold pressKey
  split
  · exact ⟨_, rfl, .printed [commandsMenu] m.download rfl
      (List.forall_mem_singleton.mpr commandsMenu_ne_led) (.inl rfl)⟩
  · exact ⟨_, rfl, .printed [_] (some telemetryQueries) rfl (by simp [ledText]) (.inr rfl)⟩
  · exact ⟨_, rfl, .printed [_] m.download rfl (by simp [ledText]) (.inl rfl)⟩
  · exact execute_pressed stack m rfl (by decide)
  · exact execute_pressed stack m rfl (by decide)
  · exact execute_pressed stack m rfl (by decide)
  · exact execute_pressed stack m rfl (by decide)
  · exact execute_pressed stack m rfl (by decide)
  · exact execute_pressed stack m rfl (by decide)
  · exact execute_pressed stack m rfl (by decide)
  · exact execute_pressed stack m rfl (by decide)
  · have htexts : ∀ t ∈ ["Commands counters\r\n",
        " Executed commands: " ++ formatU (cmdGetExecutedCount m.counters) ++ " \n\r",
        " Aborted commands: " ++ formatU (cmdGetAbortedCount m.counters) ++ " \n\r"],
        t ≠ ledText true := by
      simp only [List.mem_cons, List.not_mem_nil, or_false, String.append_assoc]
      rintro t (rfl | rfl | rfl)
      · decide
      · exact append_ne_led _ rfl (by decide)
      · exact append_ne_led _ rfl (by decide)
    refine ⟨_, rfl, ?_⟩
    simp only [print, List.append_assoc, List.cons_append, List.nil_append]
    exact .printed _ m.download rfl htexts (.inl rfl)
  · rename_i h2 h3 h4 h5 h6 h7 h8 h9 _
    have hnone := keyCommand_other h2 h3 h4 h5 h6 h7 h8 h9
    have hpressed : Pressed key stack m
        { m with console := m.console ++ [], download := m.download } :=
      .printed [] m.download hnone (by simp) (.inl rfl)
    rw [List.append_nil] at hpressed
    exact ⟨m, rfl, hpressed⟩

/-- Everything a statement of `telemetry_get` can do. -/
inductive Downloaded (stack : McanTxElement) (m : Master) : Master → Prop
  | queried (q : TelemetryQuery) (rest : List TelemetryQuery) (s' : Node)
      (hdownload : m.download = some (q :: rest)) (hsends : Sends q.cmdId stack m.node s') :
      Downloaded stack m { m with node := recordRequest m.node s', download := some rest }
  | reported (hdownload : m.download = some []) :
      Downloaded stack m
        { m with telemetry := telemetryCommands m.counters m.telemetry, download := none
                 console := m.console ++
                  telemetryReport (telemetryCommands m.counters m.telemetry) }

theorem downloadStep_downloaded {stack : McanTxElement} {m m' : Master} (h : Blind m.telemetry)
    (hs : m.downloadStep stack = some m') : Downloaded stack m m' := by
  unfold downloadStep at hs
  split at hs
  · cases hs
  · rename_i q rest hd
    obtain ⟨s', hrun, hsends⟩ := q.run_some stack h m.node
    rw [hrun] at hs
    cases hs
    exact .queried q rest s' hd hsends
  · rename_i hd
    cases hs
    exact .reported hd

theorem onNode_some {e : NodeEvent} {m m' : Master} (h : m.onNode e = some m') :
    ∃ s', nodeMachine.step m.node e = some s' ∧ m' = { m with node := s' } := by
  unfold onNode at h
  split at h
  · cases h
  · rename_i s' hs
    cases h
    exact ⟨s', hs, rfl⟩

end Master

/-! ## Forgetting the filters -/

/-- The peripheral without the standard filter list and the interrupt enable register, which no step
of the node machine reads. -/
def Mcan.unfiltered (m : Mcan) : Mcan := { m with ie := 0#32, standardFilter := fun _ => 0#32 }

def Node.unfiltered (s : Node) : Node := s.onMcan Mcan.unfiltered

@[simp] theorem Node.unfiltered_trace (s : Node) : s.unfiltered.trace = s.trace := rfl
@[simp] theorem Node.unfiltered_hw (s : Node) : s.unfiltered.hw = s.hw := rfl
@[simp] theorem Node.unfiltered_mcan (s : Node) : s.unfiltered.mcan = s.mcan.unfiltered := rfl

/-- What `Node.unfiltered` changes. -/
def forgotten : Overlay where
  ie _ := 0#32
  standardFilter _ _ := 0#32
  txBuffer := id

theorem mcanSetTxBufferElement_unfiltered (e : McanTxElement) (index : Nat) (s : Node) :
    mcanSetTxBufferElement e index s.unfiltered =
      Prod.map id Node.unfiltered (mcanSetTxBufferElement e index s) := by
  obtain ⟨hw, mcan, _, _, _, _, _, _⟩ := s
  cases hw <;> rfl

theorem mcanTxTransferRequest_unfiltered (trigMask : Word) (s : Node) :
    mcanTxTransferRequest trigMask s.unfiltered =
      Prod.map id Node.unfiltered (mcanTxTransferRequest trigMask s) := by
  simp only [mcanTxTransferRequest]
  rw [apply_ite (Prod.map id Node.unfiltered)]
  rfl

theorem canTxMessage_unfiltered (idValue : Word) (length : Byte) (data : List Byte)
    (txElement : McanTxElement) (s : Node) :
    canTxMessage idValue length data txElement s.unfiltered =
      (canTxMessage idValue length data txElement s).map (Prod.map id Node.unfiltered) := by
  simp only [canTxMessage]
  split
  · rfl
  · simp only [mcanSetTxBufferElement_unfiltered, Prod.map_fst, Prod.map_snd, id_eq,
      mcanTxTransferRequest_unfiltered]
    split <;> rfl

theorem nodeStep_unfiltered (s : Node) (e : NodeEvent) :
    nodeMachine.step s.unfiltered e = (nodeMachine.step s e).map Node.unfiltered := by
  cases e with
  | txMessage idValue length data txElement =>
    simp only [nodeMachine, nodeStep, canTxMessage_unfiltered]
    cases canTxMessage idValue length data txElement s with
    | none => rfl
    | some r =>
      simp only [Option.map_some, Prod.map_fst, Prod.map_snd, id_eq]
      split <;> rfl
  | busStep =>
    simp only [nodeMachine, nodeStep, Mcan.transmit]
    have hp : s.unfiltered.mcan.txPending = s.mcan.txPending := rfl
    rw [hp]
    cases s.mcan.txPending <;> rfl
  | _ => exact nodeStep_overlay forgotten s rfl

/-! ## Commands and queries as calls -/

/-- Which frame was requested does not depend on what is forgotten. -/
theorem requestedFrame_unfiltered {s t u : Node} (h : t.unfiltered = u.unfiltered) :
    requestedFrame s t = requestedFrame s u := by
  have htrace : t.unfiltered.trace = u.unfiltered.trace := congrArg Node.trace h
  have hbuffer : t.unfiltered.mcan.txBuffer = u.unfiltered.mcan.txBuffer := by rw [h]
  have htrace' : t.trace = u.trace := htrace
  have hbuffer' : t.mcan.txBuffer = u.mcan.txBuffer := hbuffer
  rw [requestedFrame, requestedFrame, htrace', hbuffer']

theorem recordRequest_unfiltered {s t u : Node} (h : t.unfiltered = u.unfiltered) :
    (recordRequest s t).unfiltered = (recordRequest s u).unfiltered := by
  rw [recordRequest, recordRequest, requestedFrame_unfiltered h]
  cases requestedFrame s u with
  | none => exact h
  | some f => exact congrArg (Node.emit (.accepted f)) h

theorem ss1ReceiveCanResponse_unfiltered (s : Node) :
    (ss1ReceiveCanResponse s).unfiltered = s.unfiltered := by
  obtain ⟨hw, mcan, _, _, _, _, _, _⟩ := s
  cases hw <;> rfl

theorem answered_unfiltered (q : Bool) (canId : Word) (status : StatusCode) (t : Node) :
    (answered q canId status t).unfiltered = t.unfiltered := by
  unfold answered
  split
  · exact ss1ReceiveCanResponse_unfiltered t
  · rfl

/-- The call of `can_tx_message` behind a command. -/
def callOf (cmdId : Byte) (stack : McanTxElement) : Option NodeEvent :=
  match sentBy cmdId with
  | none => none
  | some (canId, cmd) => some (.txMessage canId 4#8 (canMessage cmd 0#32) stack)

theorem send_nodeStep {canId : Word} {stack : McanTxElement} {cmd : Byte} {s t : Node}
    {status : StatusCode} (h : sendCanCommand canId stack cmd 0#32 s = some (status, t)) :
    nodeMachine.step s (.txMessage canId 4#8 (canMessage cmd 0#32) stack) =
      some (recordRequest s t) := by
  obtain ⟨status', t', h', hcase⟩ := sendCanCommand_cases canId stack cmd 0#32 s
  rw [h] at h'
  cases h'
  have hcall : canTxMessage canId 4#8 (canMessage cmd 0#32) stack s = some (status, t) := h
  simp only [nodeMachine, nodeStep, hcall]
  rcases hcase with ⟨_, hok, hreq⟩ | ⟨_, hno, htrace⟩
  · rw [if_pos hok, recordRequest, requestedFrame_requested hreq]
  · rw [if_neg hno, recordRequest, requestedFrame_same htrace]

/-- A command or a query is a call of `can_tx_message` to the node machine. -/
theorem Sends.nodeStep {cmdId : Byte} {stack : McanTxElement} {s s' : Node}
    (h : Sends cmdId stack s s') :
    ∃ e u, callOf cmdId stack = some e ∧ nodeMachine.step s e = some u ∧
      (recordRequest s s').unfiltered = u.unfiltered := by
  obtain ⟨canId, cmd, status, t, hsent, hsend, rfl⟩ := h.sends
  refine ⟨.txMessage canId 4#8 (canMessage cmd 0#32) stack, recordRequest s t, ?_,
    send_nodeStep hsend, recordRequest_unfiltered (answered_unfiltered _ canId status t)⟩
  simp only [callOf, hsent]

/-! ## The simulation -/

/-- The step of the node machine that a step of the master amounts to. -/
def masterLabel (m : Master) : MasterEvent → Option NodeEvent
  | .key key stack =>
    match keyCommand key with
    | none => none
    | some cmdId => callOf cmdId stack
  | .download stack =>
    match m.download with
    | some (q :: _) => callOf q.cmdId stack
    | _ => none
  | .standardFrame id e => receivedEvent (m.node.mcan.acceptStandard id) e
  | .extendedFrame id e => receivedEvent (m.node.mcan.acceptExtended id) e
  | .busStep => some .busStep
  | .busOff => some .busOff
  | .raise flags => some (.raise flags)
  | .handler => some .handler

/-- The command whose frame an event offers to the module. -/
def offeredCommand (m : Master) : MasterEvent → Option Byte
  | .key key _ => keyCommand key
  | .download _ =>
    match m.download with
    | some (q :: _) => some q.cmdId
    | _ => none
  | _ => none

/-- Everything a step of the master can be. -/
inductive MasterMove (m : Master) (e : MasterEvent) : Master → Prop
  | pressed (key : Char) (stack : McanTxElement) (m' : Master) (he : e = .key key stack)
      (hidle : m.download = none) (h : Master.Pressed key stack m m') : MasterMove m e m'
  | downloaded (stack : McanTxElement) (m' : Master) (he : e = .download stack)
      (h : Master.Downloaded stack m m') : MasterMove m e m'
  | ignored (hoffer : offeredCommand m e = none) (hlabel : masterLabel m e = none) :
      MasterMove m e m
  | hardware (ev : NodeEvent) (s' : Node) (hoffer : offeredCommand m e = none)
      (hlabel : masterLabel m e = some ev)
      (hon : onBus m.node ev = true) (hs : nodeMachine.step m.node ev = some s') :
      MasterMove m e { m with node := s' }

theorem receivedEvent_onBus {dest : Option RxDest} {e : McanRxElement} {ev : NodeEvent} {s : Node}
    (hinit : s.mcan.initBit = false) (h : receivedEvent dest e = some ev) : onBus s ev = true := by
  have htraffic : (!s.mcan.initBit) = true := by rw [hinit]; rfl
  unfold receivedEvent at h
  split at h
  · cases h
  · split at h <;> cases h
    exact htraffic
  · cases h
    exact htraffic
  · cases h
    exact htraffic

theorem receive_move {m m' : Master} {e : MasterEvent} {dest : Option RxDest}
    {element : McanRxElement} (hoffer : offeredCommand m e = none)
    (hlabel : masterLabel m e = receivedEvent dest element)
    (hs : m.receive dest element = some m') : MasterMove m e m' := by
  unfold Master.receive at hs
  split at hs
  · cases hs
  · rename_i hinit
    split at hs
    · rename_i hnone
      cases hs
      exact .ignored hoffer (hlabel.trans hnone)
    · rename_i ev hev
      obtain ⟨s', hnode, rfl⟩ := Master.onNode_some hs
      have hon : onBus m.node ev = true :=
        receivedEvent_onBus (Bool.eq_false_iff.mpr hinit) hev
      exact .hardware ev s' hoffer (hlabel.trans hev) hon hnode

theorem masterStep_move {m m' : Master} {e : MasterEvent} (hb : Blind m.telemetry)
    (hs : masterMachine.step m e = some m') : MasterMove m e m' := by
  cases e with
  | key key stack =>
    simp only [masterMachine, masterStep] at hs
    split at hs
    · cases hs
    · rename_i hidle
      obtain ⟨m1, hpress, hpressed⟩ := Master.pressKey_pressed key stack m
      rw [hpress] at hs
      cases hs
      exact .pressed key stack m' rfl (Option.not_isSome_iff_eq_none.mp hidle) hpressed
  | download stack => exact .downloaded stack m' rfl (Master.downloadStep_downloaded hb hs)
  | standardFrame id element => exact receive_move rfl rfl hs
  | extendedFrame id element => exact receive_move rfl rfl hs
  | busStep =>
    simp only [masterMachine, masterStep] at hs
    split at hs
    · cases hs
    · rename_i hinit
      obtain ⟨s', hnode, rfl⟩ := Master.onNode_some hs
      exact .hardware .busStep s' rfl rfl (by simpa [onBus] using hinit) hnode
  | busOff =>
    have hs' : m.onNode .busOff = some m' := hs
    obtain ⟨s', hnode, rfl⟩ := Master.onNode_some hs'
    exact .hardware .busOff s' rfl rfl rfl hnode
  | raise flags =>
    have hs' : m.onNode (.raise flags) = some m' := hs
    obtain ⟨s', hnode, rfl⟩ := Master.onNode_some hs'
    exact .hardware (.raise flags) s' rfl rfl rfl hnode
  | handler =>
    have hs' : m.onNode .handler = some m' := hs
    obtain ⟨s', hnode, rfl⟩ := Master.onNode_some hs'
    exact .hardware .handler s' rfl rfl rfl hnode

theorem MasterMove.blind {m m' : Master} {e : MasterEvent} (h : MasterMove m e m')
    (hb : Blind m.telemetry) : Blind m'.telemetry := by
  cases h with
  | pressed key stack m' he hidle h => cases h <;> exact hb
  | downloaded stack m' he h =>
    cases h with
    | queried => exact hb
    | reported => exact hb.commands _
  | ignored => exact hb
  | hardware => exact hb

/-- A call is enabled on and off the bus. -/
theorem Sends.onlyStep {cmdId : Byte} {stack : McanTxElement} {s s' : Node}
    (h : Sends cmdId stack s s') :
    ∃ e, callOf cmdId stack = some e ∧
      (nodeMachine.only onBus).step s.unfiltered e = some (recordRequest s s').unfiltered := by
  obtain ⟨e, u, hcall, hstep, hview⟩ := h.nodeStep
  refine ⟨e, hcall, Machine.only_step.mpr ⟨?_, ?_⟩⟩
  · unfold callOf at hcall
    split at hcall <;> cases hcall
    rfl
  · rw [nodeStep_unfiltered, hstep, hview]
    rfl

/-- What a step of the master is to the node machine. -/
theorem MasterMove.view {m m' : Master} {e : MasterEvent} (h : MasterMove m e m') :
    (masterLabel m e = none → m'.node.unfiltered = m.node.unfiltered) ∧
      ∀ ev, masterLabel m e = some ev →
        (nodeMachine.only onBus).step m.node.unfiltered ev = some m'.node.unfiltered := by
  have hsend : ∀ {cmdId : Byte} {stack : McanTxElement} {s' : Node},
      Sends cmdId stack m.node s' → masterLabel m e = callOf cmdId stack →
      (masterLabel m e = none → (recordRequest m.node s').unfiltered = m.node.unfiltered) ∧
        ∀ ev, masterLabel m e = some ev → (nodeMachine.only onBus).step m.node.unfiltered ev =
          some (recordRequest m.node s').unfiltered := by
    intro cmdId stack s' hsends hlabel
    obtain ⟨ev, hcall, hstep⟩ := hsends.onlyStep
    rw [hlabel, hcall]
    refine ⟨nofun, fun ev' hev => ?_⟩
    cases hev
    exact hstep
  cases h with
  | pressed key stack m' he hidle h =>
    cases h with
    | printed texts download hcmd _ _ =>
      have hnone : masterLabel m e = none := by simp only [he, masterLabel, hcmd]
      rw [hnone]
      exact ⟨fun _ => rfl, nofun⟩
    | executed cmdId text status s' hcmd _ _ hsends =>
      exact hsend hsends (by simp only [he, masterLabel, hcmd])
  | downloaded stack m' he h =>
    cases h with
    | queried q rest s' hdownload hsends =>
      exact hsend hsends (by simp only [he, masterLabel, hdownload])
    | reported hdownload =>
      have hnone : masterLabel m e = none := by simp only [he, masterLabel, hdownload]
      rw [hnone]
      exact ⟨fun _ => rfl, nofun⟩
  | ignored _ hlabel =>
    rw [hlabel]
    exact ⟨fun _ => rfl, nofun⟩
  | hardware ev s' _ hlabel hon hs =>
    rw [hlabel]
    refine ⟨nofun, fun ev' hev => ?_⟩
    cases hev
    refine Machine.only_step.mpr ⟨hon, ?_⟩
    rw [nodeStep_unfiltered, hs]
    rfl

/-- The program with its console is the node machine. -/
def consoleSimulation : Simulation masterMachine (nodeMachine.only onBus) where
  inv m := Blind m.telemetry
  view m := m.node.unfiltered
  label := masterLabel
  keeps _ _ _ hb hs := (masterStep_move hb hs).blind hb
  quiet _ _ _ hb hs := (masterStep_move hb hs).view.1
  visible _ _ _ d hb hs := (masterStep_move hb hs).view.2 d

end CanNet

import CanNet.Controller

/-!
# CanNet.Commands

The command layer: `commands.c` over any device state, the two subsystem drivers, and the command
table of `commands_module.c`.

The table calls each command function with a payload it does not take. A command function sends
through `can_tx_message`, whose local element starts with what the stack holds; that content is
the argument `stack`.
-/

namespace CanNet

open Bits

/-! ## `commands.c` -/

/-- `cmd_counters_t`. -/
structure CmdCounters where
  executedCmds : Word
  lastExecutedId : Byte
  abortedCmds : Word
  lastAbortedId : Byte
deriving DecidableEq

def cmdInit : CmdCounters where
  executedCmds := 0#32
  lastExecutedId := 0#8
  abortedCmds := 0#32
  lastAbortedId := 0#8

/-- `command_ops_t`. -/
structure CommandOps (σ : Type) where
  cmdFunc : Word → σ → Option (StatusCode × σ)

/-- `command_list_t`, with the fields START, END and ELEMENTS. -/
structure CommandList (σ : Type) where
  startId : Word
  endId : Word
  elements : List (CommandOps σ)

/-- `CREATE_CMD_LIST` over a table of names (here ids) and functions. -/
def createCmdList {σ : Type} (defTable : List (Word × CommandOps σ)) (startId endId : Word) :
    CommandList σ where
  startId := startId
  endId := endId
  elements := defTable.map Prod.snd

variable {σ : Type}

/-- `none` is undefined behaviour: in the command function, or an index past the table's end. -/
def cmdDispatch (cmdList : CommandList σ) (cmdId : Byte) (cmdPayload : Word) (s : σ) :
    Option (StatusCode × σ) :=
  if cmdList.startId ≤ cmdId.setWidth 32 ∧ cmdId.setWidth 32 ≤ cmdList.endId then
    match cmdList.elements[(cmdId.setWidth 32 - cmdList.startId).toNat]? with
    | none => none
    | some cmd => cmd.cmdFunc cmdPayload s
  else some (.operationInProgress, s)

def cmdAccount (cmdId : Byte) (status : StatusCode) (counters : CmdCounters) : CmdCounters :=
  if status = .statusOk then
    { counters with lastExecutedId := cmdId, executedCmds := counters.executedCmds + 1#32 }
  else { counters with lastAbortedId := cmdId, abortedCmds := counters.abortedCmds + 1#32 }

def cmdProcess (cmdList : CommandList σ) (cmdId : Byte) (cmdPayload : Word)
    (counters : CmdCounters) (s : σ) : Option (StatusCode × CmdCounters × σ) :=
  match cmdDispatch cmdList cmdId cmdPayload s with
  | none => none
  | some (status, s) => some (status, cmdAccount cmdId status counters, s)

/-! ## `subsystem_1.c`, `subsystem_2.c` -/

def cmdPayloadUnusedVal : Word := 0#32

/-- The four bytes of a command frame. -/
def canMessage (cmdId : Byte) (payload : Word) : List Byte :=
  [cmdId, ((payload &&& 0xFF0000#32) >>> 16).setWidth 8, ((payload &&& 0xFF00#32) >>> 8).setWidth 8,
    (payload &&& 0xFF#32).setWidth 8]

def sendCanCommand (canId : Word) (stack : McanTxElement) (cmdId : Byte) (payload : Word)
    (s : Node) : Option (StatusCode × Node) :=
  canTxMessage canId 4#8 (canMessage cmdId payload) stack s

def ss1SendCanCommand := sendCanCommand ss1CanId
def ss2SendCanCommand := sendCanCommand ss2CanId

/-- The missing return value of the source is not used by its callers. -/
def ss1ReceiveCanResponse (s : Node) : Node :=
  canSetRxStandardBufferFilter selfCanId (BitVec.ofNat 32 mcanRxStandardFilterId0BufferIndex)
    mcanRxStandardFilterIndex0 s

def ss1TurnOnLed (stack : McanTxElement) (s : Node) : Option (StatusCode × Node) :=
  ss1SendCanCommand stack ss1CmdIdTurnOnLed cmdPayloadUnusedVal s

def ss1TurnOffLed (stack : McanTxElement) (s : Node) : Option (StatusCode × Node) :=
  ss1SendCanCommand stack ss1CmdIdTurnOffLed cmdPayloadUnusedVal s

/-- A query: send, run `receive` if the frame was accepted, and return `value` either way. -/
def query {α : Type} (send : Option (StatusCode × Node)) (receive : Node → Node) (value : α) :
    Option (α × Node) :=
  match send with
  | none => none
  | some (ret, s) => some (value, if ret = .statusOk then receive s else s)

def ss1GetLedStatus (stack : McanTxElement) (s : Node) : Option (Bool × Node) :=
  query (ss1SendCanCommand stack ss1CmdIdGetLedStatus cmdPayloadUnusedVal s)
    ss1ReceiveCanResponse false

def ss1GetTemp (stack : McanTxElement) (s : Node) : Option (Int × Node) :=
  query (ss1SendCanCommand stack ss1CmdIdGetTemp cmdPayloadUnusedVal s) ss1ReceiveCanResponse 0

def ss2TurnOnLed (stack : McanTxElement) (s : Node) : Option (StatusCode × Node) :=
  ss2SendCanCommand stack ss2CmdIdTurnOnLed cmdPayloadUnusedVal s

def ss2TurnOffLed (stack : McanTxElement) (s : Node) : Option (StatusCode × Node) :=
  ss2SendCanCommand stack ss2CmdIdTurnOffLed cmdPayloadUnusedVal s

def ss2GetLedStatus (stack : McanTxElement) (s : Node) : Option (Bool × Node) :=
  query (ss2SendCanCommand stack ss2CmdIdGetLedStatus cmdPayloadUnusedVal s) id false

def ss2GetTemp (stack : McanTxElement) (s : Node) : Option (Int × Node) :=
  query (ss2SendCanCommand stack ss2CmdIdGetTemp cmdPayloadUnusedVal s) id 0

/-! ## `commands_module.c` -/

/-- The implicit conversions of the returned values to `status_code_t`. -/
def boolStatus (r : Option (Bool × Node)) : Option (StatusCode × Node) :=
  r.map fun p => (StatusCode.ofBool p.1, p.2)

def intStatus (r : Option (Int × Node)) : Option (StatusCode × Node) :=
  r.map fun p => (StatusCode.ofInt p.1, p.2)

section Module

variable (stack : McanTxElement)

def commandGetCpuTemp (s : Node) : Option (StatusCode × Node) := some (.statusOk, s)
def commandSs1TurnOnLed (s : Node) := ss1TurnOnLed stack s
def commandSs1TurnOffLed (s : Node) := ss1TurnOffLed stack s
def commandSs1GetLedStatus (s : Node) := boolStatus (ss1GetLedStatus stack s)
def commandSs1GetTemp (s : Node) := intStatus (ss1GetTemp stack s)
def commandSs2TurnOnLed (s : Node) := ss2TurnOnLed stack s
def commandSs2TurnOffLed (s : Node) := ss2TurnOffLed stack s
def commandSs2GetLedStatus (s : Node) := boolStatus (ss2GetLedStatus stack s)
def commandSs2GetTemp (s : Node) := intStatus (ss2GetTemp stack s)

/-- A command function called through the table ignores the payload. -/
def tableEntry (f : Node → Option (StatusCode × Node)) : CommandOps Node where
  cmdFunc _ := f

/-- `CMD_MODULE_DEF_TABLE`. -/
def cmdModuleDefTable : List (Word × CommandOps Node) :=
  [(0x00#32, tableEntry commandGetCpuTemp),
   (0x01#32, tableEntry (commandSs1TurnOnLed stack)),
   (0x02#32, tableEntry (commandSs1TurnOffLed stack)),
   (0x03#32, tableEntry (commandSs1GetLedStatus stack)),
   (0x04#32, tableEntry (commandSs1GetTemp stack)),
   (0x05#32, tableEntry (commandSs2TurnOnLed stack)),
   (0x06#32, tableEntry (commandSs2TurnOffLed stack)),
   (0x07#32, tableEntry (commandSs2GetLedStatus stack)),
   (0x08#32, tableEntry (commandSs2GetTemp stack))]

def cmdModuleList : CommandList Node := createCmdList (cmdModuleDefTable stack) 0x00#32 0x08#32

def commandsModuleExecute (cmdId : Byte) (cmdPayload : Word) (counters : CmdCounters) (s : Node) :
    Option (StatusCode × CmdCounters × Node) :=
  cmdProcess (cmdModuleList stack) cmdId cmdPayload counters s

end Module

/-! ## What a command does -/

/-- The module is bound and out of configuration mode, so a frame is accepted. -/
def sendable (s : Node) : Bool := s.hw = .mcan1 && !s.mcan.cceBit

/-- From `s` to `s'` the frame `f` was put into Tx buffer 0 and its transmission requested. -/
structure Requested (f : TxFrame) (s s' : Node) : Prop where
  trace : s'.trace = s.trace ++ [.txRequest 1#32]
  frame : (s'.mcan.txBuffer 0).frame = f

theorem sendCanCommand_cases (canId : Word) (stack : McanTxElement) (cmdId : Byte) (payload : Word)
    (s : Node) :
    ∃ status s', sendCanCommand canId stack cmdId payload s = some (status, s') ∧
      ((sendable s = true ∧ status = .statusOk ∧
          Requested (callFrame canId 4#8 (canMessage cmdId payload)) s s') ∨
        (sendable s = false ∧ status ≠ .statusOk ∧ s'.trace = s.trace)) := by
  have hlen : (4#8).toNat ≤ (canMessage cmdId payload).length := by simp [canMessage]
  obtain ⟨⟨status, s'⟩, hr⟩ := canTxMessage_isSome canId 4#8 stack s (by decide) hlen
  refine ⟨status, s', hr, ?_⟩
  obtain ⟨e, he, hcase⟩ := canTxMessage_some hr
  rcases hcase with ⟨hw, h⟩ | ⟨hw, hc, h⟩ | ⟨hw, hc, h⟩
  · cases h
    exact .inr ⟨by simp [sendable, hw], by decide, rfl⟩
  · cases h
    exact .inr ⟨by simp [sendable, hw, hc], by decide, rfl⟩
  · cases h
    refine .inl ⟨by simp [sendable, hw, hc], rfl, rfl, ?_⟩
    rw [← he]
    simp

theorem ss1ReceiveCanResponse_trace (s : Node) : (ss1ReceiveCanResponse s).trace = s.trace := by
  simp only [ss1ReceiveCanResponse, canSetRxStandardBufferFilter, mcanSetRxStandardFilter]
  cases s.hw <;> rfl

theorem ss1ReceiveCanResponse_txBuffer (s : Node) :
    (ss1ReceiveCanResponse s).mcan.txBuffer = s.mcan.txBuffer := by
  simp only [ss1ReceiveCanResponse, canSetRxStandardBufferFilter, mcanSetRxStandardFilter]
  cases s.hw <;> rfl

/-- A query gives its value whether or not its frame was accepted. -/
theorem query_cases {α : Type} {receive : Node → Node} (value : α) (canId : Word)
    (stack : McanTxElement) (cmdId : Byte) (payload : Word) (s : Node)
    (htrace : ∀ t, (receive t).trace = t.trace)
    (htx : ∀ t, (receive t).mcan.txBuffer = t.mcan.txBuffer) :
    ∃ s', query (sendCanCommand canId stack cmdId payload s) receive value = some (value, s') ∧
      ((sendable s = true ∧ Requested (callFrame canId 4#8 (canMessage cmdId payload)) s s') ∨
        (sendable s = false ∧ s'.trace = s.trace)) := by
  obtain ⟨status, s', hsend, hcase⟩ := sendCanCommand_cases canId stack cmdId payload s
  rcases hcase with ⟨hs, hok, hreq⟩ | ⟨hs, hno, ht⟩
  · refine ⟨receive s', by simp [query, hsend, hok], .inl ⟨hs, ?_, ?_⟩⟩
    · rw [htrace]; exact hreq.trace
    · rw [htx]; exact hreq.frame
  · exact ⟨s', by simp [query, hsend, hno], .inr ⟨hs, ht⟩⟩

/-- The CAN id and the command byte of the frame a command sends. -/
def sentBy (cmdId : Byte) : Option (Word × Byte) :=
  if cmdId = 1#8 then some (ss1CanId, ss1CmdIdTurnOnLed)
  else if cmdId = 2#8 then some (ss1CanId, ss1CmdIdTurnOffLed)
  else if cmdId = 3#8 then some (ss1CanId, ss1CmdIdGetLedStatus)
  else if cmdId = 4#8 then some (ss1CanId, ss1CmdIdGetTemp)
  else if cmdId = 5#8 then some (ss2CanId, ss2CmdIdTurnOnLed)
  else if cmdId = 6#8 then some (ss2CanId, ss2CmdIdTurnOffLed)
  else if cmdId = 7#8 then some (ss2CanId, ss2CmdIdGetLedStatus)
  else if cmdId = 8#8 then some (ss2CanId, ss2CmdIdGetTemp)
  else none

theorem ne_of_outside {cmdId : Byte} (h : 8 < cmdId.toNat) {k : Nat} (hk : k ≤ 8) :
    cmdId ≠ BitVec.ofNat 8 k := by
  intro hc
  rw [hc, BitVec.toNat_ofNat] at h
  omega

theorem sentBy_outside {cmdId : Byte} (h : 8 < cmdId.toNat) : sentBy cmdId = none := by
  have hne := fun k hk => ne_of_outside h (k := k) hk
  simp [sentBy, hne 1, hne 2, hne 3, hne 4, hne 5, hne 6, hne 7, hne 8]

/-- The ids of the table one by one, and all the others. -/
theorem cmdId_cases (cmdId : Byte) :
    cmdId = 0#8 ∨ cmdId = 1#8 ∨ cmdId = 2#8 ∨ cmdId = 3#8 ∨ cmdId = 4#8 ∨ cmdId = 5#8 ∨
      cmdId = 6#8 ∨ cmdId = 7#8 ∨ cmdId = 8#8 ∨ 8 < cmdId.toNat := by
  simp only [← BitVec.toNat_inj, BitVec.toNat_ofNat]
  omega

def isQuery (cmdId : Byte) : Bool := cmdId = 3#8 || cmdId = 4#8 || cmdId = 7#8 || cmdId = 8#8

/-- Everything a run of the dispatcher can do: nothing is sent; the frame is accepted and the
status is good; or the frame is refused, and only a query hides it. -/
inductive Dispatched (cmdId : Byte) (s : Node) (status : StatusCode) (s' : Node) : Prop
  | silent (hsent : sentBy cmdId = none) (hs : s' = s)
      (hstatus : status = .statusOk ↔ cmdId = 0#8)
  | accepted (canId : Word) (cmd : Byte) (hsent : sentBy cmdId = some (canId, cmd))
      (hok : sendable s = true) (hstatus : status = .statusOk)
      (hreq : Requested (callFrame canId 4#8 (canMessage cmd 0#32)) s s')
  | refused (canId : Word) (cmd : Byte) (hsent : sentBy cmdId = some (canId, cmd))
      (hno : sendable s = false) (hstatus : status = .statusOk ↔ isQuery cmdId = true)
      (htrace : s'.trace = s.trace)

theorem dispatched_turn {cmdId : Byte} {canId : Word} {cmd : Byte} (stack : McanTxElement)
    (s : Node) (hsent : sentBy cmdId = some (canId, cmd)) (hq : isQuery cmdId = false) :
    ∃ status s', sendCanCommand canId stack cmd cmdPayloadUnusedVal s = some (status, s') ∧
      Dispatched cmdId s status s' := by
  obtain ⟨status, s', hsend, hcase⟩ := sendCanCommand_cases canId stack cmd cmdPayloadUnusedVal s
  refine ⟨status, s', hsend, ?_⟩
  rcases hcase with ⟨hs, hok, hreq⟩ | ⟨hs, hno, ht⟩
  · exact .accepted canId cmd hsent hs hok hreq
  · refine .refused canId cmd hsent hs ?_ ht
    rw [hq]
    exact ⟨fun h => absurd h hno, fun h => by cases h⟩

theorem dispatched_query {α : Type} (cmdId : Byte) {canId : Word} {cmd : Byte}
    (receive : Node → Node) (value : α) (stack : McanTxElement) (s : Node)
    (htrace : ∀ t, (receive t).trace = t.trace)
    (htx : ∀ t, (receive t).mcan.txBuffer = t.mcan.txBuffer)
    (hsent : sentBy cmdId = some (canId, cmd)) (hq : isQuery cmdId = true) :
    ∃ s', query (sendCanCommand canId stack cmd cmdPayloadUnusedVal s) receive value =
        some (value, s') ∧ Dispatched cmdId s .statusOk s' := by
  obtain ⟨s', hquery, hcase⟩ :=
    query_cases value canId stack cmd cmdPayloadUnusedVal s htrace htx
  refine ⟨s', hquery, ?_⟩
  rcases hcase with ⟨hs, hreq⟩ | ⟨hs, ht⟩
  · exact .accepted canId cmd hsent hs rfl hreq
  · exact .refused canId cmd hsent hs ⟨fun _ => hq, fun _ => rfl⟩ ht

theorem dispatch_outside (stack : McanTxElement) {cmdId : Byte} (h : 8 < cmdId.toNat)
    (payload : Word) (s : Node) :
    cmdDispatch (cmdModuleList stack) cmdId payload s = some (.operationInProgress, s) := by
  have hend : ¬ cmdId.setWidth 32 ≤ 0x08#32 := by
    rw [BitVec.le_def, BitVec.toNat_setWidth, Nat.mod_eq_of_lt (by omega)]
    exact Nat.not_le.mpr h
  rw [cmdDispatch, if_neg]
  intro hc
  exact hend hc.2

theorem dispatch_entry (stack : McanTxElement) {cmdId : Byte} {entry : CommandOps Node}
    (hid : cmdId.toNat ≤ 8) (hentry : (cmdModuleList stack).elements[cmdId.toNat]? = some entry)
    (payload : Word) (s : Node) :
    cmdDispatch (cmdModuleList stack) cmdId payload s = entry.cmdFunc payload s := by
  have hend : cmdId.setWidth 32 ≤ 0x08#32 := by
    rw [BitVec.le_def, BitVec.toNat_setWidth, Nat.mod_eq_of_lt (by omega)]
    exact hid
  have hindex : (cmdId.setWidth 32 - 0x00#32).toNat = cmdId.toNat := by
    rw [BitVec.sub_zero, BitVec.toNat_setWidth, Nat.mod_eq_of_lt (by omega)]
  have hstart : (cmdModuleList stack).startId ≤ cmdId.setWidth 32 :=
    BitVec.le_def.mpr (Nat.zero_le _)
  have hrange : (cmdModuleList stack).startId ≤ cmdId.setWidth 32 ∧
      cmdId.setWidth 32 ≤ (cmdModuleList stack).endId := ⟨hstart, hend⟩
  rw [cmdDispatch, if_pos hrange]
  simp only [show (cmdModuleList stack).startId = 0x00#32 from rfl, hindex, hentry]

/-- The table, entry by entry. -/
theorem dispatch_module (stack : McanTxElement) (cmdId : Byte) (payload : Word) (s : Node) :
    ∃ status s', cmdDispatch (cmdModuleList stack) cmdId payload s = some (status, s') ∧
      Dispatched cmdId s status s' := by
  have hreceive := ss1ReceiveCanResponse_trace
  have hbuffer := ss1ReceiveCanResponse_txBuffer
  rcases cmdId_cases cmdId with rfl | rfl | rfl | rfl | rfl | rfl | rfl | rfl | rfl | hbig
  · rw [dispatch_entry stack (by decide) rfl]
    exact ⟨.statusOk, s, rfl, .silent rfl rfl ⟨fun _ => rfl, fun _ => rfl⟩⟩
  · rw [dispatch_entry stack (by decide) rfl]
    exact dispatched_turn stack s rfl rfl
  · rw [dispatch_entry stack (by decide) rfl]
    exact dispatched_turn stack s rfl rfl
  · rw [dispatch_entry stack (by decide) rfl]
    obtain ⟨s', hq, hd⟩ := dispatched_query 3#8 _ false stack s hreceive hbuffer rfl rfl
    exact ⟨.statusOk, s', congrArg boolStatus hq, hd⟩
  · rw [dispatch_entry stack (by decide) rfl]
    obtain ⟨s', hq, hd⟩ := dispatched_query 4#8 _ (0 : Int) stack s hreceive hbuffer rfl rfl
    exact ⟨.statusOk, s', congrArg intStatus hq, hd⟩
  · rw [dispatch_entry stack (by decide) rfl]
    exact dispatched_turn stack s rfl rfl
  · rw [dispatch_entry stack (by decide) rfl]
    exact dispatched_turn stack s rfl rfl
  · rw [dispatch_entry stack (by decide) rfl]
    obtain ⟨s', hq, hd⟩ :=
      dispatched_query 7#8 id false stack s (fun _ => rfl) (fun _ => rfl) rfl rfl
    exact ⟨.statusOk, s', congrArg boolStatus hq, hd⟩
  · rw [dispatch_entry stack (by decide) rfl]
    obtain ⟨s', hq, hd⟩ :=
      dispatched_query 8#8 id (0 : Int) stack s (fun _ => rfl) (fun _ => rfl) rfl rfl
    exact ⟨.statusOk, s', congrArg intStatus hq, hd⟩
  · refine ⟨.operationInProgress, s, dispatch_outside stack hbig payload s,
      .silent (sentBy_outside hbig) rfl ?_⟩
    constructor
    · intro h; cases h
    · intro h; exact absurd h (ne_of_outside hbig (by decide))

theorem commandsModuleExecute_some (stack : McanTxElement) (cmdId : Byte) (payload : Word)
    (counters : CmdCounters) (s : Node) :
    ∃ status s', commandsModuleExecute stack cmdId payload counters s =
        some (status, cmdAccount cmdId status counters, s') ∧ Dispatched cmdId s status s' := by
  obtain ⟨status, s', hdispatch, hcase⟩ := dispatch_module stack cmdId payload s
  refine ⟨status, s', ?_, hcase⟩
  simp [commandsModuleExecute, cmdProcess, hdispatch]

end CanNet

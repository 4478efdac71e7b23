import CanNet.Accounting

/-!
# CanNet.Telemetry

`telemetry.c`: the snapshot that `telemetry_update` takes and `telemetry_get` prints.

An update is four queries and a copy of the command counters. The queries are steps of their own,
because a bus step or an interrupt may come between any two of them. What a query and a table entry
do to the node is the same thing, `Sends`.
-/

namespace CanNet

/-! ## `telemetry.c` -/

/-- `ss1_info_t` and `ss2_info_t`, which have the same fields. -/
structure SubsystemInfo where
  temperature : Int
  ledStatus : Bool
deriving DecidableEq

structure Telemetry where
  subsystem1 : SubsystemInfo
  subsystem2 : SubsystemInfo
  commands : CmdCounters
deriving DecidableEq

/-- The static variable before the first update. -/
def telemetryZero : Telemetry where
  subsystem1 := { temperature := 0, ledStatus := false }
  subsystem2 := { temperature := 0, ledStatus := false }
  commands := { executedCmds := 0#32, lastExecutedId := 0#8, abortedCmds := 0#32,
                lastAbortedId := 0#8 }

/-- The assignments of `telemetry_update` that query a subsystem. -/
inductive TelemetryQuery where
  | ss1LedStatus
  | ss1Temperature
  | ss2LedStatus
  | ss2Temperature
deriving DecidableEq

def telemetryQueries : List TelemetryQuery :=
  [.ss1LedStatus, .ss1Temperature, .ss2LedStatus, .ss2Temperature]

def TelemetryQuery.run (q : TelemetryQuery) (stack : McanTxElement) (telemetry : Telemetry)
    (s : Node) : Option (Telemetry × Node) :=
  match q with
  | .ss1LedStatus => (ss1GetLedStatus stack s).map fun (led, s) =>
      ({ telemetry with subsystem1 := { telemetry.subsystem1 with ledStatus := led } }, s)
  | .ss1Temperature => (ss1GetTemp stack s).map fun (temp, s) =>
      ({ telemetry with subsystem1 := { telemetry.subsystem1 with temperature := temp } }, s)
  | .ss2LedStatus => (ss2GetLedStatus stack s).map fun (led, s) =>
      ({ telemetry with subsystem2 := { telemetry.subsystem2 with ledStatus := led } }, s)
  | .ss2Temperature => (ss2GetTemp stack s).map fun (temp, s) =>
      ({ telemetry with subsystem2 := { telemetry.subsystem2 with temperature := temp } }, s)

def cmdGetExecutedCount (counters : CmdCounters) : Word := counters.executedCmds
def cmdGetLastExecutedId (counters : CmdCounters) : Byte := counters.lastExecutedId
def cmdGetAbortedCount (counters : CmdCounters) : Word := counters.abortedCmds
def cmdGetLastAbortedId (counters : CmdCounters) : Byte := counters.lastAbortedId

/-- The last four assignments of `telemetry_update`. -/
def telemetryCommands (counters : CmdCounters) (telemetry : Telemetry) : Telemetry :=
  { telemetry with commands :=
    { executedCmds := cmdGetExecutedCount counters
      lastExecutedId := cmdGetLastExecutedId counters
      abortedCmds := cmdGetAbortedCount counters
      lastAbortedId := cmdGetLastAbortedId counters } }

/-- `%u`. -/
def formatU (v : Word) : String := toString v.toNat

def ledText (on : Bool) : String := if on then "ON \n\r" else "OFF \n\r"

/-- What `telemetry_get` prints after the update. -/
def telemetryReport (telemetry : Telemetry) : List String :=
  ["SS1 LED status: ",
   ledText telemetry.subsystem1.ledStatus,
   "SS1 Temperature: " ++ formatU (BitVec.ofInt 32 telemetry.subsystem1.temperature) ++ " \n\r",
   "SS2 LED status: ",
   ledText telemetry.subsystem2.ledStatus,
   "SS2 Temperature: " ++ formatU (BitVec.ofInt 32 telemetry.subsystem2.temperature) ++ " \n\r",
   "Executed commands count: " ++ formatU telemetry.commands.executedCmds ++ " \n\r",
   "Aborted commands count: " ++ formatU telemetry.commands.abortedCmds ++ " \n\r",
   "Last executed command ID: " ++ formatU (telemetry.commands.lastExecutedId.setWidth 32) ++ " \n\r",
   "Last aborted command ID: " ++ formatU (telemetry.commands.lastAbortedId.setWidth 32) ++ " \n\r"]

/-! ## What a command and a query do -/

/-- After its frame was offered to the module: an accepted query to subsystem 1 installs the filter
for the response. -/
def answered (isQuery : Bool) (canId : Word) (status : StatusCode) (s : Node) : Node :=
  if isQuery = true ∧ status = .statusOk ∧ canId = ss1CanId then ss1ReceiveCanResponse s else s

/-- From `s` to `s'` the frame of command `cmdId` was offered to the module, and nothing else
happened. -/
structure Sends (cmdId : Byte) (stack : McanTxElement) (s s' : Node) : Prop where
  sends : ∃ (canId : Word) (cmd : Byte) (status : StatusCode) (t : Node),
    sentBy cmdId = some (canId, cmd) ∧ sendCanCommand canId stack cmd 0#32 s = some (status, t) ∧
      s' = answered (isQuery cmdId) canId status t

theorem query_of_send {α : Type} {send : Option (StatusCode × Node)} {status : StatusCode}
    {t : Node} (receive : Node → Node) (value : α) (h : send = some (status, t)) :
    query send receive value = some (value, if status = .statusOk then receive t else t) := by
  rw [h]
  rfl

/-- A query gives its constant, and its frame is offered to the module. -/
theorem query_sends {α : Type} (cmdId : Byte) {canId : Word} {cmd : Byte} (receive : Node → Node)
    (value : α) (stack : McanTxElement) (s : Node) (hsent : sentBy cmdId = some (canId, cmd))
    (hq : isQuery cmdId = true)
    (hreceive : ∀ t, receive t = if canId = ss1CanId then ss1ReceiveCanResponse t else t) :
    ∃ s', query (sendCanCommand canId stack cmd 0#32 s) receive value = some (value, s') ∧
      Sends cmdId stack s s' := by
  obtain ⟨status, t, hsend, _⟩ := sendCanCommand_cases canId stack cmd 0#32 s
  refine ⟨_, query_of_send receive value hsend, ⟨canId, cmd, status, t, hsent, hsend, ?_⟩⟩
  rw [answered, hq, hreceive]
  by_cases hs : status = .statusOk <;> by_cases hc : canId = ss1CanId <;> simp [hs, hc]

theorem turn_sends {cmdId : Byte} {canId : Word} {cmd : Byte} (stack : McanTxElement) (s : Node)
    (hsent : sentBy cmdId = some (canId, cmd)) (hq : isQuery cmdId = false) :
    ∃ status s', sendCanCommand canId stack cmd 0#32 s = some (status, s') ∧
      Sends cmdId stack s s' := by
  obtain ⟨status, t, hsend, _⟩ := sendCanCommand_cases canId stack cmd 0#32 s
  refine ⟨status, t, hsend, ⟨canId, cmd, status, t, hsent, hsend, ?_⟩⟩
  rw [answered, hq, if_neg (by simp)]

theorem ss1_receives (t : Node) :
    ss1ReceiveCanResponse t = if ss1CanId = ss1CanId then ss1ReceiveCanResponse t else t := by
  rw [if_pos rfl]

theorem ss2_receives (t : Node) :
    id t = if ss2CanId = ss1CanId then ss1ReceiveCanResponse t else t := by
  rw [if_neg (by decide)]
  rfl

/-- The table entry of a command that has a frame to send. -/
theorem dispatch_sends (stack : McanTxElement) {cmdId : Byte} (h : (sentBy cmdId).isSome = true)
    (payload : Word) (s : Node) :
    ∃ status s', cmdDispatch (cmdModuleList stack) cmdId payload s = some (status, s') ∧
      Sends cmdId stack s s' := by
  rcases cmdId_cases cmdId with rfl | rfl | rfl | rfl | rfl | rfl | rfl | rfl | rfl | hbig
  · cases h
  · rw [dispatch_entry stack (by decide) rfl]
    exact turn_sends stack s rfl rfl
  · rw [dispatch_entry stack (by decide) rfl]
    exact turn_sends stack s rfl rfl
  · rw [dispatch_entry stack (by decide) rfl]
    obtain ⟨s', hq, hs⟩ := query_sends 3#8 _ false stack s rfl rfl ss1_receives
    exact ⟨.statusOk, s', congrArg boolStatus hq, hs⟩
  · rw [dispatch_entry stack (by decide) rfl]
    obtain ⟨s', hq, hs⟩ := query_sends 4#8 _ (0 : Int) stack s rfl rfl ss1_receives
    exact ⟨.statusOk, s', congrArg intStatus hq, hs⟩
  · rw [dispatch_entry stack (by decide) rfl]
    exact turn_sends stack s rfl rfl
  · rw [dispatch_entry stack (by decide) rfl]
    exact turn_sends stack s rfl rfl
  · rw [dispatch_entry stack (by decide) rfl]
    obtain ⟨s', hq, hs⟩ := query_sends 7#8 _ false stack s rfl rfl ss2_receives
    exact ⟨.statusOk, s', congrArg boolStatus hq, hs⟩
  · rw [dispatch_entry stack (by decide) rfl]
    obtain ⟨s', hq, hs⟩ := query_sends 8#8 _ (0 : Int) stack s rfl rfl ss2_receives
    exact ⟨.statusOk, s', congrArg intStatus hq, hs⟩
  · rw [sentBy_outside hbig] at h
    cases h

/-- The command id whose frame a query sends. -/
def TelemetryQuery.cmdId : TelemetryQuery → Byte
  | .ss1LedStatus => 3#8
  | .ss1Temperature => 4#8
  | .ss2LedStatus => 7#8
  | .ss2Temperature => 8#8

/-- Nothing is known of the subsystems but the constants the queries return. -/
structure Blind (telemetry : Telemetry) : Prop where
  subsystem1 : telemetry.subsystem1 = { temperature := 0, ledStatus := false }
  subsystem2 : telemetry.subsystem2 = { temperature := 0, ledStatus := false }

theorem blind_telemetryZero : Blind telemetryZero := ⟨rfl, rfl⟩

theorem Blind.commands {telemetry : Telemetry} (h : Blind telemetry) (counters : CmdCounters) :
    Blind (telemetryCommands counters telemetry) := ⟨h.subsystem1, h.subsystem2⟩

/-- A query of the telemetry sends the frame its command sends, and learns nothing. -/
theorem TelemetryQuery.run_some (q : TelemetryQuery) (stack : McanTxElement)
    {telemetry : Telemetry} (h : Blind telemetry) (s : Node) :
    ∃ s', q.run stack telemetry s = some (telemetry, s') ∧ Sends q.cmdId stack s s' := by
  obtain ⟨⟨temp1, led1⟩, ⟨temp2, led2⟩, commands⟩ := telemetry
  obtain ⟨h1, h2⟩ := h
  cases h1
  cases h2
  cases q with
  | ss1LedStatus =>
    obtain ⟨s', hq, hs⟩ := query_sends 3#8 _ false stack s rfl rfl ss1_receives
    exact ⟨s', congrArg (Option.map _) hq, hs⟩
  | ss1Temperature =>
    obtain ⟨s', hq, hs⟩ := query_sends 4#8 _ (0 : Int) stack s rfl rfl ss1_receives
    exact ⟨s', congrArg (Option.map _) hq, hs⟩
  | ss2LedStatus =>
    obtain ⟨s', hq, hs⟩ := query_sends 7#8 _ false stack s rfl rfl ss2_receives
    exact ⟨s', congrArg (Option.map _) hq, hs⟩
  | ss2Temperature =>
    obtain ⟨s', hq, hs⟩ := query_sends 8#8 _ (0 : Int) stack s rfl rfl ss2_receives
    exact ⟨s', congrArg (Option.map _) hq, hs⟩

end CanNet

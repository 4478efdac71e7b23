import CanNet.Commands
import CanNet.Node

/-!
# CanNet.Accounting

The command counters over whole sequences of `commands_module_execute` calls.

Between two calls anything may happen to the node, so every call comes with the node it finds.
The session keeps, beside the counters, a record of each call: what it returned and the frame it
put up for transmission, if any.
-/

namespace CanNet

structure CommandCall where
  cmdId : Byte
  cmdPayload : Word
  stack : McanTxElement
  node : Node

structure CommandRecord where
  cmdId : Byte
  status : StatusCode
  frame : Option TxFrame
  lastAbortedId : Byte

structure Session where
  counters : CmdCounters
  log : List CommandRecord

/-- The frame whose transmission was requested between `s` and `s'`. -/
def requestedFrame (s s' : Node) : Option TxFrame :=
  if s'.trace = s.trace ++ [.txRequest 1#32] then some (s'.mcan.txBuffer 0).frame else none

/-- One call: its record, and the session with the record added. -/
def sessionCall (t : Session) (c : CommandCall) : Option (CommandRecord × Session) :=
  match commandsModuleExecute c.stack c.cmdId c.cmdPayload t.counters c.node with
  | none => none
  | some (status, counters, s') =>
    let r : CommandRecord :=
      { cmdId := c.cmdId, status := status, frame := requestedFrame c.node s'
        lastAbortedId := counters.lastAbortedId }
    some (r, { counters := counters, log := t.log ++ [r] })

def sessionMachine : Machine Session CommandCall where
  step t c := (sessionCall t c).map Prod.snd

/-- After `cmd_init`. -/
def sessionStart : Session := { counters := cmdInit, log := [] }

theorem requestedFrame_same {s s' : Node} (h : s'.trace = s.trace) : requestedFrame s s' = none := by
  rw [requestedFrame, if_neg]
  rw [h]
  simp

theorem requestedFrame_requested {f : TxFrame} {s s' : Node} (h : Requested f s s') :
    requestedFrame s s' = some f := by
  rw [requestedFrame, if_pos h.trace, h.frame]

/-- What one call adds to the session. -/
inductive Recorded (c : CommandCall) (r : CommandRecord) : Prop
  | silent (hsent : sentBy c.cmdId = none) (hframe : r.frame = none)
      (hstatus : r.status = .statusOk ↔ c.cmdId = 0#8)
  | accepted (canId : Word) (cmd : Byte) (hsent : sentBy c.cmdId = some (canId, cmd))
      (hok : sendable c.node = true) (hstatus : r.status = .statusOk)
      (hframe : r.frame = some (callFrame canId 4#8 (canMessage cmd 0#32)))
  | refused (canId : Word) (cmd : Byte) (hsent : sentBy c.cmdId = some (canId, cmd))
      (hno : sendable c.node = false) (hstatus : r.status = .statusOk ↔ isQuery c.cmdId = true)
      (hframe : r.frame = none)

/-- Everything a call can do to the session; it is never undefined. -/
theorem sessionCall_some (t : Session) (c : CommandCall) :
    ∃ r : CommandRecord, r.cmdId = c.cmdId ∧ Recorded c r ∧
      r.lastAbortedId = (cmdAccount c.cmdId r.status t.counters).lastAbortedId ∧
      sessionCall t c = some
        (r, { counters := cmdAccount c.cmdId r.status t.counters, log := t.log ++ [r] }) := by
  obtain ⟨status, s', he, hd⟩ :=
    commandsModuleExecute_some c.stack c.cmdId c.cmdPayload t.counters c.node
  refine ⟨{ cmdId := c.cmdId, status := status, frame := requestedFrame c.node s'
            lastAbortedId := (cmdAccount c.cmdId status t.counters).lastAbortedId },
    rfl, ?_, rfl, by simp only [sessionCall, he]⟩
  cases hd with
  | silent hsent hs hstatus =>
    exact .silent hsent (requestedFrame_same (by rw [hs])) hstatus
  | accepted canId cmd hsent hok hstatus hreq =>
    exact .accepted canId cmd hsent hok hstatus (requestedFrame_requested hreq)
  | refused canId cmd hsent hno hstatus htrace =>
    exact .refused canId cmd hsent hno hstatus (requestedFrame_same htrace)

theorem session_step {t t' : Session} {c : CommandCall} (h : sessionMachine.step t c = some t') :
    ∃ r : CommandRecord, r.cmdId = c.cmdId ∧ Recorded c r ∧
      r.lastAbortedId = (cmdAccount c.cmdId r.status t.counters).lastAbortedId ∧
      t' = { counters := cmdAccount c.cmdId r.status t.counters, log := t.log ++ [r] } := by
  obtain ⟨r, hid, hr, hlast, hcall⟩ := sessionCall_some t c
  simp only [sessionMachine, hcall] at h
  cases h
  exact ⟨r, hid, hr, hlast, rfl⟩

theorem session_total (t : Session) (c : CommandCall) : ∃ t', sessionMachine.step t c = some t' := by
  obtain ⟨r, _, _, _, hcall⟩ := sessionCall_some t c
  simp only [sessionMachine, hcall]
  exact ⟨_, rfl⟩

/-! ## Counting -/

/-- If the status is good exactly on the records `p` picks out, both counters keep counting. -/
theorem cmdAccount_counts {ρ : Type} {p : ρ → Bool} {log : List ρ} {r : ρ} (cmdId : Byte)
    {status : StatusCode} {counters : CmdCounters} (h : status = .statusOk ↔ p r = true)
    (hx : counters.executedCmds = BitVec.ofNat 32 (log.countP p))
    (ha : counters.abortedCmds = BitVec.ofNat 32 (log.countP fun r => !p r)) :
    (cmdAccount cmdId status counters).executedCmds = BitVec.ofNat 32 ((log ++ [r]).countP p) ∧
      (cmdAccount cmdId status counters).abortedCmds =
        BitVec.ofNat 32 ((log ++ [r]).countP fun r => !p r) := by
  simp only [List.countP_append, List.countP_singleton]
  by_cases hs : status = .statusOk
  · have hp : p r = true := h.mp hs
    simp [cmdAccount, hs, hp, hx, ha, BitVec.ofNat_add]
  · have hp : p r = false := Bool.eq_false_iff.mpr fun hp => hs (h.mpr hp)
    simp [cmdAccount, hs, hp, hx, ha, BitVec.ofNat_add]

/-! ## The counters and the bus -/

/-- The id of a command that has a frame to send. -/
def sendsFrame (cmdId : Byte) : Bool := 1#8 ≤ cmdId && cmdId ≤ 8#8

/-- The command did what it is there for: it has nothing to send, or its frame was accepted. -/
def CommandRecord.carriedOut (r : CommandRecord) : Bool :=
  r.cmdId = 0#8 || sendsFrame r.cmdId && r.frame.isSome

/-- The counters tell the truth about what was sent. -/
structure Truthful (t : Session) : Prop where
  executed : t.counters.executedCmds = BitVec.ofNat 32 (t.log.countP CommandRecord.carriedOut)
  aborted : t.counters.abortedCmds = BitVec.ofNat 32 (t.log.countP fun r => !r.carriedOut)
  refused : ∀ r ∈ t.log, sendsFrame r.cmdId = true → r.frame = none →
    r.status ≠ .statusOk ∧ r.lastAbortedId = r.cmdId

instance : DecidablePred Truthful := fun t =>
  decidable_of_iff
    (t.counters.executedCmds = BitVec.ofNat 32 (t.log.countP CommandRecord.carriedOut) ∧
      t.counters.abortedCmds = BitVec.ofNat 32 (t.log.countP fun r => !r.carriedOut) ∧
      ∀ r ∈ t.log, sendsFrame r.cmdId = true → r.frame = none →
        r.status ≠ .statusOk ∧ r.lastAbortedId = r.cmdId)
    ⟨fun ⟨h1, h2, h3⟩ => ⟨h1, h2, h3⟩, fun ⟨h1, h2, h3⟩ => ⟨h1, h2, h3⟩⟩

/-- A query is only made while its frame can be accepted. -/
def Sent (c : CommandCall) : Prop := isQuery c.cmdId = true → sendable c.node = true

theorem sentBy_isSome (cmdId : Byte) : (sentBy cmdId).isSome = sendsFrame cmdId := by
  rcases cmdId_cases cmdId with rfl | rfl | rfl | rfl | rfl | rfl | rfl | rfl | rfl | hbig
  case inr.inr.inr.inr.inr.inr.inr.inr.inr =>
    have hend : ¬ cmdId ≤ 8#8 := Nat.not_le.mpr hbig
    simp [sentBy_outside hbig, sendsFrame, hend]
  all_goals rfl

theorem isQuery_sends {cmdId : Byte} (h : isQuery cmdId = true) : (sentBy cmdId).isSome = true := by
  simp only [isQuery, Bool.or_eq_true, decide_eq_true_eq] at h
  rcases h with ((rfl | rfl) | rfl) | rfl <;> rfl

/-- The status of a record is good exactly if the command was carried out, hidden refusals apart. -/
theorem Recorded.status_iff {c : CommandCall} {r : CommandRecord} (hid : r.cmdId = c.cmdId)
    (h : Recorded c r) (hc : Sent c) : r.status = .statusOk ↔ r.carriedOut = true := by
  have hsends : sendsFrame r.cmdId = (sentBy c.cmdId).isSome := by rw [hid, sentBy_isSome]
  cases h with
  | silent hsent hframe hstatus =>
    rw [hstatus]
    simp [CommandRecord.carriedOut, hframe, hid]
  | accepted canId cmd hsent hok hstatus hframe =>
    simp [CommandRecord.carriedOut, hframe, hsends, hsent, hstatus]
  | refused canId cmd hsent hno hstatus hframe =>
    have hq : isQuery c.cmdId ≠ true := fun hq => by
      rw [hc hq] at hno
      cases hno
    have hne : c.cmdId ≠ 0#8 := by
      intro h0
      rw [h0] at hsent
      cases hsent
    simp [CommandRecord.carriedOut, hframe, hid, hne, hstatus, hq]

theorem Truthful.step {t t' : Session} {c : CommandCall} (h : Truthful t) (hc : Sent c)
    (hs : sessionMachine.step t c = some t') : Truthful t' := by
  obtain ⟨r, hid, hr, hlast, rfl⟩ := session_step hs
  have hstatus := hr.status_iff hid hc
  obtain ⟨hx, ha⟩ := cmdAccount_counts c.cmdId hstatus h.executed h.aborted
  refine ⟨hx, ha, ?_⟩
  intro q hq hsends hnone
  rcases List.mem_append.mp hq with hq | hq
  · exact h.refused q hq hsends hnone
  · rw [List.mem_singleton.mp hq] at hsends hnone ⊢
    have hne : r.cmdId ≠ 0#8 := by
      intro h0
      rw [h0] at hsends
      cases hsends
    have hbad : r.status ≠ .statusOk := by
      intro hok
      have := hstatus.mp hok
      simp [CommandRecord.carriedOut, hnone, hne] at this
    refine ⟨hbad, ?_⟩
    rw [hlast, cmdAccount, if_neg hbad, hid]

/-- A query that finds the module refusing is counted as executed. -/
theorem hidden_refusal {t t' : Session} {c : CommandCall} (hc : ¬ Sent c)
    (hs : sessionMachine.step t c = some t') : ¬ Truthful t' := by
  obtain ⟨hq, hno⟩ := Classical.not_imp.mp hc
  intro ht
  obtain ⟨r, hid, hr, hlast, rfl⟩ := session_step hs
  cases hr with
  | silent hsent hframe hstatus =>
    have hsends := isQuery_sends hq
    rw [hsent] at hsends
    cases hsends
  | accepted canId cmd hsent hok hstatus hframe => exact hno hok
  | refused canId cmd hsent _ hstatus hframe =>
    have hsends : sendsFrame r.cmdId = true := by rw [hid, ← sentBy_isSome, hsent]; rfl
    exact (ht.refused r (by simp) hsends hframe).1 (hstatus.mpr hq)

theorem truthful_start : Truthful sessionStart := ⟨rfl, rfl, by simp [sessionStart]⟩

/-- **Command accounting.** The counters tell the truth exactly when no query is made while the
module refuses frames. -/
theorem counters_truthful_iff (calls : List CommandCall) :
    sessionMachine.Always Truthful sessionStart calls ↔
      ∀ c ∈ calls, isQuery c.cmdId = true → sendable c.node = true := by
  rw [Machine.always_iff_eachStep (I := Truthful) (C := fun _ c => Sent c) (fun _ h => h)
    (fun _ _ _ h hc hs => h.step hc hs) (fun _ _ _ _ hc hs => hidden_refusal hc hs) truthful_start]
  exact Machine.eachStep_iff_forall session_total

/-- One LED query in configuration mode: nothing is sent and the command counts as executed. -/
theorem counters_truthful_query_refused :
    ¬ sessionMachine.Always Truthful sessionStart
      [{ cmdId := 3#8, cmdPayload := 0#32, stack := blankTxElement, node := canInit reset }] := by
  apply Machine.not_always_of_run
  decide

end CanNet

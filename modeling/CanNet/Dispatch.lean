import CanNet.Accounting

/-!
# CanNet.Dispatch

`cmd_process` over command tables of any length.

A table is expanded twice, into ids and into positions. `CmdDefTable` is a table whose ids are
consecutive and whose list is created with its first and last id; `cmdDispatch_eq` says that for
these dispatch by position is lookup by declared id, and `cmd_process_refines` carries that to
sequences of calls and adds the counters.
-/

namespace CanNet

/-- A command definition table as `CREATE_CMD_LIST` is used: START is the first id, END the last. -/
structure CmdDefTable (σ : Type) where
  entries : List (Word × CommandOps σ)
  startId : Word
  endId : Word
  first : entries.head?.map Prod.fst = some startId
  last : entries.getLast?.map Prod.fst = some endId
  consecutive : entries.IsChain fun a b => b.1.toNat = a.1.toNat + 1

namespace CmdDefTable

variable {σ : Type} (t : CmdDefTable σ)

def cmdList : CommandList σ := createCmdList t.entries t.startId t.endId

@[simp] theorem cmdList_startId : t.cmdList.startId = t.startId := rfl
@[simp] theorem cmdList_endId : t.cmdList.endId = t.endId := rfl
@[simp] theorem cmdList_elements : t.cmdList.elements = t.entries.map Prod.snd := rfl

/-- The entry declared for an id. -/
def declared (cmdId : Byte) : Option (CommandOps σ) :=
  (t.entries.find? fun e => e.1 == cmdId.setWidth 32).map Prod.snd

/-- Dispatch by declared id. -/
def dispatchSpec (cmdId : Byte) (cmdPayload : Word) (s : σ) : Option (StatusCode × σ) :=
  match t.declared cmdId with
  | some cmd => cmd.cmdFunc cmdPayload s
  | none => some (.operationInProgress, s)

end CmdDefTable

/-- The table of `conf_commands_module.h`. -/
def cmdModuleTable (stack : McanTxElement) : CmdDefTable Node where
  entries := cmdModuleDefTable stack
  startId := 0x00#32
  endId := 0x08#32
  first := rfl
  last := rfl
  consecutive := by simp [cmdModuleDefTable]

theorem cmdModuleTable_cmdList (stack : McanTxElement) :
    (cmdModuleTable stack).cmdList = cmdModuleList stack := rfl

/-! ## Ids and positions -/

theorem isChain_id {α : Type} {l : List (Word × α)} :
    ∀ {e : Word × α}, (e :: l).IsChain (fun a b => b.1.toNat = a.1.toNat + 1) →
      ∀ (i : Nat) (h : i < (e :: l).length), ((e :: l)[i]).1.toNat = e.1.toNat + i := by
  induction l with
  | nil =>
    intro e _ i h
    simp only [List.length_singleton] at h
    obtain rfl : i = 0 := by omega
    rfl
  | cons f l ih =>
    intro e hc i h
    obtain ⟨hf, hrest⟩ := List.isChain_cons_cons.mp hc
    cases i with
    | zero => rfl
    | succ i =>
      have := ih hrest i (by simpa using h)
      rw [List.getElem_cons_succ, this, hf]
      omega

namespace CmdDefTable

variable {σ : Type} (t : CmdDefTable σ)

/-- The id declared at position `i` is START plus `i`. -/
theorem entries_id {i : Nat} (h : i < t.entries.length) :
    (t.entries[i]).1.toNat = t.startId.toNat + i := by
  obtain ⟨entries, startId, endId, first, last, consecutive⟩ := t
  cases entries with
  | nil => simp at h
  | cons e l =>
    have hs : e.1 = startId := by simpa using first
    rw [isChain_id consecutive i h, hs]

theorem endId_toNat : t.entries.length ≠ 0 ∧
    t.endId.toNat = t.startId.toNat + (t.entries.length - 1) := by
  have hl := t.last
  cases hg : t.entries.getLast? with
  | none => simp [hg] at hl
  | some e =>
    simp only [hg, Option.map_some, Option.some.injEq] at hl
    rw [List.getLast?_eq_getElem?] at hg
    obtain ⟨hlt, he⟩ := List.getElem?_eq_some_iff.mp hg
    refine ⟨by omega, ?_⟩
    rw [← hl, ← he, t.entries_id hlt]

/-- The bounds check of `cmd_process` admits the declared ids, and the index it computes is the
position of the id. -/
theorem inside_iff (cmdId : Byte) :
    (t.cmdList.startId ≤ cmdId.setWidth 32 ∧ cmdId.setWidth 32 ≤ t.cmdList.endId) ↔
      ∃ i, i < t.entries.length ∧ (cmdId.setWidth 32 : Word).toNat = t.startId.toNat + i ∧
        (cmdId.setWidth 32 - t.cmdList.startId).toNat = i := by
  obtain ⟨hne, hend⟩ := t.endId_toNat
  rw [cmdList_startId, cmdList_endId, BitVec.le_def, BitVec.le_def, hend]
  constructor
  · rintro ⟨hlo, hhi⟩
    refine ⟨(cmdId.setWidth 32 : Word).toNat - t.startId.toNat, by omega, by omega, ?_⟩
    exact BitVec.toNat_sub_of_le (BitVec.le_def.mpr hlo)
  · rintro ⟨i, hi, hid, _⟩
    omega

theorem declared_at {cmdId : Byte} {i : Nat} (h : i < t.entries.length)
    (hid : (cmdId.setWidth 32 : Word).toNat = t.startId.toNat + i) :
    t.declared cmdId = some (t.entries[i]).2 := by
  have hfind : t.entries.find? (fun e => e.1 == cmdId.setWidth 32) = some t.entries[i] := by
    rw [List.find?_eq_some_iff_getElem]
    refine ⟨?_, i, h, rfl, fun j hj => ?_⟩
    · rw [beq_iff_eq, ← BitVec.toNat_inj, t.entries_id h, hid]
    · have hne : (t.entries[j]).1 ≠ cmdId.setWidth 32 := by
        rw [← BitVec.toNat_ne_iff_ne, t.entries_id (by omega), hid]
        omega
      simpa using hne
  rw [declared, hfind]
  rfl

theorem declared_outside {cmdId : Byte}
    (h : ∀ i, i < t.entries.length → (cmdId.setWidth 32 : Word).toNat ≠ t.startId.toNat + i) :
    t.declared cmdId = none := by
  have hfind : t.entries.find? (fun e => e.1 == cmdId.setWidth 32) = none := by
    rw [List.find?_eq_none]
    intro e he
    obtain ⟨i, hi, rfl⟩ := List.mem_iff_getElem.mp he
    rw [beq_iff_eq, ← BitVec.toNat_inj, t.entries_id hi]
    exact fun heq => h i hi heq.symm
  rw [declared, hfind]
  rfl

/-- Dispatch by position is dispatch by declared id. -/
theorem cmdDispatch_eq (cmdId : Byte) (cmdPayload : Word) (s : σ) :
    cmdDispatch t.cmdList cmdId cmdPayload s = t.dispatchSpec cmdId cmdPayload s := by
  unfold cmdDispatch dispatchSpec
  by_cases hin : t.cmdList.startId ≤ cmdId.setWidth 32 ∧ cmdId.setWidth 32 ≤ t.cmdList.endId
  · obtain ⟨i, hi, hid, hidx⟩ := (t.inside_iff cmdId).mp hin
    rw [if_pos hin, t.declared_at hi hid]
    rw [hidx, cmdList_elements, List.getElem?_map, List.getElem?_eq_getElem hi]
    rfl
  · rw [if_neg hin, t.declared_outside]
    intro i hi hid
    apply hin
    rw [inside_iff]
    refine ⟨i, hi, hid, ?_⟩
    rw [cmdList_startId, BitVec.toNat_sub_of_le (BitVec.le_def.mpr (by omega))]
    omega

/-- The index computed behind the bounds check is a position of ELEMENTS. -/
theorem index_lt {cmdId : Byte}
    (h : t.cmdList.startId ≤ cmdId.setWidth 32 ∧ cmdId.setWidth 32 ≤ t.cmdList.endId) :
    (cmdId.setWidth 32 - t.cmdList.startId).toNat < t.cmdList.elements.length := by
  obtain ⟨i, hi, _, hidx⟩ := (t.inside_iff cmdId).mp h
  rw [hidx, cmdList_elements, List.length_map]
  exact hi

end CmdDefTable

/-! ## Sequences of calls -/

structure CmdCall where
  cmdId : Byte
  cmdPayload : Word

/-- The counters, the device the command functions act on, and each call's id and status. -/
structure CmdSession (σ : Type) where
  counters : CmdCounters
  device : σ
  log : List (Byte × StatusCode)

namespace CmdDefTable

variable {σ : Type} (t : CmdDefTable σ)

/-- Calls of `cmd_process`. A call is stuck only where its command function is undefined. -/
def processMachine : Machine (CmdSession σ) CmdCall where
  step u c :=
    match cmdProcess t.cmdList c.cmdId c.cmdPayload u.counters u.device with
    | none => none
    | some (status, counters, s) =>
      some { counters := counters, device := s, log := u.log ++ [(c.cmdId, status)] }

/-- Lookup by declared id, call after call. -/
def specMachine : Machine (σ × List (Byte × StatusCode)) CmdCall where
  step p c := (t.dispatchSpec c.cmdId c.cmdPayload p.1).map fun r => (r.2, p.2 ++ [(c.cmdId, r.1)])

end CmdDefTable

namespace CmdSession

variable {σ : Type}

/-- After `cmd_init`. -/
def start (s : σ) : CmdSession σ := { counters := cmdInit, device := s, log := [] }

def view (u : CmdSession σ) : σ × List (Byte × StatusCode) := (u.device, u.log)

end CmdSession

def isOk (r : Byte × StatusCode) : Bool := r.2 = .statusOk

/-- The id of the last call whose record satisfies `p`, 0 if there is none. -/
def lastId (p : Byte × StatusCode → Bool) (log : List (Byte × StatusCode)) : Byte :=
  ((log.filter p).getLast?.map Prod.fst).getD 0#8

/-- The counters say of the log what they are meant to say. -/
structure Accounted {σ : Type} (u : CmdSession σ) : Prop where
  executed : u.counters.executedCmds = BitVec.ofNat 32 (u.log.countP isOk)
  aborted : u.counters.abortedCmds = BitVec.ofNat 32 (u.log.countP fun r => !isOk r)
  lastExecuted : u.counters.lastExecutedId = lastId isOk u.log
  lastAborted : u.counters.lastAbortedId = lastId (fun r => !isOk r) u.log

theorem lastId_snoc (p : Byte × StatusCode → Bool) (log : List (Byte × StatusCode))
    (r : Byte × StatusCode) : lastId p (log ++ [r]) = if p r then r.1 else lastId p log := by
  cases h : p r <;> simp [lastId, List.filter_append, h]

namespace CmdDefTable

variable {σ : Type} (t : CmdDefTable σ)

/-- A call does what its dispatch does and accounts for the status that came back. -/
theorem process_step (u : CmdSession σ) (c : CmdCall) :
    t.processMachine.step u c =
      (t.dispatchSpec c.cmdId c.cmdPayload u.device).map fun r =>
        { counters := cmdAccount c.cmdId r.1 u.counters, device := r.2
          log := u.log ++ [(c.cmdId, r.1)] } := by
  simp only [processMachine, cmdProcess, t.cmdDispatch_eq]
  cases t.dispatchSpec c.cmdId c.cmdPayload u.device <;> rfl

theorem accounted_step {u u' : CmdSession σ} {c : CmdCall} (h : Accounted u)
    (hs : t.processMachine.step u c = some u') : Accounted u' := by
  rw [process_step, Option.map_eq_some_iff] at hs
  obtain ⟨⟨status, s⟩, _, rfl⟩ := hs
  have hok : status = .statusOk ↔ isOk (c.cmdId, status) = true := by simp [isOk]
  obtain ⟨hx, ha⟩ := cmdAccount_counts c.cmdId hok h.executed h.aborted
  refine ⟨hx, ha, ?_, ?_⟩
  · rw [lastId_snoc]
    by_cases hst : status = .statusOk
    · rw [cmdAccount, if_pos hst, if_pos (hok.mp hst)]
    · rw [cmdAccount, if_neg hst, if_neg (mt hok.mpr hst)]
      exact h.lastExecuted
  · rw [lastId_snoc]
    by_cases hst : status = .statusOk
    · rw [cmdAccount, if_pos hst, hok.mp hst]
      exact h.lastAborted
    · rw [cmdAccount, if_neg hst, Bool.eq_false_iff.mpr (mt hok.mpr hst)]
      rfl

theorem process_run (calls : List CmdCall) : ∀ u : CmdSession σ,
    (t.processMachine.run u calls).map CmdSession.view = t.specMachine.run u.view calls := by
  induction calls with
  | nil => intro u; rfl
  | cons c calls ih =>
    intro u
    simp only [Machine.run, process_step, specMachine, CmdSession.view]
    cases t.dispatchSpec c.cmdId c.cmdPayload u.device with
    | none => rfl
    | some r => exact ih _

end CmdDefTable

/-- **Dispatch.** `cmd_process` runs the function declared for the id, and nothing where no function
is declared; it never indexes ELEMENTS outside the table; a sequence of calls does to the device,
and returns, what lookup by id does; and the counters account for it at every point. -/
theorem cmd_process_refines {σ : Type} (t : CmdDefTable σ) :
    (∀ (cmdId : Byte) (cmdPayload : Word) (s : σ),
      cmdDispatch t.cmdList cmdId cmdPayload s =
        match t.declared cmdId with
        | some cmd => cmd.cmdFunc cmdPayload s
        | none => some (.operationInProgress, s)) ∧
    (∀ cmdId : Byte, t.cmdList.startId ≤ cmdId.setWidth 32 ∧ cmdId.setWidth 32 ≤ t.cmdList.endId →
      (cmdId.setWidth 32 - t.cmdList.startId).toNat < t.cmdList.elements.length) ∧
    ∀ (s : σ) (calls : List CmdCall),
      (t.processMachine.run (CmdSession.start s) calls).map CmdSession.view =
        t.specMachine.run (s, []) calls ∧
      t.processMachine.Always Accounted (CmdSession.start s) calls := by
  refine ⟨t.cmdDispatch_eq, fun _ h => t.index_lt h, fun s calls => ⟨t.process_run calls _, ?_⟩⟩
  have h0 : Accounted (CmdSession.start s) := ⟨rfl, rfl, rfl, rfl⟩
  exact Machine.always_of_invariant (fun _ _ _ h hs => t.accounted_step h hs) h0

end CanNet

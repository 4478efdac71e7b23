import CanNet.Node

/-!
# CanNet.Reports

What a run of the interrupt handler prints of the frames it services.

Each of the three receive branches chooses its own bound for the print loop. `report_exact_iff`
says for which frames the printed bytes are the frame's payload.
-/

namespace CanNet

open Bits

/-! ## The observations of one run -/

def bufferReports (s : Node) : List Obs :=
  if has s.mcan.ir mcanRxBufferNewMessage then (rxBufferScanned s).2.map (bufferReport s.mcan)
  else []

def fifo0Reports (s : Node) : List Obs :=
  if has s.mcan.ir mcanRxFifo0NewMessage then
    [fifo0Report (s.mcan.fifo0.cells s.standardReceiveIndex)]
  else []

def fifo1Reports (s : Node) : List Obs :=
  if has s.mcan.ir mcanRxFifo1NewMessage then
    [fifo1Report (s.mcan.fifo1.cells s.extendedReceiveIndex)]
  else []

def errorMessages (s : Node) : List Obs :=
  (if has s.mcan.ir mcanAcknowledgeError || has s.mcan.ir mcanFormatError then
    [.message "Protocol error, please double check the clock in two boards. \r\n\r\n"] else []) ++
  (if has s.mcan.ir mcanBusOff then
    [.message ": MCAN bus off error, re-initialization. \r\n\r\n"] else [])

theorem guarded_trace {branch : Node → Node} {s : Node} {l : List Obs}
    (h : (branch s).trace = s.trace ++ l) (b : Bool) :
    (guarded b branch s).trace = s.trace ++ if b then l else [] := by
  cases b with
  | false => simp
  | true => exact h

theorem handler_trace {s : Node} (hw : s.hw = .mcan1) :
    (mcan1Int0Handler s).trace =
      s.trace ++ (bufferReports s ++ fifo0Reports s ++ fifo1Reports s ++ errorMessages s) := by
  rw [mcan1Int0Handler_eq]
  obtain ⟨hw1, hf0, hf1, hi0, hi1⟩ :=
    guarded_rxBufferBranch_keeps hw (has s.mcan.ir mcanRxBufferNewMessage)
  generalize h1 : guarded (has s.mcan.ir mcanRxBufferNewMessage) rxBufferBranch s = s1
    at hw1 hf0 hf1 hi0 hi1
  have ht1 : s1.trace = s.trace ++ bufferReports s := by
    rw [← h1, guarded_trace (by rw [rxBufferBranch_eq hw])]
    rfl
  obtain ⟨hw2, hf1', hi1'⟩ := guarded_fifo0Branch_keeps hw1 (has s.mcan.ir mcanRxFifo0NewMessage)
  generalize h2 : guarded (has s.mcan.ir mcanRxFifo0NewMessage) fifo0Branch s1 = s2
    at hw2 hf1' hi1'
  have ht2 : s2.trace = s1.trace ++ fifo0Reports s := by
    rw [← h2, guarded_trace (by rw [fifo0Branch_eq hw1]), hf0, hi0]
    rfl
  generalize h3 : guarded (has s.mcan.ir mcanRxFifo1NewMessage) fifo1Branch s2 = s3
  have ht3 : s3.trace = s2.trace ++ fifo1Reports s := by
    rw [← h3, guarded_trace (by rw [fifo1Branch_eq hw2]), hf1', hi1', hf1, hi1]
    rfl
  have hprotocol : (protocolErrorBranch s3).trace = s3.trace ++
      [.message "Protocol error, please double check the clock in two boards. \r\n\r\n"] := rfl
  rw [guarded_trace (busOffBranch_trace _), guarded_trace hprotocol, ht3, ht2, ht1]
  simp only [errorMessages, List.append_assoc]

/-- What one run of the handler adds to the trace. -/
def newObs (s : Node) : List Obs := (mcan1Int0Handler s).trace.drop s.trace.length

theorem newObs_eq {s : Node} (hw : s.hw = .mcan1) :
    newObs s = bufferReports s ++ fifo0Reports s ++ fifo1Reports s ++ errorMessages s := by
  rw [newObs, handler_trace hw, List.drop_left]

/-! ## Payloads -/

/-- The bytes of a stored frame: as many as its DLC denotes, up to the size of the data field. -/
def McanRxElement.payload (e : McanRxElement) : List Byte :=
  e.data.toList.take (min confMcanElementDataSize (dlcBytes e.edl e.dlc))

/-- The number of bytes a branch prints. -/
def printCount (dest : RxDest) (e : McanRxElement) : Nat :=
  match dest with
  | .fifo0 => if e.edl then confMcanElementDataSize else e.dlc.toNat
  | .buffer _ | .fifo1 => confMcanElementDataSize

theorem printData_eq_take {e : McanRxElement} {n : Nat} (h : n ≤ confMcanElementDataSize) :
    printData e n = (e.data.toList.take n).map some := by
  apply List.ext_getElem?
  intro i
  by_cases hi : i < n
  · have hi8 : i < e.data.toList.length := by
      rw [Vector.length_toList]
      exact Nat.lt_of_lt_of_le hi h
    simp only [printData, List.getElem?_map, List.getElem?_range hi, List.getElem?_take_of_lt hi,
      List.getElem?_eq_getElem hi8, Option.map_some, ← Vector.getElem?_toList]
  · rw [List.getElem?_eq_none, List.getElem?_eq_none]
    · rw [List.length_map, List.length_take]
      omega
    · simp only [printData, List.length_map, List.length_range]
      omega

theorem payload_length (e : McanRxElement) :
    e.payload.length = min confMcanElementDataSize (dlcBytes e.edl e.dlc) := by
  rw [McanRxElement.payload, List.length_take, Vector.length_toList]
  omega

/-- Printing `n` bytes prints the payload exactly if `n` is its length. -/
theorem printData_eq_payload {e : McanRxElement} {n : Nat} :
    printData e n = e.payload.map some ↔
      n = min confMcanElementDataSize (dlcBytes e.edl e.dlc) := by
  constructor
  · intro h
    have hlen := congrArg List.length h
    rw [List.length_map, payload_length] at hlen
    simpa [printData] using hlen
  · rintro rfl
    rw [printData_eq_take (Nat.min_le_left _ _)]
    rfl

/-! ## Which reports are exact -/

/-- The frames a run of the handler services: the lowest flagged Rx buffer, and in each FIFO the
element at the driver's own index. -/
inductive Serviced (s : Node) : RxDest → McanRxElement → Prop
  | buffer (k : Nat) (hir : has s.mcan.ir mcanRxBufferNewMessage = true)
      (hk : k < confMcan0RxBufferNum) (hflag : mcanRxGetBufferStatus s.mcan.newData k = true)
      (hlow : ∀ j, j < k → mcanRxGetBufferStatus s.mcan.newData j = false) :
      Serviced s (.buffer k) (s.mcan.rxBuffer k)
  | fifo0 (hir : has s.mcan.ir mcanRxFifo0NewMessage = true) :
      Serviced s .fifo0 (s.mcan.fifo0.cells s.standardReceiveIndex)
  | fifo1 (hir : has s.mcan.ir mcanRxFifo1NewMessage = true) :
      Serviced s .fifo1 (s.mcan.fifo1.cells s.extendedReceiveIndex)

/-- The run reports the frame, and what it prints are bytes of the element and the payload. -/
def ReportedExactly (s : Node) (dest : RxDest) (e : McanRxElement) : Prop :=
  (∃ header printed, Obs.copied dest e header printed ∈ newObs s) ∧
  ∀ header printed, Obs.copied dest e header printed ∈ newObs s →
    (∀ b, b ∈ printed → b ≠ none) ∧ printed = e.payload.map some

/-- The DLC reaches the bound of the branch's print loop; in FIFO 0 the DLC of a classic frame is
that bound and must not exceed the data field. -/
def Fits (dest : RxDest) (e : McanRxElement) : Prop :=
  match dest with
  | .fifo0 => if e.edl then 8 ≤ e.dlc.toNat else e.dlc.toNat ≤ 8
  | .buffer _ | .fifo1 => 8 ≤ e.dlc.toNat

theorem dlcBytes_ge (fdf : Bool) (dlc : BitVec 4) : 8 ≤ dlcBytes fdf dlc ↔ 8 ≤ dlc.toNat := by
  revert fdf dlc
  decide

theorem fits_iff (dest : RxDest) (e : McanRxElement) :
    printCount dest e = min confMcanElementDataSize (dlcBytes e.edl e.dlc) ↔ Fits dest e := by
  have hge := dlcBytes_ge e.edl e.dlc
  have hfull : confMcanElementDataSize = min confMcanElementDataSize (dlcBytes e.edl e.dlc) ↔
      8 ≤ e.dlc.toNat := by
    rw [← hge]
    show 8 = min 8 _ ↔ _
    omega
  cases dest with
  | buffer k => exact hfull
  | fifo1 => exact hfull
  | fifo0 =>
    cases hedl : e.edl with
    | true => simpa only [printCount, Fits, hedl, if_true] using hfull
    | false =>
      simp only [printCount, Fits, hedl, Bool.false_eq_true, if_false, dlcBytes]
      show e.dlc.toNat = min 8 _ ↔ _
      omega

/-- A report prints as many bytes as its branch counts to. -/
theorem printed_eq {s : Node} (hw : s.hw = .mcan1) {dest : RxDest} {e : McanRxElement}
    {header : String} {printed : List (Option Byte)}
    (h : Obs.copied dest e header printed ∈ newObs s) : printed = printData e (printCount dest e) := by
  rw [newObs_eq hw] at h
  simp only [List.mem_append] at h
  rcases h with ((h | h) | h) | h
  · simp only [bufferReports] at h
    split at h
    · obtain ⟨k, _, hk⟩ := List.mem_map.mp h
      cases hk
      rfl
    · cases h
  · simp only [fifo0Reports] at h
    split at h
    · cases List.mem_singleton.mp h
      rfl
    · cases h
  · simp only [fifo1Reports] at h
    split at h
    · cases List.mem_singleton.mp h
      rfl
    · cases h
  · simp only [errorMessages, List.mem_append] at h
    rcases h with h | h <;> split at h <;> simp at h

/-- Every serviced frame is reported. -/
theorem serviced_reported {s : Node} (hw : s.hw = .mcan1) {dest : RxDest} {e : McanRxElement}
    (h : Serviced s dest e) : ∃ header printed, Obs.copied dest e header printed ∈ newObs s := by
  rw [newObs_eq hw]
  simp only [List.mem_append]
  cases h with
  | buffer k hir hk hflag hlow =>
    have hscan : (rxBufferScanned s).2 = [k] := by
      rw [rxBufferScanned, rxBufferScan_first (by decide) hk hflag k 0 (by omega)
        fun j _ hj => hlow j hj]
    have hin : bufferReport s.mcan k ∈ bufferReports s := by
      rw [bufferReports, if_pos hir, hscan]
      exact List.mem_singleton.mpr rfl
    exact ⟨_, _, .inl (.inl (.inl hin))⟩
  | fifo0 hir =>
    have hin : fifo0Report (s.mcan.fifo0.cells s.standardReceiveIndex) ∈ fifo0Reports s := by
      rw [fifo0Reports, if_pos hir]
      exact List.mem_singleton.mpr rfl
    exact ⟨_, _, .inl (.inl (.inr hin))⟩
  | fifo1 hir =>
    have hin : fifo1Report (s.mcan.fifo1.cells s.extendedReceiveIndex) ∈ fifo1Reports s := by
      rw [fifo1Reports, if_pos hir]
      exact List.mem_singleton.mpr rfl
    exact ⟨_, _, .inl (.inr hin)⟩

/-- **Reports.** A serviced frame is reported with exactly its payload if and only if its DLC fits
the print loop of the branch that services it. -/
theorem report_exact_iff {s : Node} (hw : s.hw = .mcan1) {dest : RxDest} {e : McanRxElement}
    (h : Serviced s dest e) : ReportedExactly s dest e ↔ Fits dest e := by
  obtain ⟨header, printed, hmem⟩ := serviced_reported hw h
  rw [← fits_iff, ← printData_eq_payload]
  constructor
  · rintro ⟨_, hall⟩
    rw [← printed_eq hw hmem]
    exact (hall header printed hmem).2
  · intro heq
    refine ⟨⟨header, printed, hmem⟩, fun header' printed' hmem' => ?_⟩
    have hp : printed' = e.payload.map some := by rw [printed_eq hw hmem', heq]
    refine ⟨fun b hb => ?_, hp⟩
    rw [hp] at hb
    obtain ⟨c, _, rfl⟩ := List.mem_map.mp hb
    simp

/-- A classic frame with a given DLC. -/
def classicFrame (dlc : BitVec 4) : McanRxElement where
  r0 := 0x469#32 <<< 18
  r1 := setField 16 0#32 dlc
  data := #v[1#8, 2#8, 3#8, 4#8, 5#8, 6#8, 7#8, 8#8]

/-- The node after start-up with a frame in FIFO 0. -/
def holdingInFifo0 (e : McanRxElement) : Node := (boot reset).onMcan (Mcan.storeFifo0 e)

def holdingInBuffer (e : McanRxElement) : Node := (boot reset).onMcan (Mcan.storeRxBuffer 0 e)

theorem report_exact_three :
    ReportedExactly (holdingInFifo0 (classicFrame 3#4)) .fifo0 (classicFrame 3#4) :=
  (report_exact_iff (s := holdingInFifo0 (classicFrame 3#4)) rfl (.fifo0 (by decide))).mpr
    (by simp only [Fits]; decide)

/-- A classic frame with DLC 9 in FIFO 0 is read past its data field, and one with DLC 2 in an
Rx buffer is printed with six bytes that are not part of it. -/
theorem report_exact_nine :
    ¬ ReportedExactly (holdingInFifo0 (classicFrame 9#4)) .fifo0 (classicFrame 9#4) ∧
      ¬ ReportedExactly (holdingInBuffer (classicFrame 2#4)) (.buffer 0) (classicFrame 2#4) := by
  constructor
  · rintro ⟨⟨header, printed, hmem⟩, hall⟩
    have hp := (hall header printed hmem).2
    rw [printed_eq rfl hmem, printData_eq_payload] at hp
    exact absurd hp (by decide)
  · rintro ⟨⟨header, printed, hmem⟩, hall⟩
    have hp := (hall header printed hmem).2
    rw [printed_eq rfl hmem, printData_eq_payload] at hp
    exact absurd hp (by decide)

end CanNet

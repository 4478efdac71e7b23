import CanNet.Driver

/-!
# CanNet.Controller

`can_controller.c` without the interrupt handler: start-up, acceptance filters and transmission.

A transmit function works on a local `tx_element` whose data bytes are whatever the stack holds;
that initial content is the argument `txElement`. `none` is undefined behaviour: a store outside
`tx_element.data`, or a read past the end of the caller's array.
-/

namespace CanNet

open Bits

/-! ## Start-up -/

/-- `mcan_set_baudrate` is given the address of the module instance where it expects the
peripheral's, so it writes no register of MCAN1 but memory behind the instance; what lies there
is up to the linker and is not modelled. -/
def canInit (s : Node) : Node := mcanInit .mcan1 mcanGetConfigDefaults s

def canEnableIrq (s : Node) : Node :=
  mcanEnableInterrupt
    (mcanFormatError ||| mcanAcknowledgeError ||| mcanBusOff ||| mcanRxBufferNewMessage) s

def canDisableIrq (s : Node) : Node :=
  mcanDisableInterrupt (mcanFormatError ||| mcanAcknowledgeError ||| mcanBusOff) s

def canStart (s : Node) : Node := canEnableIrq (mcanStart s)

def canStop (s : Node) : Node := canDisableIrq (mcanStop s)

/-! ## Acceptance filters -/

def canSetRxStandardBufferFilter (idValue bufferIdx : Word) (idx : Nat) (s : Node) : Node :=
  let sdFilter := mcanGetStandardMessageFilterElementDefault
  let sdFilter := setField 0 sdFilter (bufferIdx.setWidth 11)
  let sdFilter := setField 16 sdFilter (idValue.setWidth 11)
  let sdFilter := setField 27 sdFilter 7#3
  mcanEnableInterrupt mcanRxBufferNewMessage (mcanSetRxStandardFilter sdFilter idx s).2

def canSetRxStandardFifoFilter (idValue : Word) (idx : Nat) (s : Node) : Node :=
  let sdFilter := mcanGetStandardMessageFilterElementDefault
  let sdFilter := setField 16 sdFilter (idValue.setWidth 11)
  mcanEnableInterrupt mcanRxFifo0NewMessage (mcanSetRxStandardFilter sdFilter idx s).2

def canSetRxExtendedBufferFilter (idValue bufferIdx : Word) (idx : Nat) (s : Node) : Node :=
  let (f0, f1) := mcanGetExtendedMessageFilterElementDefault
  let f0 := setField 0 f0 (idValue.setWidth 29)
  let f0 := setField 29 f0 7#3
  let f1 := setField 0 f1 (bufferIdx.setWidth 29)
  mcanEnableInterrupt mcanRxBufferNewMessage (mcanSetRxExtendedFilter (f0, f1) idx s).2

def canSetRxExtendedFifoFilter (idValue : Word) (idx : Nat) (s : Node) : Node :=
  let (f0, f1) := mcanGetExtendedMessageFilterElementDefault
  let f0 := setField 0 f0 (idValue.setWidth 29)
  mcanEnableInterrupt mcanRxFifo1NewMessage (mcanSetRxExtendedFilter (f0, f1) idx s).2

/-! ## Transmission -/

def canLengthToDlc (length : Byte) : Byte :=
  if length ≤ 8#8 then length
  else if length ≤ 12#8 then 0x9#8
  else if length ≤ 16#8 then 0xA#8
  else if length ≤ 20#8 then 0xB#8
  else if length ≤ 24#8 then 0xC#8
  else if length ≤ 32#8 then 0xD#8
  else if length ≤ 48#8 then 0xE#8
  else 0xF#8

/-- `none` when the index is outside the table. -/
def canDlcToLength (dlc : Byte) : Option Byte :=
  [0#8, 1#8, 2#8, 3#8, 4#8, 5#8, 6#8, 7#8, 8#8, 12#8, 16#8, 20#8, 24#8, 32#8, 48#8, 64#8][dlc.toNat]?

/-- The table is the one the controller reads a DLC of an FD frame with. -/
theorem canDlcToLength_eq (dlc : BitVec 4) :
    canDlcToLength (dlc.setWidth 8) = some (BitVec.ofNat 8 (dlcBytes true dlc)) := by
  revert dlc
  decide

/-- `tx_element.data[i] = *data; data++;` for `k` rounds, starting at index `i`. -/
def copyBytes {n : Nat} (i : Nat) : Nat → List Byte → Vector Byte n → Option (Vector Byte n)
  | 0, _, buf => some buf
  | _ + 1, [], _ => none
  | k + 1, b :: data, buf => if h : i < n then copyBytes (i + 1) k data (buf.set i b) else none

def standardId (idValue : Word) : Word := (0x7FF#32 <<< 18) &&& (idValue <<< 18)
def extendedId (idValue : Word) : Word := 0x1FFFFFFF#32 &&& idValue

def canTxMessage (idValue : Word) (length : Byte) (data : List Byte) (txElement : McanTxElement)
    (s : Node) : Option (StatusCode × Node) :=
  let txElement := mcanGetTxBufferElementDefaults txElement
  let t0 := txElement.t0 ||| standardId idValue
  let t1 := setField 16 txElement.t1 ((canLengthToDlc length).setWidth 4)
  match copyBytes 0 length.toNat data txElement.data with
  | none => none
  | some buf =>
    let (ret, s) := mcanSetTxBufferElement { t0 := t0, t1 := t1, data := buf } mcanTxBufferIndex s
    if ret = .statusOk then some (mcanTxTransferRequest (1#32 <<< mcanTxBufferIndex) s)
    else some (ret, s)

/-- The common tail of the three functions below: both status codes are ignored. -/
def setAndRequest (txElement : McanTxElement) (s : Node) : Node :=
  let (_, s) := mcanSetTxBufferElement txElement mcanTxBufferIndex s
  (mcanTxTransferRequest (1#32 <<< mcanTxBufferIndex) s).2

def canTxStandardMessage (idValue : Word) (data : List Byte) (txElement : McanTxElement)
    (s : Node) : Option Node :=
  let txElement := mcanGetTxBufferElementDefaults txElement
  let t0 := txElement.t0 ||| standardId idValue
  let t1 := setField 16 txElement.t1 8#4
  match copyBytes 0 8 data txElement.data with
  | none => none
  | some buf => some (setAndRequest { t0 := t0, t1 := t1, data := buf } s)

def canFdTxStandardMessage (idValue : Word) (data : List Byte) (txElement : McanTxElement)
    (s : Node) : Option Node :=
  let txElement := mcanGetTxBufferElementDefaults txElement
  let t0 := txElement.t0 ||| standardId idValue
  let t1 := (0xF#32 <<< 16) ||| (1#32 <<< 21) ||| (1#32 <<< 20)
  match copyBytes 0 confMcanElementDataSize data txElement.data with
  | none => none
  | some buf => some (setAndRequest { t0 := t0, t1 := t1, data := buf } s)

def canFdTxExtendedMessage (idValue : Word) (data : List Byte) (txElement : McanTxElement)
    (s : Node) : Option Node :=
  let txElement := mcanGetTxBufferElementDefaults txElement
  let t0 := txElement.t0 ||| (extendedId idValue ||| (1#32 <<< 30))
  let t1 := (1#32 <<< 23) ||| (0xF#32 <<< 16) ||| (1#32 <<< 21) ||| (1#32 <<< 20)
  match copyBytes 0 confMcanElementDataSize data txElement.data with
  | none => none
  | some buf => some (setAndRequest { t0 := t0, t1 := t1, data := buf } s)

/-! ## What `can_tx_message` does -/

theorem copyBytes_some {n : Nat} : ∀ {k i : Nat} {data : List Byte} {buf buf' : Vector Byte n},
    i ≤ n → copyBytes i k data buf = some buf' →
      k ≤ data.length ∧ i + k ≤ n ∧
        buf'.toList.take (i + k) = buf.toList.take i ++ data.take k := by
  intro k
  induction k with
  | zero =>
    intro i data buf buf' hi h
    cases h
    simp [hi]
  | succ k ih =>
    intro i data buf buf' hi h
    cases data with
    | nil => cases h
    | cons b data =>
      simp only [copyBytes] at h
      split at h
      · rename_i hin
        obtain ⟨hk, hn, ht⟩ := ih hin h
        refine ⟨by simp; omega, by omega, ?_⟩
        have hlen : buf.toList.length = n := by simp
        rw [show i + (k + 1) = i + 1 + k by omega, ht, Vector.toList_set, List.take_succ_cons,
          List.take_set, List.set_eq_take_append_cons_drop, if_pos (by simp; omega), List.take_take,
          Nat.min_eq_left (by omega)]
        simp
      · cases h

theorem copyBytes_isSome {n : Nat} : ∀ {k i : Nat} {data : List Byte} (buf : Vector Byte n),
    k ≤ data.length → i + k ≤ n → ∃ buf', copyBytes i k data buf = some buf' := by
  intro k
  induction k with
  | zero => intro i data buf _ _; exact ⟨buf, rfl⟩
  | succ k ih =>
    intro i data buf hk hn
    cases data with
    | nil => simp at hk
    | cons b data =>
      simp only [List.length_cons] at hk
      simp only [copyBytes, show i < n by omega, dif_pos]
      exact ih _ (by omega) (by omega)

/-- The frame a call of `can_tx_message` asks for. -/
def callFrame (idValue : Word) (length : Byte) (data : List Byte) : TxFrame where
  extended := false
  id := (idValue.setWidth 11).setWidth 29
  rtr := false
  fdf := false
  brs := false
  dlc := length.setWidth 4
  data := data.take length.toNat

/-- The element `can_tx_message` builds around the bytes it has copied. -/
def messageElement (idValue : Word) (length : Byte) (txElement : McanTxElement)
    (buf : Vector Byte confMcanElementDataSize) : McanTxElement where
  t0 := (mcanGetTxBufferElementDefaults txElement).t0 ||| standardId idValue
  t1 := setField 16 (mcanGetTxBufferElementDefaults txElement).t1
    ((canLengthToDlc length).setWidth 4)
  data := buf

theorem standardId_field (idValue : Word) : field 18 11 (standardId idValue) = idValue.setWidth 11 := by
  apply BitVec.eq_of_getLsbD_eq
  intro i hi
  rw [getLsbD_field, BitVec.getLsbD_setWidth, standardId, BitVec.getLsbD_and,
    BitVec.getLsbD_shiftLeft, BitVec.getLsbD_shiftLeft]
  have h1 : (0x7FF#32).getLsbD i = true := by
    have : ∀ i, i < 11 → (0x7FF#32).getLsbD i = true := by decide
    exact this i hi
  simp [hi, h1, show 18 + i < 32 by omega]

theorem standardId_high (idValue : Word) {i : Nat} (h : 29 ≤ i) :
    (standardId idValue).getLsbD i = false := by
  rw [standardId, BitVec.getLsbD_and, BitVec.getLsbD_shiftLeft]
  have h1 : (0x7FF#32).getLsbD (i - 18) = false :=
    Nat.testBit_lt_two_pow (Nat.lt_of_lt_of_le (by decide : (0x7FF#32).toNat < 2 ^ 11)
      (Nat.pow_le_pow_right (by decide) (by omega)))
  simp [h1]

theorem messageElement_frame {idValue : Word} {length : Byte} {data : List Byte}
    {txElement : McanTxElement} {buf : Vector Byte confMcanElementDataSize}
    (h : copyBytes 0 length.toNat data txElement.data = some buf) :
    (messageElement idValue length txElement buf).frame = callFrame idValue length data := by
  obtain ⟨_, hn, ht⟩ := copyBytes_some (Nat.zero_le _) h
  simp only [Nat.zero_add, List.take_zero, List.nil_append] at hn ht
  have hle : length ≤ 8#8 := BitVec.le_def.mpr hn
  have ht0 : (messageElement idValue length txElement buf).t0 = standardId idValue := by
    simp [messageElement, mcanGetTxBufferElementDefaults]
  have h30 := standardId_high idValue (i := 30) (by decide)
  have h29 := standardId_high idValue (i := 29) (by decide)
  have hdlc : field 16 4 (messageElement idValue length txElement buf).t1 = length.setWidth 4 := by
    rw [messageElement, field_setField_same 16 _ _ (by decide), canLengthToDlc, if_pos hle]
  have ht1 : (mcanGetTxBufferElementDefaults txElement).t1 = (1#32 <<< 23) ||| (8#32 <<< 16) := rfl
  have h21 : (messageElement idValue length txElement buf).t1.getLsbD 21 = false := by
    rw [messageElement, getLsbD_setField, if_neg (by decide), ht1]
    decide
  have h20 : (messageElement idValue length txElement buf).t1.getLsbD 20 = false := by
    rw [messageElement, getLsbD_setField, if_neg (by decide), ht1]
    decide
  have hbytes : dlcBytes false (length.setWidth 4) = length.toNat := by
    have : length.toNat ≤ 8 := hn
    simp only [dlcBytes, BitVec.toNat_setWidth]
    simp
    omega
  simp only [McanTxElement.frame, callFrame, ht0, h30, h29, hdlc, h21, h20, hbytes,
    standardId_field, if_false, Bool.false_eq_true]
  rw [← ht]
  rfl

/-- Everything a call of `can_tx_message` can do: write Tx buffer 0, and request its transmission
unless CCE is set. -/
theorem canTxMessage_some {idValue : Word} {length : Byte} {data : List Byte}
    {txElement : McanTxElement} {s : Node} {r : StatusCode × Node}
    (h : canTxMessage idValue length data txElement s = some r) :
    ∃ e : McanTxElement, e.frame = callFrame idValue length data ∧
      ((s.hw = .null ∧ r = (.errInvalidArg, s)) ∨
       (s.hw = .mcan1 ∧ s.mcan.cceBit = true ∧ r = (.errBusy, s.onMcan fun m =>
          { m with txBuffer := Function.update m.txBuffer 0 e })) ∨
       (s.hw = .mcan1 ∧ s.mcan.cceBit = false ∧ r = (.statusOk, (s.onMcan fun m =>
          { m with txBuffer := Function.update m.txBuffer 0 e
                   txbrp := m.txbrp ||| 1#32 }).emit (.txRequest 1#32)))) := by
  simp only [canTxMessage] at h
  split at h
  · cases h
  · rename_i buf hbuf
    refine ⟨messageElement idValue length txElement buf, messageElement_frame hbuf, ?_⟩
    cases hw : s.hw with
    | null =>
      simp only [mcanSetTxBufferElement, hw] at h
      cases h
      exact .inl ⟨rfl, rfl⟩
    | mcan1 =>
      simp only [mcanSetTxBufferElement, hw, if_true, mcanTxTransferRequest] at h
      cases hc : s.mcan.cceBit with
      | false =>
        rw [if_neg (by simpa [Mcan.cceBit] using hc)] at h
        cases h
        exact .inr (.inr ⟨rfl, rfl, rfl⟩)
      | true =>
        rw [if_pos (by simpa [Mcan.cceBit] using hc)] at h
        cases h
        exact .inr (.inl ⟨rfl, rfl, rfl⟩)

/-- The call is defined as long as its bytes fit the element and the caller's array. -/
theorem canTxMessage_isSome (idValue : Word) (length : Byte) {data : List Byte}
    (txElement : McanTxElement) (s : Node) (h8 : length.toNat ≤ confMcanElementDataSize)
    (hd : length.toNat ≤ data.length) :
    ∃ r, canTxMessage idValue length data txElement s = some r := by
  obtain ⟨buf, hbuf⟩ := copyBytes_isSome (mcanGetTxBufferElementDefaults txElement).data
    (i := 0) hd (by omega)
  simp only [canTxMessage, hbuf]
  split <;> exact ⟨_, rfl⟩

/-! ## What start-up does -/

/-- The transmit pause bit is the only CCCR bit the default configuration adds, and adding it
keeps the mode bits. -/
theorem has_or_txp (v : Word) :
    has (v ||| mcanCccrTxp) mcanCccrCce = has v mcanCccrCce ∧
      has (v ||| mcanCccrTxp) mcanCccrInit = has v mcanCccrInit :=
  ⟨has_or_of_disjoint (by decide), has_or_of_disjoint (by decide)⟩

/-- While INIT is set, `can_init` sets CCE, which resets both FIFOs and the transmit requests,
and then writes the configuration. -/
theorem canInit_of_init {s : Node} (h : s.mcan.initBit = true) :
    (canInit s).mcan = { s.mcan with
      cccr := s.mcan.cccr ||| mcanCccrCce ||| mcanCccrTxp
      gfc := 0x2B#32
      sidfcLss := confMcan1RxStandardIdFilterNum
      xidfcLse := confMcan1RxExtendedIdFilterNum
      xidam := 0x1FFFFFFF#32
      rxf0c := { size := confMcan1RxFifo0Num, overwrite := true, watermark := 0#8 }
      rxf1c := { size := confMcan1RxFifo1Num, overwrite := true, watermark := 0#8 }
      fifo0 := s.mcan.fifo0.clear
      fifo1 := s.mcan.fifo1.clear
      txbrp := 0#32 } := by
  have hc : has (s.mcan.cccr ||| mcanCccrCce) mcanCccrCce = true := has_or_self (by decide)
  have hi : has (s.mcan.cccr ||| mcanCccrCce) mcanCccrInit = true := by
    rw [has_or_of_disjoint (by decide)]; exact h
  have h' : has s.mcan.cccr mcanCccrInit = true := h
  obtain ⟨tc, ti⟩ := has_or_txp (s.mcan.cccr ||| mcanCccrCce)
  simp only [canInit, mcanInit, Node.onMcan_mcan, mcanMessageMemoryInit, mcanSetConfiguration,
    mcanGetConfigDefaults, orCccrIf, Mcan.writeCccr, Mcan.configure, Mcan.initBit, Mcan.cceBit,
    hc, hi, h', tc, ti, Bool.and_self, Bool.not_true, Bool.false_eq_true, if_true, if_false]
  rfl

@[simp] theorem canInit_hw (s : Node) : (canInit s).hw = .mcan1 := rfl
@[simp] theorem canInit_trace (s : Node) : (canInit s).trace = s.trace := rfl
@[simp] theorem canInit_standardReceiveIndex (s : Node) :
    (canInit s).standardReceiveIndex = s.standardReceiveIndex := rfl
@[simp] theorem canInit_extendedReceiveIndex (s : Node) :
    (canInit s).extendedReceiveIndex = s.extendedReceiveIndex := rfl

/-- Clearing INIT clears CCE with it; nothing is reset. -/
theorem canStart_mcan (s : Node) :
    (canStart s).mcan = { s.mcan with
      cccr := s.mcan.cccr &&& ~~~mcanCccrInit &&& ~~~mcanCccrCce
      ie := s.mcan.ie |||
        (mcanFormatError ||| mcanAcknowledgeError ||| mcanBusOff ||| mcanRxBufferNewMessage) } := by
  have h : ∀ v : Word, has (v &&& ~~~mcanCccrInit) mcanCccrInit = false := by simp
  simp only [canStart, canEnableIrq, mcanEnableInterrupt, mcanStart, Node.onMcan_mcan,
    Mcan.writeCccr, h, Bool.and_false, Bool.false_and]
  rfl

@[simp] theorem canStart_hw (s : Node) : (canStart s).hw = s.hw := rfl
@[simp] theorem canStart_trace (s : Node) : (canStart s).trace = s.trace := rfl
@[simp] theorem canStart_standardReceiveIndex (s : Node) :
    (canStart s).standardReceiveIndex = s.standardReceiveIndex := rfl
@[simp] theorem canStart_extendedReceiveIndex (s : Node) :
    (canStart s).extendedReceiveIndex = s.extendedReceiveIndex := rfl

@[simp] theorem canStart_initBit (s : Node) : (canStart s).mcan.initBit = false := by
  rw [canStart_mcan, Mcan.initBit, has_clear_of_disjoint (by decide)]
  exact has_clear_self _ _

@[simp] theorem canStart_cceBit (s : Node) : (canStart s).mcan.cceBit = false := by
  rw [canStart_mcan, Mcan.cceBit]
  exact has_clear_self _ _

end CanNet

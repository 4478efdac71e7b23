import CanNet.Node
import Mathlib.Algebra.Group.Nat.Defs

/-!
# CanNet.TxFrames

The four transmit functions against what they are asked to send.

A call is faithful if it stores only inside its element and, where it requests a transmission, the
frame in Tx buffer 0 carries the caller's identifier and only the caller's bytes.
`tx_faithful_iff` says which calls are.
-/

namespace CanNet

open Bits

/-! ## What a Tx buffer element describes -/

namespace McanTxElement

def xtd (e : McanTxElement) : Bool := e.t0.getLsbD 30
def rtr (e : McanTxElement) : Bool := e.t0.getLsbD 29
def brs (e : McanTxElement) : Bool := e.t1.getLsbD 20
def fdf (e : McanTxElement) : Bool := e.t1.getLsbD 21
def dlc (e : McanTxElement) : BitVec 4 := field 16 4 e.t1
def standardIdField (e : McanTxElement) : BitVec 11 := field 18 11 e.t0
def extendedIdField (e : McanTxElement) : BitVec 29 := field 0 29 e.t0

/-- The number of data bytes the element's DLC announces. -/
def announced (e : McanTxElement) : Nat := dlcBytes e.fdf e.dlc

/-- A data frame in classic standard format. -/
structure ClassicStandard (e : McanTxElement) : Prop where
  xtd : e.xtd = false
  rtr : e.rtr = false
  fdf : e.fdf = false
  brs : e.brs = false

end McanTxElement

/-- The fields of an element whose frame is the one a call of `can_tx_message` asks for. -/
theorem callFrame_fields {e : McanTxElement} {idValue : Word} {length : Byte} {data : List Byte}
    (h : e.frame = callFrame idValue length data) :
    e.ClassicStandard ∧ e.standardIdField = idValue.setWidth 11 ∧ e.dlc = length.setWidth 4 := by
  have hx : e.xtd = false := congrArg TxFrame.extended h
  have hid : (field 18 11 e.t0).setWidth 29 = (idValue.setWidth 11).setWidth 29 := by
    have hx' : e.t0.getLsbD 30 = false := hx
    have hframe := congrArg TxFrame.id h
    simp only [McanTxElement.frame, callFrame, hx', Bool.false_eq_true, if_false] at hframe
    exact hframe
  refine ⟨⟨hx, congrArg TxFrame.rtr h, congrArg TxFrame.fdf h, congrArg TxFrame.brs h⟩, ?_,
    congrArg TxFrame.dlc h⟩
  have := congrArg (BitVec.setWidth 11) hid
  rwa [BitVec.setWidth_setWidth_of_le _ (by omega), BitVec.setWidth_setWidth_of_le _ (by omega),
    BitVec.setWidth_eq, BitVec.setWidth_eq] at this

/-- Up to eight bytes, the DLC is the length and the data field holds the caller's bytes. -/
theorem callFrame_bytes {e : McanTxElement} {idValue : Word} {length : Byte} {data : List Byte}
    (h : e.frame = callFrame idValue length data) (h8 : length.toNat ≤ 8) :
    e.announced = length.toNat ∧ e.data.toList.take length.toNat = data.take length.toNat := by
  have hf : e.fdf = false := congrArg TxFrame.fdf h
  have hd : e.dlc = length.setWidth 4 := congrArg TxFrame.dlc h
  have hann : e.announced = length.toNat := by
    rw [McanTxElement.announced, hf, hd, dlcBytes, if_neg (by simp), BitVec.toNat_setWidth]
    omega
  refine ⟨hann, ?_⟩
  have hdata : e.data.toList.take e.announced = data.take length.toNat := congrArg TxFrame.data h
  rwa [hann] at hdata

/-- Where the bytes of an element agree with a list, they agree at every position. -/
theorem data_of_take {e : McanTxElement} {data : List Byte} {n i : Nat}
    (h : e.data.toList.take n = data.take n) (hi : i < n) : e.data[i]? = data[i]? := by
  have hget := congrArg (fun l : List Byte => l[i]?) h
  simp only [List.getElem?_take_of_lt hi] at hget
  rw [← Vector.getElem?_toList, hget]

/-- A call that is defined has stored inside its element and read inside the caller's array. -/
theorem canTxMessage_length {idValue : Word} {length : Byte} {data : List Byte}
    {txElement : McanTxElement} {s : Node} {r : StatusCode × Node}
    (h : canTxMessage idValue length data txElement s = some r) :
    length.toNat ≤ data.length ∧ length.toNat ≤ confMcanElementDataSize := by
  simp only [canTxMessage] at h
  split at h
  · cases h
  · rename_i buf hbuf
    obtain ⟨hd, hn, _⟩ := copyBytes_some (Nat.zero_le _) hbuf
    exact ⟨hd, by omega⟩

/-! ## The transmit functions -/

inductive TxEntry where
  | message (length : Byte)
  | standard
  | fdStandard
  | fdExtended

namespace TxEntry

/-- The call; a status is returned by `can_tx_message` only. -/
def call (entry : TxEntry) (idValue : Word) (data : List Byte) (txElement : McanTxElement)
    (s : Node) : Option (Option StatusCode × Node) :=
  match entry with
  | .message length => (canTxMessage idValue length data txElement s).map fun r => (some r.1, r.2)
  | .standard => (canTxStandardMessage idValue data txElement s).map fun s' => (none, s')
  | .fdStandard => (canFdTxStandardMessage idValue data txElement s).map fun s' => (none, s')
  | .fdExtended => (canFdTxExtendedMessage idValue data txElement s).map fun s' => (none, s')

def extended : TxEntry → Bool
  | .fdExtended => true
  | _ => false

/-- The bytes the caller hands over. -/
def payloadLength : TxEntry → Nat
  | .message length => length.toNat
  | .standard => 8
  | .fdStandard | .fdExtended => confMcanElementDataSize

end TxEntry

/-- The element carries the caller's identifier, every byte it announces is the caller's byte at
that position, and a payload with an explicit length is announced whole. -/
structure Carries (entry : TxEntry) (idValue : Word) (data : List Byte) (e : McanTxElement) :
    Prop where
  format : e.xtd = entry.extended
  standardId : entry.extended = false → e.standardIdField.toNat = idValue.toNat
  extendedId : entry.extended = true → e.extendedIdField.toNat = idValue.toNat
  bytes : ∀ i, i < e.announced → ∃ b, e.data[i]? = some b ∧ data[i]? = some b
  whole : ∀ length, entry = .message length → length.toNat ≤ e.announced

/-- Nothing is stored outside the element; either the requested frame carries what the caller
passed, or nothing is requested and `can_tx_message` does not report success. -/
def Faithful (entry : TxEntry) (idValue : Word) (data : List Byte) (txElement : McanTxElement)
    (s : Node) : Prop :=
  ∃ ret s', entry.call idValue data txElement s = some (ret, s') ∧
    ((s'.trace = s.trace ++ [.txRequest 1#32] ∧ Carries entry idValue data (s'.mcan.txBuffer 0)) ∨
      (s'.trace = s.trace ∧ ret ≠ some .statusOk))

/-! ## Classic frames -/

theorem carries_callFrame {entry : TxEntry} {idValue : Word} {length : Byte} {data : List Byte}
    {e : McanTxElement} (h : e.frame = callFrame idValue length data) (h8 : length.toNat ≤ 8)
    (hd : length.toNat ≤ data.length) (hx : entry.extended = false)
    (hid : idValue.toNat < 2 ^ 11) (hl : ∀ l, entry = .message l → l = length) :
    Carries entry idValue data e := by
  obtain ⟨hc, hidf, _⟩ := callFrame_fields h
  obtain ⟨hann, hbytes⟩ := callFrame_bytes h h8
  refine ⟨by rw [hc.xtd, hx], fun _ => ?_, fun h => ?_, fun i hi => ?_, fun l he => ?_⟩
  · rw [hidf, BitVec.toNat_setWidth, Nat.mod_eq_of_lt hid]
  · rw [hx] at h
    cases h
  · rw [hann] at hi
    have hi' : data[i]? = some data[i] := List.getElem?_eq_getElem (by omega)
    exact ⟨data[i], (data_of_take hbytes hi).trans hi', hi'⟩
  · rw [hann, hl l he]

/-- A defined call of `can_tx_message` is faithful. -/
theorem message_faithful {idValue : Word} {length : Byte} {data : List Byte}
    (txElement : McanTxElement) (s : Node) (hid : idValue.toNat < 2 ^ 11)
    (h8 : length.toNat ≤ confMcanElementDataSize) (hd : length.toNat ≤ data.length) :
    Faithful (.message length) idValue data txElement s := by
  obtain ⟨r, hr⟩ := canTxMessage_isSome idValue length txElement s h8 hd
  obtain ⟨e, he, hcase⟩ := canTxMessage_some hr
  refine ⟨some r.1, r.2, by simp [TxEntry.call, hr], ?_⟩
  rcases hcase with ⟨hw, rfl⟩ | ⟨hw, hc, rfl⟩ | ⟨hw, hc, rfl⟩
  · exact .inr ⟨rfl, by simp⟩
  · exact .inr ⟨rfl, by simp⟩
  · have hcarries : Carries (.message length) idValue data e :=
      carries_callFrame he h8 hd rfl hid fun l hl => by cases hl; rfl
    exact .inl ⟨rfl, by simpa using hcarries⟩

/-- `can_tx_standard_message` writes the element `can_tx_message` writes for eight bytes, and drops
the status. -/
theorem canTxStandardMessage_eq (idValue : Word) (data : List Byte) (txElement : McanTxElement)
    {s : Node} (hw : s.hw = .mcan1) :
    canTxStandardMessage idValue data txElement s =
      (canTxMessage idValue 8#8 data txElement s).map Prod.snd := by
  simp only [canTxStandardMessage, canTxMessage, setAndRequest, mcanSetTxBufferElement, hw, if_true]
  have h8 : (8#8).toNat = 8 := rfl
  rw [h8]
  cases copyBytes 0 8 data (mcanGetTxBufferElementDefaults txElement).data <;> rfl

theorem standard_faithful {idValue : Word} {data : List Byte} (txElement : McanTxElement)
    {s : Node} (hw : s.hw = .mcan1) (hid : idValue.toNat < 2 ^ 11) (hd : 8 ≤ data.length) :
    Faithful .standard idValue data txElement s := by
  obtain ⟨r, hr⟩ := canTxMessage_isSome idValue 8#8 txElement s (Nat.le_refl 8) hd
  obtain ⟨e, he, hcase⟩ := canTxMessage_some hr
  refine ⟨none, r.2, by simp [TxEntry.call, canTxStandardMessage_eq _ _ _ hw, hr], ?_⟩
  rcases hcase with ⟨hn, rfl⟩ | ⟨_, hc, rfl⟩ | ⟨_, hc, rfl⟩
  · rw [hw] at hn
    cases hn
  · exact .inr ⟨rfl, by simp⟩
  · have hcarries : Carries .standard idValue data e :=
      carries_callFrame he (Nat.le_refl 8) hd rfl hid fun l hl => by cases hl
    exact .inl ⟨rfl, by simpa using hcarries⟩

/-! ## FD frames -/

/-- An element cannot carry more bytes than its data field holds. -/
theorem not_carries {entry : TxEntry} {idValue : Word} {data : List Byte} {e : McanTxElement}
    (h : confMcanElementDataSize < e.announced) : ¬ Carries entry idValue data e := by
  intro hc
  obtain ⟨b, hb, _⟩ := hc.bytes confMcanElementDataSize h
  have hout : e.data[confMcanElementDataSize]? = none := Vector.getElem?_eq_none (Nat.le_refl _)
  rw [hout] at hb
  cases hb

theorem setAndRequest_cases (e : McanTxElement) {s : Node} (hw : s.hw = .mcan1) :
    (s.mcan.cceBit = true ∧ (setAndRequest e s).trace = s.trace) ∨
    (s.mcan.cceBit = false ∧ (setAndRequest e s).trace = s.trace ++ [.txRequest 1#32] ∧
      (setAndRequest e s).mcan.txBuffer 0 = e) := by
  have hset : mcanSetTxBufferElement e mcanTxBufferIndex s = (.statusOk, s.onMcan fun m =>
      { m with txBuffer := Function.update m.txBuffer 0 e }) := by
    simp only [mcanSetTxBufferElement, hw]
    rfl
  have hcce : (s.onMcan fun m =>
      { m with txBuffer := Function.update m.txBuffer 0 e }).mcan.cceBit = s.mcan.cceBit := rfl
  simp only [setAndRequest, hset, mcanTxTransferRequest, hcce]
  cases s.mcan.cceBit with
  | true => exact .inl ⟨rfl, rfl⟩
  | false => exact .inr ⟨rfl, rfl, rfl⟩

/-- A request for an element that announces more than it holds is never faithful. -/
theorem oversized_faithful_iff {entry : TxEntry} {idValue : Word} {data : List Byte}
    {txElement e : McanTxElement} {s : Node} (hw : s.hw = .mcan1)
    (hcall : entry.call idValue data txElement s = some (none, setAndRequest e s))
    (h : confMcanElementDataSize < e.announced) :
    Faithful entry idValue data txElement s ↔ s.mcan.cceBit = true := by
  constructor
  · rintro ⟨ret, s', hr, hcase⟩
    rw [hcall] at hr
    cases hr
    rcases setAndRequest_cases e hw with ⟨hc, _⟩ | ⟨_, htrace, hbuf⟩
    · exact hc
    · rcases hcase with ⟨_, hcarries⟩ | ⟨hnone, _⟩
      · rw [hbuf] at hcarries
        exact absurd hcarries (not_carries h)
      · rw [htrace] at hnone
        simp at hnone
  · intro hc
    rcases setAndRequest_cases e hw with ⟨_, htrace⟩ | ⟨hno, _⟩
    · exact ⟨none, _, hcall, .inr ⟨htrace, by simp⟩⟩
    · rw [hc] at hno
      cases hno

/-- Both FD functions announce 64 bytes. -/
theorem fdStandard_call (idValue : Word) {data : List Byte} (txElement : McanTxElement) (s : Node)
    (hd : confMcanElementDataSize ≤ data.length) : ∃ e : McanTxElement, e.announced = 64 ∧
      TxEntry.fdStandard.call idValue data txElement s = some (none, setAndRequest e s) := by
  obtain ⟨buf, hbuf⟩ := copyBytes_isSome txElement.data (i := 0) hd (Nat.le_refl _)
  refine ⟨{ t0 := standardId idValue, t1 := (0xF#32 <<< 16) ||| (1#32 <<< 21) ||| (1#32 <<< 20)
            data := buf }, ?_, ?_⟩
  · simp only [McanTxElement.announced, McanTxElement.fdf, McanTxElement.dlc]
    decide
  · simp only [TxEntry.call, canFdTxStandardMessage, mcanGetTxBufferElementDefaults,
      BitVec.zero_or, hbuf, Option.map_some]

theorem fdExtended_call (idValue : Word) {data : List Byte} (txElement : McanTxElement) (s : Node)
    (hd : confMcanElementDataSize ≤ data.length) : ∃ e : McanTxElement, e.announced = 64 ∧
      TxEntry.fdExtended.call idValue data txElement s = some (none, setAndRequest e s) := by
  obtain ⟨buf, hbuf⟩ := copyBytes_isSome txElement.data (i := 0) hd (Nat.le_refl _)
  refine ⟨{ t0 := extendedId idValue ||| (1#32 <<< 30)
            t1 := (1#32 <<< 23) ||| (0xF#32 <<< 16) ||| (1#32 <<< 21) ||| (1#32 <<< 20)
            data := buf }, ?_, ?_⟩
  · simp only [McanTxElement.announced, McanTxElement.fdf, McanTxElement.dlc]
    decide
  · simp only [TxEntry.call, canFdTxExtendedMessage, mcanGetTxBufferElementDefaults,
      BitVec.zero_or, hbuf, Option.map_some]

/-! ## Which calls are faithful -/

/-- At most eight bytes, and no FD frame that is really requested. -/
def TxEntry.Safe (entry : TxEntry) (s : Node) : Prop :=
  match entry with
  | .message length => length.toNat ≤ confMcanElementDataSize
  | .standard => True
  | .fdStandard | .fdExtended => s.mcan.cceBit = true

/-- **Transmission.** With an identifier that fits its frame type and a caller's array as long as
the payload, a call is faithful exactly when it is safe. -/
theorem tx_faithful_iff {entry : TxEntry} {idValue : Word} {data : List Byte}
    (txElement : McanTxElement) {s : Node} (hw : s.hw = .mcan1)
    (hid : idValue.toNat < if entry.extended then 2 ^ 29 else 2 ^ 11)
    (hd : entry.payloadLength ≤ data.length) :
    Faithful entry idValue data txElement s ↔ entry.Safe s := by
  cases entry with
  | message length =>
    constructor
    · rintro ⟨ret, s', hr, _⟩
      simp only [TxEntry.call, Option.map_eq_some_iff] at hr
      obtain ⟨r, hcall, _⟩ := hr
      exact (canTxMessage_length hcall).2
    · intro h8
      exact message_faithful txElement s hid h8 hd
  | standard =>
    constructor
    · intro _; trivial
    · intro _; exact standard_faithful txElement hw hid hd
  | fdStandard =>
    obtain ⟨e, ha, hcall⟩ := fdStandard_call idValue txElement s hd
    exact oversized_faithful_iff hw hcall (by rw [ha]; decide)
  | fdExtended =>
    obtain ⟨e, ha, hcall⟩ := fdExtended_call idValue txElement s hd
    exact oversized_faithful_iff hw hcall (by rw [ha]; decide)

/-- The caller of the subsystems: four bytes, right after start-up. -/
theorem tx_faithful_four :
    Faithful (.message 4#8) ss1CanId [2#8, 0#8, 0#8, 0#8] blankTxElement (boot reset) :=
  (tx_faithful_iff blankTxElement rfl (by decide) (by decide)).mpr (Nat.le_of_ble_eq_true rfl)

/-- Twelve bytes run over the element, and an FD frame of 64 bytes is sent with eight of them. -/
theorem tx_faithful_oversized :
    ¬ Faithful (.message 12#8) ss1CanId (List.replicate 12 0xFF#8) blankTxElement (boot reset) ∧
      ¬ Faithful .fdStandard ss1CanId (List.replicate 64 0xFF#8) blankTxElement (boot reset) := by
  constructor
  · rintro ⟨ret, s', hr, _⟩
    simp only [TxEntry.call, Option.map_eq_some_iff] at hr
    obtain ⟨r, hcall, _⟩ := hr
    have hlen : 12 ≤ 8 := (canTxMessage_length hcall).2
    omega
  · intro h
    have hd : confMcanElementDataSize ≤ (List.replicate 64 0xFF#8).length := by decide
    obtain ⟨e, ha, hcall⟩ := fdStandard_call ss1CanId blankTxElement (boot reset) hd
    have hcce := (oversized_faithful_iff rfl hcall (by rw [ha]; decide)).mp h
    have hboot : (boot reset).mcan.cceBit = false := by decide
    rw [hboot] at hcce
    cases hcce

end CanNet

import CanNet.Lib.Codec
import CanNet.Slave
import Mathlib.Data.Nat.Digits.Defs

/-!
# CanNet.Mega

The subsystem 1 program `SW_Arduino_MEGA.ino`: it prints every frame it receives, byte by byte, and
obeys none.

No filter is set, so what the controller lets in is what the library leaves after a reset: assumed
of it is that some filter compares nothing. The commented-out loop that sends is left out, and with
it the functions it calls. `received_round_trip` reads the printed text back.
-/

namespace CanNet

/-! ## The sketch -/

structure Mega where
  mcp2515 : Mcp2515
  rxMsg : CanFrame
  ledOutput : Bool
  led : Level
  serial : List Byte

/-- The characters of a text on the serial line. -/
def textBytes (text : String) : List Byte := text.toList.map fun c => BitVec.ofNat 8 c.toNat

def space : Byte := 0x20#8

def hexDigit (d : Nat) : Byte := BitVec.ofNat 8 (if d < 10 then 48 + d else 55 + d)

/-- `Serial.print(n, HEX)`: no leading zeros, upper case. -/
def hexText (n : Nat) : List Byte :=
  if n = 0 then [hexDigit 0] else (Nat.digits 16 n).reverse.map hexDigit

namespace Mega

def onMcp2515 (f : Mcp2515 → Mcp2515) (s : Mega) : Mega := { s with mcp2515 := f s.mcp2515 }

def print (bytes : List Byte) (s : Mega) : Mega := { s with serial := s.serial ++ bytes }

def pinMode (output : Bool) (s : Mega) : Mega := { s with ledOutput := output }

def digitalWrite (v : Level) (s : Mega) : Mega := if s.ledOutput then { s with led := v } else s

def setup (s : Mega) : Mega :=
  let s := s.onMcp2515 Mcp2515.reset
  let s := s.onMcp2515 Mcp2515.setNormalMode
  let s := s.pinMode true
  s.digitalWrite .high

def readMessage (s : Mega) : Mcp2515.Error × Mega :=
  match s.mcp2515.received with
  | [] => (.errorNomsg, s)
  | f :: rest =>
    (.errorOk, { s with mcp2515 := { s.mcp2515 with received := rest }, rxMsg := s.rxMsg.store f })

/-- The loop over the data bytes; `none` is an index outside the array. -/
def printData (msg : CanFrame) (s : Mega) : Option Mega :=
  (List.range msg.canDlc.toNat).foldlM (fun s i =>
    match msg.data.toList[i]? with
    | none => none
    | some b => some ((s.print [b]).print [space])) s

def loop (s : Mega) : Option Mega :=
  match s.readMessage with
  | (.errorOk, s) =>
    let s := s.print (textBytes "CAN ID: ")
    let s := s.print (hexText s.rxMsg.canId.toNat)
    let s := s.print (textBytes " ")
    let s := s.print (textBytes "CAN DLC: ")
    let s := s.print (hexText s.rxMsg.canDlc.toNat)
    let s := s.print (textBytes " ")
    let s := s.print (textBytes "CAN DATA: ")
    match s.printData s.rxMsg with
    | none => none
    | some s => some (s.print (textBytes "\r\n"))
  | (_, s) => some s

/-- A frame on the bus, and the pass of `loop` that finds it. -/
def step (s : Mega) (f : StdFrame) : Option Mega := loop (s.onMcp2515 (Mcp2515.offer f))

def machine : Machine Mega StdFrame where
  step := step

end Mega

/-! ## Numerals -/

def hexDigitValue (b : Byte) : Option Nat :=
  if 48 ≤ b.toNat ∧ b.toNat ≤ 57 then some (b.toNat - 48)
  else if 65 ≤ b.toNat ∧ b.toNat ≤ 70 then some (b.toNat - 55)
  else none

def hexValue (text : List Byte) : Option Nat :=
  (text.mapM hexDigitValue).map fun ds => Nat.ofDigits 16 ds.reverse

theorem hexDigitValue_hexDigit : ∀ d, d < 16 → hexDigitValue (hexDigit d) = some d := by decide

theorem hexDigit_ne_space : ∀ d, d < 16 → hexDigit d ≠ space := by decide

/-- The digits that are printed, most significant first. -/
def hexDigits (n : Nat) : List Nat := if n = 0 then [0] else (Nat.digits 16 n).reverse

theorem hexText_eq (n : Nat) : hexText n = (hexDigits n).map hexDigit := by
  unfold hexText hexDigits
  split <;> rfl

theorem hexDigits_lt {n d : Nat} (h : d ∈ hexDigits n) : d < 16 := by
  unfold hexDigits at h
  split at h
  · rw [List.mem_singleton.mp h]
    decide
  · exact Nat.digits_lt_base (by decide) (List.mem_reverse.mp h)

theorem ofDigits_hexDigits (n : Nat) : Nat.ofDigits 16 (hexDigits n).reverse = n := by
  unfold hexDigits
  split
  · rename_i h
    rw [h]
    rfl
  · rw [List.reverse_reverse, Nat.ofDigits_digits]

theorem mapM_hexDigitValue (ds : List Nat) (h : ∀ d ∈ ds, d < 16) :
    (ds.map hexDigit).mapM hexDigitValue = some ds := by
  induction ds with
  | nil => rfl
  | cons d ds ih =>
    have hd := hexDigitValue_hexDigit d (h d List.mem_cons_self)
    have hds := ih fun d' hd' => h d' (List.mem_cons_of_mem _ hd')
    simp [hd, hds]

theorem hexValue_hexText (n : Nat) : hexValue (hexText n) = some n := by
  rw [hexValue, hexText_eq, mapM_hexDigitValue _ fun _ hd => hexDigits_lt hd, Option.map_some,
    ofDigits_hexDigits]

theorem space_notMem_hexText (n : Nat) : space ∉ hexText n := by
  rw [hexText_eq]
  intro h
  obtain ⟨d, hd, hspace⟩ := List.mem_map.mp h
  exact hexDigit_ne_space d (hexDigits_lt hd) hspace

/-! ## The printed text as a format -/

/-- A numeral and the space after it. -/
def hexCodec : Codec Byte Nat :=
  Codec.delimited space hexText hexValue space_notMem_hexText hexValue_hexText

/-- The line of a frame: its identifier, its DLC and its bytes. -/
def lineCodec : Codec Byte (Nat × List Byte) :=
  ((hexCodec.after (textBytes "CAN ID: ")).pair
    ((Codec.symbol.before [space]).counted
      ((hexCodec.after (textBytes "CAN DLC: ")).before (textBytes "CAN DATA: ")))).before
    (textBytes "\r\n")

theorem lineCodec_write (id : Nat) (data : List Byte) :
    lineCodec.write (id, data) =
      textBytes "CAN ID: " ++ (hexText id ++ textBytes " ") ++
        (textBytes "CAN DLC: " ++ (hexText data.length ++ textBytes " ") ++
          textBytes "CAN DATA: " ++ data.flatMap (fun b => [b] ++ [space])) ++
        textBytes "\r\n" := rfl

/-- What the line says of a frame. -/
def StdFrame.entry (f : StdFrame) : Nat × List Byte := (f.id.toNat, f.data)

/-! ## What a frame does -/

/-- Some filter is for standard identifiers and compares none of their bits. -/
def Mcp2515.Open (m : Mcp2515) : Prop :=
  ∃ k ∈ filters, (m.filter k).ext = false ∧ (m.filterMask k.mask).ulData = 0#32

theorem Mcp2515.Open.accepts {m : Mcp2515} (h : m.Open) (hmode : m.normalMode = true)
    (id : BitVec 11) : m.accepts id = true := by
  obtain ⟨k, hk, hext, hmask⟩ := h
  rw [Mcp2515.accepts, hmode, Bool.true_and, List.any_eq_true]
  exact ⟨k, hk, by simp [hext, hmask]⟩

/-- The bytes that `readMessage` stores for a frame. -/
theorem CanFrame.store_data (f : StdFrame) (msg : CanFrame) {i : Nat} (hi : i < f.data.length) :
    (msg.store f).data.toList[i]? = some f.data[i] := by
  have hlen : i < 8 := Nat.lt_of_lt_of_le hi f.length_le
  rw [Vector.getElem?_toList]
  simp [CanFrame.store, hlen, hi, List.getD]

theorem CanFrame.store_canDlc (f : StdFrame) (msg : CanFrame) :
    (msg.store f).canDlc.toNat = f.data.length := by
  have hlen : f.data.length < 2 ^ 8 := Nat.lt_of_le_of_lt f.length_le (by decide)
  rw [CanFrame.store, BitVec.toNat_ofNat, Nat.mod_eq_of_lt hlen]

namespace Mega

@[simp] theorem print_print (a b : List Byte) (s : Mega) :
    (s.print a).print b = s.print (a ++ b) := by
  simp only [print, List.append_assoc]

theorem print_nil (s : Mega) : s.print [] = s := by
  simp only [print, List.append_nil]

/-- The loop prints the bytes of the frame that was stored, each with a space. -/
theorem printData_store (f : StdFrame) (msg : CanFrame) (s : Mega) :
    printData (msg.store f) s = some (s.print (f.data.flatMap fun b => [b] ++ [space])) := by
  have hprefix : ∀ k, k ≤ f.data.length →
      (List.range k).foldlM (fun (s : Mega) i =>
        match (msg.store f).data.toList[i]? with
        | none => none
        | some b => some ((s.print [b]).print [space])) s =
      some (s.print ((f.data.take k).flatMap fun b => [b] ++ [space])) := by
    intro k
    induction k with
    | zero =>
      intro _
      exact congrArg some (print_nil s).symm
    | succ k ih =>
      intro hk
      have hbyte := CanFrame.store_data f msg (i := k) hk
      rw [List.range_succ, List.foldlM_append, ih (Nat.le_of_succ_le hk),
        List.take_succ_eq_append_getElem hk, List.flatMap_append]
      simp only [Option.bind_eq_bind, Option.bind_some, List.foldlM_cons, List.foldlM_nil, hbyte,
        print_print]
      rfl
  have hall := hprefix f.data.length (Nat.le_refl _)
  rw [List.take_length] at hall
  rw [printData, CanFrame.store_canDlc]
  exact hall

/-- After `setup`: every standard frame is let in, and nothing is left to read. -/
structure Ready (s : Mega) : Prop where
  isOpen : s.mcp2515.Open
  normalMode : s.mcp2515.normalMode = true
  received : s.mcp2515.received = []
  led : s.led = .high

theorem ready_setup {s : Mega} (h : s.mcp2515.Open) : Ready s.setup := ⟨h, rfl, rfl, rfl⟩

/-- A frame adds its line to the log and changes nothing else that counts. -/
theorem step_ready {s : Mega} (h : Ready s) (f : StdFrame) :
    ∃ s', s.step f = some s' ∧ Ready s' ∧ s'.serial = s.serial ++ lineCodec.write f.entry := by
  have hoffer : Mcp2515.offer f s.mcp2515 = { s.mcp2515 with received := [f] } := by
    rw [Mcp2515.offer, if_pos (h.isOpen.accepts h.normalMode f.id), h.received, List.nil_append]
  have hid : (s.rxMsg.store f).canId.toNat = f.id.toNat := by
    have hlt : f.id.toNat < 2 ^ 32 := Nat.lt_of_lt_of_le f.id.isLt (by decide)
    rw [CanFrame.store, BitVec.toNat_setWidth, Nat.mod_eq_of_lt hlt]
  let s1 : Mega := { s with mcp2515 := { s.mcp2515 with received := [] }, rxMsg := s.rxMsg.store f }
  refine ⟨s1.print (lineCodec.write f.entry), ?_, ⟨h.isOpen, h.normalMode, rfl, h.led⟩, rfl⟩
  have hread : (s.onMcp2515 (Mcp2515.offer f)).readMessage = (.errorOk, s1) := by
    simp only [readMessage, onMcp2515, hoffer]
    rfl
  have hdata : ∀ t : Mega, printData s1.rxMsg t =
      some (t.print (f.data.flatMap fun b => [b] ++ [space])) := printData_store f s.rxMsg
  have hmsg : ∀ bytes, (s1.print bytes).rxMsg = s1.rxMsg := fun _ => rfl
  have hid1 : s1.rxMsg.canId.toNat = f.id.toNat := hid
  have hdlc1 : s1.rxMsg.canDlc.toNat = f.data.length := CanFrame.store_canDlc f s.rxMsg
  simp only [step, loop, hread, print_print, hmsg, hdata, StdFrame.entry, lineCodec_write, hid1,
    hdlc1, List.append_assoc]

/-- The sketch as power-on leaves it. -/
def reset : Mega where
  mcp2515 := Slave.reset.mcp2515
  rxMsg := Slave.reset.rxMsg
  ledOutput := false
  led := .low
  serial := []

theorem open_reset : reset.mcp2515.Open := ⟨.rxf0, by decide, rfl, rfl⟩

end Mega
end CanNet

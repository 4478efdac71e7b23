import CanNet.Config
import CanNet.Lib.Machine
import Mathlib.Logic.Function.Basic

/-!
# CanNet.Slave

The subsystem 2 program `can_slave_nano.ino`: its acceptance filters, its one receive buffer and
the LED on pin 6.

The MCP2515 library is not part of the repository. Assumed of it: a standard frame is delivered
iff it agrees with some filter on the bits of that filter's mask, and `readMessage` stores the
identifier, the DLC and only as many data bytes as the DLC says. Bit rate and serial set-up reach
nothing modelled here.
-/

namespace CanNet

/-- A data frame in standard format. Its DLC is the number of its bytes. -/
structure StdFrame where
  id : BitVec 11
  data : List Byte
  length_le : data.length ≤ 8

inductive Level where
  | low
  | high
deriving DecidableEq

/-- `struct can_frame`. -/
structure CanFrame where
  canId : Word
  canDlc : Byte
  data : Vector Byte 8

/-! ## The CAN controller -/

namespace Mcp2515

inductive Mask where
  | mask0
  | mask1
deriving DecidableEq

inductive Rxf where
  | rxf0
  | rxf1
  | rxf2
  | rxf3
  | rxf4
  | rxf5
deriving DecidableEq

inductive Error where
  | errorOk
  | errorNomsg
deriving DecidableEq

def Rxf.mask : Rxf → Mask
  | .rxf0 | .rxf1 => .mask0
  | _ => .mask1

def filters : List Rxf := [.rxf0, .rxf1, .rxf2, .rxf3, .rxf4, .rxf5]

end Mcp2515

/-- A mask or filter register: whether it is for extended identifiers, and its bits. -/
structure IdBits where
  ext : Bool
  ulData : Word

structure Mcp2515 where
  filterMask : Mcp2515.Mask → IdBits
  filter : Mcp2515.Rxf → IdBits
  normalMode : Bool
  received : List StdFrame

namespace Mcp2515

/-- What a reset leaves in the masks and filters is not specified, so it leaves them as they are. -/
def reset (m : Mcp2515) : Mcp2515 := { m with normalMode := false, received := [] }

def setFilterMask (num : Mask) (ext : Bool) (ulData : Word) (m : Mcp2515) : Mcp2515 :=
  { m with filterMask := Function.update m.filterMask num { ext := ext, ulData := ulData } }

def setFilter (num : Rxf) (ext : Bool) (ulData : Word) (m : Mcp2515) : Mcp2515 :=
  { m with filter := Function.update m.filter num { ext := ext, ulData := ulData } }

def setNormalMode (m : Mcp2515) : Mcp2515 := { m with normalMode := true }

def accepts (m : Mcp2515) (id : BitVec 11) : Bool :=
  m.normalMode && filters.any fun k =>
    !(m.filter k).ext && id.setWidth 32 &&& (m.filterMask k.mask).ulData =
      (m.filter k).ulData &&& (m.filterMask k.mask).ulData

/-- A frame goes by on the bus. -/
def offer (f : StdFrame) (m : Mcp2515) : Mcp2515 :=
  if m.accepts f.id then { m with received := m.received ++ [f] } else m

end Mcp2515

/-- The bytes beyond the DLC stay as they were. -/
def CanFrame.store (f : StdFrame) (msg : CanFrame) : CanFrame where
  canId := f.id.setWidth 32
  canDlc := BitVec.ofNat 8 f.data.length
  data := Vector.ofFn fun i => f.data.getD i msg.data[i]

/-! ## The sketch -/

structure Slave where
  mcp2515 : Mcp2515
  rxMsg : CanFrame
  pin6Output : Bool
  pin6 : Level
  serial : String

namespace Slave

def canId : Word := 0x46A#32

def cmdIdTurnOnLed : Byte := 0x0#8
def cmdIdTurnOffLed : Byte := 0x1#8
def cmdIdGetLedStatus : Byte := 0x2#8
def cmdIdGetTemp : Byte := 0x3#8

def onMcp2515 (f : Mcp2515 → Mcp2515) (s : Slave) : Slave := { s with mcp2515 := f s.mcp2515 }

def readMessage (s : Slave) : Mcp2515.Error × Slave :=
  match s.mcp2515.received with
  | [] => (.errorNomsg, s)
  | f :: rest =>
    (.errorOk, { s with mcp2515 := { s.mcp2515 with received := rest }, rxMsg := s.rxMsg.store f })

def print (text : String) (s : Slave) : Slave := { s with serial := s.serial ++ text }

def pinMode (output : Bool) (s : Slave) : Slave := { s with pin6Output := output }

def digitalWrite (v : Level) (s : Slave) : Slave := if s.pin6Output then { s with pin6 := v } else s

def digitalRead (s : Slave) : Bool := s.pin6 = .high

def setup (s : Slave) : Slave :=
  let s := s.onMcp2515 Mcp2515.reset
  let s := s.onMcp2515 (Mcp2515.setFilterMask .mask0 false 0x4FF#32)
  let s := s.onMcp2515 (Mcp2515.setFilter .rxf0 false canId)
  let s := s.onMcp2515 (Mcp2515.setFilter .rxf1 false canId)
  let s := s.onMcp2515 (Mcp2515.setFilterMask .mask1 false 0x4FF#32)
  let s := s.onMcp2515 (Mcp2515.setFilter .rxf2 false canId)
  let s := s.onMcp2515 (Mcp2515.setFilter .rxf3 false canId)
  let s := s.onMcp2515 (Mcp2515.setFilter .rxf4 false canId)
  let s := s.onMcp2515 (Mcp2515.setFilter .rxf5 false canId)
  let s := s.onMcp2515 Mcp2515.setNormalMode
  let s := s.pinMode true
  s.digitalWrite .low

def executeCmd (cmd : Byte) (s : Slave) : Slave :=
  if cmd = cmdIdTurnOnLed then s.digitalWrite .high
  else if cmd = cmdIdTurnOffLed then s.digitalWrite .low
  else if cmd = cmdIdGetLedStatus then
    let status := s.digitalRead
    ((s.print "LED status: ").print (if status then "1" else "0")).print "\n"
  else if cmd = cmdIdGetTemp then s
  else s

def loop (s : Slave) : Slave :=
  match s.readMessage with
  | (.errorOk, s) =>
    let s := s.print "CAN CMD: "
    let s := s.print (toString s.rxMsg.data[0].toNat)
    executeCmd s.rxMsg.data[0] s
  | (_, s) => s

/-- A frame on the bus, and the pass of `loop` that finds it. -/
def step (s : Slave) (f : StdFrame) : Slave := loop (s.onMcp2515 (Mcp2515.offer f))

/-! ## After `setup` -/

/-- The masks and filters of `setup`, and nothing left to read. -/
structure Ready (s : Slave) : Prop where
  filterMask : ∀ k, s.mcp2515.filterMask k = { ext := false, ulData := 0x4FF#32 }
  filter : ∀ k, s.mcp2515.filter k = { ext := false, ulData := canId }
  normalMode : s.mcp2515.normalMode = true
  received : s.mcp2515.received = []
  output : s.pin6Output = true

theorem ready_setup (s : Slave) : Ready (setup s) where
  filterMask k := by cases k <;> rfl
  filter k := by cases k <;> rfl
  normalMode := rfl
  received := rfl
  output := rfl

theorem setup_pin6 (s : Slave) : (setup s).pin6 = .low := rfl

/-- The identifier agrees with CAN_ID on the bits of the mask. -/
def passesMask (id : BitVec 11) : Bool := id.setWidth 32 &&& 0x4FF#32 = canId &&& 0x4FF#32

/-- An identifier that passes has the bits of CAN_ID; only bits 8 and 9 are left open. -/
theorem passesMask_bits {id : BitVec 11} (h : passesMask id = true) :
    ∀ i, i < 11 → i ≠ 8 → i ≠ 9 → id.getLsbD i = (0x46A#11).getLsbD i := by
  intro i hi h8 h9
  have hmask : ∀ i, i < 11 → i ≠ 8 → i ≠ 9 →
      (0x4FF#32).getLsbD i = true ∧ canId.getLsbD i = (0x46A#11).getLsbD i := by decide
  obtain ⟨hone, hcan⟩ := hmask i hi h8 h9
  have heq := congrArg (fun w : Word => w.getLsbD i) (of_decide_eq_true h)
  simpa only [BitVec.getLsbD_and, BitVec.getLsbD_setWidth, hone, hcan, Bool.and_true,
    decide_eq_true (show i < 32 by omega), Bool.true_and] using heq

theorem eq_of_openBits {id v : BitVec 11}
    (h : ∀ i, i < 11 → i ≠ 8 → i ≠ 9 → id.getLsbD i = v.getLsbD i)
    (h8 : id.getLsbD 8 = v.getLsbD 8) (h9 : id.getLsbD 9 = v.getLsbD 9) : id = v := by
  apply BitVec.eq_of_getLsbD_eq
  intro i hi
  by_cases hi8 : i = 8
  · rw [hi8, h8]
  · by_cases hi9 : i = 9
    · rw [hi9, h9]
    · exact h i hi hi8 hi9

/-- The mask leaves two bits of the identifier open. -/
theorem passesMask_iff (id : BitVec 11) :
    passesMask id = true ↔ id = 0x46A#11 ∨ id = 0x56A#11 ∨ id = 0x66A#11 ∨ id = 0x76A#11 := by
  constructor
  · intro h
    have heq : ∀ v : BitVec 11,
        (∀ i, i < 11 → i ≠ 8 → i ≠ 9 → (0x46A#11).getLsbD i = v.getLsbD i) →
        id.getLsbD 8 = v.getLsbD 8 → id.getLsbD 9 = v.getLsbD 9 → id = v := fun v hv =>
      eq_of_openBits fun i hi h8 h9 => (passesMask_bits h i hi h8 h9).trans (hv i hi h8 h9)
    cases h8 : id.getLsbD 8 with
    | false =>
      cases h9 : id.getLsbD 9 with
      | false => exact .inl (heq 0x46A#11 (by decide) h8 h9)
      | true => exact .inr (.inr (.inl (heq 0x66A#11 (by decide) h8 h9)))
    | true =>
      cases h9 : id.getLsbD 9 with
      | false => exact .inr (.inl (heq 0x56A#11 (by decide) h8 h9))
      | true => exact .inr (.inr (.inr (heq 0x76A#11 (by decide) h8 h9)))
  · rintro (rfl | rfl | rfl | rfl) <;> decide

theorem Ready.accepts {s : Slave} (h : Ready s) (id : BitVec 11) :
    s.mcp2515.accepts id = passesMask id := by
  simp only [Mcp2515.accepts, h.filterMask, h.filter, h.normalMode, Mcp2515.filters]
  simp [passesMask]

@[simp] theorem executeCmd_mcp2515 (cmd : Byte) (s : Slave) :
    (executeCmd cmd s).mcp2515 = s.mcp2515 := by
  unfold executeCmd digitalWrite
  repeat' split
  all_goals rfl

@[simp] theorem executeCmd_pin6Output (cmd : Byte) (s : Slave) :
    (executeCmd cmd s).pin6Output = s.pin6Output := by
  unfold executeCmd digitalWrite
  repeat' split
  all_goals rfl

/-- What a command byte does to an LED. -/
def obey (l : Level) (cmd : Byte) : Level :=
  if cmd = cmdIdTurnOnLed then .high else if cmd = cmdIdTurnOffLed then .low else l

theorem executeCmd_pin6 (cmd : Byte) {s : Slave} (h : s.pin6Output = true) :
    (executeCmd cmd s).pin6 = obey s.pin6 cmd := by
  unfold executeCmd obey digitalWrite
  rw [if_pos h, if_pos h]
  repeat' split
  all_goals rfl

/-- The byte `loop` executes for a delivered frame: an empty frame leaves the last one there. -/
def commandByte (s : Slave) (f : StdFrame) : Byte := f.data.headD s.rxMsg.data[0]

theorem store_head (f : StdFrame) (msg : CanFrame) :
    (msg.store f).data[0] = f.data.headD msg.data[0] := by
  obtain ⟨id, data, _⟩ := f
  simp only [CanFrame.store, Vector.getElem_ofFn]
  cases data <;> rfl

/-- With nothing to read, `loop` does nothing. -/
theorem loop_idle {s : Slave} (h : s.mcp2515.received = []) : loop s = s := by
  simp [loop, readMessage, h]

/-- The state in which the command of a frame that `loop` has read is executed. -/
def announce (s : Slave) (f : StdFrame) (rest : List StdFrame) : Slave :=
  (({ s with
      mcp2515 := { s.mcp2515 with received := rest }
      rxMsg := s.rxMsg.store f } : Slave).print "CAN CMD: ").print
    (toString (s.commandByte f).toNat)

theorem loop_read {s : Slave} {f : StdFrame} {rest : List StdFrame}
    (h : s.mcp2515.received = f :: rest) :
    loop s = executeCmd (s.commandByte f) (s.announce f rest) := by
  simp only [loop, readMessage, h, print, store_head]
  rfl

theorem step_rejected {s : Slave} {f : StdFrame} (h : Ready s) (hm : passesMask f.id = false) :
    step s f = s := by
  have hoffer : s.onMcp2515 (Mcp2515.offer f) = s := by
    simp [onMcp2515, Mcp2515.offer, h.accepts, hm]
  rw [step, hoffer]
  exact loop_idle h.received

theorem step_delivered {s : Slave} {f : StdFrame} (h : Ready s) (hm : passesMask f.id = true) :
    Ready (step s f) ∧ (step s f).pin6 = obey s.pin6 (s.commandByte f) := by
  have hoffer : Mcp2515.offer f s.mcp2515 = { s.mcp2515 with received := [f] } := by
    rw [Mcp2515.offer, if_pos (by rw [h.accepts, hm]), h.received, List.nil_append]
  have hread : (s.onMcp2515 (Mcp2515.offer f)).mcp2515.received = [f] := by
    simp [onMcp2515, hoffer]
  have hstep : step s f = executeCmd (s.commandByte f)
      ((s.onMcp2515 (Mcp2515.offer f)).announce f []) := loop_read hread
  rw [hstep]
  constructor
  · exact
      { filterMask := by simp [announce, print, onMcp2515, hoffer, h.filterMask]
        filter := by simp [announce, print, onMcp2515, hoffer, h.filter]
        normalMode := by simp [announce, print, onMcp2515, hoffer, h.normalMode]
        received := by simp [announce, print]
        output := by rw [executeCmd_pin6Output]; exact h.output }
  · exact executeCmd_pin6 _ h.output

theorem Ready.step {s : Slave} (h : Ready s) (f : StdFrame) : Ready (step s f) := by
  cases hm : passesMask f.id with
  | false => rw [step_rejected h hm]; exact h
  | true => exact (step_delivered h hm).1

/-! ## Obeying addressed commands only -/

/-- The command a frame gives this node. -/
def commandTo (f : StdFrame) : Option Byte :=
  if f.id.setWidth 32 = canId then f.data.head? else none

/-- The LED after the commands addressed to this node. -/
def commanded (frames : List StdFrame) : Level := (frames.filterMap commandTo).foldl obey .low

def machine : Machine Slave StdFrame where
  step s f := some (s.step f)

/-- The slave with the frames seen on the bus so far. -/
def observed : Machine (Slave × List StdFrame) StdFrame :=
  machine.withHistory fun frames _ f => frames ++ [f]

def Obeys (p : Slave × List StdFrame) : Prop := p.1.pin6 = commanded p.2

instance : DecidablePred Obeys := fun p => inferInstanceAs (Decidable (p.1.pin6 = commanded p.2))

/-- A frame that is delivered without being a command to this node has, or finds left in the
buffer, a byte that asks for nothing new. -/
def Harmless (p : Slave × List StdFrame) (f : StdFrame) : Prop :=
  passesMask f.id = true → commandTo f = none →
    (p.1.commandByte f = cmdIdTurnOnLed → p.1.pin6 = .high) ∧
      (p.1.commandByte f = cmdIdTurnOffLed → p.1.pin6 = .low)

theorem obey_same_iff (l : Level) (cmd : Byte) :
    obey l cmd = l ↔ (cmd = cmdIdTurnOnLed → l = .high) ∧ (cmd = cmdIdTurnOffLed → l = .low) := by
  have hne : cmdIdTurnOnLed ≠ cmdIdTurnOffLed := by decide
  unfold obey
  by_cases h0 : cmd = cmdIdTurnOnLed
  · subst h0
    simp [hne, eq_comm]
  · by_cases h1 : cmd = cmdIdTurnOffLed
    · subst h1
      simp [h0, eq_comm]
    · simp [h0, h1]

theorem commanded_snoc (frames : List StdFrame) (f : StdFrame) :
    commanded (frames ++ [f]) =
      match commandTo f with
      | none => commanded frames
      | some cmd => obey (commanded frames) cmd := by
  unfold commanded
  rw [List.filterMap_append, List.foldl_append]
  cases h : commandTo f <;> simp [h]

theorem commandTo_some {f : StdFrame} {cmd : Byte} (h : commandTo f = some cmd) (s : Slave) :
    passesMask f.id = true ∧ s.commandByte f = cmd := by
  unfold commandTo at h
  split at h
  · rename_i hid
    refine ⟨by simp [passesMask, hid], ?_⟩
    obtain ⟨rest, hdata⟩ := List.head?_eq_some_iff.mp h
    simp [commandByte, hdata]
  · cases h

/-- One frame: the LED goes on agreeing with the commands exactly if the frame is harmless. -/
theorem obeys_step_iff {p p' : Slave × List StdFrame} {f : StdFrame} (hr : Ready p.1)
    (h : Obeys p) (hs : observed.step p f = some p') : Obeys p' ↔ Harmless p f := by
  obtain ⟨hstep, hlog⟩ := Machine.withHistory_step.mp hs
  have hp : p'.1 = p.1.step f := (Option.some.inj hstep).symm
  have hpin : p.1.pin6 = commanded p.2 := h
  rw [Obeys, hp, hlog, commanded_snoc, ← hpin]
  cases hc : commandTo f with
  | some cmd =>
    obtain ⟨hm, hbyte⟩ := commandTo_some hc p.1
    rw [(step_delivered hr hm).2, hbyte]
    simp [Harmless, hc]
  | none =>
    cases hm : passesMask f.id with
    | false =>
      rw [step_rejected hr hm]
      simp [Harmless, hm]
    | true =>
      rw [(step_delivered hr hm).2]
      simp only [Harmless, hm, hc, forall_const]
      exact obey_same_iff _ _

/-- **Addressed commands only.** The LED follows the commands addressed to this node, and nothing
else, exactly when every other frame the mask lets in is harmless. -/
theorem addressed_only_iff (s : Slave) (frames : List StdFrame) :
    observed.Always Obeys (s.setup, []) frames ↔
      observed.EachStep Harmless (s.setup, []) frames := by
  refine Machine.always_iff_eachStep (I := fun p => Ready p.1 ∧ Obeys p) (fun _ hi => hi.2)
    (fun p f p' hi hc hs => ?_) (fun p f p' hi hc hs => ?_) ⟨ready_setup s, rfl⟩
  · have hstep : p.1.step f = p'.1 := Option.some.inj (Machine.withHistory_step.mp hs).1
    exact ⟨hstep ▸ hi.1.step f, (obeys_step_iff hi.1 hi.2 hs).mpr hc⟩
  · exact fun hp => hc ((obeys_step_iff hi.1 hi.2 hs).mp hp)

/-- The slave as power-on leaves it. -/
def reset : Slave where
  mcp2515 :=
    { filterMask := fun _ => { ext := false, ulData := 0#32 }
      filter := fun _ => { ext := false, ulData := 0#32 }
      normalMode := false
      received := [] }
  rxMsg := { canId := 0#32, canDlc := 0#8, data := .replicate _ 0#8 }
  pin6Output := false
  pin6 := .low
  serial := ""

/-- A frame with another identifier that the mask lets in turns the LED on. -/
theorem addressed_only_foreign :
    ¬ observed.Always Obeys (reset.setup, [])
      [{ id := 0x56A#11, data := [0#8], length_le := by decide }] := by
  apply Machine.not_always_of_run
  decide

end Slave
end CanNet

import CanNet.Commands
import CanNet.Lib.Simulation
import CanNet.Overlay
import CanNet.TxFrames
import CanNet.TxMailbox

/-!
# CanNet.TxStores

`can_tx_message` store by store.

`mcan_set_tx_buffer_element` writes Tx buffer 0 with two word stores and a loop of byte stores, and
the transmission is requested after them. The node machine takes a call in one step; here bus steps,
received frames, errors and runs of the interrupt handler may fall between any two stores, as they do
on the board. `storeSimulation` says when this makes no difference.
-/

namespace CanNet

open Bits

/-! ## The stores -/

def elementStores : Nat := 2 + confMcanElementDataSize

namespace McanTxElement

/-- Store `k` of `mcan_set_tx_buffer_element`: the two header words, then the data bytes. -/
def store (e : McanTxElement) (k : Nat) (b : McanTxElement) : McanTxElement :=
  match k with
  | 0 => { b with t0 := e.t0 }
  | 1 => { b with t1 := e.t1 }
  | i + 2 =>
    if h : i < confMcanElementDataSize then { b with data := b.data.set i e.data[i] } else b

/-- `older` with the first `k` stores of `newer` over it. -/
def splice (older newer : McanTxElement) (k : Nat) : McanTxElement where
  t0 := if 0 < k then newer.t0 else older.t0
  t1 := if 1 < k then newer.t1 else older.t1
  data := .ofFn fun i => if i + 2 < k then newer.data[i] else older.data[i]

theorem eq_of_parts {a b : McanTxElement} (h0 : a.t0 = b.t0) (h1 : a.t1 = b.t1)
    (hdata : ∀ (i : Nat) (h : i < confMcanElementDataSize), a.data[i] = b.data[i]) : a = b := by
  obtain ⟨t0, t1, data⟩ := a
  obtain rfl : t0 = b.t0 := h0
  obtain rfl : t1 = b.t1 := h1
  obtain rfl : data = b.data := Vector.ext hdata
  rfl

variable (older newer : McanTxElement)

theorem splice_t0 (k : Nat) :
    (older.splice newer k).t0 = if 0 < k then newer.t0 else older.t0 := rfl

theorem splice_t1 (k : Nat) :
    (older.splice newer k).t1 = if 1 < k then newer.t1 else older.t1 := rfl

theorem splice_data (k : Nat) {i : Nat} (h : i < confMcanElementDataSize) :
    (older.splice newer k).data[i] = if i + 2 < k then newer.data[i] else older.data[i] := by
  simp [splice]

@[simp] theorem splice_zero : older.splice newer 0 = older :=
  eq_of_parts rfl rfl fun i h => by simp [splice_data]

@[simp] theorem splice_all : older.splice newer elementStores = newer := by
  refine eq_of_parts rfl rfl fun i h => ?_
  rw [splice_data, if_pos (by rw [elementStores]; omega)]

theorem store_splice (k : Nat) :
    newer.store k (older.splice newer k) = older.splice newer (k + 1) := by
  match k with
  | 0 => exact eq_of_parts rfl rfl fun i h => by simp [store, splice_data]
  | 1 =>
    refine eq_of_parts rfl rfl fun i h => ?_
    simp only [store, splice_data]
    rw [if_neg (by omega), if_neg (by omega)]
  | i + 2 =>
    by_cases hi : i < confMcanElementDataSize
    · simp only [store, hi, dif_pos]
      refine eq_of_parts (by simp [splice_t0]) (by simp [splice_t1]) fun j h => ?_
      simp only [Vector.getElem_set, splice_data]
      by_cases hij : i = j
      · subst hij
        simp
      · rw [if_neg hij]
        split <;> split <;> first | rfl | omega
    · simp only [store, hi, dif_neg, not_false_eq_true]
      refine eq_of_parts (by simp [splice_t0]) (by simp [splice_t1]) fun j h => ?_
      rw [splice_data, splice_data, if_pos (by omega), if_pos (by omega)]

end McanTxElement

/-- Store `k` of the copy of `e` into Tx buffer `index`. -/
def Node.storeTx (e : McanTxElement) (index k : Nat) (s : Node) : Node :=
  s.onMcan fun m =>
    { m with txBuffer := Function.update m.txBuffer index (e.store k (m.txBuffer index)) }

theorem Node.storeTx_run (e : McanTxElement) (index : Nat) (s : Node) (k : Nat) :
    (List.range k).foldl (fun s k => s.storeTx e index k) s = s.onMcan fun m =>
      { m with txBuffer :=
          Function.update m.txBuffer index ((m.txBuffer index).splice e k) } := by
  induction k with
  | zero => simp [Node.onMcan]
  | succ k ih =>
    rw [List.range_succ, List.foldl_append, ih]
    simp [Node.storeTx, Node.onMcan, McanTxElement.store_splice]

/-- All the stores in a row are `mcan_set_tx_buffer_element`. -/
theorem mcanSetTxBufferElement_stores (e : McanTxElement) (index : Nat) {s : Node}
    (h : s.hw = .mcan1) : mcanSetTxBufferElement e index s =
      (.statusOk, (List.range elementStores).foldl (fun s k => s.storeTx e index k) s) := by
  rw [Node.storeTx_run]
  simp [mcanSetTxBufferElement, h]

/-! ## Calls in progress -/

/-- A call of `can_tx_message` that has built its element and made the first `stores` stores. -/
structure TxCall where
  idValue : Word
  length : Byte
  data : List Byte
  txElement : McanTxElement
  element : McanTxElement
  stores : Nat
  /-- What Tx buffer 0 held when the call began. No step reads it. -/
  replaced : McanTxElement

structure CallingNode where
  node : Node
  call : Option TxCall

def NodeEvent.isCall : NodeEvent → Bool
  | .txMessage .. => true
  | _ => false

/-- `node` is any event of the node machine but a call. -/
inductive StoreEvent where
  | txMessage (idValue : Word) (length : Byte) (data : List Byte) (txElement : McanTxElement)
  | store
  | node (e : NodeEvent)

/-- The next statement of a call: a store, or the request and the return. -/
def TxCall.next (c : TxCall) (s : Node) : CallingNode :=
  if c.stores < elementStores then
    { node := s.storeTx c.element mcanTxBufferIndex c.stores
      call := some { c with stores := c.stores + 1 } }
  else
    let (ret, s) := mcanTxTransferRequest (1#32 <<< mcanTxBufferIndex) s
    { node := if ret = .statusOk then s.emit (.accepted (callFrame c.idValue c.length c.data)) else s
      call := none }

def storeStep (s : CallingNode) : StoreEvent → Option CallingNode
  | .txMessage idValue length data txElement =>
    if s.call.isSome then none
    else
      match copyBytes 0 length.toNat data (mcanGetTxBufferElementDefaults txElement).data with
      | none => none
      | some buf =>
        match s.node.hw with
        | .null => some s
        | .mcan1 => some { s with
            call := some
              { idValue := idValue, length := length, data := data, txElement := txElement
                element := messageElement idValue length txElement buf
                stores := 0, replaced := s.node.mcan.txBuffer mcanTxBufferIndex } }
  | .store => s.call.map fun c => c.next s.node
  | .node e =>
    if e.isCall then none
    else (nodeMachine.step s.node e).map fun node => { s with node := node }

def storeMachine : Machine CallingNode StoreEvent where
  step := storeStep

/-- A bus step during a call finds the frame of Tx buffer 0 as it was before the call. -/
def untouched (s : CallingNode) : StoreEvent → Bool
  | .node .busStep =>
    match s.call with
    | none => true
    | some c => decide ((s.node.mcan.txBuffer mcanTxBufferIndex).frame = c.replaced.frame)
  | _ => true

/-! ## The node with the stores of the call undone -/

def restored (e : McanTxElement) : Overlay where
  ie := id
  standardFilter := id
  txBuffer b := Function.update b mcanTxBufferIndex e

def CallingNode.whole (s : CallingNode) : Node :=
  match s.call with
  | none => s.node
  | some c => s.node.overlay (restored c.replaced)

/-- What holds of a call in progress. -/
structure TxCall.Under (c : TxCall) (s : Node) : Prop where
  hw : s.hw = .mcan1
  stores : c.stores ≤ elementStores
  element : ∃ buf, copyBytes 0 c.length.toNat c.data
    (mcanGetTxBufferElementDefaults c.txElement).data = some buf ∧
      c.element = messageElement c.idValue c.length c.txElement buf
  buffer : s.mcan.txBuffer mcanTxBufferIndex = c.replaced.splice c.element c.stores

def CallingNode.Consistent (s : CallingNode) : Prop := ∀ c, s.call = some c → c.Under s.node

/-- The last statement of a call is the call. -/
def storeLabel (s : CallingNode) : StoreEvent → Option NodeEvent
  | .txMessage .. => none
  | .store =>
    match s.call with
    | none => none
    | some c =>
      if c.stores < elementStores then none
      else some (.txMessage c.idValue c.length c.data c.txElement)
  | .node e => some e

theorem overlay_restored_same (s : Node) :
    s.overlay (restored (s.mcan.txBuffer mcanTxBufferIndex)) = s := by
  have hbuffer : Function.update s.mcan.txBuffer mcanTxBufferIndex
      (s.mcan.txBuffer mcanTxBufferIndex) = s.mcan.txBuffer := Function.update_eq_self _ _
  simp only [Node.overlay, Node.onMcan, Mcan.overlay, restored, hbuffer, id_eq]

theorem overlay_restored_storeTx (e x : McanTxElement) (k : Nat) (s : Node) :
    (s.storeTx x mcanTxBufferIndex k).overlay (restored e) = s.overlay (restored e) := by
  simp only [Node.overlay, Node.onMcan, Node.storeTx, Mcan.overlay, restored, Function.update_idem]

/-! ## One step -/

theorem handler_txBuffer (s : Node) : (mcan1Int0Handler s).mcan.txBuffer = s.mcan.txBuffer := by
  refine mcan1Int0Handler_keeps (Q := fun t => t.mcan.txBuffer = s.mcan.txBuffer) rfl ?_ ?_ ?_ ?_ ?_
  · intro t ht
    rw [rxBufferBranch, foldl_serviceRxBuffer_mcan]
    exact ht
  · intro t ht; exact ht
  · intro _ t ht; exact ht
  · intro t ht; exact ht
  · intro _ t ht
    obtain ⟨_, _, _, hm⟩ := busOffBranch_mcan t
    rw [hm]
    exact ht

/-- No event but a call writes the Tx buffers or unbinds the module. -/
theorem node_txSide {s s' : Node} {e : NodeEvent} (he : e.isCall = false)
    (hs : nodeMachine.step s e = some s') :
    s'.mcan.txBuffer = s.mcan.txBuffer ∧ (s.hw = .mcan1 → s'.hw = .mcan1) := by
  cases e with
  | txMessage idValue length data txElement => cases he
  | busStep =>
    obtain ⟨_, rfl⟩ := busStep_step hs
    exact ⟨rfl, id⟩
  | handler =>
    cases hs
    exact ⟨handler_txBuffer s, handler_hw⟩
  | _ =>
    cases hs
    exact ⟨rfl, id⟩

/-- Everything a step can do. -/
inductive StoreMove (s : CallingNode) : StoreEvent → CallingNode → Prop
  | begun (c : TxCall) (hidle : s.call = none) (hcall : c.Under s.node) (hstores : c.stores = 0)
      (hreplaced : c.replaced = s.node.mcan.txBuffer mcanTxBufferIndex) :
      StoreMove s (.txMessage c.idValue c.length c.data c.txElement) { s with call := some c }
  | refused (idValue : Word) (length : Byte) (data : List Byte) (txElement : McanTxElement)
      (hw : s.node.hw = .null) : StoreMove s (.txMessage idValue length data txElement) s
  | stored (c : TxCall) (hcall : s.call = some c) (hstores : c.stores < elementStores) :
      StoreMove s .store
        { node := s.node.storeTx c.element mcanTxBufferIndex c.stores
          call := some { c with stores := c.stores + 1 } }
  | returned (c : TxCall) (hcall : s.call = some c) (hstores : elementStores ≤ c.stores) :
      StoreMove s .store (c.next s.node)
  | node (e : NodeEvent) (s' : Node) (he : e.isCall = false)
      (hs : nodeMachine.step s.node e = some s') : StoreMove s (.node e) { s with node := s' }

theorem storeStep_move {s s' : CallingNode} {e : StoreEvent} (hs : storeMachine.step s e = some s') :
    StoreMove s e s' := by
  cases e with
  | txMessage idValue length data txElement =>
    simp only [storeMachine, storeStep] at hs
    split at hs
    · cases hs
    · rename_i hidle
      split at hs
      · cases hs
      · rename_i buf hbuf
        split at hs
        · rename_i hw
          cases hs
          exact .refused idValue length data txElement hw
        · rename_i hw
          cases hs
          let c : TxCall :=
            { idValue := idValue, length := length, data := data, txElement := txElement
              element := messageElement idValue length txElement buf
              stores := 0, replaced := s.node.mcan.txBuffer mcanTxBufferIndex }
          have hunder : c.Under s.node :=
            ⟨hw, Nat.zero_le _, ⟨buf, hbuf, rfl⟩, (McanTxElement.splice_zero _ _).symm⟩
          exact .begun c (by simpa using hidle) hunder rfl rfl
  | store =>
    simp only [storeMachine, storeStep, Option.map_eq_some_iff] at hs
    obtain ⟨c, hcall, rfl⟩ := hs
    by_cases hstores : c.stores < elementStores
    · rw [TxCall.next, if_pos hstores]
      exact .stored c hcall hstores
    · exact .returned c hcall (Nat.le_of_not_lt hstores)
  | node e =>
    simp only [storeMachine, storeStep] at hs
    split at hs
    · cases hs
    · rename_i he
      obtain ⟨n, hn, rfl⟩ := Option.map_eq_some_iff.mp hs
      exact .node e n (by simpa using he) hn

/-- A call in progress is undisturbed by what leaves the Tx buffers alone. -/
theorem TxCall.Under.of_same {c : TxCall} {s t : Node} (h : c.Under s)
    (hbuffer : t.mcan.txBuffer = s.mcan.txBuffer) (hw : s.hw = .mcan1 → t.hw = .mcan1) :
    c.Under t where
  hw := hw h.hw
  stores := h.stores
  element := h.element
  buffer := by rw [hbuffer, h.buffer]

theorem TxCall.Under.stored {c : TxCall} {s : Node} (h : c.Under s)
    (hstores : c.stores < elementStores) :
    TxCall.Under { c with stores := c.stores + 1 }
      (s.storeTx c.element mcanTxBufferIndex c.stores) where
  hw := h.hw
  stores := hstores
  element := h.element
  buffer := by
    simp only [Node.storeTx, Node.onMcan_mcan, Function.update_self, h.buffer]
    exact McanTxElement.store_splice _ _ _

theorem CallingNode.Consistent.step {s s' : CallingNode} {e : StoreEvent} (h : s.Consistent)
    (hmove : StoreMove s e s') : s'.Consistent := by
  cases hmove with
  | begun c hidle hcall hstores hreplaced =>
    intro c' hc'
    cases hc'
    exact hcall
  | refused idValue length data txElement hw => exact h
  | stored c hcall hstores =>
    intro c' hc'
    cases hc'
    exact (h c hcall).stored hstores
  | returned c hcall hstores =>
    intro c' hc'
    rw [TxCall.next, if_neg (Nat.not_lt.mpr hstores)] at hc'
    cases hc'
  | node e n he hs =>
    intro c hc
    obtain ⟨hbuffer, hw⟩ := node_txSide he hs
    exact (h c hc).of_same hbuffer hw

/-! ## The call as one step -/

/-- The whole copy, made over the undone stores, is where the stores have led. -/
theorem TxCall.Under.copied {c : TxCall} {s : Node} (h : c.Under s)
    (hstores : elementStores ≤ c.stores) :
    mcanSetTxBufferElement c.element mcanTxBufferIndex (s.overlay (restored c.replaced)) =
      (.statusOk, s) := by
  have hall : s.mcan.txBuffer mcanTxBufferIndex = c.element := by
    rw [h.buffer, Nat.le_antisymm h.stores hstores, McanTxElement.splice_all]
  have hbuffer : Function.update s.mcan.txBuffer mcanTxBufferIndex c.element = s.mcan.txBuffer := by
    rw [← hall]
    exact Function.update_eq_self _ _
  simp only [mcanSetTxBufferElement, Node.overlay, Node.onMcan, Mcan.overlay, restored,
    Function.update_idem, hbuffer, id_eq, h.hw]
  rw [← h.hw]

theorem TxCall.Under.returned {c : TxCall} {s : CallingNode} (hcall : s.call = some c)
    (h : c.Under s.node) (hstores : elementStores ≤ c.stores) :
    nodeMachine.step s.whole (.txMessage c.idValue c.length c.data c.txElement) =
      some (c.next s.node).whole := by
  obtain ⟨buf, hbuf, helement⟩ := h.element
  have hset := h.copied hstores
  rw [helement, messageElement] at hset
  simp only [nodeMachine, nodeStep, canTxMessage, hbuf, CallingNode.whole, hcall, hset, if_true,
    TxCall.next, Nat.not_lt.mpr hstores, if_false]
  split <;> rfl

/-- A bus step sends the frame the call will replace, as long as the stores have not touched it. -/
theorem whole_busStep {s : CallingNode} {n : Node} (hu : untouched s (.node .busStep) = true)
    (hs : nodeMachine.step s.node .busStep = some n) :
    nodeMachine.step s.whole .busStep = some (CallingNode.whole { s with node := n }) := by
  obtain ⟨node, call⟩ := s
  cases call with
  | none => exact hs
  | some c =>
    obtain ⟨hp, rfl⟩ := busStep_step hs
    have hsame : (node.mcan.txBuffer mcanTxBufferIndex).frame = c.replaced.frame := by
      simpa [untouched] using hu
    have hsame' : (node.mcan.txBuffer 0).frame = c.replaced.frame := hsame
    have hp' : (node.overlay (restored c.replaced)).mcan.txPending = true := hp
    have hbox : (node.overlay (restored c.replaced)).mcan.txBuffer 0 = c.replaced := by
      simp [Node.overlay, Mcan.overlay, restored, mcanTxBufferIndex]
    simp only [CallingNode.whole, nodeMachine, nodeStep, Mcan.transmit, hp', if_true, hbox, hsame']
    rfl

theorem whole_node {s : CallingNode} {e : NodeEvent} {n : Node} (he : e.isCall = false)
    (hu : untouched s (.node e) = true) (hs : nodeMachine.step s.node e = some n) :
    nodeMachine.step s.whole e = some (CallingNode.whole { s with node := n }) := by
  by_cases hbus : e = .busStep
  · subst hbus
    exact whole_busStep hu hs
  · have huses : e.usesTxBuffer = false := by
      cases e <;> first | rfl | contradiction
    obtain ⟨node, call⟩ := s
    cases call with
    | none => exact hs
    | some c =>
      have hover := nodeStep_overlay (restored c.replaced) node huses
      have hs' : nodeMachine.step node e = some n := hs
      rw [hs'] at hover
      exact hover

/-- The node with the stores of the call undone takes the call in one step, and every other event as
it comes. -/
theorem StoreMove.view {s s' : CallingNode} {e : StoreEvent} (h : s.Consistent)
    (hu : untouched s e = true) (hmove : StoreMove s e s') :
    match storeLabel s e with
    | none => s'.whole = s.whole
    | some d => nodeMachine.step s.whole d = some s'.whole := by
  cases hmove with
  | begun c hidle hcall hstores hreplaced =>
    have hwhole : s.whole = s.node := by rw [CallingNode.whole, hidle]
    change s.node.overlay (restored c.replaced) = s.whole
    rw [hwhole, hreplaced]
    exact overlay_restored_same s.node
  | refused idValue length data txElement hw => rfl
  | stored c hcall hstores =>
    simp only [storeLabel, hcall, hstores, if_true, CallingNode.whole]
    exact overlay_restored_storeTx _ _ _ _
  | returned c hcall hstores =>
    simp only [storeLabel, hcall, Nat.not_lt.mpr hstores, if_false]
    exact (h c hcall).returned hcall hstores
  | node e n he hs => exact whole_node he hu hs

/-- **Store by store.** As long as no bus step finds stores of a call in the frame it sends, the node
is one that takes each call in a single step, at its end. -/
def storeSimulation : Simulation (storeMachine.only untouched) nodeMachine where
  inv := CallingNode.Consistent
  view := CallingNode.whole
  label := storeLabel
  keeps s e s' h hs := h.step (storeStep_move (Machine.only_step.mp hs).2)
  quiet s e s' h hs hl := by
    obtain ⟨hu, hs⟩ := Machine.only_step.mp hs
    have hview := (storeStep_move hs).view h hu
    rw [hl] at hview
    exact hview
  visible s e s' d h hs hl := by
    obtain ⟨hu, hs⟩ := Machine.only_step.mp hs
    have hview := (storeStep_move hs).view h hu
    rw [hl] at hview
    exact hview

/-! ## When it makes no difference -/

/-- The frames sent are those accepted frames that no newer one replaced, but for one at most. -/
def SentSurvivors (s : Node) : Prop :=
  ∃ box : Option TxFrame, sentFrames s.trace ++ box.toList = Mailbox.survivors (txLog s.trace)

/-- The node as start-up leaves it. -/
def callingBoot (s : Node) : CallingNode := { node := boot s, call := none }

structure StoreInv (s : CallingNode) : Prop where
  consistent : s.Consistent
  mail : TxMail s.whole

theorem storeInv_boot {s : Node} (h : PowerOn s) : StoreInv (callingBoot s) where
  consistent _ hc := by cases hc
  mail := txMail_boot h

theorem CallingNode.whole_trace (s : CallingNode) : s.whole.trace = s.node.trace := by
  obtain ⟨node, call⟩ := s
  cases call <;> rfl

theorem CallingNode.whole_txPending (s : CallingNode) :
    s.whole.mcan.txPending = s.node.mcan.txPending := by
  obtain ⟨node, call⟩ := s
  cases call <;> rfl

theorem CallingNode.whole_cceBit (s : CallingNode) :
    s.whole.mcan.cceBit = s.node.mcan.cceBit := by
  obtain ⟨node, call⟩ := s
  cases call <;> rfl

theorem StoreInv.step {s s' : CallingNode} {e : StoreEvent} (h : StoreInv s)
    (hu : untouched s e = true) (hs : storeMachine.step s e = some s') : StoreInv s' := by
  have hmove := storeStep_move hs
  have hview := hmove.view h.consistent hu
  refine ⟨h.consistent.step hmove, ?_⟩
  cases hl : storeLabel s e with
  | none =>
    rw [hl] at hview
    rw [hview]
    exact h.mail
  | some d =>
    rw [hl] at hview
    exact h.mail.step hview

/-- With a frame waiting, no other frame may be the next one sent. -/
theorem TxMail.next_sent {s t : Node} {f : TxFrame} (h : TxMail s) (hp : s.mcan.txPending = true)
    (htrace : t.trace = s.trace ++ [.sent f]) (hsent : SentSurvivors t) :
    f = (s.mcan.txBuffer 0).frame := by
  have hreplay : Mailbox.replay none (txLog s.trace) = some (some (s.mcan.txBuffer 0).frame) := by
    cases h with
    | live _ _ hbox => rw [hbox, txBox, if_pos hp]
    | off _ _ _ hfree =>
      rw [hp] at hfree
      cases hfree
  have hsurvive := Mailbox.takes_eq_survivors hreplay
  have htake : Mailbox.survivors (txLog s.trace ++ txLog [.sent f]) =
      Mailbox.survivors (txLog s.trace) := Mailbox.survivors_take _ _
  obtain ⟨box, hsent⟩ := hsent
  rw [takes_txLog] at hsurvive
  rw [htrace, sentFrames_append, txLog_append, htake, ← hsurvive, List.append_assoc] at hsent
  have hhead := congrArg List.head? (List.append_cancel_left hsent)
  simpa [sentFrames] using hhead

/-- The frame of a bus step that finds stores of a call is not the one that waits. -/
theorem StoreInv.touched {s s' : CallingNode} {e : StoreEvent} (h : StoreInv s)
    (hu : ¬ untouched s e = true) (hs : storeMachine.step s e = some s') :
    ¬ SentSurvivors s'.node := by
  obtain ⟨node, call⟩ := s
  cases storeStep_move hs with
  | begun | refused | stored | returned => exact absurd rfl hu
  | node e n he hn =>
    cases e with
    | busStep =>
      cases call with
      | none => exact absurd rfl hu
      | some c =>
        obtain ⟨hp, rfl⟩ := busStep_step hn
        intro hsent
        have hframe := h.mail.next_sent hp rfl hsent
        have hbox : (CallingNode.whole ⟨node, some c⟩).mcan.txBuffer 0 = c.replaced := by
          simp [CallingNode.whole, Node.overlay, Mcan.overlay, restored, mcanTxBufferIndex]
        rw [hbox] at hframe
        exact hu (decide_eq_true hframe)
    | _ => exact absurd rfl hu

/-- **Stores and bus steps.** Whatever falls between the stores, the frames on the bus are the
surviving accepted frames in order exactly as long as every bus step that comes during a call finds
the frame it sends as it was before the call. -/
theorem tx_stores_iff {s : Node} (h : PowerOn s) (es : List StoreEvent) :
    storeMachine.Always (fun t => SentSurvivors t.node) (callingBoot s) es ↔
      storeMachine.EachStep (fun t e => untouched t e = true) (callingBoot s) es := by
  refine Machine.always_iff_eachStep (I := StoreInv) ?_ ?_ ?_ (storeInv_boot h)
  · intro t ht
    obtain ⟨box, hbox, _⟩ := ht.mail.delivery.survivors
    rw [t.whole_trace] at hbox
    exact ⟨box, hbox⟩
  · intro t e t' ht hu hs
    exact ht.step hu hs
  · intro t e t' ht hu hs
    exact ht.touched hu hs

/-- An LED command for each subsystem, the second one with a bus step after `k` of its stores. -/
def secondCall (k : Nat) : List StoreEvent :=
  .txMessage ss1CanId 4#8 (canMessage ss1CmdIdTurnOnLed 0#32) blankTxElement ::
    (List.replicate (elementStores + 1) .store ++
      .txMessage ss2CanId 4#8 (canMessage ss2CmdIdTurnOnLed 0#32) blankTxElement ::
        (List.replicate k .store ++ .node .busStep ::
          (List.replicate (elementStores + 1 - k) .store ++ [.node .busStep])))

/-- Before the first store of the second call the bus step sends the first frame whole; after it, it
does not. -/
theorem tx_stores_second_call :
    storeMachine.Always (fun t => SentSurvivors t.node) (callingBoot reset) (secondCall 0) ∧
      (storeMachine.run (callingBoot reset) (secondCall 0)).map
        (fun t => sentFrames t.node.trace) =
          some [callFrame ss1CanId 4#8 (canMessage ss1CmdIdTurnOnLed 0#32),
            callFrame ss2CanId 4#8 (canMessage ss2CmdIdTurnOnLed 0#32)] ∧
      ¬ storeMachine.Always (fun t => SentSurvivors t.node) (callingBoot reset) (secondCall 1) :=
  ⟨(tx_stores_iff powerOn_reset _).mpr (by decide +kernel), by decide +kernel,
    fun h => absurd ((tx_stores_iff powerOn_reset _).mp h) (by decide +kernel)⟩

/-! ## Calls that wait for the bus -/

/-- No call begins while a request waits. -/
def begunWhenFree (s : CallingNode) : StoreEvent → Bool
  | .txMessage .. => !s.node.mcan.txPending
  | _ => true

/-- Every accepted frame has been sent, in order, but for the one that waits or that a bus-off has
dropped for good. -/
def AllSent (s : Node) : Prop :=
  ∃ box : Option TxFrame, sentFrames s.trace ++ box.toList = acceptedFrames s.trace ∧
    (s.mcan.cceBit = false → box = txBox s)

/-- Nothing in the box was ever replaced. -/
structure Unreplaced (s : Node) : Prop where
  mail : TxMail s
  kept : Mailbox.survivors (txLog s.trace) = acceptedFrames s.trace

theorem Unreplaced.allSent {s : Node} (h : Unreplaced s) : AllSent s := by
  obtain ⟨box, hsent, hbox⟩ := h.mail.delivery.survivors
  exact ⟨box, hsent.trans h.kept, hbox⟩

theorem Unreplaced.step {s s' : Node} {e : NodeEvent} (h : Unreplaced s) (hc : CalledWhenFree s e)
    (hs : nodeMachine.step s e = some s') : Unreplaced s' := by
  refine ⟨h.mail.step hs, ?_⟩
  have hquiet : ∀ {o : List Obs}, s'.trace = s.trace ++ o → txLog o = [] →
      acceptedFrames o = [] → Mailbox.survivors (txLog s'.trace) = acceptedFrames s'.trace := by
    intro o ht hlog hacc
    rw [ht, txLog_append, acceptedFrames_append, hlog, hacc, List.append_nil, List.append_nil, h.kept]
  cases e with
  | txMessage idValue length data txElement =>
    obtain ⟨e, _, hcase⟩ := txMessage_step hs
    rcases hcase with ⟨_, rfl⟩ | ⟨_, _, rfl⟩ | ⟨_, hcce, rfl⟩
    · exact h.kept
    · exact h.kept
    · have hempty : Mailbox.replay none (txLog s.trace) = some none := by
        have hfree : s.mcan.txPending = false := hc
        cases h.mail with
        | live _ _ hbox =>
          rw [hbox, txBox, hfree]
          rfl
        | off _ hcce' =>
          rw [hcce] at hcce'
          cases hcce'
      have hput := Mailbox.survivors_put hempty (callFrame idValue length data)
      simp only [Node.emit_trace, Node.onMcan_trace, txLog_append, acceptedFrames_append,
        List.append_assoc]
      rw [h.kept] at hput
      exact hput
  | busStep =>
    obtain ⟨_, rfl⟩ := busStep_step hs
    have htake := Mailbox.survivors_take (txLog s.trace) (s.mcan.txBuffer 0).frame
    have hnone : acceptedFrames [.sent (s.mcan.txBuffer 0).frame] = [] := rfl
    simp only [Node.emit_trace, Node.onMcan_trace, txLog_append, acceptedFrames_append, hnone,
      List.append_nil]
    rw [h.kept] at htake
    exact htake
  | rxBuffer k e | rxFifo0 e | rxFifo1 e =>
    cases hs
    exact hquiet rfl rfl rfl
  | busOff | raise flags =>
    cases hs
    exact h.kept
  | handler =>
    cases hs
    have hacc : acceptedFrames (mcan1Int0Handler s).trace = acceptedFrames s.trace := by
      rw [← puts_txLog, txLog_handler, puts_txLog]
    rw [txLog_handler, hacc, h.kept]

/-- No event but a call requests a transmission. -/
theorem node_free {s s' : Node} {e : NodeEvent} (he : e.isCall = false)
    (h : s.mcan.txPending = false) (hs : nodeMachine.step s e = some s') :
    s'.mcan.txPending = false := by
  cases e with
  | txMessage idValue length data txElement => cases he
  | busStep =>
    obtain ⟨hp, _⟩ := busStep_step hs
    rw [h] at hp
    cases hp
  | handler =>
    cases hs
    cases hoff : has s.mcan.ir mcanBusOff with
    | false =>
      rw [Mcan.txPending, (txSame_handler hoff).txbrp]
      exact h
    | true => exact handler_busOff_free hoff
  | _ =>
    cases hs
    exact h

/-- While a call runs, nothing waits. -/
structure FreeInv (s : CallingNode) : Prop where
  consistent : s.Consistent
  kept : Unreplaced s.whole
  free : ∀ c, s.call = some c → s.node.mcan.txPending = false

theorem FreeInv.allSent {s : CallingNode} (h : FreeInv s) : AllSent s.node := by
  obtain ⟨box, hsent, hbox⟩ := h.kept.allSent
  rw [s.whole_trace] at hsent
  refine ⟨box, hsent, fun hcce => ?_⟩
  rw [hbox (s.whole_cceBit.trans hcce)]
  obtain ⟨node, call⟩ := s
  cases call with
  | none => rfl
  | some c =>
    have hfree := h.free c rfl
    have hfree' : (CallingNode.whole ⟨node, some c⟩).mcan.txPending = false := hfree
    simp [txBox, hfree, hfree']

theorem FreeInv.untouched {s s' : CallingNode} {e : StoreEvent} (h : FreeInv s)
    (hmove : StoreMove s e s') : CanNet.untouched s e = true := by
  cases hmove with
  | begun | refused | stored | returned => rfl
  | node e n he hn =>
    cases e with
    | busStep =>
      obtain ⟨hp, _⟩ := busStep_step hn
      cases hcall : s.call with
      | none => simp [CanNet.untouched, hcall]
      | some c =>
        rw [h.free c hcall] at hp
        cases hp
    | _ => rfl

/-- The call that a label stands for found no request waiting. -/
theorem FreeInv.calledWhenFree {s : CallingNode} {e : StoreEvent} {d : NodeEvent} (h : FreeInv s)
    (hl : storeLabel s e = some d) (he : ∀ e', e = .node e' → e'.isCall = false) :
    CalledWhenFree s.whole d := by
  cases e with
  | txMessage idValue length data txElement => cases hl
  | node e' =>
    cases hl
    have hcall := he d rfl
    cases d with
    | txMessage idValue length data txElement => cases hcall
    | _ => trivial
  | store =>
    cases hcall : s.call with
    | none =>
      rw [storeLabel, hcall] at hl
      cases hl
    | some c =>
      simp only [storeLabel, hcall] at hl
      split at hl
      · cases hl
      · cases hl
        exact s.whole_txPending.trans (h.free c hcall)

theorem FreeInv.step {s s' : CallingNode} {e : StoreEvent} (h : FreeInv s)
    (hb : begunWhenFree s e = true) (hmove : StoreMove s e s') : FreeInv s' := by
  have hview := hmove.view h.consistent (h.untouched hmove)
  refine ⟨h.consistent.step hmove, ?_, ?_⟩
  · cases hl : storeLabel s e with
    | none =>
      rw [hl] at hview
      rw [hview]
      exact h.kept
    | some d =>
      rw [hl] at hview
      refine h.kept.step (h.calledWhenFree hl ?_) hview
      rintro e' rfl
      cases hmove with
      | node _ n he hn => exact he
  · intro c hc
    cases hmove with
    | begun c' hidle hcall hstores hreplaced => simpa [begunWhenFree] using hb
    | refused => exact h.free c hc
    | stored c' hcall hstores => exact h.free c' hcall
    | returned c' hcall hstores =>
      rw [TxCall.next, if_neg (Nat.not_lt.mpr hstores)] at hc
      cases hc
    | node e n he hn => exact node_free he (h.free c hc) hn

/-- **Calls that wait.** If no call begins while a request waits, then whatever falls between the
stores, no accepted frame is lost, torn or sent twice: all have been sent in order but the one that
waits, or the one that a bus-off has dropped. -/
theorem tx_stores_when_free {s : Node} (h : PowerOn s) (es : List StoreEvent) :
    (storeMachine.only begunWhenFree).Always (fun t => AllSent t.node) (callingBoot s) es := by
  refine Machine.always_mono (fun _ ht => FreeInv.allSent ht)
    (Machine.always_of_invariant (I := FreeInv) ?_ ?_)
  · intro t e t' ht hs
    obtain ⟨hb, hs⟩ := Machine.only_step.mp hs
    exact ht.step hb (storeStep_move hs)
  · have htrace : (boot s).trace = [] := h.trace
    refine ⟨fun _ hc => ?_, ⟨txMail_boot h, ?_⟩, fun _ hc => ?_⟩
    · cases hc
    · change Mailbox.survivors (txLog (boot s).trace) = acceptedFrames (boot s).trace
      rw [htrace]
      rfl
    · cases hc

/-- A call, its stores with a bus-off and a handler run among them, and the refused request. -/
theorem tx_stores_when_free_busOff :
    (storeMachine.only begunWhenFree).Always (fun t => AllSent t.node) (callingBoot reset)
      ([.txMessage ss2CanId 4#8 [5#8, 0#8, 0#8, 0#8] blankTxElement, .store, .store,
        .node .busOff, .node .handler] ++ List.replicate 9 .store ++ [.node .busStep]) :=
  tx_stores_when_free powerOn_reset _

/-! ## Calls that do not wait -/

/-- The frame that the stores of `newer` make of `older`, both of one length. -/
def TxFrame.torn (older newer : TxFrame) (k : Nat) : TxFrame :=
  { newer with
    id := if 0 < k then newer.id else older.id
    data := newer.data.take (k - 2) ++ older.data.drop (k - 2) }

/-- The frame that a bus step sends where `older` was the last one accepted. -/
def CallingNode.onWire (s : CallingNode) (older : TxFrame) : TxFrame :=
  match s.call with
  | none => older
  | some c => older.torn (callFrame c.idValue c.length c.data) c.stores

/-- What a bus step puts on the wire. -/
def SendsOnWire (s : CallingNode) (e : StoreEvent) : Prop :=
  e = .node .busStep → ∃ older, (acceptedFrames s.node.trace).getLast? = some older ∧
    ∀ s', storeMachine.step s e = some s' →
      sentFrames s'.node.trace = sentFrames s.node.trace ++ [s.onWire older]

/-- All calls are for frames of `n` bytes, as all commands are of four. -/
def ofLength (n : Byte) (_ : CallingNode) : StoreEvent → Bool
  | .txMessage _ length _ _ => length = n
  | _ => true

theorem callFrame_eq {e : McanTxElement} {n : Byte} (h : e.ClassicStandard)
    (hdlc : e.dlc = n.setWidth 4) (hn : n.toNat ≤ 8) :
    e.frame =
      { extended := false, id := e.standardIdField.setWidth 29, rtr := false, fdf := false
        brs := false, dlc := n.setWidth 4, data := e.data.toList.take n.toNat } := by
  have hx : e.t0.getLsbD 30 = false := h.xtd
  have hr : e.t0.getLsbD 29 = false := h.rtr
  have hf : e.t1.getLsbD 21 = false := h.fdf
  have hb : e.t1.getLsbD 20 = false := h.brs
  have hd : field 16 4 e.t1 = n.setWidth 4 := hdlc
  have hbytes : dlcBytes false (n.setWidth 4) = n.toNat := by
    simp only [dlcBytes, BitVec.toNat_setWidth]
    simp
    omega
  simp only [McanTxElement.frame, hx, hr, hf, hb, hd, hbytes, if_false, Bool.false_eq_true]
  rfl

theorem splice_toList (older newer : McanTxElement) (k n : Nat) (hn : n ≤ confMcanElementDataSize) :
    (older.splice newer k).data.toList.take n =
      (newer.data.toList.take n).take (k - 2) ++ (older.data.toList.take n).drop (k - 2) := by
  apply List.ext_getElem
  · simp only [List.length_take, Vector.length_toList, List.length_append, List.length_drop]
    omega
  · intro i hi _
    rw [List.length_take, Vector.length_toList] at hi
    rw [List.getElem_take, Vector.getElem_toList, McanTxElement.splice_data, List.getElem_append]
    simp only [List.length_take, Vector.length_toList, List.getElem_take, Vector.getElem_toList,
      List.getElem_drop]
    by_cases hk : i + 2 < k
    · rw [if_pos hk, dif_pos (by omega)]
    · have hpos : k - 2 + (i - min (k - 2) (min n confMcanElementDataSize)) = i := by omega
      rw [if_neg hk, dif_neg (by omega)]
      simp only [hpos]

/-- Splicing two elements of one length tears their frames. -/
theorem splice_frame {older newer : McanTxElement} {n : Byte} {idValue idValue' : Word}
    {data data' : List Byte} (hn : n.toNat ≤ 8)
    (h : older.frame = callFrame idValue n data) (h' : newer.frame = callFrame idValue' n data')
    (k : Nat) : (older.splice newer k).frame = older.frame.torn (callFrame idValue' n data') k := by
  obtain ⟨hc, hid, hdlc⟩ := callFrame_fields h
  obtain ⟨hc', hid', hdlc'⟩ := callFrame_fields h'
  have hclassic : (older.splice newer k).ClassicStandard := by
    constructor
    · simp only [McanTxElement.xtd, McanTxElement.splice_t0]
      split
      · exact hc'.xtd
      · exact hc.xtd
    · simp only [McanTxElement.rtr, McanTxElement.splice_t0]
      split
      · exact hc'.rtr
      · exact hc.rtr
    · simp only [McanTxElement.fdf, McanTxElement.splice_t1]
      split
      · exact hc'.fdf
      · exact hc.fdf
    · simp only [McanTxElement.brs, McanTxElement.splice_t1]
      split
      · exact hc'.brs
      · exact hc.brs
  have hsplice : (older.splice newer k).dlc = n.setWidth 4 := by
    simp only [McanTxElement.dlc, McanTxElement.splice_t1]
    split
    · exact hdlc'
    · exact hdlc
  rw [callFrame_eq hclassic hsplice hn, ← h', callFrame_eq hc hdlc hn, callFrame_eq hc' hdlc' hn]
  simp only [TxFrame.torn, TxFrame.mk.injEq, true_and]
  refine ⟨?_, ?_⟩
  · simp only [McanTxElement.standardIdField, McanTxElement.splice_t0]
    split <;> rfl
  · exact splice_toList older newer k n.toNat hn

/-- An event that is not a call drops the request that waits, or leaves the transmit side alone. -/
theorem node_waits {s s' : Node} {e : NodeEvent} (he : e.isCall = false)
    (hs : nodeMachine.step s e = some s') :
    s'.mcan.txPending = false ∨
      (s'.mcan.txPending = s.mcan.txPending ∧ s'.mcan.cceBit = s.mcan.cceBit ∧
        acceptedFrames s'.trace = acceptedFrames s.trace) := by
  cases e with
  | txMessage idValue length data txElement => cases he
  | busStep =>
    obtain ⟨_, rfl⟩ := busStep_step hs
    left
    simp [Mcan.txPending]
  | rxBuffer k x | rxFifo0 x | rxFifo1 x =>
    cases hs
    refine .inr ⟨rfl, rfl, ?_⟩
    rw [Node.emit_trace, acceptedFrames_append]
    exact List.append_nil _
  | busOff =>
    cases hs
    exact .inr ⟨rfl, has_or_of_disjoint (by decide), rfl⟩
  | raise flags =>
    cases hs
    exact .inr ⟨rfl, rfl, rfl⟩
  | handler =>
    cases hs
    cases hoff : has s.mcan.ir mcanBusOff with
    | true => exact .inl (handler_busOff_free hoff)
    | false =>
      have hsame := txSame_handler hoff
      refine .inr ⟨?_, ?_, hsame.accepted⟩
      · rw [Mcan.txPending, hsame.txbrp, Mcan.txPending]
      · rw [Mcan.cceBit, hsame.cccr, Mcan.cceBit]

/-- A request waits for the last accepted frame, and none waits in configuration mode. -/
structure LastWaits (n : Byte) (s : CallingNode) : Prop where
  consistent : s.Consistent
  length : ∀ c, s.call = some c → c.length = n
  last : s.node.mcan.txPending = true → ∃ idValue data,
    (acceptedFrames s.node.trace).getLast? = some (callFrame idValue n data) ∧
      (s.whole.mcan.txBuffer mcanTxBufferIndex).frame = callFrame idValue n data
  able : s.node.mcan.cceBit = true → s.node.mcan.txPending = false

theorem TxCall.Under.frame {c : TxCall} {s : Node} (h : c.Under s) :
    c.element.frame = callFrame c.idValue c.length c.data := by
  obtain ⟨buf, hbuf, helement⟩ := h.element
  rw [helement]
  exact messageElement_frame hbuf

theorem LastWaits.returned {n : Byte} {s : CallingNode} {c : TxCall} (h : LastWaits n s)
    (hcall : s.call = some c) (hstores : elementStores ≤ c.stores) :
    LastWaits n (c.next s.node) := by
  have hunder := h.consistent c hcall
  have hnext := h.consistent.step (.returned c hcall hstores)
  have hbuffer : s.node.mcan.txBuffer mcanTxBufferIndex = c.element := by
    rw [hunder.buffer, Nat.le_antisymm hunder.stores hstores, McanTxElement.splice_all]
  cases hcce : s.node.mcan.cceBit with
  | true =>
    have hfree := h.able hcce
    simp only [TxCall.next, Nat.not_lt.mpr hstores, if_false, mcanTxTransferRequest, hcce,
      if_true] at hnext ⊢
    refine ⟨hnext, fun _ hc => ?_, fun hp => ?_, fun _ => hfree⟩
    · cases hc
    · rw [if_neg (by decide)] at hp
      rw [hp] at hfree
      cases hfree
  | false =>
    simp only [TxCall.next, Nat.not_lt.mpr hstores, if_false, mcanTxTransferRequest, hcce,
      if_true, Bool.false_eq_true] at hnext ⊢
    refine ⟨hnext, fun _ hc => ?_, fun _ => ⟨c.idValue, c.data, ?_, ?_⟩, fun hc => ?_⟩
    · cases hc
    · rw [← h.length c hcall]
      simp [acceptedFrames]
    · rw [← h.length c hcall, ← hunder.frame]
      exact congrArg McanTxElement.frame hbuffer
    · have hcce' : s.node.mcan.cceBit = true := hc
      rw [hcce] at hcce'
      cases hcce'

theorem LastWaits.node {n : Byte} {s : CallingNode} {s' : Node} {e : NodeEvent}
    (h : LastWaits n s) (he : e.isCall = false) (hs : nodeMachine.step s.node e = some s') :
    LastWaits n { s with node := s' } := by
  have hbuffer : (CallingNode.whole { s with node := s' }).mcan.txBuffer mcanTxBufferIndex =
      s.whole.mcan.txBuffer mcanTxBufferIndex := by
    obtain ⟨hsame, _⟩ := node_txSide he hs
    obtain ⟨node, call⟩ := s
    have hsame' : s'.mcan.txBuffer = node.mcan.txBuffer := hsame
    cases call <;> simp [CallingNode.whole, Node.overlay, Mcan.overlay, restored, hsame']
  refine ⟨h.consistent.step (.node e s' he hs), h.length, fun hp => ?_, fun hcce => ?_⟩
  · rcases node_waits he hs with hfree | ⟨hpend, _, hacc⟩
    · have hp' : s'.mcan.txPending = true := hp
      rw [hfree] at hp'
      cases hp'
    · rw [hbuffer]
      change ∃ idValue data, (acceptedFrames s'.trace).getLast? = _ ∧ _
      rw [hacc]
      exact h.last (hpend ▸ hp)
  · rcases node_waits he hs with hfree | ⟨hpend, hsame, _⟩
    · exact hfree
    · exact hpend.trans (h.able (hsame ▸ hcce))

theorem LastWaits.step {n : Byte} {s s' : CallingNode} {e : StoreEvent} (h : LastWaits n s)
    (hn : ofLength n s e = true) (hmove : StoreMove s e s') : LastWaits n s' := by
  cases hmove with
  | begun c hidle hcall hstores hreplaced =>
    have hview := StoreMove.view h.consistent rfl (.begun c hidle hcall hstores hreplaced)
    have hview' : CallingNode.whole { s with call := some c } = s.whole := hview
    refine ⟨h.consistent.step (.begun c hidle hcall hstores hreplaced), fun c' hc => ?_,
      fun hp => ?_, h.able⟩
    · cases hc
      simpa [ofLength] using hn
    · rw [hview']
      exact h.last hp
  | refused => exact h
  | stored c hcall hstores =>
    refine ⟨h.consistent.step (.stored c hcall hstores), fun c' hc => ?_, fun hp => ?_, h.able⟩
    · cases hc
      exact h.length c hcall
    · have hview := StoreMove.view h.consistent rfl (.stored c hcall hstores)
      simp only [storeLabel, hcall, hstores, if_true] at hview
      rw [hview]
      exact h.last hp
  | returned c hcall hstores => exact h.returned hcall hstores
  | node e s' he hs => exact h.node he hs

theorem LastWaits.sent {n : Byte} {s s' : CallingNode} (h : LastWaits n s)
    (hs : storeMachine.step s (.node .busStep) = some s') :
    ∃ older, (acceptedFrames s.node.trace).getLast? = some older ∧
      sentFrames s'.node.trace = sentFrames s.node.trace ++ [s.onWire older] := by
  obtain ⟨node, call⟩ := s
  cases storeStep_move hs with
  | node _ t he ht =>
    obtain ⟨hp, rfl⟩ := busStep_step ht
    obtain ⟨idValue, data, hlast, hwhole⟩ := h.last hp
    refine ⟨_, hlast, ?_⟩
    simp only [Node.emit_trace, Node.onMcan_trace, sentFrames_append]
    refine congrArg (sentFrames node.trace ++ [·]) ?_
    cases call with
    | none => exact hwhole
    | some c =>
      have hunder := h.consistent c rfl
      obtain rfl : c.length = n := h.length c rfl
      have hreplaced : c.replaced.frame = callFrame idValue c.length data := by
        have hbox : (CallingNode.whole ⟨node, some c⟩).mcan.txBuffer mcanTxBufferIndex =
            c.replaced := by
          simp [CallingNode.whole, Node.overlay, Mcan.overlay, restored]
        rw [← hbox]
        exact hwhole
      have hn : c.length.toNat ≤ 8 := by
        obtain ⟨buf, hbuf, _⟩ := hunder.element
        have hfits := (copyBytes_some (Nat.zero_le _) hbuf).2.1
        rwa [Nat.zero_add] at hfits
      have hspliced := splice_frame hn hreplaced hunder.frame c.stores
      have hbuffer : node.mcan.txBuffer 0 = c.replaced.splice c.element c.stores := hunder.buffer
      rw [hbuffer, hspliced, hreplaced]
      rfl

/-- **Torn frames.** Where all calls are for frames of one length, a bus step that comes between the
stores of a call sends the last accepted frame with what has been stored over it: from the first
store on the identifier is the new one, and the data is the new one byte by byte. -/
theorem tx_stores_torn {s : Node} (h : PowerOn s) (n : Byte) (es : List StoreEvent) :
    (storeMachine.only (ofLength n)).EachStep SendsOnWire (callingBoot s) es := by
  refine Machine.eachStep_of_invariant (I := LastWaits n) ?_ ?_
  · intro t e t' ht hs
    obtain ⟨hn, hs⟩ := Machine.only_step.mp hs
    refine ⟨?_, ht.step hn (storeStep_move hs)⟩
    rintro rfl
    obtain ⟨older, hlast, hsent⟩ := ht.sent hs
    refine ⟨older, hlast, fun t'' hs' => ?_⟩
    rw [hs] at hs'
    cases hs'
    exact hsent
  · have hfree : (boot s).mcan.txPending = false := by
      obtain ⟨_, _, _, _, hm⟩ := boot_mcan h
      simp [Mcan.txPending, hm]
    refine ⟨fun _ hc => ?_, fun _ hc => ?_, fun hp => ?_, fun _ => hfree⟩
    · cases hc
    · cases hc
    · have hp' : (boot s).mcan.txPending = true := hp
      rw [hfree] at hp'
      cases hp'

/-- An LED command for subsystem 1, and a query to subsystem 2 that has made one store. -/
def tornRun : List StoreEvent :=
  .txMessage ss1CanId 4#8 (canMessage ss1CmdIdTurnOnLed 0#32) blankTxElement ::
    (List.replicate (elementStores + 1) .store ++
      [.txMessage ss2CanId 4#8 (canMessage ss2CmdIdGetTemp 0#32) blankTxElement, .store,
        .node .busStep])

/-- The bus carries an LED command to subsystem 2 that nobody gave. -/
theorem tx_stores_torn_led :
    (storeMachine.only (ofLength 4#8)).EachStep SendsOnWire (callingBoot reset) tornRun ∧
      ((storeMachine.only (ofLength 4#8)).run (callingBoot reset) tornRun).map
        (fun t => sentFrames t.node.trace) =
          some [callFrame ss2CanId 4#8 (canMessage ss1CmdIdTurnOnLed 0#32)] :=
  ⟨tx_stores_torn powerOn_reset 4#8 tornRun, by decide +kernel⟩

end CanNet

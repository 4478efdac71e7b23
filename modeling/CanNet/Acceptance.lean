import CanNet.Node
import CanNet.Lib.RuleList
import Mathlib.Algebra.Group.Nat.Defs
import Mathlib.Data.List.Induction

/-!
# CanNet.Acceptance

Acceptance filtering: what the peripheral makes of the words the four filter-setting functions
leave in the message RAM.

The filter elements are read by the rules of the M_CAN: the elements are tried in list order, the
first one that matches decides, and a frame no element matches is left to the global filter
configuration. `filters_route` says that, from cleared lists, this is a lookup by identifier in the
table the calls describe.
-/

namespace CanNet

open Bits RuleList

/-! ## How the peripheral reads its filter lists -/

/-- What an element with configuration `ec` does with a frame: `none` when it does not match,
`some none` when it rejects it. `exact` is the comparison an Rx buffer element makes, which
ignores the filter type. -/
def elementAnswer (ec : BitVec 3) (filterMatch exact : Bool) (buffer : Nat) :
    Option (Option RxDest) :=
  if ec = 0#3 then none
  else if ec = 7#3 then if exact then some (some (.buffer buffer)) else none
  else if !filterMatch then none
  else if ec = 1#3 ∨ ec = 5#3 then some (some .fifo0)
  else if ec = 2#3 ∨ ec = 6#3 then some (some .fifo1)
  else some none

def rangeMatch {n : Nat} (id1 id2 id : BitVec n) : Bool := decide (id1 ≤ id) && decide (id ≤ id2)
def dualMatch {n : Nat} (id1 id2 id : BitVec n) : Bool := id == id1 || id == id2
def classicMatch {n : Nat} (id1 id2 id : BitVec n) : Bool := id &&& id2 == id1 &&& id2

/-- A standard element of type 3 is disabled. -/
def standardMatch (sft : BitVec 2) (sfid1 sfid2 id : BitVec 11) : Bool :=
  if sft = 0#2 then rangeMatch sfid1 sfid2 id
  else if sft = 1#2 then dualMatch sfid1 sfid2 id
  else if sft = 2#2 then classicMatch sfid1 sfid2 id
  else false

/-- `MCAN_XIDAM` masks the received identifier, except in type 3, a range without the mask. -/
def extendedMatch (eft : BitVec 2) (xidam efid1 efid2 id : BitVec 29) : Bool :=
  if eft = 0#2 then rangeMatch efid1 efid2 (id &&& xidam)
  else if eft = 1#2 then dualMatch efid1 efid2 (id &&& xidam)
  else if eft = 2#2 then classicMatch efid1 efid2 (id &&& xidam)
  else rangeMatch efid1 efid2 id

def standardAnswer (s0 : Word) (id : BitVec 11) : Option (Option RxDest) :=
  elementAnswer (field 27 3 s0)
    (standardMatch (field 30 2 s0) (field 16 11 s0) (field 0 11 s0) id)
    (id == field 16 11 s0) (field 0 6 s0).toNat

def extendedAnswer (xidam : Word) (f : Word × Word) (id : BitVec 29) : Option (Option RxDest) :=
  elementAnswer (field 29 3 f.1)
    (extendedMatch (field 30 2 f.2) (field 0 29 xidam) (field 0 29 f.1) (field 0 29 f.2) id)
    (id &&& field 0 29 xidam == field 0 29 f.1) (field 0 6 f.2).toNat

/-- The fields ANFS and ANFE of `MCAN_GFC`. -/
def nonMatching (anf : BitVec 2) : Option RxDest :=
  if anf = 0#2 then some .fifo0 else if anf = 1#2 then some .fifo1 else none

/-- Where a data frame with standard identifier `id` is stored; `none` is rejection. -/
def Mcan.acceptStandard (m : Mcan) (id : BitVec 11) : Option RxDest :=
  (firstMatch m.sidfcLss fun i => standardAnswer (m.standardFilter i) id).getD
    (nonMatching (field 4 2 m.gfc))

def Mcan.acceptExtended (m : Mcan) (id : BitVec 29) : Option RxDest :=
  (firstMatch m.xidfcLse fun i => extendedAnswer m.xidam (m.extendedFilter i) id).getD
    (nonMatching (field 2 2 m.gfc))

/-! ## The filter-setting calls -/

inductive FilterCall where
  | standardBuffer (idValue bufferIdx : Word) (idx : Nat)
  | standardFifo (idValue : Word) (idx : Nat)
  | extendedBuffer (idValue bufferIdx : Word) (idx : Nat)
  | extendedFifo (idValue : Word) (idx : Nat)
deriving DecidableEq

namespace FilterCall

def run : FilterCall → Node → Node
  | .standardBuffer idValue bufferIdx idx => canSetRxStandardBufferFilter idValue bufferIdx idx
  | .standardFifo idValue idx => canSetRxStandardFifoFilter idValue idx
  | .extendedBuffer idValue bufferIdx idx => canSetRxExtendedBufferFilter idValue bufferIdx idx
  | .extendedFifo idValue idx => canSetRxExtendedFifoFilter idValue idx

def runAll (calls : List FilterCall) (s : Node) : Node := calls.foldl (fun s c => c.run s) s

/-- Identifiers of 11 and 29 bits, positions inside the filter lists, existing Rx buffers. -/
def InRange : FilterCall → Prop
  | .standardBuffer idValue bufferIdx idx => idValue.toNat < 2 ^ 11 ∧
      bufferIdx.toNat < confMcan1RxBufferNum ∧ idx < confMcan1RxStandardIdFilterNum
  | .standardFifo idValue idx => idValue.toNat < 2 ^ 11 ∧ idx < confMcan1RxStandardIdFilterNum
  | .extendedBuffer idValue bufferIdx idx => idValue.toNat < 2 ^ 29 ∧
      bufferIdx.toNat < confMcan1RxBufferNum ∧ idx < confMcan1RxExtendedIdFilterNum
  | .extendedFifo idValue idx => idValue.toNat < 2 ^ 29 ∧ idx < confMcan1RxExtendedIdFilterNum

/-- The list position a call names and the rule it asks for there. -/
def standardRule : FilterCall → Option (Nat × Rule Nat RxDest)
  | .standardBuffer idValue bufferIdx idx => some (idx, ⟨idValue.toNat, .buffer bufferIdx.toNat⟩)
  | .standardFifo idValue idx => some (idx, ⟨idValue.toNat, .fifo0⟩)
  | .extendedBuffer .. | .extendedFifo .. => none

def extendedRule : FilterCall → Option (Nat × Rule Nat RxDest)
  | .extendedBuffer idValue bufferIdx idx => some (idx, ⟨idValue.toNat, .buffer bufferIdx.toNat⟩)
  | .extendedFifo idValue idx => some (idx, ⟨idValue.toNat, .fifo1⟩)
  | .standardBuffer .. | .standardFifo .. => none

end FilterCall

/-- The rule of the last call for each position. -/
def standardTable (calls : List FilterCall) : Nat → Option (Rule Nat RxDest) :=
  recorded (calls.filterMap FilterCall.standardRule)

def extendedTable (calls : List FilterCall) : Nat → Option (Rule Nat RxDest) :=
  recorded (calls.filterMap FilterCall.extendedRule)

/-! ## What one element answers -/

theorem standardBuffer_answer (b i id : BitVec 11) :
    standardAnswer (setField 27 (setField 16 (setField 0
        mcanGetStandardMessageFilterElementDefault b) i) 7#3) id =
      if id = i then some (some (.buffer (field 0 6 b).toNat)) else none := by
  have hec : ∀ r : Word, field 27 3 (setField 27 r 7#3) = 7#3 :=
    fun r => field_setField_same 27 r 7#3 (by omega)
  have hid : ∀ r : Word, field 16 11 (setField 27 (setField 16 r i) 7#3) = i := fun r => by
    rw [field_setField_disjoint 27 _ _ 16 11 (by omega), field_setField_same 16 r i (by omega)]
  have hbuf : field 0 6 (setField 27 (setField 16 (setField 0
      mcanGetStandardMessageFilterElementDefault b) i) 7#3) = field 0 6 b := by
    rw [field_setField_disjoint 27 _ _ 0 6 (by omega), field_setField_disjoint 16 _ _ 0 6 (by omega),
      field_setField_part 0 _ _ (by omega) (by omega)]
  simp [standardAnswer, elementAnswer, hec, hid, hbuf]

/-- A classic filter whose mask has every bit set compares the whole identifier. -/
theorem classicMatch_allOnes {n : Nat} (id1 id : BitVec n) :
    classicMatch id1 (BitVec.allOnes n) id = (id == id1) := by
  simp [classicMatch]

theorem standardFifo_answer (i id : BitVec 11) :
    standardAnswer (setField 16 mcanGetStandardMessageFilterElementDefault i) id =
      if id = i then some (some .fifo0) else none := by
  have hec : field 27 3 (setField 16 mcanGetStandardMessageFilterElementDefault i) = 1#3 := by
    rw [field_setField_disjoint 16 _ _ 27 3 (by omega)]; rfl
  have hft : field 30 2 (setField 16 mcanGetStandardMessageFilterElementDefault i) = 2#2 := by
    rw [field_setField_disjoint 16 _ _ 30 2 (by omega)]; rfl
  have hmask : field 0 11 (setField 16 mcanGetStandardMessageFilterElementDefault i) =
      BitVec.allOnes 11 := by
    rw [field_setField_disjoint 16 _ _ 0 11 (by omega)]; rfl
  have hid : field 16 11 (setField 16 mcanGetStandardMessageFilterElementDefault i) = i :=
    field_setField_same 16 _ i (by omega)
  simp only [standardAnswer, elementAnswer, standardMatch, hec, hft, hmask, hid,
    classicMatch_allOnes]
  by_cases h : id = i <;> simp [h]

/-- The mask `can_init` leaves in `MCAN_XIDAM` masks nothing. -/
theorem xidam_mask (id : BitVec 29) : id &&& field 0 29 0x1FFFFFFF#32 = id := by
  have : field 0 29 0x1FFFFFFF#32 = BitVec.allOnes 29 := rfl
  rw [this, BitVec.and_allOnes]

theorem extendedBuffer_answer (b i id : BitVec 29) :
    extendedAnswer 0x1FFFFFFF#32
        (setField 29 (setField 0 mcanGetExtendedMessageFilterElementDefault.1 i) 7#3,
          setField 0 mcanGetExtendedMessageFilterElementDefault.2 b) id =
      if id = i then some (some (.buffer (field 0 6 b).toNat)) else none := by
  have hec : ∀ r : Word, field 29 3 (setField 29 r 7#3) = 7#3 :=
    fun r => field_setField_same 29 r 7#3 (by omega)
  have hid : ∀ r : Word, field 0 29 (setField 29 (setField 0 r i) 7#3) = i := fun r => by
    rw [field_setField_disjoint 29 _ _ 0 29 (by omega), field_setField_same 0 r i (by omega)]
  have hbuf : ∀ r : Word, field 0 6 (setField 0 r b) = field 0 6 b :=
    fun r => field_setField_part 0 r b (by omega) (by omega)
  simp [extendedAnswer, elementAnswer, xidam_mask, hec, hid, hbuf]

theorem extendedFifo_answer (i id : BitVec 29) :
    extendedAnswer 0x1FFFFFFF#32
        (setField 0 mcanGetExtendedMessageFilterElementDefault.1 i,
          mcanGetExtendedMessageFilterElementDefault.2) id =
      if id = i then some (some .fifo1) else none := by
  have hec : field 29 3 (setField 0 mcanGetExtendedMessageFilterElementDefault.1 i) = 2#3 := by
    rw [field_setField_disjoint 0 _ _ 29 3 (by omega)]; rfl
  have hft : field 30 2 mcanGetExtendedMessageFilterElementDefault.2 = 2#2 := rfl
  have hmask : field 0 29 mcanGetExtendedMessageFilterElementDefault.2 = BitVec.allOnes 29 := rfl
  have hid : field 0 29 (setField 0 mcanGetExtendedMessageFilterElementDefault.1 i) = i :=
    field_setField_same 0 _ i (by omega)
  simp only [extendedAnswer, elementAnswer, extendedMatch, hec, hft, hmask, hid, xidam_mask,
    classicMatch_allOnes]
  by_cases h : id = i <;> simp [h]

/-- Elements that are all zero are disabled. -/
theorem standardAnswer_zero (id : BitVec 11) : standardAnswer 0#32 id = none := rfl

theorem extendedAnswer_zero (xidam : Word) (id : BitVec 29) :
    extendedAnswer xidam (0#32, 0#32) id = none := rfl

/-! ## What the calls leave in the message RAM -/

/-- The list holds, position by position, the rules of a table. -/
def Represents {n : Nat} (answer : Nat → BitVec n → Option (Option RxDest))
    (t : Nat → Option (Rule Nat RxDest)) : Prop :=
  ∀ i id, answer i id = ((t i).bind (Rule.answer id.toNat)).map some

/-- A call that writes a word which answers as the rule does keeps the agreement. -/
theorem Represents.write {n : Nat} {α : Type} {answer : α → BitVec n → Option (Option RxDest)}
    {filter : Nat → α} {t : Nat → Option (Rule Nat RxDest)}
    (h : Represents (fun i => answer (filter i)) t) (idx : Nat) {word : α} {r : Rule Nat RxDest}
    (hw : ∀ id, answer word id = (r.answer id.toNat).map some) :
    Represents (fun i => answer (Function.update filter idx word i))
      (Function.update t idx (some r)) := by
  intro i id
  by_cases hi : i = idx
  · subst hi
    simp only [Function.update_self, hw]
    rfl
  · simp only [Function.update_of_ne hi]
    exact h i id

structure Configured (calls : List FilterCall) (s : Node) : Prop where
  hw : s.hw = .mcan1
  sidfcLss : s.mcan.sidfcLss = confMcan1RxStandardIdFilterNum
  xidfcLse : s.mcan.xidfcLse = confMcan1RxExtendedIdFilterNum
  xidam : s.mcan.xidam = 0x1FFFFFFF#32
  gfc : s.mcan.gfc = 0x2B#32
  standard : Represents (fun i => standardAnswer (s.mcan.standardFilter i)) (standardTable calls)
  extended : Represents (fun i => extendedAnswer 0x1FFFFFFF#32 (s.mcan.extendedFilter i))
    (extendedTable calls)

/-- The word's identifier field compares as the number the caller passed. -/
theorem answer_of_key {n : Nat} {v : Word} (h : v.toNat < 2 ^ n) (d : RxDest) (id : BitVec n) :
    (if id = v.setWidth n then some (some d) else none) =
      ((⟨v.toNat, d⟩ : Rule Nat RxDest).answer id.toNat).map some := by
  have hk : id = v.setWidth n ↔ v.toNat = id.toNat := by
    rw [← BitVec.toNat_inj, BitVec.toNat_setWidth, Nat.mod_eq_of_lt h]
    exact eq_comm
  by_cases hv : v.toNat = id.toNat
  · rw [if_pos (hk.mpr hv), Rule.answer, if_pos hv]
    rfl
  · rw [if_neg (mt hk.mp hv), Rule.answer, if_neg hv]
    rfl

theorem bufferIndex_field {n : Nat} {b : Word} (h : b.toNat < confMcan1RxBufferNum) (hn : 6 ≤ n) :
    (field 0 6 (b.setWidth n)).toNat = b.toNat := by
  have hb : b.toNat < 4 := h
  have hpow : 2 ^ 6 ≤ 2 ^ n := Nat.pow_le_pow_right (by omega) hn
  have hn' : b.toNat % 2 ^ n = b.toNat := Nat.mod_eq_of_lt (by omega)
  have h6 : b.toNat % 2 ^ 6 = b.toNat := Nat.mod_eq_of_lt (by omega)
  rw [field, BitVec.extractLsb'_toNat, BitVec.toNat_setWidth, Nat.shiftRight_zero, hn', h6]

theorem standardTable_snoc (calls : List FilterCall) (c : FilterCall) :
    standardTable (calls ++ [c]) = match c.standardRule with
      | some (i, r) => Function.update (standardTable calls) i (some r)
      | none => standardTable calls := by
  cases h : c.standardRule with
  | none => simp [standardTable, h]
  | some w => simp [standardTable, h, recorded_snoc]

theorem extendedTable_snoc (calls : List FilterCall) (c : FilterCall) :
    extendedTable (calls ++ [c]) = match c.extendedRule with
      | some (i, r) => Function.update (extendedTable calls) i (some r)
      | none => extendedTable calls := by
  cases h : c.extendedRule with
  | none => simp [extendedTable, h]
  | some w => simp [extendedTable, h, recorded_snoc]

/-- A word that answers as the rule of a standard call does, written at its position. -/
theorem Configured.writeStandard {calls : List FilterCall} {s : Node} (h : Configured calls s)
    {c : FilterCall} {idx : Nat} {r : Rule Nat RxDest} {word ie : Word}
    (hstd : c.standardRule = some (idx, r)) (hext : c.extendedRule = none)
    (hw : ∀ id, standardAnswer word id = (r.answer id.toNat).map some) :
    Configured (calls ++ [c])
      (mcanEnableInterrupt ie (mcanSetRxStandardFilter word idx s).2) := by
  obtain ⟨hhw, hlss, hlse, hxidam, hgfc, hs, he⟩ := h
  simp only [mcanSetRxStandardFilter, hhw]
  refine ⟨hhw, hlss, hlse, hxidam, hgfc, ?_, ?_⟩
  · rw [standardTable_snoc, hstd]
    exact hs.write idx hw
  · rw [extendedTable_snoc, hext]
    exact he

theorem Configured.writeExtended {calls : List FilterCall} {s : Node} (h : Configured calls s)
    {c : FilterCall} {idx : Nat} {r : Rule Nat RxDest} {words : Word × Word} {ie : Word}
    (hstd : c.standardRule = none) (hext : c.extendedRule = some (idx, r))
    (hw : ∀ id, extendedAnswer 0x1FFFFFFF#32 words id = (r.answer id.toNat).map some) :
    Configured (calls ++ [c])
      (mcanEnableInterrupt ie (mcanSetRxExtendedFilter words idx s).2) := by
  obtain ⟨hhw, hlss, hlse, hxidam, hgfc, hs, he⟩ := h
  simp only [mcanSetRxExtendedFilter, hhw]
  refine ⟨hhw, hlss, hlse, hxidam, hgfc, ?_, ?_⟩
  · rw [standardTable_snoc, hstd]
    exact hs
  · rw [extendedTable_snoc, hext]
    exact he.write idx hw

/-- One call: the position it names answers as its rule does, the others as before. -/
theorem Configured.step {calls : List FilterCall} {s : Node} (h : Configured calls s)
    {c : FilterCall} (hc : c.InRange) : Configured (calls ++ [c]) (c.run s) := by
  cases c with
  | standardBuffer idValue bufferIdx idx =>
    obtain ⟨hid, hb, _⟩ := hc
    have hanswer := standardBuffer_answer (bufferIdx.setWidth 11) (idValue.setWidth 11)
    rw [bufferIndex_field hb (by omega)] at hanswer
    exact h.writeStandard rfl rfl fun id => (hanswer id).trans (answer_of_key hid _ id)
  | standardFifo idValue idx =>
    obtain ⟨hid, _⟩ := hc
    have hanswer := standardFifo_answer (idValue.setWidth 11)
    exact h.writeStandard rfl rfl fun id => (hanswer id).trans (answer_of_key hid _ id)
  | extendedBuffer idValue bufferIdx idx =>
    obtain ⟨hid, hb, _⟩ := hc
    have hanswer := extendedBuffer_answer (bufferIdx.setWidth 29) (idValue.setWidth 29)
    rw [bufferIndex_field hb (by omega)] at hanswer
    exact h.writeExtended rfl rfl fun id => (hanswer id).trans (answer_of_key hid _ id)
  | extendedFifo idValue idx =>
    obtain ⟨hid, _⟩ := hc
    have hanswer := extendedFifo_answer (idValue.setWidth 29)
    exact h.writeExtended rfl rfl fun id => (hanswer id).trans (answer_of_key hid _ id)

theorem configured_init {s : Node} (hinit : s.mcan.initBit = true)
    (hstd : ∀ i, s.mcan.standardFilter i = 0#32)
    (hext : ∀ i, s.mcan.extendedFilter i = (0#32, 0#32)) : Configured [] (canInit s) := by
  have hm := canInit_of_init hinit
  refine ⟨rfl, by rw [hm], by rw [hm], by rw [hm], by rw [hm], ?_, ?_⟩
  · intro i id
    rw [hm]
    simp only [hstd i, standardAnswer_zero]
    rfl
  · intro i id
    rw [hm]
    simp only [hext i, extendedAnswer_zero]
    rfl

theorem configured_runAll {s : Node} (h0 : Configured [] s) {calls : List FilterCall} :
    (∀ c, c ∈ calls → c.InRange) → Configured calls (FilterCall.runAll calls s) := by
  induction calls using List.reverseRecOn with
  | nil => intro _; exact h0
  | append_singleton calls c ih =>
    intro hc
    have hprev := ih fun c' hc' => hc c' (List.mem_append_left _ hc')
    have hlast := hprev.step (hc c (by simp))
    simpa [FilterCall.runAll] using hlast

/-! ## Each call keeps to its own position -/

theorem mcanSetRxStandardFilter_elsewhere (w : Word) (index : Nat) (s : Node) :
    (∀ i, i ≠ index →
      (mcanSetRxStandardFilter w index s).2.mcan.standardFilter i = s.mcan.standardFilter i) ∧
    (mcanSetRxStandardFilter w index s).2.mcan.extendedFilter = s.mcan.extendedFilter := by
  unfold mcanSetRxStandardFilter
  cases s.hw with
  | null => exact ⟨fun _ _ => rfl, rfl⟩
  | mcan1 =>
    refine ⟨fun i hi => ?_, rfl⟩
    show Function.update s.mcan.standardFilter index w i = _
    rw [Function.update_of_ne hi]

theorem mcanSetRxExtendedFilter_elsewhere (w : Word × Word) (index : Nat) (s : Node) :
    (∀ i, i ≠ index →
      (mcanSetRxExtendedFilter w index s).2.mcan.extendedFilter i = s.mcan.extendedFilter i) ∧
    (mcanSetRxExtendedFilter w index s).2.mcan.standardFilter = s.mcan.standardFilter := by
  unfold mcanSetRxExtendedFilter
  cases s.hw with
  | null => exact ⟨fun _ _ => rfl, rfl⟩
  | mcan1 =>
    refine ⟨fun i hi => ?_, rfl⟩
    show Function.update s.mcan.extendedFilter index w i = _
    rw [Function.update_of_ne hi]

theorem FilterCall.run_elsewhere (c : FilterCall) (t : Node) (i : Nat) :
    ((∀ r, c.standardRule ≠ some (i, r)) →
      (c.run t).mcan.standardFilter i = t.mcan.standardFilter i) ∧
    ((∀ r, c.extendedRule ≠ some (i, r)) →
      (c.run t).mcan.extendedFilter i = t.mcan.extendedFilter i) := by
  cases c with
  | standardBuffer idValue bufferIdx idx | standardFifo idValue idx =>
    refine ⟨fun h => ?_, fun _ => ?_⟩
    · have hi : i ≠ idx := fun e => h _ (by rw [e]; rfl)
      exact (mcanSetRxStandardFilter_elsewhere _ idx t).1 i hi
    · exact congrFun (mcanSetRxStandardFilter_elsewhere _ idx t).2 i
  | extendedBuffer idValue bufferIdx idx | extendedFifo idValue idx =>
    refine ⟨fun _ => ?_, fun h => ?_⟩
    · exact congrFun (mcanSetRxExtendedFilter_elsewhere _ idx t).2 i
    · have hi : i ≠ idx := fun e => h _ (by rw [e]; rfl)
      exact (mcanSetRxExtendedFilter_elsewhere _ idx t).1 i hi

/-! ## Routing -/

/-- The lowest position below `n` that holds a rule for `id` decides where its frames go; without
one they are rejected. -/
def RoutedBy (n : Nat) (t : Nat → Option (Rule Nat RxDest)) (id : Nat) (dest : Option RxDest) :
    Prop :=
  (∀ d, dest = some d ↔
    ∃ i, i < n ∧ t i = some ⟨id, d⟩ ∧ ∀ j, j < i → ∀ d', t j ≠ some ⟨id, d'⟩) ∧
  (dest = none ↔ ∀ i, i < n → ∀ d, t i ≠ some ⟨id, d⟩)

theorem Represents.routedBy {n k : Nat} {answer : Nat → BitVec k → Option (Option RxDest)}
    {t : Nat → Option (Rule Nat RxDest)} (h : Represents answer t) (id : BitVec k) :
    RoutedBy n t id.toNat ((firstMatch n fun i => answer i id).getD none) := by
  have e : (firstMatch n fun i => answer i id).getD none = lookup n t id.toNat := by
    rw [firstMatch_congr (fun i _ => h i id), firstMatch_map, lookup]
    cases firstMatch n fun i => (t i).bind (Rule.answer id.toNat) <;> rfl
  rw [e]
  exact ⟨fun d => lookup_eq_some, lookup_eq_none⟩

/-- After `can_init`, from cleared filter lists, every identifier is routed to the destination of
the last call for the lowest position that names it, and every other identifier is rejected; a
call changes no list position but its own. INIT is set wherever the program calls `can_init`: after
reset and after `mcan_stop`. -/
theorem filters_route {s : Node} (hinit : s.mcan.initBit = true)
    (hstd : ∀ i, s.mcan.standardFilter i = 0#32)
    (hext : ∀ i, s.mcan.extendedFilter i = (0#32, 0#32)) {calls : List FilterCall}
    (hc : ∀ c, c ∈ calls → c.InRange) :
    (∀ id : BitVec 11, RoutedBy confMcan1RxStandardIdFilterNum (standardTable calls) id.toNat
      ((FilterCall.runAll calls (canInit s)).mcan.acceptStandard id)) ∧
    (∀ id : BitVec 29, RoutedBy confMcan1RxExtendedIdFilterNum (extendedTable calls) id.toNat
      ((FilterCall.runAll calls (canInit s)).mcan.acceptExtended id)) ∧
    (∀ (c : FilterCall) (t : Node) (i : Nat),
      ((∀ r, c.standardRule ≠ some (i, r)) →
        (c.run t).mcan.standardFilter i = t.mcan.standardFilter i) ∧
      ((∀ r, c.extendedRule ≠ some (i, r)) →
        (c.run t).mcan.extendedFilter i = t.mcan.extendedFilter i)) := by
  obtain ⟨_, hlss, hlse, hxidam, hgfc, hs, he⟩ :=
    configured_runAll (configured_init hinit hstd hext) hc
  refine ⟨fun id => ?_, fun id => ?_, ?_⟩
  · rw [Mcan.acceptStandard, hlss, hgfc]
    exact hs.routedBy id
  · rw [Mcan.acceptExtended, hlse, hgfc, hxidam]
    exact he.routedBy id
  · exact FilterCall.run_elsewhere

/-- One identifier at two standard positions and at an extended one. -/
def overlappingCalls : List FilterCall :=
  [.standardBuffer selfCanId 2#32 0, .standardFifo selfCanId 1, .extendedFifo selfCanId 0]

theorem filters_route_overlapping :
    (FilterCall.runAll overlappingCalls (canInit reset)).mcan.acceptStandard 0x47A#11 =
      some (.buffer 2) ∧
    (FilterCall.runAll overlappingCalls (canInit reset)).mcan.acceptExtended 0x47A#29 =
      some .fifo1 ∧
    (FilterCall.runAll overlappingCalls (canInit reset)).mcan.acceptStandard 0x469#11 = none := by
  have hr : ∀ c, c ∈ overlappingCalls → c.InRange := by
    intro c hc
    simp only [overlappingCalls, List.mem_cons, List.not_mem_nil, or_false] at hc
    rcases hc with rfl | rfl | rfl <;> simp only [FilterCall.InRange] <;> decide
  obtain ⟨hs, he, _⟩ := filters_route (s := reset) (by decide) (fun _ => rfl) (fun _ => rfl) hr
  refine ⟨((hs 0x47A#11).1 _).mpr ⟨0, by decide, by decide, fun j hj => by omega⟩,
    ((he 0x47A#29).1 _).mpr ⟨0, by decide, by decide, fun j hj => by omega⟩,
    (hs 0x469#11).2.mpr fun i _ d ht => ?_⟩
  have hmem := recorded_mem ht
  simp [overlappingCalls, FilterCall.standardRule, selfCanId] at hmem

end CanNet

import Mathlib.Tactic.Common

/-!
# CanNet.Lib.Codec

Values written as lists of symbols and read back, over arbitrary symbols and values.

A `Codec` writes a value so that it can be read off the front of whatever follows. That makes codecs
compose: text around a value (`after`, `before`), one value after another (`pair`), a count and so
many values (`counted`), and a stream of values (`writeAll`, `readAll`).
-/

namespace CanNet

structure Codec (β α : Type) where
  write : α → List β
  read : List β → Option (α × List β)
  read_write : ∀ a rest, read (write a ++ rest) = some (a, rest)

namespace Codec

variable {β α γ : Type}

/-- One symbol as it is. -/
def symbol : Codec β β where
  write b := [b]
  read
    | [] => none
    | b :: rest => some (b, rest)
  read_write _ _ := rfl

/-- What `text` is followed by. -/
def dropText [DecidableEq β] : List β → List β → Option (List β)
  | [], l => some l
  | _ :: _, [] => none
  | t :: text, b :: l => if t = b then dropText text l else none

theorem dropText_append [DecidableEq β] (text l : List β) : dropText text (text ++ l) = some l := by
  induction text with
  | nil => rfl
  | cons t text ih => simpa [dropText] using ih

section

variable [DecidableEq β]

/-- A value after a text. -/
def after (text : List β) (c : Codec β α) : Codec β α where
  write a := text ++ c.write a
  read l := (dropText text l).bind c.read
  read_write a rest := by
    rw [List.append_assoc, dropText_append]
    exact c.read_write a rest

/-- A value before a text. -/
def before (c : Codec β α) (text : List β) : Codec β α where
  write a := c.write a ++ text
  read l := (c.read l).bind fun p => (dropText text p.2).map fun rest => (p.1, rest)
  read_write a rest := by
    rw [List.append_assoc, c.read_write, Option.bind_some, dropText_append]
    rfl

/-- A word without `stop` in it, up to the next `stop`. -/
def delimited (stop : β) (word : α → List β) (value : List β → Option α)
    (hstop : ∀ a, stop ∉ word a) (hvalue : ∀ a, value (word a) = some a) : Codec β α where
  write a := word a ++ [stop]
  read l :=
    (value (l.takeWhile fun b => b ≠ stop)).bind fun a =>
      match l.dropWhile fun b => b ≠ stop with
      | [] => none
      | _ :: rest => some (a, rest)
  read_write a rest := by
    have hall : ∀ b ∈ word a, decide (b ≠ stop) = true := fun b hb =>
      decide_eq_true fun he => hstop a (he ▸ hb)
    have htake : (stop :: rest).takeWhile (fun b => decide (b ≠ stop)) = [] :=
      List.takeWhile_cons_of_neg (by simp)
    have hdrop : (stop :: rest).dropWhile (fun b => decide (b ≠ stop)) = stop :: rest :=
      List.dropWhile_cons_of_neg (by simp)
    rw [List.append_assoc, List.singleton_append, List.takeWhile_append_of_pos hall,
      List.dropWhile_append_of_pos hall, htake, hdrop, List.append_nil, hvalue]
    rfl

end

/-- One value after another. -/
def pair (c : Codec β α) (d : Codec β γ) : Codec β (α × γ) where
  write p := c.write p.1 ++ d.write p.2
  read l := (c.read l).bind fun p => (d.read p.2).map fun q => ((p.1, q.1), q.2)
  read_write p rest := by
    rw [List.append_assoc, c.read_write, Option.bind_some, d.read_write]
    rfl

/-! ## Many values -/

variable (c : Codec β α)

def writeAll (as : List α) : List β := as.flatMap c.write

def readTimes : Nat → List β → Option (List α × List β)
  | 0, l => some ([], l)
  | n + 1, l => (c.read l).bind fun p => (readTimes n p.2).map fun q => (p.1 :: q.1, q.2)

theorem readTimes_writeAll (as : List α) (rest : List β) :
    c.readTimes as.length (c.writeAll as ++ rest) = some (as, rest) := by
  induction as with
  | nil => rfl
  | cons a as ih =>
    have hcons : c.writeAll (a :: as) = c.write a ++ c.writeAll as := List.flatMap_cons
    rw [List.length_cons, readTimes, hcons, List.append_assoc, c.read_write, Option.bind_some, ih]
    rfl

/-- A list after the number of its values. -/
def counted (n : Codec β Nat) : Codec β (List α) where
  write as := n.write as.length ++ c.writeAll as
  read l := (n.read l).bind fun p => c.readTimes p.1 p.2
  read_write as rest := by
    rw [List.append_assoc, n.read_write]
    exact c.readTimes_writeAll as rest

theorem writeAll_append (as bs : List α) :
    c.writeAll (as ++ bs) = c.writeAll as ++ c.writeAll bs := List.flatMap_append

end Codec
end CanNet

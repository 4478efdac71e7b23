import Mathlib.Tactic.Common

/-!
# CanNet.Lib.Mailbox

A box that holds one message: a new message replaces the one inside, and taking the message
empties the box.

* `replay`    — the box after a log of puts and takes; `none` if a take is not of what was inside.
* `puts`, `takes` — the messages put and the messages taken.
* `survivors` — the messages put that no newer one replaced.

A log that replays takes every survivor exactly once and in order, but for the message that is
still in the box: `takes_eq_survivors`.
-/

namespace CanNet

inductive MailEvent (α : Type) where
  | put (a : α)
  | take (a : α)

namespace Mailbox

variable {α : Type}

section

variable [DecidableEq α]

def replay : Option α → List (MailEvent α) → Option (Option α)
  | box, [] => some box
  | _, .put a :: log => replay (some a) log
  | box, .take a :: log => if box = some a then replay none log else none

end

def puts : List (MailEvent α) → List α
  | [] => []
  | .put a :: log => a :: puts log
  | .take _ :: log => puts log

def takes : List (MailEvent α) → List α
  | [] => []
  | .put _ :: log => takes log
  | .take a :: log => a :: takes log

/-- The next thing that happens is a put. -/
def replaced : List (MailEvent α) → Bool
  | .put _ :: _ => true
  | _ => false

def survivors : List (MailEvent α) → List α
  | [] => []
  | .put a :: log => if replaced log then survivors log else a :: survivors log
  | .take _ :: log => survivors log

theorem survivors_sublist (log : List (MailEvent α)) : (survivors log).Sublist (puts log) := by
  induction log with
  | nil => exact List.Sublist.slnil
  | cons e log ih =>
    cases e with
    | take a => exact ih
    | put a =>
      simp only [survivors, puts]
      split
      · exact ih.cons a
      · exact ih.cons_cons a

/-- What is taken last does not change what survives. -/
theorem survivors_take (log : List (MailEvent α)) (a : α) :
    survivors (log ++ [.take a]) = survivors log := by
  induction log with
  | nil => rfl
  | cons e log ih =>
    cases e with
    | take b => exact ih
    | put b =>
      have hreplaced : replaced (log ++ [.take a]) = replaced log := by
        cases log with
        | nil => rfl
        | cons e' _ => cases e' <;> rfl
      simp only [List.cons_append, survivors, hreplaced, ih]

variable [DecidableEq α]

theorem replay_append (log more : List (MailEvent α)) : ∀ box : Option α,
    replay box (log ++ more) = (replay box log).bind fun box' => replay box' more := by
  induction log with
  | nil => intro box; rfl
  | cons e log ih =>
    intro box
    cases e with
    | put a => exact ih (some a)
    | take a =>
      by_cases h : box = some a
      · simp only [List.cons_append, replay, h, if_true]
        exact ih none
      · simp only [List.cons_append, replay, h, if_false]
        rfl

/-- What is in the box before the log survives unless the log begins with a put. -/
theorem takes_eq_survivors_from {log : List (MailEvent α)} : ∀ {box box' : Option α},
    replay box log = some box' →
      takes log ++ box'.toList =
        (if replaced log then [] else box.toList) ++ survivors log := by
  induction log with
  | nil =>
    intro box box' h
    cases h
    simp [takes, replaced, survivors]
  | cons e log ih =>
    intro box box' h
    cases e with
    | put a =>
      have hput : replay (some a) log = some box' := h
      have hlog := ih hput
      have hfirst : replaced (.put a :: log) = true := rfl
      by_cases hr : replaced log = true
      · simp only [takes, survivors, hfirst, hr, if_true, List.nil_append] at hlog ⊢
        exact hlog
      · simp only [takes, survivors, hfirst, hr, if_true, if_false, List.nil_append,
          Bool.false_eq_true] at hlog ⊢
        exact hlog
    | take a =>
      simp only [replay] at h
      split at h
      · rename_i hbox
        have hlog := ih h
        have htake : replaced (.take a :: log) = false := rfl
        simp only [Option.toList_none, ite_self, List.nil_append] at hlog
        simp only [takes, survivors, htake, hbox, List.cons_append, hlog]
        rfl
      · cases h

theorem takes_eq_survivors {log : List (MailEvent α)} {box : Option α}
    (h : replay none log = some box) : takes log ++ box.toList = survivors log := by
  have := takes_eq_survivors_from h
  simpa using this

/-- A box found empty has delivered every survivor. -/
theorem delivered {log : List (MailEvent α)} (h : replay none log = some none) :
    takes log = survivors log := by
  have := takes_eq_survivors h
  simpa using this

/-- A message put into an empty box replaces none. -/
theorem survivors_put {log : List (MailEvent α)} (h : replay none log = some none) (a : α) :
    survivors (log ++ [.put a]) = survivors log ++ [a] := by
  have hput : replay none (log ++ [.put a]) = some (some a) := by
    rw [replay_append, h]
    rfl
  have htakes : ∀ l : List (MailEvent α), takes (l ++ [.put a]) = takes l := by
    intro l
    induction l with
    | nil => rfl
    | cons e l ih =>
      cases e with
      | put b => exact ih
      | take b => exact congrArg (b :: ·) ih
  rw [← takes_eq_survivors hput, htakes, delivered h]
  rfl

end Mailbox
end CanNet

/-
# Alarms

An alarm is due at a time, if it is set, and rings when it is looked at and its time has come.
It is then set an interval ahead of the time at which it was looked at, or not at all if the
interval is not positive.

The `Life` of an alarm is what it was set to and when it has rung since.  It says what the alarm
is set to now, and `Kept` says that no ring came early; from this follows that the rings are an
interval apart, and none of them before its place in the schedule.
-/
import Mathlib

namespace Alarms

variable {T : Type*} [AddCommGroup T] [LinearOrder T]

/-- When an alarm is due, if it is set, and its interval. -/
@[ext]
structure Alarm (T : Type*) where
  due : Option T
  interval : T
  deriving DecidableEq, Repr

/-- The time of an alarm has come. -/
def Alarm.Due (now : T) (a : Alarm T) : Prop := ∃ d, a.due = some d ∧ d ≤ now

/-- The alarm after it has rung. -/
def Alarm.rearm (now : T) (a : Alarm T) : Alarm T :=
  { a with due := if 0 < a.interval then some (now + a.interval) else none }

/-! ## Lives -/

/-- What an alarm was set to, and when it has rung since, the last ring first. -/
structure Life (T : Type*) where
  set : Alarm T
  rang : List T

/-- What the alarm is set to now. -/
def Life.alarm (l : Life T) : Alarm T :=
  match l.rang with
  | [] => l.set
  | t :: _ => l.set.rearm t

/-- One ring more. -/
def Life.ring (now : T) (l : Life T) : Life T := { l with rang := now :: l.rang }

theorem Life.alarm_ring (now : T) (l : Life T) : (l.ring now).alarm = l.alarm.rearm now := by
  unfold Life.ring Life.alarm
  cases l.rang <;> rfl

theorem Life.interval_alarm (l : Life T) : l.alarm.interval = l.set.interval := by
  unfold Life.alarm
  cases l.rang <;> rfl

/-! ## Lives that keep to their schedule -/

/-- No ring came early. -/
inductive Kept (a : Alarm T) : List T → Prop
  | nil : Kept a []
  | cons {now : T} {rang : List T} (h : Kept a rang) (hdue : (Life.mk a rang).alarm.Due now) :
      Kept a (now :: rang)

/-- A ring of an alarm that is due keeps to the schedule. -/
theorem Kept.ring {l : Life T} (h : Kept l.set l.rang) {now : T} (hdue : l.alarm.Due now) :
    Kept (l.ring now).set (l.ring now).rang := .cons h hdue

section Rings

variable {a : Alarm T} {rang : List T}

/-- Between two rings there is an interval. -/
theorem Kept.gap {now t : T} (h : Kept a (now :: t :: rang)) :
    0 < a.interval ∧ t + a.interval ≤ now := by
  cases h with
  | cons _ hdue =>
      obtain ⟨d, hset, hle⟩ := hdue
      unfold Life.alarm Alarm.rearm at hset
      dsimp only at hset
      split_ifs at hset with hpos
      cases hset
      exact ⟨hpos, hle⟩

/-- Without an interval an alarm rings once. -/
theorem Kept.length_le (h : Kept a rang) (hint : a.interval ≤ 0) : rang.length ≤ 1 := by
  match rang, h with
  | [], _ => exact Nat.zero_le 1
  | [_], _ => exact le_rfl
  | _ :: _ :: _, h => exact absurd h.gap.1 (not_lt.2 hint)

theorem Kept.drop (h : Kept a rang) (k : ℕ) : Kept a (rang.drop k) := by
  induction k generalizing rang with
  | zero => exact h
  | succ k ih =>
      cases h with
      | nil => exact .nil
      | cons h _ => exact ih h

variable [IsOrderedAddMonoid T]

/-- **Rings are an interval apart**, any two of them. -/
theorem Kept.pairwise (h : Kept a rang) :
    rang.Pairwise fun later earlier => earlier + a.interval ≤ later := by
  induction rang with
  | nil => exact List.Pairwise.nil
  | cons now rang ih =>
      have hrest : Kept a rang := by
        cases h with
        | cons h _ => exact h
      refine List.pairwise_cons.2 ⟨fun t ht => ?_, ih hrest⟩
      cases rang with
      | nil => cases ht
      | cons t' rang =>
          obtain ⟨hpos, hgap⟩ := h.gap
          rcases List.mem_cons.1 ht with rfl | ht
          · exact hgap
          · -- the ring between the two is no earlier than the first of them
            have hbetween := List.rel_of_pairwise_cons (ih hrest) ht
            calc t + a.interval ≤ t' := hbetween
              _ ≤ t' + a.interval := le_add_of_nonneg_right hpos.le
              _ ≤ now := hgap

/-- **No ring before its place in the schedule**: the ring that has `k` others before it is not
before the first time plus `k` intervals. -/
theorem Kept.le_ring {now : T} (h : Kept a (now :: rang)) :
    ∃ d, a.due = some d ∧ d + rang.length • a.interval ≤ now := by
  induction rang generalizing now with
  | nil =>
      cases h with
      | cons _ hdue =>
          obtain ⟨d, hset, hle⟩ := hdue
          exact ⟨d, hset, by rw [List.length_nil, zero_smul, add_zero]; exact hle⟩
  | cons t rang ih =>
      obtain ⟨-, hgap⟩ := h.gap
      cases h with
      | cons hrest _ =>
          obtain ⟨d, hset, hle⟩ := ih hrest
          refine ⟨d, hset, ?_⟩
          calc d + (t :: rang).length • a.interval
              = d + rang.length • a.interval + a.interval := by
                rw [List.length_cons, succ_nsmul, add_assoc]
            _ ≤ t + a.interval := by gcongr
            _ ≤ now := hgap

end Rings

/-- The rings of an alarm keep to its schedule. -/
structure Life.OnSchedule (l : Life T) : Prop where
  /-- The ring that has `k` others after it, counted in intervals. -/
  not_early : ∀ (k : ℕ) (t : T), l.rang[k]? = some t →
    ∃ d, l.set.due = some d ∧ d + (l.rang.length - 1 - k) • l.set.interval ≤ t
  apart : l.rang.Pairwise fun later earlier => earlier + l.set.interval ≤ later
  once : l.set.interval ≤ 0 → l.rang.length ≤ 1

/-- **An alarm whose rings were due keeps to its schedule.** -/
theorem Kept.onSchedule [IsOrderedAddMonoid T] {l : Life T} (h : Kept l.set l.rang) :
    l.OnSchedule := by
  refine ⟨fun k t hk => ?_, h.pairwise, h.length_le⟩
  obtain ⟨hlt, hget⟩ := List.getElem?_eq_some_iff.1 hk
  have hdrop := h.drop k
  rw [List.drop_eq_getElem_cons hlt, hget] at hdrop
  obtain ⟨d, hset, hle⟩ := hdrop.le_ring
  rw [List.length_drop, Nat.add_comm, ← Nat.sub_sub] at hle
  exact ⟨d, hset, hle⟩

end Alarms

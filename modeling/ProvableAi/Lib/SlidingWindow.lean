/-
# Sliding windows

A window keeps the times of the calls it let through.  At a call it drops those
that are `width` old; it lets the call through while fewer than `limit` are left
and then keeps its time.  Times are from any linearly ordered group.

`Tracks` says what a window is worth: from a reading of the clock on it answers
for the whole history of calls that it let through, no interval of the width of
the window holds more than `limit` of them.  `Tracks.add` and `Tracks.refuse`
are its step lemmas.
-/

import Mathlib.Algebra.Order.Group.Basic
import Mathlib.Data.List.Basic
import Mathlib.Data.Int.Basic

namespace ProvableAi
namespace SlidingWindow

variable {τ : Type*} [AddCommGroup τ] [LinearOrder τ] [IsOrderedAddMonoid τ]

/-- The times that are less than `width` old. -/
def live (width now : τ) (times : List τ) : List τ := times.filter fun t => now - width < t

/-- The times in the half-open interval of the width that ends with `t`. -/
def within (width t : τ) (times : List τ) : List τ := times.filter fun x => t - width < x ∧ x ≤ t

variable {width now later b x : τ} {times window history : List τ} {limit : ℤ}

@[simp] theorem live_nil : live width now [] = [] := rfl

theorem live_append (times more : List τ) : live width now (times ++ more) = live width now times ++ live width now more :=
  List.filter_append ..

theorem mem_live : x ∈ live width now times ↔ x ∈ times ∧ now - width < x := by
  simp [live]

theorem live_sublist : (live width now times).Sublist times := List.filter_sublist

/-- What is dropped stays dropped. -/
theorem live_live (h : now ≤ later) : live width later (live width now times) = live width later times := by
  rw [live, live, List.filter_filter]
  refine List.filter_congr fun x _ => ?_
  have hle : now - width ≤ later - width := sub_le_sub_right h width
  by_cases hx : later - width < x
  · simp [hx, hle.trans_lt hx]
  · simp [hx]

/-- While nothing lies ahead of the clock, the interval that ends now holds what is live. -/
theorem live_eq_within (h : ∀ x ∈ times, x ≤ now) : live width now times = within width now times := by
  refine List.filter_congr fun x hx => ?_
  simp [h x hx]

/-- **What a window is worth** from the reading `b` on. -/
structure Tracks (width : τ) (limit : ℤ) (window history : List τ) (b : τ) : Prop where
  past : ∀ x ∈ history, x ≤ b
  same : ∀ later, b ≤ later → live width later window = live width later history
  bounded : ∀ t, ((within width t history).length : ℤ) ≤ limit

theorem Tracks.init (h : 0 ≤ limit) (b : τ) : Tracks width limit [] [] b where
  past _ h := by cases h
  same _ _ := rfl
  bounded _ := h

theorem Tracks.mono (h : Tracks width limit window history b) (hb : b ≤ now) : Tracks width limit window history now where
  past x hx := (h.past x hx).trans hb
  same later hl := h.same later (hb.trans hl)
  bounded := h.bounded

/-- At a call the window holds the history of the interval that ends there. -/
theorem Tracks.live_eq (h : Tracks width limit window history b) (hb : b ≤ now) :
    live width now window = within width now history := by
  rw [h.same now hb, live_eq_within fun x hx => (h.past x hx).trans hb]

/-- A call that is refused. -/
theorem Tracks.refuse (h : Tracks width limit window history b) (hb : b ≤ now) :
    Tracks width limit (live width now window) history now where
  past x hx := (h.past x hx).trans hb
  same later hl := by rw [live_live hl, h.same later (hb.trans hl)]
  bounded := h.bounded

/-- A call that is let through. -/
theorem Tracks.add (h : Tracks width limit window history b) (hb : b ≤ now)
    (hroom : ((live width now window).length : ℤ) < limit) :
    Tracks width limit (live width now window ++ [now]) (history ++ [now]) now where
  past x hx := by
    rcases List.mem_append.1 hx with hx | hx
    · exact (h.past x hx).trans hb
    · exact (List.mem_singleton.1 hx).le
  same later hl := by rw [live_append, live_append, live_live hl, h.same later (hb.trans hl)]
  bounded t := by
    rw [within, List.filter_append]
    by_cases hnow : t - width < now ∧ now ≤ t
    · -- what the interval holds of the history is live at the call
      have hsub : (within width t history).Sublist (live width now window) := by
        rw [h.same now hb]
        refine List.monotone_filter_right _ fun x hx => ?_
        rw [decide_eq_true_eq] at hx ⊢
        exact (sub_le_sub_right hnow.2 width).trans_lt hx.1
      have hlen := hsub.length_le
      rw [within] at hlen
      rw [List.filter_cons_of_pos (by simpa using hnow), List.filter_nil, List.length_append, List.length_singleton]
      push_cast
      omega
    · rw [List.filter_cons_of_neg (by simpa using hnow), List.filter_nil, List.append_nil]
      exact h.bounded t

end SlidingWindow
end ProvableAi

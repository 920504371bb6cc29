import Mathlib.Data.Nat.Log
import TmatePlugin.Lib.Loop

/-!
# The pause before a reconnect

`ExponentialRetryPause` of `MainSrc/WebSocketClient.cpp`, called by main with the
number of connections that broke since the last one that opened. No value in it
leaves the range of an int: the argument is halved, and `base` stays below 7.

* `pauseLoop_eq`: the loop counts how often the number can be halved, up to 6.
* `retry_pause`: the pause, its bounds, and that it grows with the failures.
-/
namespace TmatePlugin.L3.RetryPause

open Outcome

structure PauseLoop where
  retryTimes : Int
  base : Int

/-- One evaluation of the condition, and the body behind it.
mirrors MainSrc/WebSocketClient.cpp:689-691 -/
def pauseRound (s : PauseLoop) : Outcome (PauseLoop ⊕ Int) :=
  let retryTimes := s.retryTimes.tdiv 2
  if retryTimes ≥ 1 ∧ s.base < 6 then pure (.inl ⟨retryTimes, s.base + 1⟩) else pure (.inr s.base)

/-- The condition is evaluated at most seven times.
mirrors MainSrc/WebSocketClient.cpp:685-694 -/
def exponentialRetryPause (retryTimes : Int) : Outcome Int :=
  if retryTimes = 0 then pure 1
  else do
    let base ← Loop.run pauseRound 7 ⟨retryTimes, 0⟩
    pure ((base + 1) * 10)

/-- The pause as a function of the number of failures. -/
def pause (n : Int) : Int :=
  if n = 0 then 1 else if n < 0 then 10 else 10 * (1 + min 6 (Nat.log 2 n.toNat : Int))

/-- The loop halves `n` until it is 1, or `base` is 6. -/
theorem pauseLoop_eq (left n base : Nat) (hbase : base + left = 6) (hn : 0 < n) :
    Loop.run pauseRound (left + 1) ⟨n, base⟩ = .ok (min 6 (base + Nat.log 2 n : Int)) := by
  induction left generalizing n base with
  | zero =>
    have hsix : (base : Int) = 6 := by omega
    have hstop : pauseRound ⟨n, base⟩ = .ok (.inr base) := if_neg (by simp [hsix])
    rw [Loop.run_last hstop]
    congr 1
    omega
  | succ left ih =>
    have hhalf : (n : Int).tdiv 2 = (n / 2 : Nat) := by
      rw [Int.tdiv_eq_ediv_of_nonneg (by omega)]
      rfl
    by_cases htwo : 2 ≤ n
    · have hnext : pauseRound ⟨n, base⟩ = .ok (.inl ⟨(n / 2 : Nat), (base + 1 : Nat)⟩) := by
        simp only [pauseRound, hhalf]
        exact if_pos ⟨by omega, by omega⟩
      have hlog : Nat.log 2 n = Nat.log 2 (n / 2) + 1 := Nat.log_of_one_lt_of_le (by decide) htwo
      rw [Loop.run_next hnext, ih (n / 2) (base + 1) (by omega) (by omega), hlog]
      congr 1
      omega
    · have hone : n = 1 := by omega
      have hstop : pauseRound ⟨n, base⟩ = .ok (.inr base) := by
        simp only [pauseRound, hhalf]
        exact if_neg fun h => by omega
      rw [Loop.run_last hstop, hone, Nat.log_one_right]
      congr 1
      omega

theorem exponentialRetryPause_eq (n : Int) : exponentialRetryPause n = .ok (pause n) := by
  rcases Int.lt_trichotomy n 0 with hneg | hzero | hpos
  · have hstop : pauseRound ⟨n, 0⟩ = .ok (.inr 0) :=
      if_neg fun h => by
        have hle : 0 ≤ (-n).tdiv 2 := Int.tdiv_nonneg (by omega) (by decide)
        rw [Int.neg_tdiv] at hle
        exact absurd h.1 (Int.not_le.mpr (show n.tdiv 2 < 1 by omega))
    rw [exponentialRetryPause, if_neg (by omega), Loop.run_last hstop, bind_ok, pause, if_neg (by omega),
      if_pos hneg]
    rfl
  · rw [hzero]
    rfl
  · have hloop := pauseLoop_eq 6 n.toNat 0 rfl (by omega)
    rw [Int.toNat_of_nonneg (by omega)] at hloop
    rw [exponentialRetryPause, if_neg (by omega), show (0 : Int) = ((0 : Nat) : Int) from rfl, hloop,
      bind_ok, pause, if_neg (by omega), if_neg (by omega)]
    simp only [pure]
    congr 1
    omega

theorem pause_bounds (n : Int) : 1 ≤ pause n ∧ pause n ≤ 70 := by
  unfold pause
  split
  · decide
  · split
    · decide
    · omega

theorem pause_mono {m n : Int} (hm : 0 ≤ m) (hmn : m ≤ n) : pause m ≤ pause n := by
  by_cases hzero : m = 0
  · rw [hzero]
    exact (pause_bounds n).1
  · have hlog : Nat.log 2 m.toNat ≤ Nat.log 2 n.toNat := Nat.log_mono_right (Int.toNat_le_toNat hmn)
    rw [pause, pause, if_neg hzero, if_neg (by omega), if_neg (by omega), if_neg (by omega)]
    omega

/-- The call ends, for every int; its result is between one and seventy seconds,
and more failures never wait less. -/
theorem retry_pause (n : Int) :
    exponentialRetryPause n =
      .ok (if n = 0 then 1 else if n < 0 then 10 else 10 * (1 + min 6 (Nat.log 2 n.toNat : Int))) ∧
    (∀ seconds, exponentialRetryPause n = .ok seconds → 1 ≤ seconds ∧ seconds ≤ 70) ∧
    ∀ m shorter longer, 0 ≤ m → m ≤ n → exponentialRetryPause m = .ok shorter →
      exponentialRetryPause n = .ok longer → shorter ≤ longer := by
  refine ⟨exponentialRetryPause_eq n, ?_, ?_⟩
  · intro seconds h
    rw [exponentialRetryPause_eq] at h
    cases h
    exact pause_bounds n
  · intro m shorter longer hm hmn hshorter hlonger
    rw [exponentialRetryPause_eq] at hshorter hlonger
    cases hshorter
    cases hlonger
    exact pause_mono hm hmn

end TmatePlugin.L3.RetryPause

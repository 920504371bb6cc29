import TmatePlugin.L4Threads.StatesRequest

/-!
# How often the state files are checked

An iteration of `NotifyDataThread` checks the files when `stateCount % 20 == 1`, or
when another thread has asked for it. The count starts again from 0 before it reaches
INT32_MAX, which is 7 more than a multiple of 20, so that the last checks before the
wrap and the first one behind it are nearer to each other than 20 iterations.

* `iterationsLeft_next`: every iteration, the one that wraps included, brings the next
  check nearer by one.
* `check_cadence`: the count stays an int, and of 20 iterations of a registered plugin
  one checks the files.
-/
namespace TmatePlugin.L4.CheckCadence

open Transition CString
open TmatePlugin.L1.Json
open TmatePlugin.L2.StateFiles
open TmatePlugin.L4.DataThread (INT32_MAX nextCount)
open TmatePlugin.L4.StatesRequest

/-- How many iterations pass before the one with `stateCount % 20 = 1`, which from
INT32_MAX - 5 on is the one with 1. -/
def iterationsLeft (stateCount : Nat) : Nat :=
  if stateCount + 6 ≤ INT32_MAX then (21 - stateCount % 20) % 20 else INT32_MAX - stateCount + 1

theorem iterationsLeft_lt {c : Nat} (h : c < INT32_MAX) : iterationsLeft c < 20 := by
  have hmax : INT32_MAX = 2147483647 := rfl
  unfold iterationsLeft
  split <;> omega

theorem iterationsLeft_next {c : Nat} (h : c < INT32_MAX) (hcheck : c % 20 ≠ 1) :
    iterationsLeft (nextCount c) + 1 = iterationsLeft c := by
  have hmax : INT32_MAX = 2147483647 := rfl
  unfold nextCount
  split
  · -- the count wraps
    rw [iterationsLeft, iterationsLeft, if_pos (by omega), if_neg (by omega)]
    omega
  · unfold iterationsLeft
    split <;> split <;> omega

theorem nextCount_lt {c : Nat} (h : c < INT32_MAX) : nextCount c < INT32_MAX := by
  unfold nextCount
  split <;> omega

/-! ## What a step does to the count -/

section
variable {parse : Bytes → Option CJson}

/-- Only the end of an iteration touches the count. -/
theorem thread_count {t t' : DataThread.State} {l : DataThread.Label}
    (h : DataThread.step parse t l = some t') (hbegin : l ≠ .beginIteration) (hend : l ≠ .endIteration) :
    t'.stateCount = t.stateCount ∧ (t'.pc = .idle ↔ t.pc = .idle) := by
  cases l with
  | beginIteration => exact absurd rfl hbegin
  | endIteration => exact absurd rfl hend
  | tick | rewrite | setNeedCheckStates | setNeedSendStates | sigInt => cases h; exact ⟨rfl, Iff.rfl⟩
  | check =>
    simp only [DataThread.step] at h
    split at h
    · rename_i hpc
      cases h
      simp [DataThread.checked, hpc]
    · rename_i hpc
      obtain ⟨r, -, rfl⟩ := Option.map_eq_some_iff.mp h
      simp [hpc]
    · cases h
  | decide =>
    simp only [DataThread.step] at h
    split at h
    · rename_i hpc
      cases h
      simp only [DataThread.decided, DataThread.sendNotifyPluginStates, hpc, true_and]
      split
      · split <;> simp
      · split
        · split <;> simp
        · simp
    · cases h
  | read =>
    simp only [DataThread.step] at h
    split at h
    · rename_i hpc
      split at h <;> cases h <;> simp [hpc]
    · cases h
  | send ok =>
    simp only [DataThread.step] at h
    split at h
    · rename_i hpc
      cases h
      simp [hpc]
    · cases h

/-- The begin of an iteration that checks the files. -/
def StartsCheck (l : Label) (s' : State) : Prop :=
  l = .thread .beginIteration ∧ s'.thread.pc = .checking checkOrder StateUpdated.none

/-- What a step does to the count, and whether it begins or ends an iteration. -/
theorem step_count {s s' : State} {l : Label} (h : step parse s l = some s') :
    (l = .unregisteredIteration ∧ s.thread.pc = .idle ∧
      s'.thread.pc = .idle ∧ s'.thread.stateCount = nextCount s.thread.stateCount) ∨
    (l = .thread .beginIteration ∧ s.thread.pc = .idle ∧
      s'.thread.pc ≠ .idle ∧ s'.thread.stateCount = s.thread.stateCount ∧
      (s.thread.stateCount % 20 = 1 → StartsCheck l s')) ∨
    (l = .thread .endIteration ∧ s.thread.pc ≠ .idle ∧
      s'.thread.pc = .idle ∧ s'.thread.stateCount = nextCount s.thread.stateCount) ∨
    (l ≠ .thread .beginIteration ∧ s'.thread.stateCount = s.thread.stateCount ∧
      (s'.thread.pc = .idle ↔ s.thread.pc = .idle)) := by
  cases l with
  | unregisteredIteration =>
    simp only [step] at h
    split at h
    · rename_i hidle
      cases h
      exact .inl ⟨rfl, hidle.1, hidle.1, rfl⟩
    · cases h
  | setUpdated isUpdated =>
    cases h
    exact .inr (.inr (.inr ⟨by simp, rfl, Iff.rfl⟩))
  | send built ok =>
    obtain ⟨t, ht, rfl⟩ := Option.map_eq_some_iff.mp h
    exact .inr (.inr (.inr ⟨by simp, thread_count ht (by simp) (by simp)⟩))
  | thread l =>
    obtain ⟨t, ht, hs'⟩ := Option.bind_eq_some_iff.mp h
    have hthread : s'.thread = t := by
      unfold threadStep at hs'
      split at hs'
      · split at hs'
        · cases hs'; rfl
        · cases hs'
      all_goals cases hs'
      all_goals rfl
    rw [hthread]
    by_cases hbegin : l = .beginIteration
    · subst hbegin
      simp only [DataThread.step] at ht
      split at ht
      · rename_i hpc
        cases ht
        refine .inr (.inl ⟨rfl, hpc, ?_, rfl, fun hcount => ⟨rfl, ?_⟩⟩)
        · simp only
          split <;> simp
        · rw [hthread]
          exact if_pos (.inl hcount)
      · cases ht
    · by_cases hend : l = .endIteration
      · subst hend
        simp only [DataThread.step] at ht
        split at ht
        · rename_i hpc
          cases ht
          exact .inr (.inr (.inl ⟨rfl, by rw [hpc]; simp, rfl, rfl⟩))
        · cases ht
      · exact .inr (.inr (.inr ⟨fun h => hbegin (Label.thread.inj h), thread_count ht hbegin hend⟩))

variable (parse) in
theorem count_inductive : (statesRequest parse).Inductive fun s => s.thread.stateCount < INT32_MAX where
  init s hs := by
    rw [hs.thread.stateCount]
    decide
  step s l s' hlt h := by
    rcases step_count h with ⟨-, -, -, heq⟩ | ⟨-, -, -, heq, -⟩ | ⟨-, -, -, heq⟩ | ⟨-, heq, -⟩
    · rw [heq]; exact nextCount_lt hlt
    · rw [heq]; exact hlt
    · rw [heq]; exact nextCount_lt hlt
    · rw [heq]; exact hlt

/-! ## The checks of a run -/

/-- One of the iterations that the run begins checks the files. -/
def Checks (parse : Bytes → Option CJson) (s : State) (ls : List Label) : Prop :=
  ∃ before l after t t', ls = before ++ l :: after ∧ (statesRequest parse).Run s before t ∧
    (statesRequest parse).step t l t' ∧ StartsCheck l t'

theorem Checks.of_step {s s' : State} {l : Label} {ls : List Label}
    (h : (statesRequest parse).step s l s') (hchecks : Checks parse s' ls) :
    Checks parse s (l :: ls) := by
  obtain ⟨before, l', after, t, t', rfl, hrun, hstep, hstarts⟩ := hchecks
  exact ⟨l :: before, l', after, t, t', rfl, .cons h hrun, hstep, hstarts⟩

/-- The iterations that may begin before one must check the files. -/
def left (s : State) : Nat :=
  iterationsLeft (if s.thread.pc = .idle then s.thread.stateCount else nextCount s.thread.stateCount)

theorem cadence_run {s s' : State} {ls : List Label} (hrun : (statesRequest parse).Run s ls s')
    (hcount : s.thread.stateCount < INT32_MAX) (hregistered : Label.unregisteredIteration ∉ ls) :
    Checks parse s ls ∨ ls.count (.thread .beginIteration) ≤ left s := by
  induction hrun with
  | nil => exact .inr (Nat.zero_le _)
  | @cons s t s' l ls h _ ih =>
    have hcount' := (count_inductive parse).step s l t hcount h
    have hrest := ih hcount' fun hmem => hregistered (List.mem_cons_of_mem _ hmem)
    have hl : Label.unregisteredIteration ≠ l := fun heq => hregistered (heq ▸ List.mem_cons_self)
    rcases hrest with hchecks | hle
    · exact .inl (.of_step h hchecks)
    · unfold left at hle ⊢
      rcases step_count h with ⟨rfl, -⟩ | ⟨rfl, hpc, hpc', heq, hstarts⟩ | ⟨rfl, hpc, hpc', heq⟩ |
        ⟨hne, heq, hpc⟩
      · exact absurd rfl hl
      · -- the iteration checks the files, or the next one is nearer to that
        by_cases hcheck : s.thread.stateCount % 20 = 1
        · exact .inl ⟨[], _, ls, s, t, rfl, .nil s, h, hstarts hcheck⟩
        · refine .inr ?_
          rw [if_neg hpc', heq] at hle
          rw [if_pos hpc, List.count_cons_self, ← iterationsLeft_next hcount hcheck]
          exact Nat.succ_le_succ hle
      · refine .inr ?_
        rw [if_pos hpc', heq] at hle
        rw [if_neg hpc, List.count_cons_of_ne (by simp)]
        exact hle
      · refine .inr ?_
        rw [heq] at hle
        simp only [hpc] at hle
        rw [List.count_cons_of_ne hne]
        exact hle

end

/-- In every run the count stays below INT32_MAX, before and after it is incremented;
and when 20 iterations begin one after the other while the plugin is registered, one of
them checks the files, wherever the count wraps. -/
theorem check_cadence (parse : Bytes → Option CJson) (s₀ s : State) (ls : List Label)
    (hinit : Initial s₀) (hrun : (statesRequest parse).Run s₀ ls s) :
    s.thread.stateCount < INT32_MAX ∧
    ∀ s' ls', (statesRequest parse).Run s ls' s' → Label.unregisteredIteration ∉ ls' →
      20 ≤ ls'.count (.thread .beginIteration) → Checks parse s ls' := by
  have hcount : s.thread.stateCount < INT32_MAX :=
    (count_inductive parse).run hrun ((count_inductive parse).init s₀ hinit)
  refine ⟨hcount, fun s' ls' hrun' hregistered htwenty => ?_⟩
  have hleft : left s < 20 := by
    unfold left
    split
    · exact iterationsLeft_lt hcount
    · exact iterationsLeft_lt (nextCount_lt hcount)
  rcases cadence_run hrun' hcount hregistered with hchecks | hle
  · exact hchecks
  · omega

def uncheckedIteration : List Label :=
  [.thread .beginIteration, .thread .decide, .thread .endIteration]

/-- The iterations from the first one on; the second one checks the files. -/
def twentyIterations : List Label :=
  uncheckedIteration ++ checkedIteration ++ [.thread .endIteration] ++
    (List.replicate 18 uncheckedIteration).flatten

theorem check_cadence_twenty : Checks (fun _ => none) exampleState twentyIterations := by
  have hrun : (exec (step fun _ => none) exampleState twentyIterations).isSome = true := by
    decide +kernel
  obtain ⟨s, hs⟩ := Option.isSome_iff_exists.mp hrun
  exact (check_cadence _ exampleState exampleState [] exampleState_initial (.nil _)).2 s twentyIterations
    (run_of_exec hs) (by decide) (by decide)

end TmatePlugin.L4.CheckCadence

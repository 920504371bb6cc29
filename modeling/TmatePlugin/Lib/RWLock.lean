import Mathlib.Data.List.Count
import Mathlib.Logic.Function.Basic
import Mathlib.Tactic.Common

/-!
# Reader-writer locks

Any number of threads have the lock for reading, or one has it for writing. A
lock that cannot be taken yet is `none`; who takes it next is not determined.

`Agrees l mode` says that `l` is held as `mode` tells for each thread, once by each
reader. Taking and releasing the lock changes the mode of the thread that does it
and no other (`Agrees.lockRead` and so on), and a writer is alone (`Agrees.alone`).
-/

/-- A lock is never held for reading and for writing at once. -/
structure RWLock (T : Type) where
  readers : List T
  writer : Option T
  exclusive : ∀ t, writer = some t → readers = []

namespace RWLock

/-- How a thread has the lock. -/
inductive Mode where
  | free
  | read
  | write
  deriving DecidableEq, Repr

variable {T : Type}

/-- A lock that no thread has. -/
def unlocked : RWLock T := ⟨[], none, fun _ _ => rfl⟩

def lockRead (l : RWLock T) (t : T) : Option (RWLock T) :=
  if l.writer = none then some ⟨t :: l.readers, none, fun t hw => absurd hw (Option.some_ne_none t).symm⟩ else none

def lockWrite (l : RWLock T) (t : T) : Option (RWLock T) :=
  if l.writer = none ∧ l.readers = [] then some ⟨[], some t, fun _ _ => rfl⟩ else none

def unlockWrite (l : RWLock T) : RWLock T := ⟨l.readers, none, fun t hw => absurd hw (Option.some_ne_none t).symm⟩

variable [DecidableEq T]

def unlockRead (l : RWLock T) (t : T) : RWLock T where
  readers := l.readers.erase t
  writer := l.writer
  exclusive u hu := by rw [l.exclusive u hu]; rfl

/-- Each thread has the lock as `mode` says. -/
structure Agrees (l : RWLock T) (mode : T → Mode) : Prop where
  readers : ∀ t, l.readers.count t = if mode t = .read then 1 else 0
  writer : ∀ t, l.writer = some t ↔ mode t = .write

theorem agrees_unlocked : (unlocked : RWLock T).Agrees fun _ => .free :=
  ⟨fun _ => rfl, fun t => iff_of_false (Option.some_ne_none t).symm (by decide)⟩

variable {l l' : RWLock T} {mode : T → Mode} {t : T}

/-- A writer is the only thread that has the lock. -/
theorem Agrees.alone (h : l.Agrees mode) (ht : mode t = .write) {u : T} (hu : u ≠ t) : mode u = .free := by
  have hwriter : l.writer = some t := (h.writer t).mpr ht
  cases hmode : mode u with
  | free => rfl
  | read =>
    have hcount := h.readers u
    rw [if_pos hmode, l.exclusive t hwriter] at hcount
    cases hcount
  | write =>
    have hother := (h.writer u).mpr hmode
    rw [hwriter] at hother
    exact absurd (Option.some.inj hother).symm hu

/-- While a thread reads no thread writes. -/
theorem Agrees.no_writer (h : l.Agrees mode) (ht : mode t = .read) (u : T) : mode u ≠ .write := by
  intro hu
  have hne : t ≠ u := fun heq => by rw [heq, hu] at ht; cases ht
  have hfree := h.alone hu hne
  rw [ht] at hfree
  cases hfree

theorem Agrees.lockRead (h : l.Agrees mode) (hl : l.lockRead t = some l') (ht : mode t = .free) :
    l'.Agrees (Function.update mode t .read) := by
  unfold RWLock.lockRead at hl
  split at hl
  · rename_i hnone
    cases hl
    refine ⟨fun u => ?_, fun u => ?_⟩
    · by_cases hu : u = t
      · subst hu
        have hcount := h.readers u
        rw [if_neg (by rw [ht]; decide)] at hcount
        simp [hcount]
      · rw [Function.update_of_ne hu, List.count_cons_of_ne (Ne.symm hu)]
        exact h.readers u
    · by_cases hu : u = t
      · subst hu
        simp
      · have hiff := h.writer u
        rw [hnone] at hiff
        rw [Function.update_of_ne hu]
        exact hiff
  · cases hl

theorem Agrees.unlockRead (h : l.Agrees mode) (ht : mode t = .read) :
    (l.unlockRead t).Agrees (Function.update mode t .free) := by
  refine ⟨fun u => ?_, fun u => ?_⟩
  · by_cases hu : u = t
    · subst hu
      have hcount := h.readers u
      rw [if_pos ht] at hcount
      simp [RWLock.unlockRead, hcount]
    · rw [Function.update_of_ne hu]
      show (l.readers.erase t).count u = _
      rw [List.count_erase_of_ne hu]
      exact h.readers u
  · by_cases hu : u = t
    · subst hu
      simpa [RWLock.unlockRead] using fun hw => h.no_writer ht u ((h.writer u).mp hw)
    · rw [Function.update_of_ne hu]
      exact h.writer u

theorem Agrees.lockWrite (h : l.Agrees mode) (hl : l.lockWrite t = some l') (ht : mode t = .free) :
    l'.Agrees (Function.update mode t .write) := by
  unfold RWLock.lockWrite at hl
  split at hl
  · rename_i hfree
    obtain ⟨hwriter, hreaders⟩ := hfree
    cases hl
    refine ⟨fun u => ?_, fun u => ?_⟩
    · by_cases hu : u = t
      · subst hu
        simp
      · have hcount := h.readers u
        rw [hreaders] at hcount
        rw [Function.update_of_ne hu]
        exact hcount
    · by_cases hu : u = t
      · subst hu
        simp
      · rw [Function.update_of_ne hu, ← h.writer u, hwriter]
        exact iff_of_false (fun heq => hu (Option.some.inj heq).symm) (Option.some_ne_none u).symm
  · cases hl

theorem Agrees.unlockWrite (h : l.Agrees mode) (ht : mode t = .write) :
    l.unlockWrite.Agrees (Function.update mode t .free) := by
  have hfree : ∀ u, Function.update mode t .free u = .free := by
    intro u
    by_cases hu : u = t
    · subst hu
      exact Function.update_self u .free mode
    · rw [Function.update_of_ne hu]
      exact h.alone ht hu
  refine ⟨fun u => ?_, fun u => ?_⟩
  · rw [hfree]
    show l.readers.count u = 0
    rw [l.exclusive t ((h.writer t).mpr ht)]
    rfl
  · rw [hfree]
    exact iff_of_false (Option.some_ne_none u).symm (by decide)

end RWLock

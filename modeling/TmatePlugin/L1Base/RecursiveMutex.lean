import Mathlib.Logic.Function.Basic
import TmatePlugin.Lib.CInt
import TmatePlugin.Lib.Transition

/-!
# `UTLMutex_t`

The recursive mutex of `Util/src/Utl_mutex.cpp`: a pthread mutex with the thread that
locked it (`lockTid`) and how often (`lockCount`) in two fields beside it. Threads
run `UTLMutex_Lock`, `UTLMutex_Unlock` and `UTLCond_TimedWait`; a step is one access
to one of the fields, or one pthread call.

A pthread mutex that is free can be locked, by a thread that waits for it in
`pthread_mutex_lock` or in a wait on a condition; `pthread_cond_wait` and
`pthread_cond_timedwait` release it and have it again when they return, unless they
fail at once and leave it locked. No thread has the id 0.

`locks` and `unlocks` count the calls that have returned `VPL_OK`.

* `inv_step`: what every thread knows at each point of its calls.
* `mutex_discipline`: ownership and count agree between the calls, as long as no
  thread that has locked the mutex INT_MAX times locks it once more.
* `count_overflows`: `lockCount++` does not stop there.
-/
namespace TmatePlugin.L1.RecursiveMutex

open CInt Transition

/-- The results of the calls: `VPL_OK`, `VPL_ERR_PERM`, `VPL_ERR_FAIL`, and
`VPLError_XlatErrno(rc)`. -/
inductive Rv where
  | ok
  | errPerm
  | errFail
  | errno (rc : Nat)
  deriving DecidableEq, Repr

/-- The next access of a thread. -/
inductive Pc where
  | idle
  -- mirrors Util/src/Utl_mutex.cpp:55-69
  | lockTest
  | lockRead
  | lockStore (count : Int)
  | lockAcquire
  | lockSetTid
  | lockSetCount
  -- mirrors Util/src/Utl_mutex.cpp:80-92
  | unlockTest
  | unlockRead
  | unlockStore (count : Int)
  | unlockClearTid
  | unlockRelease
  -- mirrors Util/src/Utl_mutex.cpp:270-310
  | waitRead (timed : Bool)
  | waitClearCount (timed : Bool) (count : Int)
  | waitClearTid (timed : Bool) (count : Int)
  | waitClock (count : Int)
  | waitCall (count : Int)
  | waitBlocked (count : Int)
  | waitSetCount (count : Int) (rv : Rv)
  | waitSetTid (rv : Rv)
  deriving DecidableEq, Repr

variable {Tid : Type}

/-- `lockTid` is `none` for 0; `owner` has the pthread mutex.
mirrors Util/include/Utl_mutex.h:17-24 -/
structure State (Tid : Type) where
  lockTid : Option Tid
  lockCount : Int
  owner : Option Tid
  pc : Tid → Pc
  returned : Tid → Option Rv
  locks : Tid → Nat
  unlocks : Tid → Nat

/-- A call, or the next access of a thread: `fail rc` when it is to a function of the
system and that fails. -/
inductive Action where
  | lock
  | unlock
  | timedWait (timed : Bool)
  | run
  | fail (rc : Nat)
  deriving DecidableEq, Repr

structure Label (Tid : Type) where
  thread : Tid
  action : Action

variable [DecidableEq Tid]

/-- mirrors Util/src/Utl_mutex.cpp:95-102 -/
def lockedSelf (s : State Tid) (t : Tid) : Bool := s.lockTid = some t

def goto (s : State Tid) (t : Tid) (pc : Pc) : State Tid := { s with pc := Function.update s.pc t pc }

/-- The call returns. -/
def leave (s : State Tid) (t : Tid) (rv : Rv) : State Tid :=
  { s with pc := Function.update s.pc t .idle, returned := Function.update s.returned t (some rv) }

def lockDone (s : State Tid) (t : Tid) : State Tid :=
  leave { s with locks := Function.update s.locks t (s.locks t + 1) } t .ok

def unlockDone (s : State Tid) (t : Tid) : State Tid :=
  leave { s with unlocks := Function.update s.unlocks t (s.unlocks t + 1) } t .ok

/-- The next access of `t`, which succeeds. -/
def access (s : State Tid) (t : Tid) : Option (State Tid) :=
  match s.pc t with
  | .idle => none
  | .lockTest => some (goto s t (if lockedSelf s t then .lockRead else .lockAcquire))
  | .lockRead => some (goto s t (.lockStore (wrapInt (s.lockCount + 1))))
  | .lockStore count => some (lockDone { s with lockCount := count } t)
  | .lockAcquire => if s.owner = none then some (goto { s with owner := some t } t .lockSetTid) else none
  | .lockSetTid => some (goto { s with lockTid := some t } t .lockSetCount)
  | .lockSetCount => some (lockDone { s with lockCount := 1 } t)
  | .unlockTest => some (if lockedSelf s t then goto s t .unlockRead else leave s t .errPerm)
  | .unlockRead => some (goto s t (.unlockStore (wrapInt (s.lockCount - 1))))
  | .unlockStore count =>
    let s := { s with lockCount := count }
    some (if count = 0 then goto s t .unlockClearTid else unlockDone s t)
  | .unlockClearTid => some (goto { s with lockTid := none } t .unlockRelease)
  | .unlockRelease => some (unlockDone { s with owner := none } t)
  | .waitRead timed => some (goto s t (.waitClearCount timed s.lockCount))
  | .waitClearCount timed count => some (goto { s with lockCount := 0 } t (.waitClearTid timed count))
  | .waitClearTid timed count =>
    some (goto { s with lockTid := none } t (if timed then .waitClock count else .waitCall count))
  | .waitClock count => some (goto s t (.waitCall count))
  | .waitCall count => some (goto { s with owner := none } t (.waitBlocked count))
  | .waitBlocked count =>
    if s.owner = none then some (goto { s with owner := some t } t (.waitSetCount count .ok)) else none
  | .waitSetCount count rv => some (goto { s with lockCount := count } t (.waitSetTid rv))
  | .waitSetTid rv => some (leave { s with lockTid := some t } t rv)

/-- The next access of `t` is a call that fails; a wait that has blocked fails with the
mutex locked again. -/
def accessFails (s : State Tid) (t : Tid) (rc : Nat) : Option (State Tid) :=
  match s.pc t with
  | .lockAcquire => some (leave s t (.errno rc))
  | .waitClock count => some (goto s t (.waitSetCount count .errFail))
  | .waitCall count => some (goto s t (.waitSetCount count (.errno rc)))
  | .waitBlocked count =>
    if s.owner = none then some (goto { s with owner := some t } t (.waitSetCount count (.errno rc)))
    else none
  | _ => none

/-- A thread waits only while it has the mutex. -/
def step (s : State Tid) (l : Label Tid) : Option (State Tid) :=
  match l.action with
  | .lock => if s.pc l.thread = .idle then some (goto s l.thread .lockTest) else none
  | .unlock => if s.pc l.thread = .idle then some (goto s l.thread .unlockTest) else none
  | .timedWait timed =>
    if s.pc l.thread = .idle ∧ s.owner = some l.thread then some (goto s l.thread (.waitRead timed))
    else none
  | .run => access s l.thread
  | .fail rc => accessFails s l.thread rc

/-- After `UTLMutex_Init`. -/
structure Initial (s : State Tid) : Prop where
  lockTid : s.lockTid = none
  lockCount : s.lockCount = 0
  owner : s.owner = none
  pc : ∀ t, s.pc t = .idle
  locks : ∀ t, s.locks t = 0
  unlocks : ∀ t, s.unlocks t = 0

def mutex : System (State Tid) (Label Tid) := .ofFn Initial step

/-- Successful locks minus successful unlocks. -/
def held (s : State Tid) (t : Tid) : Int := s.locks t - s.unlocks t

/-- `lockCount++` does not overflow. -/
def BelowMax (s : State Tid) (l : Label Tid) : Prop :=
  l.action = .run → s.pc l.thread = .lockRead → s.lockCount < intMax

/-! ## The invariant -/

/-- What thread `t`, about to do `pc`, knows of the fields and of the pthread mutex. -/
def Known (t : Tid) (held : Int) (owner lockTid : Option Tid) (lockCount : Int) : Pc → Prop
  | .idle | .lockTest | .unlockTest =>
    0 ≤ held ∧ (owner = some t ↔ 0 < held) ∧ (owner = some t → lockTid = some t ∧ lockCount = held)
  | .lockRead | .unlockRead | .waitRead _ =>
    owner = some t ∧ lockTid = some t ∧ lockCount = held ∧ 0 < held
  | .lockStore count => owner = some t ∧ lockTid = some t ∧ count = held + 1 ∧ 0 < held ∧ count ≤ intMax
  | .lockAcquire => owner ≠ some t ∧ held = 0
  | .lockSetTid => owner = some t ∧ lockTid = none ∧ held = 0
  | .lockSetCount => owner = some t ∧ lockTid = some t ∧ held = 0
  | .unlockStore count => owner = some t ∧ lockTid = some t ∧ count = held - 1 ∧ 0 < held
  | .unlockClearTid => owner = some t ∧ lockTid = some t ∧ lockCount = 0 ∧ held = 1
  | .unlockRelease => owner = some t ∧ lockTid = none ∧ lockCount = 0 ∧ held = 1
  | .waitClearCount _ count => owner = some t ∧ lockTid = some t ∧ count = held ∧ 0 < held
  | .waitClearTid _ count => owner = some t ∧ lockTid = some t ∧ (count = held ∧ 0 < held) ∧ lockCount = 0
  | .waitClock count | .waitCall count =>
    owner = some t ∧ lockTid = none ∧ (count = held ∧ 0 < held) ∧ lockCount = 0
  | .waitSetCount count _ => owner = some t ∧ lockTid = none ∧ count = held ∧ 0 < held
  | .waitBlocked count => owner ≠ some t ∧ count = held ∧ 0 < held
  | .waitSetTid _ => owner = some t ∧ lockTid = none ∧ lockCount = held ∧ 0 < held

structure Inv (s : State Tid) : Prop where
  tid : ∀ t, s.lockTid = some t → s.owner = some t
  bounded : ∀ t, held s t ≤ intMax
  known : ∀ t, Known t (held s t) s.owner s.lockTid s.lockCount (s.pc t)

omit [DecidableEq Tid] in
/-- A thread that does not have the mutex knows nothing of the fields. -/
theorem Known.frame {t : Tid} {held lockCount lockCount' : Int} {owner owner' lockTid lockTid' : Option Tid}
    {pc : Pc} (h : Known t held owner lockTid lockCount pc) (howner : owner ≠ some t)
    (howner' : owner' ≠ some t) : Known t held owner' lockTid' lockCount' pc := by
  cases pc with
  | idle | lockTest | unlockTest =>
    exact ⟨h.1, iff_of_false howner' fun hpos => howner (h.2.1.mpr hpos), fun howns => absurd howns howner'⟩
  | lockAcquire => exact ⟨howner', h.2⟩
  | waitBlocked count => exact ⟨howner', h.2⟩
  | lockRead | unlockRead | waitRead | lockStore | lockSetTid | lockSetCount | unlockStore | unlockClearTid
  | unlockRelease | waitClearCount | waitClearTid | waitClock | waitCall | waitSetCount | waitSetTid =>
    exact absurd h.1 howner

omit [DecidableEq Tid] in
theorem Inv.free {s : State Tid} (h : Inv s) (hfree : s.owner = none) : s.lockTid = none := by
  cases htid : s.lockTid with
  | none => rfl
  | some u =>
    have howner := h.tid u htid
    rw [hfree] at howner
    cases howner

/-- A step of `t` keeps the invariant when `t` knows what it should; it leaves the fields
and the mutex alone, or the mutex is its own or free before and after. -/
theorem Inv.of_step {s s' : State Tid} {t : Tid} (h : Inv s)
    (hothers : ∀ u, u ≠ t → s'.pc u = s.pc u ∧ held s' u = held s u) (hbounded : held s' t ≤ intMax)
    (hknown : Known t (held s' t) s'.owner s'.lockTid s'.lockCount (s'.pc t))
    (hshared : (s'.owner = s.owner ∧ s'.lockTid = s.lockTid ∧ s'.lockCount = s.lockCount) ∨
      ((s.owner = some t ∨ s.owner = none) ∧ (s'.owner = some t ∨ s'.owner = none) ∧
        (s'.lockTid = none ∨ s'.lockTid = some t ∧ s'.owner = some t))) : Inv s' := by
  refine ⟨fun u hu => ?_, fun u => ?_, fun u => ?_⟩
  · rcases hshared with ⟨howner, htid, -⟩ | ⟨-, -, hnone | ⟨htid, howner⟩⟩
    · rw [howner]
      exact h.tid u (htid ▸ hu)
    · rw [hnone] at hu
      cases hu
    · rw [htid] at hu
      cases hu
      exact howner
  · by_cases hu : u = t
    · rw [hu]
      exact hbounded
    · rw [(hothers u hu).2]
      exact h.bounded u
  · by_cases hu : u = t
    · rw [hu]
      exact hknown
    · obtain ⟨hpc, hheld⟩ := hothers u hu
      rw [hpc, hheld]
      rcases hshared with ⟨howner, htid, hcount⟩ | ⟨hbefore, hafter, -⟩
      · rw [howner, htid, hcount]
        exact h.known u
      · refine (h.known u).frame ?_ ?_
        · rcases hbefore with hb | hb
          · rw [hb]
            exact fun heq => hu (Option.some.inj heq).symm
          · rw [hb]
            exact fun heq => nomatch heq
        · rcases hafter with ha | ha
          · rw [ha]
            exact fun heq => hu (Option.some.inj heq).symm
          · rw [ha]
            exact fun heq => nomatch heq

/-! ## The three ways a step ends -/

theorem goto_others (s : State Tid) (t : Tid) (pc : Pc) :
    ∀ u, u ≠ t → (goto s t pc).pc u = s.pc u ∧ held (goto s t pc) u = held s u := by
  intro u hu
  simp [goto, held, Function.update_of_ne hu]

theorem leave_others (s : State Tid) (t : Tid) (rv : Rv) :
    ∀ u, u ≠ t → (leave s t rv).pc u = s.pc u ∧ held (leave s t rv) u = held s u := by
  intro u hu
  simp [leave, held, Function.update_of_ne hu]

theorem lockDone_others (s : State Tid) (t : Tid) :
    ∀ u, u ≠ t → (lockDone s t).pc u = s.pc u ∧ held (lockDone s t) u = held s u := by
  intro u hu
  simp [lockDone, leave, held, Function.update_of_ne hu]

theorem unlockDone_others (s : State Tid) (t : Tid) :
    ∀ u, u ≠ t → (unlockDone s t).pc u = s.pc u ∧ held (unlockDone s t) u = held s u := by
  intro u hu
  simp [unlockDone, leave, held, Function.update_of_ne hu]

@[simp] theorem goto_pc (s : State Tid) (t : Tid) (pc : Pc) : (goto s t pc).pc t = pc := by simp [goto]

@[simp] theorem leave_pc (s : State Tid) (t : Tid) (rv : Rv) : (leave s t rv).pc t = .idle := by
  simp [leave]

@[simp] theorem lockDone_pc (s : State Tid) (t : Tid) : (lockDone s t).pc t = .idle := by
  simp [lockDone]

@[simp] theorem unlockDone_pc (s : State Tid) (t : Tid) : (unlockDone s t).pc t = .idle := by
  simp [unlockDone]

@[simp] theorem held_lockDone (s : State Tid) (t : Tid) : held (lockDone s t) t = held s t + 1 := by
  simp only [held, lockDone, leave, Function.update_self]
  omega

@[simp] theorem held_unlockDone (s : State Tid) (t : Tid) : held (unlockDone s t) t = held s t - 1 := by
  simp only [held, unlockDone, leave, Function.update_self]
  omega

/-- A step that only moves `t` on. -/
theorem Inv.goto {s : State Tid} {t : Tid} {pc : Pc} (h : Inv s)
    (hknown : Known t (held s t) s.owner s.lockTid s.lockCount pc) : Inv (goto s t pc) := by
  refine h.of_step (goto_others s t pc) (h.bounded t) ?_ (.inl ⟨rfl, rfl, rfl⟩)
  rw [goto_pc]
  exact hknown

theorem Inv.leave {s : State Tid} {t : Tid} {rv : Rv} (h : Inv s)
    (hknown : Known t (held s t) s.owner s.lockTid s.lockCount .idle) : Inv (leave s t rv) := by
  refine h.of_step (leave_others s t rv) (h.bounded t) ?_ (.inl ⟨rfl, rfl, rfl⟩)
  rw [leave_pc]
  exact hknown

/-- `t` has the mutex or it is free, sets fields and moves on. -/
theorem Inv.set {s : State Tid} {t : Tid} {owner lockTid : Option Tid} {lockCount : Int} {pc : Pc} (h : Inv s)
    (hknown : Known t (held s t) owner lockTid lockCount pc) (hbefore : s.owner = some t ∨ s.owner = none)
    (hafter : owner = some t ∨ owner = none) (htid : lockTid = none ∨ lockTid = some t ∧ owner = some t) :
    Inv (RecursiveMutex.goto { s with owner := owner, lockTid := lockTid, lockCount := lockCount } t pc) := by
  refine h.of_step (goto_others _ t pc) (h.bounded t) ?_ (.inr ⟨hbefore, hafter, htid⟩)
  rw [goto_pc]
  exact hknown

/-- A lock returns with the count. -/
theorem Inv.locked {s : State Tid} {t : Tid} {count : Int} (h : Inv s) (howns : s.owner = some t)
    (htid : s.lockTid = some t) (hcount : count = held s t + 1) (hpos : 0 < count) (hmax : count ≤ intMax) :
    Inv (lockDone { s with lockCount := count } t) := by
  subst hcount
  refine h.of_step (lockDone_others _ t) ?_ ?_ (.inr ⟨.inl howns, .inl howns, .inr ⟨htid, howns⟩⟩)
  · rw [held_lockDone]
    exact hmax
  · rw [lockDone_pc, held_lockDone]
    exact ⟨Int.le_of_lt hpos, iff_of_true howns hpos, fun _ => ⟨htid, rfl⟩⟩

/-- The count is an int, one more or less as well. -/
theorem wrapInt_next {count : Int} (hpos : 0 < count) (hmax : count < intMax) :
    wrapInt (count + 1) = count + 1 :=
  wrapInt_of_range ⟨by unfold intMin; omega, by omega⟩

theorem wrapInt_previous {count : Int} (hpos : 0 < count) (hmax : count ≤ intMax) :
    wrapInt (count - 1) = count - 1 :=
  wrapInt_of_range ⟨by unfold intMin; omega, by omega⟩

omit [DecidableEq Tid] in
/-- Between its calls a thread that has not locked the mutex does not have it. -/
theorem held_eq_zero {t : Tid} {held lockCount : Int} {owner lockTid : Option Tid} (howner : owner ≠ some t)
    (h : Known t held owner lockTid lockCount .idle) : held = 0 := by
  have hnot : ¬ 0 < held := fun hpos => howner (h.2.1.mpr hpos)
  have hle := h.1
  omega

theorem inv_access {s s' : State Tid} {t : Tid} (h : Inv s)
    (hmax : s.pc t = .lockRead → s.lockCount < intMax) (hstep : access s t = some s') : Inv s' := by
  have hk := h.known t
  have hb := h.bounded t
  unfold access at hstep
  generalize hpc : s.pc t = pc at hstep hk
  cases pc with
  | idle => cases hstep
  | lockTest =>
    cases hstep
    by_cases htid : s.lockTid = some t
    · have howns := h.tid t htid
      rw [lockedSelf, if_pos (by simpa using htid)]
      exact h.goto ⟨howns, htid, (hk.2.2 howns).2, hk.2.1.mp howns⟩
    · have howner : s.owner ≠ some t := fun howns => htid (hk.2.2 howns).1
      rw [lockedSelf, if_neg (by simpa using htid)]
      exact h.goto ⟨howner, held_eq_zero howner hk⟩
  | lockRead =>
    have hlt := hmax hpc
    cases hstep
    obtain ⟨howns, htid, hcount, hpos⟩ := hk
    refine h.goto ⟨howns, htid, ?_, hpos, ?_⟩
    · rw [hcount, wrapInt_next hpos (hcount ▸ hlt)]
    · rw [hcount, wrapInt_next hpos (hcount ▸ hlt)]
      omega
  | lockStore count =>
    cases hstep
    obtain ⟨howns, htid, hcount, hpos, hle⟩ := hk
    exact h.locked howns htid hcount (by omega) hle
  | lockAcquire =>
    simp only at hstep
    split at hstep
    · rename_i hfree
      cases hstep
      exact h.set ⟨rfl, h.free hfree, hk.2⟩ (.inr hfree) (.inl rfl) (.inl (h.free hfree))
    · cases hstep
  | lockSetTid =>
    cases hstep
    exact h.set ⟨hk.1, rfl, hk.2.2⟩ (.inl hk.1) (.inl hk.1) (.inr ⟨rfl, hk.1⟩)
  | lockSetCount =>
    cases hstep
    obtain ⟨howns, htid, hzero⟩ := hk
    exact h.locked howns htid (by rw [hzero]; rfl) (by decide) (by decide)
  | unlockTest =>
    cases hstep
    by_cases htid : s.lockTid = some t
    · have howns := h.tid t htid
      rw [lockedSelf, if_pos (by simpa using htid)]
      exact h.goto ⟨howns, htid, (hk.2.2 howns).2, hk.2.1.mp howns⟩
    · rw [lockedSelf, if_neg (by simpa using htid)]
      exact h.leave hk
  | unlockRead =>
    cases hstep
    obtain ⟨howns, htid, hcount, hpos⟩ := hk
    refine h.goto ⟨howns, htid, ?_, hpos⟩
    rw [hcount, wrapInt_previous hpos hb]
  | unlockStore count =>
    cases hstep
    obtain ⟨howns, htid, hcount, hpos⟩ := hk
    by_cases hzero : count = 0
    · rw [if_pos hzero]
      have hone : held s t = 1 := by omega
      exact h.set ⟨howns, htid, hzero, hone⟩ (.inl howns) (.inl howns) (.inr ⟨htid, howns⟩)
    · rw [if_neg hzero]
      have hpos' : 0 < held s t - 1 := by omega
      refine h.of_step (unlockDone_others _ t) ?_ ?_ (.inr ⟨.inl howns, .inl howns, .inr ⟨htid, howns⟩⟩)
      · rw [held_unlockDone]
        show held s t - 1 ≤ intMax
        omega
      · rw [unlockDone_pc, held_unlockDone]
        exact ⟨Int.le_of_lt hpos', iff_of_true howns hpos', fun _ => ⟨htid, hcount⟩⟩
  | unlockClearTid =>
    cases hstep
    exact h.set ⟨hk.1, rfl, hk.2.2⟩ (.inl hk.1) (.inl hk.1) (.inl rfl)
  | unlockRelease =>
    cases hstep
    obtain ⟨howns, htid, -, hone⟩ := hk
    have hzero : held s t - 1 = 0 := by omega
    refine h.of_step (unlockDone_others _ t) ?_ ?_ (.inr ⟨.inl howns, .inr rfl, .inl htid⟩)
    · rw [held_unlockDone]
      show held s t - 1 ≤ intMax
      rw [hzero]
      decide
    · rw [unlockDone_pc, held_unlockDone]
      show Known t (held s t - 1) none s.lockTid s.lockCount .idle
      rw [hzero]
      exact ⟨Int.le_refl 0, iff_of_false (fun heq => nomatch heq) (Int.lt_irrefl 0), fun heq => nomatch heq⟩
  | waitRead timed =>
    cases hstep
    exact h.goto ⟨hk.1, hk.2.1, hk.2.2.1, hk.2.2.2⟩
  | waitClearCount timed count =>
    cases hstep
    exact h.set ⟨hk.1, hk.2.1, hk.2.2, rfl⟩ (.inl hk.1) (.inl hk.1) (.inr ⟨hk.2.1, hk.1⟩)
  | waitClearTid timed count =>
    cases hstep
    refine h.set ?_ (.inl hk.1) (.inl hk.1) (.inl rfl)
    cases timed with
    | false => exact ⟨hk.1, rfl, hk.2.2⟩
    | true => exact ⟨hk.1, rfl, hk.2.2⟩
  | waitClock count =>
    cases hstep
    exact h.goto hk
  | waitCall count =>
    cases hstep
    exact h.set ⟨(fun heq => nomatch heq), hk.2.2.1⟩ (.inl hk.1) (.inr rfl) (.inl hk.2.1)
  | waitBlocked count =>
    simp only at hstep
    split at hstep
    · rename_i hfree
      cases hstep
      exact h.set ⟨rfl, h.free hfree, hk.2⟩ (.inr hfree) (.inl rfl) (.inl (h.free hfree))
    · cases hstep
  | waitSetCount count rv =>
    cases hstep
    exact h.set hk (.inl hk.1) (.inl hk.1) (.inl hk.2.1)
  | waitSetTid rv =>
    cases hstep
    obtain ⟨howns, -, hcount, hpos⟩ := hk
    refine h.of_step (leave_others _ t rv) hb ?_ (.inr ⟨.inl howns, .inl howns, .inr ⟨rfl, howns⟩⟩)
    rw [leave_pc]
    exact ⟨Int.le_of_lt hpos, iff_of_true howns hpos, fun _ => ⟨rfl, hcount⟩⟩

theorem inv_accessFails {s s' : State Tid} {t : Tid} {rc : Nat} (h : Inv s)
    (hstep : accessFails s t rc = some s') : Inv s' := by
  have hk := h.known t
  unfold accessFails at hstep
  split at hstep
  · rename_i hpc
    rw [hpc] at hk
    cases hstep
    have hle : 0 ≤ held s t := Int.le_of_eq hk.2.symm
    have hnot : ¬ 0 < held s t := fun hpos => absurd (hk.2 ▸ hpos) (Int.lt_irrefl 0)
    exact h.leave ⟨hle, iff_of_false hk.1 hnot, fun howns => absurd howns hk.1⟩
  · rename_i hpc
    rw [hpc] at hk
    cases hstep
    exact h.goto ⟨hk.1, hk.2.1, hk.2.2.1⟩
  · rename_i hpc
    rw [hpc] at hk
    cases hstep
    exact h.goto ⟨hk.1, hk.2.1, hk.2.2.1⟩
  · rename_i hpc
    rw [hpc] at hk
    split at hstep
    · rename_i hfree
      cases hstep
      exact h.set ⟨rfl, h.free hfree, hk.2⟩ (.inr hfree) (.inl rfl) (.inl (h.free hfree))
    · cases hstep
  · cases hstep

theorem inv_step {s s' : State Tid} {l : Label Tid} (h : Inv s) (hmax : BelowMax s l)
    (hstep : step s l = some s') : Inv s' := by
  obtain ⟨t, action⟩ := l
  have hk := h.known t
  cases action with
  | lock =>
    simp only [step] at hstep
    split at hstep
    · rename_i hpc
      rw [hpc] at hk
      cases hstep
      exact h.goto hk
    · cases hstep
  | unlock =>
    simp only [step] at hstep
    split at hstep
    · rename_i hpc
      rw [hpc] at hk
      cases hstep
      exact h.goto hk
    · cases hstep
  | timedWait timed =>
    simp only [step] at hstep
    split at hstep
    · rename_i hpc
      obtain ⟨hpc, howns⟩ := hpc
      rw [hpc] at hk
      cases hstep
      exact h.goto ⟨howns, (hk.2.2 howns).1, (hk.2.2 howns).2, hk.2.1.mp howns⟩
    · cases hstep
  | run => exact inv_access h (hmax rfl) hstep
  | fail rc => exact inv_accessFails h hstep

theorem inv_inductive : ((mutex : System (State Tid) (Label Tid)).guard BelowMax).Inductive Inv where
  init s hs := by
    have hheld : ∀ t, held s t = 0 := fun t => by rw [held, hs.locks, hs.unlocks]; rfl
    refine ⟨fun t ht => ?_, fun t => ?_, fun t => ?_⟩
    · rw [hs.lockTid] at ht
      cases ht
    · rw [hheld]
      decide
    · rw [hs.pc, hheld, hs.owner]
      exact ⟨Int.le_refl 0, iff_of_false (fun heq => nomatch heq) (Int.lt_irrefl 0), fun heq => nomatch heq⟩
  step _ _ _ h hstep := inv_step h hstep.1 hstep.2

/-! ## Steps of other threads, and waits -/

/-- The next access gives the pthread mutex away. -/
def Releases (pc : Pc) : Prop := pc = .unlockRelease ∨ ∃ count, pc = .waitCall count

/-- A step is about its own thread, and gives the mutex to no other one. -/
structure Own (t : Tid) (s s' : State Tid) : Prop where
  others : ∀ u, u ≠ t → s'.pc u = s.pc u ∧ held s' u = held s u
  owner : s'.owner = s.owner ∨ s'.owner = none ∧ Releases (s.pc t) ∨ s'.owner = some t

theorem access_own {s s' : State Tid} {t : Tid} (hstep : access s t = some s') : Own t s s' := by
  unfold access at hstep
  generalize hpc : s.pc t = pc at hstep
  cases pc with
  | idle => cases hstep
  | lockTest | lockRead | lockSetTid | unlockRead | unlockClearTid | waitRead | waitClearCount
  | waitClearTid | waitClock | waitSetCount =>
    cases hstep
    exact ⟨goto_others _ t _, .inl rfl⟩
  | lockStore | lockSetCount =>
    cases hstep
    exact ⟨lockDone_others _ t, .inl rfl⟩
  | lockAcquire | waitBlocked =>
    simp only at hstep
    split at hstep
    · cases hstep
      exact ⟨goto_others _ t _, .inr (.inr rfl)⟩
    · cases hstep
  | unlockTest =>
    cases hstep
    split
    · exact ⟨goto_others s t _, .inl rfl⟩
    · exact ⟨leave_others s t _, .inl rfl⟩
  | unlockStore count =>
    cases hstep
    split
    · exact ⟨goto_others _ t _, .inl rfl⟩
    · exact ⟨unlockDone_others _ t, .inl rfl⟩
  | unlockRelease =>
    cases hstep
    exact ⟨unlockDone_others _ t, .inr (.inl ⟨rfl, .inl hpc⟩)⟩
  | waitCall count =>
    cases hstep
    exact ⟨goto_others _ t _, .inr (.inl ⟨rfl, .inr ⟨count, hpc⟩⟩)⟩
  | waitSetTid rv =>
    cases hstep
    exact ⟨leave_others _ t rv, .inl rfl⟩

theorem step_own {s s' : State Tid} {l : Label Tid} (hstep : step s l = some s') : Own l.thread s s' := by
  obtain ⟨t, action⟩ := l
  cases action with
  | lock | unlock | timedWait =>
    simp only [step] at hstep
    split at hstep
    · cases hstep
      exact ⟨goto_others s t _, .inl rfl⟩
    · cases hstep
  | run => exact access_own hstep
  | fail rc =>
    simp only [step] at hstep
    unfold accessFails at hstep
    split at hstep
    · cases hstep
      exact ⟨leave_others s t _, .inl rfl⟩
    · cases hstep
      exact ⟨goto_others s t _, .inl rfl⟩
    · cases hstep
      exact ⟨goto_others s t _, .inl rfl⟩
    · split at hstep
      · cases hstep
        exact ⟨goto_others _ t _, .inr (.inr rfl)⟩
      · cases hstep
    · cases hstep

/-- While other threads run, a thread stays where it is, and does not get the mutex. -/
theorem run_others {s s' : State Tid} {ls : List (Label Tid)} {t : Tid}
    (hrun : (mutex.guard BelowMax).Run s ls s') (hothers : ∀ l ∈ ls, l.thread ≠ t)
    (howner : s.owner ≠ some t) : s'.pc t = s.pc t ∧ s'.owner ≠ some t := by
  refine hrun.preserves (I := fun r => r.pc t = s.pc t ∧ r.owner ≠ some t) hothers ?_ ⟨rfl, howner⟩
  intro r l r' hl hr hstep
  have hown := step_own hstep.2
  refine ⟨(hown.others t (Ne.symm hl)).1.trans hr.1, ?_⟩
  rcases hown.owner with h | ⟨h, -⟩ | h
  · rw [h]
    exact hr.2
  · rw [h]
    exact fun heq => nomatch heq
  · rw [h]
    exact fun heq => hl (Option.some.inj heq)

/-- In `UTLCond_TimedWait`, or back from it. -/
def InWait : Pc → Prop
  | .idle | .waitRead _ | .waitClearCount _ _ | .waitClearTid _ _ | .waitClock _ | .waitCall _
  | .waitBlocked _ | .waitSetCount _ _ | .waitSetTid _ => True
  | _ => False

/-- A call, of any thread. -/
def IsCall : Action → Prop
  | .lock | .unlock | .timedWait _ => True
  | .run | .fail _ => False

/-- A wait changes neither of the numbers of calls. -/
theorem wait_step {s s' : State Tid} {l : Label Tid} (hwait : InWait (s.pc l.thread))
    (hcall : ¬ IsCall l.action) (hstep : step s l = some s') :
    InWait (s'.pc l.thread) ∧ held s' l.thread = held s l.thread := by
  obtain ⟨t, action⟩ := l
  cases action with
  | lock | unlock | timedWait => exact absurd trivial hcall
  | run =>
    simp only [step] at hstep
    unfold access at hstep
    generalize hpc : s.pc t = pc at hstep
    cases pc with
    | idle => cases hstep
    | waitRead | waitClearCount | waitClock | waitCall | waitSetCount =>
      cases hstep
      rw [goto_pc]
      exact ⟨trivial, rfl⟩
    | waitClearTid timed count =>
      cases hstep
      rw [goto_pc]
      cases timed <;> exact ⟨trivial, rfl⟩
    | waitBlocked =>
      simp only at hstep
      split at hstep
      · cases hstep
        rw [goto_pc]
        exact ⟨trivial, rfl⟩
      · cases hstep
    | waitSetTid =>
      cases hstep
      rw [leave_pc]
      exact ⟨trivial, rfl⟩
    | _ =>
      simp only [hpc] at hwait
      exact hwait.elim
  | fail rc =>
    simp only [step] at hstep
    unfold accessFails at hstep
    split at hstep
    · rename_i hpc
      simp only [hpc] at hwait
      exact hwait.elim
    · cases hstep
      rw [goto_pc]
      exact ⟨trivial, rfl⟩
    · cases hstep
      rw [goto_pc]
      exact ⟨trivial, rfl⟩
    · split at hstep
      · cases hstep
        rw [goto_pc]
        exact ⟨trivial, rfl⟩
      · cases hstep
    · cases hstep

theorem run_wait {s s' : State Tid} {ls : List (Label Tid)} {t : Tid}
    (hrun : (mutex.guard BelowMax).Run s ls s') (hcalls : ∀ l ∈ ls, l.thread = t → ¬ IsCall l.action)
    (hwait : InWait (s.pc t)) : held s' t = held s t := by
  refine (hrun.preserves (I := fun r => InWait (r.pc t) ∧ held r t = held s t) hcalls ?_ ⟨hwait, rfl⟩).2
  intro r l r' hl hr hstep
  by_cases hthread : l.thread = t
  · subst hthread
    have hnext := wait_step hr.1 (hl rfl) hstep.2
    exact ⟨hnext.1, hnext.2.trans hr.2⟩
  · have hother := (step_own hstep.2).others t fun heq => hthread heq.symm
    rw [hother.1, hother.2]
    exact hr

omit [DecidableEq Tid] in
/-- The mutex is released at count zero. -/
theorem Inv.releases {s : State Tid} {t : Tid} (h : Inv s) (hpc : Releases (s.pc t)) : s.lockCount = 0 := by
  have hk := h.known t
  rcases hpc with hpc | ⟨count, hpc⟩
  · rw [hpc] at hk
    exact hk.2.2.1
  · rw [hpc] at hk
    exact hk.2.2.2

/-- An unlock by a thread that does not have the mutex is refused, whatever the others do
meanwhile. -/
theorem unlock_refused {s r s' : State Tid} {t : Tid} {others : List (Label Tid)} (h : Inv s)
    (howner : s.owner ≠ some t) (hcall : (mutex.guard BelowMax).Run s (⟨t, .unlock⟩ :: others) r)
    (hothers : ∀ l ∈ others, l.thread ≠ t) (hstep : access r t = some s') : s' = leave r t .errPerm := by
  obtain ⟨s₁, hfirst, hrest⟩ := System.run_cons_iff.mp hcall
  have hs₁ : s₁ = goto s t .unlockTest := by
    have hstep := hfirst.2
    simp only [mutex, System.ofFn, step] at hstep
    split at hstep
    · exact (Option.some.inj hstep).symm
    · cases hstep
  subst hs₁
  have hr : Inv r := inv_inductive.run hcall h
  obtain ⟨hpc, hrowner⟩ := run_others hrest hothers howner
  rw [goto_pc] at hpc
  have htid : ¬ lockedSelf r t = true := fun htid => hrowner (hr.tid t (by simpa [lockedSelf] using htid))
  unfold access at hstep
  rw [hpc] at hstep
  simp only [if_neg htid] at hstep
  exact (Option.some.inj hstep).symm

/-- A wait that has returned has the mutex and the count again. -/
theorem wait_restores {s s' : State Tid} {t : Tid} {timed : Bool} {steps : List (Label Tid)} (h : Inv s)
    (hcall : (mutex.guard BelowMax).Run s (⟨t, .timedWait timed⟩ :: steps) s')
    (hcalls : ∀ l ∈ steps, l.thread = t → ¬ IsCall l.action) (hpc : s'.pc t = .idle) :
    s'.owner = some t ∧ lockedSelf s' t = true ∧ s'.lockCount = s.lockCount := by
  obtain ⟨s₁, hfirst, hrest⟩ := System.run_cons_iff.mp hcall
  have hs₁ : s.pc t = .idle ∧ s.owner = some t ∧ s₁ = goto s t (.waitRead timed) := by
    have hstep := hfirst.2
    simp only [mutex, System.ofFn, step] at hstep
    split at hstep
    · rename_i hidle
      exact ⟨hidle.1, hidle.2, (Option.some.inj hstep).symm⟩
    · cases hstep
  obtain ⟨hidle, howns, rfl⟩ := hs₁
  have hk := h.known t
  rw [hidle] at hk
  have hwaiting : InWait ((goto s t (.waitRead timed)).pc t) := by
    rw [goto_pc]
    exact trivial
  have hheld : held s' t = held s t := (run_wait hrest hcalls hwaiting).trans rfl
  have hk' := (inv_inductive.run hcall h).known t
  rw [hpc, hheld] at hk'
  have howns' : s'.owner = some t := hk'.2.1.mpr (hk.2.1.mp howns)
  obtain ⟨htid, hcount⟩ := hk'.2.2 howns'
  exact ⟨howns', by simpa [lockedSelf] using htid, hcount.trans (hk.2.2 howns).2.symm⟩

/-- In every run in which no thread that has locked the mutex INT_MAX times locks it
once more: `UTLMutex_LockedSelf` is true for the owner only; between its calls a
thread owns the mutex exactly when it has locked it more often than unlocked, and then
the count is the difference; the mutex is given away only when the count is zero; an
unlock by another thread than the owner returns `VPL_ERR_PERM` and changes nothing;
and a wait, however it ends, returns with the mutex and the count it was called with. -/
theorem mutex_discipline (s₀ s : State Tid) (ls : List (Label Tid)) (hinit : Initial s₀)
    (hrun : (mutex.guard BelowMax).Run s₀ ls s) :
    (∀ t, lockedSelf s t = true → s.owner = some t) ∧
    (∀ t, s.pc t = .idle → (s.owner = some t ↔ 0 < held s t) ∧
      (s.owner = some t → s.lockCount = held s t)) ∧
    (∀ t s', access s t = some s' → s.owner = some t → s'.owner ≠ some t → s.lockCount = 0) ∧
    (∀ t others r s', s.owner ≠ some t → (mutex.guard BelowMax).Run s (⟨t, .unlock⟩ :: others) r →
      (∀ l ∈ others, l.thread ≠ t) → access r t = some s' →
      s' = { r with pc := Function.update r.pc t .idle,
                    returned := Function.update r.returned t (some .errPerm) }) ∧
    ∀ t timed steps s', (mutex.guard BelowMax).Run s (⟨t, .timedWait timed⟩ :: steps) s' →
      (∀ l ∈ steps, l.thread = t → ¬ IsCall l.action) → s'.pc t = .idle →
      s'.owner = some t ∧ lockedSelf s' t = true ∧ s'.lockCount = s.lockCount := by
  have h : Inv s := inv_inductive.run hrun (inv_inductive.init s₀ hinit)
  refine ⟨fun t ht => h.tid t (by simpa [lockedSelf] using ht), fun t hpc => ?_,
    fun t s' hstep howns hlost => ?_, ?_, ?_⟩
  · have hk := h.known t
    rw [hpc] at hk
    exact ⟨hk.2.1, fun howns => (hk.2.2 howns).2⟩
  · rcases (access_own hstep).owner with hsame | ⟨-, hreleases⟩ | hown
    · exact absurd (hsame.trans howns) hlost
    · exact h.releases hreleases
    · exact absurd hown hlost
  · intro t others r s' howner hcall hothers hstep
    exact unlock_refused h howner hcall hothers hstep
  · intro t timed steps s' hcall hcalls hpc
    exact wait_restores h hcall hcalls hpc

instance (s : State Tid) (l : Label Tid) : Decidable (BelowMax s l) := by
  unfold BelowMax
  exact inferInstance

/-- A mutex of one thread, before the first call. -/
def freshMutex : State Unit := ⟨none, 0, none, fun _ => .idle, fun _ => none, fun _ => 0, fun _ => 0⟩

theorem freshMutex_initial : Initial freshMutex :=
  ⟨rfl, rfl, rfl, fun _ => rfl, fun _ => rfl, fun _ => rfl⟩

/-- A call of `UTLMutex_Lock` and its four accesses. -/
def lockOnce : List (Label Unit) := ⟨(), .lock⟩ :: List.replicate 4 ⟨(), .run⟩

theorem mutex_discipline_once :
    ∃ s, (mutex.guard BelowMax).Run freshMutex lockOnce s ∧ s.owner = some () ∧ s.lockCount = held s () := by
  have hp : ((exec (guardFn BelowMax step) freshMutex lockOnce).any fun s =>
      s.pc () = .idle && s.owner = some ()) = true := by decide
  simp only [Option.any_eq_true, Bool.and_eq_true, decide_eq_true_eq] at hp
  obtain ⟨s, hs, hpc, howner⟩ := hp
  have hrun : (mutex.guard BelowMax).Run freshMutex lockOnce s := run_guard_of_exec hs
  exact ⟨s, hrun, howner,
    ((mutex_discipline freshMutex s lockOnce freshMutex_initial hrun).2.1 () hpc).2 howner⟩

/-! ## One lock too many -/

/-- The thread has locked the mutex `n` times. -/
def lockedTimes (n : Nat) (count : Int) : State Unit :=
  ⟨some (), count, some (), fun _ => .idle, fun _ => some .ok, fun _ => n, fun _ => 0⟩

theorem lock_first : exec step freshMutex lockOnce = some (lockedTimes 1 1) := rfl

/-- Nothing stops it from locking it again. -/
theorem lock_again (n : Nat) (count : Int) :
    exec step (lockedTimes n count) (⟨(), .lock⟩ :: List.replicate 3 ⟨(), .run⟩) =
      some (lockedTimes (n + 1) (wrapInt (count + 1))) := rfl

theorem lockedTimes_reachable (n : Nat) : mutex.Reachable (lockedTimes (n + 1) (wrapInt (n + 1 : Nat))) := by
  induction n with
  | zero => exact reachable_of_exec freshMutex_initial lock_first
  | succ n ih =>
    have hcount : wrapInt (wrapInt (n + 1 : Nat) + 1) = wrapInt (n + 1 + 1 : Nat) := by simp [wrapInt]
    rw [← hcount]
    exact ih.run (run_of_exec (lock_again (n + 1) (wrapInt (n + 1 : Nat))))

/-- With the 2^31st nested lock the count becomes -2^31. -/
theorem count_overflows :
    ¬ ∀ s : State Unit, mutex.Reachable s → ∀ t, s.pc t = .idle → s.owner = some t → s.lockCount = held s t := by
  intro h
  have hcount := h _ (lockedTimes_reachable 2147483647) () rfl rfl
  exact absurd hcount (by decide)

end TmatePlugin.L1.RecursiveMutex

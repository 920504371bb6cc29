import Mathlib.Logic.Function.Basic
import TmatePlugin.Lib.History
import TmatePlugin.L4Threads.MainWait

/-!
# The client object and its four threads

main builds a `CWebSocketClient`, starts four threads on it, supervises it and
deletes it: on the reconnect path, or after SIGINT behind a loop that looks at
the thread handles. The threads get the raw pointer and nobody joins them, so
threads of several clients can be alive at once.

A thread is a walk through the control flow graph of its function
(`successors`); `derefs` says at which points it goes through the pointer, the
others are pauses and tests of globals. While the object lives, a branch agrees
with the field it tests (`agrees`); a branch on freed memory is arbitrary.
`accesses` is history, main's own accesses included.

* `threadWait_ends`: the shutdown loop never waits, its unsigned comparison is
  false for every handle.
* `outlives_threads`: in every run whose deletes come after the end of the
  client's threads (`DeletesFinished`), no freed client is used.
* `reconnect_uses_freed`, `shutdown_uses_freed`: without that, on both paths.
  Every delete that comes too early can end so (`deletesFinished_exact`).

Left out: what the threads send and read besides the fields main looks at, and
the end of the process by an exception that leaves main or a notify thread.
-/
namespace TmatePlugin.L4.ClientLifetime

open Transition History CString
open TmatePlugin.L4.MainWait (StartCall invalidState)

/-- The threads `StartWebClient` creates. -/
inductive Thread where
  | work
  | update
  | command
  | data
  deriving DecidableEq, Repr

/-- The points of the four thread functions. `send`, `acks`, `states`: in
SendNotifyPluginUpdate, SendNotifyPluginCommandAcks, SendNotifyPluginStates;
`pause`, `ackPause`, `asleep`: the sleeps.
mirrors MainSrc/WebSocketClient.cpp:21-154,375-456,510-566 -/
inductive Pc where
  | none
  | begin
  -- ClientWorkThread
  | run
  | disconnected
  | caught
  | caughtOther
  | notify
  -- the loops of the notify threads
  | whileTest
  | openedTest
  | stateTest
  | send
  | pause
  | updatedTest
  | acks
  | ackPause
  | states
  | sigIntTest
  | setEnd
  | asleep
  | reset
  | ended
  deriving DecidableEq, Repr

/-- Where a thread can go from a point. -/
def successors : Thread → Pc → List Pc
  | .work, .begin => [.run, .caught, .caughtOther]
  | _, .begin => [.whileTest, .ended]
  -- `run()` performs handlers until it returns or throws
  | _, .run => [.run, .disconnected, .caught, .caughtOther, .reset]
  | _, .disconnected => [.run, .caught]
  | _, .caught | _, .caughtOther => [.reset]
  | .work, .reset => [.notify]
  | _, .reset => [.ended]
  | _, .notify => [.ended]
  | .update, .whileTest => [.openedTest, .reset]
  | _, .whileTest => [.updatedTest, .reset]
  | _, .openedTest => [.stateTest, .pause]
  | _, .stateTest => [.send, .pause, .updatedTest]
  | _, .send | _, .pause => [.updatedTest]
  | .command, .updatedTest => [.acks, .asleep]
  | .data, .updatedTest => [.states, .sigIntTest]
  | _, .updatedTest => [.asleep, .whileTest]
  | _, .acks => [.acks, .ackPause, .asleep]
  | _, .ackPause => [.acks]
  | _, .states => [.sigIntTest]
  | _, .sigIntTest => [.setEnd, .asleep]
  | _, .setEnd => [.asleep]
  | _, .asleep => [.whileTest]
  | _, .none | _, .ended => []

/-- The statement at this point uses the client pointer. -/
def derefs : Pc → Bool
  | .begin | .run | .disconnected | .caught | .caughtOther | .notify | .whileTest | .openedTest
  | .send | .acks | .states | .setEnd | .reset => true
  | .none | .stateTest | .pause | .updatedTest | .ackPause | .sigIntTest | .asleep | .ended => false

/-- mirrors MainSrc/WebSocketClient.h:94-120 -/
structure CWebSocketClient where
  threadstart : Bool
  exception : Bytes
  endWebSocket : Bool
  plugin : Bool
  handle : Thread → UInt64

/-- `-1` as a pthread_t. -/
def minusOne : UInt64 := 0xFFFFFFFFFFFFFFFF

/-- mirrors MainSrc/WebSocketClient.cpp:569-595 -/
def CWebSocketClient.new (plugin : Bool) : CWebSocketClient :=
  ⟨false, [], false, plugin, fun _ => minusOne⟩

/-- The branch a thread takes where a field of the client decides it. -/
def agrees (o : CWebSocketClient) : Pc → Pc → Bool
  | .begin, .whileTest => o.plugin
  | .begin, .ended => !o.plugin
  | .whileTest, .reset => !o.threadstart
  | .whileTest, _ => o.threadstart
  | _, _ => true

/-- The branch on the global `gotSigInt`. -/
def agreesSigInt (gotSigInt : Bool) : Pc → Pc → Bool
  | .sigIntTest, .setEnd => gotSigInt
  | .sigIntTest, _ => !gotSigInt
  | _, _ => true

/-- What the statement at this point writes; `what` is the text of the
exception that is caught. -/
def effect (t : Thread) (what : Bytes) (o : CWebSocketClient) : Pc → CWebSocketClient
  | .disconnected => { o with threadstart := false, exception := [] }
  | .caught => { o with threadstart := false, exception := what }
  | .caughtOther => { o with threadstart := false }
  | .setEnd => { o with endWebSocket := true }
  | .reset => { o with handle := Function.update o.handle t minusOne }
  | _ => o

/-- main, with the client it holds: before the `new`, in StartWebClient, in the
do-while, at the condition of the supervise loop, at its test of `gotSigInt`,
at its test of the worker, before the `delete` of the reconnect path, at `m_client.close`, at the thread-handle loop, before the
last `delete`, past it.
mirrors MainSrc/plugin_main.cpp:119-232 -/
inductive MainPc where
  | connectWebsocket
  | starting (c : Nat) (call : StartCall)
  | wait (c : Nat)
  | supervise (c : Nat)
  | superviseSigInt (c : Nat)
  | superviseWorking (c : Nat)
  | reconnect (c : Nat)
  | close (c : Nat)
  | threadWait (c : Nat)
  | shutdown (c : Nat)
  | exit
  deriving DecidableEq, Repr

/-- The client main holds. -/
def MainPc.client : MainPc → Option Nat
  | .starting c _ | .wait c | .supervise c | .superviseSigInt c | .superviseWorking c
  | .reconnect c | .close c | .threadWait c | .shutdown c => some c
  | .connectWebsocket | .exit => none

/-- Clients are numbered in the order of their `new`; `built` counts them. -/
structure State where
  main : MainPc
  built : Nat
  object : Nat → CWebSocketClient
  pc : Nat → Thread → Pc
  gotSigInt : Bool
  accesses : List (Access Nat)

/-- The start of main; a SIGINT may come at any time. -/
def State.initial : State :=
  ⟨.connectWebsocket, 0, fun _ => .new false, fun _ _ => .none, false, []⟩

inductive Label where
  | sigInt
  | newClient (plugin : Bool)
  | unknownSample
  | startCall (ok : Bool) (handle : UInt64)
  | evaluateWait
  | superviseCondition
  | superviseSigInt
  | superviseWorking
  | deleteReconnect
  | close
  | evaluateThreadWait
  | deleteShutdown
  | thread (c : Nat) (t : Thread) (target : Pc) (what : Bytes)
  deriving DecidableEq, Repr

/-- The thread a call of StartWebClient creates. -/
def created : StartCall → Option Thread
  | .attrInit | .attrSetStackSize => none
  | .createWork => some .work
  | .createUpdate => some .update
  | .createCommand => some .command
  | .createData => some .data

/-- `handle > -1`, with `-1` converted to pthread_t. -/
def aboveMinusOne (handle : UInt64) : Bool := minusOne < handle

/-- The condition of the thread-handle loop: all four handles above -1, and the
client working.
mirrors MainSrc/plugin_main.cpp:221-223 -/
def threadWaitCondition (o : CWebSocketClient) : Bool :=
  aboveMinusOne (o.handle .work) && aboveMinusOne (o.handle .update) &&
    aboveMinusOne (o.handle .command) && aboveMinusOne (o.handle .data) && o.threadstart

def State.setObject (s : State) (c : Nat) (o : CWebSocketClient) : State :=
  { s with object := Function.update s.object c o }

def State.setPc (s : State) (c : Nat) (t : Thread) (p : Pc) : State :=
  { s with pc := Function.update s.pc c (Function.update (s.pc c) t p) }

def State.access (s : State) (a : Access Nat) : State := { s with accesses := s.accesses ++ [a] }

/-- A successful call of StartWebClient. -/
def started (s : State) (c : Nat) (call : StartCall) (handle : UInt64) : State :=
  let next := { s with main := (call.next.map (.starting c)).getD (.wait c) }
  match created call with
  | none => next
  | some t =>
    (next.setPc c t .begin).setObject c
      { s.object c with handle := Function.update (s.object c).handle t handle }

def step (s : State) : Label → Option State
  | .sigInt => some { s with gotSigInt := true }
  -- the constructor, Initial and SetSamplePlugin, StartWebClient up to its first call
  | .newClient plugin =>
    match s.main with
    | .connectWebsocket =>
      some (({ s with main := .starting s.built .attrInit, built := s.built + 1 }.setObject s.built
        { CWebSocketClient.new plugin with threadstart := true }).access (.new s.built))
    | _ => none
  | .unknownSample =>
    match s.main with
    | .connectWebsocket => some { s with main := .exit }
    | _ => none
  | .startCall ok handle =>
    match s.main with
    | .starting c call =>
      if ok then some ((started s c call handle).access (.use c))
      else
        some (({ s with main := .wait c }.setObject c
          { s.object c with threadstart := false }).access (.use c))
    | _ => none
  | .evaluateWait =>
    match s.main with
    | .wait c =>
      let o := s.object c
      some ({ s with main := if !o.threadstart && o.exception ≠ invalidState then .wait c
                             else .supervise c }.access (.use c))
    | _ => none
  | .superviseCondition =>
    match s.main with
    | .supervise c =>
      some ({ s with main := if (s.object c).endWebSocket then .close c
                             else .superviseSigInt c }.access (.use c))
    | _ => none
  | .superviseSigInt =>
    match s.main with
    | .superviseSigInt c =>
      if s.gotSigInt then
        some (({ s with main := .superviseWorking c }.setObject c
          { s.object c with endWebSocket := true }).access (.use c))
      else some { s with main := .superviseWorking c }
    | _ => none
  | .superviseWorking =>
    match s.main with
    | .superviseWorking c =>
      some ({ s with main := if (s.object c).threadstart then .supervise c
                             else .reconnect c }.access (.use c))
    | _ => none
  | .deleteReconnect =>
    match s.main with
    | .reconnect c => some ({ s with main := .connectWebsocket }.access (.delete c))
    | _ => none
  | .close =>
    match s.main with
    | .close c => some ({ s with main := .threadWait c }.access (.use c))
    | _ => none
  | .evaluateThreadWait =>
    match s.main with
    | .threadWait c =>
      some ({ s with main := if threadWaitCondition (s.object c) then .threadWait c
                             else .shutdown c }.access (.use c))
    | _ => none
  | .deleteShutdown =>
    match s.main with
    | .shutdown c => some ({ s with main := .exit }.access (.delete c))
    | _ => none
  | .thread c t target what =>
    let p := s.pc c t
    if target ∈ successors t p ∧ agreesSigInt s.gotSigInt p target = true ∧
        (live s.accesses c → agrees (s.object c) p target = true) then
      let s' := (s.setPc c t target).setObject c (effect t what (s.object c) p)
      some (if derefs p then s'.access (.use c) else s')
    else none

/-- The runs of main and its threads. -/
def clients : System State Label := System.ofFn (· = .initial) step

/-- A concrete run of main and its threads. -/
theorem clients_run (ls : List Label) (p : State → Bool)
    (h : (exec step .initial ls).any p = true) : ∃ s, clients.Reachable s ∧ p s = true :=
  exists_reachable_of_exec ls p rfl h

/-- The thread has still to come to a statement that uses the client. -/
def running (p : Pc) : Prop := p ≠ .none ∧ p ≠ .ended

instance (p : Pc) : Decidable (running p) := by unfold running; exact inferInstance

/-- main deletes a client only when none of its threads is running. -/
def DeletesFinished (s : State) : Label → Prop
  | .deleteReconnect | .deleteShutdown =>
    ∀ c, s.main.client = some c → ∀ t, ¬ running (s.pc c t)
  | _ => True

/-- No thread of `c` is running, as a test. -/
def finished (s : State) (c : Nat) : Bool :=
  [Thread.work, .update, .command, .data].all fun t => ¬ running (s.pc c t)

theorem finished_iff (s : State) (c : Nat) : finished s c = true ↔ ∀ t, ¬ running (s.pc c t) := by
  simp only [finished, List.all_cons, List.all_nil, Bool.and_true, Bool.and_eq_true,
    decide_eq_true_eq]
  refine ⟨fun h t => ?_, fun h => ⟨h .work, h .update, h .command, h .data⟩⟩
  cases t
  · exact h.1
  · exact h.2.1
  · exact h.2.2.1
  · exact h.2.2.2

instance (s : State) (c : Option Nat) :
    Decidable (∀ d, c = some d → ∀ t, ¬ running (s.pc d t)) :=
  decidable_of_iff (c.all (finished s) = true) (by
    cases c <;> simp [finished_iff])

instance (s : State) : (l : Label) → Decidable (DeletesFinished s l)
  | .deleteReconnect | .deleteShutdown => by unfold DeletesFinished; exact inferInstance
  | .sigInt | .newClient _ | .unknownSample | .startCall _ _ | .evaluateWait | .superviseCondition
  | .superviseSigInt | .superviseWorking | .close | .evaluateThreadWait | .thread _ _ _ _ =>
    .isTrue trivial

/-- A concrete run whose deletes meet `DeletesFinished`. -/
theorem clients_run_guard (ls : List Label) (p : State → Bool)
    (h : (exec (guardFn DeletesFinished step) .initial ls).any p = true) :
    ∃ s, (clients.guard DeletesFinished).Reachable s ∧ p s = true :=
  exists_reachable_guard_of_exec ls p rfl h

/-- No freed client is used. -/
def Outlives (s : State) : Prop :=
  ∀ earlier c later, s.accesses = earlier ++ .delete c :: later → .use c ∉ later

/-! ## The shutdown loop -/

theorem not_aboveMinusOne (handle : UInt64) : aboveMinusOne handle = false := by
  have h := handle.toNat_lt
  simp only [aboveMinusOne, decide_eq_false_iff_not, UInt64.lt_iff_toNat_lt, minusOne]
  show ¬ 18446744073709551615 < handle.toNat
  omega

/-- Whatever the handles are, the loop is left at once. -/
theorem threadWait_ends (o : CWebSocketClient) : threadWaitCondition o = false := by
  simp [threadWaitCondition, not_aboveMinusOne]

/-! ## What a step does -/

/-- The effect of a step on main's client, the threads and the history. -/
inductive Effect (s : State) (l : Label) (s' : State) : Prop
  | quiet (hmain : ∀ c, s'.main.client = some c → s.main.client = some c) (hpc : s'.pc = s.pc)
      (hbuilt : s'.built = s.built) (hacc : s'.accesses = s.accesses)
  | new (hmain : s'.main.client = some s.built) (hpc : s'.pc = s.pc)
      (hbuilt : s'.built = s.built + 1) (hacc : s'.accesses = s.accesses ++ [.new s.built])
  | use (c : Nat) (hc : s.main.client = some c) (hmain : s'.main.client = some c)
      (hpc : ∀ c' t, c' ≠ c → s'.pc c' t = s.pc c' t) (hbuilt : s'.built = s.built)
      (hacc : s'.accesses = s.accesses ++ [.use c])
  | delete (c : Nat) (hc : s.main.client = some c) (hmain : s'.main.client = none)
      (hpc : s'.pc = s.pc) (hbuilt : s'.built = s.built)
      (hacc : s'.accesses = s.accesses ++ [.delete c])
      (hl : l = .deleteReconnect ∨ l = .deleteShutdown)
  | thread (c : Nat) (t : Thread) (hrun : running (s.pc c t)) (hmain : s'.main = s.main)
      (hpc : ∀ c' t', c' ≠ c → s'.pc c' t' = s.pc c' t') (hbuilt : s'.built = s.built)
      (hacc : s'.accesses = s.accesses ∨ s'.accesses = s.accesses ++ [.use c])

theorem successors_running {t : Thread} {p target : Pc} (h : target ∈ successors t p) :
    running p := by
  refine ⟨fun hp => ?_, fun hp => ?_⟩ <;>
  · rw [hp] at h
    cases t <;> simp [successors] at h

theorem started_pc (s : State) (c : Nat) (call : StartCall) (handle : UInt64) {c' : Nat}
    (hc : c' ≠ c) (t : Thread) : (started s c call handle).pc c' t = s.pc c' t := by
  unfold started
  cases created call with
  | none => rfl
  | some _ => simp [State.setObject, State.setPc, hc]

theorem started_client (s : State) (c : Nat) (call : StartCall) (handle : UInt64) :
    (started s c call handle).main.client = some c := by
  unfold started
  cases call <;> rfl

theorem started_accesses (s : State) (c : Nat) (call : StartCall) (handle : UInt64) :
    (started s c call handle).accesses = s.accesses ∧ (started s c call handle).built = s.built := by
  unfold started
  cases created call <;> exact ⟨rfl, rfl⟩

theorem step_effect {s s' : State} {l : Label} (h : step s l = some s') : Effect s l s' := by
  cases l with
  | sigInt =>
    cases h
    exact .quiet (fun _ hc => hc) rfl rfl rfl
  | newClient plugin =>
    simp only [step] at h
    split at h <;> cases h
    exact .new rfl rfl rfl rfl
  | unknownSample =>
    simp only [step] at h
    split at h <;> cases h
    exact .quiet (fun _ hc => by cases hc) rfl rfl rfl
  | startCall ok handle =>
    simp only [step] at h
    split at h
    · rename_i c call hm
      have hc : s.main.client = some c := by rw [hm]; rfl
      obtain ⟨hacc, hbuilt⟩ := started_accesses s c call handle
      split at h <;> cases h
      · exact .use c hc (started_client s c call handle)
          (fun _ t hne => started_pc s c call handle hne t) hbuilt
          (congrArg (· ++ [Access.use c]) hacc)
      · exact .use c hc rfl (fun _ _ _ => rfl) rfl rfl
    · cases h
  | evaluateWait | superviseCondition | superviseWorking | evaluateThreadWait =>
    -- conditions that main evaluates on its client
    simp only [step] at h
    split at h <;> cases h
    rename_i c hm
    refine .use c (by rw [hm]; rfl) ?_ (fun _ _ _ => rfl) rfl rfl
    simp only [State.access]
    split <;> rfl
  | superviseSigInt =>
    simp only [step] at h
    split at h
    · rename_i c hm
      have hc : s.main.client = some c := by rw [hm]; rfl
      split at h <;> cases h
      · exact .use c hc rfl (fun _ _ _ => rfl) rfl rfl
      · exact .quiet (fun _ hc' => hc.trans hc') rfl rfl rfl
    · cases h
  | deleteReconnect =>
    simp only [step] at h
    split at h <;> cases h
    rename_i c hm
    exact .delete c (by rw [hm]; rfl) rfl rfl rfl rfl (.inl rfl)
  | close =>
    simp only [step] at h
    split at h <;> cases h
    rename_i c hm
    exact .use c (by rw [hm]; rfl) rfl (fun _ _ _ => rfl) rfl rfl
  | deleteShutdown =>
    simp only [step] at h
    split at h <;> cases h
    rename_i c hm
    exact .delete c (by rw [hm]; rfl) rfl rfl rfl rfl (.inr rfl)
  | thread c t target what =>
    simp only [step, Option.ite_none_right_eq_some, Option.some.injEq] at h
    obtain ⟨⟨hsucc, -⟩, rfl⟩ := h
    have hpc : ∀ c' t', c' ≠ c → (s.setPc c t target).pc c' t' = s.pc c' t' :=
      fun c' t' hne => by simp [State.setPc, hne]
    split
    · exact .thread c t (successors_running hsucc) rfl hpc rfl (.inr rfl)
    · exact .thread c t (successors_running hsucc) rfl hpc rfl (.inl rfl)

/-! ## Guarded runs -/

/-- main's client and the clients of running threads are live. -/
structure Inv (s : State) : Prop where
  safe : Safe s.accesses
  built : ∀ c, .new c ∈ s.accesses → c < s.built
  unborn : ∀ c t, s.built ≤ c → ¬ running (s.pc c t)
  main : ∀ c, s.main.client = some c → live s.accesses c
  threads : ∀ c t, running (s.pc c t) → live s.accesses c

/-- A step of main or a thread on a live client, with or without a use of it. -/
theorem Inv.touch {s s' : State} (hI : Inv s) {c : Nat} (hlive : live s.accesses c)
    (hmain : ∀ c', s'.main.client = some c' → s.main.client = some c')
    (hpc : ∀ c' t, c' ≠ c → s'.pc c' t = s.pc c' t) (hbuilt : s'.built = s.built)
    (hacc : s'.accesses = s.accesses ∨ s'.accesses = s.accesses ++ [.use c]) : Inv s' := by
  have hold : ∀ a, live s.accesses a → live s'.accesses a := by
    intro a ha
    rcases hacc with hacc | hacc <;> rw [hacc]
    · exact ha
    · exact live_append_use ha
  refine ⟨?_, fun a ha => ?_, fun c' t hle => ?_, fun c' hc' => hold c' (hI.main c' (hmain c' hc')),
    fun c' t hrun => ?_⟩
  · rcases hacc with hacc | hacc <;> rw [hacc]
    · exact hI.safe
    · exact hI.safe.append hlive
  · rw [hbuilt]
    refine hI.built a ?_
    rcases hacc with hacc | hacc <;> rw [hacc] at ha
    · exact ha
    · simpa using ha
  · have hlt := hI.built c hlive.1
    rw [hbuilt] at hle
    rw [hpc c' t (by omega)]
    exact hI.unborn c' t hle
  · by_cases hc : c' = c
    · rw [hc]; exact hold c hlive
    · rw [hpc c' t hc] at hrun
      exact hold c' (hI.threads c' t hrun)

theorem inv_step {s s' : State} {l : Label} (hI : Inv s) (hg : DeletesFinished s l)
    (h : step s l = some s') : Inv s' := by
  cases step_effect h with
  | quiet hmain hpc hbuilt hacc =>
    refine ⟨by rw [hacc]; exact hI.safe, by rw [hacc, hbuilt]; exact hI.built,
      by rw [hbuilt, hpc]; exact hI.unborn, fun c hc => ?_, by rw [hacc, hpc]; exact hI.threads⟩
    rw [hacc]
    exact hI.main c (hmain c hc)
  | new hmain hpc hbuilt hacc =>
    have hfresh : Access.new s.built ∉ s.accesses := fun hmem => by
      have := hI.built _ hmem
      omega
    refine ⟨by rw [hacc]; exact hI.safe.append hfresh, fun c hc => ?_, fun c t hle => ?_,
      fun c hc => ?_, fun c t hrun => ?_⟩
    · rw [hacc, List.mem_append, List.mem_singleton, Access.new.injEq] at hc
      rcases hc with hc | hc
      · have := hI.built c hc
        omega
      · omega
    · rw [hpc]
      exact hI.unborn c t (by omega)
    · rw [hmain, Option.some.injEq] at hc
      rw [hacc, ← hc]
      exact hI.safe.live_new hfresh
    · rw [hpc] at hrun
      rw [hacc]
      exact live_append_new (hI.threads c t hrun)
  | use c hc hmain hpc hbuilt hacc =>
    exact hI.touch (hI.main c hc) (fun c' hc' => by rw [hc, ← hmain, hc']) hpc hbuilt (.inr hacc)
  | delete c hc hmain hpc hbuilt hacc hl =>
    have hfinished : ∀ t, ¬ running (s.pc c t) := by
      rcases hl with rfl | rfl <;> exact hg c hc
    refine ⟨by rw [hacc]; exact hI.safe.append (hI.main c hc), fun c' hc' => ?_,
      by rw [hbuilt, hpc]; exact hI.unborn, fun c' hc' => ?_, fun c' t hrun => ?_⟩
    · rw [hacc] at hc'
      rw [hbuilt]
      exact hI.built c' (by simpa using hc')
    · rw [hmain] at hc'; cases hc'
    · rw [hpc] at hrun
      have hne : c' ≠ c := by
        intro he
        rw [he] at hrun
        exact hfinished t hrun
      rw [hacc]
      exact live_append_delete (hI.threads c' t hrun) hne
  | thread c t hrun hmain hpc hbuilt hacc =>
    exact hI.touch (hI.threads c t hrun) (fun c' hc' => by rw [← hmain]; exact hc') hpc hbuilt hacc

theorem inv_inductive : (clients.guard DeletesFinished).Inductive Inv where
  init := by
    intro s hs
    subst hs
    exact ⟨each_nil _, fun c hc => (by cases hc), fun c t _ hrun => hrun.1 rfl,
      fun c hc => (by cases hc), fun c t hrun => absurd rfl hrun.1⟩
  step := fun _ _ _ hI h => inv_step hI h.1 h.2

/-- In every run that deletes a client only when none of its threads is
running, no freed client is used. -/
theorem outlives_threads (s : State) (h : (clients.guard DeletesFinished).Reachable s) :
    Outlives s := by
  intro earlier c later heq
  have hsafe := (inv_inductive.reachable h).safe
  rw [heq] at hsafe
  exact hsafe.after_delete.1

theorem not_outlives {s : State} {earlier later : List (Access Nat)} {c : Nat}
    (h : s.accesses = earlier ++ .delete c :: later) (hc : .use c ∈ later) : ¬ Outlives s :=
  fun hO => hO earlier c later h hc

/-- A history that ends with a use of the client just freed. -/
theorem not_outlives_of_drop {s : State} {c n : Nat}
    (h : s.accesses.drop n = [.delete c, .use c]) : ¬ Outlives s := by
  have hacc : s.accesses = s.accesses.take n ++ .delete c :: [.use c] := by
    rw [← h, List.take_append_drop]
  exact not_outlives hacc (by simp)

/-- The thread walks through these points. -/
def walk (c : Nat) (t : Thread) (path : List Pc) : List Label :=
  path.map fun p => .thread c t p []

/-- A new client with its four threads, main in its supervise loop. -/
def startClient : List Label :=
  .newClient true :: List.replicate 6 (.startCall true 7) ++ [.evaluateWait]

def superviseRound : List Label := [.superviseCondition, .superviseSigInt, .superviseWorking]

/-- The connection closes and all threads come to their end before main
notices. -/
def endAll : List Label :=
  walk 0 .work [.run, .disconnected, .run, .reset, .notify, .ended] ++
    walk 0 .update [.whileTest, .reset, .ended] ++ walk 0 .command [.whileTest, .reset, .ended] ++
    walk 0 .data [.whileTest, .reset, .ended]

theorem outlives_threads_ended :
    ∃ s, (clients.guard DeletesFinished).Reachable s ∧ .delete 0 ∈ s.accesses ∧ Outlives s := by
  obtain ⟨s, hr, hp⟩ := clients_run_guard
    (startClient ++ endAll ++ superviseRound ++ [.deleteReconnect])
    (fun s => s.accesses.contains (.delete 0)) (by decide)
  exact ⟨s, hr, by simpa using hp, outlives_threads s hr⟩

/-- The data thread is asleep when the connection closes and main deletes the
client; it wakes up to the `while` condition. -/
theorem reconnect_uses_freed : ¬ ∀ s, clients.Reachable s → Outlives s := by
  intro h
  obtain ⟨s, hr, hp⟩ := clients_run
    (startClient ++ walk 0 .data [.whileTest, .updatedTest, .sigIntTest, .asleep] ++
      walk 0 .work [.run, .disconnected, .run] ++ superviseRound ++ [.deleteReconnect] ++
      walk 0 .data [.whileTest, .reset])
    (fun s => s.accesses.drop 15 = [.delete 0, .use 0]) (by decide)
  have hdrop : s.accesses.drop 15 = [.delete 0, .use 0] := by simpa using hp
  exact not_outlives_of_drop hdrop (h s hr)

/-- The same at shutdown: the loop before the `delete` did not wait. -/
theorem shutdown_uses_freed : ∃ s, clients.Reachable s ∧ s.main = .exit ∧ ¬ Outlives s := by
  obtain ⟨s, hr, hp⟩ := clients_run
    (startClient ++ walk 0 .command [.whileTest, .updatedTest, .asleep] ++ [.sigInt] ++
      superviseRound ++ [.superviseCondition, .close, .evaluateThreadWait, .deleteShutdown] ++
      walk 0 .command [.whileTest, .updatedTest])
    (fun s => s.main = .exit && s.accesses.drop 16 = [.delete 0, .use 0]) (by decide)
  simp only [Bool.and_eq_true, decide_eq_true_eq] at hp
  exact ⟨s, hr, hp.1, not_outlives_of_drop hp.2⟩

/-! ## The guard is exact -/

/-- A successor on the way to the next use of the client. -/
def nextUse (gotSigInt : Bool) : Thread → Pc → Pc
  | .work, .begin => .run
  | _, .begin => .ended
  | _, .run => .reset
  | _, .disconnected => .run
  | _, .caught | _, .caughtOther => .reset
  | .work, .reset => .notify
  | _, .reset => .ended
  | _, .notify => .ended
  | _, .whileTest => .reset
  | _, .openedTest => .stateTest
  | _, .stateTest => .send
  | _, .send | _, .pause => .updatedTest
  | .command, .updatedTest => .acks
  | .data, .updatedTest => .states
  | _, .updatedTest => .whileTest
  | _, .acks => .acks
  | _, .ackPause => .acks
  | _, .states => .sigIntTest
  | _, .sigIntTest => if gotSigInt then .setEnd else .asleep
  | _, .setEnd => .asleep
  | _, .asleep => .whileTest
  | _, .none | _, .ended => .ended

theorem nextUse_mem (sig : Bool) (t : Thread) {p : Pc} (hrun : running p) :
    nextUse sig t p ∈ successors t p ∧ agreesSigInt sig p (nextUse sig t p) = true := by
  cases p
  case none => exact absurd rfl hrun.1
  case ended => exact absurd rfl hrun.2
  all_goals cases t <;> cases sig <;> decide

/-- A running thread comes to a use within three steps. -/
theorem nextUse_derefs (sig : Bool) (t : Thread) {p : Pc} (hrun : running p) :
    derefs p = true ∨ running (nextUse sig t p) ∧ (derefs (nextUse sig t p) = true ∨
      running (nextUse sig t (nextUse sig t p)) ∧
        derefs (nextUse sig t (nextUse sig t p)) = true) := by
  cases p
  case none => exact absurd rfl hrun.1
  case ended => exact absurd rfl hrun.2
  all_goals cases t <;> cases sig <;> decide

/-- `c` is freed, and used after that when `used`. -/
def FreedThen (s : State) (c : Nat) (used : Prop) : Prop :=
  ∃ earlier later, s.accesses = earlier ++ .delete c :: later ∧ (used → .use c ∈ later)

/-- A thread of a freed client can take any successor. -/
theorem freed_step {s : State} {c : Nat} {t : Thread} (hfreed : FreedThen s c False)
    (hrun : running (s.pc c t)) :
    ∃ l s', step s l = some s' ∧ s'.pc c t = nextUse s.gotSigInt t (s.pc c t) ∧
      s'.gotSigInt = s.gotSigInt ∧ FreedThen s' c (derefs (s.pc c t) = true) := by
  obtain ⟨earlier, later, hacc, -⟩ := hfreed
  have hdead : ¬ live s.accesses c := fun hlive => hlive.2 (by rw [hacc]; simp)
  obtain ⟨hmem, hsig⟩ := nextUse_mem s.gotSigInt t hrun
  refine ⟨.thread c t (nextUse s.gotSigInt t (s.pc c t)) [], _,
    if_pos ⟨hmem, hsig, fun hlive => absurd hlive hdead⟩, ?_⟩
  split
  · refine ⟨by simp [State.access, State.setObject, State.setPc], rfl,
      earlier, later ++ [.use c], ?_, fun _ => by simp⟩
    show s.accesses ++ [.use c] = _
    rw [hacc, List.append_assoc, List.cons_append]
  · rename_i hd
    exact ⟨by simp [State.setObject, State.setPc], rfl, earlier, later, hacc, fun h => absurd h hd⟩

theorem freed_use_now {s : State} {c : Nat} {t : Thread} (hfreed : FreedThen s c False)
    (hrun : running (s.pc c t)) (hd : derefs (s.pc c t) = true) :
    ∃ ls s', clients.Run s ls s' ∧ ¬ Outlives s' := by
  obtain ⟨l, s', hstep, -, -, earlier, later, hacc, huse⟩ := freed_step hfreed hrun
  exact ⟨[l], s', .cons hstep (.nil _), not_outlives hacc (huse hd)⟩

theorem FreedThen.weaken {s : State} {c : Nat} {used : Prop} (h : FreedThen s c used) :
    FreedThen s c False := by
  obtain ⟨earlier, later, hacc, -⟩ := h
  exact ⟨earlier, later, hacc, False.elim⟩

/-- A running thread of a freed client uses it. -/
theorem freed_use {s : State} {c : Nat} {t : Thread} (hfreed : FreedThen s c False)
    (hrun : running (s.pc c t)) : ∃ ls s', clients.Run s ls s' ∧ ¬ Outlives s' := by
  rcases nextUse_derefs s.gotSigInt t hrun with hd | ⟨hrun₁, hd⟩
  · exact freed_use_now hfreed hrun hd
  obtain ⟨l₁, s₁, hstep₁, hpc₁, hsig₁, hfreed₁⟩ := freed_step hfreed hrun
  rw [← hpc₁] at hrun₁ hd
  rw [← hsig₁] at hd
  rcases hd with hd | ⟨hrun₂, hd⟩
  · obtain ⟨ls, s', hls, hO⟩ := freed_use_now hfreed₁.weaken hrun₁ hd
    exact ⟨l₁ :: ls, s', .cons hstep₁ hls, hO⟩
  obtain ⟨l₂, s₂, hstep₂, hpc₂, -, hfreed₂⟩ := freed_step hfreed₁.weaken hrun₁
  rw [← hpc₂] at hrun₂ hd
  obtain ⟨ls, s', hls, hO⟩ := freed_use_now hfreed₂.weaken hrun₂ hd
  exact ⟨l₁ :: l₂ :: ls, s', .cons hstep₁ (.cons hstep₂ hls), hO⟩

/-- After a delete that comes too early, a freed client can be used. -/
theorem deletesFinished_exact {s s' : State} {l : Label} (h : step s l = some s')
    (hg : ¬ DeletesFinished s l) : ∃ ls t, clients.Run s' ls t ∧ ¬ Outlives t := by
  have hdelete : ∃ c, s'.pc = s.pc ∧ s'.accesses = s.accesses ++ [.delete c] ∧
      ∃ t, running (s.pc c t) := by
    cases l with
    | deleteReconnect | deleteShutdown =>
      simp only [DeletesFinished, not_forall, not_not] at hg
      obtain ⟨c, hc, t, hrun⟩ := hg
      simp only [step] at h
      split at h <;> cases h
      rename_i d hm
      rw [hm] at hc
      cases hc
      exact ⟨_, rfl, rfl, t, hrun⟩
    | _ => exact absurd trivial hg
  obtain ⟨c, hpc, hacc, t, hrun⟩ := hdelete
  refine freed_use (c := c) (t := t) ⟨s.accesses, [], hacc, False.elim⟩ ?_
  rw [hpc]
  exact hrun

end TmatePlugin.L4.ClientLifetime

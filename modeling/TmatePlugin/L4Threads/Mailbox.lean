import TmatePlugin.Lib.Fifo

/-!
# The received-command mailbox

`On_message` hands a notifyPluginCommand to `NotifyCommandThread` through one
pointer (`m_receivedCommand`) and one flag (`needSendCmdAcks`), without a lock.
The websocket thread stores the pointer, then sets the flag. The command
thread polls the flag, reads the pointer, runs the ack loop over the message it
read, deletes whatever the pointer holds by then, and clears the flag.

The plugin stays registered and the acks are always built, so the poll depends
on the flag alone and the loop ends in `ClearReceivedCommand`. What the loop
does with the message is in `TmatePlugin.L2.CommandAcks`.

* `commands_processed`: in every run in which a message is stored only into an
  empty mailbox and no flag is set between `ClearReceivedCommand` and the
  clearing of the flag, no command is lost. Without the condition one is
  (`command_lost`), and breaking it loses one (`handedOver_exact`).
* `mailbox_refines`: under the condition the mailbox is a FIFO queue.
-/
namespace TmatePlugin.L4.Mailbox

open Transition Fifo

variable {M : Type}

/-- A received command object; `id` tells the allocations apart.
mirrors MainSrc/WebSocketClient.cpp:247 -/
structure CCommandPluginJson (M : Type) where
  id : Nat
  payload : M
  deriving DecidableEq, Repr

/-- The websocket thread: between messages, or past `SetReceivedCommand`.
mirrors MainSrc/WebSocketClient.cpp:256-257 -/
inductive WsPc (M : Type) where
  | idle
  | stored (m : CCommandPluginJson M)
  deriving DecidableEq, Repr

/-- The command thread: at the test of the flag, before the pointer is read,
in the ack loop over `m`, before `ClearReceivedCommand`, before the flag is
cleared.
mirrors MainSrc/WebSocketClient.cpp:42-122,441-450 -/
inductive CmdPc (M : Type) where
  | poll
  | read
  | loop (m : CCommandPluginJson M)
  | clear
  | reset
  deriving DecidableEq, Repr

/-- `delivered` (a message counts once its flag is set), `processed` and
`discarded` are history. -/
structure State (M : Type) where
  receivedCommand : Option (CCommandPluginJson M)
  needSendCmdAcks : Bool
  ws : WsPc M
  cmd : CmdPc M
  allocated : Nat
  delivered : List (CCommandPluginJson M)
  processed : List (CCommandPluginJson M)
  discarded : List (CCommandPluginJson M)
  deriving DecidableEq, Repr

/-- A new client with the flag down, as the program starts with it. The flag is a
global: a client that comes after another one finds it as that one has left it, and
with the flag up the command thread may read the pointer before the first flag is set.
mirrors MainSrc/WebSocketClient.cpp:40,588 -/
def State.initial : State M := ⟨none, false, .idle, .poll, 0, [], [], []⟩

inductive Label (M : Type) where
  | setReceivedCommand (payload : M)
  | setNeedSendCmdAcks
  | test
  | getReceivedCommand
  | ackLoop
  | clearReceivedCommand
  | resetNeedSendCmdAcks
  deriving DecidableEq, Repr

def step (s : State M) : Label M → Option (State M)
  | .setReceivedCommand payload =>
    match s.ws with
    | .idle =>
      some { s with receivedCommand := some ⟨s.allocated, payload⟩,
                    ws := .stored ⟨s.allocated, payload⟩, allocated := s.allocated + 1 }
    | .stored _ => none
  | .setNeedSendCmdAcks =>
    match s.ws with
    | .idle => none
    | .stored m =>
      some { s with needSendCmdAcks := true, ws := .idle, delivered := s.delivered ++ [m] }
  | .test =>
    match s.cmd with
    | .poll => some { s with cmd := if s.needSendCmdAcks then .read else .poll }
    | _ => none
  | .getReceivedCommand =>
    match s.cmd, s.receivedCommand with
    | .read, some m => some { s with cmd := .loop m }
    -- SendNotifyPluginCommandAcks returns at once
    | .read, none => some { s with cmd := .reset }
    | _, _ => none
  | .ackLoop =>
    match s.cmd with
    | .loop m => some { s with cmd := .clear, processed := s.processed ++ [m] }
    | _ => none
  | .clearReceivedCommand =>
    match s.cmd with
    | .clear =>
      some { s with receivedCommand := none, cmd := .reset,
                    discarded := s.discarded ++ s.receivedCommand.toList }
    | _ => none
  | .resetNeedSendCmdAcks =>
    match s.cmd with
    | .reset => some { s with needSendCmdAcks := false, cmd := .poll }
    | _ => none

def mailbox (M : Type) : System (State M) (Label M) := System.ofFn (· = .initial) step

/-- Idle with the flag down, every delivered message has been processed; what
`ClearReceivedCommand` discarded had been processed. -/
def NothingLost (s : State M) : Prop :=
  (s.cmd = .poll → s.needSendCmdAcks = false → s.processed.length = s.delivered.length) ∧
    ∀ m ∈ s.discarded, m ∈ s.processed

/-- A message is stored into an empty mailbox only, and its flag is not set
while the command thread is about to clear it. -/
def HandedOver (s : State M) : Label M → Prop
  | .setReceivedCommand _ => s.receivedCommand = none
  | .setNeedSendCmdAcks => s.cmd ≠ .reset
  | _ => True

instance (s : State M) [DecidableEq M] : (l : Label M) → Decidable (HandedOver s l)
  | .setReceivedCommand _ | .setNeedSendCmdAcks => by unfold HandedOver; exact inferInstance
  | .test | .getReceivedCommand | .ackLoop | .clearReceivedCommand | .resetNeedSendCmdAcks =>
    .isTrue trivial

/-- A concrete run of the mailbox. -/
theorem mailbox_run (ls : List (Label M)) (p : State M → Bool)
    (h : (exec step .initial ls).any p = true) : ∃ s, (mailbox M).Reachable s ∧ p s = true :=
  exists_reachable_of_exec ls p rfl h

/-- A concrete run of the mailbox whose steps meet `HandedOver`. -/
theorem mailbox_run_guard [DecidableEq M] (ls : List (Label M)) (p : State M → Bool)
    (h : (exec (guardFn HandedOver step) .initial ls).any p = true) :
    ∃ s, ((mailbox M).guard HandedOver).Reachable s ∧ p s = true :=
  exists_reachable_guard_of_exec ls p rfl h

/-! ## The phases of a guarded run -/

/-- The states of the guarded runs, in the order a message goes through them. -/
inductive Phase : State M → Prop
  | empty {n p x} (hx : ∀ m ∈ x, m ∈ p) : Phase ⟨none, false, .idle, .poll, n, p, p, x⟩
  | stored {n p x m} (hx : ∀ m ∈ x, m ∈ p) :
      Phase ⟨some m, false, .stored m, .poll, n, p, p, x⟩
  | full {n p x m} (hx : ∀ m ∈ x, m ∈ p) : Phase ⟨some m, true, .idle, .poll, n, p ++ [m], p, x⟩
  | tested {n p x m} (hx : ∀ m ∈ x, m ∈ p) : Phase ⟨some m, true, .idle, .read, n, p ++ [m], p, x⟩
  | looping {n p x m} (hx : ∀ m ∈ x, m ∈ p) :
      Phase ⟨some m, true, .idle, .loop m, n, p ++ [m], p, x⟩
  | looped {n p x m} (hx : ∀ m ∈ x, m ∈ p) (hm : m ∈ p) :
      Phase ⟨some m, true, .idle, .clear, n, p, p, x⟩
  | cleared {n p x} (hx : ∀ m ∈ x, m ∈ p) : Phase ⟨none, true, .idle, .reset, n, p, p, x⟩
  | clearedStored {n p x m} (hx : ∀ m ∈ x, m ∈ p) :
      Phase ⟨some m, true, .stored m, .reset, n, p, p, x⟩

theorem phase_step {s s' : State M} {l : Label M} (hP : Phase s) (hg : HandedOver s l)
    (h : step s l = some s') : Phase s' := by
  cases hP with
  | empty hx =>
    cases l <;> simp only [step, reduceCtorEq, Option.some.injEq] at h <;> subst h
    · exact .stored hx
    · exact .empty hx
  | stored hx =>
    cases l <;> simp only [step, reduceCtorEq, Option.some.injEq] at h <;> subst h
    · exact .full hx
    · exact .stored hx
  | full hx =>
    cases l <;> simp only [step, reduceCtorEq, Option.some.injEq] at h <;> subst h
    · cases hg
    · exact .tested hx
  | tested hx =>
    cases l <;> simp only [step, reduceCtorEq, Option.some.injEq] at h <;> subst h
    · cases hg
    · exact .looping hx
  | looping hx =>
    cases l <;> simp only [step, reduceCtorEq, Option.some.injEq] at h <;> subst h
    · cases hg
    · exact .looped (fun m hm => List.mem_append_left _ (hx m hm)) (by simp)
  | looped hx hm =>
    cases l <;> simp only [step, reduceCtorEq, Option.some.injEq] at h <;> subst h
    · cases hg
    · refine .cleared fun m' hm' => ?_
      rcases List.mem_append.mp hm' with h | h
      · exact hx m' h
      · rw [Option.toList_some, List.mem_singleton] at h
        exact h ▸ hm
  | cleared hx =>
    cases l <;> simp only [step, reduceCtorEq, Option.some.injEq] at h <;> subst h
    · exact .clearedStored hx
    · exact .empty hx
  | clearedStored hx =>
    cases l <;> simp only [step, reduceCtorEq, Option.some.injEq] at h <;> subst h
    · exact absurd rfl hg
    · exact .stored hx

theorem phase_inductive : ((mailbox M).guard HandedOver).Inductive Phase where
  init := by intro s hs; subst hs; exact .empty (by simp)
  step := fun _ _ _ hP h => phase_step hP h.1 h.2

theorem Phase.nothingLost {s : State M} (h : Phase s) : NothingLost s := by
  cases h with
  | empty hx | stored hx | tested hx | looping hx | looped hx hm | cleared hx
  | clearedStored hx => exact ⟨by simp, hx⟩
  | full hx =>
    refine ⟨fun _ h => ?_, hx⟩
    cases h

/-- In every run in which messages are handed over one by one, no command is
lost. -/
theorem commands_processed (s : State M) (h : ((mailbox M).guard HandedOver).Reachable s) :
    NothingLost s :=
  (phase_inductive.reachable h).nothingLost

theorem commands_processed_one :
    ∃ s : State Unit, ((mailbox Unit).guard HandedOver).Reachable s ∧ s.processed.length = 1 ∧
      NothingLost s := by
  obtain ⟨s, hr, hp⟩ := mailbox_run_guard
    [.setReceivedCommand (), .setNeedSendCmdAcks, .test, .getReceivedCommand, .ackLoop,
      .clearReceivedCommand, .resetNeedSendCmdAcks]
    (fun s => s.processed.length = 1) (by decide)
  exact ⟨s, hr, by simpa using hp, commands_processed s hr⟩

/-- The second command arrives during the ack loop of the first:
`ClearReceivedCommand` deletes it. -/
theorem command_lost : ¬ ∀ s : State Unit, (mailbox Unit).Reachable s → NothingLost s := by
  intro h
  obtain ⟨s, hr, hp⟩ := mailbox_run
    [.setReceivedCommand (), .setNeedSendCmdAcks, .test, .getReceivedCommand,
      .setReceivedCommand (), .setNeedSendCmdAcks, .ackLoop, .clearReceivedCommand,
      .resetNeedSendCmdAcks]
    (fun s => s.cmd = .poll && !s.needSendCmdAcks && s.processed.length = 1 &&
      s.delivered.length = 2) (by decide)
  simp only [Bool.and_eq_true, decide_eq_true_eq, Bool.not_eq_true'] at hp
  obtain ⟨⟨⟨hcmd, hflag⟩, hproc⟩, hdel⟩ := hp
  have := (h s hr).1 hcmd hflag
  omega

/-! ## The guard is exact -/

/-- The command thread finishes the message it is at and clears the flag. -/
def finish : CmdPc M → List (Label M)
  | .poll => [.test, .getReceivedCommand, .ackLoop, .clearReceivedCommand, .resetNeedSendCmdAcks]
  | .read => [.getReceivedCommand, .ackLoop, .clearReceivedCommand, .resetNeedSendCmdAcks]
  | .loop _ => [.ackLoop, .clearReceivedCommand, .resetNeedSendCmdAcks]
  | .clear => [.clearReceivedCommand, .resetNeedSendCmdAcks]
  | .reset => [.resetNeedSendCmdAcks]

/-- A run that ends idle with fewer messages processed than delivered. -/
theorem lost_of_exec {s t : State M} (ls : List (Label M)) (h : exec step s ls = some t)
    (hcmd : t.cmd = .poll) (hflag : t.needSendCmdAcks = false)
    (hlen : t.processed.length < t.delivered.length) :
    ∃ ls t, (mailbox M).Run s ls t ∧ ¬ NothingLost t := by
  refine ⟨ls, t, run_of_exec h, fun hN => ?_⟩
  have := hN.1 hcmd hflag
  omega

/-- The first step of a run that violates the guard loses a command. -/
theorem handedOver_exact {s s' : State M} {l : Label M}
    (hs : ((mailbox M).guard HandedOver).Reachable s) (h : step s l = some s')
    (hg : ¬ HandedOver s l) : ∃ ls t, (mailbox M).Run s' ls t ∧ ¬ NothingLost t := by
  have hP := phase_inductive.reachable hs
  cases l with
  | setReceivedCommand payload =>
    cases hP with
    | empty | cleared => exact absurd rfl hg
    | stored | clearedStored => cases h
    | full =>
      cases h
      exact lost_of_exec (.setNeedSendCmdAcks :: finish .poll) rfl rfl rfl (by simp)
    | tested =>
      cases h
      exact lost_of_exec (.setNeedSendCmdAcks :: finish .read) rfl rfl rfl (by simp)
    | @looping n p x m =>
      cases h
      exact lost_of_exec (.setNeedSendCmdAcks :: finish (.loop m)) rfl rfl rfl (by simp)
    | looped =>
      cases h
      exact lost_of_exec (.setNeedSendCmdAcks :: finish .clear) rfl rfl rfl (by simp)
  | setNeedSendCmdAcks =>
    cases hP with
    | clearedStored =>
      cases h
      exact lost_of_exec (finish .reset) rfl rfl rfl (by simp)
    | stored => exact absurd (by simp [HandedOver]) hg
    | _ => cases h
  | _ => exact absurd trivial hg

/-! ## The mailbox as a queue -/

/-- What a step does to the histories. -/
theorem step_histories {s s' : State M} {l : Label M} (h : step s l = some s') :
    (s'.delivered = s.delivered ∧ s'.processed = s.processed) ∨
    (∃ m, s.ws = .stored m ∧ s'.delivered = s.delivered ++ [m] ∧ s'.processed = s.processed) ∨
    (∃ m, s.cmd = .loop m ∧ s'.delivered = s.delivered ∧ s'.processed = s.processed ++ [m]) := by
  cases l with
  | setNeedSendCmdAcks =>
    simp only [step] at h
    split at h
    · cases h
    · rename_i m hm; cases h; exact .inr (.inl ⟨m, hm, rfl, rfl⟩)
  | ackLoop =>
    simp only [step] at h
    split at h
    · rename_i m hm; cases h; exact .inr (.inr ⟨m, hm, rfl, rfl⟩)
    · cases h
  | _ =>
    simp only [step] at h
    split at h <;> cases h <;> exact .inl ⟨rfl, rfl⟩

/-- A looping thread runs the oldest delivered message. -/
theorem Phase.looping_delivered {s : State M} {m : CCommandPluginJson M} (h : Phase s)
    (hm : s.cmd = .loop m) : s.delivered = s.processed ++ [m] := by
  cases h <;> simp_all

/-- The guarded mailbox simulates into the FIFO queue: `needSendCmdAcks = true`
pushes, the ack loop pops. -/
theorem mailbox_refines :
    System.Simulation ((mailbox M).guard HandedOver) (fifo (CCommandPluginJson M))
      (fun s q => Phase s ∧ q.pushed = s.delivered ∧ q.popped = s.processed) where
  init := by
    intro s hs
    subst hs
    exact ⟨.empty, rfl, .empty (by simp), rfl, rfl⟩
  step := by
    intro s l s' q hR hstep
    obtain ⟨hP, hpush, hpop⟩ := hR
    obtain ⟨hg, h⟩ := hstep
    have hP' := phase_step hP hg h
    rcases step_histories h with ⟨hd, hp⟩ | ⟨m, -, hd, hp⟩ | ⟨m, hm, hd, hp⟩
    · exact ⟨[], q, .nil q, hP', hpush.trans hd.symm, hpop.trans hp.symm⟩
    · refine ⟨[.push m], q.push m, .cons rfl (.nil _), hP', ?_, hpop.trans hp.symm⟩
      rw [hd, ← hpush]; rfl
    · have hpend : q.pending = [m] := by
        refine Queue.pending_of_pushed_eq ?_
        rw [hpush, hpop, hP.looping_delivered hm]
      have hhead : q.pending.head? = some m := by rw [hpend]; rfl
      refine ⟨[.pop m], q.pop m hhead, .cons ⟨hhead, rfl⟩ (.nil _), hP', hpush.trans hd.symm, ?_⟩
      rw [hp, ← hpop]; rfl

/-- Commands are processed once each and in the order of their delivery. -/
theorem processed_in_order {s : State M} (h : ((mailbox M).guard HandedOver).Reachable s) :
    s.processed <+: s.delivered := by
  obtain ⟨q, -, -, hpush, hpop⟩ := mailbox_refines.reachable h
  rw [← hpush, ← hpop]
  exact q.order

end TmatePlugin.L4.Mailbox

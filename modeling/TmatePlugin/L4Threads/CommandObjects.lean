import Mathlib.Data.List.Nodup
import TmatePlugin.Lib.History
import TmatePlugin.L4Threads.Mailbox

/-!
# The command objects behind the mailbox

`Mailbox` hands over values. Here the message objects have identities and a
lifetime: `On_message` creates one, reads its signature and either deletes it
or stores it in `m_receivedCommand`; the command thread reads the pointer
once, works on that object command by command, and `ClearReceivedCommand`
deletes the object the pointer holds by then and, in a second step, writes
NULL. `On_message` may run between any two steps.

What the SDK and the scripts decide (whether a command is accepted, whether an
ack is built) is any outcome. `accesses`, `acks`, `executed` are history.

* `acks_attributed`: each ack is built from the message that owns the command
  it reports on, the accesses to the objects are safe, and no command is
  executed twice.
* `mailbox_objects`: the mailbox is this system with `On_message`, the ack
  loop and `ClearReceivedCommand` each in one piece.
-/
namespace TmatePlugin.L4.CommandObjects

open Transition History
open TmatePlugin.L4.Mailbox (CCommandPluginJson)

variable {M C : Type}

/-- The JSON of one command: the message object that owns it and its place
in the list. -/
structure Command where
  owner : Nat
  index : Nat
  deriving DecidableEq, Repr

/-- `GetCommands()`, for messages with `count` commands. -/
def getCommands (count : M → Nat) (m : CCommandPluginJson M) : List Command :=
  (List.range (count m.payload)).map fun i => ⟨m.id, i⟩

/-- The websocket thread: between messages, past the `new`, past
`SetReceivedCommand`.
mirrors MainSrc/WebSocketClient.cpp:246-257 -/
inductive WsPc (M : Type) where
  | idle
  | created (m : CCommandPluginJson M)
  | stored (m : CCommandPluginJson M)
  deriving DecidableEq, Repr

/-- The command thread: at the test of the flag, before `GetReceivedCommand`,
before `GetModuleName` and `GetCommands`, at the head of the loop, past the
reading of a command, past the first ack of an accepted one, past its
execution, before the `delete` and before the NULL of `ClearReceivedCommand`,
before the flag is cleared.
mirrors MainSrc/WebSocketClient.cpp:41-122,441-450 -/
inductive CmdPc (M : Type) where
  | poll
  | read
  | received (m : CCommandPluginJson M)
  | loop (m : CCommandPluginJson M) (rest : List Command)
  | named (m : CCommandPluginJson M) (c : Command) (rest : List Command)
  | accepted (m : CCommandPluginJson M) (c : Command) (rest : List Command)
  | ran (m : CCommandPluginJson M) (c : Command) (rest : List Command)
  | delete
  | setNull
  | reset
  deriving DecidableEq, Repr

/-- An ack: the message object given to `SetNotifyCommandAcks`, and the command
whose name and result it carries. -/
structure Ack (M : Type) where
  message : CCommandPluginJson M
  command : Command
  deriving DecidableEq, Repr

structure State (M : Type) where
  receivedCommand : Option (CCommandPluginJson M)
  needSendCmdAcks : Bool
  ws : WsPc M
  cmd : CmdPc M
  allocated : Nat
  accesses : List (Access Nat)
  acks : List (Ack M)
  executed : List Command

def State.initial : State M := ⟨none, false, .idle, .poll, 0, [], [], []⟩

inductive Label (M : Type) where
  | newCommand (payload : M)
  | invalidSignature
  | setReceivedCommand
  | setNeedSendCmdAcks
  | test
  | getReceivedCommand
  | getCommands
  | nextCommand
  | firstAck (accepted built : Bool)
  | execute
  | secondAck (built : Bool)
  | deleteReceivedCommand
  | setNull
  | resetNeedSendCmdAcks
  deriving DecidableEq, Repr

/-- The accesses of `delete(m_receivedCommand)`. -/
def deleteAccess (receivedCommand : Option (CCommandPluginJson M)) : List (Access Nat) :=
  receivedCommand.toList.map fun m => .delete m.id

def step (count : M → Nat) (s : State M) : Label M → Option (State M)
  | .newCommand payload =>
    match s.ws with
    | .idle =>
      -- the constructor, then IsValidSignature
      some { s with ws := .created ⟨s.allocated, payload⟩, allocated := s.allocated + 1,
                    accesses := s.accesses ++ [.new s.allocated] ++ [.use s.allocated] }
    | _ => none
  | .invalidSignature =>
    match s.ws with
    | .created m => some { s with ws := .idle, accesses := s.accesses ++ [.delete m.id] }
    | _ => none
  | .setReceivedCommand =>
    match s.ws with
    | .created m => some { s with receivedCommand := some m, ws := .stored m }
    | _ => none
  | .setNeedSendCmdAcks =>
    match s.ws with
    | .stored _ => some { s with needSendCmdAcks := true, ws := .idle }
    | _ => none
  | .test =>
    match s.cmd with
    | .poll => some { s with cmd := if s.needSendCmdAcks then .read else .poll }
    | _ => none
  | .getReceivedCommand =>
    match s.cmd, s.receivedCommand with
    | .read, some m => some { s with cmd := .received m }
    | .read, none => some { s with cmd := .reset }
    | _, _ => none
  | .getCommands =>
    match s.cmd with
    | .received m =>
      some { s with cmd := .loop m (getCommands count m), accesses := s.accesses ++ [.use m.id] }
    | _ => none
  | .nextCommand =>
    match s.cmd with
    | .loop m (c :: rest) =>
      some { s with cmd := .named m c rest, accesses := s.accesses ++ [.use c.owner] }
    | .loop _ [] => some { s with cmd := .delete }
    | _ => none
  | .firstAck accepted built =>
    match s.cmd with
    | .named m c rest =>
      some { s with cmd := if built && accepted then .accepted m c rest else .loop m rest,
                    accesses := s.accesses ++ [.use m.id],
                    acks := if built then s.acks ++ [⟨m, c⟩] else s.acks }
    | _ => none
  | .execute =>
    match s.cmd with
    | .accepted m c rest => some { s with cmd := .ran m c rest, executed := s.executed ++ [c] }
    | _ => none
  | .secondAck built =>
    match s.cmd with
    | .ran m c rest =>
      -- without the second ack the function clears the command and returns
      some { s with cmd := if built then .loop m rest else .delete,
                    accesses := s.accesses ++ [.use m.id],
                    acks := if built then s.acks ++ [⟨m, c⟩] else s.acks }
    | _ => none
  | .deleteReceivedCommand =>
    match s.cmd with
    | .delete =>
      some { s with cmd := .setNull, accesses := s.accesses ++ deleteAccess s.receivedCommand }
    | _ => none
  | .setNull =>
    match s.cmd with
    | .setNull => some { s with receivedCommand := none, cmd := .reset }
    | _ => none
  | .resetNeedSendCmdAcks =>
    match s.cmd with
    | .reset => some { s with needSendCmdAcks := false, cmd := .poll }
    | _ => none

def objects (count : M → Nat) : System (State M) (Label M) :=
  System.ofFn (· = .initial) (step count)

/-- A concrete run of the objects. -/
theorem objects_run (count : M → Nat) (ls : List (Label M)) (p : State M → Bool)
    (h : (exec (step count) .initial ls).any p = true) :
    ∃ s, (objects count).Reachable s ∧ p s = true :=
  exists_reachable_of_exec ls p rfl h

/-- Everything a step can do: where the thread stands, and what it leaves. -/
inductive Steps (count : M → Nat) (s : State M) : Label M → State M → Prop
  | newCommand (payload : M) : s.ws = .idle → Steps count s (.newCommand payload)
      { s with ws := .created ⟨s.allocated, payload⟩, allocated := s.allocated + 1,
               accesses := s.accesses ++ [.new s.allocated] ++ [.use s.allocated] }
  | invalidSignature {m : CCommandPluginJson M} : s.ws = .created m → Steps count s .invalidSignature
      { s with ws := .idle, accesses := s.accesses ++ [.delete m.id] }
  | setReceivedCommand {m : CCommandPluginJson M} : s.ws = .created m → Steps count s .setReceivedCommand
      { s with receivedCommand := some m, ws := .stored m }
  | setNeedSendCmdAcks {m : CCommandPluginJson M} : s.ws = .stored m → Steps count s .setNeedSendCmdAcks
      { s with needSendCmdAcks := true, ws := .idle }
  | test {pc : CmdPc M} : s.cmd = .poll → pc = .read ∨ pc = .poll → Steps count s .test { s with cmd := pc }
  | getReceivedCommand {m : CCommandPluginJson M} : s.cmd = .read → s.receivedCommand = some m →
      Steps count s .getReceivedCommand { s with cmd := .received m }
  | getNull : s.cmd = .read → Steps count s .getReceivedCommand { s with cmd := .reset }
  | getCommands {m : CCommandPluginJson M} : s.cmd = .received m → Steps count s .getCommands
      { s with cmd := .loop m (getCommands count m), accesses := s.accesses ++ [.use m.id] }
  | nextCommand {m : CCommandPluginJson M} {c : Command} {rest : List Command} :
      s.cmd = .loop m (c :: rest) → Steps count s .nextCommand
        { s with cmd := .named m c rest, accesses := s.accesses ++ [.use c.owner] }
  | noCommand {m : CCommandPluginJson M} : s.cmd = .loop m [] → Steps count s .nextCommand { s with cmd := .delete }
  | firstAck {m : CCommandPluginJson M} {c : Command} {rest : List Command} {pc : CmdPc M} (accepted built : Bool) :
      s.cmd = .named m c rest → pc = .accepted m c rest ∨ pc = .loop m rest →
      Steps count s (.firstAck accepted built)
        { s with cmd := pc, accesses := s.accesses ++ [.use m.id],
                 acks := if built then s.acks ++ [⟨m, c⟩] else s.acks }
  | execute {m : CCommandPluginJson M} {c : Command} {rest : List Command} :
      s.cmd = .accepted m c rest → Steps count s .execute
        { s with cmd := .ran m c rest, executed := s.executed ++ [c] }
  | secondAck {m : CCommandPluginJson M} {c : Command} {rest : List Command} {pc : CmdPc M} (built : Bool) :
      s.cmd = .ran m c rest → pc = .loop m rest ∨ pc = .delete →
      Steps count s (.secondAck built)
        { s with cmd := pc, accesses := s.accesses ++ [.use m.id],
                 acks := if built then s.acks ++ [⟨m, c⟩] else s.acks }
  | deleteReceivedCommand : s.cmd = .delete → Steps count s .deleteReceivedCommand
      { s with cmd := .setNull, accesses := s.accesses ++ deleteAccess s.receivedCommand }
  | setNull : s.cmd = .setNull → Steps count s .setNull { s with receivedCommand := none, cmd := .reset }
  | resetNeedSendCmdAcks : s.cmd = .reset → Steps count s .resetNeedSendCmdAcks
      { s with needSendCmdAcks := false, cmd := .poll }

theorem step_cases {count : M → Nat} {s s' : State M} {l : Label M} (h : step count s l = some s') :
    Steps count s l s' := by
  cases l with
  | newCommand payload =>
    simp only [step] at h
    split at h <;> cases h
    exact .newCommand payload ‹_›
  | invalidSignature =>
    simp only [step] at h
    split at h <;> cases h
    exact .invalidSignature ‹_›
  | setReceivedCommand =>
    simp only [step] at h
    split at h <;> cases h
    exact .setReceivedCommand ‹_›
  | setNeedSendCmdAcks =>
    simp only [step] at h
    split at h <;> cases h
    exact .setNeedSendCmdAcks ‹_›
  | test =>
    simp only [step] at h
    split at h <;> cases h
    refine .test ‹_› ?_
    split
    · exact .inl rfl
    · exact .inr rfl
  | getReceivedCommand =>
    simp only [step] at h
    split at h <;> cases h
    · exact .getReceivedCommand ‹_› ‹_›
    · exact .getNull ‹_›
  | getCommands =>
    simp only [step] at h
    split at h <;> cases h
    exact .getCommands ‹_›
  | nextCommand =>
    simp only [step] at h
    split at h <;> cases h
    · exact .nextCommand ‹_›
    · exact .noCommand ‹_›
  | firstAck accepted built =>
    simp only [step] at h
    split at h <;> cases h
    refine .firstAck accepted built ‹_› ?_
    split
    · exact .inl rfl
    · exact .inr rfl
  | execute =>
    simp only [step] at h
    split at h <;> cases h
    exact .execute ‹_›
  | secondAck built =>
    simp only [step] at h
    split at h <;> cases h
    refine .secondAck built ‹_› ?_
    split
    · exact .inl rfl
    · exact .inr rfl
  | deleteReceivedCommand =>
    simp only [step] at h
    split at h <;> cases h
    exact .deleteReceivedCommand ‹_›
  | setNull =>
    simp only [step] at h
    split at h <;> cases h
    exact .setNull ‹_›
  | resetNeedSendCmdAcks =>
    simp only [step] at h
    split at h <;> cases h
    exact .resetNeedSendCmdAcks ‹_›

/-! ## What the command thread holds -/

/-- The message it works on. -/
def CmdPc.message : CmdPc M → Option (CCommandPluginJson M)
  | .received m | .loop m _ | .named m _ _ | .accepted m _ _ | .ran m _ _ => some m
  | .poll | .read | .delete | .setNull | .reset => none

/-- The commands it may still read or report on. -/
def CmdPc.commands : CmdPc M → List Command
  | .loop _ rest => rest
  | .named _ c rest | .accepted _ c rest | .ran _ c rest => c :: rest
  | .poll | .read | .received _ | .delete | .setNull | .reset => []

/-- The commands it may still execute. -/
def CmdPc.pending : CmdPc M → List Command
  | .loop _ rest | .ran _ _ rest => rest
  | .named _ c rest | .accepted _ c rest => c :: rest
  | .poll | .read | .received _ | .delete | .setNull | .reset => []

/-- It comes to `GetReceivedCommand` before the next `ClearReceivedCommand`. -/
def CmdPc.reads : CmdPc M → Bool
  | .poll | .read | .reset => true
  | _ => false

theorem mem_getCommands {count : M → Nat} {m : CCommandPluginJson M} {c : Command}
    (h : c ∈ getCommands count m) : c.owner = m.id := by
  simp only [getCommands, List.mem_map] at h
  obtain ⟨i, -, rfl⟩ := h
  rfl

theorem getCommands_nodup (count : M → Nat) (m : CCommandPluginJson M) :
    (getCommands count m).Nodup := by
  refine List.nodup_range.map ?_
  intro i j h
  exact congrArg Command.index h

/-! ## Acks report on commands of their message -/

/-- Commands in hand and acks sent belong to their message. -/
structure Attributed (count : M → Nat) (s : State M) : Prop where
  commands : ∀ m, s.cmd.message = some m → ∀ c ∈ s.cmd.commands, c ∈ getCommands count m
  acks : ∀ a ∈ s.acks, a.command ∈ getCommands count a.message

/-- A step of the command thread that goes on with commands it had. -/
theorem Attributed.of_subset {count : M → Nat} {s s' : State M} (h : Attributed count s)
    (hm : ∀ m, s'.cmd.message = some m → s.cmd.message = some m)
    (hc : ∀ c ∈ s'.cmd.commands, c ∈ s.cmd.commands) (hacks : s'.acks = s.acks) :
    Attributed count s' where
  commands m hs c hmem := h.commands m (hm m hs) c (hc c hmem)
  acks := by rw [hacks]; exact h.acks

theorem Attributed.ack {count : M → Nat} {s : State M} (h : Attributed count s)
    {m : CCommandPluginJson M} {c : Command} (hm : s.cmd.message = some m) (hc : c ∈ s.cmd.commands)
    (built : Bool) : ∀ a ∈ (if built then s.acks ++ [⟨m, c⟩] else s.acks),
      a.command ∈ getCommands count a.message := by
  intro a ha
  split at ha
  · rcases List.mem_append.mp ha with ha | ha
    · exact h.acks a ha
    · rw [List.mem_singleton.mp ha]
      exact h.commands m hm c hc
  · exact h.acks a ha

theorem attributed_step {count : M → Nat} {s s' : State M} {l : Label M} (hA : Attributed count s)
    (h : step count s l = some s') : Attributed count s' := by
  cases step_cases h with
  | newCommand | invalidSignature | setReceivedCommand | setNeedSendCmdAcks => exact ⟨hA.commands, hA.acks⟩
  | test _ hpc =>
    refine ⟨fun m hm => ?_, hA.acks⟩
    rcases hpc with rfl | rfl
    · cases hm
    · cases hm
  | getReceivedCommand => exact ⟨fun m _ c hc => (by cases hc), hA.acks⟩
  | getCommands =>
    refine ⟨fun m hm c hc => ?_, hA.acks⟩
    cases hm
    exact hc
  | nextCommand hcmd =>
    exact hA.of_subset (by simp [hcmd, CmdPc.message]) (by simp [hcmd, CmdPc.commands]) rfl
  | firstAck accepted built hcmd hpc =>
    refine ⟨fun m' hm c' hc' => ?_, hA.ack (by rw [hcmd]; rfl) (by rw [hcmd]; simp [CmdPc.commands]) _⟩
    rcases hpc with rfl | rfl
    · exact hA.commands m' (by rw [hcmd]; exact hm) c' (by rw [hcmd]; exact hc')
    · exact hA.commands m' (by rw [hcmd]; exact hm) c' (by rw [hcmd]; exact List.mem_cons_of_mem _ hc')
  | execute hcmd =>
    exact hA.of_subset (by simp [hcmd, CmdPc.message]) (by simp [hcmd, CmdPc.commands]) rfl
  | secondAck built hcmd hpc =>
    refine ⟨fun m' hm c' hc' => ?_, hA.ack (by rw [hcmd]; rfl) (by rw [hcmd]; simp [CmdPc.commands]) _⟩
    rcases hpc with rfl | rfl
    · exact hA.commands m' (by rw [hcmd]; exact hm) c' (by rw [hcmd]; exact List.mem_cons_of_mem _ hc')
    · cases hm
  | getNull | noCommand | deleteReceivedCommand | setNull | resetNeedSendCmdAcks =>
    exact ⟨fun m hm => (by cases hm), hA.acks⟩

/-! ## Accesses are safe -/

/-- The objects the two threads hold are live, and `On_message` is alone with
the one it has just created. -/
structure Owned (s : State M) : Prop where
  safe : Safe s.accesses
  allocated : ∀ a, .new a ∈ s.accesses → a < s.allocated
  pointer : ∀ m, s.receivedCommand = some m → s.cmd ≠ .setNull → live s.accesses m.id
  pointer_lt : ∀ m, s.receivedCommand = some m → m.id < s.allocated
  created : ∀ m, s.ws = .created m → live s.accesses m.id
  message : ∀ m, s.cmd.message = some m → live s.accesses m.id
  created_pointer : ∀ m p, s.ws = .created m → s.receivedCommand = some p → p.id ≠ m.id
  created_message : ∀ m r, s.ws = .created m → s.cmd.message = some r → r.id ≠ m.id

theorem Owned.message_lt {s : State M} (h : Owned s) {m : CCommandPluginJson M}
    (hm : s.cmd.message = some m) : m.id < s.allocated :=
  h.allocated _ (h.message m hm).1

/-- A step of the command thread without an access. -/
theorem Owned.keep {s s' : State M} (h : Owned s) (hacc : s'.accesses = s.accesses)
    (hp : s'.receivedCommand = s.receivedCommand) (hws : s'.ws = s.ws)
    (hall : s'.allocated = s.allocated) (hcmd : ∀ m, s'.cmd.message = some m → s.cmd.message = some m)
    (hnull : s.cmd ≠ .setNull) : Owned s' where
  safe := by rw [hacc]; exact h.safe
  allocated := by rw [hacc, hall]; exact h.allocated
  pointer m hm _ := by rw [hacc]; exact h.pointer m (hp ▸ hm) hnull
  pointer_lt := by rw [hp, hall]; exact h.pointer_lt
  created := by rw [hws, hacc]; exact h.created
  message m hm := by rw [hacc]; exact h.message m (hcmd m hm)
  created_pointer := by rw [hws, hp]; exact h.created_pointer
  created_message m r hm hr := h.created_message m r (hws ▸ hm) (hcmd r hr)

/-- A step of the command thread that reads the object it works on. -/
theorem Owned.use {s s' : State M} (h : Owned s) {m : CCommandPluginJson M}
    (hm : s.cmd.message = some m) (hacc : s'.accesses = s.accesses ++ [.use m.id])
    (hp : s'.receivedCommand = s.receivedCommand) (hws : s'.ws = s.ws)
    (hall : s'.allocated = s.allocated)
    (hcmd : ∀ r, s'.cmd.message = some r → s.cmd.message = some r) : Owned s' where
  safe := by rw [hacc]; exact h.safe.append (h.message m hm)
  allocated a ha := by
    rw [hacc] at ha
    rw [hall]
    exact h.allocated a (by simpa using ha)
  pointer p hpt _ := by
    have hnull : s.cmd ≠ .setNull := by intro hs; rw [hs] at hm; cases hm
    rw [hacc]
    exact live_append_use (h.pointer p (hp ▸ hpt) hnull)
  pointer_lt := by rw [hp, hall]; exact h.pointer_lt
  created c hc := by rw [hacc]; exact live_append_use (h.created c (hws ▸ hc))
  message r hr := by rw [hacc]; exact live_append_use (h.message r (hcmd r hr))
  created_pointer := by rw [hws, hp]; exact h.created_pointer
  created_message c r hc hr := h.created_message c r (hws ▸ hc) (hcmd r hr)

theorem Owned.newCommand {s : State M} (h : Owned s) (payload : M) :
    Owned { s with ws := .created ⟨s.allocated, payload⟩, allocated := s.allocated + 1,
                   accesses := s.accesses ++ [.new s.allocated] ++ [.use s.allocated] } := by
  have hfresh : Allowed s.accesses (.new s.allocated) := fun hmem =>
    Nat.lt_irrefl _ (h.allocated _ hmem)
  have hlive := h.safe.live_new hfresh
  have hold : ∀ a, live s.accesses a →
      live (s.accesses ++ [.new s.allocated] ++ [.use s.allocated]) a := fun a ha =>
    live_append_use (live_append_new ha)
  refine ⟨(h.safe.append hfresh).append hlive, fun a ha => ?_, fun m hm hn => hold _ (h.pointer m hm hn),
    fun m hm => Nat.lt_succ_of_lt (h.pointer_lt m hm), fun m hm => ?_,
    fun m hm => hold _ (h.message m hm), fun m p hm hp => ?_, fun m r hm hr => ?_⟩
  · simp only [List.mem_append, List.mem_singleton, reduceCtorEq, or_false, Access.new.injEq] at ha
    show a < s.allocated + 1
    rcases ha with ha | ha
    · exact Nat.lt_succ_of_lt (h.allocated a ha)
    · omega
  · cases hm
    exact live_append_use hlive
  · cases hm
    have := h.pointer_lt p hp
    show p.id ≠ s.allocated
    omega
  · cases hm
    have := h.message_lt hr
    show r.id ≠ s.allocated
    omega

/-- The invalid object was never shared. -/
theorem Owned.invalidSignature {s : State M} (h : Owned s) {m : CCommandPluginJson M}
    (hws : s.ws = .created m) :
    Owned { s with ws := .idle, accesses := s.accesses ++ [.delete m.id] } where
  safe := h.safe.append (h.created m hws)
  allocated a ha := h.allocated a (by simpa using ha)
  pointer p hp hn := live_append_delete (h.pointer p hp hn) (h.created_pointer m p hws hp)
  pointer_lt := h.pointer_lt
  created c hc := by cases hc
  message r hr := live_append_delete (h.message r hr) (h.created_message m r hws hr)
  created_pointer c p hc := by cases hc
  created_message c r hc := by cases hc

theorem Owned.setReceivedCommand {s : State M} (h : Owned s) {m : CCommandPluginJson M}
    (hws : s.ws = .created m) :
    Owned { s with receivedCommand := some m, ws := .stored m } where
  safe := h.safe
  allocated := h.allocated
  pointer p hp _ := by cases hp; exact h.created m hws
  pointer_lt p hp := by cases hp; exact h.allocated _ (h.created m hws).1
  created c hc := by cases hc
  message := h.message
  created_pointer c p hc := by cases hc
  created_message c r hc := by cases hc

theorem deleteAccess_cases (receivedCommand : Option (CCommandPluginJson M)) :
    (receivedCommand = none ∧ deleteAccess receivedCommand = []) ∨
      ∃ p, receivedCommand = some p ∧ deleteAccess receivedCommand = [.delete p.id] := by
  cases receivedCommand with
  | none => exact .inl ⟨rfl, rfl⟩
  | some p => exact .inr ⟨p, rfl, rfl⟩

/-- `delete(m_receivedCommand)` leaves only the pointer behind. -/
theorem Owned.deleteReceivedCommand {s : State M} (h : Owned s) (hcmd : s.cmd = .delete) :
    Owned { s with cmd := .setNull,
                   accesses := s.accesses ++ deleteAccess s.receivedCommand } := by
  rcases deleteAccess_cases s.receivedCommand with ⟨-, hd⟩ | ⟨p, hp, hd⟩
  · rw [hd, List.append_nil]
    exact ⟨h.safe, h.allocated, fun m _ hn => absurd rfl hn, h.pointer_lt, h.created,
      fun m hm => (by cases hm), h.created_pointer, fun m r _ hr => (by cases hr)⟩
  · rw [hd]
    have hlive := h.pointer p hp (by rw [hcmd]; simp)
    refine ⟨h.safe.append hlive, fun a ha => h.allocated a (by simpa using ha),
      fun m _ hn => absurd rfl hn, h.pointer_lt, fun m hm => ?_, fun m hm => (by cases hm),
      h.created_pointer, fun m r _ hr => (by cases hr)⟩
    exact live_append_delete (h.created m hm) (h.created_pointer m p hm hp).symm

theorem Owned.getReceivedCommand {s : State M} (h : Owned s) {m : CCommandPluginJson M}
    (hcmd : s.cmd = .read) (hp : s.receivedCommand = some m) : Owned { s with cmd := .received m } where
  safe := h.safe
  allocated := h.allocated
  pointer p hpt _ := h.pointer p hpt (by rw [hcmd]; simp)
  pointer_lt := h.pointer_lt
  created := h.created
  message r hr := by
    cases hr
    exact h.pointer m hp (by rw [hcmd]; simp)
  created_pointer := h.created_pointer
  created_message c r hc hr := by
    cases hr
    exact h.created_pointer c m hc hp

theorem owned_step {count : M → Nat} {s s' : State M} {l : Label M} (hA : Attributed count s)
    (hO : Owned s) (h : step count s l = some s') : Owned s' := by
  cases step_cases h with
  | newCommand payload => exact hO.newCommand payload
  | invalidSignature hws => exact hO.invalidSignature hws
  | setReceivedCommand hws => exact hO.setReceivedCommand hws
  | setNeedSendCmdAcks =>
    exact ⟨hO.safe, hO.allocated, hO.pointer, hO.pointer_lt, fun c hc => (by cases hc), hO.message,
      fun c p hc => (by cases hc), fun c r hc => (by cases hc)⟩
  | test hcmd hpc =>
    refine hO.keep rfl rfl rfl rfl (fun m hm => ?_) (by rw [hcmd]; simp)
    rcases hpc with rfl | rfl
    · cases hm
    · cases hm
  | getReceivedCommand hcmd hp => exact hO.getReceivedCommand hcmd hp
  | getCommands hcmd => exact hO.use (by rw [hcmd]; rfl) rfl rfl rfl rfl fun r hr => by rw [hcmd]; exact hr
  | nextCommand hcmd =>
    have hm := congrArg CmdPc.message hcmd
    have howner := mem_getCommands (hA.commands _ hm _ (by rw [hcmd]; exact List.mem_cons_self))
    exact hO.use hm (by simp [howner]) rfl rfl rfl fun r hr => by rw [hcmd]; exact hr
  | firstAck accepted built hcmd hpc =>
    refine hO.use (by rw [hcmd]; rfl) rfl rfl rfl rfl fun r hr => ?_
    rw [hcmd]
    rcases hpc with rfl | rfl
    · exact hr
    · exact hr
  | execute hcmd =>
    exact hO.keep rfl rfl rfl rfl (fun r hr => by rw [hcmd]; exact hr) (by rw [hcmd]; simp)
  | secondAck built hcmd hpc =>
    refine hO.use (by rw [hcmd]; rfl) rfl rfl rfl rfl fun r hr => ?_
    rw [hcmd]
    rcases hpc with rfl | rfl
    · exact hr
    · cases hr
  | deleteReceivedCommand hcmd => exact hO.deleteReceivedCommand hcmd
  | setNull =>
    exact ⟨hO.safe, hO.allocated, fun m hm => (by cases hm), fun m hm => (by cases hm), hO.created,
      fun m hm => (by cases hm), fun m p _ hp => (by cases hp), fun m r _ hr => (by cases hr)⟩
  | getNull hcmd | noCommand hcmd | resetNeedSendCmdAcks hcmd =>
    exact hO.keep rfl rfl rfl rfl (fun m hm => (by cases hm)) (by rw [hcmd]; simp)

/-! ## Commands are executed once -/

def Unexecuted (s : State M) (m : CCommandPluginJson M) : Prop := ∀ c ∈ s.executed, c.owner ≠ m.id

/-- No command that can still be executed has been. -/
structure Once (s : State M) : Prop where
  executed : s.executed.Nodup
  lt : ∀ c ∈ s.executed, c.owner < s.allocated
  pending : s.cmd.pending.Nodup
  pending_new : ∀ c ∈ s.cmd.pending, c ∉ s.executed
  pointer : ∀ m, s.receivedCommand = some m → s.cmd.reads = true → Unexecuted s m
  received : ∀ m, s.cmd = .received m → Unexecuted s m
  created : ∀ m, s.ws = .created m → Unexecuted s m

/-- A step of the command thread that executes nothing and takes up nothing. -/
theorem Once.keep {s s' : State M} (h : Once s) (he : s'.executed = s.executed)
    (hp : s'.receivedCommand = s.receivedCommand) (hws : s'.ws = s.ws)
    (hall : s'.allocated = s.allocated) (hpend : s'.cmd.pending.Sublist s.cmd.pending)
    (hreads : s'.cmd.reads = true → s.cmd.reads = true) (hrec : ∀ m, s'.cmd ≠ .received m) :
    Once s' where
  executed := by rw [he]; exact h.executed
  lt := by rw [he, hall]; exact h.lt
  pending := h.pending.sublist hpend
  pending_new c hc := by rw [he]; exact h.pending_new c (hpend.subset hc)
  pointer m hm hr := by unfold Unexecuted; rw [he]; exact h.pointer m (hp ▸ hm) (hreads hr)
  received m hm := absurd hm (hrec m)
  created m hm := by unfold Unexecuted; rw [he]; exact h.created m (hws ▸ hm)

theorem Once.execute {s : State M} (h : Once s) (hO : Owned s) {m : CCommandPluginJson M}
    {c : Command} {rest : List Command} (hcmd : s.cmd = .accepted m c rest)
    (howner : c.owner = m.id) :
    Once { s with cmd := .ran m c rest, executed := s.executed ++ [c] } := by
  have hm : s.cmd.message = some m := by rw [hcmd]; rfl
  have hpend : s.cmd.pending = c :: rest := by rw [hcmd]; rfl
  have hnodup := h.pending
  rw [hpend] at hnodup
  have hnew : c ∉ s.executed := h.pending_new c (by rw [hpend]; exact List.mem_cons_self)
  refine ⟨?_, fun d hd => ?_, (List.nodup_cons.mp hnodup).2, fun d hd hmem => ?_,
    fun p _ hr => (by cases hr), fun p hp => (by cases hp), fun w hw d hd => ?_⟩
  · exact List.nodup_append.mpr ⟨h.executed, List.nodup_singleton c, fun d hd e he hde =>
      hnew (by rw [← List.mem_singleton.mp he, ← hde]; exact hd)⟩
  · rcases List.mem_append.mp hd with hd | hd
    · exact h.lt d hd
    · rw [List.mem_singleton.mp hd, howner]
      exact hO.message_lt hm
  · rcases List.mem_append.mp hmem with hmem | hmem
    · exact h.pending_new d (by rw [hpend]; exact List.mem_cons_of_mem _ hd) hmem
    · rw [List.mem_singleton.mp hmem] at hd
      exact (List.nodup_cons.mp hnodup).1 hd
  · rcases List.mem_append.mp hd with hd | hd
    · exact h.created w hw d hd
    · rw [List.mem_singleton.mp hd, howner]
      exact hO.created_message w m hw hm

theorem once_step {count : M → Nat} {s s' : State M} {l : Label M} (hA : Attributed count s)
    (hO : Owned s) (h1 : Once s) (h : step count s l = some s') : Once s' := by
  cases step_cases h with
  | newCommand payload =>
    refine ⟨h1.executed, fun c hc => Nat.lt_succ_of_lt (h1.lt c hc), h1.pending, h1.pending_new,
      h1.pointer, h1.received, fun m hm c hc => ?_⟩
    cases hm
    have := h1.lt c hc
    show c.owner ≠ s.allocated
    omega
  | invalidSignature | setNeedSendCmdAcks =>
    exact ⟨h1.executed, h1.lt, h1.pending, h1.pending_new, h1.pointer, h1.received,
      fun m hm => (by cases hm)⟩
  | setReceivedCommand hws =>
    refine ⟨h1.executed, h1.lt, h1.pending, h1.pending_new, fun p hp _ => ?_, h1.received,
      fun c hc => (by cases hc)⟩
    cases hp
    exact h1.created _ hws
  | test hcmd hpc =>
    refine h1.keep rfl rfl rfl rfl ?_ (fun _ => by rw [hcmd]; rfl) fun m hm => ?_
    · rcases hpc with rfl | rfl
      · exact List.nil_sublist _
      · exact List.nil_sublist _
    · rcases hpc with rfl | rfl
      · cases hm
      · cases hm
  | getReceivedCommand hcmd hp =>
    refine ⟨h1.executed, h1.lt, List.nodup_nil, fun c hc => (by cases hc),
      fun p _ hr => (by cases hr), fun r hr => ?_, h1.created⟩
    cases hr
    exact h1.pointer _ hp (by rw [hcmd]; rfl)
  | getCommands hcmd =>
    refine ⟨h1.executed, h1.lt, getCommands_nodup count _, fun c hc hmem => ?_,
      fun p _ hr => (by cases hr), fun r hr => (by cases hr), h1.created⟩
    exact h1.received _ hcmd c hmem (mem_getCommands hc)
  | nextCommand hcmd =>
    exact h1.keep rfl rfl rfl rfl (by rw [hcmd]; exact List.Sublist.refl _)
      (fun hr => by cases hr) fun m hm => (by cases hm)
  | firstAck accepted built hcmd hpc =>
    rcases hpc with rfl | rfl
    · exact h1.keep rfl rfl rfl rfl (by rw [hcmd]; exact List.Sublist.refl _) (fun hr => by cases hr)
        fun m hm => (by cases hm)
    · exact h1.keep rfl rfl rfl rfl (by rw [hcmd]; exact List.sublist_cons_self _ _) (fun hr => by cases hr)
        fun m hm => (by cases hm)
  | execute hcmd =>
    have hm := congrArg CmdPc.message hcmd
    exact h1.execute hO hcmd
      (mem_getCommands (hA.commands _ hm _ (by rw [hcmd]; exact List.mem_cons_self)))
  | secondAck built hcmd hpc =>
    rcases hpc with rfl | rfl
    · exact h1.keep rfl rfl rfl rfl (by rw [hcmd]; exact List.Sublist.refl _) (fun hr => by cases hr)
        fun m hm => (by cases hm)
    · exact h1.keep rfl rfl rfl rfl (List.nil_sublist _) (fun hr => by cases hr) fun m hm => (by cases hm)
  | setNull =>
    exact ⟨h1.executed, h1.lt, List.nodup_nil, fun c hc => (by cases hc),
      fun p hp => (by cases hp), fun r hr => (by cases hr), h1.created⟩
  | getNull hcmd | resetNeedSendCmdAcks hcmd =>
    exact h1.keep rfl rfl rfl rfl (List.nil_sublist _) (fun _ => by rw [hcmd]; rfl) fun m hm => (by cases hm)
  | noCommand | deleteReceivedCommand =>
    exact h1.keep rfl rfl rfl rfl (List.nil_sublist _) (fun hr => by cases hr) fun m hm => (by cases hm)

theorem inv_inductive (count : M → Nat) :
    (objects count).Inductive (fun s => Attributed count s ∧ Owned s ∧ Once s) where
  init := by
    intro s hs
    subst hs
    refine ⟨⟨fun m hm => (by cases hm), fun a ha => (by cases ha)⟩,
      ⟨each_nil _, fun a ha => (by cases ha), fun m hm => (by cases hm), fun m hm => (by cases hm),
        fun m hm => (by cases hm), fun m hm => (by cases hm), fun m p hm => (by cases hm),
        fun m r hm => (by cases hm)⟩,
      ⟨List.nodup_nil, fun c hc => (by cases hc), List.nodup_nil, fun c hc => (by cases hc),
        fun m hm => (by cases hm), fun m hm => (by cases hm), fun m hm => (by cases hm)⟩⟩
  step := fun _ _ _ hI h =>
    ⟨attributed_step hI.1 h, owned_step hI.1 hI.2.1 h, once_step hI.1 hI.2.1 hI.2.2 h⟩

/-- In every run: each ack is built from the message object whose command it
reports on, no object is used or deleted after its deletion, and no command is
executed twice. -/
theorem acks_attributed (count : M → Nat) (s : State M) (h : (objects count).Reachable s) :
    (∀ a ∈ s.acks, a.command ∈ getCommands count a.message) ∧
      (∀ earlier id later, s.accesses = earlier ++ .delete id :: later →
        .use id ∉ later ∧ .delete id ∉ later) ∧
      s.executed.Nodup := by
  obtain ⟨hA, hO, h1⟩ := (inv_inductive count).reachable h
  refine ⟨hA.acks, fun earlier id later heq => ?_, h1.executed⟩
  have hsafe := hO.safe
  rw [heq] at hsafe
  exact hsafe.after_delete

/-- The second message is stored while the first one is executed, and a third
one between the `delete` and the NULL. -/
theorem acks_attributed_overwritten :
    ∃ s : State Unit, (objects fun _ => 1).Reachable s ∧
      s.acks = [⟨⟨0, ()⟩, ⟨0, 0⟩⟩, ⟨⟨0, ()⟩, ⟨0, 0⟩⟩] ∧ .delete 1 ∈ s.accesses ∧
      (∀ a ∈ s.acks, a.command ∈ getCommands (fun _ => 1) a.message) ∧
      s.executed = [⟨0, 0⟩] ∧ s.executed.Nodup := by
  obtain ⟨s, hr, hp⟩ := objects_run (M := Unit) (fun _ => 1)
    [.newCommand (), .setReceivedCommand, .setNeedSendCmdAcks, .test, .getReceivedCommand,
      .getCommands, .nextCommand, .firstAck true true, .newCommand (), .setReceivedCommand,
      .setNeedSendCmdAcks, .execute, .secondAck true, .nextCommand, .newCommand (),
      .deleteReceivedCommand, .setReceivedCommand, .setNull]
    (fun s => s.acks = [⟨⟨0, ()⟩, ⟨0, 0⟩⟩, ⟨⟨0, ()⟩, ⟨0, 0⟩⟩] && s.executed = [⟨0, 0⟩] &&
      s.accesses.contains (.delete 1)) (by decide)
  simp only [Bool.and_eq_true, decide_eq_true_eq, List.contains_iff_mem] at hp
  obtain ⟨⟨hacks, hexec⟩, hdel⟩ := hp
  have hall := acks_attributed (fun _ => 1) s hr
  exact ⟨s, hr, hacks, hdel, hall.1, hexec, hall.2.2⟩

/-! ## The mailbox in larger steps -/

def ofWs : Mailbox.WsPc M → WsPc M
  | .idle => .idle
  | .stored m => .stored m

def ofCmd : Mailbox.CmdPc M → CmdPc M
  | .poll => .poll
  | .read => .read
  | .loop m => .received m
  | .clear => .delete
  | .reset => .reset

/-- The shared fields and the places of the two threads. -/
structure Agrees (s : Mailbox.State M) (t : State M) : Prop where
  receivedCommand : t.receivedCommand = s.receivedCommand
  needSendCmdAcks : t.needSendCmdAcks = s.needSendCmdAcks
  ws : t.ws = ofWs s.ws
  cmd : t.cmd = ofCmd s.cmd
  allocated : t.allocated = s.allocated

/-- What the ack loop leaves alone. -/
def SameMailbox (s t : State M) : Prop :=
  t.receivedCommand = s.receivedCommand ∧ t.needSendCmdAcks = s.needSendCmdAcks ∧ t.ws = s.ws ∧
    t.allocated = s.allocated

/-- The loop comes to its end, here with no ack built. -/
theorem loop_run (count : M → Nat) {s : State M} {m : CCommandPluginJson M} {rest : List Command}
    (h : s.cmd = .loop m rest) :
    ∃ ls t, (objects count).Run s ls t ∧ t.cmd = .delete ∧ SameMailbox s t := by
  induction rest generalizing s with
  | nil =>
    have hstep : step count s .nextCommand = some { s with cmd := .delete } := by simp [step, h]
    exact ⟨[.nextCommand], _, .cons hstep (.nil _), rfl, rfl, rfl, rfl, rfl⟩
  | cons c rest ih =>
    have hnext : step count s .nextCommand =
        some { s with cmd := .named m c rest, accesses := s.accesses ++ [.use c.owner] } := by
      simp [step, h]
    have hack : step count { s with cmd := .named m c rest, accesses := s.accesses ++ [.use c.owner] }
        (.firstAck false false) =
        some { s with cmd := .loop m rest,
                      accesses := s.accesses ++ [.use c.owner] ++ [.use m.id] } := rfl
    obtain ⟨ls, t, hrun, hcmd, hsame⟩ := ih (s := { s with
      cmd := .loop m rest, accesses := s.accesses ++ [.use c.owner] ++ [.use m.id] }) rfl
    exact ⟨.nextCommand :: .firstAck false false :: ls, t, .cons hnext (.cons hack hrun), hcmd, hsame⟩

/-- Every run of the mailbox is a run of the objects. -/
theorem mailbox_objects (count : M → Nat) :
    System.Simulation (Mailbox.mailbox M) (objects count) Agrees where
  init := by
    intro s hs
    subst hs
    exact ⟨.initial, rfl, ⟨rfl, rfl, rfl, rfl, rfl⟩⟩
  step := by
    intro s l s' t hR h
    obtain ⟨hp, hf, hws, hcmd, hall⟩ := hR
    cases l with
    | setReceivedCommand payload =>
      simp only [System.ofFn, Mailbox.mailbox, Mailbox.step] at h
      split at h <;> cases h
      rename_i hidle
      rw [hidle] at hws
      have h₁ : step count t (.newCommand payload) = some
          { t with ws := .created ⟨t.allocated, payload⟩, allocated := t.allocated + 1,
                   accesses := t.accesses ++ [.new t.allocated] ++ [.use t.allocated] } := by
        simp only [step, hws, ofWs]
      exact ⟨[.newCommand payload, .setReceivedCommand], _, .cons h₁ (.cons rfl (.nil _)),
        ⟨by rw [← hall], hf, by rw [← hall]; rfl, hcmd, congrArg (· + 1) hall⟩⟩
    | setNeedSendCmdAcks =>
      simp only [System.ofFn, Mailbox.mailbox, Mailbox.step] at h
      split at h <;> cases h
      rename_i m hstored
      rw [hstored] at hws
      have h₁ : step count t .setNeedSendCmdAcks =
          some { t with needSendCmdAcks := true, ws := .idle } := by simp only [step, hws, ofWs]
      exact ⟨[.setNeedSendCmdAcks], _, .cons h₁ (.nil _), ⟨hp, rfl, rfl, hcmd, hall⟩⟩
    | test =>
      simp only [System.ofFn, Mailbox.mailbox, Mailbox.step] at h
      split at h <;> cases h
      rename_i hpoll
      rw [hpoll] at hcmd
      have h₁ : step count t .test =
          some { t with cmd := if t.needSendCmdAcks then .read else .poll } := by
        simp only [step, hcmd, ofCmd]
      refine ⟨[.test], _, .cons h₁ (.nil _), ⟨hp, hf, hws, ?_, hall⟩⟩
      simp only [hf]
      split <;> rfl
    | getReceivedCommand =>
      simp only [System.ofFn, Mailbox.mailbox, Mailbox.step] at h
      split at h <;> cases h
      · rename_i m hread hsome
        rw [hread] at hcmd
        rw [hsome] at hp
        have h₁ : step count t .getReceivedCommand = some { t with cmd := .received m } := by
          simp only [step, hcmd, ofCmd, hp]
        exact ⟨[.getReceivedCommand], _, .cons h₁ (.nil _), ⟨hp.trans hsome.symm, hf, hws, rfl, hall⟩⟩
      · rename_i hread hnone
        rw [hread] at hcmd
        rw [hnone] at hp
        have h₁ : step count t .getReceivedCommand = some { t with cmd := .reset } := by
          simp only [step, hcmd, ofCmd, hp]
        exact ⟨[.getReceivedCommand], _, .cons h₁ (.nil _), ⟨hp.trans hnone.symm, hf, hws, rfl, hall⟩⟩
    | ackLoop =>
      simp only [System.ofFn, Mailbox.mailbox, Mailbox.step] at h
      split at h <;> cases h
      rename_i m hloop
      rw [hloop] at hcmd
      have h₁ : step count t .getCommands = some
          { t with cmd := .loop m (getCommands count m), accesses := t.accesses ++ [.use m.id] } := by
        simp only [step, hcmd, ofCmd]
      obtain ⟨ls, u, hrun, hdel, hp', hf', hws', hall'⟩ := loop_run count (s := { t with
        cmd := .loop m (getCommands count m), accesses := t.accesses ++ [.use m.id] }) rfl
      exact ⟨.getCommands :: ls, u, .cons h₁ hrun,
        ⟨hp'.trans hp, hf'.trans hf, hws'.trans hws, hdel, hall'.trans hall⟩⟩
    | clearReceivedCommand =>
      simp only [System.ofFn, Mailbox.mailbox, Mailbox.step] at h
      split at h <;> cases h
      rename_i hclear
      rw [hclear] at hcmd
      have h₁ : step count t .deleteReceivedCommand = some
          { t with cmd := .setNull, accesses := t.accesses ++ deleteAccess t.receivedCommand } := by
        simp only [step, hcmd, ofCmd]
      exact ⟨[.deleteReceivedCommand, .setNull], _, .cons h₁ (.cons rfl (.nil _)),
        ⟨rfl, hf, hws, rfl, hall⟩⟩
    | resetNeedSendCmdAcks =>
      simp only [System.ofFn, Mailbox.mailbox, Mailbox.step] at h
      split at h <;> cases h
      rename_i hreset
      rw [hreset] at hcmd
      have h₁ : step count t .resetNeedSendCmdAcks =
          some { t with needSendCmdAcks := false, cmd := .poll } := by simp only [step, hcmd, ofCmd]
      exact ⟨[.resetNeedSendCmdAcks], _, .cons h₁ (.nil _), ⟨hp, rfl, hws, rfl, hall⟩⟩

end TmatePlugin.L4.CommandObjects

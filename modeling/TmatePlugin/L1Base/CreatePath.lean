import TmatePlugin.Lib.Buffer
import TmatePlugin.Lib.FileTree
import TmatePlugin.Lib.Loop
import TmatePlugin.L1Base.VplError

/-!
# The directories of a log file

`UTL_log_createPathEx` cuts its copy of the path at every slash but one at the
beginning, makes the directory of that name and puts the slash back. A directory that
is there already is no failure: `UTL_log_mkdirHelper` takes `VPL_ERR_EXIST` for
`VPL_OK`. `mkdir` answers the same when a file of another kind is there.

* `reaches_inv`: at the beginning of every round the copy is the path again, and the
  file system is the one with the directories above made (`FileSystem.makeAll`).
* `createPathEx_ended`: how a call ends. With a path of 2^32 bytes or more it never
  succeeds, the counter wraps around.
* `createPathEx_returns_iff`: a shorter path is finished, unless it is empty; the loop
  starts behind the NUL of an empty one.
* `honest_iff`: success means directories exactly when the parent was not something
  else before its own turn.
-/
namespace TmatePlugin.L1.CreatePath

open CString Files Outcome
open TmatePlugin.L1.VPLError

/-- A log line: the entry of the function, its error with the path and the code, and
the warning about an error code without a name. -/
inductive Line where
  | funcEntry
  | createFailed (path : Bytes) (rv : Int)
  | unknownErrno (errCode : Nat)

/-- The file system, and what writing a log line does to it. -/
structure Env (F : Type) where
  sys : FileSystem F
  log : Line → F → F

/-- A call of `mkdir`; `result` is 0 or the error. -/
structure Call where
  pathname : Bytes
  mode : Nat
  result : Option Errno
  deriving DecidableEq, Repr

/-- The call has failed, and not because something is there. -/
def Call.Failed (c : Call) : Prop := ∃ e, c.result = some e ∧ e ≠ .eexist

/-- The file system, and the calls so far. -/
structure World (F : Type) where
  fs : F
  calls : List Call

/-- The variables of the loop; `i` is a `u32`. -/
structure CreateState (F : Type) where
  tmp_path : Bytes
  i : UInt32
  rv : Int
  world : World F

structure Result (F : Type) where
  rv : Int
  world : World F

section Code

variable {F : Type} (env : Env F)

def writeLine (allowed : Bool) (line : Line) (w : World F) : World F :=
  if allowed then { w with fs := env.log line w.fs } else w

/-- A code without a name is logged, whether the caller logs or not.
mirrors Util/src/vpl__error.cpp:150-154 -/
def logUnknown (errno : Errno) (w : World F) : World F :=
  match errno with
  | .unnamed errCode => writeLine env true (.unknownErrno errCode) w
  | _ => w

/-- mirrors Util/src/Utl_file.cpp:6-13 (`UTLDir_Create`) -/
def dirCreate (w : World F) (pathname : Bytes) (mode : Nat) : Int × World F :=
  match env.sys.mkdir w.fs pathname mode with
  | .ok fs => (VPLError_t.VPL_OK.value, ⟨fs, w.calls ++ [⟨pathname, mode, none⟩]⟩)
  | .error errno =>
    ((xlatErrno (some errno)).value,
      logUnknown env errno ⟨w.fs, w.calls ++ [⟨pathname, mode, some errno⟩]⟩)

/-- mirrors Util/src/Utl_Log.cpp:345-352 -/
def mkdirHelper (w : World F) (path : Bytes) : Int × World F :=
  let (rv, w) := dirCreate env w path 0o755
  (if rv = VPLError_t.VPL_ERR_EXIST.value then VPLError_t.VPL_OK.value else rv, w)

/-- A round of the loop over the path; it ends the loop by its condition, or by
`goto out` (`true`).
mirrors Util/src/Utl_Log.cpp:373-386 -/
def createRound (loggingAllowed : Bool) (s : CreateState F) :
    Outcome (CreateState F ⊕ Bool × CreateState F) := do
  let c ← deref s.tmp_path[s.i.toNat]?
  if c = 0 then pure (.inr (false, s))
  else if c = 47 then
    let cut ← Buffer.store s.tmp_path s.i.toNat [0]
    let (rv, world) := mkdirHelper env s.world (cStr cut)
    if rv < 0 then
      let world := writeLine env loggingAllowed (.createFailed (cStr cut) rv) world
      pure (.inr (true, { s with tmp_path := cut, rv := rv, world := world }))
    else
      let tmp_path ← Buffer.store cut s.i.toNat [47]
      pure (.inl ⟨tmp_path, s.i + 1, rv, world⟩)
  else pure (.inl { s with i := s.i + 1 })

/-- The entry is logged before anything else. -/
def entered (loggingAllowed : Bool) (fs : F) : World F := writeLine env loggingAllowed .funcEntry ⟨fs, []⟩

/-- The state before the first round: the copy has a NUL at its end. -/
def createStart (loggingAllowed : Bool) (path : Bytes) (fs : F) : CreateState F :=
  ⟨cStr path ++ [0], 1, 0, entered env loggingAllowed fs⟩

/-- `malloc` says whether there was memory for the copy, and `fuel` bounds the rounds.
mirrors Util/src/Utl_Log.cpp:355-401 -/
def createPathEx (fuel : Nat) (malloc : Bool) (path : Bytes) (last loggingAllowed : Bool) (fs : F) :
    Outcome (Result F) := do
  if malloc = false then pure ⟨-1, entered env loggingAllowed fs⟩
  else
    let (out, s) ← Loop.run (createRound env loggingAllowed) fuel (createStart env loggingAllowed path fs)
    if out = false ∧ last = true then
      let (rv, world) := mkdirHelper env s.world (cStr path)
      if rv < 0 then pure ⟨rv, writeLine env loggingAllowed (.createFailed (cStr path) rv) world⟩
      else pure ⟨rv, world⟩
    else pure ⟨s.rv, s.world⟩

end Code

/-! ## A call of mkdir -/

section Calls

variable {F : Type} {env : Env F} {w : World F} {path : Bytes}

/-- The helper has made the directory, or found something there. -/
theorem mkdirHelper_made (h : ∀ e, env.sys.mkdir w.fs path 0o755 = .error e → e = .eexist) :
    (mkdirHelper env w path).1 = 0 ∧ ∃ c, ¬ c.Failed ∧
      (mkdirHelper env w path).2 = ⟨env.sys.make 0o755 w.fs path, w.calls ++ [c]⟩ := by
  cases hmk : env.sys.mkdir w.fs path 0o755 with
  | ok fs =>
    refine ⟨by simp only [mkdirHelper, dirCreate, hmk]; decide, ⟨path, 0o755, none⟩, ?_, ?_⟩
    · intro hfailed
      obtain ⟨e, he, -⟩ := hfailed
      cases he
    · simp only [mkdirHelper, dirCreate, FileSystem.make, hmk]
  | error e =>
    cases h e hmk
    refine ⟨by simp only [mkdirHelper, dirCreate, hmk]; decide, ⟨path, 0o755, some .eexist⟩, ?_, ?_⟩
    · intro hfailed
      obtain ⟨e, he, hne⟩ := hfailed
      cases he
      exact hne rfl
    · simp only [mkdirHelper, dirCreate, FileSystem.make, hmk]
      rfl

theorem logUnknown_calls (e : Errno) : (logUnknown env e w).calls = w.calls := by
  cases e <;> rfl

theorem writeLine_calls (allowed : Bool) (line : Line) : (writeLine env allowed line w).calls = w.calls := by
  cases allowed <;> rfl

/-- Any other answer is a failure. -/
theorem mkdirHelper_failed {e : Errno} (h : env.sys.mkdir w.fs path 0o755 = .error e) (he : e ≠ .eexist) :
    (mkdirHelper env w path).1 < 0 ∧ ∃ c, c.Failed ∧
      (mkdirHelper env w path).2.calls = w.calls ++ [c] := by
  constructor
  · have hrange := (xlatErrno_range e).2
    have hmax : VPL_ERR_MAX_VALUE = -9000 := rfl
    simp only [mkdirHelper, dirCreate, h]
    rw [if_neg fun hexist => he ((xlatErrno_exist_iff e).mp hexist)]
    omega
  · refine ⟨⟨path, 0o755, some e⟩, ⟨e, rfl, he⟩, ?_⟩
    simp only [mkdirHelper, dirCreate, h]
    exact logUnknown_calls e

/-- The code of the helper tells the two apart. -/
theorem mkdirHelper_cases (env : Env F) (w : World F) (path : Bytes) :
    ((mkdirHelper env w path).1 = 0 ∧ ∀ e, env.sys.mkdir w.fs path 0o755 = .error e → e = .eexist) ∨
    ((mkdirHelper env w path).1 < 0 ∧ ∃ e, env.sys.mkdir w.fs path 0o755 = .error e ∧ e ≠ .eexist) := by
  by_cases h : ∀ e, env.sys.mkdir w.fs path 0o755 = .error e → e = .eexist
  · exact .inl ⟨(mkdirHelper_made h).1, h⟩
  · push Not at h
    obtain ⟨e, he, hne⟩ := h
    exact .inr ⟨(mkdirHelper_failed he hne).1, e, he, hne⟩

end Calls

/-! ## One round -/

section Rounds

variable {F : Type} {env : Env F} {allowed : Bool} {s : CreateState F} {text a b : Bytes} {c : UInt8}

/-- The cell the counter points at. -/
theorem round_load (hcopy : s.tmp_path = a ++ c :: b) (hi : s.i.toNat = a.length) :
    deref s.tmp_path[s.i.toNat]? = .ok c := by
  rw [hcopy, hi, List.getElem?_append_right (Nat.le_refl _), Nat.sub_self]
  rfl

theorem createRound_end (hcopy : s.tmp_path = text ++ [0]) (hi : s.i.toNat = text.length) :
    createRound env allowed s = .ok (.inr (false, s)) := by
  rw [createRound, round_load hcopy hi, bind_ok, if_pos rfl]
  rfl

theorem createRound_char (hcopy : s.tmp_path = a ++ c :: b) (hi : s.i.toNat = a.length) (hc : c ≠ 0)
    (hslash : c ≠ 47) : createRound env allowed s = .ok (.inl { s with i := s.i + 1 }) := by
  rw [createRound, round_load hcopy hi, bind_ok, if_neg hc, if_neg hslash]
  rfl

/-- The cut makes the text before the slash the name of a directory, and the slash is
put back. -/
theorem createRound_slash (hcopy : s.tmp_path = a ++ 47 :: b) (hi : s.i.toNat = a.length)
    (hnul : (0 : UInt8) ∉ a) : createRound env allowed s =
      if (mkdirHelper env s.world a).1 < 0 then
        .ok (.inr (true, ⟨a ++ 0 :: b, s.i, (mkdirHelper env s.world a).1,
          writeLine env allowed (.createFailed a (mkdirHelper env s.world a).1) (mkdirHelper env s.world a).2⟩))
      else .ok (.inl ⟨s.tmp_path, s.i + 1, (mkdirHelper env s.world a).1, (mkdirHelper env s.world a).2⟩) := by
  have hcut : Buffer.store s.tmp_path s.i.toNat [0] = .ok (a ++ 0 :: b) := by
    rw [hcopy, hi, Buffer.store_one]
  have hback : Buffer.store (a ++ 0 :: b) s.i.toNat [47] = .ok s.tmp_path := by
    rw [hcopy, hi, Buffer.store_one]
  have hname : cStr (a ++ 0 :: b) = a := by
    rw [cStr_append hnul]
    exact List.append_nil a
  rw [createRound, round_load hcopy hi, bind_ok, if_neg (by decide), if_pos rfl, hcut, bind_ok, hname]
  dsimp only
  split
  · rfl
  · rw [hback]
    rfl

/-- Behind its NUL the copy is not read. -/
theorem createRound_beyond (hcopy : s.tmp_path = text ++ [0]) (hi : text.length < s.i.toNat) :
    createRound env allowed s = fault := by
  have hnone : s.tmp_path[s.i.toNat]? = none := by
    rw [hcopy]
    apply List.getElem?_eq_none
    rw [List.length_append, List.length_singleton]
    omega
  rw [createRound, hnone]
  rfl

/-- The text on both sides of the counter. -/
theorem round_split (hcopy : s.tmp_path = text ++ [0]) (hnul : (0 : UInt8) ∉ text) (hi : s.i.toNat < text.length) :
    ∃ a c b, text = a ++ c :: b ∧ s.i.toNat = a.length ∧ s.tmp_path = a ++ c :: (b ++ [0]) ∧ c ≠ 0 ∧
      (0 : UInt8) ∉ a := by
  have hsplit : text = text.take s.i.toNat ++ text[s.i.toNat] :: text.drop (s.i.toNat + 1) := by
    rw [List.getElem_cons_drop, List.take_append_drop]
  refine ⟨_, _, _, hsplit, ?_, ?_, ?_, ?_⟩
  · rw [List.length_take, Nat.min_eq_left (by omega)]
  · rw [← List.cons_append, ← List.append_assoc, ← hsplit, hcopy]
  · exact fun h0 => hnul (h0 ▸ List.getElem_mem hi)
  · exact fun h0 => hnul (List.mem_of_mem_take h0)

/-- Everything a round can do, seen from the text of the path. -/
theorem createRound_cases {next : CreateState F ⊕ Bool × CreateState F} (hcopy : s.tmp_path = text ++ [0])
    (hnul : (0 : UInt8) ∉ text) (h : createRound env allowed s = .ok next) :
    (s.i.toNat = text.length ∧ next = .inr (false, s)) ∨
    ∃ a c b, text = a ++ c :: b ∧ s.i.toNat = a.length ∧
      ((c ≠ 47 ∧ next = .inl { s with i := s.i + 1 }) ∨
      (c = 47 ∧ (∀ e, env.sys.mkdir s.world.fs a 0o755 = .error e → e = .eexist) ∧
        next = .inl ⟨s.tmp_path, s.i + 1, 0, (mkdirHelper env s.world a).2⟩) ∨
      (c = 47 ∧ ∃ e, env.sys.mkdir s.world.fs a 0o755 = .error e ∧ e ≠ .eexist ∧
        ∃ s', next = .inr (true, s') ∧ s'.rv < 0 ∧ s'.world.calls = (mkdirHelper env s.world a).2.calls)) := by
  rcases Nat.lt_trichotomy s.i.toNat text.length with hlt | heq | hgt
  · obtain ⟨a, c, b, rfl, hlen, hcells, hc, ha⟩ := round_split hcopy hnul hlt
    refine .inr ⟨a, c, b, rfl, hlen, ?_⟩
    by_cases hslash : c = 47
    · right
      rw [hslash] at hcells
      rw [createRound_slash hcells hlen ha] at h
      rcases mkdirHelper_cases env s.world a with ⟨hrv, hmade⟩ | ⟨hrv, e, he, hne⟩
      · rw [hrv, if_neg (by decide)] at h
        cases h
        exact .inl ⟨hslash, hmade, rfl⟩
      · rw [if_pos hrv] at h
        cases h
        exact .inr ⟨hslash, e, he, hne, _, rfl, hrv, writeLine_calls _ _⟩
    · rw [createRound_char hcells hlen hc hslash] at h
      cases h
      exact .inl ⟨hslash, rfl⟩
  · rw [createRound_end hcopy heq] at h
    cases h
    exact .inl ⟨heq, rfl⟩
  · rw [createRound_beyond hcopy hgt] at h
    cases h

/-- Up to its NUL the copy is read and written. -/
theorem createRound_isOk (hcopy : s.tmp_path = text ++ [0]) (hnul : (0 : UInt8) ∉ text)
    (hi : s.i.toNat ≤ text.length) : ∃ next, createRound env allowed s = .ok next := by
  rcases Nat.lt_or_eq_of_le hi with hlt | heq
  · obtain ⟨a, c, b, -, hlen, hcells, hc, ha⟩ := round_split hcopy hnul hlt
    by_cases hslash : c = 47
    · rw [hslash] at hcells
      rw [createRound_slash hcells hlen ha]
      split
      · exact ⟨_, rfl⟩
      · exact ⟨_, rfl⟩
    · exact ⟨_, createRound_char hcells hlen hc hslash⟩
  · exact ⟨_, createRound_end hcopy heq⟩

end Rounds

/-! ## The rounds together -/

section Runs

variable {F : Type} {env : Env F} {allowed : Bool} {s s' : CreateState F} {text path : Bytes} {fs : F}

/-- At the beginning of a round. The counter of a path of 2^32 bytes or more wraps
around, so that nothing is said of the directories there. -/
structure Inv (env : Env F) (text : Bytes) (fs : F) (s : CreateState F) : Prop where
  copy : s.tmp_path = text ++ [0]
  rv : s.rv = 0
  calls : ∀ c ∈ s.world.calls, ¬ c.Failed
  started : text.length < UInt32.size → 0 < s.i.toNat
  made : text.length < UInt32.size →
    s.world.fs = env.sys.makeAll 0o755 fs (ancestors (text.take s.i.toNat))
  unrefused : text.length < UInt32.size → ¬ env.sys.Refused 0o755 fs (ancestors (text.take s.i.toNat))

/-- How a call ends that has memory for its copy. -/
inductive Ended (env : Env F) (text : Bytes) (fs : F) : Result F → Prop
  | made {w : World F} : text.length < UInt32.size → (∀ c ∈ w.calls, ¬ c.Failed) →
      w.fs = env.sys.makeAll 0o755 fs (ancestors text) → ¬ env.sys.Refused 0o755 fs (ancestors text) →
      Ended env text fs ⟨0, w⟩
  | failed {rv : Int} {w : World F} {earlier : List Call} {c : Call} : rv < 0 → w.calls = earlier ++ [c] →
      c.Failed → (∀ d ∈ earlier, ¬ d.Failed) →
      (text.length < UInt32.size → env.sys.Refused 0o755 fs (ancestors text)) → Ended env text fs ⟨rv, w⟩

theorem inv_start (env : Env F) (allowed : Bool) (path : Bytes) (fs : F) :
    Inv env (cStr path) (entered env allowed fs).fs (createStart env allowed path fs) := by
  have hfirst : ancestors ((cStr path).take 1) = [] := by
    cases cStr path with
    | nil => rfl
    | cons c text => simp [ancestors, ancestorsFrom]
  have hcalls : (createStart env allowed path fs).world.calls = [] := writeLine_calls _ _
  have hi : (createStart env allowed path fs).i.toNat = 1 := rfl
  refine ⟨rfl, rfl, ?_, ?_, ?_, ?_⟩
  · rw [hcalls]
    exact List.forall_mem_nil _
  · intro _
    rw [hi]
    exact Nat.one_pos
  · intro _
    rw [hi, hfirst]
    rfl
  · intro _
    rw [hi, hfirst]
    exact FileSystem.not_refused_nil

/-- The counter of a short path does not wrap around. -/
theorem index_next {a b : Bytes} {c : UInt8} (hi : s.i.toNat = a.length)
    (hsize : (a ++ c :: b).length < UInt32.size) : (s.i + 1).toNat = a.length + 1 := by
  rw [List.length_append, List.length_cons] at hsize
  have hbig : UInt32.size = 2 ^ 32 := rfl
  rw [UInt32.toNat_add, hi]
  apply Nat.mod_eq_of_lt
  rw [UInt32.toNat_one]
  omega

theorem Inv.before_ne_nil {a b : Bytes} {c : UInt8} (hs : Inv env (a ++ c :: b) fs s) (hi : s.i.toNat = a.length)
    (hsize : (a ++ c :: b).length < UInt32.size) : a ≠ [] := by
  intro hnil
  have hpos := hs.started hsize
  rw [hi, hnil] at hpos
  exact absurd hpos (Nat.lt_irrefl 0)

theorem take_next (a b : Bytes) (c : UInt8) : (a ++ c :: b).take (a.length + 1) = a ++ [c] := by
  rw [List.take_length_add_append]
  rfl

theorem inv_round (hnul : (0 : UInt8) ∉ text) (hs : Inv env text fs s)
    (h : createRound env allowed s = .ok (.inl s')) : Inv env text fs s' := by
  rcases createRound_cases hs.copy hnul h with ⟨-, h⟩ | ⟨a, c, b, rfl, hi, h⟩
  · cases h
  · have hbefore : (a ++ c :: b).take s.i.toNat = a := by rw [hi, List.take_left]
    have hmade := hbefore ▸ hs.made
    have hunrefused := hbefore ▸ hs.unrefused
    rcases h with ⟨hslash, h⟩ | ⟨rfl, hmkdir, h⟩ | ⟨-, e, -, -, s', h, -⟩
    · -- no directory ends here
      cases h
      refine ⟨hs.copy, hs.rv, hs.calls, fun hsize => ?_, fun hsize => ?_, fun hsize => ?_⟩
      · rw [index_next hi hsize]
        exact Nat.succ_pos _
      · rw [index_next hi hsize, take_next, ancestors_char a hslash]
        exact hmade hsize
      · rw [index_next hi hsize, take_next, ancestors_char a hslash]
        exact hunrefused hsize
    · cases h
      obtain ⟨-, call, hcall, hworld⟩ := mkdirHelper_made hmkdir
      rw [hworld]
      have hne := hs.before_ne_nil hi
      refine ⟨hs.copy, rfl, ?_, fun hsize => ?_, fun hsize => ?_, fun hsize => ?_⟩
      · intro d hd
        rcases List.mem_append.mp hd with hd | hd
        · exact hs.calls d hd
        · exact List.mem_singleton.mp hd ▸ hcall
      · rw [index_next hi hsize]
        exact Nat.succ_pos _
      · rw [index_next hi hsize, take_next, ancestors_slash (hne hsize), FileSystem.makeAll_concat, ← hmade hsize]
      · rw [index_next hi hsize, take_next, ancestors_slash (hne hsize)]
        intro hrefused
        rcases hrefused.of_concat with hrefused | ⟨e, he, hexist⟩
        · exact hunrefused hsize hrefused
        · rw [← hmade hsize] at he
          exact hexist (hmkdir e he)
    · cases h

theorem inv_last {out : Bool} (hnul : (0 : UInt8) ∉ text) (hs : Inv env text fs s)
    (h : createRound env allowed s = .ok (.inr (out, s'))) : Ended env text fs ⟨s'.rv, s'.world⟩ := by
  rcases createRound_cases hs.copy hnul h with ⟨hi, h⟩ | ⟨a, c, b, rfl, hi, h⟩
  · cases h
    have hsize : text.length < UInt32.size := hi ▸ s.i.toNat_lt_size
    have hmade := hs.made hsize
    have hunrefused := hs.unrefused hsize
    rw [hi, List.take_length] at hmade hunrefused
    rw [hs.rv]
    exact .made hsize hs.calls hmade hunrefused
  · rcases h with ⟨-, h⟩ | ⟨-, -, h⟩ | ⟨rfl, e, he, hne, s', h, hrv, hcalls⟩
    · cases h
    · cases h
    · cases h
      obtain ⟨-, call, hcall, hworld⟩ := mkdirHelper_failed he hne
      refine .failed hrv (hcalls.trans hworld) hcall hs.calls fun hsize => ?_
      have hbefore : (a ++ 47 :: b).take s.i.toNat = a := by rw [hi, List.take_left]
      have hpath := hs.before_ne_nil hi hsize
      have hmade := hs.made hsize
      rw [hbefore] at hmade
      rw [hmade] at he
      rw [← List.singleton_append, ← List.append_assoc, ancestors_append, ancestors_slash hpath]
      exact (FileSystem.refused_concat he hne).append _

theorem reaches_inv (h : Loop.Reaches (createRound env allowed) (createStart env allowed path fs) s) :
    Inv env (cStr path) (entered env allowed fs).fs s :=
  h.keeps (fun _ _ hs hround => inv_round (cStr_no_nul path) hs hround) (inv_start env allowed path fs)

theorem createPathEx_ended {n : Nat} {r : Result F}
    (h : createPathEx env n true path false allowed fs = .ok r) :
    Ended env (cStr path) (entered env allowed fs).fs r := by
  rw [createPathEx, if_neg (by decide)] at h
  obtain ⟨⟨out, s⟩, hrun, h⟩ := bind_eq_ok.mp h
  obtain ⟨t, hreach, hlast⟩ := Loop.run_reaches hrun
  dsimp only at h
  rw [if_neg (by simp)] at h
  cases h
  exact inv_last (cStr_no_nul path) (reaches_inv hreach) hlast

/-- Without memory nothing is done. -/
theorem createPathEx_no_memory (n : Nat) (last : Bool) :
    createPathEx env n false path last allowed fs = .ok ⟨-1, entered env allowed fs⟩ := by
  rw [createPathEx, if_pos rfl]
  rfl

/-- A round of a short path goes one byte further, or is the last. -/
theorem round_ends (hsize : text.length < UInt32.size) (hnul : (0 : UInt8) ∉ text) (hs : Inv env text fs s)
    (hi : s.i.toNat ≤ text.length) :
    (∃ s', createRound env allowed s = .ok (.inl s') ∧ Inv env text fs s' ∧
      s'.i.toNat ≤ text.length ∧ s'.i.toNat = s.i.toNat + 1) ∨
    ∃ r, createRound env allowed s = .ok (.inr r) := by
  obtain ⟨next, hnext⟩ := createRound_isOk hs.copy hnul hi
  cases next with
  | inr r => exact .inr ⟨r, hnext⟩
  | inl s' =>
    have hinv := inv_round hnul hs hnext
    rcases createRound_cases hs.copy hnul hnext with ⟨-, h⟩ | ⟨a, c, b, rfl, ha, h⟩
    · cases h
    · have hi' : s'.i = s.i + 1 := by
        rcases h with ⟨-, h⟩ | ⟨-, -, h⟩ | ⟨-, e, -, -, t, h, -⟩
        · cases h; rfl
        · cases h; rfl
        · cases h
      have hnext' := index_next ha hsize
      rw [← hi'] at hnext'
      refine .inl ⟨s', hnext, hinv, ?_, by omega⟩
      rw [List.length_append, List.length_cons]
      omega

/-- A short path that is not empty is finished within a round for each of its bytes. -/
theorem createLoop_ends (env : Env F) (allowed : Bool) (fs : F) (hsize : (cStr path).length < UInt32.size)
    (hne : cStr path ≠ []) : ∃ r,
      Loop.run (createRound env allowed) (cStr path).length (createStart env allowed path fs) = .ok r := by
  have hpos := List.length_pos_iff.mpr hne
  have hfirst : (createStart env allowed path fs).i.toNat = 1 := rfl
  refine Loop.run_isOk
    (fun s => Inv env (cStr path) (entered env allowed fs).fs s ∧ s.i.toNat ≤ (cStr path).length)
    (fun s => (cStr path).length - s.i.toNat) (fun s hs => ?_) ⟨inv_start env allowed path fs, by omega⟩ (by omega)
  rcases round_ends hsize (cStr_no_nul path) hs.1 hs.2 with ⟨s', hround, hs', hi', hnext⟩ | hlast
  · exact .inl ⟨s', hround, ⟨hs', hi'⟩, by omega⟩
  · exact .inr hlast

/-- A call whose loop ends returns. -/
theorem createPathEx_of_loop {n : Nat} {r : Bool × CreateState F} (last : Bool)
    (h : Loop.run (createRound env allowed) n (createStart env allowed path fs) = .ok r) :
    ∃ r, createPathEx env n true path last allowed fs = .ok r := by
  rw [createPathEx, if_neg (by decide), h, bind_ok]
  obtain ⟨out, s⟩ := r
  dsimp only
  split
  · split
    · exact ⟨_, rfl⟩
    · exact ⟨_, rfl⟩
  · exact ⟨_, rfl⟩

/-- The loop starts behind the NUL of an empty path. -/
theorem createLoop_empty (hnil : cStr path = []) (n : Nat) :
    Loop.run (createRound env allowed) n (createStart env allowed path fs) = fault := by
  cases n with
  | zero => rfl
  | succ n =>
    have hcopy : (createStart env allowed path fs).tmp_path = [] ++ [0] := by
      rw [createStart, hnil]
    rw [Loop.run, createRound_beyond hcopy (show 0 < 1 from Nat.one_pos)]
    rfl

theorem createPathEx_returns_iff (env : Env F) (malloc : Bool) (path : Bytes) (last allowed : Bool) (fs : F)
    (hsize : (cStr path).length < UInt32.size) :
    (∃ n r, createPathEx env n malloc path last allowed fs = .ok r) ↔ malloc = false ∨ cStr path ≠ [] := by
  cases malloc with
  | false => exact ⟨fun _ => .inl rfl, fun _ => ⟨0, _, createPathEx_no_memory 0 last⟩⟩
  | true =>
    constructor
    · intro h
      obtain ⟨n, r, h⟩ := h
      refine .inr fun hnil => ?_
      rw [createPathEx, if_neg (by decide), createLoop_empty hnil] at h
      cases h
    · intro h
      rcases h with h | hne
      · cases h
      · obtain ⟨r, hr⟩ := createLoop_ends env allowed fs hsize hne
        exact ⟨_, createPathEx_of_loop last hr⟩

end Runs

/-! ## What the result says -/

section Results

variable {F : Type}

/-- A result that is not negative has directories behind it, a negative one no `mkdir`
after the one that failed, and every round begins with the path in the copy. -/
structure Honest (env : Env F) (malloc allowed : Bool) (path : Bytes) (fs : F) : Prop where
  directories : ∀ n r, createPathEx env n malloc path false allowed fs = .ok r → 0 ≤ r.rv →
    ∀ p rest, p ≠ [] → cStr path = p ++ 47 :: rest → env.sys.kind r.world.fs p = some .dir
  stops : ∀ n r, createPathEx env n malloc path false allowed fs = .ok r → r.rv < 0 →
    ∀ earlier c later, r.world.calls = earlier ++ c :: later → c.Failed → later = []
  copy : ∀ s, Loop.Reaches (createRound env allowed) (createStart env allowed path fs) s →
    s.tmp_path = cStr path ++ [0]

/-- Once the directories above it are made, there is nothing but a directory at the
parent. -/
def ParentClear (sys : FileSystem F) (text : Bytes) (fs : F) : Prop :=
  ∀ parent ∈ (ancestors text).getLast?,
    sys.kind (sys.makeAll 0o755 fs (ancestors text).dropLast) parent ≠ some .other

/-- In a tree and without "..", that is a question about the tree before the call. -/
theorem parentClear_tree_iff {text : Bytes} (t : FileTree) (hdown : [46, 46] ∉ names text) :
    ParentClear FileTree.system text t ↔
      ∀ parent ∈ (ancestors text).getLast?, t.kind parent ≠ some .other := by
  refine forall₂_congr fun parent hparent => not_congr ?_
  obtain ⟨-, rest, rfl⟩ := mem_ancestors_iff.mp (List.mem_of_getLast? hparent)
  rw [names_slash, List.mem_append, not_or] at hdown
  exact FileTree.kind_other_iff (FileTree.grown_makeAll _ t _) hdown.1

variable {env : Env F} {malloc allowed : Bool} {path text : Bytes} {fs : F} {r : Result F}

theorem Ended.directories_iff (h : Ended env text fs r) (hrv : 0 ≤ r.rv) :
    (∀ p rest, p ≠ [] → text = p ++ 47 :: rest → env.sys.kind r.world.fs p = some .dir) ↔
      ParentClear env.sys text fs := by
  cases h with
  | failed hneg => exact absurd hrv (by dsimp only; omega)
  | made _ _ hfs hunrefused =>
    rw [ParentClear, ← FileSystem.all_dirs_iff (ancestors_chain text) hunrefused, ← hfs]
    constructor
    · intro h p hp
      obtain ⟨hne, rest, hrest⟩ := mem_ancestors_iff.mp hp
      exact h p rest hne hrest
    · intro h p rest hne hrest
      exact h p (mem_ancestors_iff.mpr ⟨hne, rest, hrest⟩)

/-- The call that failed is the last. -/
theorem Ended.stops (h : Ended env text fs r) {earlier later : List Call} {c : Call}
    (hcalls : r.world.calls = earlier ++ c :: later) (hc : c.Failed) : later = [] := by
  cases h with
  | made _ hnone _ _ =>
    apply absurd hc
    apply hnone c
    rw [hcalls]
    simp
  | failed _ hlast _ hbefore _ =>
    rw [hlast] at hcalls
    rcases History.split_append hcalls with ⟨hnil, -, -⟩ | ⟨later', hearlier⟩
    · exact hnil
    · apply absurd hc
      apply hbefore c
      rw [hearlier]
      simp

theorem Ended.short (h : Ended env text fs r) (hrv : 0 ≤ r.rv) : text.length < UInt32.size ∧
    ¬ env.sys.Refused 0o755 fs (ancestors text) := by
  cases h with
  | failed hneg => exact absurd hrv (by dsimp only; omega)
  | made hsize _ _ hunrefused => exact ⟨hsize, hunrefused⟩

theorem Ended.not_negative (h : Ended env text fs r) (hsize : text.length < UInt32.size)
    (hunrefused : ¬ env.sys.Refused 0o755 fs (ancestors text)) : 0 ≤ r.rv := by
  cases h with
  | made => exact Int.le_refl 0
  | failed _ _ _ _ hrefused => exact absurd (hrefused hsize) hunrefused

/-- Without memory the result is negative, and there are no calls. -/
theorem honest_no_memory (env : Env F) (allowed : Bool) (path : Bytes) (fs : F) : Honest env false allowed path fs := by
  refine ⟨?_, ?_, fun s hs => (reaches_inv hs).copy⟩
  · intro n r h hrv
    rw [createPathEx_no_memory] at h
    cases h
    exact absurd (show (0 : Int) ≤ -1 from hrv) (by decide)
  · intro n r h _ earlier c later hcalls
    rw [createPathEx_no_memory] at h
    cases h
    have hnil : (entered env allowed fs).calls = [] := writeLine_calls _ _
    rw [hnil] at hcalls
    simp at hcalls

/-- The result is honest exactly when the call gets no memory, never finishes, is refused
a directory, or finds nothing but a directory at the parent. -/
theorem honest_iff (env : Env F) (malloc allowed : Bool) (path : Bytes) (fs : F) :
    Honest env malloc allowed path fs ↔
      malloc = false ∨ UInt32.size ≤ (cStr path).length ∨
      env.sys.Refused 0o755 (entered env allowed fs).fs (ancestors (cStr path)) ∨
      ParentClear env.sys (cStr path) (entered env allowed fs).fs := by
  cases malloc with
  | false => exact ⟨fun _ => .inl rfl, fun _ => honest_no_memory env allowed path fs⟩
  | true =>
    constructor
    · intro h
      by_contra hnot
      simp only [not_or, Nat.not_le] at hnot
      obtain ⟨-, hsize, hunrefused, hblocked⟩ := hnot
      have hne : cStr path ≠ [] := by
        intro hnil
        apply hblocked
        rw [hnil]
        intro parent hparent
        cases hparent
      obtain ⟨n, r, hrun⟩ := (createPathEx_returns_iff env true path false allowed fs hsize).mpr (.inr hne)
      have hended := createPathEx_ended hrun
      have hrv := hended.not_negative hsize hunrefused
      exact hblocked ((hended.directories_iff hrv).mp (h.directories n r hrun hrv))
    · intro h
      refine ⟨fun n r hrun hrv => ?_, fun n r hrun _ => ?_, fun s hs => (reaches_inv hs).copy⟩
      · have hended := createPathEx_ended hrun
        obtain ⟨hsize, hunrefused⟩ := hended.short hrv
        rcases h with h | h | h | h
        · cases h
        · exact absurd hsize (Nat.not_lt.mpr h)
        · exact absurd h hunrefused
        · exact (hended.directories_iff hrv).mpr h
      · intro earlier c later
        exact (createPathEx_ended hrun).stops

end Results

/-- Trees where no log is written. -/
def treeEnv : Env FileTree := ⟨FileTree.system, fun _ t => t⟩

theorem honest_empty_root : Honest treeEnv true false (str "/var/log/a.log") FileTree.root := by
  have hparent : (ancestors (cStr (str "/var/log/a.log"))).getLast? = some (str "/var/log") := by decide +kernel
  refine (honest_iff treeEnv true false (str "/var/log/a.log") FileTree.root).mpr (.inr (.inr (.inr ?_)))
  rw [ParentClear, hparent]
  intro parent h
  cases h
  decide +kernel

/-- A tree with the file "/logs". -/
def fileTree : FileTree := FileTree.root.put [str "logs"] .other rfl rfl

/-- The file is taken for the parent. -/
theorem file_for_parent : ¬ Honest treeEnv true false (str "/logs/a.log") fileTree := by
  intro h
  have hrun : (createPathEx treeEnv 11 true (str "/logs/a.log") false false fileTree).toOption.map
      (fun r => (r.rv, FileTree.kind r.world.fs (str "/logs"))) = some (0, some .other) := rfl
  cases hr : createPathEx treeEnv 11 true (str "/logs/a.log") false false fileTree with
  | error e =>
    rw [hr] at hrun
    cases hrun
  | ok r =>
    rw [hr] at hrun
    obtain ⟨hrv, hkind⟩ := Prod.mk.inj (Option.some.inj hrun)
    have hdir := h.directories 11 r hr (Int.le_of_eq hrv.symm) (str "/logs") (str "a.log") (by decide) (by decide)
    exact absurd (hdir.symm.trans hkind) (by decide)

end TmatePlugin.L1.CreatePath

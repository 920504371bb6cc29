import TmatePlugin.Lib.CString
import TmatePlugin.Lib.History

/-!
# File systems

What a program relies on when it makes directories: a `FileSystem` says what is at a
path and what `mkdir` does, with the facts about it that its documentation promises. A
call that fails, for whatever reason, changes nothing.

* `ancestors`: the prefixes of a path before a slash, the shortest first
  (`mem_ancestors_iff`).
* `makeAll`: `mkdir` at one path after the other, whatever it answers.
* `all_dirs_iff`: when no call is `Refused`, all of a chain of paths are directories
  afterwards exactly when the last one was not something else.
-/
namespace Files

open CString

/-- What is at a path, behind its links; a link that leads nowhere is `other`. -/
inductive Kind where
  | dir
  | other
  deriving DecidableEq, Repr

/-- The nonzero values of `errno`; `unnamed` are those not listed. -/
inductive Errno where
  | eacces | eaddrinuse | eaddrnotavail | eagain | ebadf | ebusy | econnaborted | econnrefused
  | econnreset | edeadlk | edestaddrreq | eexist | efault | ehostunreach | einprogress | eintr
  | einval | eio | eisconn | eloop | emfile | emsgsize | enametoolong | enetdown | enetreset
  | enetunreach | enfile | enobufs | enodev | enoent | enomem | enospc | enosys | enotconn
  | enotdir | enotempty | enotsock | eopnotsupp | eperm | epipe | erofs | etimedout | etxtbsy
  | exdev
  | unnamed (n : Nat)
  deriving DecidableEq, Repr

/-- `kind fs path` does not count slashes at the end of the path. -/
structure FileSystem (F : Type) where
  kind : F → Bytes → Option Kind
  mkdir : F → Bytes → Nat → Except Errno F
  mkdir_ok : ∀ {fs fs' : F} {path : Bytes} {mode : Nat}, mkdir fs path mode = .ok fs' →
    kind fs path = none ∧ kind fs' path = some .dir
  mkdir_exists : ∀ {fs : F} {path : Bytes} {mode : Nat}, mkdir fs path mode = .error .eexist →
    kind fs path ≠ none
  /-- What is below a path makes it a directory. -/
  dir_up : ∀ {fs : F} {path below : Bytes}, path ≠ [] → kind fs (path ++ 47 :: below) = some .dir →
    kind fs path = some .dir

/-! ## The prefixes of a path -/

/-- `before` is what has been read of the path. -/
def ancestorsFrom (before : Bytes) : Bytes → List Bytes
  | [] => []
  | c :: rest =>
    if c = 47 ∧ before ≠ [] then before :: ancestorsFrom (before ++ [c]) rest
    else ancestorsFrom (before ++ [c]) rest

/-- The nonempty prefixes of a path before a slash. -/
def ancestors (path : Bytes) : List Bytes := ancestorsFrom [] path

theorem ancestorsFrom_append (before p q : Bytes) :
    ancestorsFrom before (p ++ q) = ancestorsFrom before p ++ ancestorsFrom (before ++ p) q := by
  induction p generalizing before with
  | nil => rw [List.append_nil, ancestorsFrom, List.nil_append, List.nil_append]
  | cons c p ih =>
    rw [List.cons_append, ancestorsFrom, ancestorsFrom, ih, List.append_assoc, List.singleton_append]
    split <;> rfl

/-- What a path goes on with adds to its prefixes. -/
theorem ancestors_append (p q : Bytes) : ancestors (p ++ q) = ancestors p ++ ancestorsFrom p q :=
  ancestorsFrom_append [] p q

theorem ancestors_concat (path : Bytes) (c : UInt8) :
    ancestors (path ++ [c]) = ancestors path ++ if c = 47 ∧ path ≠ [] then [path] else [] := by
  rw [ancestors_append, ancestorsFrom, ancestorsFrom]

theorem ancestors_slash {path : Bytes} (h : path ≠ []) :
    ancestors (path ++ [47]) = ancestors path ++ [path] := by
  rw [ancestors_concat, if_pos ⟨rfl, h⟩]

theorem ancestors_char (path : Bytes) {c : UInt8} (h : c ≠ 47) :
    ancestors (path ++ [c]) = ancestors path := by
  rw [ancestors_concat, if_neg fun hc => h hc.1, List.append_nil]

theorem mem_ancestors_iff {p path : Bytes} :
    p ∈ ancestors path ↔ p ≠ [] ∧ ∃ rest, path = p ++ 47 :: rest := by
  constructor
  · intro h
    induction path using List.reverseRecOn with
    | nil => cases h
    | append_singleton path c ih =>
      rw [ancestors_concat, List.mem_append] at h
      rcases h with h | hlast
      · obtain ⟨hp, rest, rfl⟩ := ih h
        exact ⟨hp, rest ++ [c], by rw [List.append_assoc, List.cons_append]⟩
      · split at hlast
        · rename_i hc
          rw [List.mem_singleton.mp hlast, hc.1]
          exact ⟨hc.2, [], rfl⟩
        · cases hlast
  · intro h
    obtain ⟨hp, rest, rfl⟩ := h
    rw [ancestors_append, ancestorsFrom, if_pos ⟨rfl, hp⟩]
    apply List.mem_append_right
    apply List.mem_cons_self

/-- A slash behind `p`, and possibly more, makes `q`. -/
def Below (p q : Bytes) : Prop := p ≠ [] ∧ ∃ rest, q = p ++ 47 :: rest

theorem ancestors_chain (path : Bytes) : (ancestors path).Pairwise Below := by
  induction path using List.reverseRecOn with
  | nil => exact .nil
  | append_singleton path c ih =>
    rw [ancestors_concat]
    split
    · apply List.pairwise_append.mpr
      refine ⟨ih, List.pairwise_singleton _ _, fun p hp q hq => ?_⟩
      rw [List.mem_singleton.mp hq]
      exact mem_ancestors_iff.mp hp
    · rw [List.append_nil]
      exact ih

/-! ## Making directories -/

namespace FileSystem

variable {F : Type} (sys : FileSystem F) (mode : Nat)

/-- What is there after a call, which may have failed. -/
def make (fs : F) (path : Bytes) : F :=
  match sys.mkdir fs path mode with
  | .ok fs' => fs'
  | .error _ => fs

def makeAll (fs : F) (paths : List Bytes) : F := paths.foldl (sys.make mode) fs

/-- Some call fails, and not because of something that is there already. -/
def Refused (fs : F) (paths : List Bytes) : Prop :=
  ∃ earlier path later e, paths = earlier ++ path :: later ∧
    sys.mkdir (sys.makeAll mode fs earlier) path mode = .error e ∧ e ≠ .eexist

variable {sys mode} {fs : F} {paths : List Bytes} {path : Bytes}

theorem makeAll_concat : sys.makeAll mode fs (paths ++ [path]) = sys.make mode (sys.makeAll mode fs paths) path := by
  rw [makeAll, List.foldl_append]
  rfl

theorem not_refused_nil : ¬ sys.Refused mode fs [] := by
  rintro ⟨earlier, path, later, e, h, -⟩
  simp at h

theorem Refused.append (h : sys.Refused mode fs paths) (more : List Bytes) :
    sys.Refused mode fs (paths ++ more) := by
  obtain ⟨earlier, path, later, e, rfl, he⟩ := h
  exact ⟨earlier, path, later ++ more, e, by rw [List.append_assoc, List.cons_append], he⟩

theorem refused_concat {e : Errno} (h : sys.mkdir (sys.makeAll mode fs paths) path mode = .error e)
    (he : e ≠ .eexist) : sys.Refused mode fs (paths ++ [path]) :=
  ⟨paths, path, [], e, rfl, h, he⟩

/-- A refused call is the last one, or one before it. -/
theorem Refused.of_concat (h : sys.Refused mode fs (paths ++ [path])) : sys.Refused mode fs paths ∨
    ∃ e, sys.mkdir (sys.makeAll mode fs paths) path mode = .error e ∧ e ≠ .eexist := by
  obtain ⟨earlier, p, later, e, heq, he⟩ := h
  rcases History.split_append heq with ⟨-, rfl, rfl⟩ | ⟨later', hpaths⟩
  · exact .inr ⟨e, he⟩
  · exact .inl ⟨earlier, p, later', e, hpaths, he⟩

/-- A call that is not refused leaves a directory, unless something else is there. -/
theorem make_dir_iff (h : ∀ e, sys.mkdir fs path mode = .error e → e = .eexist) :
    sys.kind (sys.make mode fs path) path = some .dir ↔ sys.kind fs path ≠ some .other := by
  rw [make]
  cases hmk : sys.mkdir fs path mode with
  | ok fs' =>
    obtain ⟨hfree, hdir⟩ := sys.mkdir_ok hmk
    simp [hfree, hdir]
  | error e =>
    have hexists := sys.mkdir_exists (h e hmk ▸ hmk)
    cases hkind : sys.kind fs path with
    | none => exact absurd hkind hexists
    | some kind => cases kind <;> simp

theorem all_dirs_iff (hchain : paths.Pairwise Below) (hall : ¬ sys.Refused mode fs paths) :
    (∀ p ∈ paths, sys.kind (sys.makeAll mode fs paths) p = some .dir) ↔
      ∀ parent ∈ paths.getLast?, sys.kind (sys.makeAll mode fs paths.dropLast) parent ≠ some .other := by
  rcases List.eq_nil_or_concat paths with rfl | ⟨paths, parent, rfl⟩
  · simp
  · rw [List.concat_eq_append] at hchain hall ⊢
    have hmade : ∀ e, sys.mkdir (sys.makeAll mode fs paths) parent mode = .error e → e = .eexist := by
      intro e he
      by_contra hne
      exact hall (refused_concat he hne)
    rw [List.getLast?_concat, List.dropLast_concat, makeAll_concat]
    simp only [Option.mem_some_iff, forall_eq', ← make_dir_iff hmade]
    constructor
    · intro h
      exact h parent (by simp)
    · intro h p hp
      rcases List.mem_append.mp hp with hp | hp
      · -- the directories above the last one
        obtain ⟨hne, rest, hrest⟩ := (List.pairwise_append.mp hchain).2.2 p hp parent (by simp)
        generalize sys.make mode (sys.makeAll mode fs paths) parent = made at h ⊢
        rw [hrest] at h
        exact sys.dir_up hne h
      · rw [List.mem_singleton.mp hp]
        exact h

end FileSystem

end Files

import TmatePlugin.Lib.Files

/-!
# File trees

A file system without links: the names that lead from the root to a node, and what is
at the node. A path is read name by name; "." stays and ".." goes up, and every name is
looked up in a directory.

* `FileTree.system`: `mkdir` on a tree keeps what `FileSystem` promises.
* `FileTree.kind_other_iff`: where directories have been made, a path without ".." leads
  to a file of another kind exactly when it did before.
-/
namespace Files

open CString

/-- The root and the current directory are directories, and so is what a node is in. -/
structure FileTree where
  entry : List Bytes → Option Kind
  cwd : List Bytes
  root_dir : entry [] = some .dir
  cwd_dir : entry cwd = some .dir
  parent_dir : ∀ {node : List Bytes} {name : Bytes}, entry (node ++ [name]) ≠ none → entry node = some .dir

/-- The names of a path, after the part `name` of one. -/
def namesFrom (name : Bytes) : Bytes → List Bytes
  | [] => if name = [] then [] else [name]
  | c :: path =>
    if c = 47 then (if name = [] then [] else [name]) ++ namesFrom [] path
    else namesFrom (name ++ [c]) path

def names (path : Bytes) : List Bytes := namesFrom [] path

theorem names_slash (path below : Bytes) : names (path ++ 47 :: below) = names path ++ names below := by
  suffices h : ∀ name, namesFrom name (path ++ 47 :: below) = namesFrom name path ++ names below from h []
  intro name
  induction path generalizing name with
  | nil =>
    rw [List.nil_append, namesFrom, namesFrom, if_pos rfl]
    rfl
  | cons c path ih =>
    rw [List.cons_append, namesFrom, namesFrom]
    split
    · rw [ih, List.append_assoc]
    · exact ih _

/-- One name further. -/
def move (node : List Bytes) (name : Bytes) : List Bytes :=
  if name = [46] then node
  else if name = [46, 46] then node.dropLast
  else node ++ [name]

namespace FileTree

variable {t t' : FileTree} {node node' : List Bytes} {ns : List Bytes} {path : Bytes}

/-- The node a list of names leads to, which need not exist. -/
def walk (t : FileTree) (node : List Bytes) : List Bytes → Except Errno (List Bytes)
  | [] => .ok node
  | name :: ns =>
    match t.entry node with
    | some .dir => walk t (move node name) ns
    | some .other => .error .enotdir
    | none => .error .enoent

/-- A path that begins with a slash begins at the root. -/
def start (t : FileTree) (path : Bytes) : List Bytes := if path.head? = some 47 then [] else t.cwd

def resolve (t : FileTree) (path : Bytes) : Except Errno (List Bytes) :=
  if path = [] then .error .enoent else t.walk (t.start path) (names path)

def kind (t : FileTree) (path : Bytes) : Option Kind :=
  match t.resolve path with
  | .ok node => t.entry node
  | .error _ => none

/-! ## Walking -/

theorem walk_append (ms ns : List Bytes) :
    t.walk node (ms ++ ns) = t.walk node ms >>= fun node' => t.walk node' ns := by
  induction ms generalizing node with
  | nil => rfl
  | cons name ms ih =>
    rw [List.cons_append, walk, walk]
    cases t.entry node with
    | none => rfl
    | some kind =>
      cases kind with
      | dir => exact ih
      | other => rfl

/-- Every name is looked up in a directory. -/
theorem walk_cons_iff {name : Bytes} : t.walk node (name :: ns) = .ok node' ↔
    t.entry node = some .dir ∧ t.walk (move node name) ns = .ok node' := by
  rw [walk]
  cases t.entry node with
  | none => simp
  | some kind => cases kind <;> simp

theorem walk_ne_exist : t.walk node ns ≠ .error .eexist := by
  induction ns generalizing node with
  | nil => simp [walk]
  | cons name ns ih =>
    rw [walk]
    split
    · exact ih
    · simp
    · simp

theorem entry_dropLast (h : t.entry node = some .dir) : t.entry node.dropLast = some .dir := by
  rcases List.eq_nil_or_concat node with rfl | ⟨node, name, rfl⟩
  · exact h
  · rw [List.concat_eq_append] at h ⊢
    rw [List.dropLast_concat]
    exact t.parent_dir (h ▸ Option.some_ne_none _)

/-- The parent of a free node is a directory. -/
theorem walk_free (hstart : t.entry node = some .dir) (h : t.walk node ns = .ok node')
    (hfree : t.entry node' = none) : t.entry node'.dropLast = some .dir := by
  induction ns generalizing node with
  | nil =>
    cases h
    rw [hstart] at hfree
    cases hfree
  | cons name ns ih =>
    have hnext := (walk_cons_iff.mp h).2
    by_cases hdir : t.entry (move node name) = some .dir
    · exact ih hdir hnext
    · cases ns with
      | nil =>
        cases hnext
        unfold move at hdir ⊢
        split at hdir
        · exact absurd hstart hdir
        · split at hdir
          · exact absurd (entry_dropLast hstart) hdir
          · rename_i hdot hup
            rw [if_neg hdot, if_neg hup, List.dropLast_concat]
            exact hstart
      | cons name' ns => exact absurd (walk_cons_iff.mp hnext).1 hdir

/-- The way to a directory begins at one. -/
theorem dir_of_walk (h : t.walk node ns = .ok node') (hdir : t.entry node' = some .dir) :
    t.entry node = some .dir := by
  cases ns with
  | nil =>
    cases h
    exact hdir
  | cons name ns => exact (walk_cons_iff.mp h).1

/-- What is a directory in one tree is one in the other. -/
theorem walk_mono (h : ∀ n, t.entry n = some .dir → t'.entry n = some .dir)
    (hwalk : t.walk node ns = .ok node') : t'.walk node ns = .ok node' := by
  induction ns generalizing node with
  | nil => exact hwalk
  | cons name ns ih =>
    obtain ⟨hdir, hnext⟩ := walk_cons_iff.mp hwalk
    exact walk_cons_iff.mpr ⟨h node hdir, ih hnext⟩

theorem start_dir (t : FileTree) (path : Bytes) : t.entry (t.start path) = some .dir := by
  rw [start]
  split
  · exact t.root_dir
  · exact t.cwd_dir

theorem kind_eq_some {k : Kind} :
    t.kind path = some k ↔ ∃ node, t.resolve path = .ok node ∧ t.entry node = some k := by
  rw [kind]
  cases t.resolve path <;> simp

theorem resolve_free (h : t.resolve path = .ok node) (hfree : t.entry node = none) :
    t.entry node.dropLast = some .dir := by
  rw [resolve] at h
  split at h
  · cases h
  · exact walk_free (t.start_dir path) h hfree

/-! ## Trees that grow -/

/-- What is in the tree stays as it is when something is put at a free node. -/
theorem entry_kept (hfree : t.entry node = none) (k : Kind) {n : List Bytes} {old : Kind} (hn : t.entry n = some old) :
    (if n = node then some k else t.entry n) = some old := by
  rw [if_neg, hn]
  intro heq
  rw [← heq, hn] at hfree
  cases hfree

/-- The tree with something at a free node of a directory. -/
def put (t : FileTree) (node : List Bytes) (k : Kind) (hfree : t.entry node = none)
    (hdir : t.entry node.dropLast = some .dir) : FileTree where
  entry n := if n = node then some k else t.entry n
  cwd := t.cwd
  root_dir := entry_kept hfree k t.root_dir
  cwd_dir := entry_kept hfree k t.cwd_dir
  parent_dir := by
    intro n name hne
    split at hne
    · rename_i heq
      rw [← heq, List.dropLast_concat] at hdir
      exact entry_kept hfree k hdir
    · exact entry_kept hfree k (t.parent_dir hne)

/-- The tree with nothing in its root. -/
def root : FileTree where
  entry n := if n = [] then some .dir else none
  cwd := []
  root_dir := rfl
  cwd_dir := rfl
  parent_dir := by simp

/-- The nodes of the first tree are in the second, and those that are new are
directories. -/
structure Grown (t t' : FileTree) : Prop where
  cwd : t'.cwd = t.cwd
  kept : ∀ {n k}, t.entry n = some k → t'.entry n = some k
  other : ∀ {n}, t'.entry n = some .other → t.entry n = some .other

theorem Grown.refl (t : FileTree) : Grown t t := ⟨rfl, id, id⟩

theorem Grown.trans {t'' : FileTree} (h : Grown t t') (h' : Grown t' t'') : Grown t t'' :=
  ⟨h'.cwd.trans h.cwd, fun hn => h'.kept (h.kept hn), fun hn => h.other (h'.other hn)⟩

theorem grown_put {hfree : t.entry node = none} {hdir : t.entry node.dropLast = some .dir} :
    Grown t (t.put node .dir hfree hdir) := by
  refine ⟨rfl, entry_kept hfree .dir, fun {n} hn => ?_⟩
  change (if n = node then some Kind.dir else t.entry n) = some .other at hn
  split at hn
  · cases hn
  · exact hn

theorem Grown.resolve (h : Grown t t') (hresolve : t.resolve path = .ok node) : t'.resolve path = .ok node := by
  have hstart : t'.start path = t.start path := by rw [start, start, h.cwd]
  unfold FileTree.resolve at hresolve ⊢
  split at hresolve
  · cases hresolve
  · rename_i hne
    rw [if_neg hne, hstart]
    exact walk_mono (fun n hn => h.kept hn) hresolve

/-! ## Making directories -/

def mkdir (t : FileTree) (path : Bytes) (_mode : Nat) : Except Errno FileTree :=
  match h : t.resolve path with
  | .ok node =>
    if hfree : t.entry node = none then .ok (t.put node .dir hfree (resolve_free h hfree)) else .error .eexist
  | .error e => .error e

theorem resolve_ne_exist : t.resolve path ≠ .error .eexist := by
  rw [resolve]
  split
  · simp
  · exact walk_ne_exist

theorem mkdir_eq_ok {mode : Nat} (h : t.mkdir path mode = .ok t') :
    ∃ node hfree hdir, t.resolve path = .ok node ∧ t' = t.put node .dir hfree hdir := by
  unfold mkdir at h
  split at h
  · rename_i node hnode
    split at h
    · rename_i hfree
      cases h
      exact ⟨node, hfree, _, hnode, rfl⟩
    · cases h
  · cases h

theorem mkdir_exists {mode : Nat} (h : t.mkdir path mode = .error .eexist) : t.kind path ≠ none := by
  unfold mkdir at h
  split at h
  · rename_i node hnode
    split at h
    · cases h
    · rename_i hused
      rwa [kind, hnode]
  · rename_i e he
    cases h
    exact absurd he resolve_ne_exist

theorem mkdir_ok {mode : Nat} (h : t.mkdir path mode = .ok t') :
    t.kind path = none ∧ t'.kind path = some .dir := by
  obtain ⟨node, hfree, hdir, hnode, rfl⟩ := mkdir_eq_ok h
  constructor
  · rw [kind, hnode]
    exact hfree
  · exact kind_eq_some.mpr ⟨node, grown_put.resolve hnode, if_pos rfl⟩

/-- A directory is passed on the way to what is below it. -/
theorem dir_up {below : Bytes} (hne : path ≠ []) (h : t.kind (path ++ 47 :: below) = some .dir) :
    t.kind path = some .dir := by
  have hstart : t.start (path ++ 47 :: below) = t.start path := by
    rw [start, start, List.head?_append_of_ne_nil _ hne]
  obtain ⟨node', hresolve, hdir⟩ := kind_eq_some.mp h
  rw [resolve, if_neg (by simp), hstart, names_slash, walk_append] at hresolve
  cases hwalk : t.walk (t.start path) (names path) with
  | error e =>
    rw [hwalk] at hresolve
    cases hresolve
  | ok node =>
    rw [hwalk] at hresolve
    exact kind_eq_some.mpr ⟨node, by rw [resolve, if_neg hne, hwalk], dir_of_walk hresolve hdir⟩

def system : FileSystem FileTree where
  kind := kind
  mkdir := mkdir
  mkdir_ok := mkdir_ok
  mkdir_exists := mkdir_exists
  dir_up := dir_up

/-! ## What mkdir leaves as it is -/

theorem grown_make (mode : Nat) (t : FileTree) (path : Bytes) : Grown t (system.make mode t path) := by
  rw [FileSystem.make]
  cases hmk : system.mkdir t path mode with
  | error e => exact .refl t
  | ok t' =>
    obtain ⟨node, hfree, hdir, -, rfl⟩ := mkdir_eq_ok (show t.mkdir path mode = .ok t' from hmk)
    exact grown_put

theorem grown_makeAll (mode : Nat) (t : FileTree) (paths : List Bytes) : Grown t (system.makeAll mode t paths) := by
  induction paths generalizing t with
  | nil => exact .refl t
  | cons path paths ih => exact (grown_make mode t path).trans (ih _)

/-- Going down to an old node, only old ones are passed. -/
theorem walk_old (hgrown : Grown t t') (hdown : [46, 46] ∉ ns) (h : t'.walk node ns = .ok node')
    (hold : t.entry node' ≠ none) : t.entry node ≠ none ∧ t.walk node ns = .ok node' := by
  induction ns generalizing node with
  | nil =>
    cases h
    exact ⟨hold, rfl⟩
  | cons name ns ih =>
    rw [List.mem_cons, not_or] at hdown
    obtain ⟨hdir, hnext⟩ := walk_cons_iff.mp h
    obtain ⟨hmoved, hwalk⟩ := ih hdown.2 hnext
    have hhere : t.entry node = some .dir := by
      unfold move at hmoved
      split at hmoved
      · obtain ⟨k, hk⟩ := Option.ne_none_iff_exists'.mp hmoved
        rw [← hdir, hgrown.kept hk, hk]
      · rw [if_neg (Ne.symm hdown.1)] at hmoved
        exact t.parent_dir hmoved
    exact ⟨hhere ▸ Option.some_ne_none _, walk_cons_iff.mpr ⟨hhere, hwalk⟩⟩

/-- Without ".." a path leads to the same files however the tree has grown. -/
theorem kind_other_iff (hgrown : Grown t t') (hdown : [46, 46] ∉ names path) :
    t'.kind path = some .other ↔ t.kind path = some .other := by
  have hstart : t'.start path = t.start path := by rw [start, start, hgrown.cwd]
  rw [kind_eq_some, kind_eq_some]
  constructor
  · intro h
    obtain ⟨node, hnode, hother⟩ := h
    have hold := hgrown.other hother
    refine ⟨node, ?_, hold⟩
    rw [resolve, hstart] at hnode
    rw [resolve]
    split at hnode
    · cases hnode
    · rename_i hne
      rw [if_neg hne]
      exact (walk_old hgrown hdown hnode (hold ▸ Option.some_ne_none _)).2
  · intro h
    obtain ⟨node, hnode, hother⟩ := h
    exact ⟨node, hgrown.resolve hnode, hgrown.kept hother⟩

end FileTree

end Files

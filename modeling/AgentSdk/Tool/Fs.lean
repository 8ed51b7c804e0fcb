import Mathlib.Tactic.SplitIfs
import AgentSdk.Value

/-!
# The file system under the file tool

The calls of the `os` package that the file tool makes act on a file
system of entries and inodes. An entry is a directory, a symbolic link
with its target, or a name of a file, whose bytes sit in an inode that all
the names of the file, its hard links, share. Entries are kept under the
names the system keeps for them (`Paths.fold`): where names are
case-insensitive, two spellings of a path name one entry.

A path is looked up one name at a time from the root (`lookup`, the
kernel's `namei`): a directory is entered, and a symbolic link is followed
by looking up its target with the names left after it, at most 40 links in
one lookup. `os.Stat`, `os.ReadFile` and `os.WriteFile` follow a last link
too; `os.Lstat`, `os.Mkdir` and `os.Remove` act on the last entry itself.
So the entry a write reaches need not be the one a delete reaches, and
neither need lie under the directories the path spells.

## What a change keeps

`MkdirAll` and `WriteFile` only put an entry where there was nothing or a
file, and never a link (`Grows`): every lookup that ended on an entry
before ends on it after (`lookup_of_grows`). On a file system without
links a lookup that succeeds ends on the entry the path's text names
(`lookup_eq_key`), and it keeps succeeding as long as the directories stay
(`lookup_of_dirs`).

`path/filepath` is Go's and the lookup rules are the kernel's; the model
takes what they read as arguments (`Paths`).
-/

namespace ToolBuiltin

/-- **An entry of the file system**: the name of a file, with the inode
that holds its bytes, a directory, or a symbolic link with its target. -/
inductive Node where
  | file (ino : Nat)
  | dir
  | symlink (target : String)
  deriving DecidableEq, Repr

/-- **The file system**: the entry under each name that has one, and the
bytes of each inode. -/
structure Fs where
  names : List (String × Node)
  data : List (List UInt8)

/-- The errors of a lookup: `ENOENT`, `ENOTDIR` and `ELOOP`. -/
inductive Errno where
  | noent | notdir | loop
  deriving DecidableEq, Repr

/-- The text of the error, as Go's `syscall.Errno` prints it. -/
def Errno.text : Errno → String
  | .noent => "no such file or directory"
  | .notdir => "not a directory"
  | .loop => "too many levels of symbolic links"

/-- `MAXSYMLINKS`: Linux follows at most 40 links in one lookup. -/
def maxSymlinks : Nat := 40

/-- **What a lookup reads of `path/filepath` and of the system**: `IsAbs`,
`Join` and `Base`; the path and its ancestors up to the root, innermost
first; and `fold`, the name the system keeps for a path, the path itself
where names are case-sensitive. -/
structure Paths where
  isAbs : String → Bool
  join : String → String → String
  base : String → String
  ancestors : String → List String
  fold : String → String

/-- **The name a path's text gives**: each of its names under the one
before, from the root, as a lookup that meets no link goes. -/
def Paths.key (sys : Paths) (p : String) : String :=
  match (sys.ancestors p).reverse with
  | [] => sys.fold p
  | root :: names => (names.map sys.base).foldl (fun cur c => sys.fold (sys.join cur c)) (sys.fold root)

/-- What `stat` tells of the entry a lookup that follows links ends on: a
directory, or a file with its inode. -/
inductive Info where
  | dir
  | file (ino : Nat)
  deriving DecidableEq, Repr

/-- The entry an `Info` tells of. -/
def Info.node : Info → Node
  | .dir => .dir
  | .file ino => .file ino

namespace Fs

/-- The entry kept under a name. -/
def stat (fs : Fs) (k : String) : Option Node := fs.names.lookup k

/-- The bytes of an inode. -/
def bytes (fs : Fs) (ino : Nat) : List UInt8 := (fs.data[ino]?).getD []

/-- The entry `n` put under `k`. -/
def setName (fs : Fs) (k : String) (n : Node) : Fs := ⟨mapSet fs.names k n, fs.data⟩

/-- The entry under `k` taken away. -/
def unlink (fs : Fs) (k : String) : Fs := ⟨fs.names.filter (·.1 ≠ k), fs.data⟩

@[simp]
theorem stat_setName (fs : Fs) (k q : String) (n : Node) :
    (fs.setName k n).stat q = if q = k then some n else fs.stat q :=
  lookup_mapSet fs.names k q n

@[simp]
theorem stat_unlink (fs : Fs) (k q : String) :
    (fs.unlink k).stat q = if q = k then none else fs.stat q :=
  lookup_filter_ne fs.names k q

theorem stat_of_unlink {fs : Fs} {k q : String} {n : Node} (h : (fs.unlink k).stat q = some n) :
    fs.stat q = some n := by
  rw [stat_unlink] at h
  split_ifs at h
  exact h

@[simp]
theorem bytes_setName (fs : Fs) (k : String) (n : Node) (i : Nat) :
    (fs.setName k n).bytes i = fs.bytes i := rfl

@[simp]
theorem bytes_unlink (fs : Fs) (k : String) (i : Nat) : (fs.unlink k).bytes i = fs.bytes i := rfl

/-! ## Lookup -/

section Lookup

variable (fs : Fs) (sys : Paths)

/-- **One name at a time**, from the directory kept under `cur`, over the
names `cs` left. A directory is entered. A link is followed by looking up,
with `next`, its target and the names left after it, unless it is the last
name and `follow` is not set. A file, or a missing entry, ends the lookup
when it is the last name and is an error otherwise. -/
def walk (next : String → Except Errno String) (follow : Bool) (cur : String) :
    List String → Except Errno String
  | [] => .ok cur
  | c :: cs =>
    let k := sys.fold (sys.join cur c)
    match fs.stat k with
    | some .dir => walk next follow k cs
    | some (.symlink tgt) =>
      if cs = [] ∧ follow = false then .ok k
      else next (cs.foldl sys.join (if sys.isAbs tgt then tgt else sys.join cur tgt))
    | some (.file _) => if cs = [] then .ok k else .error .notdir
    | none => if cs = [] then .ok k else .error .noent

/-- A lookup of `p` from the root, `next` looking up what is left after a
link. -/
def start (next : String → Except Errno String) (follow : Bool) (p : String) :
    Except Errno String :=
  match (sys.ancestors p).reverse with
  | [] => .ok (sys.fold p)
  | root :: names => fs.walk sys next follow (sys.fold root) (names.map sys.base)

/-- **Name lookup** (`namei`): the name kept for the entry a path names,
the links on the way followed, and a last one too when `follow` is set.
After `n` links the next one is `ELOOP`. -/
def lookup : Nat → Bool → String → Except Errno String
  | 0, follow, p => fs.start sys (fun _ => .error .loop) follow p
  | n + 1, follow, p => fs.start sys (lookup n follow) follow p

/-- A lookup as the system makes it. -/
def resolve (follow : Bool) (p : String) : Except Errno String :=
  fs.lookup sys maxSymlinks follow p

/-- **A lookup that follows every link**, with what is at the name it ends
on, `none` where there is nothing. Such a lookup ends on no link: a last
one is followed, so only a root that is a link could leave one, which is
taken as a loop. -/
def locate (p : String) : Except Errno (String × Option Info) :=
  match fs.resolve sys true p with
  | .error e => .error e
  | .ok k =>
    match fs.stat k with
    | none => .ok (k, none)
    | some .dir => .ok (k, some .dir)
    | some (.file ino) => .ok (k, some (.file ino))
    | some (.symlink _) => .error .loop

/-- **`os.Stat`**. -/
def osStat (p : String) : Except Errno Info :=
  match fs.locate sys p with
  | .error e => .error e
  | .ok (_, none) => .error .noent
  | .ok (_, some i) => .ok i

/-- **`os.Lstat`**: the entry a path names, a last link not followed, with
the name it is kept under. -/
def osLstat (p : String) : Except Errno (String × Node) :=
  match fs.resolve sys false p with
  | .error e => .error e
  | .ok k =>
    match fs.stat k with
    | none => .error .noent
    | some n => .ok (k, n)

/-- **`os.MkdirAll`**, on a directory and its ancestors innermost first: it
stops at the first that `os.Stat` finds, fails if that one is not a
directory, and makes the ones below it, outermost first, with `os.Mkdir`,
which puts a directory where the path's last name is kept, a last link not
followed. `Mkdir` fails on an entry already there; one that `os.Lstat` then
finds to be a directory is no error. -/
def mkdirAll : List String → Except GoError Fs
  | [] => .ok fs
  | p :: ps =>
    match fs.osStat sys p with
    | .ok .dir => .ok fs
    | .ok (.file _) => .error ⟨"mkdir " ++ p ++ ": not a directory"⟩
    | .error _ =>
      match mkdirAll ps with
      | .error err => .error err
      | .ok fs' =>
        match fs'.resolve sys false p with
        | .error e => .error ⟨"mkdir " ++ p ++ ": " ++ e.text⟩
        | .ok k =>
          match fs'.stat k with
          | none => .ok (fs'.setName k .dir)
          | some .dir => .ok fs'
          | some _ => .error ⟨"mkdir " ++ p ++ ": file exists"⟩

/-- **`os.WriteFile`**: `open` with `O_CREATE|O_TRUNC` follows every link,
a last one too, truncates the file it ends on and writes it, or makes one
with a fresh inode where there is nothing, and fails on a directory. -/
def writeFile (p : String) (data : List UInt8) : Except GoError Fs :=
  match fs.locate sys p with
  | .error e => .error ⟨"open " ++ p ++ ": " ++ e.text⟩
  | .ok (_, some .dir) => .error ⟨"open " ++ p ++ ": is a directory"⟩
  | .ok (_, some (.file ino)) => .ok ⟨fs.names, fs.data.set ino data⟩
  | .ok (k, none) => .ok ⟨mapSet fs.names k (.file fs.data.length), fs.data ++ [data]⟩

end Lookup

/-! ## What a lookup depends on -/

/-- **A change that only fills**: an entry changes only where there was
nothing or a file, and never into a link. -/
def Grows (fs fs' : Fs) : Prop :=
  ∀ k, fs'.stat k = fs.stat k ∨
    (fs.stat k = none ∨ ∃ i, fs.stat k = some (.file i)) ∧ ∀ tgt, fs'.stat k ≠ some (.symlink tgt)

theorem Grows.refl (fs : Fs) : Grows fs fs := fun _ => .inl rfl

theorem Grows.trans {fs₁ fs₂ fs₃ : Fs} (h₁ : Grows fs₁ fs₂) (h₂ : Grows fs₂ fs₃) : Grows fs₁ fs₃ :=
  fun k => by
    rcases h₁ k with e₁ | ⟨o₁, n₁⟩ <;> rcases h₂ k with e₂ | ⟨o₂, n₂⟩
    · exact .inl (e₂.trans e₁)
    · exact .inr ⟨e₁ ▸ o₂, n₂⟩
    · exact .inr ⟨o₁, e₂ ▸ n₁⟩
    · exact .inr ⟨o₁, n₂⟩

theorem grows_setName {fs : Fs} {k : String} (hk : fs.stat k = none ∨ ∃ i, fs.stat k = some (.file i))
    {n : Node} (hn : ∀ tgt, n ≠ .symlink tgt) : Grows fs (fs.setName k n) := fun q => by
  by_cases hq : q = k
  · subst hq
    exact .inr ⟨hk, fun tgt h => hn tgt (by simpa using h)⟩
  · exact .inl (by simp [hq])

/-- A grown file system keeps every entry that is not a file. -/
theorem Grows.stat_eq {fs fs' : Fs} (hg : Grows fs fs') {k : String} {n : Node}
    (hk : fs.stat k = some n) (hn : ∀ i, n ≠ .file i) : fs'.stat k = some n := by
  rcases hg k with h | ⟨h | ⟨i, h⟩, -⟩
  · rw [h, hk]
  · rw [hk] at h
    cases h
  · rw [hk] at h
    exact absurd (Option.some.inj h) (hn i)

section Frame

variable (sys : Paths) {fs fs' : Fs}

/-- A name under which there is nothing or a file ends a lookup that
succeeds there: it is the last name, and the lookup ends on it. -/
theorem walk_cons_of_leaf {next : String → Except Errno String} {follow : Bool}
    {cur c : String} {cs : List String} {k : String}
    (hleaf : fs.stat (sys.fold (sys.join cur c)) = none ∨
      ∃ i, fs.stat (sys.fold (sys.join cur c)) = some (.file i))
    (h : fs.walk sys next follow cur (c :: cs) = .ok k) :
    cs = [] ∧ k = sys.fold (sys.join cur c) := by
  simp only [walk] at h
  rcases hleaf with hs | ⟨i, hs⟩ <;> rw [hs] at h <;> dsimp only at h <;>
    split_ifs at h with hcs
  all_goals exact ⟨hcs, (Except.ok.inj h).symm⟩

/-- The last name, where there is no link, ends the lookup. -/
theorem walk_last {next : String → Except Errno String} {follow : Bool} {cur c : String}
    (hn : ∀ tgt, fs.stat (sys.fold (sys.join cur c)) ≠ some (.symlink tgt)) :
    fs.walk sys next follow cur [c] = .ok (sys.fold (sys.join cur c)) := by
  simp only [walk]
  rcases hs : fs.stat (sys.fold (sys.join cur c)) with _ | ⟨_ | _ | tgt⟩
  · simp
  · simp
  · rfl
  · exact absurd hs (hn tgt)

theorem walk_of_grows (hg : Grows fs fs') {next next' : String → Except Errno String}
    (hnext : ∀ p k, next p = .ok k → next' p = .ok k) (follow : Bool) :
    ∀ (cur : String) (cs : List String) {k : String},
      fs.walk sys next follow cur cs = .ok k → fs'.walk sys next' follow cur cs = .ok k
  | _, [], _, h => h
  | cur, c :: cs, k, h => by
    rcases hg (sys.fold (sys.join cur c)) with heq | ⟨hold, hnew⟩
    · simp only [walk] at h ⊢
      rw [heq]
      rcases hs : fs.stat (sys.fold (sys.join cur c)) with _ | ⟨i | _ | tgt⟩ <;>
        rw [hs] at h <;> dsimp only at h ⊢
      · exact h
      · exact h
      · exact walk_of_grows hg hnext follow _ cs h
      · by_cases hc : cs = [] ∧ follow = false
        · rw [if_pos hc] at h ⊢
          exact h
        · rw [if_neg hc] at h ⊢
          exact hnext _ _ h
    · obtain ⟨rfl, rfl⟩ := walk_cons_of_leaf sys hold h
      exact walk_last sys hnew

theorem start_of_grows (hg : Grows fs fs') {next next' : String → Except Errno String}
    (hnext : ∀ p k, next p = .ok k → next' p = .ok k) (follow : Bool) (p : String) {k : String}
    (h : fs.start sys next follow p = .ok k) : fs'.start sys next' follow p = .ok k := by
  unfold start at h ⊢
  split at h
  · exact h
  · exact walk_of_grows sys hg hnext follow _ _ h

/-- **A lookup survives a change that only fills.** -/
theorem lookup_of_grows (hg : Grows fs fs') :
    ∀ (n : Nat) (follow : Bool) (p : String) {k : String},
      fs.lookup sys n follow p = .ok k → fs'.lookup sys n follow p = .ok k
  | 0, follow, p, _, h => start_of_grows sys hg (fun _ _ h => by cases h) follow p h
  | n + 1, follow, p, _, h =>
    start_of_grows sys hg (fun q _ => lookup_of_grows hg n follow q) follow p h

theorem resolve_of_grows (hg : Grows fs fs') {follow : Bool} {p k : String}
    (h : fs.resolve sys follow p = .ok k) : fs'.resolve sys follow p = .ok k :=
  lookup_of_grows sys hg _ follow p h

/-- No entry is a symbolic link. -/
def NoSymlinks (fs : Fs) : Prop := ∀ k tgt, fs.stat k ≠ some (.symlink tgt)

/-- Without links, a name is a directory, or ends the lookup. -/
theorem leaf_of_not_dir (h : NoSymlinks fs) {k : String} (hk : fs.stat k ≠ some .dir) :
    fs.stat k = none ∨ ∃ i, fs.stat k = some (.file i) := by
  rcases hs : fs.stat k with _ | ⟨i | _ | tgt⟩
  · exact .inl rfl
  · exact .inr ⟨i, rfl⟩
  · exact absurd hs hk
  · exact absurd hs (h k tgt)

theorem walk_of_dirs (h : NoSymlinks fs) (h' : NoSymlinks fs')
    (hd : ∀ k, fs.stat k = some .dir → fs'.stat k = some .dir)
    (next next' : String → Except Errno String) (follow : Bool) :
    ∀ (cur : String) (cs : List String) {k : String},
      fs.walk sys next follow cur cs = .ok k → fs'.walk sys next' follow cur cs = .ok k
  | _, [], _, hw => hw
  | cur, c :: cs, k, hw => by
    by_cases hdir : fs.stat (sys.fold (sys.join cur c)) = some .dir
    · simp only [walk, hdir, hd _ hdir] at hw ⊢
      exact walk_of_dirs h h' hd next next' follow _ cs hw
    · obtain ⟨rfl, rfl⟩ := walk_cons_of_leaf sys (leaf_of_not_dir h hdir) hw
      exact walk_last sys (h' _)

/-- **Without links, a lookup survives as long as the directories stay.** -/
theorem lookup_of_dirs (h : NoSymlinks fs) (h' : NoSymlinks fs')
    (hd : ∀ k, fs.stat k = some .dir → fs'.stat k = some .dir) (n : Nat) (follow : Bool)
    (p : String) {k : String} (hl : fs.lookup sys n follow p = .ok k) :
    fs'.lookup sys n follow p = .ok k := by
  cases n <;>
  · unfold lookup start at hl ⊢
    split at hl
    · exact hl
    · exact walk_of_dirs sys h h' hd _ _ follow _ _ hl

theorem walk_eq_foldl (h : NoSymlinks fs) (next : String → Except Errno String) (follow : Bool) :
    ∀ (cur : String) (cs : List String) {k : String}, fs.walk sys next follow cur cs = .ok k →
      k = cs.foldl (fun cur c => sys.fold (sys.join cur c)) cur
  | _, [], _, hw => (Except.ok.inj hw).symm
  | cur, c :: cs, k, hw => by
    by_cases hdir : fs.stat (sys.fold (sys.join cur c)) = some .dir
    · simp only [walk, hdir] at hw
      exact walk_eq_foldl h next follow _ cs hw
    · obtain ⟨rfl, rfl⟩ := walk_cons_of_leaf sys (leaf_of_not_dir h hdir) hw
      rfl

/-- **Without links, a lookup ends on the name the path's text gives.** -/
theorem lookup_eq_key (h : NoSymlinks fs) (n : Nat) (follow : Bool) (p : String) {k : String}
    (hl : fs.lookup sys n follow p = .ok k) : k = sys.key p := by
  cases n <;>
  · unfold lookup start at hl
    unfold Paths.key
    split at hl
    · exact (Except.ok.inj hl).symm
    · exact walk_eq_foldl sys h _ follow _ _ hl

end Frame

/-! ## What the calls do -/

section Calls

variable (sys : Paths) {fs fs' : Fs}

theorem locate_ok {p k : String} {oi : Option Info} (h : fs.locate sys p = .ok (k, oi)) :
    fs.resolve sys true p = .ok k ∧ fs.stat k = oi.map Info.node := by
  unfold locate at h
  split at h
  · cases h
  · rename_i k' hk'
    split at h <;> rename_i hs <;> cases h
    all_goals exact ⟨hk', by rw [hs]; rfl⟩

/-- **`MkdirAll` only makes directories**, where there was nothing, each
under the name one of the paths it was given names, its last link not
followed. -/
theorem mkdirAll_spec : ∀ {as : List String} {fs' : Fs}, fs.mkdirAll sys as = .ok fs' →
    Grows fs fs' ∧ fs'.data = fs.data ∧
      ∀ q, fs'.stat q ≠ fs.stat q →
        fs.stat q = none ∧ fs'.stat q = some .dir ∧ ∃ a ∈ as, fs'.resolve sys false a = .ok q
  | [], _, h => by
    cases h
    exact ⟨Grows.refl _, rfl, fun _ hq => absurd rfl hq⟩
  | p :: ps, _, h => by
    unfold mkdirAll at h
    split at h
    · cases h
      exact ⟨Grows.refl _, rfl, fun _ hq => absurd rfl hq⟩
    · cases h
    split at h
    · cases h
    rename_i fs1 h1
    obtain ⟨hg1, hd1, hc1⟩ := mkdirAll_spec h1
    split at h
    · cases h
    rename_i k hk
    have hmono : ∀ {fs₂ : Fs}, Grows fs1 fs₂ → ∀ q, (fs1.stat q ≠ fs.stat q →
        fs.stat q = none ∧ fs1.stat q = some .dir ∧ ∃ a ∈ ps, fs1.resolve sys false a = .ok q) →
        fs1.stat q ≠ fs.stat q →
        ∃ a ∈ p :: ps, fs₂.resolve sys false a = .ok q := fun hg q hc hq => by
      obtain ⟨-, -, a, ha, hr⟩ := hc hq
      exact ⟨a, List.mem_cons_of_mem _ ha, resolve_of_grows sys hg hr⟩
    split at h
    · rename_i hnone
      cases h
      have hg2 := grows_setName (Or.inl hnone) (n := .dir) nofun
      refine ⟨hg1.trans hg2, hd1, fun q hq => ?_⟩
      by_cases hqk : q = k
      · subst hqk
        have h0 : fs.stat q = none := Classical.byContradiction fun hne => by
          have := (hc1 q (by rw [hnone]; exact Ne.symm hne)).2.1
          rw [hnone] at this
          cases this
        exact ⟨h0, by simp, p, List.mem_cons_self _ _, resolve_of_grows sys hg2 hk⟩
      · rw [stat_setName, if_neg hqk] at hq ⊢
        obtain ⟨h0, hdir, -⟩ := hc1 q hq
        exact ⟨h0, hdir, hmono hg2 q (hc1 q) hq⟩
    · cases h
      exact ⟨hg1, hd1, fun q hq => ⟨(hc1 q hq).1, (hc1 q hq).2.1,
        hmono (Grows.refl _) q (hc1 q) hq⟩⟩
    · cases h

/-- **`WriteFile` truncates the file a path names, links followed, or
makes one under a fresh inode where there is nothing.** -/
theorem writeFile_cases {p : String} {data : List UInt8} (h : fs.writeFile sys p data = .ok fs') :
    ∃ k, fs.resolve sys true p = .ok k ∧
      ((∃ ino, fs.stat k = some (.file ino) ∧ fs' = ⟨fs.names, fs.data.set ino data⟩) ∨
        fs.stat k = none ∧
          fs' = ⟨mapSet fs.names k (.file fs.data.length), fs.data ++ [data]⟩) := by
  unfold writeFile at h
  split at h
  · cases h
  · cases h
  · rename_i k ino hl
    cases h
    obtain ⟨hr, hs⟩ := locate_ok sys hl
    exact ⟨k, hr, .inl ⟨ino, hs, rfl⟩⟩
  · rename_i k hl
    cases h
    obtain ⟨hr, hs⟩ := locate_ok sys hl
    exact ⟨k, hr, .inr ⟨hs, rfl⟩⟩

/-- What `WriteFile` changes: the entry it ends on, and the bytes of the
file there. -/
theorem writeFile_spec {p : String} {data : List UInt8} (h : fs.writeFile sys p data = .ok fs') :
    Grows fs fs' ∧ ∃ k ino, fs'.resolve sys true p = .ok k ∧ fs'.stat k = some (.file ino) ∧
      (∀ q ≠ k, fs'.stat q = fs.stat q) ∧ ∀ j ≠ ino, fs'.bytes j = fs.bytes j := by
  obtain ⟨k, hr, ⟨ino, hs, rfl⟩ | ⟨hs, rfl⟩⟩ := writeFile_cases sys h
  · have hg : Grows fs ⟨fs.names, fs.data.set ino data⟩ := fun _ => .inl rfl
    refine ⟨hg, k, ino, resolve_of_grows sys hg hr, hs, fun _ _ => rfl, fun j hj => ?_⟩
    simp [bytes, List.getElem?_set, Ne.symm hj]
  · have hg : Grows fs ⟨mapSet fs.names k (.file fs.data.length), fs.data ++ [data]⟩ :=
      fun q => grows_setName (Or.inl hs) (n := .file fs.data.length) nofun q
    refine ⟨hg, k, fs.data.length, resolve_of_grows sys hg hr, by simp [stat, lookup_mapSet],
      fun q hq => by simp [stat, lookup_mapSet, hq], fun j hj => ?_⟩
    rcases Nat.lt_or_ge j fs.data.length with hlt | hge
    · simp only [bytes, List.getElem?_append_left hlt]
    · have hgt : fs.data.length + 1 ≤ j := by omega
      simp only [bytes, List.getElem?_eq_none hge,
        List.getElem?_eq_none (show (fs.data ++ [data]).length ≤ j by simpa using hgt)]

theorem osLstat_ok {p k : String} {n : Node} (h : fs.osLstat sys p = .ok (k, n)) :
    fs.resolve sys false p = .ok k ∧ fs.stat k = some n := by
  unfold osLstat at h
  split at h
  · cases h
  · rename_i k' hk'
    split at h
    · cases h
    · rename_i n' hn'
      cases h
      exact ⟨hk', hn'⟩

/-! ## File systems without links -/

/-- **A file system without links**: no symbolic link, each file under one
name, and its inode within the table. -/
structure NoLinks (fs : Fs) : Prop where
  no_symlinks : NoSymlinks fs
  one_name : ∀ k k' i, fs.stat k = some (.file i) → fs.stat k' = some (.file i) → k = k'
  ino_lt : ∀ k i, fs.stat k = some (.file i) → i < fs.data.length

theorem mem_of_lookup {β : Type} : ∀ {l : List (String × β)} {k : String} {v : β},
    l.lookup k = some v → (k, v) ∈ l
  | [], _, _, h => nomatch h
  | (k', v') :: l, k, v, h => by
    rw [lookup_cons_eq] at h
    split_ifs at h with hk
    · cases h
      exact hk ▸ List.mem_cons_self _ _
    · exact List.mem_cons_of_mem _ (mem_of_lookup h)

/-- A file system of directories alone has no link. -/
theorem noLinks_of_dirs (h : ∀ e ∈ fs.names, e.2 = .dir) : fs.NoLinks := by
  have hd : ∀ k n, fs.stat k = some n → n = .dir := fun k n hk => h _ (mem_of_lookup hk)
  exact ⟨(fun k tgt hk => nomatch hd k _ hk), (fun k _ i hk => nomatch hd k _ hk),
    (fun k i hk => nomatch hd k _ hk)⟩

/-- `MkdirAll` makes no link. -/
theorem NoLinks.mkdirAll (hfs : fs.NoLinks) {as : List String} (h : fs.mkdirAll sys as = .ok fs') :
    fs'.NoLinks := by
  obtain ⟨-, hdata, hc⟩ := mkdirAll_spec sys h
  have hkeep : ∀ k n, fs'.stat k = some n → n = .dir ∨ fs.stat k = some n := fun k n hk => by
    by_cases hq : fs'.stat k = fs.stat k
    · exact .inr (hq ▸ hk)
    · exact .inl (Option.some.inj ((hc k hq).2.1 ▸ hk).symm)
  refine ⟨fun k tgt hk => ?_, fun k k' i hk hk' => ?_, fun k i hk => ?_⟩
  · rcases hkeep k _ hk with h | h
    · cases h
    · exact hfs.no_symlinks k tgt h
  · rcases hkeep k _ hk with h | h
    · cases h
    rcases hkeep k' _ hk' with h' | h'
    · cases h'
    exact hfs.one_name k k' i h h'
  · rcases hkeep k _ hk with h | h
    · cases h
    exact hdata ▸ hfs.ino_lt k i h

/-- **On a file system without links, `WriteFile` makes no link**, and
the file a lookup of the path ends on holds the bytes written. -/
theorem NoLinks.writeFile (hfs : fs.NoLinks) {p : String} {data : List UInt8}
    (h : fs.writeFile sys p data = .ok fs') :
    fs'.NoLinks ∧ ∃ k ino, fs'.resolve sys true p = .ok k ∧ fs'.stat k = some (.file ino) ∧
      fs'.bytes ino = data := by
  have hg := (writeFile_spec sys h).1
  obtain ⟨k, hr, ⟨ino, hs, rfl⟩ | ⟨hs, rfl⟩⟩ := writeFile_cases sys h
  · have hlt := hfs.ino_lt k ino hs
    refine ⟨⟨hfs.no_symlinks, hfs.one_name, fun k i hk => by simpa using hfs.ino_lt k i hk⟩,
      k, ino, resolve_of_grows sys hg hr, hs, ?_⟩
    simp [bytes, List.getElem?_set_self hlt]
  · have hst : ∀ q, Fs.stat ⟨mapSet fs.names k (.file fs.data.length), fs.data ++ [data]⟩ q =
        if q = k then some (.file fs.data.length) else fs.stat q := fun q => lookup_mapSet _ _ _ _
    refine ⟨⟨fun q tgt hq => ?_, fun q q' i hq hq' => ?_, fun q i hq => ?_⟩, k, fs.data.length,
      resolve_of_grows sys hg hr, by rw [hst, if_pos rfl], by simp [bytes]⟩
    · rw [hst] at hq
      split_ifs at hq
      · cases hq
      · exact hfs.no_symlinks q tgt hq
    · rw [hst] at hq hq'
      split_ifs at hq hq' with h1 h2 h2
      · exact h1.trans h2.symm
      · cases hq
        exact absurd (hfs.ino_lt q' _ hq') (Nat.lt_irrefl _)
      · cases hq'
        exact absurd (hfs.ino_lt q _ hq) (Nat.lt_irrefl _)
      · exact hfs.one_name q q' i hq hq'
    · rw [hst] at hq
      rw [List.length_append, List.length_singleton]
      split_ifs at hq
      · cases hq
        exact Nat.lt_succ_self _
      · exact Nat.lt_succ_of_lt (hfs.ino_lt q i hq)

/-- Taking an entry away makes no link. -/
theorem NoLinks.unlink (hfs : fs.NoLinks) (k : String) : (fs.unlink k).NoLinks where
  no_symlinks q tgt hq := hfs.no_symlinks q tgt (stat_of_unlink hq)
  one_name q q' i hq hq' := hfs.one_name q q' i (stat_of_unlink hq) (stat_of_unlink hq')
  ino_lt q i hq := hfs.ino_lt q i (stat_of_unlink hq)

end Calls

end Fs

end ToolBuiltin

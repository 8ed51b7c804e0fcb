import AgentSdk.Text
import AgentSdk.Tool.Validator
import AgentSdk.Tool.Fs

/-!
# The file tool

`FileTool.Execute` reads, writes or deletes one file. It parses the
operation, resolves the path against the tool's root, has the sandbox
validate the result, checks the context, and only then touches the file
system (`Tool/Fs.lean`): `readFile` refuses a directory and a file over the
size limit, `writeFile` refuses content over the limit, makes the parent
directories and writes the file, and `deleteFile` refuses a missing file
and a directory. Calls act one after another, as a run.

## What a run can change

The sandbox validates a path on the file system as it stands; the system
then looks the path up, a write following every link on the way and a
delete all but the last. Whatever calls a run makes, an entry it changes is
the one that a path the sandbox accepted names for the write or for the
delete, or a directory `MkdirAll` made where there was nothing, on the way
to such a path; and a file whose bytes change is the one such a path names
for the write (`run_confined`). So a link takes a write wherever it points
unless the sandbox looks links up itself, as the repository's tests require
of it (`run_confined_link`). A directory stays a directory
(`run_dir_stays`). The tool makes no link (`execute_noLinks`), and on a
file system without links, what a write puts at a path is what a read of it
returns, whatever calls come between, so long as none of them names the
same entry (`run_read_after_write`).

`coerceString`, `resolveRoot` and the package `security`, whose `Sandbox`
validates paths, are not among the sources, and `path/filepath` is Go's;
the model takes them as arguments (`Env`, `Sandbox`). A context is modelled
by what its `Err()` returns, `none` standing for a nil context.
-/

namespace ToolBuiltin

open GoString

/-- `defaultMaxFileBytes`: 1 MiB. -/
def defaultMaxFileBytes : Int := 2 ^ 20

/-- `[]byte(s)`: the UTF-8 bytes of a string. A Go string is its bytes, so
`string(data)` is `data` itself. -/
def goBytes (s : String) : List UInt8 := s.toUTF8.data.toList

/-- **What the file tool reads from outside the repository's code**:
`coerceString`, `path/filepath`'s `Clean` and `Dir`, and what a lookup
reads (`Paths`). -/
structure Env extends Paths where
  coerceString : Value → Except GoError String
  clean : String → String
  dir : String → String

/-- **`security.Sandbox`**, by its `ValidatePath`, which may look the path
up on the file system. -/
structure Sandbox where
  validatePath : Fs → String → Option GoError

/-- **`FileTool`**; a nil `sandbox` is `none`. -/
structure FileTool where
  sandbox : Option Sandbox
  root : String
  maxBytes : Int

/-- **`NewFileToolWithRoot`**, with `resolveRoot` and `security.NewSandbox`. -/
def newFileToolWithRoot (resolveRoot : String → String) (newSandbox : String → Sandbox)
    (root : String) : FileTool :=
  let resolved := resolveRoot root
  ⟨some (newSandbox resolved), resolved, defaultMaxFileBytes⟩

/-- **`NewFileTool`**. -/
def newFileTool (resolveRoot : String → String) (newSandbox : String → Sandbox) : FileTool :=
  newFileToolWithRoot resolveRoot newSandbox ""

/-- **The `*ToolResult` of a call that succeeds**: `Success`, `Output`, and
the data map's `operation`, `path` and `size`, which `deleteFile` leaves
out. -/
structure FileResult where
  Success : Bool
  Output : List UInt8
  operation : String
  path : String
  size : Option Nat
  deriving DecidableEq, Repr

/-- `f.maxBytes > 0 && int64(n) > f.maxBytes`. -/
def FileTool.exceeds (f : FileTool) (n : Nat) : Bool :=
  decide (0 < f.maxBytes) && decide (f.maxBytes < n)

variable (env : Env)

/-- **`parseOperation`**. -/
def parseOperation (params : Option ValueMap) : Except GoError String :=
  match params with
  | none => .error ⟨"params is nil"⟩
  | some m =>
    match m.get? "operation" with
    | none => .error ⟨"operation is required"⟩
    | some raw =>
      match env.coerceString raw with
      | .error err => .error ⟨"operation must be string: " ++ err.Error⟩
      | .ok op =>
        let op := toLower (trimSpace op)
        if op = "read" ∨ op = "write" ∨ op = "delete" then .ok op
        else .error ⟨"operation " ++ quote op ++ " is not supported"⟩

/-- **`resolvePath`**, with the tool's sandbox `sb`, on the file system
`fs`. -/
def FileTool.resolvePath (f : FileTool) (sb : Sandbox) (fs : Fs) (params : Option ValueMap) :
    Except GoError String :=
  match params.bind (·.get? "path") with
  | none => .error ⟨"path is required"⟩
  | some raw =>
    match env.coerceString raw with
    | .error err => .error ⟨"path must be string: " ++ err.Error⟩
    | .ok pathStr =>
      let trimmed := trimSpace pathStr
      if trimmed = "" then .error ⟨"path cannot be empty"⟩
      else
        let candidate := env.clean (if env.isAbs trimmed then trimmed else env.join f.root trimmed)
        match sb.validatePath fs candidate with
        | some err => .error err
        | none => .ok candidate

/-- **`readFile`**. `os.ReadFile` reads the file `os.Stat` found, so its
second check of the length, on the bytes read, is the first again. -/
def FileTool.readFile (f : FileTool) (fs : Fs) (path : String) : Except GoError FileResult :=
  match fs.osStat env.toPaths path with
  | .error e => .error ⟨"stat file: stat " ++ path ++ ": " ++ e.text⟩
  | .ok .dir => .error ⟨path ++ " is a directory"⟩
  | .ok (.file ino) =>
    if f.exceeds (fs.bytes ino).length then
      .error ⟨"file exceeds " ++ toString f.maxBytes ++ " bytes limit"⟩
    else .ok ⟨true, fs.bytes ino, "read", path, some (fs.bytes ino).length⟩

/-- **`writeFile`**: the result and the file system after the call. -/
def FileTool.writeFile (f : FileTool) (fs : Fs) (path : String) (params : Option ValueMap) :
    Except GoError FileResult × Fs :=
  match params.bind (·.get? "content") with
  | none => (.error ⟨"content is required for write"⟩, fs)
  | some raw =>
    match env.coerceString raw with
    | .error err => (.error ⟨"content must be string: " ++ err.Error⟩, fs)
    | .ok content =>
      let data := goBytes content
      if f.exceeds data.length then
        (.error ⟨"content exceeds " ++ toString f.maxBytes ++ " bytes limit"⟩, fs)
      else
        match fs.mkdirAll env.toPaths (env.ancestors (env.dir path)) with
        | .error err => (.error ⟨"ensure directory: " ++ err.Error⟩, fs)
        | .ok fs =>
          match fs.writeFile env.toPaths path data with
          | .error err => (.error ⟨"write file: " ++ err.Error⟩, fs)
          | .ok fs =>
            (.ok ⟨true, goBytes ("wrote " ++ toString data.length ++ " bytes"), "write", path,
              some data.length⟩, fs)

/-- **`deleteFile`**: the result and the file system after the call.
`os.Remove` looks the path up again, on the same file system, to the entry
`os.Lstat` found, and takes it away. -/
def FileTool.deleteFile (fs : Fs) (path : String) : Except GoError FileResult × Fs :=
  match fs.osLstat env.toPaths path with
  | .error .noent => (.error ⟨"file does not exist: " ++ path⟩, fs)
  | .error e => (.error ⟨"stat file: lstat " ++ path ++ ": " ++ e.text⟩, fs)
  | .ok (_, .dir) => (.error ⟨"refusing to delete directory " ++ path⟩, fs)
  | .ok (k, _) => (.ok ⟨true, goBytes "file deleted", "delete", path, none⟩, fs.unlink k)

/-- **`Execute`** on the file system `fs`, for a tool that may be nil: the
result and the file system after the call. -/
def FileTool.execute (f : Option FileTool) (ctx : Option (Option GoError))
    (params : Option ValueMap) (fs : Fs) : Except GoError FileResult × Fs :=
  match ctx, f with
  | none, _ => (.error ⟨"context is nil"⟩, fs)
  | some _, none => (.error ⟨"file tool is not initialised"⟩, fs)
  | some ctxErr, some f =>
    match f.sandbox with
    | none => (.error ⟨"file tool is not initialised"⟩, fs)
    | some sb =>
      match parseOperation env params with
      | .error err => (.error err, fs)
      | .ok op =>
        match f.resolvePath env sb fs params with
        | .error err => (.error err, fs)
        | .ok target =>
          match ctxErr with
          | some err => (.error err, fs)
          | none =>
            if op = "read" then (f.readFile env fs target, fs)
            else if op = "write" then f.writeFile env fs target params
            else if op = "delete" then FileTool.deleteFile env fs target
            else (.error ⟨"unsupported operation " ++ op⟩, fs)

/-- **A call of `Execute`**: its context and its parameters. -/
structure FileCall where
  ctx : Option (Option GoError)
  params : Option ValueMap

/-- **A run**: calls one after another on the file system; the file system
after them, and the result of each. -/
def FileTool.run (f : Option FileTool) (fs : Fs) : List FileCall → Fs × List (Except GoError FileResult)
  | [] => (fs, [])
  | c :: cs =>
    let r := FileTool.execute env f c.ctx c.params fs
    ((FileTool.run f r.2 cs).1, r.1 :: (FileTool.run f r.2 cs).2)

/-! ## The pieces of a call -/

/-- A path the tool resolves is one the sandbox accepted. -/
theorem resolvePath_validated {f : FileTool} {sb : Sandbox} {fs : Fs} {params : Option ValueMap}
    {t : String} (h : f.resolvePath env sb fs params = .ok t) : sb.validatePath fs t = none := by
  unfold FileTool.resolvePath at h
  split at h
  · cases h
  split at h
  · cases h
  dsimp only at h
  split at h
  · cases h
  split at h <;> cases h
  assumption

/-- `writeFile` changes nothing, or `MkdirAll` made the directories, and
the file is written or the write refused. -/
theorem writeFile_cases (f : FileTool) (fs : Fs) (t : String) (params : Option ValueMap) :
    (f.writeFile env fs t params).2 = fs ∨
      ∃ fs1, fs.mkdirAll env.toPaths (env.ancestors (env.dir t)) = .ok fs1 ∧
        ((f.writeFile env fs t params).2 = fs1 ∨
          ∃ data, fs1.writeFile env.toPaths t data = .ok (f.writeFile env fs t params).2) := by
  unfold FileTool.writeFile
  split
  · exact .inl rfl
  split
  · exact .inl rfl
  dsimp only
  split_ifs
  · exact .inl rfl
  split
  · exact .inl rfl
  rename_i fs1 hm
  refine .inr ⟨fs1, hm, ?_⟩
  split
  · exact .inl rfl
  · rename_i hw
    exact .inr ⟨_, hw⟩

/-- A write that succeeds made the directories and wrote the content's
bytes, within the limit. -/
theorem writeFile_ok {f : FileTool} {fs : Fs} {t : String} {raw : Value} {c : String}
    {params : Option ValueMap} {r : FileResult}
    (hraw : params.bind (·.get? "content") = some raw) (hc : env.coerceString raw = .ok c)
    (hw : (f.writeFile env fs t params).1 = .ok r) :
    ∃ fs1, fs.mkdirAll env.toPaths (env.ancestors (env.dir t)) = .ok fs1 ∧
      fs1.writeFile env.toPaths t (goBytes c) = .ok (f.writeFile env fs t params).2 ∧
      f.exceeds (goBytes c).length = false := by
  unfold FileTool.writeFile at hw ⊢
  simp only [hraw, hc] at hw ⊢
  by_cases hex : f.exceeds (goBytes c).length = true
  · rw [if_pos hex] at hw
    cases hw
  rw [if_neg hex] at hw ⊢
  rcases hm : fs.mkdirAll env.toPaths (env.ancestors (env.dir t)) with err | fs1
  · rw [hm] at hw
    cases hw
  rcases hw2 : fs1.writeFile env.toPaths t (goBytes c) with err | fs2 <;> simp only [hm, hw2] at hw ⊢
  · cases hw
  · exact ⟨fs1, rfl, hw2, Bool.eq_false_iff.mpr hex⟩

/-- `deleteFile` changes nothing, or takes away the entry that is not a
directory and that the path names, its last link not followed. -/
theorem deleteFile_cases (fs : Fs) (t : String) :
    (FileTool.deleteFile env fs t).2 = fs ∨
      ∃ k n, fs.osLstat env.toPaths t = .ok (k, n) ∧ n ≠ .dir ∧
        (FileTool.deleteFile env fs t).2 = fs.unlink k := by
  unfold FileTool.deleteFile
  rcases hl : fs.osLstat env.toPaths t with e | ⟨k, n⟩
  · cases e <;> exact .inl rfl
  · cases n with
    | dir => exact .inl rfl
    | file i => exact .inr ⟨k, _, rfl, nofun, rfl⟩
    | symlink tgt => exact .inr ⟨k, _, rfl, nofun, rfl⟩

/-! ## What one call can do -/

section Step

variable {env} {f : FileTool} {sb : Sandbox} (hsb : f.sandbox = some sb)
  {ctx : Option (Option GoError)} {params : Option ValueMap} {fs : Fs}
include hsb

/-- **What one call does to the file system**: nothing, or, at the path
`t` the sandbox accepted, a write after `MkdirAll` made the directories
(which stay when the write is refused), or the removal of an entry that is
not a directory. -/
theorem execute_cases :
    (FileTool.execute env (some f) ctx params fs).2 = fs ∨
      ∃ t, f.resolvePath env sb fs params = .ok t ∧
        ((∃ fs1, fs.mkdirAll env.toPaths (env.ancestors (env.dir t)) = .ok fs1 ∧
            ((FileTool.execute env (some f) ctx params fs).2 = fs1 ∨
              ∃ data, fs1.writeFile env.toPaths t data =
                .ok (FileTool.execute env (some f) ctx params fs).2)) ∨
          ∃ k n, fs.osLstat env.toPaths t = .ok (k, n) ∧ n ≠ .dir ∧
            (FileTool.execute env (some f) ctx params fs).2 = fs.unlink k) := by
  unfold FileTool.execute
  rcases ctx with _ | ctxErr
  · exact .inl rfl
  dsimp only
  rw [hsb]
  dsimp only
  rcases parseOperation env params with err | op
  · exact .inl rfl
  rcases ht : f.resolvePath env sb fs params with err | t
  · exact .inl rfl
  rcases ctxErr with _ | err
  swap
  · exact .inl rfl
  dsimp only
  split_ifs
  · exact .inl rfl
  · exact (writeFile_cases env f fs t params).imp_right fun h => ⟨t, rfl, .inl h⟩
  · exact (deleteFile_cases env fs t).imp_right fun h => ⟨t, rfl, .inr h⟩
  · exact .inl rfl

/-- **A call leaves a directory a directory.** -/
theorem execute_dir {q : String} (hq : fs.stat q = some .dir) :
    Fs.stat (FileTool.execute env (some f) ctx params fs).2 q = some .dir := by
  rcases execute_cases hsb with heq | ⟨t, -, ⟨fs1, hm, heq | ⟨data, hw⟩⟩ | ⟨k, n, hl, hn, heq⟩⟩
  · rw [heq, hq]
  · rw [heq]
    exact (Fs.mkdirAll_spec _ hm).1.stat_eq hq nofun
  · exact (Fs.writeFile_spec _ hw).1.stat_eq ((Fs.mkdirAll_spec _ hm).1.stat_eq hq nofun) nofun
  · have hqk : q ≠ k := by
      rintro rfl
      exact hn (Option.some.inj ((Fs.osLstat_ok _ hl).2.symm.trans hq))
    rw [heq, Fs.stat_unlink, if_neg hqk, hq]

/-- **What one call changes of the entries**: the entry its path names for
the write, links followed, or for the delete, a last link not followed; or
a directory `MkdirAll` made where there was nothing, under the name an
ancestor of the path's directory has after the call. -/
theorem execute_change {q : String}
    (h : Fs.stat (FileTool.execute env (some f) ctx params fs).2 q ≠ fs.stat q) :
    ∃ t, f.resolvePath env sb fs params = .ok t ∧
      (Fs.resolve (FileTool.execute env (some f) ctx params fs).2 env.toPaths true t = .ok q ∨
        fs.resolve env.toPaths false t = .ok q ∨
        fs.stat q = none ∧ Fs.stat (FileTool.execute env (some f) ctx params fs).2 q = some .dir ∧
          ∃ a ∈ env.ancestors (env.dir t),
            Fs.resolve (FileTool.execute env (some f) ctx params fs).2 env.toPaths false a =
              .ok q) := by
  rcases execute_cases hsb with heq | ⟨t, ht, ⟨fs1, hm, heq | ⟨data, hw⟩⟩ | ⟨k, n, hl, -, heq⟩⟩
  · exact absurd (by rw [heq]) h
  · rw [heq] at h ⊢
    exact ⟨t, ht, .inr (.inr ((Fs.mkdirAll_spec _ hm).2.2 q h))⟩
  · obtain ⟨hg, k, ino, hr, -, hkeep, -⟩ := Fs.writeFile_spec _ hw
    refine ⟨t, ht, ?_⟩
    by_cases hqk : q = k
    · exact .inl (hqk ▸ hr)
    · rw [hkeep q hqk] at h ⊢
      obtain ⟨hnone, hdir, a, ha, hra⟩ := (Fs.mkdirAll_spec _ hm).2.2 q h
      exact .inr (.inr ⟨hnone, hdir, a, ha, Fs.resolve_of_grows _ hg hra⟩)
  · refine ⟨t, ht, .inr (.inl ?_)⟩
    rw [heq, Fs.stat_unlink] at h
    by_cases hqk : q = k
    · exact hqk ▸ (Fs.osLstat_ok _ hl).1
    · rw [if_neg hqk] at h
      exact absurd rfl h

/-- **What one call changes of the bytes**: those of the file its path
names for the write, links followed. -/
theorem execute_bytes {ino : Nat}
    (h : (FileTool.execute env (some f) ctx params fs).2.bytes ino ≠ fs.bytes ino) :
    ∃ t, f.resolvePath env sb fs params = .ok t ∧ ∃ k,
      Fs.resolve (FileTool.execute env (some f) ctx params fs).2 env.toPaths true t = .ok k ∧
        Fs.stat (FileTool.execute env (some f) ctx params fs).2 k = some (.file ino) := by
  rcases execute_cases hsb with heq | ⟨t, ht, ⟨fs1, hm, heq | ⟨data, hw⟩⟩ | ⟨k, n, -, -, heq⟩⟩
  · exact absurd (by rw [heq]) h
  · rw [heq, Fs.bytes, (Fs.mkdirAll_spec _ hm).2.1] at h
    exact absurd rfl h
  · obtain ⟨-, k, ino', hr, hs, -, hbytes⟩ := Fs.writeFile_spec _ hw
    by_cases hi : ino = ino'
    · exact ⟨t, ht, k, hr, hi ▸ hs⟩
    · rw [hbytes ino hi, Fs.bytes, (Fs.mkdirAll_spec _ hm).2.1] at h
      exact absurd rfl h
  · rw [heq, Fs.bytes_unlink] at h
    exact absurd rfl h

/-- **The tool makes no link.** A call on a file system without links
leaves one without links. -/
theorem execute_noLinks (hfs : fs.NoLinks) :
    (FileTool.execute env (some f) ctx params fs).2.NoLinks := by
  rcases execute_cases hsb with heq | ⟨t, -, ⟨fs1, hm, heq | ⟨data, hw⟩⟩ | ⟨k, n, -, -, heq⟩⟩
  · rwa [heq]
  · rw [heq]
    exact hfs.mkdirAll _ hm
  · exact ((hfs.mkdirAll _ hm).writeFile _ hw).1
  · rw [heq]
    exact hfs.unlink k

/-- On a file system without links, a call whose path names another entry
than `K` leaves the file there, and its bytes, as they are. -/
theorem execute_keeps (hfs : fs.NoLinks) {K : String} {ino : Nat}
    (hK : fs.stat K = some (.file ino))
    (hne : ∀ tc, f.resolvePath env sb fs params = .ok tc → env.toPaths.key tc ≠ K) :
    Fs.stat (FileTool.execute env (some f) ctx params fs).2 K = some (.file ino) ∧
      (FileTool.execute env (some f) ctx params fs).2.bytes ino = fs.bytes ino := by
  have hmk : ∀ {as fs1}, fs.mkdirAll env.toPaths as = .ok fs1 →
      fs1.stat K = some (.file ino) ∧ fs1.bytes ino = fs.bytes ino := fun hm => by
    obtain ⟨-, hdata, hc⟩ := Fs.mkdirAll_spec _ hm
    refine ⟨Classical.byContradiction fun hne' => ?_, by rw [Fs.bytes, Fs.bytes, hdata]⟩
    have := (hc K (by rw [hK]; exact hne')).1
    rw [hK] at this
    cases this
  rcases execute_cases hsb with heq | ⟨t, ht, ⟨fs1, hm, heq | ⟨data, hw⟩⟩ | ⟨k, n, hl, -, heq⟩⟩
  · rw [heq]
    exact ⟨hK, rfl⟩
  · rw [heq]
    exact hmk hm
  · obtain ⟨hK1, hb1⟩ := hmk hm
    obtain ⟨h2, -⟩ := (hfs.mkdirAll _ hm).writeFile _ hw
    obtain ⟨-, k, ino', hr, hs, hkeep, hbytes⟩ := Fs.writeFile_spec _ hw
    have hkK : K ≠ k := fun h => hne t ht
      (h.trans (Fs.lookup_eq_key _ h2.no_symlinks _ _ _ hr)).symm
    have hK2 : Fs.stat (FileTool.execute env (some f) ctx params fs).2 K = some (.file ino) :=
      (hkeep K hkK).trans hK1
    have hi : ino ≠ ino' := fun hi => hkK (h2.one_name K k ino hK2 (hi ▸ hs))
    exact ⟨hK2, (hbytes ino hi).trans hb1⟩
  · have hkK : K ≠ k := fun h => hne t ht
      (h.trans (Fs.lookup_eq_key _ hfs.no_symlinks _ _ _ (Fs.osLstat_ok _ hl).1)).symm
    rw [heq, Fs.stat_unlink, if_neg hkK, Fs.bytes_unlink]
    exact ⟨hK, rfl⟩

/-- On a live context, once the operation and the path are resolved,
`Execute` dispatches on the operation. -/
theorem execute_live {op t : String} (hop : parseOperation env params = .ok op)
    (ht : f.resolvePath env sb fs params = .ok t) :
    FileTool.execute env (some f) (some none) params fs =
      if op = "read" then (f.readFile env fs t, fs)
      else if op = "write" then f.writeFile env fs t params
      else if op = "delete" then FileTool.deleteFile env fs t
      else (.error ⟨"unsupported operation " ++ op⟩, fs) := by
  simp only [FileTool.execute, hsb, hop, ht]

end Step

/-! ## Paths as POSIX spells them, for the examples -/

/-- The text after the last `/`. -/
def posixBase (p : String) : String := ⟨(p.data.reverse.takeWhile (· ≠ '/')).reverse⟩

/-- The text before the last `/`, `/` for a name at the root. -/
def posixDir (p : String) : String :=
  match ((p.data.reverse.dropWhile (· ≠ '/')).drop 1).reverse with
  | [] => "/"
  | cs => ⟨cs⟩

/-- `Join` of a directory and a relative name. -/
def posixJoin (d c : String) : String := if d = "/" then "/" ++ c else d ++ "/" ++ c

/-- The path and its ancestors up to `/`, innermost first, `n` at most. -/
def posixAncestors : Nat → String → List String
  | 0, p => [p]
  | n + 1, p => if p = "/" then [p] else p :: posixAncestors n (posixDir p)

/-- **The environment of the examples**: clean absolute paths, names that
are case-sensitive, and `coerceString` that takes strings alone. -/
def posixEnv : Env where
  isAbs p := hasPrefix p "/"
  join := posixJoin
  base := posixBase
  ancestors p := posixAncestors p.length p
  fold := id
  coerceString v := match v with
    | .string s => .ok s
    | _ => .error ⟨"not a string"⟩
  clean := id
  dir := posixDir

/-! ## Runs -/

section Run

variable {env} {f : FileTool} {sb : Sandbox} (hsb : f.sandbox = some sb)
include hsb

/-- **A directory stays a directory**, whatever calls a run makes: the
tool never deletes, overwrites or replaces one. -/
theorem run_dir_stays (calls : List FileCall) {fs : Fs} {q : String} (hq : fs.stat q = some .dir) :
    Fs.stat (FileTool.run env (some f) fs calls).1 q = some .dir := by
  induction calls generalizing fs with
  | nil => exact hq
  | cons c cs ih => exact ih (execute_dir hsb hq)

omit hsb in
/-- A delete and a write aimed at the workspace directory leave it a
directory. -/
theorem run_dir_stays_ws :
    let f : FileTool := ⟨some ⟨fun _ _ => none⟩, "/ws", defaultMaxFileBytes⟩
    let fs : Fs := ⟨[("/", .dir), ("/ws", .dir)], []⟩
    let calls : List FileCall :=
      [⟨some none, some [("operation", .string "delete"), ("path", .string "/ws")]⟩,
        ⟨some none, some [("operation", .string "write"), ("path", .string "/ws"),
          ("content", .string "x")]⟩]
    f.sandbox = some ⟨fun _ _ => none⟩ ∧ fs.stat "/ws" = some .dir ∧
      Fs.stat (FileTool.run posixEnv (some f) fs calls).1 "/ws" = some .dir :=
  ⟨rfl, rfl, run_dir_stays rfl _ rfl⟩

omit hsb in
/-- The file system after the calls before a call is the one it runs on. -/
theorem run_snoc (g : Option FileTool) (fs : Fs) (c : FileCall) :
    ∀ pre : List FileCall, (FileTool.run env g fs (pre ++ [c])).1 =
      (FileTool.execute env g c.ctx c.params (FileTool.run env g fs pre).1).2
  | [] => rfl
  | c' :: pre => run_snoc g (FileTool.execute env g c'.ctx c'.params fs).2 c pre

omit hsb in
/-- **A change over a run is a change of one of its calls**: what a view of
the file system shows after the run differs from before only if it differs
before and after some call. -/
theorem run_blame {α : Type} (view : Fs → α) (g : Option FileTool) :
    ∀ (calls : List FileCall) {fs : Fs}, view (FileTool.run env g fs calls).1 ≠ view fs →
      ∃ pre c post, calls = pre ++ c :: post ∧
        view (FileTool.run env g fs (pre ++ [c])).1 ≠ view (FileTool.run env g fs pre).1
  | [], _, h => absurd rfl h
  | c :: cs, fs, h => by
    by_cases h1 : view (FileTool.execute env g c.ctx c.params fs).2 = view fs
    · have h2 : view (FileTool.run env g (FileTool.execute env g c.ctx c.params fs).2 cs).1 ≠
          view (FileTool.execute env g c.ctx c.params fs).2 := by rwa [h1]
      obtain ⟨pre, c', post, rfl, h'⟩ := run_blame view g cs h2
      exact ⟨c :: pre, c', post, rfl, h'⟩
    · exact ⟨[], c, cs, rfl, h1⟩

/-- **The tool reaches only what the sandbox accepted, as the system looks
it up.** Over any run, an entry that changed is, on the file system the
call that changed it ran on, the one a path the sandbox accepted names for
a write (links followed, after the call) or for a delete (a last link not
followed), or a directory `MkdirAll` made where there was nothing, on the
way to such a path; and a file whose bytes changed is the one such a path
names for a write. -/
theorem run_confined (calls : List FileCall) (fs : Fs) :
    (∀ q, Fs.stat (FileTool.run env (some f) fs calls).1 q ≠ fs.stat q →
      ∃ pre c post, calls = pre ++ c :: post ∧
        ∃ t, f.resolvePath env sb (FileTool.run env (some f) fs pre).1 c.params = .ok t ∧
          sb.validatePath (FileTool.run env (some f) fs pre).1 t = none ∧
          (Fs.resolve (FileTool.run env (some f) fs (pre ++ [c])).1 env.toPaths true t = .ok q ∨
            Fs.resolve (FileTool.run env (some f) fs pre).1 env.toPaths false t = .ok q ∨
            Fs.stat (FileTool.run env (some f) fs pre).1 q = none ∧
              Fs.stat (FileTool.run env (some f) fs (pre ++ [c])).1 q = some .dir ∧
              ∃ a ∈ env.ancestors (env.dir t),
                Fs.resolve (FileTool.run env (some f) fs (pre ++ [c])).1 env.toPaths false a =
                  .ok q)) ∧
    (∀ ino, (FileTool.run env (some f) fs calls).1.bytes ino ≠ fs.bytes ino →
      ∃ pre c post, calls = pre ++ c :: post ∧
        ∃ t, f.resolvePath env sb (FileTool.run env (some f) fs pre).1 c.params = .ok t ∧
          sb.validatePath (FileTool.run env (some f) fs pre).1 t = none ∧
          ∃ k, Fs.resolve (FileTool.run env (some f) fs (pre ++ [c])).1 env.toPaths true t = .ok k ∧
            Fs.stat (FileTool.run env (some f) fs (pre ++ [c])).1 k = some (.file ino)) := by
  refine ⟨fun q h => ?_, fun ino h => ?_⟩
  · obtain ⟨pre, c, post, rfl, h1⟩ := run_blame (Fs.stat · q) (some f) calls h
    refine ⟨pre, c, post, rfl, ?_⟩
    rw [run_snoc] at h1 ⊢
    obtain ⟨t, ht, hq⟩ := execute_change hsb h1
    exact ⟨t, ht, resolvePath_validated env ht, hq⟩
  · obtain ⟨pre, c, post, rfl, h1⟩ := run_blame (Fs.bytes · ino) (some f) calls h
    refine ⟨pre, c, post, rfl, ?_⟩
    rw [run_snoc] at h1 ⊢
    obtain ⟨t, ht, hk⟩ := execute_bytes hsb h1
    exact ⟨t, ht, resolvePath_validated env ht, hk⟩

omit hsb in
/-- A sandbox that checks only the text lets a write through `/ws/l`, a
link to `/etc/passwd`, change the bytes of `/etc/passwd`: the file the
accepted path names, links followed. -/
theorem run_confined_link :
    let sb : Sandbox := ⟨fun _ p => if hasPrefix p "/ws/" then none else some ⟨"path not allowed"⟩⟩
    let f : FileTool := ⟨some sb, "/ws", defaultMaxFileBytes⟩
    let fs : Fs := ⟨[("/", .dir), ("/ws", .dir), ("/ws/l", .symlink "/etc/passwd"), ("/etc", .dir),
      ("/etc/passwd", .file 0)], [goBytes "root"]⟩
    let calls : List FileCall :=
      [⟨some none, some [("operation", .string "write"), ("path", .string "l"),
        ("content", .string "x")]⟩]
    f.sandbox = some sb ∧ (FileTool.run posixEnv (some f) fs calls).1.bytes 0 = goBytes "x" ∧
      fs.bytes 0 ≠ goBytes "x" ∧
      Fs.resolve (FileTool.run posixEnv (some f) fs calls).1 posixEnv.toPaths true "/ws/l" =
        .ok "/etc/passwd" ∧
      ∃ pre c post, calls = pre ++ c :: post ∧
        ∃ t, f.resolvePath posixEnv sb (FileTool.run posixEnv (some f) fs pre).1 c.params = .ok t ∧
          sb.validatePath (FileTool.run posixEnv (some f) fs pre).1 t = none ∧
          ∃ k, Fs.resolve (FileTool.run posixEnv (some f) fs (pre ++ [c])).1 posixEnv.toPaths true t =
              .ok k ∧
            Fs.stat (FileTool.run posixEnv (some f) fs (pre ++ [c])).1 k = some (.file 0) := by
  intro sb f fs calls
  have hrun : (FileTool.run posixEnv (some f) fs calls).1 = ⟨fs.names, [goBytes "x"]⟩ := by
    unfold f sb fs calls
    rfl
  have hb : (FileTool.run posixEnv (some f) fs calls).1.bytes 0 = goBytes "x" := by rw [hrun]; rfl
  have hne : fs.bytes 0 ≠ goBytes "x" := fun h => nomatch congrArg List.length h
  have hl : Fs.resolve (FileTool.run posixEnv (some f) fs calls).1 posixEnv.toPaths true "/ws/l" =
        .ok "/etc/passwd" := by rw [hrun]; rfl
  have hc := (@run_confined posixEnv f sb rfl calls fs).2 0 (by rw [hb]; exact Ne.symm hne)
  refine ⟨rfl, ?_, ?_, ?_, ?_⟩
  · exact hb
  · exact hne
  · exact hl
  · exact hc

omit hsb in
/-- Without links before, none after, whatever calls a run makes. -/
theorem run_noLinks (hsb : f.sandbox = some sb) :
    ∀ (calls : List FileCall) {fs : Fs}, fs.NoLinks → (FileTool.run env (some f) fs calls).1.NoLinks
  | [], _, hfs => hfs
  | _ :: cs, _, hfs => run_noLinks hsb cs (execute_noLinks hsb hfs)

/-- On a file system without links, a file stays as it is, with its bytes,
over a run none of whose calls names its entry. -/
theorem run_keeps (calls : List FileCall) {fs : Fs} (hfs : fs.NoLinks) {K : String} {ino : Nat}
    (hK : fs.stat K = some (.file ino))
    (hcalls : ∀ call ∈ calls, ∀ fs' tc, f.resolvePath env sb fs' call.params = .ok tc →
      env.toPaths.key tc ≠ K) :
    Fs.stat (FileTool.run env (some f) fs calls).1 K = some (.file ino) ∧
      (FileTool.run env (some f) fs calls).1.bytes ino = fs.bytes ino := by
  induction calls generalizing fs with
  | nil => exact ⟨hK, rfl⟩
  | cons c cs ih =>
    obtain ⟨hK1, hb1⟩ := execute_keeps hsb hfs hK (hcalls c (List.mem_cons_self _ _) fs)
    obtain ⟨hK2, hb2⟩ := ih (execute_noLinks hsb hfs) hK1
      fun call hc => hcalls call (List.mem_cons_of_mem _ hc)
    exact ⟨hK2, hb2.trans hb1⟩

/-- **A read returns what the last write put there.** On a file system
without links, after a write of `c` that succeeds at the path `t`, and any
run of calls none of which names the entry `t` names, a read of `t` returns
the bytes of `c`. -/
theorem run_read_after_write {fs : Fs} (hfs : fs.NoLinks) {pw pr : Option ValueMap} {t c : String}
    {raw : Value} {r : FileResult} (hopw : parseOperation env pw = .ok "write")
    (htw : f.resolvePath env sb fs pw = .ok t) (hraw : pw.bind (·.get? "content") = some raw)
    (hc : env.coerceString raw = .ok c)
    (hw : (FileTool.execute env (some f) (some none) pw fs).1 = .ok r)
    (calls : List FileCall)
    (hcalls : ∀ call ∈ calls, ∀ fs' tc, f.resolvePath env sb fs' call.params = .ok tc →
      env.toPaths.key tc ≠ env.toPaths.key t)
    (hopr : parseOperation env pr = .ok "read")
    (htr : f.resolvePath env sb
      (FileTool.run env (some f) (FileTool.execute env (some f) (some none) pw fs).2 calls).1 pr =
        .ok t) :
    (FileTool.execute env (some f) (some none) pr
        (FileTool.run env (some f) (FileTool.execute env (some f) (some none) pw fs).2 calls).1).1 =
      .ok ⟨true, goBytes c, "read", t, some (goBytes c).length⟩ := by
  have hlive : FileTool.execute env (some f) (some none) pw fs = f.writeFile env fs t pw := by
    rw [execute_live hsb hopw htw, if_neg (show "write" ≠ "read" by decide), if_pos rfl]
  rw [hlive] at hw htr ⊢
  obtain ⟨fs1, hm, hwf, hex⟩ := writeFile_ok env hraw hc hw
  obtain ⟨hw2, K, ino, hr, hK, hbytes⟩ := (hfs.mkdirAll _ hm).writeFile _ hwf
  have hkey : K = env.toPaths.key t := Fs.lookup_eq_key _ hw2.no_symlinks _ _ _ hr
  obtain ⟨hK', hb'⟩ := run_keeps hsb calls hw2 hK fun call hcall fs' tc h => hkey ▸ hcalls call hcall fs' tc h
  have hr' := Fs.lookup_of_dirs env.toPaths hw2.no_symlinks (@run_noLinks env f sb hsb calls _ hw2).no_symlinks
    (fun q hq => @run_dir_stays env f sb hsb calls _ q hq) _ _ _ hr
  rw [execute_live hsb hopr htr, if_pos rfl]
  simp only [FileTool.readFile, Fs.osStat, Fs.locate, Fs.resolve, hr', hK', hb', hbytes, hex,
    Bool.false_eq_true, ↓reduceIte]

omit hsb in
/-- `hi` written to `/ws/a.txt`, then a write of `/ws/b.txt`, then a read
of `/ws/a.txt`. -/
theorem run_read_after_write_ws :
    let sb : Sandbox := ⟨fun _ _ => none⟩
    let f : FileTool := ⟨some sb, "/ws", defaultMaxFileBytes⟩
    let fs : Fs := ⟨[("/", .dir), ("/ws", .dir)], []⟩
    let pw : Option ValueMap :=
      some [("operation", .string "write"), ("path", .string "/ws/a.txt"), ("content", .string "hi")]
    let pr : Option ValueMap := some [("operation", .string "read"), ("path", .string "/ws/a.txt")]
    let calls : List FileCall :=
      [⟨some none, some [("operation", .string "write"), ("path", .string "/ws/b.txt"),
        ("content", .string "x")]⟩]
    f.sandbox = some sb ∧ fs.NoLinks ∧ parseOperation posixEnv pw = .ok "write" ∧
      f.resolvePath posixEnv sb fs pw = .ok "/ws/a.txt" ∧
      pw.bind (·.get? "content") = some (.string "hi") ∧
      posixEnv.coerceString (.string "hi") = .ok "hi" ∧
      (FileTool.execute posixEnv (some f) (some none) pw fs).1 =
        .ok ⟨true, goBytes "wrote 2 bytes", "write", "/ws/a.txt", some 2⟩ ∧
      (∀ call ∈ calls, ∀ fs' tc, f.resolvePath posixEnv sb fs' call.params = .ok tc →
        posixEnv.toPaths.key tc ≠ posixEnv.toPaths.key "/ws/a.txt") ∧
      parseOperation posixEnv pr = .ok "read" ∧
      f.resolvePath posixEnv sb (FileTool.run posixEnv (some f)
        (FileTool.execute posixEnv (some f) (some none) pw fs).2 calls).1 pr = .ok "/ws/a.txt" ∧
      (FileTool.execute posixEnv (some f) (some none) pr
          (FileTool.run posixEnv (some f)
            (FileTool.execute posixEnv (some f) (some none) pw fs).2 calls).1).1 =
        .ok ⟨true, goBytes "hi", "read", "/ws/a.txt", some (goBytes "hi").length⟩ := by
  intro sb f fs pw pr calls
  have hfs : fs.NoLinks := Fs.noLinks_of_dirs (by decide)
  have hcalls : ∀ call ∈ calls, ∀ fs' tc, f.resolvePath posixEnv sb fs' call.params = .ok tc →
      posixEnv.toPaths.key tc ≠ posixEnv.toPaths.key "/ws/a.txt" := by
    intro call hcall fs' tc h
    rw [List.mem_singleton] at hcall
    subst hcall
    have hb : f.resolvePath posixEnv sb fs' (some [("operation", .string "write"),
        ("path", .string "/ws/b.txt"), ("content", .string "x")]) = .ok "/ws/b.txt" := rfl
    rw [hb] at h
    cases h
    decide
  have hw : (FileTool.execute posixEnv (some f) (some none) pw fs).1 =
      .ok ⟨true, goBytes "wrote 2 bytes", "write", "/ws/a.txt", some 2⟩ := by
    unfold f sb fs pw
    rfl
  have htr : f.resolvePath posixEnv sb (FileTool.run posixEnv (some f)
      (FileTool.execute posixEnv (some f) (some none) pw fs).2 calls).1 pr = .ok "/ws/a.txt" := by
    unfold f sb pr
    rfl
  exact ⟨rfl, hfs, rfl, rfl, rfl, rfl, hw, hcalls, rfl, htr,
    @run_read_after_write posixEnv f sb rfl fs hfs pw pr "/ws/a.txt" "hi" (.string "hi")
      ⟨true, goBytes "wrote 2 bytes", "write", "/ws/a.txt", some 2⟩ rfl rfl rfl rfl hw calls hcalls
      rfl htr⟩

end Run

end ToolBuiltin

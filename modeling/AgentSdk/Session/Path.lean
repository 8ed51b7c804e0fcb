import AgentSdk.Text

/-!
# `path.Clean` and the normalized paths of the backend router

`CompositeBackend` keys its routes and forwards its calls by
`normalizePath`, which is Go's `path.Clean` followed by a leading `/` when
the cleaned path lacks one. `path.Clean` is a single pass over the bytes of
the path with an output buffer and a mark `dotdot` below which `..` may not
backtrack: the leading `/` of a rooted path, or the `../..` prefix a
relative path has had to keep.

The pass is modelled with the output buffer reversed (its last byte first),
so that appending is `::` and backtracking drops from the head. The bytes it
tests are `/` and `.`, which never occur inside a multi-byte UTF-8 sequence,
so the pass over characters is the pass over bytes.

The prefix a relative path keeps is the catch: `path.Clean("../x")` is
`../x`, and `normalizePath` turns it into `/../x` instead of cleaning the
rooted path (`normalizePath_dotdot`).
-/

namespace Session

/-- **The backtracking loop of a `..` element**: drop the last byte, then
keep dropping while more than `dotdot` bytes remain and the byte just dropped
is not `/`. The buffer is reversed. -/
def dropElem (dotdot : Nat) : List Char → List Char
  | [] => []
  | c :: rest => if dotdot < rest.length ∧ c ≠ '/' then dropElem dotdot rest else rest

/-- **The `..` case of `path.Clean`**: backtrack when the buffer is longer
than the mark; otherwise a relative path keeps the `..` (after a `/` when the
buffer is not empty) and moves the mark past it, and a rooted one drops it. -/
def dotdotStep (rooted : Bool) (out : List Char) (dotdot : Nat) : List Char × Nat :=
  if dotdot < out.length then (dropElem dotdot out, dotdot)
  else if !rooted then
    let out := if 0 < out.length then '/' :: out else out
    ('.' :: '.' :: out, out.length + 2)
  else (out, dotdot)

/-- **The loop of `path.Clean`** over the unread bytes, with the reversed
buffer and the mark: an empty element, a `.` element, a `..` element, or a
real element, copied after a `/` unless the buffer holds only the root.
In the last case `c` is not `/`, so the element is `c` and the bytes up to
the next `/`. -/
def cleanLoop (rooted : Bool) : List Char → List Char → Nat → List Char × Nat
  | [], out, dotdot => (out, dotdot)
  | '/' :: rest, out, dotdot => cleanLoop rooted rest out dotdot
  | ['.'], out, dotdot => cleanLoop rooted [] out dotdot
  | '.' :: '/' :: rest, out, dotdot => cleanLoop rooted ('/' :: rest) out dotdot
  | ['.', '.'], out, dotdot =>
    let (out, dotdot) := dotdotStep rooted out dotdot
    cleanLoop rooted [] out dotdot
  | '.' :: '.' :: '/' :: rest, out, dotdot =>
    let (out, dotdot) := dotdotStep rooted out dotdot
    cleanLoop rooted ('/' :: rest) out dotdot
  | c :: rest, out, dotdot =>
    let out := if (rooted && out.length != 1) || (!rooted && out.length != 0) then '/' :: out
      else out
    cleanLoop rooted (rest.dropWhile (· ≠ '/')) ((rest.takeWhile (· ≠ '/')).reverse ++ c :: out)
      dotdot
termination_by path => path.length
decreasing_by
  all_goals simp_wf
  exact Nat.lt_succ_of_le (List.dropWhile_suffix _).length_le

/-- **`path.Clean`**: the shortest lexically equivalent path; `.` for an
empty result. -/
def clean (path : String) : String :=
  if path = "" then "."
  else
    let rooted := path.data.head? = some '/'
    let (out, _) :=
      if rooted then cleanLoop rooted path.data.tail ['/'] 1
      else cleanLoop rooted path.data [] 0
    if out = [] then "." else ⟨out.reverse⟩

/-- **`normalizePath`**: clean, with `/` for the empty and the current
directory, and a leading `/` added when the cleaned path has none. -/
def normalizePath (p : String) : String :=
  if p = "" then "/"
  else
    let c := clean p
    if c = "." then "/"
    else if !GoString.hasPrefix c "/" then "/" ++ c else c

/-- **`normalizePrefix`**: the normalized path; its trailing-slash branch
returns it too. -/
def normalizePrefix (pre : String) : String :=
  let p := normalizePath pre
  if p = "/" then p
  else if !GoString.hasSuffix p "/" then p
  else p

end Session

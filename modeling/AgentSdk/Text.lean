import Mathlib.Data.List.DropRight
import Mathlib.Data.Nat.Digits

/-!
# The `strings` and `fmt` functions the runtime leans on

Every component below reads caller text through a handful of Go library
functions: `strings.TrimSpace` on roles, names and ids, `strings.HasPrefix`
on SSE lines and routes, `strings.ToLower` on roles and statuses, and
`fmt.Sprintf("%06d", …)` for message ids. They are modelled here once, on
the characters of a string.

Go strings are bytes and Lean strings are Unicode scalar values; a valid
UTF-8 string is the same text either way, and every function here is the
Go function on such a string. `strings.HasPrefix` compares bytes, and since
UTF-8 is a prefix-free code a byte prefix of a valid encoding is exactly a
character prefix.
-/

namespace GoString

/-- **`unicode.IsSpace`**: the Latin-1 spaces, then the `White_Space`
characters above Latin-1. -/
def isSpace (c : Char) : Bool :=
  if c.val ≤ 0xFF then
    c = '\t' || c = '\n' || c.val = 0x0B || c.val = 0x0C || c = '\r' || c = ' ' ||
      c.val = 0x85 || c.val = 0xA0
  else
    c.val = 0x1680 || (0x2000 ≤ c.val && c.val ≤ 0x200A) || c.val = 0x2028 ||
      c.val = 0x2029 || c.val = 0x202F || c.val = 0x205F || c.val = 0x3000

/-- **`strings.TrimSpace`**: drop the `unicode.IsSpace` characters at both
ends. The ASCII fast path of the library computes the same string. -/
def trimSpace (s : String) : String :=
  ⟨(s.data.dropWhile isSpace).rdropWhile isSpace⟩

/-- **`strings.TrimSpace` is idempotent.** -/
theorem trimSpace_trimSpace (s : String) : trimSpace (trimSpace s) = trimSpace s := by
  simp only [trimSpace]
  congr 1
  have hA : ∀ hl : 0 < (s.data.dropWhile isSpace).length,
      ¬isSpace ((s.data.dropWhile isSpace).get ⟨0, hl⟩) :=
    List.dropWhile_eq_self_iff.mp (List.dropWhile_idempotent _ _)
  obtain ⟨C, hC⟩ := List.rdropWhile_prefix (p := isSpace) (l := s.data.dropWhile isSpace)
  have hB : ((s.data.dropWhile isSpace).rdropWhile isSpace).dropWhile isSpace =
      (s.data.dropWhile isSpace).rdropWhile isSpace := by
    rcases hb : (s.data.dropWhile isSpace).rdropWhile isSpace with _ | ⟨b, bs⟩
    · rfl
    · have hAb : s.data.dropWhile isSpace = b :: (bs ++ C) := by rw [← hC, hb]; rfl
      have hb' : ¬isSpace b := by simpa [hAb] using hA (by simp [hAb])
      simp [List.dropWhile_cons, hb']
  rw [hB, List.rdropWhile_idempotent]

/-- **`unicode.ToLower`** on the characters whose lower case is ASCII: the
ASCII capitals, `U+0130` (to `i`) and the Kelvin sign `U+212A` (to `k`).
Every other character is kept; Go lowers some of them, never to ASCII, so
the model and Go agree on whether a lowered string is an ASCII word. A text
that prints the lowered string, as the error of `parseOperation` does, is
Go's only where the input holds no other capital. -/
def toLowerChar (c : Char) : Char :=
  if 'A' ≤ c ∧ c ≤ 'Z' then Char.ofNat (c.toNat + 32)
  else if c.val = 0x130 then 'i'
  else if c.val = 0x212A then 'k'
  else c

/-- **`strings.ToLower`**, as far as `toLowerChar` goes. -/
def toLower (s : String) : String :=
  ⟨s.data.map toLowerChar⟩

/-- **`strings.TrimRight(s, cutset)`**: drop the trailing characters of the
cutset. -/
def trimRight (s cutset : String) : String :=
  ⟨s.data.rdropWhile (· ∈ cutset.data)⟩

/-- **`strings.HasPrefix`**. -/
def hasPrefix (s pre : String) : Bool :=
  pre.data.isPrefixOf s.data

/-- **`strings.HasSuffix`**. -/
def hasSuffix (s suf : String) : Bool :=
  suf.data.reverse.isPrefixOf s.data.reverse

theorem hasPrefix_iff (s pre : String) : hasPrefix s pre = true ↔ pre.data <+: s.data :=
  List.isPrefixOf_iff_prefix

/-- **`s[n:]`** when the first `n` bytes of `s` are ASCII, hence its first
`n` characters; the code slices only after matching an ASCII prefix. -/
def sliceFrom (s : String) (n : Nat) : String :=
  ⟨s.data.drop n⟩

/-- A leading space is trimmed away. -/
theorem trimSpace_space_append (s : String) : trimSpace (" " ++ s) = trimSpace s := by
  simp only [trimSpace]
  rfl

/-- **`strings.TrimPrefix`**. -/
def trimPrefix (s pre : String) : String :=
  if hasPrefix s pre then ⟨s.data.drop pre.length⟩ else s

/-- **`strings.SplitN(s, sep, 2)`** for a one-character separator: the text
before the first `sep` and the text after it, or `s` alone when `sep` does
not occur. -/
def splitN2 (s : String) (sep : Char) : List String :=
  match s.data.span (· ≠ sep) with
  | (pre, []) => [⟨pre⟩]
  | (pre, _ :: rest) => [⟨pre⟩, ⟨rest⟩]

/-! ## `%06d`

`fmt` prints an unsigned integer under `%06d` as its decimal digits, padded
on the left with `0` to six places. The padding is undone by reading the
digits back as a number, which is how `sprintfD06_injective` is proved. -/

/-- **`fmt.Sprintf("%06d", n)`**. -/
def sprintfD06 (n : Nat) : String :=
  let ds := (Nat.digits 10 n).reverse.map Nat.digitChar
  ⟨List.replicate (6 - ds.length) '0' ++ ds⟩

/-- The value of a string of decimal digits. -/
def decimalValue (cs : List Char) : Nat :=
  Nat.ofDigits 10 (cs.reverse.map fun c => c.toNat - '0'.toNat)

theorem ofDigits_append_replicate_zero (L : List Nat) (k : Nat) :
    Nat.ofDigits 10 (L ++ List.replicate k 0) = Nat.ofDigits 10 L := by
  induction k with
  | zero => simp
  | succ k ih =>
    rw [List.replicate_succ', ← List.append_assoc, Nat.ofDigits_append, ih]
    simp [Nat.ofDigits]

/-- **Reading `%06d` back gives the number printed.** -/
theorem decimalValue_sprintfD06 (n : Nat) : decimalValue (sprintfD06 n).data = n := by
  have hdig : ∀ d ∈ Nat.digits 10 n, (Nat.digitChar d).toNat - '0'.toNat = d := by
    intro d hd
    have : d < 10 := Nat.digits_lt_base (by norm_num) hd
    interval_cases d <;> rfl
  simp only [decimalValue, sprintfD06, List.reverse_append, List.reverse_replicate,
    List.map_append, List.map_replicate, List.map_reverse, List.reverse_reverse,
    List.map_map]
  rw [List.map_congr_left (fun d hd => by simpa using hdig d hd), List.map_id',
    Nat.sub_self, ofDigits_append_replicate_zero, Nat.ofDigits_digits]

theorem sprintfD06_injective : Function.Injective sprintfD06 := fun a b h => by
  rw [← decimalValue_sprintfD06 a, ← decimalValue_sprintfD06 b, h]

/-- `%06d` prints digits only. -/
theorem isDigit_of_mem_sprintfD06 {n : Nat} {c : Char} (hc : c ∈ (sprintfD06 n).data) :
    c.isDigit = true := by
  simp only [sprintfD06, List.mem_append, List.mem_replicate, List.mem_map,
    List.mem_reverse] at hc
  rcases hc with ⟨-, rfl⟩ | ⟨d, hd, rfl⟩
  · rfl
  · have : d < 10 := Nat.digits_lt_base (by norm_num) hd
    interval_cases d <;> rfl

end GoString

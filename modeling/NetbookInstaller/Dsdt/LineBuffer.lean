import NetbookInstaller.Dsdt.Text
import Mathlib.Data.List.TakeWhile

/-! The memory of the line buffer that all reads of the DSDT patcher share, and
`strtok` on it. -/
namespace Dsdt

/-- `char buffer[BUFFER_SIZE]`: what `fgets` stores ends with a null character, so
the last byte is never anything else. -/
structure LineBuffer where
  bytes : List Char
  length_eq : bytes.length = BUFFER_SIZE
  terminated : bytes[BUFFER_SIZE - 1]? = some '\x00'

/-- The string that a line read into the buffer is for the code. -/
def stored (line : Line) : Line := (line.take (BUFFER_SIZE - 1)).takeWhile (· ≠ '\x00')

/-- A file as the strings that the code sees in the buffer. -/
def strings (file : List Char) : List Line := (buffers file).map stored

/-- What stands behind the null characters of a file, which is read and then not seen. -/
def hidden (file : List Char) : List Line :=
  (buffers file).map fun line => line.drop (stored line).length

namespace LineBuffer

/-- The buffer at the start of the program. -/
def zero : LineBuffer where
  bytes := List.replicate BUFFER_SIZE '\x00'
  length_eq := List.length_replicate
  terminated := List.getElem?_replicate_of_lt (by decide)

/-- The string in the buffer. -/
def string (b : LineBuffer) : Line := b.bytes.takeWhile (· ≠ '\x00')

/-- A line that `fgets` reads; what stands behind it stays. -/
def load (b : LineBuffer) (line : Line) : LineBuffer where
  bytes :=
    let read := line.take (BUFFER_SIZE - 1)
    read ++ '\x00' :: b.bytes.drop (read.length + 1)
  length_eq := by
    have hlength := b.length_eq
    simp only [BUFFER_SIZE] at *
    simp only [List.length_append, List.length_cons, List.length_drop, List.length_take]
    omega
  terminated := by
    have hlast := b.terminated
    simp only [BUFFER_SIZE] at *
    have hread : (line.take 2047).length ≤ 2047 := List.length_take_le ..
    generalize line.take 2047 = read at *
    rw [List.getElem?_append_right hread]
    rcases hread.eq_or_lt with heq | hlt
    · simp [heq]
    · obtain ⟨n, hn⟩ : ∃ n, 2047 - read.length = n + 1 := ⟨2046 - read.length, by omega⟩
      rw [hn, List.getElem?_cons_succ, List.getElem?_drop, show read.length + 1 + n = 2047 by omega]
      exact hlast

/-- `strtok` overwrites the delimiter behind a token. -/
def terminate (b : LineBuffer) (position : ℕ) : LineBuffer where
  bytes := b.bytes.set position '\x00'
  length_eq := by rw [List.length_set, b.length_eq]
  terminated := by
    rcases eq_or_ne position (BUFFER_SIZE - 1) with rfl | hne
    · rw [List.getElem?_set_self]
      rw [b.length_eq]
      decide
    · rw [List.getElem?_set_ne hne, b.terminated]

/-- A delimiter is never the last byte. -/
theorem succ_lt_of_colon {b : LineBuffer} {position : ℕ} (h : b.bytes[position]? = some ':') :
    position + 1 < BUFFER_SIZE := by
  obtain ⟨hlt, -⟩ := List.getElem?_eq_some_iff.mp h
  rw [b.length_eq] at hlt
  have hne : position ≠ BUFFER_SIZE - 1 := by
    rintro rfl
    rw [b.terminated] at h
    exact absurd h (by decide)
  omega

/-- A token, the buffer with its delimiter overwritten, and where the next call goes
on: nowhere if the token ends the string. -/
structure Token where
  text : Line
  buffer : LineBuffer
  saved : Option (Fin BUFFER_SIZE)

/-- `strtok(…, ":")` from the position that it has saved. -/
def strtok (b : LineBuffer) : Option (Fin BUFFER_SIZE) → Option Token
  | none => none
  | some position =>
    let first := position + ((b.bytes.drop position).takeWhile (· = ':')).length
    let token := (b.bytes.drop first).takeWhile fun c => c ≠ ':' ∧ c ≠ '\x00'
    let last := first + token.length
    if token = [] then none
    else if h : b.bytes[last]? = some ':' then
      some ⟨token, b.terminate last, some ⟨last + 1, succ_lt_of_colon h⟩⟩
    else some ⟨token, b, none⟩

/-- Nothing behind the first null character belongs to the string. -/
theorem takeWhile_terminated (line rest : List Char) :
    (line ++ '\x00' :: rest).takeWhile (· ≠ '\x00') = line.takeWhile (· ≠ '\x00') := by
  induction line with
  | nil => simp
  | cons c line ih =>
    rw [List.cons_append, List.takeWhile_cons, List.takeWhile_cons, ih]

@[simp] theorem string_load (b : LineBuffer) (line : Line) : (b.load line).string = stored line :=
  takeWhile_terminated ..

theorem terminate_drop (b : LineBuffer) {position n : ℕ} (h : position < n) :
    (b.terminate position).bytes.drop n = b.bytes.drop n := List.drop_set_of_lt h

/-- The token at a position of the buffer, if a delimiter follows it. -/
theorem strtok_token {b : LineBuffer} {position : Fin BUFFER_SIZE} {colons token rest : List Char}
    (hbytes : b.bytes.drop position = colons ++ token ++ ':' :: rest)
    (hcolons : ∀ c ∈ colons, c = ':') (hne : token ≠ [])
    (htoken : ∀ c ∈ token, c ≠ ':' ∧ c ≠ '\x00') :
    ∃ saved : Fin BUFFER_SIZE, saved = position + colons.length + token.length + 1 ∧
      b.strtok (some position) =
        some ⟨token, b.terminate (position + colons.length + token.length), some saved⟩ := by
  have hskip : (b.bytes.drop position).takeWhile (· = ':') = colons := by
    obtain ⟨c, token, rfl⟩ := List.exists_cons_of_ne_nil hne
    have hc := (htoken c (List.mem_cons_self ..)).1
    rw [hbytes, List.append_assoc, List.takeWhile_append_of_pos (by simpa using hcolons)]
    simp [hc]
  have hfirst : b.bytes.drop (position + colons.length) = token ++ ':' :: rest := by
    rw [← List.drop_drop, hbytes, List.append_assoc, List.drop_left]
  have htext : (b.bytes.drop (position + colons.length)).takeWhile
      (fun c => c ≠ ':' ∧ c ≠ '\x00') = token := by
    rw [hfirst, List.takeWhile_append_of_pos (by simpa using htoken)]
    simp
  have hlast : b.bytes[position + colons.length + token.length]? = some ':' := by
    rw [← List.getElem?_drop, hfirst, List.getElem?_append_right le_rfl]
    simp
  refine ⟨⟨_, succ_lt_of_colon hlast⟩, rfl, ?_⟩
  simp only [strtok, hskip, htext, if_neg hne, dif_pos hlast]

/-- Every call gets ahead in the buffer. -/
theorem strtok_lt {b : LineBuffer} {position : Fin BUFFER_SIZE} {token : Token}
    (h : b.strtok (some position) = some token) : ∀ saved ∈ token.saved, position < saved := by
  simp only [strtok] at h
  split at h
  · cases h
  · split at h
    · rw [Option.some.injEq] at h
      subst h
      rintro saved ⟨⟩
      rw [Fin.lt_def]
      dsimp only
      omega
    · rw [Option.some.injEq] at h
      subst h
      exact fun _ hsaved => nomatch hsaved

end LineBuffer

/-- The lines of a text without null characters are strings as they are. -/
theorem stored_buffers {file : List Char} (h : '\x00' ∉ file) :
    (buffers file).map stored = buffers file := by
  refine (List.map_congr_left fun line hl => ?_).trans (List.map_id _)
  have hlength := length_le_of_mem_fgetsFrom (by decide) (by simp) line hl
  have hmem : ∀ c ∈ line, c ∈ file := by
    intro c hc
    have hflat := fgetsFrom_flatten (BUFFER_SIZE - 1) [] file
    rw [List.nil_append] at hflat
    rw [← hflat]
    exact List.mem_flatten_of_mem hl hc
  have hnull : ∀ c ∈ line, c ≠ '\x00' := by
    rintro c hc rfl
    exact h (hmem _ hc)
  rw [stored, List.take_of_length_le hlength, id_eq, List.takeWhile_eq_self_iff]
  simpa using hnull

end Dsdt

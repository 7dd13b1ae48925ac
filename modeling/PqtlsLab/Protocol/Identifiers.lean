import PqtlsLab.Foundation.Json
import Mathlib.Data.List.FinRange
import Mathlib.Tactic.IntervalCases

/-!
# Fresh identifiers and timestamps

Messages and records are labelled with a version 4 UUID made from sixteen bytes of
the CSPRNG and with the current time. Both texts have a fixed length and consist
of ASCII characters, whatever the random bytes and the clock say.
-/

namespace PqtlsLab

/-- The sixteen bytes that `RAND_bytes` delivers. -/
abbrev Entropy := Fin 16 → UInt8

/-- The byte of a UUID at a given position, after the version and variant bits have
been set. -/
def uuidByte (bytes : Entropy) (i : Fin 16) : UInt8 :=
  if i.val = 6 then (bytes i &&& 0x0F) ||| 0x40
  else if i.val = 8 then (bytes i &&& 0x3F) ||| 0x80
  else bytes i

/-- The two hexadecimal digits of one byte, preceded by a hyphen where a group starts. -/
def uuidPart (bytes : Entropy) (i : Fin 16) : Bytes :=
  let b := uuidByte bytes i
  (if i.val = 4 ∨ i.val = 6 ∨ i.val = 8 ∨ i.val = 10 then [0x2D] else [] : Bytes) ++
    [Json.hexDigit ((b >>> 4) &&& 0x0F).toNat, Json.hexDigit (b &&& 0x0F).toNat]

/-- `generate_uuid_v4`, with the random bytes as an argument. -/
def generateUuidV4 (bytes : Entropy) : Bytes := (List.finRange 16).flatMap (uuidPart bytes)

/-- A broken-down UTC time with milliseconds, in the range of the system clock. -/
structure UtcTime where
  year : ℕ
  month : ℕ
  day : ℕ
  hour : ℕ
  minute : ℕ
  second : ℕ
  millis : ℕ
  year_bounds : 1000 ≤ year ∧ year ≤ 9999
  month_le : month ≤ 12
  day_le : day ≤ 31
  hour_le : hour ≤ 23
  minute_le : minute ≤ 59
  second_le : second ≤ 60
  millis_le : millis ≤ 999

/-- The last `width` decimal digits of a number. -/
def padded (width n : ℕ) : Bytes :=
  (List.range width).reverse.map fun k => UInt8.ofNat (0x30 + n / 10 ^ k % 10)

/-- `iso8601_now`, with the clock reading as an argument. -/
def iso8601Now (t : UtcTime) : Bytes :=
  padded 4 t.year ++ [0x2D] ++ padded 2 t.month ++ [0x2D] ++ padded 2 t.day ++ [0x54] ++
    padded 2 t.hour ++ [0x3A] ++ padded 2 t.minute ++ [0x3A] ++ padded 2 t.second ++
    [0x2E] ++ padded 3 t.millis ++ [0x5A]

/-- A hexadecimal digit is plain text. -/
theorem plain_hexDigit {n : ℕ} (hn : n < 16) : Json.Plain [Json.hexDigit n] := by
  interval_cases n <;> decide

/-- A decimal digit is plain text. -/
theorem plain_digit {n : ℕ} (hn : n < 10) : Json.Plain [UInt8.ofNat (0x30 + n)] := by
  interval_cases n <;> decide

/-- Padded numbers are plain text. -/
theorem plain_padded (width n : ℕ) : Json.Plain (padded width n) := by
  intro b hb
  obtain ⟨k, _, rfl⟩ := List.mem_map.mp hb
  have hdigit := plain_digit (Nat.mod_lt (n / 10 ^ k) (show 10 > 0 by decide))
  exact hdigit _ (List.mem_singleton.mpr rfl)

/-- A padded number has the requested width. -/
@[simp] theorem length_padded (width n : ℕ) : (padded width n).length = width := by
  simp [padded]

/-- One byte of a UUID is rendered as plain text. -/
theorem plain_uuidPart (bytes : Entropy) (i : Fin 16) : Json.Plain (uuidPart bytes i) := by
  have hnibble (b : UInt8) : (b &&& 0x0F).toNat < 16 := by
    have h : b &&& 0x0F ≤ 0x0F := UInt8.and_le_right
    rw [UInt8.le_iff_toNat_le] at h
    exact Nat.lt_of_le_of_lt h (by decide)
  have hhyphen : Json.Plain (if i.val = 4 ∨ i.val = 6 ∨ i.val = 8 ∨ i.val = 10 then [0x2D]
      else [] : Bytes) := by
    split <;> decide
  exact hhyphen.append ((plain_hexDigit (hnibble _)).append (plain_hexDigit (hnibble _)))

/-- A UUID is plain text. -/
theorem plain_generateUuidV4 (bytes : Entropy) : Json.Plain (generateUuidV4 bytes) := by
  intro b hb
  obtain ⟨i, _, hi⟩ := List.mem_flatMap.mp hb
  exact plain_uuidPart bytes i b hi

/-- A UUID has 36 characters. -/
@[simp] theorem length_generateUuidV4 (bytes : Entropy) : (generateUuidV4 bytes).length = 36 := by
  have hpart (i : Fin 16) : (uuidPart bytes i).length =
      if i.val = 4 ∨ i.val = 6 ∨ i.val = 8 ∨ i.val = 10 then 3 else 2 := by
    unfold uuidPart
    split <;> simp
  simp only [generateUuidV4, List.length_flatMap, hpart]
  decide

/-- A timestamp is plain text. -/
theorem plain_iso8601Now (t : UtcTime) : Json.Plain (iso8601Now t) := by
  have hsep : ∀ b : UInt8, b ∈ ([0x2D, 0x54, 0x3A, 0x2E, 0x5A] : Bytes) → Json.Plain [b] := by
    intro b hb
    simp only [List.mem_cons, List.not_mem_nil, or_false] at hb
    rcases hb with rfl | rfl | rfl | rfl | rfl <;> decide
  unfold iso8601Now
  repeat' first | apply Json.Plain.append | exact plain_padded _ _ | exact hsep _ (by decide)

/-- A timestamp has 24 characters. -/
@[simp] theorem length_iso8601Now (t : UtcTime) : (iso8601Now t).length = 24 := by
  simp [iso8601Now]

end PqtlsLab

import PqtlsLab.Protocol.FrameStream
import Mathlib.Data.Prod.Lex

/-!
# Reading until a frame is complete

Both connection functions alternate between asking the decoder for a frame and
feeding it what the next read delivers. The alternation ends: a frame is asked for in
vain only while the remainder is shorter than the longest frame, and every read makes
it longer.
-/

namespace PqtlsLab

/-- The order of the quantities that decrease with the steps of the two loops is
well-founded. -/
instance wellFoundedLT_rank : WellFoundedLT (ℕ ×ₗ ℕ ×ₗ ℕ ×ₗ ℕ) := inferInstance

namespace Framing.Decoder

/-- The number of bytes that are missing from the longest frame. -/
def room (d : Decoder) : ℕ := kHeaderSize + d.maxFrameSize - d.remainder.length

/-- The progress of the alternation, before a frame is asked for or before a read. -/
def filling (d : Decoder) (asking : Bool) : ℕ ×ₗ ℕ :=
  toLex (d.room, if asking = decide (d.room = 0) then 0 else 1)

/-- Asking in vain is progress. -/
theorem filling_lt_of_incomplete {d : Decoder}
    (h : front d.maxFrameSize d.remainder = .incomplete) : d.filling false < d.filling true := by
  have hlen := length_of_front_incomplete h
  have hroom : d.room ≠ 0 := by
    unfold room
    omega
  rw [filling, filling, Prod.Lex.toLex_lt_toLex]
  simp [hroom]

/-- Reading is progress. -/
theorem filling_lt_of_longer {d d' : Decoder} (hmax : d'.maxFrameSize = d.maxFrameSize)
    (hlen : d.remainder.length < d'.remainder.length) : d'.filling true < d.filling false := by
  rw [filling, filling, Prod.Lex.toLex_lt_toLex]
  by_cases hfull : d.room = 0
  · have hfull' : d'.room = 0 := by
      unfold room at hfull ⊢
      omega
    simp [hfull, hfull']
  · left
    unfold room at hfull ⊢
    simp only
    omega

end Framing.Decoder

end PqtlsLab

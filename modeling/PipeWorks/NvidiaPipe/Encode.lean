import PipeWorks.NvidiaPipe.Decode
import PipeWorks.NvidiaPipe.EncodedBytes
import PipeWorks.Python.Float

/-!
# The encoder (`nvidia_pipe/encode.py`)

`encode` creates the encoder for the first frame it is given and labels every packet with what it
has read from that frame.  NVENC counts output frames, so the clock of a packet is one over the
whole frame rate that `encoder_fps` has chosen.

`encoderFps_nearest` — this is the whole rate nearest to the one of the stream.
-/

set_option autoImplicit false

namespace PipeWorks.NvidiaPipe.Encode

open Python (PyError float)
open HalfEven
open Decode (GpuFrame)
open EncodedBytes (Value getItem)

/-- The whole frame rate without a usable one. -/
def FALLBACK_FPS : ℕ := 30

/-- `encoder_fps`. -/
def encoderFps : Option ℚ → ℕ
  | none => FALLBACK_FPS
  | some frameRate =>
    if frameRate ≤ 0 then FALLBACK_FPS else (max 1 (halfEven (float frameRate))).toNat

/-- The arguments of `CreateEncoder`, and what `encode` keeps of the first frame. -/
structure Encoder where
  gpuid : ℕ
  codec : String
  bf : ℕ
  fps : ℕ
  gop : ℕ
  idrperiod : ℕ
  cudaStream : Option ℕ
  width : ℕ
  height : ℕ
  pixelFormat : String
  outputTimeBase : ℚ
  deriving DecidableEq, Repr

/-- The branch `encoder is None`, up to the call of `CreateEncoder`. -/
def createEncoder (cudaStream : Option ℕ) (frame : GpuFrame) : Encoder :=
  let fps := encoderFps frame.frameRate
  { gpuid := frame.gpuid
    codec := frame.codec
    bf := 0
    fps := fps
    gop := fps
    idrperiod := fps
    cudaStream := cudaStream
    width := frame.width
    height := frame.height
    pixelFormat := frame.pixelFormat
    outputTimeBase := 1 / fps }

/-- A packet that `encode` yields; `is_keyframe` has still its default. -/
structure EncodedPacket where
  codec : String
  width : ℕ
  height : ℕ
  timeBase : ℚ
  /-- `packet_data.get("timestamp")` -/
  pts : Option Value
  packetData : Value

/-- What is yielded for a packet of the encoder; only a dict has a `get`. -/
def encodedPacket (encoder : Encoder) (packetData : Value) : Except PyError EncodedPacket :=
  match packetData with
  | .dict items => .ok
    { codec := encoder.codec
      width := encoder.width
      height := encoder.height
      timeBase := encoder.outputTimeBase
      pts := getItem items "timestamp"
      packetData := packetData }
  | _ => .error .attributeError

/-! ## The frame rate -/

theorem one_le_encoderFps (frameRate : Option ℚ) : 1 ≤ encoderFps frameRate := by
  unfold encoderFps FALLBACK_FPS
  split
  · decide
  · split
    · decide
    · omega

theorem encoderFps_eq {frameRate : ℚ} (hpos : 0 < frameRate) (hnum : frameRate.num < 2 ^ 31) :
    (encoderFps (some frameRate) : ℤ) = max 1 (halfEven frameRate) := by
  rw [encoderFps, if_neg (not_le.mpr hpos), Python.halfEven_float hpos hnum]
  exact Int.toNat_of_nonneg (by omega)

/-- **The frame rate of the encoder.**  For a rate whose numerator is a 32-bit integer, as those of
the demuxer are, `encoder_fps` answers the whole rate, from one on, that is nearest to it, and in a
tie the even one. -/
theorem encoderFps_nearest (frameRate : ℚ) (hpos : 0 < frameRate) (hnum : frameRate.num < 2 ^ 31) :
    1 ≤ encoderFps (some frameRate) ∧ ∀ n : ℕ, 1 ≤ n → n ≠ encoderFps (some frameRate) →
      |(encoderFps (some frameRate) : ℚ) - frameRate| < |(n : ℚ) - frameRate| ∨
        (|(encoderFps (some frameRate) : ℚ) - frameRate| = |(n : ℚ) - frameRate| ∧
          Even (encoderFps (some frameRate))) := by
  refine ⟨one_le_encoderFps _, fun n hn hne => ?_⟩
  have hfps := encoderFps_eq hpos hnum
  by_cases hround : 1 ≤ halfEven frameRate
  · rw [max_eq_right hround] at hfps
    have hcast : ((encoderFps (some frameRate) : ℕ) : ℚ) = (halfEven frameRate : ℤ) := by
      rw [← hfps]
      rfl
    have hn' : (n : ℤ) ≠ halfEven frameRate := by
      rw [← hfps]
      exact_mod_cast hne
    have hle := abs_halfEven_sub_le_abs frameRate (n : ℤ)
    rw [Int.cast_natCast] at hle
    rw [hcast]
    rcases hle.lt_or_eq with hlt | heq
    · exact .inl hlt
    · refine .inr ⟨heq, ?_⟩
      have heven := even_halfEven (n := (n : ℤ)) heq.symm hn'
      rw [← hfps] at heven
      exact_mod_cast heven
  · -- a rate below one half: every whole rate above one is further away
    rw [max_eq_left (by omega)] at hfps
    have hone : encoderFps (some frameRate) = 1 := by exact_mod_cast hfps
    left
    have hlow : frameRate ≤ 1 / 2 := by
      have hdist := (abs_le.mp (abs_halfEven_sub_le frameRate)).1
      have hzero : halfEven frameRate ≤ 0 := by omega
      have hzero' : (halfEven frameRate : ℚ) ≤ 0 := by exact_mod_cast hzero
      linarith
    have htwo : (2 : ℚ) ≤ n := by
      rw [hone] at hne
      exact_mod_cast (by omega : 2 ≤ n)
    rw [hone, Nat.cast_one, abs_of_nonneg (by linarith), abs_of_nonneg (by linarith)]
    linarith

/-- The rate of NTSC video; a tie. -/
theorem encoderFps_nearest_ntsc :
    (1 ≤ encoderFps (some (30000 / 1001)) ∧ ∀ n : ℕ, 1 ≤ n →
      n ≠ encoderFps (some (30000 / 1001)) →
      |(encoderFps (some (30000 / 1001)) : ℚ) - 30000 / 1001| < |(n : ℚ) - 30000 / 1001| ∨
        (|(encoderFps (some (30000 / 1001)) : ℚ) - 30000 / 1001| = |(n : ℚ) - 30000 / 1001| ∧
          Even (encoderFps (some (30000 / 1001))))) ∧
      encoderFps (some (30000 / 1001)) = 30 ∧ encoderFps (some (25 / 2)) = 12 :=
  ⟨encoderFps_nearest (30000 / 1001) (by norm_num) (by decide +kernel), by decide +kernel,
    by decide +kernel⟩

end PipeWorks.NvidiaPipe.Encode

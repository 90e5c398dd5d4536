import PipeWorks.Lib.AnnexB
import PipeWorks.NvidiaPipe.Receive

/-!
# Which encoded packets are keyframes (`is_idr_keyframe` of `nvidia_pipe/send.py`)

The packet is scanned from start code to start code for a unit of an IDR type.  `scan_annexB` says
what a scan finds that starts anywhere inside a unit; `scan_sound` what any scan that answers
`True` has found.
-/

set_option autoImplicit false

namespace PipeWorks.NvidiaPipe.Keyframe

open AnnexB

/-! ## The code -/

/-- `data.find(sub, start)`; `none` stands for `-1`. -/
def find (data sub : List UInt8) (start : ℕ) : Option ℕ :=
  (List.range' start (data.length - start)).find? fun i => sub.isPrefixOf (data.drop i)

/-- The type of a unit with this header byte. -/
def nalType (normalizedCodec : String) (header : UInt8) : UInt8 :=
  if normalizedCodec = "h264" then header &&& 0x1F else (header >>> 1) &&& 0x3F

/-- The two conditions under which the loop returns `True`. -/
def isIdr (normalizedCodec : String) (header : UInt8) : Bool :=
  (normalizedCodec == "h264" && nalType normalizedCodec header == 5) ||
    ((normalizedCodec == "h265" || normalizedCodec == "hevc") &&
      (nalType normalizedCodec header == 19 || nalType normalizedCodec header == 20))

theorem find_ge {data sub : List UInt8} {offset start : ℕ} (h : find data sub offset = some start) :
    offset ≤ start :=
  (List.mem_range'_1.1 (List.mem_of_find?_eq_some h)).1

/-- The position of the header byte.  The code tells a start code of four bytes from one of three,
but `start` is where the last three begin, so it computes the same in both cases. -/
def headerAt (packetData : List UInt8) (start : ℕ) : ℕ :=
  if 0 < start ∧ packetData[start - 1]? = some 0 then start + 3 else start + 3

theorem headerAt_eq (packetData : List UInt8) (start : ℕ) :
    headerAt packetData start = start + 3 := ite_self _

/-- The `while` loop, from `offset` on. -/
def scan (normalizedCodec : String) (packetData : List UInt8) (offset : ℕ) : Bool :=
  if offset + 3 < packetData.length then
    match _h : find packetData startCode offset with
    | none => false
    | some start =>
      match packetData[headerAt packetData start]? with
      | none => false
      | some byte =>
        if isIdr normalizedCodec byte then true
        else scan normalizedCodec packetData (headerAt packetData start + 1)
  else false
termination_by packetData.length - offset
decreasing_by
  have hstart := find_ge ‹find packetData startCode offset = some _›
  rw [headerAt_eq]
  omega

def isIdrKeyframe (codec : String) (packetData : List UInt8) : Bool :=
  let normalizedCodec := Receive.lower codec
  if normalizedCodec ∈ ["h264", "h265", "hevc"] then scan normalizedCodec packetData 0 else false

/-! ## One search -/

theorem find_eq_some {data : List UInt8} {offset start : ℕ} (hstart : StartsAt data start)
    (hge : offset ≤ start) (hfirst : ∀ j, offset ≤ j → j < start → ¬ StartsAt data j) :
    find data startCode offset = some start := by
  have hlt : start < data.length := (List.getElem?_eq_some_iff.1 hstart.1).1
  refine List.find?_range'_eq_some.2 ⟨?_, List.mem_range'_1.2 ⟨hge, by omega⟩, ?_⟩
  · exact List.isPrefixOf_iff_prefix.2 (startsAt_iff.1 hstart)
  · intro j hj hjs
    have hno := hfirst j hj hjs
    rw [startsAt_iff, ← List.isPrefixOf_iff_prefix, Bool.not_eq_true] at hno
    rw [hno]
    rfl

theorem startsAt_of_find {data : List UInt8} {offset start : ℕ}
    (h : find data startCode offset = some start) : StartsAt data start :=
  startsAt_iff.2 (List.isPrefixOf_iff_prefix.1 (List.find?_range'_eq_some.1 h).1)

theorem scan_none {codec : String} {data : List UInt8} {offset : ℕ}
    (h : ∀ i, offset ≤ i → ¬ StartsAt data i) : scan codec data offset = false := by
  unfold scan
  split
  · split
    · rfl
    · rename_i start hfind
      exact absurd (startsAt_of_find hfind) (h start (find_ge hfind))
  · rfl

/-- A scan that gets to a start code looks at the byte after it and goes on behind that. -/
theorem scan_some {codec : String} {data : List UInt8} {offset start : ℕ} {byte : UInt8}
    (hfind : find data startCode offset = some start) (hbyte : data[start + 3]? = some byte) :
    scan codec data offset = (isIdr codec byte || scan codec data (start + 3 + 1)) := by
  have hge := find_ge hfind
  have hlt := (List.getElem?_eq_some_iff.1 hbyte).1
  rw [scan, if_pos (by omega)]
  split
  · rename_i hnone
    rw [hfind] at hnone
    cases hnone
  · rename_i start' hstart'
    rw [hfind] at hstart'
    cases hstart'
    simp only [headerAt_eq, hbyte]
    cases isIdr codec byte <;> rfl

/-! ## The scan -/

/-- The next start code is the one of the unit that follows. -/
theorem find_annexB (zeros : ℕ) (u : NalUnit) (units : List (ℕ × NalUnit)) (pre : List UInt8)
    {body : List UInt8} (hclean : ∀ i, ¬ StartsAt body i) :
    find (pre ++ (body ++ annexB ((zeros, u) :: units))) startCode pre.length =
      some (pre.length + (body.length + zeros)) := by
  refine find_eq_some ?_ (Nat.le_add_right _ _) fun j hj hjs => ?_
  · rw [startsAt_append]
    exact startsAt_next zeros _ body
  · obtain ⟨k, rfl⟩ := Nat.exists_eq_add_of_le hj
    rw [startsAt_append]
    exact not_startsAt_before zeros _ hclean (by omega)

/-- **A scan that starts inside a unit** finds the units after it. -/
theorem scan_annexB (codec : String) (units : List (ℕ × NalUnit)) :
    ∀ (pre body : List UInt8), (∀ i, ¬ StartsAt body i) →
      (scan codec (pre ++ (body ++ annexB units)) pre.length = true ↔
        ∃ u ∈ units, isIdr codec u.2.header = true) := by
  induction units with
  | nil =>
    intro pre body hclean
    rw [scan_none]
    · simp
    · intro i hi hstart
      obtain ⟨k, rfl⟩ := Nat.exists_eq_add_of_le hi
      rw [startsAt_append, annexB, List.append_nil] at hstart
      exact hclean k hstart
  | cons unit units ih =>
    intro pre body hclean
    obtain ⟨zeros, u⟩ := unit
    have hfind := find_annexB zeros u units pre hclean
    -- the rest of the data, as it stands after the header byte
    have hsplit : pre ++ (body ++ annexB ((zeros, u) :: units)) =
        (pre ++ body ++ List.replicate zeros 0 ++ startCode ++ [u.header]) ++
          (u.payload ++ annexB units) := by
      simp [annexB]
    have hlength : (pre ++ body ++ List.replicate zeros 0 ++ startCode ++ [u.header]).length =
        pre.length + (body.length + zeros) + 3 + 1 := by
      simp [startCode]
      omega
    have hbyte : (pre ++ (body ++ annexB ((zeros, u) :: units)))[
        pre.length + (body.length + zeros) + 3]? = some u.header := by
      have hheader : (pre ++ body ++ List.replicate zeros 0 ++ startCode).length =
          pre.length + (body.length + zeros) + 3 := by
        rw [List.length_append, List.length_singleton] at hlength
        omega
      rw [hsplit, List.getElem?_append_left (by omega), ← hheader, List.getElem?_concat_length]
    rw [scan_some hfind hbyte, hsplit, ← hlength, Bool.or_eq_true, ih _ _ u.payload_clean]
    simp

/-- **A scan that answers `True`** has seen such a header byte after a start code. -/
theorem scan_sound (codec : String) (data : List UInt8) (offset : ℕ)
    (h : scan codec data offset = true) :
    ∃ i header, StartsAt data i ∧ data[i + 3]? = some header ∧ isIdr codec header = true := by
  fun_induction scan codec data offset with
  | case1 => cases h
  | case2 => cases h
  | case3 offset _ start hfind byte hbyte hidr =>
    rw [headerAt_eq] at hbyte
    exact ⟨start, byte, startsAt_of_find hfind, hbyte, hidr⟩
  | case4 _ _ _ _ _ _ _ ih => exact ih h
  | case5 => cases h

/-! ## Keyframes -/

/-- The header byte of an IDR unit: type 5 of H.264, type 19 or 20 of H.265. -/
def IdrHeader (codec : String) (header : UInt8) : Prop :=
  codec = "h264" ∧ header &&& 0x1F = 5 ∨
    (codec = "h265" ∨ codec = "hevc") ∧
      ((header >>> 1) &&& 0x3F = 19 ∨ (header >>> 1) &&& 0x3F = 20)

theorem isIdr_iff (codec : String) (header : UInt8) :
    isIdr codec header = true ↔ IdrHeader codec header := by
  unfold isIdr nalType IdrHeader
  by_cases h264 : codec = "h264"
  · subst h264
    simp
  · simp [h264]

/-- Only packets of the three codecs are scanned. -/
theorem isIdrKeyframe_eq (codec : String) (packetData : List UInt8) :
    isIdrKeyframe codec packetData = scan (Receive.lower codec) packetData 0 := by
  unfold isIdrKeyframe
  simp only
  split
  · rfl
  · rename_i hother
    cases hscan : scan (Receive.lower codec) packetData 0 with
    | false => rfl
    | true =>
      obtain ⟨_, header, -, -, hidr⟩ := scan_sound _ _ _ hscan
      rw [isIdr_iff, IdrHeader] at hidr
      exact absurd (by rcases hidr with ⟨h, -⟩ | ⟨h | h, -⟩ <;> simp [h]) hother

theorem header_within {data : List UInt8} {i : ℕ} {header : UInt8} (h : StartsAt data i)
    (hheader : data[i + 3]? = some header) : startCode ++ [header] <:+: data := by
  have hprefix : startCode ++ [header] <+: data.drop i := by
    obtain ⟨rest, hrest⟩ := startsAt_iff.1 h
    rw [← List.getElem?_drop, ← hrest, List.getElem?_append_right (by decide)] at hheader
    obtain ⟨tail, rfl⟩ : ∃ tail, rest = header :: tail := by
      cases rest with
      | nil => cases hheader
      | cons x tail =>
        cases hheader
        exact ⟨tail, rfl⟩
    exact ⟨tail, by rw [← hrest, List.append_assoc]; rfl⟩
  exact hprefix.isInfix.trans (List.drop_suffix i data).isInfix

/-- **IDR detection**: of a stream of units it says whether one has an IDR type, and of any bytes it
says so only if a start code is followed by such a header byte. -/
theorem isIdrKeyframe_correct (codec : String) :
    (∀ units : List (ℕ × NalUnit), isIdrKeyframe codec (annexB units) = true ↔
      ∃ u ∈ units, IdrHeader (Receive.lower codec) u.2.header) ∧
    ∀ packetData : List UInt8, isIdrKeyframe codec packetData = true →
      ∃ header, startCode ++ [header] <:+: packetData ∧
        IdrHeader (Receive.lower codec) header := by
  constructor
  · intro units
    have hscan := scan_annexB (Receive.lower codec) units [] [] fun i h => by cases h.1
    rw [isIdrKeyframe_eq]
    simpa only [isIdr_iff, List.nil_append, List.length_nil] using hscan
  · intro packetData h
    rw [isIdrKeyframe_eq] at h
    obtain ⟨i, header, hstart, hheader, hidr⟩ := scan_sound _ _ _ h
    exact ⟨header, header_within hstart hheader, (isIdr_iff _ _).1 hidr⟩

end PipeWorks.NvidiaPipe.Keyframe

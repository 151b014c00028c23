import Mathlib.Tactic

/-! Strings as their UTF-8 bytes. -/
namespace Utf8

/-- `str::as_bytes`. -/
def asBytes (s : String) : List UInt8 := s.toByteArray.data.toList

/-- `str::from_utf8`. -/
def fromUtf8 (bytes : List UInt8) : Option String :=
  if h : (ByteArray.mk bytes.toArray).IsValidUTF8 then some (.ofByteArray _ h) else none

theorem asBytes_of_fromUtf8 {bytes : List UInt8} {s : String} (h : fromUtf8 bytes = some s) :
    asBytes s = bytes := by
  unfold fromUtf8 at h
  split at h
  · cases h
    simp [asBytes]
  · cases h

@[simp] theorem fromUtf8_asBytes (s : String) : fromUtf8 (asBytes s) = some s := by
  have hbytes : ByteArray.mk s.toByteArray.data.toList.toArray = s.toByteArray := by simp
  simp [fromUtf8, asBytes, hbytes, s.isValidUTF8]

theorem fromUtf8_eq_some {bytes : List UInt8} {s : String} :
    fromUtf8 bytes = some s ↔ asBytes s = bytes :=
  ⟨asBytes_of_fromUtf8, fun h => by rw [← h, fromUtf8_asBytes]⟩

theorem asBytes_inj {s t : String} (h : asBytes s = asBytes t) : s = t := by
  have hs := fromUtf8_asBytes s
  rw [h, fromUtf8_asBytes] at hs
  exact (Option.some.inj hs).symm

theorem asBytes_eq_nil {s : String} : asBytes s = [] ↔ s = "" :=
  ⟨fun h => asBytes_inj (h.trans rfl), fun h => by rw [h]; rfl⟩

theorem asBytes_append (s t : String) : asBytes (s ++ t) = asBytes s ++ asBytes t := by
  simp [asBytes, String.toByteArray_append]

/-! ### Lossy decoding -/

/-- Whether `c` may follow the lead byte `b` of a sequence of two to four bytes. -/
def secondFits (b c : UInt8) : Bool :=
  if 0xC2 ≤ b ∧ b ≤ 0xDF then 0x80 ≤ c ∧ c ≤ 0xBF
  else if b = 0xE0 then 0xA0 ≤ c ∧ c ≤ 0xBF
  else if b = 0xED then 0x80 ≤ c ∧ c ≤ 0x9F
  else if 0xE1 ≤ b ∧ b ≤ 0xEF then 0x80 ≤ c ∧ c ≤ 0xBF
  else if b = 0xF0 then 0x90 ≤ c ∧ c ≤ 0xBF
  else if 0xF1 ≤ b ∧ b ≤ 0xF3 then 0x80 ≤ c ∧ c ≤ 0xBF
  else if b = 0xF4 then 0x80 ≤ c ∧ c ≤ 0x8F
  else false

/-- How many bytes in front of an ill-formed text one replacement character stands for: the longest
start of a sequence, or one byte. -/
def illFormedLength : List UInt8 → ℕ
  | b :: c :: d :: _ =>
    if secondFits b c then if 0xF0 ≤ b ∧ 0x80 ≤ d ∧ d ≤ 0xBF then 3 else 2 else 1
  | [b, c] => if secondFits b c then 2 else 1
  | _ => 1

/-- The text in front, as its string and length, when it starts with one well-formed sequence. -/
def frontChar (bytes : List UInt8) : Option (String × ℕ) :=
  [1, 2, 3, 4].findSome? fun n =>
    if bytes.length < n then none else (fromUtf8 (bytes.take n)).map fun s => (s, n)

/-- The replacement loop, for at most `fuel` characters. -/
def replaceIllFormed : ℕ → List UInt8 → String
  | 0, _ => ""
  | _, [] => ""
  | fuel + 1, bytes =>
    match frontChar bytes with
    | some (s, n) => s ++ replaceIllFormed fuel (bytes.drop n)
    | none => "\uFFFD" ++ replaceIllFormed fuel (bytes.drop (illFormedLength bytes))

/-- `String::from_utf8_lossy`: well-formed text as it is, U+FFFD for every ill-formed part. A
character takes at least one byte, so the loop comes to the end. -/
def fromUtf8Lossy (bytes : List UInt8) : String :=
  match fromUtf8 bytes with
  | some s => s
  | none => replaceIllFormed bytes.length bytes

theorem fromUtf8Lossy_of_valid {bytes : List UInt8} {s : String} (h : fromUtf8 bytes = some s) :
    fromUtf8Lossy bytes = s := by
  rw [fromUtf8Lossy, h]

example : fromUtf8Lossy [0x61, 0xE2, 0x82, 0x62] = "a\uFFFDb" := by decide +kernel

theorem illFormedLength_pos (bytes : List UInt8) : 0 < illFormedLength bytes := by
  unfold illFormedLength
  split
  · split_ifs <;> omega
  · split_ifs <;> omega
  · omega

theorem frontChar_eq_some {bytes : List UInt8} {s : String} {n : ℕ}
    (h : frontChar bytes = some (s, n)) : n ≤ bytes.length ∧ (asBytes s).length = n := by
  obtain ⟨k, -, hk⟩ := List.exists_of_findSome?_eq_some h
  split_ifs at hk with hlt
  obtain ⟨s', hs, heq⟩ := Option.map_eq_some_iff.mp hk
  cases heq
  have hbytes := asBytes_of_fromUtf8 hs
  rw [hbytes, List.length_take]
  omega

theorem length_replaceIllFormed_le (fuel : ℕ) (bytes : List UInt8) :
    (asBytes (replaceIllFormed fuel bytes)).length ≤ 3 * bytes.length := by
  induction fuel generalizing bytes with
  | zero => simp [replaceIllFormed, asBytes]
  | succ fuel ih =>
    cases bytes with
    | nil => simp [replaceIllFormed, asBytes]
    | cons b rest =>
      rw [replaceIllFormed]
      · split
        · next s n hfront =>
          obtain ⟨hn, hs⟩ := frontChar_eq_some hfront
          have := ih ((b :: rest).drop n)
          rw [asBytes_append, List.length_append, hs]
          rw [List.length_drop] at this
          omega
        · have := ih ((b :: rest).drop (illFormedLength (b :: rest)))
          have hpos := illFormedLength_pos (b :: rest)
          have hmark : (asBytes "\uFFFD").length = 3 := by decide +kernel
          rw [asBytes_append, List.length_append, hmark]
          rw [List.length_drop] at this
          simp only [List.length_cons] at *
          omega
      · simp

/-- A replacement character takes three bytes, and stands for at least one. -/
theorem length_fromUtf8Lossy_le (bytes : List UInt8) :
    (asBytes (fromUtf8Lossy bytes)).length ≤ 3 * bytes.length := by
  unfold fromUtf8Lossy
  split
  · next s h =>
    rw [asBytes_of_fromUtf8 h]
    omega
  · exact length_replaceIllFormed_le _ _
end Utf8

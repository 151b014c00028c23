import ToyTcpip.Ipv4

/-! RLC data PDUs and status PDUs of `rlc_5g.rs`, written and read back. -/
namespace ToyTcpip.Rlc

inductive RlcAmSnSize where
  | am12Bits
  | am18Bits
  deriving DecidableEq

def RlcAmSnSize.maxSn : RlcAmSnSize → ℕ
  | .am12Bits => 4095
  | .am18Bits => 262143

inductive RlcSegmentationInfo where
  | full
  | firstSegment
  | lastSegment
  | middleSegment
  deriving DecidableEq

namespace RlcSegmentationInfo

def toU8 : RlcSegmentationInfo → UInt8
  | .full => 0
  | .firstSegment => 1
  | .lastSegment => 2
  | .middleSegment => 3

def fromU8 (val : UInt8) : RlcSegmentationInfo :=
  let bits := val &&& 0x03
  if bits = 0 then .full else if bits = 1 then .firstSegment else if bits = 2 then .lastSegment
  else .middleSegment

def hasSo : RlcSegmentationInfo → Bool
  | .lastSegment | .middleSegment => true
  | .full | .firstSegment => false

end RlcSegmentationInfo

structure RlcAmDataPdu where
  snSize : RlcAmSnSize
  poll : Bool
  si : RlcSegmentationInfo
  sn : ℕ
  so : Option ℕ
  payload : List UInt8
  deriving DecidableEq

namespace RlcAmDataPdu

def header (p : RlcAmDataPdu) : List UInt8 :=
  let pBit : UInt8 := if p.poll then 0x40 else 0x00
  let siBits := p.si.toU8 <<< 4
  match p.snSize with
  | .am12Bits => [(0x80 : UInt8) ||| pBit ||| siBits ||| UInt8.ofNat (p.sn >>> 10 &&& 0x03),
      UInt8.ofNat (p.sn >>> 2 &&& 0xFF), UInt8.ofNat (p.sn &&& 0x03) <<< 6]
  | .am18Bits => [(0x80 : UInt8) ||| pBit ||| siBits ||| UInt8.ofNat (p.sn >>> 16 &&& 0x03),
      UInt8.ofNat (p.sn >>> 8 &&& 0xFF), UInt8.ofNat (p.sn &&& 0xFF)]

def serialize (p : RlcAmDataPdu) : List UInt8 :=
  p.header ++ (if p.si.hasSo then toBeBytes16 (p.so.getD 0) else []) ++ p.payload

def parse (snSize : RlcAmSnSize) (data : List UInt8) : Except String RlcAmDataPdu :=
  if data.length < 3 then .error "RLC AM PDU too short for header"
  else if byteAt data 0 &&& 0x80 = 0 then
    .error "Expected AM Data PDU (D/C=1), found Control PDU"
  else
    let poll : Bool := byteAt data 0 &&& 0x40 ≠ 0
    let si := RlcSegmentationInfo.fromU8 ((byteAt data 0 >>> 4) &&& 0x03)
    let sn := match snSize with
      | .am12Bits => (byteAt data 0 &&& 0x03).toNat <<< 10 ||| (byteAt data 1).toNat <<< 2 |||
          ((byteAt data 2 >>> 6) &&& 0x03).toNat
      | .am18Bits => (byteAt data 0 &&& 0x03).toNat <<< 16 ||| (byteAt data 1).toNat <<< 8 |||
          (byteAt data 2).toNat
    if si.hasSo then
      if data.length < 3 + 2 then .error "RLC AM PDU too short for Segment Offset (SO)"
      else .ok ⟨snSize, poll, si, sn, some (wordAt data 3), data.drop 5⟩
    else .ok ⟨snSize, poll, si, sn, none, data.drop 3⟩

/-- A PDU whose numbers fit their fields, with an offset exactly where there is a field for it. -/
structure Fits (p : RlcAmDataPdu) : Prop where
  sn : p.sn ≤ p.snSize.maxSn
  so : ∀ o ∈ p.so, o < 2 ^ 16
  hasSo : p.so.isSome = p.si.hasSo

end RlcAmDataPdu

structure RlcNackRange where
  nackSn : ℕ
  soStart : Option ℕ
  soEnd : Option ℕ
  deriving DecidableEq

structure RlcStatusPdu where
  ackSn : ℕ
  nacks : List RlcNackRange
  deriving DecidableEq

namespace RlcStatusPdu

/-- Four bits, eight bits, six bits and the extension bit. -/
def snBytes (sn : ℕ) (e1 : Bool) : List UInt8 :=
  [UInt8.ofNat (sn >>> 14 &&& 0x0F), UInt8.ofNat (sn >>> 6 &&& 0xFF),
    (UInt8.ofNat (sn &&& 0x3F) <<< 2) ||| if e1 then 0x02 else 0x00]

def nackBytes : List RlcNackRange → List UInt8
  | [] => []
  | nack :: rest => snBytes nack.nackSn (!rest.isEmpty) ++ nackBytes rest

def serialize (s : RlcStatusPdu) : List UInt8 :=
  snBytes s.ackSn (!s.nacks.isEmpty) ++ nackBytes s.nacks

def readSn (b0 b1 b2 : UInt8) : ℕ :=
  (b0 &&& 0x0F).toNat <<< 14 ||| b1.toNat <<< 6 ||| ((b2 >>> 2) &&& 0x3F).toNat

def parseNacks : Bool → List UInt8 → List RlcNackRange
  | true, b0 :: b1 :: b2 :: rest => ⟨readSn b0 b1 b2, none, none⟩ ::
    parseNacks (b2 &&& 0x02 ≠ 0) rest
  | _, _ => []

def parse (data : List UInt8) : Except String RlcStatusPdu :=
  if data.length < 3 then .error "RLC Status PDU too short"
  else if byteAt data 0 &&& 0x80 ≠ 0 then .error "Expected Control PDU (D/C=0), found Data PDU"
  else .ok ⟨readSn (byteAt data 0) (byteAt data 1) (byteAt data 2),
    parseNacks (byteAt data 2 &&& 0x02 ≠ 0) (data.drop 3)⟩

end RlcStatusPdu

/-! ### Bit fields -/

theorem and_03 (n : ℕ) : n &&& 0x03 = n % 2 ^ 2 := Nat.and_two_pow_sub_one_eq_mod n 2

theorem and_0F (n : ℕ) : n &&& 0x0F = n % 2 ^ 4 := Nat.and_two_pow_sub_one_eq_mod n 4

theorem and_3F (n : ℕ) : n &&& 0x3F = n % 2 ^ 6 := Nat.and_two_pow_sub_one_eq_mod n 6

theorem and_FF (n : ℕ) : n &&& 0xFF = n % 2 ^ 8 := Nat.and_two_pow_sub_one_eq_mod n 8

/-- Three fields next to each other. -/
theorem fields_eq {a b c i j : ℕ} (hb : b < 2 ^ i) (hc : c < 2 ^ j) :
    a <<< (i + j) ||| b <<< j ||| c = (a * 2 ^ i + b) * 2 ^ j + c := by
  rw [Nat.shiftLeft_add, ← Nat.shiftLeft_or_distrib, ← Nat.shiftLeft_add_eq_or_of_lt hb,
    ← Nat.shiftLeft_add_eq_or_of_lt hc, Nat.shiftLeft_eq, Nat.shiftLeft_eq]

theorem first_byte (poll : Bool) (si : RlcSegmentationInfo) {a : ℕ} (ha : a < 4) :
    let b : UInt8 := (0x80 : UInt8) ||| (if poll then (0x40 : UInt8) else 0x00) |||
      si.toU8 <<< 4 ||| UInt8.ofNat a
    b &&& 0x80 ≠ 0 ∧ decide (b &&& 0x40 ≠ 0) = poll ∧
      RlcSegmentationInfo.fromU8 ((b >>> 4) &&& 0x03) = si ∧ (b &&& 0x03).toNat = a := by
  interval_cases a <;> cases poll <;> cases si <;> decide

theorem last_byte {a : ℕ} (ha : a < 4) : (((UInt8.ofNat a <<< 6) >>> 6) &&& 0x03).toNat = a := by
  interval_cases a <;> decide

theorem status_byte (e1 : Bool) {a : ℕ} (ha : a < 64) :
    let b : UInt8 := (UInt8.ofNat a <<< 2) ||| if e1 then 0x02 else 0x00
    ((b >>> 2) &&& 0x3F).toNat = a ∧ decide (b &&& 0x02 ≠ 0) = e1 := by
  interval_cases a <;> cases e1 <;> decide

theorem high_byte {a : ℕ} (ha : a < 16) : (UInt8.ofNat a &&& 0x0F).toNat = a ∧
    UInt8.ofNat a &&& 0x80 = 0 := by
  interval_cases a <;> decide

theorem toNat_ofNat_lt {a : ℕ} (ha : a < 256) : (UInt8.ofNat a).toNat = a := by
  rw [UInt8.toNat_ofNat', Nat.mod_eq_of_lt ha]

/-! ### Round trips -/

namespace RlcAmDataPdu

variable {p : RlcAmDataPdu}

/-- The three header bytes give back what is in them. -/
theorem header_cases (h : p.sn ≤ p.snSize.maxSn) : ∃ b0 b1 b2, p.header = [b0, b1, b2] ∧
    b0 &&& 0x80 ≠ 0 ∧
    decide (b0 &&& 0x40 ≠ 0) = p.poll ∧ RlcSegmentationInfo.fromU8 ((b0 >>> 4) &&& 0x03) = p.si ∧
    (match p.snSize with
      | .am12Bits => (b0 &&& 0x03).toNat <<< 10 ||| b1.toNat <<< 2 ||| ((b2 >>> 6) &&& 0x03).toNat
      | .am18Bits => (b0 &&& 0x03).toNat <<< 16 ||| b1.toNat <<< 8 ||| b2.toNat) = p.sn := by
  obtain ⟨snSize, poll, si, sn, so, payload⟩ := p
  have hmod : ∀ n i : ℕ, n % 2 ^ i < 2 ^ i := fun n i => Nat.mod_lt _ (Nat.two_pow_pos i)
  cases snSize with
  | am12Bits =>
    obtain ⟨hdc, hpoll, hsi, hsn⟩ := first_byte poll si (hmod (sn >>> 10) 2)
    simp only [header, and_03, and_FF]
    refine ⟨_, _, _, rfl, hdc, hpoll, hsi, ?_⟩
    simp only [RlcAmSnSize.maxSn] at h
    rw [hsn, last_byte (hmod sn 2), toNat_ofNat_lt (hmod _ 8),
      @fields_eq _ _ _ 8 2 (hmod _ 8) (hmod sn 2)]
    simp only [Nat.shiftRight_eq_div_pow]
    omega
  | am18Bits =>
    obtain ⟨hdc, hpoll, hsi, hsn⟩ := first_byte poll si (hmod (sn >>> 16) 2)
    simp only [header, and_03, and_FF]
    refine ⟨_, _, _, rfl, hdc, hpoll, hsi, ?_⟩
    simp only [RlcAmSnSize.maxSn] at h
    rw [hsn, toNat_ofNat_lt (hmod _ 8), toNat_ofNat_lt (hmod _ 8),
      @fields_eq _ _ _ 8 8 (hmod _ 8) (hmod sn 8)]
    simp only [Nat.shiftRight_eq_div_pow]
    omega

theorem parse_serialize (h : p.Fits) : parse p.snSize p.serialize = .ok p := by
  obtain ⟨b0, b1, b2, hheader, hdc, hpoll, hsi, hsn⟩ := header_cases h.sn
  obtain ⟨-, hso, hhas⟩ := h
  obtain ⟨snSize, poll, si, sn, so, payload⟩ := p
  dsimp only at *
  have h0 : ∀ l, byteAt ([b0, b1, b2] ++ l) 0 = b0 := fun _ => rfl
  have h1 : ∀ l, byteAt ([b0, b1, b2] ++ l) 1 = b1 := fun _ => rfl
  have h2 : ∀ l, byteAt ([b0, b1, b2] ++ l) 2 = b2 := fun _ => rfl
  unfold parse
  rw [serialize, hheader, List.append_assoc]
  simp only [h0, h1, h2, hsi, hpoll, hsn]
  rw [if_neg (by simp), if_neg hdc]
  cases hsi' : si.hasSo with
  | false =>
    rw [hsi', Option.isSome_eq_false_iff, Option.isNone_iff_eq_none] at hhas
    subst hhas
    rfl
  | true =>
    rw [hsi', Option.isSome_iff_exists] at hhas
    obtain ⟨o, rfl⟩ := hhas
    have hword : wordAt ([b0, b1, b2] ++ (toBeBytes16 o ++ payload)) 3 = o :=
      wordAt_append [b0, b1, b2] payload (hso o rfl)
    simp only [if_true, Option.getD_some, hword]
    rw [if_neg (by simp [toBeBytes16])]
    rfl

end RlcAmDataPdu

namespace RlcStatusPdu

variable {nacks : List RlcNackRange}

theorem readSn_snBytes (sn : ℕ) (e1 : Bool) : ∃ b0 b1 b2, snBytes sn e1 = [b0, b1, b2] ∧
    readSn b0 b1 b2 = sn % 2 ^ 18 ∧ decide (b2 &&& 0x02 ≠ 0) = e1 ∧ b0 &&& 0x80 = 0 := by
  have hmod : ∀ n i : ℕ, n % 2 ^ i < 2 ^ i := fun n i => Nat.mod_lt _ (Nat.two_pow_pos i)
  obtain ⟨hlow, he1⟩ := status_byte e1 (hmod sn 6)
  obtain ⟨hhigh, hdc⟩ := high_byte (hmod (sn >>> 14) 4)
  simp only [snBytes, and_0F, and_3F, and_FF]
  refine ⟨_, _, _, rfl, ?_, he1, hdc⟩
  rw [readSn, hlow, hhigh, toNat_ofNat_lt (hmod _ 8), @fields_eq _ _ _ 8 6 (hmod _ 8) (hmod sn 6)]
  simp only [Nat.shiftRight_eq_div_pow]
  omega

theorem parseNacks_nackBytes : parseNacks (!nacks.isEmpty) (nackBytes nacks) =
    nacks.map fun n => ⟨n.nackSn % 2 ^ 18, none, none⟩ := by
  induction nacks with
  | nil => rfl
  | cons n rest ih =>
    obtain ⟨b0, b1, b2, hbytes, hsn, he1, -⟩ := readSn_snBytes n.nackSn (!rest.isEmpty)
    rw [nackBytes, hbytes]
    simp only [List.isEmpty_cons, Bool.not_false, List.cons_append, List.nil_append,
      parseNacks, he1, ih, hsn, List.map_cons]

/-- Sequence numbers come back modulo 2^18. -/
theorem parse_serialize (s : RlcStatusPdu) : parse s.serialize =
    .ok ⟨s.ackSn % 2 ^ 18, s.nacks.map fun n => ⟨n.nackSn % 2 ^ 18, none, none⟩⟩ := by
  obtain ⟨b0, b1, b2, hbytes, hsn, he1, hdc⟩ := readSn_snBytes s.ackSn (!s.nacks.isEmpty)
  rw [parse, serialize, hbytes]
  have hlen : ¬ ([b0, b1, b2] ++ nackBytes s.nacks).length < 3 := by simp
  rw [if_neg hlen, if_neg (by simpa [byteAt] using hdc)]
  simp only [byteAt, List.cons_append, List.nil_append, List.getD_cons_zero, List.getD_cons_succ,
    List.drop_succ_cons, List.drop_zero, he1, hsn, parseNacks_nackBytes]

end RlcStatusPdu

end ToyTcpip.Rlc

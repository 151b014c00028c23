import ToyTcpip.Bytes
import ToyTcpip.Tcp.OptionSpace
import ToyTcpip.Tcp.Segment

/-! The segment parser of `tcp.rs`, with every read of the input checked. -/
namespace ToyTcpip.Tcp

open Checked (index slice Safe safe_ok safe_error safe_ite safe_index safe_slice)

def TcpFlags.fromU8 (val : UInt8) : TcpFlags where
  fin := val &&& 0x01 ≠ 0
  syn := val &&& 0x02 ≠ 0
  rst := val &&& 0x04 ≠ 0
  psh := val &&& 0x08 ≠ 0
  ack := val &&& 0x10 ≠ 0
  urg := val &&& 0x20 ≠ 0

inductive TcpError where
  | segmentTooShort (len : ℕ)
  | invalidDataOffset (dataOffset : UInt8)
  | dataOffsetExceedsLength (offsetBytes available : ℕ)
  | truncatedOption (offset : ℕ) (kind : UInt8)
  | invalidOptionLength (offset : ℕ) (kind length : UInt8)
  | optionLengthExceedsHeader (offset : ℕ) (kind length : UInt8) (remaining : ℕ)
  | invalidChecksum (found : BitVec 16)
  deriving DecidableEq, Repr

/-- A segment as it was received, with the fields the wire format derives. -/
structure ParsedSegment extends TcpSegment where
  dataOffset : UInt8
  checksum : BitVec 16
  urgentPtr : BitVec 16
  deriving DecidableEq, Repr

def readBlocks {ε : Type} (data : List UInt8) : ℕ → ℕ → Checked ε (List (SeqNum × SeqNum))
  | 0, _ => .ok []
  | count + 1, off => do
    let left ← read32 data off
    let right ← read32 data (off + 4)
    let blocks ← readBlocks data count (off + 8)
    .ok ((left, right) :: blocks)

/-- The option of kind `kind` that takes `length` bytes from `off`. -/
def parseOption (data : List UInt8) (off : ℕ) (kind length : UInt8) :
    Checked TcpError TcpOption :=
  let len := length.toNat
  if kind = 2 then
    if len ≠ 4 then .error (.invalidOptionLength off kind length)
    else (read16 data (off + 2)).bind fun mss => .ok (.mss mss)
  else if kind = 3 then
    if len ≠ 3 then .error (.invalidOptionLength off kind length)
    else (index data (off + 2)).bind fun scale => .ok (.windowScale scale)
  else if kind = 4 ∧ len = 2 then .ok .sackPermitted
  else if kind = 5 ∧ 10 ≤ len ∧ (len - 2) % 8 = 0 then
    (readBlocks data ((len - 2) / 8) (off + 2)).bind fun blocks => .ok (.sack blocks)
  else if kind = 8 ∧ len = 10 then
    (read32 data (off + 2)).bind fun val =>
      (read32 data (off + 6)).bind fun ecr => .ok (.timestamp val ecr)
  else (slice data (off + 2) (off + len)).bind fun optData => .ok (.unknown kind optData)

/-- The walk over the options between `off` and `offsetBytes`. -/
def parseOptions (data : List UInt8) (offsetBytes off : ℕ) : Checked TcpError (List TcpOption) :=
  if off < offsetBytes then
    (index data off).bind fun kind =>
      if kind = 0 then .ok [.endOfOptions]
      else if kind = 1 then
        (parseOptions data offsetBytes (off + 1)).bind fun rest => .ok (.nop :: rest)
      else if off + 1 ≥ offsetBytes then .error (.truncatedOption off kind)
      else
        (index data (off + 1)).bind fun length =>
          if length.toNat < 2 then .error (.invalidOptionLength off kind length)
          else if length.toNat > offsetBytes - off then
            .error (.optionLengthExceedsHeader off kind length (offsetBytes - off))
          else
            (parseOption data off kind length).bind fun opt =>
              (parseOptions data offsetBytes (off + length.toNat)).bind fun rest =>
                .ok (opt :: rest)
  else .ok []
termination_by offsetBytes - off

def TcpSegment.parse (srcIp dstIp : Ipv4Address) (data : List UInt8) (checkChecksum : Bool) :
    Checked TcpError ParsedSegment :=
  if data.length < tcpMinHeaderLen then .error (.segmentTooShort data.length)
  else do
    let srcPort ← read16 data 0
    let dstPort ← read16 data 2
    let seqNum ← read32 data 4
    let ackNum ← read32 data 8
    let offsetByte ← index data 12
    let dataOffset := offsetByte >>> 4
    if dataOffset < 5 then .error (.invalidDataOffset dataOffset)
    else
      let offsetBytes := dataOffset.toNat * 4
      if offsetBytes > data.length then .error (.dataOffsetExceedsLength offsetBytes data.length)
      else do
        let flagsRaw ← index data 13
        let windowSize ← read16 data 14
        let checksum ← read16 data 16
        let urgentPtr ← read16 data 18
        if checkChecksum && !verifyIpv4TransportChecksum srcIp.octets dstIp.octets 6 data then
          .error (.invalidChecksum checksum)
        else do
          let options ← parseOptions data offsetBytes tcpMinHeaderLen
          let payload ← slice data offsetBytes data.length
          .ok ⟨⟨srcPort, dstPort, seqNum, ackNum, .fromU8 flagsRaw, windowSize, options, payload⟩,
            dataOffset, checksum, urgentPtr⟩

/-! ### No read is outside the input -/

section safe

variable {ε : Type} {data : List UInt8} {off offsetBytes : ℕ}

theorem safe_readBlocks (count : ℕ) (h : off + count * 8 ≤ data.length) :
    Safe (readBlocks data count off : Checked ε _) := by
  induction count generalizing off with
  | zero => exact safe_ok _
  | succ count ih =>
    simp only [readBlocks, Checked.bind_def]
    refine (safe_read32 (by omega)).bind fun left _ => ?_
    refine (safe_read32 (by omega)).bind fun right _ => ?_
    exact (ih (by omega)).bind fun blocks _ => safe_ok _

theorem safe_parseOption {kind length : UInt8} (hlen : 2 ≤ length.toNat)
    (h : off + length.toNat ≤ data.length) : Safe (parseOption data off kind length) := by
  simp only [parseOption]
  split_ifs
  · exact safe_error _
  · exact (safe_read16 (by omega)).bind fun _ _ => safe_ok _
  · exact safe_error _
  · exact (safe_index (by omega)).bind fun _ _ => safe_ok _
  · exact safe_ok _
  · exact (safe_readBlocks _ (by omega)).bind fun _ _ => safe_ok _
  · refine (safe_read32 (by omega)).bind fun _ _ => ?_
    exact (safe_read32 (by omega)).bind fun _ _ => safe_ok _
  · exact (safe_slice (by omega) (by omega)).bind fun _ _ => safe_ok _

theorem safe_parseOptions (h : offsetBytes ≤ data.length) :
    Safe (parseOptions data offsetBytes off) := by
  induction off using parseOptions.induct offsetBytes with
  | case1 off hlt ihNop ihNext =>
    rw [parseOptions, if_pos hlt]
    refine (safe_index (by omega)).bind fun kind _ => ?_
    split_ifs with h0 h1 h2
    · exact safe_ok _
    · exact (ihNop).bind fun _ _ => safe_ok _
    · exact safe_error _
    · refine (safe_index (by omega)).bind fun length _ => ?_
      split_ifs with hl hr
      · exact safe_error _
      · exact safe_error _
      · refine (safe_parseOption (by omega) (by omega)).bind fun opt _ => ?_
        exact (ihNext h2 length hl hr).bind fun _ _ => safe_ok _
  | case2 off hge =>
    rw [parseOptions, if_neg hge]
    exact safe_ok _

theorem safe_parse (srcIp dstIp : Ipv4Address) (data : List UInt8) (checkChecksum : Bool) :
    Safe (TcpSegment.parse srcIp dstIp data checkChecksum) := by
  refine safe_ite (fun _ => safe_error _) fun hlen => ?_
  simp only [tcpMinHeaderLen] at hlen
  simp only [Checked.bind_def]
  refine (safe_read16 (by omega)).bind fun srcPort _ => ?_
  refine (safe_read16 (by omega)).bind fun dstPort _ => ?_
  refine (safe_read32 (by omega)).bind fun seqNum _ => ?_
  refine (safe_read32 (by omega)).bind fun ackNum _ => ?_
  refine (safe_index (by omega)).bind fun offsetByte _ => ?_
  refine safe_ite (fun _ => safe_error _) fun _ => safe_ite (fun _ => safe_error _) fun hbig => ?_
  refine (safe_index (by omega)).bind fun flagsRaw _ => ?_
  refine (safe_read16 (by omega)).bind fun windowSize _ => ?_
  refine (safe_read16 (by omega)).bind fun checksum _ => ?_
  refine (safe_read16 (by omega)).bind fun urgentPtr _ => ?_
  refine safe_ite (fun _ => safe_error _) fun _ => ?_
  refine (safe_parseOptions (by omega)).bind fun options _ => ?_
  exact (safe_slice (by omega) (by omega)).bind fun payload _ => safe_ok _

end safe

end ToyTcpip.Tcp

/-! ### What the serializer of `tcp.rs` writes, the parser reads back. -/
namespace ToyTcpip.Tcp

open Checked (index slice Safe index_append_right)

variable {ε : Type} {pre post data : List UInt8} {offsetBytes off : ℕ}

theorem readBlocks_at (pre post : List UInt8) (blocks : List (SeqNum × SeqNum)) :
    (readBlocks (pre ++ ((blocks.flatMap fun b => toBeBytes32 b.1.toNat ++ toBeBytes32 b.2.toNat) ++
      post)) blocks.length pre.length : Checked ε _) = .ok blocks := by
  induction blocks generalizing pre with
  | nil => rfl
  | cons b rest ih =>
    obtain ⟨left, right⟩ := b
    have hleft := read32_at (ε := ε) pre (toBeBytes32 right.toNat ++
      ((rest.flatMap fun b => toBeBytes32 b.1.toNat ++ toBeBytes32 b.2.toNat) ++ post)) left
    have hright := read32_at (ε := ε) (pre ++ toBeBytes32 left.toNat)
      ((rest.flatMap fun b => toBeBytes32 b.1.toNat ++ toBeBytes32 b.2.toNat) ++ post) right
    have hrest := ih (pre ++ (toBeBytes32 left.toNat ++ toBeBytes32 right.toNat))
    have h₄ : (pre ++ toBeBytes32 left.toNat).length = pre.length + 4 := by simp [toBeBytes32]
    have h₈ : (pre ++ (toBeBytes32 left.toNat ++ toBeBytes32 right.toNat)).length =
        pre.length + 8 := by simp [toBeBytes32]
    rw [h₄] at hright
    rw [h₈] at hrest
    simp only [List.append_assoc] at hleft hright hrest
    simp only [List.flatMap_cons, List.append_assoc, List.length_cons, readBlocks, Checked.bind_def,
      hleft, hright, hrest, Checked.ok_bind]

/-! ### Options -/

namespace TcpOption

/-- Options that have one reading: no explicit end, one to four SACK blocks, and no known kind
under `unknown`. -/
def WellFormed : TcpOption → Prop
  | .endOfOptions => False
  | .sack blocks => 1 ≤ blocks.length ∧ blocks.length ≤ 4
  | .unknown kind _ => kind ∉ [0, 1, 2, 3, 4, 5, 8]
  | _ => True

instance : ∀ opt : TcpOption, Decidable opt.WellFormed
  | .endOfOptions => isFalse id
  | .sack _ => inferInstanceAs (Decidable (_ ∧ _))
  | .unknown .. => inferInstanceAs (Decidable (_ ∉ _))
  | .nop | .mss _ | .windowScale _ | .sackPermitted | .timestamp .. => isTrue trivial

end TcpOption

theorem parseOptions_nop (h : pre.length < offsetBytes) :
    parseOptions (pre ++ 1 :: post) offsetBytes pre.length =
      (parseOptions (pre ++ 1 :: post) offsetBytes (pre.length + 1)).bind fun rest =>
        .ok (.nop :: rest) := by
  rw [parseOptions, if_pos h, index_at, Checked.ok_bind]
  rfl

theorem parseOptions_nops (pre post : List UInt8) (k : ℕ) :
    parseOptions (pre ++ (List.replicate k 1 ++ post)) (pre.length + k) pre.length =
      .ok (List.replicate k .nop) := by
  induction k generalizing pre with
  | zero =>
    rw [parseOptions, if_neg (by omega)]
    rfl
  | succ k ih =>
    have hnext := ih (pre ++ [1])
    simp only [List.append_assoc, List.length_append, List.length_singleton] at hnext
    rw [List.replicate_succ, List.cons_append, parseOptions_nop (by omega), ← Nat.add_assoc,
      Nat.add_right_comm]
    exact Checked.bind_of_eq_ok _ hnext

/-- One option other than NOP, whose length byte counts its bytes. -/
theorem parseOptions_step {kind length : UInt8} {body : List UInt8} {opt : TcpOption}
    (h₀ : kind ≠ 0) (h₁ : kind ≠ 1) (hlen : length.toNat = body.length + 2)
    (hfit : pre.length + (body.length + 2) ≤ offsetBytes)
    (hopt : parseOption (pre ++ (kind :: length :: (body ++ post))) pre.length kind length =
      .ok opt) :
    parseOptions (pre ++ (kind :: length :: (body ++ post))) offsetBytes pre.length =
      (parseOptions (pre ++ (kind :: length :: (body ++ post))) offsetBytes
        (pre.length + (body.length + 2))).bind fun rest => .ok (opt :: rest) := by
  have hlength : (index (pre ++ (kind :: length :: (body ++ post))) (pre.length + 1) :
      Checked TcpError UInt8) = .ok length := index_append_right pre _ 1
  rw [parseOptions, if_pos (by omega), index_at, Checked.ok_bind, if_neg h₀, if_neg h₁,
    if_neg (by omega), hlength, Checked.ok_bind, if_neg (by omega), if_neg (by omega), hopt,
    Checked.ok_bind, hlen]

theorem parseOption_mss (pre post : List UInt8) (m : BitVec 16) :
    parseOption (pre ++ (2 :: 4 :: (toBeBytes16 m.toNat ++ post))) pre.length 2 4 =
      .ok (.mss m) := by
  have h := read16_at (ε := TcpError) (pre ++ [2, 4]) post m
  simp only [List.append_assoc, List.length_append, List.cons_append, List.nil_append] at h
  exact Checked.bind_of_eq_ok _ h

theorem parseOption_timestamp (pre post : List UInt8) (val ecr : BitVec 32) :
    parseOption (pre ++ (8 :: 10 :: (toBeBytes32 val.toNat ++ (toBeBytes32 ecr.toNat ++ post))))
      pre.length 8 10 = .ok (.timestamp val ecr) := by
  have hval := read32_at (ε := TcpError) (pre ++ [8, 10]) (toBeBytes32 ecr.toNat ++ post) val
  have hecr := read32_at (ε := TcpError) (pre ++ ([8, 10] ++ toBeBytes32 val.toNat)) post ecr
  have h₆ : (pre ++ ([8, 10] ++ toBeBytes32 val.toNat)).length = pre.length + 6 := by
    simp [toBeBytes32]
  rw [h₆] at hecr
  simp only [List.append_assoc, List.length_append, List.cons_append, List.nil_append] at hval hecr
  exact (Checked.bind_of_eq_ok _ hval).trans (Checked.bind_of_eq_ok _ hecr)

theorem parseOption_sack (pre post : List UInt8) {blocks : List (SeqNum × SeqNum)}
    (h : 1 ≤ blocks.length ∧ blocks.length ≤ 4) :
    parseOption (pre ++ (5 :: UInt8.ofNat (2 + blocks.length * 8) ::
      ((blocks.flatMap fun b => toBeBytes32 b.1.toNat ++ toBeBytes32 b.2.toNat) ++ post)))
      pre.length 5 (UInt8.ofNat (2 + blocks.length * 8)) = .ok (.sack blocks) := by
  have hread := readBlocks_at (ε := TcpError) (pre ++ [5, UInt8.ofNat (2 + blocks.length * 8)]) post
    blocks
  simp only [List.append_assoc, List.length_append, List.cons_append, List.nil_append] at hread
  have hlen : (UInt8.ofNat (2 + blocks.length * 8)).toNat = 2 + blocks.length * 8 := by
    rw [UInt8.toNat_ofNat']
    omega
  have hcount : (2 + blocks.length * 8 - 2) / 8 = blocks.length := by omega
  have hsack : (5 : UInt8) = 5 ∧ 10 ≤ 2 + blocks.length * 8 ∧ (2 + blocks.length * 8 - 2) % 8 = 0 :=
    ⟨rfl, by omega, by omega⟩
  simp only [parseOption, hlen, hcount, hsack]
  exact Checked.bind_of_eq_ok _ hread

theorem parseOption_unknown (pre post : List UInt8) {kind : UInt8} {body : List UInt8}
    (hkind : kind ∉ [0, 1, 2, 3, 4, 5, 8]) (hlen : body.length + 2 ≤ 255) :
    parseOption (pre ++ (kind :: UInt8.ofNat (body.length + 2) :: (body ++ post))) pre.length kind
      (UInt8.ofNat (body.length + 2)) = .ok (.unknown kind body) := by
  have hslice := Checked.slice_middle (ε := TcpError) (pre ++ [kind, UInt8.ofNat (body.length + 2)])
    body post
  simp only [List.append_assoc, List.length_append, List.cons_append, List.nil_append,
    List.length_cons, List.length_nil, Nat.zero_add] at hslice
  have hbyte : (UInt8.ofNat (body.length + 2)).toNat = body.length + 2 := by
    rw [UInt8.toNat_ofNat']
    omega
  simp only [List.mem_cons, List.not_mem_nil, or_false, not_or] at hkind
  obtain ⟨-, -, h₂, h₃, h₄, h₅, h₈⟩ := hkind
  simp only [parseOption, h₂, h₃, h₄, h₅, h₈, if_false, false_and, hbyte]
  rw [show pre.length + (body.length + 2) = pre.length + 1 + 1 + body.length by omega]
  exact Checked.bind_of_eq_ok _ hslice

/-- A well-formed option is read from where it was written. -/
theorem parseOptions_encode {opt : TcpOption} {bytes : List UInt8} (hwf : opt.WellFormed)
    (henc : opt.encode = .ok bytes) (pre post : List UInt8)
    (hfit : pre.length + bytes.length ≤ offsetBytes) :
    parseOptions (pre ++ (bytes ++ post)) offsetBytes pre.length =
      (parseOptions (pre ++ (bytes ++ post)) offsetBytes (pre.length + bytes.length)).bind
        fun rest => .ok (opt :: rest) := by
  cases opt with
  | endOfOptions => exact hwf.elim
  | nop =>
    obtain rfl : [1] = bytes := by simpa [TcpOption.encode] using henc
    exact parseOptions_nop hfit
  | mss m =>
    obtain rfl : 2 :: 4 :: toBeBytes16 m.toNat = bytes := by simpa [TcpOption.encode] using henc
    exact parseOptions_step (by decide) (by decide) rfl hfit (parseOption_mss pre post m)
  | windowScale scale =>
    obtain rfl : [3, 3, scale] = bytes := by simpa [TcpOption.encode] using henc
    change parseOptions (pre ++ (3 :: 3 :: ([scale] ++ post))) offsetBytes pre.length = _
    refine parseOptions_step (by decide) (by decide) rfl hfit ?_
    exact Checked.bind_of_eq_ok _ (index_append_right pre _ 2)
  | sackPermitted =>
    obtain rfl : [4, 2] = bytes := by simpa [TcpOption.encode] using henc
    change parseOptions (pre ++ (4 :: 2 :: ([] ++ post))) offsetBytes pre.length = _
    exact parseOptions_step (by decide) (by decide) rfl hfit rfl
  | sack blocks =>
    have hcount : min blocks.length 4 = blocks.length := Nat.min_eq_left hwf.2
    obtain rfl : 5 :: UInt8.ofNat (2 + blocks.length * 8) ::
        (blocks.flatMap fun b => toBeBytes32 b.1.toNat ++ toBeBytes32 b.2.toNat) = bytes := by
      simpa [TcpOption.encode, hcount] using henc
    have hlen := TcpOption.flatMap_blocks_length blocks
    refine parseOptions_step (by decide) (by decide) ?_ hfit (parseOption_sack pre post hwf)
    rw [UInt8.toNat_ofNat', hlen]
    have := hwf.2
    omega
  | timestamp val ecr =>
    obtain rfl : 8 :: 10 :: (toBeBytes32 val.toNat ++ toBeBytes32 ecr.toNat) = bytes := by
      simpa [TcpOption.encode] using henc
    refine parseOptions_step (by decide) (by decide) rfl hfit ?_
    rw [List.append_assoc]
    exact parseOption_timestamp pre post val ecr
  | unknown kind body =>
    by_cases hlong : 255 < body.length + 2
    · simp [TcpOption.encode, hlong] at henc
    obtain rfl : kind :: UInt8.ofNat (body.length + 2) :: body = bytes := by
      simpa [TcpOption.encode, hlong] using henc
    have hkind := hwf
    simp only [TcpOption.WellFormed, List.mem_cons, not_or] at hkind
    refine parseOptions_step hkind.1 hkind.2.1 ?_ hfit (parseOption_unknown pre post hwf (by omega))
    rw [UInt8.toNat_ofNat']
    omega

/-! ### The option loop -/

theorem encode_length {opt : TcpOption} {bytes : List UInt8} (henc : opt.encode = .ok bytes) :
    bytes.length = opt.wireLength := by
  by_cases hk : opt.known = true
  · obtain ⟨known, hknown, hlen⟩ := opt.encode_known hk
    rw [henc] at hknown
    cases hknown
    exact hlen
  · cases opt <;> simp only [TcpOption.known, not_true_eq_false] at hk
    rename_i kind body
    by_cases hlong : 255 < body.length + 2
    · simp [TcpOption.encode, hlong] at henc
    · obtain rfl : kind :: UInt8.ofNat (body.length + 2) :: body = bytes := by
        simpa [TcpOption.encode, hlong] using henc
      simp only [TcpOption.wireLength, List.length_cons]
      omega

/-- The one way a single option is refused. -/
theorem encode_error {opt : TcpOption} {e : TcpSerializeError} (henc : opt.encode = .error e) :
    ∃ kind data, opt = .unknown kind data ∧ 255 < data.length + 2 := by
  cases opt with
  | unknown kind body =>
    by_cases hlong : 255 < body.length + 2
    · exact ⟨kind, body, rfl, hlong⟩
    · simp [TcpOption.encode, hlong] at henc
  | _ => simp [TcpOption.encode] at henc

theorem optionsLength_cons (opt : TcpOption) (rest : List TcpOption) :
    optionsLength (opt :: rest) = opt.wireLength + optionsLength rest := by
  simp [optionsLength]

theorem encodeOptionsFrom_le {acc bytes : List UInt8} {options : List TcpOption}
    (hacc : acc.length ≤ tcpMaxOptionsLen) (h : encodeOptionsFrom acc options = .ok bytes) :
    bytes.length ≤ tcpMaxOptionsLen := by
  induction options generalizing acc with
  | nil =>
    obtain rfl : acc = bytes := by simpa [encodeOptionsFrom] using h
    exact hacc
  | cons opt rest ih =>
    simp only [encodeOptionsFrom] at h
    split at h
    · cases h
    · split at h
      · cases h
      · exact ih (Nat.le_of_not_lt ‹_›) h

/-- The loop appends to what it has. -/
theorem encodeOptionsFrom_append {acc bytes : List UInt8} {options : List TcpOption}
    (h : encodeOptionsFrom acc options = .ok bytes) : ∃ tail, bytes = acc ++ tail := by
  induction options generalizing acc with
  | nil => exact ⟨[], by simpa [encodeOptionsFrom, eq_comm] using h⟩
  | cons opt rest ih =>
    simp only [encodeOptionsFrom] at h
    split at h
    · cases h
    · split at h
      · cases h
      · obtain ⟨tail, rfl⟩ := ih h
        exact ⟨_, List.append_assoc ..⟩

/-- The option loop gives out exactly when an option or the whole list is too long. -/
theorem encodeOptionsFrom_error_iff (acc : List UInt8) (options : List TcpOption)
    (hacc : acc.length ≤ tcpMaxOptionsLen) :
    (∃ e, encodeOptionsFrom acc options = .error e) ↔
      tcpMaxOptionsLen < acc.length + optionsLength options := by
  induction options generalizing acc with
  | nil =>
    simp only [encodeOptionsFrom, reduceCtorEq, exists_false, optionsLength, List.map_nil,
      List.sum_nil, false_iff]
    omega
  | cons opt rest ih =>
    rw [optionsLength_cons]
    cases henc : opt.encode with
    | error e =>
      obtain ⟨kind, body, rfl, hlong⟩ := encode_error henc
      simp only [encodeOptionsFrom, henc, TcpOption.wireLength, tcpMaxOptionsLen]
      exact ⟨fun _ => by omega, fun _ => ⟨e, rfl⟩⟩
    | ok bytes =>
      have hlen := encode_length henc
      simp only [encodeOptionsFrom, henc]
      by_cases hfit : tcpMaxOptionsLen < (acc ++ bytes).length
      · rw [if_pos hfit]
        rw [List.length_append] at hfit
        exact ⟨fun _ => by omega, fun _ => ⟨_, rfl⟩⟩
      · rw [if_neg hfit, ih _ (Nat.le_of_not_lt hfit), List.length_append, hlen, Nat.add_assoc]

/-- The serializer gives out exactly when an option or the whole list is too long. -/
theorem trySerialize_error_iff (srcIp dstIp : Ipv4Address) (seg : TcpSegment) :
    (∃ e, seg.trySerializeWithOptions srcIp dstIp = .error e) ↔
      tcpMaxOptionsLen < optionsLength seg.options := by
  have hloop := encodeOptionsFrom_error_iff [] seg.options (Nat.zero_le _)
  rw [List.length_nil, Nat.zero_add] at hloop
  rw [← hloop]
  unfold TcpSegment.trySerializeWithOptions
  cases henc : encodeOptionsFrom [] seg.options with
  | error e => simp
  | ok bytes =>
    have hle : bytes.length ≤ tcpMaxOptionsLen := encodeOptionsFrom_le (Nat.zero_le _) henc
    simp [Nat.not_lt_of_le (padOptions_length hle)]

/-- The walk reads the options the loop wrote after `acc`, and the NOPs that pad them. -/
theorem parseOptions_encodeOptionsFrom {acc bytes : List UInt8} {options : List TcpOption}
    (hwf : ∀ opt ∈ options, opt.WellFormed) (h : encodeOptionsFrom acc options = .ok bytes)
    (pre post : List UInt8) (k : ℕ) :
    parseOptions (pre ++ (bytes ++ (List.replicate k 1 ++ post))) (pre.length + bytes.length + k)
      (pre.length + acc.length) = .ok (options ++ List.replicate k .nop) := by
  induction options generalizing acc with
  | nil =>
    obtain rfl : acc = bytes := by simpa [encodeOptionsFrom] using h
    have hnops := parseOptions_nops (pre ++ acc) post k
    rw [List.append_assoc, List.length_append] at hnops
    simpa using hnops
  | cons opt rest ih =>
    simp only [encodeOptionsFrom] at h
    split at h
    · cases h
    · rename_i optBytes henc
      split at h
      · cases h
      · obtain ⟨tail, htail⟩ := encodeOptionsFrom_append h
        have hdata : pre ++ (bytes ++ (List.replicate k 1 ++ post)) =
            (pre ++ acc) ++ (optBytes ++ (tail ++ (List.replicate k 1 ++ post))) := by
          rw [htail]
          simp only [List.append_assoc]
        have hlen : bytes.length = acc.length + optBytes.length + tail.length := by
          rw [htail, List.length_append, List.length_append]
        have hrest := ih (fun o ho => hwf o (List.mem_cons_of_mem _ ho)) h
        rw [List.length_append, ← Nat.add_assoc] at hrest
        have hopt := parseOptions_encode (hwf opt List.mem_cons_self) henc (pre ++ acc)
          (tail ++ (List.replicate k 1 ++ post))
          (show (pre ++ acc).length + optBytes.length ≤ pre.length + bytes.length + k by
            rw [List.length_append]
            omega)
        rw [← hdata, List.length_append] at hopt
        rw [hopt, hrest]
        rfl

/-! ### Segments -/

theorem fromU8_toU8 (f : TcpFlags) : TcpFlags.fromU8 f.toU8 = f := by
  obtain ⟨fin, syn, rst, psh, ack, urg⟩ := f
  revert fin syn rst psh ack urg
  decide

theorem padOptions_mod (bytes : List UInt8) : (padOptions bytes).length % 4 = 0 := by
  simp only [padOptions, List.length_append, List.length_replicate]
  omega

/-- The checksum field of a serialized segment verifies. -/
theorem verify_rawBytes (srcIp dstIp : Ipv4Address) (seg : TcpSegment) (optBytes : List UInt8)
    (hlen : 20 + optBytes.length + seg.payload.length ≤ ipv4MaxPayloadLen) :
    verifyIpv4TransportChecksum srcIp.octets dstIp.octets 6 (seg.rawBytes
      (computeIpv4TransportChecksum srcIp.octets dstIp.octets 6 (seg.rawBytes 0 optBytes))
      optBytes) = true := by
  have hraw : ∀ csum, seg.rawBytes csum optBytes = (toBeBytes16 seg.srcPort.toNat ++
      toBeBytes16 seg.dstPort.toNat ++ toBeBytes32 seg.seqNum.toNat ++
      toBeBytes32 seg.ackNum.toNat ++ [UInt8.ofNat ((tcpMinHeaderLen + optBytes.length) / 4 * 16),
        seg.flags.toU8] ++ toBeBytes16 seg.windowSize.toNat) ++
      (toBeBytes16 csum ++ (toBeBytes16 0 ++ optBytes ++ seg.payload)) := by
    intro csum
    simp only [TcpSegment.rawBytes, List.append_assoc]
  rw [hraw, hraw 0]
  refine verifyIpv4TransportChecksum_computed _ _ _ _ _ _ _ _ (by decide) (by decide) _ _ ?_ ?_
  · simp [toBeBytes16, toBeBytes32]
  simp only [ipv4MaxPayloadLen, ipv4MinHeaderLen] at hlen
  simp only [List.length_append, toBeBytes16, toBeBytes32, List.length_cons, List.length_nil]
  omega

theorem rawBytes_length (seg : TcpSegment) (csum : ℕ) (optBytes : List UInt8) :
    (seg.rawBytes csum optBytes).length = 20 + optBytes.length + seg.payload.length := by
  simp only [TcpSegment.rawBytes, toBeBytes16, toBeBytes32, List.length_append, List.length_cons,
    List.length_nil]

theorem drop_rawBytes (seg : TcpSegment) (csum : ℕ) (optBytes : List UInt8) :
    (seg.rawBytes csum optBytes).drop (20 + optBytes.length) = seg.payload := by
  unfold TcpSegment.rawBytes
  apply List.drop_left'
  simp only [toBeBytes16, toBeBytes32, List.length_append, List.length_cons, List.length_nil]

/-- The fixed header, and with it the segment, is read back around the options. -/
theorem parse_rawBytes (srcIp dstIp : Ipv4Address) (seg : TcpSegment) (csum : BitVec 16)
    (optBytes : List UInt8) (options : List TcpOption) (hmod : optBytes.length % 4 = 0)
    (hle : optBytes.length ≤ tcpMaxOptionsLen)
    (hsum : verifyIpv4TransportChecksum srcIp.octets dstIp.octets 6
      (seg.rawBytes csum.toNat optBytes) = true)
    (hopts : parseOptions (seg.rawBytes csum.toNat optBytes) (20 + optBytes.length) 20 =
      .ok options) :
    TcpSegment.parse srcIp dstIp (seg.rawBytes csum.toNat optBytes) true =
      .ok ⟨{ seg with options := options }, UInt8.ofNat ((20 + optBytes.length) / 4), csum, 0⟩ := by
  generalize hdata : seg.rawBytes csum.toNat optBytes = data at hsum hopts ⊢
  have hsrc : (read16 data 0 : Checked TcpError _) = .ok seg.srcPort := by
    rw [← hdata]
    exact congrArg Checked.ok (ofNat_beWord seg.srcPort)
  have hdst : (read16 data 2 : Checked TcpError _) = .ok seg.dstPort := by
    rw [← hdata]
    exact congrArg Checked.ok (ofNat_beWord seg.dstPort)
  have hseq : (read32 data 4 : Checked TcpError _) = .ok seg.seqNum := by
    rw [← hdata]
    exact congrArg Checked.ok (ofNat_beWords seg.seqNum)
  have hack : (read32 data 8 : Checked TcpError _) = .ok seg.ackNum := by
    rw [← hdata]
    exact congrArg Checked.ok (ofNat_beWords seg.ackNum)
  have hoff : (index data 12 : Checked TcpError _) =
      .ok (UInt8.ofNat ((20 + optBytes.length) / 4 * 16)) := by
    rw [← hdata]
    rfl
  have hflags : (index data 13 : Checked TcpError _) = .ok seg.flags.toU8 := by
    rw [← hdata]
    rfl
  have hwindow : (read16 data 14 : Checked TcpError _) = .ok seg.windowSize := by
    rw [← hdata]
    exact congrArg Checked.ok (ofNat_beWord seg.windowSize)
  have hcsum : (read16 data 16 : Checked TcpError _) = .ok csum := by
    rw [← hdata]
    exact congrArg Checked.ok (ofNat_beWord csum)
  have hurgent : (read16 data 18 : Checked TcpError _) = .ok 0 := by
    rw [← hdata]
    rfl
  have hlen : data.length = 20 + optBytes.length + seg.payload.length := by
    rw [← hdata, rawBytes_length]
  have hshift : UInt8.ofNat ((20 + optBytes.length) / 4 * 16) >>> 4 =
      UInt8.ofNat ((20 + optBytes.length) / 4) := by
    simp only [tcpMaxOptionsLen] at hle
    apply UInt8.toNat_inj.mp
    simp [UInt8.toNat_shiftRight, Nat.shiftRight_eq_div_pow]
    omega
  have hwords : (UInt8.ofNat ((20 + optBytes.length) / 4)).toNat = (20 + optBytes.length) / 4 := by
    simp only [tcpMaxOptionsLen] at hle
    rw [UInt8.toNat_ofNat']
    omega
  have hbytes : (20 + optBytes.length) / 4 * 4 = 20 + optBytes.length := by omega
  have hmin : ¬ UInt8.ofNat ((20 + optBytes.length) / 4) < 5 := by
    rw [UInt8.lt_iff_toNat_lt, hwords]
    simp
    omega
  have hpayload : (slice data (20 + optBytes.length) data.length : Checked TcpError _) =
      .ok seg.payload := by
    rw [Checked.slice_eq_ok (by omega) le_rfl, List.take_length, ← hdata, drop_rawBytes]
  unfold TcpSegment.parse
  rw [if_neg (by rw [hlen, tcpMinHeaderLen]; omega)]
  simp only [Checked.bind_def, hsrc, hdst, hseq, hack, hoff, hflags, hwindow, hcsum, hurgent,
    Checked.ok_bind, hshift, hmin, hwords, hbytes, hsum, tcpMinHeaderLen, hopts, hpayload,
    fromU8_toU8, if_false]
  rw [if_neg (by omega)]
  simp

theorem parseOptions_rawBytes (seg : TcpSegment) (csum : ℕ) {optBytes : List UInt8}
    (hwf : ∀ opt ∈ seg.options, opt.WellFormed)
    (henc : encodeOptionsFrom [] seg.options = .ok optBytes) :
    parseOptions (seg.rawBytes csum (padOptions optBytes)) (20 + (padOptions optBytes).length) 20 =
      .ok (seg.options ++ List.replicate ((4 - optBytes.length % 4) % 4) .nop) := by
  have h := parseOptions_encodeOptionsFrom hwf henc
    ((seg.rawBytes csum (padOptions optBytes)).take 20)
    seg.payload ((4 - optBytes.length % 4) % 4)
  have hdata : (seg.rawBytes csum (padOptions optBytes)).take 20 ++
      (optBytes ++ (List.replicate ((4 - optBytes.length % 4) % 4) 1 ++ seg.payload)) =
      seg.rawBytes csum (padOptions optBytes) := by
    simp only [TcpSegment.rawBytes, padOptions, toBeBytes16, toBeBytes32, List.append_assoc,
      List.cons_append, List.nil_append, List.take_succ_cons, List.take_zero]
  have hlen : ((seg.rawBytes csum (padOptions optBytes)).take 20).length = 20 := by
    rw [List.length_take, rawBytes_length]
    omega
  rw [hdata, hlen, List.length_nil] at h
  rw [padOptions, List.length_append, List.length_replicate, ← Nat.add_assoc]
  exact h

/-- Every option the walk finds takes at least one byte of the option area. -/
theorem parseOptions_length {options : List TcpOption}
    (h : parseOptions data offsetBytes off = .ok options) : options.length ≤ offsetBytes - off := by
  induction off using parseOptions.induct offsetBytes generalizing options with
  | case1 off hlt ihNop ihNext =>
    rw [parseOptions, if_pos hlt] at h
    obtain ⟨kind, -, h⟩ := Checked.bind_eq_ok.mp h
    split_ifs at h with h₀ h₁ h₂
    · cases h
      simp
      omega
    · obtain ⟨rest, hrest, h⟩ := Checked.bind_eq_ok.mp h
      cases h
      have := ihNop hrest
      simp only [List.length_cons]
      omega
    · obtain ⟨length, -, h⟩ := Checked.bind_eq_ok.mp h
      split_ifs at h with hl hr
      obtain ⟨opt, -, h⟩ := Checked.bind_eq_ok.mp h
      obtain ⟨rest, hrest, h⟩ := Checked.bind_eq_ok.mp h
      cases h
      have := ihNext h₂ length hl hr hrest
      simp only [List.length_cons]
      omega
  | case2 off hge =>
    rw [parseOptions, if_neg hge] at h
    cases h
    exact Nat.zero_le _

theorem parse_options_length {srcIp dstIp : Ipv4Address} {check : Bool} {parsed : ParsedSegment}
    (h : TcpSegment.parse srcIp dstIp data check = .ok parsed) :
    parsed.options.length ≤ parsed.dataOffset.toNat * 4 - tcpMinHeaderLen := by
  simp only [TcpSegment.parse, Checked.ite_error_eq_ok, Checked.bind_def, Checked.bind_eq_ok] at h
  obtain ⟨-, _, -, _, -, _, -, _, -, offsetByte, -, -, -, _, -, _, -, _, -, _, -, -, options, hopts,
    _, -, h⟩ := h
  cases h
  exact parseOptions_length hopts

/-- The serializer accepts what fits the option area; what it writes for well-formed options
parses, checksum included, to the same segment with up to three NOPs after the options; and the
parser stays inside any input, with an option walk no longer than the option area. -/
theorem segment_codec (srcIp dstIp : Ipv4Address) (seg : TcpSegment) :
    ((∃ e, seg.trySerializeWithOptions srcIp dstIp = .error e) ↔
      (∃ kind data, TcpOption.unknown kind data ∈ seg.options ∧ 255 < data.length + 2) ∨
        tcpMaxOptionsLen < optionsLength seg.options) ∧
    (∀ bytes, seg.trySerializeWithOptions srcIp dstIp = .ok bytes →
      (∀ opt ∈ seg.options, opt.WellFormed) → bytes.length ≤ ipv4MaxPayloadLen →
      ∃ padding parsed, padding < 4 ∧ TcpSegment.parse srcIp dstIp bytes true = .ok parsed ∧
        parsed.toTcpSegment = { seg with options := seg.options ++ List.replicate padding .nop } ∧
        parsed.urgentPtr = 0) ∧
    (∀ data check, Safe (TcpSegment.parse srcIp dstIp data check)) ∧
    ∀ data check parsed, TcpSegment.parse srcIp dstIp data check = .ok parsed →
      parsed.options.length ≤ parsed.dataOffset.toNat * 4 - tcpMinHeaderLen := by
  refine ⟨?_, ?_, safe_parse srcIp dstIp, fun _ _ _ => parse_options_length⟩
  · rw [trySerialize_error_iff]
    refine ⟨.inr, fun h => h.elim (fun ⟨kind, data, hmem, hlong⟩ => ?_) id⟩
    have hle : TcpOption.wireLength (.unknown kind data) ≤ optionsLength seg.options :=
      List.le_sum_of_mem (List.mem_map_of_mem hmem)
    simp only [TcpOption.wireLength] at hle
    simp only [tcpMaxOptionsLen]
    omega
  · intro bytes hser hwf hfit
    unfold TcpSegment.trySerializeWithOptions at hser
    split at hser
    · cases hser
    rename_i optBytes henc
    have hle := encodeOptionsFrom_le (Nat.zero_le _) henc
    have hpad := padOptions_length hle
    simp only [Nat.not_lt_of_le hpad, if_false, Except.ok.injEq] at hser
    subst hser
    have hcsum : computeIpv4TransportChecksum srcIp.octets dstIp.octets 6
        (seg.rawBytes 0 (padOptions optBytes)) < 2 ^ 16 := finalizeChecksum_lt _
    rw [rawBytes_length] at hfit
    have hsum := verify_rawBytes srcIp dstIp seg (padOptions optBytes) hfit
    generalize hc : computeIpv4TransportChecksum srcIp.octets dstIp.octets 6
      (seg.rawBytes 0 (padOptions optBytes)) = csum at hcsum hsum ⊢
    have hnat : (BitVec.ofNat 16 csum).toNat = csum := by
      rw [BitVec.toNat_ofNat, Nat.mod_eq_of_lt hcsum]
    have hparse := parse_rawBytes srcIp dstIp seg (BitVec.ofNat 16 csum) (padOptions optBytes) _
      (padOptions_mod _) hpad (by rwa [hnat]) (parseOptions_rawBytes seg _ hwf henc)
    rw [hnat] at hparse
    exact ⟨_, _, Nat.mod_lt _ (by decide), hparse, rfl, rfl⟩

/-- Seventeen bytes of options, three NOPs and two bytes of payload. -/
def scaledSyn : TcpSegment where
  srcPort := 40000
  dstPort := 80
  seqNum := 1000
  ackNum := 0
  flags := .synOnly
  windowSize := 65535
  options := [.mss 1460, .windowScale 7, .timestamp 5 0]
  payload := [1, 2]

def scaledSynBytes : List UInt8 :=
  [156, 64, 0, 80, 0, 0, 3, 232, 0, 0, 0, 0, 160, 2, 255, 255, 136, 138, 0, 0, 2, 4, 5, 180, 3, 3,
    7, 8, 10, 0, 0, 0, 5, 0, 0, 0, 0, 1, 1, 1, 1, 2]

theorem segment_codec_scaledSyn :
    scaledSyn.trySerializeWithOptions ⟨10, 0, 0, 1⟩ ⟨10, 0, 0, 2⟩ = .ok scaledSynBytes ∧
      ∃ padding parsed, padding < 4 ∧
        TcpSegment.parse ⟨10, 0, 0, 1⟩ ⟨10, 0, 0, 2⟩ scaledSynBytes true = .ok parsed ∧
        parsed.toTcpSegment =
          { scaledSyn with options := scaledSyn.options ++ List.replicate padding .nop } ∧
        parsed.urgentPtr = 0 := by
  have hser : scaledSyn.trySerializeWithOptions ⟨10, 0, 0, 1⟩ ⟨10, 0, 0, 2⟩ =
      .ok scaledSynBytes := by decide +kernel
  exact ⟨hser, (segment_codec ⟨10, 0, 0, 1⟩ ⟨10, 0, 0, 2⟩ scaledSyn).2.1 scaledSynBytes hser
    (by decide) (by decide)⟩

end ToyTcpip.Tcp

import Mathlib.Data.Nat.Bitwise
import ToyTcpip.Fragment.Reassembly

/-! The fragments of a payload: they tile it, fit the MTU and parse back. -/
namespace ToyTcpip.Fragment

variable {payload : List UInt8} {e : FragmentEntry} {maxPayload offset : ℕ}

/-- The entry is a part of the payload, marked last exactly where the payload ends. -/
structure SliceOf (payload : List UInt8) (e : FragmentEntry) : Prop where
  data : e.data ≠ []
  placed : Piece.At payload e.offset e.data
  last : e.moreFragments = decide (e.stop < payload.length)

theorem SliceOf.stop_le (h : SliceOf payload e) : e.stop ≤ payload.length :=
  h.placed.length_le h.data

theorem SliceOf.last_iff (h : SliceOf payload e) :
    e.moreFragments = false ↔ e.stop = payload.length := by
  have := h.stop_le
  rw [h.last, decide_eq_false_iff_not]
  omega

/-- Consecutive parts that make up a payload. -/
structure Tiles (payload : List UInt8) (pieces : List FragmentEntry) : Prop where
  slices : ∀ e ∈ pieces, SliceOf payload e
  covered : ∀ i < payload.length, ∃ e ∈ pieces, e.Covers i
  apart : pieces.Pairwise fun e f => e.stop ≤ f.offset

/-! ### The loop -/

def chunkAt (maxPayload : ℕ) (payload : List UInt8) (offset : ℕ) : FragmentEntry :=
  let chunkLen := min (payload.length - offset) maxPayload
  ⟨offset, (payload.drop offset).take chunkLen, decide (offset + chunkLen < payload.length)⟩

def chunksFrom (maxPayload : ℕ) (hmax : 0 < maxPayload) (payload : List UInt8) (offset : ℕ) :
    List FragmentEntry :=
  if offset < payload.length then
    chunkAt maxPayload payload offset ::
      chunksFrom maxPayload hmax payload (offset + min (payload.length - offset) maxPayload)
  else []
termination_by payload.length - offset

theorem fragmentLoop_eq_map (srcIp dstIp : Ipv4Address) (protocol : UInt8)
    (identification : UInt16) (ttl : UInt8) (hmax : 0 < maxPayload) (payload : List UInt8)
    (offset : ℕ) :
    fragmentLoop srcIp dstIp protocol identification ttl maxPayload hmax payload offset =
      (chunksFrom maxPayload hmax payload offset).map fun e =>
        fragmentBytes srcIp dstIp protocol identification ttl e.offset e.moreFragments e.data := by
  fun_induction chunksFrom maxPayload hmax payload offset with
  | case1 offset hlt ih =>
    rw [fragmentLoop, if_pos hlt, List.map_cons, ← ih]
    rfl
  | case2 offset hge => rw [fragmentLoop, if_neg hge, List.map_nil]

theorem chunkAt_stop : (chunkAt maxPayload payload offset).stop =
    offset + min (payload.length - offset) maxPayload := by
  simp [chunkAt, FragmentEntry.stop]

theorem chunkAt_sliceOf (hmax : 0 < maxPayload) (h : offset < payload.length) :
    SliceOf payload (chunkAt maxPayload payload offset) := by
  refine ⟨?_, Piece.at_take_drop _ _ _, ?_⟩
  · rw [← List.length_pos_iff]
    simp only [chunkAt, List.length_take, List.length_drop]
    omega
  · rw [chunkAt_stop]
    rfl

/-- The parts a fragmenter may emit: on an 8-byte boundary, within the limit, and only the last
of them of odd length. -/
structure Emittable (maxPayload : ℕ) (e : FragmentEntry) : Prop where
  aligned : e.offset % 8 = 0
  length : e.data.length ≤ maxPayload
  full : e.moreFragments = true → e.data.length % 8 = 0

theorem chunkAt_emittable (h8 : maxPayload % 8 = 0) (ho : offset % 8 = 0) :
    Emittable maxPayload (chunkAt maxPayload payload offset) := by
  refine ⟨ho, ?_, fun hmore => ?_⟩
  · simp only [chunkAt, List.length_take, List.length_drop]
    omega
  · simp only [chunkAt, decide_eq_true_eq] at hmore
    simp only [chunkAt, List.length_take, List.length_drop]
    have hfull : min (payload.length - offset) maxPayload = maxPayload := by omega
    rw [hfull]
    omega

theorem chunksFrom_spec (hmax : 0 < maxPayload) (h8 : maxPayload % 8 = 0) (ho : offset % 8 = 0) :
    (∀ e ∈ chunksFrom maxPayload hmax payload offset,
      SliceOf payload e ∧ Emittable maxPayload e ∧ offset ≤ e.offset) ∧
    (∀ i, offset ≤ i → i < payload.length →
      ∃ e ∈ chunksFrom maxPayload hmax payload offset, e.Covers i) ∧
    (chunksFrom maxPayload hmax payload offset).Pairwise fun e f => e.stop ≤ f.offset := by
  fun_induction chunksFrom maxPayload hmax payload offset with
  | case1 offset hlt ih =>
    have hstop : (chunkAt maxPayload payload offset).stop = _ := chunkAt_stop
    by_cases hend : offset + min (payload.length - offset) maxPayload < payload.length
    · have hnext : (offset + min (payload.length - offset) maxPayload) % 8 = 0 := by
        have hfull : min (payload.length - offset) maxPayload = maxPayload := by omega
        omega
      obtain ⟨hslices, hcov, hapart⟩ := ih hnext
      refine ⟨?_, fun i hi hlen => ?_, ?_⟩
      · simp only [List.mem_cons, forall_eq_or_imp]
        refine ⟨⟨chunkAt_sliceOf hmax hlt, chunkAt_emittable h8 ho, le_rfl⟩, fun e he => ?_⟩
        obtain ⟨hs, hem, hle⟩ := hslices e he
        exact ⟨hs, hem, by omega⟩
      · by_cases hin : i < offset + min (payload.length - offset) maxPayload
        · exact ⟨_, List.mem_cons_self, hi, by omega⟩
        · obtain ⟨e, he, hei⟩ := hcov i (by omega) hlen
          exact ⟨e, List.mem_cons_of_mem _ he, hei⟩
      · refine List.pairwise_cons.mpr ⟨fun e he => ?_, hapart⟩
        have := (hslices e he).2.2
        omega
    · -- The payload ends in this chunk, so the loop stops.
      rw [chunksFrom, if_neg hend]
      refine ⟨?_, fun i hi hlen => ?_, List.pairwise_singleton _ _⟩
      · simp only [List.mem_singleton, forall_eq]
        exact ⟨chunkAt_sliceOf hmax hlt, chunkAt_emittable h8 ho, le_rfl⟩
      · exact ⟨_, List.mem_cons_self, hi, by omega⟩
  | case2 offset hge => exact ⟨by simp, fun i hi hlen => by omega, .nil⟩

theorem chunksFrom_tiles (hmax : 0 < maxPayload) (h8 : maxPayload % 8 = 0) :
    Tiles payload (chunksFrom maxPayload hmax payload 0) := by
  obtain ⟨hslices, hcov, hapart⟩ := @chunksFrom_spec payload _ 0 hmax h8 (Nat.zero_mod 8)
  exact ⟨fun e he => (hslices e he).1, fun i hi => hcov i (Nat.zero_le i) hi, hapart⟩

/-! ### The wire form -/

theorem and_two_pow_ne_zero (n k : ℕ) : n &&& 2 ^ k ≠ 0 ↔ n / 2 ^ k % 2 = 1 := by
  rw [Nat.and_two_pow, Nat.testBit_eq_decide_div_mod_eq]
  simp

theorem flagsOffset_eq {blocks : ℕ} (more : Bool) (h : blocks < 8192) :
    (blocks % 2 ^ 16 &&& 0x1FFF) ||| (if more then 0x2000 else 0) =
      (if more then 0x2000 else 0) + blocks := by
  have hmask : blocks % 2 ^ 16 &&& 0x1FFF = blocks := by
    rw [show 0x1FFF = 2 ^ 13 - 1 from rfl, Nat.and_two_pow_sub_one_eq_mod]
    omega
  rw [hmask]
  cases more
  · simp
  · have hor := Nat.two_pow_add_eq_or_of_lt (show blocks < 2 ^ 13 by omega) 1
    rw [Nat.lor_comm]
    simpa using hor.symm

/-- What the parser reads from the flags word of a fragment. -/
theorem flagsOffset_read {blocks flags : ℕ} {more : Bool} (h : blocks < 8192)
    (hflags : flags = (if more then 0x2000 else 0) + blocks) :
    flags < 65536 ∧ ¬ flags &&& 0x8000 ≠ 0 ∧ ¬ flags &&& 0x4000 ≠ 0 ∧
      (flags &&& 0x2000 ≠ 0 ↔ more = true) ∧ flags &&& 0x1FFF = blocks := by
  have hres : flags &&& 0x8000 ≠ 0 ↔ _ := and_two_pow_ne_zero flags 15
  have hdont : flags &&& 0x4000 ≠ 0 ↔ _ := and_two_pow_ne_zero flags 14
  have hmore : flags &&& 0x2000 ≠ 0 ↔ _ := and_two_pow_ne_zero flags 13
  have hmask : flags &&& 0x1FFF = _ := Nat.and_two_pow_sub_one_eq_mod flags 13
  rw [hres, hdont, hmore, hmask]
  cases more <;> simp only [if_true, Bool.false_eq_true, if_false] at hflags <;>
    refine ⟨by omega, by omega, by omega, ?_, by omega⟩ <;> simp <;> omega

/-- The header of a fragment, with the checksum field as given. -/
def headerBytes (totalLength identification flags : ℕ) (ttl protocol : UInt8) (csum : ℕ)
    (srcIp dstIp : Ipv4Address) : List UInt8 :=
  [0x45, 0x00] ++ toBeBytes16 totalLength ++ toBeBytes16 identification ++ toBeBytes16 flags ++
    [ttl, protocol] ++ toBeBytes16 csum ++ srcIp.octets ++ dstIp.octets

section wire

variable {totalLength identification flags csum : ℕ} {ttl protocol : UInt8}
  {srcIp dstIp : Ipv4Address} {chunk : List UInt8}

@[simp] theorem headerBytes_length :
    (headerBytes totalLength identification flags ttl protocol csum srcIp dstIp).length = 20 := rfl

/-- The sum of the header words without the checksum. -/
def headerSum (totalLength identification flags : ℕ) (ttl protocol : UInt8)
    (srcIp dstIp : Ipv4Address) : ℕ :=
  rawChecksum (headerBytes totalLength identification flags ttl protocol 0 srcIp dstIp)

theorem rawChecksum_headerBytes (hcsum : csum < 65536) :
    rawChecksum (headerBytes totalLength identification flags ttl protocol csum srcIp dstIp) =
        headerSum totalLength identification flags ttl protocol srcIp dstIp + csum ∧
      0 < headerSum totalLength identification flags ttl protocol srcIp dstIp ∧
      headerSum totalLength identification flags ttl protocol srcIp dstIp < 65536 * 10 := by
  simp only [headerSum, rawChecksum, rawChecksumFrom_eq (Nat.two_pow_pos 32),
    headerBytes, toBeBytes16, Ipv4Address.octets, List.cons_append, List.nil_append, wordSum,
    beWord_toBeBytes16 hcsum]
  have h₁ := beWord_lt (UInt8.ofNat (totalLength / 256)) (UInt8.ofNat totalLength)
  have h₂ := beWord_lt (UInt8.ofNat (identification / 256)) (UInt8.ofNat identification)
  have h₃ := beWord_lt (UInt8.ofNat (flags / 256)) (UInt8.ofNat flags)
  have h₄ := beWord_lt ttl protocol
  have h₅ := beWord_lt srcIp.a srcIp.b
  have h₆ := beWord_lt srcIp.c srcIp.d
  have h₇ := beWord_lt dstIp.a dstIp.b
  have h₈ := beWord_lt dstIp.c dstIp.d
  have hfirst : beWord 0x45 0 = 0x4500 := rfl
  have hzero : beWord (UInt8.ofNat (0 / 256)) (UInt8.ofNat 0) = 0 := rfl
  rw [hfirst, hzero]
  omega

theorem verifyChecksum_headerBytes :
    verifyChecksum (headerBytes totalLength identification flags ttl protocol
      (computeChecksum (headerBytes totalLength identification flags ttl protocol 0 srcIp dstIp))
      srcIp dstIp) = true := by
  have hlt := finalizeChecksum_lt
    (headerSum totalLength identification flags ttl protocol srcIp dstIp)
  obtain ⟨hsum, hpos, hle⟩ := @rawChecksum_headerBytes totalLength identification flags _ ttl
    protocol srcIp dstIp hlt
  have hfold := foldCarry_add_finalizeChecksum hpos (by omega)
  rw [← hsum] at hfold
  simp only [headerSum] at hfold
  simp only [verifyChecksum, computeChecksum, hfold]
  rfl

theorem read_headerBytes (ht : totalLength < 65536) (hid : identification < 65536)
    (hflags : flags < 65536) (hcsum : csum < 65536) :
    Ipv4Header.read
      (headerBytes totalLength identification flags ttl protocol csum srcIp dstIp ++ chunk) =
    { version := 4, ihl := 5, dscpEcn := 0, totalLength := totalLength
      identification := identification, dontFragment := flags &&& 0x4000 ≠ 0
      moreFragments := flags &&& 0x2000 ≠ 0, fragmentOffset := flags &&& 0x1FFF, ttl := ttl
      protocol := .fromU8 protocol, checksum := csum, srcIp := srcIp, dstIp := dstIp } := by
  have h₂ : wordAt (headerBytes totalLength identification flags ttl protocol csum srcIp dstIp ++
    chunk) 2 = totalLength := beWord_toBeBytes16 ht
  have h₄ : wordAt (headerBytes totalLength identification flags ttl protocol csum srcIp dstIp ++
    chunk) 4 = identification := beWord_toBeBytes16 hid
  have h₆ : wordAt (headerBytes totalLength identification flags ttl protocol csum srcIp dstIp ++
    chunk) 6 = flags := beWord_toBeBytes16 hflags
  have h₁₀ : wordAt (headerBytes totalLength identification flags ttl protocol csum srcIp dstIp ++
    chunk) 10 = csum := beWord_toBeBytes16 hcsum
  have h₀ : byteAt (headerBytes totalLength identification flags ttl protocol csum srcIp dstIp ++
    chunk) 0 = 0x45 := rfl
  simp only [Ipv4Header.read, h₀, h₂, h₄, h₆, h₁₀]
  congr 1

/-- A header with a good checksum and legal flags parses, with what follows it as payload. -/
theorem parse_headerBytes (ht : 20 + chunk.length < 65536) (hid : identification < 65536)
    (hflags : flags < 65536) (hcsum : csum < 65536) (hres : ¬ flags &&& 0x8000 ≠ 0)
    (hmore : flags &&& 0x2000 ≠ 0 → chunk.length % 8 = 0)
    (hver : verifyChecksum (headerBytes (20 + chunk.length) identification flags ttl protocol csum
      srcIp dstIp) = true) :
    let data :=
      headerBytes (20 + chunk.length) identification flags ttl protocol csum srcIp dstIp ++
      chunk
    Ipv4Packet.parse data true = .ok ⟨Ipv4Header.read data, chunk⟩ := by
  intro data
  have hword : wordAt data 6 = flags := beWord_toBeBytes16 hflags
  have hlen : data.length = 20 + chunk.length := by simp [data]
  have htake : data.take 20 =
      headerBytes (20 + chunk.length) identification flags ttl protocol csum srcIp dstIp :=
    List.take_left' headerBytes_length
  have hread : Ipv4Header.read data = _ := read_headerBytes ht hid hflags hcsum
  have hpayload : (data.take (20 + chunk.length)).drop 20 = chunk := by
    rw [List.take_of_length_le hlen.le]
    exact List.drop_left' headerBytes_length
  unfold Ipv4Packet.parse
  simp only [hread, hlen, hword, ipv4MinHeaderLen, htake, hpayload, hver, hres]
  simpa using hmore

end wire

/-- A produced fragment is the header with its checksum, followed by the chunk. -/
theorem fragmentBytes_eq (srcIp dstIp : Ipv4Address) (protocol : UInt8) (identification : UInt16)
    (ttl : UInt8) (offset : ℕ) (more : Bool) (chunk : List UInt8) :
    let flags := (offset / 8 % 2 ^ 16 &&& 0x1FFF) ||| (if more then 0x2000 else 0)
    let header := fun csum => headerBytes ((ipv4MinHeaderLen + chunk.length) % 2 ^ 16)
      identification.toNat flags ttl protocol csum srcIp dstIp
    fragmentBytes srcIp dstIp protocol identification ttl offset more chunk =
      header (computeChecksum (header 0)) ++ chunk := rfl

/-- A fragment that is in range parses, checksum included, to its entry under its key. -/
theorem parse_fragmentBytes (srcIp dstIp : Ipv4Address) (protocol : UInt8)
    (identification : UInt16) (ttl : UInt8) (he : Emittable maxPayload e)
    (hstop : e.stop ≤ ipv4MaxPayloadLen) :
    ∃ p, Ipv4Packet.parse (fragmentBytes srcIp dstIp protocol identification ttl e.offset
        e.moreFragments e.data) true = .ok p ∧
      packetKey p = ⟨srcIp, dstIp, protocol, identification⟩ ∧ packetEntry p = e := by
  have hstop' : e.offset + e.data.length ≤ 65515 := hstop
  have hblocks : e.offset / 8 < 8192 := by omega
  obtain ⟨hflags, hres, hdont, hmore, hmask⟩ := @flagsOffset_read _ _ e.moreFragments hblocks rfl
  have htotal : (ipv4MinHeaderLen + e.data.length) % 2 ^ 16 = 20 + e.data.length := by
    simp only [ipv4MinHeaderLen]
    omega
  have hid := identification.toNat_lt
  rw [fragmentBytes_eq, flagsOffset_eq _ hblocks, htotal]
  generalize (if e.moreFragments then 0x2000 else 0) + e.offset / 8 = flags at *
  dsimp only
  have hver := @verifyChecksum_headerBytes (20 + e.data.length) identification.toNat flags ttl
    protocol srcIp dstIp
  have hcsum : computeChecksum (headerBytes (20 + e.data.length) identification.toNat flags ttl
    protocol 0 srcIp dstIp) < 65536 := finalizeChecksum_lt _
  refine ⟨_, parse_headerBytes (by omega) hid hflags hcsum hres ?_ hver, ?_, ?_⟩
  · exact fun h => he.full (hmore.mp h)
  · rw [read_headerBytes (by omega) hid hflags hcsum]
    simp [packetKey]
  · rw [read_headerBytes (by omega) hid hflags hcsum]
    have haligned := he.aligned
    have hoff : e.offset / 8 * 8 = e.offset := by omega
    have hbit : decide (flags &&& 0x2000 ≠ 0) = e.moreFragments := by
      rw [Bool.eq_iff_iff, decide_eq_true_eq, hmore]
    simp only [packetEntry, hmask, hoff, hbit]

/-- Every fragment is within the MTU, and its header checksum holds. -/
theorem fragmentBytes_length (srcIp dstIp : Ipv4Address) (protocol : UInt8)
    (identification : UInt16) (ttl : UInt8) (offset : ℕ) (more : Bool) (chunk : List UInt8) :
    (fragmentBytes srcIp dstIp protocol identification ttl offset more chunk).length =
      20 + chunk.length := by
  rw [fragmentBytes_eq]
  simp

example : (fragmentPayload ⟨10, 0, 0, 1⟩ ⟨10, 0, 0, 2⟩ 17 7 64 28
    (List.replicate 9 0)).map List.length = [28, 21] := by
  decide +kernel

end ToyTcpip.Fragment

namespace ToyTcpip

/-! ### Whole packets -/

namespace Ipv4Packet

/-- Every payload below fits the length field, past which the source panics. -/
def serialize (srcIp dstIp : Ipv4Address) (protocol : UInt8) (identification : ℕ) (ttl : UInt8)
    (payload : List UInt8) : List UInt8 :=
  let header := Fragment.headerBytes (ipv4MinHeaderLen +
    payload.length) identification 0x4000 ttl protocol
  header (computeChecksum (header 0 srcIp dstIp)) srcIp dstIp ++ payload

end Ipv4Packet

end ToyTcpip

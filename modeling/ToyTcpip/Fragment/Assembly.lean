import ToyTcpip.Ipv4
import ToyTcpip.Lib.Keyed
import ToyTcpip.Lib.Piece

/-! IPv4 fragmentation and the reassembly buffer of `fragment.rs`. -/
namespace ToyTcpip.Fragment

def maxReassemblyDatagrams : ℕ := 1024

def maxReassemblyBytes : ℕ := 4 * 1024 * 1024

/-- 60 seconds. An `Instant` is a number of nanoseconds. -/
def reassemblyTimeout : ℕ := 60 * 10 ^ 9

structure FragmentKey where
  srcIp : Ipv4Address
  dstIp : Ipv4Address
  protocol : UInt8
  identification : UInt16
  deriving DecidableEq, Repr

structure FragmentEntry where
  offset : ℕ
  data : List UInt8
  moreFragments : Bool
  deriving DecidableEq, Repr

/-- The `end` of an entry, in bytes. -/
def FragmentEntry.stop (e : FragmentEntry) : ℕ := e.offset + e.data.length

def FragmentEntry.piece (e : FragmentEntry) : ℕ × List UInt8 := (e.offset, e.data)

structure FragmentSet where
  entries : List FragmentEntry
  lastUsed : ℕ
  updatedAt : ℕ
  deriving DecidableEq, Repr

def FragmentSet.bytes (set : FragmentSet) : ℕ := (set.entries.map fun e => e.data.length).sum

/-- The map's iteration order is the order of the list. The map does not promise one; runs may
rearrange the list between calls (`Reaches.rehash`). -/
structure IpReassemblyBuffer where
  buffers : AList fun _ : FragmentKey => FragmentSet
  bufferedBytes : ℕ
  sequence : ℕ

namespace IpReassemblyBuffer

def new : IpReassemblyBuffer := ⟨∅, 0, 0⟩

/-- `saturating_add` on `u64`. -/
def nextSequence (buf : IpReassemblyBuffer) : ℕ := min (buf.sequence + 1) (2 ^ 64 - 1)

def removeBuffer (buf : IpReassemblyBuffer) (key : FragmentKey) : IpReassemblyBuffer :=
  match buf.buffers.lookup key with
  | some set =>
    { buf with buffers := buf.buffers.erase key, bufferedBytes := buf.bufferedBytes - set.bytes }
  | none => buf

def expireStaleAt (buf : IpReassemblyBuffer) (now : ℕ) : ℕ × IpReassemblyBuffer :=
  let expired := (buf.buffers.entries.filter fun e =>
    now - e.2.updatedAt ≥ reassemblyTimeout).map fun e => e.1
  (expired.length, expired.foldl removeBuffer buf)

/-- The buffer without the least recently used set, or `none` where only `kept` is left. -/
def evictOldestExcept (buf : IpReassemblyBuffer) (kept : Option FragmentKey) :
    Option IpReassemblyBuffer :=
  ((buf.buffers.entries.filter fun e => kept ≠ some e.1).argmin fun e => e.2.lastUsed).map
    fun e => buf.removeBuffer e.1

theorem removeBuffer_buffers (buf : IpReassemblyBuffer) (key : FragmentKey) :
    (buf.removeBuffer key).buffers = buf.buffers.erase key := by
  unfold removeBuffer
  split
  · rfl
  · rename_i hnone
    exact (Keyed.erase_of_notMem (AList.lookup_eq_none.mp hnone)).symm

theorem evictOldestExcept_eq_some {buf buf' : IpReassemblyBuffer} {kept : Option FragmentKey}
    (h : buf.evictOldestExcept kept = some buf') :
    ∃ key ∈ buf.buffers, kept ≠ some key ∧ buf' = buf.removeBuffer key := by
  obtain ⟨e, hmin, rfl⟩ := Option.map_eq_some_iff.mp h
  obtain ⟨hmem, hne⟩ := List.mem_filter.mp (List.argmin_mem hmin)
  exact ⟨e.1, AList.mem_keys.mpr (List.mem_keys_of_mem hmem), by simpa using hne, rfl⟩

theorem evictOldestExcept_length {buf buf' : IpReassemblyBuffer} {kept : Option FragmentKey}
    (h : buf.evictOldestExcept kept = some buf') :
    buf'.buffers.entries.length < buf.buffers.entries.length := by
  obtain ⟨key, hmem, -, rfl⟩ := evictOldestExcept_eq_some h
  rw [removeBuffer_buffers]
  exact Keyed.length_erase_lt hmem

/-- `while exceeds(self) { if !self.evict_oldest_except(kept) { .. return false } }` -/
def evictWhile (exceeds : IpReassemblyBuffer → Bool) (kept : Option FragmentKey)
    (buf : IpReassemblyBuffer) : Bool × IpReassemblyBuffer :=
  if exceeds buf then
    match _h : buf.evictOldestExcept kept with
    | some buf' => evictWhile exceeds kept buf'
    | none => (false, buf)
  else (true, buf)
termination_by buf.buffers.entries.length
decreasing_by exact evictOldestExcept_length ‹_›

def overBytes (additional : ℕ) (buf : IpReassemblyBuffer) : Bool :=
  buf.bufferedBytes + additional > maxReassemblyBytes

def overDatagrams (buf : IpReassemblyBuffer) : Bool :=
  buf.buffers.entries.length ≥ maxReassemblyDatagrams

def makeRoomFor (buf : IpReassemblyBuffer) (key : FragmentKey) (additional : ℕ) :
    Bool × IpReassemblyBuffer :=
  if additional > maxReassemblyBytes then (false, buf.removeBuffer key)
  else
    match if key ∈ buf.buffers then (true, buf) else evictWhile overDatagrams none buf with
    | (false, buf) => (false, buf)
    | (true, buf) =>
      match evictWhile (overBytes additional) (some key) buf with
      | (false, buf) => (false, buf.removeBuffer key)
      | (true, buf) => (true, buf)

end IpReassemblyBuffer

/-! ### Accepting a fragment -/

/-- The bytes two entries share are not the same. -/
def overlapDiffers (frag entry : FragmentEntry) : Bool :=
  let overlapStart := max frag.offset entry.offset
  let overlapEnd := min frag.stop entry.stop
  overlapStart < overlapEnd &&
    (frag.data.drop (overlapStart - frag.offset)).take (overlapEnd - overlapStart) ≠
      (entry.data.drop (overlapStart - entry.offset)).take (overlapEnd - overlapStart)

/-- `invalid`: a terminal end that does not fit the entries, or bytes that conflict with them. -/
def invalid (entries : List FragmentEntry) (frag : FragmentEntry) : Bool :=
  let existingTerminalEnd := (entries.find? fun e => !e.moreFragments).map FragmentEntry.stop
  (existingTerminalEnd.any fun terminalEnd =>
    frag.stop > terminalEnd || (!frag.moreFragments && frag.stop ≠ terminalEnd)) ||
  (!frag.moreFragments && entries.any fun e => e.stop > frag.stop) ||
  entries.any (overlapDiffers frag)

structure Scan where
  currentEnd : ℕ
  hasLast : Bool
  totalLen : ℕ
  deriving DecidableEq, Repr

def Scan.next (s : Scan) (e : FragmentEntry) : Scan :=
  { currentEnd := if e.stop > s.currentEnd then e.stop else s.currentEnd
    hasLast := if e.moreFragments then s.hasLast else true
    totalLen := if e.moreFragments then s.totalLen else e.stop }

/-- The loop over the sorted entries; `none` is the return at a gap. -/
def scanEntries (s : Scan) : List FragmentEntry → Option Scan
  | [] => some s
  | e :: rest => if e.offset > s.currentEnd then none else scanEntries (s.next e) rest

/-- The assembled payload, if the entries make one. The outer `none` is a panic of the copy. -/
def assemble (entries : List FragmentEntry) : Option (Option (List UInt8)) :=
  if entries.head?.map FragmentEntry.offset = some 0 then
    match scanEntries ⟨0, false, 0⟩ entries with
    | none => some none
    | some s =>
      if s.hasLast ∧ s.currentEnd = s.totalLen then
        (Piece.overlay (List.replicate s.totalLen 0) (entries.map FragmentEntry.piece)).map some
      else some none
  else some none

namespace IpReassemblyBuffer

def entriesOf (buf : IpReassemblyBuffer) (key : FragmentKey) : List FragmentEntry :=
  ((buf.buffers.lookup key).map FragmentSet.entries).getD []

/-- Push the entry, stamp the set, and sort it by offset. -/
def store (buf : IpReassemblyBuffer) (now : ℕ) (key : FragmentKey) (frag : FragmentEntry) :
    IpReassemblyBuffer :=
  let entries := (buf.entriesOf key ++ [frag]).insertionSort fun a b => a.offset ≤ b.offset
  { buffers := buf.buffers.insert key ⟨entries, buf.nextSequence, now⟩
    bufferedBytes := buf.bufferedBytes + frag.data.length
    sequence := buf.nextSequence }

/-- The stored set is handed out and dropped once it makes a payload. -/
def deliver (buf : IpReassemblyBuffer) (key : FragmentKey) :
    Option (Option (List UInt8) × IpReassemblyBuffer) :=
  (assemble (buf.entriesOf key)).map fun assembled =>
    (assembled, if assembled.isSome then buf.removeBuffer key else buf)

/-- The outer `none` is a panic. -/
def addFragment (buf : IpReassemblyBuffer) (now : ℕ) (srcIp dstIp : Ipv4Address)
    (protocol : UInt8) (identification : UInt16) (fragmentOffsetBlocks : ℕ) (moreFragments : Bool)
    (payload : List UInt8) : Option (Option (List UInt8) × IpReassemblyBuffer) :=
  let buf := (buf.expireStaleAt now).2
  let frag : FragmentEntry := ⟨fragmentOffsetBlocks * 8, payload, moreFragments⟩
  if frag.stop > ipv4MaxPayloadLen then some (none, buf)
  else
    let key : FragmentKey := ⟨srcIp, dstIp, protocol, identification⟩
    if payload = [] then some (none, buf.removeBuffer key)
    else if moreFragments ∧ payload.length % 8 ≠ 0 then some (none, buf.removeBuffer key)
    else if (buf.buffers.lookup key).any fun set => invalid set.entries frag then
      some (none, buf.removeBuffer key)
    else
      match buf.makeRoomFor key payload.length with
      | (false, buf) => some (none, buf)
      | (true, buf) => (buf.store now key frag).deliver key

/-- A parsed packet handed to `add_fragment`. -/
def addPacket (buf : IpReassemblyBuffer) (now : ℕ) (p : Ipv4Packet) :
    Option (Option (List UInt8) × IpReassemblyBuffer) :=
  buf.addFragment now p.header.srcIp p.header.dstIp p.header.protocol.toU8
    (UInt16.ofNat p.header.identification) p.header.fragmentOffset p.header.moreFragments p.payload

end IpReassemblyBuffer

/-! ### Fragmentation -/

/-- One fragment: header with the checksum written over its placeholder, then the chunk. -/
def fragmentBytes (srcIp dstIp : Ipv4Address) (protocol : UInt8) (identification : UInt16)
    (ttl : UInt8) (offset : ℕ) (moreFragments : Bool) (chunk : List UInt8) : List UInt8 :=
  let fragOffsetBlocks := offset / 8 % 2 ^ 16
  let totalLength := (ipv4MinHeaderLen + chunk.length) % 2 ^ 16
  let flagsOffset := (fragOffsetBlocks &&& 0x1FFF) ||| (if moreFragments then 0x2000 else 0)
  let buf := [0x45, 0x00] ++ toBeBytes16 totalLength ++ toBeBytes16 identification.toNat ++
    toBeBytes16 flagsOffset ++ [ttl, protocol] ++ [0x00, 0x00] ++ srcIp.octets ++ dstIp.octets
  let csum := computeChecksum (buf.take ipv4MinHeaderLen)
  buf.take 10 ++ toBeBytes16 csum ++ buf.drop 12 ++ chunk

def fragmentLoop (srcIp dstIp : Ipv4Address) (protocol : UInt8) (identification : UInt16)
    (ttl : UInt8) (maxPayload : ℕ) (hmax : 0 < maxPayload) (payload : List UInt8) (offset : ℕ) :
    List (List UInt8) :=
  if offset < payload.length then
    let chunkLen := min (payload.length - offset) maxPayload
    let moreFragments := decide (offset + chunkLen < payload.length)
    fragmentBytes srcIp dstIp protocol identification ttl offset moreFragments
        ((payload.drop offset).take chunkLen) ::
      fragmentLoop srcIp dstIp protocol identification ttl maxPayload hmax payload
        (offset + chunkLen)
  else []
termination_by payload.length - offset

def fragmentPayload (srcIp dstIp : Ipv4Address) (protocol : UInt8) (identification : UInt16)
    (ttl : UInt8) (mtu : ℕ) (payload : List UInt8) : List (List UInt8) :=
  if mtu ≤ ipv4MinHeaderLen then []
  else
    let maxPayload := (mtu - ipv4MinHeaderLen) / 8 * 8
    if hmax : maxPayload = 0 then []
    else
      fragmentLoop srcIp dstIp protocol identification ttl maxPayload (Nat.pos_of_ne_zero hmax)
        payload 0

end ToyTcpip.Fragment

/-! ### When the stored entries of one datagram make a payload, and which. -/
namespace ToyTcpip.Fragment

variable {entries : List FragmentEntry} {frag e : FragmentEntry} {s s' : Scan}
  {full : List UInt8} {i : ℕ}

/-- The position `i` of the datagram lies in the entry. -/
def FragmentEntry.Covers (e : FragmentEntry) (i : ℕ) : Prop := e.offset ≤ i ∧ i < e.stop

/-- Entries that can belong to one datagram, in the order the buffer keeps them. -/
structure Coherent (entries : List FragmentEntry) : Prop where
  data : ∀ e ∈ entries, e.data ≠ []
  sorted : entries.Pairwise fun e f => e.offset ≤ f.offset
  terminal : ∀ t ∈ entries, t.moreFragments = false → ∀ e ∈ entries, e.stop ≤ t.stop
  agree : ∀ e ∈ entries, ∀ f ∈ entries, Piece.Agree e.piece f.piece

/-- The payload `full` is what the entries make: they end where it ends, cover it and lie in it. -/
structure Complete (entries : List FragmentEntry) (full : List UInt8) : Prop where
  terminal : ∃ t ∈ entries, t.moreFragments = false ∧ t.stop = full.length
  covered : ∀ i < full.length, ∃ e ∈ entries, e.Covers i
  placed : ∀ e ∈ entries, Piece.At full e.offset e.data

/-! ### The completeness loop -/

@[simp] theorem Scan.next_currentEnd : (s.next e).currentEnd = max s.currentEnd e.stop := by
  simp only [Scan.next]
  split <;> omega

/-- The loop ends where everything before it is covered. -/
theorem scanEntries_currentEnd (h : scanEntries s entries = some s') :
    s.currentEnd ≤ s'.currentEnd ∧ (∀ e ∈ entries, e.stop ≤ s'.currentEnd) ∧
    ∀ i, s.currentEnd ≤ i → i < s'.currentEnd → ∃ e ∈ entries, e.Covers i := by
  induction entries generalizing s with
  | nil =>
    obtain rfl : s = s' := by simpa [scanEntries] using h
    exact ⟨le_rfl, by simp, fun i h₁ h₂ => by omega⟩
  | cons e rest ih =>
    simp only [scanEntries] at h
    split at h
    · simp at h
    · obtain ⟨hle, hstop, hcov⟩ := ih h
      rw [Scan.next_currentEnd] at hle hcov
      refine ⟨by omega, ?_, fun i h₁ h₂ => ?_⟩
      · simp only [List.mem_cons, forall_eq_or_imp]
        exact ⟨by omega, hstop⟩
      · by_cases hi : i < e.stop
        · exact ⟨e, List.mem_cons_self, by omega, hi⟩
        · obtain ⟨f, hf, hfi⟩ := hcov i (by omega) h₂
          exact ⟨f, List.mem_cons_of_mem _ hf, hfi⟩

/-- The loop's length is the end of a terminal entry, if there is one. -/
theorem scanEntries_last (h : scanEntries s entries = some s') :
    (s'.hasLast = true ∧ ∃ t ∈ entries, t.moreFragments = false ∧ t.stop = s'.totalLen) ∨
    ((∀ t ∈ entries, t.moreFragments = true) ∧ s'.hasLast = s.hasLast ∧
      s'.totalLen = s.totalLen) := by
  induction entries generalizing s with
  | nil =>
    obtain rfl : s = s' := by simpa [scanEntries] using h
    exact .inr ⟨by simp, rfl, rfl⟩
  | cons e rest ih =>
    simp only [scanEntries] at h
    split at h
    · simp at h
    · rcases ih h with ⟨hlast, t, ht, hmf, hstop⟩ | ⟨hnone, hlast, htotal⟩
      · exact .inl ⟨hlast, t, List.mem_cons_of_mem _ ht, hmf, hstop⟩
      · cases hmf : e.moreFragments
        · refine .inl ⟨by simp [hlast, Scan.next, hmf], e, List.mem_cons_self, hmf, ?_⟩
          simp [htotal, Scan.next, hmf]
        · refine .inr ⟨?_, by simp [hlast, Scan.next, hmf], by simp [htotal, Scan.next, hmf]⟩
          simpa [hmf] using hnone

/-- Sorted entries without a gap before `n` pass the loop. -/
theorem scanEntries_ne_none {n : ℕ} (hsorted : entries.Pairwise fun e f => e.offset ≤ f.offset)
    (hcov : ∀ i, s.currentEnd ≤ i → i < n → ∃ e ∈ entries, e.Covers i)
    (hin : ∀ e ∈ entries, e.offset ≤ n) : scanEntries s entries ≠ none := by
  induction entries generalizing s with
  | nil => simp [scanEntries]
  | cons e rest ih =>
    obtain ⟨hfirst, hrest⟩ := List.pairwise_cons.mp hsorted
    simp only [scanEntries]
    split
    · rename_i hgap
      -- The position where the loop stands would have to lie in an entry that sorts before `e`.
      have hn := hin e List.mem_cons_self
      obtain ⟨f, hf, hfs, -⟩ := hcov s.currentEnd le_rfl (by omega)
      have hle : e.offset ≤ f.offset := by
        rcases List.mem_cons.mp hf with rfl | hf
        · exact le_rfl
        · exact hfirst f hf
      omega
    · refine ih hrest (fun i h₁ h₂ => ?_) fun f hf => hin f (List.mem_cons_of_mem _ hf)
      rw [Scan.next_currentEnd] at h₁
      obtain ⟨f, hf, hfi⟩ := hcov i (by omega) h₂
      rcases List.mem_cons.mp hf with rfl | hf
      · have hlt := hfi.2
        omega
      · exact ⟨f, hf, hfi⟩

/-! ### The assembled payload -/

theorem Complete.head (h : Complete entries full) (hc : Coherent entries) :
    entries.head?.map FragmentEntry.offset = some 0 := by
  obtain ⟨t, ht, -, hstop⟩ := h.terminal
  have hpos := List.length_pos_of_ne_nil (hc.data t ht)
  obtain ⟨e, he, he0, -⟩ := h.covered 0 (by simp only [FragmentEntry.stop] at hstop; omega)
  cases entries with
  | nil => simp at ht
  | cons a rest =>
    have hle : a.offset ≤ e.offset := by
      rcases List.mem_cons.mp he with rfl | he
      · exact le_rfl
      · exact (List.pairwise_cons.mp hc.sorted).1 e he
    simp only [List.head?_cons, Option.map_some, Option.some.injEq]
    omega

/-- A complete set passes the loop, and the loop finds its length. -/
theorem Complete.scan (h : Complete entries full) (hc : Coherent entries) :
    ∃ s, scanEntries ⟨0, false, 0⟩ entries = some s ∧ s.hasLast = true ∧
      s.currentEnd = s.totalLen := by
  obtain ⟨t, ht, hmf, hstop⟩ := h.terminal
  have hin : ∀ e ∈ entries, e.stop ≤ full.length := fun e he => hstop ▸ hc.terminal t ht hmf e he
  have hsome := scanEntries_ne_none (s := ⟨0, false, 0⟩) (n := full.length) hc.sorted
    (fun i _ hi => h.covered i hi) fun e he => (Nat.le_add_right _ _).trans (hin e he)
  obtain ⟨s, hs⟩ := Option.ne_none_iff_exists'.mp hsome
  obtain ⟨-, hend, hcov⟩ := scanEntries_currentEnd hs
  rcases scanEntries_last hs with ⟨hlast, t', ht', hmf', hstop'⟩ | ⟨hnone, -⟩
  · refine ⟨s, hs, hlast, ?_⟩
    have hle := hend t' ht'
    by_contra hne
    obtain ⟨e, he, -, hlt⟩ := hcov s.totalLen (Nat.zero_le _) (by omega)
    have hterm := hc.terminal t' ht' hmf' e he
    omega
  · simp [hnone t ht] at hmf

/-- Entries the loop accepts are copied in bounds, and make the payload copied. -/
theorem overlay_complete (hc : Coherent entries)
    (hs : scanEntries ⟨0, false, 0⟩ entries = some s) (hlast : s.hasLast = true)
    (htotal : s.currentEnd = s.totalLen) :
    ∃ full, Piece.overlay (List.replicate s.totalLen 0) (entries.map FragmentEntry.piece) =
      some full ∧ Complete entries full := by
  obtain ⟨-, hend, hcov⟩ := scanEntries_currentEnd hs
  obtain ⟨-, t, ht, hmf, hstop⟩ | ⟨-, hnot, -⟩ := scanEntries_last hs
  · have hfits : ∀ p ∈ entries.map FragmentEntry.piece,
        p.1 + p.2.length ≤ (List.replicate s.totalLen (0 : UInt8)).length := by
      simp only [List.forall_mem_map, List.length_replicate]
      exact fun e he => htotal ▸ hend e he
    obtain ⟨full, hfull, hlen, hat⟩ := Piece.overlay_at hfits (by simpa using hc.agree)
    rw [List.length_replicate] at hlen
    refine ⟨full, hfull, ⟨t, ht, hmf, by omega⟩, ?_, ?_⟩
    · exact fun i hi => hcov i (Nat.zero_le _) (by omega)
    · simpa [FragmentEntry.piece] using hat
  · simp [hlast] at hnot

/-- The copy never panics, and gives the payload the entries make or nothing. -/
theorem assemble_spec (hc : Coherent entries) :
    (∃ full, Complete entries full ∧ assemble entries = some (some full)) ∨
    (¬ ∃ full, Complete entries full) ∧ assemble entries = some none := by
  by_cases hex : ∃ full, Complete entries full
  · left
    obtain ⟨_, hcomplete⟩ := hex
    obtain ⟨s, hs, hlast, htotal⟩ := hcomplete.scan hc
    obtain ⟨full, hfull, hmade⟩ := overlay_complete hc hs hlast htotal
    exact ⟨full, hmade, by simp [assemble, hcomplete.head hc, hs, hlast, htotal, hfull]⟩
  · right
    refine ⟨hex, ?_⟩
    unfold assemble
    split_ifs with hhead
    · split
      · rfl
      · rename_i s hs
        split_ifs with hdone
        · obtain ⟨full, -, hmade⟩ := overlay_complete hc hs hdone.1 hdone.2
          exact absurd ⟨full, hmade⟩ hex
        · rfl
    · rfl

/-! ### The entries after one more fragment -/

theorem overlapDiffers_eq_false : overlapDiffers frag e = false ↔
    Piece.Agree frag.piece e.piece := by
  by_cases hlt : max frag.offset e.offset < min frag.stop e.stop
  · have hoff : ∀ {d : List UInt8} {o k : ℕ}, o ≤ max frag.offset e.offset →
        k < min frag.stop e.stop - max frag.offset e.offset →
        ((d.drop (max frag.offset e.offset - o)).take
          (min frag.stop e.stop - max frag.offset e.offset))[k]? =
          d[max frag.offset e.offset + k - o]? := by
      intro d o k ho hk
      rw [List.getElem?_take_of_lt hk, List.getElem?_drop]
      congr 1
      omega
    simp only [overlapDiffers, hlt, decide_true, Bool.true_and, ne_eq, decide_eq_false_iff_not,
      not_not]
    constructor
    · intro heq i ⟨hf, hfl⟩ ⟨he, hel⟩
      simp only [FragmentEntry.piece] at hf hfl he hel ⊢
      have hk : i - max frag.offset e.offset <
          min frag.stop e.stop - max frag.offset e.offset := by
        simp only [FragmentEntry.stop]
        omega
      have hget := congrArg (·[i - max frag.offset e.offset]?) heq
      simp only [hoff (le_max_left _ _) hk, hoff (le_max_right _ _) hk] at hget
      rwa [Nat.add_sub_cancel' (by omega)] at hget
    · intro hagree
      apply List.ext_getElem? fun k => ?_
      by_cases hk : k < min frag.stop e.stop - max frag.offset e.offset
      · rw [hoff (le_max_left _ _) hk, hoff (le_max_right _ _) hk]
        simp only [FragmentEntry.stop] at hk
        apply hagree <;> constructor <;> simp only [FragmentEntry.piece] <;> omega
      · rw [List.getElem?_take_eq_none (by omega), List.getElem?_take_eq_none (by omega)]
  · refine ⟨fun _ i ⟨hf, hfl⟩ ⟨he, hel⟩ => ?_, fun _ => by simp [overlapDiffers, hlt]⟩
    simp only [FragmentEntry.piece] at hf hfl he hel
    simp only [FragmentEntry.stop] at hlt
    omega

theorem invalid_eq_false : invalid entries frag = false ↔
    (∀ t ∈ entries.find? fun e => !e.moreFragments,
      frag.stop ≤ t.stop ∧ (frag.moreFragments = false → frag.stop = t.stop)) ∧
    (frag.moreFragments = false → ∀ e ∈ entries, e.stop ≤ frag.stop) ∧
    ∀ e ∈ entries, Piece.Agree frag.piece e.piece := by
  simp only [invalid, Bool.or_eq_false_iff, List.any_eq_false, ← overlapDiffers_eq_false, and_assoc]
  refine and_congr ?_ (and_congr ?_ ?_)
  · cases entries.find? fun e => !e.moreFragments <;> simp
  · cases frag.moreFragments <;> simp
  · simp

theorem mem_insertionSort_append {r : FragmentEntry → FragmentEntry → Prop} [DecidableRel r] :
    e ∈ (entries ++ [frag]).insertionSort r ↔ e ∈ entries ∨ e = frag := by
  simp [List.mem_insertionSort]

theorem pairwise_insertionSort_offset (l : List FragmentEntry) :
    (l.insertionSort fun a b => a.offset ≤ b.offset).Pairwise fun a b => a.offset ≤ b.offset := by
  have : Std.Total fun a b : FragmentEntry => a.offset ≤ b.offset := ⟨fun a b => le_total _ _⟩
  have : IsTrans FragmentEntry fun a b => a.offset ≤ b.offset := ⟨fun a b c => le_trans⟩
  exact List.pairwise_insertionSort _ l

/-- A fragment that is not invalid leaves the entries coherent. -/
theorem Coherent.insert (hc : Coherent entries) (hdata : frag.data ≠ [])
    (hvalid : invalid entries frag = false) :
    Coherent ((entries ++ [frag]).insertionSort fun a b => a.offset ≤ b.offset) := by
  obtain ⟨hterm, hlast, hagree⟩ := invalid_eq_false.mp hvalid
  refine ⟨?_, pairwise_insertionSort_offset _, ?_, ?_⟩
  · intro e he
    rcases mem_insertionSort_append.mp he with he | rfl
    · exact hc.data e he
    · exact hdata
  · intro t ht hmf e he
    rw [mem_insertionSort_append] at ht he
    rcases ht with ht | rfl <;> rcases he with he | rfl
    · exact hc.terminal t ht hmf e he
    · have hsome : (entries.find? fun e => !e.moreFragments).isSome := by
        rw [List.find?_isSome]
        exact ⟨t, ht, by simp [hmf]⟩
      obtain ⟨first, hfirst⟩ := Option.isSome_iff_exists.mp hsome
      have hmf' : first.moreFragments = false := by simpa using List.find?_some hfirst
      have hle := hc.terminal t ht hmf first (List.mem_of_find?_eq_some hfirst)
      exact (hterm first hfirst).1.trans hle
    · exact hlast hmf e he
    · exact le_rfl
  · intro e he f hf
    rw [mem_insertionSort_append] at he hf
    rcases he with he | rfl <;> rcases hf with hf | rfl
    · exact hc.agree e he f hf
    · exact (hagree e he).symm
    · exact hagree f hf
    · exact .refl _

end ToyTcpip.Fragment

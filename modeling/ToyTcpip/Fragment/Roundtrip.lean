import ToyTcpip.Fragment.Split

/-! Fragments of a payload, handed to the reassembly buffer in any order and any number of times. -/
namespace ToyTcpip.Fragment

open IpReassemblyBuffer

variable {payload full : List UInt8} {entries : List FragmentEntry} {packets : List Ipv4Packet}
  {held : List (Fin packets.length)} {i j : Fin packets.length} {buf buf' room : IpReassemblyBuffer}
  {key : FragmentKey} {p : Ipv4Packet} {now lastAt : ℕ}

/-! ### When pieces of a tiling are complete -/

def part (packets : List Ipv4Packet) (i : Fin packets.length) : FragmentEntry :=
  packetEntry (packets.get i)

theorem Tiles.slices_part (ht : Tiles payload (packets.map packetEntry)) (i : Fin packets.length) :
    SliceOf payload (part packets i) :=
  ht.slices _ (List.mem_map_of_mem (List.get_mem packets i))

/-- The entries are the held pieces. -/
def Held (packets : List Ipv4Packet) (held : List (Fin packets.length))
    (entries : List FragmentEntry) : Prop :=
  ∀ e, e ∈ entries ↔ ∃ i ∈ held, part packets i = e

theorem Held.sliceOf (h : Held packets held entries)
    (ht : Tiles payload (packets.map packetEntry)) : ∀ e ∈ entries, SliceOf payload e := by
  intro e he
  obtain ⟨i, -, rfl⟩ := (h e).mp he
  exact ht.slices_part i

/-- Two pieces of a tiling that share a position are the same piece. -/
theorem Tiles.eq_of_covers (ht : Tiles payload (packets.map packetEntry)) {n : ℕ}
    (hi : (part packets i).Covers n) (hj : (part packets j).Covers n) : i = j := by
  have hapart := List.pairwise_iff_get.mp (List.pairwise_map.mp ht.apart)
  simp only [part] at *
  obtain ⟨hi₁, hi₂⟩ := hi
  obtain ⟨hj₁, hj₂⟩ := hj
  rcases lt_trichotomy i j with hlt | heq | hlt
  · have := hapart i j hlt
    omega
  · exact heq
  · have := hapart j i hlt
    omega

theorem Complete.eq_payload (h : Complete entries full) (hs : ∀ e ∈ entries, SliceOf payload e) :
    full = payload := by
  obtain ⟨t, ht, hmf, hstop⟩ := h.terminal
  have hlen : full.length = payload.length := by
    rw [← hstop, ((hs t ht).last_iff).mp hmf]
  refine @Piece.eq_of_covered _ _ _ (entries.map FragmentEntry.piece) ?_ ?_ hlen fun n hn => ?_
  · simpa [FragmentEntry.piece] using h.placed
  · simpa [FragmentEntry.piece] using fun e he => (hs e he).placed
  · obtain ⟨e, he, hcov⟩ := h.covered n hn
    exact ⟨e.piece, List.mem_map_of_mem he, hcov⟩

/-- The held pieces make a payload exactly when none is missing. -/
theorem Held.complete_iff (h : Held packets held entries)
    (ht : Tiles payload (packets.map packetEntry)) (hne : payload ≠ []) :
    (∃ full, Complete entries full) ↔ ∀ j, j ∈ held := by
  constructor
  · rintro ⟨full, hfull⟩ j
    have hslice := ht.slices_part j
    have hpos := List.length_pos_of_ne_nil hslice.data
    have hstart : (part packets j).Covers (part packets j).offset :=
      ⟨le_rfl, by simp only [FragmentEntry.stop]; omega⟩
    have hin : (part packets j).offset < full.length := by
      rw [hfull.eq_payload (h.sliceOf ht)]
      exact hstart.2.trans_le hslice.stop_le
    obtain ⟨e, he, hcov⟩ := hfull.covered _ hin
    obtain ⟨k, hk, rfl⟩ := (h e).mp he
    rwa [ht.eq_of_covers hstart hcov]
  · intro hall
    have hmem : ∀ e ∈ packets.map packetEntry, e ∈ entries := by
      intro e he
      obtain ⟨p, hp, rfl⟩ := List.mem_map.mp he
      obtain ⟨k, rfl⟩ := List.get_of_mem hp
      exact (h _).mpr ⟨k, hall k, rfl⟩
    have hpos := List.length_pos_of_ne_nil hne
    refine ⟨payload, ?_, fun n hn => ?_, fun e he => (h.sliceOf ht e he).placed⟩
    · obtain ⟨e, he, -, hlast⟩ := ht.covered (payload.length - 1) (by omega)
      have hle := (ht.slices e he).stop_le
      have hstop : e.stop = payload.length := by omega
      exact ⟨e, hmem e he, (ht.slices e he).last_iff.mpr hstop, hstop⟩
    · obtain ⟨e, he, hcov⟩ := ht.covered n hn
      exact ⟨e, hmem e he, hcov⟩

theorem invalid_of_sliceOf {e : FragmentEntry} (hs : ∀ f ∈ entries, SliceOf payload f)
    (he : SliceOf payload e) : invalid entries e = false := by
  refine invalid_eq_false.mpr ⟨fun t ht => ?_, fun hmf f hf => ?_, fun f hf => ?_⟩
  · have hslice := hs t (List.mem_of_find?_eq_some ht)
    have hmf : t.moreFragments = false := by simpa using List.find?_some ht
    rw [hslice.last_iff.mp hmf]
    exact ⟨he.stop_le, he.last_iff.mp⟩
  · rw [he.last_iff.mp hmf]
    exact (hs f hf).stop_le
  · exact he.placed.agree (hs f hf).placed

/-! ### One arrival -/

/-- A packet that passes every check is stored in the room made for it. -/
theorem addPacket_stored (hstop : (packetEntry p).stop ≤ ipv4MaxPayloadLen)
    (hdata : p.payload ≠ []) (hfull : p.header.moreFragments = true → p.payload.length % 8 = 0)
    (hvalid : invalid ((buf.expireStaleAt now).2.entriesOf (packetKey p)) (packetEntry p) = false)
    (hroom : (buf.expireStaleAt now).2.makeRoomFor (packetKey p) p.payload.length = (true, room)) :
    buf.addPacket now p =
      (room.store now (packetKey p) (packetEntry p)).deliver (packetKey p) := by
  have hinv : ¬ ((buf.expireStaleAt now).2.buffers.lookup (packetKey p)).any
      (fun set => invalid set.entries (packetEntry p)) = true := by
    cases hset : (buf.expireStaleAt now).2.buffers.lookup (packetKey p) with
    | none => simp
    | some set =>
      rw [entriesOf_of_lookup hset] at hvalid
      simp [hvalid]
  unfold addPacket addFragment
  dsimp only
  rw [if_neg (by simpa [packetEntry] using hstop), if_neg hdata, if_neg (by simpa using hfull)]
  simp only [packetKey, packetEntry] at hinv hroom ⊢
  rw [if_neg hinv, hroom]

/-- There is always room for a fragment that fits together with its own datagram. -/
theorem makeRoomFor_fits {n : ℕ} (h : Sound buf)
    (hfit : heldBytes buf key + n ≤ maxReassemblyBytes) :
    ∃ room, buf.makeRoomFor key n = (true, room) ∧ Shrinks buf room ∧
      room.buffers.lookup key = buf.buffers.lookup key ∧
      (key ∈ room.buffers ∨ room.buffers.entries.length < maxReassemblyDatagrams) ∧
      room.bufferedBytes + n ≤ maxReassemblyBytes := by
  rcases makeRoomFor_cases buf key n with ⟨hbig, -⟩ |
    ⟨room, hshrink, hkey, hlen, ⟨hbytes, heq⟩ | ⟨hover, honly, -⟩⟩
  · omega
  · exact ⟨room, heq, hshrink, hkey, hlen, hbytes⟩
  · -- Nothing but the datagram itself is left, and that fits.
    exfalso
    have hempty : (room.buffers.erase key).entries = [] := by
      apply List.eq_nil_iff_forall_not_mem.mpr
      intro e he
      have hmem : e.1 ∈ room.buffers.erase key := AList.mem_keys.mpr (List.mem_keys_of_mem he)
      have hsub := (List.kerase_sublist key room.buffers.entries).subset he
      exact (AList.mem_erase.mp hmem).1 (honly e hsub)
    have hweight := weight_erase_add_heldBytes room key
    have hcount := (h.shrinks hshrink).counted
    have hheld : heldBytes room key = heldBytes buf key := by simp [heldBytes, entriesOf, hkey]
    simp only [Keyed.weight, hempty, List.map_nil, List.sum_nil] at hweight
    simp only [Keyed.weight] at hcount
    omega

/-- The buffer's set for `key` is what arrived since the datagram was last delivered. -/
structure Gathers (packets : List Ipv4Packet) (key : FragmentKey)
    (held : List (Fin packets.length)) (lastAt : ℕ) (buf : IpReassemblyBuffer) : Prop where
  sound : Sound buf
  entries : Held packets held (buf.entriesOf key)
  bytes : heldBytes buf key = (held.map fun i => (part packets i).data.length).sum
  stamped : ∀ set ∈ buf.buffers.lookup key, held ≠ [] ∧ set.updatedAt = lastAt

/-- What is held once the piece `i` is in: nothing, if that was the last one missing. -/
def heldAfter {n : ℕ} (held : List (Fin n)) (i : Fin n) : List (Fin n) :=
  if ∀ j, j ∈ i :: held then [] else i :: held

theorem gathers_of_notMem (h : Sound buf) (hkey : key ∉ buf.buffers) :
    Gathers packets key [] lastAt buf := by
  have hnone := AList.lookup_eq_none.mpr hkey
  refine ⟨h, ?_, ?_, by simp [hnone]⟩
  · simp [Held, entriesOf_of_none hnone]
  · simp [heldBytes, entriesOf_of_none hnone]

/-- A buffer that keeps the datagram's own set gathers the same pieces. -/
theorem Gathers.of_lookup (h : Gathers packets key held lastAt buf) (hs : Shrinks buf buf')
    (hkey : buf'.buffers.lookup key = buf.buffers.lookup key) :
    Gathers packets key held lastAt buf' := by
  have hentries : buf'.entriesOf key = buf.entriesOf key := by simp [entriesOf, hkey]
  refine ⟨h.sound.shrinks hs, hentries ▸ h.entries, ?_, hkey ▸ h.stamped⟩
  rw [heldBytes, hentries]
  exact h.bytes

/-- The pieces held, and the one that arrived, go through the completeness test. -/
theorem Gathers.deliver (h : Gathers packets key held lastAt room) (now : ℕ)
    (ht : Tiles payload (packets.map packetEntry)) (hne : payload ≠ [])
    (ha : Admitted buf room key (part packets i)) :
    ∃ buf', (room.store now key (part packets i)).deliver key =
        some (if ∀ j, j ∈ i :: held then some payload else none, buf') ∧
      Gathers packets key (heldAfter held i) now buf' := by
  have hsound := h.sound.store ha now
  have hheld : Held packets (i :: held) ((room.store now key (part packets i)).entriesOf key) := by
    intro e
    rw [mem_entriesOf_store, h.entries e]
    simp only [List.mem_cons, exists_eq_or_imp, eq_comm (a := e)]
    exact or_comm
  have hcoherent : Coherent ((room.store now key (part packets i)).entriesOf key) :=
    h.sound.coherent_store ha
  rcases assemble_spec hcoherent with
    ⟨full, hfull, heq⟩ | ⟨hnone, heq⟩
  · have hall := (hheld.complete_iff ht hne).mp ⟨full, hfull⟩
    obtain rfl := hfull.eq_payload (hheld.sliceOf ht)
    refine ⟨(room.store now key (part packets i)).removeBuffer key, ?_, ?_⟩
    · rw [if_pos hall]
      rw [IpReassemblyBuffer.deliver, heq]
      rfl
    rw [heldAfter, if_pos hall]
    refine gathers_of_notMem (hsound.removeBuffer key) ?_
    rw [removeBuffer_buffers]
    exact fun hmem => (AList.mem_erase.mp hmem).1 rfl
  · have hmissing := mt (hheld.complete_iff ht hne).mpr hnone
    refine ⟨room.store now key (part packets i), ?_, ?_⟩
    · rw [if_neg hmissing]
      rw [IpReassemblyBuffer.deliver, heq]
      rfl
    rw [heldAfter, if_neg hmissing]
    refine ⟨hsound, hheld, ?_, ?_⟩
    · rw [heldBytes_store, h.bytes]
      simp [Nat.add_comm]
    · simp [store]

/-- One arrival of a piece: nothing is returned while another is missing, then the payload. -/
theorem Gathers.addPacket (h : Gathers packets key held lastAt buf)
    (ht : Tiles payload (packets.map packetEntry)) (hne : payload ≠ [])
    (hlen : payload.length ≤ ipv4MaxPayloadLen) (hkey : packetKey p = key)
    (hentry : packetEntry p = part packets i)
    (hfull : (part packets i).moreFragments = true → (part packets i).data.length % 8 = 0)
    (htime : held ≠ [] → now - lastAt < reassemblyTimeout)
    (hbytes : ((i :: held).map fun i => (part packets i).data.length).sum ≤ maxReassemblyBytes) :
    ∃ buf', buf.addPacket now p = some (if ∀ j, j ∈ i :: held then some payload else none, buf') ∧
      Gathers packets key (heldAfter held i) now buf' := by
  have hslice := ht.slices_part i
  have hexpire : Gathers packets key held lastAt (buf.expireStaleAt now).2 := by
    refine h.of_lookup (expireStaleAt_shrinks buf now) (expireStaleAt_lookup fun set hset => ?_)
    obtain ⟨hheld, hat⟩ := h.stamped set hset
    rw [hat]
    exact htime hheld
  have hpayload : p.payload = (part packets i).data := congrArg FragmentEntry.data hentry
  have hmore : p.header.moreFragments = (part packets i).moreFragments :=
    congrArg FragmentEntry.moreFragments hentry
  simp only [List.map_cons, List.sum_cons] at hbytes
  have hfits : heldBytes (buf.expireStaleAt now).2 key + p.payload.length ≤ maxReassemblyBytes := by
    rw [hexpire.bytes, hpayload]
    omega
  obtain ⟨room, hroom, hshrink, hsame, hdatagrams, hfit⟩ := makeRoomFor_fits hexpire.sound hfits
  have hgathers := hexpire.of_lookup hshrink hsame
  have hvalid : ∀ b : IpReassemblyBuffer, Gathers packets key held lastAt b →
      invalid (b.entriesOf key) (part packets i) = false :=
    fun b hb => invalid_of_sliceOf (hb.entries.sliceOf ht) hslice
  have hadmit : Admitted buf room key (part packets i) := by
    refine ⟨(expireStaleAt_shrinks buf now).trans hshrink, hslice.data, fun set hset => ?_,
      hdatagrams, by rwa [← hpayload]⟩
    rw [← entriesOf_of_lookup hset]
    exact hvalid room hgathers
  subst hkey
  have hstored := addPacket_stored (hentry ▸ hslice.stop_le.trans hlen) (hpayload ▸ hslice.data)
    (by rwa [hmore, hpayload]) (hentry ▸ hvalid _ hexpire) hroom
  obtain ⟨buf', hdeliver, hnext⟩ := hgathers.deliver now ht hne hadmit
  exact ⟨buf', by rw [hstored, hentry, hdeliver], hnext⟩

/-! ### Runs of arrivals -/

/-- The answers to packets handed to the buffer one after another; `none` is a panic. -/
def feed (buf : IpReassemblyBuffer) : List (ℕ × Ipv4Packet) → Option (List (Option (List UInt8)))
  | [] => some []
  | (now, p) :: rest =>
    (buf.addPacket now p).bind fun r => (feed r.2 rest).map fun outs => r.1 :: outs

/-- The answers of a receiver that knows only which pieces it has seen since the last delivery. -/
def gather {n : ℕ} (payload : List UInt8) (held : List (Fin n)) :
    List (Fin n) → List (Option (List UInt8))
  | [] => []
  | i :: rest =>
    (if ∀ j, j ∈ i :: held then some payload else none) :: gather payload (heldAfter held i) rest

/-- The datagram neither expires nor is evicted: its pieces come within the timeout of each other
and together stay within the byte limit. -/
def Undisturbed {n : ℕ} (size : Fin n → ℕ) (held : List (Fin n)) (lastAt : ℕ) :
    List (ℕ × Fin n) → Prop
  | [] => True
  | (now, i) :: rest =>
    (held ≠ [] → now - lastAt < reassemblyTimeout) ∧
    ((i :: held).map size).sum ≤ maxReassemblyBytes ∧
    Undisturbed size (heldAfter held i) now rest

/-- The buffer answers every run of arrivals as `gather` does. -/
theorem Gathers.feed (h : Gathers packets key held lastAt buf)
    (ht : Tiles payload (packets.map packetEntry)) (hne : payload ≠ [])
    (hlen : payload.length ≤ ipv4MaxPayloadLen) (hpackets : ∀ p ∈ packets, packetKey p = key ∧
      (p.header.moreFragments = true → p.payload.length % 8 = 0))
    {arrivals : List (ℕ × Fin packets.length)}
    (hcalm : Undisturbed (fun i => (packets.get i).payload.length) held lastAt arrivals) :
    Fragment.feed buf (arrivals.map fun a => (a.1, packets.get a.2)) =
      some (gather payload held (arrivals.map Prod.snd)) := by
  induction arrivals generalizing held lastAt buf with
  | nil => rfl
  | cons a rest ih =>
    obtain ⟨now, i⟩ := a
    obtain ⟨htime, hbytes, hrest⟩ := hcalm
    obtain ⟨hkey, hfull⟩ := hpackets _ (List.get_mem packets i)
    obtain ⟨buf', heq, hnext⟩ := h.addPacket ht hne hlen hkey rfl hfull htime hbytes
    rw [List.map_cons, Fragment.feed, heq, Option.bind_some, ih hnext hrest]
    rfl

/-- Fragmenting a payload and reassembling the fragments. Each fragment fits the MTU and parses
with a good checksum. Handed to any reachable buffer that holds nothing for the datagram, in any
order and with any repetitions, they give nothing while one is missing and the payload when the
last missing one arrives. A delivered datagram is forgotten, so what arrives later starts over. -/
theorem fragment_reassemble (srcIp dstIp : Ipv4Address) (protocol : UInt8)
    (identification : UInt16) (ttl : UInt8) (mtu : ℕ) (payload : List UInt8) (hne : payload ≠ [])
    (hlen : payload.length ≤ ipv4MaxPayloadLen) (hmtu : 28 ≤ mtu) :
    ∃ packets : List Ipv4Packet,
      (fragmentPayload srcIp dstIp protocol identification ttl mtu payload).map
        (fun bytes => Ipv4Packet.parse bytes true) = packets.map .ok ∧
      (∀ bytes ∈ fragmentPayload srcIp dstIp protocol identification ttl mtu payload,
        bytes.length ≤ mtu) ∧
      ∀ received buf, Reaches received buf →
        ⟨srcIp, dstIp, protocol, identification⟩ ∉ buf.buffers →
        ∀ arrivals : List (ℕ × Fin packets.length),
          Undisturbed (fun i => (packets.get i).payload.length) [] 0 arrivals →
          feed buf (arrivals.map fun a => (a.1, packets.get a.2)) =
            some (gather payload [] (arrivals.map Prod.snd)) := by
  have hmax : 0 < (mtu - ipv4MinHeaderLen) / 8 * 8 := by
    simp only [ipv4MinHeaderLen]
    omega
  have hloop : fragmentPayload srcIp dstIp protocol identification ttl mtu payload =
      (chunksFrom ((mtu - ipv4MinHeaderLen) / 8 * 8) hmax payload 0).map fun e =>
        fragmentBytes srcIp dstIp protocol identification ttl e.offset e.moreFragments e.data := by
    rw [fragmentPayload, if_neg (by simp only [ipv4MinHeaderLen]; omega)]
    dsimp only
    rw [dif_neg (by omega), fragmentLoop_eq_map]
  have h8 : (mtu - ipv4MinHeaderLen) / 8 * 8 % 8 = 0 := by omega
  obtain ⟨hspec, -⟩ := @chunksFrom_spec payload _ 0 hmax h8 (Nat.zero_mod 8)
  have htiles := @chunksFrom_tiles payload _ hmax h8
  generalize chunksFrom ((mtu - ipv4MinHeaderLen) / 8 * 8) hmax payload 0 = chunks at *
  obtain ⟨packets, hparse, hentries, hkeys⟩ : ∃ packets : List Ipv4Packet,
      (chunks.map fun e => Ipv4Packet.parse (fragmentBytes srcIp dstIp protocol identification ttl
        e.offset e.moreFragments e.data) true) = packets.map .ok ∧
      packets.map packetEntry = chunks ∧
      ∀ p ∈ packets, packetKey p = ⟨srcIp, dstIp, protocol, identification⟩ := by
    clear hloop htiles
    induction chunks with
    | nil => exact ⟨[], rfl, rfl, by simp⟩
    | cons e rest ih =>
      obtain ⟨packets, hparse, hentries, hkeys⟩ := ih fun f hf =>
        hspec f (List.mem_cons_of_mem _ hf)
      obtain ⟨hslice, hemit, -⟩ := hspec e List.mem_cons_self
      obtain ⟨p, hp, hkey, hentry⟩ := parse_fragmentBytes srcIp dstIp protocol identification ttl
        hemit (hslice.stop_le.trans hlen)
      refine ⟨p :: packets, ?_, ?_, ?_⟩
      · simp only [List.map_cons, hp, hparse]
      · rw [List.map_cons, hentry, hentries]
      · simpa [hkey] using hkeys
  subst hentries
  refine ⟨packets, ?_, ?_, ?_⟩
  · rw [hloop, List.map_map]
    exact hparse
  · rw [hloop]
    simp only [List.forall_mem_map, fragmentBytes_length]
    intro p hp
    have hle := (hspec _ (List.mem_map_of_mem hp)).2.1.length
    simp only [ipv4MinHeaderLen] at hle
    omega
  · intro received buf hreach hkey arrivals hcalm
    have hstart : Gathers packets ⟨srcIp, dstIp, protocol, identification⟩ [] 0 buf :=
      gathers_of_notMem hreach.invariant.1 hkey
    refine hstart.feed htiles hne hlen (fun p hp => ⟨hkeys p hp, fun hmore => ?_⟩) hcalm
    exact (hspec _ (List.mem_map_of_mem hp)).2.1.full hmore

/-- The parsed fragments of nine bytes sent over the smallest MTU. -/
def twoParts : List Ipv4Packet :=
  (fragmentPayload ⟨10, 0, 0, 1⟩ ⟨10, 0, 0, 2⟩ 17 7 64 28 [1, 2, 3, 4, 5, 6, 7, 8, 9]).filterMap
    fun bytes => (Ipv4Packet.parse bytes true).toOption

example : twoParts.map (·.payload) = [[1, 2, 3, 4, 5, 6, 7, 8], [9]] := by decide +kernel

theorem fragment_reassemble_lastFirst : ∃ first second, twoParts = [first, second] ∧
    feed .new [(0, second), (5, second), (9, first)] =
      some [none, none, some [1, 2, 3, 4, 5, 6, 7, 8, 9]] := by
  obtain ⟨packets, hparse, -, hfeed⟩ := fragment_reassemble ⟨10, 0, 0, 1⟩ ⟨10, 0, 0, 2⟩ 17 7 64 28
    [1, 2, 3, 4, 5, 6, 7, 8, 9] (by decide) (by decide) (by decide)
  have hpackets : packets = twoParts := by
    have htwice := congrArg (List.filterMap Except.toOption) hparse
    rw [List.filterMap_map, List.filterMap_map] at htwice
    simpa [Function.comp_def, Except.toOption, twoParts] using htwice.symm
  subst hpackets
  have hrun := hfeed [] .new .new (by simp [IpReassemblyBuffer.new])
    [(0, ⟨1, by decide +kernel⟩), (5, ⟨1, by decide +kernel⟩), (9, ⟨0, by decide +kernel⟩)]
    ⟨by simp, by decide +kernel, by decide +kernel, by decide +kernel, by decide +kernel,
      by decide +kernel, trivial⟩
  refine ⟨_, _, ?_, hrun.trans ?_⟩
  · decide +kernel
  · decide +kernel

/-- The two fragments, handed over twice, give the payload twice. -/
theorem payload_returned_twice : ∃ first second, twoParts = [first, second] ∧
    feed .new [(0, first), (0, second), (0, first), (0, second)] =
      some [none, some [1, 2, 3, 4, 5, 6, 7, 8, 9], none, some [1, 2, 3, 4, 5, 6, 7, 8, 9]] := by
  refine ⟨twoParts.get ⟨0, by decide +kernel⟩, twoParts.get ⟨1, by decide +kernel⟩, ?_, ?_⟩
  · decide +kernel
  · decide +kernel

end ToyTcpip.Fragment

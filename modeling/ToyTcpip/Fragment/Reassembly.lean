import ToyTcpip.Fragment.Assembly

/-! What the reassembly buffer keeps over any sequence of fragments and expiries. -/
namespace ToyTcpip.Fragment

open IpReassemblyBuffer

variable {buf buf' : IpReassemblyBuffer} {key k : FragmentKey} {frag : FragmentEntry} {now n : ℕ}

/-! ### Dropping sets -/

/-- The second buffer is the first less some of its sets. Every path but a stored fragment only
drops sets, and each one through `removeBuffer`. -/
inductive Shrinks : IpReassemblyBuffer → IpReassemblyBuffer → Prop
  | refl (b : IpReassemblyBuffer) : Shrinks b b
  | remove {b b' : IpReassemblyBuffer} (key : FragmentKey) :
    Shrinks b b' → Shrinks b (b'.removeBuffer key)

theorem Shrinks.trans {buf'' : IpReassemblyBuffer} (h : Shrinks buf buf')
    (h' : Shrinks buf' buf'') : Shrinks buf buf'' := by
  induction h' with
  | refl => exact h
  | remove key _ ih => exact .remove key ih

theorem Shrinks.single (buf : IpReassemblyBuffer) (key : FragmentKey) :
    Shrinks buf (buf.removeBuffer key) := .remove key (.refl buf)

theorem lookup_removeBuffer_ne (h : k ≠ key) :
    (buf.removeBuffer key).buffers.lookup k = buf.buffers.lookup k := by
  rw [removeBuffer_buffers, AList.lookup_erase_ne h]

theorem expireStaleAt_shrinks (buf : IpReassemblyBuffer) (now : ℕ) :
    Shrinks buf (buf.expireStaleAt now).2 := by
  have hfold : ∀ (keys : List FragmentKey) {b}, Shrinks buf b →
      Shrinks buf (keys.foldl removeBuffer b) := by
    intro keys
    induction keys with
    | nil => exact id
    | cons key rest ih => exact fun h => ih (.remove key h)
  exact hfold _ (.refl buf)

/-- Only stale sets expire. -/
theorem expireStaleAt_lookup (h : ∀ set ∈ buf.buffers.lookup key, now - set.updatedAt <
    reassemblyTimeout) :
    (buf.expireStaleAt now).2.buffers.lookup key = buf.buffers.lookup key := by
  have hfold : ∀ (keys : List FragmentKey) (b : IpReassemblyBuffer), key ∉ keys →
      (keys.foldl removeBuffer b).buffers.lookup key = b.buffers.lookup key := by
    intro keys
    induction keys with
    | nil => exact fun _ _ => rfl
    | cons k rest ih =>
      intro b hnot
      obtain ⟨hk, hrest⟩ := not_or.mp (mt List.mem_cons.mpr hnot)
      rw [List.foldl_cons, ih _ hrest, lookup_removeBuffer_ne hk]
  apply hfold
  intro hmem
  obtain ⟨e, he, rfl⟩ := List.mem_map.mp hmem
  obtain ⟨hin, hstale⟩ := List.mem_filter.mp he
  have hfresh := h e.2 (AList.mem_lookup_iff.mpr hin)
  simp only [ge_iff_le, decide_eq_true_eq] at hstale
  omega

/-! ### Making room -/

/-- A loop of evictions only drops sets other than `kept`, and ends below the limit or with
nothing left to drop. -/
theorem evictWhile_spec (exceeds : IpReassemblyBuffer → Bool) (kept : Option FragmentKey)
    (buf : IpReassemblyBuffer) :
    Shrinks buf (evictWhile exceeds kept buf).2 ∧
    (∀ k, kept = some k →
      (evictWhile exceeds kept buf).2.buffers.lookup k = buf.buffers.lookup k) ∧
    ((evictWhile exceeds kept buf).1 = true → exceeds (evictWhile exceeds kept buf).2 = false) ∧
    ((evictWhile exceeds kept buf).1 = false → exceeds (evictWhile exceeds kept buf).2 = true ∧
      (evictWhile exceeds kept buf).2.evictOldestExcept kept = none) := by
  fun_induction evictWhile exceeds kept buf with
  | case1 buf hover buf' hevict ih =>
    obtain ⟨hshrink, hlookup, hroom, hfail⟩ := ih
    obtain ⟨key, -, hne, rfl⟩ := evictOldestExcept_eq_some hevict
    refine ⟨(Shrinks.single buf key).trans hshrink, fun k hk => ?_, hroom, hfail⟩
    rw [hlookup k hk, lookup_removeBuffer_ne]
    rintro rfl
    exact hne hk
  | case2 buf hover hnone =>
    exact ⟨.refl buf, fun _ _ => rfl, nofun, fun _ => ⟨hover, hnone⟩⟩
  | case3 buf hunder =>
    exact ⟨.refl buf, fun _ _ => rfl, fun _ => by simpa using hunder, nofun⟩

theorem evictOldestExcept_eq_none {kept : Option FragmentKey}
    (h : buf.evictOldestExcept kept = none) : ∀ e ∈ buf.buffers.entries, kept = some e.1 := by
  simp only [evictOldestExcept, Option.map_eq_none_iff, List.argmin_eq_none,
    List.filter_eq_nil_iff] at h
  simpa using h

theorem Shrinks.lookup_none (h : Shrinks buf buf') (hkey : buf.buffers.lookup key = none) :
    buf'.buffers.lookup key = none := by
  induction h with
  | refl => exact hkey
  | @remove b k _ ih =>
    by_cases hk : key = k
    · subst hk
      rw [removeBuffer_buffers, AList.lookup_erase]
    · rw [lookup_removeBuffer_ne hk, ih]

theorem Shrinks.length_le (h : Shrinks buf buf') :
    buf'.buffers.entries.length ≤ buf.buffers.entries.length := by
  induction h with
  | refl => exact le_rfl
  | remove k _ ih =>
    rw [removeBuffer_buffers]
    exact Keyed.length_erase_le.trans ih

/-- The limit on datagrams can always be met: there is something to evict. -/
theorem evictWhile_overDatagrams (buf : IpReassemblyBuffer) :
    (evictWhile overDatagrams none buf).1 = true := by
  obtain ⟨-, -, -, hfail⟩ := evictWhile_spec overDatagrams none buf
  by_contra hfalse
  obtain ⟨hover, hnone⟩ := hfail (by simpa using hfalse)
  have hempty := List.eq_nil_iff_forall_not_mem.mpr fun e he =>
    absurd (evictOldestExcept_eq_none hnone e he) nofun
  simp [overDatagrams, hempty, maxReassemblyDatagrams] at hover

/-- Room is refused to a fragment over the byte limit or after everything else is evicted. Else
it is made, below both limits and with the datagram's own set kept. -/
theorem makeRoomFor_cases (buf : IpReassemblyBuffer) (key : FragmentKey) (n : ℕ) :
    (maxReassemblyBytes < n ∧ buf.makeRoomFor key n = (false, buf.removeBuffer key)) ∨
    ∃ room, Shrinks buf room ∧ room.buffers.lookup key = buf.buffers.lookup key ∧
      (key ∈ room.buffers ∨ room.buffers.entries.length < maxReassemblyDatagrams) ∧
      (room.bufferedBytes + n ≤ maxReassemblyBytes ∧ buf.makeRoomFor key n = (true, room) ∨
       maxReassemblyBytes < room.bufferedBytes + n ∧
        (∀ e ∈ room.buffers.entries, e.1 = key) ∧
        buf.makeRoomFor key n = (false, room.removeBuffer key)) := by
  by_cases hbig : n > maxReassemblyBytes
  · exact .inl ⟨hbig, by simp [makeRoomFor, hbig]⟩
  right
  obtain ⟨mid, hmid, hshrink, hkey, hlen⟩ : ∃ mid,
      (if key ∈ buf.buffers then (true, buf) else evictWhile overDatagrams none buf) = (true, mid) ∧
      Shrinks buf mid ∧ mid.buffers.lookup key = buf.buffers.lookup key ∧
      (key ∈ mid.buffers ∨ mid.buffers.entries.length < maxReassemblyDatagrams) := by
    split_ifs with hmem
    · exact ⟨buf, rfl, .refl buf, rfl, .inl hmem⟩
    · have htrue := evictWhile_overDatagrams buf
      obtain ⟨hshrink, -, hunder, -⟩ := evictWhile_spec overDatagrams none buf
      have hnone := AList.lookup_eq_none.mpr hmem
      refine ⟨_, Prod.ext htrue rfl, hshrink, (hshrink.lookup_none hnone).trans hnone.symm, .inr ?_⟩
      simpa [overDatagrams] using hunder htrue
  obtain ⟨hshrink', hkept, hunder, hfail⟩ :=
    evictWhile_spec (overBytes n) (some key) mid
  refine ⟨(evictWhile (overBytes n) (some key) mid).2, hshrink.trans hshrink',
    (hkept key rfl).trans hkey, ?_, ?_⟩
  · rcases hlen with hmem | hlen
    · left
      rw [← AList.lookup_isSome] at hmem ⊢
      rwa [hkept key rfl]
    · exact .inr (hshrink'.length_le.trans_lt hlen)
  · simp only [makeRoomFor, hbig, if_false, hmid]
    generalize evictWhile (overBytes n) (some key) mid = r at hunder hfail
    obtain ⟨_ | _, room⟩ := r
    · obtain ⟨hover, hnone⟩ := hfail rfl
      refine .inr ⟨by simpa [overBytes] using hover, fun e he => ?_, rfl⟩
      simpa [eq_comm] using evictOldestExcept_eq_none hnone e he
    · exact .inl ⟨by simpa [overBytes] using hunder rfl, rfl⟩

/-! ### What one fragment does -/

/-- The buffer `room` left for a fragment that is about to be stored. -/
structure Admitted (buf room : IpReassemblyBuffer) (key : FragmentKey) (frag : FragmentEntry) :
    Prop where
  shrinks : Shrinks buf room
  data : frag.data ≠ []
  valid : ∀ set ∈ room.buffers.lookup key, invalid set.entries frag = false
  datagrams : key ∈ room.buffers ∨ room.buffers.entries.length < maxReassemblyDatagrams
  bytes : room.bufferedBytes + frag.data.length ≤ maxReassemblyBytes

def packetKey (p : Ipv4Packet) : FragmentKey :=
  ⟨p.header.srcIp, p.header.dstIp, p.header.protocol.toU8, UInt16.ofNat p.header.identification⟩

def packetEntry (p : Ipv4Packet) : FragmentEntry :=
  ⟨p.header.fragmentOffset * 8, p.payload, p.header.moreFragments⟩

/-- A packet is refused, and sets are only dropped, or it is stored in the room made for it. -/
theorem addPacket_cases (buf : IpReassemblyBuffer) (now : ℕ) (p : Ipv4Packet) :
    (∃ buf', Shrinks buf buf' ∧ buf.addPacket now p = some (none, buf')) ∨
    ∃ room, Admitted buf room (packetKey p) (packetEntry p) ∧
      buf.addPacket now p =
        (room.store now (packetKey p) (packetEntry p)).deliver (packetKey p) := by
  have hexpire := expireStaleAt_shrinks buf now
  unfold addPacket addFragment
  dsimp only
  split_ifs with hlong hempty hlen hinv
  · exact .inl ⟨_, hexpire, rfl⟩
  · exact .inl ⟨_, .remove _ hexpire, rfl⟩
  · exact .inl ⟨_, .remove _ hexpire, rfl⟩
  · exact .inl ⟨_, .remove _ hexpire, rfl⟩
  · have hroom := makeRoomFor_cases (buf.expireStaleAt now).2 (packetKey p) p.payload.length
    simp only [packetKey] at hroom
    obtain ⟨-, heq⟩ | ⟨room, hshrink, hkey, hdatagrams, ⟨hbytes, heq⟩ | ⟨-, -, heq⟩⟩ := hroom
    · rw [heq]
      exact .inl ⟨_, .remove _ hexpire, rfl⟩
    · rw [heq]
      refine .inr ⟨room, ⟨hexpire.trans hshrink, hempty, ?_, hdatagrams, hbytes⟩, rfl⟩
      intro set hset
      rw [Option.mem_def, packetKey, hkey] at hset
      simpa [hset, packetEntry] using hinv
    · rw [heq]
      exact .inl ⟨_, .remove _ (hexpire.trans hshrink), rfl⟩

/-! ### The invariant -/

/-- Every stored set has the property. -/
def Each (P : FragmentKey → FragmentSet → Prop) (buf : IpReassemblyBuffer) : Prop :=
  ∀ key, ∀ set ∈ buf.buffers.lookup key, P key set

theorem Each.removeBuffer {P : FragmentKey → FragmentSet → Prop} (h : Each P buf)
    (key : FragmentKey) : Each P (buf.removeBuffer key) := by
  intro k set hset
  by_cases hk : k = key
  · subst hk
    simp [removeBuffer_buffers] at hset
  · rw [lookup_removeBuffer_ne hk] at hset
    exact h k set hset

theorem Each.shrinks {P : FragmentKey → FragmentSet → Prop} (h : Each P buf)
    (hs : Shrinks buf buf') : Each P buf' := by
  induction hs with
  | refl => exact h
  | remove key _ ih => exact ih.removeBuffer key

theorem Each.store {P : FragmentKey → FragmentSet → Prop} (h : Each P buf)
    (hnew : ∀ set, (buf.store now key frag).buffers.lookup key = some set → P key set) :
    Each P (buf.store now key frag) := by
  intro k set hset
  by_cases hk : k = key
  · subst hk
    exact hnew set hset
  · simp only [IpReassemblyBuffer.store, AList.lookup_insert_ne hk] at hset
    exact h k set hset

/-- The limits and the bookkeeping of the buffer. -/
structure Sound (buf : IpReassemblyBuffer) : Prop where
  counted : buf.bufferedBytes = Keyed.weight FragmentSet.bytes buf.buffers
  bytes : buf.bufferedBytes ≤ maxReassemblyBytes
  datagrams : buf.buffers.entries.length ≤ maxReassemblyDatagrams
  nonempty : Each (fun _ set => set.entries ≠ []) buf
  coherent : Each (fun _ set => Coherent set.entries) buf

theorem sound_new : Sound .new := by
  refine ⟨rfl, Nat.zero_le _, Nat.zero_le _, ?_, ?_⟩ <;> intro key set hset <;>
    simp [IpReassemblyBuffer.new] at hset

theorem Sound.removeBuffer (h : Sound buf) (key : FragmentKey) : Sound (buf.removeBuffer key) := by
  have hcount : (buf.removeBuffer key).bufferedBytes =
      Keyed.weight FragmentSet.bytes (buf.removeBuffer key).buffers := by
    rw [removeBuffer_buffers, IpReassemblyBuffer.removeBuffer]
    split
    · rename_i set hset
      have hw := Keyed.weight_erase (f := FragmentSet.bytes) hset
      have hc := h.counted
      dsimp only
      omega
    · rename_i hnone
      rw [h.counted, Keyed.erase_of_notMem (AList.lookup_eq_none.mp hnone)]
  have hle : (buf.removeBuffer key).bufferedBytes ≤ buf.bufferedBytes := by
    unfold IpReassemblyBuffer.removeBuffer
    split
    · exact Nat.sub_le _ _
    · exact le_rfl
  refine ⟨hcount, hle.trans h.bytes, ?_, h.nonempty.removeBuffer key, h.coherent.removeBuffer key⟩
  exact (Shrinks.single buf key).length_le.trans h.datagrams

theorem Sound.shrinks (h : Sound buf) (hs : Shrinks buf buf') : Sound buf' := by
  induction hs with
  | refl => exact h
  | remove key _ ih => exact ih.removeBuffer key

theorem entriesOf_of_lookup {set : FragmentSet} (h : buf.buffers.lookup key = some set) :
    buf.entriesOf key = set.entries := by
  simp [entriesOf, h]

theorem entriesOf_of_none (h : buf.buffers.lookup key = none) : buf.entriesOf key = [] := by
  simp [entriesOf, h]

/-- The bytes stored for one datagram. -/
def heldBytes (buf : IpReassemblyBuffer) (key : FragmentKey) : ℕ :=
  ((buf.entriesOf key).map fun e => e.data.length).sum

theorem weight_erase_add_heldBytes (buf : IpReassemblyBuffer) (key : FragmentKey) :
    Keyed.weight FragmentSet.bytes (buf.buffers.erase key) + heldBytes buf key =
      Keyed.weight FragmentSet.bytes buf.buffers := by
  cases hset : buf.buffers.lookup key with
  | none =>
    simp [heldBytes, entriesOf_of_none hset, Keyed.erase_of_notMem (AList.lookup_eq_none.mp hset)]
  | some set =>
    rw [heldBytes, entriesOf_of_lookup hset]
    exact Keyed.weight_erase hset

theorem Each.entriesOf {P : List FragmentEntry → Prop} (h : Each (fun _ set => P set.entries) buf)
    (hnil : P []) (key : FragmentKey) : P (buf.entriesOf key) := by
  cases hset : buf.buffers.lookup key with
  | none => rwa [entriesOf_of_none hset]
  | some set =>
    rw [entriesOf_of_lookup hset]
    exact h key set hset

theorem coherent_nil : Coherent [] := ⟨by simp, .nil, by simp, by simp⟩

theorem Admitted.invalid_eq_false {room : IpReassemblyBuffer} (ha : Admitted buf room key frag) :
    invalid (room.entriesOf key) frag = false := by
  cases hset : room.buffers.lookup key with
  | none => simp [entriesOf_of_none hset, invalid]
  | some set =>
    rw [entriesOf_of_lookup hset]
    exact ha.valid set hset

theorem entriesOf_store : (buf.store now key frag).entriesOf key =
    (buf.entriesOf key ++ [frag]).insertionSort fun a b => a.offset ≤ b.offset := by
  simp [entriesOf, store]

theorem mem_entriesOf_store {e : FragmentEntry} :
    e ∈ (buf.store now key frag).entriesOf key ↔ e ∈ buf.entriesOf key ∨ e = frag := by
  rw [entriesOf_store, mem_insertionSort_append]

theorem heldBytes_store :
    heldBytes (buf.store now key frag) key = heldBytes buf key + frag.data.length := by
  have hperm := ((buf.entriesOf key ++ [frag]).perm_insertionSort fun a b =>
    a.offset ≤ b.offset).map
    fun e => e.data.length
  rw [heldBytes, entriesOf_store, hperm.sum_eq]
  simp [heldBytes]

theorem Sound.coherent_store {room : IpReassemblyBuffer} (h : Sound room)
    (ha : Admitted buf room key frag) : Coherent ((room.store now key frag).entriesOf key) := by
  rw [entriesOf_store]
  exact (h.coherent.entriesOf coherent_nil key).insert ha.data ha.invalid_eq_false

/-- A fragment stored in the room made for it keeps the buffer within its limits. -/
theorem Sound.store {room : IpReassemblyBuffer} (h : Sound room)
    (ha : Admitted buf room key frag) (now : ℕ) : Sound (room.store now key frag) := by
  refine ⟨?_, ha.bytes, ?_, h.nonempty.store fun set hset => ?_,
    h.coherent.store fun set hset => ?_⟩
  · have hold := weight_erase_add_heldBytes room key
    have hnew := weight_erase_add_heldBytes (room.store now key frag) key
    have herase : (room.store now key frag).buffers.erase key = room.buffers.erase key := by
      simp [IpReassemblyBuffer.store, AList.erase]
    rw [heldBytes_store, herase] at hnew
    have hc := h.counted
    simp only [IpReassemblyBuffer.store] at hnew ⊢
    omega
  · simp only [IpReassemblyBuffer.store, Keyed.length_insert]
    rcases ha.datagrams with hmem | hlt
    · have hlt := Keyed.length_erase_lt hmem
      have hle := h.datagrams
      omega
    · have hle := Keyed.length_erase_le (s := room.buffers) (k := key)
      omega
  · have hmem : frag ∈ (room.store now key frag).entriesOf key := mem_entriesOf_store.mpr (.inr rfl)
    rw [entriesOf_of_lookup hset] at hmem
    exact List.ne_nil_of_mem hmem
  · rw [← entriesOf_of_lookup hset]
    exact h.coherent_store ha

theorem deliver_spec (hc : Coherent (buf.entriesOf key)) :
    ∃ out buf', buf.deliver key = some (out, buf') ∧ Shrinks buf buf' ∧
      ∀ full, out = some full → Complete (buf.entriesOf key) full := by
  rcases assemble_spec hc with ⟨full, hfull, heq⟩ | ⟨-, heq⟩
  · exact ⟨some full, _, by simp [deliver, heq], .single buf key, by simpa using hfull⟩
  · exact ⟨none, _, by simp [deliver, heq], .refl buf, by simp⟩

/-! ### Runs -/

/-- Every stored entry came in a packet of its own key. -/
def Sourced (received : List Ipv4Packet) (buf : IpReassemblyBuffer) : Prop :=
  Each (fun key set => ∀ e ∈ set.entries, ∃ q ∈ received, packetKey q = key ∧ packetEntry q = e) buf

theorem Sourced.mem_entriesOf {received : List Ipv4Packet} (h : Sourced received buf)
    {e : FragmentEntry} (he : e ∈ buf.entriesOf key) :
    ∃ q ∈ received, packetKey q = key ∧ packetEntry q = e := by
  cases hset : buf.buffers.lookup key with
  | none => simp [entriesOf_of_none hset] at he
  | some set =>
    rw [entriesOf_of_lookup hset] at he
    exact h key set hset e he

theorem Sourced.store {received : List Ipv4Packet} (h : Sourced received buf) (now : ℕ)
    (p : Ipv4Packet) :
    Sourced (p :: received) (buf.store now (packetKey p) (packetEntry p)) := by
  have hmono : Sourced (p :: received) buf := by
    intro key set hset e he
    obtain ⟨q, hq, hqe⟩ := h key set hset e he
    exact ⟨q, List.mem_cons_of_mem _ hq, hqe⟩
  refine Each.store hmono fun set hset e he => ?_
  rw [← entriesOf_of_lookup hset, mem_entriesOf_store] at he
  rcases he with he | rfl
  · exact hmono.mem_entriesOf he
  · exact ⟨p, List.mem_cons_self, rfl, rfl⟩

/-- The buffers a run can reach, with the packets it was handed, newest first. The hash map may
change its iteration order between calls. -/
inductive Reaches : List Ipv4Packet → IpReassemblyBuffer → Prop
  | new : Reaches [] .new
  | add {received : List Ipv4Packet} {buf buf' : IpReassemblyBuffer} {now : ℕ} {p : Ipv4Packet}
      {out : Option (List UInt8)} :
    Reaches received buf → buf.addPacket now p = some (out, buf') → Reaches (p :: received) buf'
  | expire {received : List Ipv4Packet} {buf : IpReassemblyBuffer} (now : ℕ) :
    Reaches received buf → Reaches received (buf.expireStaleAt now).2
  | rehash {received : List Ipv4Packet} {buf : IpReassemblyBuffer}
      {buffers : AList fun _ : FragmentKey => FragmentSet} :
    Reaches received buf → buf.buffers.entries.Perm buffers.entries →
    Reaches received { buf with buffers := buffers }

/-- One packet: no panic, the invariant kept, and only bytes of its own datagram returned. -/
theorem addPacket_sound {received : List Ipv4Packet} (h : Sound buf) (hs : Sourced received buf)
    (now : ℕ) (p : Ipv4Packet) :
    ∃ out buf', buf.addPacket now p = some (out, buf') ∧ Sound buf' ∧
      Sourced (p :: received) buf' ∧ ∀ full, out = some full → ∃ entries, Complete entries full ∧
        ∀ e ∈ entries, ∃ q ∈ p :: received, packetKey q = packetKey p ∧ packetEntry q = e := by
  rcases addPacket_cases buf now p with ⟨buf', hshrink, heq⟩ | ⟨room, ha, heq⟩
  · refine ⟨none, buf', heq, h.shrinks hshrink, fun key set hset e he => ?_, by simp⟩
    obtain ⟨q, hq, hqe⟩ := Each.shrinks hs hshrink key set hset e he
    exact ⟨q, List.mem_cons_of_mem _ hq, hqe⟩
  · have hroom := h.shrinks ha.shrinks
    have hsource := Sourced.store (Each.shrinks hs ha.shrinks) now p
    obtain ⟨out, buf', hdeliver, hshrink, hfull⟩ := deliver_spec (hroom.coherent_store ha)
    refine ⟨out, buf', heq.trans hdeliver, (hroom.store ha now).shrinks hshrink,
      Each.shrinks hsource hshrink, fun full hout => ⟨_, hfull full hout, fun e he => ?_⟩⟩
    exact hsource.mem_entriesOf he

theorem Reaches.invariant {received : List Ipv4Packet} (h : Reaches received buf) :
    Sound buf ∧ Sourced received buf := by
  induction h with
  | new => exact ⟨sound_new, fun key set hset => by simp [IpReassemblyBuffer.new] at hset⟩
  | @add received b b' now p out _ heq ih =>
    obtain ⟨out', b'', heq', hsound, hsource, -⟩ := addPacket_sound ih.1 ih.2 now p
    obtain ⟨rfl, rfl⟩ : out' = out ∧ b'' = b' := by simpa [heq'] using heq
    exact ⟨hsound, hsource⟩
  | @expire received b now _ ih =>
    have hshrink := expireStaleAt_shrinks b now
    exact ⟨ih.1.shrinks hshrink, Each.shrinks ih.2 hshrink⟩
  | rehash _ hperm ih =>
    obtain ⟨hsound, hsource⟩ := ih
    have hlookup := fun key => AList.perm_lookup (a := key) hperm
    refine ⟨⟨?_, hsound.bytes, ?_, ?_, ?_⟩, ?_⟩
    · exact hsound.counted.trans (Keyed.weight_perm hperm)
    · exact hperm.length_eq ▸ hsound.datagrams
    · exact fun key set hset => hsound.nonempty key set ((hlookup key).trans hset)
    · exact fun key set hset => hsound.coherent key set ((hlookup key).trans hset)
    · exact fun key set hset => hsource key set ((hlookup key).trans hset)

/-- The buffer under arbitrary packets, times and expiries: the accounting is exact and within
both limits, the stored entries of a datagram are consistent, no call panics, and what a call
returns was received under its key. -/
theorem reassembly_safe {received : List Ipv4Packet} (h : Reaches received buf) :
    Sound buf ∧
    (∀ key, ∀ set ∈ buf.buffers.lookup key, ∀ t ∈ set.entries, ∀ t' ∈ set.entries,
      t.moreFragments = false → t'.moreFragments = false → t.stop = t'.stop) ∧
    ∀ now p, ∃ out buf', buf.addPacket now p = some (out, buf') ∧
      ∀ full, out = some full → ∀ i < full.length, ∃ q ∈ p :: received,
        packetKey q = packetKey p ∧ (packetEntry q).Covers i ∧
        full[i]? = q.payload[i - (packetEntry q).offset]? := by
  obtain ⟨hsound, hsource⟩ := h.invariant
  refine ⟨hsound, ?_, fun now p => ?_⟩
  · intro key set hset t ht t' ht' hmf hmf'
    have hc := hsound.coherent key set hset
    exact le_antisymm (hc.terminal t' ht' hmf' t ht) (hc.terminal t ht hmf t' ht')
  · obtain ⟨out, buf', heq, -, -, hfull⟩ := addPacket_sound hsound hsource now p
    refine ⟨out, buf', heq, fun full hout i hi => ?_⟩
    obtain ⟨entries, hcomplete, hfrom⟩ := hfull full hout
    obtain ⟨e, he, hcov⟩ := hcomplete.covered i hi
    obtain ⟨q, hq, hkey, rfl⟩ := hfrom e he
    refine ⟨q, hq, hkey, hcov, ?_⟩
    obtain ⟨hle, hlt⟩ := hcov
    simp only [FragmentEntry.stop] at hlt
    have hget := (hcomplete.placed _ he).getElem? (i := i - (packetEntry q).offset) (by omega)
    rwa [Nat.add_sub_cancel' hle] at hget

/-- A fragment of one datagram between two fixed hosts. -/
def partOf (blocks : ℕ) (more : Bool) (payload : List UInt8) : Ipv4Packet where
  header := {
    version := 4, ihl := 5, dscpEcn := 0, totalLength := 20 + payload.length, identification := 7
    dontFragment := false, moreFragments := more, fragmentOffset := blocks, ttl := 64
    protocol := .udp, checksum := 0, srcIp := ⟨10, 0, 0, 1⟩, dstIp := ⟨10, 0, 0, 2⟩ }
  payload := payload

theorem reassembly_safe_headThenTail :
    ∃ buf, IpReassemblyBuffer.new.addPacket 0 (partOf 0 true [1, 2, 3, 4, 5, 6, 7, 8]) =
      some (none, buf) ∧ Sound buf ∧
    ∃ buf', buf.addPacket 1 (partOf 1 false [9]) =
        some (some [1, 2, 3, 4, 5, 6, 7, 8, 9], buf') := by
  have hhead : (IpReassemblyBuffer.new.addPacket 0 (partOf 0 true [1, 2, 3, 4, 5, 6, 7, 8])).map
      Prod.fst = some none := by decide +kernel
  have htail : ((IpReassemblyBuffer.new.addPacket 0 (partOf 0 true [1, 2, 3, 4, 5, 6, 7, 8])).bind
      fun r => (r.2.addPacket 1 (partOf 1 false [9])).map Prod.fst) =
        some (some [1, 2, 3, 4, 5, 6, 7, 8, 9]) := by decide +kernel
  obtain ⟨⟨_, buf⟩, heq, rfl⟩ := Option.map_eq_some_iff.mp hhead
  obtain ⟨hsound, -, hnext⟩ := reassembly_safe (.add .new heq)
  obtain ⟨out, buf', heq', -⟩ := hnext 1 (partOf 1 false [9])
  simp only [heq, Option.bind_some, heq', Option.map_some, Option.some.injEq] at htail
  exact ⟨buf, heq, hsound, buf', htail ▸ heq'⟩

end ToyTcpip.Fragment

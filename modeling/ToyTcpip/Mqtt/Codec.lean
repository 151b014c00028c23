import ToyTcpip.Mqtt.Packet

/-! The remaining-length field: one encoding for every length up to the maximum. -/
namespace ToyTcpip.Mqtt

open Checked (index bind_eq_ok ite_error_eq_ok)

/-- A length in `count` groups of seven bits, the lowest first, all but the last marked. -/
def lengthGroups : ℕ → ℕ → List UInt8
  | 0, _ => []
  | 1, n => [UInt8.ofNat n]
  | count + 2, n => UInt8.ofNat (n % 128 + 128) :: lengthGroups (count + 1) (n / 128)

@[simp] theorem length_lengthGroups (count n : ℕ) : (lengthGroups count n).length = count := by
  fun_induction lengthGroups count n <;> simp_all

theorem ofNat_or_128 (n : ℕ) : UInt8.ofNat (n % 128) ||| 0x80 = UInt8.ofNat (n % 128 + 128) := by
  have hlow : (UInt8.ofNat (n % 128)).toNat = n % 128 := by
    rw [UInt8.toNat_ofNat']
    omega
  apply UInt8.toNat_inj.mp
  rw [toNat_or_128 (by omega), hlow, UInt8.toNat_ofNat']
  omega

theorem remainingLengthBytes_small {n : ℕ} (h : n < 128) :
    remainingLengthBytes n = [UInt8.ofNat n] := by
  rw [remainingLengthBytes]
  simp only [show ¬ n / 128 > 0 by omega, if_false, Nat.mod_eq_of_lt h]

theorem remainingLengthBytes_large {n : ℕ} (h : 128 ≤ n) :
    remainingLengthBytes n = UInt8.ofNat (n % 128 + 128) :: remainingLengthBytes (n / 128) := by
  rw [remainingLengthBytes]
  simp only [show n / 128 > 0 by omega, if_true, ofNat_or_128]

/-- The encoder uses as few groups as the length needs. -/
theorem remainingLengthBytes_eq {n : ℕ} (h : n ≤ mqttMaxRemainingLength) :
    remainingLengthBytes n = lengthGroups (minimumLen n) n := by
  simp only [mqttMaxRemainingLength] at h
  unfold minimumLen
  split_ifs with h₁ h₂ h₃
  · exact remainingLengthBytes_small h₁
  · rw [remainingLengthBytes_large (by omega), remainingLengthBytes_small (by omega)]
    rfl
  · rw [remainingLengthBytes_large (by omega), remainingLengthBytes_large (by omega),
      remainingLengthBytes_small (by omega)]
    rfl
  · rw [remainingLengthBytes_large (by omega), remainingLengthBytes_large (by omega),
      remainingLengthBytes_large (by omega), remainingLengthBytes_small (by omega)]
    rfl

theorem lt_pow_minimumLen {n : ℕ} (h : n ≤ mqttMaxRemainingLength) : n < 128 ^ minimumLen n := by
  simp only [mqttMaxRemainingLength] at h
  unfold minimumLen
  split_ifs <;> omega

theorem minimumLen_bounds (n : ℕ) : 1 ≤ minimumLen n ∧ minimumLen n ≤ 4 := by
  unfold minimumLen
  split_ifs <;> omega

theorem remainingLengthBytes_pos {n : ℕ} (h : n ≤ mqttMaxRemainingLength) :
    0 < (remainingLengthBytes n).length := by
  rw [remainingLengthBytes_eq h, length_lengthGroups]
  exact (minimumLen_bounds n).1

/-- The loop reads the groups of a length, from the `k`-th group of its field on. -/
theorem decodeRemainingLengthFrom_groups (post : List UInt8) (count k value n : ℕ)
    (pre : List UInt8) (hn : n < 128 ^ (count + 1)) (hk : k + count + 1 ≤ 4) :
    decodeRemainingLengthFrom (pre ++ (lengthGroups (count + 1) n ++ post)) pre.length
      (128 ^ k) value =
      .ok (value + n * 128 ^ k, pre.length + (count + 1)) := by
  induction count generalizing k value n pre with
  | zero =>
    have hbyte : (UInt8.ofNat n).toNat = n := by
      rw [UInt8.toNat_ofNat']
      omega
    have hend : UInt8.ofNat n &&& 0x80 = 0 := (and_128_eq_zero _).mpr (by omega)
    have hlow : (UInt8.ofNat n &&& 0x7F).toNat = n := by
      rw [toNat_and_127, hbyte]
      omega
    rw [decodeRemainingLengthFrom, if_neg (by simp), lengthGroups, List.singleton_append, index_at,
      Checked.ok_bind]
    simp only [hend, hlow, if_true]
  | succ count ih =>
    have hbyte : (UInt8.ofNat (n % 128 + 128)).toNat = n % 128 + 128 := by
      rw [UInt8.toNat_ofNat']
      omega
    have hmore : ¬ UInt8.ofNat (n % 128 + 128) &&& 0x80 = 0 := fun h => by
      have := (and_128_eq_zero _).mp h
      omega
    have hlow : (UInt8.ofNat (n % 128 + 128) &&& 0x7F).toNat = n % 128 := by
      rw [toNat_and_127, hbyte]
      omega
    have hroom : ¬ 128 ^ k * 128 > 128 * 128 * 128 := by
      have : 128 ^ k ≤ 128 ^ 2 := Nat.pow_le_pow_right (by decide) (by omega)
      omega
    have hnext := ih (k + 1) (value + n % 128 * 128 ^ k) (n / 128)
      (pre ++ [UInt8.ofNat (n % 128 + 128)])
      (by rw [pow_succ] at hn; omega) (by omega)
    simp only [List.append_assoc, List.length_append, List.length_singleton, List.singleton_append]
      at hnext
    have hvalue : value + n % 128 * 128 ^ k + n / 128 * 128 ^ (k + 1) = value + n * 128 ^ k := by
      rw [pow_succ]
      conv_rhs => rw [← Nat.div_add_mod n 128]
      ring
    rw [decodeRemainingLengthFrom, if_neg (by simp), lengthGroups, List.cons_append, index_at,
      Checked.ok_bind]
    simp only [hmore, hlow, hroom, if_false]
    rw [← pow_succ, hnext, hvalue]
    congr 2
    omega

/-- What the loop read are the groups of the length it gives. -/
theorem decodeRemainingLengthFrom_eq_ok {data : List UInt8} {offset k value v stop : ℕ}
    (hk : k ≤ 3) (h : decodeRemainingLengthFrom data offset (128 ^ k) value = .ok (v, stop)) :
    ∃ count n, v = value + n * 128 ^ k ∧ stop = offset + (count + 1) ∧ k + count + 1 ≤ 4 ∧
      n < 128 ^ (count + 1) ∧ data.drop offset = lengthGroups (count + 1) n ++ data.drop stop := by
  rw [decodeRemainingLengthFrom] at h
  obtain ⟨hlt, h⟩ := ite_error_eq_ok.mp h
  obtain ⟨byte, hbyte, h⟩ := bind_eq_ok.mp h
  have hcons : data.drop offset = byte :: data.drop (offset + 1) := by
    obtain ⟨hlt, rfl⟩ := List.getElem?_eq_some_iff.mp (Checked.index_eq_ok.mp hbyte)
    exact List.drop_eq_getElem_cons hlt
  dsimp only at h
  split at h
  · rename_i hend
    cases h
    have hsmall := (and_128_eq_zero byte).mp hend
    refine ⟨0, byte.toNat, ?_, rfl, by omega, by omega, ?_⟩
    · rw [toNat_and_127, Nat.mod_eq_of_lt hsmall]
    · rw [hcons, lengthGroups, UInt8.ofNat_toNat]
      rfl
  · rename_i hmore
    obtain ⟨hroom, h⟩ := ite_error_eq_ok.mp h
    have hlarge : 128 ≤ byte.toNat := by
      by_contra hsmall
      exact hmore ((and_128_eq_zero byte).mpr (by omega))
    have hbyte := byte.toNat_lt
    have hk' : k + 1 ≤ 3 := by
      by_contra hbig
      obtain rfl : k = 3 := by omega
      omega
    rw [← pow_succ] at h
    obtain ⟨count, n, rfl, rfl, hcount, hn, hdrop⟩ := decodeRemainingLengthFrom_eq_ok hk' h
    have hlow : (byte.toNat % 128 + 128 * n) % 128 = byte.toNat % 128 := by omega
    have hhigh : (byte.toNat % 128 + 128 * n) / 128 = n := by omega
    refine ⟨count + 1, byte.toNat % 128 + 128 * n, ?_, by omega, by omega, ?_, ?_⟩
    · rw [toNat_and_127, pow_succ]
      ring
    · rw [pow_succ]
      omega
    · rw [hcons, hdrop, lengthGroups, hlow, hhigh, show byte.toNat % 128 + 128 =
        byte.toNat by omega,
        UInt8.ofNat_toNat, show offset + 1 + (count + 1) = offset + (count + 1 + 1) by omega]
      rfl
termination_by data.length - offset

/-- Every length up to the maximum is read back from its encoding. -/
theorem decodeRemainingLength_encoded {n : ℕ} (h : n ≤ mqttMaxRemainingLength)
    (pre post : List UInt8) :
    decodeRemainingLength (pre ++ (remainingLengthBytes n ++ post)) pre.length =
      .ok (n, pre.length + (remainingLengthBytes n).length) := by
  obtain ⟨hpos, hle⟩ := minimumLen_bounds n
  obtain ⟨count, hcount⟩ : ∃ count, minimumLen n = count + 1 := ⟨minimumLen n - 1, by omega⟩
  have hlt := lt_pow_minimumLen h
  rw [hcount] at hlt
  rw [remainingLengthBytes_eq h, hcount]
  have hloop := decodeRemainingLengthFrom_groups post count 0 0 n pre hlt (by omega)
  rw [pow_zero] at hloop
  rw [decodeRemainingLength, hloop, Checked.ok_bind]
  simp [hcount]

example : remainingLengthBytes 321 = [0xC1, 0x02] := by decide +kernel

/-- An accepted length is at most the maximum, and stands there in its one encoding. -/
theorem decodeRemainingLength_eq_ok {data : List UInt8} {offset n stop : ℕ}
    (h : decodeRemainingLength data offset = .ok (n, stop)) :
    n ≤ mqttMaxRemainingLength ∧ stop = offset + (remainingLengthBytes n).length ∧
      data.drop offset = remainingLengthBytes n ++ data.drop stop := by
  obtain ⟨⟨v, stop'⟩, hloop, h⟩ := bind_eq_ok.mp h
  obtain ⟨hmin, h⟩ := ite_error_eq_ok.mp h
  cases h
  rw [← pow_zero 128] at hloop
  obtain ⟨count, m, rfl, rfl, hcount, hm, hdrop⟩ := decodeRemainingLengthFrom_eq_ok (by omega) hloop
  have hlt : m < 128 ^ 4 := hm.trans_le (Nat.pow_le_pow_right (by decide) (by omega))
  simp only [pow_zero, mul_one, Nat.zero_add] at hmin ⊢
  have hle : m ≤ mqttMaxRemainingLength := by
    simp only [mqttMaxRemainingLength]
    omega
  have hlen : minimumLen m = count + 1 := by omega
  rw [remainingLengthBytes_eq hle, hlen, length_lengthGroups]
  exact ⟨hle, rfl, hdrop⟩

end ToyTcpip.Mqtt

/-! ### What the encoder of `mqtt.rs` emits and what its decoder accepts. -/
namespace ToyTcpip.Mqtt

open Checked (index slice bind_eq_ok bind_of_eq_ok ite_error_eq_ok)
open Utf8 (asBytes fromUtf8)

/-! ### Fields of a payload -/

/-- A string with its length in front. -/
def field (s : String) : List UInt8 := toBeBytes16 (asBytes s).length ++ asBytes s

section fields

variable {ε : Type} {e : ε} {payload rest bytes : List UInt8} {cursor : ℕ} {topic : String}
  {n : BitVec 16}

theorem decodeUtf8_eq_ok : decodeUtf8 e bytes = .ok topic ↔ asBytes topic = bytes := by
  rw [← Utf8.fromUtf8_eq_some, decodeUtf8]
  split <;> simp_all

/-- The string of a field is read from where it stands. -/
theorem read_field (hfit : (asBytes topic).length < 65536) (hle : cursor ≤ payload.length)
    (h : payload.drop cursor = field topic ++ rest) :
    (read16 payload cursor : Checked ε _) = .ok (BitVec.ofNat 16 (asBytes topic).length) ∧
      (BitVec.ofNat 16 (asBytes topic).length).toNat = (asBytes topic).length ∧
      cursor + 2 + (asBytes topic).length + rest.length = payload.length ∧
      (slice payload (cursor + 2) (cursor + 2 + (asBytes topic).length) : Checked ε _) =
        .ok (asBytes topic) ∧
      payload.drop (cursor + 2 + (asBytes topic).length) = rest := by
  have hnat : (BitVec.ofNat 16 (asBytes topic).length).toNat = (asBytes topic).length := by
    rw [BitVec.toNat_ofNat]
    omega
  have hlen := congrArg List.length h
  simp only [field, toBeBytes16, List.length_drop, List.length_append, List.length_cons,
    List.length_nil] at hlen
  have hbody : payload.drop (cursor + 2) = asBytes topic ++ rest := by
    rw [← List.drop_drop, h]
    rfl
  refine ⟨?_, hnat, by omega, Checked.slice_of_drop (by omega) hbody, ?_⟩
  · apply read16_of_drop
    rw [h, hnat, field, List.append_assoc]
  · rw [← List.drop_drop, hbody, List.drop_left]

/-- A field that was read stands there. -/
theorem field_of_read (hn : (read16 payload cursor : Checked ε _) = .ok n)
    (hs : (slice payload (cursor + 2) (cursor + 2 + n.toNat) : Checked ε _) = .ok bytes)
    (hu : decodeUtf8 e bytes = .ok topic) :
    (asBytes topic).length = n.toNat ∧
      payload.drop cursor = field topic ++ payload.drop (cursor + 2 + n.toNat) := by
  obtain rfl := decodeUtf8_eq_ok.mp hu
  obtain ⟨hle, hdrop⟩ := drop_of_read16 hn
  obtain ⟨hlen, -, hbody⟩ := Checked.drop_of_slice hs
  have hcount : (asBytes topic).length = n.toNat := by omega
  refine ⟨hcount, ?_⟩
  rw [hdrop, hbody, field, hcount, List.append_assoc]

end fields

/-! ### Topic filters -/

/-- A topic filter of a SUBSCRIBE, with the QoS asked for. -/
def filterBytes (f : String × UInt8) : List UInt8 := field f.1 ++ [f.2]

section filters

variable {payload : List UInt8} {cursor : ℕ} {first result : Option String}

theorem subscribeTopics_filters (filters : List (String × UInt8))
    (hfit : ∀ f ∈ filters, (asBytes f.1).length < 65536 ∧ f.2 ≤ 2) (hle : cursor ≤ payload.length)
    (h : payload.drop cursor = filters.flatMap filterBytes) :
    subscribeTopics payload cursor first = .ok (first.or (filters.head?.map Prod.fst)) := by
  induction filters generalizing cursor first with
  | nil =>
    have hend : payload.length ≤ cursor := by simpa using h
    rw [subscribeTopics, if_neg (by omega)]
    simp
  | cons f rest ih =>
    obtain ⟨topic, qos⟩ := f
    obtain ⟨hlen, hqos⟩ := hfit _ List.mem_cons_self
    rw [List.flatMap_cons, filterBytes, List.append_assoc] at h
    obtain ⟨hread, hnat, htotal, hslice, hdrop⟩ := read_field (ε := MqttError) hlen hle h
    rw [List.length_append, List.length_singleton] at htotal
    dsimp only at hlen hqos hread hnat htotal hslice hdrop
    have hbyte : (index payload (cursor + 2 + (asBytes topic).length) : Checked MqttError UInt8) =
        .ok qos := by
      rw [Checked.index_eq_ok, ← Nat.add_zero (cursor + 2 + _), ← List.getElem?_drop, hdrop]
      rfl
    have hrest : payload.drop (cursor + 2 + (asBytes topic).length + 1) =
        rest.flatMap filterBytes := by
      rw [← List.drop_drop, hdrop]
      rfl
    have hnext : subscribeTopics payload (cursor + 2 + (asBytes topic).length + 1)
        (first.or (some topic)) = _ :=
      ih (fun f hf => hfit f (List.mem_cons_of_mem _ hf)) (by omega) hrest
    rw [subscribeTopics, if_pos (by omega), if_neg (by omega), hread, Checked.ok_bind]
    simp only [hnat]
    rw [if_neg (by omega), hslice, Checked.ok_bind, decodeUtf8_eq_ok.mpr rfl, Checked.ok_bind,
      hbyte, Checked.ok_bind, if_neg (by simpa using hqos), hnext]
    cases first <;> simp

theorem subscribeTopics_eq_ok {payload : List UInt8} {cursor : ℕ} {first result : Option String}
    (hle : cursor ≤ payload.length) (h : subscribeTopics payload cursor first = .ok result) :
    ∃ filters : List (String × UInt8),
      (∀ f ∈ filters, (asBytes f.1).length < 65536 ∧ f.2 ≤ 2) ∧
      payload.drop cursor = filters.flatMap filterBytes ∧
      result = first.or (filters.head?.map Prod.fst) := by
  rw [subscribeTopics] at h
  split at h
  · obtain ⟨-, h⟩ := ite_error_eq_ok.mp h
    obtain ⟨n, hn, h⟩ := bind_eq_ok.mp h
    dsimp only at h
    obtain ⟨hroom, h⟩ := ite_error_eq_ok.mp h
    obtain ⟨bytes, hslice, h⟩ := bind_eq_ok.mp h
    obtain ⟨topic, hutf, h⟩ := bind_eq_ok.mp h
    obtain ⟨qos, hbyte, h⟩ := bind_eq_ok.mp h
    obtain ⟨hqos, h⟩ := ite_error_eq_ok.mp h
    obtain ⟨hlen, hfield⟩ := field_of_read hn hslice hutf
    obtain ⟨filters, hfit, hrest, rfl⟩ := subscribeTopics_eq_ok (by omega) h
    have hlast : payload.drop (cursor + 2 + n.toNat) =
        qos :: payload.drop (cursor + 2 + n.toNat + 1) := by
      obtain ⟨hlt, rfl⟩ := List.getElem?_eq_some_iff.mp (Checked.index_eq_ok.mp hbyte)
      exact List.drop_eq_getElem_cons hlt
    have hsmall : (asBytes topic).length < 65536 := hlen ▸ n.isLt
    refine ⟨(topic, qos) :: filters, List.forall_mem_cons.mpr ⟨⟨hsmall, by simpa using hqos⟩, hfit⟩,
      ?_, ?_⟩
    · rw [hfield, hlast, hrest, List.flatMap_cons, filterBytes, List.append_assoc]
      rfl
    · cases first <;> simp
  · cases h
    have hend : payload.length ≤ cursor := by omega
    exact ⟨[], by simp, by simpa using hend, by simp⟩
termination_by payload.length - cursor

theorem unsubscribeTopics_filters (topics : List String)
    (hfit : ∀ t ∈ topics, (asBytes t).length < 65536 ∧ t ≠ "") (hle : cursor ≤ payload.length)
    (h : payload.drop cursor = topics.flatMap field) :
    unsubscribeTopics payload cursor first = .ok (first.or topics.head?) := by
  induction topics generalizing cursor first with
  | nil =>
    have hend : payload.length ≤ cursor := by simpa using h
    rw [unsubscribeTopics, if_neg (by omega)]
    simp
  | cons topic rest ih =>
    obtain ⟨hlen, hne⟩ := hfit _ List.mem_cons_self
    rw [List.flatMap_cons] at h
    obtain ⟨hread, hnat, htotal, hslice, hdrop⟩ :=
      read_field (ε := UnsubscribeSemanticError) hlen hle h
    have hzero : BitVec.ofNat 16 (asBytes topic).length ≠ 0 := fun h0 => by
      rw [h0] at hnat
      exact hne (Utf8.asBytes_eq_nil.mp (List.length_eq_zero_iff.mp hnat.symm))
    have hnext : unsubscribeTopics payload (cursor + 2 + (asBytes topic).length)
        (first.or (some topic)) = _ :=
      ih (fun t ht => hfit t (List.mem_cons_of_mem _ ht)) (by omega) hdrop
    rw [unsubscribeTopics, if_pos (by omega), if_neg (by omega), hread, Checked.ok_bind,
      if_neg hzero]
    simp only [hnat]
    rw [if_neg (by omega), hslice, Checked.ok_bind, decodeUtf8_eq_ok.mpr rfl,
      Checked.ok_bind, hnext]
    cases first <;> simp

theorem unsubscribeTopics_eq_ok {payload : List UInt8} {cursor : ℕ} {first result : Option String}
    (hle : cursor ≤ payload.length) (h : unsubscribeTopics payload cursor first = .ok result) :
    ∃ topics : List String, (∀ t ∈ topics, (asBytes t).length < 65536 ∧ t ≠ "") ∧
      payload.drop cursor = topics.flatMap field ∧ result = first.or topics.head? := by
  rw [unsubscribeTopics] at h
  split at h
  · obtain ⟨-, h⟩ := ite_error_eq_ok.mp h
    obtain ⟨n, hn, h⟩ := bind_eq_ok.mp h
    obtain ⟨hzero, h⟩ := ite_error_eq_ok.mp h
    dsimp only at h
    obtain ⟨hroom, h⟩ := ite_error_eq_ok.mp h
    obtain ⟨bytes, hslice, h⟩ := bind_eq_ok.mp h
    obtain ⟨topic, hutf, h⟩ := bind_eq_ok.mp h
    obtain ⟨hlen, hfield⟩ := field_of_read hn hslice hutf
    obtain ⟨topics, hfit, hrest, rfl⟩ := unsubscribeTopics_eq_ok (by omega) h
    refine ⟨topic :: topics, List.forall_mem_cons.mpr ⟨⟨hlen ▸ n.isLt, ?_⟩, hfit⟩, ?_, ?_⟩
    · rintro rfl
      refine hzero (BitVec.eq_of_toNat_eq ?_)
      rw [← hlen]
      rfl
    · rw [hfield, hrest, List.flatMap_cons]
    · cases first <;> simp
  · cases h
    have hend : payload.length ≤ cursor := by omega
    exact ⟨[], by simp, by simpa using hend, by simp⟩
termination_by payload.length - cursor

end filters

/-! ### What a packet says of its payload -/

/-- The payload starts with a packet identifier other than zero. -/
def StartsWithId (id : BitVec 16) (payload rest : List UInt8) : Prop :=
  id ≠ 0 ∧ payload = toBeBytes16 id.toNat ++ rest

namespace MqttPacket

/-- Topic and packet identifier of the packet are those its payload carries, in the payload's own
format; packets without one have none. -/
def Described (p : MqttPacket) : Prop :=
  match p.packetType with
  | .publish => ∃ topic rest, p.topic = some topic ∧ (asBytes topic).length < 65536 ∧
      p.payload = field topic ++ rest ∧
      if qosOf p.flags > 0 then ∃ id body, p.packetId = some id ∧ StartsWithId id rest body
      else p.packetId = none
  | .subscribe => ∃ id filters, p.packetId = some id ∧ filters ≠ [] ∧
      (∀ f ∈ filters, (asBytes f.1).length < 65536 ∧ f.2 ≤ 2) ∧
      StartsWithId id p.payload (filters.flatMap filterBytes) ∧
      p.topic = filters.head?.map Prod.fst
  | .unsubscribe => ∃ id topics, p.packetId = some id ∧ topics ≠ [] ∧
      (∀ t ∈ topics, (asBytes t).length < 65536 ∧ t ≠ "") ∧
      StartsWithId id p.payload (topics.flatMap field) ∧ p.topic = topics.head?
  | .suback | .puback | .unsuback => p.topic = none ∧
      ∃ id rest, p.packetId = some id ∧ StartsWithId id p.payload rest
  | .connect | .connack | .pingreq | .pingresp | .disconnect =>
    p.topic = none ∧ p.packetId = none

end MqttPacket

section payloads

variable {flags : UInt8} {payload : List UInt8} {topic : Option String} {id : Option (BitVec 16)}

theorem mapErr_eq_ok {ε δ α : Type} {f : ε → δ} {x : Checked ε α} {a : α} :
    mapErr f x = .ok a ↔ x = .ok a := by
  cases x <;> simp [mapErr]

theorem StartsWithId.read {ε : Type} {id : BitVec 16} {rest : List UInt8}
    (h : StartsWithId id payload rest) :
    2 ≤ payload.length ∧ (read16 payload 0 : Checked ε _) = .ok id ∧ payload.drop 2 = rest := by
  obtain ⟨-, rfl⟩ := h
  exact ⟨by simp [toBeBytes16], read16_of_drop rfl, rfl⟩

theorem startsWithId_of_read {ε : Type} {id : BitVec 16}
    (h : (read16 payload 0 : Checked ε _) = .ok id) (hne : id ≠ 0) :
    StartsWithId id payload (payload.drop 2) :=
  ⟨hne, by simpa using (drop_of_read16 h).2⟩

theorem parseSubscribe_eq_ok : parseSubscribe payload = .ok (topic, id) ↔
    ∃ i filters, id = some i ∧ filters ≠ [] ∧
      (∀ f ∈ filters, (asBytes f.1).length < 65536 ∧ f.2 ≤ 2) ∧
      StartsWithId i payload (filters.flatMap filterBytes) ∧
      topic = filters.head?.map Prod.fst := by
  constructor
  · intro h
    obtain ⟨hlen, h⟩ := ite_error_eq_ok.mp h
    obtain ⟨i, hread, h⟩ := bind_eq_ok.mp h
    obtain ⟨hne, h⟩ := ite_error_eq_ok.mp h
    obtain ⟨first, hloop, h⟩ := bind_eq_ok.mp h
    obtain ⟨filters, hfit, hdrop, rfl⟩ := subscribeTopics_eq_ok (by omega) hloop
    cases filters with
    | nil => simp at h
    | cons f rest =>
      obtain ⟨rfl, rfl⟩ : some f.1 = topic ∧ some i = id := by simpa using h
      refine ⟨i, f :: rest, rfl, by simp, hfit, ?_, by simp⟩
      rw [← hdrop]
      exact startsWithId_of_read hread hne
  · rintro ⟨i, filters, rfl, hne, hfit, hstart, rfl⟩
    obtain ⟨hlen, hread, hdrop⟩ := hstart.read (ε := MqttError)
    have hloop : subscribeTopics payload 2 none = _ :=
      subscribeTopics_filters filters hfit hlen hdrop
    rw [parseSubscribe, if_neg (by omega), hread, Checked.ok_bind, if_neg hstart.1, hloop,
      Checked.ok_bind]
    cases filters with
    | nil => exact absurd rfl hne
    | cons f rest => rfl

theorem validateUnsubscribe_eq_ok {i : BitVec 16} {t : String} :
    validateUnsubscribeSemantics payload = .ok (i, t) ↔
      ∃ topics : List String, (∀ t ∈ topics, (asBytes t).length < 65536 ∧ t ≠ "") ∧
        StartsWithId i payload (topics.flatMap field) ∧ some t = topics.head? := by
  constructor
  · intro h
    obtain ⟨hlen, h⟩ := ite_error_eq_ok.mp h
    obtain ⟨id, hread, h⟩ := bind_eq_ok.mp h
    obtain ⟨hne, h⟩ := ite_error_eq_ok.mp h
    obtain ⟨first, hloop, h⟩ := bind_eq_ok.mp h
    obtain ⟨topics, hfit, hdrop, rfl⟩ := unsubscribeTopics_eq_ok (by omega) hloop
    cases topics with
    | nil => simp at h
    | cons f rest =>
      obtain ⟨rfl, rfl⟩ : id = i ∧ f = t := by simpa using h
      refine ⟨f :: rest, hfit, ?_, rfl⟩
      rw [← hdrop]
      exact startsWithId_of_read hread hne
  · rintro ⟨topics, hfit, hstart, hfirst⟩
    obtain ⟨hlen, hread, hdrop⟩ := hstart.read (ε := UnsubscribeSemanticError)
    have hloop : unsubscribeTopics payload 2 none = _ :=
      unsubscribeTopics_filters topics hfit hlen hdrop
    rw [validateUnsubscribeSemantics, if_neg (by omega), hread, Checked.ok_bind, if_neg hstart.1,
      hloop, Checked.ok_bind, Option.none_or, ← hfirst]

theorem parsePublish_eq_ok (hqos : ¬ qosOf flags > 2) :
    parsePublish flags payload = .ok (topic, id) ↔
      ∃ t rest, topic = some t ∧ (asBytes t).length < 65536 ∧ payload = field t ++ rest ∧
        if qosOf flags > 0 then ∃ i body, id = some i ∧
        StartsWithId i rest body else id = none := by
  constructor
  · intro h
    obtain ⟨-, h⟩ := ite_error_eq_ok.mp h
    obtain ⟨hlen, h⟩ := ite_error_eq_ok.mp h
    obtain ⟨n, hn, h⟩ := bind_eq_ok.mp h
    dsimp only at h
    obtain ⟨hroom, h⟩ := ite_error_eq_ok.mp h
    obtain ⟨bytes, hslice, h⟩ := bind_eq_ok.mp h
    obtain ⟨t, hutf, h⟩ := bind_eq_ok.mp h
    rw [← Nat.zero_add 2] at hslice
    obtain ⟨hcount, hfield⟩ := field_of_read hn hslice hutf
    rw [List.drop_zero, Nat.zero_add] at hfield
    by_cases hq : qosOf flags > 0
    · rw [if_pos hq] at h
      obtain ⟨hroom', h⟩ := ite_error_eq_ok.mp h
      obtain ⟨i, hread, h⟩ := bind_eq_ok.mp h
      obtain ⟨hne, h⟩ := ite_error_eq_ok.mp h
      cases h
      refine ⟨t, _, rfl, hcount ▸ n.isLt, hfield, ?_⟩
      rw [if_pos hq]
      exact ⟨i, _, rfl, hne, (drop_of_read16 hread).2⟩
    · rw [if_neg hq] at h
      cases h
      refine ⟨t, _, rfl, hcount ▸ n.isLt, hfield, ?_⟩
      rw [if_neg hq]
  · rintro ⟨t, rest, rfl, hfit, hpayload, hid⟩
    obtain ⟨hread, hnat, htotal, hslice, hdrop⟩ :=
      read_field (ε := MqttError) hfit (Nat.zero_le _)
        (show payload.drop 0 = field t ++ rest by simpa using hpayload)
    rw [Nat.zero_add] at htotal hslice hdrop
    rw [parsePublish, if_neg hqos, if_neg (by omega), hread, Checked.ok_bind]
    simp only [hnat]
    rw [if_neg (by omega), hslice, Checked.ok_bind, decodeUtf8_eq_ok.mpr rfl, Checked.ok_bind]
    by_cases hq : qosOf flags > 0
    · rw [if_pos hq] at hid
      obtain ⟨i, body, rfl, hne, rfl⟩ := hid
      have hread' : (read16 payload (2 + (asBytes t).length) : Checked MqttError _) = .ok i :=
        read16_of_drop hdrop
      rw [if_pos hq, if_neg (by simp [toBeBytes16] at htotal; omega), hread', Checked.ok_bind,
        if_neg hne]
    · rw [if_neg hq] at hid
      rw [if_neg hq, hid]

end payloads

/-! ### Packets -/

theorem fromU8_eq_some {val : UInt8} {t : MqttPacketType} :
    MqttPacketType.fromU8 val = some t ↔ t.toU8 = val := by
  constructor
  · intro h
    unfold MqttPacketType.fromU8 at h
    split at h <;> cases h <;> rfl
  · rintro rfl
    cases t <;> rfl

/-- The two halves of a header byte. -/
theorem header_halves (b : UInt8) : ((b >>> 4) <<< 4) ||| ((b &&& 0x0F) &&& 0x0F) = b :=
  forall_uint8 (P := fun b => ((b >>> 4) <<< 4) ||| ((b &&& 0x0F) &&& 0x0F) = b)
    (by decide +kernel) b

theorem header_of_halves (t : MqttPacketType) {flags : UInt8} (h : ¬ flags > 0x0f) :
    ((t.toU8 <<< 4) ||| (flags &&& 0x0F)) >>> 4 = t.toU8 ∧
      ((t.toU8 <<< 4) ||| (flags &&& 0x0F)) &&& 0x0F = flags := by
  refine forall_uint8 (P := fun flags => ¬ flags > 0x0f → ∀ t : MqttPacketType,
    ((t.toU8 <<< 4) ||| (flags &&& 0x0F)) >>> 4 = t.toU8 ∧
      ((t.toU8 <<< 4) ||| (flags &&& 0x0F)) &&& 0x0F = flags) ?_ flags h t
  have hall : ∀ n : Fin 256, ¬ UInt8.ofNat n > 0x0f →
      ∀ v ∈ ([1, 2, 3, 4, 8, 9, 10, 11, 12, 13, 14] :
      List UInt8),
      ((v <<< 4) ||| (UInt8.ofNat n &&& 0x0F)) >>> 4 = v ∧
      ((v <<< 4) ||| (UInt8.ofNat n &&& 0x0F)) &&& 0x0F = UInt8.ofNat n := by decide +kernel
  intro n hn t
  exact hall n hn t.toU8 (by cases t <;> decide)

theorem flags_le {t : MqttPacketType} {flags : UInt8}
    (h : fixedHeaderFlagsAreValid t flags = true) : ¬ flags > 0x0f := by
  intro hbig
  simp [fixedHeaderFlagsAreValid, hbig] at h

variable {p : MqttPacket}

example : checkPayloadLength .puback [0, 1] = .ok () := by decide +kernel

/-- The encoder's checks pass when the decoder's do. -/
theorem validate_of_parsed (hlen : checkPayloadLength p.packetType p.payload = .ok ())
    (hbody : parsePayload p.packetType p.flags p.payload = .ok (p.topic, p.packetId)) :
    p.validate = .ok () := by
  obtain ⟨t, flags, topic, id, payload⟩ := p
  cases t <;> simp only [parsePayload, bind_eq_ok, mapErr_eq_ok] at hbody <;>
    simp only [checkPayloadLength, fixedPayloadLength, ite_error_eq_ok, not_not] at hlen <;>
    simp only [MqttPacket.validate]
  case connect =>
    obtain ⟨_, hv, -⟩ := hbody
    exact mapErr_eq_ok.mpr hv
  case connack =>
    obtain ⟨_, hv, -⟩ := hbody
    rw [if_neg (by simpa using hlen.1)]
    exact mapErr_eq_ok.mpr hv
  case publish =>
    obtain ⟨hqos, -⟩ := ite_error_eq_ok.mp hbody
    rw [if_neg hqos]
  case puback | unsuback =>
    obtain ⟨i, hread, hi⟩ := hbody
    obtain ⟨hne, -⟩ := ite_error_eq_ok.mp hi
    rw [if_neg (by simpa using hlen.1), bind_eq_ok]
    refine ⟨i, ?_, by rw [if_neg hne]⟩
    exact read16_of_drop (drop_of_read16 hread).2
  case suback =>
    obtain ⟨i, hv, -⟩ := hbody
    exact bind_of_eq_ok _ (mapErr_eq_ok.mpr hv)
  case unsubscribe =>
    obtain ⟨found, hv, -⟩ := hbody
    exact bind_of_eq_ok _ (mapErr_eq_ok.mpr hv)
  case pingreq | pingresp | disconnect => rw [if_neg (by simpa using hlen.1)]

theorem checkPayloadLength_of_valid (h : p.validate = .ok ()) :
    checkPayloadLength p.packetType p.payload = .ok () := by
  obtain ⟨t, flags, topic, id, payload⟩ := p
  cases t <;> simp only [MqttPacket.validate] at h <;>
    simp only [checkPayloadLength, fixedPayloadLength] <;>
    exact if_neg (ite_error_eq_ok.mp h).1

theorem describedById {payload : List UInt8} {i : BitVec 16} {topic : Option String}
    {id : Option (BitVec 16)} {ε δ : Type}
    (hread : (read16 payload 0 : Checked ε _) = .ok i) (hne : i ≠ 0) :
    (.ok (none, some i) : Checked δ (Option String × Option (BitVec 16))) = .ok (topic, id) ↔
      topic = none ∧ ∃ i' rest, id = some i' ∧ StartsWithId i' payload rest := by
  constructor
  · intro h
    obtain ⟨rfl, rfl⟩ : none = topic ∧ some i = id := by simpa using h
    exact ⟨rfl, i, _, rfl, startsWithId_of_read hread hne⟩
  · rintro ⟨rfl, i', rest, rfl, hstart⟩
    obtain ⟨-, hread', -⟩ := hstart.read (ε := ε)
    rw [hread] at hread'
    cases hread'
    rfl

/-- For a packet the encoder takes, the decoder gives back its topic and identifier exactly when
they are those of the payload. -/
theorem parsePayload_iff (h : p.validate = .ok ()) :
    parsePayload p.packetType p.flags p.payload = .ok (p.topic, p.packetId) ↔ p.Described := by
  obtain ⟨t, flags, topic, id, payload⟩ := p
  cases t <;> simp only [MqttPacket.validate] at h <;>
    simp only [parsePayload, MqttPacket.Described]
  case connect =>
    rw [mapErr_eq_ok.mpr (mapErr_eq_ok.mp h), Checked.ok_bind]
    simp [eq_comm]
  case connack =>
    rw [mapErr_eq_ok.mpr (mapErr_eq_ok.mp (ite_error_eq_ok.mp h).2), Checked.ok_bind]
    simp [eq_comm]
  case publish => exact parsePublish_eq_ok (ite_error_eq_ok.mp h).1
  case puback | unsuback =>
    obtain ⟨i, hread, hi⟩ := bind_eq_ok.mp (ite_error_eq_ok.mp h).2
    have hne := (ite_error_eq_ok.mp hi).1
    have hread' : (read16 payload 0 : Checked MqttError _) = .ok i :=
      read16_of_drop (drop_of_read16 hread).2
    rw [hread', Checked.ok_bind, if_neg hne]
    exact describedById hread' hne
  case suback =>
    obtain ⟨i, hv, -⟩ := bind_eq_ok.mp h
    have hv := mapErr_eq_ok.mp hv
    obtain ⟨i', hread, hi⟩ := bind_eq_ok.mp (ite_error_eq_ok.mp hv).2
    obtain ⟨hne, hi⟩ := ite_error_eq_ok.mp hi
    obtain ⟨_, -, hi⟩ := bind_eq_ok.mp hi
    obtain ⟨_, -, hi⟩ := bind_eq_ok.mp hi
    cases hi
    rw [mapErr_eq_ok.mpr hv, Checked.ok_bind]
    exact describedById hread hne
  case subscribe => exact parseSubscribe_eq_ok
  case unsubscribe =>
    rw [bind_eq_ok]
    simp only [mapErr_eq_ok, Prod.exists, validateUnsubscribe_eq_ok]
    constructor
    · rintro ⟨i, t, ⟨topics, hfit, hstart, hfirst⟩, heq⟩
      obtain ⟨rfl, rfl⟩ : some t = topic ∧ some i = id := by simpa using heq
      exact ⟨i, topics, rfl, fun hnil => by simp [hnil] at hfirst, hfit, hstart, hfirst⟩
    · rintro ⟨i, topics, rfl, hne, hfit, hstart, rfl⟩
      cases topics with
      | nil => exact absurd rfl hne
      | cons t rest => exact ⟨i, t, ⟨t :: rest, hfit, hstart, rfl⟩, rfl⟩
  case pingreq | pingresp | disconnect => simp [eq_comm]

/-- An accepted byte string, cut at the length it announces. -/
theorem parse_eq_ok {data : List UInt8} (h : MqttPacket.parse data = .ok p) :
    ∃ header rest, data = header :: (remainingLengthBytes p.payload.length ++ (p.payload ++ rest)) ∧
      p.packetType.toU8 = header >>> 4 ∧ p.flags = header &&& 0x0F ∧
      p.payload.length ≤ mqttMaxRemainingLength ∧
      fixedHeaderFlagsAreValid p.packetType p.flags = true ∧ p.validate = .ok () := by
  obtain ⟨hlen, h⟩ := ite_error_eq_ok.mp h
  obtain ⟨header, hheader, h⟩ := bind_eq_ok.mp h
  dsimp only at h
  split at h
  · cases h
  rename_i t ht
  obtain ⟨hflags, h⟩ := ite_error_eq_ok.mp h
  obtain ⟨⟨n, stop⟩, hn, h⟩ := bind_eq_ok.mp h
  obtain ⟨-, h⟩ := ite_error_eq_ok.mp h
  obtain ⟨payload, hslice, h⟩ := bind_eq_ok.mp h
  obtain ⟨_, hfixed, h⟩ := bind_eq_ok.mp h
  obtain ⟨⟨topic, id⟩, hbody, h⟩ := bind_eq_ok.mp h
  cases h
  obtain ⟨hmax, rfl, hdrop⟩ := decodeRemainingLength_eq_ok hn
  obtain ⟨hcount, -, hpayload⟩ := Checked.drop_of_slice hslice
  dsimp only at hcount hpayload
  obtain rfl : n = payload.length := by omega
  have hfirst : data = header :: data.drop 1 := by
    obtain ⟨hlt, rfl⟩ := List.getElem?_eq_some_iff.mp (Checked.index_eq_ok.mp hheader)
    exact List.drop_eq_getElem_cons hlt
  have hdata : data = header :: (remainingLengthBytes payload.length ++ (payload ++
      data.drop (1 + (remainingLengthBytes payload.length).length + payload.length))) := by
    rw [← hpayload, ← hdrop]
    exact hfirst
  exact ⟨header, _, hdata, fromU8_eq_some.mp ht, rfl, hmax, by simpa using hflags,
    validate_of_parsed hfixed hbody⟩

/-- The bytes the encoder emits. -/
theorem trySerialize_eq_ok {bytes : List UInt8} (h : p.trySerialize = .ok bytes) :
    fixedHeaderFlagsAreValid p.packetType p.flags = true ∧ p.validate = .ok () ∧
      p.payload.length ≤ mqttMaxRemainingLength ∧
      bytes = ((p.packetType.toU8 <<< 4) ||| (p.flags &&& 0x0F)) ::
        (remainingLengthBytes p.payload.length ++ p.payload) := by
  obtain ⟨hflags, h⟩ := ite_error_eq_ok.mp h
  obtain ⟨_, hvalid, h⟩ := bind_eq_ok.mp h
  obtain ⟨remaining, hrem, h⟩ := bind_eq_ok.mp h
  cases h
  obtain ⟨hmax, hrem⟩ := ite_error_eq_ok.mp hrem
  cases hrem
  exact ⟨by simpa using hflags, hvalid, by omega, rfl⟩

/-- What was emitted parses to the packet exactly when the payload bears its description out. -/
theorem parse_trySerialize {bytes : List UInt8} (h : p.trySerialize = .ok bytes) :
    MqttPacket.parse bytes = .ok p ↔ p.Described := by
  obtain ⟨hflags, hvalid, hmax, rfl⟩ := trySerialize_eq_ok h
  obtain ⟨htype, hlow⟩ := header_of_halves p.packetType (flags_le hflags)
  rw [← parsePayload_iff hvalid]
  generalize hheader : (p.packetType.toU8 <<< 4) ||| (p.flags &&& 0x0F) = header at htype hlow ⊢
  have hdecode := decodeRemainingLength_encoded hmax [header] p.payload
  have hslice := Checked.slice_middle (ε := MqttError)
    (header :: remainingLengthBytes p.payload.length) p.payload []
  simp only [List.append_nil, List.length_cons, List.length_nil, Nat.zero_add, List.cons_append,
    List.nil_append] at hdecode hslice
  rw [Nat.add_comm] at hdecode
  unfold MqttPacket.parse
  have hpos := remainingLengthBytes_pos hmax
  rw [if_neg (by rw [List.length_cons, List.length_append]; omega), Checked.index_cons_zero,
    Checked.ok_bind]
  simp only [htype, hlow, fromU8_eq_some.mpr rfl, hflags, Bool.not_true,
    Bool.false_eq_true, if_false]
  rw [hdecode, Checked.ok_bind]
  simp only
  rw [if_neg (by simp; omega), hslice, Checked.ok_bind, checkPayloadLength_of_valid hvalid,
    Checked.ok_bind, bind_eq_ok]
  constructor
  · rintro ⟨⟨topic, id⟩, hbody, heq⟩
    rw [hbody, ← Checked.ok.inj heq]
  · intro hbody
    exact ⟨_, hbody, rfl⟩

/-- What the decoder accepts, the encoder writes again from the packet it gave. -/
theorem trySerialize_of_parse {data : List UInt8} (h : MqttPacket.parse data = .ok p) :
    ∃ n stop rest, decodeRemainingLength data 1 = .ok (n, stop) ∧
    data.take (stop + n) ++ rest = data ∧
      p.trySerialize = .ok (data.take (stop + n)) := by
  obtain ⟨header, rest, hdata, htype, hlow, hmax, hflags, hvalid⟩ := parse_eq_ok h
  have hdecode := decodeRemainingLength_encoded hmax [header] (p.payload ++ rest)
  simp only [List.length_cons, List.length_nil, Nat.zero_add, List.cons_append, List.nil_append]
    at hdecode
  rw [← hdata] at hdecode
  have htake : data.take (1 + (remainingLengthBytes p.payload.length).length + p.payload.length) =
      header :: (remainingLengthBytes p.payload.length ++ p.payload) := by
    rw [hdata, ← List.append_assoc, ← List.cons_append]
    apply List.take_left'
    simp only [List.length_cons, List.length_append]
    omega
  refine ⟨_, _, data.drop _, hdecode, List.take_append_drop .., ?_⟩
  have hheader : (p.packetType.toU8 <<< 4) ||| (p.flags &&& 0x0F) = header := by
    rw [htype, hlow]
    exact header_halves header
  have hrem : encodeRemainingLength p.payload.length =
      .ok (remainingLengthBytes p.payload.length) := if_neg (Nat.not_lt_of_le hmax)
  rw [htake, MqttPacket.trySerialize, hflags, hvalid, hrem, hheader]
  rfl

/-- What the encoder emits parses to the packet exactly when topic and packet identifier are those
the payload carries in its format; what the decoder accepts is what the encoder emits for it; and
the remaining lengths up to the maximum have one accepted encoding each. -/
theorem mqtt_codec (p : MqttPacket) :
    (∀ bytes, p.trySerialize = .ok bytes → (MqttPacket.parse bytes = .ok p ↔ p.Described)) ∧
    (∀ data, MqttPacket.parse data = .ok p →
      ∃ n stop rest, decodeRemainingLength data 1 = .ok (n, stop) ∧
        data.take (stop + n) ++ rest = data ∧ p.trySerialize = .ok (data.take (stop + n))) ∧
    (∀ n ≤ mqttMaxRemainingLength, ∀ pre post, ∃ field, encodeRemainingLength n = .ok field ∧
      decodeRemainingLength (pre ++ (field ++ post)) pre.length =
        .ok (n, pre.length + field.length)) ∧
    ∀ data offset n stop, decodeRemainingLength data offset = .ok (n, stop) →
      n ≤ mqttMaxRemainingLength ∧ ∃ field, encodeRemainingLength n = .ok field ∧
        stop = offset + field.length ∧ data.drop offset = field ++ data.drop stop := by
  refine ⟨fun bytes => parse_trySerialize, fun data => trySerialize_of_parse, ?_, ?_⟩
  · intro n hn pre post
    refine ⟨remainingLengthBytes n, ?_, decodeRemainingLength_encoded hn pre post⟩
    rw [encodeRemainingLength, if_neg (by omega)]
  · intro data offset n stop h
    obtain ⟨hmax, hstop, hdrop⟩ := decodeRemainingLength_eq_ok h
    refine ⟨hmax, remainingLengthBytes n, ?_, hstop, hdrop⟩
    rw [encodeRemainingLength, if_neg (by omega)]

/-- A PUBLISH at QoS 1 to the topic `a`. -/
def publishOnce : MqttPacket := ⟨.publish, 0x02, some "a", some 7, [0, 1, 97, 0, 7, 42]⟩

example : publishOnce.validate = .ok () := by decide +kernel

theorem mqtt_codec_publishOnce :
    publishOnce.trySerialize = .ok [0x32, 6, 0, 1, 97, 0, 7, 42] ∧
      MqttPacket.parse [0x32, 6, 0, 1, 97, 0, 7, 42] = .ok publishOnce := by
  have hser : publishOnce.trySerialize = .ok [0x32, 6, 0, 1, 97, 0, 7, 42] := by decide +kernel
  refine ⟨hser, ((mqtt_codec publishOnce).1 _ hser).mpr ?_⟩
  exact ⟨"a", [0, 7, 42], rfl, by decide +kernel, by decide +kernel, 7, [42], rfl, by decide, rfl⟩

/-- A PUBLISH with no topic at all, and a SUBSCRIBE whose fields do not match its payload. -/
def emptyPublish : MqttPacket := ⟨.publish, 0, none, none, []⟩

def untoldSubscribe : MqttPacket := ⟨.subscribe, 0x02, none, none, [0, 1, 0, 1, 97, 0]⟩

/-- The encoder checks neither the payload of a PUBLISH or SUBSCRIBE nor the topic and identifier
fields: it emits packets that the decoder rejects, and packets that come back different. -/
theorem not_parse_emptyPublish :
    (emptyPublish.trySerialize = .ok [0x30, 0] ∧
      MqttPacket.parse [0x30, 0] = .error .packetTooShort) ∧
    untoldSubscribe.trySerialize = .ok [0x82, 6, 0, 1, 0, 1, 97, 0] ∧
      MqttPacket.parse [0x82, 6, 0, 1, 0, 1, 97, 0] ≠ .ok untoldSubscribe := by
  decide +kernel

end ToyTcpip.Mqtt

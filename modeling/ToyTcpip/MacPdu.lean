import ToyTcpip.Checksum
import ToyTcpip.Lib.Checked

/-! MAC PDUs of `mac_5g.rs`, written and read back. -/
namespace ToyTcpip.Mac

open Checked (index slice Safe)

def macLcidPadding : UInt8 := 63

def macLcidCrnti : UInt8 := 58

def macLcidShortBsr : UInt8 := 59

def macLcidLongBsr : UInt8 := 60

def macLcidTaCmd : UInt8 := 61

def macLcidDrxCmd : UInt8 := 60

def macLcidSingleEntryPhr : UInt8 := 57

structure MacSubheader where
  lcid : UInt8
  length : Option ℕ
  deriving DecidableEq

namespace MacSubheader

def toBytes (h : MacSubheader) : List UInt8 :=
  let lcidBits := h.lcid &&& 0x3F
  match h.length with
  | none => [lcidBits]
  | some len => if len ≤ 255 then [lcidBits, .ofNat len] else (0x40 ||| lcidBits) :: toBeBytes16 len

/-- The error stands for `None`. -/
def fromBytes (data : List UInt8) (offset : ℕ) : Checked Unit (MacSubheader × ℕ) :=
  if data.length ≤ offset then .error ()
  else (index data offset).bind fun first =>
    let lcid := first &&& 0x3F
    if lcid = macLcidPadding ∨ lcid = macLcidDrxCmd then .ok (⟨lcid, none⟩, 1)
    else if first &&& 0x40 ≠ 0 then
      if data.length < offset + 3 then .error ()
      else (index data (offset + 1)).bind fun hi => (index data (offset + 2)).bind fun lo =>
        .ok (⟨lcid, some (beWord hi lo)⟩, 3)
    else if data.length < offset + 2 then .error ()
    else (index data (offset + 1)).bind fun len => .ok (⟨lcid, some len.toNat⟩, 2)

theorem one_le_of_fromBytes {data : List UInt8} {offset n : ℕ} {h : MacSubheader}
    (heq : fromBytes data offset = .ok (h, n)) : offset < data.length ∧ 1 ≤ n := by
  unfold fromBytes at heq
  rw [Checked.ite_error_eq_ok, Checked.bind_eq_ok] at heq
  obtain ⟨hlt, first, -, heq⟩ := heq
  refine ⟨not_le.mp hlt, ?_⟩
  dsimp only at heq
  split_ifs at heq
  · obtain ⟨-, rfl⟩ := Prod.mk.inj (Checked.ok.inj heq)
    exact le_rfl
  · rw [Checked.bind_eq_ok] at heq
    obtain ⟨hi, -, heq⟩ := heq
    rw [Checked.bind_eq_ok] at heq
    obtain ⟨lo, -, heq⟩ := heq
    obtain ⟨-, rfl⟩ := Prod.mk.inj (Checked.ok.inj heq)
    decide
  · rw [Checked.bind_eq_ok] at heq
    obtain ⟨len, -, heq⟩ := heq
    obtain ⟨-, rfl⟩ := Prod.mk.inj (Checked.ok.inj heq)
    decide

end MacSubheader

inductive MacPduElement where
  | sdu (lcid : UInt8) (payload : List UInt8)
  | shortBsr (lcgId bufferSizeIndex : UInt8)
  | longBsr (bufferSizes : Vector UInt8 8)
  | cRnti (cRnti : UInt16)
  | timingAdvanceCommand (tagId taCommand : UInt8)
  | singleEntryPhr (powerHeadroom pcmax : UInt8)
  | padding (length : ℕ)
  deriving DecidableEq

namespace MacPduElement

def lcid : MacPduElement → UInt8
  | .sdu lcid _ => lcid
  | .shortBsr .. => macLcidShortBsr
  | .longBsr _ => macLcidLongBsr
  | .cRnti _ => macLcidCrnti
  | .timingAdvanceCommand .. => macLcidTaCmd
  | .singleEntryPhr .. => macLcidSingleEntryPhr
  | .padding _ => macLcidPadding

def payloadBytes : MacPduElement → List UInt8
  | .sdu _ payload => payload
  | .shortBsr lcgId bufferSizeIndex => [((lcgId &&& 0x03) <<< 6) ||| (bufferSizeIndex &&& 0x3F)]
  | .longBsr bufferSizes => 0xFF :: bufferSizes.toList.map (· &&& 0x3F)
  | .cRnti rnti => toBeBytes16 rnti.toNat
  | .timingAdvanceCommand tagId taCommand => [((tagId &&& 0x03) <<< 6) ||| (taCommand &&& 0x3F)]
  | .singleEntryPhr powerHeadroom pcmax => [powerHeadroom &&& 0x3F, pcmax &&& 0x3F]
  | .padding length => List.replicate length 0

/-- The length is cast to `u16`. -/
def subheader (e : MacPduElement) : MacSubheader :=
  ⟨e.lcid,
    match e with
    | .padding _ => none
    | _ => some (e.payloadBytes.length % 2 ^ 16)⟩

def toBytes (e : MacPduElement) : List UInt8 := e.subheader.toBytes ++ e.payloadBytes

/-- The element of a subheader's LCID and the payload that follows it. -/
def ofPayload (lcid : UInt8) (payload : List UInt8) : Checked Unit MacPduElement :=
  if lcid = macLcidShortBsr then
    if payload.length < 1 then .error ()
    else (index payload 0).bind fun b => .ok (.shortBsr ((b >>> 6) &&& 0x03) (b &&& 0x3F))
  else if lcid = macLcidCrnti then
    if payload.length < 2 then .error ()
    else (index payload 0).bind fun hi => (index payload 1).bind fun lo =>
      .ok (.cRnti (.ofNat (beWord hi lo)))
  else if lcid = macLcidTaCmd then
    if payload.length < 1 then .error ()
    else (index payload 0).bind fun b =>
      .ok (.timingAdvanceCommand ((b >>> 6) &&& 0x03) (b &&& 0x3F))
  else if lcid = macLcidSingleEntryPhr then
    if payload.length < 2 then .error ()
    else (index payload 0).bind fun ph => (index payload 1).bind fun pcmax =>
      .ok (.singleEntryPhr (ph &&& 0x3F) (pcmax &&& 0x3F))
  else .ok (.sdu lcid payload)

end MacPduElement

structure MacPdu where
  elements : List MacPduElement
  deriving DecidableEq

namespace MacPdu

def toBytes (p : MacPdu) : List UInt8 := p.elements.flatMap (·.toBytes)

/-- The loop of `from_bytes`, from a position on. -/
def elementsFrom (data : List UInt8) (offset : ℕ) : Checked Unit (List MacPduElement) :=
  if offset < data.length then
    match _h : MacSubheader.fromBytes data offset with
    | .panic => .panic
    | .error e => .error e
    | .ok (subhdr, hdrLen) =>
      if subhdr.lcid = macLcidPadding then .ok [.padding (data.length - (offset + hdrLen))]
      else
        match subhdr.length with
        | none => .error ()
        | some payloadLen =>
          if data.length < offset + hdrLen + payloadLen then .error ()
          else
            (slice data (offset + hdrLen) (offset + hdrLen + payloadLen)).bind fun payload =>
            (MacPduElement.ofPayload subhdr.lcid payload).bind fun element =>
            (elementsFrom data (offset + hdrLen + payloadLen)).bind fun rest =>
              .ok (element :: rest)
  else .ok []
termination_by data.length - offset
decreasing_by
  have := MacSubheader.one_le_of_fromBytes _h
  omega

def fromBytes (data : List UInt8) : Checked Unit MacPdu :=
  (elementsFrom data 0).bind fun elements => .ok ⟨elements⟩

end MacPdu

/-! ### Bounds -/

section safety

variable {data payload : List UInt8} {offset : ℕ} {lcid : UInt8}

theorem MacSubheader.safe_fromBytes (data : List UInt8) (offset : ℕ) :
    Safe (MacSubheader.fromBytes data offset) := by
  unfold fromBytes
  refine Checked.safe_ite (fun _ => Checked.safe_error _) fun hlt => ?_
  refine Safe.bind (Checked.safe_index (by omega)) fun first _ => ?_
  refine Checked.safe_ite (fun _ => Checked.safe_ok _) fun _ => ?_
  refine Checked.safe_ite (fun _ => ?_) fun _ => ?_
  · refine Checked.safe_ite (fun _ => Checked.safe_error _) fun hlong => ?_
    refine Safe.bind (Checked.safe_index (by omega)) fun hi _ => ?_
    exact Safe.bind (Checked.safe_index (by omega)) fun lo _ => Checked.safe_ok _
  · refine Checked.safe_ite (fun _ => Checked.safe_error _) fun hlong => ?_
    exact Safe.bind (Checked.safe_index (by omega)) fun len _ => Checked.safe_ok _

theorem MacPduElement.safe_ofPayload (lcid : UInt8) (payload : List UInt8) :
    Safe (MacPduElement.ofPayload lcid payload) := by
  unfold ofPayload
  refine Checked.safe_ite (fun _ => ?_) fun _ => Checked.safe_ite (fun _ => ?_) fun _ =>
    Checked.safe_ite (fun _ => ?_) fun _ => Checked.safe_ite (fun _ => ?_) fun _ =>
      Checked.safe_ok _
  · refine Checked.safe_ite (fun _ => Checked.safe_error _) fun hlong => ?_
    exact Safe.bind (Checked.safe_index (by omega)) fun b _ => Checked.safe_ok _
  · refine Checked.safe_ite (fun _ => Checked.safe_error _) fun hlong => ?_
    refine Safe.bind (Checked.safe_index (by omega)) fun hi _ => ?_
    exact Safe.bind (Checked.safe_index (by omega)) fun lo _ => Checked.safe_ok _
  · refine Checked.safe_ite (fun _ => Checked.safe_error _) fun hlong => ?_
    exact Safe.bind (Checked.safe_index (by omega)) fun b _ => Checked.safe_ok _
  · refine Checked.safe_ite (fun _ => Checked.safe_error _) fun hlong => ?_
    refine Safe.bind (Checked.safe_index (by omega)) fun ph _ => ?_
    exact Safe.bind (Checked.safe_index (by omega)) fun pcmax _ => Checked.safe_ok _

theorem MacPdu.safe_elementsFrom (data : List UInt8) (offset : ℕ) :
    Safe (MacPdu.elementsFrom data offset) := by
  fun_induction MacPdu.elementsFrom data offset with
  | case1 offset hlt h => exact absurd h (MacSubheader.safe_fromBytes data offset)
  | case2 => exact Checked.safe_error _
  | case3 => exact Checked.safe_ok _
  | case4 => exact Checked.safe_error _
  | case5 => exact Checked.safe_error _
  | case6 offset hlt subhdr hdrLen h hpad payloadLen hlength hfits ih =>
    refine Safe.bind (Checked.safe_slice (by omega) (by omega)) fun payload _ => ?_
    refine Safe.bind (MacPduElement.safe_ofPayload _ _) fun element _ => ?_
    exact Safe.bind ih fun rest _ => Checked.safe_ok _
  | case7 => exact Checked.safe_ok _

theorem MacPdu.safe_fromBytes (data : List UInt8) : Safe (MacPdu.fromBytes data) :=
  Safe.bind (MacPdu.safe_elementsFrom data 0) fun _ _ => Checked.safe_ok _

end safety

/-! ### Round trip -/

namespace MacSubheader

variable {data rest : List UInt8} {i len : ℕ} {lcid : UInt8}

/-- A six-bit LCID is read back from the first byte, with and without the format bit. -/
theorem lcid_bits (h : lcid < 64) : lcid &&& 0x3F = lcid ∧ (0x40 ||| lcid) &&& 0x3F = lcid ∧
    lcid &&& 0x40 = 0 ∧ (0x40 ||| lcid) &&& 0x40 ≠ 0 := by
  have hall : ∀ n < 64, UInt8.ofNat n &&& 0x3F = UInt8.ofNat n ∧
      (0x40 ||| UInt8.ofNat n) &&& 0x3F = UInt8.ofNat n ∧ UInt8.ofNat n &&& 0x40 = 0 ∧
      (0x40 ||| UInt8.ofNat n) &&& 0x40 ≠ 0 := by decide
  simpa using hall lcid.toNat (UInt8.lt_iff_toNat_lt.mp h)

theorem fromBytes_fixed (h : lcid < 64) (hlcid : lcid = macLcidPadding ∨ lcid = macLcidDrxCmd)
    (hd : data.drop i = lcid :: rest) : fromBytes data i = .ok (⟨lcid, none⟩, 1) := by
  have hlen := congrArg List.length hd
  rw [List.length_drop, List.length_cons] at hlen
  rw [fromBytes, if_neg (by omega), Checked.bind_of_eq_ok _ (Checked.index_of_drop hd),
    (lcid_bits h).1]
  exact if_pos hlcid

theorem fromBytes_toBytes (h : lcid < 64) (hpad : lcid ≠ macLcidPadding)
    (hdrx : lcid ≠ macLcidDrxCmd) (hlen : len < 65536)
    (hd : data.drop i = (⟨lcid, some len⟩ : MacSubheader).toBytes ++ rest) :
    fromBytes data i = .ok (⟨lcid, some len⟩,
      (⟨lcid, some len⟩ : MacSubheader).toBytes.length) := by
  obtain ⟨hlow, hhigh, hclear, hset⟩ := lcid_bits h
  simp only [toBytes, hlow] at hd ⊢
  have hdlen := congrArg List.length hd
  rw [List.length_drop, List.length_append] at hdlen
  split_ifs at hd hdlen ⊢ with hshort
  · simp only [List.length_cons, List.length_nil] at hdlen ⊢
    have htail := Checked.drop_succ_of_drop hd
    rw [fromBytes, if_neg (by omega), Checked.bind_of_eq_ok _ (Checked.index_of_drop hd), hlow]
    dsimp only
    rw [if_neg (by tauto), if_neg (by simp [hclear]), if_neg (by omega),
      Checked.bind_of_eq_ok _ (Checked.index_of_drop htail), UInt8.toNat_ofNat',
      Nat.mod_eq_of_lt (by omega)]
  · simp only [List.length_cons, toBeBytes16, List.length_nil] at hdlen ⊢
    have htail := Checked.drop_succ_of_drop hd
    have htail' := Checked.drop_succ_of_drop htail
    rw [fromBytes, if_neg (by omega), Checked.bind_of_eq_ok _ (Checked.index_of_drop hd), hhigh]
    dsimp only
    rw [if_neg (by tauto), if_pos hset, if_neg (by omega),
      Checked.bind_of_eq_ok _ (Checked.index_of_drop htail),
      Checked.bind_of_eq_ok _ (Checked.index_of_drop htail'), beWord_toBeBytes16 hlen]

end MacSubheader

namespace MacPduElement

variable {e : MacPduElement}

example : (MacPduElement.sdu 4 [7, 8]).toBytes = [4, 2, 7, 8] := by decide +kernel

/-- The fields are in range: six-bit LCIDs of logical channels, lengths of sixteen bits, indices of
two and six bits. -/
def InRange : MacPduElement → Prop
  | .sdu lcid payload => lcid ≤ 32 ∧ payload.length ≤ 65535
  | .shortBsr lcgId bufferSizeIndex => lcgId < 4 ∧ bufferSizeIndex < 64
  | .longBsr bufferSizes => ∀ b ∈ bufferSizes.toList, b < 64
  | .cRnti _ => True
  | .timingAdvanceCommand tagId taCommand => tagId < 4 ∧ taCommand < 64
  | .singleEntryPhr powerHeadroom pcmax => powerHeadroom < 64 ∧ pcmax < 64
  | .padding _ => True

def isPadding : MacPduElement → Bool
  | .padding _ => true
  | _ => false

def isLongBsr : MacPduElement → Bool
  | .longBsr _ => true
  | _ => false

theorem pair_bits {a b : UInt8} (ha : a < 4) (hb : b < 64) :
    ((((a &&& 0x03) <<< 6) ||| (b &&& 0x3F)) >>> 6) &&& 0x03 = a ∧
      (((a &&& 0x03) <<< 6) ||| (b &&& 0x3F)) &&& 0x3F = b := by
  have hall : ∀ m < 4, ∀ n < 64,
      ((((UInt8.ofNat m &&& 0x03) <<< 6) ||| (UInt8.ofNat n &&& 0x3F)) >>> 6) &&& 0x03 =
        UInt8.ofNat m ∧
      (((UInt8.ofNat m &&& 0x03) <<< 6) ||| (UInt8.ofNat n &&& 0x3F)) &&& 0x3F = UInt8.ofNat n := by
    decide +kernel
  simpa using hall a.toNat (UInt8.lt_iff_toNat_lt.mp ha) b.toNat (UInt8.lt_iff_toNat_lt.mp hb)

theorem lcid_spec (h : e.InRange) (hpad : e.isPadding = false) (hlong : e.isLongBsr = false) :
    e.lcid < 64 ∧ e.lcid ≠ macLcidPadding ∧ e.lcid ≠ macLcidDrxCmd := by
  cases e with
  | sdu lcid payload =>
    obtain ⟨hle, -⟩ := h
    rw [UInt8.le_iff_toNat_le] at hle
    refine ⟨UInt8.lt_iff_toNat_lt.mpr (hle.trans_lt (by decide)), ?_, ?_⟩
    · rintro rfl
      revert hle
      decide
    · rintro rfl
      revert hle
      decide
  | padding n => cases hpad
  | longBsr b => cases hlong
  | _ =>
    simp only [MacPduElement.lcid]
    decide

theorem length_payloadBytes (h : e.InRange) (hpad : e.isPadding = false) :
    e.payloadBytes.length < 65536 := by
  cases e with
  | sdu lcid payload => exact Nat.lt_succ_of_le h.2
  | padding n => cases hpad
  | longBsr b => simp [payloadBytes]
  | _ => simp [payloadBytes, toBeBytes16]

theorem ofPayload_payloadBytes (h : e.InRange) (hpad : e.isPadding = false)
    (hlong : e.isLongBsr = false) : ofPayload e.lcid e.payloadBytes = .ok e := by
  cases e with
  | sdu l payload =>
    obtain ⟨hle, -⟩ := h
    rw [UInt8.le_iff_toNat_le] at hle
    have hne : ∀ l' : UInt8, 32 < l'.toNat → l ≠ l' := by
      rintro l' hl rfl
      exact absurd hle (not_le.mpr hl)
    rw [ofPayload, lcid, if_neg (hne _ (by decide)), if_neg (hne _ (by decide)),
      if_neg (hne _ (by decide)), if_neg (hne _ (by decide)), payloadBytes]
  | shortBsr a b =>
    obtain ⟨hhigh, hlow⟩ := pair_bits h.1 h.2
    rw [ofPayload, lcid, if_pos rfl, payloadBytes, if_neg (by simp), Checked.index_cons_zero,
      Checked.ok_bind, hhigh, hlow]
  | longBsr b => cases hlong
  | cRnti c =>
    rw [ofPayload, lcid, if_neg (by decide), if_pos rfl, payloadBytes, toBeBytes16,
      if_neg (by simp), Checked.index_cons_zero, Checked.ok_bind, Checked.index_cons_succ,
      Checked.index_cons_zero, Checked.ok_bind, beWord_toBeBytes16 c.toNat_lt, UInt16.ofNat_toNat]
  | timingAdvanceCommand a b =>
    obtain ⟨hhigh, hlow⟩ := pair_bits h.1 h.2
    rw [ofPayload, lcid, if_neg (by decide), if_neg (by decide), if_pos rfl, payloadBytes,
      if_neg (by simp), Checked.index_cons_zero, Checked.ok_bind, hhigh, hlow]
  | singleEntryPhr a b =>
    have hbits : ∀ c : UInt8, c < 64 → c &&& 0x3F &&& 0x3F = c := by
      intro c hc
      rw [(MacSubheader.lcid_bits hc).1, (MacSubheader.lcid_bits hc).1]
    rw [ofPayload, lcid, if_neg (by decide), if_neg (by decide), if_neg (by decide), if_pos rfl,
      payloadBytes, if_neg (by simp), Checked.index_cons_zero, Checked.ok_bind,
      Checked.index_cons_succ, Checked.index_cons_zero, Checked.ok_bind, hbits a h.1, hbits b h.2]
  | padding n => cases hpad

theorem subheader_eq (h : e.InRange) (hpad : e.isPadding = false) :
    e.subheader = ⟨e.lcid, some e.payloadBytes.length⟩ := by
  have hlen := length_payloadBytes h hpad
  cases e with
  | padding n => cases hpad
  | _ => exact congrArg (fun n => (⟨_, some n⟩ : MacSubheader)) (Nat.mod_eq_of_lt hlen)

end MacPduElement

namespace MacPdu

variable {data : List UInt8} {es : List MacPduElement} {offset : ℕ}

theorem elementsFrom_of_padding {hdrLen : ℕ} {length : Option ℕ}
    (h : MacSubheader.fromBytes data offset = .ok (⟨macLcidPadding, length⟩, hdrLen)) :
    elementsFrom data offset = .ok [.padding (data.length - (offset + hdrLen))] := by
  rw [elementsFrom, if_pos (MacSubheader.one_le_of_fromBytes h).1]
  split
  · simp_all
  · simp_all
  · rename_i heq
    obtain ⟨rfl, rfl⟩ := Prod.mk.inj (Checked.ok.inj (h.symm.trans heq))
    rw [if_pos rfl]

theorem elementsFrom_of_fixed {lcid : UInt8} {hdrLen : ℕ} (hlcid : lcid ≠ macLcidPadding)
    (h : MacSubheader.fromBytes data offset = .ok (⟨lcid, none⟩, hdrLen)) :
    elementsFrom data offset = .error () := by
  rw [elementsFrom, if_pos (MacSubheader.one_le_of_fromBytes h).1]
  split
  · simp_all
  · simp_all
  · rename_i heq
    obtain ⟨rfl, rfl⟩ := Prod.mk.inj (Checked.ok.inj (h.symm.trans heq))
    rw [if_neg hlcid]

theorem elementsFrom_of_ok {lcid : UInt8} {hdrLen payloadLen : ℕ} (hlcid : lcid ≠ macLcidPadding)
    (h : MacSubheader.fromBytes data offset = .ok (⟨lcid, some payloadLen⟩, hdrLen)) :
    elementsFrom data offset =
      if data.length < offset + hdrLen + payloadLen then .error ()
      else (slice data (offset + hdrLen) (offset + hdrLen + payloadLen)).bind fun payload =>
        (MacPduElement.ofPayload lcid payload).bind fun element =>
        (elementsFrom data (offset + hdrLen + payloadLen)).bind fun rest =>
          .ok (element :: rest) := by
  rw [elementsFrom, if_pos (MacSubheader.one_le_of_fromBytes h).1]
  split
  · simp_all
  · simp_all
  · rename_i heq
    obtain ⟨rfl, rfl⟩ := Prod.mk.inj (Checked.ok.inj (h.symm.trans heq))
    rw [if_neg hlcid]

/-- The element at a position is read, and the rest from the position behind it. -/
theorem elementsFrom_cons {e : MacPduElement} {rest : List UInt8} (hre : e.InRange)
    (hp : e.isPadding = false) (hlb : e.isLongBsr = false) (hle : offset ≤ data.length)
    (hd : data.drop offset = e.toBytes ++ rest) :
    data.drop (offset + e.toBytes.length) = rest ∧ offset + e.toBytes.length ≤ data.length ∧
      elementsFrom data offset =
        (elementsFrom data (offset + e.toBytes.length)).bind fun es => .ok (e :: es) := by
  have hrest := congrArg (List.drop e.toBytes.length) hd
  rw [List.drop_drop, List.drop_left] at hrest
  have hlen := congrArg List.length hd
  rw [List.length_drop, List.length_append] at hlen
  refine ⟨hrest, by omega, ?_⟩
  rw [MacPduElement.toBytes, MacPduElement.subheader_eq hre hp, List.append_assoc] at hd
  rw [MacPduElement.toBytes, MacPduElement.subheader_eq hre hp, List.length_append] at hlen ⊢
  rw [← Nat.add_assoc offset]
  obtain ⟨hlcid, hnpad, hndrx⟩ := MacPduElement.lcid_spec hre hp hlb
  have hsub := MacSubheader.fromBytes_toBytes hlcid hnpad hndrx
    (MacPduElement.length_payloadBytes hre hp) hd
  have hdrop :=
    congrArg (List.drop (⟨e.lcid, some e.payloadBytes.length⟩ : MacSubheader).toBytes.length) hd
  rw [List.drop_drop, List.drop_left] at hdrop
  rw [elementsFrom_of_ok hnpad hsub, if_neg (by omega),
    Checked.bind_of_eq_ok _ (Checked.slice_of_drop (by omega) hdrop),
    Checked.bind_of_eq_ok _ (MacPduElement.ofPayload_payloadBytes hre hp hlb)]

/-- What is read from a position where the rest of the data is a list of elements in range, with
padding nowhere but at the end. -/
theorem elementsFrom_toBytes (hr : ∀ e ∈ es, e.InRange)
    (hpad : ∀ e ∈ es.dropLast, e.isPadding = false) (hle : offset ≤ data.length)
    (hd : data.drop offset = es.flatMap (·.toBytes)) :
    elementsFrom data offset = if es.any (·.isLongBsr) then .error () else .ok es := by
  induction es generalizing offset with
  | nil =>
    have hlen := congrArg List.length hd
    simp only [List.length_drop, List.flatMap_nil, List.length_nil] at hlen
    rw [elementsFrom, if_neg (by omega)]
    rfl
  | cons e es ih =>
    rw [List.flatMap_cons] at hd
    have hre := hr e List.mem_cons_self
    cases hp : e.isPadding with
    | true =>
      rw [MacPduElement.toBytes] at hd
      have hlen := congrArg List.length hd
      simp only [List.length_drop, List.length_append] at hlen
      obtain ⟨n, rfl⟩ : ∃ n, e = .padding n := by
        cases e with
        | padding n => exact ⟨n, rfl⟩
        | _ => cases hp
      obtain rfl : es = [] := by
        by_contra hne
        have := hpad (.padding n)
          (by rw [List.dropLast_cons_of_ne_nil hne]; exact List.mem_cons_self)
        cases this
      have hbytes : (MacPduElement.padding n).subheader.toBytes = [macLcidPadding] := by
        simp only [MacPduElement.subheader, MacPduElement.lcid, MacSubheader.toBytes]
        decide
      rw [hbytes, List.append_assoc, List.singleton_append] at hd
      have hsub := MacSubheader.fromBytes_fixed (by decide) (.inl rfl) hd
      simp only [MacPduElement.payloadBytes, List.length_replicate, List.flatMap_nil,
        List.length_nil] at hlen
      have hhdr : (MacPduElement.padding n).subheader.toBytes.length = 1 := rfl
      have hn : data.length - (offset + 1) = n := by omega
      rw [elementsFrom_of_padding hsub, hn]
      rfl
    | false =>
      cases hlb : e.isLongBsr with
      | true =>
        rw [MacPduElement.toBytes, MacPduElement.subheader_eq hre hp, List.append_assoc] at hd
        obtain ⟨sizes, rfl⟩ : ∃ sizes, e = .longBsr sizes := by
          cases e with
          | longBsr sizes => exact ⟨sizes, rfl⟩
          | _ => cases hlb
        have hlb9 : (MacPduElement.longBsr sizes).payloadBytes.length = 9 := by
          simp [MacPduElement.payloadBytes]
        have hbytes : (⟨(MacPduElement.longBsr sizes).lcid, some 9⟩ : MacSubheader).toBytes =
            [macLcidDrxCmd, 9] := by
          simp only [MacPduElement.lcid, MacSubheader.toBytes]
          decide
        rw [hlb9, hbytes, List.cons_append] at hd
        have hsub := MacSubheader.fromBytes_fixed (by decide) (.inr rfl) hd
        rw [elementsFrom_of_fixed (by decide) hsub]
        simp [MacPduElement.isLongBsr]
      | false =>
        obtain ⟨hrest, hle', hcons⟩ := elementsFrom_cons hre hp hlb hle hd
        have hnext := ih (fun x hx => hr x (List.mem_cons_of_mem e hx))
          (fun x hx => hpad x (by
            cases es with
            | nil => cases hx
            | cons y es => exact List.mem_cons_of_mem e hx))
          hle' hrest
        rw [hcons, hnext, List.any_cons, hlb, Bool.false_or]
        split <;> rfl

/-- The elements that the claim of a round trip is about. -/
structure WellFormed (p : MacPdu) : Prop where
  inRange : ∀ e ∈ p.elements, e.InRange
  paddingLast : ∀ e ∈ p.elements.dropLast, e.isPadding = false

theorem fromBytes_toBytes {p : MacPdu} (h : p.WellFormed) :
    fromBytes p.toBytes = if p.elements.any (·.isLongBsr) then .error () else .ok p := by
  rw [fromBytes, toBytes, elementsFrom_toBytes h.inRange h.paddingLast
    (Nat.zero_le _) List.drop_zero]
  split_ifs <;> rfl

/-- A well-formed PDU is read back exactly when it has no long buffer status report; no data makes
the reader look outside it. -/
theorem mac_pdu_codec {p : MacPdu} (h : p.WellFormed) :
    (fromBytes p.toBytes = .ok p ↔ ∀ e ∈ p.elements, e.isLongBsr = false) ∧
      ∀ data, Safe (fromBytes data) := by
  refine ⟨?_, safe_fromBytes⟩
  rw [fromBytes_toBytes h]
  split_ifs with hany
  · refine iff_of_false (by simp) fun hall => ?_
    obtain ⟨e, he, hlong⟩ := List.any_eq_true.mp hany
    rw [hall e he] at hlong
    cases hlong
  · refine iff_of_true rfl fun e he => ?_
    by_contra hlong
    exact hany (List.any_eq_true.mpr ⟨e, he, by simpa using hlong⟩)

/-- An SDU with a long length field, a control element and padding. -/
theorem mac_pdu_codec_padded :
    fromBytes (toBytes ⟨[.sdu 4 (List.replicate 300 7), .cRnti 0xABCD, .padding 3]⟩) =
    .ok ⟨[.sdu 4 (List.replicate 300 7), .cRnti 0xABCD, .padding 3]⟩ := by
  refine (mac_pdu_codec ⟨?_, ?_⟩).1.mpr ?_
  · simp only [List.forall_mem_cons, MacPduElement.InRange, List.length_replicate]
    exact ⟨by decide, trivial, trivial, by simp⟩
  · exact List.forall_mem_cons.mpr ⟨rfl, List.forall_mem_cons.mpr ⟨rfl, by simp⟩⟩
  · exact List.forall_mem_cons.mpr ⟨rfl, List.forall_mem_cons.mpr
      ⟨rfl, List.forall_mem_cons.mpr ⟨rfl, by simp⟩⟩⟩

/-- The LCID of the long buffer status report is read as that of the DRX command, which has no
length. -/
theorem mac_pdu_long_bsr :
    WellFormed ⟨[.longBsr (Vector.replicate 8 5)]⟩ ∧
      fromBytes (toBytes ⟨[.longBsr (Vector.replicate 8 5)]⟩) ≠
        .ok ⟨[.longBsr (Vector.replicate 8 5)]⟩ := by
  have hform : WellFormed ⟨[.longBsr (Vector.replicate 8 5)]⟩ := by
    refine ⟨?_, by simp⟩
    intro e he
    obtain rfl := List.mem_singleton.mp he
    intro b hb
    obtain ⟨-, rfl⟩ : 8 ≠ 0 ∧ b = 5 := by simpa using hb
    decide
  refine ⟨hform, ?_⟩
  rw [fromBytes_toBytes hform, if_pos (by simp [MacPduElement.isLongBsr])]
  exact fun heq => by cases heq

end MacPdu

end ToyTcpip.Mac

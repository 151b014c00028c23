import ToyTcpip.Bytes
import ToyTcpip.Icmpv6.SearchList

/-! Domain names of `dns.rs`, with compression. -/
namespace ToyTcpip.Dns

open Checked (index slice Safe bind_eq_ok index_eq_ok slice_eq_ok)
open Utf8 (asBytes fromUtf8Lossy)

inductive DnsError where
  | packetTooShort (len : ℕ)
  | invalidCompressionPointer (offset : ℕ)
  | compressionLoop
  | reservedLabelType (value : UInt8)
  | nameTooLong
  deriving DecidableEq, Repr

abbrev Parsed (α : Type) := Checked DnsError α

def encodeQname (hostname : String) : List UInt8 := ToyTcpip.encodeQname hostname

/-- How many offsets the walk has not been to. -/
def unvisited (n : ℕ) (visited : List ℕ) : ℕ := (Finset.range n \ visited.toFinset).card

theorem unvisited_lt {n offset : ℕ} {visited : List ℕ} (hlt : offset < n)
    (hnew : offset ∉ visited) : unvisited n (offset :: visited) < unvisited n visited := by
  apply Finset.card_lt_card
  rw [Finset.ssubset_iff_of_subset]
  · exact ⟨offset, by simp [hlt, hnew], by simp⟩
  · intro k
    simp only [Finset.mem_sdiff, List.toFinset_cons, Finset.mem_insert, not_or, List.mem_toFinset]
    rintro ⟨hk, -, hv⟩
    exact ⟨hk, hv⟩

/-- The loop of `decode_qname`. No offset is read twice, so it comes to an end. -/
def decodeFrom (data : List UInt8) (offset : ℕ) (visited : List ℕ) (jumped : Bool)
    (returnOffset wireLen : ℕ) (labels : List String) : Parsed (String × ℕ) :=
  if offset ≥ data.length then .error (.packetTooShort data.length)
  else if offset ∈ visited then .error .compressionLoop
  else
    (index data offset).bind fun len =>
      if len = 0 then .ok (".".intercalate labels, if jumped then returnOffset else offset + 1)
      else if len &&& 0xC0 = 0xC0 then
        if offset + 1 ≥ data.length then .error (.packetTooShort data.length)
        else
          (index data (offset + 1)).bind fun low =>
            let pointer := (len &&& 0x3F).toNat <<< 8 ||| low.toNat
            if pointer ≥ data.length then .error (.invalidCompressionPointer pointer)
            else
              decodeFrom data pointer (offset :: visited) true
                (if jumped then returnOffset else offset + 2) wireLen labels
      else if len &&& 0xC0 ≠ 0 then .error (.reservedLabelType (len &&& 0xC0))
      else if wireLen + (1 + len.toNat) > 255 then .error .nameTooLong
      else if offset + 1 + len.toNat > data.length then .error (.packetTooShort data.length)
      else
        (slice data (offset + 1) (offset + 1 + len.toNat)).bind fun label =>
          decodeFrom data (offset + 1 + len.toNat) (offset :: visited) jumped returnOffset
            (wireLen + (1 + len.toNat)) (labels ++ [fromUtf8Lossy label])
termination_by unvisited data.length visited
decreasing_by all_goals exact unvisited_lt (by omega) (by assumption)

def decodeQname (data : List UInt8) (offset : ℕ) : Parsed (String × ℕ) :=
  decodeFrom data offset [] false offset 1 []

/-! ### Where a name leads -/

/-- The labels of the name at `offset`, pointers followed, and the offsets that are read on the
way. -/
inductive Expands (data : List UInt8) : ℕ → List ℕ → List (List UInt8) → Prop
  | stop {offset : ℕ} (h : data[offset]? = some 0) : Expands data offset [offset] []
  | label {offset : ℕ} {len : UInt8} {trail : List ℕ} {labels : List (List UInt8)}
      (h : data[offset]? = some len) (hpos : 0 < len.toNat) (hshort : len.toNat < 64)
      (hend : offset + 1 + len.toNat ≤ data.length)
      (rest : Expands data (offset + 1 + len.toNat) trail labels) :
      Expands data offset (offset :: trail)
        ((data.drop (offset + 1)).take len.toNat :: labels)
  | pointer {offset : ℕ} {len low : UInt8} {trail : List ℕ} {labels : List (List UInt8)}
      (h : data[offset]? = some len) (hlen : 192 ≤ len.toNat) (hlow : data[offset + 1]? = some low)
      (rest : Expands data (len.toNat % 64 * 256 + low.toNat) trail labels) :
      Expands data offset (offset :: trail) labels

/-- The octets of labels with their lengths. -/
def wireLength (labels : List (List UInt8)) : ℕ := (labels.map fun label => 1 + label.length).sum

/-- The end of the bytes that stand for the name in its place: after the zero or the pointer. -/
def literalEnd (data : List UInt8) (offset : ℕ) : ℕ :=
  if offset < data.length then
    let len := data.getD offset 0
    if len = 0 then offset + 1
    else if 192 ≤ len.toNat then offset + 2
    else literalEnd data (offset + 1 + len.toNat)
  else offset
termination_by data.length - offset

variable {data : List UInt8} {offset o : ℕ} {trail trail' : List ℕ}
  {labels labels' : List (List UInt8)}

@[simp] theorem wireLength_cons (label : List UInt8) :
    wireLength (label :: labels) = 1 + label.length + wireLength labels := rfl

theorem literalEnd_of_byte {len : UInt8} (h : data[offset]? = some len) :
    literalEnd data offset =
      if len = 0 then offset + 1
      else if 192 ≤ len.toNat then offset + 2
      else literalEnd data (offset + 1 + len.toNat) := by
  obtain ⟨hlt, rfl⟩ := List.getElem?_eq_some_iff.mp h
  rw [literalEnd, if_pos hlt]
  simp only [List.getD_eq_getElem?_getD, h, Option.getD_some]

theorem literalEnd_stop (h : data[offset]? = some 0) : literalEnd data offset = offset + 1 := by
  rw [literalEnd_of_byte h, if_pos rfl]

theorem literalEnd_pointer {len : UInt8} (h : data[offset]? = some len) (hlen : 192 ≤ len.toNat) :
    literalEnd data offset = offset + 2 := by
  rw [literalEnd_of_byte h, if_neg, if_pos hlen]
  rintro rfl
  simp at hlen

theorem literalEnd_label {len : UInt8} (h : data[offset]? = some len) (hpos : 0 < len.toNat)
    (hshort : len.toNat < 64) :
    literalEnd data offset = literalEnd data (offset + 1 + len.toNat) := by
  rw [literalEnd_of_byte h, if_neg, if_neg (by omega)]
  rintro rfl
  simp at hpos

/-- The bytes of a name are read one way only. -/
theorem Expands.unique (h : Expands data offset trail labels)
    (h' : Expands data offset trail' labels') : trail = trail' ∧ labels = labels' := by
  induction h generalizing trail' labels' with
  | stop h =>
    cases h' with
    | stop => exact ⟨rfl, rfl⟩
    | label h' hpos =>
      rw [h] at h'
      cases h'
      simp at hpos
    | pointer h' hlen =>
      rw [h] at h'
      cases h'
      simp at hlen
  | label h hpos hshort _ _ ih =>
    cases h' with
    | stop h' =>
      rw [h] at h'
      cases h'
      simp at hpos
    | label h' _ _ _ rest =>
      rw [h] at h'
      cases h'
      obtain ⟨rfl, rfl⟩ := ih rest
      exact ⟨rfl, rfl⟩
    | pointer h' hlen =>
      rw [h] at h'
      cases h'
      omega
  | pointer h hlen hlow _ ih =>
    cases h' with
    | stop h' =>
      rw [h] at h'
      cases h'
      simp at hlen
    | label h' _ hshort =>
      rw [h] at h'
      cases h'
      omega
    | pointer h' _ hlow' rest =>
      rw [h] at h'
      rw [hlow] at hlow'
      cases h'
      cases hlow'
      obtain ⟨rfl, rfl⟩ := ih rest
      exact ⟨rfl, rfl⟩

/-- From every offset of the trail the rest of it is followed. -/
theorem Expands.suffix (h : Expands data offset trail labels) {o : ℕ} (ho : o ∈ trail) :
    ∃ rest labels', Expands data o rest labels' ∧ rest.length ≤ trail.length := by
  induction h with
  | @stop offset h =>
    obtain rfl := List.mem_singleton.mp ho
    exact ⟨_, _, .stop h, le_rfl⟩
  | label h hpos hshort hend rest ih =>
    rcases List.mem_cons.mp ho with rfl | ho
    · exact ⟨_, _, .label h hpos hshort hend rest, le_rfl⟩
    · obtain ⟨rest', labels', hrest, hle⟩ := ih ho
      exact ⟨rest', labels', hrest, by rw [List.length_cons]; omega⟩
  | pointer h hlen hlow rest ih =>
    rcases List.mem_cons.mp ho with rfl | ho
    · exact ⟨_, _, .pointer h hlen hlow rest, le_rfl⟩
    · obtain ⟨rest', labels', hrest, hle⟩ := ih ho
      exact ⟨rest', labels', hrest, by rw [List.length_cons]; omega⟩

/-- A name that ends does not come back to where it was. -/
theorem Expands.not_mem (h : Expands data offset (offset :: trail) labels)
    (rest : Expands data o trail labels') : offset ∉ trail := by
  intro hmem
  obtain ⟨again, labels'', hagain, hle⟩ := rest.suffix hmem
  have heq := (h.unique hagain).1
  rw [← heq, List.length_cons] at hle
  omega

theorem and_192_eq (b : UInt8) : b &&& 0xC0 = 0xC0 ↔ 192 ≤ b.toNat :=
  @forall_uint8 (fun b => b &&& 0xC0 = 0xC0 ↔ 192 ≤ b.toNat) (by decide +kernel) b

theorem and_192_eq_zero (b : UInt8) : b &&& 0xC0 = 0 ↔ b.toNat < 64 :=
  @forall_uint8 (fun b => b &&& 0xC0 = 0 ↔ b.toNat < 64) (by decide +kernel) b

theorem toNat_and_63 (b : UInt8) : (b &&& 0x3F).toNat = b.toNat % 64 :=
  @forall_uint8 (fun b => (b &&& 0x3F).toNat = b.toNat % 64) (by decide +kernel) b

theorem pointer_eq (hi low : UInt8) :
    (hi &&& 0x3F).toNat <<< 8 ||| low.toNat = hi.toNat % 64 * 256 + low.toNat := by
  rw [toNat_and_63, ← Nat.shiftLeft_add_eq_or_of_lt (by exact low.toNat_lt), Nat.shiftLeft_eq]

variable {visited : List ℕ} {jumped : Bool} {returnOffset wireLen stop : ℕ} {texts : List String}
  {name : String}

/-! ### The loop follows the name -/

theorem decodeFrom_stop (h : data[offset]? = some 0) (hnew : offset ∉ visited) :
    decodeFrom data offset visited jumped returnOffset wireLen texts =
      .ok (".".intercalate texts, if jumped then returnOffset else offset + 1) := by
  have hlt := (List.getElem?_eq_some_iff.mp h).1
  rw [decodeFrom, if_neg (by omega), if_neg hnew, index_eq_ok.mpr h, Checked.ok_bind, if_pos rfl]

theorem decodeFrom_pointer {len low : UInt8} (h : data[offset]? = some len) (hlen : 192 ≤ len.toNat)
    (hlow : data[offset + 1]? = some low) (hnew : offset ∉ visited) :
    decodeFrom data offset visited jumped returnOffset wireLen texts =
      if len.toNat % 64 * 256 + low.toNat ≥ data.length then
        .error (.invalidCompressionPointer (len.toNat % 64 * 256 + low.toNat))
      else
        decodeFrom data (len.toNat % 64 * 256 + low.toNat) (offset :: visited) true
          (if jumped then returnOffset else offset + 2) wireLen texts := by
  have hlt := (List.getElem?_eq_some_iff.mp h).1
  have hlt' := (List.getElem?_eq_some_iff.mp hlow).1
  have hne : len ≠ 0 := by
    rintro rfl
    simp at hlen
  rw [decodeFrom, if_neg (by omega), if_neg hnew, index_eq_ok.mpr h, Checked.ok_bind, if_neg hne,
    if_pos ((and_192_eq len).mpr hlen), if_neg (by omega), index_eq_ok.mpr hlow, Checked.ok_bind]
  simp only [pointer_eq]

theorem decodeFrom_cut {len : UInt8} (h : data[offset]? = some len) (hlen : 192 ≤ len.toNat)
    (hcut : data[offset + 1]? = none) (hnew : offset ∉ visited) :
    decodeFrom data offset visited jumped returnOffset wireLen texts =
      .error (.packetTooShort data.length) := by
  have hlt := (List.getElem?_eq_some_iff.mp h).1
  have hge := List.getElem?_eq_none_iff.mp hcut
  have hne : len ≠ 0 := by
    rintro rfl
    simp at hlen
  rw [decodeFrom, if_neg (by omega), if_neg hnew, index_eq_ok.mpr h, Checked.ok_bind, if_neg hne,
    if_pos ((and_192_eq len).mpr hlen), if_pos (by omega)]

theorem decodeFrom_label {len : UInt8} (h : data[offset]? = some len) (hpos : 0 < len.toNat)
    (hshort : len.toNat < 64) (hnew : offset ∉ visited) :
    decodeFrom data offset visited jumped returnOffset wireLen texts =
      if wireLen + (1 + len.toNat) > 255 then .error .nameTooLong
      else if offset + 1 + len.toNat > data.length then .error (.packetTooShort data.length)
      else
        decodeFrom data (offset + 1 + len.toNat) (offset :: visited) jumped returnOffset
          (wireLen + (1 + len.toNat))
          (texts ++ [fromUtf8Lossy ((data.drop (offset + 1)).take len.toNat)]) := by
  have hlt := (List.getElem?_eq_some_iff.mp h).1
  have hne : len ≠ 0 := by
    rintro rfl
    simp at hpos
  have hplain : len &&& 0xC0 = 0 := (and_192_eq_zero len).mpr hshort
  rw [decodeFrom, if_neg (by omega), if_neg hnew, index_eq_ok.mpr h, Checked.ok_bind, if_neg hne,
    if_neg (by rw [hplain]; decide), if_neg (by simp [hplain])]
  split_ifs with hlong hend
  · rfl
  · rfl
  · rw [slice_eq_ok (by omega) (by omega), Checked.ok_bind, List.drop_take,
      Nat.add_sub_cancel_left]

theorem decodeFrom_reserved {len : UInt8} (h : data[offset]? = some len) (hlow : 64 ≤ len.toNat)
    (hhigh : len.toNat < 192) (hnew : offset ∉ visited) :
    decodeFrom data offset visited jumped returnOffset wireLen texts =
      .error (.reservedLabelType (len &&& 0xC0)) := by
  have hlt := (List.getElem?_eq_some_iff.mp h).1
  have hne : len ≠ 0 := by
    rintro rfl
    simp at hlow
  rw [decodeFrom, if_neg (by omega), if_neg hnew, index_eq_ok.mpr h, Checked.ok_bind, if_neg hne,
    if_neg ((and_192_eq len).not.mpr (by omega)), if_pos ((and_192_eq_zero len).not.mpr (by omega))]

/-- What a byte at the start of a label can be. -/
theorem length_byte_cases (len : UInt8) : len = 0 ∨ 0 < len.toNat ∧ len.toNat < 64 ∨
    64 ≤ len.toNat ∧ len.toNat < 192 ∨ 192 ≤ len.toNat := by
  rcases Nat.eq_zero_or_pos len.toNat with hzero | hpos
  · exact .inl (UInt8.toNat_inj.mp hzero)
  · omega

theorem decodeFrom_sound (hwire : wireLen ≤ 255)
    (h : decodeFrom data offset visited jumped returnOffset wireLen texts = .ok (name, stop)) :
    ∃ trail labels, Expands data offset trail labels ∧ wireLen + wireLength labels ≤ 255 ∧
      name = ".".intercalate (texts ++ labels.map fromUtf8Lossy) ∧
      stop = if jumped then returnOffset else literalEnd data offset := by
  induction hm : unvisited data.length visited using Nat.strong_induction_on
    generalizing offset visited jumped returnOffset wireLen texts with
  | h m ih =>
    subst hm
    by_cases hlt : offset < data.length
    case neg =>
      rw [decodeFrom, if_pos (by omega)] at h
      cases h
    by_cases hnew : offset ∈ visited
    case pos =>
      rw [decodeFrom, if_neg (by omega), if_pos hnew] at h
      cases h
    have hfewer := unvisited_lt hlt hnew
    have hbyte : data[offset]? = some data[offset] := List.getElem?_eq_getElem hlt
    generalize data[offset] = len at hbyte
    obtain rfl | ⟨hpos, hshort⟩ | ⟨hlow, hhigh⟩ | hlen := length_byte_cases len
    · rw [decodeFrom_stop hbyte hnew] at h
      cases h
      refine ⟨_, _, .stop hbyte, hwire, by simp, ?_⟩
      rw [literalEnd_stop hbyte]
    · rw [decodeFrom_label hbyte hpos hshort hnew] at h
      split_ifs at h with hlong hend
      obtain ⟨trail, labels, hrest, hsum, hname, hstop⟩ := ih _ hfewer (by omega) h rfl
      refine ⟨_, _, .label hbyte hpos hshort (by omega) hrest, ?_, ?_, ?_⟩
      · rw [wireLength_cons, List.length_take, List.length_drop]
        omega
      · rw [hname, List.map_cons, List.append_assoc, List.singleton_append]
      · rw [hstop, literalEnd_label hbyte hpos hshort]
    · rw [decodeFrom_reserved hbyte hlow hhigh hnew] at h
      cases h
    · cases hnext : data[offset + 1]? with
      | none =>
        rw [decodeFrom_cut hbyte hlen hnext hnew] at h
        cases h
      | some low =>
        rw [decodeFrom_pointer hbyte hlen hnext hnew] at h
        by_cases hout : len.toNat % 64 * 256 + low.toNat ≥ data.length
        case pos =>
          rw [if_pos hout] at h
          cases h
        rw [if_neg hout] at h
        obtain ⟨trail, labels, hrest, hsum, hname, hstop⟩ := ih _ hfewer hwire h rfl
        refine ⟨_, _, .pointer hbyte hlen hnext hrest, hsum, hname, ?_⟩
        rw [hstop, literalEnd_pointer hbyte hlen, if_pos rfl]

theorem Expands.lt_length (h : Expands data offset trail labels) : offset < data.length := by
  cases h with
  | stop h => exact (List.getElem?_eq_some_iff.mp h).1
  | label h => exact (List.getElem?_eq_some_iff.mp h).1
  | pointer h => exact (List.getElem?_eq_some_iff.mp h).1

theorem decodeFrom_complete (h : Expands data offset trail labels)
    (hnew : ∀ o ∈ trail, o ∉ visited) (hsum : wireLen + wireLength labels ≤ 255) :
    decodeFrom data offset visited jumped returnOffset wireLen texts =
      .ok (".".intercalate (texts ++ labels.map fromUtf8Lossy),
        if jumped then returnOffset else literalEnd data offset) := by
  induction h generalizing visited jumped returnOffset wireLen texts with
  | stop h =>
    rw [decodeFrom_stop h (hnew _ List.mem_cons_self), literalEnd_stop h]
    simp
  | @label offset len trail labels h hpos hshort hend rest ih =>
    have hfresh := (Expands.label h hpos hshort hend rest).not_mem rest
    rw [wireLength_cons, List.length_take, List.length_drop] at hsum
    have hthere : ∀ o ∈ trail, o ∉ offset :: visited := by
      intro o ho hmem
      rcases List.mem_cons.mp hmem with rfl | hmem
      · exact hfresh ho
      · exact hnew o (List.mem_cons_of_mem _ ho) hmem
    rw [decodeFrom_label h hpos hshort (hnew _ List.mem_cons_self), if_neg (by omega),
      if_neg (by omega), ih hthere (by omega), literalEnd_label h hpos hshort, List.map_cons,
      List.append_assoc, List.singleton_append]
  | @pointer offset len low trail labels h hlen hlow rest ih =>
    have hfresh := (Expands.pointer h hlen hlow rest).not_mem rest
    have hthere : ∀ o ∈ trail, o ∉ offset :: visited := by
      intro o ho hmem
      rcases List.mem_cons.mp hmem with rfl | hmem
      · exact hfresh ho
      · exact hnew o (List.mem_cons_of_mem _ ho) hmem
    have hin := rest.lt_length
    rw [decodeFrom_pointer h hlen hlow (hnew _ List.mem_cons_self), if_neg (by omega),
      ih hthere hsum, literalEnd_pointer h hlen]
    simp

/-- A name decodes exactly when its pointers lead to an end and it has at most 255 octets. -/
theorem decodeQname_eq_ok_iff : decodeQname data offset = .ok (name, stop) ↔
    ∃ trail labels, Expands data offset trail labels ∧ 1 + wireLength labels ≤ 255 ∧
      name = ".".intercalate (labels.map fromUtf8Lossy) ∧ stop = literalEnd data offset := by
  constructor
  · intro h
    obtain ⟨trail, labels, hrest, hsum, hname, hstop⟩ := decodeFrom_sound (by omega) h
    exact ⟨trail, labels, hrest, hsum, hname, hstop⟩
  · rintro ⟨trail, labels, hrest, hsum, rfl, rfl⟩
    rw [decodeQname, decodeFrom_complete hrest (by simp) hsum]
    simp

theorem safe_decodeFrom :
    Safe (decodeFrom data offset visited jumped returnOffset wireLen texts) := by
  induction hm : unvisited data.length visited using Nat.strong_induction_on
    generalizing offset visited jumped returnOffset wireLen texts with
  | h m ih =>
    subst hm
    by_cases hlt : offset < data.length
    case neg =>
      rw [decodeFrom, if_pos (by omega)]
      exact Checked.safe_error _
    by_cases hnew : offset ∈ visited
    case pos =>
      rw [decodeFrom, if_neg (by omega), if_pos hnew]
      exact Checked.safe_error _
    have hfewer := unvisited_lt hlt hnew
    have hbyte : data[offset]? = some data[offset] := List.getElem?_eq_getElem hlt
    generalize data[offset] = len at hbyte
    obtain rfl | ⟨hpos, hshort⟩ | ⟨hlow, hhigh⟩ | hlen := length_byte_cases len
    · rw [decodeFrom_stop hbyte hnew]
      exact Checked.safe_ok _
    · rw [decodeFrom_label hbyte hpos hshort hnew]
      exact Checked.safe_ite (fun _ => Checked.safe_error _) fun _ =>
        Checked.safe_ite (fun _ => Checked.safe_error _) fun _ => ih _ hfewer rfl
    · rw [decodeFrom_reserved hbyte hlow hhigh hnew]
      exact Checked.safe_error _
    · cases hnext : data[offset + 1]? with
      | none =>
        rw [decodeFrom_cut hbyte hlen hnext hnew]
        exact Checked.safe_error _
      | some low =>
        rw [decodeFrom_pointer hbyte hlen hnext hnew]
        exact Checked.safe_ite (fun _ => Checked.safe_error _) fun _ => ih _ hfewer rfl

theorem safe_decodeQname : Safe (decodeQname data offset) := safe_decodeFrom

/-! ### Names in their place -/

def encodeLabels (labels : List (List UInt8)) : List UInt8 :=
  labels.flatMap fun label => UInt8.ofNat label.length :: label

example : encodeLabels [[97], [98, 99]] = [1, 97, 2, 98, 99] := by decide +kernel

/-- Labels that a length byte can announce. -/
def Short (labels : List (List UInt8)) : Prop :=
  ∀ label ∈ labels, 0 < label.length ∧ label.length < 64

/-- Bytes that start with a name and go on with `post`: labels up to a zero, or up to a pointer that
leads to the other labels. -/
inductive Spells (data : List UInt8) : List UInt8 → List (List UInt8) → List UInt8 → Prop
  | plain {front : List (List UInt8)} {post : List UInt8} (h : Short front) :
      Spells data (encodeLabels front ++ 0 :: post) front post
  | pointer {front back : List (List UInt8)} {len low : UInt8} {trail : List ℕ} {post : List UInt8}
      (h : Short front) (hlen : 192 ≤ len.toNat)
      (hback : Expands data (len.toNat % 64 * 256 + low.toNat) trail back) :
      Spells data (encodeLabels front ++ len :: low :: post) (front ++ back) post

variable {front back : List (List UInt8)} {label bytes post : List UInt8} {e : ℕ}

theorem encodeLabels_cons : encodeLabels (label :: labels) =
    UInt8.ofNat label.length :: (label ++ encodeLabels labels) := rfl

theorem toNat_ofNat_short (h : label.length < 64) :
    (UInt8.ofNat label.length).toNat = label.length := by
  rw [UInt8.toNat_ofNat']
  omega

theorem Short.cons (hpos : 0 < label.length) (hshort : label.length < 64) (h : Short labels) :
    Short (label :: labels) := by
  intro l hl
  rcases List.mem_cons.mp hl with rfl | hl
  · exact ⟨hpos, hshort⟩
  · exact h l hl

theorem Spells.cons (hpos : 0 < label.length) (hshort : label.length < 64)
    (h : Spells data bytes labels post) :
    Spells data (UInt8.ofNat label.length :: (label ++ bytes)) (label :: labels) post := by
  cases h with
  | plain h =>
    rw [← List.append_assoc, ← List.cons_append, ← encodeLabels_cons]
    exact .plain (h.cons hpos hshort)
  | pointer h hlen hback =>
    rw [← List.append_assoc, ← List.cons_append, ← encodeLabels_cons, ← List.cons_append]
    exact .pointer (h.cons hpos hshort) hlen hback

theorem le_literalEnd : offset ≤ literalEnd data offset := by
  fun_induction literalEnd data offset with
  | case1 => omega
  | case2 => omega
  | case3 => omega
  | case4 => exact le_rfl

/-- The first byte behind `offset` and what follows it. -/
theorem drop_take_cons {len : UInt8} (h : data[offset]? = some len) (he : offset < e) :
    (data.take e).drop offset = len :: (data.take e).drop (offset + 1) := by
  obtain ⟨hlt, hbyte⟩ := List.getElem?_eq_some_iff.mp h
  have hlt' : offset < (data.take e).length := by
    rw [List.length_take]
    omega
  rw [List.drop_eq_getElem_cons hlt', List.getElem_take, hbyte]

/-- A name that ends before `e` is spelled by the bytes before `e`. -/
theorem Expands.spells (h : Expands data offset trail labels) (he : literalEnd data offset ≤ e) :
    Spells data ((data.take e).drop offset) labels
      ((data.take e).drop (literalEnd data offset)) := by
  induction h with
  | stop h =>
    rw [literalEnd_stop h] at he ⊢
    rw [drop_take_cons h (by omega)]
    exact @Spells.plain data [] _ (by simp [Short])
  | @label offset len trail labels h hpos hshort hend rest ih =>
    rw [literalEnd_label h hpos hshort] at he ⊢
    have hle := @le_literalEnd data (offset + 1 + len.toNat)
    have hlen : ((data.drop (offset + 1)).take len.toNat).length = len.toNat := by
      rw [List.length_take, List.length_drop]
      omega
    have hsplit : (data.take e).drop (offset + 1) =
        (data.drop (offset + 1)).take len.toNat ++ (data.take e).drop (offset + 1 + len.toNat) := by
      have hwhole := List.take_append_drop len.toNat ((data.take e).drop (offset + 1))
      rw [List.drop_drop] at hwhole
      rw [← hwhole]
      congr 1
      rw [List.drop_take, List.take_take, min_eq_left (by omega)]
    have hofNat : UInt8.ofNat ((data.drop (offset + 1)).take len.toNat).length = len := by
      rw [hlen, UInt8.ofNat_toNat]
    rw [drop_take_cons h (by omega), hsplit]
    have hcons := (ih he).cons (by rwa [hlen]) (by rwa [hlen])
    rwa [hofNat] at hcons
  | pointer h hlen hlow rest =>
    rw [literalEnd_pointer h hlen] at he ⊢
    rw [drop_take_cons h (by omega), drop_take_cons hlow (by omega)]
    exact @Spells.pointer data [] _ _ _ _ _ (by simp [Short]) hlen rest

/-- The byte at `offset` and what comes after the label it announces. -/
theorem byte_of_drop {rest : List UInt8}
    (h : data.drop offset = UInt8.ofNat label.length :: (label ++ rest)) :
    data[offset]? = some (UInt8.ofNat label.length) ∧
      offset + 1 + label.length ≤ data.length ∧
      (data.drop (offset + 1)).take label.length = label ∧
      data.drop (offset + 1 + label.length) = rest := by
  have htail := Checked.drop_succ_of_drop h
  have hlen := congrArg List.length h
  rw [List.length_drop, List.length_cons, List.length_append] at hlen
  refine ⟨?_, by omega, ?_, ?_⟩
  · rw [← List.head?_drop, h, List.head?_cons]
  · rw [htail, List.take_left]
  · rw [← List.drop_drop, htail, List.drop_left]

theorem literalEnd_front {rest : List UInt8} (hfront : Short front)
    (h : data.drop offset = encodeLabels front ++ rest) :
    literalEnd data offset = literalEnd data (offset + (encodeLabels front).length) ∧
      data.drop (offset + (encodeLabels front).length) = rest := by
  induction front generalizing offset with
  | nil => exact ⟨rfl, h⟩
  | cons label front ih =>
    obtain ⟨hpos, hshort⟩ := hfront label List.mem_cons_self
    rw [encodeLabels_cons, List.cons_append, List.append_assoc] at h
    obtain ⟨hbyte, -, -, hdrop⟩ := byte_of_drop h
    have hlen := toNat_ofNat_short hshort
    have hnext := literalEnd_label hbyte (by rwa [hlen]) (by rwa [hlen])
    rw [hlen] at hnext
    obtain ⟨hend, hrest⟩ := ih (fun l hl => hfront l (List.mem_cons_of_mem _ hl)) hdrop
    have hsum : offset + (encodeLabels (label :: front)).length =
        offset + 1 + label.length + (encodeLabels front).length := by
      rw [encodeLabels_cons, List.length_cons, List.length_append]
      omega
    rw [hsum, hnext]
    exact ⟨hend, hrest⟩

/-- Labels that are spelled out lead on to what follows them. -/
theorem Expands.prepend {rest : List UInt8} (hfront : Short front)
    (h : data.drop offset = encodeLabels front ++ rest)
    (hback : Expands data (offset + (encodeLabels front).length) trail back) :
    ∃ trail', Expands data offset trail' (front ++ back) := by
  induction front generalizing offset with
  | nil => exact ⟨trail, hback⟩
  | cons label front ih =>
    obtain ⟨hpos, hshort⟩ := hfront label List.mem_cons_self
    rw [encodeLabels_cons, List.cons_append, List.append_assoc] at h
    obtain ⟨hbyte, hend, htake, hdrop⟩ := byte_of_drop h
    have hlen := toNat_ofNat_short hshort
    have hsum : offset + (encodeLabels (label :: front)).length =
        offset + 1 + label.length + (encodeLabels front).length := by
      rw [encodeLabels_cons, List.length_cons, List.length_append]
      omega
    rw [hsum] at hback
    obtain ⟨trail', hrest⟩ := ih (fun l hl => hfront l (List.mem_cons_of_mem _ hl)) hdrop hback
    have hstep := Expands.label hbyte (by rwa [hlen]) (by rwa [hlen]) (by rwa [hlen])
      (by rwa [hlen])
    rw [hlen, htake] at hstep
    exact ⟨_, hstep⟩

/-- Labels up to a zero are a name, whatever else is in the message. -/
theorem expands_plain (hfront : Short front)
    (h : data.drop offset = encodeLabels front ++ 0 :: post) :
    (∃ trail, Expands data offset trail front) ∧
      literalEnd data offset = offset + (encodeLabels front).length + 1 := by
  obtain ⟨hend, hdrop⟩ := literalEnd_front hfront h
  have hzero : data[offset + (encodeLabels front).length]? = some 0 := by
    rw [← List.head?_drop, hdrop, List.head?_cons]
  obtain ⟨trail, hexpands⟩ := Expands.prepend hfront h (.stop hzero)
  rw [List.append_nil] at hexpands
  exact ⟨⟨trail, hexpands⟩, hend.trans (literalEnd_stop hzero)⟩

/-- Bytes before `e` that spell a name hold all of it. -/
theorem Spells.literalEnd_le (h : Spells data ((data.take e).drop offset) labels post) :
    literalEnd data offset ≤ e ∧ post = (data.take e).drop (literalEnd data offset) := by
  generalize hbytes : (data.take e).drop offset = bytes at h
  have hdrop : bytes ≠ [] → data.drop offset = bytes ++ data.drop e ∧
      offset + bytes.length ≤ e := by
    intro hne
    have hlt := List.length_pos_iff.mpr hne
    have hlen := congrArg List.length hbytes
    rw [List.length_drop, List.length_take] at hlen
    refine ⟨?_, by omega⟩
    have happend := @List.drop_append_of_le_length _ (data.take e) (data.drop e) offset
      (by rw [List.length_take]; omega)
    rw [← hbytes, ← happend, List.take_append_drop]
  have hpost : ∀ front, bytes = front ++ post →
      post = (data.take e).drop (offset + front.length) := by
    rintro front rfl
    rw [← List.drop_drop, hbytes, List.drop_left]
  cases h with
  | plain hshort =>
    obtain ⟨hdata, hle⟩ := hdrop (by simp)
    have hrest := hpost (encodeLabels labels ++ [0]) (by simp)
    rw [List.append_assoc, List.cons_append] at hdata
    rw [(expands_plain hshort hdata).2]
    simp only [List.length_append, List.length_cons, List.length_nil] at hle hrest
    exact ⟨by omega, hrest⟩
  | @pointer front back len low trail post hshort hlen hback =>
    obtain ⟨hdata, hle⟩ := hdrop (by simp)
    have hrest := hpost (encodeLabels front ++ [len, low]) (by simp)
    rw [List.append_assoc, List.cons_append] at hdata
    obtain ⟨hend, htail⟩ := literalEnd_front hshort hdata
    have hbyte : data[offset + (encodeLabels front).length]? = some len := by
      rw [← List.head?_drop, htail, List.head?_cons]
    rw [hend, literalEnd_pointer hbyte hlen]
    simp only [List.length_append, List.length_cons, List.length_nil] at hle hrest
    exact ⟨by omega, hrest⟩

/-- No offset comes twice on the way. -/
theorem Expands.nodup (h : Expands data offset trail labels) :
    trail.Nodup ∧ ∀ o ∈ trail, o < data.length := by
  have hlt := h.lt_length
  induction h with
  | stop => simpa using hlt
  | label h hpos hshort hend rest ih =>
    obtain ⟨hnodup, hin⟩ := ih rest.lt_length
    exact ⟨List.nodup_cons.mpr ⟨(Expands.label h hpos hshort hend rest).not_mem rest, hnodup⟩,
      List.forall_mem_cons.mpr ⟨hlt, hin⟩⟩
  | pointer h hlen hlow rest ih =>
    obtain ⟨hnodup, hin⟩ := ih rest.lt_length
    exact ⟨List.nodup_cons.mpr ⟨(Expands.pointer h hlen hlow rest).not_mem rest, hnodup⟩,
      List.forall_mem_cons.mpr ⟨hlt, hin⟩⟩

end ToyTcpip.Dns

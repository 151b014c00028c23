import ToyTcpip.Lib.Checked
import ToyTcpip.Lib.Utf8

/-! The domain names of a DNS search list, of `icmpv6.rs`. -/
namespace ToyTcpip

open Checked (index slice Safe safe_ok safe_error safe_ite safe_index safe_slice bind_eq_ok
  ite_error_eq_ok index_of_drop drop_succ_of_drop slice_of_drop)
open Utf8 (asBytes fromUtf8Lossy)

/-- `domain.split('.')`. -/
def splitDots (domain : String) : List String := (domain.toList.splitOn '.').map String.ofList

/-- A label after its length. -/
def labelBytes (label : String) : List UInt8 :=
  UInt8.ofNat (asBytes label).length :: asBytes label

def encodeQname (domain : String) : List UInt8 :=
  ((splitDots domain).flatMap fun label => if label ≠ "" then labelBytes label else []) ++ [0]

/-- The labels from here on and where the name ends; a name may end with its data. -/
def decodeLabels (data : List UInt8) (offset : ℕ) : Checked Unit (List String × ℕ) :=
  if offset < data.length then
    (index data offset).bind fun len =>
      if len = 0 then .ok ([], offset + 1)
      else if len.toNat > 63 ∨ offset + 1 + len.toNat > data.length then .error ()
      else
        (slice data (offset + 1) (offset + 1 + len.toNat)).bind fun label =>
          (decodeLabels data (offset + 1 + len.toNat)).bind fun rest =>
            .ok (fromUtf8Lossy label :: rest.1, rest.2)
  else .ok ([], offset)
termination_by data.length - offset

def decodeQname (data : List UInt8) (offset : ℕ) : Checked Unit (String × ℕ) :=
  (decodeLabels data offset).bind fun found => .ok (".".intercalate found.1, found.2)

theorem decodeLabels_le {data : List UInt8} {offset : ℕ} {found : List String × ℕ}
    (h : decodeLabels data offset = .ok found) : offset ≤ found.2 := by
  fun_induction decodeLabels data offset generalizing found with
  | case1 offset hlt ih =>
    obtain ⟨len, -, h⟩ := bind_eq_ok.mp h
    split_ifs at h with hzero hbad
    · cases h
      exact Nat.le_succ offset
    · obtain ⟨label, -, h⟩ := bind_eq_ok.mp h
      obtain ⟨rest, hrest, h⟩ := bind_eq_ok.mp h
      cases h
      have hle := ih len hbad hrest
      change offset ≤ rest.2
      omega
  | case2 offset hge =>
    cases h
    exact le_rfl

/-- Inside the data a name takes at least one byte. -/
theorem decodeQname_lt {data : List UInt8} {offset : ℕ} {found : String × ℕ}
    (hlt : offset < data.length) (h : decodeQname data offset = .ok found) : offset < found.2 := by
  obtain ⟨labels, hlabels, h⟩ := bind_eq_ok.mp h
  cases h
  rw [decodeLabels, if_pos hlt] at hlabels
  obtain ⟨len, -, hlabels⟩ := bind_eq_ok.mp hlabels
  split_ifs at hlabels
  · cases hlabels
    exact Nat.lt_succ_self offset
  · obtain ⟨label, -, hlabels⟩ := bind_eq_ok.mp hlabels
    obtain ⟨rest, hrest, hlabels⟩ := bind_eq_ok.mp hlabels
    cases hlabels
    have hle := decodeLabels_le hrest
    change offset < rest.2
    omega

/-- The loop over the names of an option: up to a zero where a name would start, or a name that
cannot be read. -/
def searchNames (option : List UInt8) (nameOff : ℕ) : Checked Unit (List String) :=
  if hlt : nameOff < option.length then
    (index option nameOff).bind fun len =>
      if len = 0 then .ok []
      else
        match hname : decodeQname option nameOff with
        | .ok (domain, nextOff) =>
          have := decodeQname_lt hlt hname
          (searchNames option nextOff).bind fun names =>
            .ok (if domain ≠ "" then domain :: names else names)
        | .error _ => .ok []
        | .panic => .panic
  else .ok []
termination_by option.length - nameOff

/-! ### No read is outside the option -/

theorem safe_decodeLabels (data : List UInt8) (offset : ℕ) : Safe (decodeLabels data offset) := by
  fun_induction decodeLabels data offset with
  | case1 offset hlt ih =>
    refine (safe_index hlt).bind fun len _ => ?_
    refine safe_ite (fun _ => safe_ok _) fun _ => safe_ite (fun _ => safe_error _) fun hfits => ?_
    refine (safe_slice (by omega) (by omega)).bind fun label _ => ?_
    exact (ih len hfits).bind fun _ _ => safe_ok _
  | case2 => exact safe_ok _

theorem safe_decodeQname (data : List UInt8) (offset : ℕ) : Safe (decodeQname data offset) :=
  (safe_decodeLabels data offset).bind fun _ _ => safe_ok _

theorem safe_searchNames (option : List UInt8) (nameOff : ℕ) :
    Safe (searchNames option nameOff) := by
  rw [searchNames]
  split
  · rename_i hlt
    refine (safe_index hlt).bind fun len _ => safe_ite (fun _ => safe_ok _) fun _ => ?_
    split
    · rename_i domain nextOff hname
      have hmore := decodeQname_lt hlt hname
      exact (safe_searchNames option nextOff).bind fun _ _ => safe_ok _
    · exact safe_ok _
    · rename_i hpanic
      exact absurd hpanic (safe_decodeQname option nameOff)
  · exact safe_ok _
termination_by option.length - nameOff

theorem searchNames_ne_error (option : List UInt8) (nameOff : ℕ) :
    searchNames option nameOff ≠ .error () := by
  rw [searchNames]
  split
  · rename_i hlt
    intro h
    cases hlen : (index option nameOff : Checked Unit UInt8) with
    | panic => rw [hlen] at h; cases h
    | error e => exact absurd hlen (by unfold index; split <;> simp)
    | ok len =>
      rw [hlen, Checked.ok_bind] at h
      split at h
      · cases h
      · split at h
        · rename_i domain nextOff hname
          have hmore := decodeQname_lt hlt hname
          have hrest := searchNames_ne_error option nextOff
          cases hnames : searchNames option nextOff with
          | ok names => rw [hnames] at h; cases h
          | error e => exact hrest hnames
          | panic => rw [hnames] at h; cases h
        · cases h
        · cases h
  · simp
termination_by option.length - nameOff

/-- A list of names is cut short, never refused. -/
theorem searchNames_eq_ok (option : List UInt8) (nameOff : ℕ) :
    ∃ names, searchNames option nameOff = .ok names := by
  cases h : searchNames option nameOff with
  | ok names => exact ⟨names, rfl⟩
  | error e => exact absurd h (searchNames_ne_error option nameOff)
  | panic => exact absurd h (safe_searchNames option nameOff)

/-! ### Names that are written and read back -/

/-- The name without its empty labels, such as the one after a dot at the end. -/
def canonicalName (domain : String) : String :=
  ".".intercalate ((splitDots domain).filter fun label => label ≠ "")

/-- A name of labels that a length byte can announce, at least one of them not empty. -/
structure WellFormedName (domain : String) : Prop where
  some_label : ∃ label ∈ splitDots domain, label ≠ ""
  short : ∀ label ∈ splitDots domain, (asBytes label).length ≤ 63

theorem intercalate_splitDots (name : String) : ".".intercalate (splitDots name) = name := by
  have hmap : (splitDots name).map String.toList = name.toList.splitOn '.' := by
    rw [splitDots, List.map_map]
    exact (List.map_congr_left fun _ _ => String.toList_ofList).trans (List.map_id _)
  apply String.toList_inj.mp
  rw [String.toList_intercalate, hmap]
  exact List.intercalate_splitOn '.'

/-- Without empty labels a name is canonical. -/
theorem canonicalName_eq {domain : String} (h : "" ∉ splitDots domain) :
    canonicalName domain = domain := by
  have hall : (splitDots domain).filter (fun label => label ≠ "") = splitDots domain := by
    refine List.filter_eq_self.mpr fun label hlabel => ?_
    rw [decide_eq_true_eq]
    rintro rfl
    exact h hlabel
  rw [canonicalName, hall, intercalate_splitDots]

theorem encodeQname_eq (domain : String) :
    encodeQname domain =
      ((splitDots domain).filter fun label => label ≠ "").flatMap labelBytes ++ [0] := by
  rw [encodeQname]
  congr 1
  induction splitDots domain with
  | nil => rfl
  | cons label rest ih =>
    rw [List.flatMap_cons, ih, List.filter_cons]
    by_cases h : label = "" <;> simp [h]

variable {data post : List UInt8} {offset : ℕ} {labels : List String}

theorem decodeLabels_of_drop (hlabels : ∀ label ∈ labels, label ≠ "" ∧ (asBytes label).length ≤ 63)
    (hle : offset ≤ data.length) (h : data.drop offset = labels.flatMap labelBytes ++ 0 :: post) :
    decodeLabels data offset = .ok (labels, offset + (labels.flatMap labelBytes).length + 1) := by
  induction labels generalizing offset with
  | nil =>
    have hlt : offset < data.length := by
      by_contra hge
      rw [List.drop_eq_nil_of_le (by omega)] at h
      cases h
    rw [decodeLabels, if_pos hlt, index_of_drop h, Checked.ok_bind, if_pos rfl]
    rfl
  | cons label rest ih =>
    obtain ⟨hne, hshort⟩ := hlabels label List.mem_cons_self
    have hpos : 0 < (asBytes label).length :=
      List.length_pos_iff.mpr fun hnil => hne (Utf8.asBytes_eq_nil.mp hnil)
    have hlen : (UInt8.ofNat (asBytes label).length).toNat = (asBytes label).length := by
      rw [UInt8.toNat_ofNat']
      omega
    have hzero : UInt8.ofNat (asBytes label).length ≠ 0 := by
      intro heq
      rw [heq] at hlen
      exact absurd hlen (by simp; omega)
    rw [List.flatMap_cons, labelBytes, List.cons_append, List.cons_append, List.append_assoc] at h
    have htail := drop_succ_of_drop h
    have htotal := congrArg List.length h
    rw [List.length_drop, List.length_cons, List.length_append] at htotal
    have hrest : data.drop (offset + 1 + (asBytes label).length) =
        rest.flatMap labelBytes ++ 0 :: post := by
      rw [← List.drop_drop, htail, List.drop_left]
    rw [decodeLabels, if_pos (by omega), index_of_drop h, Checked.ok_bind, if_neg hzero, hlen,
      if_neg (by omega), slice_of_drop (by omega) htail, Checked.ok_bind,
      ih (fun l hl => hlabels l (List.mem_cons_of_mem _ hl)) (by omega) hrest, Checked.ok_bind,
      Utf8.fromUtf8Lossy_of_valid (Utf8.fromUtf8_asBytes label), List.flatMap_cons,
      List.length_append, labelBytes, List.length_cons]
    congr 2
    omega

theorem decodeQname_of_drop {domain : String} (hname : WellFormedName domain)
    (hle : offset ≤ data.length) (h : data.drop offset = encodeQname domain ++ post) :
    decodeQname data offset = .ok (canonicalName domain, offset + (encodeQname domain).length) := by
  rw [encodeQname_eq, List.append_assoc, List.singleton_append] at h
  have hlabels : ∀ label ∈ (splitDots domain).filter (fun label => label ≠ ""),
      label ≠ "" ∧ (asBytes label).length ≤ 63 := by
    intro label hmem
    obtain ⟨hin, hne⟩ := List.mem_filter.mp hmem
    exact ⟨of_decide_eq_true hne, hname.short label hin⟩
  rw [decodeQname, decodeLabels_of_drop hlabels hle h, Checked.ok_bind, encodeQname_eq,
    List.length_append]
  rfl

theorem intercalate_ne_empty {sep label : String} {rest : List String} (h : label ≠ "") :
    sep.intercalate (label :: rest) ≠ "" := by
  cases rest with
  | nil => rwa [String.intercalate_singleton]
  | cons next rest =>
    rw [String.intercalate_cons_cons]
    intro heq
    simp only [String.append_eq_empty_iff] at heq
    exact h heq.1.1

/-- A well-formed name starts with a label, and so is not taken for padding. -/
theorem WellFormedName.starts {domain : String} (h : WellFormedName domain) :
    canonicalName domain ≠ "" ∧ ∃ len tail, encodeQname domain = len :: tail ∧ len ≠ 0 := by
  obtain ⟨label, hmem, hne⟩ := h.some_label
  have hin : label ∈ (splitDots domain).filter fun label => label ≠ "" :=
    List.mem_filter.mpr ⟨hmem, decide_eq_true hne⟩
  obtain ⟨first, rest, hlist⟩ := List.exists_cons_of_ne_nil (List.ne_nil_of_mem hin)
  have hfirst : first ∈ (splitDots domain).filter fun label => label ≠ "" := by
    rw [hlist]
    exact List.mem_cons_self
  obtain ⟨hsplit, hfirstne⟩ := List.mem_filter.mp hfirst
  have hfirstne := of_decide_eq_true hfirstne
  have hshort := h.short first hsplit
  have hpos : 0 < (asBytes first).length :=
    List.length_pos_iff.mpr fun hnil => hfirstne (Utf8.asBytes_eq_nil.mp hnil)
  refine ⟨?_, UInt8.ofNat (asBytes first).length,
    asBytes first ++ rest.flatMap labelBytes ++ [0], ?_, fun heq => ?_⟩
  · rw [canonicalName, hlist]
    exact intercalate_ne_empty hfirstne
  · rw [encodeQname_eq, hlist, List.flatMap_cons, labelBytes, List.cons_append, List.cons_append]
  · have hnat := congrArg UInt8.toNat heq
    rw [UInt8.toNat_ofNat'] at hnat
    simp only [UInt8.toNat_zero] at hnat
    omega

/-- Names that are followed by zeros, or by nothing, are read up to there. -/
theorem searchNames_of_drop {names : List String} {padding : ℕ}
    (hnames : ∀ name ∈ names, WellFormedName name) (hle : offset ≤ data.length)
    (h : data.drop offset = names.flatMap encodeQname ++ List.replicate padding 0) :
    searchNames data offset = .ok (names.map canonicalName) := by
  induction names generalizing offset with
  | nil =>
    rw [searchNames]
    split
    · rename_i hlt
      cases padding with
      | zero =>
        have hlen := congrArg List.length h
        simp at hlen
        omega
      | succ padding =>
        rw [List.flatMap_nil, List.nil_append, List.replicate_succ] at h
        rw [index_of_drop h, Checked.ok_bind, if_pos rfl]
        rfl
    · rfl
  | cons name rest ih =>
    obtain ⟨hne, len, tail, hstart, hlen⟩ := (hnames name List.mem_cons_self).starts
    rw [List.flatMap_cons, List.append_assoc] at h
    have hname := decodeQname_of_drop (hnames name List.mem_cons_self) hle h
    have htotal := congrArg List.length h
    rw [List.length_drop, List.length_append] at htotal
    have hrest : data.drop (offset + (encodeQname name).length) =
        rest.flatMap encodeQname ++ List.replicate padding 0 := by
      rw [← List.drop_drop, h, List.drop_left]
    have hindex : (index data offset : Checked Unit UInt8) = .ok len := by
      rw [hstart, List.cons_append] at h
      exact index_of_drop h
    have hlt : offset < data.length := by
      rw [hstart, List.length_cons] at htotal
      omega
    rw [searchNames, dif_pos hlt, hindex, Checked.ok_bind, if_neg hlen]
    split
    · rename_i domain nextOff hfound
      rw [hname] at hfound
      cases hfound
      rw [ih (fun n hn => hnames n (List.mem_cons_of_mem _ hn)) (by omega) hrest, Checked.ok_bind,
        if_pos hne, List.map_cons]
    · rename_i hfound
      rw [hname] at hfound
      cases hfound
    · rename_i hfound
      rw [hname] at hfound
      cases hfound

end ToyTcpip

import ToyTcpip.Rlc.Entity

/-! Two RLC entities over a network that loses, copies and reorders PDUs and status reports. -/
namespace ToyTcpip.Rlc

/-- An SDU that was sent, its sequence number and its PDUs. -/
structure Sent where
  sn : ℕ
  sdu : List UInt8
  pdus : List RlcAmDataPdu

/-- A data PDU in the network, and the place of its SDU among those sent. -/
structure Packet where
  index : ℕ
  data : List UInt8

/-- A status PDU in the network, and, of the time it was written, the SDUs that a PDU had come in of
and the segments that had come in under each number since the last SDU there was complete. -/
structure Report where
  data : List UInt8
  heard : List ℕ
  parts : ℕ → List RlcAmDataPdu

inductive Event where
  | send (sdu : List UInt8) (grantSize : ℕ) (poll : Bool)
  | packetArrives (k : ℕ)
  | report
  | reportArrives (k : ℕ)

/-- The entities, everything that was ever put into the network, and the history: for each sequence
number the SDU it was last sent with, the SDU of the segment that came in last, and the segments
that came in since they were last complete; the SDUs that a PDU came in of, what was delivered on
which SDU's PDU, and the SDUs that a status report freed. -/
structure Link where
  tx : RlcEntity
  rx : RlcEntity
  sent : List Sent
  packets : List Packet
  reports : List Report
  holder : ℕ → ℕ
  owner : ℕ → ℕ
  parts : ℕ → List RlcAmDataPdu
  heard : List ℕ
  delivered : List (ℕ × List UInt8)
  freed : List ℕ

namespace Link

def start (snSize : RlcAmSnSize) : Link :=
  ⟨.new (.am snSize), .new (.am snSize), [], [], [], fun _ => 0, fun _ => 0,
    fun _ => [], [], [], []⟩

/-- A PDU of an SDU has come in: the segments under a number are put aside once they are all
there. -/
def comeIn (s : Link) (index : ℕ) (pdu : RlcAmDataPdu) : ℕ → List RlcAmDataPdu :=
  if pdu.si = .full then s.parts
  else
    let parts := pdu :: s.parts pdu.sn
    let complete : Bool := (s.sent[index]?).any fun x => x.pdus.all fun p => p ∈ parts
    Function.update s.parts pdu.sn (if complete then [] else parts)

def step (s : Link) : Event → Link
  | .send sdu grantSize poll =>
    match s.tx.segmentAndSend sdu.length sdu grantSize poll with
    | none => s
    | some (tx, pdus) =>
      { s with
        tx
        sent := s.sent ++ [⟨s.tx.txNext, sdu, pdus⟩]
        packets := s.packets ++ pdus.map fun p => ⟨s.sent.length, p.serialize⟩
        holder := Function.update s.holder s.tx.txNext s.sent.length }
  | .packetArrives k =>
    match s.packets[k]? with
    | none => s
    | some packet =>
      match RlcAmDataPdu.parse s.rx.snSize packet.data with
      | .error _ => s
      | .ok pdu =>
        { s with
          rx := (s.rx.receiveAmPdu pdu).1
          owner := if pdu.si = .full then s.owner else Function.update s.owner pdu.sn packet.index
          parts := s.comeIn packet.index pdu
          heard := packet.index :: s.heard
          delivered := s.delivered ++ ((s.rx.receiveAmPdu pdu).2.map (packet.index, ·)).toList }
  | .report =>
    { s with reports := s.reports ++ [⟨s.rx.generateStatusPdu.serialize, s.heard, s.parts⟩] }
  | .reportArrives k =>
    match s.reports[k]? with
    | none => s
    | some report =>
      match RlcStatusPdu.parse report.data with
      | .error _ => s
      | .ok status =>
        let tx := s.tx.processStatusPdu status
        { s with
          tx
          freed := s.freed ++
            (s.tx.txBuffer.keys.filter fun sn => !Hashed.hasKey tx.txBuffer sn).map s.holder }

def run : Link → List Event → Link := Machine.run step

/-- The SDU at a place was delivered. -/
def Delivered (s : Link) (i : ℕ) : Prop := ∃ x, s.sent[i]? = some x ∧ (i, x.sdu) ∈ s.delivered

/-- What a status report freed was delivered. -/
def Safe (s : Link) : Prop := ∀ i ∈ s.freed, s.Delivered i

/-- The sequence number of an SDU that was sent. -/
def HasSn (s : Link) (i sn : ℕ) : Prop := ∃ x, s.sent[i]? = some x ∧ x.sn = sn

/-- When the report was written, the number, with no segments waiting under it, or a higher one had
been heard of; unless the highest had, whose successor has no room in the report. -/
def Passed (s : Link) (report : Report) (sn : ℕ) : Prop :=
  (∃ i ∈ report.heard, ∃ sn' ≥ sn, s.HasSn i sn') ∧ report.parts sn = [] ∧
    ∀ i ∈ report.heard, ¬ s.HasSn i (2 ^ 18 - 1)

/-- What an event must meet: segments start where sixteen bits can say; a segment comes in while no
segments of another SDU wait under its number; and when a report comes in, each SDU not freed yet
whose number had been passed when it was written had been heard of by then: it had not been lost
altogether, or been overtaken altogether. -/
def Heard (s : Link) : Event → Prop
  | .send sdu grantSize _ => sdu.length ≤ grantSize ∨ Addressable sdu grantSize
  | .packetArrives k => ∀ packet pdu, s.packets[k]? = some packet →
    RlcAmDataPdu.parse s.rx.snSize packet.data = .ok pdu → pdu.si ≠ .full →
    s.parts pdu.sn ≠ [] → s.owner pdu.sn = packet.index
  | .report => True
  | .reportArrives k => ∀ report, s.reports[k]? = some report → ∀ sn ∈ s.tx.txBuffer,
    s.Passed report sn → s.holder sn ∈ report.heard

/-- Segments of an SDU are kept under its number. -/
def Kept (s : Link) (i sn : ℕ) : Prop := s.rx.rxReassembly[sn]? ≠ none ∧ s.owner sn = i

/-- What a report acknowledges had been passed, and, where it had been heard of, is delivered. -/
structure Written (s : Link) (report : Report) (status : RlcStatusPdu) : Prop where
  passed : ∀ sn < status.ackSn, sn ∉ status.nacks.map (·.nackSn) → s.Passed report sn
  heard : ∀ i ∈ report.heard, ∃ x, s.sent[i]? = some x ∧
    (s.Delivered i ∨ x.sn ∈ status.nacks.map (·.nackSn) ∨ status.ackSn ≤ x.sn)

structure Sound (size : RlcAmSnSize) (s : Link) : Prop where
  txMode : s.tx.mode = .am size
  rxMode : s.rx.mode = .am size
  txNext : s.tx.txNext ≤ size.maxSn
  sent : ∀ x ∈ s.sent, x.sn ≤ size.maxSn ∧ Carries size x.sn x.sdu x.pdus
  packets : ∀ packet ∈ s.packets, ∃ x p, s.sent[packet.index]? = some x ∧ p ∈ x.pdus ∧
    packet.data = p.serialize
  holder : ∀ sn ∈ s.tx.txBuffer, ∃ x, s.sent[s.holder sn]? = some x ∧ x.sn = sn
  next : ∀ sn, sn < s.rx.rxNext ↔ ∃ i ∈ s.heard, ∃ sn' ≥ sn, s.HasSn i sn'
  entries : ∀ sn r, s.rx.rxReassembly[sn]? = some r → ∃ x, s.sent[s.owner sn]? = some x ∧
    x.sn = sn ∧ Holds r x.sdu (s.parts sn) ∧ s.parts sn ⊆ x.pdus
  parts : ∀ sn, s.rx.rxReassembly[sn]? = none ↔ s.parts sn = []
  heard : ∀ i ∈ s.heard, ∃ x, s.sent[i]? = some x ∧ (s.Delivered i ∨ s.Kept i x.sn)
  reports : ∀ report ∈ s.reports, ∀ status, RlcStatusPdu.parse report.data = .ok status →
    Written s report status
  safe : s.Safe

variable {size : RlcAmSnSize} {s s' : Link} {k i sn : ℕ}

theorem sound_start (size : RlcAmSnSize) : (start size).Sound size := by
  constructor <;> simp [start, RlcEntity.new, Safe]

theorem snSize_eq {e : RlcEntity} (h : e.mode = .am size) : e.snSize = size := by
  rw [RlcEntity.snSize, h]

theorem maxSn_lt (size : RlcAmSnSize) : size.maxSn < 2 ^ 18 := by cases size <;> decide

theorem getElem?_of_sent {l l' : List Sent} {x : Sent} (h : l <+: l') (hx : l[i]? = some x) :
    l'[i]? = some x := by
  obtain ⟨t, rfl⟩ := h
  rw [List.getElem?_append_left (List.getElem?_eq_some_iff.mp hx).1, hx]

theorem Delivered.mono (h : s.Delivered i) (hsent : s.sent <+: s'.sent)
    (hdelivered : s.delivered ⊆ s'.delivered) : s'.Delivered i := by
  obtain ⟨x, hx, hmem⟩ := h
  exact ⟨x, getElem?_of_sent hsent hx, hdelivered hmem⟩

theorem hasSn_iff {x : Sent} (hx : s.sent[i]? = some x) : s.HasSn i sn ↔ x.sn = sn := by
  simp [HasSn, hx]

theorem hasSn_iff_of_sent {x : Sent} (hsent : s.sent <+: s'.sent) (hx : s.sent[i]? = some x) :
    s'.HasSn i sn ↔ s.HasSn i sn := by
  rw [hasSn_iff hx, hasSn_iff (getElem?_of_sent hsent hx)]

theorem Written.mono {report : Report} {status : RlcStatusPdu} (h : s.Written report status)
    (hsent : s.sent <+: s'.sent) (hdelivered : s.delivered ⊆ s'.delivered) :
    s'.Written report status := by
  refine ⟨fun sn hack hnack => ?_, fun i hi => ?_⟩
  · obtain ⟨⟨i, hi, sn', hle, hsn'⟩, hparts, htop⟩ := h.passed sn hack hnack
    refine ⟨⟨i, hi, sn', hle, ?_⟩, hparts, fun j hj => ?_⟩
    · obtain ⟨x, hx, -⟩ := h.heard i hi
      exact (hasSn_iff_of_sent hsent hx).mpr hsn'
    · obtain ⟨x, hx, -⟩ := h.heard j hj
      rw [hasSn_iff_of_sent hsent hx]
      exact htop j hj
  · obtain ⟨x, hx, hcase⟩ := h.heard i hi
    exact ⟨x, getElem?_of_sent hsent hx, hcase.imp_left (·.mono hsent hdelivered)⟩

theorem Sound.hasSn_le (h : s.Sound size) (hsn : s.HasSn i sn) : sn ≤ size.maxSn := by
  obtain ⟨x, hx, rfl⟩ := hsn
  exact (h.sent x (List.mem_of_getElem? hx)).1

/-- The next number of the receiver is at most the first that has no room. -/
theorem Sound.rxNext_le (h : s.Sound size) : s.rx.rxNext ≤ 2 ^ 18 := by
  by_contra hlt
  obtain ⟨i, -, sn', hge, hsn'⟩ := (h.next (2 ^ 18)).mp (not_le.mp hlt)
  have := h.hasSn_le hsn'
  have := maxSn_lt size
  omega

theorem Sound.mem_keys_iff (h : s.Sound size) : sn ∈ s.rx.rxReassembly.keys ↔ s.parts sn ≠ [] := by
  rw [Std.TreeMap.mem_keys, Std.TreeMap.mem_iff_isSome_getElem?, Option.isSome_iff_ne_none, ne_eq,
    h.parts]

/-- The numbers that a report lists are those below the next one under which segments wait. -/
theorem Sound.mem_nacks_iff (h : s.Sound size) (hsn : sn < 2 ^ 18) :
    sn ∈ (s.rx.generateStatusPdu.nacks.map fun n => n.nackSn % 2 ^ 18) ↔
      sn < s.rx.rxNext ∧ s.parts sn ≠ [] := by
  have hnext := h.rxNext_le
  simp only [RlcEntity.generateStatusPdu, List.map_map, List.mem_map, List.mem_filter,
    decide_eq_true_eq, Function.comp, h.mem_keys_iff]
  constructor
  · rintro ⟨k, ⟨hparts, hk⟩, rfl⟩
    rw [Nat.mod_eq_of_lt (by omega)]
    exact ⟨hk, hparts⟩
  · rintro ⟨hlt, hparts⟩
    exact ⟨sn, ⟨hparts, hlt⟩, Nat.mod_eq_of_lt hsn⟩

/-- A report acknowledges what had been passed, and frees what was heard of only when delivered. -/
theorem written_report (h : s.Sound size) {status : RlcStatusPdu}
    (hparse : RlcStatusPdu.parse s.rx.generateStatusPdu.serialize = .ok status) :
    s.Written ⟨s.rx.generateStatusPdu.serialize, s.heard, s.parts⟩ status := by
  rw [RlcStatusPdu.parse_serialize] at hparse
  obtain rfl := Except.ok.inj hparse
  have hnext := h.rxNext_le
  have hack : s.rx.generateStatusPdu.ackSn = s.rx.rxNext := rfl
  constructor
  · intro sn hlt hnack
    rw [List.map_map, Function.comp_def] at hnack
    dsimp only at hlt hnack ⊢
    rw [hack] at hlt
    have hmod := Nat.mod_lt s.rx.rxNext (show 0 < 2 ^ 18 by decide)
    have hsmall : s.rx.rxNext < 2 ^ 18 := by
      rcases Nat.lt_or_eq_of_le hnext with hsmall | heq
      · exact hsmall
      · rw [heq] at hlt
        omega
    rw [Nat.mod_eq_of_lt hsmall] at hlt
    refine ⟨(h.next sn).mp hlt, ?_, fun i hi htop => ?_⟩
    · by_contra hparts
      exact hnack ((h.mem_nacks_iff (by omega)).mpr ⟨hlt, hparts⟩)
    · have := (h.next (2 ^ 18 - 1)).mpr ⟨i, hi, _, le_rfl, htop⟩
      omega
  · intro i hi
    obtain ⟨x, hx, hdelivered | ⟨hkept, -⟩⟩ := h.heard i hi
    · exact ⟨x, hx, .inl hdelivered⟩
    · refine ⟨x, hx, .inr ?_⟩
      by_cases hlt : x.sn < s.rx.rxNext
      · left
        rw [List.map_map, Function.comp_def]
        exact (h.mem_nacks_iff (by omega)).mpr ⟨hlt, fun hparts =>
          hkept ((h.parts x.sn).mpr hparts)⟩
      · right
        exact (Nat.mod_le _ _).trans (not_lt.mp hlt)

theorem Sound.send (h : s.Sound size) {sdu : List UInt8} {grantSize : ℕ} {poll : Bool}
    (hgrant : sdu.length ≤ grantSize ∨ Addressable sdu grantSize) :
    (s.step (.send sdu grantSize poll)).Sound size := by
  rw [step]
  cases hsend : s.tx.segmentAndSend sdu.length sdu grantSize poll with
  | none => exact h
  | some result =>
    have hcases : sdu.length ≤ grantSize ∨ 1 ≤ grantSize ∧ Addressable sdu grantSize := by
      rcases hgrant with hle | hfit
      · exact .inl hle
      · by_cases hpos : 1 ≤ grantSize
        · exact .inr ⟨hpos, hfit⟩
        · obtain rfl : grantSize = 0 := by omega
          by_cases hsdu : sdu.length ≤ 0
          · exact .inl hsdu
          · rw [segmentAndSend_zero (not_le.mp hsdu)] at hsend
            cases hsend
    obtain ⟨pdus, hcarries, -, heq⟩ := segmentAndSend_eq_some s.tx poll hcases
    rw [heq _ le_rfl] at hsend
    obtain rfl := Option.some.inj hsend
    rw [snSize_eq h.txMode] at hcarries
    have hsent : s.sent <+: s.sent ++ [⟨s.tx.txNext, sdu, pdus⟩] := List.prefix_append _ _
    have hnew : (s.sent ++ [(⟨s.tx.txNext, sdu, pdus⟩ : Sent)])[s.sent.length]? =
        some ⟨s.tx.txNext, sdu, pdus⟩ := by simp
    constructor
    · exact h.txMode
    · exact h.rxMode
    · dsimp only
      rw [snSize_eq h.txMode]
      exact RlcEntity.and_maxSn_le _ size
    · intro x hx
      rcases List.mem_append.mp hx with hx | hx
      · exact h.sent x hx
      · rw [List.mem_singleton.mp hx]
        exact ⟨h.txNext, hcarries⟩
    · intro packet hpacket
      rcases List.mem_append.mp hpacket with hpacket | hpacket
      · obtain ⟨x, p, hx, hp, hdata⟩ := h.packets packet hpacket
        exact ⟨x, p, getElem?_of_sent hsent hx, hp, hdata⟩
      · obtain ⟨p, hp, rfl⟩ := List.mem_map.mp hpacket
        exact ⟨_, p, hnew, hp, rfl⟩
    · intro sn hsn
      dsimp only at hsn ⊢
      by_cases heq : sn = s.tx.txNext
      · subst heq
        rw [Function.update_self]
        exact ⟨_, hnew, rfl⟩
      · rw [Function.update_of_ne heq]
        obtain ⟨x, hx, hxsn⟩ := h.holder sn ((AList.mem_insert _).mp hsn |>.resolve_left heq)
        exact ⟨x, getElem?_of_sent hsent hx, hxsn⟩
    · intro sn
      rw [h.next]
      refine exists_congr fun i => and_congr_right fun hi => ?_
      obtain ⟨x, hx, -⟩ := h.heard i hi
      exact exists_congr fun sn' => and_congr_right fun _ => (hasSn_iff_of_sent hsent hx).symm
    · intro sn r hr
      obtain ⟨x, hx, hrest⟩ := h.entries sn r hr
      exact ⟨x, getElem?_of_sent hsent hx, hrest⟩
    · exact h.parts
    · intro i hi
      obtain ⟨x, hx, hcase⟩ := h.heard i hi
      exact ⟨x, getElem?_of_sent hsent hx,
        hcase.imp_left (·.mono hsent (List.Subset.refl _))⟩
    · intro report hreport status hparse
      exact (h.reports report hreport status hparse).mono hsent (List.Subset.refl _)
    · intro i hi
      exact (h.safe i hi).mono hsent (List.Subset.refl _)

/-- What a report frees is below its ACK_SN and not in its list. -/
theorem freed_cases {e : RlcEntity} {status : RlcStatusPdu} {sn : ℕ} (hin : sn ∈ e.txBuffer)
    (hout : (!Hashed.hasKey (e.processStatusPdu status).txBuffer sn) = true) :
    sn < status.ackSn ∧ sn ∉ status.nacks.map (·.nackSn) := by
  obtain ⟨pdus, hpdus⟩ := Option.isSome_iff_exists.mp (AList.lookup_isSome.mpr hin)
  rw [Hashed.hasKey, RlcEntity.processStatusPdu, Hashed.lookup_retain, hpdus] at hout
  by_contra hkeep
  have hfilter : (!(decide (sn < status.ackSn) && !(status.nacks.map (·.nackSn)).contains sn)) =
      true := by
    simp only [Bool.not_eq_true', Bool.and_eq_false_iff, decide_eq_false_iff_not,
      Bool.not_eq_false', List.contains_iff_mem]
    tauto
  simp only [Option.filter, hfilter, if_true, Option.isSome_some, Bool.not_true] at hout
  cases hout

theorem Sound.report (h : s.Sound size) : (s.step .report).Sound size := by
  refine ⟨h.txMode, h.rxMode, h.txNext, h.sent, h.packets, h.holder, h.next, h.entries, h.parts,
    h.heard, ?_, h.safe⟩
  intro report hreport status hparse
  rcases List.mem_append.mp hreport with hreport | hreport
  · exact (h.reports report hreport status hparse).mono (List.prefix_refl _) (List.Subset.refl _)
  · obtain rfl := List.mem_singleton.mp hreport
    exact (written_report h hparse).mono (List.prefix_refl _) (List.Subset.refl _)

theorem Sound.reportArrives (h : s.Sound size) (hheard : s.Heard (.reportArrives k)) :
    (s.step (.reportArrives k)).Sound size := by
  rw [step]
  cases hreport : s.reports[k]? with
  | none => exact h
  | some report =>
    dsimp only
    cases hparse : RlcStatusPdu.parse report.data with
    | error e => exact h
    | ok status =>
      have hwritten := h.reports report (List.mem_of_getElem? hreport) status hparse
      refine ⟨h.txMode, h.rxMode, h.txNext, h.sent, h.packets, ?_, h.next, h.entries, h.parts,
        h.heard, ?_, ?_⟩
      · intro sn hsn
        refine h.holder sn ?_
        rw [← AList.lookup_isSome] at hsn ⊢
        simp only [RlcEntity.processStatusPdu, Hashed.lookup_retain] at hsn
        obtain ⟨pdus, hpdus⟩ := Option.isSome_iff_exists.mp hsn
        exact Option.isSome_iff_exists.mpr ⟨pdus, (Option.filter_eq_some_iff.mp hpdus).1⟩
      · intro report' hreport' status' hparse'
        exact (h.reports report' hreport' status' hparse').mono (List.prefix_refl _)
          (List.Subset.refl _)
      · intro i hi
        rcases List.mem_append.mp hi with hi | hi
        · exact h.safe i hi
        · obtain ⟨sn, hsn, rfl⟩ := List.mem_map.mp hi
          obtain ⟨hin, hout⟩ := List.mem_filter.mp hsn
          obtain ⟨hack, hnack⟩ := freed_cases hin hout
          obtain ⟨x, hx, hxsn⟩ := h.holder sn hin
          obtain ⟨y, hy, hcase⟩ := hwritten.heard _
            (hheard report hreport sn hin (hwritten.passed sn hack hnack))
          obtain rfl : x = y := Option.some.inj (hx.symm.trans hy)
          rw [hxsn] at hcase
          exact hcase.resolve_right (by simpa [hnack] using hack)

/-- A PDU that comes in moves the next number past its own. -/
theorem Sound.next_cons (h : s.Sound size) {x : Sent} {p : RlcAmDataPdu} (hx : s.sent[i]? = some x)
    (hsn : p.sn = x.sn) (sn : ℕ) : sn < (s.rx.receiveAmPdu p).1.rxNext ↔
      ∃ j ∈ i :: s.heard, ∃ sn' ≥ sn, s.HasSn j sn' := by
  have hown : (∃ sn' ≥ sn, s.HasSn i sn') ↔ sn ≤ x.sn := by
    simp only [hasSn_iff hx]
    constructor
    · rintro ⟨sn', hge, heq⟩
      exact heq ▸ hge
    · exact fun hle => ⟨x.sn, hle, rfl⟩
  simp only [List.mem_cons, exists_eq_or_imp, hown, ← h.next, receiveAmPdu_rxNext, hsn]
  split_ifs <;> omega

theorem comeIn_segment {x : Sent} {p : RlcAmDataPdu} (hx : s.sent[i]? = some x)
    (hsn : p.sn = x.sn) (hfull : p.si ≠ .full) : s.comeIn i p = Function.update s.parts x.sn
      (if x.pdus ⊆ p :: s.parts x.sn then [] else p :: s.parts x.sn) := by
  rw [comeIn, if_neg hfull, hsn]
  simp only [hx, Option.any_some, List.all_eq_true, decide_eq_true_eq, List.subset_def]

/-- A PDU that carries a whole SDU delivers it. -/
theorem Sound.full (h : s.Sound size) {x : Sent} {p : RlcAmDataPdu} (hx : s.sent[i]? = some x)
    (hsn : p.sn = x.sn) (hfull : p.si = .full) (hp : p.payload = x.sdu) : Sound size { s with
      rx := (s.rx.receiveAmPdu p).1
      owner := if p.si = .full then s.owner else Function.update s.owner p.sn i
      parts := s.comeIn i p
      heard := i :: s.heard
      delivered := s.delivered ++ ((s.rx.receiveAmPdu p).2.map (i, ·)).toList } := by
  obtain ⟨hout, -, hreassembly⟩ := @receiveAmPdu_full p s.rx hfull
  have hparts : s.comeIn i p = s.parts := by rw [comeIn, if_pos hfull]
  rw [hout, if_pos hfull, hparts]
  have hsub : s.delivered ⊆ s.delivered ++ ((some p.payload).map (i, ·)).toList :=
    List.subset_append_left _ _
  refine ⟨h.txMode, (RlcEntity.receiveAmPdu_same s.rx p).1.trans h.rxMode, h.txNext,
    h.sent, h.packets, h.holder, h.next_cons hx hsn, ?_, ?_, ?_, ?_, ?_⟩
  · intro sn r hr
    dsimp only at hr
    rw [hreassembly] at hr
    exact h.entries sn r hr
  · intro sn
    dsimp only
    rw [hreassembly]
    exact h.parts sn
  · intro j hj
    rcases List.mem_cons.mp hj with rfl | hj
    · exact ⟨x, hx, .inl ⟨x, hx, by simp [hp]⟩⟩
    · obtain ⟨y, hy, hcase⟩ := h.heard j hj
      refine ⟨y, hy, hcase.imp (·.mono (List.prefix_refl _) hsub) ?_⟩
      rintro ⟨hkept, howner⟩
      exact ⟨by dsimp only; rwa [hreassembly], howner⟩
  · intro report hreport status hparse
    exact (h.reports report hreport status hparse).mono (List.prefix_refl _) hsub
  · intro j hj
    exact (h.safe j hj).mono (List.prefix_refl _) hsub

/-- A segment is kept with the others of its SDU, or completes it. -/
theorem Sound.segment (h : s.Sound size) {x : Sent} {p : RlcAmDataPdu} {grantSize : ℕ} {poll : Bool}
    (hx : s.sent[i]? = some x) (hs : Segments size x.sn x.sdu grantSize poll x.pdus)
    (hp : p ∈ x.pdus) (hsn : p.sn = x.sn) (hown : s.parts x.sn ≠ [] → s.owner x.sn = i) :
    Sound size { s with
      rx := (s.rx.receiveAmPdu p).1
      owner := if p.si = .full then s.owner else Function.update s.owner p.sn i
      parts := s.comeIn i p
      heard := i :: s.heard
      delivered := s.delivered ++ ((s.rx.receiveAmPdu p).2.map (i, ·)).toList } := by
  obtain ⟨-, -, hfull⟩ := hs.at hp
  obtain ⟨hholds, hseen⟩ : Holds (s.rx.rxReassembly.getD x.sn .new) x.sdu (s.parts x.sn) ∧
      s.parts x.sn ⊆ x.pdus := by
    rw [Std.TreeMap.getD_eq_getD_getElem?]
    cases hr : s.rx.rxReassembly[x.sn]? with
    | none =>
      rw [(h.parts x.sn).mp hr]
      exact ⟨holds_new _, List.nil_subset _⟩
    | some r =>
      obtain ⟨y, hy, -, hholds, hseen⟩ := h.entries x.sn r hr
      rw [hown (by rw [ne_eq, ← h.parts, hr]; simp)] at hy
      obtain rfl : x = y := Option.some.inj (hx.symm.trans hy)
      exact ⟨hholds, hseen⟩
  obtain ⟨hall, hpart⟩ := receiveAmPdu_segment hs hp hholds hseen
  have hother : ∀ k ≠ x.sn, (s.rx.receiveAmPdu p).1.rxReassembly[k]? = s.rx.rxReassembly[k]? :=
    fun k hk => receiveAmPdu_other s.rx p (hsn ▸ hk)
  have hcome := comeIn_segment hx hsn hfull
  -- under the SDU's own number, it is complete and delivered, or its segments are kept
  have hhere : ((s.rx.receiveAmPdu p).2 = some x.sdu ∧
      (s.rx.receiveAmPdu p).1.rxReassembly[x.sn]? = none ∧ s.comeIn i p x.sn = []) ∨
      ∃ r, (s.rx.receiveAmPdu p).1.rxReassembly[x.sn]? = some r ∧
        Holds r x.sdu (s.comeIn i p x.sn) ∧ s.comeIn i p x.sn = p :: s.parts x.sn := by
    rw [hcome, Function.update_self]
    by_cases hround : x.pdus ⊆ p :: s.parts x.sn
    · rw [if_pos hround]
      exact .inl ⟨(hall hround).1, (hall hround).2.2, rfl⟩
    · rw [if_neg hround]
      obtain ⟨-, -, r, hr, hholds⟩ := hpart hround
      exact .inr ⟨r, hr, hholds, rfl⟩
  have hrest : ∀ k ≠ x.sn, s.comeIn i p k = s.parts k := by
    intro k hk
    rw [hcome, Function.update_of_ne hk]
  have hmode := (RlcEntity.receiveAmPdu_same s.rx p).1.trans h.rxMode
  have hnext := h.next_cons hx hsn
  rw [if_neg hfull, hsn]
  generalize s.comeIn i p = parts at *
  generalize s.rx.receiveAmPdu p = result at *
  have hsub : s.delivered ⊆ s.delivered ++ (result.2.map (i, ·)).toList :=
    List.subset_append_left _ _
  have hheard : (∃ y, s.sent[i]? = some y ∧
      (i, y.sdu) ∈ s.delivered ++ (result.2.map (i, ·)).toList) ∨
      result.1.rxReassembly[x.sn]? ≠ none := by
    rcases hhere with ⟨hout, -⟩ | ⟨r, hr, -⟩
    · exact .inl ⟨x, hx, by simp [hout]⟩
    · exact .inr (by rw [hr]; simp)
  refine ⟨h.txMode, hmode, h.txNext, h.sent, h.packets, h.holder, hnext, ?_, ?_, ?_, ?_, ?_⟩
  · intro sn r hr
    dsimp only at hr ⊢
    by_cases heq : sn = x.sn
    · subst heq
      rw [Function.update_self]
      rcases hhere with ⟨-, hnone, -⟩ | ⟨r', hr', hholds', hparts⟩
      · rw [hnone] at hr
        cases hr
      · obtain rfl : r' = r := Option.some.inj (hr'.symm.trans hr)
        refine ⟨x, hx, rfl, hholds', ?_⟩
        rw [hparts]
        exact List.cons_subset.mpr ⟨hp, hseen⟩
    · rw [hother sn heq] at hr
      rw [Function.update_of_ne heq, hrest sn heq]
      exact h.entries sn r hr
  · intro sn
    dsimp only
    by_cases heq : sn = x.sn
    · subst heq
      rcases hhere with ⟨-, hnone, hparts⟩ | ⟨r, hr, -, hparts⟩
      · exact iff_of_true hnone hparts
      · exact iff_of_false (by rw [hr]; simp) (by rw [hparts]; simp)
    · rw [hother sn heq, hrest sn heq]
      exact h.parts sn
  · intro j hj
    rcases List.mem_cons.mp hj with rfl | hj
    · exact ⟨x, hx, hheard.imp_right fun hkept => ⟨hkept, Function.update_self ..⟩⟩
    · obtain ⟨y, hy, hcase⟩ := h.heard j hj
      refine ⟨y, hy, ?_⟩
      rcases hcase with hdelivered | ⟨hkept, howner⟩
      · exact .inl (hdelivered.mono (List.prefix_refl _) hsub)
      · by_cases heq : y.sn = x.sn
        · rw [heq] at hkept howner ⊢
          obtain rfl : i = j :=
            (hown fun hparts => hkept ((h.parts x.sn).mpr hparts)).symm.trans howner
          exact hheard.imp_right fun hkept => ⟨hkept, Function.update_self ..⟩
        · right
          refine ⟨?_, ?_⟩
          · dsimp only
            rwa [hother _ heq]
          · dsimp only
            rwa [Function.update_of_ne heq]
  · intro report hreport status hparse
    exact (h.reports report hreport status hparse).mono (List.prefix_refl _) hsub
  · intro j hj
    exact (h.safe j hj).mono (List.prefix_refl _) hsub

theorem Sound.packetArrives (h : s.Sound size) (hheard : s.Heard (.packetArrives k)) :
    (s.step (.packetArrives k)).Sound size := by
  rw [step]
  cases hpacket : s.packets[k]? with
  | none => exact h
  | some packet =>
    obtain ⟨x, p, hx, hp, hdata⟩ := h.packets packet (List.mem_of_getElem? hpacket)
    obtain ⟨hsn, hcarries⟩ := h.sent x (List.mem_of_getElem? hx)
    obtain ⟨hsize, hpsn, hfits⟩ := hcarries.fits hsn hp
    have hparse : RlcAmDataPdu.parse s.rx.snSize packet.data = .ok p := by
      rw [snSize_eq h.rxMode, hdata, ← hsize, RlcAmDataPdu.parse_serialize hfits]
    simp only [hparse]
    have hown := fun hfull => hheard packet p hpacket hparse hfull
    obtain ⟨sn, sdu, pdus⟩ := x
    dsimp only at *
    cases hcarries with
    | full poll =>
      obtain rfl := List.mem_singleton.mp hp
      exact h.full hx rfl rfl rfl
    | segments hs =>
      refine h.segment hx hs hp hpsn ?_
      rw [← hpsn]
      exact hown (hs.at hp).2.2

theorem Sound.step (h : s.Sound size) (event : Event) (hheard : s.Heard event) :
    (s.step event).Sound size := by
  cases event with
  | send sdu grantSize poll => exact h.send hheard
  | packetArrives k => exact h.packetArrives hheard
  | report => exact h.report
  | reportArrives k => exact h.reportArrives hheard

/-- Nothing is freed before it is delivered, as long as no report comes in that was written when a
whole SDU, not freed yet, had been passed over. -/
theorem freed_delivered {events : List Event} (h : Machine.Along step Heard (start size) events) :
    ((start size).run events).Safe :=
  (h.keeps (fun _ event hs hheard => hs.step event hheard) (sound_start size)).safe

/-- Of two SDUs the second comes in as two segments, in the wrong order, with a report in between:
it frees the first SDU, and another one the second. -/
def twoReports : List Event :=
  [.send [1] 10 true, .send [2, 3] 1 true, .packetArrives 0, .packetArrives 2, .report,
    .packetArrives 1, .reportArrives 0, .report, .reportArrives 1]

example : ((start .am12Bits).run twoReports).freed = [0, 1] := by decide +kernel

theorem freed_delivered_run : ((start .am12Bits).run twoReports).Safe := by
  have h : Machine.Along step Heard (start .am12Bits) twoReports := by
    refine ⟨.inl (by decide), .inr ?_, ?_, ?_, trivial, ?_, ?_, trivial, ?_, trivial⟩
    · intro k hk
      have : k < 2 := by simpa using hk
      omega
    · intro packet pdu hpacket hparse hfull
      obtain rfl := Option.some.inj hpacket
      obtain rfl := Except.ok.inj hparse
      exact absurd rfl hfull
    · intro packet pdu hpacket hparse _ hparts
      obtain rfl := Option.some.inj hpacket
      obtain rfl := Except.ok.inj hparse
      exact absurd rfl hparts
    · intro packet pdu hpacket hparse _ _
      obtain rfl := Option.some.inj hpacket
      obtain rfl := Except.ok.inj hparse
      rfl
    · intro report hreport sn hsn _
      obtain rfl := Option.some.inj hreport
      have hkeys : sn ∈ [1, 0] := AList.mem_keys.mp hsn
      rcases List.mem_pair.mp hkeys with rfl | rfl <;> decide +kernel
    · intro report hreport sn hsn _
      obtain rfl := Option.some.inj hreport
      have hkeys : sn ∈ [1] := AList.mem_keys.mp hsn
      obtain rfl := List.mem_singleton.mp hkeys
      decide +kernel
  exact freed_delivered h

/-- The first of two SDUs is lost; the report of the second one frees both. -/
theorem lost_freed : ¬ ((start .am12Bits).run [.send [1] 10 true, .send [2] 10 true,
    .packetArrives 1, .report, .reportArrives 0]).Safe := by
  intro h
  obtain ⟨x, hx, hmem⟩ := h 0 (by decide +kernel)
  obtain rfl := Option.some.inj hx
  exact absurd hmem (by decide +kernel)

end Link

end ToyTcpip.Rlc

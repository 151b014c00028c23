import ToyTcpip.Lib.Entries
import ToyTcpip.Lib.Machine

/-! PDCP duplication over several legs (`nr_pdcp_duplication.rs`). -/
namespace ToyTcpip.Duplication

inductive PdcpSnFormat where
  | sn12Bits
  | sn18Bits
  deriving DecidableEq

namespace PdcpSnFormat

def numBits : PdcpSnFormat → ℕ
  | .sn12Bits => 12
  | .sn18Bits => 18

def maxSn (f : PdcpSnFormat) : ℕ := 2 ^ f.numBits - 1

def windowSize (f : PdcpSnFormat) : ℕ := 2 ^ (f.numBits - 1)

end PdcpSnFormat

structure LegConfig where
  legId : UInt8
  isPrimary : Bool
  isActive : Bool
  deriving DecidableEq

def LegConfig.new (legId : UInt8) (isPrimary : Bool) : LegConfig := ⟨legId, isPrimary, isPrimary⟩

structure PdcpDuplicationMacCe where
  drbId : UInt8
  leg0Active : Bool
  leg1Active : Bool
  leg2Active : Bool
  leg3Active : Bool

def PdcpDuplicationMacCe.isLegActive (ce : PdcpDuplicationMacCe) (legId : UInt8) : Bool :=
  if legId = 0 then ce.leg0Active
  else if legId = 1 then ce.leg1Active
  else if legId = 2 then ce.leg2Active
  else if legId = 3 then ce.leg3Active
  else false

structure PdcpDuplicationPdu where
  sn : ℕ
  count : ℕ
  legId : UInt8
  payload : List UInt8
  deriving DecidableEq

structure InFlightDiscardSignal where
  sn : ℕ
  count : ℕ
  receivedLegId : UInt8
  targetLegIds : List UInt8
  deriving DecidableEq

/-- The one error that `submit_sdu` reports. -/
inductive PdcpDuplicationError where
  | noActiveLegsAvailable
  deriving DecidableEq

structure PdcpDuplicationEngine where
  drbId : UInt8
  snFormat : PdcpSnFormat
  nextTxSn : ℕ
  txHfn : ℕ
  legs : List LegConfig
  primaryLegId : UInt8
  rxDeliveredCounts : Finset ℕ
  rxNextCount : ℕ

namespace PdcpDuplicationEngine

def new (drbId : UInt8) (snFormat : PdcpSnFormat) (legs : List LegConfig) (primaryLegId : UInt8) :
    PdcpDuplicationEngine := ⟨drbId, snFormat, 0, 0, legs, primaryLegId, ∅, 0⟩

def applyDuplicationMacCe (e : PdcpDuplicationEngine) (ce : PdcpDuplicationMacCe) :
    PdcpDuplicationEngine :=
  if ce.drbId ≠ e.drbId then e
  else
    let legs := e.legs.map fun leg => { leg with isActive := ce.isLegActive leg.legId }
    { e with
      legs := legs.modify (legs.findIdx (·.legId = e.primaryLegId)) fun leg =>
        { leg with isActive := true } }

/-- `best` is the place of the leg with the least score, a floating-point number. -/
def adaptPrimaryPath (e : PdcpDuplicationEngine) (best : ℕ) : PdcpDuplicationEngine :=
  match e.legs[best]? with
  | none => e
  | some bestLeg =>
    { e with
      primaryLegId := bestLeg.legId
      legs := e.legs.map fun leg => { leg with isPrimary := leg.legId = bestLeg.legId } }

/-- `u32` arithmetic: the shift drops the high bits of the hyper-frame number. -/
def txCount (e : PdcpDuplicationEngine) : ℕ :=
  ((e.txHfn <<< e.snFormat.numBits) % 2 ^ 32) ||| e.nextTxSn

def submitSdu (e : PdcpDuplicationEngine) (payload : List UInt8) :
    Except PdcpDuplicationError (PdcpDuplicationEngine × List PdcpDuplicationPdu) :=
  let activeLegIds := (e.legs.filter (·.isActive)).map (·.legId)
  if activeLegIds = [] then .error .noActiveLegsAvailable
  else
    let pdus := activeLegIds.map fun legId => ⟨e.nextTxSn, e.txCount, legId, payload⟩
    if e.nextTxSn ≥ e.snFormat.maxSn then
      .ok ({ e with nextTxSn := 0, txHfn := (e.txHfn + 1) % 2 ^ 32 }, pdus)
    else .ok ({ e with nextTxSn := e.nextTxSn + 1 }, pdus)

def receivePdu (e : PdcpDuplicationEngine) (pdu : PdcpDuplicationPdu) :
    PdcpDuplicationEngine × Option (List UInt8 × Option InFlightDiscardSignal) :=
  if pdu.count ∈ e.rxDeliveredCounts then (e, none)
  else
    let delivered := insert pdu.count e.rxDeliveredCounts
    let window := e.snFormat.windowSize
    let otherActiveLegs :=
      (e.legs.filter fun leg => leg.isActive ∧ leg.legId ≠ pdu.legId).map (·.legId)
    ({ e with
        rxDeliveredCounts :=
          if window ≤ pdu.count then delivered.filter (pdu.count - window ≤ ·) else delivered
        rxNextCount := max e.rxNextCount ((pdu.count + 1) % 2 ^ 32) },
      some (pdu.payload,
        if otherActiveLegs ≠ [] then some ⟨pdu.sn, pdu.count, pdu.legId,
          otherActiveLegs⟩ else none))

end PdcpDuplicationEngine

/-! ### A transmitter, a receiver and the legs between them -/

open PdcpDuplicationEngine

inductive Event where
  | submitSdu (payload : List UInt8)
  | txMacCe (ce : PdcpDuplicationMacCe)
  | rxMacCe (ce : PdcpDuplicationMacCe)
  | txAdaptPrimaryPath (best : ℕ)
  | rxAdaptPrimaryPath (best : ℕ)
  /-- The `j`-th replica of the `i`-th SDU comes in. -/
  | arrive (i j : ℕ)

/-- The two engines, the SDUs submitted with their replicas, and what `receive_pdu` returned. -/
structure Bearer where
  tx : PdcpDuplicationEngine
  rx : PdcpDuplicationEngine
  sent : List (List UInt8 × List PdcpDuplicationPdu)
  returned : List (ℕ × List UInt8)

namespace Bearer

def start (tx rx : PdcpDuplicationEngine) : Bearer := ⟨tx, rx, [], []⟩

def replica (s : Bearer) (i j : ℕ) : Option PdcpDuplicationPdu := s.sent[i]?.bind (·.2[j]?)

def step (s : Bearer) : Event → Bearer
  | .submitSdu payload =>
    match s.tx.submitSdu payload with
    | .error _ => s
    | .ok (tx, pdus) => { s with tx, sent := s.sent ++ [(payload, pdus)] }
  | .txMacCe ce => { s with tx := s.tx.applyDuplicationMacCe ce }
  | .rxMacCe ce => { s with rx := s.rx.applyDuplicationMacCe ce }
  | .txAdaptPrimaryPath best => { s with tx := s.tx.adaptPrimaryPath best }
  | .rxAdaptPrimaryPath best => { s with rx := s.rx.adaptPrimaryPath best }
  | .arrive i j =>
    match s.replica i j with
    | none => s
    | some pdu =>
      { s with
        rx := (s.rx.receivePdu pdu).1
        returned := s.returned ++ ((s.rx.receivePdu pdu).2.map fun r => (pdu.count, r.1)).toList }

def run : Bearer → List Event → Bearer := Machine.run step

/-- The COUNT was returned, and since then none beyond the window above it. -/
def Recent (s : Bearer) (count : ℕ) : Prop :=
  ∃ before after, s.returned.map (·.1) = before ++ count :: after ∧
    ∀ d ∈ after, d ≤ count + s.rx.snFormat.windowSize

/-- A replica of a COUNT that was returned comes in while this is recent. -/
def Remembered (s : Bearer) : Event → Prop
  | .arrive i j => ∀ pdu, s.replica i j = some pdu → pdu.count ∈ s.returned.map (·.1) →
    s.Recent pdu.count
  | _ => True

end Bearer

/-! ### The transmitter -/

namespace PdcpDuplicationEngine

variable {e e' : PdcpDuplicationEngine} {ce : PdcpDuplicationMacCe} {n best : ℕ}
  {payload : List UInt8} {pdu : PdcpDuplicationPdu} {pdus : List PdcpDuplicationPdu}

/-- Some leg is active, and the primary leg is one of the legs. -/
structure CanSend (e : PdcpDuplicationEngine) : Prop where
  active : ∃ leg ∈ e.legs, leg.isActive = true
  primary : ∃ leg ∈ e.legs, leg.legId = e.primaryLegId

/-- The numbers of a transmitter that has sent `n` SDUs. -/
structure Numbered (n : ℕ) (e : PdcpDuplicationEngine) : Prop where
  sn : e.nextTxSn = n % 2 ^ e.snFormat.numBits
  hfn : e.txHfn = n / 2 ^ e.snFormat.numBits % 2 ^ 32

theorem canSend_macCe (h : e.CanSend) : (e.applyDuplicationMacCe ce).CanSend := by
  unfold applyDuplicationMacCe
  split_ifs with hdrb
  · exact h
  · obtain ⟨leg, hleg, hid⟩ := h.primary
    generalize hlegs : e.legs.map (fun leg => { leg with isActive := ce.isLegActive leg.legId }) =
      legs
    have hmem : ∃ leg ∈ legs, leg.legId = e.primaryLegId := by
      rw [← hlegs]
      exact ⟨_, List.mem_map_of_mem hleg, hid⟩
    obtain ⟨first, hfirst⟩ : ∃ first, legs.find? (·.legId = e.primaryLegId) = some first := by
      rw [← Option.isSome_iff_exists, List.find?_isSome]
      simpa using hmem
    obtain ⟨before, after, -, hprimary, -, hmodify⟩ := Entries.split_first hfirst
    dsimp only
    refine ⟨⟨{ first with isActive := true }, ?_, rfl⟩,
      ⟨{ first with isActive := true }, ?_, by simpa using hprimary⟩⟩
    · simp [hmodify]
    · simp [hmodify]

theorem canSend_adaptPrimaryPath (h : e.CanSend) : (e.adaptPrimaryPath best).CanSend := by
  unfold adaptPrimaryPath
  cases hbest : e.legs[best]? with
  | none => exact h
  | some bestLeg =>
    obtain ⟨leg, hleg, hactive⟩ := h.active
    exact ⟨⟨_, List.mem_map_of_mem hleg, hactive⟩,
      ⟨_, List.mem_map_of_mem (List.mem_of_getElem? hbest), rfl⟩⟩

/-- While some leg is active a submission succeeds, with one replica for each active leg. -/
theorem submitSdu_of_canSend (h : e.CanSend) (payload : List UInt8) :
    ∃ e', e.submitSdu payload = .ok (e',
      ((e.legs.filter (·.isActive)).map (·.legId)).map fun legId =>
        ⟨e.nextTxSn, e.txCount, legId, payload⟩) ∧
      e'.legs = e.legs ∧ e'.primaryLegId = e.primaryLegId ∧
      (∀ n, e.Numbered n → e'.Numbered (n + 1)) := by
  obtain ⟨leg, hleg, hactive⟩ := h.active
  have hne : (e.legs.filter (·.isActive)).map (·.legId) ≠ [] := by
    intro hnil
    have hmem : leg ∈ e.legs.filter (·.isActive) := List.mem_filter.mpr ⟨hleg, hactive⟩
    rw [List.map_eq_nil_iff.mp hnil] at hmem
    cases hmem
  rw [submitSdu, if_neg hne]
  by_cases hmax : e.nextTxSn ≥ e.snFormat.maxSn
  · rw [if_pos hmax]
    refine ⟨_, rfl, rfl, rfl, ?_⟩
    intro n hn
    obtain ⟨hsn, hhfn⟩ := hn
    rw [PdcpSnFormat.maxSn] at hmax
    constructor <;> dsimp only <;> cases hf : e.snFormat <;>
      simp only [hf, PdcpSnFormat.numBits] at * <;> omega
  · rw [if_neg hmax]
    refine ⟨_, rfl, rfl, rfl, ?_⟩
    intro n hn
    obtain ⟨hsn, hhfn⟩ := hn
    rw [PdcpSnFormat.maxSn] at hmax
    constructor <;> dsimp only <;> cases hf : e.snFormat <;>
      simp only [hf, PdcpSnFormat.numBits] at * <;> omega

theorem txCount_eq (h : e.Numbered n) : e.txCount = n % 2 ^ 32 := by
  rw [txCount, h.sn, h.hfn, Nat.shiftLeft_eq]
  have hbits : e.snFormat.numBits ≤ 32 := by cases e.snFormat <;> decide
  have hhigh : n / 2 ^ e.snFormat.numBits % 2 ^ 32 * 2 ^ e.snFormat.numBits % 2 ^ 32 =
      2 ^ e.snFormat.numBits * (n % 2 ^ 32 / 2 ^ e.snFormat.numBits) := by
    cases e.snFormat <;> simp only [PdcpSnFormat.numBits] <;> omega
  have hlow : n % 2 ^ e.snFormat.numBits = n % 2 ^ 32 % 2 ^ e.snFormat.numBits := by
    cases e.snFormat <;> simp only [PdcpSnFormat.numBits] <;> omega
  rw [hhigh, hlow, ← Nat.two_pow_add_eq_or_of_lt (Nat.mod_lt _ (by positivity)), Nat.div_add_mod]

theorem numbered_of_eq (h : e.Numbered n) (hsn : e'.nextTxSn = e.nextTxSn)
    (hhfn : e'.txHfn = e.txHfn) (hf : e'.snFormat = e.snFormat) : e'.Numbered n :=
  ⟨by rw [hsn, hf, h.sn], by rw [hhfn, hf, h.hfn]⟩

theorem numbered_macCe (h : e.Numbered n) : (e.applyDuplicationMacCe ce).Numbered n := by
  unfold applyDuplicationMacCe
  split_ifs
  · exact h
  · exact numbered_of_eq h rfl rfl rfl

theorem numbered_adaptPrimaryPath (h : e.Numbered n) : (e.adaptPrimaryPath best).Numbered n := by
  unfold adaptPrimaryPath
  split
  · exact h
  · exact numbered_of_eq h rfl rfl rfl

/-! ### The receiver -/

theorem rx_macCe (e : PdcpDuplicationEngine) (ce : PdcpDuplicationMacCe) :
    (e.applyDuplicationMacCe ce).rxDeliveredCounts = e.rxDeliveredCounts ∧
      (e.applyDuplicationMacCe ce).snFormat = e.snFormat := by
  unfold applyDuplicationMacCe
  split_ifs <;> exact ⟨rfl, rfl⟩

theorem rx_adaptPrimaryPath (e : PdcpDuplicationEngine) (best : ℕ) :
    (e.adaptPrimaryPath best).rxDeliveredCounts = e.rxDeliveredCounts ∧
      (e.adaptPrimaryPath best).snFormat = e.snFormat := by
  unfold adaptPrimaryPath
  split <;> exact ⟨rfl, rfl⟩

theorem receivePdu_of_mem (h : pdu.count ∈ e.rxDeliveredCounts) : e.receivePdu pdu = (e, none) := by
  rw [receivePdu, if_pos h]

/-- A COUNT that is not remembered is returned; the receiver then forgets what lies more than a
window below it. -/
theorem receivePdu_of_notMem (h : pdu.count ∉ e.rxDeliveredCounts) :
    (∃ signal, (e.receivePdu pdu).2 = some (pdu.payload, signal)) ∧
      (e.receivePdu pdu).1.snFormat = e.snFormat ∧
      ∀ c, c ∈ (e.receivePdu pdu).1.rxDeliveredCounts ↔
        (c = pdu.count ∨ c ∈ e.rxDeliveredCounts) ∧ pdu.count ≤ c + e.snFormat.windowSize := by
  rw [receivePdu, if_neg h]
  refine ⟨⟨_, rfl⟩, rfl, fun c => ?_⟩
  dsimp only
  split_ifs with hw
  · simp only [Finset.mem_filter, Finset.mem_insert]
    refine and_congr_right fun _ => ?_
    omega
  · simp only [Finset.mem_insert]
    refine (and_iff_left_of_imp fun _ => ?_).symm
    omega

end PdcpDuplicationEngine

/-! ### Runs -/

namespace Bearer

variable {s : Bearer} {e : Event} {i j : ℕ} {pdu : PdcpDuplicationPdu}

/-- What holds after any events. -/
structure Sound (s : Bearer) : Prop where
  canSend : s.tx.CanSend
  numbered : s.tx.Numbered s.sent.length
  counts : ∀ (n : ℕ) (x : List UInt8 × List PdcpDuplicationPdu), s.sent[n]? = some x →
    ∀ pdu ∈ x.2, pdu.count = n % 2 ^ 32 ∧ pdu.payload = x.1
  delivered : ∀ c, c ∈ s.rx.rxDeliveredCounts ↔ s.Recent c
  returned : ∀ r ∈ s.returned, ∃ (n : ℕ) (x : List UInt8 × List PdcpDuplicationPdu),
    s.sent[n]? = some x ∧ r = (n % 2 ^ 32, x.1)

theorem Sound.submitSdu (h : s.Sound) (payload : List UInt8) :
    (s.step (.submitSdu payload)).Sound := by
  obtain ⟨tx, hsubmit, hlegs, hprimary, hnumbered⟩ := submitSdu_of_canSend h.canSend payload
  simp only [step, hsubmit]
  refine ⟨⟨?_, ?_⟩, ?_, ?_, h.delivered, ?_⟩
  · rw [hlegs]
    exact h.canSend.active
  · rw [hlegs, hprimary]
    exact h.canSend.primary
  · simpa using hnumbered _ h.numbered
  · intro n x hx pdu hpdu
    rcases Entries.getElem?_concat hx with hx | ⟨rfl, rfl⟩
    · exact h.counts n x hx pdu hpdu
    · obtain ⟨legId, -, rfl⟩ := List.mem_map.mp hpdu
      exact ⟨txCount_eq h.numbered, rfl⟩
  · intro r hr
    obtain ⟨n, x, hx, hr⟩ := h.returned r hr
    refine ⟨n, x, ?_, hr⟩
    rw [List.getElem?_append_left (List.getElem?_eq_some_iff.mp hx).1]
    exact hx

theorem replica_spec (h : s.Sound) (hpdu : s.replica i j = some pdu) :
    ∃ x, s.sent[i]? = some x ∧ pdu.count = i % 2 ^ 32 ∧ pdu.payload = x.1 := by
  rw [replica, Option.bind_eq_some_iff] at hpdu
  obtain ⟨x, hx, hpdu⟩ := hpdu
  exact ⟨x, hx, h.counts i x hx pdu (List.mem_of_getElem? hpdu)⟩

/-- What arrives is returned exactly when its COUNT is not recent. -/
theorem step_arrive (hpdu : s.replica i j = some pdu) :
    (s.step (.arrive i j)).returned =
      s.returned ++ (if pdu.count ∈ s.rx.rxDeliveredCounts then
        [] else [(pdu.count, pdu.payload)]) := by
  simp only [step, hpdu]
  by_cases hmem : pdu.count ∈ s.rx.rxDeliveredCounts
  · simp [receivePdu_of_mem hmem, hmem]
  · obtain ⟨⟨signal, hout⟩, -⟩ := receivePdu_of_notMem hmem
    simp [hout, hmem]

theorem Sound.arrive (h : s.Sound) : (s.step (.arrive i j)).Sound := by
  cases hpdu : s.replica i j with
  | none =>
    simp only [step, hpdu]
    exact h
  | some pdu =>
    by_cases hmem : pdu.count ∈ s.rx.rxDeliveredCounts
    · have hstep : s.step (.arrive i j) = s := by simp [step, hpdu, receivePdu_of_mem hmem]
      rw [hstep]
      exact h
    · obtain ⟨x, hx, hcount, hpayload⟩ := replica_spec h hpdu
      obtain ⟨⟨signal, hout⟩, hformat, hset⟩ := receivePdu_of_notMem hmem
      have hstep : s.step (.arrive i j) =
          ⟨s.tx, (s.rx.receivePdu pdu).1, s.sent, s.returned ++ [(pdu.count, pdu.payload)]⟩ := by
        simp [step, hpdu, hout]
      rw [hstep]
      refine ⟨h.canSend, h.numbered, h.counts, ?_, ?_⟩
      · intro c
        rw [hset, h.delivered, Recent, Recent, hformat]
        dsimp only
        rw [List.map_append]
        constructor
        · rintro ⟨rfl | ⟨before, after, hsplit, hafter⟩, hle⟩
          · exact ⟨s.returned.map (·.1), [], rfl, by simp⟩
          · refine ⟨before, after ++ [pdu.count], by simp [hsplit], ?_⟩
            intro d hd
            rcases List.mem_append.mp hd with hd | hd
            · exact hafter d hd
            · rw [List.mem_singleton.mp hd]
              exact hle
        · rintro ⟨before, after, hsplit, hafter⟩
          rcases List.eq_nil_or_concat after with rfl | ⟨after, last, rfl⟩
          · obtain ⟨-, hlast⟩ := List.append_inj' hsplit rfl
            obtain rfl : pdu.count = c := by simpa using hlast
            exact ⟨.inl rfl, by omega⟩
          · rw [List.concat_eq_append, ← List.cons_append, ← List.append_assoc] at hsplit
            obtain ⟨hinit, hlast⟩ := List.append_inj' hsplit rfl
            obtain rfl : pdu.count = last := by simpa using hlast
            refine ⟨.inr ⟨before, after, hinit, fun d hd => hafter d (by simp [hd])⟩, ?_⟩
            exact hafter _ (by simp)
      · intro r hr
        rcases List.mem_append.mp hr with hr | hr
        · exact h.returned r hr
        · rw [List.mem_singleton.mp hr, hcount, hpayload]
          exact ⟨i, x, hx, rfl⟩

theorem Sound.step (h : s.Sound) (e : Event) : (s.step e).Sound := by
  cases e with
  | submitSdu payload => exact h.submitSdu payload
  | arrive i j => exact h.arrive
  | txMacCe ce =>
    exact ⟨canSend_macCe h.canSend, numbered_macCe h.numbered, h.counts, h.delivered, h.returned⟩
  | txAdaptPrimaryPath best =>
    exact ⟨canSend_adaptPrimaryPath h.canSend, numbered_adaptPrimaryPath h.numbered, h.counts,
      h.delivered, h.returned⟩
  | rxMacCe ce =>
    obtain ⟨hset, hformat⟩ := rx_macCe s.rx ce
    refine ⟨h.canSend, h.numbered, h.counts, fun c => ?_, h.returned⟩
    simp only [Bearer.step, Recent, hset, hformat]
    exact h.delivered c
  | rxAdaptPrimaryPath best =>
    obtain ⟨hset, hformat⟩ := rx_adaptPrimaryPath s.rx best
    refine ⟨h.canSend, h.numbered, h.counts, fun c => ?_, h.returned⟩
    simp only [Bearer.step, Recent, hset, hformat]
    exact h.delivered c

/-- A transmitter with a primary leg, and a receiver, before the first SDU. -/
def fresh (drbId : UInt8) (snFormat : PdcpSnFormat) (txLegs rxLegs : List LegConfig)
    (txPrimary rxPrimary : UInt8) : Bearer :=
  start (.new drbId snFormat txLegs txPrimary) (.new drbId snFormat rxLegs rxPrimary)

theorem sound_fresh {drbId : UInt8} {snFormat : PdcpSnFormat} {txLegs rxLegs : List LegConfig}
    {txPrimary rxPrimary : UInt8} (h : .new txPrimary true ∈ txLegs) :
    (fresh drbId snFormat txLegs rxLegs txPrimary rxPrimary).Sound where
  canSend := ⟨⟨_, h, rfl⟩, ⟨_, h, rfl⟩⟩
  numbered := by constructor <;> simp [fresh, start, new]
  counts := by simp [fresh, start]
  delivered := by
    intro c
    simp [fresh, start, new, Recent]
  returned := by simp [fresh, start]

/-- Each COUNT has been returned at most once. -/
def ReturnedOnce (s : Bearer) : Prop := (s.returned.map (·.1)).Nodup

theorem returnedOnce_step_iff (h : s.Sound) (honce : s.ReturnedOnce) :
    (s.step e).ReturnedOnce ↔ s.Remembered e := by
  cases e with
  | submitSdu payload =>
    refine iff_of_true ?_ trivial
    have hsame : (s.step (.submitSdu payload)).returned = s.returned := by
      unfold Bearer.step
      dsimp only
      split <;> rfl
    rw [ReturnedOnce, hsame]
    exact honce
  | arrive i j =>
    unfold Remembered
    dsimp only
    cases hpdu : s.replica i j with
    | none =>
      refine iff_of_true ?_ (by simp)
      simp only [Bearer.step, hpdu]
      exact honce
    | some pdu =>
      rw [ReturnedOnce, step_arrive hpdu]
      by_cases hmem : pdu.count ∈ s.rx.rxDeliveredCounts
      · rw [if_pos hmem, List.append_nil]
        refine iff_of_true honce ?_
        rintro _ ⟨⟩ -
        exact (h.delivered _).mp hmem
      · rw [if_neg hmem, List.map_append, List.map_cons, List.map_nil, List.nodup_append]
        constructor
        · rintro ⟨-, -, hdisjoint⟩ _ ⟨⟩ hbefore
          exact absurd rfl (hdisjoint _ hbefore _ List.mem_cons_self)
        · intro hremembered
          refine ⟨honce, by simp, ?_⟩
          intro c hc d hd heq
          subst heq
          rw [List.mem_singleton.mp hd] at hc
          exact hmem ((h.delivered _).mpr (hremembered pdu rfl hc))
  | _ => exact iff_of_true honce trivial

/-- Under the condition each COUNT is returned at most once, with the SDU that was submitted under
it; an event keeps this exactly when it meets the condition. The `n`-th SDU has COUNT `n`, modulo `2
^ 32`, and no submission is refused. -/
theorem pdcp_duplication {drbId : UInt8} {snFormat : PdcpSnFormat} {txLegs rxLegs : List LegConfig}
    {txPrimary rxPrimary : UInt8} {events : List Event} (hprimary : .new txPrimary true ∈ txLegs)
    (h : Machine.Along step Remembered
      (fresh drbId snFormat txLegs rxLegs txPrimary rxPrimary) events) :
    let s := (fresh drbId snFormat txLegs rxLegs txPrimary rxPrimary).run events
    (s.ReturnedOnce ∧ ∀ e, (s.step e).ReturnedOnce ↔ s.Remembered e) ∧
      (∀ r ∈ s.returned, ∃ (n : ℕ) (x : List UInt8 × List PdcpDuplicationPdu),
        s.sent[n]? = some x ∧ r = (n % 2 ^ 32, x.1)) ∧
      (∀ (n : ℕ) (x : List UInt8 × List PdcpDuplicationPdu), s.sent[n]? = some x →
        ∀ pdu ∈ x.2, pdu.count = n % 2 ^ 32) ∧
      ∀ payload, s.tx.submitSdu payload ≠ .error .noActiveLegsAvailable := by
  intro s
  have hrun := h.keeps (I := fun s : Bearer => s.Sound ∧ s.ReturnedOnce)
    (fun s e hs he => ⟨hs.1.step e, (returnedOnce_step_iff hs.1 hs.2).mpr he⟩)
    ⟨sound_fresh hprimary, List.nodup_nil⟩
  refine ⟨⟨hrun.2, fun e => returnedOnce_step_iff hrun.1 hrun.2⟩, hrun.1.returned,
    fun n x hx pdu hpdu => (hrun.1.counts n x hx pdu hpdu).1, ?_⟩
  intro payload herror
  obtain ⟨tx, hsubmit, -⟩ := submitSdu_of_canSend hrun.1.canSend payload
  cases hsubmit.symm.trans herror

/-- Both replicas of one SDU come in. -/
theorem pdcp_duplication_pair :
    ((fresh 1 .sn12Bits [.new 0 true, .new 1 false] [.new 0 true] 0 0).run
      [.txMacCe ⟨1, true, true, false, false⟩, .submitSdu [7], .arrive 0 1,
        .arrive 0 0]).ReturnedOnce := by
  have h : Machine.Along step Remembered (fresh 1 .sn12Bits [.new 0 true, .new 1 false]
    [.new 0 true] 0 0)
      [.txMacCe ⟨1, true, true, false, false⟩, .submitSdu [7], .arrive 0 1, .arrive 0 0] := by
    refine ⟨trivial, trivial, ?_, ?_, trivial⟩
    · intro pdu _ hmem
      cases hmem
    · intro pdu hpdu _
      obtain rfl : pdu = ⟨0, 0, 0, [7]⟩ := Option.some.inj (hpdu.symm.trans (by decide))
      exact ⟨[], [], by decide, by simp⟩
  exact (pdcp_duplication (by decide) h).1.1

/-! ### A replica that is more than a window late -/

/-- `k` more SDUs with nothing coming in. -/
theorem run_submits (h : s.Sound) (payload : List UInt8) (k : ℕ) :
    let s' := s.run (List.replicate k (.submitSdu payload))
    s'.Sound ∧ s'.rx = s.rx ∧ s'.returned = s.returned ∧
      (∀ i < s.sent.length, s'.sent[i]? = s.sent[i]?) ∧ s'.sent.length = s.sent.length + k ∧
      ∀ i < k, ∃ pdu, s'.replica (s.sent.length + i) 0 = some pdu := by
  induction k with
  | zero => exact ⟨h, rfl, rfl, fun _ _ => rfl, rfl, by simp⟩
  | succ k ih =>
    obtain ⟨hsound, hrx, hreturned, hsent, hlen, hreplica⟩ := ih
    rw [List.replicate_succ', run, Machine.run_append]
    rw [run] at hsound hrx hreturned hsent hlen hreplica
    generalize Machine.run Bearer.step s (List.replicate k (.submitSdu payload)) = s₁ at *
    change (s₁.step (.submitSdu payload)).Sound ∧ (s₁.step (.submitSdu payload)).rx = s.rx ∧ _
    obtain ⟨tx, hsubmit, -⟩ := submitSdu_of_canSend hsound.canSend payload
    have hnext : (s₁.step (.submitSdu payload)).Sound := hsound.step _
    obtain ⟨leg, hleg, hactive⟩ := hsound.canSend.active
    have hmem : leg ∈ s₁.tx.legs.filter (·.isActive) := List.mem_filter.mpr ⟨hleg, hactive⟩
    obtain ⟨first, rest, hcons⟩ := List.exists_cons_of_ne_nil (List.ne_nil_of_mem hmem)
    refine ⟨hnext, ?_⟩
    simp only [Bearer.step, hsubmit, Machine.run, List.foldl]
    refine ⟨hrx, hreturned, ?_, by simp; omega, ?_⟩
    · intro i hi
      rw [List.getElem?_append_left (by omega)]
      exact hsent i hi
    · intro i hi
      rcases Nat.lt_succ_iff_lt_or_eq.mp hi with hi | rfl
      · obtain ⟨pdu, hpdu⟩ := hreplica i hi
        refine ⟨pdu, ?_⟩
        rw [replica, List.getElem?_append_left (by omega)]
        exact hpdu
      · rw [replica, ← hlen, List.getElem?_concat_length]
        simp [hcons]

theorem returned_twice {n : ℕ} (hn : 2048 < n) (hsmall : n < 2 ^ 32) (h : s.Sound)
    (hreturned : s.returned = [(0, [7])]) (hlen : s.sent.length = 1)
    (hlate : s.replica 0 1 = some ⟨0, 0, 1, [7]⟩) (hformat : s.rx.snFormat = .sn12Bits) :
    ¬ ((s.run (List.replicate n (.submitSdu [7]))).run [.arrive n 0,
      .arrive 0 1]).ReturnedOnce := by
  obtain ⟨hsound, hrx, hreturned', hsent, -, hreplica⟩ := run_submits h [7] n
  generalize s.run (List.replicate n (.submitSdu [7])) = s₂ at *
  obtain ⟨pdu, hpdu⟩ := hreplica (n - 1) (by omega)
  rw [hlen, Nat.add_sub_cancel' (by omega)] at hpdu
  obtain ⟨-, -, hcount, -⟩ := replica_spec hsound hpdu
  rw [Nat.mod_eq_of_lt hsmall] at hcount
  have hreturned₂ : s₂.returned = [(0, [7])] := hreturned'.trans hreturned
  have hnew : pdu.count ∉ s₂.rx.rxDeliveredCounts := by
    rw [hsound.delivered, hcount]
    rintro ⟨before, after, hsplit, -⟩
    have hmem : n ∈ s₂.returned.map (·.1) := by simp [hsplit]
    simp [hreturned₂] at hmem
    omega
  have hreturned₃ : (s₂.step (.arrive n 0)).returned = [(0, [7]), (n, pdu.payload)] := by
    rw [step_arrive hpdu, if_neg hnew, hreturned₂, hcount, List.singleton_append]
  have hforgotten : ¬ 0 ∈ (s₂.step (.arrive n 0)).rx.rxDeliveredCounts := by
    simp only [Bearer.step, hpdu]
    rw [(receivePdu_of_notMem hnew).2.2, hrx, hformat, hcount]
    rintro ⟨-, hle⟩
    have : PdcpSnFormat.sn12Bits.windowSize = 2048 := rfl
    omega
  have hlate₃ : (s₂.step (.arrive n 0)).replica 0 1 = some ⟨0, 0, 1, [7]⟩ := by
    simp only [Bearer.step, hpdu]
    rw [replica, hsent 0 (by omega)]
    exact hlate
  have hreturned₄ : (s₂.run [.arrive n 0, .arrive 0 1]).returned.map (·.1) = [0, n, 0] := by
    change ((s₂.step (.arrive n 0)).step (.arrive 0 1)).returned.map (·.1) = _
    rw [step_arrive hlate₃, if_neg hforgotten, hreturned₃]
    simp
  rw [ReturnedOnce, hreturned₄]
  simp

/-- The second replica of the first SDU comes in after another SDU that is more than a window ahead,
and is returned again. -/
theorem pdcp_duplication_late :
    ¬ ((fresh 1 .sn12Bits [.new 0 true, .new 1 false] [.new 0 true] 0 0).run
      ([.txMacCe ⟨1, true, true, false, false⟩, .submitSdu [7], .arrive 0 0] ++
        (List.replicate 2049 (.submitSdu [7]) ++ [.arrive 2049 0, .arrive 0 1]))).ReturnedOnce := by
  rw [run, Machine.run_append, Machine.run_append]
  refine returned_twice (by decide) (by decide)
    (Machine.run_keeps (I := Sound) (fun _ e h => h.step e) _ ?_) rfl rfl rfl rfl
  exact sound_fresh (by decide)

end Bearer

end ToyTcpip.Duplication

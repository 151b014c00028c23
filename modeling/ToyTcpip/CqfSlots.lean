import ToyTcpip.Lib.Entries
import ToyTcpip.Lib.Machine

/-! Byte quotas in the slots of a CQF cycle (`tsn_cqf_slot_reservation.rs`). -/
namespace ToyTcpip.Cqf

inductive SlotAdmissionVerdict where
  | admitted (streamId : UInt32) (slotIndex reservedBytes slotStartNs slotEndNs : ℕ)
  | rejectedSlotFull (streamId : UInt32) (slotIndex requestedBytes availableBytes : ℕ)
  | rejectedInvalidSlot (streamId : UInt32) (slotIndex maxSlots : ℕ)
  | rejectedDuplicateStream (streamId : UInt32)
  deriving DecidableEq

inductive SlotTransmissionVerdict where
  | transmitWithinSlot (streamId : UInt32) (slotIndex frameBytes remainingSlotQuota : ℕ)
  | lateSlotViolation (streamId : UInt32)
    (slotIndex timeInCycleNs expectedStartNs expectedEndNs : ℕ)
  | quotaExceededDrop (streamId : UInt32) (slotIndex frameBytes remainingSlotQuota : ℕ)
  | unreservedStreamDrop (streamId : UInt32)
  deriving DecidableEq

structure CqfTimeSlot where
  slotIndex : ℕ
  startOffsetNs : ℕ
  durationNs : ℕ
  maxCapacityBytes : ℕ
  allocatedBytes : ℕ
  assignedStreams : ℕ
  deriving DecidableEq

def CqfTimeSlot.endNs (s : CqfTimeSlot) : ℕ := s.startOffsetNs + s.durationNs

structure StreamSlotReservation where
  streamId : UInt32
  slotIndex : ℕ
  reservedBytesPerCycle : ℕ
  usedBytesInCurrentCycle : ℕ
  deriving DecidableEq

structure TsnCqfSlotReservationEngine where
  cycleDurationNs : ℕ
  slots : List CqfTimeSlot
  reservations : List StreamSlotReservation
  deriving DecidableEq

namespace TsnCqfSlotReservationEngine

def new (cycleDurationNs numSlots slotCapacityBytes : ℕ) : TsnCqfSlotReservationEngine :=
  let numSlots := if numSlots = 0 then 1 else numSlots
  let slotDurationNs := cycleDurationNs / numSlots
  { cycleDurationNs
    slots := (List.range numSlots).map fun i =>
      ⟨i, i * slotDurationNs, slotDurationNs, slotCapacityBytes, 0, 0⟩
    reservations := [] }

def requestReservation (e : TsnCqfSlotReservationEngine) (streamId : UInt32)
    (slotIndex reservedBytes : ℕ) : TsnCqfSlotReservationEngine × SlotAdmissionVerdict :=
  if e.reservations.any (·.streamId = streamId) then (e, .rejectedDuplicateStream streamId)
  else
    match e.slots[slotIndex]? with
    | none => (e, .rejectedInvalidSlot streamId slotIndex e.slots.length)
    | some slot =>
      let available := slot.maxCapacityBytes - slot.allocatedBytes
      if reservedBytes > available then
        (e, .rejectedSlotFull streamId slotIndex reservedBytes available)
      else
        ({ e with
            slots := e.slots.modify slotIndex fun slot =>
              { slot with
                allocatedBytes := slot.allocatedBytes + reservedBytes
                assignedStreams := slot.assignedStreams + 1 }
            reservations := e.reservations ++ [⟨streamId, slotIndex, reservedBytes, 0⟩] },
          .admitted streamId slotIndex reservedBytes slot.startOffsetNs slot.endNs)

def releaseReservation (e : TsnCqfSlotReservationEngine) (streamId : UInt32) :
    TsnCqfSlotReservationEngine × Bool :=
  match e.reservations.find? (·.streamId = streamId) with
  | none => (e, false)
  | some res =>
    -- outside the vector `modify` leaves the slots alone, as the source's check of the index does
    ({ e with
        slots := e.slots.modify res.slotIndex fun slot =>
          { slot with
            allocatedBytes := slot.allocatedBytes - res.reservedBytesPerCycle
            assignedStreams := slot.assignedStreams - 1 }
        reservations := e.reservations.eraseP (·.streamId = streamId) }, true)

/-- `none` stands for a slot index outside the vector of slots. -/
def evaluateTransmission (e : TsnCqfSlotReservationEngine) (streamId : UInt32)
    (frameBytes timeInCycleNs : ℕ) :
    Option (TsnCqfSlotReservationEngine × SlotTransmissionVerdict) :=
  match e.reservations.find? (·.streamId = streamId) with
  | none => some (e, .unreservedStreamDrop streamId)
  | some res =>
    match e.slots[res.slotIndex]? with
    | none => none
    | some slot =>
      if timeInCycleNs < slot.startOffsetNs ∨ slot.endNs ≤ timeInCycleNs then
        some (e, .lateSlotViolation streamId res.slotIndex timeInCycleNs
          slot.startOffsetNs slot.endNs)
      else
        let remainingQuota := res.reservedBytesPerCycle - res.usedBytesInCurrentCycle
        if frameBytes > remainingQuota then
          some (e, .quotaExceededDrop streamId res.slotIndex frameBytes remainingQuota)
        else
          some ({ e with
              reservations := e.reservations.modify
                (e.reservations.findIdx (·.streamId = streamId)) fun res =>
                { res with usedBytesInCurrentCycle := res.usedBytesInCurrentCycle + frameBytes } },
            .transmitWithinSlot streamId res.slotIndex frameBytes
              (res.reservedBytesPerCycle - (res.usedBytesInCurrentCycle + frameBytes)))

def startNewCycle (e : TsnCqfSlotReservationEngine) : TsnCqfSlotReservationEngine :=
  { e with reservations := e.reservations.map fun res => { res with usedBytesInCurrentCycle := 0 } }

/-! ### What the calls do -/

variable {e : TsnCqfSlotReservationEngine} {streamId : UInt32} {i n time : ℕ} {slot : CqfTimeSlot}
  {res : StreamSlotReservation}

/-- The bytes reserved in a slot. -/
def reserved (e : TsnCqfSlotReservationEngine) (i : ℕ) : ℕ :=
  Entries.total (·.slotIndex) (·.reservedBytesPerCycle) i e.reservations

/-- The reservations of a slot. -/
def streams (e : TsnCqfSlotReservationEngine) (i : ℕ) : ℕ :=
  Entries.total (·.slotIndex) (fun _ => 1) i e.reservations

/-- The bytes of a slot that its reservations have used in the cycle. -/
def used (e : TsnCqfSlotReservationEngine) (i : ℕ) : ℕ :=
  Entries.total (·.slotIndex) (·.usedBytesInCurrentCycle) i e.reservations

/-- The tests a request has to pass. -/
def Admits (e : TsnCqfSlotReservationEngine) (streamId : UInt32) (i n : ℕ) : Prop :=
  (∀ r ∈ e.reservations, r.streamId ≠ streamId) ∧
    ∃ slot, e.slots[i]? = some slot ∧ n ≤ slot.maxCapacityBytes - slot.allocatedBytes

def admitStream (e : TsnCqfSlotReservationEngine) (streamId : UInt32) (i n : ℕ) :
    TsnCqfSlotReservationEngine :=
  { e with
    slots := e.slots.modify i fun slot =>
      { slot with
        allocatedBytes := slot.allocatedBytes + n
        assignedStreams := slot.assignedStreams + 1 }
    reservations := e.reservations ++ [⟨streamId, i, n, 0⟩] }

theorem requestReservation_of_admits (h : e.Admits streamId i n) :
    (e.requestReservation streamId i n).1 = e.admitStream streamId i n := by
  obtain ⟨hnew, slot, hslot, hfits⟩ := h
  have hany : ¬ e.reservations.any (·.streamId = streamId) = true := by
    simpa using hnew
  rw [requestReservation, if_neg hany]
  simp only [hslot]
  rw [if_neg (by omega)]
  rfl

theorem requestReservation_of_not_admits (h : ¬ e.Admits streamId i n) :
    (e.requestReservation streamId i n).1 = e := by
  unfold requestReservation
  split
  · rfl
  · rename_i hany
    cases hslot : e.slots[i]? with
    | none => rfl
    | some slot =>
      dsimp only
      split
      · rfl
      · refine absurd ⟨?_, slot, hslot, by omega⟩ h
        simpa using hany

/-- The tests a frame of a reservation has to pass. -/
def Grants (e : TsnCqfSlotReservationEngine) (streamId : UInt32) (n time : ℕ)
    (res : StreamSlotReservation) : Prop :=
  e.reservations.find? (·.streamId = streamId) = some res ∧
    (∃ slot, e.slots[res.slotIndex]? = some slot ∧ slot.startOffsetNs ≤ time ∧ time < slot.endNs) ∧
    n ≤ res.reservedBytesPerCycle - res.usedBytesInCurrentCycle

def grant (e : TsnCqfSlotReservationEngine) (streamId : UInt32) (n : ℕ) :
    TsnCqfSlotReservationEngine :=
  { e with
    reservations := e.reservations.modify (e.reservations.findIdx
      (·.streamId = streamId)) fun res =>
      { res with usedBytesInCurrentCycle := res.usedBytesInCurrentCycle + n } }

theorem evaluateTransmission_of_grants (h : e.Grants streamId n time res) :
    e.evaluateTransmission streamId n time = some (e.grant streamId n,
      .transmitWithinSlot streamId res.slotIndex n
        (res.reservedBytesPerCycle - (res.usedBytesInCurrentCycle + n))) := by
  obtain ⟨hfind, ⟨slot, hslot, hstart, hend⟩, hquota⟩ := h
  simp only [evaluateTransmission, hfind, hslot]
  rw [if_neg (by omega), if_neg (by omega)]
  rfl

/-- Any other frame is dropped, and changes nothing. -/
theorem evaluateTransmission_of_not_grants (h : ∀ res, ¬ e.Grants streamId n time res) :
    e.evaluateTransmission streamId n time = none ∨ ∃ verdict,
      e.evaluateTransmission streamId n time = some (e, verdict) ∧
      ∀ id i n q, verdict ≠ .transmitWithinSlot id i n q := by
  unfold evaluateTransmission
  cases hfind : e.reservations.find? (·.streamId = streamId) with
  | none => exact .inr ⟨_, rfl, by simp⟩
  | some res =>
    dsimp only
    cases hslot : e.slots[res.slotIndex]? with
    | none => exact .inl rfl
    | some slot =>
      dsimp only
      split
      · exact .inr ⟨_, rfl, by simp⟩
      · split
        · exact .inr ⟨_, rfl, by simp⟩
        · exact absurd ⟨hfind, ⟨slot, hslot, by omega, by omega⟩, by omega⟩ (h res)

end TsnCqfSlotReservationEngine

/-! ### The cycles of an engine -/

open TsnCqfSlotReservationEngine

inductive Call where
  | requestReservation (streamId : UInt32) (slotIndex reservedBytes : ℕ)
  | releaseReservation (streamId : UInt32)
  | evaluateTransmission (streamId : UInt32) (frameBytes timeInCycleNs : ℕ)
  | startNewCycle

/-- An engine, the bytes it granted in each slot since the cycle started, and how many of these it
granted to reservations that it released since. -/
structure Cycle where
  engine : TsnCqfSlotReservationEngine
  granted : ℕ → ℕ
  released : ℕ → ℕ

namespace Cycle

def start (cycleDurationNs numSlots slotCapacityBytes : ℕ) : Cycle :=
  ⟨.new cycleDurationNs numSlots slotCapacityBytes, fun _ => 0, fun _ => 0⟩

def add (f : ℕ → ℕ) (i n : ℕ) : ℕ → ℕ := Function.update f i (f i + n)

def step (c : Cycle) : Call → Cycle
  | .requestReservation streamId slotIndex reservedBytes =>
    { c with engine := (c.engine.requestReservation streamId slotIndex reservedBytes).1 }
  | .releaseReservation streamId =>
    { c with
      engine := (c.engine.releaseReservation streamId).1
      released :=
        match c.engine.reservations.find? (·.streamId = streamId) with
        | none => c.released
        | some res => add c.released res.slotIndex res.usedBytesInCurrentCycle }
  | .evaluateTransmission streamId frameBytes timeInCycleNs =>
    match c.engine.evaluateTransmission streamId frameBytes timeInCycleNs with
    | none => c
    | some (engine, .transmitWithinSlot _ i bytes _) =>
      { c with engine, granted := add c.granted i bytes }
    | some (engine, _) => { c with engine }
  | .startNewCycle => ⟨c.engine.startNewCycle, fun _ => 0, fun _ => 0⟩

def run : Cycle → List Call → Cycle := Machine.run step

variable {c : Cycle} {streamId : UInt32} {i n time : ℕ} {slot : CqfTimeSlot}
  {res : StreamSlotReservation} {call : Call}

theorem step_evaluate_of_grants (h : c.engine.Grants streamId n time res) :
    c.step (.evaluateTransmission streamId n time) =
      { c with engine := c.engine.grant streamId n, granted := add c.granted res.slotIndex n } := by
  simp only [step, evaluateTransmission_of_grants h]

theorem step_evaluate_of_not_grants (h : ∀ res, ¬ c.engine.Grants streamId n time res) :
    c.step (.evaluateTransmission streamId n time) = c := by
  rcases evaluateTransmission_of_not_grants h with heq | ⟨verdict, heq, hverdict⟩
  · simp only [step, heq]
  · simp only [step, heq]

/-! ### Invariants -/

/-- A slot as `new` places it, with its reservations accounted for. -/
structure SlotSound (e : TsnCqfSlotReservationEngine) (d cap i : ℕ)
    (slot : CqfTimeSlot) : Prop where
  index : slot.slotIndex = i
  start : slot.startOffsetNs = i * d
  duration : slot.durationNs = d
  capacity : slot.maxCapacityBytes = cap
  allocated : slot.allocatedBytes = e.reserved i
  fits : e.reserved i ≤ cap
  assigned : slot.assignedStreams = e.streams i

structure Sound (d cap : ℕ) (c : Cycle) : Prop where
  slots : ∀ i slot, c.engine.slots[i]? = some slot → SlotSound c.engine d cap i slot
  length : c.engine.slots.length * d ≤ c.engine.cycleDurationNs
  unique : (c.engine.reservations.map (·.streamId)).Nodup
  placed : ∀ r ∈ c.engine.reservations, r.slotIndex < c.engine.slots.length
  quota : ∀ r ∈ c.engine.reservations, r.usedBytesInCurrentCycle ≤ r.reservedBytesPerCycle
  granted : ∀ i, c.granted i = c.released i + c.engine.used i

variable {d cap : ℕ}

theorem sound_start (cycleNs numSlots cap : ℕ) :
    (start cycleNs numSlots cap).Sound (cycleNs / if numSlots = 0 then 1 else numSlots) cap := by
  refine ⟨?_, ?_, by simp [start, new], by simp [start, new], by simp [start, new], ?_⟩
  · intro i slot hslot
    simp only [start, new, List.getElem?_map, Option.map_eq_some_iff] at hslot
    obtain ⟨j, hj, rfl⟩ := hslot
    obtain rfl : j = i := by
      obtain ⟨_, h⟩ := List.getElem?_eq_some_iff.mp hj
      simpa using h.symm
    exact ⟨rfl, rfl, rfl, rfl, rfl, Nat.zero_le _, rfl⟩
  · simp only [start, new, List.length_map, List.length_range]
    exact Nat.mul_div_le _ _
  · intro i
    rfl

theorem reserved_admitStream (j : ℕ) : (c.engine.admitStream streamId i n).reserved j =
    c.engine.reserved j + if i = j then n else 0 := by
  simp [reserved, admitStream, Entries.total_append, Entries.total_cons]

theorem streams_admitStream (j : ℕ) : (c.engine.admitStream streamId i n).streams j =
    c.engine.streams j + if i = j then 1 else 0 := by
  simp [streams, admitStream, Entries.total_append, Entries.total_cons]

theorem used_admitStream (j : ℕ) : (c.engine.admitStream streamId i n).used j =
    c.engine.used j := by
  simp [used, admitStream, Entries.total_append, Entries.total_cons]

/-- The slots after a call that changes one of them. -/
theorem slots_modify {e e' : TsnCqfSlotReservationEngine} {f : CqfTimeSlot → CqfTimeSlot}
    (h : ∀ j slot, e.slots[j]? = some slot → SlotSound e d cap j slot)
    (hother : ∀ j ≠ i, e'.reserved j = e.reserved j ∧ e'.streams j = e.streams j)
    (hi : ∀ slot, e.slots[i]? = some slot → SlotSound e' d cap i (f slot)) :
    ∀ j slot, (e.slots.modify i f)[j]? = some slot → SlotSound e' d cap j slot := by
  intro j slot hslot
  rw [List.getElem?_modify] at hslot
  obtain ⟨old, hold, rfl⟩ := Option.map_eq_some_iff.mp hslot
  by_cases hij : i = j
  · subst hij
    simpa using hi old hold
  · rw [if_neg hij]
    obtain ⟨hreserved, hstreams⟩ := hother j (Ne.symm hij)
    have := h j old hold
    exact ⟨this.index, this.start, this.duration, this.capacity, by rw [hreserved, this.allocated],
      by rw [hreserved]; exact this.fits, by rw [hstreams, this.assigned]⟩

theorem Sound.request (h : c.Sound d cap) :
    (c.step (.requestReservation streamId i n)).Sound d cap := by
  by_cases hadmits : c.engine.Admits streamId i n
  · rw [step, requestReservation_of_admits hadmits]
    obtain ⟨hnew, slot, hslot, hfits⟩ := hadmits
    refine ⟨?_, ?_, ?_, ?_, ?_, ?_⟩
    · refine slots_modify h.slots ?_ ?_
      · intro j hj
        simp [reserved_admitStream, streams_admitStream, hj.symm]
      · intro old hold
        obtain rfl : old = slot := Option.some.inj (hold.symm.trans hslot)
        have hs := h.slots i old hold
        have hle := hs.fits
        rw [hs.capacity, hs.allocated] at hfits
        refine ⟨hs.index, hs.start, hs.duration, hs.capacity, ?_, ?_, ?_⟩
        · simp [reserved_admitStream, hs.allocated]
        · simp only [reserved_admitStream, if_true]
          omega
        · simp [streams_admitStream, hs.assigned]
    · simpa [admitStream] using h.length
    · simp only [admitStream, List.map_append, List.map_cons, List.map_nil]
      refine List.nodup_append.mpr ⟨h.unique, by simp, ?_⟩
      intro a ha b hb
      obtain ⟨r, hr, rfl⟩ := List.mem_map.mp ha
      rw [List.mem_singleton.mp hb]
      exact hnew r hr
    · intro r hr
      simp only [admitStream, List.length_modify]
      rcases List.mem_append.mp hr with hr | hr
      · exact h.placed r hr
      · rw [List.mem_singleton.mp hr]
        exact (List.getElem?_eq_some_iff.mp hslot).1
    · intro r hr
      rcases List.mem_append.mp hr with hr | hr
      · exact h.quota r hr
      · rw [List.mem_singleton.mp hr]
        exact Nat.zero_le _
    · intro j
      rw [used_admitStream]
      exact h.granted j
  · rw [step, requestReservation_of_not_admits hadmits]
    exact h

theorem Sound.release (h : c.Sound d cap) :
    (c.step (.releaseReservation streamId)).Sound d cap := by
  rw [step, releaseReservation]
  cases hfind : c.engine.reservations.find? (·.streamId = streamId) with
  | none => exact h
  | some res =>
    dsimp only
    obtain ⟨before, after, hsplit, -, herase, -⟩ := Entries.split_first hfind
    have htotal : ∀ f j, Entries.total (·.slotIndex) f j c.engine.reservations =
        (if res.slotIndex = j then f res else 0) + Entries.total (·.slotIndex) f j
          (before ++ after) := by
      intro f j
      rw [hsplit, Entries.total_append, Entries.total_cons, Entries.total_append]
      omega
    have hsub : (before ++ after).Sublist c.engine.reservations := by
      rw [hsplit]
      exact (List.sublist_cons_self res after).append_left before
    refine ⟨?_, by simpa using h.length, ?_, ?_, ?_, ?_⟩
    · refine slots_modify h.slots ?_ ?_
      · intro j hj
        simp only [reserved, streams, herase, htotal, if_neg hj.symm, Nat.zero_add, and_self]
      · intro slot hslot
        have hs := h.slots _ slot hslot
        have hfits := hs.fits
        have hallocated := hs.allocated
        have hassigned := hs.assigned
        refine ⟨hs.index, hs.start, hs.duration, hs.capacity, ?_, ?_, ?_⟩ <;>
          simp only [reserved, streams, herase, htotal, if_true] at * <;> omega
    · rw [herase]
      exact h.unique.sublist (hsub.map _)
    · intro r hr
      rw [herase] at hr
      simpa using h.placed r (hsub.subset hr)
    · intro r hr
      rw [herase] at hr
      exact h.quota r (hsub.subset hr)
    · intro j
      have hgranted := h.granted j
      simp only [used, herase, htotal] at hgranted ⊢
      by_cases hj : res.slotIndex = j
      · subst hj
        simp only [add, Function.update_self]
        simp only [if_true] at hgranted
        omega
      · rw [add, Function.update_of_ne (Ne.symm hj)]
        rw [if_neg hj] at hgranted
        omega

/-- A grant counts the bytes for the reservation, and leaves every other number as it was. -/
theorem grant_totals (h : c.engine.Grants streamId n time res) :
    (∀ j, (c.engine.grant streamId n).reserved j = c.engine.reserved j) ∧
      (∀ j, (c.engine.grant streamId n).streams j = c.engine.streams j) ∧
      ∀ j, (c.engine.grant streamId n).used j =
        c.engine.used j + if res.slotIndex = j then n else 0 := by
  obtain ⟨before, after, hsplit, -, -, hmodify⟩ := Entries.split_first h.1
  simp only [reserved, streams, used, grant, hmodify]
  simp only [hsplit, Entries.total_append, Entries.total_cons]
  refine ⟨fun j => trivial, fun j => trivial, fun j => ?_⟩
  split <;> omega

theorem Sound.evaluate (h : c.Sound d cap) :
    (c.step (.evaluateTransmission streamId n time)).Sound d cap := by
  by_cases hgrants : ∃ res, c.engine.Grants streamId n time res
  · obtain ⟨res, hgrants⟩ := hgrants
    rw [step_evaluate_of_grants hgrants]
    obtain ⟨hreserved, hstreams, hused⟩ := grant_totals hgrants
    obtain ⟨hfind, -, hquota⟩ := hgrants
    obtain ⟨before, after, hsplit, -, -, hmodify⟩ := Entries.split_first hfind
    have hres : res ∈ c.engine.reservations := List.mem_of_find?_eq_some hfind
    refine ⟨?_, h.length, ?_, ?_, ?_, ?_⟩
    · intro j slot hslot
      have hs := h.slots j slot hslot
      exact ⟨hs.index, hs.start, hs.duration, hs.capacity, by rw [hreserved, hs.allocated],
        by rw [hreserved]; exact hs.fits, by rw [hstreams, hs.assigned]⟩
    · have := h.unique
      rw [hsplit] at this
      simpa [grant, hmodify] using this
    · intro r hr
      simp only [grant, hmodify, List.mem_append, List.mem_cons] at hr
      rcases hr with hr | rfl | hr
      · exact h.placed r (by simp [hsplit, hr])
      · exact h.placed res hres
      · exact h.placed r (by simp [hsplit, hr])
    · intro r hr
      simp only [grant, hmodify, List.mem_append, List.mem_cons] at hr
      rcases hr with hr | rfl | hr
      · exact h.quota r (by simp [hsplit, hr])
      · have := h.quota res hres
        dsimp only
        omega
      · exact h.quota r (by simp [hsplit, hr])
    · intro j
      have hgranted := h.granted j
      dsimp only
      rw [hused]
      by_cases hj : res.slotIndex = j
      · subst hj
        simp only [add, Function.update_self, if_true]
        omega
      · rw [add, Function.update_of_ne (Ne.symm hj), if_neg hj]
        omega
  · rw [step_evaluate_of_not_grants fun res hres => hgrants ⟨res, hres⟩]
    exact h

theorem Sound.newCycle (h : c.Sound d cap) : (c.step .startNewCycle).Sound d cap := by
  have htotal : ∀ f g : StreamSlotReservation → ℕ,
      (∀ r, g { r with usedBytesInCurrentCycle := 0 } = f r) → ∀ (l : List StreamSlotReservation) j,
      Entries.total (·.slotIndex) g j (l.map fun r => { r with usedBytesInCurrentCycle := 0 }) =
        Entries.total (·.slotIndex) f j l := by
    intro f g hg l j
    induction l with
    | nil => rfl
    | cons r l ih => simp [Entries.total_cons, ih, hg]
  have hreserved : ∀ j, (c.engine.startNewCycle).reserved j = c.engine.reserved j :=
    htotal _ _ (fun _ => rfl) _
  have hstreams : ∀ j, (c.engine.startNewCycle).streams j = c.engine.streams j :=
    htotal _ _ (fun _ => rfl) _
  have hused : ∀ j, (c.engine.startNewCycle).used j = 0 := by
    intro j
    rw [used, startNewCycle, htotal (fun _ => 0) _ fun _ => rfl]
    simp [Entries.total]
  refine ⟨?_, h.length, ?_, ?_, ?_, ?_⟩
  · intro j slot hslot
    have hs := h.slots j slot hslot
    exact ⟨hs.index, hs.start, hs.duration, hs.capacity, by rw [step, hreserved, hs.allocated],
      by rw [step, hreserved]; exact hs.fits, by rw [step, hstreams, hs.assigned]⟩
  · simpa [step, startNewCycle, Function.comp_def] using h.unique
  · intro r hr
    obtain ⟨old, hold, rfl⟩ := List.mem_map.mp hr
    exact h.placed old hold
  · intro r hr
    obtain ⟨old, hold, rfl⟩ := List.mem_map.mp hr
    exact Nat.zero_le _
  · intro j
    rw [step, hused]

theorem Sound.step (h : c.Sound d cap) (call : Call) : (c.step call).Sound d cap := by
  cases call with
  | requestReservation streamId i n => exact h.request
  | releaseReservation streamId => exact h.release
  | evaluateTransmission streamId n time => exact h.evaluate
  | startNewCycle => exact h.newCycle

/-- The books of an engine: what its slots say of its reservations, and where they lie. -/
structure Accounts (e : TsnCqfSlotReservationEngine) : Prop where
  allocated : ∀ i slot, e.slots[i]? = some slot →
    slot.allocatedBytes = e.reserved i ∧ slot.allocatedBytes ≤ slot.maxCapacityBytes
  assigned : ∀ i slot, e.slots[i]? = some slot →
    slot.assignedStreams = (e.reservations.filter (·.slotIndex = i)).length
  unique : (e.reservations.map (·.streamId)).Nodup
  disjoint : ∀ (i j : ℕ) (si sj : CqfTimeSlot), i < j → e.slots[i]? = some si →
    e.slots[j]? = some sj →
    si.endNs ≤ sj.startOffsetNs
  inside : ∀ (i : ℕ) (slot : CqfTimeSlot), e.slots[i]? = some slot → slot.endNs ≤ e.cycleDurationNs

/-- The bytes granted in a slot since the cycle started stay within its capacity. -/
def WithinCapacity (c : Cycle) : Prop :=
  ∀ i slot, c.engine.slots[i]? = some slot → c.granted i ≤ slot.maxCapacityBytes

theorem Sound.accounts (h : c.Sound d cap) : Accounts c.engine := by
  refine ⟨?_, ?_, h.unique, ?_, ?_⟩
  · intro i slot hslot
    have hs := h.slots i slot hslot
    refine ⟨hs.allocated, ?_⟩
    rw [hs.allocated, hs.capacity]
    exact hs.fits
  · intro i slot hslot
    rw [(h.slots i slot hslot).assigned, streams, Entries.total]
    simp
  · intro i j si sj hij hi hj
    have hsi := h.slots i si hi
    have hsj := h.slots j sj hj
    rw [CqfTimeSlot.endNs, hsi.start, hsi.duration, hsj.start, ← Nat.succ_mul]
    exact Nat.mul_le_mul_right d hij
  · intro i slot hslot
    have hs := h.slots i slot hslot
    have hi : i < c.engine.slots.length := (List.getElem?_eq_some_iff.mp hslot).1
    rw [CqfTimeSlot.endNs, hs.start, hs.duration, ← Nat.succ_mul]
    exact (Nat.mul_le_mul_right d hi).trans h.length

theorem sound_run (cycleNs numSlots cap : ℕ) (calls : List Call) :
    ((start cycleNs numSlots cap).run calls).Sound
      (cycleNs / if numSlots = 0 then 1 else numSlots) cap :=
  Machine.run_keeps (I := Sound _ cap) (fun _ call h => h.step call) calls
    (sound_start cycleNs numSlots cap)

/-- The accounts are right after any calls. -/
theorem accounts_run (cycleNs numSlots cap : ℕ) (calls : List Call) :
    Accounts ((start cycleNs numSlots cap).run calls).engine :=
  (sound_run cycleNs numSlots cap calls).accounts

/-- A request that would be admitted leaves room for what the slot granted in this cycle to
reservations released since. -/
def Fits (c : Cycle) : Call → Prop
  | .requestReservation streamId i n => c.engine.Admits streamId i n →
    ∀ slot, c.engine.slots[i]? = some slot →
    c.released i + c.engine.reserved i + n ≤ slot.maxCapacityBytes
  | _ => True

/-- What a slot has granted to released reservations and what it still owes fit its capacity. -/
def Covered (cap : ℕ) (c : Cycle) : Prop :=
  ∀ i < c.engine.slots.length, c.released i + c.engine.reserved i ≤ cap

theorem covered_step (h : c.Sound d cap) (hc : c.Covered cap) (hfits : c.Fits call) :
    (c.step call).Covered cap := by
  cases call with
  | requestReservation streamId i n =>
    by_cases hadmits : c.engine.Admits streamId i n
    · intro j hj
      rw [step, requestReservation_of_admits hadmits] at hj ⊢
      rw [reserved_admitStream]
      obtain ⟨-, slot, hslot, -⟩ := id hadmits
      have hcov := hc j (by simpa [admitStream] using hj)
      by_cases hij : i = j
      · subst hij
        have := hfits hadmits slot hslot
        rw [(h.slots i slot hslot).capacity] at this
        simp only [if_true]
        omega
      · simpa [hij] using hcov
    · rw [step, requestReservation_of_not_admits hadmits]
      exact hc
  | releaseReservation streamId =>
    rw [step, releaseReservation]
    cases hfind : c.engine.reservations.find? (·.streamId = streamId) with
    | none => exact hc
    | some res =>
      obtain ⟨before, after, hsplit, -, herase, -⟩ := Entries.split_first hfind
      have hquota := h.quota res (List.mem_of_find?_eq_some hfind)
      intro j hj
      have hcov := hc j (by simpa using hj)
      simp only [reserved, herase]
      simp only [reserved, hsplit, Entries.total_append, Entries.total_cons] at hcov ⊢
      by_cases hij : res.slotIndex = j
      · subst hij
        simp only [add, Function.update_self, if_true] at hcov ⊢
        omega
      · rw [add, Function.update_of_ne (Ne.symm hij)]
        rw [if_neg hij] at hcov
        omega
  | evaluateTransmission streamId n time =>
    by_cases hgrants : ∃ res, c.engine.Grants streamId n time res
    · obtain ⟨res, hgrants⟩ := hgrants
      rw [step_evaluate_of_grants hgrants]
      intro j hj
      rw [(grant_totals hgrants).1]
      exact hc j hj
    · rw [step_evaluate_of_not_grants fun res hres => hgrants ⟨res, hres⟩]
      exact hc
  | startNewCycle =>
    intro j hj
    have hs := h.newCycle.slots j _ (List.getElem?_eq_getElem hj)
    have := hs.fits
    simpa [step] using this

theorem within_of_covered (h : c.Sound d cap) (hc : c.Covered cap) : c.WithinCapacity := by
  intro i slot hslot
  have hcov := hc i (List.getElem?_eq_some_iff.mp hslot).1
  have hle : c.engine.used i ≤ c.engine.reserved i := Entries.total_mono h.quota
  rw [h.granted, (h.slots i slot hslot).capacity]
  omega

/-! ### What a slot may still grant in the cycle -/

/-- Frames of streams, with their sizes and times. -/
def frames (fs : List (UInt32 × ℕ × ℕ)) : List Call :=
  fs.map fun f => .evaluateTransmission f.1 f.2.1 f.2.2

/-- Some frames take the slot over its capacity before the next cycle starts. -/
def Overdrawable (c : Cycle) (i : ℕ) : Prop :=
  ∃ slot fs, c.engine.slots[i]? = some slot ∧ slot.maxCapacityBytes < (c.run (frames fs)).granted i

/-- Frames change neither the slots nor what is reserved. -/
theorem evaluate_keeps (c : Cycle) (f : UInt32 × ℕ × ℕ) :
    let c' := c.step (.evaluateTransmission f.1 f.2.1 f.2.2)
    c'.engine.slots = c.engine.slots ∧ c'.released = c.released ∧
      ∀ i, c'.engine.reserved i = c.engine.reserved i := by
  by_cases hgrants : ∃ res, c.engine.Grants f.1 f.2.1 f.2.2 res
  · obtain ⟨res, hgrants⟩ := hgrants
    rw [step_evaluate_of_grants hgrants]
    exact ⟨rfl, rfl, (grant_totals hgrants).1⟩
  · rw [step_evaluate_of_not_grants fun res hres => hgrants ⟨res, hres⟩]
    exact ⟨rfl, rfl, fun _ => rfl⟩

theorem granted_frames_le (h : c.Sound d cap) (fs : List (UInt32 × ℕ × ℕ)) :
    (c.run (frames fs)).granted i ≤ c.released i + c.engine.reserved i := by
  induction fs generalizing c with
  | nil =>
    have hle : c.engine.used i ≤ c.engine.reserved i := Entries.total_mono h.quota
    change c.granted i ≤ _
    rw [h.granted]
    omega
  | cons f fs ih =>
    obtain ⟨-, hreleased, hreserved⟩ := evaluate_keeps c f
    have := ih (h.step (.evaluateTransmission f.1 f.2.1 f.2.2))
    rw [hreleased, hreserved] at this
    exact this

theorem find_of_unique (h : (c.engine.reservations.map (·.streamId)).Nodup)
    (hres : res ∈ c.engine.reservations) :
    c.engine.reservations.find? (·.streamId = res.streamId) = some res := by
  cases hfind : c.engine.reservations.find? (·.streamId = res.streamId) with
  | none =>
    have := List.find?_eq_none.mp hfind res hres
    simp at this
  | some r =>
    have hid : r.streamId = res.streamId := by simpa using List.find?_some hfind
    rw [List.inj_on_of_nodup_map h (List.mem_of_find?_eq_some hfind) hres hid]

/-- Each reservation may use up what it is owed, so the slot may grant all of it. -/
theorem exists_frames_granted (hd : 0 < d) (hi : i < c.engine.slots.length) (h : c.Sound d cap) :
    ∃ fs, (c.run (frames fs)).granted i = c.released i + c.engine.reserved i := by
  induction hk : c.engine.reserved i - c.engine.used i
    using Nat.strong_induction_on generalizing c with
  | _ k ih =>
    have hle : c.engine.used i ≤ c.engine.reserved i := Entries.total_mono h.quota
    rcases hle.lt_or_eq with hlt | heq
    · obtain ⟨res, hres, hslot, hquota⟩ := Entries.exists_lt_of_total_lt hlt
      have hs := h.slots i _ (List.getElem?_eq_getElem hi)
      let n := res.reservedBytesPerCycle - res.usedBytesInCurrentCycle
      have hgrants : c.engine.Grants res.streamId n (i * d) res := by
        refine ⟨find_of_unique h.unique hres, ⟨_, by rw [hslot]; exact List.getElem?_eq_getElem hi,
          ?_, ?_⟩, le_rfl⟩
        · exact hs.start.le
        · rw [CqfTimeSlot.endNs, hs.start, hs.duration]
          omega
      obtain ⟨hslots, hreleased, hreserved⟩ := evaluate_keeps c (res.streamId, n, i * d)
      have hused : (c.step (.evaluateTransmission res.streamId n (i * d))).engine.used i =
          c.engine.used i + n := by
        rw [step_evaluate_of_grants hgrants, (grant_totals hgrants).2.2, if_pos hslot]
      obtain ⟨fs, hfs⟩ := ih _ (by rw [hreserved, hused]; omega)
        (by rw [hslots]; exact hi) h.evaluate rfl
      refine ⟨(res.streamId, n, i * d) :: fs, ?_⟩
      rw [hreserved, hreleased] at hfs
      exact hfs
    · refine ⟨[], ?_⟩
      change c.granted i = _
      rw [h.granted, heq]

/-- A request that would be admitted makes the slot overdrawable exactly when it does not fit. -/
theorem overdrawable_request_iff (h : c.Sound d cap) (hd : 0 < d)
    (hadmits : c.engine.Admits streamId i n) :
    (c.step (.requestReservation streamId i n)).Overdrawable i ↔
      ¬ c.Fits (.requestReservation streamId i n) := by
  obtain ⟨-, slot, hslot, -⟩ := id hadmits
  have hcap := (h.slots i slot hslot).capacity
  have hnext : (c.step (.requestReservation streamId i n)).Sound d cap := h.request
  have hfits : c.Fits (.requestReservation streamId i n) ↔
      c.released i + c.engine.reserved i + n ≤ cap := by
    constructor
    · intro hf
      rw [← hcap]
      exact hf hadmits slot hslot
    · intro hle _ old hold
      rw [(h.slots i old hold).capacity]
      exact hle
  rw [step, requestReservation_of_admits hadmits] at hnext ⊢
  have hlen : i < (c.engine.admitStream streamId i n).slots.length := by
    simpa [admitStream] using (List.getElem?_eq_some_iff.mp hslot).1
  have hreserved : (c.engine.admitStream streamId i n).reserved i = c.engine.reserved i + n := by
    simp [reserved_admitStream]
  rw [hfits, not_le]
  constructor
  · rintro ⟨new, fs, hnew, hover⟩
    have hle := granted_frames_le (i := i) hnext fs
    rw [(hnext.slots i new hnew).capacity] at hover
    dsimp only at hle
    omega
  · intro hlt
    obtain ⟨fs, hfs⟩ := exists_frames_granted hd hlen hnext
    refine ⟨_, fs, List.getElem?_eq_getElem hlen, ?_⟩
    rw [(hnext.slots i _ (List.getElem?_eq_getElem hlen)).capacity, hfs]
    dsimp only
    omega

/-- While requests leave room for what the slot granted to reservations released in the same cycle,
the slots keep their quotas in every cycle; a request that does not lets frames take its slot over
its capacity. -/
theorem slot_quotas {cycleNs numSlots cap : ℕ} {calls : List Call}
    (h : Machine.Along step Fits (start cycleNs numSlots cap) calls) :
    let c := (start cycleNs numSlots cap).run calls
    Accounts c.engine ∧ c.WithinCapacity ∧
      ∀ streamId i n, c.engine.Admits streamId i n →
        0 < cycleNs / (if numSlots = 0 then 1 else numSlots) →
        ((c.step (.requestReservation streamId i n)).Overdrawable i ↔
          ¬ c.Fits (.requestReservation streamId i n)) := by
  intro c
  have hsound := sound_run cycleNs numSlots cap calls
  have hstart : (start cycleNs numSlots cap).Covered cap := fun i _ => Nat.zero_le _
  have hrun := h.keeps
    (I := fun c => c.Sound (cycleNs / if numSlots = 0 then 1 else numSlots) cap ∧ c.Covered cap)
    (fun c call hc hfits => ⟨hc.1.step call, covered_step hc.1 hc.2 hfits⟩)
    ⟨sound_start cycleNs numSlots cap, hstart⟩
  refine ⟨hsound.accounts, within_of_covered hsound hrun.2, ?_⟩
  intro streamId i n hadmits hd
  exact overdrawable_request_iff hsound hd hadmits

/-- Two streams, one after the other in the same cycle, within the capacity of their slot. -/
theorem slot_quotas_shared :
    ((start 1000 2 100).run [.requestReservation 1 0 40, .evaluateTransmission 1 40 5,
      .releaseReservation 1, .requestReservation 2 0 60,
      .evaluateTransmission 2 60 5]).WithinCapacity := by
  have h : Machine.Along step Fits (start 1000 2 100) [.requestReservation 1 0 40,
      .evaluateTransmission 1 40 5, .releaseReservation 1, .requestReservation 2 0 60,
      .evaluateTransmission 2 60 5] := by
    refine ⟨fun _ slot hslot => ?_, trivial, trivial, fun _ slot hslot => ?_, trivial, trivial⟩
    · obtain rfl : slot = ⟨0, 0, 500, 100, 0, 0⟩ := Option.some.inj (hslot.symm.trans (by decide))
      decide
    · obtain rfl : slot = ⟨0, 0, 500, 100, 0, 0⟩ := Option.some.inj (hslot.symm.trans (by decide))
      decide
  exact (slot_quotas h).2.1

/-- A stream uses up the slot, releases it, reserves it again and uses it up again in the same
cycle. -/
theorem slot_overdrawn :
    ¬ ((start 1000 2 100).run [.requestReservation 1 0 100, .evaluateTransmission 1 100 5,
      .releaseReservation 1, .requestReservation 1 0 100,
      .evaluateTransmission 1 100 5]).WithinCapacity := by
  intro h
  exact absurd (h 0 _ rfl) (by decide)

end Cycle

end ToyTcpip.Cqf

import ToyTcpip.Lib.Machine

/-! The virtual link of `lab.rs` and the frames that cross it. -/
namespace ToyTcpip.Lab

abbrev Frame : Type := List UInt8

/-- `usize` is 64 bits wide. -/
structure VirtualLink where
  mtu : UInt64
  dropPacketIndices : List ℕ
  corruptPacketIndices : List ℕ
  reorderPacketIndices : List (ℕ × ℕ)
  heldFrames : List (ℕ × Frame)
  totalPacketsSeen : ℕ
  framesForwarded : ℕ
  framesDropped : ℕ
  framesCorrupted : ℕ
  inFlightFrames : List Frame
  blackhole : Bool
  deriving DecidableEq

namespace VirtualLink

def new : VirtualLink := ⟨1500, [], [], [], [], 0, 0, 0, 0, [], false⟩

def setBlackhole (l : VirtualLink) (down : Bool) : VirtualLink := { l with blackhole := down }

def setMtu (l : VirtualLink) (mtu : UInt64) : VirtualLink := { l with mtu := mtu }

def addDropIndices (l : VirtualLink) (indices : List ℕ) : VirtualLink :=
  { l with dropPacketIndices := l.dropPacketIndices ++ indices }

def addCorruptIndices (l : VirtualLink) (indices : List ℕ) : VirtualLink :=
  { l with corruptPacketIndices := l.corruptPacketIndices ++ indices }

def corrupted (frame : Frame) : Frame :=
  frame.set (frame.length - 1) (frame.getD (frame.length - 1) 0 ^^^ 0xFF)

section

variable (overflowChecks : Bool)

/-- The link after the call, and the frames delivered unless the call panics: a build that checks
overflow stops at a sum `mtu + 14` that wraps in one that does not. -/
def processFramesTransit (l : VirtualLink) (rawFrame : Frame) : VirtualLink × Option (List Frame) :=
  let pktIndex := l.totalPacketsSeen + 1
  let l := { l with totalPacketsSeen := pktIndex }
  match l.reorderPacketIndices.find? fun rule => pktIndex = rule.1 with
  | some rule => ({ l with heldFrames := l.heldFrames ++ [(rule.2, rawFrame)] }, some [])
  | none =>
    if l.blackhole then ({ l with framesDropped := l.framesDropped + 1 }, some [])
    else if overflowChecks ∧ UInt64.size ≤ l.mtu.toNat + 14 then (l, none)
    else if (l.mtu + 14).toNat < rawFrame.length then
      ({ l with framesDropped := l.framesDropped + 1 }, some [])
    else if pktIndex ∈ l.dropPacketIndices then
      ({ l with framesDropped := l.framesDropped + 1 }, some [])
    else
      let corrupts := pktIndex ∈ l.corruptPacketIndices ∧ 20 < rawFrame.length
      let released := l.heldFrames.filter fun held => pktIndex = held.1
      ({ l with
          framesCorrupted := if corrupts then l.framesCorrupted + 1 else l.framesCorrupted
          framesForwarded := l.framesForwarded + 1 + released.length
          heldFrames := l.heldFrames.filter fun held => pktIndex ≠ held.1 },
        some ((if corrupts then corrupted rawFrame else rawFrame) :: released.map (·.2)))

def processFrameTransit (l : VirtualLink) (rawFrame : Frame) :
    VirtualLink × Option (Option Frame) :=
  let r := l.processFramesTransit overflowChecks rawFrame
  (r.1, r.2.map List.head?)

def pushFrame (l : VirtualLink) (frame : Frame) : VirtualLink × Option Unit :=
  let r := l.processFrameTransit overflowChecks frame
  match r.2 with
  | none => (r.1, none)
  | some delivered =>
    ({ r.1 with inFlightFrames := r.1.inFlightFrames ++ delivered.toList }, some ())

end

def drainFrames (l : VirtualLink) : VirtualLink × List Frame :=
  ({ l with inFlightFrames := [] }, l.inFlightFrames)

/-- The next packet comes to the MTU check: it is not held, and the link is not cut. -/
def Measured (l : VirtualLink) : Prop :=
  (l.reorderPacketIndices.find? fun rule => l.totalPacketsSeen + 1 = rule.1) = none ∧
    l.blackhole = false

/-- `mtu + 14` has no room in a `usize`. -/
def Overflows (l : VirtualLink) : Prop := UInt64.size ≤ l.mtu.toNat + 14

/-- The next packet is handed on: not held, and not dropped by any rule. -/
def Passes (l : VirtualLink) (frame : Frame) : Prop :=
  l.Measured ∧ frame.length ≤ (l.mtu + 14).toNat ∧ l.totalPacketsSeen + 1 ∉ l.dropPacketIndices

/-- The next packet is the one that a held frame is to follow. -/
def Due (l : VirtualLink) : Prop := ∃ held ∈ l.heldFrames, l.totalPacketsSeen + 1 = held.1

end VirtualLink

/-- A frame that was held: its packet number and that of the packet to follow. -/
structure Hold where
  number : ℕ
  release : ℕ
  frame : Frame
  deriving DecidableEq

inductive Call where
  | processFramesTransit (frame : Frame)
  | pushFrame (frame : Frame)
  | drainFrames
  | setBlackhole (down : Bool)
  | setMtu (mtu : UInt64)
  | dropPacketIndices (indices : List ℕ)
  | corruptPacketIndices (indices : List ℕ)
  | reorderPacketIndices (rules : List (ℕ × ℕ))

/-- A link, the frames handed on so far, returned or queued, the packets that passed without a
hold, and those that were ever held. -/
structure Trial where
  link : VirtualLink
  handedOn : List Frame
  passed : List Frame
  holds : List Hold

namespace Trial

def new : Trial := ⟨.new, [], [], []⟩

def held (l : VirtualLink) (frame : Frame) : List Hold :=
  ((l.reorderPacketIndices.find? fun rule => l.totalPacketsSeen + 1 = rule.1).map
    fun rule => ⟨l.totalPacketsSeen + 1, rule.2, frame⟩).toList

section

variable (overflowChecks : Bool)

/-- The run goes on with what a call that panics leaves behind. -/
def step (t : Trial) : Call → Trial
  | .processFramesTransit frame =>
    let r := t.link.processFramesTransit overflowChecks frame
    ⟨r.1, t.handedOn ++ r.2.getD [], t.passed ++ (r.2.getD []).head?.toList,
      t.holds ++ held t.link frame⟩
  | .pushFrame frame =>
    let r := t.link.processFrameTransit overflowChecks frame
    ⟨(t.link.pushFrame overflowChecks frame).1, t.handedOn ++ (r.2.getD none).toList,
      t.passed ++ (r.2.getD none).toList, t.holds ++ held t.link frame⟩
  | .drainFrames => { t with link := t.link.drainFrames.1 }
  | .setBlackhole down => { t with link := t.link.setBlackhole down }
  | .setMtu mtu => { t with link := t.link.setMtu mtu }
  | .dropPacketIndices indices => { t with link := t.link.addDropIndices indices }
  | .corruptPacketIndices indices => { t with link := t.link.addCorruptIndices indices }
  | .reorderPacketIndices rules => { t with link := { t.link with reorderPacketIndices := rules } }

/-- A packet that a held frame is to follow is passed on, by the call that returns all frames; and
no packet is measured against a sum that a checked build cannot form. -/
def Releases (t : Trial) : Call → Prop
  | .processFramesTransit frame =>
    (t.link.Due → t.link.Passes frame) ∧ (overflowChecks → t.link.Measured → ¬ t.link.Overflows)
  | .pushFrame _ => ¬ t.link.Due ∧ (overflowChecks → t.link.Measured → ¬ t.link.Overflows)
  | _ => True

end

/-- The frame was to follow a later packet, and that packet has been seen. -/
def followed (total : ℕ) (h : Hold) : Bool := h.number < h.release ∧ h.release ≤ total

/-- Every packet is forwarded, dropped or held; as many frames are handed on as are counted
forwarded; they are the packets that passed and, once each, the held frames whose time has come. -/
structure Conserves (t : Trial) : Prop where
  total : t.link.totalPacketsSeen =
    t.link.framesForwarded + t.link.framesDropped + t.link.heldFrames.length
  forwarded : t.link.framesForwarded = t.handedOn.length
  handed : t.handedOn.Perm
    (t.passed ++ (t.holds.filter (followed t.link.totalPacketsSeen)).map (·.frame))
  waiting : t.link.heldFrames =
    (t.holds.filter (!followed t.link.totalPacketsSeen ·)).map fun h => (h.release, h.frame)
  numbers : (t.holds.map (·.number)).Nodup ∧ ∀ h ∈ t.holds, h.number ≤ t.link.totalPacketsSeen

end Trial

/-! ### Steps -/

section

variable {overflowChecks : Bool} {l : VirtualLink} {t : Trial} {frame : Frame} {call : Call}
  {h : Hold} {total : ℕ}

theorem VirtualLink.processFramesTransit_of_passes (h : l.Passes frame)
    (hroom : overflowChecks → l.Measured → ¬ l.Overflows) : Trial.held l frame = [] ∧
    ∃ own corruptions, l.processFramesTransit overflowChecks frame = ({ l with
        totalPacketsSeen := l.totalPacketsSeen + 1
        framesCorrupted := corruptions
        framesForwarded := l.framesForwarded + 1 +
          (l.heldFrames.filter fun held => l.totalPacketsSeen + 1 = held.1).length
        heldFrames := l.heldFrames.filter fun held => l.totalPacketsSeen + 1 ≠ held.1 },
      some (own :: (l.heldFrames.filter fun held => l.totalPacketsSeen + 1 =
          held.1).map (·.2))) := by
  obtain ⟨hmeasured, hfits, hdrop⟩ := h
  have hsum : ¬ (overflowChecks = true ∧ UInt64.size ≤ l.mtu.toNat + 14) := fun hover =>
    hroom hover.1 hmeasured hover.2
  obtain ⟨hrule, hup⟩ := hmeasured
  refine ⟨by rw [Trial.held, hrule]; rfl, ?_⟩
  rw [processFramesTransit]
  dsimp only
  rw [hrule]
  dsimp only
  rw [if_neg (by simp [hup]), if_neg hsum, if_neg (by omega), if_neg hdrop]
  exact ⟨_, _, rfl⟩

/-- A packet that does not pass is held or dropped. -/
theorem VirtualLink.processFramesTransit_of_not_passes (h : ¬ l.Passes frame)
    (hroom : overflowChecks → l.Measured → ¬ l.Overflows) :
    (∃ hold, hold.number = l.totalPacketsSeen + 1 ∧ Trial.held l frame = [hold] ∧
      l.processFramesTransit overflowChecks frame = ({ l with
        totalPacketsSeen := l.totalPacketsSeen + 1
        heldFrames := l.heldFrames ++ [(hold.release, hold.frame)] }, some [])) ∨
    (Trial.held l frame = [] ∧ l.processFramesTransit overflowChecks frame = ({ l with
        totalPacketsSeen := l.totalPacketsSeen + 1
        framesDropped := l.framesDropped + 1 }, some [])) := by
  rw [processFramesTransit, Trial.held]
  dsimp only
  cases hrule : l.reorderPacketIndices.find? fun rule => l.totalPacketsSeen + 1 = rule.1 with
  | some rule => exact .inl ⟨⟨l.totalPacketsSeen + 1, rule.2, frame⟩, rfl, rfl, rfl⟩
  | none =>
    right
    refine ⟨rfl, ?_⟩
    dsimp only
    by_cases hdown : l.blackhole = true
    · rw [if_pos hdown]
    have hmeasured : l.Measured := ⟨hrule, by simpa using hdown⟩
    have hsum : ¬ (overflowChecks = true ∧ UInt64.size ≤ l.mtu.toNat + 14) := fun hover =>
      hroom hover.1 hmeasured hover.2
    rw [if_neg hdown, if_neg hsum]
    by_cases hlong : (l.mtu + 14).toNat < frame.length
    · rw [if_pos hlong]
    rw [if_neg hlong]
    by_cases hdrop : l.totalPacketsSeen + 1 ∈ l.dropPacketIndices
    · rw [if_pos hdrop]
    · exact absurd ⟨hmeasured, by omega, hdrop⟩ h

namespace Trial

example : (VirtualLink.new.processFramesTransit true (List.replicate 1515 0)).2 = some [] ∧
    (VirtualLink.new.processFramesTransit true [1, 2]).2 = some [[1, 2]] := by decide +kernel

/-- Of the frames held before, one more packet lets those follow that were due. -/
theorem followed_succ (hnumber : h.number ≤ total) :
    followed (total + 1) h = (followed total h || decide (total + 1 = h.release)) := by
  rw [Bool.eq_iff_iff]
  simp only [followed, Bool.or_eq_true, decide_eq_true_eq]
  omega

theorem not_followed_of_number (hnumber : total + 1 = h.number) :
    followed (total + 1) h = false := by
  simp only [followed, decide_eq_false_iff_not]
  omega

/-- A packet that finds nothing due leaves every hold where it was. -/
theorem filter_followed_of_not_due (hc : t.Conserves) (hdue : ¬ t.link.Due) :
    ∀ h ∈ t.holds, followed (t.link.totalPacketsSeen + 1) h =
      followed t.link.totalPacketsSeen h := by
  intro h hh
  rw [followed_succ (hc.numbers.2 h hh)]
  by_cases hf : followed t.link.totalPacketsSeen h = true
  · rw [hf, Bool.true_or]
  · have hne : ¬ t.link.totalPacketsSeen + 1 = h.release := by
      intro heq
      refine hdue ⟨(h.release, h.frame), ?_, heq⟩
      rw [hc.waiting]
      exact List.mem_map.mpr ⟨h, List.mem_filter.mpr ⟨hh, by simp [hf]⟩, rfl⟩
    simp [hne]

/-- The held frames that are due at a packet, and those that are not. -/
theorem filter_due (hc : t.Conserves) {n : ℕ} (hn : n = t.link.totalPacketsSeen + 1) :
    (t.link.heldFrames.filter fun held => n = held.1) =
        (t.holds.filter fun h => followed n h && !followed t.link.totalPacketsSeen h).map
          (fun h => (h.release, h.frame)) ∧
      (t.link.heldFrames.filter fun held => n ≠ held.1) =
        (t.holds.filter (!followed n ·)).map fun h => (h.release, h.frame) := by
  subst hn
  rw [hc.waiting, List.filter_map, List.filter_map, List.filter_filter, List.filter_filter]
  constructor <;> congr 1 <;> refine List.filter_congr fun h hh => ?_ <;>
    rw [followed_succ (hc.numbers.2 h hh)] <;> dsimp only [Function.comp] <;>
    cases followed t.link.totalPacketsSeen h <;> simp

theorem perm_followed (hc : t.Conserves) :
    (t.holds.filter (followed (t.link.totalPacketsSeen + 1))).Perm
    (t.holds.filter (followed t.link.totalPacketsSeen) ++
      t.holds.filter fun h => followed (t.link.totalPacketsSeen + 1) h &&
        !followed t.link.totalPacketsSeen h) := by
  have hperm := List.filter_append_perm (followed t.link.totalPacketsSeen)
    (t.holds.filter (followed (t.link.totalPacketsSeen + 1)))
  rw [List.filter_filter, List.filter_filter] at hperm
  refine hperm.symm.trans (List.Perm.of_eq ?_)
  congr 1
  · refine List.filter_congr fun h hh => ?_
    rw [followed_succ (hc.numbers.2 h hh)]
    cases followed t.link.totalPacketsSeen h <;> rfl
  · exact List.filter_congr fun h _ => Bool.and_comm _ _

theorem conserves_passes (hc : t.Conserves) (hpass : t.link.Passes frame)
    (hroom : overflowChecks → t.link.Measured → ¬ t.link.Overflows) :
    (step overflowChecks t (.processFramesTransit frame)).Conserves := by
  obtain ⟨hheld, own, corruptions, hlink⟩ :=
    VirtualLink.processFramesTransit_of_passes hpass hroom
  obtain ⟨hdue, hrest⟩ := filter_due hc rfl
  have hlen : t.link.heldFrames.length =
      (t.link.heldFrames.filter fun held => t.link.totalPacketsSeen + 1 = held.1).length +
        (t.link.heldFrames.filter fun held => t.link.totalPacketsSeen + 1 ≠ held.1).length := by
    simpa only [ne_eq, decide_not] using
      List.length_eq_length_filter_add fun held : ℕ × Frame =>
        decide (t.link.totalPacketsSeen + 1 = held.1)
  have hperm := (perm_followed hc).map (·.frame)
  have htotal := hc.total
  have hforwarded := hc.forwarded
  simp only [step, hheld, List.append_nil, hlink, Option.getD_some]
  constructor
  · dsimp only
    omega
  · simp only [List.length_append, List.length_cons, List.length_map]
    omega
  · dsimp only [List.head?_cons, Option.toList_some]
    rw [hdue, List.map_map, List.append_assoc, List.singleton_append]
    rw [List.map_append] at hperm
    refine (hc.handed.append_right _).trans ?_
    rw [List.append_assoc]
    exact (List.perm_middle.trans (hperm.symm.cons own)).append_left t.passed
  · exact hrest
  · exact ⟨hc.numbers.1, fun h hh => (hc.numbers.2 h hh).trans (Nat.le_succ _)⟩

theorem conserves_withheld (hc : t.Conserves) (hpass : ¬ t.link.Passes frame)
    (hdue : ¬ t.link.Due) (hroom : overflowChecks → t.link.Measured → ¬ t.link.Overflows) :
    (step overflowChecks t (.processFramesTransit frame)).Conserves := by
  have htotal := hc.total
  have hfollowed := List.filter_congr (filter_followed_of_not_due hc hdue)
  have hwaiting : t.holds.filter (!followed (t.link.totalPacketsSeen + 1) ·) =
      t.holds.filter (!followed t.link.totalPacketsSeen ·) :=
    List.filter_congr fun h hh => by rw [filter_followed_of_not_due hc hdue h hh]
  rcases VirtualLink.processFramesTransit_of_not_passes hpass hroom with
    ⟨hold, hnumber, hheld, hlink⟩ | ⟨hheld, hlink⟩
  · have hnot := @not_followed_of_number hold t.link.totalPacketsSeen hnumber.symm
    simp only [step, hheld, hlink, Option.getD_some]
    constructor
    · rw [List.length_append, List.length_singleton]
      dsimp only
      omega
    · simpa using hc.forwarded
    · rw [List.filter_append, List.filter_cons_of_neg (by simp [hnot]), List.filter_nil,
        List.append_nil, List.append_nil, hfollowed]
      simpa using hc.handed
    · rw [List.filter_append, List.filter_cons_of_pos (by simp [hnot]), List.filter_nil,
        List.map_append, hwaiting, ← hc.waiting]
      rfl
    · constructor
      · rw [List.map_append, List.nodup_append]
        refine ⟨hc.numbers.1, by simp, fun a ha b hb => ?_⟩
        obtain ⟨h, hh, rfl⟩ := List.mem_map.mp ha
        obtain rfl : b = hold.number := by simpa using hb
        have := hc.numbers.2 h hh
        omega
      · intro h hh
        rcases List.mem_append.mp hh with hh | hh
        · exact (hc.numbers.2 h hh).trans (Nat.le_succ _)
        · obtain rfl := List.mem_singleton.mp hh
          exact hnumber.le
  · simp only [step, hheld, hlink, Option.getD_some, List.append_nil]
    constructor
    · dsimp only
      omega
    · exact hc.forwarded
    · rw [hfollowed]
      simpa using hc.handed
    · exact hc.waiting.trans (by rw [hwaiting])
    · exact ⟨hc.numbers.1, fun h hh => (hc.numbers.2 h hh).trans (Nat.le_succ _)⟩

/-- Queueing what is handed on instead of returning it makes no difference when nothing is due. -/
theorem conserves_push (hc : t.Conserves) (hdue : ¬ t.link.Due)
    (hroom : overflowChecks → t.link.Measured → ¬ t.link.Overflows) :
    (step overflowChecks t (.pushFrame frame)).Conserves := by
  have htransit : (step overflowChecks t (.processFramesTransit frame)).Conserves := by
    by_cases hpass : t.link.Passes frame
    · exact conserves_passes hc hpass hroom
    · exact conserves_withheld hc hpass hdue hroom
  obtain ⟨l, delivered, hlink, hone⟩ : ∃ l delivered,
      t.link.processFramesTransit overflowChecks frame = (l, some delivered) ∧
        delivered.head?.toList = delivered := by
    by_cases hpass : t.link.Passes frame
    · obtain ⟨-, own, corruptions, hlink⟩ :=
        VirtualLink.processFramesTransit_of_passes hpass hroom
      have hnone : t.link.heldFrames.filter
          (fun held => t.link.totalPacketsSeen + 1 = held.1) = [] :=
        List.filter_eq_nil_iff.mpr fun held hheld heq =>
          hdue ⟨held, hheld, by simpa using heq⟩
      exact ⟨_, _, hlink, by rw [hnone]; rfl⟩
    · rcases VirtualLink.processFramesTransit_of_not_passes hpass hroom with
        ⟨_, -, -, hlink⟩ | ⟨-, hlink⟩ <;> exact ⟨_, _, hlink, rfl⟩
  simp only [step, hlink, Option.getD_some, hone] at htransit
  simp only [step, VirtualLink.pushFrame, VirtualLink.processFrameTransit, hlink, Option.map_some,
    Option.getD_some, hone]
  exact ⟨htransit.total, htransit.forwarded, htransit.handed, htransit.waiting, htransit.numbers⟩

theorem conserves_step (hc : t.Conserves) (hcall : Releases overflowChecks t call) :
    (step overflowChecks t call).Conserves := by
  cases call with
  | processFramesTransit frame =>
    by_cases hpass : t.link.Passes frame
    · exact conserves_passes hc hpass hcall.2
    · exact conserves_withheld hc hpass (fun hdue => hpass (hcall.1 hdue)) hcall.2
  | pushFrame frame => exact conserves_push hc hcall.1 hcall.2
  | _ => exact ⟨hc.total, hc.forwarded, hc.handed, hc.waiting, hc.numbers⟩

end Trial

end

end ToyTcpip.Lab

import ToyTcpip.Lib.Machine
import ToyTcpip.Pdcp.Entity

/-! What a status report says, next to what the entity has received and given up. -/
namespace ToyTcpip.Pdcp

/-! ### Bits of a bitmap -/

/-- Bit `i`, the highest of a byte first. -/
def BitSet (bitmap : List UInt8) (i : ℕ) : Prop :=
  ∃ b, bitmap[i / 8]? = some b ∧ b.toNat.testBit (7 - i % 8) = true

namespace PdcpEntity

variable {bitmap : List UInt8} {i j : ℕ} {e : PdcpEntity}

theorem toNat_bitMask (i : ℕ) : (bitMask i).toNat = 2 ^ (7 - i % 8) := by
  have h : i % 8 < 8 := Nat.mod_lt i (by omega)
  rw [bitMask]
  generalize i % 8 = k at h ⊢
  interval_cases k <;> rfl

theorem bitSet_setBit (hj : j / 8 < bitmap.length) :
    BitSet (setBit bitmap j) i ↔ i = j ∨ BitSet bitmap i := by
  have hcount : i = j ↔ j / 8 = i / 8 ∧ 7 - j % 8 = 7 - i % 8 := by omega
  simp only [BitSet, setBit, List.getElem?_modify]
  by_cases hbyte : j / 8 = i / 8
  · rw [← hbyte, List.getElem?_eq_getElem hj]
    simp [hcount, hbyte, UInt8.toNat_or, Nat.testBit_or, toNat_bitMask, Nat.testBit_two_pow,
      or_comm]
  · simp [hcount, hbyte]

theorem bitSet_bitmapOf {first bits : ℕ} :
    BitSet (e.bitmapOf first bits) i ↔ i < bits ∧ first + i ∈ e.reorderingBuffer := by
  have hfold : ∀ n ≤ bits, ∀ bitmap : List UInt8, bitmap = (List.range n).foldl
      (fun bitmap i => if first + i ∈ e.reorderingBuffer then setBit bitmap i else bitmap)
      (List.replicate ((bits + 7) / 8) 0) →
      bitmap.length = (bits + 7) / 8 ∧
        ∀ i, BitSet bitmap i ↔ i < n ∧ first + i ∈ e.reorderingBuffer := by
    intro n
    induction n with
    | zero =>
      rintro - bitmap rfl
      refine ⟨by simp, fun i => ?_⟩
      simp [BitSet, List.getElem?_replicate]
    | succ n ih =>
      rintro hn bitmap rfl
      obtain ⟨hlength, hset⟩ := ih (by omega) _ rfl
      rw [List.range_succ, List.foldl_append, List.foldl_cons, List.foldl_nil]
      split
      · next hmem =>
        refine ⟨by rw [setBit, List.length_modify, hlength], fun i => ?_⟩
        rw [bitSet_setBit (by omega), hset]
        constructor
        · rintro (rfl | ⟨hi, h⟩)
          · exact ⟨by omega, hmem⟩
          · exact ⟨by omega, h⟩
        · rintro ⟨hi, h⟩
          by_cases hin : i = n
          · exact .inl hin
          · exact .inr ⟨by omega, h⟩
      · next hmem =>
        refine ⟨hlength, fun i => ?_⟩
        rw [hset]
        constructor
        · rintro ⟨hi, h⟩
          exact ⟨by omega, h⟩
        · rintro ⟨hi, h⟩
          have hin : i ≠ n := by
            rintro rfl
            exact hmem h
          exact ⟨by omega, h⟩
  exact (hfold bits le_rfl _ rfl).2 i

end PdcpEntity

/-! ### What has been received and given up -/

inductive Event where
  | receive (pdu : PdcpDataPdu)
  | expire

/-- An entity with the counts it has received and the edge below which it gave up the others. -/
structure Receiver where
  entity : PdcpEntity
  received : List ℕ
  givenUp : ℕ

namespace Receiver

def new (snSize : PdcpSnSize) : Receiver := ⟨.new snSize, [], 0⟩

def step (r : Receiver) : Event → Receiver
  | .receive pdu =>
    ⟨r.entity.receivePdu pdu, r.entity.deriveRxCount pdu.sn :: r.received, r.givenUp⟩
  | .expire => ⟨r.entity.handleTReorderingExpiry, r.received, max r.givenUp r.entity.rxReord⟩

def Settled (r : Receiver) (c : ℕ) : Prop := c ∈ r.received ∨ c < r.givenUp

/-- A gap: a later count has been received. -/
def Missing (r : Receiver) (c : ℕ) : Prop := ¬ r.Settled c ∧ ∃ d ∈ r.received, c < d

structure Truthful (r : Receiver) : Prop where
  edge : r.entity.rxDeliv ≤ r.entity.rxNext
  buffered : ∀ k ∈ r.entity.reorderingBuffer, r.entity.rxDeliv < k ∧ k < r.entity.rxNext
  none_iff : r.entity.generateStatusReport = none ↔ ∀ c, ¬ r.Missing c
  report : ∀ fmc bitmap, r.entity.generateStatusReport = some (.statusReport fmc bitmap) →
    ¬ r.Settled fmc ∧ (∀ c, ¬ r.Settled c → fmc ≤ c) ∧
      ∀ i, BitSet bitmap i ↔ fmc + 1 + i ∈ r.received

end Receiver

/-- An expiry comes while its edge is ahead and missing; no count is the last one. -/
def Event.Timely (r : Receiver) : Event → Prop
  | .receive pdu => r.entity.deriveRxCount pdu.sn + 1 < 2 ^ 32
  | .expire => r.entity.rxDeliv ≤ r.entity.rxReord ∧ r.entity.rxReord ∉ r.entity.reorderingBuffer

instance Event.decidableTimely (r : Receiver) (ev : Event) : Decidable (ev.Timely r) :=
  match ev with
  | .receive _ => inferInstanceAs (Decidable (_ < _))
  | .expire => inferInstanceAs (Decidable (_ ∧ _))

/-- What an entity knows of `received` and `givenUp`, also between two deliveries. -/
structure Accounts (received : List ℕ) (givenUp : ℕ) (e : PdcpEntity) : Prop where
  edge : e.rxDeliv ≤ e.rxNext
  bound : e.rxNext < 2 ^ 32
  reord : e.rxReord ≤ e.rxNext
  given : givenUp ≤ e.rxDeliv
  buffered : ∀ k ∈ e.reorderingBuffer, e.rxDeliv ≤ k ∧ k ∈ received
  kept : ∀ k ∈ received, e.rxDeliv ≤ k → k ∈ e.reorderingBuffer
  top : ∀ k ∈ received, k < e.rxNext
  last : e.rxDeliv < e.rxNext → e.rxNext - 1 ∈ received
  below : ∀ c < e.rxDeliv, c ∈ received ∨ c < givenUp

namespace Accounts

variable {received : List ℕ} {givenUp c : ℕ} {e : PdcpEntity} {sdu : List UInt8}

theorem new (snSize : PdcpSnSize) : Accounts [] 0 (.new snSize) := by
  constructor <;> simp [PdcpEntity.new]

theorem duplicate (h : Accounts received givenUp e) (hc : ¬ e.IsNew c) :
    Accounts (c :: received) givenUp e := by
  have hold : e.rxDeliv ≤ c → c ∈ e.reorderingBuffer := by
    intro hle
    by_contra hmem
    exact hc ⟨hle, hmem⟩
  obtain ⟨hedge, hbound, hreord, hgiven, hbuffered, hkept, htop, hlast, hbelow⟩ := h
  refine ⟨hedge, hbound, hreord, hgiven, ?_, ?_, ?_, ?_, ?_⟩
  · intro k hk
    exact ⟨(hbuffered k hk).1, List.mem_cons_of_mem c (hbuffered k hk).2⟩
  · intro k hk hle
    cases hk with
    | head => exact hold hle
    | tail _ hk => exact hkept k hk hle
  · intro k hk
    cases hk with
    | head =>
      by_cases hle : e.rxDeliv ≤ c
      · exact htop c (hbuffered c (hold hle)).2
      · omega
    | tail _ hk => exact htop k hk
  · intro hlt
    exact List.mem_cons_of_mem c (hlast hlt)
  · intro k hk
    exact (hbelow k hk).imp_left (List.mem_cons_of_mem c)

theorem store (h : Accounts received givenUp e) (sdu : List UInt8) (hc : e.IsNew c)
    (hlast : c + 1 < 2 ^ 32) :
    Accounts (c :: received) givenUp (e.store c sdu) := by
  obtain ⟨hle, -⟩ := hc
  have hnext : (e.store c sdu).rxNext = max e.rxNext (c + 1) := by
    simp only [PdcpEntity.store, PdcpEntity.wrap_eq hlast]
    split_ifs <;> omega
  have hmem : ∀ k, k ∈ (e.store c sdu).reorderingBuffer ↔ c = k ∨ k ∈ e.reorderingBuffer := by
    intro k
    simp [PdcpEntity.store, Std.TreeMap.mem_insert]
  have hdeliv : (e.store c sdu).rxDeliv = e.rxDeliv := rfl
  have hreord : (e.store c sdu).rxReord = e.rxReord := rfl
  constructor
  · have := h.edge
    omega
  · have := h.bound
    omega
  · have := h.reord
    omega
  · exact h.given
  · intro k hk
    obtain rfl | hk := (hmem k).mp hk
    · exact ⟨hle, List.mem_cons_self⟩
    · exact ⟨(h.buffered k hk).1, List.mem_cons_of_mem c (h.buffered k hk).2⟩
  · intro k hk hdk
    cases hk with
    | head => exact (hmem c).mpr (.inl rfl)
    | tail _ hk => exact (hmem k).mpr (.inr (h.kept k hk hdk))
  · intro k hk
    cases hk with
    | head => omega
    | tail _ hk =>
      have := h.top k hk
      omega
  · intro hlt
    by_cases hnew : e.rxNext ≤ c
    · rw [hnext, max_eq_right (by omega)]
      exact List.mem_cons_self
    · rw [hnext, max_eq_left (by omega)] at hlt ⊢
      exact List.mem_cons_of_mem c (h.last hlt)
  · intro k hk
    exact (h.below k hk).imp_left (List.mem_cons_of_mem c)

theorem deliverNext (h : Accounts received givenUp e)
    (hsdu : e.reorderingBuffer[e.rxDeliv]? = some sdu) :
    Accounts received givenUp (e.deliverNext sdu) := by
  have hmem : e.rxDeliv ∈ e.reorderingBuffer :=
    Std.TreeMap.mem_iff_isSome_getElem?.mpr (by simp [hsdu])
  obtain ⟨-, hreceived⟩ := h.buffered _ hmem
  have hlt := h.top _ hreceived
  have hbound := h.bound
  have hwrap : (e.deliverNext sdu).rxDeliv = e.rxDeliv + 1 :=
    PdcpEntity.wrap_eq (by omega)
  have herase : ∀ k, k ∈ (e.deliverNext sdu).reorderingBuffer ↔
      e.rxDeliv ≠ k ∧ k ∈ e.reorderingBuffer := by
    intro k
    simp [PdcpEntity.deliverNext, Std.TreeMap.mem_erase]
  have hnext : (e.deliverNext sdu).rxNext = e.rxNext := rfl
  constructor
  · omega
  · exact hbound
  · exact h.reord
  · have := h.given
    omega
  · intro k hk
    obtain ⟨hne, hk⟩ := (herase k).mp hk
    obtain ⟨hle, hk⟩ := h.buffered k hk
    exact ⟨by omega, hk⟩
  · intro k hk hle
    exact (herase k).mpr ⟨by omega, h.kept k hk (by omega)⟩
  · exact h.top
  · intro hlt'
    exact h.last hlt
  · intro k hk
    by_cases hedge : k = e.rxDeliv
    · exact .inl (hedge ▸ hreceived)
    · exact h.below k (by omega)

theorem advanceReord (h : Accounts received givenUp e) :
    Accounts received givenUp e.advanceReord := by
  rw [PdcpEntity.advanceReord]
  split
  · obtain ⟨hedge, hbound, hreord, hgiven, hbuffered, hkept, htop, hlast, hbelow⟩ := h
    exact ⟨hedge, hbound, le_rfl, hgiven, hbuffered, hkept, htop, hlast, hbelow⟩
  · exact h

theorem expiry (h : Accounts received givenUp e) (hahead : e.rxDeliv ≤ e.rxReord) :
    Accounts received (max givenUp e.rxReord) e.handleTReorderingExpiry := by
  have hreord := h.reord
  have hgiven := h.given
  constructor
  · simpa using hreord
  · simpa using h.bound
  · rw [PdcpEntity.rxReord_expiry, PdcpEntity.rxNext_expiry]
    split_ifs <;> omega
  · simp only [PdcpEntity.rxDeliv_expiry]
    omega
  · intro k hk
    obtain ⟨hle, hk⟩ := PdcpEntity.mem_expiry.mp hk
    exact ⟨by simpa using hle, (h.buffered k hk).2⟩
  · intro k hk hle
    rw [PdcpEntity.rxDeliv_expiry] at hle
    exact PdcpEntity.mem_expiry.mpr ⟨hle, h.kept k hk (hahead.trans hle)⟩
  · simpa using h.top
  · intro hlt
    simp only [PdcpEntity.rxDeliv_expiry, PdcpEntity.rxNext_expiry] at hlt ⊢
    exact h.last (by omega)
  · intro k hk
    rw [PdcpEntity.rxDeliv_expiry] at hk
    exact .inr (by omega)

end Accounts

namespace Receiver

variable {r : Receiver} {ev : Event}

/-- Between two calls the count at the edge is not buffered. -/
def Sound (r : Receiver) : Prop :=
  Accounts r.received r.givenUp r.entity ∧ r.entity.rxDeliv ∉ r.entity.reorderingBuffer

theorem sound_new (snSize : PdcpSnSize) : (new snSize).Sound :=
  ⟨.new snSize, by simp [new, PdcpEntity.new]⟩

theorem sound_step (h : r.Sound) (hev : ev.Timely r) : (r.step ev).Sound := by
  obtain ⟨haccounts, hmissing⟩ := h
  cases ev with
  | receive pdu =>
    simp only [step, PdcpEntity.receivePdu]
    split
    · next hnew =>
      obtain ⟨hdelivered, hstop⟩ := PdcpEntity.deliverConsecutive_rule
        (fun _ _ hsdu he => Accounts.deliverNext he hsdu)
        (haccounts.store pdu.payload hnew hev)
      refine ⟨hdelivered.advanceReord, ?_⟩
      simp only [PdcpEntity.advanceReord]
      split <;> exact hstop
    · next hnew => exact ⟨haccounts.duplicate hnew, hmissing⟩
  | expire =>
    refine ⟨haccounts.expiry hev.1, ?_⟩
    simp only [step]
    rw [PdcpEntity.rxDeliv_expiry]
    intro hmem
    exact hev.2 (PdcpEntity.mem_expiry.mp hmem).2

theorem Sound.not_settled (h : r.Sound) : ¬ r.Settled r.entity.rxDeliv := by
  obtain ⟨haccounts, hmissing⟩ := h
  rintro (hreceived | hgiven)
  · exact hmissing (haccounts.kept _ hreceived le_rfl)
  · have := haccounts.given
    omega

theorem Sound.edge_le (h : r.Sound) {c : ℕ} (hc : ¬ r.Settled c) : r.entity.rxDeliv ≤ c := by
  by_contra hlt
  exact hc (h.1.below c (by omega))

theorem Sound.missing_edge (h : r.Sound) (hlt : r.entity.rxDeliv < r.entity.rxNext) :
    r.Missing r.entity.rxDeliv := by
  refine ⟨h.not_settled, _, h.1.last hlt, ?_⟩
  have hne : r.entity.rxDeliv ≠ r.entity.rxNext - 1 := by
    intro heq
    exact h.not_settled (.inl (heq ▸ h.1.last hlt))
  omega

theorem Sound.truthful (h : r.Sound) : r.Truthful := by
  have hreport : r.entity.generateStatusReport = none ↔ r.entity.rxNext ≤ r.entity.rxDeliv := by
    rw [PdcpEntity.generateStatusReport]
    split <;> simp_all
  constructor
  · exact h.1.edge
  · intro k hk
    obtain ⟨hle, hreceived⟩ := h.1.buffered k hk
    have hne : k ≠ r.entity.rxDeliv := by
      rintro rfl
      exact h.2 hk
    exact ⟨by omega, h.1.top k hreceived⟩
  · rw [hreport]
    constructor
    · rintro hle c ⟨hc, d, hd, hlt⟩
      have hedge := h.edge_le hc
      have htop := h.1.top d hd
      omega
    · intro hnone
      by_contra hlt
      exact hnone _ (h.missing_edge (by omega))
  · intro fmc bitmap hsome
    rw [PdcpEntity.generateStatusReport] at hsome
    split at hsome
    · cases hsome
    · next hlt =>
      obtain ⟨rfl, rfl⟩ : r.entity.rxDeliv = fmc ∧ _ = bitmap := by simpa using hsome
      refine ⟨h.not_settled, fun c hc => h.edge_le hc, fun i => ?_⟩
      rw [PdcpEntity.bitSet_bitmapOf]
      constructor
      · rintro ⟨-, hmem⟩
        exact (h.1.buffered _ hmem).2
      · intro hreceived
        have htop := h.1.top _ hreceived
        exact ⟨by omega, h.1.kept _ hreceived (by omega)⟩

/-- An expiry that comes late or finds its edge buffered makes the next report wrong. -/
theorem Sound.truthful_expire_iff (h : r.Sound) :
    (r.step .expire).Truthful ↔ Event.expire.Timely r := by
  constructor
  · intro htrue
    have hbuffered := htrue.buffered
    have hreport := htrue.report
    simp only [step, PdcpEntity.generateStatusReport, PdcpEntity.rxDeliv_expiry,
      PdcpEntity.rxNext_expiry] at hbuffered hreport
    have hahead : r.entity.rxDeliv ≤ r.entity.rxReord := by
      by_contra hlate
      have hedge := h.1.edge
      rw [if_neg (by omega)] at hreport
      obtain ⟨hsettled, -⟩ := hreport _ _ rfl
      apply hsettled
      have hbelow := h.1.below r.entity.rxReord (by omega)
      exact hbelow.imp_right (fun hlt => by simp [hlt])
    refine ⟨hahead, ?_⟩
    intro hmem
    exact lt_irrefl _ (hbuffered _ (PdcpEntity.mem_expiry.mpr ⟨le_rfl, hmem⟩)).1
  · intro hev
    exact (sound_step h hev).truthful

/-- A report tells the truth until an expiry is late, or finds its edge already received. -/
theorem status_report_truthful (snSize : PdcpSnSize) (events : List Event)
    (h : Machine.Along step (fun r ev => ev.Timely r) (new snSize) events) :
    (Machine.run step (new snSize) events).Truthful ∧
      (((Machine.run step (new snSize) events).step .expire).Truthful ↔
        Event.expire.Timely (Machine.run step (new snSize) events)) := by
  have hsound := h.keeps (fun _ _ => sound_step) (sound_new snSize)
  exact ⟨hsound.truthful, hsound.truthful_expire_iff⟩

theorem status_report_truthful_gap :
    (Machine.run step (new .sn12Bits) [.receive ⟨1, [7]⟩, .expire]).Truthful :=
  (status_report_truthful .sn12Bits [.receive ⟨1, [7]⟩, .expire]
    ⟨by decide +kernel, by decide +kernel, trivial⟩).1

/-- The second count arrives before the timer does: it stays buffered at the new edge, and is
reported missing. -/
theorem received_reported_missing :
    ¬ (Machine.run step (new .sn12Bits)
      [.receive ⟨1, [1]⟩, .receive ⟨2, [2]⟩, .expire]).Truthful := by
  intro h
  have hbuffered := h.buffered 2 (by decide +kernel)
  exact absurd hbuffered.1 (by decide +kernel)

end Receiver

end ToyTcpip.Pdcp

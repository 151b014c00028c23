import ToyTcpip.Lib.Machine
import ToyTcpip.Pdcp.Entity

/-! Delivery over a link that loses, repeats and reorders: in order, and each SDU at most once. -/
namespace ToyTcpip.Pdcp

/-- A receiver whose deliveries and buffer are those of a sender's SDUs. -/
structure InOrder (submitted : List (List UInt8)) (e : PdcpEntity) : Prop where
  bound : e.rxNext ≤ submitted.length
  edge : e.rxDeliv ≤ e.rxNext
  reord : e.rxReord ≤ e.rxNext
  buffered : ∀ k sdu, e.reorderingBuffer[k]? = some sdu →
    e.rxDeliv ≤ k ∧ k < e.rxNext ∧ submitted[k]? = some sdu
  delivered : e.deliveredSdus.Sublist (submitted.take e.rxDeliv)

/-- Nothing has been skipped. -/
def Gapless (submitted : List (List UInt8)) (e : PdcpEntity) : Prop :=
  e.deliveredSdus = submitted.take e.rxDeliv

variable {submitted delivered : List (List UInt8)} {e : PdcpEntity} {sdu : List UInt8}
  {c edge top : ℕ}

theorem sublist_push (h : delivered.Sublist (submitted.take edge)) (hc : edge ≤ c)
    (hsdu : submitted[c]? = some sdu) :
    (delivered ++ [sdu]).Sublist (submitted.take (c + 1)) := by
  rw [List.take_add_one, hsdu]
  exact (h.trans (List.take_sublist_take_left hc)).append (List.Sublist.refl _)

/-- Counts that are flushed in growing order are delivered in order. -/
theorem sublist_foldl_flush {due : List ℕ} (hsorted : due.Pairwise (· < ·))
    (hdue : ∀ c ∈ due, edge ≤ c ∧ c < top) (hedge : edge ≤ top)
    (hbuffer : ∀ (k : ℕ) sdu, e.reorderingBuffer[k]? = some sdu → submitted[k]? = some sdu)
    (h : e.deliveredSdus.Sublist (submitted.take edge)) :
    (due.foldl PdcpEntity.flush e).deliveredSdus.Sublist (submitted.take top) := by
  induction due generalizing e edge with
  | nil => exact h.trans (List.take_sublist_take_left hedge)
  | cons c rest ih =>
    obtain ⟨hfirst, hrest⟩ := List.pairwise_cons.mp hsorted
    obtain ⟨hc, htop⟩ := hdue c List.mem_cons_self
    apply ih hrest
    · intro d hd
      exact ⟨hfirst d hd, (hdue d (List.mem_cons_of_mem c hd)).2⟩
    · exact htop
    · intro k sdu hk
      have hflush := PdcpEntity.getElem?_foldl_flush [c] e k
      rw [List.foldl_cons, List.foldl_nil, hk] at hflush
      split_ifs at hflush
      exact hbuffer k sdu hflush.symm
    · rw [PdcpEntity.flush]
      split
      · next sdu hsdu => exact sublist_push h hc (hbuffer c sdu hsdu)
      · exact h.trans (List.take_sublist_take_left (by omega))

namespace InOrder

theorem new (snSize : PdcpSnSize) : InOrder submitted (.new snSize) := by
  constructor <;> simp [PdcpEntity.new]

theorem submit (h : InOrder submitted e) (sdu : List UInt8) : InOrder (submitted ++ [sdu]) e := by
  obtain ⟨hbound, hedge, hreord, hbuffered, hdelivered⟩ := h
  refine ⟨by simp; omega, hedge, hreord, ?_, ?_⟩
  · intro k payload hk
    obtain ⟨hle, hlt, hsdu⟩ := hbuffered k payload hk
    exact ⟨hle, hlt, by rw [List.getElem?_append_left (by omega), hsdu]⟩
  · rwa [List.take_append_of_le_length (by omega)]

theorem store (h : InOrder submitted e) (hlength : submitted.length < 2 ^ 32) (hc : e.rxDeliv ≤ c)
    (hsdu : submitted[c]? = some sdu) : InOrder submitted (e.store c sdu) := by
  obtain ⟨hbound, hedge, hreord, hbuffered, hdelivered⟩ := h
  obtain ⟨hlt, -⟩ := List.getElem?_eq_some_iff.mp hsdu
  have hnext : (e.store c sdu).rxNext = max e.rxNext (c + 1) := by
    simp only [PdcpEntity.store, PdcpEntity.wrap_eq (show c + 1 < 2 ^ 32 by omega)]
    split_ifs <;> omega
  refine ⟨by omega, hedge.trans (by omega), hreord.trans (by omega), ?_, hdelivered⟩
  intro k payload hk
  simp only [PdcpEntity.store, Std.TreeMap.getElem?_insert, Nat.compare_eq_eq] at hk
  split_ifs at hk with hck
  · cases hk
    subst k
    exact ⟨hc, by omega, hsdu⟩
  · obtain ⟨hle, hlt, hpayload⟩ := hbuffered k payload hk
    exact ⟨hle, by omega, hpayload⟩

theorem rxDeliv_deliverNext (h : InOrder submitted e) (hlength : submitted.length < 2 ^ 32)
    (hsdu : e.reorderingBuffer[e.rxDeliv]? = some sdu) :
    (e.deliverNext sdu).rxDeliv = e.rxDeliv + 1 := by
  obtain ⟨-, hlt, -⟩ := h.buffered _ _ hsdu
  have := h.bound
  exact PdcpEntity.wrap_eq (by omega)

theorem deliverNext (h : InOrder submitted e) (hlength : submitted.length < 2 ^ 32)
    (hsdu : e.reorderingBuffer[e.rxDeliv]? = some sdu) :
    InOrder submitted (e.deliverNext sdu) := by
  have hedge := h.rxDeliv_deliverNext hlength hsdu
  obtain ⟨-, hlt, hpayload⟩ := h.buffered _ _ hsdu
  refine ⟨h.bound, by rw [hedge]; exact hlt, h.reord, ?_, ?_⟩
  · intro k payload hk
    simp only [PdcpEntity.deliverNext, Std.TreeMap.getElem?_erase, Nat.compare_eq_eq] at hk
    split_ifs at hk with hne
    obtain ⟨hle, hlt, hpayload⟩ := h.buffered k payload hk
    exact ⟨by omega, hlt, hpayload⟩
  · rw [hedge]
    exact sublist_push h.delivered le_rfl hpayload

theorem gapless_deliverNext (h : InOrder submitted e) (hlength : submitted.length < 2 ^ 32)
    (hsdu : e.reorderingBuffer[e.rxDeliv]? = some sdu) (hgap : Gapless submitted e) :
    Gapless submitted (e.deliverNext sdu) := by
  obtain ⟨-, -, hpayload⟩ := h.buffered _ _ hsdu
  rw [Gapless, h.rxDeliv_deliverNext hlength hsdu, List.take_add_one, hpayload]
  simp [PdcpEntity.deliverNext, show e.deliveredSdus = _ from hgap]

theorem advanceReord (h : InOrder submitted e) : InOrder submitted e.advanceReord := by
  rw [PdcpEntity.advanceReord]
  split
  · exact ⟨h.bound, h.edge, le_rfl, h.buffered, h.delivered⟩
  · exact h

theorem expiry (h : InOrder submitted e) (hahead : e.rxDeliv ≤ e.rxReord) :
    InOrder submitted e.handleTReorderingExpiry := by
  have hreord := h.reord
  constructor
  · simpa using h.bound
  · simpa using hreord
  · rw [PdcpEntity.rxReord_expiry, PdcpEntity.rxNext_expiry]
    split_ifs <;> omega
  · intro k payload hk
    rw [PdcpEntity.getElem?_expiry] at hk
    split_ifs at hk with hlt
    obtain ⟨-, hnext, hpayload⟩ := h.buffered k payload hk
    simp only [PdcpEntity.rxDeliv_expiry, PdcpEntity.rxNext_expiry]
    exact ⟨not_lt.mp hlt, hnext, hpayload⟩
  · rw [PdcpEntity.rxDeliv_expiry]
    refine sublist_foldl_flush ?_ ?_ hahead ?_ h.delivered
    · have hordered := Std.TreeMap.ordered_keys (t := e.reorderingBuffer)
      simp only [Nat.compare_eq_lt] at hordered
      exact hordered.filter _
    · intro c hc
      obtain ⟨hmem, hlt⟩ := PdcpEntity.mem_due.mp hc
      obtain ⟨sdu, hsdu⟩ := Option.isSome_iff_exists.mp
        (Std.TreeMap.mem_iff_isSome_getElem?.mp hmem)
      exact ⟨(h.buffered c sdu hsdu).1, hlt⟩
    · intro k payload hk
      exact (h.buffered k payload hk).2.2

/-- A reception keeps the order, never takes the edge back and skips nothing. -/
theorem receive (h : InOrder submitted e) (hlength : submitted.length < 2 ^ 32)
    {pdu : PdcpDataPdu} (hpdu : submitted[e.deriveRxCount pdu.sn]? = some pdu.payload) :
    InOrder submitted (e.receivePdu pdu) ∧ e.rxDeliv ≤ (e.receivePdu pdu).rxDeliv ∧
      (Gapless submitted e → Gapless submitted (e.receivePdu pdu)) := by
  rw [PdcpEntity.receivePdu]
  split
  · next hnew =>
    obtain ⟨⟨horder, hle, hgap⟩, -⟩ := PdcpEntity.deliverConsecutive_rule
      (P := fun e' => InOrder submitted e' ∧ e.rxDeliv ≤ e'.rxDeliv ∧
        (Gapless submitted e → Gapless submitted e'))
      (fun e' sdu hsdu ⟨horder, hle, hgap⟩ =>
        ⟨horder.deliverNext hlength hsdu,
          by rw [horder.rxDeliv_deliverNext hlength hsdu]; omega,
          fun he => horder.gapless_deliverNext hlength hsdu (hgap he)⟩)
      ⟨h.store hlength hnew.1 hpdu, le_rfl, fun he => he⟩
    refine ⟨horder.advanceReord, ?_, ?_⟩
    · rw [PdcpEntity.advanceReord]
      split <;> exact hle
    · intro he
      rw [PdcpEntity.advanceReord]
      split <;> exact hgap he
  · exact ⟨h, le_rfl, fun he => he⟩

end InOrder

/-! ### The link -/

/-- A PDU on its way, with the count that the sender gave it. -/
structure Sent where
  count : ℕ
  pdu : PdcpDataPdu
  deriving DecidableEq

inductive LinkEvent where
  | submit (sdu : List UInt8)
  | deliver (m : Sent)
  | expire

structure Link where
  tx : PdcpEntity
  rx : PdcpEntity
  submitted : List (List UInt8)
  sent : List Sent

namespace Link

def new (snSize : PdcpSnSize) : Link := ⟨.new snSize, .new snSize, [], []⟩

def step (l : Link) : LinkEvent → Link
  | .submit sdu =>
    { l with
      tx := (l.tx.transmitSdu sdu).1
      submitted := l.submitted ++ [sdu]
      sent := l.sent ++ [⟨l.tx.txNext, (l.tx.transmitSdu sdu).2⟩] }
  | .deliver m => { l with rx := l.rx.receivePdu m.pdu }
  | .expire => { l with rx := l.rx.handleTReorderingExpiry }

/-- Less than half the sequence numbers away from `rx_next`. -/
def Near (l : Link) (m : Sent) : Prop :=
  l.rx.rxNext < m.count + l.rx.snSize.windowSize ∧ m.count < l.rx.rxNext + l.rx.snSize.windowSize

end Link

/-- What the link may do: any PDU sent arrives, early or late and any number of times. -/
def LinkEvent.Possible (l : Link) : LinkEvent → Prop
  | .submit _ => l.submitted.length + 1 < 2 ^ 32
  | .deliver m => m ∈ l.sent ∧ l.Near m
  | .expire => True

instance LinkEvent.decidablePossible (l : Link) (ev : LinkEvent) : Decidable (ev.Possible l) :=
  match ev with
  | .submit _ => inferInstanceAs (Decidable (_ < _))
  | .deliver _ => inferInstanceAs (Decidable (_ ∧ _ ∧ _))
  | .expire => inferInstanceAs (Decidable True)

/-- The timer does not fire after its gap has closed. -/
def LinkEvent.Timely (l : Link) : LinkEvent → Prop
  | .expire => l.rx.rxDeliv ≤ l.rx.rxReord
  | _ => True

instance LinkEvent.decidableTimely (l : Link) (ev : LinkEvent) : Decidable (ev.Timely l) :=
  match ev with
  | .submit _ => inferInstanceAs (Decidable True)
  | .deliver _ => inferInstanceAs (Decidable True)
  | .expire => inferInstanceAs (Decidable (_ ≤ _))

namespace Link

variable {l : Link} {ev : LinkEvent} {m : Sent}

structure Sound (l : Link) : Prop where
  order : InOrder l.submitted l.rx
  length : l.submitted.length < 2 ^ 32
  txNext : l.tx.txNext = l.submitted.length
  size : l.tx.snSize = l.rx.snSize
  sent : ∀ m ∈ l.sent, l.submitted[m.count]? = some m.pdu.payload ∧
    m.pdu.sn = m.count % l.tx.snSize.snSpace

theorem sound_new (snSize : PdcpSnSize) : (new snSize).Sound := by
  refine ⟨.new snSize, by simp [new], rfl, rfl, by simp [new]⟩

theorem Sound.derive (h : l.Sound) (hm : m ∈ l.sent) (hnear : l.Near m) :
    l.rx.deriveRxCount m.pdu.sn = m.count := by
  obtain ⟨hpayload, hsn⟩ := h.sent m hm
  obtain ⟨hlt, -⟩ := List.getElem?_eq_some_iff.mp hpayload
  have hlength := h.length
  rw [hsn, h.size]
  exact PdcpEntity.deriveRxCount_eq (by omega) hnear.1 hnear.2

theorem snSize_receive (e : PdcpEntity) (pdu : PdcpDataPdu) :
    (e.receivePdu pdu).snSize = e.snSize := by
  rw [PdcpEntity.receivePdu]
  split
  · have h := (PdcpEntity.deliverConsecutive_rule (P := fun e' => e'.snSize = e.snSize)
      (e := e.store (e.deriveRxCount pdu.sn) pdu.payload) (fun _ _ _ he => he) rfl).1
    rw [PdcpEntity.advanceReord]
    split <;> exact h
  · rfl

theorem sound_submit (h : l.Sound) (sdu : List UInt8) (hlength : l.submitted.length + 1 < 2 ^ 32) :
    (l.step (.submit sdu)).Sound := by
  refine ⟨h.order.submit sdu, by simpa [step] using hlength, ?_, h.size, ?_⟩
  · simp only [step, PdcpEntity.transmitSdu, h.txNext, List.length_append, List.length_singleton]
    exact PdcpEntity.wrap_eq hlength
  · intro m hm
    simp only [step, List.mem_append, List.mem_singleton] at hm ⊢
    rcases hm with hm | rfl
    · obtain ⟨hpayload, hsn⟩ := h.sent m hm
      obtain ⟨hlt, -⟩ := List.getElem?_eq_some_iff.mp hpayload
      exact ⟨by rw [List.getElem?_append_left hlt, hpayload], hsn⟩
    · exact ⟨by simp [h.txNext, PdcpEntity.transmitSdu], rfl⟩

theorem sound_step (h : l.Sound) (hev : ev.Possible l) (htimely : ev.Timely l) :
    (l.step ev).Sound := by
  cases ev with
  | submit sdu => exact sound_submit h sdu hev
  | deliver m =>
    obtain ⟨hpayload, -⟩ := h.sent m hev.1
    rw [← h.derive hev.1 hev.2] at hpayload
    obtain ⟨horder, -⟩ := h.order.receive h.length hpayload
    exact ⟨horder, h.length, h.txNext, h.size.trans (snSize_receive _ _).symm, h.sent⟩
  | expire =>
    exact ⟨h.order.expiry htimely, h.length, h.txNext, h.size.trans (by simp [step]), h.sent⟩

theorem rxDeliv_step (h : l.Sound) (hev : ev.Possible l) :
    l.rx.rxDeliv ≤ (l.step ev).rx.rxDeliv ↔ ev.Timely l := by
  cases ev with
  | submit sdu => exact ⟨fun _ => trivial, fun _ => le_rfl⟩
  | deliver m =>
    obtain ⟨hpayload, -⟩ := h.sent m hev.1
    rw [← h.derive hev.1 hev.2] at hpayload
    exact ⟨fun _ => trivial, fun _ => (h.order.receive h.length hpayload).2.1⟩
  | expire =>
    simp only [step, PdcpEntity.rxDeliv_expiry]
    exact Iff.rfl

theorem gapless_step (h : l.Sound) (hgap : Gapless l.submitted l.rx) (hev : ev.Possible l)
    (hexpire : ev ≠ .expire) : Gapless (l.step ev).submitted (l.step ev).rx := by
  cases ev with
  | submit sdu =>
    have hbound := h.order.bound
    have hedge := h.order.edge
    simp only [step, Gapless]
    rw [List.take_append_of_le_length (by omega)]
    exact hgap
  | deliver m =>
    obtain ⟨hpayload, -⟩ := h.sent m hev.1
    rw [← h.derive hev.1 hev.2] at hpayload
    exact (h.order.receive h.length hpayload).2.2 hgap
  | expire => exact absurd rfl hexpire

/-- While the timer fires in time, what is delivered is submitted, in order and once; a link whose
timer never fires skips nothing. -/
theorem delivers_in_order (snSize : PdcpSnSize) (events : List LinkEvent)
    (h : Machine.Along step (fun l ev => ev.Possible l ∧ ev.Timely l) (new snSize) events) :
    let l := Machine.run step (new snSize) events
    (∀ m ∈ l.sent, l.Near m → l.rx.deriveRxCount m.pdu.sn = m.count) ∧
      l.rx.deliveredSdus.Sublist l.submitted ∧
      (∀ ev : LinkEvent, ev.Possible l →
        (l.rx.rxDeliv ≤ (l.step ev).rx.rxDeliv ↔ ev.Timely l)) ∧
      (LinkEvent.expire ∉ events → l.rx.deliveredSdus <+: l.submitted) := by
  have hsound := h.keeps (fun l ev hl hev => sound_step hl hev.1 hev.2) (sound_new snSize)
  refine ⟨fun m hm hnear => hsound.derive hm hnear,
    hsound.order.delivered.trans (List.take_sublist _ _),
    fun ev hev => rxDeliv_step hsound hev, fun hexpire => ?_⟩
  have hgap := h.and_mem.keeps (I := fun l => l.Sound ∧ Gapless l.submitted l.rx)
    (fun l ev hl hev => ⟨sound_step hl.1 hev.1.1 hev.1.2,
      gapless_step hl.1 hl.2 hev.1.1 fun heq => hexpire (heq ▸ hev.2)⟩)
    ⟨sound_new snSize, by simp [Gapless, new, PdcpEntity.new]⟩
  have heq : (Machine.run step (new snSize) events).rx.deliveredSdus = _ := hgap.2
  rw [heq]
  exact List.take_prefix _ _

example : (Machine.run step (new .sn12Bits)
    [.submit [1], .submit [2], .deliver ⟨1, 1, [2]⟩, .expire]).rx.deliveredSdus = [[2]] := by
  decide +kernel

theorem delivers_in_order_swapped :
    (Machine.run step (new .sn12Bits)
      [.submit [1], .submit [2], .deliver ⟨1, 1, [2]⟩, .expire]).rx.deliveredSdus.Sublist
      [[1], [2]] :=
  (delivers_in_order .sn12Bits [.submit [1], .submit [2], .deliver ⟨1, 1, [2]⟩, .expire]
    ⟨⟨by decide +kernel, by decide +kernel⟩, ⟨by decide +kernel, by decide +kernel⟩,
      ⟨by decide +kernel, by decide +kernel⟩, ⟨by decide +kernel, by decide +kernel⟩, trivial⟩).2.1

/-- A timer that fires after everything was delivered takes the edge back, and a copy of the
first PDU is delivered a second time. -/
theorem delivered_twice :
    let events : List LinkEvent :=
      [.submit [1], .deliver ⟨0, 0, [1]⟩, .expire, .deliver ⟨0, 0, [1]⟩]
    Machine.Along step (fun l ev => ev.Possible l) (new .sn12Bits) events ∧
      ¬ (Machine.run step (new .sn12Bits) events).rx.deliveredSdus.Sublist
        (Machine.run step (new .sn12Bits) events).submitted :=
  ⟨⟨by decide +kernel, by decide +kernel, by decide +kernel, by decide +kernel, trivial⟩,
    by decide +kernel⟩

end Link

end ToyTcpip.Pdcp

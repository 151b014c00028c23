import ToyTcpip.Ethernet
import ToyTcpip.Lib.Entries
import ToyTcpip.Lib.Machine

/-! Frame replication and elimination over two paths (`frer.rs`). -/
namespace ToyTcpip.Frer

def ethertypeRtag : ℕ := 0xF1C1

structure RTagHeader where
  reserved : UInt16
  sequenceNumber : UInt16
  innerEthertype : UInt16
  deriving DecidableEq

structure RTagFrame where
  dstMac : MacAddress
  srcMac : MacAddress
  rtag : RTagHeader
  payload : List UInt8
  deriving DecidableEq

namespace RTagFrame

def new (dstMac srcMac : MacAddress) (sequenceNumber innerEthertype : UInt16)
    (payload : List UInt8) :
    RTagFrame := ⟨dstMac, srcMac, ⟨0, sequenceNumber, innerEthertype⟩, payload⟩

def serialize (f : RTagFrame) : List UInt8 :=
  f.dstMac.octets ++ f.srcMac.octets ++ toBeBytes16 ethertypeRtag ++
    toBeBytes16 f.rtag.reserved.toNat ++ toBeBytes16 f.rtag.sequenceNumber.toNat ++
    toBeBytes16 f.rtag.innerEthertype.toNat ++ f.payload

def parse (data : List UInt8) : Option RTagFrame :=
  if data.length < 20 then none
  else if wordAt data 12 ≠ ethertypeRtag then none
  else some
    { dstMac := macAt data 0
      srcMac := macAt data 6
      rtag :=
        { reserved := .ofNat (wordAt data 14)
          sequenceNumber := .ofNat (wordAt data 16)
          innerEthertype := .ofNat (wordAt data 18) }
      payload := data.drop 20 }

theorem parse_serialize (f : RTagFrame) : parse f.serialize = some f := by
  obtain ⟨dst, src, ⟨reserved, seq, inner⟩, payload⟩ := f
  have hdst : dst.octets.length = 6 := by simp [MacAddress.octets]
  have hsrc : src.octets.length = 6 := by simp [MacAddress.octets]
  have hword : ∀ n : ℕ, (toBeBytes16 n).length = 2 := fun n => rfl
  generalize hdata : serialize ⟨dst, src, ⟨reserved, seq, inner⟩, payload⟩ = data
  simp only [serialize, List.append_assoc] at hdata
  have hlen : data.length = 20 + payload.length := by
    simp only [← hdata, List.length_append, hdst, hsrc, hword]
    omega
  have hd : macAt data 0 = dst := by
    rw [← hdata]
    exact EthernetFrame.macAt_octets dst [] _
  have hs : macAt data 6 = src := by
    rw [← hdata, ← hdst]
    exact EthernetFrame.macAt_octets src _ _
  have ht : wordAt data 12 = ethertypeRtag := by
    have := wordAt_append (n := ethertypeRtag) (dst.octets ++ src.octets)
      (toBeBytes16 reserved.toNat ++
      (toBeBytes16 seq.toNat ++ (toBeBytes16 inner.toNat ++ payload))) (by decide)
    simpa [hdst, hsrc, hdata] using this
  have hr : wordAt data 14 = reserved.toNat := by
    have := wordAt_append (dst.octets ++ src.octets ++ toBeBytes16 ethertypeRtag)
      (toBeBytes16 seq.toNat ++ (toBeBytes16 inner.toNat ++ payload)) reserved.toNat_lt
    simpa [hdst, hsrc, hword, hdata] using this
  have hq : wordAt data 16 = seq.toNat := by
    have := wordAt_append (dst.octets ++ src.octets ++ toBeBytes16 ethertypeRtag ++
      toBeBytes16 reserved.toNat) (toBeBytes16 inner.toNat ++ payload) seq.toNat_lt
    simpa [hdst, hsrc, hword, hdata] using this
  have hi : wordAt data 18 = inner.toNat := by
    have := wordAt_append (dst.octets ++ src.octets ++ toBeBytes16 ethertypeRtag ++
      toBeBytes16 reserved.toNat ++ toBeBytes16 seq.toNat) payload inner.toNat_lt
    simpa [hdst, hsrc, hword, hdata] using this
  have hp : data.drop 20 = payload := by
    have hpre : (dst.octets ++ src.octets ++ toBeBytes16 ethertypeRtag ++
        toBeBytes16 reserved.toNat ++
        toBeBytes16 seq.toNat ++ toBeBytes16 inner.toNat).length = 20 := by
      simp [hdst, hsrc, hword]
    rw [← hdata]
    simpa only [List.append_assoc] using (List.drop_left' hpre : (_ ++ payload).drop 20 = payload)
  rw [parse, if_neg (by omega), if_neg (by simp [ht]), hd, hs, hr, hq, hi, hp]
  simp

end RTagFrame

structure FrerEngine where
  txSeq : UInt16
  receivedSequences : Finset UInt16
  deriving DecidableEq

namespace FrerEngine

def new : FrerEngine := ⟨1, ∅⟩

def replicate (e : FrerEngine) (dst src : MacAddress) (innerEtype : UInt16) (payload : List UInt8) :
    FrerEngine × RTagFrame × RTagFrame :=
  ({ e with txSeq := e.txSeq + 1 }, .new dst src e.txSeq innerEtype payload,
    .new dst src e.txSeq innerEtype payload)

def processIngressFrame (e : FrerEngine) (frame : RTagFrame) : FrerEngine × Option (List UInt8) :=
  let seq := frame.rtag.sequenceNumber
  if seq ∈ e.receivedSequences then (e, none)
  else ({ e with receivedSequences := insert seq e.receivedSequences }, some frame.payload)

end FrerEngine

/-! ### A sender and a receiver with two paths between them -/

inductive Path where
  | a
  | b
  deriving DecidableEq

structure Packet where
  dst : MacAddress
  src : MacAddress
  innerEtype : UInt16
  payload : List UInt8

/-- A copy of a frame that came in, and what the receiver forwarded for it. -/
structure Arrival where
  frame : ℕ
  path : Path
  forwarded : Option (List UInt8)

/-- A packet of the application, and the copies that carry it. -/
structure Sent where
  packet : Packet
  copyA : RTagFrame
  copyB : RTagFrame

structure Net where
  sender : FrerEngine
  receiver : FrerEngine
  sent : List Sent
  arrivals : List Arrival

/-- The application hands over a packet, or a path hands over its copy of a frame. -/
inductive Event where
  | replicate (p : Packet)
  | arrive (n : ℕ) (path : Path)

namespace Net

def start (sender receiver : FrerEngine) : Net := ⟨sender, receiver, [], []⟩

def onPath (sent : Sent) : Path → RTagFrame
  | .a => sent.copyA
  | .b => sent.copyB

def step (net : Net) : Event → Net
  | .replicate p =>
    let (sender, copyA, copyB) := net.sender.replicate p.dst p.src p.innerEtype p.payload
    { net with sender, sent := net.sent ++ [⟨p, copyA, copyB⟩] }
  | .arrive n path =>
    match net.sent[n]? with
    | none => net
    | some sent =>
      match RTagFrame.parse (onPath sent path).serialize with
      | none => net
      | some frame =>
        let (receiver, forwarded) := net.receiver.processIngressFrame frame
        { net with receiver, arrivals := net.arrivals ++ [⟨n, path, forwarded⟩] }

def run : Net → List Event → Net := Machine.run step

/-- Some copy of the frame came in. -/
def Arrived (net : Net) (n : ℕ) : Prop := ∃ x ∈ net.arrivals, x.frame = n

instance (net : Net) (n : ℕ) : Decidable (net.Arrived n) :=
  inferInstanceAs (Decidable (∃ x ∈ net.arrivals, x.frame = n))

/-- What the paths may do: each hands over a frame that was sent, at most once; no copy comes in
behind one of a frame sent `2 ^ 15` or more places later, by when one of its frame has come in. -/
def Carries (net : Net) : Event → Prop
  | .replicate _ => True
  | .arrive n path =>
    n < net.sent.length ∧ (∀ x ∈ net.arrivals, ¬ (x.frame = n ∧ x.path = path)) ∧
      (∀ x ∈ net.arrivals, x.frame < n + 2 ^ 15) ∧ ∀ m, m + 2 ^ 15 ≤ n → net.Arrived m

/-- The payloads forwarded for one frame. -/
def forwarded (net : Net) (n : ℕ) : List (List UInt8) :=
  (net.arrivals.filter (·.frame = n)).filterMap (·.forwarded)

def ForwardedOnce (net : Net) (n : ℕ) : Prop :=
  ∃ sent, net.sent[n]? = some sent ∧ net.forwarded n = [sent.packet.payload]

variable {tx : UInt16} {before : Finset UInt16} {net : Net} {sent : Sent} {n : ℕ}
  {path : Path} {e : Event}

/-! ### One step -/

theorem forwarded_append (net : Net) (receiver : FrerEngine) (x : Arrival) (n : ℕ) :
    forwarded { net with receiver, arrivals := net.arrivals ++ [x] } n =
      net.forwarded n ++ (if x.frame = n then x.forwarded.toList else []) := by
  unfold forwarded
  by_cases hn : x.frame = n
  · cases hx : x.forwarded <;> simp [hn, hx]
  · simp [hn]

theorem step_arrive (h : net.sent[n]? = some sent) : net.step (.arrive n path) =
    { net with
      receiver := (net.receiver.processIngressFrame (onPath sent path)).1
      arrivals :=
        net.arrivals ++ [⟨n, path, (net.receiver.processIngressFrame (onPath sent path)).2⟩] } := by
  simp only [step, h, RTagFrame.parse_serialize]

theorem step_replicate (net : Net) (p : Packet) : net.step (.replicate p) =
    { net with
      sender := ⟨net.sender.txSeq + 1, net.sender.receivedSequences⟩
      sent := net.sent ++ [⟨p, .new p.dst p.src net.sender.txSeq p.innerEtype p.payload,
        .new p.dst p.src net.sender.txSeq p.innerEtype p.payload⟩] } := rfl

/-- The tag of the `n`-th frame of a sender that starts with `tx`. -/
def tag (tx : UInt16) (n : ℕ) : UInt16 := tx + .ofNat n

theorem tag_eq_iff {m n : ℕ} : tag tx m = tag tx n ↔ m % 2 ^ 16 = n % 2 ^ 16 := by
  rw [tag, tag, UInt16.add_right_inj, ← UInt16.toNat_inj, UInt16.toNat_ofNat', UInt16.toNat_ofNat']

/-- The frame is one of the first `2 ^ 16`, and its tag was not remembered from before. -/
def Distinguished (tx : UInt16) (before : Finset UInt16) (n : ℕ) : Prop :=
  n < 2 ^ 16 ∧ tag tx n ∉ before

instance : Decidable (Distinguished tx before n) := inferInstanceAs (Decidable (_ ∧ _))

/-- What holds between the engines of a network whose sender started with `tx` and whose receiver
remembered the tags `before`. -/
structure Consistent (tx : UInt16) (before : Finset UInt16) (net : Net) : Prop where
  txSeq : net.sender.txSeq = tag tx net.sent.length
  copies : ∀ n sent, net.sent[n]? = some sent → ∀ path,
    (onPath sent path).payload = sent.packet.payload ∧
      (onPath sent path).rtag.sequenceNumber = tag tx n
  arrived : ∀ n, net.Arrived n → n < net.sent.length
  received : ∀ t, t ∈ net.receiver.receivedSequences ↔
    t ∈ before ∨ ∃ n, net.Arrived n ∧ t = tag tx n
  forwarded : ∀ n sent, net.sent[n]? = some sent → net.Arrived n →
    net.forwarded n = if Distinguished tx before n then [sent.packet.payload] else []

theorem forwarded_of_not_arrived (h : ¬ net.Arrived n) : net.forwarded n = [] := by
  have hfilter : net.arrivals.filter (·.frame = n) = [] := by
    rw [List.filter_eq_nil_iff]
    intro x hx hn
    exact h ⟨x, hx, by simpa using hn⟩
  rw [Net.forwarded, hfilter, List.filterMap_nil]

theorem consistent_start (sender receiver : FrerEngine) :
    (start sender receiver).Consistent sender.txSeq receiver.receivedSequences where
  txSeq := by simp [start, tag]
  copies := by simp [start]
  arrived := by simp [start, Arrived]
  received := by simp [start, Arrived]
  forwarded := by simp [start, Arrived]

theorem Consistent.replicate (h : net.Consistent tx before) (p : Packet) :
    (net.step (.replicate p)).Consistent tx before := by
  rw [step_replicate]
  refine ⟨?_, ?_, ?_, h.received, ?_⟩
  · simp [h.txSeq, tag, UInt16.add_assoc]
  · intro n sent hn
    rcases Entries.getElem?_concat hn with hn | ⟨rfl, rfl⟩
    · exact h.copies n sent hn
    · intro path
      cases path <;> exact ⟨rfl, h.txSeq⟩
  · intro n hn
    have := h.arrived n hn
    simp
    omega
  · intro n sent hn harrived
    have hlt := h.arrived n harrived
    rcases Entries.getElem?_concat hn with hn | ⟨rfl, rfl⟩
    · exact h.forwarded n sent hn harrived
    · exact absurd hlt (lt_irrefl _)

/-- The receiver takes a copy for a duplicate when one of its frame came in before, and when it
cannot tell the frame from an earlier one. -/
theorem Consistent.mem_received_iff (h : net.Consistent tx before)
    (hc : net.Carries (.arrive n path)) :
    tag tx n ∈ net.receiver.receivedSequences ↔ net.Arrived n ∨ ¬ Distinguished tx before n := by
  obtain ⟨hsent, -, hahead, hbehind⟩ := hc
  rw [h.received, Distinguished]
  constructor
  · rintro (hbefore | ⟨m, ⟨x, hx, rfl⟩, hm⟩)
    · exact .inr fun hd => hd.2 hbefore
    · have hmod := tag_eq_iff.mp hm
      have hlt := hahead x hx
      by_cases heq : x.frame = n
      · exact .inl ⟨x, hx, heq⟩
      · refine .inr fun hd => ?_
        have := hd.1
        omega
  · rintro (harrived | hd)
    · exact .inr ⟨n, harrived, rfl⟩
    · by_cases hn : n < 2 ^ 16
      · left
        by_contra hbefore
        exact hd ⟨hn, hbefore⟩
      · exact .inr ⟨n - 2 ^ 16, hbehind _ (by omega), tag_eq_iff.mpr (by omega)⟩

/-- What the receiver forwards for a copy. -/
theorem Consistent.processIngressFrame (h : net.Consistent tx before)
    (hc : net.Carries (.arrive n path)) (hn : net.sent[n]? = some sent) :
    (net.receiver.processIngressFrame (onPath sent path)).2 =
      (if Distinguished tx before n ∧ ¬ net.Arrived n then some sent.packet.payload else none) ∧
    ∀ t, t ∈ (net.receiver.processIngressFrame (onPath sent path)).1.receivedSequences ↔
      t ∈ net.receiver.receivedSequences ∨ t = tag tx n := by
  obtain ⟨hpayload, htag⟩ := h.copies n sent hn path
  have hmem := h.mem_received_iff hc
  rw [FrerEngine.processIngressFrame, htag, hpayload]
  by_cases hseen : tag tx n ∈ net.receiver.receivedSequences
  · rw [if_pos hseen]
    constructor
    · rw [if_neg]
      rintro ⟨hd, harrived⟩
      rcases hmem.mp hseen with h | h
      · exact harrived h
      · exact h hd
    · intro t
      refine ⟨.inl, ?_⟩
      rintro (ht | rfl)
      · exact ht
      · exact hseen
  · rw [if_neg hseen]
    rw [hmem, not_or, not_not] at hseen
    constructor
    · rw [if_pos ⟨hseen.2, hseen.1⟩]
    · intro t
      simp [or_comm]

theorem arrived_concat {receiver : FrerEngine} {x : Arrival} {m : ℕ} :
    Arrived { net with receiver, arrivals := net.arrivals ++ [x] } m ↔
    net.Arrived m ∨ m = x.frame := by
  simp [Arrived, or_and_right, exists_or, eq_comm]

theorem Consistent.arrive (h : net.Consistent tx before) (hc : net.Carries (.arrive n path)) :
    (net.step (.arrive n path)).Consistent tx before := by
  obtain ⟨sent, hn⟩ : ∃ sent, net.sent[n]? = some sent := ⟨_, List.getElem?_eq_getElem hc.1⟩
  obtain ⟨hout, hreceived⟩ := h.processIngressFrame hc hn
  rw [step_arrive hn]
  refine ⟨h.txSeq, h.copies, ?_, ?_, ?_⟩
  · intro m hm
    rcases arrived_concat.mp hm with hm | rfl
    · exact h.arrived m hm
    · exact hc.1
  · intro t
    rw [hreceived, h.received]
    simp only [arrived_concat, or_and_right, exists_or, exists_eq_left, or_assoc]
  · intro m sent' hm harrived
    rw [forwarded_append, hout]
    dsimp only
    by_cases hnm : n = m
    · subst hnm
      obtain rfl : sent' = sent := Option.some.inj (hm.symm.trans hn)
      by_cases hbefore : net.Arrived n
      · simp [hbefore, h.forwarded n sent' hn hbefore]
      · rw [forwarded_of_not_arrived hbefore]
        by_cases hd : Distinguished tx before n <;> simp [hbefore, hd]
    · have hm' : net.Arrived m := (arrived_concat.mp harrived).resolve_right fun he => hnm he.symm
      rw [if_neg hnm, List.append_nil]
      exact h.forwarded m sent' hm hm'

theorem Consistent.step (h : net.Consistent tx before) (hc : net.Carries e) :
    (net.step e).Consistent tx before := by
  cases e with
  | replicate p => exact h.replicate p
  | arrive n path => exact h.arrive hc

theorem consistent_run {sender receiver : FrerEngine} {events : List Event}
    (h : Machine.Along step Carries (start sender receiver) events) :
    ((start sender receiver).run events).Consistent sender.txSeq receiver.receivedSequences :=
  h.keeps (fun _ _ => Consistent.step) (consistent_start sender receiver)

/-- A frame of which some copy came in is forwarded exactly once if and only if it is one of the
first `2 ^ 16` and its tag was not remembered from before; no other frame is ever forwarded. -/
theorem frer_hitless {sender receiver : FrerEngine} {events : List Event}
    (h : Machine.Along step Carries (start sender receiver) events) (n : ℕ) :
    let net := (start sender receiver).run events
    net.Arrived n → (net.ForwardedOnce n ↔
      n < 2 ^ 16 ∧ sender.txSeq + .ofNat n ∉ receiver.receivedSequences) := by
  intro net harrived
  have hinv : net.Consistent _ _ := consistent_run h
  obtain ⟨sent, hn⟩ : ∃ sent, net.sent[n]? = some sent :=
    ⟨_, List.getElem?_eq_getElem (hinv.arrived n harrived)⟩
  change _ ↔ Distinguished sender.txSeq receiver.receivedSequences n
  rw [ForwardedOnce, hinv.forwarded n sent hn harrived]
  split
  · simp_all
  · simp_all

/-! ### Two paths without loss -/

/-- Every frame comes in on both paths before the next one is sent. -/
def inOrder (p : Packet) (k : ℕ) : List Event :=
  (List.range k).flatMap fun n => [.replicate p, .arrive n .a, .arrive n .b]

theorem inOrder_carries (sender receiver : FrerEngine) (p : Packet) (k : ℕ) :
    Machine.Along step Carries (start sender receiver) (inOrder p k) ∧
      ((start sender receiver).run (inOrder p k)).sent.length = k ∧
      ∀ m, ((start sender receiver).run (inOrder p k)).Arrived m ↔ m < k := by
  induction k with
  | zero => simp [inOrder, Machine.Along, run, Machine.run, start, Arrived]
  | succ k ih =>
    obtain ⟨hcarries, hlen, harrived⟩ := ih
    have hsucc : inOrder p (k + 1) = inOrder p k ++ [.replicate p, .arrive k .a, .arrive k .b] := by
      simp [inOrder, List.range_succ]
    rw [hsucc, run, Machine.run_append, Machine.along_append]
    rw [run] at hlen harrived
    generalize Machine.run step (start sender receiver) (inOrder p k) = net at *
    have hframe : ∀ x ∈ net.arrivals, x.frame < k := fun x hx => (harrived _).mp ⟨x, hx, rfl⟩
    obtain ⟨sent, hsent⟩ : ∃ sent, (net.step (.replicate p)).sent[k]? = some sent := by
      rw [step_replicate]
      exact ⟨_, by rw [← hlen]; exact List.getElem?_concat_length⟩
    have hsent' : ((net.step (.replicate p)).step (.arrive k .a)).sent[k]? = some sent := by
      rw [step_arrive hsent]
      exact hsent
    have hlt : k < (net.step (.replicate p)).sent.length := by simp [step_replicate, hlen]
    have hfirst : (net.step (.replicate p)).Carries (.arrive k .a) := by
      refine ⟨hlt, ?_, ?_, ?_⟩
      · rintro x hx ⟨he, -⟩
        exact absurd (hframe x hx) (by omega)
      · intro x hx
        have := hframe x hx
        omega
      · intro m hm
        exact (harrived m).mpr (by omega)
    have hsecond : ((net.step (.replicate p)).step (.arrive k .a)).Carries (.arrive k .b) := by
      rw [step_arrive hsent]
      refine ⟨hlt, ?_, ?_, ?_⟩
      · intro x hx
        rcases List.mem_append.mp hx with hx | hx
        · rintro ⟨he, -⟩
          exact absurd (hframe x hx) (by omega)
        · rw [List.mem_singleton.mp hx]
          simp
      · intro x hx
        rcases List.mem_append.mp hx with hx | hx
        · have := hframe x hx
          omega
        · rw [List.mem_singleton.mp hx]
          simp
      · intro m hm
        exact arrived_concat.mpr (.inl ((harrived m).mpr (by omega)))
    refine ⟨⟨hcarries, trivial, hfirst, hsecond, trivial⟩, ?_, ?_⟩
    · change ((((net.step (.replicate p)).step (.arrive k .a)).step (.arrive k .b))).sent.length = _
      rw [step_arrive hsent', step_arrive hsent]
      simp [step_replicate, hlen]
    · intro m
      change ((((net.step (.replicate p)).step (.arrive k .a)).step (.arrive k .b))).Arrived m ↔ _
      have hrepl : (net.step (.replicate p)).Arrived m ↔ m < k := harrived m
      rw [step_arrive hsent', arrived_concat, step_arrive hsent, arrived_concat, hrepl]
      dsimp only
      omega

/-- The second frame of two fresh engines comes out. -/
theorem frer_hitless_second :
    ((start .new .new).run (inOrder ⟨.zero, .broadcast, 0x0800, [1]⟩ 2)).ForwardedOnce 1 :=
  (frer_hitless (inOrder_carries .new .new _ 2).1 1
    (((inOrder_carries .new .new _ 2).2.2 1).mpr (by decide))).mpr ⟨by decide, by decide⟩

theorem inOrder_loses (p : Packet) {k n : ℕ} (hk : n < k) (hn : 2 ^ 16 ≤ n) :
    Machine.Along step Carries (start .new .new) (inOrder p k) ∧
      (∀ m < k, ((start .new .new).run (inOrder p k)).Arrived m) ∧
      ((start .new .new).run (inOrder p k)).sent.length = k ∧
      ¬ ((start .new .new).run (inOrder p k)).ForwardedOnce n := by
  obtain ⟨hcarries, hlen, harrived⟩ := inOrder_carries .new .new p k
  refine ⟨hcarries, fun m => (harrived m).mpr, hlen, ?_⟩
  rintro ⟨sent, hsent, hforwarded⟩
  rw [(consistent_run hcarries).forwarded n sent hsent ((harrived n).mpr hk),
    if_neg fun hd => absurd hd.1 (by omega)] at hforwarded
  cases hforwarded

/-- The frame after the first `2 ^ 16` is lost, on two paths that lose and reorder nothing. -/
theorem frer_loses_after_wrap :
    let events := inOrder ⟨.zero, .broadcast, 0x0800, [1]⟩ 65537
    Machine.Along step Carries (start .new .new) events ∧
      (∀ n < 65537, ((start .new .new).run events).Arrived n) ∧
      ((start .new .new).run events).sent.length = 65537 ∧
      ¬ ((start .new .new).run events).ForwardedOnce 65536 :=
  inOrder_loses _ (by decide) (by decide)

end Net

end ToyTcpip.Frer

import Mathlib.Combinatorics.SimpleGraph.Metric
import ToyTcpip.Lib.DistanceVector
import ToyTcpip.Stp

/-! A network of spanning-tree bridges, under an assumption on what their hosts send: the root ports
never form a loop, and end up as a spanning tree. -/
namespace ToyTcpip.Stp

/-! ### BPDUs on the wire -/

theorem byteAt_drop (data : List UInt8) (i j : ℕ) :
    byteAt (data.drop i) j = byteAt data (i + j) := by
  simp [byteAt, List.getElem?_drop]

theorem wordAt_drop (data : List UInt8) (i j : ℕ) :
    wordAt (data.drop i) j = wordAt data (i + j) := by
  rw [wordAt, wordAt, byteAt_drop, byteAt_drop, add_assoc]

namespace BridgeId

def toBytes (b : BridgeId) : List UInt8 := toBeBytes16 b.priority ++ b.mac.octets

def fromBytes (data : List UInt8) (i : ℕ) : BridgeId := ⟨wordAt data i, macAt data (i + 2)⟩

theorem length_toBytes (b : BridgeId) : b.toBytes.length = 8 := by
  simp [toBytes, toBeBytes16, MacAddress.octets]

theorem fromBytes_drop (data : List UInt8) (i j : ℕ) :
    fromBytes (data.drop i) j = fromBytes data (i + j) := by
  simp only [fromBytes, wordAt_drop, macAt, byteAt_drop, add_assoc]

theorem fromBytes_toBytes {b : BridgeId} (h : b.priority < 2 ^ 16) (post : List UInt8) :
    fromBytes (b.toBytes ++ post) 0 = b := by
  have hword := wordAt_append [] (b.mac.octets ++ post) h
  have hmac := EthernetFrame.macAt_octets b.mac (toBeBytes16 b.priority) post
  rw [toBytes, List.append_assoc, fromBytes]
  exact congrArg₂ BridgeId.mk hword hmac

end BridgeId

inductive StpError where
  | packetTooShort (len : ℕ)
  | invalidProtocol (p : ℕ)
  deriving DecidableEq, Repr

namespace StpBpdu

/-- The record read from a buffer long enough to hold it. -/
def read (data : List UInt8) : StpBpdu :=
  { protocolId := wordAt data 0
    version := byteAt data 2
    bpduType := byteAt data 3
    flags := byteAt data 4
    rootId := .fromBytes data 5
    rootPathCost := .ofNat (longAt data 13)
    bridgeId := .fromBytes data 17
    portId := wordAt data 25
    messageAge := wordAt data 27
    maxAge := wordAt data 29
    helloTime := wordAt data 31
    forwardDelay := wordAt data 33 }

def parse (data : List UInt8) : Except StpError StpBpdu :=
  if data.length < 35 then .error (.packetTooShort data.length)
  else if wordAt data 0 ≠ 0 then .error (.invalidProtocol (wordAt data 0))
  else .ok (read data)

def serialize (b : StpBpdu) : List UInt8 :=
  toBeBytes16 b.protocolId ++ [b.version, b.bpduType, b.flags] ++ b.rootId.toBytes ++
    toBeBytes32 b.rootPathCost.toNat ++ b.bridgeId.toBytes ++ toBeBytes16 b.portId ++
      toBeBytes16 b.messageAge ++
    toBeBytes16 b.maxAge ++ toBeBytes16 b.helloTime ++ toBeBytes16 b.forwardDelay

/-- The two-byte fields fit two bytes. -/
structure Fits (b : StpBpdu) : Prop where
  protocolId : b.protocolId = 0
  rootId : b.rootId.priority < 2 ^ 16
  bridgeId : b.bridgeId.priority < 2 ^ 16
  portId : b.portId < 2 ^ 16
  messageAge : b.messageAge < 2 ^ 16
  maxAge : b.maxAge < 2 ^ 16
  helloTime : b.helloTime < 2 ^ 16
  forwardDelay : b.forwardDelay < 2 ^ 16

theorem length_serialize (b : StpBpdu) : b.serialize.length = 35 := by
  have hmac : ∀ mac : MacAddress, mac.octets.length = 6 := fun mac => by simp [MacAddress.octets]
  simp only [serialize, BridgeId.toBytes, List.length_append, hmac, toBeBytes16, toBeBytes32,
    List.length_cons, List.length_nil]

/-- The bytes after the bridge identifier. -/
def timers (b : StpBpdu) : List UInt8 :=
  toBeBytes16 b.portId ++ (toBeBytes16 b.messageAge ++
    (toBeBytes16 b.maxAge ++ (toBeBytes16 b.helloTime ++
    toBeBytes16 b.forwardDelay)))

theorem drop_serialize (b : StpBpdu) :
    b.serialize.drop 5 = b.rootId.toBytes ++ b.serialize.drop 13 ∧
      b.serialize.drop 13 = toBeBytes32 b.rootPathCost.toNat ++ b.serialize.drop 17 ∧
      b.serialize.drop 17 = b.bridgeId.toBytes ++ b.serialize.drop 25 ∧
      b.serialize.drop 25 = b.timers := by
  have h₅ : b.serialize.drop 5 = b.rootId.toBytes ++ (toBeBytes32 b.rootPathCost.toNat ++
      (b.bridgeId.toBytes ++ b.timers)) := by
    simp only [serialize, toBeBytes16, timers, List.append_assoc, List.cons_append, List.nil_append,
      List.drop_succ_cons, List.drop_zero]
  have h₁₃ : b.serialize.drop 13 = _ := (List.drop_drop).symm.trans
    ((congrArg (List.drop 8) h₅).trans (List.drop_left' (BridgeId.length_toBytes _)))
  have h₁₇ : b.serialize.drop 17 = _ := (List.drop_drop).symm.trans
    ((congrArg (List.drop 4) h₁₃).trans (List.drop_left' rfl))
  have h₂₅ : b.serialize.drop 25 = _ := (List.drop_drop).symm.trans
    ((congrArg (List.drop 8) h₁₇).trans (List.drop_left' (BridgeId.length_toBytes _)))
  exact ⟨by rw [h₁₃, h₅], by rw [h₁₇, h₁₃], by rw [h₂₅, h₁₇], h₂₅⟩

theorem read_serialize {b : StpBpdu} (h : b.Fits) : read b.serialize = b := by
  obtain ⟨hroot, hcost, hbridge, htimers⟩ := drop_serialize b
  have hword : ∀ {n : ℕ}, n < 2 ^ 16 → beWord (UInt8.ofNat (n / 256)) (UInt8.ofNat n) = n :=
    beWord_toBeBytes16
  have htimer : ∀ i, wordAt b.serialize (25 + i) = wordAt b.timers i := fun i => by
    rw [← htimers, wordAt_drop]
  have hrootId : BridgeId.fromBytes b.serialize 5 = b.rootId := by
    rw [← BridgeId.fromBytes_drop b.serialize 5 0, hroot, BridgeId.fromBytes_toBytes h.rootId]
  have hbridgeId : BridgeId.fromBytes b.serialize 17 = b.bridgeId := by
    rw [← BridgeId.fromBytes_drop b.serialize 17 0, hbridge, BridgeId.fromBytes_toBytes h.bridgeId]
  have hpathCost : longAt b.serialize 13 = b.rootPathCost.toNat :=
    longAt_of_drop hcost b.rootPathCost.toNat_lt
  rw [read, hrootId, hbridgeId, hpathCost, htimer 0, htimer 2, htimer 4, htimer 6, htimer 8,
    UInt32.ofNat_toNat]
  obtain ⟨protocolId, version, bpduType, flags, rootId, cost, bridgeId, portId, messageAge,
    maxAge, helloTime, forwardDelay⟩ := b
  rw [StpBpdu.mk.injEq]
  exact ⟨hword (h.protocolId.trans_lt (by decide)), rfl, rfl, rfl, rfl, rfl, rfl, hword h.portId,
    hword h.messageAge, hword h.maxAge, hword h.helloTime, hword h.forwardDelay⟩

/-- A BPDU parses to what it was made of. -/
theorem parse_serialize {b : StpBpdu} (h : b.Fits) : parse b.serialize = .ok b := by
  have hprotocol : wordAt b.serialize 0 = 0 :=
    (congrArg StpBpdu.protocolId (read_serialize h)).trans h.protocolId
  rw [parse, if_neg (by rw [length_serialize]; decide), if_neg (not_not.mpr hprotocol),
    read_serialize h]

end StpBpdu

/-! ### Bridges and links -/

/-- Who hears whom, and on which port: point-to-point links, at most one between two bridges, each
on a port of its own. -/
structure Topology (N : Type*) where
  graph : SimpleGraph N
  id : N → BridgeId
  port : N → N → UInt8
  small : ∀ v, (id v).priority < 2 ^ 16
  port_injective : ∀ v u u', graph.Adj u v → graph.Adj u' v → port v u = port v u' → u = u'

/-- All engines, and every frame that was ever sent. -/
structure Network (N : Type*) where
  engine : N → StpBridgeEngine
  sent : List (N × List UInt8)

inductive Exchange (N : Type*) where
  | send (u : N) (bpdu : StpBpdu)
  | deliver (u : N) (frame : List UInt8) (v : N)

/-- What is assumed of the host of an engine, which is the one to send: the BPDU is built of the
engine's own identifier, root and root path cost, and some port. -/
def StpBridgeEngine.Tells (e : StpBridgeEngine) (bpdu : StpBpdu) : Prop :=
  ∃ portId < 2 ^ 16, bpdu = .buildConfigBpdu e.bridgeId e.rootId e.rootPathCost portId

namespace Topology

variable {N : Type*} (topo : Topology N)

def start : Network N := ⟨fun v => .new (topo.id v).priority (topo.id v).mac, []⟩

def step [DecidableEq N] (net : Network N) : Exchange N → Network N
  | .send u bpdu => { net with sent := (u, bpdu.serialize) :: net.sent }
  | .deliver u frame v =>
    match StpBpdu.parse frame with
    | .error _ => net
    | .ok bpdu =>
      { net with
        engine := Function.update net.engine v ((net.engine v).processBpdu (topo.port v u) bpdu).1 }

/-- Hosts send what their engines believe, and a neighbour hears what was sent, late, repeatedly or
never. -/
def Possible (net : Network N) : Exchange N → Prop
  | .send u bpdu => (net.engine u).Tells bpdu
  | .deliver u frame v => (u, frame) ∈ net.sent ∧ topo.graph.Adj u v

/-- The root port of `v` leads to `u`. -/
def RootHop (net : Network N) (v u : N) : Prop :=
  topo.graph.Adj u v ∧ (net.engine v).rootPort = some (topo.port v u)

/-! ### What is known of the root -/

variable {topo} in
theorem fits_told {u : N} {r : BridgeId} {c : UInt32} {portId : ℕ} (hroot : r.priority < 2 ^ 16)
    (hport : portId < 2 ^ 16) : (StpBpdu.buildConfigBpdu (topo.id u) r c portId).Fits :=
  ⟨rfl, hroot, topo.small u, hport, by simp [StpBpdu.buildConfigBpdu], by
    simp [StpBpdu.buildConfigBpdu],
    by simp [StpBpdu.buildConfigBpdu], by simp [StpBpdu.buildConfigBpdu]⟩

section sound

variable [Fintype N]

/-- How many bridges have come to a root at least as good as `r`. -/
def settled (net : Network N) (r : BridgeId) : ℕ :=
  (Finset.univ.filter fun w => (net.engine w).rootId ≤ r).card

/-- The root `r`, known at `u` for a cost of `c`, is a bridge no farther than the cost says, and
more bridges have come to a root at least as good than the cost has hops. -/
def Backed (net : Network N) (u : N) (r : BridgeId) (c : UInt32) : Prop :=
  ∃ k, c.toNat = 19 * k ∧ k < settled net r ∧ ∃ w, topo.id w = r ∧ topo.graph.edist u w ≤ k

/-- Roots are bridges, root ports lead to bridges closer to as good a root, and what was sent was so
or still is. -/
structure Sound (net : Network N) : Prop where
  ident : ∀ v, (net.engine v).bridgeId = topo.id v
  backed : ∀ v, topo.Backed net v (net.engine v).rootId (net.engine v).rootPathCost
  atRoot : ∀ v, (net.engine v).rootPort = none →
    (net.engine v).rootId = topo.id v ∧ (net.engine v).rootPathCost = 0
  below : ∀ v, (net.engine v).rootPort ≠ none → (net.engine v).rootId < topo.id v
  parent : ∀ v p, (net.engine v).rootPort = some p → ∃ u, topo.graph.Adj u v ∧ topo.port v u = p ∧
    ((net.engine u).rootId < (net.engine v).rootId ∨ (net.engine u).rootId = (net.engine v).rootId ∧
      (net.engine v).rootPathCost.toNat = (net.engine u).rootPathCost.toNat + 19)
  told : ∀ m ∈ net.sent, ∃ r c portId, portId < 2 ^ 16 ∧
    m.2 = (StpBpdu.buildConfigBpdu (topo.id m.1) r c portId).serialize ∧ topo.Backed net m.1 r c ∧
    ((net.engine m.1).rootId < r ∨ (net.engine m.1).rootId = r ∧ (net.engine m.1).rootPathCost = c)

variable {topo} {net net' : Network N} {u v w : N} {r : BridgeId} {c : UInt32} {x : Exchange N}

theorem settled_mono (h : ∀ w, (net'.engine w).rootId ≤ (net.engine w).rootId) (r : BridgeId) :
    settled net r ≤ settled net' r := by
  refine Finset.card_le_card fun w hw => ?_
  rw [Finset.mem_filter] at hw ⊢
  exact ⟨hw.1, (h w).trans hw.2⟩

/-- A bridge that comes to a better root is one more. -/
theorem settled_lt (h : ∀ w, (net'.engine w).rootId ≤ (net.engine w).rootId)
    (hold : r < (net.engine v).rootId) (hnew : (net'.engine v).rootId ≤ r) :
    settled net r < settled net' r := by
  refine Finset.card_lt_card (Finset.ssubset_iff_of_subset ?_ |>.mpr ⟨v, ?_, ?_⟩)
  · intro w hw
    rw [Finset.mem_filter] at hw ⊢
    exact ⟨hw.1, (h w).trans hw.2⟩
  · simpa using hnew
  · simpa using hold

theorem Backed.mono (hback : topo.Backed net u r c)
    (h : ∀ w, (net'.engine w).rootId ≤ (net.engine w).rootId) : topo.Backed net' u r c := by
  obtain ⟨k, hc, hk, hw⟩ := hback
  exact ⟨k, hc, hk.trans_le (settled_mono h r), hw⟩

theorem Backed.priority_lt (hback : topo.Backed net u r c) : r.priority < 2 ^ 16 := by
  obtain ⟨k, -, -, w, rfl, -⟩ := hback
  exact topo.small w

theorem sound_start : topo.Sound topo.start := by
  have hself : ∀ v : N, topo.Backed topo.start v (topo.id v) 0 := fun v =>
    ⟨0, rfl, Finset.card_pos.mpr ⟨v, Finset.mem_filter.mpr
      ⟨Finset.mem_univ v, le_refl (topo.id v)⟩⟩, v, rfl, by simp⟩
  refine ⟨fun v => rfl, hself, fun v _ => ⟨rfl, rfl⟩, fun v h => absurd rfl h, fun v p h => ?_,
    fun m hm => ?_⟩
  · cases h
  · cases hm

theorem Sound.congr (h : topo.Sound net) (hsent : net'.sent = net.sent)
    (hsame : ∀ w, (net'.engine w).bridgeId = (net.engine w).bridgeId ∧
      (net'.engine w).rootId = (net.engine w).rootId ∧
      (net'.engine w).rootPathCost = (net.engine w).rootPathCost ∧
      (net'.engine w).rootPort = (net.engine w).rootPort) :
    topo.Sound net' := by
  have hback : ∀ {u r c}, topo.Backed net u r c → topo.Backed net' u r c :=
    fun hb => hb.mono fun w => (hsame w).2.1.le
  refine ⟨fun v => ?_, fun v => ?_, fun v => ?_, fun v => ?_, fun v p hp => ?_, fun m hm => ?_⟩
  · rw [(hsame v).1, h.ident]
  · rw [(hsame v).2.1, (hsame v).2.2.1]
    exact hback (h.backed v)
  · rw [(hsame v).2.1, (hsame v).2.2.1, (hsame v).2.2.2]
    exact h.atRoot v
  · rw [(hsame v).2.1, (hsame v).2.2.2]
    exact h.below v
  · rw [(hsame v).2.2.2] at hp
    obtain ⟨u, hadj, hport, hroot⟩ := h.parent v p hp
    refine ⟨u, hadj, hport, ?_⟩
    rwa [(hsame u).2.1, (hsame v).2.1, (hsame u).2.2.1, (hsame v).2.2.1]
  · rw [hsent] at hm
    obtain ⟨r, c, portId, hport, hframe, hb, hu⟩ := h.told m hm
    refine ⟨r, c, portId, hport, hframe, hback hb, ?_⟩
    rwa [(hsame m.1).2.1, (hsame m.1).2.2.1]

variable [DecidableEq N] {portId : ℕ} {frame : List UInt8}

/-- A frame makes its receiver adopt the root it names, or at most a port state. -/
theorem deliver_cases (h : topo.Sound net) (hx : topo.Possible net (.deliver u frame v)) : ∃ r c,
    topo.graph.Adj u v ∧ topo.Backed net u r c ∧
      ((net.engine u).rootId < r ∨ (net.engine u).rootId = r ∧ (net.engine u).rootPathCost = c) ∧
      ∃ states,
        (r < (net.engine v).rootId ∧ topo.step net (.deliver u frame v) = { net with
            engine := Function.update net.engine v { net.engine v with
              rootId := r, rootPathCost := c + 19, rootPort := some (topo.port v u),
              portStates := states } }) ∨
          ((net.engine v).rootId ≤ r ∧ topo.step net (.deliver u frame v) = { net with
            engine := Function.update net.engine v
              { net.engine v with portStates := states } }) := by
  obtain ⟨hmem, hadj⟩ := hx
  obtain ⟨r, c, portId, hport, hframe, hback, hu⟩ := h.told _ hmem
  dsimp only at hframe
  subst hframe
  refine ⟨r, c, hadj, hback, hu, ?_⟩
  rw [step, StpBpdu.parse_serialize (fits_told hback.priority_lt hport)]
  dsimp only
  rw [StpBridgeEngine.processBpdu]
  split_ifs with hless hsame
  · exact ⟨_, .inl ⟨hless, rfl⟩⟩
  · exact ⟨_, .inr ⟨hsame.1.ge, rfl⟩⟩
  · exact ⟨(net.engine v).portStates, .inr ⟨not_lt.mp hless, rfl⟩⟩

theorem Sound.adopt (h : topo.Sound net) (hN : 19 * Fintype.card N < 2 ^ 32)
    (hadj : topo.graph.Adj u v) (hback : topo.Backed net u r c)
    (hu : (net.engine u).rootId < r ∨ (net.engine u).rootId = r ∧ (net.engine u).rootPathCost = c)
    (hless : r < (net.engine v).rootId) (hsent : net'.sent = net.sent)
    (hother : ∀ w ≠ v, net'.engine w = net.engine w)
    (hid : (net'.engine v).bridgeId = (net.engine v).bridgeId) (hroot : (net'.engine v).rootId = r)
    (hcost : (net'.engine v).rootPathCost = c + 19)
    (hport : (net'.engine v).rootPort = some (topo.port v u)) : topo.Sound net' := by
  have hle : ∀ w, (net'.engine w).rootId ≤ (net.engine w).rootId := fun w => by
    by_cases hw : w = v
    · subst hw
      rw [hroot]
      exact hless.le
    · rw [hother w hw]
  obtain ⟨k, hk, hmany, x, hx, hdist⟩ := hback
  have hfew : settled net r ≤ Fintype.card N := Finset.card_le_univ _
  have hsum : (c + 19).toNat = c.toNat + 19 := by
    rw [UInt32.toNat_add, show (19 : UInt32).toNat = 19 from rfl]
    exact Nat.mod_eq_of_lt (by omega)
  have hne : u ≠ v := hadj.ne
  refine ⟨fun w => ?_, fun w => ?_, fun w hnone => ?_, fun w hsome => ?_, fun w p hp => ?_,
    fun m hm => ?_⟩
  · by_cases hw : w = v
    · rw [hw, hid, h.ident]
    · rw [hother w hw, h.ident]
  · by_cases hw : w = v
    · subst hw
      rw [hroot, hcost]
      refine ⟨k + 1, by rw [hsum, hk]; ring, (Nat.succ_le_of_lt hmany).trans_lt
        (settled_lt hle hless hroot.le), x, hx, ?_⟩
      have hstep : topo.graph.edist w u = 1 := SimpleGraph.edist_eq_one_iff_adj.mpr hadj.symm
      calc topo.graph.edist w x ≤ topo.graph.edist w u + topo.graph.edist u x :=
        SimpleGraph.edist_triangle
        _ ≤ 1 + (k : ℕ∞) := by
            rw [hstep]
            gcongr
        _ = ((k + 1 : ℕ) : ℕ∞) := by
            push_cast
            ring
    · rw [hother w hw]
      exact (h.backed w).mono hle
  · by_cases hw : w = v
    · subst hw
      rw [hport] at hnone
      cases hnone
    · rw [hother w hw] at hnone ⊢
      exact h.atRoot w hnone
  · by_cases hw : w = v
    · subst hw
      rw [hroot]
      refine hless.trans_le ?_
      by_cases hold : (net.engine w).rootPort = none
      · exact (h.atRoot w hold).1.le
      · exact (h.below w hold).le
    · rw [hother w hw] at hsome ⊢
      exact h.below w hsome
  · by_cases hw : w = v
    · subst hw
      rw [hport] at hp
      obtain rfl := Option.some.inj hp
      refine ⟨u, hadj, rfl, ?_⟩
      rw [hother u hne, hroot, hcost, hsum]
      rcases hu with hu | ⟨hu, rfl⟩
      · exact .inl hu
      · exact .inr ⟨hu, rfl⟩
    · rw [hother w hw] at hp ⊢
      obtain ⟨y, hy, hport', hparent⟩ := h.parent w p hp
      refine ⟨y, hy, hport', ?_⟩
      by_cases hyv : y = v
      · -- the neighbour has come to a better root
        subst hyv
        left
        rw [hroot]
        rcases hparent with hlt | ⟨heq, -⟩
        · exact hless.trans hlt
        · exact heq ▸ hless
      · rwa [hother y hyv]
  · rw [hsent] at hm
    obtain ⟨r', c', portId', hport', hframe, hb, hu'⟩ := h.told m hm
    refine ⟨r', c', portId', hport', hframe, hb.mono hle, ?_⟩
    by_cases hmv : m.1 = v
    · left
      rw [hmv, hroot]
      rw [hmv] at hu'
      rcases hu' with hlt | ⟨heq, -⟩
      · exact hless.trans hlt
      · exact heq ▸ hless
    · rwa [hother _ hmv]

theorem Sound.step (h : topo.Sound net) (hN : 19 * Fintype.card N < 2 ^ 32)
    (hx : topo.Possible net x) : topo.Sound (topo.step net x) := by
  cases x with
  | send u bpdu =>
    obtain ⟨portId, hport, rfl⟩ := hx
    refine ⟨h.ident, h.backed, h.atRoot, h.below, h.parent, List.forall_mem_cons.mpr ⟨?_, h.told⟩⟩
    refine ⟨_, _, portId, hport, ?_, h.backed u, .inr ⟨rfl, rfl⟩⟩
    rw [← h.ident]
  | deliver u frame v =>
    obtain ⟨r, c, hadj, hback, hu, states, ⟨hless, hstep⟩ | ⟨-, hstep⟩⟩ := deliver_cases h hx
    · have hother : ∀ w ≠ v, (topo.step net (.deliver u frame v)).engine w =
          net.engine w := fun w hw => by
        rw [hstep]
        exact Function.update_of_ne hw _ _
      have hself : (topo.step net (.deliver u frame v)).engine v = { net.engine v with
          rootId := r, rootPathCost := c + 19, rootPort := some (topo.port v u),
          portStates := states } := by
        rw [hstep]
        exact Function.update_self _ _ _
      exact h.adopt hN hadj hback hu hless (by rw [hstep]) hother (by rw [hself]) (by rw [hself])
        (by rw [hself]) (by rw [hself])
    · rw [hstep]
      refine h.congr rfl fun w => ?_
      by_cases hw : w = v
      · subst hw
        simp only [Function.update_self, and_self]
      · simp only [Function.update_of_ne hw, and_self]

theorem sound_run (hN : 19 * Fintype.card N < 2 ^ 32) {steps : List (Exchange N)}
    (h : Machine.Along topo.step topo.Possible topo.start steps) :
    topo.Sound (Machine.run topo.step topo.start steps) :=
  h.keeps (fun _ _ hs hx => hs.step hN hx) sound_start

/-! ### Following the root ports -/

/-- What the root ports lower: the root, then the cost. -/
def height (net : Network N) (v : N) : BridgeId ×ₗ ℕ :=
  toLex ((net.engine v).rootId, (net.engine v).rootPathCost.toNat)

omit [DecidableEq N] in
theorem Sound.parent_hop (h : topo.Sound net) (hop : topo.RootHop net v u) :
    (net.engine u).rootId < (net.engine v).rootId ∨ (net.engine u).rootId = (net.engine v).rootId ∧
      (net.engine v).rootPathCost.toNat = (net.engine u).rootPathCost.toNat + 19 := by
  obtain ⟨hadj, hport⟩ := hop
  obtain ⟨u', hadj', hsame, hparent⟩ := h.parent v _ hport
  rwa [topo.port_injective v u u' hadj hadj' hsame.symm]

omit [DecidableEq N] in
theorem Sound.hop_lt (h : topo.Sound net) (hop : topo.RootHop net v u) :
    height net u < height net v := by
  rw [height, height, Prod.Lex.toLex_lt_toLex]
  rcases h.parent_hop hop with hlt | ⟨heq, hcost⟩
  · exact .inl hlt
  · exact .inr ⟨heq, by omega⟩

omit [DecidableEq N] in
theorem Sound.exists_hop (h : topo.Sound net) (hv : (net.engine v).rootPort ≠ none) :
    ∃ u, topo.RootHop net v u := by
  obtain ⟨p, hp⟩ := Option.ne_none_iff_exists'.mp hv
  obtain ⟨u, hadj, rfl, -⟩ := h.parent v p hp
  exact ⟨u, hadj, hp⟩

omit [DecidableEq N] in
/-- The root ports lead from every bridge to one that takes itself for the root. -/
theorem Sound.reaches (h : topo.Sound net) (v : N) :
    ∃ w, Relation.ReflTransGen (topo.RootHop net) v w ∧
    (net.engine w).rootPort = none ∧ topo.id w ≤ (net.engine v).rootId := by
  have hwf : WellFounded fun u v : N => height net u < height net v :=
    @Finite.wellFounded_of_trans_of_irrefl N _ _ ⟨fun _ _ _ => lt_trans⟩ ⟨fun _ => lt_irrefl _⟩
  induction v using hwf.induction with
  | _ v ih =>
    by_cases hv : (net.engine v).rootPort = none
    · exact ⟨v, .refl, hv, (h.atRoot v hv).1.ge⟩
    · obtain ⟨u, hop⟩ := h.exists_hop hv
      obtain ⟨w, hpath, hw, hle⟩ := ih u (h.hop_lt hop)
      refine ⟨w, hpath.head hop, hw, hle.trans ?_⟩
      rcases h.parent_hop hop with hlt | ⟨heq, -⟩
      · exact hlt.le
      · exact heq.le

/-- However BPDUs are lost, repeated and reordered, root ports never form a loop; they lead to a
bridge that is its own root, and the root that a bridge names is a bridge no farther away than its
cost says. -/
theorem root_ports_safe (topo : Topology N) (hN : 19 * Fintype.card N < 2 ^ 32)
    {steps : List (Exchange N)} (h : Machine.Along topo.step topo.Possible topo.start steps)
    (v : N) :
    let net := Machine.run topo.step topo.start steps
    ¬ Relation.TransGen (topo.RootHop net) v v ∧
      (∃ w, Relation.ReflTransGen (topo.RootHop net) v w ∧ (net.engine w).rootPort = none ∧
        topo.id w ≤ (net.engine v).rootId) ∧
      ∃ k < Fintype.card N, (net.engine v).rootPathCost.toNat = 19 * k ∧
        ∃ w, topo.id w = (net.engine v).rootId ∧ topo.graph.edist v w ≤ k := by
  have hs := sound_run hN h
  obtain ⟨k, hcost, hk, hw⟩ := hs.backed v
  exact ⟨DistanceVector.no_cycle fun _ _ hop => hs.hop_lt hop, hs.reaches v, k,
    hk.trans_le (Finset.card_le_univ _), hcost, hw⟩

/-! ### Rounds -/

/-- During the round the host of every bridge sends a BPDU, and each neighbour then hears it. -/
def Round (topo : Topology N) (steps : List (Exchange N)) : Prop :=
  ∀ u v, topo.graph.Adj u v → ∃ before between after bpdu,
    steps = before ++ .send u bpdu :: between ++ .deliver u bpdu.serialize v :: after

theorem rootId_step_le (h : topo.Sound net) (hx : topo.Possible net x) (v : N) :
    ((topo.step net x).engine v).rootId ≤ (net.engine v).rootId := by
  cases x with
  | send u bpdu => exact le_rfl
  | deliver u frame w =>
    obtain ⟨r, c, -, -, -, states, ⟨hless, hstep⟩ | ⟨-, hstep⟩⟩ := deliver_cases h hx
    all_goals
      rw [hstep]
      by_cases hv : v = w
      · subst hv
        simp only [Function.update_self]
        first | exact hless.le | exact le_rfl
      · simp only [Function.update_of_ne hv, le_refl]

theorem rootId_run_le (hN : 19 * Fintype.card N < 2 ^ 32) (h : topo.Sound net)
    {steps : List (Exchange N)} (hrun : Machine.Along topo.step topo.Possible net steps) (v : N) :
    topo.Sound (Machine.run topo.step net steps) ∧
      ((Machine.run topo.step net steps).engine v).rootId ≤ (net.engine v).rootId :=
  hrun.keeps (I := fun net' => topo.Sound net' ∧ (net'.engine v).rootId ≤ (net.engine v).rootId)
    (fun _ _ hs hx => ⟨hs.1.step hN hx, (rootId_step_le hs.1 hx v).trans hs.2⟩) ⟨h, le_rfl⟩

omit [Fintype N] [DecidableEq N] in
theorem rootId_processBpdu_le (e : StpBridgeEngine) (port : UInt8) (bpdu : StpBpdu) :
    (e.processBpdu port bpdu).1.rootId ≤ bpdu.rootId := by
  rw [StpBridgeEngine.processBpdu]
  split_ifs with hless hsame
  · exact le_rfl
  · exact hsame.1.ge
  · exact not_lt.mp hless

omit [Fintype N] in
theorem rootId_deliver_le {bpdu : StpBpdu} (hfits : bpdu.Fits) :
    ((topo.step net (.deliver u bpdu.serialize v)).engine v).rootId ≤ bpdu.rootId := by
  rw [step, StpBpdu.parse_serialize hfits]
  dsimp only
  rw [Function.update_self]
  exact rootId_processBpdu_le _ _ _

/-- A bridge takes a root that is at least as good as the one its neighbour had when the round
began. -/
theorem rootId_round_le (hN : 19 * Fintype.card N < 2 ^ 32) (h : topo.Sound net)
    {steps : List (Exchange N)} (hrun : Machine.Along topo.step topo.Possible net steps)
    (hround : topo.Round steps) (hadj : topo.graph.Adj u v) :
    ((Machine.run topo.step net steps).engine v).rootId ≤ (net.engine u).rootId := by
  obtain ⟨before, between, after, bpdu, rfl⟩ := hround u v hadj
  simp only [List.append_assoc, List.cons_append, Machine.along_append, Machine.Along] at hrun
  obtain ⟨hbefore, htells, hbetween, hdeliver, hafter⟩ := hrun
  obtain ⟨hmid, hle⟩ := rootId_run_le hN h hbefore u
  obtain ⟨hheard, -⟩ := rootId_run_le hN (hmid.step hN htells) hbetween v
  obtain ⟨portId, hport, rfl⟩ := htells
  have hfits : (StpBpdu.buildConfigBpdu ((Machine.run topo.step net before).engine u).bridgeId
      ((Machine.run topo.step net before).engine u).rootId
      ((Machine.run topo.step net before).engine u).rootPathCost portId).Fits := by
    rw [hmid.ident u]
    exact fits_told (hmid.backed u).priority_lt hport
  simp only [List.append_assoc, List.cons_append, Machine.run_append, Machine.run_cons]
  exact (rootId_run_le hN (hheard.step hN hdeliver) hafter v).2.trans
    ((rootId_deliver_le hfits).trans hle)

theorem rootId_rounds_le (hN : 19 * Fintype.card N < 2 ^ 32) (h : topo.Sound net)
    {rounds : List (List (Exchange N))}
    (hrun : Machine.Along topo.step topo.Possible net rounds.flatten)
    (hrounds : ∀ steps ∈ rounds, topo.Round steps) (p : topo.graph.Walk u v)
    (hp : p.length ≤ rounds.length) :
    ((Machine.run topo.step net rounds.flatten).engine v).rootId ≤ (net.engine u).rootId := by
  induction rounds generalizing net u with
  | nil =>
    obtain rfl := SimpleGraph.Walk.eq_of_length_eq_zero (Nat.le_zero.mp hp)
    exact le_rfl
  | cons steps rest ih =>
    rw [List.flatten_cons, Machine.along_append] at hrun
    rw [List.flatten_cons, Machine.run_append]
    obtain ⟨hround, hrest⟩ := List.forall_mem_cons.mp hrounds
    obtain ⟨hsteps, hafter⟩ := hrun
    have hnext := (rootId_run_le hN h hsteps u).1
    cases p with
    | nil => exact (rootId_run_le hN hnext hafter v).2.trans (rootId_run_le hN h hsteps v).2
    | cons hadj p =>
      rw [SimpleGraph.Walk.length_cons, List.length_cons] at hp
      exact (ih hnext hafter hrest p (by omega)).trans (rootId_round_le hN h hsteps hround hadj)

omit [DecidableEq N] in
/-- Where all bridges name the same root, the root ports make up paths to it, as long as the costs
say. -/
theorem Sound.exists_walk (h : topo.Sound net) (hid : Function.Injective topo.id)
    (hroot : ∀ v, (net.engine v).rootId = topo.id w) (v : N) : ∃ p : topo.graph.Walk v w,
      (∀ d ∈ p.darts, topo.RootHop net d.fst d.snd) ∧
      (net.engine v).rootPathCost.toNat = 19 * p.length := by
  induction hc : (net.engine v).rootPathCost.toNat using Nat.strong_induction_on generalizing v with
  | _ c ih =>
    by_cases hv : (net.engine v).rootPort = none
    · obtain ⟨hself, hzero⟩ := h.atRoot v hv
      obtain rfl := hid (hself.symm.trans (hroot v))
      rw [hzero] at hc
      exact ⟨.nil, by simp, hc.symm⟩
    · obtain ⟨u, hop⟩ := h.exists_hop hv
      have hcost := (h.parent_hop hop).resolve_left (by rw [hroot, hroot]; exact lt_irrefl _)
      obtain ⟨p, hp, hlen⟩ := ih _ (by omega) u rfl
      refine ⟨.cons hop.1.symm p, ?_, ?_⟩
      · rw [SimpleGraph.Walk.darts_cons, List.forall_mem_cons]
        exact ⟨hop, hp⟩
      · rw [SimpleGraph.Walk.length_cons, ← hc, hcost.2, hlen]
        ring

/-- After as many rounds as the best bridge has hops to the farthest, all bridges name it, and their
root ports form a spanning tree of paths to it, as long as their costs say. -/
theorem spanning_tree (topo : Topology N) (hN : 19 * Fintype.card N < 2 ^ 32)
    (hid : Function.Injective topo.id) (best : N) (hbest : ∀ v, topo.id best ≤ topo.id v)
    {rounds : List (List (Exchange N))}
    (h : Machine.Along topo.step topo.Possible topo.start rounds.flatten)
    (hrounds : ∀ steps ∈ rounds, topo.Round steps)
    (hfar : ∀ v, topo.graph.edist best v ≤ rounds.length) (v : N) :
    let net := Machine.run topo.step topo.start rounds.flatten
    (net.engine v).rootId = topo.id best ∧ ((net.engine v).rootPort = none ↔ v = best) ∧
      ∃ p : topo.graph.Walk v best, (∀ d ∈ p.darts, topo.RootHop net d.fst d.snd) ∧
        (net.engine v).rootPathCost.toNat = 19 * p.length := by
  have hs := sound_run hN h
  have hroot : ∀ v, ((Machine.run topo.step topo.start rounds.flatten).engine v).rootId =
      topo.id best := fun v => by
    obtain ⟨p, hp⟩ := SimpleGraph.exists_walk_of_edist_ne_top
      (ne_top_of_le_ne_top (ENat.natCast_ne_top _) (hfar v))
    have hlen : p.length ≤ rounds.length := by
      have hle := hfar v
      rw [← hp] at hle
      exact_mod_cast hle
    obtain ⟨k, -, -, w, hw, -⟩ := hs.backed v
    exact le_antisymm (rootId_rounds_le hN sound_start h hrounds p hlen) (hw ▸ hbest w)
  refine ⟨hroot v, ⟨fun hnone => ?_, fun hv => ?_⟩, hs.exists_walk hid hroot v⟩
  · exact hid ((hs.atRoot v hnone).1.symm.trans (hroot v))
  · by_contra hsome
    have hlt := hs.below v hsome
    rw [hroot, hv] at hlt
    exact lt_irrefl _ hlt

end sound

/-! ### Two bridges -/

/-- Two bridges on one link. -/
def pair : Topology Bool where
  graph := ⊤
  id v := ⟨if v then 1 else 0, ⟨#v[0, 0, 0, 0, 0, 0]⟩⟩
  port _ _ := 1
  small v := by cases v <;> decide
  port_injective v u u' hu hu' _ := by
    rw [SimpleGraph.top_adj] at hu hu'
    cases v <;> simp_all

/-- What the host of a bridge tells the other. -/
def pairTold (v : Bool) : StpBpdu :=
  .buildConfigBpdu (pair.id v) (pair.id false) (if v then 19 else 0) 1

/-- Each bridge is heard by the other. -/
def pairRound : List (Exchange Bool) :=
  [.send false (pairTold false), .deliver false (pairTold false).serialize true,
    .send true (pairTold true), .deliver true (pairTold true).serialize false]

theorem pairRound_possible : Machine.Along pair.step pair.Possible pair.start pairRound := by
  have hheard : ∀ {u v : Bool} {net : Network Bool} {frame : List UInt8}, (u, frame) ∈ net.sent →
      u ≠ v → pair.Possible net (.deliver u frame v) := fun hmem hne => ⟨hmem, hne⟩
  exact ⟨⟨1, by decide, rfl⟩, hheard List.mem_cons_self (by decide), ⟨1, by decide, rfl⟩,
    hheard List.mem_cons_self (by decide), trivial⟩

theorem pairRound_round : pair.Round pairRound := by
  intro u v hadj
  cases u with
  | false =>
    obtain rfl : v = true := by
      cases v with
      | false => exact absurd rfl hadj.ne
      | true => rfl
    exact ⟨[], [], pairRound.drop 2, pairTold false, rfl⟩
  | true =>
    obtain rfl : v = false := by
      cases v with
      | false => rfl
      | true => exact absurd rfl hadj.ne
    exact ⟨pairRound.take 2, [], [], pairTold true, rfl⟩

theorem root_ports_safe_pair :
    ∃ k < 2, ((Machine.run pair.step pair.start pairRound).engine true).rootPathCost.toNat =
      19 * k := by
  obtain ⟨-, -, k, hk, hcost, -⟩ := root_ports_safe pair (by decide) pairRound_possible true
  exact ⟨k, hk, hcost⟩

theorem spanning_tree_pair :
    ((Machine.run pair.step pair.start [pairRound].flatten).engine true).rootId =
      pair.id false := by
  have hnear : ∀ v, pair.graph.edist false v ≤ ([pairRound].length : ℕ∞) := by
    intro v
    cases v with
    | false => exact SimpleGraph.edist_self.trans_le zero_le
    | true => exact (SimpleGraph.edist_eq_one_iff_adj.mpr Bool.false_ne_true).le
  have hrounds : ∀ steps ∈ [pairRound], pair.Round steps :=
    List.forall_mem_singleton.mpr pairRound_round
  have hrun : Machine.Along pair.step pair.Possible pair.start [pairRound].flatten :=
    pairRound_possible
  exact (spanning_tree pair (by decide) (by decide) false (by decide) hrun hrounds hnear true).1

end Topology

end ToyTcpip.Stp

import Mathlib.Data.List.Lex
import Mathlib.Data.Prod.Lex
import ToyTcpip.Ethernet
import ToyTcpip.Lib.Hashed
import ToyTcpip.Lib.Machine

/-! The spanning-tree bridge of `stp.rs`. -/
namespace ToyTcpip.Stp

open Hashed

structure BridgeId where
  priority : ℕ
  mac : MacAddress
  deriving DecidableEq

namespace BridgeId

/-- The priority decides, then the bytes of the address in turn. -/
def key (b : BridgeId) : ℕ ×ₗ List ℕ := toLex (b.priority, b.mac.octets.map UInt8.toNat)

theorem key_injective : Function.Injective key := by
  rintro ⟨priority, ⟨mac⟩⟩ ⟨priority', ⟨mac'⟩⟩ h
  obtain ⟨rfl, hmac⟩ := Prod.mk.inj (toLex_inj.mp h)
  have hinj : Function.Injective UInt8.toNat := fun a b => UInt8.toNat_inj.mp
  have hbytes := (List.map_injective_iff.mpr hinj) hmac
  rw [show mac = mac' from Vector.toList_inj.mp hbytes]

instance : LinearOrder BridgeId := LinearOrder.lift' key key_injective

end BridgeId

inductive StpPortRole where
  | rootPort
  | designatedPort
  | blockedPort
  deriving DecidableEq, Repr

inductive StpPortState where
  | blocking
  | listening
  | learning
  | forwarding
  deriving DecidableEq, Repr

structure StpBpdu where
  protocolId : ℕ
  version : UInt8
  bpduType : UInt8
  flags : UInt8
  rootId : BridgeId
  rootPathCost : UInt32
  bridgeId : BridgeId
  portId : ℕ
  messageAge : ℕ
  maxAge : ℕ
  helloTime : ℕ
  forwardDelay : ℕ
  deriving DecidableEq

def StpBpdu.buildConfigBpdu (bridgeId rootId : BridgeId) (cost : UInt32) (portId : ℕ) : StpBpdu :=
  ⟨0, 0, 0, 0, rootId, cost, bridgeId, portId, 0, 20 * 256, 2 * 256, 15 * 256⟩

structure StpBridgeEngine where
  bridgeId : BridgeId
  rootId : BridgeId
  rootPathCost : UInt32
  rootPort : Option UInt8
  portStates : HashMap UInt8 (StpPortRole × StpPortState)

namespace StpBridgeEngine

def new (priority : ℕ) (mac : MacAddress) : StpBridgeEngine :=
  let bridgeId : BridgeId := ⟨priority, mac⟩
  { bridgeId
    rootId := bridgeId
    rootPathCost := 0
    rootPort := none
    portStates := AList.insert 2 (.designatedPort, .forwarding)
      (AList.insert 1 (.designatedPort, .forwarding) ∅) }

/-- The bridge, and whether it has changed. -/
def processBpdu (e : StpBridgeEngine) (port : UInt8) (bpdu : StpBpdu) : StpBridgeEngine × Bool :=
  if bpdu.rootId < e.rootId then
    ({ e with
        rootId := bpdu.rootId
        rootPathCost := bpdu.rootPathCost + 19
        rootPort := some port
        portStates := e.portStates.insert port (.rootPort, .forwarding) }, true)
  else if bpdu.rootId = e.rootId ∧ bpdu.bridgeId < e.bridgeId ∧ e.rootPort ≠ some port then
    ({ e with portStates := e.portStates.insert port (.blockedPort, .blocking) }, true)
  else (e, false)

end StpBridgeEngine

/-! ### A bridge and what it has heard -/

structure Bridge where
  engine : StpBridgeEngine
  heard : List (UInt8 × StpBpdu)

namespace Bridge

def start (priority : ℕ) (mac : MacAddress) : Bridge := ⟨.new priority mac, []⟩

def step (b : Bridge) (x : UInt8 × StpBpdu) : Bridge :=
  ⟨(b.engine.processBpdu x.1 x.2).1, x :: b.heard⟩

/-- The root is the least bridge of all that were ever named. -/
def LeastRoot (b : Bridge) : Prop :=
  IsLeast {i | i = b.engine.bridgeId ∨ ∃ x ∈ b.heard, x.2.rootId = i} b.engine.rootId

/-- The root port is the only one of its role, and forwards. -/
def OneRootPort (b : Bridge) : Prop :=
  b.engine.rootId ≠ b.engine.bridgeId → ∃ p, b.engine.rootPort = some p ∧
    b.engine.portStates.lookup p = some (.rootPort, .forwarding) ∧
    ∀ q st, b.engine.portStates.lookup q = some (.rootPort, st) → q = p

def LeastCost (b : Bridge) : Prop :=
  b.engine.rootId ≠ b.engine.bridgeId →
    IsLeast {c | ∃ x ∈ b.heard, x.2.rootId = b.engine.rootId ∧ c = x.2.rootPathCost.toNat + 19}
      b.engine.rootPathCost.toNat

/-- A port with a better bridge on it does not forward, unless it is the root port. -/
def NoLoop (b : Bridge) : Prop :=
  ∀ x ∈ b.heard, x.2.rootId = b.engine.rootId → x.2.bridgeId < b.engine.bridgeId →
    b.engine.rootPort ≠ some x.1 → ∀ role st, b.engine.portStates.lookup x.1 = some (role, st) →
      st ≠ .forwarding

structure Consistent (b : Bridge) : Prop where
  leastRoot : b.LeastRoot
  oneRootPort : b.OneRootPort
  leastCost : b.LeastCost
  noLoop : b.NoLoop

/-- A new root is heard on the root port, if there is one, at a cost that does not overflow; the
root that is known is heard at no smaller cost than the one adopted. -/
def Tame (b : Bridge) (x : UInt8 × StpBpdu) : Prop :=
  (x.2.rootId < b.engine.rootId →
    (b.engine.rootPort = none ∨ b.engine.rootPort = some x.1) ∧
      x.2.rootPathCost.toNat + 19 < 2 ^ 32) ∧
    (x.2.rootId = b.engine.rootId → b.engine.rootId ≠ b.engine.bridgeId →
      b.engine.rootPathCost.toNat ≤ x.2.rootPathCost.toNat + 19)

instance (b : Bridge) (x : UInt8 × StpBpdu) : Decidable (b.Tame x) :=
  inferInstanceAs (Decidable (_ ∧ _))

variable {b : Bridge} {x : UInt8 × StpBpdu}

/-- The three things that a BPDU can do. -/
theorem step_cases (b : Bridge) (x : UInt8 × StpBpdu) :
    (x.2.rootId < b.engine.rootId ∧ b.step x =
      ⟨{ b.engine with
          rootId := x.2.rootId
          rootPathCost := x.2.rootPathCost + 19
          rootPort := some x.1
          portStates := b.engine.portStates.insert x.1 (.rootPort, .forwarding) },
        x :: b.heard⟩) ∨
    (x.2.rootId = b.engine.rootId ∧ b.engine.rootPort ≠ some x.1 ∧ b.step x =
      ⟨{ b.engine with
          portStates := b.engine.portStates.insert x.1 (.blockedPort, .blocking) },
        x :: b.heard⟩) ∨
    (b.engine.rootId ≤ x.2.rootId ∧
      (x.2.rootId = b.engine.rootId → x.2.bridgeId < b.engine.bridgeId →
        b.engine.rootPort = some x.1) ∧ b.step x = ⟨b.engine, x :: b.heard⟩) := by
  simp only [step, StpBridgeEngine.processBpdu]
  split_ifs with hless hsame
  · exact .inl ⟨hless, rfl⟩
  · exact .inr (.inl ⟨hsame.1, hsame.2.2, rfl⟩)
  · refine .inr (.inr ⟨not_lt.mp hless, ?_, rfl⟩)
    intro hroot hbridge
    by_contra hport
    exact hsame ⟨hroot, hbridge, hport⟩

/-! ### What every BPDU keeps -/

theorem leastRoot_start (priority : ℕ) (mac : MacAddress) : (start priority mac).LeastRoot := by
  refine ⟨.inl rfl, ?_⟩
  rintro i (rfl | ⟨x, hx, -⟩)
  · exact le_rfl
  · cases hx

theorem leastRoot_step (h : b.LeastRoot) : (b.step x).LeastRoot := by
  obtain ⟨hmem, hlow⟩ := h
  have hlower : ∀ r, r ≤ b.engine.rootId → r ≤ x.2.rootId →
      r ∈ lowerBounds {i | i = b.engine.bridgeId ∨ ∃ y ∈ x :: b.heard, y.2.rootId = i} := by
    rintro r hr hx i (rfl | ⟨y, hy, rfl⟩)
    · exact hr.trans (hlow (.inl rfl))
    · rcases List.mem_cons.mp hy with rfl | hy
      · exact hx
      · exact hr.trans (hlow (.inr ⟨y, hy, rfl⟩))
  have hkept : b.engine.rootId = b.engine.bridgeId ∨
      ∃ y ∈ x :: b.heard, y.2.rootId = b.engine.rootId :=
    hmem.imp_right fun ⟨y, hy, hroot⟩ => ⟨y, List.mem_cons_of_mem x hy, hroot⟩
  obtain ⟨hless, hstep⟩ | ⟨hroot, -, hstep⟩ | ⟨hle, -, hstep⟩ := step_cases b x
  · rw [hstep]
    exact ⟨.inr ⟨x, List.mem_cons_self, rfl⟩, hlower _ hless.le le_rfl⟩
  · rw [hstep]
    exact ⟨hkept, hlower _ le_rfl hroot.ge⟩
  · rw [hstep]
    exact ⟨hkept, hlower _ le_rfl hle⟩

/-- Before a new root is heard of, nothing heard names it. -/
theorem LeastRoot.fresh (h : b.LeastRoot) (hless : x.2.rootId < b.engine.rootId) {y}
    (hy : y ∈ x :: b.heard) (hroot : y.2.rootId = x.2.rootId) : y = x := by
  rcases List.mem_cons.mp hy with rfl | hy
  · rfl
  · have := h.2 (.inr ⟨y, hy, rfl⟩)
    rw [hroot] at this
    exact absurd hless (not_lt.mpr this)

theorem noLoop_step (hleast : b.LeastRoot) (h : b.NoLoop) : (b.step x).NoLoop := by
  obtain ⟨hless, hstep⟩ | ⟨hroot, hport, hstep⟩ | ⟨hle, hignored, hstep⟩ := step_cases b x
  · rw [hstep]
    intro y hy hyroot _ hyport
    obtain rfl := hleast.fresh hless hy hyroot
    exact absurd rfl hyport
  · rw [hstep]
    intro y hy hyroot hbridge hyport role st hlookup
    rw [lookup_insert_of] at hlookup
    split_ifs at hlookup with hyx
    · cases hlookup
      decide
    · rcases List.mem_cons.mp hy with rfl | hy
      · exact absurd rfl hyx
      · exact h y hy hyroot hbridge hyport role st hlookup
  · rw [hstep]
    intro y hy hyroot hbridge hyport
    rcases List.mem_cons.mp hy with rfl | hy
    · exact absurd (hignored hyroot hbridge) hyport
    · exact h y hy hyroot hbridge hyport

/-- A bridge that knows no better root has no root port. -/
structure Rooted (b : Bridge) : Prop where
  port_iff : b.engine.rootPort = none ↔ b.engine.rootId = b.engine.bridgeId
  noRole : b.engine.rootId = b.engine.bridgeId →
    ∀ q st, b.engine.portStates.lookup q ≠ some (.rootPort, st)

theorem rooted_start (priority : ℕ) (mac : MacAddress) : (start priority mac).Rooted := by
  refine ⟨by simp [start, StpBridgeEngine.new], ?_⟩
  intro _ q st
  simp only [start, StpBridgeEngine.new, lookup_insert_of, AList.lookup_empty]
  split_ifs <;> simp

theorem LeastRoot.foreign (h : b.LeastRoot) (hless : x.2.rootId < b.engine.rootId) :
    x.2.rootId ≠ b.engine.bridgeId :=
  (hless.trans_le (h.2 (.inl rfl))).ne

theorem rooted_step (hleast : b.LeastRoot) (h : b.Rooted) : (b.step x).Rooted := by
  obtain ⟨hless, hstep⟩ | ⟨hroot, hport, hstep⟩ | ⟨hle, -, hstep⟩ := step_cases b x
  · rw [hstep]
    have hforeign := hleast.foreign hless
    exact ⟨⟨nofun, fun heq => absurd heq hforeign⟩, fun heq => absurd heq hforeign⟩
  · rw [hstep]
    refine ⟨h.port_iff, fun heq q st => ?_⟩
    rw [lookup_insert_of]
    split_ifs
    · simp
    · exact h.noRole heq q st
  · rw [hstep]
    exact ⟨h.port_iff, h.noRole⟩

/-! ### What only some BPDUs keep -/

theorem oneRootPort_step_iff (hleast : b.LeastRoot) (hrooted : b.Rooted) (h : b.OneRootPort) :
    (b.step x).OneRootPort ↔
      (x.2.rootId < b.engine.rootId → b.engine.rootPort = none ∨ b.engine.rootPort = some x.1) := by
  obtain ⟨hless, hstep⟩ | ⟨hroot, hport, hstep⟩ | ⟨hle, -, hstep⟩ := step_cases b x
  · rw [hstep]
    constructor
    · intro hone _
      by_cases hnone : b.engine.rootPort = none
      · exact .inl hnone
      · obtain ⟨p, hp, hlookup, -⟩ := h (mt hrooted.port_iff.mpr hnone)
        obtain ⟨p', hp', -, honly⟩ := hone (hleast.foreign hless)
        obtain rfl := Option.some.inj hp'
        refine .inr (hp.trans ?_)
        by_contra hne
        -- the old root port keeps its role
        have hold := honly p .forwarding
          (by rw [lookup_insert_of, if_neg (fun heq => hne (congrArg some heq)), hlookup])
        exact hne (congrArg some hold)
    · intro hok _
      refine ⟨x.1, rfl, AList.lookup_insert _, fun q st hlookup => ?_⟩
      rw [lookup_insert_of] at hlookup
      split_ifs at hlookup with hq
      · exact hq
      · rcases hok hless with hnone | hsame
        · exact absurd hlookup (hrooted.noRole (hrooted.port_iff.mp hnone) q st)
        · have hforeign : b.engine.rootId ≠ b.engine.bridgeId := by
            intro heq
            simp [hrooted.port_iff.mpr heq] at hsame
          obtain ⟨p, hp, -, honly⟩ := h hforeign
          obtain rfl := Option.some.inj (hp.symm.trans hsame)
          exact honly q st hlookup
  · rw [hstep]
    refine iff_of_true (fun hforeign => ?_) (fun hless => absurd hless hroot.not_lt)
    obtain ⟨p, hp, hlookup, honly⟩ := h hforeign
    have hne : p ≠ x.1 := fun heq => hport (heq ▸ hp)
    refine ⟨p, hp, by rw [lookup_insert_of, if_neg hne, hlookup], fun q st hq => ?_⟩
    rw [lookup_insert_of] at hq
    split_ifs at hq
    · cases hq
    · exact honly q st hq
  · rw [hstep]
    exact iff_of_true h (fun hless => absurd hless (not_lt.mpr hle))

theorem leastCost_step_iff (hleast : b.LeastRoot) (h : b.LeastCost) :
    (b.step x).LeastCost ↔
      (x.2.rootId < b.engine.rootId → x.2.rootPathCost.toNat + 19 < 2 ^ 32) ∧
      (x.2.rootId = b.engine.rootId → b.engine.rootId ≠ b.engine.bridgeId →
        b.engine.rootPathCost.toNat ≤ x.2.rootPathCost.toNat + 19) := by
  -- the root that is known keeps its cost, heard again or not
  have hkept : b.engine.rootId ≤ x.2.rootId →
      ((b.engine.rootId ≠ b.engine.bridgeId → IsLeast
        {c | ∃ y ∈ x :: b.heard, y.2.rootId = b.engine.rootId ∧ c = y.2.rootPathCost.toNat + 19}
          b.engine.rootPathCost.toNat) ↔
        (x.2.rootId = b.engine.rootId → b.engine.rootId ≠ b.engine.bridgeId →
          b.engine.rootPathCost.toNat ≤ x.2.rootPathCost.toNat + 19)) := by
    intro hle
    constructor
    · intro hcost hroot hforeign
      exact (hcost hforeign).2 ⟨x, List.mem_cons_self, hroot, rfl⟩
    · intro hcost hforeign
      obtain ⟨⟨y, hy, hyroot, hycost⟩, hlow⟩ := h hforeign
      refine ⟨⟨y, List.mem_cons_of_mem x hy, hyroot, hycost⟩, ?_⟩
      rintro c ⟨z, hz, hzroot, rfl⟩
      rcases List.mem_cons.mp hz with rfl | hz
      · exact hcost hzroot hforeign
      · exact hlow ⟨z, hz, hzroot, rfl⟩
  obtain ⟨hless, hstep⟩ | ⟨hroot, -, hstep⟩ | ⟨hle, -, hstep⟩ := step_cases b x
  · rw [hstep]
    have hforeign := hleast.foreign hless
    have hcost : (x.2.rootPathCost + 19).toNat = (x.2.rootPathCost.toNat + 19) % 2 ^ 32 :=
      UInt32.toNat_add x.2.rootPathCost 19
    constructor
    · intro hnew
      obtain ⟨⟨y, hy, hyroot, hycost⟩, -⟩ := hnew hforeign
      obtain rfl := hleast.fresh hless hy hyroot
      dsimp only at hycost
      exact ⟨fun _ => by omega, fun hroot => absurd hroot hless.ne⟩
    · rintro ⟨hsmall, -⟩ -
      have hsmall := hsmall hless
      refine ⟨⟨x, List.mem_cons_self, rfl, by dsimp only; omega⟩, ?_⟩
      rintro c ⟨z, hz, hzroot, rfl⟩
      obtain rfl := hleast.fresh hless hz hzroot
      dsimp only
      omega
  · rw [hstep]
    have hnot : ¬ x.2.rootId < b.engine.rootId := hroot.not_lt
    simpa only [LeastCost, hnot, false_implies, true_and] using hkept hroot.ge
  · rw [hstep]
    have hnot : ¬ x.2.rootId < b.engine.rootId := not_lt.mpr hle
    simpa only [LeastCost, hnot, false_implies, true_and] using hkept hle

theorem consistent_step_iff (hrooted : b.Rooted) (h : b.Consistent) :
    (b.step x).Consistent ↔ b.Tame x := by
  have hone := oneRootPort_step_iff (x := x) h.leastRoot hrooted h.oneRootPort
  have hcost := leastCost_step_iff (x := x) h.leastRoot h.leastCost
  constructor
  · intro hnew
    obtain ⟨hsmall, hagain⟩ := hcost.mp hnew.leastCost
    exact ⟨fun hless => ⟨hone.mp hnew.oneRootPort hless, hsmall hless⟩, hagain⟩
  · rintro ⟨hless, hagain⟩
    exact ⟨leastRoot_step h.leastRoot, hone.mpr fun hl => (hless hl).1,
      hcost.mpr ⟨fun hl => (hless hl).2, hagain⟩, noLoop_step h.leastRoot h.noLoop⟩

theorem consistent_start (priority : ℕ) (mac : MacAddress) : (start priority mac).Consistent := by
  refine ⟨leastRoot_start priority mac, ?_, ?_, ?_⟩
  · intro hforeign
    exact absurd rfl hforeign
  · intro hforeign
    exact absurd rfl hforeign
  · intro x hx
    cases hx

/-- The root and the blocked ports are right whatever is heard. -/
theorem root_and_blocks (priority : ℕ) (mac : MacAddress) (bpdus : List (UInt8 × StpBpdu)) :
    (Machine.run step (start priority mac) bpdus).LeastRoot ∧
      (Machine.run step (start priority mac) bpdus).NoLoop :=
  Machine.run_keeps (I := fun b : Bridge => b.LeastRoot ∧ b.NoLoop)
    (fun _ _ hb => ⟨leastRoot_step hb.1, noLoop_step hb.1 hb.2⟩) bpdus
    ⟨leastRoot_start priority mac, (consistent_start priority mac).noLoop⟩

/-- The bridge is consistent as long as what it hears is tame, and a BPDU that is not makes it
inconsistent. -/
theorem bridge_consistent (priority : ℕ) (mac : MacAddress) (bpdus : List (UInt8 × StpBpdu))
    (h : Machine.Along step Tame (start priority mac) bpdus) :
    (Machine.run step (start priority mac) bpdus).Consistent ∧
      ∀ x, ((Machine.run step (start priority mac) bpdus).step x).Consistent ↔
        (Machine.run step (start priority mac) bpdus).Tame x := by
  obtain ⟨hconsistent, hrooted⟩ := h.keeps (I := fun b : Bridge => b.Consistent ∧ b.Rooted)
    (fun b x hb hx => ⟨(consistent_step_iff hb.2 hb.1).mpr hx, rooted_step hb.1.leastRoot hb.2⟩)
    ⟨consistent_start priority mac, rooted_start priority mac⟩
  exact ⟨hconsistent, fun x => consistent_step_iff hrooted hconsistent⟩

example : (Machine.run step (start 32768 .zero)
    [(1, StpBpdu.buildConfigBpdu ⟨4096, .zero⟩ ⟨4096, .zero⟩ 0 1)]).engine.rootPort = some 1 := by
  decide +kernel

/-- The root is heard on the first port, and another bridge that knows it on the second. -/
def twoPorts : List (UInt8 × StpBpdu) :=
  [(1, StpBpdu.buildConfigBpdu ⟨4096, .zero⟩ ⟨4096, .zero⟩ 0 1),
    (2, StpBpdu.buildConfigBpdu ⟨8192, .zero⟩ ⟨4096, .zero⟩ 19 1)]

theorem bridge_consistent_twoPorts : (Machine.run step (start 32768 .zero) twoPorts).Consistent ∧
    ¬ ((Machine.run step (start 32768 .zero) twoPorts).step
      (2, StpBpdu.buildConfigBpdu ⟨0, .zero⟩ ⟨0, .zero⟩ 0 1)).Consistent := by
  obtain ⟨hconsistent, hnext⟩ := bridge_consistent 32768 .zero twoPorts
    ⟨by decide +kernel, by decide +kernel, trivial⟩
  exact ⟨hconsistent, (hnext _).not.mpr (by decide +kernel)⟩

/-- The better root on the second port leaves the first one a forwarding root port. -/
theorem two_root_ports :
    ¬ (Machine.run step (start 32768 .zero)
      [(1, StpBpdu.buildConfigBpdu ⟨4096, .zero⟩ ⟨4096, .zero⟩ 0 1),
        (2, StpBpdu.buildConfigBpdu ⟨0, .zero⟩ ⟨0, .zero⟩ 0 1)]).Consistent := by
  intro h
  obtain ⟨p, -, -, honly⟩ := h.oneRootPort (by decide +kernel)
  have h₁ := honly 1 .forwarding (by decide +kernel)
  have h₂ := honly 2 .forwarding (by decide +kernel)
  exact absurd (h₁.trans h₂.symm) (by decide)

end Bridge

end ToyTcpip.Stp

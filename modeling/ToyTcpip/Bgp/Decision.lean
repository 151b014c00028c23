import ToyTcpip.Bgp.AsPath
import ToyTcpip.Lib.Knockout

/-! The IPv4 decision process of `bgp_rib.rs`: how two paths compare and how the best of several is
chosen. -/
namespace ToyTcpip.Bgp

def bgpDefaultLocalPref : UInt32 := 100

inductive PathSource where
  | «local»
  | ebgp
  | ibgp
  deriving DecidableEq, Repr

structure BgpPath where
  pfx : Ipv4Prefix
  source : PathSource
  peerAddr : Ipv4Address
  peerAs : UInt32
  peerRouterId : Ipv4Address
  origin : BgpOrigin
  asPath : AsPath
  nextHop : Ipv4Address
  med : Option UInt32
  localPref : UInt32
  atomicAggregate : Bool
  originatorId : Option Ipv4Address
  clusterList : List Ipv4Address
  fromClient : Bool
  receivedAtMs : ℕ
  deriving DecidableEq, Repr

namespace BgpPath

def isLocal (p : BgpPath) : Bool := p.source = .local

def isEbgp (p : BgpPath) : Bool := p.source = .ebgp

def asPathLen (p : BgpPath) : ℕ := p.asPath.length

/-- What makes two candidates distinct: the peer's identifier and its address. -/
def peerKey (p : BgpPath) : Ipv4Address × Ipv4Address := (p.peerRouterId, p.peerAddr)

end BgpPath

/-- `true` before `false`, as in the source's matches on a pair of tests. -/
def trueFirst (a b : Bool) : Ordering :=
  match a, b with
  | true, false => .lt
  | false, true => .gt
  | _, _ => .eq

/-- `Ordering.lt` means that `a` wins. -/
def comparePaths (a b : BgpPath) : Ordering :=
  (trueFirst a.isLocal b.isLocal).then <|
  (compare b.localPref.toNat a.localPref.toNat).then <|
  (compare a.asPathLen b.asPathLen).then <|
  (compare a.origin.toU8.toNat b.origin.toU8.toNat).then <|
  -- MEDs are compared only between paths from the same neighbouring AS
  (if a.asPath.firstAs.isSome ∧ a.asPath.firstAs = b.asPath.firstAs then
    compare (a.med.getD 0).toNat (b.med.getD 0).toNat else .eq).then <|
  (trueFirst a.isEbgp b.isEbgp).then <|
  (compare a.clusterList.length b.clusterList.length).then <|
  (compare a.peerRouterId.toU32.toNat b.peerRouterId.toU32.toNat).then <|
  compare a.peerAddr.toU32.toNat b.peerAddr.toU32.toNat

/-- `reduce`: the next candidate replaces the best one when it compares less. -/
def selectBest : List BgpPath → Option BgpPath
  | [] => none
  | first :: rest =>
    some (rest.foldl (fun best next => if comparePaths next best = .lt then next else best) first)

/-! ### The comparison as a preference -/

section preference

variable {a b : BgpPath} {l : List BgpPath}

/-- Steps 0 to 3: local first, higher LOCAL_PREF, shorter AS_PATH, lower ORIGIN. -/
def rank (p : BgpPath) : Bool ×ₗ ℕᵒᵈ ×ₗ ℕ ×ₗ ℕ :=
  toLex (!p.isLocal, toLex (OrderDual.toDual p.localPref.toNat,
    toLex (p.asPathLen, p.origin.toU8.toNat)))

/-- The paths came through the same neighbouring AS. -/
def SameNeighbour (a b : BgpPath) : Prop :=
  a.asPath.firstAs.isSome ∧ a.asPath.firstAs = b.asPath.firstAs

instance : DecidableRel SameNeighbour := fun _ _ => inferInstanceAs (Decidable (_ ∧ _))

def medValue (p : BgpPath) : ℕ := (p.med.getD 0).toNat

/-- Steps 5 to 8: eBGP first, shorter CLUSTER_LIST, lower peer identifier, lower peer address. -/
def tieBreak (p : BgpPath) : Bool ×ₗ ℕ ×ₗ ℕ ×ₗ ℕ :=
  toLex (!p.isEbgp, toLex (p.clusterList.length,
    toLex (p.peerRouterId.toU32.toNat, p.peerAddr.toU32.toNat)))

/-- `a` is preferred to `b`. -/
abbrev Preferred : BgpPath → BgpPath → Prop :=
  Knockout.Prefers rank SameNeighbour medValue tieBreak

/-- Three tied paths, two of them from one neighbouring AS and the third not: MED prefers `low` to
`high`, while the tie-breaks put `high` before `mid` and `mid` before `low`. -/
abbrev MedConflict : BgpPath → BgpPath → BgpPath → Prop :=
  Knockout.Cycle rank SameNeighbour medValue tieBreak

theorem SameNeighbour.symm (h : SameNeighbour a b) : SameNeighbour b a :=
  ⟨h.2 ▸ h.1, h.2.symm⟩

theorem SameNeighbour.trans {c : BgpPath} (h : SameNeighbour a b) (h' : SameNeighbour b c) :
    SameNeighbour a c :=
  ⟨h.1, h.2.trans h'.2⟩

theorem compare_toLex {α β : Type*} [Ord α] [Ord β] (x x' : α) (y y' : β) :
    compare (toLex (x, y)) (toLex (x', y')) = (compare x x').then (compare y y') := by
  rw [Prod.Lex.compare_def]
  rfl

theorem trueFirst_eq (a b : Bool) : trueFirst a b = compare (!a) (!b) := by
  cases a <;> cases b <;> rfl

theorem comparePaths_eq (a b : BgpPath) :
    comparePaths a b = (compare (rank a) (rank b)).then
      ((if SameNeighbour a b then compare (medValue a) (medValue b) else .eq).then
        (compare (tieBreak a) (tieBreak b))) := by
  have hdual : ∀ m n : ℕ, compare (OrderDual.toDual m) (OrderDual.toDual n) = compare n m :=
    fun m n => rfl
  simp only [comparePaths, rank, tieBreak, compare_toLex, trueFirst_eq, Ordering.then_assoc, hdual]
  rfl

theorem comparePaths_lt_iff : comparePaths a b = .lt ↔ Preferred a b := by
  rw [comparePaths_eq, Ordering.then_eq_lt, Ordering.then_eq_lt]
  simp only [compare_lt_iff_lt, compare_eq_iff_eq, Knockout.Prefers]
  by_cases hsame : SameNeighbour a b
  · simp [hsame, compare_lt_iff_lt]
  · simp [hsame]

instance : DecidableRel Preferred := fun _ _ => decidable_of_iff _ comparePaths_lt_iff

theorem selectBest_eq_winner (l : List BgpPath) : selectBest l = Knockout.winner Preferred l := by
  have hstep : (fun best next => if comparePaths next best = .lt then next else best) =
      Knockout.pick Preferred := by
    funext best next
    simp only [Knockout.pick, comparePaths_lt_iff]
  cases l with
  | nil => rfl
  | cons first rest => rw [selectBest, hstep, Knockout.winner]

theorem peerKey_eq_of_tieBreak (h : tieBreak a = tieBreak b) : a.peerKey = b.peerKey := by
  simp only [tieBreak, toLex_inj, Prod.mk.injEq] at h
  obtain ⟨-, -, hid, haddr⟩ := h
  have hid := Ipv4Address.toU32_injective (BitVec.eq_of_toNat_eq hid)
  have haddr := Ipv4Address.toU32_injective (BitVec.eq_of_toNat_eq haddr)
  simp [BgpPath.peerKey, hid, haddr]

theorem tournament_preferred (h : l.Pairwise fun a b => a.peerKey ≠ b.peerKey) :
    Knockout.Tournament Preferred l := by
  apply Knockout.tournament_prefers fun a b => SameNeighbour.symm
  intro a ha b hb hne htie
  have : Std.Symm fun a b : BgpPath => a.peerKey ≠ b.peerKey := ⟨fun _ _ => Ne.symm⟩
  exact h.forall ha hb hne (peerKey_eq_of_tieBreak htie)

end preference

/-! ### Independence of the order of the candidates -/

section order

variable {l : List BgpPath}

/-- The same path is selected in whatever order the candidates come. -/
def OrderIndependent (l : List BgpPath) : Prop :=
  ∀ l', l'.Perm l → selectBest l' = selectBest l

/-- On the candidates, `comparePaths` is irreflexive, transitive and total. -/
structure StrictTotal (l : List BgpPath) : Prop where
  irrefl : ∀ a ∈ l, comparePaths a a ≠ .lt
  trans : ∀ a ∈ l, ∀ b ∈ l, ∀ c ∈ l, comparePaths a b = .lt → comparePaths b c = .lt →
    comparePaths a c = .lt
  total : ∀ a ∈ l, ∀ b ∈ l, a ≠ b → comparePaths a b = .lt ∨ comparePaths b a = .lt

theorem strictTotal_iff (h : l.Pairwise fun a b => a.peerKey ≠ b.peerKey) :
    StrictTotal l ↔ ¬ ∃ low ∈ l, ∃ mid ∈ l, ∃ high ∈ l, MedConflict low mid high := by
  have ht := tournament_preferred h
  refine Iff.trans ?_ (Knockout.transitive_iff (fun _ _ => SameNeighbour.symm)
    (fun _ _ _ => SameNeighbour.trans) ht)
  constructor
  · intro hs a ha b hb c hc hab hbc
    exact comparePaths_lt_iff.mp
      (hs.trans a ha b hb c hc (comparePaths_lt_iff.mpr hab) (comparePaths_lt_iff.mpr hbc))
  · intro htrans
    refine ⟨fun a ha hlt => ht.irrefl a ha (comparePaths_lt_iff.mp hlt), ?_, ?_⟩
    · intro a ha b hb c hc hab hbc
      exact comparePaths_lt_iff.mpr
        (htrans a ha b hb c hc (comparePaths_lt_iff.mp hab) (comparePaths_lt_iff.mp hbc))
    · intro a ha b hb hne
      simpa only [comparePaths_lt_iff] using ht.total a ha b hb hne

theorem orderIndependent_iff (h : l.Pairwise fun a b => a.peerKey ≠ b.peerKey) :
    OrderIndependent l ↔ l = [] ∨ ∃ c, Knockout.Champion Preferred l c := by
  have hnd : l.Nodup := h.imp fun hkey heq => hkey (congrArg BgpPath.peerKey heq)
  simp only [OrderIndependent, selectBest_eq_winner]
  exact Knockout.winner_perm_iff (tournament_preferred h) hnd

theorem StrictTotal.orderIndependent (h : l.Pairwise fun a b => a.peerKey ≠ b.peerKey)
    (hs : StrictTotal l) : OrderIndependent l := by
  rw [orderIndependent_iff h]
  by_cases hl : l = []
  · exact .inl hl
  · right
    apply Knockout.exists_champion (tournament_preferred h) hl
    intro a ha b hb c hc hab hbc
    exact comparePaths_lt_iff.mp
      (hs.trans a ha b hb c hc (comparePaths_lt_iff.mpr hab) (comparePaths_lt_iff.mpr hbc))

/-- The comparison is a strict total order, and the choice the same in every order, exactly when no
three candidates conflict over MED. The choice alone needs only one candidate preferred to all the
others. -/
theorem decision_process_order_independent (l : List BgpPath)
    (h : l.Pairwise fun a b => a.peerKey ≠ b.peerKey) :
    ((OrderIndependent l ∧ StrictTotal l) ↔
      ¬ ∃ low ∈ l, ∃ mid ∈ l, ∃ high ∈ l, MedConflict low mid high) ∧
    (OrderIndependent l ↔ l = [] ∨ ∃ best ∈ l, ∀ other ∈ l, other ≠ best →
        Preferred best other) := by
  refine ⟨?_, orderIndependent_iff h⟩
  rw [← strictTotal_iff h]
  exact ⟨fun hp => hp.2, fun hs => ⟨hs.orderIndependent h, hs⟩⟩

/-- A path from the neighbour `n`, tied with the others built so up to MED. -/
def neighbourPath (n : UInt8) (asn med : UInt32) : BgpPath where
  pfx := ⟨⟨10, 30, 0, 0⟩, 24⟩
  source := .ebgp
  peerAddr := ⟨10, 0, 0, n⟩
  peerAs := asn
  peerRouterId := ⟨1, 1, 1, n⟩
  origin := .igp
  asPath := .sequence [asn]
  nextHop := ⟨10, 0, 0, n⟩
  med := some med
  localPref := bgpDefaultLocalPref
  atomicAggregate := false
  originatorId := none
  clusterList := []
  fromClient := false
  receivedAtMs := 0

theorem decision_process_order_independent_pair :
    OrderIndependent [neighbourPath 1 65001 20, neighbourPath 2 65002 0] :=
  ((decision_process_order_independent
    [neighbourPath 1 65001 20, neighbourPath 2 65002 0] (by decide)).2).mpr
    (.inr ⟨neighbourPath 1 65001 20, by decide, by decide +kernel⟩)

/-- Two paths through one neighbouring AS and one through another, whose winner is the one that the
order of the list puts last. -/
theorem selectBest_depends_on_order :
    [neighbourPath 3 65001 10, neighbourPath 2 65002 0, neighbourPath 1 65001 20].Pairwise
      (fun a b => a.peerKey ≠ b.peerKey) ∧
    selectBest [neighbourPath 3 65001 10, neighbourPath 2 65002 0, neighbourPath 1 65001 20] =
      some (neighbourPath 1 65001 20) ∧
    selectBest [neighbourPath 2 65002 0, neighbourPath 1 65001 20, neighbourPath 3 65001 10] =
      some (neighbourPath 3 65001 10) ∧
    ¬ OrderIndependent
      [neighbourPath 3 65001 10, neighbourPath 2 65002 0, neighbourPath 1 65001 20] := by
  refine ⟨by decide, by decide +kernel, by decide +kernel, fun h => ?_⟩
  have hperm : [neighbourPath 2 65002 0, neighbourPath 1 65001 20, neighbourPath 3 65001 10].Perm
      [neighbourPath 3 65001 10, neighbourPath 2 65002 0, neighbourPath 1 65001 20] := by decide
  exact absurd (h _ hperm) (by decide +kernel)

end order

end ToyTcpip.Bgp

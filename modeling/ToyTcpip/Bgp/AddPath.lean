import ToyTcpip.Bgp.Decision
import ToyTcpip.Lib.Hashed
import ToyTcpip.Lib.Keyed
import ToyTcpip.Lib.Machine
import ToyTcpip.Routing.Lookup

/-! The multi-path routing information base of `bgp_add_path.rs`. -/
namespace ToyTcpip.Bgp

open Hashed Routing Reconcile

structure AddPathRibEntry where
  pathId : UInt32
  peerIp : Ipv4Address
  nextHop : Ipv4Address
  asPath : AsPath
  origin : BgpOrigin
  localPref : Option UInt32
  med : Option UInt32
  isBest : Bool
  isBackup : Bool
  deriving DecidableEq

namespace AddPathRibEntry

def new (pathId : UInt32) (peerIp nextHop : Ipv4Address) (asPath : AsPath) : AddPathRibEntry :=
  { pathId, peerIp, nextHop, asPath, origin := .igp, localPref := some 100, med := none
    isBest := false, isBackup := false }

/-- What names a path of a prefix. -/
def key (e : AddPathRibEntry) : Ipv4Address × UInt32 := (e.peerIp, e.pathId)

def cleared (e : AddPathRibEntry) : AddPathRibEntry := { e with isBest := false, isBackup := false }

/-- The four bytes of a peer address compare as its number does. -/
def decisionOrder (a b : AddPathRibEntry) : Ordering :=
  (compare (b.localPref.getD 100).toNat (a.localPref.getD 100).toNat).then <|
  (compare a.asPath.length b.asPath.length).then <|
  (compare a.origin.toU8.toNat b.origin.toU8.toNat).then <|
  (compare (a.med.getD 0).toNat (b.med.getD 0).toNat).then <|
  (compare a.peerIp.toU32.toNat b.peerIp.toU32.toNat).then <|
  compare a.pathId.toNat b.pathId.toNat

abbrev NotAfter (a b : AddPathRibEntry) : Prop := a.decisionOrder b ≠ .gt

end AddPathRibEntry

open AddPathRibEntry

/-- The first path with another next hop is the backup. -/
def markBackup (best : Ipv4Address) : List AddPathRibEntry → List AddPathRibEntry
  | [] => []
  | e :: rest => if e.nextHop ≠ best then { e with isBackup := true } :: rest else e ::
    markBackup best rest

def decideList (l : List AddPathRibEntry) : List AddPathRibEntry :=
  match (l.map cleared).insertionSort NotAfter with
  | [] => []
  | best :: rest => { best with isBest := true } :: markBackup best.nextHop rest

structure AddPathRib where
  routes : HashMap Ipv4Prefix (List AddPathRibEntry)
  maxPathsPerPrefix : ℕ

namespace AddPathRib

def new (maxPathsPerPrefix : ℕ) : AddPathRib := ⟨∅, max maxPathsPerPrefix 1⟩

def recomputeDecision (rib : AddPathRib) (pfx : Ipv4Prefix) : AddPathRib :=
  match rib.routes.lookup pfx with
  | none => rib
  | some l => if l.isEmpty then rib else { rib with routes := rib.routes.insert pfx (decideList l) }

def insertPath (rib : AddPathRib) (pfx : Ipv4Prefix) (entry : AddPathRibEntry) : AddPathRib :=
  let l := (rib.routes.lookup pfx).getD []
  let l := replaceOrPush (fun e => e.peerIp = entry.peerIp ∧ e.pathId = entry.pathId) entry l
  recomputeDecision { rib with routes := rib.routes.insert pfx l } pfx

def withdrawPath (rib : AddPathRib) (pfx : Ipv4Prefix) (peerIp : Ipv4Address) (pathId : UInt32) :
    AddPathRib × Bool :=
  match rib.routes.lookup pfx with
  | none => (rib, false)
  | some l =>
    let l' := l.filter fun e => ¬ (e.peerIp = peerIp ∧ e.pathId = pathId)
    let rib := { rib with routes := rib.routes.insert pfx l' }
    if l'.length < l.length then
      if l'.isEmpty then ({ rib with routes := rib.routes.erase pfx }, true)
      else (rib.recomputeDecision pfx, true)
    else (rib, false)

end AddPathRib

/-! ### The order of decision -/

namespace AddPathRibEntry

variable {a b : AddPathRibEntry}

def rank (e : AddPathRibEntry) : ℕᵒᵈ ×ₗ ℕ ×ₗ ℕ ×ₗ ℕ ×ₗ ℕ ×ₗ ℕ :=
  toLex (OrderDual.toDual (e.localPref.getD 100).toNat,
    toLex (e.asPath.length, toLex (e.origin.toU8.toNat,
      toLex ((e.med.getD 0).toNat, toLex (e.peerIp.toU32.toNat, e.pathId.toNat)))))

theorem decisionOrder_eq (a b : AddPathRibEntry) : a.decisionOrder b = compare a.rank b.rank := by
  simp only [rank, compare_toLex]
  rfl

theorem notAfter_iff : NotAfter a b ↔ a.rank ≤ b.rank := by
  rw [NotAfter, decisionOrder_eq, Ne, compare_gt_iff_gt, not_lt]

instance : Std.Total NotAfter := ⟨fun a b => by
  rw [notAfter_iff, notAfter_iff]
  exact le_total _ _⟩

instance : IsTrans AddPathRibEntry NotAfter := ⟨fun a b c => by
  rw [notAfter_iff, notAfter_iff, notAfter_iff]
  exact le_trans⟩

theorem key_eq_of_rank (h : a.rank = b.rank) : a.key = b.key := by
  simp only [rank, EmbeddingLike.apply_eq_iff_eq, Prod.mk.injEq] at h
  obtain ⟨-, -, -, -, hip, hid⟩ := h
  exact Prod.ext (Ipv4Address.toU32_injective (BitVec.eq_of_toNat_eq hip)) (UInt32.toNat_inj.mp hid)

end AddPathRibEntry

/-! ### The paths that are live -/

inductive AddPathCall where
  | insertPath (pfx : Ipv4Prefix) (entry : AddPathRibEntry)
  | withdrawPath (pfx : Ipv4Prefix) (peerIp : Ipv4Address) (pathId : UInt32)

def AddPathRib.step (rib : AddPathRib) : AddPathCall → AddPathRib
  | .insertPath pfx entry => rib.insertPath pfx entry
  | .withdrawPath pfx peerIp pathId => (rib.withdrawPath pfx peerIp pathId).1

/-- Every path of every prefix, its marks aside. -/
abbrev LivePaths : Type := Ipv4Prefix → Ipv4Address × UInt32 → Option AddPathRibEntry

def LivePaths.step (m : LivePaths) : AddPathCall → LivePaths
  | .insertPath pfx entry => fun p k => if p = pfx ∧ k = entry.key then
    some entry.cleared else m p k
  | .withdrawPath pfx peerIp pathId => fun p k => if p = pfx ∧ k = (peerIp, pathId) then
    none else m p k

/-- The last insertion of each path, unless it was withdrawn. -/
def live (calls : List AddPathCall) : LivePaths :=
  Machine.run LivePaths.step (fun _ _ => none) calls

variable {l l' : List AddPathRibEntry} {m : Ipv4Address × UInt32 → Option AddPathRibEntry}
  {e : AddPathRibEntry} {rib : AddPathRib} {paths : LivePaths} {pfx : Ipv4Prefix}

/-- A list without two entries of one path, whose entries are those of `m`, marks aside. -/
structure Holds (l : List AddPathRibEntry) (m : Ipv4Address × UInt32 → Option AddPathRibEntry) :
    Prop where
  unique : (l.map key).Nodup
  mem : ∀ k e, m k = some e ↔ e ∈ l.map cleared ∧ e.key = k

theorem map_key_cleared (l : List AddPathRibEntry) : (l.map cleared).map key = l.map key := by
  rw [List.map_map]
  rfl

theorem Holds.eq_of_key (h : Holds l m) {a b : AddPathRibEntry} (ha : a ∈ l.map cleared)
    (hb : b ∈ l.map cleared) (hk : a.key = b.key) : a = b := by
  have hma := (h.mem b.key a).mpr ⟨ha, hk⟩
  rw [(h.mem b.key b).mpr ⟨hb, rfl⟩] at hma
  exact (Option.some.inj hma).symm

theorem Holds.nodup (h : Holds l m) : (l.map cleared).Nodup := by
  apply List.Nodup.of_map key
  rw [map_key_cleared]
  exact h.unique

theorem Holds.perm (h : Holds l m) (h' : Holds l' m) : (l.map cleared).Perm (l'.map cleared) :=
  (List.perm_ext_iff_of_nodup h.nodup h'.nodup).mpr fun e => by
    have hiff := (h.mem e.key e).symm.trans (h'.mem e.key e)
    simpa using hiff

/-- What a list is decided to be depends on the paths it holds alone. -/
theorem Holds.decideList_eq (h : Holds l m) (h' : Holds l' m) : decideList l = decideList l' := by
  have hsort : (l.map cleared).insertionSort NotAfter =
      (l'.map cleared).insertionSort NotAfter := by
    refine Keyed.insertionSort_eq_of_perm (h.perm h') fun a ha b hb hab hba => ?_
    rw [notAfter_iff] at hab hba
    exact h.eq_of_key ha hb (key_eq_of_rank (le_antisymm hab hba))
  rw [decideList, decideList, hsort]

theorem map_cleared_markBackup (best : Ipv4Address) (l : List AddPathRibEntry) :
    (markBackup best l).map cleared = l.map cleared := by
  induction l with
  | nil => rfl
  | cons e rest ih =>
    rw [markBackup]
    split_ifs
    · rfl
    · rw [List.map_cons, List.map_cons, ih]

theorem map_cleared_decideList (l : List AddPathRibEntry) :
    (decideList l).map cleared = (l.map cleared).insertionSort NotAfter := by
  have hself : ∀ l' : List AddPathRibEntry, (∀ e ∈ l', e.cleared = e) → l'.map cleared = l' := by
    intro l' h
    exact (List.map_congr_left h).trans (List.map_id l')
  have hcleared : ∀ e ∈ (l.map cleared).insertionSort NotAfter, e.cleared = e := by
    intro e he
    obtain ⟨e', -, rfl⟩ := List.mem_map.mp ((List.mem_insertionSort NotAfter).mp he)
    rfl
  rw [decideList]
  generalize (l.map cleared).insertionSort NotAfter = sorted at hcleared
  cases sorted with
  | nil => rfl
  | cons best rest =>
    dsimp only
    rw [List.map_cons, map_cleared_markBackup, hself rest fun e he =>
      hcleared e (List.mem_cons_of_mem _ he)]
    congr 1
    exact hcleared best List.mem_cons_self

theorem Holds.decideList (h : Holds l m) : Holds (decideList l) m := by
  refine ⟨?_, fun k e => ?_⟩
  · rw [← map_key_cleared, map_cleared_decideList,
      ((List.perm_insertionSort _ _).map key).nodup_iff, map_key_cleared]
    exact h.unique
  · rw [map_cleared_decideList, List.mem_insertionSort, h.mem k e]

theorem decideList_ne_nil (h : l ≠ []) : decideList l ≠ [] := by
  intro hnil
  have hmap := map_cleared_decideList l
  rw [hnil, List.map_nil] at hmap
  have hlen := (List.perm_insertionSort NotAfter (l.map cleared)).length_eq
  rw [← hmap, List.length_map] at hlen
  exact h (List.eq_nil_of_length_eq_zero hlen.symm)

/-! ### What the calls keep -/

theorem unique_iff : Reconcile.Unique (fun _ => true) key l ↔ (l.map key).Nodup := by
  rw [Reconcile.Unique, List.filter_true]

theorem Holds.replaceOrPush (h : Holds l m) (entry : AddPathRibEntry) :
    Holds (replaceOrPush (fun e => e.peerIp = entry.peerIp ∧ e.pathId = entry.pathId) entry l)
      (fun k => if k = entry.key then some entry.cleared else m k) := by
  have hput : Put (fun _ => true) key l entry
      (Routing.replaceOrPush (fun e => e.peerIp = entry.peerIp ∧
          e.pathId = entry.pathId) entry l) :=
    put_replaceOrPush (fun r => by simp [key]) (unique_iff.mpr h.unique) rfl
  refine ⟨unique_iff.mp hput.unique, fun k e => ?_⟩
  have hold (r : AddPathRibEntry) (hr : r ∈ l) : m r.key = some r.cleared :=
    (h.mem r.key r.cleared).mpr ⟨List.mem_map_of_mem hr, rfl⟩
  rw [List.mem_map]
  constructor
  · intro he
    split_ifs at he with hk
    · cases he
      exact ⟨⟨entry, (hput.mem entry rfl).mpr (.inl rfl), rfl⟩, hk.symm⟩
    · obtain ⟨hin, rfl⟩ := (h.mem k e).mp he
      obtain ⟨r, hr, rfl⟩ := List.mem_map.mp hin
      exact ⟨⟨r, (hput.mem r rfl).mpr (.inr ⟨hr, hk⟩), rfl⟩, rfl⟩
  · rintro ⟨⟨r, hr, rfl⟩, rfl⟩
    rcases (hput.mem r rfl).mp hr with rfl | ⟨hr, hne⟩
    · exact if_pos rfl
    · rw [if_neg (show r.cleared.key ≠ entry.key from hne)]
      exact hold r hr

theorem Holds.filter (h : Holds l m) (peerIp : Ipv4Address) (pathId : UInt32) :
    Holds (l.filter fun e => ¬ (e.peerIp = peerIp ∧ e.pathId = pathId))
      (fun k => if k = (peerIp, pathId) then none else m k) := by
  refine ⟨List.Nodup.sublist (List.filter_sublist.map key) h.unique, fun k e => ?_⟩
  have hkey (r : AddPathRibEntry) : (r.peerIp = peerIp ∧ r.pathId = pathId) ↔
      r.key = (peerIp, pathId) := by
    simp [key]
  simp only [List.mem_map, List.mem_filter, decide_eq_true_eq, hkey]
  constructor
  · intro he
    split_ifs at he with hk
    obtain ⟨hin, rfl⟩ := (h.mem k e).mp he
    obtain ⟨r, hr, rfl⟩ := List.mem_map.mp hin
    exact ⟨⟨r, ⟨hr, hk⟩, rfl⟩, rfl⟩
  · rintro ⟨⟨r, ⟨hr, hne⟩, rfl⟩, rfl⟩
    rw [if_neg (show r.cleared.key ≠ _ from hne)]
    exact (h.mem _ _).mpr ⟨List.mem_map_of_mem hr, rfl⟩

theorem Holds.empty_iff (h : Holds l m) : l = [] ↔ ∀ k, m k = none := by
  constructor
  · rintro rfl k
    by_contra hk
    obtain ⟨e, he⟩ := Option.ne_none_iff_exists'.mp hk
    exact List.not_mem_nil ((h.mem k e).mp he).1
  · intro hm
    by_contra hne
    obtain ⟨e, rest, rfl⟩ := List.exists_cons_of_ne_nil hne
    have he := (h.mem e.key e.cleared).mpr ⟨by simp, rfl⟩
    rw [hm] at he
    cases he

theorem holds_nil (h : ∀ k, m k = none) : Holds [] m := by
  refine ⟨List.nodup_nil, fun k e => ?_⟩
  simp [h k]

/-- The routes of a prefix are the decided list of its live paths. -/
structure AddPathRib.Keeps (rib : AddPathRib) (paths : LivePaths) : Prop where
  holds : ∀ pfx, Holds ((rib.routes.lookup pfx).getD []) (paths pfx)
  decided : ∀ pfx l, rib.routes.lookup pfx = some l → l ≠ [] ∧ decideList l = l

namespace AddPathRib

/-- Putting a decided list in the place of another. -/
theorem Keeps.insert (h : rib.Keeps paths) {paths' : LivePaths} (hne : l ≠ [])
    (hl : Holds l (paths' pfx)) (hothers : ∀ p, p ≠ pfx → paths' p = paths p) :
    Keeps { rib with routes := rib.routes.insert pfx (decideList l) } paths' := by
  refine ⟨fun p => ?_, fun p l' hp => ?_⟩
  · rw [lookup_insert_of]
    split_ifs with heq
    · rw [heq]
      exact hl.decideList
    · rw [hothers p heq]
      exact h.holds p
  · rw [lookup_insert_of] at hp
    split_ifs at hp with heq
    · cases hp
      exact ⟨decideList_ne_nil hne, hl.decideList.decideList_eq hl⟩
    · exact h.decided p l' hp

theorem Keeps.erase (h : rib.Keeps paths) {paths' : LivePaths} (hl : ∀ k, paths' pfx k = none)
    (hothers : ∀ p, p ≠ pfx → paths' p = paths p) :
    Keeps { rib with routes := rib.routes.erase pfx } paths' := by
  refine ⟨fun p => ?_, fun p l' hp => ?_⟩
  · rw [lookup_erase_of]
    split_ifs with heq
    · rw [heq]
      exact holds_nil hl
    · rw [hothers p heq]
      exact h.holds p
  · rw [lookup_erase_of] at hp
    split_ifs at hp with heq
    exact h.decided p l' hp

/-- Deciding a prefix just written is writing its decided list. -/
theorem recomputeDecision_insert (hne : l ≠ []) :
    recomputeDecision { rib with routes := rib.routes.insert pfx l } pfx =
      { rib with routes := rib.routes.insert pfx (decideList l) } := by
  have hempty : ¬ l.isEmpty = true := fun h => hne (List.isEmpty_iff.mp h)
  simp only [recomputeDecision, AList.lookup_insert]
  rw [if_neg hempty, AList.insert_insert]

theorem replaceOrPush_ne_nil {p : AddPathRibEntry → Bool} : Routing.replaceOrPush p e l ≠ [] := by
  cases l with
  | nil => simp [Routing.replaceOrPush]
  | cons a l =>
    rw [replaceOrPush_cons]
    split_ifs <;> simp

theorem keeps_insertPath (h : rib.Keeps paths) (pfx : Ipv4Prefix) (entry : AddPathRibEntry) :
    (rib.insertPath pfx entry).Keeps (paths.step (.insertPath pfx entry)) := by
  rw [insertPath, recomputeDecision_insert replaceOrPush_ne_nil]
  refine h.insert replaceOrPush_ne_nil ?_ fun p hp => ?_
  · simpa [LivePaths.step] using (h.holds pfx).replaceOrPush entry
  · funext k
    simp [LivePaths.step, hp]

theorem keeps_withdrawPath (h : rib.Keeps paths) (pfx : Ipv4Prefix) (peerIp : Ipv4Address)
    (pathId : UInt32) :
    (rib.withdrawPath pfx peerIp pathId).1.Keeps
      (paths.step (.withdrawPath pfx peerIp pathId)) := by
  have hothers : ∀ p, p ≠ pfx → paths.step (.withdrawPath pfx peerIp pathId) p = paths p := by
    intro p hp
    funext k
    simp [LivePaths.step, hp]
  have hl := (h.holds pfx).filter peerIp pathId
  have hpaths : paths.step (.withdrawPath pfx peerIp pathId) pfx =
      fun k => if k = (peerIp, pathId) then none else paths pfx k := by
    funext k
    simp [LivePaths.step]
  rw [← hpaths] at hl
  rw [withdrawPath]
  cases hlookup : rib.routes.lookup pfx with
  | none =>
    rw [hlookup] at hl
    refine ⟨fun p => ?_, h.decided⟩
    by_cases hp : p = pfx
    · rw [hp, hlookup]
      exact hl
    · rw [hothers p hp]
      exact h.holds p
  | some l =>
    rw [hlookup, Option.getD_some] at hl
    dsimp only
    generalize hl' : (l.filter fun e => ¬ (e.peerIp = peerIp ∧ e.pathId = pathId)) = l' at hl
    split_ifs with hshort hnil
    · rw [List.isEmpty_iff] at hnil
      dsimp only
      rw [erase_insert]
      exact h.erase (hl.empty_iff.mp hnil) hothers
    · have hne : l' ≠ [] := fun heq => hnil (List.isEmpty_iff.mpr heq)
      rw [recomputeDecision_insert hne]
      exact h.insert hne hl hothers
    · obtain ⟨hne, hdecided⟩ := h.decided pfx l hlookup
      have hsame : l' = l := by
        rw [← hl']
        refine List.Sublist.eq_of_length_le List.filter_sublist ?_
        rw [hl']
        omega
      have hkeeps := h.insert (hsame ▸ hne) hl hothers
      rwa [hsame, hdecided, ← hsame] at hkeeps

/-- Every run of calls keeps the routes decided from the live paths. -/
theorem keeps_run (n : ℕ) (calls : List AddPathCall) :
    (Machine.run step (new n) calls).Keeps (live calls) := by
  have hgen : ∀ (rib : AddPathRib) (paths : LivePaths), rib.Keeps paths →
      (Machine.run step rib calls).Keeps (Machine.run LivePaths.step paths calls) := by
    induction calls with
    | nil => exact fun _ _ h => h
    | cons call rest ih =>
      intro rib paths h
      refine ih (rib.step call) (paths.step call) ?_
      cases call with
      | insertPath pfx entry => exact keeps_insertPath h pfx entry
      | withdrawPath pfx peerIp pathId => exact keeps_withdrawPath h pfx peerIp pathId
  refine hgen (new n) _ ⟨fun pfx => holds_nil fun _ => rfl, fun pfx l h => ?_⟩
  cases h

end AddPathRib

/-! ### Best and backup -/

/-- The list is in the order of decision, its first path alone is best, and the backup is the first
later path with another next hop. -/
def Chosen (l : List AddPathRibEntry) : Prop :=
  ∃ best rest, l = best :: rest ∧ l.Pairwise (fun a b => a.decisionOrder b = .lt) ∧
    best.isBest = true ∧ best.isBackup = false ∧ (∀ e ∈ rest, e.isBest = false) ∧
    ∀ (i : ℕ) (e : AddPathRibEntry), rest[i]? = some e →
    (e.isBackup = true ↔ e.nextHop ≠ best.nextHop ∧
      ∀ j < i, ∀ e' : AddPathRibEntry, rest[j]? = some e' → e'.nextHop = best.nextHop)

theorem isBest_markBackup {best : Ipv4Address} (h : ∀ e ∈ l, e.isBest = false) :
    ∀ e ∈ markBackup best l, e.isBest = false := by
  induction l with
  | nil => exact h
  | cons a rest ih =>
    rw [List.forall_mem_cons] at h
    rw [markBackup]
    split_ifs
    · exact List.forall_mem_cons.mpr ⟨h.1, h.2⟩
    · exact List.forall_mem_cons.mpr ⟨h.1, ih h.2⟩

theorem isBackup_markBackup {best : Ipv4Address} (h : ∀ e ∈ l, e.isBackup = false) (i : ℕ)
    (e : AddPathRibEntry) (he : (markBackup best l)[i]? = some e) :
    e.isBackup = true ↔ e.nextHop ≠ best ∧
      ∀ j < i, ∀ e', (markBackup best l)[j]? = some e' → e'.nextHop = best := by
  induction l generalizing i with
  | nil => cases he
  | cons a rest ih =>
    rw [List.forall_mem_cons] at h
    rw [markBackup] at he ⊢
    split_ifs at he ⊢ with ha
    · cases i with
      | zero =>
        cases he
        simpa using ha
      | succ i =>
        have hoff := h.2 e (List.mem_of_getElem? he)
        simp only [hoff, Bool.false_eq_true, false_iff, not_and]
        exact fun _ hsame => ha (hsame 0 (Nat.succ_pos i) { a with isBackup := true } rfl)
    · rw [ne_eq, not_not] at ha
      cases i with
      | zero =>
        cases he
        simp [h.1, ha]
      | succ i =>
        rw [ih h.2 i he]
        refine and_congr_right fun _ => ⟨fun hall j hj e' he' => ?_, fun hall j hj e' he' => ?_⟩
        · cases j with
          | zero =>
            cases he'
            exact ha
          | succ j => exact hall j (Nat.lt_of_succ_lt_succ hj) e' he'
        · exact hall (j + 1) (Nat.succ_lt_succ hj) e' he'

theorem Holds.chosen (h : Holds l m) (hne : l ≠ []) (hself : Bgp.decideList l = l) : Chosen l := by
  have hordered : l.Pairwise (fun a b => a.decisionOrder b = .lt) := by
    have hsorted := List.pairwise_insertionSort NotAfter (l.map cleared)
    rw [← map_cleared_decideList, hself] at hsorted
    have hkeys : (l.map cleared).Pairwise fun a b => a.key ≠ b.key := by
      rw [← List.pairwise_map (f := key), map_key_cleared]
      exact h.unique
    have hstrict := (hsorted.and hkeys).imp (S := fun a b : AddPathRibEntry =>
      a.decisionOrder b = .lt) ?_
    · exact List.pairwise_map.mp hstrict
    · rintro a b ⟨hle, hk⟩
      rw [decisionOrder_eq, compare_lt_iff_lt]
      exact lt_of_le_of_ne (notAfter_iff.mp hle) fun heq => hk (key_eq_of_rank heq)
  have hmarks : ∀ e ∈ (l.map cleared).insertionSort NotAfter, e.isBest = false ∧
      e.isBackup = false := by
    intro e he
    obtain ⟨e', -, rfl⟩ := List.mem_map.mp ((List.mem_insertionSort NotAfter).mp he)
    exact ⟨rfl, rfl⟩
  rw [Bgp.decideList] at hself
  generalize (l.map cleared).insertionSort NotAfter = sorted at hself hmarks
  cases sorted with
  | nil => exact absurd hself.symm hne
  | cons best rest =>
    rw [List.forall_mem_cons] at hmarks
    refine ⟨_, _, hself.symm, hordered, rfl, hmarks.1.2, ?_, ?_⟩
    · exact isBest_markBackup fun e he => (hmarks.2 e he).1
    · exact isBackup_markBackup fun e he => (hmarks.2 e he).2

namespace AddPathRib

/-- Calls that leave the same live paths leave the same routes: the live paths of each prefix, in
one order, with one best path and its backup. -/
theorem routes_of_live (n n' : ℕ) (calls calls' : List AddPathCall)
    (h : ∀ pfx k, live calls pfx k = live calls' pfx k) (pfx : Ipv4Prefix) :
    (Machine.run step (new n) calls).routes.lookup pfx =
      (Machine.run step (new n') calls').routes.lookup pfx ∧
      match (Machine.run step (new n) calls).routes.lookup pfx with
      | none => ∀ k, live calls pfx k = none
      | some l => Chosen l ∧ ∀ e, e ∈ l.map cleared ↔ live calls pfx e.key = some e := by
  have hkeeps := keeps_run n calls
  have hkeeps' := keeps_run n' calls'
  have hpaths : live calls pfx = live calls' pfx := funext (h pfx)
  have hholds := hkeeps.holds pfx
  have hholds' := hkeeps'.holds pfx
  rw [← hpaths] at hholds'
  have hnil := hholds.empty_iff.trans hholds'.empty_iff.symm
  have hdecided := hkeeps.decided pfx
  have hdecided' := hkeeps'.decided pfx
  generalize (Machine.run step (new n) calls).routes.lookup pfx = routes at *
  generalize (Machine.run step (new n') calls').routes.lookup pfx = routes' at *
  cases routes with
  | none =>
    refine ⟨?_, hholds.empty_iff.mp rfl⟩
    cases routes' with
    | none => rfl
    | some l' => exact absurd (hnil.mp rfl) (hdecided' l' rfl).1
  | some l =>
    obtain ⟨hne, hself⟩ := hdecided l rfl
    refine ⟨?_, hholds.chosen hne hself, fun e => ?_⟩
    · cases routes' with
      | none => exact absurd (hnil.mpr rfl) hne
      | some l' =>
        have heq : Bgp.decideList l = Bgp.decideList l' := hholds.decideList_eq hholds'
        rw [← hself, ← (hdecided' l' rfl).2, heq]
    · rw [hholds.mem e.key e]
      simp

/-- Two paths in either order, the second of them first withdrawn once. -/
theorem live_swapped (a b : AddPathRibEntry) (h : a.key ≠ b.key) (p pfx : Ipv4Prefix)
    (k : Ipv4Address × UInt32) :
    live [.insertPath p a, .insertPath p b] pfx k =
      live [.insertPath p b, .withdrawPath p b.peerIp b.pathId, .insertPath p b,
        .insertPath p a] pfx k := by
  simp only [live, Machine.run, List.foldl_cons, List.foldl_nil, LivePaths.step]
  split_ifs <;> simp_all [key]

theorem routes_of_live_swapped :
    let p := Ipv4Prefix.new ⟨10, 0, 0, 0⟩ 8
    let a := AddPathRibEntry.new 1 ⟨1, 1, 1, 1⟩ ⟨1, 1, 1, 1⟩ .empty
    let b := AddPathRibEntry.new 2 ⟨1, 1, 1, 1⟩ ⟨2, 2, 2, 2⟩ .empty
    (Machine.run step (new 4) [.insertPath p a, .insertPath p b]).routes.lookup p =
      (Machine.run step (new 1) [.insertPath p b, .withdrawPath p b.peerIp b.pathId,
        .insertPath p b, .insertPath p a]).routes.lookup p :=
  (routes_of_live 4 1 _ _ (live_swapped _ _ (by decide) _) _).1

end AddPathRib

end ToyTcpip.Bgp

import ToyTcpip.Lib.Favour
import ToyTcpip.Stack.DefaultRouter

/-! Which default router a host selects, and when that does not depend on its hash maps. -/
namespace ToyTcpip.NetStack

open Hashed (HashMap HashOrder)

variable {τ : Type} {s : NetStack τ} {c d : Candidate}

/-- An entry of the learned routes. -/
abbrev RaEntry := Sigma fun _ : RaRouteKey => Option ℕ × RouterPreference

/-- The `::/0` route that a router advertised. -/
def defaultRio (s : NetStack τ) (router : Ipv6Address) : Option (Option ℕ × RouterPreference) :=
  s.ipv6RaRoutes.lookup (.unspecified, 0, router)

/-- A router with its deadline and preference: of its `::/0` route, or else of its advertisement. -/
def IsCandidate (s : NetStack τ) (c : Candidate) : Prop :=
  s.defaultRio c.1 = some c.2 ∨ s.defaultRio c.1 = none ∧ c ∈ s.ipv6DefaultRouters

/-- A candidate whose lifetime has not expired. -/
def ValidCandidate (s : NetStack τ) (c : Candidate) : Prop :=
  s.IsCandidate c ∧ stillValid s.currentTimeMs c.2.1 = true

/-- No valid candidate is reached better, or as well with a higher preference. -/
def BestCandidate (s : NetStack τ) (c : Candidate) : Prop :=
  s.ValidCandidate c ∧ ∀ d, s.ValidCandidate d → s.score d.1 d.2.2 ≤ s.score c.1 c.2.2

/-! ### The candidates in the order they are looked at -/

/-- A listed router with what its `::/0` route says, if it has one. -/
def overridden (es : List RaEntry) (c : Candidate) : Candidate :=
  (c.1, (es.dlookup (.unspecified, 0, c.1)).getD c.2)

/-- The candidate that an entry adds to the listed routers. -/
def ownCandidate (listed : List Candidate) (e : RaEntry) : Option Candidate :=
  if (e.1.2.1 = 0 ∧ e.1.1 = .unspecified) ∧ e.1.2.2 ∉ listed.map Prod.fst then some (e.1.2.2, e.2)
  else none

theorem overridden_cons_of_ne {e : RaEntry} {es : List RaEntry}
    (h : e.1 ≠ (.unspecified, 0, c.1)) : overridden (e :: es) c = overridden es c := by
  obtain ⟨k, v⟩ := e
  have hne : ((.unspecified, 0, c.1) : RaRouteKey) ≠ k := Ne.symm h
  simp only [overridden]
  rw [List.dlookup_cons_ne _ _ hne]

theorem overridden_of_notMem {c : Candidate} {es : List RaEntry}
    (h : ((.unspecified, 0, c.1) : RaRouteKey) ∉ es.keys) : overridden es c = c := by
  simp only [overridden, List.dlookup_eq_none.mpr h, Option.getD_none]

theorem ownCandidate_congr {l l' : List Candidate} (h : l.map Prod.fst = l'.map Prod.fst) :
    ownCandidate l = ownCandidate l' := by
  funext e
  simp only [ownCandidate, h]

theorem foldl_addRioCandidate {es : List RaEntry} {listed : List Candidate} (hes : es.NodupKeys)
    (hlisted : (listed.map Prod.fst).Nodup) :
    es.foldl addRioCandidate listed =
      listed.map (overridden es) ++ es.filterMap (ownCandidate listed) := by
  induction es generalizing listed with
  | nil =>
    have hid : listed.map (overridden []) = listed := List.map_id listed
    simp [hid]
  | cons e es ih =>
    obtain ⟨⟨pfx, len, router⟩, v⟩ := e
    obtain ⟨hnew, htail⟩ := List.nodupKeys_cons.mp hes
    rw [List.foldl_cons, List.filterMap_cons]
    by_cases hrio : len = 0 ∧ pfx = .unspecified
    · obtain ⟨rfl, rfl⟩ := hrio
      have hstep : addRioCandidate listed ⟨(.unspecified, 0, router), v⟩ =
          Routing.replaceOrPush (fun c => c.1 = router) (router, v) listed := by
        simp [addRioCandidate]
      rw [hstep]
      by_cases hmem : router ∈ listed.map Prod.fst
      · -- The entry of the router is replaced in place.
        have hown : ownCandidate listed ⟨(.unspecified, 0, router), v⟩ = none := by
          simp only [ownCandidate, hmem, not_true_eq_false, and_false, ↓reduceIte]
        have hkeys := keys_replaced router v listed
        rw [replaceOrPush_of_mem hlisted hmem, ih htail (by rwa [hkeys]),
          ownCandidate_congr hkeys, hown]
        congr 1
        rw [replaced, List.map_map]
        refine List.map_congr_left fun c _ => ?_
        dsimp only [Function.comp]
        by_cases hc : c.1 = router
        · subst hc
          rw [if_pos rfl, @overridden_of_notMem (c.1, v) es hnew, overridden, List.dlookup_cons_eq,
            Option.getD_some]
        · rw [if_neg hc, overridden_cons_of_ne (by simpa using Ne.symm hc)]
      · have hown : ownCandidate listed ⟨(.unspecified, 0, router), v⟩ = some (router, v) := by
          simp only [ownCandidate, hmem, not_false_eq_true, and_self, ↓reduceIte]
        have hpushed : ((listed ++ [(router, v)]).map Prod.fst).Nodup := by
          rw [List.map_append]
          exact List.nodup_append.mpr ⟨hlisted, by simp, fun a ha b hb heq => hmem (by simp_all)⟩
        rw [replaceOrPush_of_not_mem hmem, ih htail hpushed, hown, List.map_append,
          List.append_assoc]
        have hlist : listed.map (overridden es) =
            listed.map (overridden (⟨(.unspecified, 0, router), v⟩ :: es)) := by
          refine List.map_congr_left fun c hc => (overridden_cons_of_ne fun heq => ?_).symm
          have hrouter : router = c.1 := by simpa using heq
          exact hmem (hrouter ▸ List.mem_map_of_mem hc)
        have hrest : es.filterMap (ownCandidate (listed ++ [(router, v)])) =
            es.filterMap (ownCandidate listed) := by
          refine List.filterMap_congr fun e he => ?_
          obtain ⟨⟨pfx, len, other⟩, w⟩ := e
          by_cases hkey : len = 0 ∧ pfx = .unspecified
          · obtain ⟨rfl, rfl⟩ := hkey
            have hin := List.mem_keys_of_mem he
            have hne : other ≠ router := fun heq => hnew (heq ▸ hin)
            simp only [ownCandidate, List.map_append, List.map_cons, List.map_nil, List.mem_append,
              List.mem_singleton, hne, or_false]
          · simp [ownCandidate, hkey]
        rw [hlist, hrest, List.map_cons, List.map_nil, overridden_of_notMem hnew]
        rfl
    · have hstep : addRioCandidate listed ⟨(pfx, len, router), v⟩ = listed := by
        rw [addRioCandidate, if_pos]
        rw [not_and_or] at hrio
        exact hrio
      have hown : ownCandidate listed ⟨(pfx, len, router), v⟩ = none := by
        rw [ownCandidate, if_neg]
        exact fun h => hrio h.1
      have hlist : listed.map (overridden (⟨(pfx, len, router), v⟩ :: es)) =
          listed.map (overridden es) := by
        refine List.map_congr_left fun c _ => overridden_cons_of_ne ?_
        simp only [ne_eq, Prod.mk.injEq, not_and]
        exact fun hpfx hlen => absurd ⟨hlen, hpfx⟩ hrio
      rw [hstep, ih htail hlisted, hown, hlist]

/-! ### The valid ones -/

/-- The score that candidates are compared by. -/
def scoreOf (s : NetStack τ) (c : Candidate) : ℕ ×ₗ ℕ := s.score c.1 c.2.2

/-- The valid candidates among the listed routers. -/
def listedCandidates (s : NetStack τ) : List Candidate :=
  (s.ipv6DefaultRouters.map (overridden s.ipv6RaRoutes.entries)).filter fun c =>
    stillValid s.currentTimeMs c.2.1

/-- The valid candidates of the learned routes alone, in the order of the entries. -/
def learnedCandidates (s : NetStack τ) (es : List RaEntry) : List Candidate :=
  (es.filterMap (ownCandidate s.ipv6DefaultRouters)).filter fun c =>
    stillValid s.currentTimeMs c.2.1

theorem bestDefaultRouter_eq (h : s.DistinctRouters) (o : HashOrder) :
    s.bestDefaultRouter = Favour.choose s.scoreOf s.ipv6Gateway
      (s.listedCandidates ++ s.learnedCandidates (HashOrder.iter s.ipv6RaRoutes.entries)) := by
  have hperm := HashOrder.perm s.ipv6RaRoutes.entries
  have hkeys : (HashOrder.iter s.ipv6RaRoutes.entries).NodupKeys :=
    (List.perm_nodupKeys hperm).mpr s.ipv6RaRoutes.nodupKeys
  have hlookup : overridden (HashOrder.iter s.ipv6RaRoutes.entries) =
      overridden s.ipv6RaRoutes.entries := by
    funext c
    rw [overridden, overridden, List.perm_dlookup _ hkeys hperm]
  have hcandidates : s.ipv6DefaultRouteCandidates.filter (fun c =>
      stillValid s.currentTimeMs c.2.1) =
      s.listedCandidates ++ s.learnedCandidates (HashOrder.iter s.ipv6RaRoutes.entries) := by
    rw [ipv6DefaultRouteCandidates, foldl_addRioCandidate hkeys h, hlookup, List.filter_append]
    rfl
  rw [← hcandidates]
  unfold bestDefaultRouter Favour.choose
  dsimp only
  generalize s.ipv6DefaultRouteCandidates.filter (fun c => stillValid s.currentTimeMs c.2.1) = valid
  have hscores : (valid.map fun c => s.score c.1 c.2.2).max? = (valid.map s.scoreOf).max? := rfl
  rw [hscores]
  cases hm : (valid.map s.scoreOf).max? with
  | none => rfl
  | some best =>
    dsimp only
    congr!

theorem overridden_eq (s : NetStack τ) (c : Candidate) :
    overridden s.ipv6RaRoutes.entries c = (c.1, (s.defaultRio c.1).getD c.2) := rfl

theorem mem_listed : c ∈ s.listedCandidates ↔ stillValid s.currentTimeMs c.2.1 = true ∧
    ∃ d ∈ s.ipv6DefaultRouters, d.1 = c.1 ∧ (s.defaultRio c.1).getD d.2 = c.2 := by
  rw [listedCandidates, List.mem_filter, and_comm, List.mem_map]
  refine and_congr_right fun _ => exists_congr fun d => and_congr_right fun _ => ?_
  rw [overridden_eq]
  constructor
  · rintro rfl
    exact ⟨rfl, rfl⟩
  · rintro ⟨hkey, hv⟩
    rw [hkey, hv]

theorem mem_learned {es : List RaEntry} (hes : es.Perm s.ipv6RaRoutes.entries) :
    c ∈ s.learnedCandidates es ↔ stillValid s.currentTimeMs c.2.1 = true ∧
      s.defaultRio c.1 = some c.2 ∧ c.1 ∉ s.ipv6DefaultRouters.map Prod.fst := by
  rw [learnedCandidates, List.mem_filter, and_comm, List.mem_filterMap]
  refine and_congr_right fun _ => ?_
  have hentry : s.defaultRio c.1 = some c.2 ↔ (⟨(.unspecified, 0, c.1), c.2⟩ : RaEntry) ∈ es := by
    rw [hes.mem_iff]
    exact Hashed.mem_entries.symm
  rw [hentry]
  constructor
  · rintro ⟨⟨⟨pfx, len, router⟩, v⟩, hmem, hown⟩
    unfold ownCandidate at hown
    split at hown
    · rename_i hrio
      obtain ⟨⟨rfl, rfl⟩, hnew⟩ := hrio
      obtain rfl := Option.some.inj hown
      exact ⟨hmem, hnew⟩
    · cases hown
  · rintro ⟨hmem, hnew⟩
    exact ⟨_, hmem, if_pos ⟨⟨rfl, rfl⟩, hnew⟩⟩

/-- Whatever the order of the entries, the candidates are the same. -/
theorem mem_candidates {es : List RaEntry} (hes : es.Perm s.ipv6RaRoutes.entries) :
    c ∈ s.listedCandidates ++ s.learnedCandidates es ↔ s.ValidCandidate c := by
  rw [List.mem_append, mem_listed, mem_learned hes, ← and_or_left, ValidCandidate, and_comm]
  refine and_congr_left fun _ => ?_
  unfold IsCandidate
  constructor
  · rintro (⟨d, hd, hkey, hv⟩ | ⟨hrio, -⟩)
    · cases hrio : s.defaultRio c.1 with
      | none =>
        rw [hrio, Option.getD_none] at hv
        obtain rfl : d = c := Prod.ext hkey hv
        exact .inr ⟨rfl, hd⟩
      | some v =>
        rw [hrio, Option.getD_some] at hv
        exact .inl (hv ▸ rfl)
    · exact .inl hrio
  · rintro (hrio | ⟨hrio, hc⟩)
    · by_cases hlisted : c.1 ∈ s.ipv6DefaultRouters.map Prod.fst
      · obtain ⟨d, hd, hkey⟩ := List.mem_map.mp hlisted
        exact .inl ⟨d, hd, hkey, by rw [hrio, Option.getD_some]⟩
      · exact .inr ⟨hrio, hlisted⟩
    · exact .inl ⟨c, hc, rfl, by rw [hrio, Option.getD_none]⟩

theorem keys_candidates (h : s.DistinctRouters) {es : List RaEntry}
    (hes : es.Perm s.ipv6RaRoutes.entries) :
    ((s.listedCandidates ++ s.learnedCandidates es).map Prod.fst).Nodup := by
  rw [List.map_append, List.nodup_append]
  have hlisted : (s.listedCandidates.map Prod.fst).Sublist (s.ipv6DefaultRouters.map Prod.fst) := by
    refine (List.filter_sublist.map _).trans ?_
    rw [List.map_map]
    exact List.Sublist.refl _
  refine ⟨List.Nodup.sublist hlisted h, ?_, ?_⟩
  · -- Two entries of one router would have one key.
    have hkeys : es.Pairwise fun e e' => e.1 ≠ e'.1 :=
      List.nodupKeys_iff_pairwise.mp ((List.perm_nodupKeys hes).mpr s.ipv6RaRoutes.nodupKeys)
    have hown : ∀ (e : RaEntry) c, ownCandidate s.ipv6DefaultRouters e = some c →
        e.1 = (.unspecified, 0, c.1) := by
      rintro ⟨⟨pfx, len, router⟩, v⟩ c hc
      unfold ownCandidate at hc
      split at hc
      · rename_i hrio
        obtain ⟨⟨rfl, rfl⟩, -⟩ := hrio
        obtain rfl := Option.some.inj hc
        rfl
      · cases hc
    have hpairs : (s.learnedCandidates es).Pairwise fun c d => c.1 ≠ d.1 := by
      refine List.Pairwise.filter _ (List.pairwise_filterMap.mpr (hkeys.imp ?_))
      intro e e' hne c hc d hd heq
      exact hne ((hown e c hc).trans (by rw [heq, ← hown e' d hd]))
    exact List.pairwise_map.mpr hpairs
  · rintro a ha b hb rfl
    obtain ⟨c, hc, rfl⟩ := List.mem_map.mp hb
    exact ((mem_learned hes).mp hc).2.2 (hlisted.subset ha)

/-! ### The selected router -/

theorem selectIpv6DefaultRouter_gateway [HashOrder] (s : NetStack τ) :
    s.selectIpv6DefaultRouter.ipv6Gateway = s.bestDefaultRouter := by
  have hset : ∀ gateway, (s.setIpv6DefaultGateway gateway).ipv6Gateway = gateway := by
    intro gateway
    unfold setIpv6DefaultGateway addGateway
    cases gateway <;> rfl
  have hif : (if s.ipv6Gateway ≠ s.bestDefaultRouter then
      s.setIpv6DefaultGateway s.bestDefaultRouter else s).ipv6Gateway = s.bestDefaultRouter := by
    split
    · exact hset _
    · rename_i heq
      exact not_not.mp heq
  exact hif

theorem bestCandidate_iff {es : List RaEntry} (hes : es.Perm s.ipv6RaRoutes.entries) :
    Favour.Best s.scoreOf (s.listedCandidates ++ s.learnedCandidates es) c ↔ s.BestCandidate c := by
  simp only [Favour.Best, mem_candidates hes]
  rfl

/-- What a selection is for: a router of a best valid candidate, the current one if it is one. -/
structure Selects (s : NetStack τ) (chosen : Option Ipv6Address) : Prop where
  best : ∀ router, chosen = some router → ∃ c, s.BestCandidate c ∧ c.1 = router
  some_of_valid : chosen = none → ∀ c, ¬ s.ValidCandidate c
  stable : ∀ c, s.BestCandidate c → s.ipv6Gateway = some c.1 → chosen = s.ipv6Gateway

theorem selects (h : s.DistinctRouters) (o : HashOrder) :
    s.Selects (@selectIpv6DefaultRouter τ o s).ipv6Gateway := by
  have hes := o.perm s.ipv6RaRoutes.entries
  rw [selectIpv6DefaultRouter_gateway, bestDefaultRouter_eq h o]
  obtain ⟨hnone, hsome⟩ := @Favour.choose_spec _ _ _ _ _ s.scoreOf s.ipv6Gateway
    (s.listedCandidates ++ s.learnedCandidates (o.iter s.ipv6RaRoutes.entries))
  refine ⟨fun router heq => ?_, fun heq c hc => ?_, fun c hc hgateway => ?_⟩
  · obtain ⟨c, hc, hkey⟩ := hsome router heq
    exact ⟨c, (bestCandidate_iff hes).mp hc, hkey⟩
  · have hmem := (mem_candidates hes).mpr hc
    rw [hnone.mp heq] at hmem
    cases hmem
  · rw [hgateway]
    exact Favour.choose_current (keys_candidates h hes) ((bestCandidate_iff hes).mpr hc)

/-- The order in which the hash maps are gone through does not matter. -/
def OrderFree (s : NetStack τ) : Prop :=
  ∀ o o' : HashOrder, (@selectIpv6DefaultRouter τ o s).ipv6Gateway =
    (@selectIpv6DefaultRouter τ o' s).ipv6Gateway

/-- The current router is among the best, or a router that advertised itself as one is, or only one
router is. -/
def TieBroken (s : NetStack τ) : Prop :=
  (∃ c, s.BestCandidate c ∧ s.ipv6Gateway = some c.1) ∨
  (∃ c, s.BestCandidate c ∧ c.1 ∈ s.ipv6DefaultRouters.map Prod.fst) ∨
  ∀ c d, s.BestCandidate c → s.BestCandidate d → c.1 = d.1

/-- A hash map that is gone through from its `i`-th entry on. -/
@[reducible] def startingAt (i : ℕ) : HashOrder :=
  ⟨fun l => l.rotate i, fun l => List.rotate_perm l i⟩

theorem learned_perm {es : List RaEntry} (hes : es.Perm s.ipv6RaRoutes.entries) :
    (s.learnedCandidates es).Perm (s.learnedCandidates s.ipv6RaRoutes.entries) :=
  (hes.filterMap _).filter _

theorem orderFree_of_tieBroken (h : s.DistinctRouters) (ht : s.TieBroken) : s.OrderFree := by
  have hself := List.Perm.refl s.ipv6RaRoutes.entries
  have hkeys := keys_candidates h hself
  have hsettled : Favour.Settled s.scoreOf s.ipv6Gateway s.listedCandidates
      (s.learnedCandidates s.ipv6RaRoutes.entries) := by
    rcases ht with ⟨c, hc, hcurrent⟩ | ⟨c, hc, hlisted⟩ | hone
    · exact .inl ⟨c, (bestCandidate_iff hself).mpr hc, hcurrent⟩
    · refine .inr (.inl ⟨c, ?_, (bestCandidate_iff hself).mpr hc⟩)
      rcases List.mem_append.mp ((mem_candidates hself).mpr hc.1) with hmem | hmem
      · exact hmem
      · exact absurd hlisted ((mem_learned hself).mp hmem).2.2
    · refine .inr (.inr fun c d hc hd => ?_)
      have heq := hone c d ((bestCandidate_iff hself).mp hc) ((bestCandidate_iff hself).mp hd)
      exact List.inj_on_of_nodup_map hkeys hc.1 hd.1 heq
  have hchoice : ∀ o : HashOrder, (@selectIpv6DefaultRouter τ o s).ipv6Gateway =
      Favour.choose s.scoreOf s.ipv6Gateway
        (s.listedCandidates ++ s.learnedCandidates s.ipv6RaRoutes.entries) := by
    intro o
    rw [selectIpv6DefaultRouter_gateway, bestDefaultRouter_eq h o]
    exact Favour.choose_of_perm hkeys hsettled (learned_perm (o.perm _))
  intro o o'
  rw [hchoice o, hchoice o']

/-- Otherwise any best router is selected if its route comes first. -/
theorem selected_of_first (h : s.DistinctRouters) (hc : s.BestCandidate c)
    (hcurrent : ∀ d, s.BestCandidate d → s.ipv6Gateway ≠ some d.1)
    (hlisted : ∀ d, s.BestCandidate d → d.1 ∉ s.ipv6DefaultRouters.map Prod.fst) :
    ∃ o : HashOrder, (@selectIpv6DefaultRouter τ o s).ipv6Gateway = some c.1 := by
  have hself := List.Perm.refl s.ipv6RaRoutes.entries
  have hmem : (⟨(.unspecified, 0, c.1), c.2⟩ : RaEntry) ∈ s.ipv6RaRoutes.entries := by
    rcases hc.1.1 with hrio | ⟨-, hin⟩
    · exact Hashed.mem_entries.mpr hrio
    · exact absurd (List.mem_map_of_mem hin) (hlisted c hc)
  obtain ⟨i, hi, hget⟩ := List.getElem_of_mem hmem
  have hiter : s.ipv6RaRoutes.entries.rotate i =
      ⟨(.unspecified, 0, c.1), c.2⟩ :: (s.ipv6RaRoutes.entries.drop (i + 1) ++
        s.ipv6RaRoutes.entries.take i) := by
    rw [List.rotate_eq_drop_append_take hi.le, List.drop_eq_getElem_cons hi, hget, List.cons_append]
  have hes : (s.ipv6RaRoutes.entries.rotate i).Perm s.ipv6RaRoutes.entries := List.rotate_perm _ i
  have hown : ownCandidate s.ipv6DefaultRouters ⟨(.unspecified, 0, c.1), c.2⟩ = some c :=
    if_pos ⟨⟨rfl, rfl⟩, hlisted c hc⟩
  obtain ⟨rest, hrest⟩ : ∃ rest, s.learnedCandidates (s.ipv6RaRoutes.entries.rotate i) =
      c :: rest := by
    rw [learnedCandidates, hiter, List.filterMap_cons, hown]
    dsimp only
    exact ⟨_, List.filter_cons_of_pos hc.1.2⟩
  refine ⟨startingAt i, ?_⟩
  rw [@selectIpv6DefaultRouter_gateway τ (startingAt i), bestDefaultRouter_eq h (startingAt i)]
  have hbest : ∀ d, Favour.Best s.scoreOf (s.listedCandidates ++ c :: rest) d ↔
      s.BestCandidate d := by
    intro d
    rw [← hrest]
    exact bestCandidate_iff hes
  have hkeys := keys_candidates h hes
  rw [hrest] at hkeys
  change Favour.choose _ _ (s.listedCandidates ++
    s.learnedCandidates (s.ipv6RaRoutes.entries.rotate i)) = _
  rw [hrest]
  refine Favour.choose_first hkeys ((hbest c).mpr hc) (fun d hd => hcurrent d ((hbest d).mp hd)) ?_
  intro d hd hdbest
  obtain ⟨-, e, he, hkey, -⟩ := mem_listed.mp hd
  exact hlisted d ((hbest d).mp hdbest) (hkey ▸ List.mem_map_of_mem he)

theorem orderFree_iff (h : s.DistinctRouters) : s.OrderFree ↔ s.TieBroken := by
  refine ⟨fun hfree => ?_, orderFree_of_tieBroken h⟩
  by_contra ht
  unfold TieBroken at ht
  push Not at ht
  obtain ⟨hcurrent, hlisted, c, d, hc, hd, hne⟩ := ht
  obtain ⟨o, ho⟩ := selected_of_first h hc hcurrent hlisted
  obtain ⟨o', ho'⟩ := selected_of_first h hd hcurrent hlisted
  have heq := hfree o o'
  rw [ho, ho'] at heq
  exact hne (Option.some.inj heq)

/-- A selection is always of a best valid router and keeps the current one if that is possible, and
it is a function of the routers exactly if the tie between the best ones is broken by what does not
come out of a hash map. The hosts it is about include every reachable one. -/
theorem default_router_function_iff :
    (∀ s : NetStack τ, s.DistinctRouters →
      (∀ o : HashOrder, s.Selects (@selectIpv6DefaultRouter τ o s).ipv6Gateway) ∧
      (s.OrderFree ↔ s.TieBroken)) ∧
    ∀ (_ : HashOrder) (_ : Transports τ) (config : NetStackConfig) (transports : τ)
      (calls : List (Call τ)), (Machine.run step (new config transports) calls).DistinctRouters :=
  ⟨fun _ h => ⟨selects h, orderFree_iff h⟩, fun _ _ config transports calls =>
    distinctRouters_run config transports calls⟩

/-! ### Two routers that nothing tells apart -/

def routerHost : NetStackConfig := ⟨labMac 1, ⟨10, 0, 0, 1⟩, none, 24, none⟩

/-- The router `fe80::n`. -/
def routerAt (n : UInt8) : Ipv6Address := ⟨#v[0xfe, 0x80, 0, 0, 0, 0, 0, 0, 0, 0, 0, 0, 0, 0, 0, n]⟩

/-- Three routers offer `::/0`, the first one with a higher preference, and it withdraws its
offer. -/
def offers [HashOrder] : NetStack Unit :=
  let s := (new routerHost ()).refreshIpv6RaRoute (routerAt 1) .unspecified 0 .high 1800
  let s := s.refreshIpv6RaRoute (routerAt 2) .unspecified 0 .medium 1800
  let s := s.refreshIpv6RaRoute (routerAt 3) .unspecified 0 .medium 1800
  s.refreshIpv6RaRoute (routerAt 1) .unspecified 0 .high 0

/-- A host without a default router that has heard of two. -/
def twoOffers : NetStack Unit :=
  { new routerHost () with
    ipv6RaRoutes := ((∅ : Hashed.HashMap RaRouteKey (Option ℕ × RouterPreference)).insert
      (.unspecified, 0, routerAt 2) (some 1800000, .medium)).insert
      (.unspecified, 0, routerAt 3) (some 1800000, .medium) }

theorem distinctRouters_twoOffers : twoOffers.DistinctRouters := List.nodup_nil

theorem default_router_function_iff_twoOffers :
    twoOffers.Selects (@selectIpv6DefaultRouter Unit Hashed.latestFirst twoOffers).ipv6Gateway ∧
      (twoOffers.OrderFree ↔ twoOffers.TieBroken) :=
  have h := (@default_router_function_iff Unit).1 twoOffers distinctRouters_twoOffers
  ⟨h.1 Hashed.latestFirst, h.2⟩

/-- The same history gives two default routers, as the hash map is gone through. -/
theorem default_router_follows_hash_order :
    (@offers (startingAt 0)).ipv6Gateway = some (routerAt 3) ∧
      (@offers (startingAt 1)).ipv6Gateway = some (routerAt 2) ∧ ¬ twoOffers.OrderFree := by
  refine ⟨by decide +kernel, by decide +kernel, fun h => ?_⟩
  have hsame := h (startingAt 0) (startingAt 1)
  exact absurd hsame (by decide +kernel)

end ToyTcpip.NetStack

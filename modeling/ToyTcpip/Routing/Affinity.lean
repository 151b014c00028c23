import ToyTcpip.Routing.Lookup

/-! Rendezvous hashing keeps flows where they are when members come and go. -/
namespace ToyTcpip.Routing

open Ranked (Best)

/-! ### The ranking of routes for a flow -/

/-- The order by which a flow chooses: the score first, the route's identity where scores tie. -/
def rankCmp (flowHash : UInt64) (left right : RouteEntry) : Ordering :=
  (compare (resilientRouteScore flowHash left).toNat
    (resilientRouteScore flowHash right).toNat).then
    (routeIdentityCmp left right)

theorem compareGateway_eq (a b : Option Ipv4Address) :
    compareGateway a b = compare (a.map fun g => g.toU32.toNat) (b.map fun g => g.toU32.toNat) := by
  cases a <;> cases b <;> rfl

theorem rankCmp_eq_compareLex (flowHash : UInt64) : rankCmp flowHash =
    compareLex (compareOn fun e => (resilientRouteScore flowHash e).toNat)
      (compareLex (compareOn fun e => e.destination.toU32.toNat)
        (compareLex (compareOn RouteEntry.prefixLen)
          (compareLex (compareOn fun e => e.gateway.map fun g => g.toU32.toNat)
            (compareLex (compareOn RouteEntry.interface)
              (compareOn fun e => e.source.asStr))))) := by
  funext a b
  simp only [rankCmp, routeIdentityCmp, compareGateway_eq, compareLex, compareOn]

instance (flowHash : UInt64) : Std.TransCmp (rankCmp flowHash) := by
  rw [rankCmp_eq_compareLex]
  infer_instance

theorem asStr_injective : Function.Injective RouteSource.asStr := by
  intro a b h
  cases a <;> cases b <;> first | rfl | simp [RouteSource.asStr] at h

/-- Built by the constructor. -/
def RouteEntry.Built (e : RouteEntry) : Prop := e.prefixLen ≤ 32 ∧ e.netmask = netmaskOf e.prefixLen

variable {flowHash : UInt64} {a b e : RouteEntry} {ip : Ipv4Address} {t : RoutingTable}

/-- Two routes tie only if they are the same. -/
theorem eq_of_rankCmp_eq (ha : a.Built) (hb : b.Built)
    (h : rankCmp flowHash a b = .eq) : a = b := by
  rw [rankCmp_eq_compareLex] at h
  simp only [compareLex, compareOn, Ordering.then_eq_eq, Std.LawfulEqOrd.compare_eq_iff_eq] at h
  obtain ⟨-, hdest, hlen, hgateway, hinterface, hsource⟩ := h
  have hdest : a.destination = b.destination :=
    Ipv4Address.toU32_injective (BitVec.eq_of_toNat_eq hdest)
  have hgateway : a.gateway = b.gateway :=
    Option.map_injective (fun x y hxy =>
      Ipv4Address.toU32_injective (BitVec.eq_of_toNat_eq hxy)) hgateway
  have hmask : a.netmask = b.netmask := by rw [ha.2, hb.2, hlen]
  have hsource := asStr_injective hsource
  cases a
  cases b
  simp_all

/-! ### The route a flow is given -/

/-- One of the best routes, and no best route outranks it. -/
def Selected (l : List RouteEntry) (ip : Ipv4Address) (flowHash : UInt64) (e : RouteEntry) : Prop :=
  Best RouteEntry.prefixLen RouteEntry.distance (fun r => InPrefix r ip) l e ∧
    ∀ r, Best RouteEntry.prefixLen RouteEntry.distance (fun r => InPrefix r ip) l r →
      (rankCmp flowHash e r).isGE

theorem Ordered.lookupResilient_eq_some (h : Ordered t) :
    t.lookupResilientRouteByHash ip flowHash = some e ↔ Selected t.routes ip flowHash e := by
  have hbuilt : ∀ r ∈ t.lookupBestRoutes ip, r.Built := fun r hr =>
    h.built r (h.mem_lookupBestRoutes.mp hr).mem
  rw [RoutingTable.lookupResilientRouteByHash]
  refine (@Ranked.maxBy_eq_some _ _ _ (rankCmp flowHash) _ fun a ha b hb =>
    eq_of_rankCmp_eq (hbuilt a ha) (hbuilt b hb)).trans ?_
  simp only [h.mem_lookupBestRoutes]
  rfl

/-! ### Members come and go -/

/-- What makes a route one member among others: a destination that differs only in its host bits
does not. -/
def RouteEntry.member (e : RouteEntry) :
    (Ipv4Address × ℕ) × Option Ipv4Address × String × RouteSource :=
  (e.key, e.gateway, e.interface, e.source)

theorem mem_addMultipath {destination : Ipv4Address} {len : ℕ} {gateway : Option Ipv4Address}
    {interface : String} {source : RouteSource} :
    let added := RouteEntry.withSource destination len gateway interface source
    e ∈ (t.addMultipathRouteFrom destination len gateway interface source).routes ↔
      e ∈ t.routes ∨ e = added ∧ ∀ r ∈ t.routes, r.member ≠ added.member := by
  intro added
  have hdup : ∀ r : RouteEntry, (r.key = added.key ∧ r.gateway = added.gateway ∧
      r.interface = added.interface ∧ r.source = added.source) ↔ r.member = added.member := by
    simp [RouteEntry.member]
  change e ∈ (if t.routes.any _ then t else _ : RoutingTable).routes ↔ _
  split_ifs with h
  · obtain ⟨r, hr, hsame⟩ := List.any_eq_true.mp h
    have hmember := (hdup r).mp (of_decide_eq_true hsame)
    exact ⟨.inl, fun hin => hin.resolve_right fun hnew => hnew.2 r hr hmember⟩
  · have hfresh : ∀ r ∈ t.routes, r.member ≠ added.member := fun r hr hm =>
      h (List.any_eq_true.mpr ⟨r, hr, decide_eq_true ((hdup r).mpr hm)⟩)
    rw [RoutingTable.sort, Ranked.mem_arrange, List.mem_append, List.mem_singleton]
    exact or_congr_right (and_iff_left hfresh).symm

/-- What is best in a table is best among any of its routes that keep it. -/
theorem best_of_subset {l l' : List RouteEntry} {len dist : RouteEntry → ℕ} {p : RouteEntry → Prop}
    (hsub : ∀ r ∈ l', r ∈ l) (h : Best len dist p l e) (he : e ∈ l') : Best len dist p l' e :=
  ⟨he, h.fits, fun r hr => h.longest r (hsub r hr), fun r hr => h.nearest r (hsub r hr)⟩

/-- What is best besides a best route of the larger table is best in the larger one too. -/
theorem best_of_best {l l' : List RouteEntry} {len dist : RouteEntry → ℕ} {p : RouteEntry → Prop}
    (hsub : ∀ r ∈ l', r ∈ l) (h : Best len dist p l e) (he : e ∈ l') (ha : Best len dist p l' a) :
    Best len dist p l a := by
  have hlen : len a = len e :=
    le_antisymm (h.longest a (hsub a ha.mem) ha.fits) (ha.longest e he h.fits)
  have hdist : dist a ≤ dist e := ha.nearest e he h.fits hlen.symm
  refine ⟨hsub a ha.mem, ha.fits, fun r hr hp => ?_, fun r hr hp heq => ?_⟩
  · rw [hlen]
    exact h.longest r hr hp
  · exact hdist.trans (h.nearest r hr hp (heq.trans hlen))

/-- A flow keeps its route while the route stays and others go. -/
theorem Selected.of_subset {l l' : List RouteEntry} (h : Selected l ip flowHash e)
    (hsub : ∀ r ∈ l', r ∈ l) (he : e ∈ l') : Selected l' ip flowHash e :=
  ⟨best_of_subset hsub h.1 he, fun r hr => h.2 r (best_of_best hsub h.1 he hr)⟩

/-- Taking away a member that a flow does not use leaves the flow's route as it is. -/
theorem Ordered.lookup_removeRouteVia (h : Ordered t) {destination : Ipv4Address} {len : ℕ}
    {gateway : Option Ipv4Address} {interface : String} {source : RouteSource}
    (he : t.lookupResilientRouteByHash ip flowHash = some e)
    (hkept : e ∈ (t.removeRouteVia destination len gateway interface source).routes) :
    (t.removeRouteVia destination len gateway interface source).lookupResilientRouteByHash ip
      flowHash = some e := by
  rw [h.lookupResilient_eq_some] at he
  refine (h.filter _).lookupResilient_eq_some.mpr (he.of_subset (fun r hr => ?_) hkept)
  exact List.mem_of_mem_filter hr

theorem Ordered.lookupResilient_eq_none (h : Ordered t) :
    t.lookupResilientRouteByHash ip flowHash = none ↔ ∀ r ∈ t.routes, ¬ InPrefix r ip :=
  (h.lookupResilientRouteByHash flowHash).1.trans h.lookup_none

/-- Another member takes the flow over or leaves it where it is. -/
theorem Ordered.lookup_addMultipath (h : Ordered t) (destination : Ipv4Address) (len : ℕ)
    (gateway : Option Ipv4Address) (interface : String) (source : RouteSource) :
    let t' := t.addMultipathRouteFrom destination len gateway interface source
    let added := RouteEntry.withSource destination len gateway interface source
    t'.lookupResilientRouteByHash ip flowHash = t.lookupResilientRouteByHash ip flowHash ∨
      t'.lookupResilientRouteByHash ip flowHash = some added := by
  intro t' added
  have h' : Ordered t' := h.step (.addMultipathRouteFrom destination len gateway interface source)
  have hsub : ∀ r ∈ t.routes, r ∈ t'.routes := fun r hr => mem_addMultipath.mpr (.inl hr)
  cases hl : t'.lookupResilientRouteByHash ip flowHash with
  | none =>
    left
    rw [eq_comm, h.lookupResilient_eq_none]
    exact fun r hr => h'.lookupResilient_eq_none.mp hl r (hsub r hr)
  | some e =>
    have he := h'.lookupResilient_eq_some.mp hl
    rcases mem_addMultipath.mp he.1.mem with hold | ⟨rfl, -⟩
    · left
      exact (h.lookupResilient_eq_some.mpr (he.of_subset hsub hold)).symm
    · exact .inr rfl

/-! ### Tables filled with members in some order -/

/-- The arguments of one `add_multipath_route_from`. -/
structure Candidate where
  destination : Ipv4Address
  len : ℕ
  gateway : Option Ipv4Address
  interface : String
  source : RouteSource
  deriving DecidableEq

namespace Candidate

def call (c : Candidate) : RouteCall Ipv4Address :=
  .addMultipathRouteFrom c.destination c.len c.gateway c.interface c.source

def entry (c : Candidate) : RouteEntry :=
  .withSource c.destination c.len c.gateway c.interface c.source

theorem built_entry (c : Candidate) : c.entry.Built := ⟨min_le_right _ _, rfl⟩

end Candidate

/-- The table after the members were inserted in this order. -/
def inserted (members : List Candidate) : RoutingTable := .run (members.map Candidate.call)

/-- The first of the routes of its member. -/
def Stands (l : List RouteEntry) (e : RouteEntry) : Prop :=
  l.find? (fun r => r.member = e.member) = some e

variable {members ms : List Candidate}

/-- Of the routes of one member the first inserted is stored. -/
theorem mem_inserted : e ∈ (inserted ms).routes ↔ Stands (ms.map Candidate.entry) e := by
  induction ms using List.reverseRecOn generalizing e with
  | nil => simp [inserted, RoutingTable.run, RoutingTable.new, Stands]
  | append_singleton ms c ih =>
    have hstored : e ∈ (inserted (ms ++ [c])).routes ↔ Stands (ms.map Candidate.entry) e ∨
        e = c.entry ∧ ∀ r, Stands (ms.map Candidate.entry) r → r.member ≠ c.entry.member := by
      have hstep : inserted (ms ++ [c]) = (inserted ms).step c.call := by
        simp [inserted, RoutingTable.run]
      simp only [hstep, ← ih]
      exact mem_addMultipath
    rw [hstored]
    unfold Stands
    rw [List.map_append, List.find?_append]
    cases hf : (ms.map Candidate.entry).find? (fun r => r.member = e.member) with
    | some x =>
      have hx : x.member = e.member := by simpa using List.find?_some hf
      have hstands : Stands (ms.map Candidate.entry) x := by rw [Stands, hx, hf]
      simp only [Option.some_or, Option.some.injEq, or_iff_left_iff_imp, and_imp]
      rintro rfl hno
      exact absurd hx (hno x hstands)
    | none =>
      have hnone : ∀ r, Stands (ms.map Candidate.entry) r → r.member ≠ e.member := by
        intro r hr heq
        have hin := List.mem_of_find?_eq_some hr
        simpa [heq] using List.find?_eq_none.mp hf r hin
      simp only [Option.none_or, List.map_cons, List.map_nil, List.find?_singleton,
        reduceCtorEq, false_or, Option.ite_none_right_eq_some, decide_eq_true_eq, Option.some.injEq]
      constructor
      · rintro ⟨rfl, -⟩
        exact ⟨rfl, rfl⟩
      · rintro ⟨-, rfl⟩
        exact ⟨rfl, hnone⟩

theorem inPrefix_of_member (ha : a.Built) (hb : b.Built) (h : a.member = b.member)
    (hip : InPrefix a ip) : InPrefix b ip := by
  have hkey : a.key = b.key := congrArg Prod.fst h
  have hlen : a.prefixLen = b.prefixLen := congrArg Prod.snd hkey
  have hmask : a.destination.mask a.prefixLen = b.destination.mask a.prefixLen := by
    have hfirst := congrArg Prod.fst hkey
    rwa [RouteEntry.key, RouteEntry.key, ← hlen] at hfirst
  rw [Ipv4Address.mask_eq_mask_iff ha.1] at hmask
  rw [← matchesAddr_iff ha.1 ha.2, RouteEntry.matchesAddr, decide_eq_true_iff] at hip
  rw [← matchesAddr_iff hb.1 hb.2, RouteEntry.matchesAddr, decide_eq_true_iff, hb.2, ← hlen,
    ← hmask, ← ha.2]
  exact hip

/-- Among the best of all the members inserted. -/
def BestOffered (ms : List Candidate) (ip : Ipv4Address) (e : RouteEntry) : Prop :=
  Best RouteEntry.prefixLen RouteEntry.distance (fun r => InPrefix r ip) (ms.map Candidate.entry) e

theorem built_of_mem (he : e ∈ ms.map Candidate.entry) : e.Built := by
  obtain ⟨c, -, rfl⟩ := List.mem_map.mp he
  exact c.built_entry

theorem exists_stands {l : List RouteEntry} (he : e ∈ l) :
    ∃ r, Stands l r ∧ r.member = e.member := by
  have hsome : (l.find? fun r => r.member = e.member).isSome :=
    List.find?_isSome.mpr ⟨e, he, decide_eq_true rfl⟩
  obtain ⟨r, hr⟩ := Option.isSome_iff_exists.mp hsome
  have hm : r.member = e.member := by simpa using List.find?_some hr
  exact ⟨r, by rw [Stands, hm, hr], hm⟩

/-- A stored route is best in the table when it is best among all that were inserted. -/
theorem bestRoute_inserted (he : Stands (ms.map Candidate.entry) e) :
    BestRoute (inserted ms) ip e ↔ BestOffered ms ip e := by
  have hmem : ∀ r ∈ (inserted ms).routes, r ∈ ms.map Candidate.entry := fun r hr =>
    List.mem_of_find?_eq_some (mem_inserted.mp hr)
  constructor
  · intro hb
    -- whatever was inserted has a route of its member in the table
    have hstored : ∀ r ∈ ms.map Candidate.entry, InPrefix r ip → ∃ r' ∈ (inserted ms).routes,
        InPrefix r' ip ∧ r'.prefixLen = r.prefixLen ∧ r'.distance = r.distance := by
      intro r hr hip
      obtain ⟨r', hr', hm⟩ := exists_stands hr
      have hin := mem_inserted.mpr hr'
      refine ⟨r', hin, inPrefix_of_member (built_of_mem hr)
        (built_of_mem (hmem r' hin)) hm.symm hip, congrArg (fun m => m.1.2) hm, ?_⟩
      exact congrArg (fun m => RouteSource.distance m.2.2.2) hm
    refine ⟨hmem e hb.mem, hb.fits, fun r hr hip => ?_, fun r hr hip heq => ?_⟩
    · obtain ⟨r', hr', hip', hlen, -⟩ := hstored r hr hip
      rw [← hlen]
      exact hb.longest r' hr' hip'
    · obtain ⟨r', hr', hip', hlen, hdist⟩ := hstored r hr hip
      rw [← hdist]
      exact hb.nearest r' hr' hip' (hlen.trans heq)
  · exact fun hb => best_of_subset hmem hb (mem_inserted.mpr he)

theorem lookup_inserted : (inserted ms).lookupResilientRouteByHash ip flowHash = some e ↔
    Stands (ms.map Candidate.entry) e ∧ BestOffered ms ip e ∧
      ∀ r, Stands (ms.map Candidate.entry) r → BestOffered ms ip r →
        (rankCmp flowHash e r).isGE := by
  have hordered : Ordered (inserted ms) := ordered_run _
  rw [hordered.lookupResilient_eq_some]
  constructor
  · rintro ⟨hbest, hge⟩
    have hstands := mem_inserted.mp hbest.mem
    exact ⟨hstands, (bestRoute_inserted hstands).mp hbest,
      fun r hr hb => hge r ((bestRoute_inserted hr).mpr hb)⟩
  · rintro ⟨hstands, hbest, hge⟩
    refine ⟨(bestRoute_inserted hstands).mpr hbest, fun r hr => ?_⟩
    have hr' := mem_inserted.mp hr.mem
    exact hge r hr' ((bestRoute_inserted hr').mp hr)

theorem lookup_inserted_none : (inserted ms).lookupResilientRouteByHash ip flowHash = none ↔
    ∀ e, ¬ BestOffered ms ip e := by
  have hordered : Ordered (inserted ms) := ordered_run _
  constructor
  · intro hnone e he
    obtain ⟨r, hr, hm⟩ := exists_stands he.mem
    have hbuilt := built_of_mem (List.mem_of_find?_eq_some hr)
    exact hordered.lookupResilient_eq_none.mp hnone r (mem_inserted.mpr hr)
      (inPrefix_of_member (built_of_mem he.mem) hbuilt hm.symm he.fits)
  · intro hno
    cases hl : (inserted ms).lookupResilientRouteByHash ip flowHash with
    | none => rfl
    | some e => exact absurd (lookup_inserted.mp hl).2.1 (hno e)

/-! ### The order of insertion -/

/-- The member a flow is mapped to does not depend on the order in which members were inserted. -/
def SameMember (members : List Candidate) (ip : Ipv4Address) (flowHash : UInt64) : Prop :=
  ∀ ms, ms.Perm members →
    ((inserted ms).lookupResilientRouteByHash ip flowHash).map RouteEntry.member =
      ((inserted members).lookupResilientRouteByHash ip flowHash).map RouteEntry.member

/-- Nor does the stored route, host bits of its destination included. -/
def SameRoute (members : List Candidate) (ip : Ipv4Address) (flowHash : UInt64) : Prop :=
  ∀ ms, ms.Perm members →
    (inserted ms).lookupResilientRouteByHash ip flowHash =
      (inserted members).lookupResilientRouteByHash ip flowHash

/-- One of the best members outranks every other in whichever form either was inserted. -/
def OneOutranks (members : List Candidate) (ip : Ipv4Address) (flowHash : UInt64) : Prop :=
  (∀ e, ¬ BestOffered members ip e) ∨
    ∃ e, BestOffered members ip e ∧ ∀ form other, BestOffered members ip form →
      form.member = e.member → BestOffered members ip other → other.member ≠ e.member →
      rankCmp flowHash form other = .gt

/-- Every best member that was inserted in several forms is outranked in each of them. -/
def FormsOutranked (members : List Candidate) (ip : Ipv4Address) (flowHash : UInt64) : Prop :=
  ∀ e form, BestOffered members ip e → BestOffered members ip form → form.member = e.member →
    form ≠ e → ∃ other, BestOffered members ip other ∧ rankCmp flowHash e other = .lt

theorem bestOffered_perm (h : ms.Perm members) : BestOffered ms ip e ↔
    BestOffered members ip e := by
  have hmem : ∀ r, r ∈ ms.map Candidate.entry ↔ r ∈ members.map Candidate.entry := fun r =>
    (h.map Candidate.entry).mem_iff
  constructor
  · exact fun hb => best_of_subset (fun r hr => (hmem r).mpr hr) hb ((hmem e).mp hb.mem)
  · exact fun hb => best_of_subset (fun r hr => (hmem r).mp hr) hb ((hmem e).mpr hb.mem)

/-- The forms of a member are equally good. -/
theorem BestOffered.of_member (h : BestOffered ms ip e) (ha : a ∈ ms.map Candidate.entry)
    (hm : a.member = e.member) : BestOffered ms ip a := by
  have hlen : a.prefixLen = e.prefixLen := congrArg (fun m => m.1.2) hm
  have hsource : a.source = e.source := congrArg (fun m => m.2.2.2) hm
  have hdist : a.distance = e.distance := congrArg RouteSource.distance hsource
  refine ⟨ha, inPrefix_of_member (built_of_mem h.mem) (built_of_mem ha) hm.symm h.fits,
    fun r hr hip => ?_, fun r hr hip heq => ?_⟩
  · rw [hlen]
    exact h.longest r hr hip
  · rw [hdist]
    exact h.nearest r hr hip (heq.trans hlen)

theorem exists_greatest (flowHash : UInt64) (he : BestOffered members ip e) :
    ∃ w, BestOffered members ip w ∧ ∀ r, BestOffered members ip r →
    (rankCmp flowHash w r).isGE := by
  classical
  let best := (members.map Candidate.entry).filter fun r => BestOffered members ip r
  have hbest : ∀ r, r ∈ best ↔ BestOffered members ip r := by
    intro r
    rw [List.mem_filter, decide_eq_true_iff]
    exact and_iff_right_of_imp Best.mem
  obtain ⟨w, hw⟩ := Option.ne_none_iff_exists'.mp (mt
    (@Ranked.maxBy_eq_none _ _ (rankCmp flowHash)).mp (List.ne_nil_of_mem ((hbest e).mpr he)))
  exact ⟨w, (hbest w).mp (Ranked.mem_of_maxBy hw),
    fun r hr => Ranked.isGE_of_maxBy hw r ((hbest r).mpr hr)⟩

/-- Any member can be inserted first. -/
theorem exists_first (he : e ∈ members.map Candidate.entry) :
    ∃ ms : List Candidate, ms.Perm members ∧ Stands (ms.map Candidate.entry) e := by
  obtain ⟨c, hc, rfl⟩ := List.mem_map.mp he
  exact ⟨c :: members.erase c, (List.perm_cons_erase hc).symm, by simp [Stands]⟩

/-- Any two routes of different members can be inserted first. -/
theorem exists_first_two (ha : a ∈ members.map Candidate.entry)
    (hb : b ∈ members.map Candidate.entry) (hne : b.member ≠ a.member) :
    ∃ ms : List Candidate, ms.Perm members ∧ Stands (ms.map Candidate.entry) a ∧
      Stands (ms.map Candidate.entry) b := by
  obtain ⟨c, hc, rfl⟩ := List.mem_map.mp ha
  obtain ⟨d, hd, rfl⟩ := List.mem_map.mp hb
  have hdc : d ≠ c := by
    rintro rfl
    exact hne rfl
  have hd' : d ∈ members.erase c := (List.mem_erase_of_ne hdc).mpr hd
  refine ⟨c :: d :: (members.erase c).erase d, ?_, by simp [Stands], by simp [Stands, hne.symm]⟩
  exact (((List.perm_cons_erase hd').symm).cons c).trans (List.perm_cons_erase hc).symm

theorem Stands.eq {l : List RouteEntry} (ha : Stands l a) (hb : Stands l b)
    (hm : a.member = b.member) : a = b := by
  unfold Stands at ha hb
  rw [hm, hb] at ha
  exact (Option.some.inj ha).symm

/-- A greatest of the best members is chosen whenever it is the form that is stored. -/
theorem lookup_greatest {w : RouteEntry} (hperm : ms.Perm members) (hw : BestOffered members ip w)
    (hge : ∀ r, BestOffered members ip r → (rankCmp flowHash w r).isGE)
    (hstands : Stands (ms.map Candidate.entry) w) :
    (inserted ms).lookupResilientRouteByHash ip flowHash = some w :=
  lookup_inserted.mpr ⟨hstands, (bestOffered_perm hperm).mpr hw,
    fun r _ hr => hge r ((bestOffered_perm hperm).mp hr)⟩

theorem sameMember_iff : SameMember members ip flowHash ↔ OneOutranks members ip flowHash := by
  constructor
  · intro hsame
    by_cases hnone : ∀ e, ¬ BestOffered members ip e
    · exact .inl hnone
    push Not at hnone
    obtain ⟨e, he⟩ := hnone
    obtain ⟨w, hw, hge⟩ := exists_greatest flowHash he
    refine .inr ⟨w, hw, fun form other hform hm hother hne => ?_⟩
    by_contra hnot
    -- first the order that stores the greatest route, then one that stores the two in its place
    obtain ⟨first, hfirst, hstands⟩ := exists_first hw.mem
    have hchosen := hsame first hfirst
    rw [lookup_greatest hfirst hw hge hstands] at hchosen
    obtain ⟨second, hsecond, hform', hother'⟩ := exists_first_two hform.mem hother.mem
      (hm ▸ hne)
    have hlost := (hsame second hsecond).trans hchosen.symm
    obtain ⟨s, hs, hsm⟩ := Option.map_eq_some_iff.mp hlost
    obtain ⟨hstands', -, hge'⟩ := lookup_inserted.mp hs
    obtain rfl : s = form := hstands'.eq hform' (hsm.trans hm.symm)
    have hle := hge' other hother' ((bestOffered_perm hsecond).mpr hother)
    have htie : rankCmp flowHash s other = .eq := by
      cases hr : rankCmp flowHash s other <;> simp_all
    exact hne (by
      rw [← eq_of_rankCmp_eq (built_of_mem hform.mem) (built_of_mem hother.mem) htie, hm])
  · rintro (hnone | ⟨e, he, hout⟩)
    · intro ms hperm
      rw [lookup_inserted_none.mpr hnone,
        lookup_inserted_none.mpr fun r hr => hnone r ((bestOffered_perm hperm).mp hr)]
    · have hmember : ∀ ms : List Candidate, ms.Perm members →
          ((inserted ms).lookupResilientRouteByHash ip flowHash).map RouteEntry.member =
            some e.member := by
        intro ms hperm
        cases hl : (inserted ms).lookupResilientRouteByHash ip flowHash with
        | none => exact absurd ((bestOffered_perm hperm).mpr he) (lookup_inserted_none.mp hl e)
        | some s =>
          obtain ⟨hstands, hs, hge⟩ := lookup_inserted.mp hl
          obtain ⟨form, hform, hm⟩ := exists_stands ((hperm.map Candidate.entry).mem_iff.mpr he.mem)
          have hbest : BestOffered ms ip form :=
            ((bestOffered_perm hperm).mpr he).of_member (List.mem_of_find?_eq_some hform) hm
          by_contra hne
          have hne : s.member ≠ e.member := fun heq => hne (by rw [Option.map_some, heq])
          have hgt := hout form s ((bestOffered_perm hperm).mp hbest) hm
            ((bestOffered_perm hperm).mp hs) hne
          exact Std.OrientedCmp.not_isGE_of_gt hgt (hge form hform hbest)
      intro ms hperm
      rw [hmember ms hperm, hmember members (List.Perm.refl _)]

theorem sameRoute_iff : SameRoute members ip flowHash ↔ FormsOutranked members ip flowHash := by
  constructor
  · intro hsame e form he hform hm hne
    by_contra hnot
    push Not at hnot
    have hge : ∀ r, BestOffered members ip r → (rankCmp flowHash e r).isGE := fun r hr => by
      cases hc : rankCmp flowHash e r <;> simp_all
    obtain ⟨first, hfirst, hstands⟩ := exists_first he.mem
    obtain ⟨second, hsecond, hstands'⟩ := exists_first hform.mem
    have hchosen := (hsame second hsecond).trans (hsame first hfirst).symm
    rw [lookup_greatest hfirst he hge hstands] at hchosen
    exact hne (hstands'.eq (lookup_inserted.mp hchosen).1 hm)
  · intro hout
    by_cases hnone : ∀ e, ¬ BestOffered members ip e
    · intro ms hperm
      rw [lookup_inserted_none.mpr hnone,
        lookup_inserted_none.mpr fun r hr => hnone r ((bestOffered_perm hperm).mp hr)]
    push Not at hnone
    obtain ⟨e, he⟩ := hnone
    obtain ⟨w, hw, hge⟩ := exists_greatest flowHash he
    have hchosen : ∀ ms : List Candidate, ms.Perm members →
        (inserted ms).lookupResilientRouteByHash ip flowHash = some w := by
      intro ms hperm
      refine lookup_greatest hperm hw hge ?_
      obtain ⟨form, hform, hm⟩ := exists_stands ((hperm.map Candidate.entry).mem_iff.mpr hw.mem)
      have hmem := (hperm.map Candidate.entry).mem_iff.mp (List.mem_of_find?_eq_some hform)
      by_cases heq : form = w
      · rwa [← heq]
      · obtain ⟨other, hother, hlt⟩ := hout w form hw (hw.of_member hmem hm) hm heq
        have hle := hge other hother
        simp [hlt] at hle
    intro ms hperm
    rw [hchosen ms hperm, hchosen members (List.Perm.refl _)]

/-! ### Least disruption -/

/-- In every table, taking away a member leaves the flows of the others alone and adding one moves
flows only to it; the order of insertion matters exactly where scores tie and the forms in which
members were inserted decide. -/
theorem resilient_least_disruption (members : List Candidate) (calls : List (RouteCall Ipv4Address))
    (ip : Ipv4Address) (flowHash : UInt64) :
    (SameMember members ip flowHash ↔ OneOutranks members ip flowHash) ∧
    (SameRoute members ip flowHash ↔ FormsOutranked members ip flowHash) ∧
    (∀ e, (RoutingTable.run calls).lookupResilientRouteByHash ip flowHash = some e →
      ∀ destination len gateway interface source,
        let fewer := (RoutingTable.run calls).removeRouteVia destination len gateway
          interface source
        e ∈ fewer.routes → fewer.lookupResilientRouteByHash ip flowHash = some e) ∧
    ∀ destination len gateway interface source,
      let more := (RoutingTable.run calls).addMultipathRouteFrom destination len gateway interface
        source
      more.lookupResilientRouteByHash ip flowHash =
          (RoutingTable.run calls).lookupResilientRouteByHash ip flowHash ∨
        more.lookupResilientRouteByHash ip flowHash =
          some (RouteEntry.withSource destination len gateway interface source) := by
  have hordered := ordered_run calls
  refine ⟨sameMember_iff, sameRoute_iff, fun e he destination len gateway interface source => ?_,
    hordered.lookup_addMultipath⟩
  exact hordered.lookup_removeRouteVia he

/-- Two gateways of one score for this flow. The first member is given with two host addresses, of
which the first to be inserted is kept and decides the tie with the second member. -/
def tiedMembers : List Candidate := [
  ⟨⟨203, 0, 113, 1⟩, 24, some ⟨10, 103, 244, 35⟩, "fywmysqj", .static⟩,
  ⟨⟨203, 0, 113, 3⟩, 24, some ⟨10, 103, 244, 35⟩, "fywmysqj", .static⟩,
  ⟨⟨203, 0, 113, 2⟩, 24, some ⟨10, 13, 199, 41⟩, "25i5sznw", .static⟩]

theorem insertion_order_moves_flow : ¬ SameMember tiedMembers ⟨203, 0, 113, 9⟩ 0 := by
  intro h
  have hswap := h [tiedMembers[1], tiedMembers[0], tiedMembers[2]] (.swap _ _ _)
  revert hswap
  decide +kernel

theorem resilient_least_disruption_emptied :
    ((RoutingTable.run [.addMultipathRouteFrom ⟨203, 0, 113, 0⟩ 24 none "eth0" .static,
      .addMultipathRouteFrom ⟨203, 0, 0, 0⟩ 16 none "eth1" .static]).removeRouteVia
        ⟨203, 0, 0, 0⟩ 16 none "eth1" .static).lookupResilientRouteByHash ⟨203, 0, 113, 9⟩ 0 =
      some (RouteEntry.withSource ⟨203, 0, 113, 0⟩ 24 none "eth0" .static) := by
  exact (resilient_least_disruption [] [.addMultipathRouteFrom ⟨203, 0, 113, 0⟩ 24 none "eth0"
    .static, .addMultipathRouteFrom ⟨203, 0, 0, 0⟩ 16 none "eth1" .static] ⟨203, 0, 113, 9⟩
    0).2.2.1 _ (by decide +kernel) _ _ _ _ _ (by decide +kernel)

end ToyTcpip.Routing

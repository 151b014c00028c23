import Mathlib.Data.List.Lex
import ToyTcpip.Lib.Ascent
import ToyTcpip.Lib.Hashed
import ToyTcpip.Snmp.Message

/-! The MIB store of `snmp.rs` and walks through it. -/
namespace ToyTcpip.Snmp

open Ascent Hashed

def oidArcs (oid : String) : Parsed (List ℕ) :=
  match (oid.toList.splitOn '.').mapM parseU64 with
  | none => .error .invalidBerEncoding
  | some arcs =>
    match arcs with
    | first :: second :: _ =>
      if first > 2 ∨ (first < 2 ∧ second ≥ 40) then .error .invalidBerEncoding else .ok arcs
    | _ => .error .invalidBerEncoding

structure SnmpMib where
  objects : HashMap String SnmpValue

namespace SnmpMib

def set (mib : SnmpMib) (oid : String) (val : SnmpValue) : SnmpMib := ⟨mib.objects.insert oid val⟩

def get (mib : SnmpMib) (oid : String) : Option SnmpValue := mib.objects.lookup oid

def new : SnmpMib :=
  let mib : SnmpMib := ⟨∅⟩
  let mib := mib.set "1.3.6.1.2.1.1.1.0"
    (.octetString (Utf8.asBytes "Toy TCP/IP Stack on Safe Rust"))
  let mib := mib.set "1.3.6.1.2.1.1.3.0" (.timeTicks 360000)
  let mib := mib.set "1.3.6.1.2.1.1.5.0" (.octetString (Utf8.asBytes "toy-router.local"))
  mib.set "1.3.6.1.2.1.2.2.1.10.1" (.counter32 1048576)

/-- An object with a valid identifier above the needle. -/
def candidate (needle : List ℕ) (e : Sigma fun _ : String => SnmpValue) :
    Option (List ℕ × SnmpVarbind) :=
  match oidArcs e.1 with
  | .ok arcs => if arcs > needle then some (arcs, ⟨e.1, e.2⟩) else none
  | _ => none

variable [HashOrder]

def getNext (mib : SnmpMib) (oid : String) : Parsed (Option SnmpVarbind) :=
  (oidArcs oid).bind fun needle =>
    .ok ((minBy Prod.fst ((HashOrder.iter mib.objects.entries).filterMap (candidate needle))).map
      Prod.snd)

/-- The next object, or the end of the view under the name that was asked for. -/
def nextOrEnd (mib : SnmpMib) (oid : String) : Parsed SnmpVarbind :=
  (mib.getNext oid).bind fun next => .ok (next.getD ⟨oid, .endOfMibView⟩)

/-- One repetition: every cursor moves to the object that is reported for it. -/
def repetition (mib : SnmpMib) : List String → Parsed (List SnmpVarbind)
  | [] => .ok []
  | cursor :: rest =>
    (mib.nextOrEnd cursor).bind fun varbind =>
      (mib.repetition rest).bind fun more => .ok (varbind :: more)

def repetitions (mib : SnmpMib) : ℕ → List String → Parsed (List SnmpVarbind)
  | 0, _ => .ok []
  | n + 1, cursors =>
    (mib.repetition cursors).bind fun varbinds =>
      (mib.repetitions n (varbinds.map SnmpVarbind.oid)).bind fun more => .ok (varbinds ++ more)

def checkOids : List String → Parsed Unit
  | [] => .ok ()
  | oid :: rest => (oidArcs oid).bind fun _ => checkOids rest

def getBulk (mib : SnmpMib) (oids : List String) (nonRepeaters maxRepetitions : ℕ) :
    Parsed (List SnmpVarbind) :=
  (checkOids oids).bind fun _ =>
    let nonRepeaterCount := min nonRepeaters oids.length
    (mib.repetition (oids.take nonRepeaterCount)).bind fun results =>
      (mib.repetitions maxRepetitions (oids.drop nonRepeaterCount)).bind fun more =>
        .ok (results ++ more)

/-! ### Identifiers in numeric order -/

omit [HashOrder] in
theorem oidArcs_dotted {arcs found : List ℕ}
    (h : oidArcs (dotted arcs) = .ok found) : found = arcs := by
  have hne : arcs ≠ [] := by
    rintro rfl
    have hnone : (dotted []).toList.splitOn '.' = [[]] := by
      rw [dotted, String.toList_ofList]
      rfl
    simp [oidArcs, hnone, parseU64] at h
  unfold oidArcs at h
  split at h
  · cases h
  · next vs hvs =>
    obtain ⟨rfl, -⟩ := (arcs_dotted hne).mp hvs
    split at h
    · obtain ⟨-, h⟩ := Checked.ite_error_eq_ok.mp h
      cases h
      rfl
    · cases h

def arcsOf (vb : SnmpVarbind) : List ℕ :=
  match oidArcs vb.oid with
  | .ok arcs => arcs
  | _ => []

def Valid (oid : String) : Prop := ∃ arcs, oidArcs oid = .ok arcs

/-- Every object has a valid identifier, written without leading zeros or signs. -/
def Canonical (mib : SnmpMib) : Prop := ∀ oid val, mib.get oid = some val →
    CanonicalOid oid ∧ Valid oid

def Stored (mib : SnmpMib) (vb : SnmpVarbind) : Prop := mib.get vb.oid = some vb.value

variable {mib : SnmpMib} {oid : String} {needle : List ℕ} {vb vb' : SnmpVarbind}
  {vs : List SnmpVarbind}

omit [HashOrder] in
/-- Objects are told apart by their arcs. -/
theorem Canonical.eq_of_arcs (h : mib.Canonical) (hvb : mib.Stored vb) (hvb' : mib.Stored vb')
    (heq : arcsOf vb = arcsOf vb') : vb = vb' := by
  obtain ⟨⟨arcs, hoid⟩, found, hfound⟩ := h _ _ hvb
  obtain ⟨⟨arcs', hoid'⟩, found', hfound'⟩ := h _ _ hvb'
  have harcs := oidArcs_dotted (hoid ▸ hfound)
  have harcs' := oidArcs_dotted (hoid' ▸ hfound')
  simp only [arcsOf, hfound, hfound'] at heq
  have hname : vb.oid = vb'.oid := by rw [hoid, hoid', ← harcs, ← harcs', heq]
  rw [Stored, hname, hvb'] at hvb
  cases vb
  cases vb'
  simp_all

omit [HashOrder] in
theorem candidate_eq_some {e : Sigma fun _ : String => SnmpValue} {arcs : List ℕ} :
    candidate needle e = some (arcs, vb) ↔
      oidArcs e.1 = .ok arcs ∧ needle < arcs ∧ vb = ⟨e.1, e.2⟩ := by
  unfold candidate
  split
  · next found hfound =>
    split
    · next hlt =>
      rw [Option.some.injEq, Prod.mk.injEq, hfound, Checked.ok.injEq]
      constructor
      · rintro ⟨rfl, rfl⟩
        exact ⟨rfl, hlt, rfl⟩
      · rintro ⟨rfl, -, rfl⟩
        exact ⟨rfl, rfl⟩
    · next hlt =>
      rw [hfound, Checked.ok.injEq]
      constructor
      · rintro ⟨⟩
      · rintro ⟨rfl, hgt, -⟩
        exact absurd hgt hlt
  · next hno =>
    constructor
    · rintro ⟨⟩
    · rintro ⟨hok, -⟩
      exact absurd hok (hno arcs)

/-- The candidates are the stored objects above the needle, with their arcs. -/
theorem Canonical.mem_candidates (h : mib.Canonical) {c : List ℕ × SnmpVarbind} :
    c ∈ (HashOrder.iter mib.objects.entries).filterMap (candidate needle) ↔
      c.1 = arcsOf c.2 ∧ mib.Stored c.2 ∧ needle < arcsOf c.2 := by
  obtain ⟨arcs, vb⟩ := c
  simp only [List.mem_filterMap, mem_iter, candidate_eq_some]
  constructor
  · rintro ⟨⟨oid, val⟩, hmem, hok, hlt, rfl⟩
    have harcs : arcsOf ⟨oid, val⟩ = arcs := by simp [arcsOf, hok]
    exact ⟨harcs.symm, mem_entries.mp hmem, harcs ▸ hlt⟩
  · rintro ⟨harcs, hstored, hlt⟩
    obtain ⟨-, found, hfound⟩ := h _ _ hstored
    have hof : arcsOf vb = found := by simp [arcsOf, hfound]
    subst hof
    exact ⟨⟨vb.oid, vb.value⟩, mem_entries.mpr hstored, harcs ▸ hfound, harcs ▸ hlt, rfl⟩

/-- What is reported next is the first of the objects above the needle. -/
theorem Canonical.getNext_eq (h : mib.Canonical) (hoid : oidArcs oid = .ok needle)
    (habove : Above arcsOf mib.Stored needle vs) : mib.getNext oid = .ok vs.head? := by
  rw [getNext, hoid, Checked.ok_bind]
  congr 1
  cases vs with
  | nil =>
    have hnone : (HashOrder.iter mib.objects.entries).filterMap (candidate needle) = [] := by
      refine List.eq_nil_iff_forall_not_mem.mpr fun c hc => ?_
      obtain ⟨-, hstored, hlt⟩ := h.mem_candidates.mp hc
      exact habove.nil c.2 hstored hlt
    rw [minBy_eq_none.mpr hnone]
    rfl
  | cons vb rest =>
    obtain ⟨hstored, hlt, hleast⟩ := habove.head
    have hmem := h.mem_candidates.mpr ⟨(rfl : (arcsOf vb, vb).1 = _), hstored, hlt⟩
    cases hmin : minBy Prod.fst ((HashOrder.iter mib.objects.entries).filterMap
      (candidate needle)) with
    | none =>
      rw [minBy_eq_none.mp hmin] at hmem
      simp at hmem
    | some c =>
      obtain ⟨hc, hle⟩ := minBy_spec hmin
      obtain ⟨harcs, hcs, hclt⟩ := h.mem_candidates.mp hc
      have heq : arcsOf c.2 = arcsOf vb := by
        refine le_antisymm ?_ (hleast c.2 hcs hclt)
        rw [← harcs]
        exact hle _ hmem
      simp [h.eq_of_arcs hcs hstored heq]

/-! ### Walks -/

/-- Asking for the next object again and again reports these, and then no more. -/
inductive Walks (mib : SnmpMib) : String → List SnmpVarbind → Prop
  | last {oid : String} (h : mib.getNext oid = .ok none) : Walks mib oid []
  | next {oid : String} {vb : SnmpVarbind} {rest : List SnmpVarbind}
      (h : mib.getNext oid = .ok (some vb)) (hrest : Walks mib vb.oid rest) :
      Walks mib oid (vb :: rest)

theorem Canonical.walks (h : mib.Canonical) (hoid : oidArcs oid = .ok needle)
    (habove : Above arcsOf mib.Stored needle vs) : mib.Walks oid vs := by
  induction vs generalizing oid needle with
  | nil => exact .last (h.getNext_eq hoid habove)
  | cons vb rest ih =>
    obtain ⟨-, arcs, harcs⟩ := h _ _ habove.head.1
    refine .next (h.getNext_eq hoid habove) (ih harcs ?_)
    have htail := habove.tail
    rwa [show arcsOf vb = arcs by simp [arcsOf, harcs]] at htail

/-- The name a cursor has after some steps. -/
def reached (oid : String) (vs : List SnmpVarbind) (r : ℕ) : String :=
  ((vs.take r).getLast?.map SnmpVarbind.oid).getD oid

/-- What repetition `r` reports: the object `r` places on, or the end of the view. -/
def reported (oid : String) (vs : List SnmpVarbind) (r : ℕ) : SnmpVarbind :=
  vs[r]?.getD ⟨reached oid vs r, .endOfMibView⟩

omit [HashOrder] in
theorem reached_succ (oid : String) (vs : List SnmpVarbind) (r : ℕ) :
    reached oid vs (r + 1) = (reported oid vs r).oid := by
  rw [reported, reached, List.take_add_one]
  cases hr : vs[r]? with
  | none => simp [reached]
  | some vb => simp

theorem Walks.drop (h : mib.Walks oid vs) (r : ℕ) : mib.Walks (reached oid vs r) (vs.drop r) := by
  induction h generalizing r with
  | @last oid hnone =>
    rw [List.drop_nil]
    simpa [reached] using Walks.last hnone
  | @next oid vb rest hsome hrest ih =>
    cases r with
    | zero => exact .next hsome hrest
    | succ r =>
      have hcons : reached oid (vb :: rest) (r + 1) = reached vb.oid rest r := by
        rw [reached, reached, List.take_succ_cons, List.getLast?_cons]
        cases (rest.take r).getLast? <;> rfl
      rw [hcons]
      exact ih r

theorem Walks.nextOrEnd (h : mib.Walks oid vs) (r : ℕ) :
    mib.nextOrEnd (reached oid vs r) = .ok (reported oid vs r) := by
  have hget : mib.getNext (reached oid vs r) = .ok vs[r]? := by
    rw [← List.head?_drop]
    generalize vs.drop r = rest, h.drop r = hdrop
    cases hdrop with
    | last hnone => exact hnone
    | next hsome _ => exact hsome
  rw [SnmpMib.nextOrEnd, hget, Checked.ok_bind, reported]

variable {walk : String → List SnmpVarbind} {oids : List String}

theorem repetition_eq (h : ∀ oid ∈ oids, mib.Walks oid (walk oid)) (r : ℕ) :
    mib.repetition (oids.map fun oid => reached oid (walk oid) r) =
      .ok (oids.map fun oid => reported oid (walk oid) r) := by
  induction oids with
  | nil => rfl
  | cons oid rest ih =>
    rw [List.map_cons, repetition, (h oid List.mem_cons_self).nextOrEnd, Checked.ok_bind,
      ih fun oid' hoid' => h oid' (List.mem_cons_of_mem oid hoid'), Checked.ok_bind, List.map_cons]

theorem repetitions_eq (h : ∀ oid ∈ oids, mib.Walks oid (walk oid)) (m r : ℕ) :
    mib.repetitions m (oids.map fun oid => reached oid (walk oid) r) =
      .ok ((List.range' r m).flatMap fun k => oids.map fun oid => reported oid (walk oid) k) := by
  induction m generalizing r with
  | zero => rfl
  | succ m ih =>
    have hcursors : (oids.map fun oid => reported oid (walk oid) r).map SnmpVarbind.oid =
        oids.map fun oid => reached oid (walk oid) (r + 1) := by
      simp [reached_succ]
    rw [repetitions, repetition_eq h, Checked.ok_bind, hcursors, ih, Checked.ok_bind,
      List.range'_succ, List.flatMap_cons]

omit [HashOrder] in
theorem checkOids_eq (h : ∀ oid ∈ oids, Valid oid) : checkOids oids = .ok () := by
  induction oids with
  | nil => rfl
  | cons oid rest ih =>
    obtain ⟨arcs, harcs⟩ := h oid List.mem_cons_self
    rw [checkOids, harcs, Checked.ok_bind]
    exact ih fun oid' hoid' => h oid' (List.mem_cons_of_mem oid hoid')

/-- A walk reports the objects above its start in the order of their arcs, and a bulk request the
heads of such walks. -/
theorem walk_complete (mib : SnmpMib) (hcan : mib.Canonical) :
    (∀ oid, Valid oid → ∃ vs, mib.Walks oid vs ∧ vs.Pairwise (fun vb vb' =>
      arcsOf vb < arcsOf vb') ∧
      ∀ vb, vb ∈ vs ↔ mib.Stored vb ∧ ∀ needle, oidArcs oid = .ok needle → needle < arcsOf vb) ∧
    ∀ (oids : List String) (nonRepeaters maxRepetitions : ℕ) (walk : String → List SnmpVarbind),
      (∀ oid ∈ oids, Valid oid ∧ mib.Walks oid (walk oid)) →
      mib.getBulk oids nonRepeaters maxRepetitions =
        .ok ((oids.take nonRepeaters).map (fun oid => reported oid (walk oid) 0) ++
          (List.range maxRepetitions).flatMap fun r =>
            (oids.drop nonRepeaters).map fun oid => reported oid (walk oid) r) := by
  refine ⟨?_, ?_⟩
  · rintro oid ⟨needle, hneedle⟩
    have helements : ∀ vb, vb ∈ mib.objects.entries.map (fun e => (⟨e.1, e.2⟩ : SnmpVarbind)) ↔
        mib.Stored vb := by
      rintro ⟨oid, val⟩
      rw [Stored, get, ← mem_entries, List.mem_map]
      constructor
      · rintro ⟨⟨oid', val'⟩, he, heq⟩
        cases heq
        exact he
      · intro hmem
        exact ⟨_, hmem, rfl⟩
    obtain ⟨vs, hvs⟩ := exists_above _ helements (fun vb vb' => hcan.eq_of_arcs) needle
    refine ⟨vs, hcan.walks hneedle hvs, hvs.sorted, fun vb => ?_⟩
    rw [hvs.mem_iff]
    simp [hneedle]
  · intro oids nonRepeaters maxRepetitions walk h
    have hstart : ∀ l : List String, (l.map fun oid => reached oid (walk oid) 0) = l := by
      intro l
      simp [reached]
    have htake := @repetition_eq _ mib walk (oids.take nonRepeaters)
      (fun oid hoid => (h oid (List.mem_of_mem_take hoid)).2) 0
    have hdrop := @repetitions_eq _ mib walk (oids.drop nonRepeaters)
      (fun oid hoid => (h oid (List.mem_of_mem_drop hoid)).2) maxRepetitions 0
    rw [hstart] at htake hdrop
    have hmin : oids.take (min nonRepeaters oids.length) = oids.take nonRepeaters ∧
        oids.drop (min nonRepeaters oids.length) = oids.drop nonRepeaters := by
      rcases le_total nonRepeaters oids.length with hle | hle
      · rw [min_eq_left hle]
        exact ⟨rfl, rfl⟩
      · rw [min_eq_right hle, List.take_of_length_le hle, List.drop_eq_nil_of_le hle]
        simp
    rw [getBulk, checkOids_eq fun oid hoid => (h oid hoid).1, Checked.ok_bind]
    simp only [hmin.1, hmin.2]
    rw [htake, Checked.ok_bind, hdrop, Checked.ok_bind, List.range_eq_range']

omit [HashOrder] in
theorem Canonical.set (h : mib.Canonical) (hcan : CanonicalOid oid) (hvalid : Valid oid)
    (val : SnmpValue) : (mib.set oid val).Canonical := by
  intro oid' val' hget
  rw [get, SnmpMib.set, lookup_insert_of] at hget
  split at hget
  · next heq =>
    subst heq
    exact ⟨hcan, hvalid⟩
  · exact h oid' val' hget

omit [HashOrder] in
/-- The walk of two objects whose order as text is not their order as numbers. -/
theorem walk_complete_sample :
    ∃ vs, @Walks latestFirst (((⟨∅⟩ : SnmpMib).set "1.3.10" .null).set "1.3.9" .null) "1.3" vs ∧
      ⟨"1.3.10", .null⟩ ∈ vs := by
  have hempty : (⟨∅⟩ : SnmpMib).Canonical := by
    intro oid val h
    simp [get] at h
  have hten : CanonicalOid "1.3.10" := ⟨[1, 3, 10], by simp [dotted, decimal, digitChar]⟩
  have hnine : CanonicalOid "1.3.9" := ⟨[1, 3, 9], by simp [dotted, decimal, digitChar]⟩
  have hcan := (hempty.set hten ⟨[1, 3, 10], by decide +kernel⟩ .null).set hnine
    ⟨[1, 3, 9], by decide +kernel⟩ .null
  have hstart : oidArcs "1.3" = .ok [1, 3] := by decide +kernel
  obtain ⟨vs, hwalks, -, hmem⟩ := (@walk_complete latestFirst _ hcan).1 "1.3" ⟨[1, 3], hstart⟩
  refine ⟨vs, hwalks, (hmem _).mpr ⟨?_, ?_⟩⟩
  · rw [Stored]
    decide +kernel
  · intro needle hneedle
    obtain rfl : [1, 3] = needle := by simpa [hstart] using hneedle
    decide +kernel

end SnmpMib

end ToyTcpip.Snmp

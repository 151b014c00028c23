import Mathlib.Data.List.Basic
import Mathlib.Tactic

/-! Spans, joined where one ends at the start of the next, against the maximal runs they cover. -/
namespace Spans

section join

variable {α β : Type*} [DecidableEq α] [DecidableEq β]

/-- The spans after `cur`, with each that starts where the last one ends joined to it. -/
def joinFrom : α × α → List (α × α) → List (α × α)
  | cur, [] => [cur]
  | cur, s :: rest => if cur.2 = s.1 then joinFrom (cur.1, s.2) rest else cur :: joinFrom s rest

def join : List (α × α) → List (α × α)
  | [] => []
  | s :: rest => joinFrom s rest

/-- Adds a span to those joined so far. -/
def push (runs : List (α × α)) (s : α × α) : List (α × α) :=
  match runs.getLast? with
  | some last => if last.2 = s.1 then runs.dropLast ++ [(last.1, s.2)] else runs ++ [s]
  | none => [s]

theorem foldl_push (runs : List (α × α)) (cur : α × α) (rest : List (α × α)) :
    rest.foldl push (runs ++ [cur]) = runs ++ joinFrom cur rest := by
  induction rest generalizing runs cur with
  | nil => rfl
  | cons s rest ih =>
    have hpush : push (runs ++ [cur]) s =
        if cur.2 = s.1 then runs ++ [(cur.1, s.2)] else runs ++ [cur] ++ [s] := by
      simp [push]
    rw [List.foldl_cons, hpush, joinFrom]
    split
    · exact ih runs (cur.1, s.2)
    · rw [ih (runs ++ [cur]) s, List.append_assoc]
      rfl

/-- Joining span by span is the loop that extends the last run. -/
theorem foldl_push_eq (spans : List (α × α)) : spans.foldl push [] = join spans := by
  cases spans with
  | nil => rfl
  | cons s rest => exact foldl_push [] s rest

/-- Joining only looks at which ends are starts. -/
theorem joinFrom_map {f : α → β} {cur : α × α} {rest : List (α × α)}
    (hf : ∀ s ∈ cur :: rest, ∀ t ∈ rest, f s.2 = f t.1 ↔ s.2 = t.1) :
    joinFrom (cur.map f f) (rest.map (Prod.map f f)) = (joinFrom cur rest).map (Prod.map f f) := by
  induction rest generalizing cur with
  | nil => rfl
  | cons s rest ih =>
    have hs : f cur.2 = f s.1 ↔ cur.2 = s.1 := hf cur (by simp) s (by simp)
    have hlater : ∀ e ∈ s :: rest, ∀ t ∈ rest, f e.2 = f t.1 ↔ e.2 = t.1 :=
      fun e he t ht => hf e (by simp [List.mem_cons.mp he]) t (by simp [ht])
    rw [List.map_cons, joinFrom, joinFrom]
    simp only [Prod.map_fst, Prod.map_snd, hs]
    split
    · refine @ih (cur.1, s.2) fun e he t ht => ?_
      rcases List.mem_cons.mp he with rfl | he
      · exact hlater s (by simp) t ht
      · exact hlater e (by simp [he]) t ht
    · rw [List.map_cons, ← ih hlater]

/-- The first run starts where the first span does. -/
theorem joinFrom_head (cur : α × α) (rest : List (α × α)) :
    ∃ r runs, joinFrom cur rest = r :: runs ∧ r.1 = cur.1 := by
  induction rest generalizing cur with
  | nil => exact ⟨cur, [], rfl, rfl⟩
  | cons s rest ih =>
    rw [joinFrom]
    split
    · exact ih (cur.1, s.2)
    · exact ⟨cur, joinFrom s rest, rfl, rfl⟩

/-- A run ends where a span does. -/
theorem joinFrom_end {cur r : α × α} {rest : List (α × α)} (h : r ∈ joinFrom cur rest) :
    ∃ s ∈ cur :: rest, r.2 = s.2 := by
  induction rest generalizing cur with
  | nil =>
    obtain rfl := List.mem_singleton.mp h
    exact ⟨r, by simp, rfl⟩
  | cons s rest ih =>
    rw [joinFrom] at h
    split at h
    · obtain ⟨t, ht, heq⟩ := ih h
      rcases List.mem_cons.mp ht with rfl | ht
      · exact ⟨s, by simp, heq⟩
      · exact ⟨t, by simp [ht], heq⟩
    · rcases List.mem_cons.mp h with rfl | h
      · exact ⟨r, by simp, rfl⟩
      · obtain ⟨t, ht, heq⟩ := ih h
        exact ⟨t, List.mem_cons_of_mem _ ht, heq⟩

end join

/-! ### Runs of positions -/

variable {n x : ℕ} {cur s : ℕ × ℕ} {rest runs : List (ℕ × ℕ)}

/-- Nonempty spans, in order of both their starts and their ends. -/
structure Sorted (spans : List (ℕ × ℕ)) : Prop where
  nonempty : ∀ s ∈ spans, s.1 < s.2
  order : spans.Pairwise fun s t => s.1 < t.1 ∧ s.2 < t.2

def Within (x : ℕ) (s : ℕ × ℕ) : Prop := s.1 ≤ x ∧ x < s.2

def Covered (spans : List (ℕ × ℕ)) (x : ℕ) : Prop := ∃ s ∈ spans, Within x s

/-- Disjoint runs of the positions that `held` has, none of which can be extended; with fewer than
`n` of them they are all positions there are. -/
structure Canonical (n : ℕ) (runs : List (ℕ × ℕ)) (held : ℕ → Prop) : Prop where
  apart : runs.Pairwise fun r t => r.2 < t.1
  inside : ∀ r ∈ runs, r.1 < r.2 ∧ ∀ x, Within x r → held x
  maximal : ∀ r ∈ runs, ¬ held r.2 ∧ ∀ x, x + 1 = r.1 → ¬ held x
  all : runs.length < n → ∀ x, held x → Covered runs x

/-- Up to the end of the `n`-th run, no span starts before the last one ends. -/
def ApartFor : ℕ → ℕ × ℕ → List (ℕ × ℕ) → Prop
  | 0, _, _ => True
  | _ + 1, _, [] => True
  | n + 1, cur, s :: rest =>
    cur.2 ≤ s.1 ∧ if cur.2 = s.1 then ApartFor (n + 1) s rest else ApartFor n s rest

theorem apartFor_congr {a b : ℕ} : ApartFor n (a, s.2) rest ↔ ApartFor n (b, s.2) rest := by
  cases n <;> cases rest <;> simp [ApartFor]

namespace Sorted

theorem tail (h : Sorted (cur :: rest)) : Sorted rest :=
  ⟨fun s hs => h.nonempty s (List.mem_cons_of_mem _ hs), (List.pairwise_cons.mp h.order).2⟩

/-- The first two spans taken as one. -/
theorem merge (h : Sorted (cur :: s :: rest)) : Sorted ((cur.1, s.2) :: rest) := by
  obtain ⟨hcur, hrest⟩ := List.pairwise_cons.mp h.order
  have hs := hcur s (by simp)
  refine ⟨fun t ht => ?_, List.pairwise_cons.mpr ⟨fun t ht => ?_, (List.pairwise_cons.mp hrest).2⟩⟩
  · rcases List.mem_cons.mp ht with rfl | ht
    · exact hs.1.trans (h.nonempty s (by simp))
    · exact h.nonempty t (by simp [ht])
  · have ht' := (List.pairwise_cons.mp hrest).1 t ht
    exact ⟨hs.1.trans ht'.1, ht'.2⟩

theorem start_le (h : Sorted (cur :: rest)) (hx : Covered (cur :: rest) x) : cur.1 ≤ x := by
  obtain ⟨t, ht, hlo, -⟩ := hx
  rcases List.mem_cons.mp ht with rfl | ht
  · exact hlo
  · exact ((List.pairwise_cons.mp h.order).1 t ht).1.le.trans hlo

/-- A run after `cur` starts no earlier than `cur`. -/
theorem joinFrom_start (h : Sorted (cur :: rest)) : ∀ r ∈ joinFrom cur rest, cur.1 ≤ r.1 := by
  induction rest generalizing cur with
  | nil => simp [joinFrom]
  | cons s rest ih =>
    have hs := (List.pairwise_cons.mp h.order).1 s (by simp)
    rw [joinFrom]
    split
    · exact ih h.merge
    · intro r hr
      rcases List.mem_cons.mp hr with rfl | hr
      · exact le_rfl
      · exact hs.1.le.trans (ih h.tail r hr)

theorem joinFrom_nonempty (h : Sorted (cur :: rest)) : ∀ r ∈ joinFrom cur rest, r.1 < r.2 := by
  induction rest generalizing cur with
  | nil => simpa [joinFrom] using h.nonempty cur (by simp)
  | cons s rest ih =>
    rw [joinFrom]
    split
    · exact ih h.merge
    · intro r hr
      rcases List.mem_cons.mp hr with rfl | hr
      · exact h.nonempty r (by simp)
      · exact ih h.tail r hr

end Sorted

theorem covered_cons : Covered (cur :: rest) x ↔ Within x cur ∨ Covered rest x := by
  simp [Covered]

theorem covered_merge (hmeet : cur.2 = s.1) (h : Sorted (cur :: s :: rest)) :
    Covered (cur :: s :: rest) x ↔ Covered ((cur.1, s.2) :: rest) x := by
  have hcur := h.nonempty cur (by simp)
  have hs := h.nonempty s (by simp)
  rw [covered_cons, covered_cons, covered_cons, ← or_assoc]
  refine or_congr_left ?_
  unfold Within
  omega

/-- A first run that ends before all others start does not matter to them. -/
theorem canonical_cons (h : Sorted (cur :: s :: rest)) (hgap : cur.2 < s.1)
    (hruns : ∀ r ∈ runs, s.1 ≤ r.1) :
    Canonical (n + 1) (cur :: runs) (Covered (cur :: s :: rest)) ↔
      Canonical n runs (Covered (s :: rest)) := by
  have hcur := h.nonempty cur (by simp)
  have hheld : ∀ x, cur.2 ≤ x → (Covered (cur :: s :: rest) x ↔ Covered (s :: rest) x) := by
    intro x hx
    rw [covered_cons, or_iff_right]
    exact fun hin => absurd hin.2 (not_lt.mpr hx)
  constructor
  · rintro ⟨hapart, hinside, hmax, hall⟩
    refine ⟨(List.pairwise_cons.mp hapart).2, fun r hr => ?_, fun r hr => ?_, fun hlen x hx => ?_⟩
    · obtain ⟨hne, hin⟩ := hinside r (by simp [hr])
      refine ⟨hne, fun x hx => (hheld x ?_).mp (hin x hx)⟩
      exact hgap.le.trans ((hruns r hr).trans hx.1)
    · obtain ⟨hend, hstart⟩ := hmax r (by simp [hr])
      have hne := (hinside r (by simp [hr])).1
      have hle := hruns r hr
      exact ⟨fun hx => hend ((hheld _ (by omega)).mpr hx),
        fun x hx hheld' => hstart x hx ((hheld x (by omega)).mpr hheld')⟩
    · have hle := h.tail.start_le hx
      have hcov := hall (by simpa using hlen) x ((hheld x (by omega)).mpr hx)
      rcases covered_cons.mp hcov with hin | hcov
      · exact absurd hin.2 (by omega)
      · exact hcov
  · rintro ⟨hapart, hinside, hmax, hall⟩
    refine ⟨List.pairwise_cons.mpr ⟨fun r hr => hgap.trans_le (hruns r hr), hapart⟩,
      fun r hr => ?_, fun r hr => ?_, fun hlen x hx => ?_⟩
    · rcases List.mem_cons.mp hr with rfl | hr
      · exact ⟨hcur, fun x hx => covered_cons.mpr (.inl hx)⟩
      · exact ⟨(hinside r hr).1, fun x hx => covered_cons.mpr (.inr ((hinside r hr).2 x hx))⟩
    · rcases List.mem_cons.mp hr with rfl | hr
      · refine ⟨fun hx => ?_, fun x hx hheld' => ?_⟩
        · have hle := h.tail.start_le ((hheld _ le_rfl).mp hx)
          omega
        · have hle := h.start_le hheld'
          omega
      · have hne := (hinside r hr).1
        have hle := hruns r hr
        exact ⟨fun hx => (hmax r hr).1 ((hheld _ (by omega)).mp hx),
          fun x hx hheld' => (hmax r hr).2 x hx ((hheld x (by omega)).mp hheld')⟩
    · rcases covered_cons.mp hx with hin | hx
      · exact covered_cons.mpr (.inl hin)
      · exact covered_cons.mpr (.inr (hall (by simpa using hlen) x hx))

/-- The first `n` joined spans are the maximal runs exactly if no span up to their end starts before
the one ahead of it ends. -/
theorem canonical_joinFrom_iff (h : Sorted (cur :: rest)) :
    Canonical n ((joinFrom cur rest).take n) (Covered (cur :: rest)) ↔ ApartFor n cur rest := by
  induction rest generalizing cur n with
  | nil =>
    have hcur := h.nonempty cur (by simp)
    cases n with
    | zero => exact iff_of_true ⟨by simp, by simp, by simp, by simp⟩ trivial
    | succ n =>
      refine iff_of_true ?_ trivial
      simp only [joinFrom, List.take_succ_cons, List.take_nil]
      refine ⟨by simp, ?_, ?_, fun _ x hx => hx⟩
      · simpa [Covered] using hcur
      · simp only [List.mem_singleton, forall_eq, Covered, exists_eq_left, Within]
        exact ⟨by omega, fun x hx => by omega⟩
  | cons s rest ih =>
    cases n with
    | zero => exact iff_of_true ⟨by simp, by simp, by simp, by simp⟩ trivial
    | succ n =>
      rw [joinFrom, ApartFor]
      by_cases hmeet : cur.2 = s.1
      · have hheld : Covered (cur :: s :: rest) = Covered ((cur.1, s.2) :: rest) :=
          funext fun x => propext (covered_merge hmeet h)
        rw [if_pos hmeet, if_pos hmeet, hheld, ih h.merge, apartFor_congr]
        exact (and_iff_right hmeet.le).symm
      · rw [if_neg hmeet, if_neg hmeet, List.take_succ_cons]
        rcases lt_or_gt_of_ne hmeet with hgap | hover
        · have hruns : ∀ r ∈ (joinFrom s rest).take n, s.1 ≤ r.1 :=
            fun r hr => h.tail.joinFrom_start r (List.mem_of_mem_take hr)
          rw [canonical_cons h hgap hruns, ih h.tail]
          exact (and_iff_right hgap.le).symm
        · -- The end of the run is covered by the next span.
          have hs := (List.pairwise_cons.mp h.order).1 s (by simp)
          refine iff_of_false (fun hc => ?_) (fun hc => by omega)
          exact (hc.maximal cur (by simp)).1 ⟨s, by simp, hover.le, hs.2⟩

end Spans

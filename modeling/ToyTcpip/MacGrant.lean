import Mathlib.Tactic

/-! How requests taken one after the other share an uplink grant. -/
namespace ToyTcpip.Mac

section grant

variable {g q : ℕ} {as bs qs : List ℕ}

/-- The subheader in front of `q` bytes. -/
def overhead (q : ℕ) : ℕ := if q ≤ 255 then 2 else 3

/-- What a request for `q` bytes gets of a grant of `g` bytes. -/
def served (g q : ℕ) : ℕ := if g < 3 then 0 else min q ((g - overhead q) % 2 ^ 32)

/-- The grant it leaves. -/
def unspent (g q : ℕ) : ℕ := if served g q = 0 then g else g - (overhead (served g q) + served g q)

/-- What a request costs when it is met in full. -/
def cost (q : ℕ) : ℕ := if q = 0 then 0 else overhead q + q

def total (qs : List ℕ) : ℕ := (qs.map cost).sum

def servedAll : ℕ → List ℕ → List ℕ
  | _, [] => []
  | g, q :: qs => served g q :: servedAll (unspent g q) qs

def unspentAll : ℕ → List ℕ → ℕ
  | g, [] => g
  | g, q :: qs => unspentAll (unspent g q) qs

@[simp] theorem total_nil : total [] = 0 := rfl

@[simp] theorem total_cons : total (q :: qs) = cost q + total qs := List.sum_cons

@[simp] theorem total_append : total (as ++ bs) = total as + total bs := by
  rw [total, List.map_append, List.sum_append, total, total]

theorem served_le : served g q ≤ q := by
  unfold served
  split_ifs
  · exact Nat.zero_le q
  · exact min_le_left _ _

/-- A subheader and its bytes fit in the grant. -/
theorem overhead_add_served_le (h : served g q ≠ 0) : overhead (served g q) + served g q ≤ g := by
  have hle := served_le (g := g) (q := q)
  have hmod := Nat.mod_le (g - overhead q) (2 ^ 32)
  unfold served at *
  split_ifs at * with hg
  · exact absurd rfl h
  · unfold overhead at *
    split_ifs at * <;> omega

theorem unspent_le : unspent g q ≤ g := by
  unfold unspent
  split_ifs <;> omega

/-- What is served and what is left make up the grant. -/
theorem unspent_add_cost : unspent g q + cost (served g q) = g := by
  unfold unspent cost
  split_ifs with h
  · rfl
  · have := overhead_add_served_le h
    omega

theorem unspentAll_add_total (g : ℕ) (qs : List ℕ) :
    unspentAll g qs + total (servedAll g qs) = g := by
  induction qs generalizing g with
  | nil => rfl
  | cons q qs ih =>
    rw [unspentAll, servedAll, total_cons]
    have hstep := unspent_add_cost (g := g) (q := q)
    have hrest := ih (unspent g q)
    omega

@[simp] theorem length_servedAll : (servedAll g qs).length = qs.length := by
  induction qs generalizing g with
  | nil => rfl
  | cons q qs ih => rw [servedAll, List.length_cons, ih, List.length_cons]

theorem servedAll_append : servedAll g (as ++ bs) =
    servedAll g as ++ servedAll (unspentAll g as) bs := by
  induction as generalizing g with
  | nil => rfl
  | cons q as ih => rw [List.cons_append, servedAll, servedAll, unspentAll, ih, List.cons_append]

theorem unspentAll_append : unspentAll g (as ++ bs) = unspentAll (unspentAll g as) bs := by
  induction as generalizing g with
  | nil => rfl
  | cons q as ih => rw [List.cons_append, unspentAll, unspentAll, ih]

theorem unspentAll_le : unspentAll g qs ≤ g := by
  have := unspentAll_add_total g qs
  omega

/-! ### One request of a grant that its thirty-two bits hold -/

theorem served_zero : served g 0 = 0 ∧ unspent g 0 = g := by
  have h : served g 0 = 0 := Nat.le_zero.1 served_le
  exact ⟨h, if_pos h⟩

theorem served_full (hg : g < 2 ^ 32 + 2) (hq : cost q ≤ g) :
    served g q = q ∧ unspent g q = g - cost q := by
  by_cases hzero : q = 0
  · subst hzero
    exact served_zero
  · have h : served g q = q := by
      rw [cost, if_neg hzero] at hq
      unfold served overhead at *
      split_ifs at * <;> omega
    rw [unspent, h, if_neg hzero, cost, if_neg hzero]
    exact ⟨rfl, rfl⟩

theorem served_short (hg : g < 2 ^ 32 + 2) (hq : g < cost q) (hmin : 3 ≤ g)
    (hstuck : ¬ (g = 3 ∧ 255 < q)) : unspent g q < 3 := by
  unfold unspent served cost overhead at *
  split_ifs at * <;> omega

theorem served_stuck (hq : 255 < q) : served 3 q = 0 ∧ unspent 3 q = 3 := by
  have h : served 3 q = 0 := by
    rw [served, if_neg (by decide), overhead, if_neg (by omega)]
    exact Nat.min_zero q
  exact ⟨h, if_pos h⟩

theorem served_small (h : g < 3) : served g q = 0 ∧ unspent g q = g := by
  have h : served g q = 0 := if_pos h
  exact ⟨h, if_pos h⟩

/-! ### All of them -/

theorem servedAll_small (h : g < 3) : (∀ n ∈ servedAll g qs, n = 0) ∧ unspentAll g qs = g := by
  induction qs with
  | nil => exact ⟨by simp [servedAll], rfl⟩
  | cons q qs ih =>
    obtain ⟨hserved, hunspent⟩ := served_small (q := q) h
    rw [servedAll, unspentAll, hserved, hunspent]
    exact ⟨List.forall_mem_cons.2 ⟨rfl, ih.1⟩, ih.2⟩

theorem servedAll_full (hg : g < 2 ^ 32 + 2) (h : total qs ≤ g) :
    servedAll g qs = qs ∧ unspentAll g qs = g - total qs := by
  induction qs generalizing g with
  | nil => exact ⟨rfl, rfl⟩
  | cons q qs ih =>
    rw [total_cons] at h ⊢
    obtain ⟨hserved, hunspent⟩ := served_full hg (q := q) (by omega)
    obtain ⟨hall, hrest⟩ := ih (g := g - cost q) (by omega) (by omega)
    rw [servedAll, unspentAll, hserved, hunspent, hall, hrest]
    exact ⟨rfl, by omega⟩

/-- A request that three bytes do not serve. -/
def Passed (q : ℕ) : Prop := q = 0 ∨ 255 < q

theorem servedAll_stuck (h : ∀ q ∈ qs, Passed q) : servedAll 3 qs = qs.map (fun _ => 0) ∧
    unspentAll 3 qs = 3 := by
  induction qs with
  | nil => exact ⟨rfl, rfl⟩
  | cons q qs ih =>
    obtain ⟨hq, hqs⟩ := List.forall_mem_cons.1 h
    have hone : served 3 q = 0 ∧ unspent 3 q = 3 := by
      rcases hq with rfl | hq
      · exact served_zero
      · exact served_stuck hq
    obtain ⟨hall, hrest⟩ := ih hqs
    rw [servedAll, unspentAll, hone.1, hone.2, hall, hrest]
    exact ⟨rfl, rfl⟩

theorem unspentAll_of_not_passed (h : ¬ ∀ q ∈ qs, Passed q) : unspentAll 3 qs < 3 := by
  induction qs with
  | nil => exact absurd (by simp) h
  | cons q qs ih =>
    rw [unspentAll]
    by_cases hq : Passed q
    · have hstay : unspent 3 q = 3 := by
        rcases hq with rfl | hq
        · exact served_zero.2
        · exact (served_stuck hq).2
      rw [hstay]
      exact ih fun hqs => h (List.forall_mem_cons.2 ⟨hq, hqs⟩)
    · refine unspentAll_le.trans_lt ?_
      obtain ⟨hpos, hle⟩ := not_or.1 hq
      unfold unspent served overhead
      split_ifs <;> omega

/-- Requests are met in full until too little is left, or until three bytes are left for longer
requests. -/
theorem unspentAll_cases (hg : g < 2 ^ 32 + 2) (qs : List ℕ) : total qs ≤ g ∨ unspentAll g qs < 3 ∨
    ∃ pre q post, qs = pre ++ q :: post ∧ g = total pre + 3 ∧ 255 < q ∧ ∀ x ∈ post, Passed x := by
  induction qs generalizing g with
  | nil => exact Or.inl (Nat.zero_le g)
  | cons q qs ih =>
    rw [unspentAll, total_cons]
    by_cases hfull : cost q ≤ g
    · obtain ⟨-, hunspent⟩ := served_full hg hfull
      rw [hunspent]
      rcases ih (g := g - cost q) (by omega) with h | h | ⟨pre, q', post, rfl, hsum, hrest⟩
      · exact Or.inl (by omega)
      · exact Or.inr (Or.inl h)
      · exact Or.inr (Or.inr ⟨q :: pre, q', post, rfl, by rw [total_cons]; omega, hrest⟩)
    · right
      by_cases hsmall : g < 3
      · left
        rw [(served_small hsmall).2, (servedAll_small hsmall).2]
        exact hsmall
      · by_cases hstuck : g = 3 ∧ 255 < q
        · obtain ⟨rfl, hq⟩ := hstuck
          by_cases hall : ∀ x ∈ qs, Passed x
          · exact Or.inr ⟨[], q, qs, rfl, rfl, hq, hall⟩
          · left
            rw [(served_stuck hq).2]
            exact unspentAll_of_not_passed hall
        · left
          exact unspentAll_le.trans_lt (served_short hg (by omega) (by omega) hstuck)

/-- No request is served with more than a sixteen-bit length. -/
def Short (g : ℕ) (qs : List ℕ) : Prop :=
  ∀ pre q post, qs = pre ++ q :: post → q ≤ 65535 ∨ g ≤ total pre + 65538

theorem short_cons : Short g (q :: qs) ↔ (q ≤ 65535 ∨ g ≤ 65538) ∧ Short (g - cost q) qs := by
  constructor
  · intro h
    refine ⟨by simpa using h [] q qs rfl, fun pre q' post heq => ?_⟩
    have := h (q :: pre) q' post (by rw [heq, List.cons_append])
    rw [total_cons] at this
    omega
  · rintro ⟨hq, h⟩ pre q' post heq
    cases pre with
    | nil =>
      obtain ⟨rfl, -⟩ := List.cons.inj heq
      simpa using hq
    | cons x pre =>
      obtain ⟨rfl, htail⟩ := List.cons.inj heq
      have := h pre q' post htail
      rw [total_cons]
      omega

theorem short_append : Short g (as ++ bs) ↔ Short g as ∧ Short (g - total as) bs := by
  induction as generalizing g with
  | nil => exact ⟨fun h => ⟨fun pre q post h => by simp at h, h⟩, fun h => h.2⟩
  | cons q as ih => rw [List.cons_append, short_cons, short_cons, ih, and_assoc,
    total_cons, Nat.sub_sub]

theorem short_of_le (h : g ≤ 65538) : Short g qs := fun pre _ _ _ => Or.inr (by omega)

theorem servedAll_le_iff (hg : g < 2 ^ 32 + 2) :
    (∀ n ∈ servedAll g qs, n ≤ 65535) ↔ Short g qs := by
  induction qs generalizing g with
  | nil => exact iff_of_true (by simp [servedAll]) fun pre q post h => by simp at h
  | cons q qs ih =>
    rw [servedAll, List.forall_mem_cons, short_cons, ih (unspent_le.trans_lt hg)]
    have hserved : served g q ≤ 65535 ↔ q ≤ 65535 ∨ g ≤ 65538 := by
      unfold served overhead
      split_ifs <;> omega
    rw [hserved]
    by_cases hfull : cost q ≤ g
    · rw [(served_full hg hfull).2]
    · have hsmall : unspent g q ≤ 65538 := by
        by_cases h3 : 3 ≤ g ∧ ¬ (g = 3 ∧ 255 < q)
        · exact (served_short hg (by omega) h3.1 h3.2).le.trans (by omega)
        · exact unspent_le.trans (by omega)
      exact and_congr_right fun _ => iff_of_true (short_of_le hsmall) (short_of_le (by omega))

end grant

/-! ### The order of priorities -/

section order

variable {g : ℕ} {es : List (ℕ × ℕ)} {ps : List ℕ}

/-- No request, given with its priority, is served while one of a higher priority, which is a
smaller number, is left with data. -/
def InOrder (g : ℕ) (es : List (ℕ × ℕ)) : Prop :=
  (es.zip (servedAll g (es.map (·.2)))).Pairwise fun a b => a.1.1 < b.1.1 → 0 < b.2 → a.2 = a.1.2

/-- Three bytes go to a short request although one of a higher priority was passed over for its
length; the priorities passed over so far are `ps`. -/
def Starved : List ℕ → List (ℕ × ℕ) → Prop
  | _, [] => False
  | ps, (p, q) :: es => if q = 0 then Starved ps es else if 255 < q then
    Starved (p :: ps) es else ∃ p' ∈ ps, p' < p

theorem inOrder_cons {e : ℕ × ℕ} : InOrder g (e :: es) ↔
    (∀ b ∈ es.zip (servedAll (unspent g e.2) (es.map (·.2))), e.1 < b.1.1 → 0 < b.2 →
      served g e.2 = e.2) ∧
      InOrder (unspent g e.2) es := by
  rw [InOrder, List.map_cons, servedAll, List.zip_cons_cons, List.pairwise_cons]
  rfl

theorem snd_eq_zero_of_small (es : List (ℕ × ℕ)) (h : g < 3) :
    ∀ b ∈ es.zip (servedAll g (es.map (·.2))), b.2 = 0 :=
  fun _ hb => (servedAll_small h).1 _ (List.of_mem_zip hb).2

theorem inOrder_small (h : g < 3) : InOrder g es := by
  refine List.pairwise_iff_forall_sublist.2 fun {a b} hsub _ hpos => ?_
  have hb : b ∈ es.zip (servedAll g (es.map (·.2))) := hsub.subset (by simp)
  rw [snd_eq_zero_of_small es h b hb] at hpos
  exact absurd hpos (by decide)

/-- Three bytes are given out in order unless a long request of a higher priority starves. -/
theorem inOrder_stuck (ps : List ℕ) (es : List (ℕ × ℕ)) :
    ((∀ b ∈ es.zip (servedAll 3 (es.map (·.2))), ∀ p ∈ ps, p < b.1.1 → b.2 = 0) ∧ InOrder 3 es) ↔
    ¬ Starved ps es := by
  induction es generalizing ps with
  | nil => exact iff_of_true ⟨by simp, List.Pairwise.nil⟩ id
  | cons e es ih =>
    obtain ⟨p, q⟩ := e
    rw [inOrder_cons, List.map_cons, servedAll, List.zip_cons_cons, List.forall_mem_cons, Starved]
    by_cases hzero : q = 0
    · subst hzero
      rw [if_pos rfl, ← ih, served_zero.1, served_zero.2]
      simp
    · rw [if_neg hzero]
      by_cases hlong : 255 < q
      · rw [if_pos hlong, ← ih, (served_stuck hlong).1, (served_stuck hlong).2]
        simp only [List.forall_mem_cons]
        constructor
        · rintro ⟨⟨-, hps⟩, hp, hrest⟩
          refine ⟨fun b hb => ⟨fun hlt => ?_, hps b hb⟩, hrest⟩
          by_contra hpos
          exact hzero (hp b hb hlt (Nat.pos_of_ne_zero hpos)).symm
        · rintro ⟨hps, hrest⟩
          refine ⟨⟨fun _ _ _ => trivial, fun b hb => (hps b hb).2⟩, fun b hb hlt hpos => ?_, hrest⟩
          exact absurd ((hps b hb).1 hlt) hpos.ne'
      · rw [if_neg hlong]
        have hunspent : unspent 3 q = 0 := by
          unfold unspent served overhead
          split_ifs <;> omega
        have hserved : served 3 q ≠ 0 := by
          unfold served overhead
          split_ifs <;> omega
        have hrest := snd_eq_zero_of_small es (g := 0) (by decide)
        rw [hunspent]
        constructor
        · rintro ⟨⟨hhead, -⟩, -⟩ ⟨p', hp', hlt⟩
          exact hserved (hhead p' hp' hlt)
        · intro h
          refine ⟨⟨fun p' hp' hlt => absurd ⟨p', hp', hlt⟩ h, fun b hb _ _ _ => hrest b hb⟩,
            fun b hb _ hpos => ?_, inOrder_small (by decide)⟩
          exact absurd (hrest b hb) hpos.ne'

theorem not_starved_of_short {p q : ℕ} (hpos : q ≠ 0) (hq : q ≤ 255) : ¬ Starved []
    ((p, q) :: es) := by
  rw [Starved, if_neg hpos, if_neg (by omega)]
  simp

/-- A grant is given out in order unless three bytes of it are left for requests of which one
starves. -/
theorem inOrder_iff (hg : g < 2 ^ 32 + 2) : InOrder g es ↔
    ¬ ∃ pre post, es = pre ++ post ∧ g = total (pre.map (·.2)) + 3 ∧ Starved [] post := by
  induction es generalizing g with
  | nil =>
    refine iff_of_true List.Pairwise.nil ?_
    rintro ⟨pre, post, heq, -, hstarved⟩
    obtain ⟨rfl, rfl⟩ := List.append_eq_nil_iff.1 heq.symm
    exact hstarved
  | cons e es ih =>
    obtain ⟨p, q⟩ := e
    -- the split before this request or after it
    have hsplit : (∃ pre post, (p, q) :: es = pre ++ post ∧ g = total (pre.map (·.2)) + 3 ∧
        Starved [] post) ↔
        (g = 3 ∧ Starved [] ((p, q) :: es)) ∨ (cost q ≤ g ∧
          ∃ pre post, es = pre ++ post ∧ g - cost q = total (pre.map (·.2)) + 3 ∧
          Starved [] post) := by
      constructor
      · rintro ⟨pre, post, heq, hsum, hstarved⟩
        cases pre with
        | nil => exact Or.inl ⟨hsum, heq ▸ hstarved⟩
        | cons x pre =>
          obtain ⟨rfl, rfl⟩ := List.cons.inj heq
          simp only [List.map_cons, total_cons] at hsum
          exact Or.inr ⟨by omega, pre, post, rfl, by omega, hstarved⟩
      · rintro (⟨rfl, hstarved⟩ | ⟨hle, pre, post, rfl, hsum, hstarved⟩)
        · exact ⟨[], _, rfl, rfl, hstarved⟩
        · exact ⟨(p, q) :: pre, post, rfl, by simp only [List.map_cons, total_cons]; omega,
            hstarved⟩
    rw [hsplit, inOrder_cons]
    by_cases hfull : cost q ≤ g
    · obtain ⟨hserved, hunspent⟩ := served_full hg hfull
      rw [hserved, hunspent, ih (by omega)]
      have hhead : g = 3 ∧ Starved [] ((p, q) :: es) →
          ∃ pre post, es = pre ++ post ∧ g - cost q = total (pre.map (·.2)) + 3 ∧
          Starved [] post := by
        rintro ⟨rfl, hstarved⟩
        by_cases hzero : q = 0
        · subst hzero
          exact ⟨[], es, rfl, rfl, hstarved⟩
        · refine absurd hstarved (not_starved_of_short hzero ?_)
          unfold cost at hfull
          split_ifs at hfull
          omega
      constructor
      · rintro ⟨-, h⟩ (hnow | ⟨-, hlater⟩)
        · exact h (hhead hnow)
        · exact h hlater
      · exact fun h => ⟨fun _ _ _ _ => rfl, fun hlater => h (Or.inr ⟨hfull, hlater⟩)⟩
    · have hlater : ∀ P : Prop, ¬ (cost q ≤ g ∧ P) := fun P h => hfull h.1
      simp only [hlater, or_false]
      by_cases hstuck : g = 3 ∧ 255 < q
      · obtain ⟨rfl, hq⟩ := hstuck
        have hiff := inOrder_stuck [p] es
        simp only [List.mem_singleton, forall_eq] at hiff
        rw [(served_stuck hq).1, (served_stuck hq).2, Starved, if_neg (by omega), if_pos hq,
          and_iff_right rfl, ← hiff]
        refine and_congr_left fun _ => forall_congr' fun b => forall_congr' fun _ =>
          forall_congr' fun _ => ?_
        omega
      · have hsmall : unspent g q < 3 := by
          by_cases h3 : g < 3
          · rw [(served_small h3).2]
            exact h3
          · exact served_short hg (by omega) (by omega) hstuck
        refine iff_of_true ⟨fun b hb _ hpos => ?_, inOrder_small hsmall⟩ ?_
        · exact absurd (snd_eq_zero_of_small es hsmall b hb) hpos.ne'
        · rintro ⟨rfl, hstarved⟩
          refine not_starved_of_short ?_ (by omega) hstarved
          rintro rfl
          exact hfull (by rw [cost, if_pos rfl]; omega)

end order

/-! ### Both phases -/

/-- What a channel asks for: its priority, its pending bytes, and how many of them its bucket
allows. -/
structure Demand where
  priority : ℕ
  pending : ℕ
  allowed : ℕ
  deriving DecidableEq

section phases

variable {d : Demand} {ds : List Demand} {g : ℕ}

/-- The requests of a channel in the first phase and in the second one, when the first was met in
full. -/
def Demand.want (d : Demand) : ℕ := min d.pending d.allowed

def Demand.more (d : Demand) : ℕ := d.pending - d.want

/-- What the channels are left with after the first phase, with their priorities. -/
def afterFirst (g : ℕ) (ds : List Demand) : List (ℕ × ℕ) :=
  List.zipWith (fun d n => (d.priority, d.pending - n)) ds (servedAll g (ds.map (·.want)))

/-- The grant that the second phase starts with. -/
def grantAfterFirst (g : ℕ) (ds : List Demand) : ℕ := unspentAll g (ds.map (·.want))

/-- Three bytes are left at some turn of the second phase, after a first phase met in full, and a
request starves. -/
def StarvedAfterFull (g : ℕ) (ds : List Demand) : Prop :=
  ∃ pre post, ds = pre ++ post ∧ g = total (ds.map (·.want)) + total (pre.map (·.more)) + 3 ∧
    Starved [] (post.map fun d => (d.priority, d.more))

/-- Three bytes are left at some turn of the first phase, which no later request of it can use, and
a request of the second phase starves. -/
def StarvedAfterStuck (g : ℕ) (ds : List Demand) : Prop :=
  ∃ pre d post, ds = pre ++ d :: post ∧ g = total (pre.map (·.want)) + 3 ∧ 255 < d.want ∧
    (∀ x ∈ post, Passed x.want) ∧
    Starved [] (pre.map (fun d => (d.priority, d.more)) ++ (d :: post).map fun d =>
      (d.priority, d.pending))

theorem first_full (ds : List Demand) (hg : g < 2 ^ 32 + 2) (h : total (ds.map (·.want)) ≤ g) :
    afterFirst g ds = ds.map (fun d => (d.priority, d.more)) ∧
      grantAfterFirst g ds = g - total (ds.map (·.want)) := by
  obtain ⟨hserved, hunspent⟩ := servedAll_full hg h
  refine ⟨?_, hunspent⟩
  rw [afterFirst, hserved, List.zipWith_map_right, List.zipWith_self]
  rfl

theorem first_stuck {pre post : List Demand} (hg : g < 2 ^ 32 + 2)
    (hsum : g = total (pre.map (·.want)) + 3) (hlong : 255 < d.want)
    (hpost : ∀ x ∈ post, Passed x.want) :
    afterFirst g (pre ++ d :: post) =
      pre.map (fun d => (d.priority, d.more)) ++ (d :: post).map (fun d =>
        (d.priority, d.pending)) ∧
      grantAfterFirst g (pre ++ d :: post) = 3 := by
  obtain ⟨hserved, hunspent⟩ : servedAll g (pre.map (·.want)) = _ ∧ _ :=
    servedAll_full hg (by omega)
  have hthree : g - total (pre.map (·.want)) = 3 := by omega
  have hall : ∀ q ∈ (d :: post).map (·.want), Passed q := by
    simp only [List.map_cons, List.forall_mem_cons, List.forall_mem_map]
    exact ⟨Or.inr hlong, hpost⟩
  obtain ⟨hserved', hunspent'⟩ := servedAll_stuck hall
  constructor
  · rw [afterFirst, List.map_append, servedAll_append, hserved, hunspent, hthree, hserved',
      List.zipWith_append (by simp), List.zipWith_map_right, List.zipWith_self, List.map_map,
      List.zipWith_map_right, List.zipWith_self]
    rfl
  · rw [grantAfterFirst, List.map_append, unspentAll_append, hunspent, hthree, hunspent']

theorem first_cases (hg : g < 2 ^ 32 + 2) (ds : List Demand) :
    total (ds.map (·.want)) ≤ g ∨ grantAfterFirst g ds < 3 ∨
    ∃ pre d post, ds = pre ++ d :: post ∧ g = total (pre.map (·.want)) + 3 ∧ 255 < d.want ∧
      ∀ x ∈ post, Passed x.want := by
  rcases unspentAll_cases hg (ds.map (·.want)) with h | h | ⟨pre, q, post, heq, hsum, hlong, hpost⟩
  · exact Or.inl h
  · exact Or.inr (Or.inl h)
  · obtain ⟨pre, rest, rfl, rfl, hrest⟩ := List.map_eq_append_iff.1 heq
    obtain ⟨d, post, rfl, rfl, rfl⟩ := List.map_eq_cons_iff.1 hrest
    exact Or.inr (Or.inr ⟨pre, d, post, rfl, hsum, hlong, List.forall_mem_map.1 hpost⟩)

theorem total_stuck {pre : List Demand} (post : List Demand)
    (hsum : g = total (pre.map (·.want)) + 3) (hlong : 255 < d.want) :
    g < total ((pre ++ d :: post).map (·.want)) := by
  rw [List.map_append, total_append, List.map_cons, total_cons, cost, if_neg (by omega)]
  omega

/-- The second phase serves in order unless a request starves. -/
theorem inOrder_afterFirst_iff (hg : g < 2 ^ 32 + 2) : InOrder (grantAfterFirst g ds)
    (afterFirst g ds) ↔
    ¬ StarvedAfterFull g ds ∧ ¬ StarvedAfterStuck g ds := by
  have hle : grantAfterFirst g ds ≤ g := unspentAll_le
  rcases first_cases hg ds with hfull | hsmall | ⟨pre, d, post, rfl, hsum, hlong, hpost⟩
  · obtain ⟨hafter, hgrant⟩ := first_full ds hg hfull
    have hstuck : ¬ StarvedAfterStuck g ds := by
      rintro ⟨pre, d, post, rfl, hsum, hlong, -⟩
      have := total_stuck post hsum hlong
      omega
    rw [inOrder_iff (hle.trans_lt hg), and_iff_left hstuck, hafter, hgrant]
    refine not_congr ⟨?_, ?_⟩
    · rintro ⟨pre, post, heq, hsum, hstarved⟩
      obtain ⟨pre, post, rfl, rfl, rfl⟩ := List.map_eq_append_iff.1 heq
      refine ⟨pre, post, rfl, ?_, hstarved⟩
      rw [List.map_map] at hsum
      change g - _ = total (pre.map (·.more)) + 3 at hsum
      omega
    · rintro ⟨pre, post, rfl, hsum, hstarved⟩
      refine ⟨_, _, List.map_append, ?_, hstarved⟩
      rw [List.map_map]
      change g - _ = total (pre.map (·.more)) + 3
      omega
  · refine iff_of_true (inOrder_small hsmall) ⟨?_, ?_⟩
    · rintro ⟨pre, post, -, hsum, -⟩
      have := (first_full ds hg (by omega)).2
      omega
    · rintro ⟨pre, d, post, rfl, hsum, hlong, hpost, -⟩
      have := (first_stuck hg hsum hlong hpost).2
      omega
  · obtain ⟨hafter, hgrant⟩ := first_stuck hg hsum hlong hpost
    have hiff := inOrder_stuck [] (afterFirst g (pre ++ d :: post))
    simp only [List.not_mem_nil, false_imp_iff, implies_true, true_and] at hiff
    rw [hgrant, hiff]
    constructor
    · intro h
      refine ⟨?_, ?_⟩
      · rintro ⟨pre', post', heq, hsum', -⟩
        have := total_stuck post hsum hlong
        omega
      · rintro ⟨pre', d', post', heq, hsum', hlong', hpost', hstarved⟩
        rw [heq, (first_stuck hg hsum' hlong' hpost').1] at h
        exact h hstarved
    · rintro ⟨-, h⟩ hstarved
      exact h ⟨pre, d, post, rfl, hsum, hlong, hpost, hafter ▸ hstarved⟩

/-- The lengths of the SDUs of both phases fit sixteen bits. -/
def LengthsFit (g : ℕ) (ds : List Demand) : Prop :=
  (∀ n ∈ servedAll g (ds.map (·.want)), n ≤ 65535) ∧
    ∀ n ∈ servedAll (grantAfterFirst g ds) ((afterFirst g ds).map (·.2)), n ≤ 65535

/-- The lengths fit exactly when no long request finds the grant to be served. -/
theorem lengthsFit_iff (hg : g < 2 ^ 32 + 2) : LengthsFit g ds ↔
    Short g (ds.map (·.want) ++ ds.map (·.more)) := by
  have hle : grantAfterFirst g ds ≤ g := unspentAll_le
  rw [LengthsFit, servedAll_le_iff hg, servedAll_le_iff (hle.trans_lt hg), short_append]
  refine and_congr_right fun _ => ?_
  by_cases hfull : total (ds.map (·.want)) ≤ g
  · obtain ⟨hafter, hgrant⟩ := first_full ds hg hfull
    rw [hafter, hgrant, List.map_map]
    rfl
  · refine iff_of_true (short_of_le ?_) (short_of_le (by omega))
    rcases first_cases hg ds with h | h | ⟨pre, d, post, rfl, hsum, hlong, hpost⟩
    · exact absurd h hfull
    · omega
    · rw [(first_stuck hg hsum hlong hpost).2]
      omega

/-! ### Grants of any size -/

/-- Every request, taken one after the other, is short and met in full by what its thirty-two bits
tell of the rest of the grant. -/
def Ample (g : ℕ) (qs : List ℕ) : Prop :=
  ∀ pre q post, qs = pre ++ q :: post →
    q ≤ 65535 ∧ cost q ≤ g - total pre ∧ q ≤ (g - total pre - overhead q) % 2 ^ 32

theorem ample_cons {q : ℕ} {qs : List ℕ} : Ample g (q :: qs) ↔
    (q ≤ 65535 ∧ cost q ≤ g ∧ q ≤ (g - overhead q) % 2 ^ 32) ∧ Ample (g - cost q) qs := by
  constructor
  · intro h
    refine ⟨by simpa using h [] q qs rfl, fun pre q' post heq => ?_⟩
    have := h (q :: pre) q' post (by rw [heq, List.cons_append])
    rwa [total_cons, ← Nat.sub_sub] at this
  · rintro ⟨hq, h⟩ pre q' post heq
    cases pre with
    | nil =>
      obtain ⟨rfl, -⟩ := List.cons.inj heq
      simpa using hq
    | cons x pre =>
      obtain ⟨rfl, htail⟩ := List.cons.inj heq
      have := h pre q' post htail
      rwa [total_cons, ← Nat.sub_sub]

theorem ample_append {as bs : List ℕ} : Ample g (as ++ bs) ↔
    Ample g as ∧ Ample (g - total as) bs := by
  induction as generalizing g with
  | nil => exact ⟨fun h => ⟨fun pre q post h => by simp at h, h⟩, fun h => h.2⟩
  | cons q as ih =>
    rw [List.cons_append, ample_cons, ample_cons, ih, total_cons, Nat.sub_sub]
    exact and_assoc.symm

theorem served_ample {q : ℕ} (hcost : cost q ≤ g) (hq : q ≤ (g - overhead q) % 2 ^ 32) :
    served g q = q ∧ unspent g q = g - cost q := by
  by_cases hzero : q = 0
  · subst hzero
    exact served_zero
  · have h : served g q = q := by
      rw [cost, if_neg hzero] at hcost
      have : 2 ≤ overhead q := by
        unfold overhead
        split_ifs <;> omega
      rw [served, if_neg (by omega), min_eq_left hq]
    rw [unspent, h, if_neg hzero, cost, if_neg hzero]
    exact ⟨rfl, rfl⟩

theorem servedAll_ample {qs : List ℕ} (h : Ample g qs) :
    servedAll g qs = qs ∧ unspentAll g qs = g - total qs ∧ ∀ q ∈ qs, q ≤ 65535 := by
  induction qs generalizing g with
  | nil => exact ⟨rfl, rfl, by simp⟩
  | cons q qs ih =>
    obtain ⟨⟨hshort, hcost, hq⟩, h⟩ := ample_cons.1 h
    obtain ⟨hserved, hunspent⟩ := served_ample hcost hq
    obtain ⟨hall, hrest, hshorts⟩ := ih h
    rw [servedAll, unspentAll, hserved, hunspent, hall, hrest, total_cons, Nat.sub_sub]
    exact ⟨rfl, rfl, List.forall_mem_cons.2 ⟨hshort, hshorts⟩⟩

/-- An ample grant meets all requests in both phases. -/
theorem fills_of_ample (h : Ample g (ds.map (·.want) ++ ds.map (·.more))) :
    LengthsFit g ds ∧ InOrder (grantAfterFirst g ds) (afterFirst g ds) := by
  obtain ⟨hwant, hmore⟩ := ample_append.1 h
  obtain ⟨hserved, hunspent, hshort⟩ := servedAll_ample hwant
  obtain ⟨hserved', -, hshort'⟩ := servedAll_ample hmore
  have hafter : afterFirst g ds = ds.map fun d => (d.priority, d.more) := by
    rw [afterFirst, hserved, List.zipWith_map_right, List.zipWith_self]
    rfl
  have hgrant : grantAfterFirst g ds = g - total (ds.map (·.want)) := hunspent
  have hmores : (afterFirst g ds).map (·.2) = ds.map (·.more) := by
    rw [hafter, List.map_map]
    rfl
  refine ⟨⟨by rwa [hserved], by rwa [hmores, hgrant, hserved']⟩, ?_⟩
  rw [InOrder, hmores, hgrant, hserved', hafter, List.zip_map', List.pairwise_map]
  exact List.pairwise_of_forall fun _ _ _ _ => rfl

end phases

end ToyTcpip.Mac

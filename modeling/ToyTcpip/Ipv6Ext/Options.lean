import ToyTcpip.Ipv6Ext.Chain

/-! The options of Hop-by-Hop and Destination headers, written and read back. -/
namespace ToyTcpip.Ipv6Ext

open Checked (index slice bind_of_eq_ok bind_eq_ok)

namespace Ipv6Option

/-- The data that follows an option's length byte. -/
def data : Ipv6Option → List UInt8
  | .pad1 => []
  | .padN pad => pad
  | .routerAlert val => toBeBytes16 val.toNat
  | .jumboPayload len => toBeBytes32 len.toNat
  | .generic _ data => data

/-- No generic option stands for one that has a case of its own. -/
def Canonical : Ipv6Option → Prop
  | .generic optType data => optType ≠ ipv6OptPad1 ∧ optType ≠ ipv6OptPadN ∧
      ¬ (optType = ipv6OptRouterAlert ∧ data.length = 2) ∧
      ¬ (optType = ipv6OptJumboPayload ∧ data.length = 4)
  | _ => True

instance : ∀ opt : Ipv6Option, Decidable opt.Canonical
  | .generic .. => inferInstanceAs (Decidable (_ ∧ _ ∧ _ ∧ _))
  | .pad1 | .padN _ | .routerAlert _ | .jumboPayload _ => isTrue trivial

def IsPad : Ipv6Option → Prop
  | .pad1 | .padN _ => True
  | _ => False

theorem IsPad.canonical {opt : Ipv6Option} (h : opt.IsPad) : opt.Canonical := by
  cases opt <;> trivial

end Ipv6Option

open Ipv6Option

variable {opt : Ipv6Option} {opts : List Ipv6Option} {data : List UInt8}

theorem ofData_data {optType : UInt8} (h : opt.Canonical)
    (htype : opt.serialize = optType :: UInt8.ofNat opt.data.length :: opt.data) :
    ofData optType opt.data = .ok opt := by
  cases opt with
  | pad1 => simp [serialize] at htype
  | padN pad =>
    obtain rfl : ipv6OptPadN = optType := by simpa [serialize] using congrArg List.head? htype
    rfl
  | routerAlert val =>
    obtain rfl : ipv6OptRouterAlert = optType := by
      simpa [serialize] using congrArg List.head? htype
    rw [ofData, if_neg (by decide), if_pos ⟨rfl, rfl⟩]
    exact bind_of_eq_ok _ (read16_toBeBytes16 val)
  | jumboPayload len =>
    obtain rfl : ipv6OptJumboPayload = optType := by
      simpa [serialize] using congrArg List.head? htype
    rw [ofData, if_neg (by decide), if_neg fun h => absurd h.1 (by decide),
      if_pos ⟨rfl, rfl⟩]
    exact bind_of_eq_ok _ (read32_toBeBytes32 len)
  | generic t d =>
    obtain rfl : t = optType := by simpa [serialize] using congrArg List.head? htype
    obtain ⟨-, h₁, h₂, h₃⟩ := h
    simp only [ofData, Ipv6Option.data, h₁, h₂, h₃, if_false]

/-- An option other than Pad1 is its type, the length of its data and its data. -/
theorem serialize_eq (hne : opt ≠ .pad1) :
    ∃ optType, opt.serialize = optType :: UInt8.ofNat opt.data.length :: opt.data := by
  cases opt with
  | pad1 => exact absurd rfl hne
  | _ => exact ⟨_, rfl⟩

theorem type_ne_pad1 {optType : UInt8} {body : List UInt8} (h : opt.Canonical) (hne : opt ≠ .pad1)
    (htype : opt.serialize = optType :: body) : optType ≠ ipv6OptPad1 := by
  cases opt with
  | pad1 => exact absurd rfl hne
  | generic t d =>
    obtain ⟨rfl, -⟩ : t = optType ∧ _ := by simpa [serialize] using htype
    exact h.1
  | _ =>
    obtain ⟨rfl, -⟩ := List.cons.inj htype
    decide

theorem parseAll_serialize (h : opt.Canonical) (hlen : opt.data.length ≤ 255) (rest : List UInt8) :
    parseAll (opt.serialize ++ rest) = (parseAll rest).bind fun opts => .ok (opt :: opts) := by
  by_cases hpad : opt = .pad1
  · subst hpad
    change parseAll (ipv6OptPad1 :: rest) = _
    rw [parseAll, if_pos rfl]
  obtain ⟨optType, hser⟩ := serialize_eq hpad
  have htype := type_ne_pad1 h hpad hser
  have hbyte : (UInt8.ofNat opt.data.length).toNat = opt.data.length := by
    rw [UInt8.toNat_ofNat']
    omega
  have hslice : (slice (optType :: UInt8.ofNat opt.data.length :: (opt.data ++ rest)) 2
      (2 + opt.data.length) : Parsed _) = .ok opt.data :=
    Checked.slice_middle [optType, UInt8.ofNat opt.data.length] opt.data rest
  have hdrop : (UInt8.ofNat opt.data.length :: (opt.data ++ rest)).drop (2 + opt.data.length - 1) =
      rest := by
    rw [show 2 + opt.data.length - 1 = opt.data.length + 1 by omega, List.drop_succ_cons,
      List.drop_left]
  rw [hser, List.cons_append, List.cons_append, parseAll, if_neg htype, if_neg (by simp),
    Checked.index_cons_succ, Checked.index_cons_zero, Checked.ok_bind]
  simp only [hbyte]
  rw [if_neg (by simp; omega), hslice, Checked.ok_bind, ofData_data h hser, Checked.ok_bind, hdrop]

theorem parseAll_flatMap (h : ∀ opt ∈ opts, opt.Canonical ∧ opt.data.length ≤ 255) :
    parseAll (opts.flatMap serialize) = .ok opts := by
  induction opts with
  | nil => rw [List.flatMap_nil, parseAll]
  | cons opt rest ih =>
    obtain ⟨hcan, hlen⟩ := h opt List.mem_cons_self
    rw [List.flatMap_cons, parseAll_serialize hcan hlen,
      ih fun o ho => h o (List.mem_cons_of_mem _ ho), Checked.ok_bind]

/-- The padding of the options is itself made of options. -/
theorem padOptions_eq (opts : List Ipv6Option) : ∃ pad : List Ipv6Option, (∀ p ∈ pad, p.IsPad) ∧
    (∀ p ∈ pad, p.data.length ≤ 255) ∧
    padOptions (opts.flatMap serialize) = (opts ++ pad).flatMap serialize := by
  unfold padOptions
  dsimp only
  generalize hn : (8 - (2 + (opts.flatMap serialize).length) % 8) % 8 = n
  split_ifs with h₁ h₂
  · exact ⟨[.pad1], by simp [IsPad], by simp [Ipv6Option.data], by simp [serialize]⟩
  · refine ⟨[.padN (List.replicate (n - 2) 0)], by simp [IsPad], ?_, by simp [serialize]⟩
    simp only [List.mem_singleton, Ipv6Option.data, forall_eq, List.length_replicate]
    omega
  · exact ⟨[], by simp, by simp, by simp⟩

theorem length_padOptions (bytes : List UInt8) :
    (2 + (padOptions bytes).length) % 8 = 0 ∧ bytes.length ≤ (padOptions bytes).length ∧
      (padOptions bytes).length ≤ bytes.length + 7 := by
  unfold padOptions
  dsimp only
  split_ifs <;> simp <;> omega

theorem parseAll_padOptions (h : ∀ opt ∈ opts, opt.Canonical ∧ opt.data.length ≤ 255) :
    ∃ pad, (∀ p ∈ pad, IsPad p) ∧ parseAll (padOptions (opts.flatMap serialize)) =
      .ok (opts ++ pad) := by
  obtain ⟨pad, hpad, hlen, heq⟩ := padOptions_eq opts
  refine ⟨pad, hpad, ?_⟩
  rw [heq]
  refine parseAll_flatMap fun opt hopt => ?_
  rcases List.mem_append.mp hopt with hopt | hopt
  · exact h opt hopt
  · exact ⟨(hpad opt hopt).canonical, hlen opt hopt⟩

/-! ### What was read is what was there -/

theorem ofData_eq_ok {optType : UInt8} {optData : List UInt8} (htype : optType ≠ ipv6OptPad1)
    (h : ofData optType optData = .ok opt) :
    opt.Canonical ∧ opt.serialize = optType :: UInt8.ofNat optData.length :: optData := by
  unfold ofData at h
  split_ifs at h with h₁ h₂ h₃
  · cases h
    subst h₁
    exact ⟨trivial, rfl⟩
  · obtain ⟨rfl, h₂⟩ := h₂
    obtain ⟨a, b, rfl⟩ := List.length_eq_two.mp h₂
    obtain rfl : Ipv6Option.routerAlert (BitVec.ofNat 16 (beWord a b)) = opt := by
      simpa [read16] using h
    refine ⟨trivial, ?_⟩
    rw [serialize, toBeBytes16_beWord]
    rfl
  · obtain ⟨rfl, h₃⟩ := h₃
    obtain ⟨a, b, c, d, rfl⟩ := length_eq_four h₃
    obtain rfl : Ipv6Option.jumboPayload (BitVec.ofNat 32 (beWord a b * 65536 + beWord c d)) =
        opt := by
      simpa [read32] using h
    refine ⟨trivial, ?_⟩
    rw [serialize, toBeBytes32_beWords]
    rfl
  · cases h
    exact ⟨⟨htype, h₁, h₂, h₃⟩, rfl⟩

theorem parseAll_eq_ok {data : List UInt8} (h : parseAll data = .ok opts) :
    (∀ opt ∈ opts, opt.Canonical) ∧ opts.flatMap serialize = data := by
  induction data using parseAll.induct generalizing opts with
  | case1 =>
    rw [parseAll] at h
    cases h
    simp
  | case2 rest ih =>
    rw [parseAll, if_pos rfl] at h
    obtain ⟨more, hmore, h⟩ := bind_eq_ok.mp h
    cases h
    obtain ⟨hcan, hser⟩ := ih hmore
    exact ⟨List.forall_mem_cons.mpr ⟨trivial, hcan⟩, by rw [List.flatMap_cons, hser]; rfl⟩
  | case3 optType rest hpad hshort =>
    rw [parseAll, if_neg hpad, if_pos hshort] at h
    cases h
  | case4 optType rest hpad hlong ih =>
    rw [parseAll, if_neg hpad, if_neg hlong] at h
    obtain ⟨len, hlen, h⟩ := bind_eq_ok.mp h
    dsimp only at h
    obtain ⟨hend, h⟩ := Checked.ite_error_eq_ok.mp h
    obtain ⟨optData, hslice, h⟩ := bind_eq_ok.mp h
    obtain ⟨opt, hopt, h⟩ := bind_eq_ok.mp h
    obtain ⟨more, hmore, h⟩ := bind_eq_ok.mp h
    cases h
    obtain ⟨hcan, hser⟩ := ih len hmore
    obtain ⟨hcan₀, hser₀⟩ := ofData_eq_ok hpad hopt
    refine ⟨List.forall_mem_cons.mpr ⟨hcan₀, hcan⟩, ?_⟩
    cases rest with
    | nil => simp at hlong
    | cons lenByte body =>
      obtain rfl : lenByte = len := by simpa [index] using hlen
      have hdata : body.take lenByte.toNat = optData := by
        rw [Checked.slice_eq_ok (by omega) (by omega)] at hslice
        simpa [Nat.add_comm 2] using hslice
      have hcount : optData.length = lenByte.toNat := by
        simp only [List.length_cons] at hend
        rw [← hdata, List.length_take]
        omega
      rw [List.flatMap_cons, hser₀, hser, hcount, UInt8.ofNat_toNat,
        show 2 + lenByte.toNat - 1 = lenByte.toNat + 1 by omega, List.drop_succ_cons, ← hdata]
      simp

end ToyTcpip.Ipv6Ext

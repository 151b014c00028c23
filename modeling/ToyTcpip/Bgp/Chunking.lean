import ToyTcpip.Bgp.Parse
import ToyTcpip.Lib.Framing
import ToyTcpip.Lib.Machine

/-! Stream reassembly of `bgp.rs`: bytes in, whole messages out. -/
namespace ToyTcpip.Bgp

open Checked (index slice)

def bgpFramerCapacity : ℕ := 2 * bgpMaxMessageLen

structure BgpFramer where
  buf : List UInt8
  capacity : ℕ
  deriving DecidableEq, Repr

namespace BgpFramer

def new : BgpFramer := ⟨[], max bgpFramerCapacity bgpMaxMessageLen⟩

/-- Input that would push the buffer past its cap is refused. -/
def push (f : BgpFramer) (data : List UInt8) : Parsed BgpFramer :=
  if f.buf.length + data.length > f.capacity then
    .error ⟨6, 0, s!"reassembly buffer would exceed {f.capacity} bytes; peer is not framing BGP"⟩
  else .ok { f with buf := f.buf ++ data }

/-- The next complete message, left in the buffer. -/
def peekFrame (f : BgpFramer) : Parsed (Option (List UInt8)) :=
  if f.buf.length < bgpHeaderLen then .ok none
  else do
    let marker ← slice f.buf 0 16
    if marker ≠ bgpMarker then
      .error (.header bgpSubConnectionNotSynchronized
        "marker is not the all-ones synchronisation pattern")
    else
      let hi ← index f.buf 16
      let lo ← index f.buf 17
      let length := beWord hi lo
      if ¬ (bgpHeaderLen ≤ length ∧ length ≤ bgpMaxMessageLen) then
        .error (.header bgpSubBadMessageLength s!"length field {length} is outside 19..=4096")
      else if f.buf.length < length then .ok none
      else (slice f.buf 0 length).bind fun frame => .ok (some frame)

/-- The next complete message, taken out of the buffer. -/
def nextFrame (f : BgpFramer) : Parsed (Option (List UInt8) × BgpFramer) :=
  f.peekFrame.bind fun
    | some frame => .ok (some frame, { f with buf := f.buf.drop frame.length })
    | none => .ok (none, f)

def reset (f : BgpFramer) : BgpFramer := { f with buf := [] }

end BgpFramer

end ToyTcpip.Bgp

/-! ### What the framer makes of a stream, whatever the chunks it arrives in. -/
namespace ToyTcpip.Bgp

open Checked (index slice)
open Framing (Verdict Reads)

/-- The length field of the header a buffer starts with. -/
def lengthField (buf : List UInt8) : ℕ := wordAt buf 16

/-- The verdict of the framer on a buffer. -/
def readFrame (buf : List UInt8) : Verdict UInt8 (List UInt8) BgpParseError :=
  if buf.length < bgpHeaderLen then .wait
  else if buf.take 16 ≠ bgpMarker then
    .bad (.header bgpSubConnectionNotSynchronized
      "marker is not the all-ones synchronisation pattern")
  else if ¬ (bgpHeaderLen ≤ lengthField buf ∧ lengthField buf ≤ bgpMaxMessageLen) then
    .bad (.header bgpSubBadMessageLength s!"length field {lengthField buf} is outside 19..=4096")
  else if buf.length < lengthField buf then .wait
  else .item (buf.take (lengthField buf)) (buf.drop (lengthField buf))

theorem lengthField_append {buf : List UInt8} (h : bgpHeaderLen ≤ buf.length) (more : List UInt8) :
    lengthField (buf ++ more) = lengthField buf := by
  unfold bgpHeaderLen at h
  simp [lengthField, wordAt, byteAt, List.getElem?_append_left (show 16 < buf.length by omega),
    List.getElem?_append_left (show 17 < buf.length by omega)]

theorem readFrame_item {buf frame rest : List UInt8} (h : readFrame buf = .item frame rest) :
    bgpHeaderLen ≤ frame.length ∧ frame.length ≤ bgpMaxMessageLen ∧ buf = frame ++ rest ∧
      lengthField frame = frame.length := by
  unfold readFrame at h
  split_ifs at h with hshort hmarker hrange hmore
  cases h
  have hlen : (buf.take (lengthField buf)).length = lengthField buf := by
    rw [List.length_take]
    omega
  have hmin : bgpHeaderLen ≤ (buf.take (lengthField buf)).length := hrange.1.trans_eq hlen.symm
  have hfield := lengthField_append hmin (buf.drop (lengthField buf))
  rw [List.take_append_drop] at hfield
  refine ⟨hmin, hlen.trans_le hrange.2, (List.take_append_drop _ _).symm, ?_⟩
  rw [← hfield, hlen]

theorem readFrame_final : Framing.Final readFrame where
  bad xs ys e h := by
    unfold readFrame at h ⊢
    by_cases hshort : xs.length < bgpHeaderLen
    · simp [hshort] at h
    have htake : (xs ++ ys).take 16 = xs.take 16 :=
      List.take_append_of_le_length (by unfold bgpHeaderLen at hshort; omega)
    rw [lengthField_append (by omega), htake, if_neg (by simp; omega)]
    rw [if_neg hshort] at h
    split_ifs at h ⊢ <;> simp_all
  item xs ys frame rest h := by
    obtain ⟨hmin, -, rfl, hfield⟩ := readFrame_item h
    unfold readFrame at h ⊢
    have hlong : bgpHeaderLen ≤ (frame ++ rest).length := by
      rw [List.length_append]
      omega
    have htake : (frame ++ rest ++ ys).take 16 = (frame ++ rest).take 16 :=
      List.take_append_of_le_length (by unfold bgpHeaderLen at hlong; omega)
    have hsame : lengthField (frame ++ rest) = frame.length := by
      rw [lengthField_append hmin, hfield]
    rw [lengthField_append hlong, htake, hsame, if_neg (by simp; omega)]
    rw [hsame, if_neg (by omega)] at h
    split_ifs at h ⊢ <;> simp_all
  shorter xs frame rest h := by
    obtain ⟨hmin, -, rfl, -⟩ := readFrame_item h
    unfold bgpHeaderLen at hmin
    rw [List.length_append]
    omega

/-- A reader that waits holds less than one message. -/
theorem length_of_wait {buf : List UInt8} (h : readFrame buf = .wait) :
    buf.length < bgpMaxMessageLen := by
  unfold readFrame at h
  split_ifs at h with hshort hmarker hrange hmore
  · unfold bgpHeaderLen at hshort
    unfold bgpMaxMessageLen
    omega
  · omega

namespace BgpFramer

variable {f f' : BgpFramer} {data : List UInt8} {chunks : List (List UInt8)}

theorem nextFrame_eq : f.nextFrame =
    match readFrame f.buf with
    | .wait => .ok (none, f)
    | .bad e => .error e
    | .item frame rest => .ok (some frame, { f with buf := rest }) := by
  unfold nextFrame peekFrame readFrame
  by_cases hshort : f.buf.length < bgpHeaderLen
  · simp [hshort]
  have hlong : 19 ≤ f.buf.length := by
    unfold bgpHeaderLen at hshort
    omega
  have hmarker : (slice f.buf 0 16 : Parsed (List UInt8)) = .ok (f.buf.take 16) := by
    rw [Checked.slice_eq_ok (by omega) (by omega), List.drop_zero]
  have hword : ∀ i, i < f.buf.length → (index f.buf i : Parsed UInt8) = .ok (byteAt f.buf i) := by
    intro i hi
    simp [Checked.index_eq_ok, byteAt, hi]
  simp only [hshort, ↓reduceIte, Checked.bind_def, hmarker, hword 16 (by omega),
    hword 17 (by omega), Checked.ok_bind]
  rw [show beWord (byteAt f.buf 16) (byteAt f.buf 17) = lengthField f.buf from rfl]
  split_ifs with hsync hrange hmore
  · rfl
  · rfl
  · rw [Checked.slice_eq_ok (by omega) (by omega), List.drop_zero, Checked.ok_bind, Checked.ok_bind]
    simp only [List.length_take, Nat.min_eq_left (not_lt.mp hmore)]
  · rfl

/-- A framer with a cap of its own. -/
def withCapacity (capacity : ℕ) : BgpFramer := ⟨[], max capacity bgpMaxMessageLen⟩

/-- `next_frame` until it gives nothing more, at most `fuel` times. -/
def takeFrames : ℕ → BgpFramer → List (List UInt8) × Parsed BgpFramer
  | 0, f => ([], .ok f)
  | fuel + 1, f =>
    match f.nextFrame with
    | .ok (some frame, f) =>
      let (frames, stop) := takeFrames fuel f
      (frame :: frames, stop)
    | .ok (none, f) => ([], .ok f)
    | .error e => ([], .error e)
    | .panic => ([], .panic)

/-- One chunk pushed and the framer drained. -/
def offer (f : BgpFramer) (data : List UInt8) : List (List UInt8) × Parsed BgpFramer :=
  match f.push data with
  | .ok f => takeFrames f.buf.length f
  | .error e => ([], .error e)
  | .panic => ([], .panic)

/-- Chunk after chunk, up to the first error. -/
def offerAll (f : BgpFramer) : List (List UInt8) → List (List UInt8) × Parsed BgpFramer
  | [] => ([], .ok f)
  | data :: rest =>
    match f.offer data with
    | (frames, .ok f) =>
      let (more, stop) := f.offerAll rest
      (frames ++ more, stop)
    | (frames, .error e) => (frames, .error e)
    | (frames, .panic) => (frames, .panic)

/-- The outcome of a reading as the framer reports it. -/
def stopped (f : BgpFramer) : Except BgpParseError (List UInt8) → Parsed BgpFramer
  | .ok rest => .ok { f with buf := rest }
  | .error e => .error e

theorem takeFrames_eq {frames : List (List UInt8)} {stop : Except BgpParseError (List UInt8)}
    {fuel : ℕ} (hfuel : f.buf.length ≤ fuel) (h : Reads readFrame f.buf frames stop) :
    takeFrames fuel f = (frames, f.stopped stop) := by
  induction fuel generalizing f frames with
  | zero =>
    have hnil : f.buf = [] := List.length_eq_zero_iff.mp (Nat.le_zero.mp hfuel)
    have hwait : readFrame f.buf = .wait := by
      rw [hnil]
      rfl
    obtain ⟨rfl, rfl⟩ := h.unique (.wait hwait)
    rfl
  | succ fuel ih =>
    unfold takeFrames
    rw [nextFrame_eq]
    cases h with
    | wait h => simp [h, stopped]
    | bad h => simp [h, stopped]
    | item h hrest =>
      have hshorter := readFrame_final.shorter _ _ _ h
      simp only [h]
      rw [ih (by simpa using (by omega : _ ≤ fuel)) hrest]
      cases stop <;> rfl

/-- The refusal of `push`. -/
def overflow (f : BgpFramer) : BgpParseError :=
  ⟨6, 0, s!"reassembly buffer would exceed {f.capacity} bytes; peer is not framing BGP"⟩

/-- Some chunk does not fit behind what the framer holds when it arrives. -/
def Refused (f : BgpFramer) (chunks : List (List UInt8)) : Prop :=
  ∃ before data after frames f', chunks = before ++ data :: after ∧
    f.offerAll before = (frames, .ok f') ∧ f'.buf.length + data.length > f'.capacity

theorem offerAll_of_over (h : f.buf.length + data.length > f.capacity) :
    f.offerAll (data :: chunks) = ([], .error f.overflow) := by
  simp [offerAll, offer, push, h, overflow]

/-- An accepted chunk is read behind what the framer holds. -/
theorem offer_eq {frames : List (List UInt8)} {stop : Except BgpParseError (List UInt8)}
    (hfits : ¬ f.buf.length + data.length > f.capacity)
    (h : Reads readFrame (f.buf ++ data) frames stop) :
    f.offer data = (frames, f.stopped stop) := by
  have htake := @takeFrames_eq { f with buf := f.buf ++ data } frames stop _ le_rfl h
  unfold offer push
  rw [if_neg hfits]
  cases stop <;> exact htake

theorem not_refused_cons {f : BgpFramer} (h : ¬ f.Refused (data :: chunks)) :
    ¬ f.buf.length + data.length > f.capacity ∧
      ∀ frames f', f.offer data = (frames, .ok f') → ¬ f'.Refused chunks := by
  refine ⟨fun hover => h ⟨[], data, chunks, [], f, rfl, rfl, hover⟩, ?_⟩
  rintro frames f' hoffer ⟨before, next, after, more, f'', rfl, hbefore, hover⟩
  exact h ⟨data :: before, next, after, frames ++ more, f'', rfl, by
    simp only [offerAll, hoffer, hbefore], hover⟩

/-- Chunks that are all accepted are read as one stream. -/
theorem offerAll_eq {frames : List (List UInt8)} {stop : Except BgpParseError (List UInt8)}
    (hwait : readFrame f.buf = .wait) (hfits : ¬ f.Refused chunks)
    (h : Reads readFrame (f.buf ++ chunks.flatten) frames stop) :
    f.offerAll chunks = (frames, f.stopped stop) := by
  induction chunks generalizing f frames with
  | nil =>
    rw [List.flatten_nil, List.append_nil] at h
    obtain ⟨rfl, rfl⟩ := h.unique (.wait hwait)
    rfl
  | cons data rest ih =>
    obtain ⟨hdata, hrest⟩ := not_refused_cons hfits
    obtain ⟨first, stop₁, hfirst⟩ := Reads.total readFrame_final (f.buf ++ data)
    have hoffer := offer_eq hdata hfirst
    rw [List.flatten_cons, ← List.append_assoc] at h
    cases stop₁ with
    | error e =>
      obtain ⟨rfl, rfl⟩ := h.unique (hfirst.append_error readFrame_final rest.flatten)
      simp only [offerAll, hoffer, stopped]
    | ok left =>
      obtain ⟨more, stop₂, hmore⟩ := Reads.total readFrame_final (left ++ rest.flatten)
      obtain ⟨rfl, rfl⟩ := h.unique (hfirst.append_ok readFrame_final hmore)
      have htail := @ih { f with buf := left } more hfirst.wait_rest (hrest _ _ hoffer) hmore
      simp only [offerAll, hoffer, stopped, htail]

/-- A refused chunk ends the run with the refusal, after frames the stream starts with. -/
theorem offerAll_of_refused {frames : List (List UInt8)}
    {stop : Except BgpParseError (List UInt8)} (hwait : readFrame f.buf = .wait)
    (hover : f.Refused chunks) (h : Reads readFrame (f.buf ++ chunks.flatten) frames stop) :
    (f.offerAll chunks).1 <+: frames ∧ (f.offerAll chunks).2 = .error f.overflow := by
  induction chunks generalizing f frames with
  | nil =>
    obtain ⟨before, data, after, _, _, hsplit, -⟩ := hover
    simp at hsplit
  | cons data rest ih =>
    by_cases hdata : f.buf.length + data.length > f.capacity
    · simp [offerAll_of_over hdata]
    obtain ⟨first, stop₁, hfirst⟩ := Reads.total readFrame_final (f.buf ++ data)
    have hoffer := offer_eq hdata hfirst
    rw [List.flatten_cons, ← List.append_assoc] at h
    obtain ⟨before, next, after, sent, f', hsplit, hbefore, hnext⟩ := hover
    cases before with
    | nil =>
      rw [List.nil_append, List.cons.injEq] at hsplit
      obtain ⟨rfl, -⟩ := hsplit
      simp only [offerAll, Prod.mk.injEq, Checked.ok.injEq] at hbefore
      rw [← hbefore.2] at hnext
      exact absurd hnext hdata
    | cons data' before =>
      rw [List.cons_append, List.cons.injEq] at hsplit
      obtain ⟨rfl, rfl⟩ := hsplit
      cases stop₁ with
      | error e => simp [offerAll, hoffer, stopped] at hbefore
      | ok left =>
        obtain ⟨more, stop₂, hmore⟩ := Reads.total readFrame_final
          (left ++ (before ++ next :: after).flatten)
        obtain ⟨rfl, rfl⟩ := h.unique (hfirst.append_ok readFrame_final hmore)
        simp only [offerAll, hoffer, stopped, Prod.mk.injEq] at hbefore
        have htail := @ih { f with buf := left } more hfirst.wait_rest
          ⟨before, next, after, _, f', rfl, Prod.ext rfl hbefore.2, hnext⟩ hmore
        simp only [offerAll, hoffer, stopped]
        exact ⟨List.prefix_append_right_inj _ |>.mpr htail.1, htail.2⟩

/-- The frames of a reading make up the start of the stream, each as long as its header says. -/
theorem frames_of_reads {buf : List UInt8} {frames : List (List UInt8)}
    {stop : Except BgpParseError (List UInt8)} (h : Reads readFrame buf frames stop) :
    frames.flatten <+: buf ∧ ∀ frame ∈ frames, lengthField frame = frame.length := by
  induction h with
  | wait _ => simp
  | bad _ => simp
  | item h _ ih =>
    obtain ⟨-, -, rfl, hfield⟩ := readFrame_item h
    rw [List.flatten_cons, List.prefix_append_right_inj]
    exact ⟨ih.1, List.forall_mem_cons.mpr ⟨hfield, ih.2⟩⟩

/-- What a run leaves in the framer waits for more. -/
theorem wait_of_offerAll {frames : List (List UInt8)} (hwait : readFrame f.buf = .wait)
    (h : f.offerAll chunks = (frames, .ok f')) :
    readFrame f'.buf = .wait ∧ f'.capacity = f.capacity := by
  obtain ⟨all, stop, hall⟩ := Reads.total readFrame_final (f.buf ++ chunks.flatten)
  by_cases hover : f.Refused chunks
  · have hend := (offerAll_of_refused hwait hover hall).2
    simp [h] at hend
  · rw [offerAll_eq hwait hover hall, Prod.mk.injEq] at h
    cases stop with
    | error e => simp [stopped] at h
    | ok rest =>
      simp only [stopped, Checked.ok.injEq] at h
      rw [← h.2]
      exact ⟨hall.wait_rest, rfl⟩

/-- Chunks that leave room for an unfinished message are never refused. -/
theorem not_refused_of_short (hwait : readFrame f.buf = .wait)
    (h : ∀ data ∈ chunks, data.length + bgpMaxMessageLen ≤ f.capacity + 1) :
    ¬ f.Refused chunks := by
  rintro ⟨before, data, after, frames, f', rfl, hbefore, hover⟩
  obtain ⟨hwait', hcap⟩ := wait_of_offerAll hwait hbefore
  have hheld := length_of_wait hwait'
  have hdata := h data (by simp)
  omega

/-- What a speaker does with its framer. -/
inductive Call where
  | push (data : List UInt8)
  | nextFrame

def apply (f : BgpFramer) : Call → BgpFramer
  | .push data =>
    match f.push data with
    | .ok f => f
    | _ => f
  | .nextFrame =>
    match f.nextFrame with
    | .ok (_, f) => f
    | _ => f

def Within (capacity : ℕ) (f : BgpFramer) : Prop :=
  f.capacity = capacity ∧ f.buf.length ≤ f.capacity

theorem apply_within {capacity : ℕ} (f : BgpFramer) (call : Call) (h : f.Within capacity) :
    (f.apply call).Within capacity := by
  obtain ⟨hcap, hlen⟩ := h
  cases call with
  | push data =>
    by_cases hover : f.buf.length + data.length > f.capacity
    · simpa [apply, push, hover] using ⟨hcap, hlen⟩
    · simp only [apply, push, hover, ↓reduceIte]
      refine ⟨hcap, ?_⟩
      change (f.buf ++ data).length ≤ f.capacity
      rw [List.length_append]
      omega
  | nextFrame =>
    simp only [apply, nextFrame_eq]
    cases hread : readFrame f.buf with
    | wait => exact ⟨hcap, hlen⟩
    | bad e => exact ⟨hcap, hlen⟩
    | item frame rest =>
      have hshorter := readFrame_final.shorter _ _ _ hread
      exact ⟨hcap, by simp only; omega⟩

/-- However a stream is cut, as long as the cap refuses no chunk, the framer gives the same frames
and the same end; a refusal only cuts the run short, and the buffer stays within the cap in any
run. -/
theorem framing_independent_of_chunks (capacity : ℕ) :
    (∀ a b : List (List UInt8), a.flatten = b.flatten → ¬ (withCapacity capacity).Refused a →
      ¬ (withCapacity capacity).Refused b →
      (withCapacity capacity).offerAll a = (withCapacity capacity).offerAll b) ∧
    (∀ a b : List (List UInt8), a.flatten = b.flatten → (withCapacity capacity).Refused a →
      ((withCapacity capacity).offerAll a).2 = .error (withCapacity capacity).overflow ∧
      (¬ (withCapacity capacity).Refused b →
        ((withCapacity capacity).offerAll a).1 <+: ((withCapacity capacity).offerAll b).1)) ∧
    (∀ a : List (List UInt8),
      (∀ data ∈ a, data.length + bgpMaxMessageLen ≤ max capacity bgpMaxMessageLen + 1) →
      ¬ (withCapacity capacity).Refused a) ∧
    (∀ a : List (List UInt8), ((withCapacity capacity).offerAll a).1.flatten <+: a.flatten ∧
      ∀ frame ∈ ((withCapacity capacity).offerAll a).1, lengthField frame = frame.length) ∧
    ∀ calls : List Call, (Machine.run apply (withCapacity capacity) calls).buf.length ≤
      max capacity bgpMaxMessageLen := by
  have hwait : readFrame (withCapacity capacity).buf = .wait := rfl
  refine ⟨?_, ?_, ?_, ?_, ?_⟩
  · intro a b hstream ha hb
    obtain ⟨frames, stop, h⟩ := Reads.total readFrame_final a.flatten
    rw [offerAll_eq hwait ha h, offerAll_eq hwait hb (hstream ▸ h)]
  · intro a b hstream ha
    obtain ⟨frames, stop, h⟩ := Reads.total readFrame_final a.flatten
    obtain ⟨hparts, hend⟩ := offerAll_of_refused hwait ha h
    refine ⟨hend, fun hb => ?_⟩
    rwa [offerAll_eq hwait hb (hstream ▸ h)]
  · intro a h
    exact not_refused_of_short hwait h
  · intro a
    obtain ⟨frames, stop, h⟩ := Reads.total readFrame_final a.flatten
    obtain ⟨hflat, hfield⟩ := frames_of_reads h
    by_cases ha : (withCapacity capacity).Refused a
    · obtain ⟨⟨more, rfl⟩, -⟩ := offerAll_of_refused hwait ha h
      refine ⟨(List.prefix_append _ _).trans (List.flatten_append ▸ hflat), fun frame hframe => ?_⟩
      exact hfield frame (List.mem_append_left _ hframe)
    · rw [offerAll_eq hwait ha h]
      exact ⟨hflat, hfield⟩
  · intro calls
    have hrun := Machine.run_keeps (I := Within (max capacity bgpMaxMessageLen)) apply_within calls
      (s := withCapacity capacity) ⟨rfl, Nat.zero_le _⟩
    exact hrun.2.trans_eq hrun.1

/-- Nineteen bytes that are no header, and more than the cap allows behind them. -/
theorem one_chunk_too_long :
    (withCapacity bgpFramerCapacity).offerAll [List.replicate 19 0 ++ List.replicate 8174 0] =
      ([], .error (withCapacity bgpFramerCapacity).overflow) ∧
    (withCapacity bgpFramerCapacity).offerAll [List.replicate 19 0, List.replicate 8174 0] =
      ([], .error (.header bgpSubConnectionNotSynchronized
        "marker is not the all-ones synchronisation pattern")) := by
  refine ⟨offerAll_of_over ?_, rfl⟩
  rw [List.length_append, List.length_replicate, List.length_replicate]
  decide

end BgpFramer

end ToyTcpip.Bgp

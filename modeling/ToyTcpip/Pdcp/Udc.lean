import ToyTcpip.Checksum
import ToyTcpip.Lib.Checked
import ToyTcpip.Lib.Lz77
import ToyTcpip.Lib.Machine

/-! Uplink data compression (`nr_udc_engine.rs`). -/
namespace ToyTcpip.Udc

open Checked (index slice Safe)

inductive UdcBufferSize where
  | buf2048
  | buf4096
  | buf8192
  deriving DecidableEq

def UdcBufferSize.bytes : UdcBufferSize → ℕ
  | .buf2048 => 2048
  | .buf4096 => 4096
  | .buf8192 => 8192

structure UdcHeader where
  fu : Bool
  fr : Bool
  checksum : UInt8
  deriving DecidableEq

namespace UdcHeader

def new (fu fr : Bool) (checksum : UInt8) : UdcHeader := ⟨fu, fr, checksum &&& 0x0F⟩

def serialize (h : UdcHeader) : UInt8 :=
  (if h.fu then (0x80 : UInt8) else 0x00) ||| (if h.fr then (0x40 : UInt8) else 0x00) |||
    ((h.checksum &&& 0x0F) <<< 2)

def parse (octet : UInt8) : UdcHeader :=
  ⟨octet &&& 0x80 ≠ 0, octet &&& 0x40 ≠ 0, (octet >>> 2) &&& 0x0F⟩

example : parse (serialize (new true false 0x1B)) = ⟨true, false, 0x0B⟩ := by decide +kernel

theorem parse_serialize (fu fr : Bool) (checksum : UInt8) :
    parse (serialize (new fu fr checksum)) = new fu fr checksum := by
  have hall : ∀ fu fr : Bool, ∀ n < 16, parse (serialize ⟨fu, fr, UInt8.ofNat n⟩) =
      ⟨fu, fr, UInt8.ofNat n⟩ := by decide +kernel
  have hlt : (checksum &&& 0x0F).toNat < 16 := by
    rw [UInt8.toNat_and]
    exact Nat.lt_of_le_of_lt Nat.and_le_right (by decide)
  simpa [new] using hall fu fr _ hlt

end UdcHeader

def crcShift (crc : UInt8) : UInt8 := if crc &&& 0x80 ≠ 0 then (crc <<< 1) ^^^ 0x30 else crc <<< 1

def computeUdcCrc4 (data : List UInt8) : UInt8 :=
  ((data.foldl (fun crc b => crcShift^[8] (crc ^^^ b)) 0) >>> 4) &&& 0x0F

structure UdcConfig where
  bufferSize : UdcBufferSize
  minCompressionLen : ℕ
  predefinedDictionary : Option (List UInt8)
  deriving DecidableEq

structure SlidingDictionary where
  buffer : List UInt8
  capacity : ℕ
  deriving DecidableEq

namespace SlidingDictionary

def append (d : SlidingDictionary) (data : List UInt8) : SlidingDictionary :=
  let buffer := d.buffer ++ data
  { d with buffer := if d.capacity < buffer.length then
    buffer.drop (buffer.length - d.capacity) else buffer }

/-- A dictionary as a configuration starts it, and as a reset leaves it. -/
def initial (config : UdcConfig) : SlidingDictionary :=
  match config.predefinedDictionary with
  | none => ⟨[], config.bufferSize.bytes⟩
  | some predef => append ⟨[], config.bufferSize.bytes⟩ predef

end SlidingDictionary

/-! ### Matching -/

/-- Extends a match of `len` bytes at `pos` in the dictionary, up to `maxLen`. -/
def matchLen (dict sdu : List UInt8) (pos i maxLen len : ℕ) : ℕ :=
  if len < maxLen ∧ pos + len < dict.length ∧ dict[pos + len]? = sdu[i + len]? then
    matchLen dict sdu pos i maxLen (len + 1)
  else len
termination_by maxLen - len

/-- The scan of the dictionary from its end: the first longest match among `positions`, as its
length and distance, after the best one so far. -/
def scan (dict sdu : List UInt8) (i maxLen : ℕ) : List ℕ → ℕ × ℕ → ℕ × ℕ
  | [], best => best
  | pos :: positions, best =>
    if (dict.drop pos).take 4 = (sdu.drop i).take 4 then
      let len := matchLen dict sdu pos i maxLen 4
      if best.1 < len then
        if 130 ≤ len then (len, dict.length - pos)
        else scan dict sdu i maxLen positions (len, dict.length - pos)
      else scan dict sdu i maxLen positions best
    else scan dict sdu i maxLen positions best

def bestMatch (dict sdu : List UInt8) (i : ℕ) : ℕ × ℕ :=
  if 4 ≤ dict.length ∧ 4 ≤ sdu.length - i then
    scan dict sdu i (min (sdu.length - i) 130) (List.range (dict.length - 3)).reverse (0, 0)
  else (0, 0)

/-- Runs of at most 128 literals, each behind its tag. -/
def literalRuns (run : List UInt8) : List UInt8 :=
  if run = [] then []
  else (.ofNat (min run.length 128 - 1) :: run.take 128) ++ literalRuns (run.drop 128)
termination_by run.length
decreasing_by
  have := List.length_pos_of_ne_nil ‹_›
  simp
  omega

def matchToken (len dist : ℕ) : List UInt8 := (0x80 ||| .ofNat (len - 3)) :: toBeBytes16 dist

/-- The loop of `lz77_compress` from a position on, with the start of the pending literals. -/
def lz77CompressFrom (dict sdu : List UInt8) (i literalStart : ℕ) : List UInt8 :=
  if i < sdu.length then
    if 4 ≤ (bestMatch dict sdu i).1 ∧ (bestMatch dict sdu i).2 ≤ 65535 then
      literalRuns ((sdu.take i).drop literalStart) ++
        matchToken (bestMatch dict sdu i).1 (bestMatch dict sdu i).2 ++
        lz77CompressFrom dict sdu (i + (bestMatch dict sdu i).1) (i + (bestMatch dict sdu i).1)
    else lz77CompressFrom dict sdu (i + 1) literalStart
  else literalRuns ((sdu.take i).drop literalStart)
termination_by sdu.length - i

/-! ### The two ends -/

structure UdcCompressor where
  config : UdcConfig
  dictionary : SlidingDictionary
  needsReset : Bool
  deriving DecidableEq

namespace UdcCompressor

def new (config : UdcConfig) : UdcCompressor := ⟨config, .initial config, false⟩

def triggerReset (c : UdcCompressor) : UdcCompressor := { c with needsReset := true }

def lz77Compress (dictionary : SlidingDictionary) (sdu : List UInt8) : List UInt8 :=
  lz77CompressFrom dictionary.buffer sdu 0 0

/-- The dictionary after the reset that may be due. -/
def current (c : UdcCompressor) : SlidingDictionary :=
  if c.needsReset then .initial c.config else c.dictionary

def compressSdu (c : UdcCompressor) (sdu : List UInt8) : UdcCompressor × List UInt8 :=
  let checksum := computeUdcCrc4 sdu
  let wasReset := c.needsReset
  let dictionary := c.current
  let next : UdcCompressor := ⟨c.config, dictionary.append sdu, false⟩
  let compressed := lz77Compress dictionary sdu
  if c.config.minCompressionLen ≤ sdu.length ∧ compressed.length < sdu.length then
    (next, (UdcHeader.new true wasReset checksum).serialize :: compressed)
  else (next, (UdcHeader.new false wasReset checksum).serialize :: sdu)

end UdcCompressor

structure UdcDecompressor where
  config : UdcConfig
  dictionary : SlidingDictionary
  isDesynchronized : Bool
  deriving DecidableEq

namespace UdcDecompressor

def new (config : UdcConfig) : UdcDecompressor := ⟨config, .initial config, false⟩

/-- The loop of `lz77_decompress` from a position on. -/
def lz77DecompressFrom (dict payload : List UInt8) (i : ℕ) : Checked String (List UInt8) :=
  if i < payload.length then
    (index payload i).bind fun tag =>
    if tag &&& 0x80 = 0 then
      let runLen := tag.toNat + 1
      if payload.length < i + 1 + runLen then .error "Truncated literal run in UDC payload"
      else
        (slice payload (i + 1) (i + 1 + runLen)).bind fun run =>
        (lz77DecompressFrom dict payload (i + 1 + runLen)).bind fun rest => .ok (run ++ rest)
    else
      let matchLen := (tag &&& 0x7F).toNat + 3
      if payload.length < i + 1 + 2 then .error "Truncated match token in UDC payload"
      else
        (index payload (i + 1)).bind fun hi => (index payload (i + 2)).bind fun lo =>
        let dist := beWord hi lo
        if dist = 0 ∨ dict.length < dist then .error "Match distance exceeds dictionary buffer"
        else if dict.length < dict.length - dist + matchLen then
          .error "Match length exceeds dictionary buffer boundary"
        else
          (slice dict (dict.length - dist) (dict.length - dist + matchLen)).bind fun copied =>
          (lz77DecompressFrom dict payload (i + 1 + 2)).bind fun rest => .ok (copied ++ rest)
  else .ok []
termination_by payload.length - i

/-- What the checksum decides about a payload that was read back. -/
def accept (d : UdcDecompressor) (header : UdcHeader) (reconstructed : List UInt8) :
    UdcDecompressor × Checked String (List UInt8) :=
  if computeUdcCrc4 reconstructed ≠ header.checksum then
    ({ d with isDesynchronized := true }, .error "Checksum mismatch: desynchronization detected")
  else ({ d with dictionary := d.dictionary.append reconstructed }, .ok reconstructed)

/-- The field reset. -/
def afterReset (d : UdcDecompressor) (fr : Bool) : UdcDecompressor :=
  if fr then ⟨d.config, .initial d.config, false⟩ else d

def decompressPdu (d : UdcDecompressor) (pdu : List UInt8) :
    UdcDecompressor × Checked String (List UInt8) :=
  match pdu with
  | [] => (d, .error "Empty UDC PDU payload")
  | octet :: payload =>
    let header := UdcHeader.parse octet
    let d := d.afterReset header.fr
    if d.isDesynchronized then
      (d, .error "Decompressor is in desynchronized state; awaiting reset")
    else if header.fu then
      match lz77DecompressFrom d.dictionary.buffer payload 0 with
      | .ok reconstructed => d.accept header reconstructed
      | .error _ =>
        ({ d with isDesynchronized := true },
          .error "Decompression parsing failed: desynchronization detected")
      | .panic => (d, .panic)
    else d.accept header payload

end UdcDecompressor

/-! ### The tokens of a compressed payload -/

open Lz77 (Token)

variable {dict sdu payload : List UInt8} {tokens : List (Token UInt8)} {t : Token UInt8}
  {i pos maxLen len literalStart : ℕ} {best : ℕ × ℕ}

def encode : Token UInt8 → List UInt8
  | .literal run => .ofNat (run.length - 1) :: run
  | .copy dist len => matchToken len dist

/-- A token that its bytes can tell, against a dictionary. -/
def Wire (dict : List UInt8) : Token UInt8 → Prop
  | .literal run => 1 ≤ run.length ∧ run.length ≤ 128
  | .copy dist len => 3 ≤ len ∧ len ≤ 130 ∧ dist ≤ 65535 ∧
    (Token.copy dist len : Token UInt8).Inside dict

theorem matchLen_spec (hpos : pos + len ≤ dict.length) (hlen : len ≤ maxLen)
    (h : ∀ k < len, dict[pos + k]? = sdu[i + k]?) :
    len ≤ matchLen dict sdu pos i maxLen len ∧ matchLen dict sdu pos i maxLen len ≤ maxLen ∧
      pos + matchLen dict sdu pos i maxLen len ≤ dict.length ∧
      ∀ k < matchLen dict sdu pos i maxLen len, dict[pos + k]? = sdu[i + k]? := by
  fun_induction matchLen dict sdu pos i maxLen len with
  | case1 len hmore ih =>
    obtain ⟨hmax, hdict, heq⟩ := hmore
    obtain ⟨hle, hrest⟩ := ih (by omega) (by omega) (by
      intro k hk
      rcases Nat.lt_succ_iff_lt_or_eq.mp hk with hk | rfl
      · exact h k hk
      · exact heq)
    exact ⟨by omega, hrest⟩
  | case2 len => exact ⟨le_rfl, hlen, hpos, h⟩

/-- A match of the input at `i`, inside the dictionary; or none. -/
def Matches (dict sdu : List UInt8) (i maxLen : ℕ) (best : ℕ × ℕ) : Prop :=
  best.1 = 0 ∨ (4 ≤ best.1 ∧ best.1 ≤ maxLen ∧ best.1 ≤ best.2 ∧ best.2 ≤ dict.length ∧
    ∀ k < best.1, dict[dict.length - best.2 + k]? = sdu[i + k]?)

theorem matches_matchLen (hpos : pos + 4 ≤ dict.length) (hmax : 4 ≤ maxLen)
    (h : (dict.drop pos).take 4 = (sdu.drop i).take 4) :
    Matches dict sdu i maxLen (matchLen dict sdu pos i maxLen 4, dict.length - pos) := by
  have hfour : ∀ k < 4, dict[pos + k]? = sdu[i + k]? := by
    intro k hk
    have hk' := congrArg (fun l => l[k]?) h
    simpa [List.getElem?_take, hk] using hk'
  obtain ⟨hle, hmax', hdict, heq⟩ := matchLen_spec hpos hmax hfour
  refine .inr ⟨hle, hmax', by omega, Nat.sub_le _ _, ?_⟩
  dsimp only
  rw [Nat.sub_sub_self (by omega)]
  exact heq

theorem matches_scan {positions : List ℕ} (hmax : 4 ≤ maxLen)
    (hpos : ∀ pos ∈ positions, pos + 4 ≤ dict.length) (hbest : Matches dict sdu i maxLen best) :
    Matches dict sdu i maxLen (scan dict sdu i maxLen positions best) := by
  induction positions generalizing best with
  | nil => exact hbest
  | cons pos positions ih =>
    have hrest : ∀ p ∈ positions, p + 4 ≤ dict.length :=
      fun p hp => hpos p (List.mem_cons_of_mem pos hp)
    rw [scan]
    split_ifs with hprefix
    · have hmatch := matches_matchLen (hpos pos List.mem_cons_self) hmax hprefix
      dsimp only
      split_ifs
      · exact hmatch
      · exact ih hrest hmatch
      · exact ih hrest hbest
    · exact ih hrest hbest

/-- A match that is long enough to be sent. -/
theorem bestMatch_spec (h : 4 ≤ (bestMatch dict sdu i).1) :
    i + (bestMatch dict sdu i).1 ≤ sdu.length ∧ (bestMatch dict sdu i).1 ≤ 130 ∧
      (bestMatch dict sdu i).1 ≤ (bestMatch dict sdu i).2 ∧ (bestMatch dict sdu i).2 ≤ dict.length ∧
      ∀ k < (bestMatch dict sdu i).1,
        dict[dict.length - (bestMatch dict sdu i).2 + k]? = sdu[i + k]? := by
  unfold bestMatch at *
  split_ifs at * with hlong
  · have hscan := @matches_scan dict sdu i (min (sdu.length - i) 130) (0, 0)
      (List.range (dict.length - 3)).reverse (by omega)
      (by
        intro pos hpos
        rw [List.mem_reverse, List.mem_range] at hpos
        omega) (.inl rfl)
    rcases hscan with hzero | ⟨-, hmax, hrest⟩
    · omega
    · exact ⟨by omega, by omega, hrest⟩
  · simp at h

theorem exists_runs (run : List UInt8) : ∃ runs : List (List UInt8),
    literalRuns run = (runs.map Token.literal).flatMap encode ∧ runs.flatten = run ∧
      ∀ r ∈ runs, 1 ≤ r.length ∧ r.length ≤ 128 := by
  fun_induction literalRuns run with
  | case1 => exact ⟨[], rfl, rfl, by simp⟩
  | case2 run hne ih =>
    obtain ⟨runs, hruns, hflatten, hlen⟩ := ih
    have hpos := List.length_pos_of_ne_nil hne
    refine ⟨run.take 128 :: runs, ?_, ?_, ?_⟩
    · simp only [List.map_cons, List.flatMap_cons, hruns, encode, List.length_take,
        min_comm 128 run.length]
    · rw [List.flatten_cons, hflatten, List.take_append_drop]
    · intro r hr
      rcases List.mem_cons.mp hr with rfl | hr
      · rw [List.length_take]
        omega
      · exact hlen r hr

/-- The literals pending at `i`, as tokens. -/
theorem exists_literals (dict sdu : List UInt8) (hstart : literalStart ≤ i) :
    ∃ tokens, literalRuns ((sdu.take i).drop literalStart) = tokens.flatMap encode ∧
      (∀ t ∈ tokens, Wire dict t) ∧ Lz77.expand dict tokens ++ sdu.drop i =
        sdu.drop literalStart := by
  obtain ⟨runs, hruns, hflatten, hlen⟩ := exists_runs ((sdu.take i).drop literalStart)
  refine ⟨runs.map .literal, hruns, ?_, ?_⟩
  · intro t ht
    obtain ⟨r, hr, rfl⟩ := List.mem_map.mp ht
    exact hlen r hr
  · rw [Lz77.expand_literals, hflatten, Lz77.drop_split hstart]

/-- Compression writes tokens that stand for the input. -/
theorem exists_tokens (hstart : literalStart ≤ i) (hi : i ≤ sdu.length) :
    ∃ tokens, lz77CompressFrom dict sdu i literalStart = tokens.flatMap encode ∧
      (∀ t ∈ tokens, Wire dict t) ∧ Lz77.expand dict tokens = sdu.drop literalStart := by
  fun_induction lz77CompressFrom dict sdu i literalStart with
  | case1 i literalStart hlt hmatch ih =>
    obtain ⟨hfour, hdist⟩ := hmatch
    obtain ⟨hend, hlong, hinside, hdict, heq⟩ := bestMatch_spec hfour
    obtain ⟨literals, hliterals, hwire, hexpand⟩ := exists_literals dict sdu hstart
    obtain ⟨tokens, htokens, hwire', hexpand'⟩ := ih le_rfl hend
    generalize bestMatch dict sdu i = best at *
    refine ⟨literals ++ .copy best.2 best.1 :: tokens, ?_, ?_, ?_⟩
    · simp [hliterals, htokens, encode]
    · intro t ht
      rcases List.mem_append.mp ht with ht | ht
      · exact hwire t ht
      · rcases List.mem_cons.mp ht with rfl | ht
        · exact ⟨by omega, hlong, hdist, by omega, hinside, hdict⟩
        · exact hwire' t ht
    · have hcopy : (Token.copy best.2 best.1).expand dict = (sdu.take (i + best.1)).drop i :=
        Lz77.take_drop_eq heq
      rw [Lz77.expand_append, Lz77.expand_cons, hcopy, hexpand',
        Lz77.drop_split (by omega), hexpand]
  | case2 i literalStart hlt hmatch ih => exact ih (by omega) (by omega)
  | case3 i literalStart hlt =>
    obtain ⟨literals, hliterals, hwire, hexpand⟩ := exists_literals dict sdu hstart
    refine ⟨literals, hliterals, hwire, ?_⟩
    rw [← hexpand, List.drop_eq_nil_of_le (by omega), List.append_nil]

/-! ### Reading the tokens back -/

namespace UdcDecompressor

theorem literal_tag {n : ℕ} (h : 1 ≤ n ∧ n ≤ 128) :
    UInt8.ofNat (n - 1) &&& 0x80 = 0 ∧ (UInt8.ofNat (n - 1)).toNat + 1 = n := by
  have hall : ∀ m < 128, UInt8.ofNat m &&& 0x80 = 0 ∧ (UInt8.ofNat m).toNat = m := by decide +kernel
  obtain ⟨hbit, hval⟩ := hall (n - 1) (by omega)
  exact ⟨hbit, by omega⟩

theorem match_tag {n : ℕ} (h : 3 ≤ n ∧ n ≤ 130) :
    (0x80 ||| UInt8.ofNat (n - 3)) &&& 0x80 ≠ 0 ∧
      ((0x80 ||| UInt8.ofNat (n - 3)) &&& 0x7F).toNat + 3 = n := by
  have hall : ∀ m < 128, (0x80 ||| UInt8.ofNat m) &&& 0x80 ≠ 0 ∧
      ((0x80 ||| UInt8.ofNat m) &&& 0x7F).toNat = m := by decide +kernel
  obtain ⟨hbit, hval⟩ := hall (n - 3) (by omega)
  exact ⟨hbit, by omega⟩

/-- Tokens are read back to what they stand for. -/
theorem lz77DecompressFrom_tokens (htokens : ∀ t ∈ tokens, Wire dict t) (hi : i ≤ payload.length)
    (hd : payload.drop i = tokens.flatMap encode) :
    lz77DecompressFrom dict payload i = .ok (Lz77.expand dict tokens) := by
  induction tokens generalizing i with
  | nil =>
    have hlen := congrArg List.length hd
    simp only [List.length_drop, List.flatMap_nil, List.length_nil] at hlen
    rw [lz77DecompressFrom, if_neg (by omega)]
    rfl
  | cons t tokens ih =>
    have hwire := htokens t List.mem_cons_self
    have hrest := fun x hx => htokens x (List.mem_cons_of_mem t hx)
    have hlen := congrArg List.length hd
    rw [List.flatMap_cons] at hd
    rw [List.length_drop, List.flatMap_cons, List.length_append] at hlen
    cases t with
    | literal run =>
      obtain ⟨hbit, hval⟩ := literal_tag hwire
      rw [encode, List.cons_append] at hd
      simp only [encode, List.length_cons] at hlen
      have htail := Checked.drop_succ_of_drop hd
      have hnext := congrArg (List.drop run.length) htail
      rw [List.drop_drop, List.drop_left] at hnext
      rw [lz77DecompressFrom, if_pos (by omega), Checked.bind_of_eq_ok _ (Checked.index_of_drop hd),
        if_pos hbit, hval, if_neg (by omega),
        Checked.bind_of_eq_ok _ (Checked.slice_of_drop (by omega) htail), ih hrest (by omega) hnext]
      rfl
    | copy dist len =>
      obtain ⟨hthree, hlong, hdist, hpos, hinside, hdict⟩ := hwire
      obtain ⟨hbit, hval⟩ := match_tag ⟨hthree, hlong⟩
      rw [encode, matchToken, toBeBytes16, List.cons_append] at hd
      simp only [encode, matchToken, toBeBytes16, List.length_cons, List.length_nil] at hlen
      have htail := Checked.drop_succ_of_drop hd
      have htail' := Checked.drop_succ_of_drop htail
      have hnext := Checked.drop_succ_of_drop htail'
      rw [lz77DecompressFrom, if_pos (by omega), Checked.bind_of_eq_ok _ (Checked.index_of_drop hd),
        if_neg hbit, hval, if_neg (by omega), Checked.bind_of_eq_ok _ (Checked.index_of_drop htail),
        Checked.bind_of_eq_ok _ (Checked.index_of_drop htail'), beWord_toBeBytes16 (by omega)]
      dsimp only
      rw [if_neg (by omega), if_neg (by omega),
        Checked.bind_of_eq_ok _ (Checked.slice_eq_ok (by omega) (by omega)),
        ih hrest (by omega) hnext, List.drop_take, Nat.add_sub_cancel_left]
      rfl

theorem lz77Decompress_compress (dictionary : SlidingDictionary) (sdu : List UInt8) :
    lz77DecompressFrom dictionary.buffer (UdcCompressor.lz77Compress dictionary sdu) 0 =
      .ok sdu := by
  obtain ⟨tokens, htokens, hwire, hexpand⟩ :=
    @exists_tokens dictionary.buffer sdu 0 0 le_rfl (Nat.zero_le _)
  rw [UdcCompressor.lz77Compress, lz77DecompressFrom_tokens hwire (Nat.zero_le _) htokens, hexpand,
    List.drop_zero]

/-- No payload makes the decompressor read outside it or outside the dictionary. -/
theorem safe_lz77DecompressFrom (dict payload : List UInt8) (i : ℕ) :
    Safe (lz77DecompressFrom dict payload i) := by
  induction hn : payload.length - i using Nat.strong_induction_on generalizing i with
  | _ n ih =>
    rw [lz77DecompressFrom]
    refine Checked.safe_ite (fun hlt => ?_) fun _ => Checked.safe_ok _
    refine Safe.bind (Checked.safe_index hlt) fun tag _ => ?_
    refine Checked.safe_ite (fun _ => ?_) fun _ => ?_
    · refine Checked.safe_ite (fun _ => Checked.safe_error _) fun hrun => ?_
      refine Safe.bind (Checked.safe_slice (by omega) (by omega)) fun run _ => ?_
      exact Safe.bind (ih _ (by omega) _ rfl) fun rest _ => Checked.safe_ok _
    · refine Checked.safe_ite (fun _ => Checked.safe_error _) fun htoken => ?_
      refine Safe.bind (Checked.safe_index (by omega)) fun hi _ => ?_
      refine Safe.bind (Checked.safe_index (by omega)) fun lo _ => ?_
      refine Checked.safe_ite (fun _ => Checked.safe_error _) fun hdist => ?_
      refine Checked.safe_ite (fun _ => Checked.safe_error _) fun hlong => ?_
      refine Safe.bind (Checked.safe_slice (by omega) (by omega)) fun copied _ => ?_
      exact Safe.bind (ih _ (by omega) _ rfl) fun rest _ => Checked.safe_ok _

theorem safe_decompressPdu (d : UdcDecompressor) (pdu : List UInt8) :
    Safe (d.decompressPdu pdu).2 := by
  have haccept : ∀ (d : UdcDecompressor) header sdu, Safe (d.accept header sdu).2 := by
    intro d header sdu
    unfold accept
    split_ifs
    · exact Checked.safe_error _
    · exact Checked.safe_ok _
  unfold decompressPdu
  split
  · exact Checked.safe_error _
  · rename_i octet payload
    dsimp only
    generalize d.afterReset (UdcHeader.parse octet).fr = d'
    split_ifs
    · exact Checked.safe_error _
    · split
      · exact haccept _ _ _
      · exact Checked.safe_error _
      · rename_i hpanic
        exact absurd hpanic (safe_lz77DecompressFrom _ _ _)
    · exact haccept _ _ _

end UdcDecompressor

/-! ### One PDU -/

variable {c : UdcCompressor} {d : UdcDecompressor} {config : UdcConfig}

theorem compressSdu_next (c : UdcCompressor) (sdu : List UInt8) :
    (c.compressSdu sdu).1 = ⟨c.config, c.current.append sdu, false⟩ := by
  unfold UdcCompressor.compressSdu
  dsimp only
  split <;> rfl

/-- The PDU is one byte longer than the SDU, or it is compressed and no longer than the SDU. -/
theorem compressSdu_pdu (c : UdcCompressor) (sdu : List UInt8) :
    (c.compressSdu sdu).2 = (UdcHeader.new false c.needsReset (computeUdcCrc4 sdu)).serialize ::
      sdu ∨
    (c.compressSdu sdu).2 = (UdcHeader.new true c.needsReset (computeUdcCrc4 sdu)).serialize ::
        UdcCompressor.lz77Compress c.current sdu ∧
      (UdcCompressor.lz77Compress c.current sdu).length < sdu.length := by
  unfold UdcCompressor.compressSdu
  dsimp only
  split_ifs with h
  · exact .inr ⟨rfl, h.2⟩
  · exact .inl rfl

theorem length_compressSdu_le (c : UdcCompressor) (sdu : List UInt8) :
    (c.compressSdu sdu).2.length ≤ 1 + sdu.length := by
  rcases compressSdu_pdu c sdu with h | ⟨h, hlt⟩
  · rw [h, List.length_cons]
    omega
  · rw [h, List.length_cons]
    omega

/-- The two ends agree on the dictionary, and nothing was found lost. -/
structure Agree (c : UdcCompressor) (d : UdcDecompressor) : Prop where
  dictionary : d.dictionary = c.dictionary
  synchronized : d.isDesynchronized = false

theorem checksum_mask (data : List UInt8) : computeUdcCrc4 data &&& 0x0F = computeUdcCrc4 data := by
  rw [computeUdcCrc4, UInt8.and_assoc, UInt8.and_self]

theorem accept_of_checksum (d : UdcDecompressor) (fu fr : Bool) (sdu : List UInt8) :
    d.accept (UdcHeader.new fu fr (computeUdcCrc4 sdu)) sdu =
      ({ d with dictionary := d.dictionary.append sdu }, .ok sdu) := by
  rw [UdcDecompressor.accept, UdcHeader.new, checksum_mask, if_neg (by simp)]

/-- A PDU that comes in while the two ends agree, or that resets them, gives its SDU back. -/
theorem decompressPdu_compressSdu (hconfig : d.config = c.config)
    (h : c.needsReset = true ∨ Agree c d) (sdu : List UInt8) :
    (d.decompressPdu (c.compressSdu sdu).2).2 = .ok sdu ∧
      Agree (c.compressSdu sdu).1 (d.decompressPdu (c.compressSdu sdu).2).1 := by
  generalize hd' : d.afterReset c.needsReset = d'
  have hagree : d'.dictionary = c.current ∧ d'.isDesynchronized = false := by
    rw [← hd', UdcDecompressor.afterReset, UdcCompressor.current]
    split_ifs with hreset
    · exact ⟨by rw [hconfig], rfl⟩
    · have := h.resolve_left hreset
      exact ⟨this.dictionary, this.synchronized⟩
  have hpdu : d.decompressPdu (c.compressSdu sdu).2 =
      ({ d' with dictionary := d'.dictionary.append sdu }, .ok sdu) := by
    have hfr : ∀ fu, d.afterReset (UdcHeader.new fu c.needsReset (computeUdcCrc4 sdu)).fr = d' :=
      fun _ => hd'
    have hfu : ∀ fu, (UdcHeader.new fu c.needsReset (computeUdcCrc4 sdu)).fu = fu := fun _ => rfl
    rcases compressSdu_pdu c sdu with hpdu | ⟨hpdu, -⟩
    · simp only [hpdu, UdcDecompressor.decompressPdu, UdcHeader.parse_serialize, hfr, hfu, hagree.2,
        Bool.false_eq_true, if_false, accept_of_checksum]
    · simp only [hpdu, UdcDecompressor.decompressPdu, UdcHeader.parse_serialize, hfr, hfu, hagree.2,
        Bool.false_eq_true, if_false, if_true, hagree.1, UdcDecompressor.lz77Decompress_compress,
        accept_of_checksum]
  rw [hpdu, compressSdu_next]
  exact ⟨rfl, by rw [hagree.1], hagree.2⟩

/-! ### Streams of SDUs, some of whose PDUs are lost -/

/-- An SDU, whose PDU comes in or is lost; or a trigger of a reset. -/
inductive Event where
  | sdu (data : List UInt8) (lost : Bool)
  | triggerReset

/-- The two ends, and whether no PDU was lost since the start or the last PDU that came in with the
reset flag. -/
structure Link where
  compressor : UdcCompressor
  decompressor : UdcDecompressor
  synced : Bool

namespace Link

def start (config : UdcConfig) : Link := ⟨.new config, .new config, true⟩

def step (s : Link) : Event → Link
  | .triggerReset => { s with compressor := s.compressor.triggerReset }
  | .sdu data true => { s with compressor := (s.compressor.compressSdu data).1, synced := false }
  | .sdu data false =>
    ⟨(s.compressor.compressSdu data).1,
      (s.decompressor.decompressPdu (s.compressor.compressSdu data).2).1,
      s.synced || s.compressor.needsReset⟩

def run : Link → List Event → Link := Machine.run step

structure Sound (config : UdcConfig) (s : Link) : Prop where
  compressor : s.compressor.config = config
  decompressor : s.decompressor.config = config
  agree : s.synced = true → Agree s.compressor s.decompressor

variable {s : Link}

theorem config_decompressPdu (d : UdcDecompressor) (pdu : List UInt8) :
    (d.decompressPdu pdu).1.config = d.config := by
  have haccept : ∀ (d : UdcDecompressor) header sdu, (d.accept header sdu).1.config = d.config := by
    intro d header sdu
    unfold UdcDecompressor.accept
    split <;> rfl
  have hreset : ∀ fr, (d.afterReset fr).config = d.config := by
    intro fr
    unfold UdcDecompressor.afterReset
    split <;> rfl
  unfold UdcDecompressor.decompressPdu
  split
  · rfl
  · rename_i octet payload
    rw [← hreset (UdcHeader.parse octet).fr]
    dsimp only
    generalize d.afterReset (UdcHeader.parse octet).fr = d'
    split_ifs
    · rfl
    · split
      · exact haccept _ _ _
      · rfl
      · rfl
    · exact haccept _ _ _

theorem Sound.step {config : UdcConfig} (h : s.Sound config) (e : Event) :
    (s.step e).Sound config := by
  rcases e with ⟨data, _ | _⟩ | _
  · refine ⟨?_, ?_, ?_⟩
    · rw [Link.step, compressSdu_next]
      exact h.compressor
    · rw [Link.step, config_decompressPdu]
      exact h.decompressor
    · intro hsynced
      have hcase : s.compressor.needsReset = true ∨ Agree s.compressor s.decompressor := by
        rcases Bool.or_eq_true_iff.mp hsynced with hs | hr
        · exact .inr (h.agree hs)
        · exact .inl hr
      exact (decompressPdu_compressSdu (h.decompressor.trans h.compressor.symm) hcase data).2
  · refine ⟨?_, h.decompressor, fun hsynced => by cases hsynced⟩
    rw [Link.step, compressSdu_next]
    exact h.compressor
  · exact ⟨h.compressor, h.decompressor, fun hsynced =>
      ⟨(h.agree hsynced).dictionary, (h.agree hsynced).synchronized⟩⟩

theorem sound_run (config : UdcConfig) (events : List Event) :
    ((start config).run events).Sound config :=
  Machine.run_keeps (I := Sound config) (fun _ e h => h.step e) events
    ⟨rfl, rfl, fun _ => ⟨rfl, rfl⟩⟩

/-- From the start, or from a PDU that comes in with the reset flag, until the next loss: the
dictionaries are equal and every PDU gives its SDU back. No PDU is longer than its SDU by more than
one byte, and no bytes make a decompressor read outside its dictionary or its input. -/
theorem udc_lossless (config : UdcConfig) (events : List Event) :
    let s := (start config).run events
    (s.synced = true → s.compressor.dictionary = s.decompressor.dictionary) ∧
      (∀ sdu, s.synced = true ∨ s.compressor.needsReset = true →
        (s.decompressor.decompressPdu (s.compressor.compressSdu sdu).2).2 = .ok sdu) ∧
      (∀ sdu, (s.compressor.compressSdu sdu).2.length ≤ 1 + sdu.length) ∧
      ∀ (d : UdcDecompressor) (pdu : List UInt8), Safe (d.decompressPdu pdu).2 := by
  intro s
  have h : s.Sound config := sound_run config events
  refine ⟨fun hs => (h.agree hs).dictionary.symm, ?_, length_compressSdu_le s.compressor,
    UdcDecompressor.safe_decompressPdu⟩
  intro sdu hcase
  exact (decompressPdu_compressSdu (h.decompressor.trans h.compressor.symm)
    (hcase.symm.imp_right h.agree) sdu).1

end Link

end ToyTcpip.Udc

import ToyTcpip.Lib.Checked
import ToyTcpip.Lib.Hashed

/-! File transfers of `tftp.rs`. -/
namespace ToyTcpip.Tftp

open Checked (slice Safe)
open Hashed (HashMap)

def tftpBlockSize : ℕ := 512

inductive TftpPacket where
  | data (blockNum : UInt16) (data : List UInt8)
  | error (errorCode : UInt16) (message : String)
  deriving DecidableEq

structure TftpFileServer where
  files : HashMap String (List UInt8)

namespace TftpFileServer

def addFile (s : TftpFileServer) (filename : String) (content : List UInt8) : TftpFileServer :=
  ⟨s.files.insert filename content⟩

def handleReadRequest (s : TftpFileServer) (filename : String) (blockNum : UInt16) :
    Checked Empty TftpPacket :=
  match s.files.lookup filename with
  | some content =>
    let offset := (blockNum.toNat - 1) * tftpBlockSize
    if content.length ≤ offset ∧ content ≠ [] then .ok (.data blockNum [])
    else
      let last := min (offset + tftpBlockSize) content.length
      (slice content offset last).bind fun chunk => .ok (.data blockNum chunk)
  | none => .ok (.error 1 ("File '" ++ filename ++ "' not found"))

/-- The blocks from number `n` on, the number sent as sixteen bits, up to and including the first
that is shorter than the others. -/
inductive Transfer (s : TftpFileServer) (filename : String) : ℕ → List UInt8 → Prop
  | last {n : ℕ} {block : List UInt8}
      (answer : s.handleReadRequest filename (.ofNat n) = .ok (.data (.ofNat n) block))
      (short : block.length < tftpBlockSize) : Transfer s filename n block
  | more {n : ℕ} {block rest : List UInt8}
      (answer : s.handleReadRequest filename (.ofNat n) = .ok (.data (.ofNat n) block))
      (full : block.length = tftpBlockSize) (next : Transfer s filename (n + 1) rest) :
      Transfer s filename n (block ++ rest)

variable {s : TftpFileServer} {filename : String} {content block rest : List UInt8}
  {b : UInt16} {n : ℕ}

/-- A file that is not empty is answered with its bytes from the block's offset on, 512 at most. -/
theorem handleReadRequest_eq (h : s.files.lookup filename = some content) (hne : content ≠ []) :
    s.handleReadRequest filename b =
      .ok (.data b ((content.drop ((b.toNat - 1) * tftpBlockSize)).take tftpBlockSize)) := by
  rw [handleReadRequest, h]
  dsimp only
  by_cases hlen : content.length ≤ (b.toNat - 1) * tftpBlockSize
  · rw [if_pos ⟨hlen, hne⟩, List.drop_eq_nil_of_le hlen, List.take_nil]
  · rw [if_neg (by tauto), Checked.slice_eq_ok (by omega) (by omega), Checked.ok_bind,
      List.drop_take]
    congr 2
    rcases le_total ((b.toNat - 1) * tftpBlockSize + tftpBlockSize) content.length with hle | hle
    · rw [min_eq_left hle, Nat.add_sub_cancel_left]
    · rw [min_eq_right hle, List.take_of_length_le (by simp),
        List.take_of_length_le (by simp; omega)]

theorem handleReadRequest_drop (h : s.files.lookup filename = some content) (hne : content ≠ [])
    (hn : n < 65535) : s.handleReadRequest filename (.ofNat (n + 1)) =
      .ok (.data (.ofNat (n + 1)) ((content.drop (n * 512)).take 512)) := by
  have hnum : (UInt16.ofNat (n + 1)).toNat - 1 = n := by
    rw [UInt16.toNat_ofNat']
    omega
  rw [handleReadRequest_eq h hne, hnum, tftpBlockSize]

/-- A block past the first of an empty file is cut out beyond its end. -/
theorem handleReadRequest_empty (h : s.files.lookup filename = some []) (hb : 2 ≤ b.toNat) :
    s.handleReadRequest filename b = .panic := by
  have hoff : ¬ (b.toNat - 1) * 512 ≤ 0 := by omega
  simp [handleReadRequest, h, tftpBlockSize, slice, hoff, Checked.bind]

theorem transfer_drop (h : s.files.lookup filename = some content) (hne : content ≠ [])
    (hlen : content.length < 65535 * 512) (k : ℕ) (hk : content.length / 512 = n + k) :
    Transfer s filename (n + 1) (content.drop (n * 512)) := by
  induction k generalizing n with
  | zero =>
    have hans := handleReadRequest_drop h hne (by omega : n < 65535)
    have hshort : (content.drop (n * 512)).length < 512 := by
      rw [List.length_drop]
      omega
    rw [List.take_of_length_le hshort.le] at hans
    exact .last hans hshort
  | succ k ih =>
    have hans := handleReadRequest_drop h hne (by omega : n < 65535)
    have hnext := @ih (n + 1) (by omega)
    rw [Nat.succ_mul] at hnext
    have hfull : ((content.drop (n * 512)).take 512).length = 512 := by
      rw [List.length_take, List.length_drop]
      omega
    rw [← List.take_append_drop 512 (content.drop (n * 512)), List.drop_drop]
    exact .more hans hfull hnext

/-- When the numbers wrap round before the file ends, every block is a full one. -/
theorem not_transfer_of_long (h : s.files.lookup filename = some content)
    (hlen : 65535 * 512 ≤ content.length) : ¬ Transfer s filename n rest := by
  have hne : content ≠ [] := by
    rintro rfl
    simp at hlen
  intro ht
  induction ht with
  | @last n block answer short =>
    rw [handleReadRequest_eq h hne] at answer
    have hb := (UInt16.ofNat n).toNat_lt
    have hblock := congrArg List.length (TftpPacket.data.inj (Checked.ok.inj answer)).2
    simp only [tftpBlockSize, List.length_take, List.length_drop] at short hblock
    omega
  | more answer full next ih => exact ih

/-- Every request for a stored file is answered and the blocks add up to the file, for the files
that are not empty and have fewer than 65535 full blocks, and for no others. -/
theorem read_iff (h : s.files.lookup filename = some content) :
    ((∀ b, Safe (s.handleReadRequest filename b)) ∧ Transfer s filename 1 content) ↔
      content ≠ [] ∧ content.length < 65535 * 512 := by
  constructor
  · rintro ⟨hsafe, ht⟩
    constructor
    · rintro rfl
      exact hsafe 2 (handleReadRequest_empty h (by decide))
    · by_contra hlong
      exact not_transfer_of_long h (not_lt.mp hlong) ht
  · rintro ⟨hne, hlen⟩
    refine ⟨fun b => ?_, ?_⟩
    · rw [handleReadRequest_eq h hne]
      exact Checked.safe_ok _
    · simpa using transfer_drop h hne hlen (content.length / 512) (Nat.zero_add _).symm

/-- A file of one full block and eight bytes. -/
theorem read_firmware : (∀ b, Safe
      ((⟨∅⟩ : TftpFileServer).addFile "firmware"
        (List.replicate 520 0xAA) |>.handleReadRequest "firmware" b)) ∧
    Transfer ((⟨∅⟩ : TftpFileServer).addFile "firmware" (List.replicate 520 0xAA)) "firmware" 1
      (List.replicate 520 0xAA) :=
  (read_iff (AList.lookup_insert _)).mpr
    ⟨List.replicate_succ_ne_nil, by rw [List.length_replicate]; decide⟩

/-- The second block of an empty file. -/
theorem read_empty_file : ¬ ∀ (s : TftpFileServer) (filename : String) (content : List UInt8),
    s.files.lookup filename = some content →
    (∀ b, Safe (s.handleReadRequest filename b)) ∧ Transfer s filename 1 content := by
  intro h
  have hempty : ((⟨∅⟩ : TftpFileServer).addFile "empty" []).files.lookup "empty" = some [] :=
    AList.lookup_insert _
  exact (h _ _ _ hempty).1 2 (handleReadRequest_empty hempty (by decide))

end TftpFileServer

end ToyTcpip.Tftp

import ToyTcpip.Routing.Table

/-! Prefixes, origins and AS paths of `bgp.rs`. -/
namespace ToyTcpip.Bgp

def asPathMaxSegmentAsns : ℕ := 255

def asTrans : UInt32 := 23456

structure Ipv4Prefix where
  address : Ipv4Address
  length : UInt8
  deriving DecidableEq, Repr

def Ipv4Prefix.new (address : Ipv4Address) (length : UInt8) : Ipv4Prefix :=
  let length := min length 32
  ⟨address.mask length.toNat, length⟩

def Ipv4Prefix.contains (p : Ipv4Prefix) (ip : Ipv4Address) : Bool :=
  ip.mask p.length.toNat = p.address

inductive BgpOrigin where
  | igp
  | egp
  | incomplete
  deriving DecidableEq, Repr

namespace BgpOrigin

def fromU8 (v : UInt8) : Option BgpOrigin :=
  if v = 0 then some .igp
  else if v = 1 then some .egp
  else if v = 2 then some .incomplete
  else none

def toU8 : BgpOrigin → UInt8
  | .igp => 0
  | .egp => 1
  | .incomplete => 2

end BgpOrigin

inductive AsPathSegmentKind where
  | set
  | sequence
  deriving DecidableEq, Repr

structure AsPathSegment where
  kind : AsPathSegmentKind
  asns : List UInt32
  deriving DecidableEq, Repr

structure AsPath where
  segments : List AsPathSegment
  deriving DecidableEq, Repr

namespace AsPath

def empty : AsPath := ⟨[]⟩

def sequence (asns : List UInt32) : AsPath :=
  if asns.isEmpty then .empty else ⟨[⟨.sequence, asns⟩]⟩

/-- Every AS of a sequence counts once, a whole set counts once. -/
def length (p : AsPath) : ℕ :=
  (p.segments.map fun s => match s.kind with
    | .sequence => s.asns.length
    | .set => 1).sum

def isEmpty (p : AsPath) : Bool := p.segments.all fun s => s.asns.isEmpty

def contains (p : AsPath) (asn : UInt32) : Bool := p.segments.any fun s => s.asns.contains asn

def needsFourOctets (p : AsPath) : Bool :=
  p.segments.any fun s => s.asns.any fun a => 65535 < a.toNat

/-- Leftmost AS of the leftmost sequence. -/
def firstAs (p : AsPath) : Option UInt32 :=
  (p.segments.find? fun s => s.kind = .sequence).bind fun s => s.asns.head?

/-- Leftmost AS, when the path begins with a sequence. -/
def leadingAs (p : AsPath) : Option UInt32 :=
  match p.segments.head? with
  | some seg => if seg.kind = .sequence then seg.asns.head? else none
  | none => none

def prepend (p : AsPath) (asn : UInt32) : AsPath :=
  match p.segments with
  | seg :: rest =>
    if seg.kind = .sequence ∧ seg.asns.length < 255 then ⟨⟨seg.kind, asn :: seg.asns⟩ :: rest⟩
    else ⟨⟨.sequence, [asn]⟩ :: seg :: rest⟩
  | [] => ⟨[⟨.sequence, [asn]⟩]⟩

def flatten (p : AsPath) : List UInt32 := p.segments.flatMap fun s => s.asns

end AsPath

end ToyTcpip.Bgp

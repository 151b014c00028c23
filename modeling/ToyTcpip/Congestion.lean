import Mathlib.Data.Rat.Floor
import Mathlib.Tactic

/-! Congestion window of `congestion.rs`, and the interface of its RTT estimator. -/
namespace ToyTcpip

inductive CongestionState where
  | slowStart
  | congestionAvoidance
  | fastRecovery
  deriving DecidableEq, Repr

/-- `cwnd`, `ssthresh` and `mss` stay below `2 ^ 32`; only `in_flight` is kept as a word. -/
structure CongestionControl where
  cwnd : ℕ
  ssthresh : ℕ
  mss : ℕ
  dupAckCount : ℕ
  state : CongestionState
  inFlight : BitVec 32
  deriving DecidableEq, Repr

/-- `u32::saturating_add`. -/
def satAdd (a b : ℕ) : ℕ := min (a + b) (2 ^ 32 - 1)

namespace CongestionControl

def new (mss : ℕ) : CongestionControl :=
  { cwnd := 2 * mss, ssthresh := 65535, mss, dupAckCount := 0, state := .slowStart, inFlight := 0 }

def release (cc : CongestionControl) (bytesAcked : BitVec 32) : BitVec 32 :=
  if bytesAcked ≤ cc.inFlight then cc.inFlight - bytesAcked else 0

def onAck (cc : CongestionControl) (bytesAcked : BitVec 32) : CongestionControl :=
  let cc := { cc with inFlight := cc.release bytesAcked }
  match cc.state with
  | .slowStart =>
    let cwnd := satAdd cc.cwnd (min bytesAcked.toNat cc.mss)
    { cc with
      cwnd
      state := if cc.ssthresh ≤ cwnd then .congestionAvoidance else .slowStart
      dupAckCount := 0 }
  | .congestionAvoidance =>
    let cwnd :=
      if 0 < cc.cwnd then satAdd cc.cwnd (max (cc.mss * cc.mss / cc.cwnd) 1) else cc.cwnd
    { cc with cwnd, dupAckCount := 0 }
  | .fastRecovery =>
    { cc with cwnd := cc.ssthresh, dupAckCount := 0, state := .congestionAvoidance }

/-- The flag asks for a fast retransmit: the third duplicate has arrived. -/
def onDupAck (cc : CongestionControl) : CongestionControl × Bool :=
  let cc := { cc with dupAckCount := cc.dupAckCount + 1 }
  if cc.dupAckCount = 3 then
    let ssthresh := max (cc.cwnd / 2) (2 * cc.mss)
    ({ cc with ssthresh, cwnd := ssthresh + 3 * cc.mss, state := .fastRecovery }, true)
  else if 3 < cc.dupAckCount ∧ cc.state = .fastRecovery then
    ({ cc with cwnd := satAdd cc.cwnd cc.mss }, false)
  else (cc, false)

def onTimeout (cc : CongestionControl) : CongestionControl :=
  { cc with
    ssthresh := max (cc.cwnd / 2) (2 * cc.mss)
    cwnd := cc.mss
    dupAckCount := 0
    state := .slowStart }

def sendWindowAvailable (cc : CongestionControl) (peerRwnd : BitVec 16) : ℕ :=
  min cc.cwnd peerRwnd.toNat - cc.inFlight.toNat

def recordSent (cc : CongestionControl) (bytes : BitVec 32) : CongestionControl :=
  { cc with inFlight := cc.inFlight + bytes }

@[simp] theorem onAck_inFlight (cc : CongestionControl) (n : BitVec 32) :
    (cc.onAck n).inFlight = cc.release n := by
  unfold onAck
  cases h : cc.state <;> simp

@[simp] theorem onDupAck_inFlight (cc : CongestionControl) :
    cc.onDupAck.1.inFlight = cc.inFlight := by
  unfold onDupAck
  dsimp only
  split_ifs <;> rfl

end CongestionControl

/-- The `f64` estimator seen through what a connection uses of it; samples are whole
milliseconds and `rto` is the timeout cast to `u64`. -/
class RttEstimator (ρ : Type) where
  new : ρ
  updateSample : ρ → ℕ → ρ
  backoff : ρ → ρ
  rto : ρ → ℕ

/-- Jacobson's estimator with its constants, in exact arithmetic. -/
structure JacobsonRtt where
  srtt : Option ℚ
  rttvar : Option ℚ
  rto : ℚ
  minRto : ℚ
  maxRto : ℚ

namespace JacobsonRtt

def new : JacobsonRtt :=
  { srtt := none, rttvar := none, rto := 1000, minRto := 200, maxRto := 60000 }

def clampRto (r : JacobsonRtt) (x : ℚ) : ℚ := max r.minRto (min x r.maxRto)

def updateSample (r : JacobsonRtt) (sample : ℕ) : JacobsonRtt :=
  let s : ℚ := sample
  match r.srtt, r.rttvar with
  | none, _ =>
    { r with srtt := some s, rttvar := some (s / 2), rto := r.clampRto (s + 4 * (s / 2)) }
  | some srtt, some rttvar =>
    let rttvar' := 3 / 4 * rttvar + 1 / 4 * |srtt - s|
    let srtt' := 7 / 8 * srtt + 1 / 8 * s
    { r with srtt := some srtt', rttvar := some rttvar', rto := r.clampRto (srtt' + 4 * rttvar') }
  | some _, none => r

def backoff (r : JacobsonRtt) : JacobsonRtt := { r with rto := min (r.rto * 2) r.maxRto }

end JacobsonRtt

instance : RttEstimator JacobsonRtt where
  new := .new
  updateSample := .updateSample
  backoff := .backoff
  rto r := r.rto.floor.toNat

end ToyTcpip

import ToyTcpip.Tcp.Runs

/-! Two connections over a network that loses, repeats and reorders segments. -/
namespace ToyTcpip.Network

open Tcp

inductive Side where
  | left
  | right
  deriving DecidableEq, Repr

def Side.peer : Side → Side
  | .left => .right
  | .right => .left

@[simp] theorem Side.peer_peer (x : Side) : x.peer.peer = x := by cases x <;> rfl

@[simp] theorem Side.peer_ne (x : Side) : x.peer ≠ x := by cases x <;> simp [Side.peer]

@[simp] theorem Side.ne_peer (x : Side) : x ≠ x.peer := x.peer_ne.symm

theorem Side.eq_or_peer (x z : Side) : z = x ∨ z = x.peer := by
  cases x <;> cases z <;> simp [Side.peer]

/-- A connection with what its application has seen of it. -/
structure Endpoint (ρ : Type) where
  conn : TcpConnection ρ
  /-- Every byte `write` has accepted. -/
  accepted : List UInt8
  /-- Every byte `read` has returned. -/
  received : List UInt8
  /-- How many bytes had been accepted when the FIN left. -/
  finAt : Option ℕ
  /-- The peer's SYN has been consumed. -/
  synced : Bool

/-- Both ends, and every segment each of them has ever sent: any of them may still arrive. -/
structure System (ρ : Type) where
  ends : Side → Endpoint ρ
  net : Side → List TcpSegment

namespace Endpoint

variable {ρ : Type}

def start (conn : TcpConnection ρ) : Endpoint ρ := ⟨conn, [], [], none, false⟩

/-- The bytes that have reached the receiving application or wait for it. -/
def delivered (e : Endpoint ρ) : List UInt8 := e.received ++ e.conn.rxBuffer

def write (e : Endpoint ρ) (data : List UInt8) : Endpoint ρ :=
  { e with
    conn := (e.conn.write data).1, accepted := e.accepted ++ data.take (e.conn.write data).2 }

def read (e : Endpoint ρ) (len : ℕ) : Endpoint ρ :=
  { e with conn := (e.conn.read len).1, received := e.received ++ (e.conn.read len).2 }

/-- The connection acted on its own. -/
def act (e : Endpoint ρ) (c' : TcpConnection ρ) : Endpoint ρ :=
  { e with
    conn := c'
    finAt := if c'.finSent && !e.conn.finSent then some e.accepted.length else e.finAt }

/-- The connection handled a segment. -/
def receive (e : Endpoint ρ) (c' : TcpConnection ρ) : Endpoint ρ :=
  { e with conn := c', synced := e.synced || c'.synchronized }

end Endpoint

namespace System

variable {ρ : Type}

def conn (s : System ρ) (x : Side) : TcpConnection ρ := (s.ends x).conn

/-- Side `x` becomes `e` and sends `out`. -/
def put (s : System ρ) (x : Side) (e : Endpoint ρ) (out : List TcpSegment) : System ρ where
  ends := Function.update s.ends x e
  net := Function.update s.net x (s.net x ++ out)

def act (s : System ρ) (x : Side) (c' : TcpConnection ρ) (out : List TcpSegment) : System ρ :=
  s.put x ((s.ends x).act c') out

def receive (s : System ρ) (x : Side) (c' : TcpConnection ρ) (out : List TcpSegment) : System ρ :=
  s.put x ((s.ends x).receive c') out

end System

/-- What the environment does next. A delivery picks any segment the peer ever sent. -/
inductive Action where
  | write (x : Side) (data : List UInt8)
  | read (x : Side) (len : ℕ)
  | pollOutput (x : Side) (now : ℕ)
  | initiateCloseAt (x : Side) (now : ℕ)
  | deliver (x : Side) (index : ℕ) (now : ℕ)

namespace System

variable {ρ : Type} [RttEstimator ρ]

def step (s : System ρ) : Action → System ρ
  | .write x data => s.put x ((s.ends x).write data) []
  | .read x len => s.put x ((s.ends x).read len) []
  | .pollOutput x now =>
    s.act x ((s.conn x).pollOutput now).1 ((s.conn x).pollOutput now).2
  | .initiateCloseAt x now =>
    s.act x ((s.conn x).initiateCloseAt now).1 ((s.conn x).initiateCloseAt now).2.toList
  | .deliver x index now =>
    match (s.net x.peer)[index]? with
    | some seg =>
      s.receive x ((s.conn x).handleSegmentAt seg now).1
        ((s.conn x).handleSegmentAt seg now).2.toList
    | none => s

def run (s : System ρ) (actions : List Action) : System ρ := actions.foldl step s

/-- The network delivers a segment to a side only where `ok` says so. -/
def Admits (ok : System ρ → Side → TcpSegment → Prop) (s : System ρ) : Action → Prop
  | .deliver x index _ => ∀ seg ∈ (s.net x.peer)[index]?, ok s x seg
  | _ => True

def AdmitsAll (ok : System ρ → Side → TcpSegment → Prop) : System ρ → List Action → Prop
  | _, [] => True
  | s, a :: rest => Admits ok s a ∧ AdmitsAll ok (s.step a) rest

instance decidableAdmits (ok : System ρ → Side → TcpSegment → Prop)
    [∀ s x seg, Decidable (ok s x seg)] (s : System ρ) : ∀ a, Decidable (Admits ok s a)
  | .deliver x index _ => inferInstanceAs (Decidable (∀ seg ∈ (s.net x.peer)[index]?, ok s x seg))
  | .write .. | .read .. | .pollOutput .. | .initiateCloseAt .. => isTrue trivial

instance decidableAdmitsAll (ok : System ρ → Side → TcpSegment → Prop)
    [∀ s x seg, Decidable (ok s x seg)] :
    ∀ (s : System ρ) (actions : List Action), Decidable (AdmitsAll ok s actions)
  | _, [] => isTrue trivial
  | s, a :: rest =>
    have := decidableAdmitsAll ok (s.step a) rest
    inferInstanceAs (Decidable (Admits ok s a ∧ AdmitsAll ok (s.step a) rest))

theorem AdmitsAll.mono {ok ok' : System ρ → Side → TcpSegment → Prop} {s : System ρ}
    {actions : List Action} (h : AdmitsAll ok s actions)
    (himp : ∀ s x seg, ok s x seg → ok' s x seg) : AdmitsAll ok' s actions := by
  induction actions generalizing s with
  | nil => trivial
  | cons a rest ih =>
    refine ⟨?_, ih h.2⟩
    cases a with
    | deliver x index now => exact fun seg hseg => himp s x seg (h.1 seg hseg)
    | _ => trivial

theorem admitsAll_trivial (s : System ρ) (actions : List Action) :
    AdmitsAll (fun _ _ _ => True) s actions := by
  induction actions generalizing s with
  | nil => trivial
  | cons a rest ih =>
    refine ⟨?_, ih _⟩
    cases a <;> simp [Admits]

/-- What has to be shown of a property to have it along every run. -/
structure Invariant (ok : System ρ → Side → TcpSegment → Prop) (J : System ρ → Prop) :
    Prop where
  write : ∀ {s x} data, J s → J (s.put x ((s.ends x).write data) [])
  read : ∀ {s x} len, J s → J (s.put x ((s.ends x).read len) [])
  act : ∀ {s x c' out}, J s → LocalStep (s.conn x) c' out → J (s.act x c' out)
  abort : ∀ {s x}, J s → (s.conn x).retransmitQueue ≠ [] → J (s.act x (s.conn x).abort [])
  receive : ∀ {s x seg c' reply}, J s → seg ∈ s.net x.peer → ok s x seg →
    Arrival (s.conn x) seg c' reply → J (s.receive x c' reply.toList)

omit [RttEstimator ρ] in
theorem act_refl (s : System ρ) (x : Side) : s.act x (s.conn x) [] = s := by
  simp [act, put, conn, Endpoint.act]

omit [RttEstimator ρ] in
theorem act_act (s : System ρ) (x : Side) {c₁ c₂ : TcpConnection ρ} (out out' : List TcpSegment)
    (h₁ : (s.conn x).finSent = true → c₁.finSent = true)
    (h₂ : c₁.finSent = true → c₂.finSent = true) :
    (s.act x c₁ out).act x c₂ out' = s.act x c₂ (out ++ out') := by
  have hend : ((s.ends x).act c₁).act c₂ = (s.ends x).act c₂ := by
    simp only [conn] at h₁
    by_cases h : (s.ends x).conn.finSent = true
    · simp [Endpoint.act, h, h₁ h, h₂ (h₁ h)]
    · by_cases h' : c₁.finSent = true
      · simp [Endpoint.act, h, h', h₂ h']
      · simp [Endpoint.act, h, h']
  simp only [act, put, Function.update_self, Function.update_idem, hend, List.append_assoc]

omit [RttEstimator ρ] in
theorem conn_act (s : System ρ) (x : Side) (c' : TcpConnection ρ) (out : List TcpSegment) :
    (s.act x c' out).conn x = c' := by
  simp [conn, act, put, Endpoint.act]

omit [RttEstimator ρ] in
theorem abort_finSent (c : TcpConnection ρ) (h : c.finSent = true) : c.abort.finSent = true := h

namespace Invariant

variable {ok : System ρ → Side → TcpSegment → Prop} {J : System ρ → Prop}

omit [RttEstimator ρ] in
theorem chain (h : Invariant ok J) {s : System ρ} {x : Side} {c' : TcpConnection ρ}
    {out : List TcpSegment} (hs : J s) (hc : LocalChain (s.conn x) c' out) :
    J (s.act x c' out) := by
  induction hc with
  | refl => rwa [act_refl]
  | @tail c₁ c₂ out out' chain step ih =>
    rw [← act_act s x out out' chain.finSent_mono step.finSent_mono]
    exact h.act ih (by rwa [conn_act])

theorem step (h : Invariant ok J) {s : System ρ} {a : Action} (hs : J s) (ha : Admits ok s a) :
    J (s.step a) := by
  cases a with
  | write x data => exact h.write data hs
  | read x len => exact h.read len hs
  | pollOutput x now =>
    obtain ⟨c₁, hchain, ⟨-, heq⟩ | ⟨-, hne, heq⟩⟩ :=
      (s.conn x).pollOutput_chain now
    · simp only [System.step, heq]
      exact h.chain hs hchain
    · have habort := h.abort (h.chain hs hchain) (by rwa [conn_act])
      rw [conn_act, act_act s x _ _ hchain.finSent_mono (abort_finSent c₁),
        List.append_nil] at habort
      simpa only [System.step, heq] using habort
  | initiateCloseAt x now => exact h.chain hs ((s.conn x).initiateCloseAt_chain now)
  | deliver x index now =>
    simp only [System.step]
    split
    · rename_i seg hseg
      exact h.receive hs (List.mem_of_getElem? hseg) (ha seg hseg)
        ((s.conn x).handleSegmentAt_arrival seg now)
    · exact hs

theorem run (h : Invariant ok J) {s : System ρ} {actions : List Action} (hs : J s)
    (ha : AdmitsAll ok s actions) : J (s.run actions) := by
  induction actions generalizing s with
  | nil => exact hs
  | cons a rest ih => exact ih (h.step hs ha.1) ha.2

end Invariant

end System

/-! ### How the two sides start -/

section starts

variable {ρ : Type} [RttEstimator ρ]

def endpoint (st : Start) (passive : Bool) : Endpoint ρ :=
  .start (if passive then st.listening else st.dialing.1)

def sent (ρ : Type) [RttEstimator ρ] (st : Start) (passive : Bool) : List TcpSegment :=
  if passive then [] else [(st.dialing : TcpConnection ρ × TcpSegment).2]

namespace System

def start (passive : Side → Bool) (sides : Side → Start) : System ρ where
  ends x := endpoint (sides x) (passive x)
  net x := sent ρ (sides x) (passive x)

/-- The left side dials, the right side listens. -/
def connecting (sides : Side → Start) : System ρ := start (· = .right) sides

/-- Both sides dial. -/
def crossing (sides : Side → Start) : System ρ := start (fun _ => false) sides

end System

end starts

/-- Two hosts with the default settings. -/
def loopback : Side → Start
  | .left => ⟨⟨⟨10, 0, 0, 1⟩, 40000⟩, ⟨⟨10, 0, 0, 2⟩, 80⟩, 1000, .default, 0⟩
  | .right => ⟨⟨⟨10, 0, 0, 2⟩, 80⟩, ⟨⟨10, 0, 0, 1⟩, 40000⟩, 5000, .default, 0⟩

end ToyTcpip.Network

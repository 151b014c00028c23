import ToyTcpip.Bfd.Packet
import ToyTcpip.Lib.Machine

/-! A BFD session and its authentication key (`bfd.rs`). -/
namespace ToyTcpip.Bfd

structure BfdSession where
  localDiscriminator : UInt32
  remoteDiscriminator : UInt32
  state : BfdState
  txIntervalUs : UInt32
  authKey : Option BfdAuthHeader
  deriving DecidableEq

namespace BfdSession

def new (localDisc intervalUs : UInt32) : BfdSession := ⟨localDisc, 0, .down, intervalUs, none⟩

/-- The state after a packet, and whether the session answers it for that. -/
def transition : BfdState → BfdState → BfdState × Bool
  | .down, .down => (.init, true)
  | .down, .init | .init, .init | .init, .up => (.up, true)
  | .init, .adminDown | .up, .adminDown | .up, .down => (.down, false)
  | state, _ => (state, false)

def processPacket (s : BfdSession) (p : BfdControlPacket) : BfdSession × Option BfdControlPacket :=
  if p.version ≠ 1 ∨ p.length.toNat < bfdMinPacketLen ∨ p.myDiscriminator = 0 ∨ p.detectMult = 0 ∨
      (p.poll ∧ p.final) ∨ p.auth ∨ p.multipoint then (s, none)
  else if p.yourDiscriminator ≠ 0 ∧ p.yourDiscriminator ≠ s.localDiscriminator then (s, none)
  else if p.yourDiscriminator = 0 ∧ ¬ (p.state = .down ∨ p.state = .adminDown) then (s, none)
  else if s.state = .adminDown then (s, none)
  else
    let (state, stateChanged) := transition s.state p.state
    let s := { s with remoteDiscriminator := p.myDiscriminator, state }
    if stateChanged ∨ p.poll then
      (s, some { BfdControlPacket.buildControl state s.localDiscriminator s.remoteDiscriminator
        s.txIntervalUs with final := p.poll, authHeader := s.authKey, auth := s.authKey.isSome })
    else (s, none)

variable {s peer : BfdSession} {p q r : BfdControlPacket} {key : BfdAuthHeader}

/-- The packet passes every test of the session. -/
structure Admits (s : BfdSession) (p : BfdControlPacket) : Prop where
  version : p.version = 1
  length : bfdMinPacketLen ≤ p.length.toNat
  myDiscriminator : p.myDiscriminator ≠ 0
  detectMult : p.detectMult ≠ 0
  pollFinal : ¬ (p.poll ∧ p.final)
  auth : p.auth = false
  multipoint : p.multipoint = false
  addressed : p.yourDiscriminator ≠ 0 → p.yourDiscriminator = s.localDiscriminator
  opening : p.yourDiscriminator = 0 → p.state = .down ∨ p.state = .adminDown
  running : s.state ≠ .adminDown

theorem processPacket_of_not_admits (h : ¬ s.Admits p) : s.processPacket p = (s, none) := by
  rw [processPacket]
  split_ifs with h₁ h₂ h₃ h₄
  · rfl
  · rfl
  · rfl
  · rfl
  · simp only [not_or, Bool.not_eq_true] at h₁
    obtain ⟨hv, hl, hm, hd, hpf, ha, hmp⟩ := h₁
    have hadmits : s.Admits p :=
      ⟨not_not.mp hv, not_lt.mp hl, hm, hd, hpf, ha, hmp, fun hy =>
        not_not.mp fun hne => h₂ ⟨hy, hne⟩, fun hy => not_not.mp fun hne => h₃ ⟨hy, hne⟩, h₄⟩
    exact absurd hadmits h

theorem processPacket_of_admits (h : s.Admits p) : s.processPacket p =
    ({ s with remoteDiscriminator := p.myDiscriminator, state := (transition s.state p.state).1 },
      if (transition s.state p.state).2 ∨ p.poll then
        some { BfdControlPacket.buildControl (transition s.state p.state).1 s.localDiscriminator
          p.myDiscriminator s.txIntervalUs with
          final := p.poll, authHeader := s.authKey, auth := s.authKey.isSome }
      else none) := by
  have htests : ¬ (p.version ≠ 1 ∨ p.length.toNat < bfdMinPacketLen ∨ p.myDiscriminator = 0 ∨
      p.detectMult = 0 ∨ (p.poll ∧ p.final) ∨ p.auth ∨ p.multipoint) := by
    have hl := h.length
    have hpf := h.pollFinal
    simp [h.version, h.myDiscriminator, h.detectMult, h.auth, h.multipoint, hl]
    simpa using hpf
  rw [processPacket, if_neg htests, if_neg fun hy => hy.2 (h.addressed hy.1),
    if_neg fun hy => hy.2 (h.opening hy.1), if_neg h.running]
  dsimp only
  split_ifs <;> rfl

/-! ### What authentication asks of a session -/

/-- The packet changes nothing, and gets no answer. -/
def Ignores (s : BfdSession) (p : BfdControlPacket) : Prop :=
  (s.processPacket p).1.state = s.state ∧
    (s.processPacket p).1.remoteDiscriminator = s.remoteDiscriminator ∧ (s.processPacket p).2 = none

/-- A peer with the same key, to which a packet is addressed, takes the sender for its remote
end. -/
def AcceptedByPeers (s : BfdSession) (r : BfdControlPacket) : Prop :=
  ∀ peer : BfdSession, peer.authKey = s.authKey → peer.localDiscriminator = r.yourDiscriminator →
    peer.state ≠ .adminDown → (peer.processPacket r).1.remoteDiscriminator = r.myDiscriminator

/-- A packet without the section of the session is ignored, and what the session sends is
accepted. -/
def Authenticates (s : BfdSession) (p : BfdControlPacket) : Prop :=
  (p.authHeader ≠ s.authKey → s.Ignores p) ∧ ∀ r, (s.processPacket p).2 = some r →
  s.AcceptedByPeers r

/-- The session refuses the packet for another reason, or the packet asks for nothing: no answer,
and when its section is not the one of the session, nothing that the session would record. -/
def Quiet (s : BfdSession) (p : BfdControlPacket) : Prop :=
  s.Admits p → p.poll = false ∧ (transition s.state p.state).2 = false ∧
    (p.authHeader ≠ s.authKey →
      p.myDiscriminator = s.remoteDiscriminator ∧ (transition s.state p.state).1 = s.state)

/-- No session takes a packet that says it is authenticated. -/
theorem processPacket_auth (h : p.auth = true) : s.processPacket p = (s, none) := by
  apply processPacket_of_not_admits
  intro hadmits
  rw [hadmits.auth] at h
  cases h

theorem auth_of_reply (hkey : s.authKey = some key) (h : (s.processPacket p).2 = some r) :
    r.auth = true ∧ r.authHeader = some key ∧ r.myDiscriminator = s.localDiscriminator := by
  by_cases hadmits : s.Admits p
  · rw [processPacket_of_admits hadmits] at h
    dsimp only at h
    split_ifs at h
    cases h
    exact ⟨by rw [hkey]; rfl, hkey, rfl⟩
  · rw [processPacket_of_not_admits hadmits] at h
    cases h

/-- What a session with a key sends, no peer takes, not even from the wire. -/
theorem reply_refused (hkey : s.authKey = some key) (h : (s.processPacket p).2 = some r) :
    peer.processPacket r = (peer, none) ∧
      ∀ q, BfdControlPacket.parse r.serialize = .ok q → peer.processPacket q = (peer, none) := by
  obtain ⟨hauth, -, -⟩ := auth_of_reply hkey h
  refine ⟨processPacket_auth hauth, fun q hq => processPacket_auth ?_⟩
  rw [BfdControlPacket.auth_of_parse_serialize hq, hauth]
  rfl

theorem not_accepted (hkey : s.authKey = some key) (h : (s.processPacket p).2 = some r) :
    ¬ s.AcceptedByPeers r := by
  intro haccepted
  have hpeer := haccepted ⟨r.yourDiscriminator, r.myDiscriminator + 1, .down, 0,
    s.authKey⟩ rfl rfl nofun
  rw [(reply_refused hkey h).1] at hpeer
  simp at hpeer

theorem reply_eq_none_iff (h : s.Admits p) :
    (s.processPacket p).2 = none ↔ p.poll = false ∧ (transition s.state p.state).2 = false := by
  rw [processPacket_of_admits h]
  dsimp only
  split_ifs with hreply
  · simp only [false_iff]
    rintro ⟨hpoll, hsame⟩
    simp [hpoll, hsame] at hreply
  · simp_all

theorem authenticates_iff_quiet (hkey : s.authKey = some key) (p : BfdControlPacket) :
    s.Authenticates p ↔ s.Quiet p := by
  by_cases hadmits : s.Admits p
  · have hstep := processPacket_of_admits hadmits
    constructor
    · rintro ⟨hignores, haccepted⟩ -
      have hnone : (s.processPacket p).2 = none := by
        cases hr : (s.processPacket p).2 with
        | none => rfl
        | some r => exact absurd (haccepted r hr) (not_accepted hkey hr)
      obtain ⟨hpoll, hsame⟩ := (reply_eq_none_iff hadmits).mp hnone
      refine ⟨hpoll, hsame, fun hother => ?_⟩
      obtain ⟨hstate, hremote, -⟩ := hignores hother
      rw [hstep] at hstate hremote
      exact ⟨hremote, hstate⟩
    · intro hquiet
      obtain ⟨hpoll, hsame, hrest⟩ := hquiet hadmits
      have hnone := (reply_eq_none_iff hadmits).mpr ⟨hpoll, hsame⟩
      refine ⟨fun hother => ?_, fun r hr => ?_⟩
      · obtain ⟨hremote, hstate⟩ := hrest hother
        refine ⟨?_, ?_, hnone⟩
        · rw [hstep]
          exact hstate
        · rw [hstep]
          exact hremote
      · rw [hnone] at hr
        cases hr
  · have hstep := processPacket_of_not_admits hadmits
    refine ⟨fun _ h => absurd h hadmits, fun _ => ⟨fun _ => ?_, fun r hr => ?_⟩⟩
    · rw [Ignores, hstep]
      exact ⟨rfl, rfl, rfl⟩
    · rw [hstep] at hr
      cases hr

end BfdSession

/-! ### Two sessions with one key -/

/-- Two sessions, and every packet that is on its way between them. -/
structure Pair where
  left : BfdSession
  right : BfdSession
  packets : List BfdControlPacket

namespace Pair

/-- Each side has sent its first packet, with the key of both. -/
def start (left right : BfdSession) (key : BfdAuthHeader) : Pair :=
  ⟨left, right, [.buildAuthenticated left.state left.localDiscriminator 0 left.txIntervalUs key,
    .buildAuthenticated right.state right.localDiscriminator 0 right.txIntervalUs key]⟩

/-- One side receives one of the packets, which may come again later. -/
def step (x : Pair) (i : Bool × ℕ) : Pair :=
  match x.packets[i.2]? with
  | none => x
  | some p =>
    if i.1 then
      ⟨(x.left.processPacket p).1, x.right, x.packets ++ (x.left.processPacket p).2.toList⟩
    else
      ⟨x.left, (x.right.processPacket p).1, x.packets ++ (x.right.processPacket p).2.toList⟩

/-- Some order of deliveries brings both sessions up. -/
def ComesUp (left right : BfdSession) (key : BfdAuthHeader) : Prop :=
  ∃ inputs, (Machine.run step (start left right key) inputs).left.state = .up ∧
    (Machine.run step (start left right key) inputs).right.state = .up

/-- A pair whose packets all say they are authenticated stands still. -/
theorem step_of_auth {x : Pair} (h : ∀ p ∈ x.packets, p.auth = true)
    (i : Bool × ℕ) : x.step i = x := by
  rw [step]
  split
  · rfl
  · next p hp =>
    have hrefused (s : BfdSession) := BfdSession.processPacket_auth (s := s)
      (h p (List.mem_of_getElem? hp))
    split <;> simp [hrefused]

theorem not_comesUp {left right : BfdSession} (key : BfdAuthHeader) (h : left.state ≠ .up) :
    ¬ ComesUp left right key := by
  rintro ⟨inputs, hup, -⟩
  have hstill (x : Pair) (i : Bool × ℕ) (hx : x = start left right key) :
      x.step i = start left right key := by
    subst hx
    exact step_of_auth (by simp [start, BfdControlPacket.buildAuthenticated]) i
  have hstays : Machine.run step (start left right key) inputs = start left right key :=
    Machine.run_keeps hstill inputs rfl
  rw [hstays] at hup
  exact h hup

end Pair

namespace BfdSession

/-- A session with a key authenticates a packet exactly when the packet asks nothing of it, and with
a peer of the same key it never comes up. -/
theorem session_authenticates {s : BfdSession} {key : BfdAuthHeader} (hkey : s.authKey = some key) :
    (∀ p, s.Authenticates p ↔ s.Quiet p) ∧
      ∀ peer : BfdSession, peer.authKey = some key → s.state = .down → peer.state = .down →
        ¬ Pair.ComesUp s peer key := by
  refine ⟨authenticates_iff_quiet hkey, fun peer _ hs _ => Pair.not_comesUp key ?_⟩
  rw [hs]
  nofun

/-- A session with a password. -/
def guarded : BfdSession :=
  { BfdSession.new 0x1001 100000 with authKey := some (.simplePassword 1 [1]) }

theorem session_authenticates_guarded :
    guarded.authKey = some (.simplePassword 1 [1]) ∧
    (∀ p, guarded.Authenticates p ↔ guarded.Quiet p) ∧
      ∀ peer : BfdSession, peer.authKey = some (.simplePassword 1 [1]) → guarded.state = .down →
        peer.state = .down → ¬ Pair.ComesUp guarded peer (.simplePassword 1 [1]) :=
  ⟨rfl, session_authenticates rfl⟩

/-- A packet without a section takes the session with a password to `Init`. -/
theorem unauthenticated_packet_counts :
    ¬ ∀ (s : BfdSession) (p : BfdControlPacket), s.authKey.isSome →
    p.authHeader ≠ s.authKey → s.Ignores p := by
  intro h
  have hignored := (h guarded (.buildControl .down 0x2002 0 100000) rfl nofun).1
  revert hignored
  decide

end BfdSession
end ToyTcpip.Bfd

import ToyTcpip.Dhcpv6.Codec

/-! The DHCPv6 client of `dhcpv6.rs`. -/
namespace ToyTcpip.Dhcpv6

inductive Dhcpv6ClientState where
  | init
  | soliciting
  | requesting
  | bound
  | renewing
  | rebinding
  deriving DecidableEq, Repr

structure Dhcpv6Client where
  state : Dhcpv6ClientState
  clientDuid : Duid
  serverDuid : Option (List UInt8)
  transactionId : ℕ
  assignedIp : Option Ipv6Address
  delegatedPrefix : Option (Ipv6Address × UInt8)
  dnsServers : List Ipv6Address
  t1Ms : ℕ
  t2Ms : ℕ
  validUntilMs : ℕ

namespace Dhcpv6Client

def new (duid : Duid) : Dhcpv6Client := ⟨.init, duid, none, 1, none, none, [], 0, 0, 0⟩

/-- Seconds from now, in milliseconds of a `u64`. -/
def after (nowMs secs : ℕ) : ℕ := min (nowMs + secs * 1000) (2 ^ 64 - 1)

def startSolicit (c : Dhcpv6Client) (rapidCommit requestPd : Bool) : Dhcpv6Client × List UInt8 :=
  let transactionId := (c.transactionId + 1) % 2 ^ 24
  ({ c with transactionId, state := .soliciting },
    (Dhcpv6Message.buildSolicitFull transactionId c.clientDuid.serialize rapidCommit
      requestPd).serialize)

def handleAdvertise (c : Dhcpv6Client) (data : List UInt8) : Dhcpv6Client × Option (List UInt8) :=
  match Dhcpv6Message.parse data with
  | .error _ => (c, none)
  | .ok msg =>
    if msg.msgType ≠ msgAdvertise ∨ msg.transactionId ≠ c.transactionId then (c, none) else
    match msg.optionData optServerid with
    | none => (c, none)
    | some serverDuid =>
      ({ c with serverDuid := some serverDuid, state := .requesting },
        some (Dhcpv6Message.buildRequest c.transactionId c.clientDuid.serialize serverDuid
          msg.getIaNa msg.getIaPd).serialize)

/-- What a reply changes before the client is bound. -/
def adopt (c : Dhcpv6Client) (msg : Dhcpv6Message) (nowMs : ℕ) : Dhcpv6Client :=
  let timers := msg.getIaNa
  { c with
    serverDuid := (msg.optionData optServerid).or c.serverDuid
    assignedIp := msg.getAssignedIpv6.or c.assignedIp
    delegatedPrefix := msg.getDelegatedPrefix.or c.delegatedPrefix
    dnsServers := msg.getDnsServers
    t1Ms := timers.elim c.t1Ms fun na => after nowMs na.t1
    t2Ms := timers.elim c.t2Ms fun na => after nowMs na.t2
    validUntilMs := (timers.bind fun na => na.addresses.head?).elim c.validUntilMs
      fun a => after nowMs a.validLifetime }

def handleReply (c : Dhcpv6Client) (data : List UInt8) (nowMs : ℕ) : Dhcpv6Client × Bool :=
  match Dhcpv6Message.parse data with
  | .error _ => (c, false)
  | .ok msg =>
    if msg.msgType ≠ msgReply ∨ msg.transactionId ≠ c.transactionId then (c, false)
    else ({ c.adopt msg nowMs with state := .bound }, true)

def createRelease (c : Dhcpv6Client) : Dhcpv6Client × Option (List UInt8) :=
  match c.serverDuid, c.assignedIp with
  | some serverDuid, some ip =>
    let iaNa : IaNaOption := ⟨1, 0, 0, [⟨ip, 0, 0⟩]⟩
    let transactionId := (c.transactionId + 1) % 2 ^ 24
    ({ c with transactionId, state := .init, assignedIp := none, delegatedPrefix := none },
      some (Dhcpv6Message.buildRelease transactionId c.clientDuid.serialize serverDuid (some iaNa)
        none).serialize)
  | _, _ => (c, none)

end Dhcpv6Client

end ToyTcpip.Dhcpv6

/-! ### A client and a server that exchange messages over a network, and when they agree. -/
namespace ToyTcpip.Dhcpv6

open Hashed

/-! ### What the server answers -/

namespace Dhcpv6Server

/-- Each type of message has its handler. -/
def dispatch (s : Dhcpv6Server) (msg : Dhcpv6Message) : Dhcpv6Server × Option Dhcpv6Message :=
  if msg.msgType = msgSolicit then s.handleSolicit msg
  else if msg.msgType = msgRequest then s.handleRequest msg
  else if msg.msgType = msgRelease then s.handleRelease msg
  else (s, none)

/-- What the server writes into its messages fits. -/
structure ConfigFits (s : Dhcpv6Server) : Prop where
  serverDuid : s.serverDuid.length < 2 ^ 16
  names : ∀ o ∈ nameOptions s.dnsServers s.searchList, o.Fits

def SameConfig (s s' : Dhcpv6Server) : Prop :=
  s'.serverDuid = s.serverDuid ∧ s'.dnsServers = s.dnsServers ∧ s'.searchList = s.searchList

variable {s s' : Dhcpv6Server} {duid : List UInt8} {msg : Dhcpv6Message}

theorem ConfigFits.of_same (h : s.ConfigFits) (hs : SameConfig s s') : s'.ConfigFits := by
  obtain ⟨hduid, hdns, hsearch⟩ := hs
  exact ⟨hduid ▸ h.serverDuid, by rw [hdns, hsearch]; exact h.names⟩

theorem configFits_new : new.ConfigFits := by
  refine ⟨by decide, ?_⟩
  have hall : (nameOptions new.dnsServers new.searchList).all (fun o => decide o.Fits) = true := by
    decide +kernel
  intro o ho
  simpa using List.all_eq_true.mp hall o ho

/-- A client keeps the address it has; the one it is given is recorded. -/
theorem allocate_spec (s : Dhcpv6Server) (duid : List UInt8) (msg : Dhcpv6Message) :
    (s.allocate duid msg).1.activeLeases.lookup duid = some (s.allocate duid msg).2.1 ∧
      (∀ ip, s.activeLeases.lookup duid = some ip → (s.allocate duid msg).2.1 = ip) ∧
      SameConfig s (s.allocate duid msg).1 := by
  have hip : (s.allocate duid msg).2.1 = (s.allocateIp duid).2 := by
    simp only [allocate]
    split <;> rfl
  have hconfig : SameConfig (s.allocateIp duid).1 (s.allocate duid msg).1 := by
    simp only [allocate]
    split
    · rw [allocatePrefix]
      split <;> exact ⟨rfl, rfl, rfl⟩
    · exact ⟨rfl, rfl, rfl⟩
  have halloc : (s.allocateIp duid).1.activeLeases.lookup duid = some (s.allocateIp duid).2 ∧
      (∀ ip, s.activeLeases.lookup duid = some ip → (s.allocateIp duid).2 = ip) ∧
      SameConfig s (s.allocateIp duid).1 := by
    rw [allocateIp]
    cases h : s.activeLeases.lookup duid with
    | some existing => exact ⟨h, fun ip hip => Option.some.inj hip, rfl, rfl, rfl⟩
    | none => exact ⟨AList.lookup_insert _, (fun ip hip => by cases hip), rfl, rfl, rfl⟩
  obtain ⟨hlookup, hkept, hduid, hdns, hsearch⟩ := halloc
  rw [activeLeases_allocate, hip]
  exact ⟨hlookup, hkept, hconfig.1.trans hduid, hconfig.2.1.trans hdns, hconfig.2.2.trans hsearch⟩

/-- An advertisement or a reply that gives a client its recorded address. -/
structure Granted (s s' : Dhcpv6Server) (duid : List UInt8) (reply : Dhcpv6Message) : Prop where
  fits : reply.Fits
  type : reply.msgType = msgAdvertise ∨ reply.msgType = msgReply
  serverDuid : reply.optionData optServerid = some s.serverDuid
  config : SameConfig s s'
  lease : ∃ ip d, Grants reply ip d ∧ s'.activeLeases.lookup duid = some ip ∧
    ∀ old, s.activeLeases.lookup duid = some old → ip = old

theorem serverDuid_of_options {m : Dhcpv6Message} {serverDuid : List UInt8}
    {rest : List Dhcpv6Option}
    (h : m.options = ⟨optClientid, duid⟩ :: ⟨optServerid, serverDuid⟩ :: rest) :
    m.optionData optServerid = some serverDuid := by
  rw [Dhcpv6Message.optionData, h]
  simp [optClientid, optServerid]

theorem handleRequest_granted (h : s.ConfigFits) (hduid : msg.optionData optClientid = some duid)
    (hlen : duid.length < 2 ^ 16) : ∃ reply, (s.handleRequest msg).2 = some reply ∧
      Granted s (s.handleRequest msg).1 duid reply ∧ reply.msgType = msgReply := by
  obtain ⟨hlookup, hkept, hconfig⟩ := s.allocate_spec duid msg
  simp only [handleRequest, hduid]
  generalize s.allocate duid msg = allocated at *
  obtain ⟨s', ip, d⟩ := allocated
  have hfits := h.of_same hconfig
  refine ⟨_, rfl, ⟨fits_buildReply hlen hfits.serverDuid hfits.names, .inr rfl, ?_, hconfig, ip, d,
    grants_buildReply, hlookup, hkept⟩, rfl⟩
  rw [← hconfig.1]
  exact serverDuid_of_options rfl

theorem handleSolicit_granted (h : s.ConfigFits) (hduid : msg.optionData optClientid = some duid)
    (hlen : duid.length < 2 ^ 16) : ∃ reply, (s.handleSolicit msg).2 = some reply ∧
      Granted s (s.handleSolicit msg).1 duid reply := by
  obtain ⟨hlookup, hkept, hconfig⟩ := s.allocate_spec duid msg
  simp only [handleSolicit, hduid]
  generalize s.allocate duid msg = allocated at *
  obtain ⟨s', ip, d⟩ := allocated
  have hfits := h.of_same hconfig
  refine ⟨_, rfl, ?_⟩
  split_ifs
  · refine ⟨fits_buildReply hlen hfits.serverDuid hfits.names, .inr rfl, ?_, hconfig, ip, d,
      grants_buildReply, hlookup, hkept⟩
    rw [← hconfig.1]
    exact serverDuid_of_options rfl
  · refine ⟨fits_buildAdvertiseFull hlen hfits.serverDuid hfits.names, .inl rfl, ?_, hconfig, ip, d,
      grants_buildAdvertiseFull, hlookup, hkept⟩
    rw [← hconfig.1]
    exact serverDuid_of_options rfl

theorem handleRelease_eq (hduid : msg.optionData optClientid = some duid) :
    s.handleRelease msg =
      ({ s with
          activeLeases := s.activeLeases.erase duid
          activeDelegations := s.activeDelegations.erase duid },
        some ⟨msgReply, msg.transactionId, [⟨optClientid, duid⟩, ⟨optServerid, s.serverDuid⟩,
          ⟨optStatusCode, [0, 0]⟩]⟩) := by
  rw [handleRelease, hduid]

end Dhcpv6Server

/-! ### What the client sends -/

/-- A message of this client that the server can read. -/
def FromClient (duid : List UInt8) (bytes : List UInt8) : Prop :=
  ∃ msg, Dhcpv6Message.parse bytes = .ok msg ∧ msg.optionData optClientid = some duid ∧
    msg.transactionId < 2 ^ 24

section client

variable {duid serverDuid : List UInt8} {c : Dhcpv6Client} {msg : Dhcpv6Message} {ip : Ipv6Address}
  {d : Option (Ipv6Address × UInt8)} {m : Dhcpv6Message}

theorem fromClient_serialize {rest : List Dhcpv6Option} (h : m.Fits)
    (hoptions : m.options = ⟨optClientid, duid⟩ :: rest) : FromClient duid m.serialize := by
  refine ⟨m, parse_serialize h, ?_, h.1⟩
  rw [Dhcpv6Message.optionData, hoptions]
  simp

theorem fits_solicit (hduid : duid.length < 2 ^ 16) (transactionId : ℕ)
    (rapidCommit requestPd : Bool) :
    (Dhcpv6Message.buildSolicitFull transactionId duid rapidCommit requestPd).Fits := by
  refine ⟨Nat.mod_lt _ (by omega), ?_⟩
  intro o ho
  have hcases : o = ⟨optClientid, duid⟩ ∨ o ∈ [⟨optRapidCommit, []⟩, ⟨optElapsedTime, [0, 0]⟩,
      ⟨optIaNa, iaHeader 1 0 0⟩, ⟨optIaPd, iaHeader 2 0 0⟩,
      ⟨optOro, toBeBytes16 optDnsServers ++ toBeBytes16 optDnssl⟩] := by
    simp only [Dhcpv6Message.buildSolicitFull] at ho
    split_ifs at ho <;> simp at ho ⊢ <;> tauto
  rcases hcases with rfl | ho
  · exact ⟨by simp [optClientid], hduid⟩
  · simp only [List.mem_cons, List.not_mem_nil, or_false] at ho
    rcases ho with rfl | rfl | rfl | rfl | rfl <;> decide

theorem fits_request {na : Option IaNaOption} {pd : Option IaPdOption}
    (hduid : duid.length < 2 ^ 16) (hserver : serverDuid.length < 2 ^ 16)
    (hna : ∀ a ∈ na, a.toOption.Fits) (hpd : ∀ p ∈ pd, p.toOption.Fits) (transactionId : ℕ) :
    (Dhcpv6Message.buildRequest transactionId duid serverDuid na pd).Fits := by
  refine ⟨Nat.mod_lt _ (by omega), ?_⟩
  intro o ho
  simp only [Dhcpv6Message.buildRequest, List.mem_append, List.mem_cons, List.not_mem_nil, or_false,
    Option.mem_toList, Option.map_eq_some_iff] at ho
  rcases ho with ((rfl | rfl) | ⟨a, ha, rfl⟩) | ⟨p, hp, rfl⟩
  · exact ⟨by simp [optClientid], hduid⟩
  · exact ⟨by simp [optServerid], hserver⟩
  · exact hna a ha
  · exact hpd p hp

theorem Grants.requestable (h : Grants m ip d) :
    (∀ a ∈ m.getIaNa, a.toOption.Fits) ∧ ∀ p ∈ m.getIaPd, p.toOption.Fits := by
  rw [h.iaNa, h.iaPd]
  constructor
  · rintro a ha
    obtain rfl := Option.some.inj ha
    exact leased_toOption_fits ip
  · intro p hp
    obtain ⟨d, -, rfl⟩ := Option.map_eq_some_iff.mp hp
    exact delegated_toOption_fits d

theorem Grants.assigned (h : Grants m ip d) : m.getAssignedIpv6 = some ip := by
  rw [Dhcpv6Message.getAssignedIpv6, h.iaNa]
  rfl

/-- An advertisement only makes the client request; anything else is ignored. -/
theorem handleAdvertise_cases (hfits : msg.Fits) :
    c.handleAdvertise msg.serialize = (c, none) ∨
      (msg.msgType = msgAdvertise ∧ ∃ serverDuid, msg.optionData optServerid = some serverDuid ∧
        c.handleAdvertise msg.serialize =
          ({ c with serverDuid := some serverDuid, state := .requesting },
            some (Dhcpv6Message.buildRequest c.transactionId c.clientDuid.serialize serverDuid
              msg.getIaNa msg.getIaPd).serialize)) := by
  rw [Dhcpv6Client.handleAdvertise, parse_serialize hfits]
  dsimp only
  split_ifs with hignored
  · exact .inl rfl
  · rw [not_or, not_not, not_not] at hignored
    cases hserver : msg.optionData optServerid with
    | none => exact .inl rfl
    | some serverDuid => exact .inr ⟨hignored.1, serverDuid, rfl, rfl⟩

/-- A reply of the current transaction binds the client; anything else is ignored. -/
theorem handleReply_cases (hfits : msg.Fits) (nowMs : ℕ) :
    (c.handleReply msg.serialize nowMs).1 = c ∨
      (msg.msgType = msgReply ∧ msg.transactionId = c.transactionId ∧
        (c.handleReply msg.serialize nowMs).1 = { c.adopt msg nowMs with state := .bound }) := by
  rw [Dhcpv6Client.handleReply, parse_serialize hfits]
  dsimp only
  split_ifs with hignored
  · exact .inl rfl
  · rw [not_or, not_not, not_not] at hignored
    exact .inr ⟨hignored.1, hignored.2, rfl⟩

end client

/-! ### The network -/

/-- A message of the client, with the transaction it was sent in. -/
structure Sent where
  epoch : ℕ
  bytes : List UInt8
  deriving DecidableEq

/-- An answer of the server, with the transaction it answers, and whether it answers a release. -/
structure Answer where
  epoch : ℕ
  release : Bool
  msg : Dhcpv6Message
  deriving DecidableEq

/-- Both parties, and everything that was ever sent. Transactions are counted by `epoch`, which
does not wrap. -/
structure Exchange where
  client : Dhcpv6Client
  server : Dhcpv6Server
  epoch : ℕ
  toServer : List Sent
  toClient : List Answer

inductive Event where
  | solicit (rapidCommit requestPd : Bool)
  | release
  | serve (m : Sent)
  | hear (a : Answer) (nowMs : ℕ)

namespace Exchange

def start (duid : Duid) : Exchange := ⟨.new duid, .new, 0, [], []⟩

def step (x : Exchange) : Event → Exchange
  | .solicit rapidCommit requestPd =>
    let (client, bytes) := x.client.startSolicit rapidCommit requestPd
    { x with client, epoch := x.epoch + 1, toServer := ⟨x.epoch + 1, bytes⟩ :: x.toServer }
  | .release =>
    match x.client.createRelease with
    | (client, some bytes) =>
      { x with client, epoch := x.epoch + 1, toServer := ⟨x.epoch + 1, bytes⟩ :: x.toServer }
    | (_, none) => x
  | .serve m =>
    match Dhcpv6Message.parse m.bytes with
    | .ok msg =>
      match x.server.dispatch msg with
      | (server, some reply) =>
        { x with server, toClient := ⟨m.epoch, msg.msgType = msgRelease, reply⟩ :: x.toClient }
      | (server, none) => { x with server }
    | .error _ => x
  | .hear a nowMs =>
    match x.client.handleAdvertise a.msg.serialize with
    | (client, some bytes) => { x with client, toServer := ⟨x.epoch, bytes⟩ :: x.toServer }
    | (client, none) => { x with client := (client.handleReply a.msg.serialize nowMs).1 }

/-- Messages arrive late, repeatedly, in any order or not at all. -/
def Possible (x : Exchange) : Event → Prop
  | .serve m => m ∈ x.toServer
  | .hear a _ => a ∈ x.toClient
  | _ => True

instance (x : Exchange) (ev : Event) : Decidable (x.Possible ev) :=
  match ev with
  | .solicit _ _ => inferInstanceAs (Decidable True)
  | .release => inferInstanceAs (Decidable True)
  | .serve _ => inferInstanceAs (Decidable (_ ∈ _))
  | .hear _ _ => inferInstanceAs (Decidable (_ ∈ _))

/-- An answer that binds the client once it is heard. -/
def Binding (x : Exchange) (a : Answer) : Prop :=
  a.epoch = x.epoch ∧ a.release = false ∧ a.msg.msgType = msgReply

instance (x : Exchange) (a : Answer) : Decidable (x.Binding a) :=
  inferInstanceAs (Decidable (_ ∧ _ ∧ _))

/-- No release reaches the server once it has answered the client's current transaction with a
reply, and no reply binds the client that answers a release or another transaction. -/
def Timely (x : Exchange) : Event → Prop
  | .serve m => ∀ msg, Dhcpv6Message.parse m.bytes = .ok msg → msg.msgType = msgRelease →
      ∀ a ∈ x.toClient, ¬ x.Binding a
  | .hear a _ => a.msg.msgType = msgReply → a.msg.transactionId = x.client.transactionId →
      x.Binding a
  | _ => True

/-- A client that is bound holds what the server has recorded. -/
def Agrees (x : Exchange) (duid : Duid) : Prop :=
  x.client.state = .bound → ∃ ip, x.client.assignedIp = some ip ∧
    x.server.activeLeases.lookup duid.serialize = some ip

structure Sound (duid : List UInt8) (x : Exchange) : Prop where
  ownDuid : x.client.clientDuid.serialize = duid
  serverDuid : ∀ d ∈ x.client.serverDuid, d.length < 2 ^ 16
  config : x.server.ConfigFits
  sent : ∀ m ∈ x.toServer, m.epoch ≤ x.epoch ∧ FromClient duid m.bytes
  answers : ∀ a ∈ x.toClient, a.epoch ≤ x.epoch ∧ a.msg.Fits ∧
    ∀ d ∈ a.msg.optionData optServerid, d.length < 2 ^ 16
  released : ∀ a ∈ x.toClient, a.release = true → a.msg.msgType = msgReply
  granted : ∀ a ∈ x.toClient, a.release = false → ∃ ip d, Grants a.msg ip d ∧
    (x.Binding a → x.server.activeLeases.lookup duid = some ip)
  bound : x.client.state = .bound → ∃ a ∈ x.toClient, x.Binding a ∧
    x.client.assignedIp = a.msg.getAssignedIpv6

variable {x : Exchange} {duid : List UInt8}

theorem sound_start (duid : Duid) : Sound duid.serialize (start duid) := by
  refine ⟨rfl, ?_, Dhcpv6Server.configFits_new, ?_, ?_, ?_, ?_, ?_⟩ <;>
    simp [start, Dhcpv6Client.new]

theorem Sound.agrees {d : Duid} (h : Sound d.serialize x) : x.Agrees d := by
  intro hbound
  obtain ⟨a, ha, hbinding, hassigned⟩ := h.bound hbound
  obtain ⟨ip, p, hgrants, hlease⟩ := h.granted a ha hbinding.2.1
  exact ⟨ip, hassigned.trans hgrants.assigned, hlease hbinding⟩

/-- A new transaction: nothing has answered it yet. -/
theorem Sound.advance (h : Sound duid x) {c : Dhcpv6Client} {bytes : List UInt8}
    (hc : c.clientDuid = x.client.clientDuid) (hserver : c.serverDuid = x.client.serverDuid)
    (hstate : c.state ≠ .bound) (hbytes : FromClient duid bytes) :
    Sound duid ⟨c, x.server, x.epoch + 1, ⟨x.epoch + 1, bytes⟩ :: x.toServer, x.toClient⟩ := by
  refine ⟨hc ▸ h.ownDuid, hserver ▸ h.serverDuid, h.config, ?_, ?_, h.released, ?_,
    fun hbound => absurd hbound hstate⟩
  · intro m hm
    rcases List.mem_cons.mp hm with rfl | hm
    · exact ⟨le_rfl, hbytes⟩
    · exact ⟨(h.sent m hm).1.trans (Nat.le_succ _), (h.sent m hm).2⟩
  · intro a ha
    exact ⟨(h.answers a ha).1.trans (Nat.le_succ _), (h.answers a ha).2⟩
  · intro a ha hrelease
    obtain ⟨ip, d, hgrants, -⟩ := h.granted a ha hrelease
    refine ⟨ip, d, hgrants, fun hbinding => ?_⟩
    have hle := (h.answers a ha).1
    have heq : a.epoch = x.epoch + 1 := hbinding.1
    omega

theorem Sound.solicit (h : Sound duid x) (hlen : duid.length < 2 ^ 16)
    (rapidCommit requestPd : Bool) : Sound duid (x.step (.solicit rapidCommit requestPd)) := by
  refine h.advance rfl rfl (by simp) ?_
  rw [h.ownDuid]
  exact fromClient_serialize (fits_solicit hlen _ _ _) rfl

theorem Sound.release (h : Sound duid x) (hlen : duid.length < 2 ^ 16) :
    Sound duid (x.step .release) := by
  simp only [step, Dhcpv6Client.createRelease]
  cases hserver : x.client.serverDuid with
  | none => simpa using h
  | some serverDuid =>
    cases hassigned : x.client.assignedIp with
    | none => simpa using h
    | some ip =>
      refine h.advance rfl hserver.symm (by simp) ?_
      rw [h.ownDuid]
      refine fromClient_serialize (m := .buildRelease _ _ _ _ _) ?_ rfl
      refine fits_request hlen (h.serverDuid serverDuid hserver) ?_ (by simp) _
      rintro a ha
      obtain rfl := Option.some.inj ha
      refine ⟨by simp [IaNaOption.toOption, optIaNa], ?_⟩
      simp [IaNaOption.toOption, iaHeader, IaAddressOption.toOption, Dhcpv6Option.serialize,
        toBeBytes32, toBeBytes16]

/-- The server has answered: what it said before still stands, and so does the answer. -/
theorem Sound.answer (h : Sound duid x) {s : Dhcpv6Server} {a : Answer}
    (hconfig : Dhcpv6Server.SameConfig x.server s) (hepoch : a.epoch ≤ x.epoch) (hfits : a.msg.Fits)
    (hserver : a.msg.optionData optServerid = some x.server.serverDuid)
    (hreleased : a.release = true → a.msg.msgType = msgReply)
    (hgranted : a.release = false → ∃ ip d, Grants a.msg ip d ∧
      s.activeLeases.lookup duid = some ip)
    (hkept : ∀ b ∈ x.toClient, x.Binding b → ∀ ip, x.server.activeLeases.lookup duid = some ip →
      s.activeLeases.lookup duid = some ip) :
    Sound duid ⟨x.client, s, x.epoch, x.toServer, a :: x.toClient⟩ := by
  refine ⟨h.ownDuid, h.serverDuid, h.config.of_same hconfig, h.sent, ?_, ?_, ?_, ?_⟩
  · intro b hb
    rcases List.mem_cons.mp hb with rfl | hb
    · refine ⟨hepoch, hfits, fun d hd => ?_⟩
      rw [hserver] at hd
      obtain rfl := Option.some.inj hd
      exact h.config.serverDuid
    · exact h.answers b hb
  · intro b hb hrelease
    rcases List.mem_cons.mp hb with rfl | hb
    · exact hreleased hrelease
    · exact h.released b hb hrelease
  · intro b hb hrelease
    rcases List.mem_cons.mp hb with rfl | hb
    · obtain ⟨ip, d, hgrants, hlease⟩ := hgranted hrelease
      exact ⟨ip, d, hgrants, fun _ => hlease⟩
    · obtain ⟨ip, d, hgrants, hlease⟩ := h.granted b hb hrelease
      exact ⟨ip, d, hgrants, fun hbinding => hkept b hb hbinding ip (hlease hbinding)⟩
  · intro hbound
    obtain ⟨b, hb, hbinding⟩ := h.bound hbound
    exact ⟨b, List.mem_cons_of_mem a hb, hbinding⟩

/-- What the server grants is kept, and a release comes before anything that binds. -/
theorem Sound.serve (h : Sound duid x) (hlen : duid.length < 2 ^ 16) {m : Sent}
    (hm : m ∈ x.toServer) (htimely : x.Timely (.serve m)) : Sound duid (x.step (.serve m)) := by
  obtain ⟨hepoch, msg, hparse, hduid, hid⟩ := h.sent m hm
  have hgranted : ∀ s reply, Dhcpv6Server.Granted x.server s duid reply →
      Sound duid ⟨x.client, s, x.epoch, x.toServer, ⟨m.epoch, false, reply⟩ :: x.toClient⟩ := by
    intro s reply hg
    obtain ⟨ip, d, hgrants, hlease, hkept⟩ := hg.lease
    refine h.answer hg.config hepoch hg.fits hg.serverDuid nofun
      (fun _ => ⟨ip, d, hgrants, hlease⟩) fun b _ _ old hold => ?_
    rw [hlease, hkept old hold]
  simp only [step, hparse, Dhcpv6Server.dispatch]
  by_cases hsolicit : msg.msgType = msgSolicit
  · obtain ⟨reply, hreply, hg⟩ := Dhcpv6Server.handleSolicit_granted h.config hduid hlen
    have hrelease : decide (msg.msgType = msgRelease) = false := by
      rw [hsolicit]
      decide
    rw [if_pos hsolicit]
    generalize x.server.handleSolicit msg = handled at *
    obtain ⟨s, answered⟩ := handled
    subst hreply
    simpa [hrelease] using hgranted s reply hg
  · rw [if_neg hsolicit]
    by_cases hrequest : msg.msgType = msgRequest
    · obtain ⟨reply, hreply, hg, -⟩ := Dhcpv6Server.handleRequest_granted h.config hduid hlen
      have hrelease : decide (msg.msgType = msgRelease) = false := by
        rw [hrequest]
        decide
      rw [if_pos hrequest]
      generalize x.server.handleRequest msg = handled at *
      obtain ⟨s, answered⟩ := handled
      subst hreply
      simpa [hrelease] using hgranted s reply hg
    · rw [if_neg hrequest]
      by_cases hrelease : msg.msgType = msgRelease
      · rw [if_pos hrelease, Dhcpv6Server.handleRelease_eq hduid]
        simp only [hrelease, decide_true]
        refine h.answer ⟨rfl, rfl, rfl⟩ hepoch ⟨hid, ?_⟩
          (Dhcpv6Server.serverDuid_of_options rfl) (fun _ => rfl) nofun ?_
        · intro o ho
          simp only [List.mem_cons, List.not_mem_nil, or_false] at ho
          rcases ho with rfl | rfl | rfl
          · exact ⟨by simp [optClientid], hlen⟩
          · exact ⟨by simp [optServerid], h.config.serverDuid⟩
          · decide
        · intro b hb hbinding
          exact absurd hbinding (htimely msg hparse hrelease b hb)
      · rw [if_neg hrelease]
        exact h

theorem Sound.hear (h : Sound duid x) (hlen : duid.length < 2 ^ 16) {a : Answer} {nowMs : ℕ}
    (ha : a ∈ x.toClient) (htimely : x.Timely (.hear a nowMs)) :
    Sound duid (x.step (.hear a nowMs)) := by
  obtain ⟨-, hfits, hserver⟩ := h.answers a ha
  obtain hadvertise | ⟨htype, serverDuid, hid, hadvertise⟩ :=
    handleAdvertise_cases (c := x.client) hfits
  · simp only [step, hadvertise]
    obtain hreply | ⟨htype, htransaction, hreply⟩ := handleReply_cases (c := x.client) hfits nowMs
    · rw [hreply]
      exact h
    · rw [hreply]
      have hbinding := htimely htype htransaction
      obtain ⟨ip, d, hgrants, -⟩ := h.granted a ha hbinding.2.1
      refine ⟨h.ownDuid, ?_, h.config, h.sent, h.answers, h.released, h.granted, ?_⟩
      · intro d hd
        simp only [Dhcpv6Client.adopt, Option.mem_def, Option.or_eq_some_iff] at hd
        rcases hd with hd | ⟨-, hd⟩
        · exact hserver d hd
        · exact h.serverDuid d hd
      · intro _
        refine ⟨a, ha, hbinding, ?_⟩
        simp [Dhcpv6Client.adopt, hgrants.assigned]
  · simp only [step, hadvertise]
    have hrelease : a.release = false := by
      cases hr : a.release with
      | false => rfl
      | true =>
        rw [h.released a ha hr] at htype
        exact absurd htype (by decide)
    obtain ⟨ip, d, hgrants, -⟩ := h.granted a ha hrelease
    refine ⟨h.ownDuid, ?_, h.config, ?_, h.answers, h.released, h.granted, by simp⟩
    · rintro d hd
      obtain rfl := Option.some.inj hd
      exact hserver _ hid
    · intro m hm
      rcases List.mem_cons.mp hm with rfl | hm
      · refine ⟨le_rfl, ?_⟩
        rw [h.ownDuid]
        exact fromClient_serialize (fits_request hlen (hserver _ hid) hgrants.requestable.1
          hgrants.requestable.2 _) rfl
      · exact h.sent m hm

theorem sound_step {ev : Event} (h : Sound duid x) (hlen : duid.length < 2 ^ 16)
    (hev : x.Possible ev) (htimely : x.Timely ev) : Sound duid (x.step ev) := by
  cases ev with
  | solicit rapidCommit requestPd => exact h.solicit hlen rapidCommit requestPd
  | release => exact h.release hlen
  | serve m => exact h.serve hlen hev htimely
  | hear a nowMs => exact h.hear hlen hev htimely

/-- A bound client and the server agree on its address, whatever the network does, as long as no
release comes late and no reply but those to the current transaction binds the client. -/
theorem bound_client_agrees (duid : Duid) (hlen : duid.serialize.length < 2 ^ 16)
    (events : List Event)
    (h : Machine.Along step (fun x ev => x.Possible ev ∧ x.Timely ev) (start duid) events) :
    (Machine.run step (start duid) events).Agrees duid :=
  (h.keeps (fun _ _ hx hev => sound_step hx hlen hev.1 hev.2) (sound_start duid)).agrees

/-- A client solicits with rapid commit and is answered. -/
def rapidLease : List Event :=
  [.solicit true false,
    .serve ⟨1, (Dhcpv6Message.buildSolicitFull 2 [7] true false).serialize⟩,
    .hear ⟨1, false, .buildReply 2 [7] Dhcpv6Server.new.serverDuid
      (some (Dhcpv6Server.addressOf 100)) none Dhcpv6Server.new.dnsServers
      Dhcpv6Server.new.searchList true⟩ 0]

/-- It releases the address, and the reply to that comes in. -/
def rapidRelease : List Event :=
  [.release,
    .serve ⟨2, (Dhcpv6Message.buildRelease 3 [7] Dhcpv6Server.new.serverDuid
      (some ⟨1, 0, 0, [⟨Dhcpv6Server.addressOf 100, 0, 0⟩]⟩) none).serialize⟩,
    .hear ⟨2, true, ⟨msgReply, 3, [⟨optClientid, [7]⟩,
      ⟨optServerid, Dhcpv6Server.new.serverDuid⟩, ⟨optStatusCode, [0, 0]⟩]⟩⟩ 0]

theorem bound_client_agrees_rapid :
    (Machine.run step (start (.raw [7])) rapidLease).Agrees (.raw [7]) :=
  bound_client_agrees (.raw [7]) (by decide) rapidLease
    ⟨⟨trivial, trivial⟩, ⟨by decide +kernel, fun _ _ _ a ha => by cases ha⟩,
      ⟨by decide +kernel, fun _ _ => by decide +kernel⟩, trivial⟩

/-- The reply to a release binds the client again, without an address. -/
theorem bound_by_release :
    Machine.Along step Possible (start (.raw [7])) (rapidLease ++ rapidRelease) ∧
      ¬ (Machine.run step (start (.raw [7])) (rapidLease ++ rapidRelease)).Agrees (.raw [7]) := by
  constructor
  · exact ⟨trivial, by decide +kernel, by decide +kernel, trivial, by decide +kernel,
      by decide +kernel, trivial⟩
  · intro h
    obtain ⟨ip, hip, -⟩ := h (by decide +kernel)
    have hnone : (Machine.run step (start (.raw [7]))
        (rapidLease ++ rapidRelease)).client.assignedIp =
        none := by decide +kernel
    rw [hnone] at hip
    cases hip

end Exchange

end ToyTcpip.Dhcpv6

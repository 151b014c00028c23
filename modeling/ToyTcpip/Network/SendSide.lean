import ToyTcpip.Network.System
import ToyTcpip.Lib.Piece

/-! What one side puts on the wire is its SYN, pieces of its stream, and its FIN at the end. -/
namespace ToyTcpip.Network

open Tcp Serial Piece

/-- How a side was opened: a passive one waited in Listen. -/
structure Opening where
  isn : SeqNum
  passive : Bool
  peerPassive : Bool

/-- A segment of a side of whose stream `n` bytes have been sent. -/
inductive Genuine (o : Opening) (stream : List UInt8) (n : ℕ) (fin : Bool) :
    SeqNum → TcpFlags → List UInt8 → Prop where
  | data {p : ℕ} {flags : TcpFlags} {payload : List UInt8} (syn : flags.syn = false)
      (noFin : flags.fin = false) (rst : flags.rst = false) (piece : At stream p payload)
      (sent : p + payload.length ≤ n) : Genuine o stream n fin (pos o.isn (1 + p)) flags payload
  | empty {seq : SeqNum} {flags : TcpFlags} (syn : flags.syn = false) (noFin : flags.fin = false)
      (rst : flags.rst = false) : Genuine o stream n fin seq flags []
  | last {flags : TcpFlags} (syn : flags.syn = false) (rst : flags.rst = false)
      (sent : fin = true) : Genuine o stream n fin (pos o.isn (1 + n)) flags []
  | first {flags : TcpFlags} (syn : flags.syn = true) (noFin : flags.fin = false)
      (rst : flags.rst = false) (ack : flags.ack = o.passive) :
        Genuine o stream n fin o.isn flags []
  /-- The SYN-ACK of a simultaneous open stands one above the SYN it repeats. -/
  | crossed {flags : TcpFlags} (syn : flags.syn = true) (noFin : flags.fin = false)
      (rst : flags.rst = false) (ack : flags.ack = true) (active : o.passive = false)
      (peer : o.peerPassive = false) : Genuine o stream n fin (pos o.isn 1) flags []

section genuine

variable {o : Opening} {stream stream' payload : List UInt8} {n n' : ℕ} {fin fin' : Bool}
  {seq : SeqNum} {flags : TcpFlags}

theorem Genuine.mono (h : Genuine o stream n fin seq flags payload) (hs : stream <+: stream')
    (hn : n ≤ n') (hf : fin = true → fin' = true ∧ n' = n) :
    Genuine o stream' n' fin' seq flags payload := by
  cases h with
  | data syn noFin rst piece sent => exact .data syn noFin rst (piece.mono hs) (by omega)
  | empty syn noFin rst => exact .empty syn noFin rst
  | last syn rst sent =>
    obtain ⟨hf', rfl⟩ := hf sent
    exact .last syn rst hf'
  | first syn noFin rst ack => exact .first syn noFin rst ack
  | crossed syn noFin rst ack active peer => exact .crossed syn noFin rst ack active peer

theorem Genuine.rst (h : Genuine o stream n fin seq flags payload) : flags.rst = false := by
  cases h <;> assumption

theorem Genuine.of_fin (h : Genuine o stream n fin seq flags payload) (hf : flags.fin = true) :
    fin = true ∧ seq = pos o.isn (1 + n) ∧ payload = [] ∧ flags.syn = false := by
  cases h with
  | last syn rst sent => exact ⟨sent, rfl, rfl, syn⟩
  | data _ noFin | empty _ noFin | first _ noFin | crossed _ noFin => simp [hf] at noFin

/-- A SYN stands at the initial sequence number, except for the SYN-ACK of a crossing. -/
theorem Genuine.of_syn (h : Genuine o stream n fin seq flags payload) (hs : flags.syn = true) :
    (seq = o.isn ∧ flags.ack = o.passive) ∨
      (flags.ack = true ∧ o.passive = false ∧ o.peerPassive = false) := by
  cases h with
  | first syn noFin rst ack => exact .inl ⟨rfl, ack⟩
  | crossed syn noFin rst ack active peer => exact .inr ⟨ack, active, peer⟩
  | data syn | empty syn | last syn => simp [hs] at syn

end genuine

/-- The states a connection can be in before it has sent its FIN. -/
def beforeFin : TcpState → Bool
  | .listen | .synSent | .synReceived | .established | .closeWait => true
  | _ => false

/-- A step of the connection state that the send side does not notice. -/
structure Onward (s s' : TcpState) : Prop where
  listen : s' = .listen ↔ s = .listen
  synSent : s' = .synSent → s = .synSent
  closed : s = .closed → s' = .closed
  before : beforeFin s' = true → beforeFin s = true

theorem Onward.of_eq {s s' : TcpState} (h : s' = s) : Onward s s' := by
  subst h
  exact ⟨Iff.rfl, id, id, id⟩

/-- The send side of an endpoint that has sent `n` bytes of what its application wrote. -/
structure SendOk {ρ : Type} (o : Opening) (e : Endpoint ρ) (n : ℕ) (net : List TcpSegment) :
    Prop where
  le : n ≤ e.accepted.length
  listen : e.conn.state = .listen →
    o.passive = true ∧ n = 0 ∧ e.conn.sndNxt = o.isn ∧ e.conn.send.queue = []
  synSent : e.conn.state = .synSent → o.passive = false ∧ n = 0
  nxt : e.conn.state ≠ .listen →
    e.conn.sndNxt = pos o.isn (1 + n + if e.conn.finSent then 1 else 0)
  buffered : e.conn.state ≠ .closed → e.conn.txBuffer = e.accepted.drop n
  unsent : beforeFin e.conn.state = true → e.conn.finSent = false
  finAt : e.finAt = if e.conn.finSent then some n else none
  queue : ∀ r ∈ e.conn.send.queue,
    Genuine o e.accepted n e.conn.finSent r.seqNum r.flags r.payload
  net : ∀ seg ∈ net, Genuine o e.accepted n e.conn.finSent seg.seqNum seg.flags seg.payload

namespace SendOk

variable {ρ : Type} {o : Opening} {e : Endpoint ρ} {n : ℕ} {net : List TcpSegment}

theorem write (h : SendOk o e n net) (data : List UInt8) : SendOk o (e.write data) n net where
  le := by
    have hle := h.le
    simp only [Endpoint.write, List.length_append]
    omega
  listen := h.listen
  synSent := h.synSent
  nxt := h.nxt
  buffered := by
    intro hs
    have hb := h.buffered hs
    simp only [Endpoint.write, TcpConnection.write, hb]
    rw [List.drop_append_of_le_length h.le]
  unsent := h.unsent
  finAt := h.finAt
  queue := fun r hr => (h.queue r hr).mono (List.prefix_append _ _) le_rfl (fun hf => ⟨hf, rfl⟩)
  net := fun r hr => (h.net r hr).mono (List.prefix_append _ _) le_rfl (fun hf => ⟨hf, rfl⟩)

/-- The send side is where it was; the wire may have gained genuine segments. -/
theorem keep {e' : Endpoint ρ} {out : List TcpSegment} (h : SendOk o e n net)
    (acc : e'.accepted = e.accepted) (fin : e'.finAt = e.finAt)
    (nxt : e'.conn.sndNxt = e.conn.sndNxt) (tx : e'.conn.txBuffer = e.conn.txBuffer)
    (sent : e'.conn.finSent = e.conn.finSent)
    (queue : ∀ r ∈ e'.conn.send.queue, r ∈ e.conn.send.queue)
    (onward : Onward e.conn.state e'.conn.state)
    (genuine : ∀ seg ∈ out,
      Genuine o e.accepted n e.conn.finSent seg.seqNum seg.flags seg.payload) :
    SendOk o e' n (net ++ out) where
  le := acc ▸ h.le
  listen := by
    intro hs
    obtain ⟨hp, hn, hx, hq⟩ := h.listen (onward.listen.mp hs)
    refine ⟨hp, hn, nxt.trans hx, List.eq_nil_iff_forall_not_mem.mpr ?_⟩
    intro r hr
    have := queue r hr
    simp [hq] at this
  synSent := fun hs => h.synSent (onward.synSent hs)
  nxt := fun hs => by rw [nxt, sent, h.nxt (fun hl => hs (onward.listen.mpr hl))]
  buffered := fun hs => by rw [tx, acc, h.buffered (fun hc => hs (onward.closed hc))]
  unsent := fun hs => by rw [sent, h.unsent (onward.before hs)]
  finAt := by rw [fin, sent, h.finAt]
  queue := fun r hr => by rw [acc, sent]; exact h.queue r (queue r hr)
  net := by
    intro seg hseg
    rw [acc, sent]
    rcases List.mem_append.mp hseg with hseg | hseg
    · exact h.net seg hseg
    · exact genuine seg hseg

theorem read (h : SendOk o e n net) (len : ℕ) : SendOk o (e.read len) n net := by
  have hs : (e.read len).conn.send = e.conn.send ∧ (e.read len).conn.state = e.conn.state := by
    simp only [Endpoint.read, TcpConnection.read]
    split <;> exact ⟨rfl, rfl⟩
  have hk : SendOk o (e.read len) n (net ++ []) := h.keep rfl rfl (congrArg SendView.sndNxt hs.1)
    (congrArg SendView.txBuffer hs.1) (congrArg SendView.finSent hs.1)
    (fun _ hr => hs.1 ▸ hr) (.of_eq hs.2) (by simp)
  simpa using hk

theorem act_finAt {c' : TcpConnection ρ} (e : Endpoint ρ) (h : c'.finSent = e.conn.finSent) :
    (e.act c').finAt = e.finAt := by
  simp [Endpoint.act, h]

/-- Once the FIN is out, its position is settled. -/
theorem finAt_act (h : SendOk o e n net) (c' : TcpConnection ρ) {k : ℕ} (hk : e.finAt = some k) :
    (e.act c').finAt = some k := by
  have hf : e.conn.finSent = true := by
    by_contra hc
    simp [h.finAt, hc] at hk
  simp [Endpoint.act, hf, hk]

theorem act_same {c' : TcpConnection ρ} {out : List TcpSegment} (h : SendOk o e n net)
    (same : c'.send = e.conn.send) (onward : Onward e.conn.state c'.state)
    (genuine : ∀ seg ∈ out,
      Genuine o e.accepted n e.conn.finSent seg.seqNum seg.flags seg.payload) :
    SendOk o (e.act c') n (net ++ out) :=
  h.keep rfl (act_finAt e (congrArg SendView.finSent same)) (congrArg SendView.sndNxt same)
    (congrArg SendView.txBuffer same) (congrArg SendView.finSent same)
    (fun _ hr => same ▸ hr) onward genuine

theorem genuine_pureAck {c : TcpConnection ρ} {seg : TcpSegment} {stream : List UInt8} {fin : Bool}
    (h : PureAck c seg) : Genuine o stream n fin seg.seqNum seg.flags seg.payload := by
  rw [h.payload, h.flags]
  exact .empty rfl rfl rfl

theorem genuine_resent {c : TcpConnection ρ} {seg : TcpSegment} {r : SentRange}
    (h : SendOk o e n net) (hr : r ∈ e.conn.send.queue) (again : Resent c seg r) :
    Genuine o e.accepted n e.conn.finSent seg.seqNum seg.flags seg.payload := by
  rw [again.seqNum, again.flags, again.payload]
  exact h.queue r hr

/-- A chunk of the send buffer is the next piece of the stream. -/
theorem act_chunk {c' : TcpConnection ρ} {seg : TcpSegment} {k : ℕ} {flags : TcpFlags}
    (h : SendOk o e n net) (sending : e.conn.sending = true) (hk : k ≤ e.conn.txBuffer.length)
    (plain : flags.syn = false ∧ flags.fin = false ∧ flags.rst = false)
    (state : c'.state = e.conn.state) (send : c'.send = e.conn.send.pushChunk k flags)
    (out : seg = e.conn.segment e.conn.sndNxt e.conn.rcvNxt flags e.conn.currentRcvWnd []
      (e.conn.txBuffer.take k)) :
    SendOk o (e.act c') (n + k) (net ++ [seg]) := by
  have hst : e.conn.state = .established ∨ e.conn.state = .closeWait := by
    simpa [TcpConnection.sending] using sending
  have hnl : e.conn.state ≠ .listen := by rcases hst with hst | hst <;> simp [hst]
  have hnc : e.conn.state ≠ .closed := by rcases hst with hst | hst <;> simp [hst]
  have hunsent : e.conn.finSent = false :=
    h.unsent (by rcases hst with hst | hst <;> simp [hst, beforeFin])
  have hbuf := h.buffered hnc
  have hle := h.le
  have hlen : (e.conn.txBuffer.take k).length = k := List.length_take_of_le hk
  have hfit : n + k ≤ e.accepted.length := by
    rw [hbuf, List.length_drop] at hk
    omega
  have hseq : e.conn.sndNxt = pos o.isn (1 + n) := by
    rw [h.nxt hnl, hunsent]
    rfl
  have hfs : c'.finSent = e.conn.finSent := congrArg SendView.finSent send
  have hgen : Genuine o e.accepted (n + k) e.conn.finSent e.conn.sndNxt flags
      (e.conn.txBuffer.take k) := by
    rw [hseq]
    refine .data plain.1 plain.2.1 plain.2.2 ?_ (by rw [hlen])
    rw [hbuf]
    exact at_take_drop _ _ _
  have hold : ∀ {seq fl pl}, Genuine o e.accepted n e.conn.finSent seq fl pl →
      Genuine o e.accepted (n + k) e.conn.finSent seq fl pl :=
    fun hg => hg.mono List.prefix_rfl (by omega) (by simp [hunsent])
  refine ⟨hfit, fun hs => absurd (state ▸ hs) hnl, ?_, ?_, ?_, ?_, ?_, ?_, ?_⟩
  · intro hs
    rw [Endpoint.act, state] at hs
    rcases hst with hst | hst <;> simp [hst] at hs
  · intro _
    have hnxt : c'.sndNxt = e.conn.sndNxt + BitVec.ofNat 32 (e.conn.txBuffer.take k).length :=
      congrArg SendView.sndNxt send
    change c'.sndNxt = pos o.isn (1 + (n + k) + if c'.finSent then 1 else 0)
    rw [hnxt, hlen, hseq, pos_add_ofNat, hfs, hunsent, Nat.add_assoc]
    rfl
  · intro _
    have htx : c'.txBuffer = e.conn.txBuffer.drop k := congrArg SendView.txBuffer send
    change c'.txBuffer = e.accepted.drop (n + k)
    rw [htx, hbuf, List.drop_drop]
  · intro _
    exact hfs.trans hunsent
  · rw [act_finAt e hfs, h.finAt]
    change _ = if c'.finSent then some (n + k) else none
    rw [hfs, hunsent]
    rfl
  · intro r hr
    have hq : c'.send.queue = e.conn.send.queue ++ [⟨e.conn.sndNxt,
        e.conn.sndNxt + BitVec.ofNat 32 (e.conn.txBuffer.take k).length, flags,
        e.conn.txBuffer.take k⟩] := congrArg SendView.queue send
    change Genuine o e.accepted (n + k) c'.finSent r.seqNum r.flags r.payload
    rw [hfs]
    rcases List.mem_append.mp (hq ▸ hr) with hr | hr
    · exact hold (h.queue r hr)
    · obtain rfl := List.mem_singleton.mp hr
      exact hgen
  · intro sg hsg
    change Genuine o e.accepted (n + k) c'.finSent sg.seqNum sg.flags sg.payload
    rw [hfs]
    rcases List.mem_append.mp hsg with hsg | hsg
    · exact hold (h.net sg hsg)
    · obtain rfl := List.mem_singleton.mp hsg
      rw [out]
      exact hgen

/-- The FIN leaves with an empty send buffer, so it stands after every accepted byte. -/
theorem act_fin {c' : TcpConnection ρ} {seg : TcpSegment} (h : SendOk o e n net)
    (state : (e.conn.state = .established ∧ c'.state = .finWait1) ∨
      (e.conn.state = .closeWait ∧ c'.state = .lastAck))
    (unsent : e.conn.finSent = false) (drained : e.conn.txBuffer = [])
    (send : c'.send = e.conn.send.pushFin)
    (out : seg = e.conn.segment e.conn.sndNxt e.conn.rcvNxt .finAck e.conn.currentRcvWnd [] []) :
    SendOk o (e.act c') n (net ++ [seg]) := by
  have hnl : e.conn.state ≠ .listen := by rcases state with ⟨hs, -⟩ | ⟨hs, -⟩ <;> simp [hs]
  have hnc : e.conn.state ≠ .closed := by rcases state with ⟨hs, -⟩ | ⟨hs, -⟩ <;> simp [hs]
  have hall : e.accepted.length = n := by
    have hb := h.buffered hnc
    rw [drained, eq_comm, List.drop_eq_nil_iff] at hb
    exact le_antisymm hb h.le
  have hseq : e.conn.sndNxt = pos o.isn (1 + n) := by
    rw [h.nxt hnl, unsent]
    rfl
  have hfs : c'.finSent = true := congrArg SendView.finSent send
  have hgen : Genuine o e.accepted n true e.conn.sndNxt .finAck [] := by
    rw [hseq]
    exact .last rfl rfl rfl
  have hold : ∀ {seq fl pl}, Genuine o e.accepted n e.conn.finSent seq fl pl →
      Genuine o e.accepted n true seq fl pl :=
    fun hg => hg.mono List.prefix_rfl le_rfl (fun _ => ⟨rfl, rfl⟩)
  refine ⟨h.le, fun hs => ?_, fun hs => ?_, ?_, ?_, fun hs => ?_, ?_, ?_, ?_⟩
  · rw [Endpoint.act] at hs
    rcases state with ⟨-, hs'⟩ | ⟨-, hs'⟩ <;> simp [hs'] at hs
  · rw [Endpoint.act] at hs
    rcases state with ⟨-, hs'⟩ | ⟨-, hs'⟩ <;> simp [hs'] at hs
  · intro _
    have hnxt : c'.sndNxt = e.conn.sndNxt + 1 := congrArg SendView.sndNxt send
    change c'.sndNxt = pos o.isn (1 + n + if c'.finSent then 1 else 0)
    rw [hnxt, hseq, hfs]
    exact pos_add_ofNat o.isn (1 + n) 1
  · intro _
    have htx : c'.txBuffer = e.conn.txBuffer := congrArg SendView.txBuffer send
    change c'.txBuffer = e.accepted.drop n
    rw [htx, h.buffered hnc]
  · rw [Endpoint.act] at hs
    rcases state with ⟨-, hs'⟩ | ⟨-, hs'⟩ <;> simp [hs', beforeFin] at hs
  · simp [Endpoint.act, hfs, unsent, hall]
  · intro r hr
    have hq : c'.send.queue = e.conn.send.queue ++
        [⟨e.conn.sndNxt, e.conn.sndNxt + 1, .finAck, []⟩] :=
      congrArg SendView.queue send
    change Genuine o e.accepted n c'.finSent r.seqNum r.flags r.payload
    rw [hfs]
    rcases List.mem_append.mp (hq ▸ hr) with hr | hr
    · exact hold (h.queue r hr)
    · obtain rfl := List.mem_singleton.mp hr
      exact hgen
  · intro sg hsg
    change Genuine o e.accepted n c'.finSent sg.seqNum sg.flags sg.payload
    rw [hfs]
    rcases List.mem_append.mp hsg with hsg | hsg
    · exact hold (h.net sg hsg)
    · obtain rfl := List.mem_singleton.mp hsg
      rw [out]
      exact hgen

/-- Every local step keeps the send side; only chunks move the sent count. -/
theorem act {c' : TcpConnection ρ} {out : List TcpSegment} (h : SendOk o e n net)
    (step : LocalStep e.conn c' out) :
    ∃ n', n ≤ n' ∧ (e.conn.finSent = true → n' = n) ∧ SendOk o (e.act c') n' (net ++ out) := by
  cases step with
  | quiet same =>
    exact ⟨n, le_rfl, fun _ => rfl, h.act_same same.send (.of_eq same.state) (by simp)⟩
  | ack _ same reply =>
    refine ⟨n, le_rfl, fun _ => rfl, h.act_same same.send (.of_eq same.state) ?_⟩
    simpa using genuine_pureAck reply
  | resend same again =>
    refine ⟨n, le_rfl, fun _ => rfl, h.act_same same.send (.of_eq same.state) ?_⟩
    simpa using h.genuine_resent (same.send ▸ again.mem) again
  | @chunk seg k flags sending _ le kind state _ _ send _ out =>
    have hst : e.conn.finSent = false := by
      have hs : e.conn.state = .established ∨ e.conn.state = .closeWait := by
        simpa [TcpConnection.sending] using sending
      exact h.unsent (by rcases hs with hs | hs <;> simp [hs, beforeFin])
    refine ⟨n + k, by omega, by simp [hst], h.act_chunk sending le ?_ state send out⟩
    rcases kind with ⟨rfl, -⟩ | ⟨rfl, -⟩ <;> exact ⟨rfl, rfl, rfl⟩
  | fin state unsent drained _ _ send _ out =>
    exact ⟨n, le_rfl, fun _ => rfl, h.act_fin state unsent drained send out⟩
  | expire before after _ _ send =>
    refine ⟨n, le_rfl, fun _ => rfl, h.act_same send ?_ (by simp)⟩
    rw [before, after]
    exact ⟨by simp, by simp, by simp, by simp [beforeFin]⟩

theorem abort (h : SendOk o e n net) (hq : e.conn.retransmitQueue ≠ []) :
    SendOk o (e.act e.conn.abort) n net := by
  have hnl : e.conn.state ≠ .listen := by
    intro hs
    have hnil := (h.listen hs).2.2.2
    exact hq (List.map_eq_nil_iff.mp hnil)
  have hfs : e.conn.abort.finSent = e.conn.finSent := rfl
  refine ⟨h.le, nofun, nofun, fun _ => h.nxt hnl, fun hs => absurd rfl hs, nofun, ?_, nofun, h.net⟩
  rw [act_finAt e hfs, h.finAt]
  rfl

theorem receive_same {c' : TcpConnection ρ} {out : List TcpSegment} (h : SendOk o e n net)
    (nxt : c'.sndNxt = e.conn.sndNxt) (tx : c'.txBuffer = e.conn.txBuffer)
    (sent : c'.finSent = e.conn.finSent) (queue : ∀ r ∈ c'.send.queue, r ∈ e.conn.send.queue)
    (onward : Onward e.conn.state c'.state)
    (genuine : ∀ seg ∈ out,
      Genuine o e.accepted n e.conn.finSent seg.seqNum seg.flags seg.payload) :
    SendOk o (e.receive c') n (net ++ out) :=
  h.keep rfl rfl nxt tx sent queue onward genuine

/-- An acknowledgement only takes entries off the queue. -/
theorem receive_acked {c' : TcpConnection ρ} {out : List TcpSegment} {w : BitVec 16} {a : SeqNum}
    (h : SendOk o e n net) (send : c'.send = (e.conn.send.withWnd w).ackTo a)
    (onward : Onward e.conn.state c'.state)
    (genuine : ∀ seg ∈ out,
      Genuine o e.accepted n e.conn.finSent seg.seqNum seg.flags seg.payload) :
    SendOk o (e.receive c') n (net ++ out) := by
  refine h.receive_same (congrArg SendView.sndNxt send) (congrArg SendView.txBuffer send)
    (congrArg SendView.finSent send) ?_ onward genuine
  intro r hr
  rw [send] at hr
  exact List.mem_of_mem_filter hr

theorem receive_passiveOpen {c' : TcpConnection ρ} {seg : TcpSegment} {w : BitVec 16}
    (h : SendOk o e n net) (before : e.conn.state = .listen) (state : c'.state = .synReceived)
    (send : c'.send = (e.conn.send.withWnd w).push 1 .synAck [])
    (seq : seg.seqNum = e.conn.sndNxt) (flags : seg.flags = .synAck) (payload : seg.payload = []) :
    SendOk o (e.receive c') n (net ++ [seg]) := by
  obtain ⟨hpassive, rfl, hisn, hq⟩ := h.listen before
  have hunsent : e.conn.finSent = false := h.unsent (by simp [before, beforeFin])
  have hfs : c'.finSent = e.conn.finSent := congrArg SendView.finSent send
  have hgen : ∀ fin, Genuine o e.accepted 0 fin o.isn .synAck [] :=
    fun fin => .first rfl rfl rfl hpassive.symm
  refine ⟨h.le, fun hs => ?_, fun hs => ?_, fun _ => ?_, fun _ => ?_, fun _ => hfs.trans hunsent,
    ?_, ?_, ?_⟩
  · rw [Endpoint.receive, state] at hs
    cases hs
  · rw [Endpoint.receive, state] at hs
    cases hs
  · have hnxt : c'.sndNxt = e.conn.sndNxt + 1 := congrArg SendView.sndNxt send
    change c'.sndNxt = pos o.isn (1 + 0 + if c'.finSent then 1 else 0)
    rw [hnxt, hisn, hfs, hunsent]
    rfl
  · have htx : c'.txBuffer = e.conn.txBuffer := congrArg SendView.txBuffer send
    exact htx.trans (h.buffered (by simp [before]))
  · change e.finAt = if c'.finSent then some 0 else none
    rw [hfs, h.finAt]
  · intro r hr
    have hqueue : c'.send.queue = [⟨e.conn.sndNxt, e.conn.sndNxt + 1, .synAck, []⟩] := by
      rw [send]
      simp [SendView.push, SendView.withWnd, hq]
      rfl
    obtain rfl := List.mem_singleton.mp (hqueue ▸ hr)
    change Genuine o e.accepted 0 c'.finSent e.conn.sndNxt .synAck []
    rw [hisn]
    exact hgen _
  · intro sg hsg
    change Genuine o e.accepted 0 c'.finSent sg.seqNum sg.flags sg.payload
    rw [hfs]
    rcases List.mem_append.mp hsg with hsg | hsg
    · exact h.net sg hsg
    · obtain rfl := List.mem_singleton.mp hsg
      rw [seq, flags, payload, hisn]
      exact hgen _

end SendOk

theorem onward_transfer {ρ : Type} {c c' : TcpConnection ρ} {seg : TcpSegment}
    (before : c.state = .established ∨ c.state = .finWait1 ∨ c.state = .finWait2)
    (state : c'.state = c.stateAfter seg ∨
      (c.finSent = true ∧ c'.state = (c.stateAfter seg).onFinAcked)) :
    Onward c.state c'.state := by
  have hafter : c.stateAfter seg = c.state ∨ c.stateAfter seg = c.state.onFin := by
    unfold TcpConnection.stateAfter
    split <;> simp
  rcases before with hb | hb | hb <;> rcases hafter with ha | ha <;>
    rcases state with hs | ⟨-, hs⟩ <;> rw [hs, ha, hb] <;>
    exact ⟨by simp [TcpState.onFin, TcpState.onFinAcked], by simp [TcpState.onFin,
      TcpState.onFinAcked], by simp, by simp [TcpState.onFin, TcpState.onFinAcked, beforeFin]⟩

/-- Every arrival keeps the send side: what comes in is never a reset, and a crossing SYN only
reaches a side whose peer opened actively. -/
theorem SendOk.receive {ρ : Type} {o : Opening} {e : Endpoint ρ} {n : ℕ} {net : List TcpSegment}
    {c' : TcpConnection ρ} {seg : TcpSegment} {reply : Option TcpSegment} (h : SendOk o e n net)
    (hrst : seg.flags.rst = false)
    (hcross : seg.flags.syn = true → seg.flags.ack = false → o.peerPassive = false)
    (arrival : Arrival e.conn seg c' reply) :
    SendOk o (e.receive c') n (net ++ reply.toList) := by
  obtain ⟨c₁, hp, hr⟩ := arrival
  have hseq : c₁.sndNxt = e.conn.sndNxt := congrArg SendView.sndNxt hp.send
  have hacks : ∀ {q : Option TcpSegment}, (∀ r ∈ q, PureAck c' r) → ∀ r ∈ q.toList,
      Genuine o e.accepted n e.conn.finSent r.seqNum r.flags r.payload :=
    fun hq r hr => genuine_pureAck (hq r (Option.mem_toList.mp hr))
  have hsame : c'.send = c₁.send → c'.state = c₁.state → (∀ r ∈ reply, PureAck c' r) →
      SendOk o (e.receive c') n (net ++ reply.toList) := by
    intro hv hs hq
    rw [hp.send] at hv
    rw [hp.state] at hs
    exact h.receive_same (congrArg SendView.sndNxt hv) (congrArg SendView.txBuffer hv)
      (congrArg SendView.finSent hv) (fun _ hr => hv ▸ hr) (.of_eq hs) (hacks hq)
  cases hr with
  | ignore same => exact hsame same.send same.state (by simp)
  | answer live same ack => exact hsame same.send same.state (by simpa using ack)
  | reset rst => simp [hrst] at rst
  | passiveOpen now before syn state recv send =>
    rw [hp.state] at before
    rw [hp.send] at send
    exact h.receive_passiveOpen before state send hseq rfl rfl
  | activeOpen before syn ack acked state recv send opts marks reply =>
    rw [hp.state] at before
    rw [hp.send] at send
    refine h.receive_acked send ?_ (hacks (by simpa using reply))
    rw [before, state]
    exact ⟨by simp, by simp, by simp, by simp [beforeFin]⟩
  | crossing before syn ack state recv send =>
    rw [hp.state] at before
    rw [hp.send] at send
    obtain ⟨hactive, rfl⟩ := h.synSent before
    have hunsent : e.conn.finSent = false := h.unsent (by simp [before, beforeFin])
    refine h.receive_same (congrArg SendView.sndNxt send) (congrArg SendView.txBuffer send)
      (congrArg SendView.finSent send) (fun _ hr => send ▸ hr) ?_ ?_
    · rw [before, state]
      exact ⟨by simp, by simp, by simp, by simp [beforeFin]⟩
    · intro r hr
      obtain rfl := List.mem_singleton.mp hr
      change Genuine o e.accepted 0 e.conn.finSent c₁.sndNxt .synAck []
      rw [hseq, h.nxt (by simp [before]), hunsent]
      exact .crossed rfl rfl rfl rfl hactive (hcross syn ack)
  | handshake before ack acked state recv send opts marks acks =>
    rw [hp.state] at before
    rw [hp.send] at send
    refine h.receive_acked send ?_ (hacks acks)
    rw [before, state]
    exact ⟨by simp, by simp, by simp, by simp [beforeFin]⟩
  | transfer before recv state send opts marks acks =>
    have honward := onward_transfer before state
    rw [hp.state] at honward
    obtain ⟨hnxt, htx, hfin, hsub⟩ := send.keeps
    rw [hp.send] at hsub
    refine h.receive_same (hnxt.trans hseq) (htx.trans (congrArg SendView.txBuffer hp.send))
      (hfin.trans (congrArg SendView.finSent hp.send)) hsub honward ?_
    intro r hr
    rcases acks r (Option.mem_toList.mp hr) with ha | ⟨-, q, ha⟩
    · exact genuine_pureAck ha
    · exact h.genuine_resent (hsub q ha.mem) ha
  | closeWait before ack new state recv send opts marks acks =>
    rw [hp.state] at before
    rw [hp.send] at send
    refine h.receive_acked send ?_ (hacks acks)
    rw [before, state]
    exact .of_eq rfl
  | finAcked states ack acked recv send =>
    rw [hp.state] at states
    rw [hp.send] at send
    refine h.receive_acked (w := e.conn.sndWnd) send ?_ (by simp)
    rcases states with ⟨hb, ha⟩ | ⟨hb, ha⟩ <;> rw [hb, ha] <;>
      exact ⟨by simp, by simp, by simp, by simp [beforeFin]⟩

end ToyTcpip.Network

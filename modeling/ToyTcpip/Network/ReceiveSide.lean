import ToyTcpip.Network.SendSide
import ToyTcpip.Network.System
import ToyTcpip.Tcp.Reassembly

/-! A receiver that is fed pieces of one stream delivers a prefix of that stream. -/
namespace ToyTcpip.Network

open Tcp Serial Piece

/-- A queued segment holds the bytes of the stream that belong at its sequence number; only
the first `n` bytes have been sent. -/
def Placed (isn : SeqNum) (stream : List UInt8) (n : ℕ) (q : OooSegment) : Prop :=
  ∃ p, q.1 = pos isn (1 + p) ∧ At stream p q.2 ∧ p + q.2.length ≤ n

/-- The receive position and the queue follow the stream, `read` bytes of which are gone. -/
structure Tracks (isn : SeqNum) (stream : List UInt8) (n : ℕ) (read : List UInt8)
    (rcvNxt : SeqNum) (rx : List UInt8) (ooo : List OooSegment) : Prop where
  initial : read ++ rx <+: stream
  le : (read ++ rx).length ≤ n
  nxt : rcvNxt = pos isn (1 + (read ++ rx).length)
  placed : ∀ q ∈ ooo, Placed isn stream n q

variable {isn : SeqNum} {stream read : List UInt8} {n : ℕ}

/-- Bytes of the stream that start at the receive position extend what is delivered. -/
theorem Tracks.extend {r : SeqNum} {rx fresh : List UInt8} {ooo : List OooSegment}
    (h : Tracks isn stream n read r rx ooo) (ooo' : List OooSegment)
    (hat : At stream (read ++ rx).length fresh) (hle : (read ++ rx).length + fresh.length ≤ n)
    (hsub : ∀ q ∈ ooo', q ∈ ooo) :
    Tracks isn stream n read (pos isn (1 + (read ++ rx).length + fresh.length)) (rx ++ fresh)
      ooo' := by
  have hpre : read ++ (rx ++ fresh) <+: stream := by
    rw [← List.append_assoc, List.prefix_iff_eq_take.mp h.initial, hat.take_append]
    exact List.take_prefix _ _
  refine ⟨hpre, ?_, ?_, fun q hq => h.placed q (hsub q hq)⟩
  · rw [← List.append_assoc, List.length_append]
    exact hle
  · rw [← List.append_assoc, Nat.add_assoc, ← List.length_append]

theorem tracks_drainRule (hn : n < 2 ^ 31) :
    DrainRule fun d ooo => Tracks isn stream n read d.rcvNxt d.rxBuffer ooo where
  superseded := by
    intro d pre e post h _
    exact ⟨h.initial, h.le, h.nxt, fun q hq => h.placed q (by
      rcases List.mem_append.mp hq with hq | hq <;> simp [hq])⟩
  contiguous := by
    intro d pre e post h hnew hmeet
    obtain ⟨p, hp, hat, hle⟩ := h.placed e (by simp)
    have hrle := h.le
    have hend := oooEnd_pos hp
    rw [hp, h.nxt, seqLe_pos (by omega) (by omega)] at hmeet
    rw [hend, h.nxt, Bool.eq_false_iff, ne_eq, seqLe_pos (by omega) (by omega)] at hnew
    obtain ⟨hr, hx⟩ := consume_pos h.nxt hp hmeet (by omega) (by omega)
    have hk : 1 + (read ++ d.rxBuffer).length - (1 + p) = (read ++ d.rxBuffer).length - p := by
      omega
    rw [hk] at hx
    have hfresh := hat.drop ((read ++ d.rxBuffer).length - p)
    rw [Nat.add_sub_cancel' (by omega)] at hfresh
    have hlen : (e.2.drop ((read ++ d.rxBuffer).length - p)).length =
        p + e.2.length - (read ++ d.rxBuffer).length := by
      rw [List.length_drop]
      omega
    have hext := h.extend (pre ++ post) hfresh (by rw [hlen]; omega) (by
      intro q hq
      rcases List.mem_append.mp hq with hq | hq <;> simp [hq])
    rw [hx, hr]
    convert hext using 2
    rw [hlen]
    omega

/-- `accept_data` keeps following the stream when the segment is a piece of it. -/
theorem acceptData_tracks {ρ : Type} {c : TcpConnection ρ} {p : ℕ} {payload : List UInt8}
    (hn : n < 2 ^ 31) (h : Tracks isn stream n read c.rcvNxt c.rxBuffer c.oooSegments)
    (hat : At stream p payload) (hle : p + payload.length ≤ n) :
    Tracks isn stream n read (c.acceptData (pos isn (1 + p)) payload).rcvNxt
      (c.acceptData (pos isn (1 + p)) payload).rxBuffer
      (c.acceptData (pos isn (1 + p)) payload).oooSegments := by
  have hrle := h.le
  unfold TcpConnection.acceptData
  split
  · exact h
  · rename_i e he
    obtain ⟨k, hk, hseq, hpre, -, -⟩ := TcpConnection.trimToWindow_spec he
    rw [pos_pos, Nat.add_assoc] at hseq
    have hpiece : At stream (p + k) e.2 := hpre.trans (hat.drop k)
    have hlen : e.2.length ≤ payload.length - k := by
      simpa using hpre.length_le
    split
    · rename_i hin
      have hd : p + k = (read ++ c.rxBuffer).length := by
        rw [hseq, h.nxt] at hin
        rcases Nat.le_total (p + k) (read ++ c.rxBuffer).length with hc | hc
        · have := (pos_inj isn (by omega) (by omega)).mp hin
          omega
        · have := (pos_inj isn (by omega) (by omega)).mp hin.symm
          omega
      rw [hd] at hpiece
      have hext := h.extend c.oooSegments hpiece (by omega) (fun _ hq => hq)
      rw [← pos_add_ofNat, ← h.nxt] at hext
      exact (tracks_drainRule hn).loop
        (d := ⟨_, _, c.stats.bytesReceived + e.2.length⟩) hext
    · have hb := TcpConnection.bufferOoo_recv c e
      have hnxt : (c.bufferOoo e).rcvNxt = c.rcvNxt := congrArg RecvView.rcvNxt hb
      have hrx : (c.bufferOoo e).rxBuffer = c.rxBuffer := congrArg RecvView.rxBuffer hb
      refine ⟨hrx ▸ h.initial, hrx ▸ h.le, ?_, ?_⟩
      · exact hnxt.trans (hrx ▸ h.nxt)
      · intro q hq
        rcases TcpConnection.mem_bufferOoo hq with hq | rfl
        · exact h.placed q hq
        · exact ⟨p + k, hseq, hpiece, by omega⟩

end ToyTcpip.Network

/-! ### What one side has received of the other's stream. -/
namespace ToyTcpip.Network

open Tcp Serial Piece

/-- The receive side of an endpoint whose peer started at `isn`, has sent `n` bytes of `stream`
and, if it closed, did so at `finAt`. -/
structure RecvOk {ρ : Type} (isn : SeqNum) (stream : List UInt8) (n : ℕ) (finAt : Option ℕ)
    (e : Endpoint ρ) : Prop where
  live : e.conn.synchronized = true → e.synced = true
  early : e.conn.state = .listen ∨ e.conn.state = .synSent → e.synced = false
  fresh : e.synced = false →
    e.delivered = [] ∧ e.conn.oooSegments = [] ∧ e.conn.finReceived = false
  initial : e.delivered <+: stream
  le : e.delivered.length ≤ n
  nxt : e.synced = true →
    e.conn.rcvNxt = pos isn (1 + e.delivered.length + if e.conn.finReceived then 1 else 0)
  placed : ∀ q ∈ e.conn.oooSegments, Placed isn stream n q
  fin : e.conn.finReceived = true → finAt = some e.delivered.length
  open_ : taking e.conn.state = true → e.conn.finReceived = false

namespace RecvOk

variable {ρ : Type} {isn : SeqNum} {stream stream' : List UInt8} {n n' : ℕ}
  {finAt finAt' : Option ℕ} {e : Endpoint ρ}

theorem unsynchronized (h : RecvOk isn stream n finAt e) (hs : e.synced = false) :
    e.conn.synchronized = false := by
  by_contra hc
  simp [h.live (by simpa using hc)] at hs

/-- The peer may write, send and close on. -/
theorem mono (h : RecvOk isn stream n finAt e) (hs : stream <+: stream') (hn : n ≤ n')
    (hf : ∀ k, finAt = some k → finAt' = some k) : RecvOk isn stream' n' finAt' e where
  live := h.live
  early := h.early
  fresh := h.fresh
  initial := h.initial.trans hs
  le := h.le.trans hn
  nxt := h.nxt
  placed := by
    intro q hq
    obtain ⟨p, hp, hat, hle⟩ := h.placed q hq
    exact ⟨p, hp, hat.mono hs, hle.trans hn⟩
  fin := fun hfin => hf _ (h.fin hfin)
  open_ := h.open_

/-- The receive side is where it was. -/
theorem keep {e' : Endpoint ρ} (h : RecvOk isn stream n finAt e) (del : e'.delivered = e.delivered)
    (nxt : e'.conn.rcvNxt = e.conn.rcvNxt) (ooo : e'.conn.oooSegments = e.conn.oooSegments)
    (fin : e'.conn.finReceived = e.conn.finReceived) (synced : e'.synced = e.synced)
    (live : e'.conn.synchronized = true → e.conn.synchronized = true)
    (early : e'.conn.state = .listen ∨ e'.conn.state = .synSent → e'.conn.state = e.conn.state)
    (taken : taking e'.conn.state = true → taking e.conn.state = true) :
    RecvOk isn stream n finAt e' where
  live := fun hl => synced ▸ h.live (live hl)
  early := fun hs => by
    have heq := early hs
    rw [heq] at hs
    exact synced ▸ h.early hs
  fresh := by
    rw [del, ooo, fin, synced]
    exact h.fresh
  initial := del ▸ h.initial
  le := del ▸ h.le
  nxt := by
    rw [del, nxt, fin, synced]
    exact h.nxt
  placed := ooo ▸ h.placed
  fin := by
    rw [del, fin]
    exact h.fin
  open_ := fun ht => fin ▸ h.open_ (taken ht)

theorem write (h : RecvOk isn stream n finAt e) (data : List UInt8) :
    RecvOk isn stream n finAt (e.write data) :=
  h.keep rfl rfl rfl rfl rfl id (fun _ => rfl) id

theorem read (h : RecvOk isn stream n finAt e) (len : ℕ) :
    RecvOk isn stream n finAt (e.read len) := by
  by_cases hrx : e.conn.rxBuffer = []
  · have hc : e.conn.read len = (e.conn, []) := by simp [TcpConnection.read, hrx]
    refine h.keep ?_ ?_ ?_ ?_ ?_ ?_ ?_ ?_ <;> simp [Endpoint.read, Endpoint.delivered, hc]
  · refine h.keep ?_ ?_ ?_ ?_ rfl ?_ ?_ ?_ <;>
      simp [Endpoint.read, Endpoint.delivered, TcpConnection.read, hrx, TcpConnection.synchronized]

/-- The connection acted on its own: only its state moved. -/
theorem act_same {c' : TcpConnection ρ} (h : RecvOk isn stream n finAt e)
    (recv : c'.recv = e.conn.recv)
    (live : c'.synchronized = true → e.conn.synchronized = true)
    (early : c'.state = .listen ∨ c'.state = .synSent → c'.state = e.conn.state)
    (taken : taking c'.state = true → taking e.conn.state = true) :
    RecvOk isn stream n finAt (e.act c') := by
  have hrx : c'.rxBuffer = e.conn.rxBuffer := congrArg RecvView.rxBuffer recv
  exact h.keep (congrArg (e.received ++ ·) hrx) (congrArg RecvView.rcvNxt recv)
    (congrArg RecvView.oooSegments recv) (congrArg RecvView.finReceived recv) rfl live early taken

theorem act {c' : TcpConnection ρ} {out : List TcpSegment} (h : RecvOk isn stream n finAt e)
    (step : LocalStep e.conn c' out) : RecvOk isn stream n finAt (e.act c') := by
  have hsame : ∀ {c' : TcpConnection ρ}, c'.state = e.conn.state → c'.recv = e.conn.recv →
      RecvOk isn stream n finAt (e.act c') := by
    intro c' hs hr
    exact h.act_same hr (by simp [TcpConnection.synchronized, hs]) (fun _ => hs) (by simp [hs])
  cases step with
  | quiet same | ack _ same _ | resend same _ => exact hsame same.state same.recv
  | chunk _ _ _ _ state recv => exact hsame state recv
  | fin state _ _ recv =>
    refine h.act_same recv ?_ ?_ ?_ <;> rcases state with ⟨hb, ha⟩ | ⟨hb, ha⟩ <;>
      simp [TcpConnection.synchronized, hb, ha, taking]
  | expire before after recv =>
    refine h.act_same recv ?_ ?_ ?_ <;> simp [TcpConnection.synchronized, after, taking]

theorem abort (h : RecvOk isn stream n finAt e) : RecvOk isn stream n finAt (e.act e.conn.abort) :=
  h.act_same rfl (by simp [TcpConnection.abort, TcpConnection.synchronized])
    (by simp [TcpConnection.abort]) (by simp [TcpConnection.abort, taking])

/-! ### Arrivals -/

/-- The peer's SYN is consumed: nothing was delivered before it. -/
theorem receive_syn {c' : TcpConnection ρ} (h : RecvOk isn stream n finAt e)
    (before : e.conn.state = .listen ∨ e.conn.state = .synSent)
    (recv : c'.recv = e.conn.recv.synced isn)
    (after : c'.state = .synReceived ∨ c'.state = .established) :
    RecvOk isn stream n finAt (e.receive c') := by
  obtain ⟨hdel, hooo, hfin⟩ := h.fresh (h.early before)
  have hrx : c'.rxBuffer = e.conn.rxBuffer := congrArg RecvView.rxBuffer recv
  have hdel' : (e.receive c').delivered = [] := (congrArg (e.received ++ ·) hrx).trans hdel
  have hooo' : c'.oooSegments = [] := (congrArg RecvView.oooSegments recv).trans hooo
  have hfin' : c'.finReceived = false := (congrArg RecvView.finReceived recv).trans hfin
  have hlive : c'.synchronized = true := by
    rcases after with ha | ha <;> simp [TcpConnection.synchronized, ha]
  have hsync : (e.receive c').synced = true := by simp [Endpoint.receive, hlive]
  refine ⟨fun _ => hsync, ?_, by simp [hsync], by simp [hdel'], by simp [hdel'], ?_, ?_, ?_, ?_⟩
  · rintro (hs | hs) <;> rw [Endpoint.receive] at hs <;> rcases after with ha | ha <;>
      simp [ha] at hs
  · intro _
    have hnxt : c'.rcvNxt = isn + 1 := congrArg RecvView.rcvNxt recv
    rw [hdel']
    change c'.rcvNxt = pos isn (1 + 0 + if c'.finReceived then 1 else 0)
    rw [hnxt, hfin']
    rfl
  · simp [Endpoint.receive, hooo']
  · simp [Endpoint.receive, hfin']
  · simp [Endpoint.receive, hfin']

theorem tracks {c : TcpConnection ρ} (h : RecvOk isn stream n finAt e)
    (recv : c.recv = e.conn.recv) (synced : e.synced = true) (hf : e.conn.finReceived = false) :
    Tracks isn stream n e.received c.rcvNxt c.rxBuffer c.oooSegments := by
  have hrx : c.rxBuffer = e.conn.rxBuffer := congrArg RecvView.rxBuffer recv
  have hnxt : c.rcvNxt = e.conn.rcvNxt := congrArg RecvView.rcvNxt recv
  have hooo : c.oooSegments = e.conn.oooSegments := congrArg RecvView.oooSegments recv
  rw [hrx, hnxt, hooo]
  refine ⟨h.initial, h.le, ?_, h.placed⟩
  rw [h.nxt synced, hf]
  rfl

/-- The payload of a genuine segment keeps the receiver on the stream. -/
theorem acceptPayload_tracks {o : Opening} {fin : Bool} {c : TcpConnection ρ} {seg : TcpSegment}
    {rd : List UInt8} (hn : n < 2 ^ 31)
    (h : Tracks o.isn stream n rd c.rcvNxt c.rxBuffer c.oooSegments)
    (hseg : Genuine o stream n fin seg.seqNum seg.flags seg.payload) :
    Tracks o.isn stream n rd (c.acceptPayload seg).rcvNxt (c.acceptPayload seg).rxBuffer
      (c.acceptPayload seg).oooSegments := by
  unfold TcpConnection.acceptPayload
  split
  · rename_i hne
    generalize seg.seqNum = seq, seg.flags = flags, seg.payload = payload at *
    cases hseg with
    | data _ _ _ piece sent => exact acceptData_tracks hn h piece sent
    | empty | last | first | crossed => exact absurd rfl hne
  · exact h

/-- Data has been taken, and no FIN. -/
theorem receive_tracked {c c' : TcpConnection ρ} (synced : e.synced = true)
    (tr : Tracks isn stream n e.received c.rcvNxt c.rxBuffer c.oooSegments)
    (hf : c.finReceived = false) (recv : c'.recv = c.recv)
    (live : c'.state ≠ .listen ∧ c'.state ≠ .synSent) :
    RecvOk isn stream n finAt (e.receive c') := by
  have hrx : c'.rxBuffer = c.rxBuffer := congrArg RecvView.rxBuffer recv
  have hnxt : c'.rcvNxt = c.rcvNxt := congrArg RecvView.rcvNxt recv
  have hooo : c'.oooSegments = c.oooSegments := congrArg RecvView.oooSegments recv
  have hfin : c'.finReceived = false := (congrArg RecvView.finReceived recv).trans hf
  have hdel : (e.receive c').delivered = e.received ++ c.rxBuffer :=
    congrArg (e.received ++ ·) hrx
  have hsync : (e.receive c').synced = true := by simp [Endpoint.receive, synced]
  refine ⟨fun _ => hsync, ?_, by simp [hsync], hdel ▸ tr.initial, hdel ▸ tr.le, ?_, ?_, ?_, ?_⟩
  · rintro (hs | hs)
    · exact absurd hs live.1
    · exact absurd hs live.2
  · intro _
    rw [hdel]
    change c'.rcvNxt = pos isn (1 + _ + if c'.finReceived then 1 else 0)
    rw [hnxt, hfin]
    exact tr.nxt
  · change ∀ q ∈ c'.oooSegments, _
    rw [hooo]
    exact tr.placed
  · simp [Endpoint.receive, hfin]
  · simp [Endpoint.receive, hfin]

/-- A FIN that stands at the receive position stands at the end of the peer's stream. -/
theorem receive_fin {o : Opening} {fin : Bool} {c c' : TcpConnection ρ} {seg : TcpSegment}
    (hn : n < 2 ^ 31) (hfa : fin = true → finAt = some n)
    (hseg : Genuine o stream n fin seg.seqNum seg.flags seg.payload) (synced : e.synced = true)
    (tr : Tracks o.isn stream n e.received c.rcvNxt c.rxBuffer c.oooSegments)
    (takes : c.recv.takesFin seg = true) (recv : c'.recv = c.recv.afterFin seg)
    (after : c'.state = .closeWait ∨ c'.state = .closing ∨ c'.state = .timeWait) :
    RecvOk o.isn stream n finAt (e.receive c') := by
  rw [RecvView.afterFin, takes, if_pos rfl] at recv
  have hrx : c'.rxBuffer = c.rxBuffer := congrArg RecvView.rxBuffer recv
  have hnxt : c'.rcvNxt = c.rcvNxt + 1 := congrArg RecvView.rcvNxt recv
  have hooo : c'.oooSegments = c.oooSegments := congrArg RecvView.oooSegments recv
  have hfin : c'.finReceived = true := congrArg RecvView.finReceived recv
  have hdel : (e.receive c').delivered = e.received ++ c.rxBuffer :=
    congrArg (e.received ++ ·) hrx
  have hsync : (e.receive c').synced = true := by simp [Endpoint.receive, synced]
  have hlen : fin = true ∧ (e.received ++ c.rxBuffer).length = n := by
    have ht : seg.flags.fin = true ∧ seg.finSeq = c.rcvNxt ∧ c.finReceived = false := by
      simpa [RecvView.takesFin, TcpConnection.recv] using takes
    obtain ⟨hsent, hseq, hpay, hsyn⟩ := hseg.of_fin ht.1
    refine ⟨hsent, ?_⟩
    have hpos := ht.2.1
    have hle := tr.le
    rw [TcpSegment.finSeq, hseq, hpay, hsyn, tr.nxt] at hpos
    simp only [Bool.false_eq_true, if_false, List.length_nil, BitVec.ofNat_eq_ofNat,
      BitVec.add_zero] at hpos
    have := (pos_inj o.isn (by omega) (by omega)).mp hpos.symm
    omega
  refine ⟨fun _ => hsync, ?_, by simp [hsync], hdel ▸ tr.initial, hdel ▸ tr.le, ?_, ?_, ?_, ?_⟩
  · rintro (hs | hs) <;> rw [Endpoint.receive] at hs <;> rcases after with ha | ha | ha <;>
      simp [ha] at hs
  · intro _
    rw [hdel]
    change c'.rcvNxt = pos o.isn (1 + _ + if c'.finReceived then 1 else 0)
    rw [hnxt, hfin, tr.nxt]
    exact pos_add_ofNat _ _ 1
  · change ∀ q ∈ c'.oooSegments, _
    rw [hooo]
    exact tr.placed
  · intro _
    rw [hdel, hlen.2, hfa hlen.1]
  · intro ht
    change taking c'.state = true at ht
    rcases after with ha | ha | ha <;> simp [ha, taking] at ht

theorem receive_same {c' : TcpConnection ρ} (h : RecvOk isn stream n finAt e)
    (recv : c'.recv = e.conn.recv)
    (live : c'.synchronized = true → e.conn.synchronized = true)
    (early : c'.state = .listen ∨ c'.state = .synSent → c'.state = e.conn.state)
    (taken : taking c'.state = true → taking e.conn.state = true) :
    RecvOk isn stream n finAt (e.receive c') := by
  have hrx : c'.rxBuffer = e.conn.rxBuffer := congrArg RecvView.rxBuffer recv
  refine h.keep (congrArg (e.received ++ ·) hrx) (congrArg RecvView.rcvNxt recv)
    (congrArg RecvView.oooSegments recv) (congrArg RecvView.finReceived recv) ?_ live early taken
  simp only [Endpoint.receive, Bool.or_eq_left_iff_imp]
  exact fun hl => h.live (live hl)

/-- Every arrival of a genuine segment keeps the receive side. A SYN-ACK that reaches a side
in SynSent must come from a passive peer; a listening side has an active one. -/
theorem receive {o : Opening} {fin : Bool} {c' : TcpConnection ρ} {seg : TcpSegment}
    {reply : Option TcpSegment} (h : RecvOk o.isn stream n finAt e) (hn : n < 2 ^ 31)
    (hfa : fin = true → finAt = some n)
    (hseg : Genuine o stream n fin seg.seqNum seg.flags seg.payload)
    (hlisten : e.conn.state = .listen → o.peerPassive = true)
    (hopen : e.conn.state = .synSent → seg.flags.syn = true → seg.flags.ack = true →
      o.passive = true)
    (arrival : Arrival e.conn seg c' reply) : RecvOk o.isn stream n finAt (e.receive c') := by
  obtain ⟨c₁, hp, hr⟩ := arrival
  have hsame : c'.recv = c₁.recv → c'.state = c₁.state →
      RecvOk o.isn stream n finAt (e.receive c') := by
    intro hv hs
    rw [hp.state] at hs
    exact h.receive_same (hv.trans hp.recv) (by simp [TcpConnection.synchronized, hs])
      (fun _ => hs) (by simp [hs])
  cases hr with
  | ignore same => exact hsame same.recv same.state
  | answer live same ack => exact hsame same.recv same.state
  | reset rst => simp [hseg.rst] at rst
  | passiveOpen now before syn state recv =>
    rw [hp.state] at before
    have hisn : seg.seqNum = o.isn := by
      rcases hseg.of_syn syn with hs | ⟨-, -, hpeer⟩
      · exact hs.1
      · simp [hlisten before] at hpeer
    rw [hp.recv, hisn] at recv
    exact h.receive_syn (.inl before) recv (.inl state)
  | activeOpen before syn ack acked state recv =>
    rw [hp.state] at before
    have hisn : seg.seqNum = o.isn := by
      rcases hseg.of_syn syn with hs | ⟨-, hactive, -⟩
      · exact hs.1
      · simp [hopen before syn ack] at hactive
    rw [hp.recv, hisn] at recv
    exact h.receive_syn (.inr before) recv (.inr state)
  | crossing before syn ack state recv =>
    rw [hp.state] at before
    have hisn : seg.seqNum = o.isn := by
      rcases hseg.of_syn syn with hs | ⟨hack, -, -⟩
      · exact hs.1
      · simp [ack] at hack
    rw [hp.recv, hisn] at recv
    exact h.receive_syn (.inr before) recv (.inl state)
  | handshake before ack acked state recv =>
    have hb := hp.state ▸ before
    have hsync : e.synced = true := h.live (by simp [TcpConnection.synchronized, hb])
    have hf : e.conn.finReceived = false := h.open_ (by simp [hb, taking])
    have hf₁ : c₁.finReceived = false := (congrArg RecvView.finReceived hp.recv).trans hf
    exact receive_tracked hsync (acceptPayload_tracks hn (h.tracks hp.recv hsync hf) hseg)
      ((c₁.acceptPayload_finReceived seg).trans hf₁) recv (by simp [state])
  | transfer before recv state =>
    have hb := hp.state ▸ before
    have hsync : e.synced = true :=
      h.live (by rcases hb with hb | hb | hb <;> simp [TcpConnection.synchronized, hb])
    have hf : e.conn.finReceived = false :=
      h.open_ (by rcases hb with hb | hb | hb <;> simp [hb, taking])
    have hf₁ : c₁.finReceived = false := (congrArg RecvView.finReceived hp.recv).trans hf
    have htr := acceptPayload_tracks hn (h.tracks hp.recv hsync hf) hseg
    by_cases ht : (c₁.acceptPayload seg).recv.takesFin seg = true
    · refine receive_fin hn hfa hseg hsync htr ht recv ?_
      simp only [TcpConnection.stateAfter, ht, if_true] at state
      rcases before with hb | hb | hb <;> rcases state with hs | ⟨-, hs⟩ <;> rw [hb] at hs <;>
        simp [hs, TcpState.onFin, TcpState.onFinAcked]
    · rw [RecvView.afterFin, if_neg ht] at recv
      refine receive_tracked hsync htr ((c₁.acceptPayload_finReceived seg).trans hf₁) recv ?_
      simp only [TcpConnection.stateAfter, if_neg ht] at state
      rcases before with hb | hb | hb <;> rcases state with hs | ⟨-, hs⟩ <;> rw [hb] at hs <;>
        simp [hs, TcpState.onFinAcked]
  | closeWait before ack new state recv => exact hsame recv (state.trans before.symm)
  | finAcked states ack acked recv =>
    rw [hp.state] at states
    refine h.receive_same (recv.trans hp.recv) ?_ ?_ ?_ <;>
      rcases states with ⟨hb, ha⟩ | ⟨hb, ha⟩ <;> simp [TcpConnection.synchronized, hb, ha, taking]

end RecvOk

end ToyTcpip.Network

import NetioMiddleware.NetioSystem

namespace NetioMiddleware

/-- The requests netio has put into the service queues, by the texts it sent. -/
def sentSenders (log : List Syscall) : List Sender :=
  log.filterMap fun e =>
    match e with
    | .msgsnd _ _ text => some (initCCmd {} text).sender
    | _ => none

/-- The texts netio has taken from its own queue. -/
def receivedTexts (log : List Syscall) : List Bytes :=
  log.filterMap fun e =>
    match e with
    | .msgrcv _ text => some text
    | _ => none

/-- Neither the queues nor what netio has sent and received differ. -/
structure Quiet (s s' : Reactor) : Prop where
  queues : s'.kernel.queues = s.kernel.queues
  sent : sentSenders s'.kernel.log = sentSenders s.kernel.log
  received : receivedTexts s'.kernel.log = receivedTexts s.kernel.log

/-- The first message of netio's queue is taken. -/
structure Takes (s : Reactor) (m : QMsg) (rest : List QMsg) (s' : Reactor) : Prop where
  first : s.kernel.queues NET_IO_BACK_MSQ_KEY = m :: rest
  queues : s'.kernel.queues = Function.update s.kernel.queues NET_IO_BACK_MSQ_KEY rest
  sent : sentSenders s'.kernel.log = sentSenders s.kernel.log
  received : receivedTexts s'.kernel.log = receivedTexts s.kernel.log ++ [responseText m.cmd]
  log : s.kernel.log <+: s'.kernel.log

/-- What one step of netio does to the queues: nothing, one request put into
the queue of its command, or the first message of its own queue taken. -/
inductive NetioTraffic (s : Reactor) (l : NetioLabel) (s' : Reactor) : Prop
  | quiet : Quiet s s' → NetioTraffic s l s'
  | asks {fd events out buf key} : l = .event fd events out → out.read = some buf →
      routeCmd (s.stampCmd fd buf).iCmd = some key →
      s'.kernel.queues = offer s.kernel.queues key (cmdMsg REQUEST.toInt (s.stampCmd fd buf)) true →
      sentSenders s'.kernel.log = sentSenders s.kernel.log ++ [(s.stampCmd fd buf).sender] →
      receivedTexts s'.kernel.log = receivedTexts s.kernel.log → NetioTraffic s l s'
  | takes {m rest} : Takes s m rest s' → NetioTraffic s l s'

theorem Quiet.refl (s : Reactor) : Quiet s s := ⟨rfl, rfl, rfl⟩

theorem Quiet.trans {s s1 s' : Reactor} (h : Quiet s s1) (h' : Quiet s1 s') : Quiet s s' :=
  ⟨h'.queues.trans h.queues, h'.sent.trans h.sent, h'.received.trans h.received⟩

/-- Calls that are neither msgsnd nor msgrcv. -/
theorem quiet_of_log {s s' : Reactor} (es : List Syscall) (hq : s'.kernel.queues = s.kernel.queues)
    (hlog : s'.kernel.log = s.kernel.log ++ es)
    (hes : sentSenders es = [] ∧ receivedTexts es = []) : Quiet s s' := by
  obtain ⟨h1, h2⟩ := hes
  refine ⟨hq, ?_, ?_⟩
  · unfold sentSenders at h1 ⊢
    rw [hlog, List.filterMap_append, h1, List.append_nil]
  · unfold receivedTexts at h2 ⊢
    rw [hlog, List.filterMap_append, h2, List.append_nil]

theorem quiet_closed (s : Reactor) (fd : Int32) : Quiet s (s.closed fd) :=
  quiet_of_log [.close (s.kernel.owner fd)] rfl rfl ⟨rfl, rfl⟩

theorem quiet_dropped (s : Reactor) (fd : Int32) : Quiet s (s.dropped fd) :=
  quiet_of_log _ rfl (dropped_log s fd) ⟨rfl, rfl⟩

theorem quiet_accepted (s : Reactor) (fd : Int32) (addr : SockAddrIn) : Quiet s (s.accepted fd addr) :=
  quiet_of_log _ (accepted_rest s fd addr).2.2 (accepted_frame s fd addr).2.2.1 ⟨rfl, rfl⟩

theorem quiet_doConn {s s' : Reactor} (hw : Wired s) {fd : Int32} {l : List AcceptOutcome}
    (h : s.doConn fd l = .ok s') : Quiet s s' := by
  refine (doConn_preserves (P := fun r => Wired r ∧ Quiet s r) (fun _ _ hr => hr.1.unregistered) ?_ ?_
    ⟨hw, .refl s⟩ h).2
  · exact fun r x hr _ => ⟨wired_dropped hr.1, hr.2.trans (quiet_dropped r x)⟩
  · exact fun r x addr hr _ _ => ⟨wired_accepted hr.1, hr.2.trans (quiet_accepted r x addr)⟩

theorem quiet_lost (s : Reactor) (fd : Int32) : Quiet s (s.lost fd) := by
  refine quiet_of_log [.incr (bytes "netio_0") 1, .read (s.kernel.owner fd), .close (s.kernel.owner fd)]
    rfl ?_ ⟨rfl, rfl⟩
  simp [Reactor.lost, Reactor.recvKernel, Kernel.record, Kernel.close]

theorem quiet_answered (s : Reactor) (fd : Int32) : Quiet s (s.answered fd) := by
  have hwritten : Quiet s (s.written fd) :=
    quiet_of_log [.write (s.kernel.owner fd) (s.m_arrMsg fd).text] rfl rfl ⟨rfl, rfl⟩
  exact hwritten.trans (quiet_closed (s.written fd) fd)

theorem putMsg_refused (q : List QMsg) (m : MsgBuf) (n : Nat) : (putMsg q m n false).1 ≠ 0 := by
  unfold putMsg
  split
  next => exact show MSG_TOO_LONG ≠ 0 by decide
  next =>
    rw [if_neg (by simp)]
    exact show SEND_MSG_FAILED ≠ 0 by decide

/-- What DoRecv sends, if msgsnd finds room. -/
theorem asked_traffic (s : Reactor) (fd key : Int32) (buf : Bytes) (sent : Bool) :
    sentSenders (s.asked fd key buf sent).kernel.log = sentSenders s.kernel.log ++
        (if sent then [(cmdMsg REQUEST.toInt (s.stampCmd fd buf)).cmd.sender] else []) ∧
      receivedTexts (s.asked fd key buf sent).kernel.log = receivedTexts s.kernel.log := by
  generalize hcmd : s.stampCmd fd buf = oCmd
  have hm : (0 : Int) < (MsgBuf.reset.withType REQUEST.toInt).lType := by decide
  simp only [Reactor.asked, Reactor.setFlag, Reactor.setItem, hcmd, Kernel.msgsnd]
  cases sent with
  | true =>
    rw [putMsg_printCmd hm, if_pos rfl, printCmd_text]
    simp [sentSenders, receivedTexts, Reactor.recvKernel, Kernel.record, ← QMsg.cmd_eq, cmdMsg]
  | false =>
    rw [if_neg (putMsg_refused _ _ _)]
    simp [sentSenders, receivedTexts, Reactor.recvKernel, Kernel.record]

theorem response_nothing {s : Reactor} {origin : Option Nat}
    (hq : s.kernel.queues NET_IO_BACK_MSQ_KEY = []) : s.onEventFire false origin = .ok s := by
  have hnone : ∀ x ∈ ([] : List QMsg), x.mtype ≠ RESPONSE.toInt := by simp
  have hsame : Function.update s.kernel.queues NET_IO_BACK_MSQ_KEY [] = s.kernel.queues := by
    rw [← hq, Function.update_eq_self]
  have htake : takeResponse s.kernel false = (0, 0, MsgBuf.reset.withType RESPONSE.toInt, s.kernel) := by
    simp only [takeResponse, Bool.false_eq_true, if_false, hq, getMsg_none hnone, hsame]
    rfl
  rw [Reactor.onEventFire, htake]
  rfl

theorem response_idle {s s' : Reactor} {origin : Option Nat}
    (hq : s.kernel.queues NET_IO_BACK_MSQ_KEY = []) (h : s.onEventFire false origin = .ok s') : s' = s :=
  Except.ok.inj (h.symm.trans (response_nothing hq))

/-- What OnEventFire makes of the first message, when it is an answer. -/
theorem onEventFire_first {s : Reactor} {origin : Option Nat} {m : QMsg} {rest : List QMsg}
    (hq : s.kernel.queues NET_IO_BACK_MSQ_KEY = m :: rest) (hm : m.mtype = RESPONSE.toInt)
    (hne : m.mtext ≠ []) :
    ∃ stMsg : MsgBuf, stMsg.text = responseText m.cmd ∧ s.onEventFire false origin =
      if inArray MAX_MSG_SIZE m.cmd.iFd = false then .error .msgIndex
      else match (s.received (Function.update s.kernel.queues NET_IO_BACK_MSQ_KEY rest) m.cmd.iFd stMsg
          false origin).addToWatchList m.cmd.iFd .TCP_SERVER_SEND (.item (responseSock m.cmd)) true with
        | .error e => .error e
        | .ok (_, s) => .ok s := by
  have hbefore : ∀ x ∈ ([] : List QMsg), x.mtype ≠ RESPONSE.toInt := by simp
  obtain ⟨stMsg, hget, hdec⟩ := getMsg_first (b := rest) hbefore hm
  rw [List.nil_append] at hget
  have htake : takeResponse s.kernel false = (0, m.mtext.length, stMsg,
      s.kernel.setQueues (Function.update s.kernel.queues NET_IO_BACK_MSQ_KEY rest)) := by
    simp only [takeResponse, Bool.false_eq_true, if_false, hq, hget]
    rfl
  have hlen : m.mtext.length ≠ 0 := fun h0 => hne (List.eq_nil_of_length_eq_zero h0)
  refine ⟨stMsg.print (cStr m.cmd.sData), print_text (cStr_no_nul _), ?_⟩
  rw [Reactor.onEventFire, htake]
  dsimp only
  rw [if_neg (fun hc => hlen hc.2), hdec, QMsg.cmd_eq, if_pos rfl]
  rfl

theorem response_takes {s s' : Reactor} {origin : Option Nat} {m : QMsg} {rest : List QMsg}
    (hq : s.kernel.queues NET_IO_BACK_MSQ_KEY = m :: rest) (hm : m.mtype = RESPONSE.toInt)
    (hne : m.mtext ≠ []) (h : s.onEventFire false origin = .ok s') : Takes s m rest s' := by
  obtain ⟨stMsg, htext, hfire⟩ := onEventFire_first hq hm hne
  rw [hfire] at h
  split at h
  next => cases h
  next =>
    split at h
    next => cases h
    next r s1 hadd =>
      cases Except.ok.inj h
      have hk := (addToWatchList_frame hadd).1
      refine ⟨hq, ?_, ?_, ?_, ?_⟩
      · rw [hk]
        rfl
      · rw [hk]
        simp [Reactor.received, sentSenders, Kernel.record, Kernel.setQueues]
      · rw [hk]
        simp [Reactor.received, receivedTexts, Kernel.record, Kernel.setQueues, htext]
      · rw [hk]
        exact List.prefix_append _ _

/-- OnEventFire takes the first message of a queue that holds only answers. -/
theorem response_traffic {s s' : Reactor} {rcvFailed : Bool} {origin : Option Nat}
    (hback : ∀ x ∈ s.kernel.queues NET_IO_BACK_MSQ_KEY, x.mtype = RESPONSE.toInt ∧ x.mtext ≠ [])
    (h : s.onEventFire rcvFailed origin = .ok s') :
    NetioTraffic s (.response rcvFailed origin) s' := by
  cases rcvFailed with
  | true =>
    have htake : takeResponse s.kernel true =
        (RECV_MSG_FAILED, 0, MsgBuf.reset.withType RESPONSE.toInt, s.kernel) := rfl
    have hfailed : RECV_MSG_FAILED ≠ 0 := by decide
    rw [Reactor.onEventFire, htake] at h
    dsimp only at h
    rw [if_neg (fun hc => hfailed hc.1), if_neg hfailed] at h
    split at h
    next => cases h
    next =>
      split at h
      next => cases h
      next r s1 hadd =>
        cases Except.ok.inj h
        have hk := (addToWatchList_frame hadd).1
        exact .quiet ⟨by rw [hk], by rw [hk], by rw [hk]⟩
  | false =>
    cases hq : s.kernel.queues NET_IO_BACK_MSQ_KEY with
    | nil =>
      rw [response_idle hq h]
      exact .quiet (.refl s)
    | cons m rest =>
      obtain ⟨hm, hne⟩ := hback m (by simp [hq])
      exact .takes (response_takes hq hm hne h)

theorem stampCmd_sender (s : Reactor) (fd : Int32) (buf : Bytes) :
    (cmdMsg REQUEST.toInt (s.stampCmd fd buf)).cmd.sender = (s.stampCmd fd buf).sender := by
  obtain ⟨_, _, hindex, _, hcmd, hfd, hfamily, hcliIp, hport⟩ :=
    Header.mk.inj (cmdMsg_header REQUEST.toInt (c := s.stampCmd fd buf) (inetNtoa_plain _))
  simp only [CCmd.sender, hindex, hcmd, hfd, hfamily, hcliIp, hport]

theorem netio_traffic {s s' : Reactor} {l : NetioLabel} (hw : Wired s)
    (hl : ∀ queues, l ≠ .others queues)
    (hback : ∀ x ∈ s.kernel.queues NET_IO_BACK_MSQ_KEY, x.mtype = RESPONSE.toInt ∧ x.mtext ≠ [])
    (h : netio.step s l s') : NetioTraffic s l s' := by
  cases l with
  | others queues => exact absurd rfl (hl queues)
  | response rcvFailed origin => exact response_traffic hback h.2
  | event fd events out =>
    cases netio_step_case hw h with
    | accepts hconn => exact .quiet (quiet_doConn hw hconn)
    | idle => exact .quiet (.refl s)
    | look => exact .quiet (quiet_of_log [.read (s.kernel.owner fd)] rfl rfl ⟨rfl, rfl⟩)
    | hangup => exact .quiet (quiet_closed s fd)
    | lost => exact .quiet (quiet_lost s fd)
    | @recv _ _ _ buf key _ _ _ hread _ hkey =>
      obtain ⟨hsent, hreceived⟩ := asked_traffic s fd key buf out.sent
      have hqueues := asked_queues s fd key buf out.sent
      cases hs : out.sent with
      | true =>
        rw [hs, if_pos rfl, stampCmd_sender] at hsent
        rw [hs] at hqueues hreceived
        exact .asks rfl hread hkey hqueues hsent hreceived
      | false =>
        rw [hs, if_neg (by decide), List.append_nil] at hsent
        rw [hs, offer, if_neg (by simp)] at hqueues
        rw [hs] at hreceived
        exact .quiet ⟨hqueues, hsent, hreceived⟩
    | send => exact .quiet (quiet_answered s fd)

end NetioMiddleware

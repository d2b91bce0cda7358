import NetioMiddleware.Channels
import NetioMiddleware.ReplyRouting
import NetioMiddleware.Rounds

namespace NetioMiddleware

/-- Whether OnEventFire comes to RespNotify, as it does after every reply to netio. -/
def Container.notifies (c : Container) (queues : Int32 → List QMsg) (sent : Bool) : Bool :=
  let process (queue : List QMsg) (oCmd : CCmd) : Bool :=
    let w : World := ⟨c.frames, Function.update queues c.svc.mqKey queue, c.stats⟩
    match dispatch (services sent) c.dispatcher w oCmd with
    | .error _ => false
    | .ok (iRet, oCmd, _, _) =>
      decide (iRet ≠ UNFINISH_TASK_RET_FLAG ∧ (replyCmd iRet oCmd).iSvcSerialNo = 0)
  let got := getMsg (queues c.svc.mqKey) (MsgBuf.reset.withType REQUEST.toInt)
  if got.1 = 0 then
    let app := getMsg got.2.2 (got.2.1.withType (appType c.pid))
    if app.1 = 0 then false else process app.2.2 (initCCmd {} app.2.1.sBuf)
  else process got.2.2 (initCCmd {} got.2.1.sBuf)

/-- The length of netio's queue. -/
def backLength (queues : Int32 → List QMsg) : Nat := (queues NET_IO_BACK_MSQ_KEY).length

section

variable {svc : IService} {cur cur' : CCmd} {w w' : World}

theorem switchTo_back (h : (services true).switchTo svc cur w = .ok (cur', w')) :
    backLength w'.queues = backLength w.queues := by
  have hsend : ∀ (u : World) (m : MsgBuf), backLength (u.put 0xccccd m true).queues = backLength u.queues := by
    intro u m
    dsimp only [backLength, World.put]
    rw [Function.update_of_ne (show NET_IO_BACK_MSQ_KEY ≠ 0xccccd by decide)]
  cases hframe : w.frames svc.m_iIndex with
  | finished =>
    rw [switchTo_finished true cur hframe] at h
    cases h
  | suspended obj3 =>
    rw [switchTo_suspended true cur hframe] at h
    cases Except.ok.inj h
    rfl
  | start =>
    cases hsvc : svc.svc with
    | CSvcTest =>
      rw [switchTo_svcTest true cur hframe hsvc] at h
      cases Except.ok.inj h
      rfl
    | CSvcTest2 =>
      rw [switchTo_svcTest2 true cur hframe hsvc] at h
      cases Except.ok.inj h
      exact hsend _ _

theorem resumeLoop_back {l : List (Int32 × IService)} {found found' : Option IService}
    (h : resumeLoop (services true) l found cur w = .ok (found', cur', w')) :
    backLength w'.queues = backLength w.queues := by
  induction l generalizing found cur w with
  | nil =>
    cases Except.ok.inj h
    rfl
  | cons e l ih =>
    unfold resumeLoop at h
    split at h
    next =>
      split at h
      next => cases h
      next cur1 w1 hswitch => exact (ih h).trans (switchTo_back hswitch)
    next => exact ih h

theorem dispatch_back {d d' : Dispatcher} {oCmd : CCmd} {iRet : Int32}
    (h : dispatch (services true) d w oCmd = .ok (iRet, cur', d', w')) :
    backLength w'.queues = backLength w.queues := by
  have finished : ∀ {d1 svc w1}, .ok (finishDispatch (services true) d1 svc w1) =
      (.ok (iRet, cur', d', w') : Except Halt _) → backLength w'.queues = backLength w1.queues := by
    intro d1 svc w1 hfinish
    unfold finishDispatch at hfinish
    split at hfinish
    next =>
      cases Except.ok.inj hfinish
      rfl
    next =>
      cases Except.ok.inj hfinish
      rfl
  unfold dispatch at h
  split at h
  next =>
    split at h
    next => cases h
    next => cases h
    next hloop => exact (finished h).trans (resumeLoop_back hloop)
  next =>
    split at h
    next =>
      cases Except.ok.inj h
      rfl
    next =>
      split at h
      next => cases h
      next hswitch => exact (finished h).trans (switchTo_back hswitch)

/-- A reply to netio lengthens its queue by one, any other leaves it as it is. -/
theorem replied_back {pid : Nat} {oCmd : CCmd} (h : reply pid oCmd w true = .ok w') :
    backLength w'.queues = backLength w.queues + if oCmd.iSvcSerialNo = 0 then 1 else 0 := by
  unfold reply at h
  split at h
  next hserial =>
    split at h
    next => cases h
    next key hkey =>
      cases Except.ok.inj h
      dsimp only [backLength, World.put]
      rw [if_neg hserial, Function.update_of_ne (route_ne_back hkey).symm, Nat.add_zero]
  next hserial =>
    cases Except.ok.inj h
    have hm : (0 : Int) < (cmdMsg RESPONSE.toInt { oCmd with
        iType := RESPONSE, sData := oCmd.sData ++ bytes " by pid:" ++ printNat pid }).mtype :=
      show (0 : Int) < RESPONSE.toInt by decide
    rw [if_pos (not_not.mp hserial), backLength, put_queues, offer_length, if_pos ⟨hm, rfl⟩, backLength]

theorem processMsg_back {pid : Nat} {d d' : Dispatcher} {oCmd : CCmd}
    (h : processMsg pid d w oCmd true = .ok (d', w')) :
    ∃ iRet cur d1 w1, dispatch (services true) d w oCmd = .ok (iRet, cur, d1, w1) ∧
      backLength w'.queues = backLength w.queues +
        if iRet ≠ UNFINISH_TASK_RET_FLAG ∧ (replyCmd iRet cur).iSvcSerialNo = 0 then 1 else 0 := by
  unfold processMsg at h
  split at h
  next => cases h
  next iRet cur d1 w1 hd =>
    refine ⟨iRet, cur, d1, w1, hd, ?_⟩
    rw [← dispatch_back hd]
    split at h
    next hunfinished =>
      cases Except.ok.inj h
      rw [if_neg (fun hc => hc.1 hunfinished), Nat.add_zero]
    next hfinished =>
      split at h
      next => cases h
      next w2 hreply =>
        cases Except.ok.inj h
        rw [replied_back hreply]
        simp only [ne_eq, hfinished, not_false_eq_true, true_and]

end

/-- A process calls RespNotify exactly when it has put a reply into netio's queue. -/
theorem notifies_iff_reply {c c' : Container} {queues queues' : Int32 → List QMsg}
    (h : c.onEventFire queues true = .ok (c', queues')) :
    backLength queues' = backLength queues + if c.notifies queues true = true then 1 else 0 := by
  have hback : ∀ q, backLength (Function.update queues c.svc.mqKey q) = backLength queues := by
    intro q
    rw [backLength, Function.update_of_ne (mqKey_ne_back c.svc).symm, backLength]
  have processed : ∀ {q oCmd d w}, processMsg c.pid c.dispatcher
        ⟨c.frames, Function.update queues c.svc.mqKey q, c.stats⟩ oCmd true = .ok (d, w) →
      ∃ iRet cur d1 w1, dispatch (services true) c.dispatcher
          ⟨c.frames, Function.update queues c.svc.mqKey q, c.stats⟩ oCmd = .ok (iRet, cur, d1, w1) ∧
        backLength w.queues = backLength queues +
          if iRet ≠ UNFINISH_TASK_RET_FLAG ∧ (replyCmd iRet cur).iSvcSerialNo = 0 then 1 else 0 := by
    intro q oCmd d w hp
    obtain ⟨iRet, cur, d1, w1, hd, hlen⟩ := processMsg_back hp
    exact ⟨iRet, cur, d1, w1, hd, hlen.trans (by rw [hback])⟩
  unfold Container.onEventFire at h
  unfold Container.notifies
  dsimp only at h ⊢
  split at h
  next hnone =>
    rw [if_pos hnone]
    split at h
    next hidle =>
      cases Except.ok.inj h
      rw [if_pos hidle, hback]
      rfl
    next hgot =>
      rw [if_neg hgot]
      split at h
      next => cases h
      next d w hp =>
        cases Except.ok.inj h
        obtain ⟨iRet, cur, d1, w1, hd, hlen⟩ := processed hp
        rw [hd, hlen]
        simp only [decide_eq_true_eq]
  next hgot =>
    rw [if_neg hgot]
    split at h
    next => cases h
    next d w hp =>
      cases Except.ok.inj h
      obtain ⟨iRet, cur, d1, w1, hd, hlen⟩ := processed hp
      rw [hd, hlen]
      simp only [decide_eq_true_eq]

/-- The system with the datagrams of RespNotify: those unread in netio's unix
socket, whether epoll has an event for it to report and whether it has reported
one that is not handled yet, the processes inside sendto, and how many sockets
RespNotify has open in each process. -/
structure WakeSystem where
  system : NetioSystem
  datagrams : Nat
  ready : Bool
  reported : Bool
  notifying : List Nat
  fds : Nat → Nat

inductive WakeLabel
  | process (i : Nat) (sent : Bool)
  | sendto (i : Nat) (failed : Bool)
  | epollWait
  | netio (l : NetioLabel)

/-- An event of the unix socket. -/
def NetioLabel.atUSock (s : Reactor) : NetioLabel → Prop
  | .event fd _ _ => fd = s.m_iUSockFd
  | _ => False

instance (s : Reactor) : (l : NetioLabel) → Decidable (l.atUSock s)
  | .event fd _ _ => inferInstanceAs (Decidable (fd = s.m_iUSockFd))
  | .response _ _ => isFalse id
  | .others _ => isFalse id

def usockReads (log : List Syscall) : Nat := log.count (.read (some .usock))

namespace WakeSystem

/-- RespNotify up to sendto, which needs a socket. -/
def respNotify (limit : Nat) (s : WakeSystem) (i : Nat) : WakeSystem :=
  if s.fds i < limit then
    { s with notifying := i :: s.notifying, fds := Function.update s.fds i (s.fds i + 1) }
  else s

/-- The socket blocks while the queue of cap datagrams is full, and epoll is
edge-triggered: it reports the unix socket once for what has arrived since. -/
def enabled (cap : Nat) (s : WakeSystem) : WakeLabel → Prop
  | .process i _ => i ∉ s.notifying
  | .sendto i failed => i ∈ s.notifying ∧ (failed = false → s.datagrams < cap)
  | .epollWait => s.system.netio.kernel.epoll s.system.netio.m_iUSockFd ≠ none ∧ s.reported = false
  | .netio l => s.system.enabled (.netio l) ∧ (l.atUSock s.system.netio → s.reported = true)

/-- A failed sendto returns without closing the socket. Each recvfrom of netio
takes a datagram. -/
def step (limit : Nat) (s : WakeSystem) : WakeLabel → Except Halt WakeSystem
  | .process i sent =>
    match systemStep s.system (.process i sent) with
    | .error e => .error e
    | .ok system =>
      if (s.system.procs[i]?).any (fun c => c.notifies s.system.netio.kernel.queues sent) = true then
        .ok (respNotify limit { s with system := system } i)
      else .ok { s with system := system }
  | .sendto i true => .ok { s with notifying := s.notifying.erase i }
  | .sendto i false =>
    .ok { s with
      datagrams := s.datagrams + 1
      ready := true
      notifying := s.notifying.erase i
      fds := Function.update s.fds i (s.fds i - 1) }
  | .epollWait => .ok { s with ready := false, reported := s.ready }
  | .netio l =>
    match systemStep s.system (.netio l) with
    | .error e => .error e
    | .ok system =>
      .ok { s with
        system := system
        datagrams := s.datagrams -
          (usockReads system.netio.kernel.log - usockReads s.system.netio.kernel.log)
        reported := s.reported && !decide (l.atUSock s.system.netio) }

def isEnabled (cap : Nat) (s : WakeSystem) : WakeLabel → Bool
  | .process i _ => decide (i ∉ s.notifying)
  | .sendto i failed => decide (i ∈ s.notifying ∧ (failed = false → s.datagrams < cap))
  | .epollWait =>
    decide (s.system.netio.kernel.epoll s.system.netio.m_iUSockFd ≠ none ∧ s.reported = false)
  | .netio l => s.system.isEnabled (.netio l) && decide (l.atUSock s.system.netio → s.reported = true)

structure Start (s : WakeSystem) : Prop where
  system : SystemStart s.system
  datagrams : s.datagrams = 0
  ready : s.ready = false
  reported : s.reported = false
  notifying : s.notifying = []
  fds : s.fds = fun _ => 0

def Spares (s : WakeSystem) : WakeLabel → Prop
  | .netio l => l.Spares s.system.netio
  | _ => True

instance (s : WakeSystem) : (l : WakeLabel) → Decidable (s.Spares l)
  | .netio l => inferInstanceAs (Decidable (l.Spares s.system.netio))
  | .process _ _ => isTrue trivial
  | .sendto _ _ => isTrue trivial
  | .epollWait => isTrue trivial

end WakeSystem

def wakeSystem (cap limit : Nat) : Machine WakeSystem WakeLabel where
  init := WakeSystem.Start
  step s l s' := s.enabled cap l ∧ s.step limit l = .ok s'

section

variable {cap limit : Nat} {s s' : WakeSystem}

/-- What a step with datagrams can do. -/
inductive WakeCase (cap limit : Nat) (s : WakeSystem) : WakeLabel → WakeSystem → Prop
  | process {i sent system} : i ∉ s.notifying → netioSystem.step s.system (.process i sent) system →
      WakeCase cap limit s (.process i sent) { s with system := system }
  | notify {i sent system} : i ∉ s.notifying → netioSystem.step s.system (.process i sent) system →
      s.fds i < limit →
      WakeCase cap limit s (.process i sent)
        { s with
          system := system
          notifying := i :: s.notifying
          fds := Function.update s.fds i (s.fds i + 1) }
  | failed {i} : i ∈ s.notifying →
      WakeCase cap limit s (.sendto i true) { s with notifying := s.notifying.erase i }
  | delivered {i} : i ∈ s.notifying → s.datagrams < cap →
      WakeCase cap limit s (.sendto i false)
        { s with
          datagrams := s.datagrams + 1
          ready := true
          notifying := s.notifying.erase i
          fds := Function.update s.fds i (s.fds i - 1) }
  | epollWait : s.reported = false →
      WakeCase cap limit s .epollWait { s with ready := false, reported := s.ready }
  | netio {l system} : netioSystem.step s.system (.netio l) system →
      (l.atUSock s.system.netio → s.reported = true) →
      WakeCase cap limit s (.netio l)
        { s with
          system := system
          datagrams := s.datagrams -
            (usockReads system.netio.kernel.log - usockReads s.system.netio.kernel.log)
          reported := s.reported && !decide (l.atUSock s.system.netio) }

theorem wake_step_case {l : WakeLabel} (h : (wakeSystem cap limit).step s l s') :
    WakeCase cap limit s l s' := by
  obtain ⟨hen, h⟩ := h
  cases l with
  | process i sent =>
    dsimp only [WakeSystem.step] at h
    split at h
    next => cases h
    next system hsystem =>
      have hstep : netioSystem.step s.system (.process i sent) system := ⟨trivial, hsystem⟩
      split at h
      next =>
        cases Except.ok.inj h
        rw [WakeSystem.respNotify]
        split
        next hfds => exact .notify hen hstep hfds
        next => exact .process hen hstep
      next =>
        cases Except.ok.inj h
        exact .process hen hstep
  | sendto i failed =>
    cases failed with
    | true =>
      cases Except.ok.inj h
      exact .failed hen.1
    | false =>
      cases Except.ok.inj h
      exact .delivered hen.1 (hen.2 rfl)
  | epollWait =>
    cases Except.ok.inj h
    exact .epollWait hen.2
  | netio l =>
    dsimp only [WakeSystem.step] at h
    split at h
    next => cases h
    next system hsystem =>
      cases Except.ok.inj h
      exact .netio ⟨hen.1, hsystem⟩ hen.2

/-- The datagrams change nothing about the runs of the system. -/
theorem wake_system (h : (wakeSystem cap limit).Reach WakeSystem.Spares s) :
    netioSystem.Reach NetioSystem.Spares s.system := by
  induction h with
  | init hs => exact .init hs.system
  | @step s s' l _ hok hstep ih =>
    cases wake_step_case hstep with
    | @process i sent _ _ hsystem => exact ih.step (l := .process i sent) trivial hsystem
    | @notify i sent _ _ hsystem => exact ih.step (l := .process i sent) trivial hsystem
    | failed => exact ih
    | delivered => exact ih
    | epollWait => exact ih
    | @netio l _ hsystem => exact ih.step (l := .netio l) hok hsystem

end

section

variable {s s' : Reactor}

theorem usockReads_append {log es : List Syscall} (hes : .read (some .usock) ∉ es) :
    usockReads (log ++ es) = usockReads log := by
  rw [usockReads, List.count_append, List.count_eq_zero.mpr hes, Nat.add_zero, usockReads]

theorem usock_live (hc : Channels s) {events : UInt32} (out : Outcomes)
    (hlive : events &&& EPOLLRDHUP ≠ EPOLLRDHUP) :
    s.processItem s.m_iUSockFd events out = .ok { s with kernel := s.kernel.record (.read (some .usock)) } := by
  have hentry := hc.entry s.m_iUSockFd (Or.inr rfl)
  have hne : s.m_iUSockFd ≠ s.m_iSvrFd := by
    intro heq
    have hflag := hc.waking.flagged
    rw [heq, hc.listening.flagged] at hflag
    cases hflag
  unfold Reactor.processItem
  dsimp only
  rw [if_neg hlive, hentry, if_neg hne, hc.waking.flagged, if_neg (by decide), if_pos rfl]
  simp only [Reactor.usockHandleEvent, hc.waking.isOpen]

/-- An event of the unix socket takes one datagram. -/
theorem usock_event (hc : Channels s) {events : UInt32} {out : Outcomes}
    (hlive : events &&& EPOLLRDHUP ≠ EPOLLRDHUP)
    (h : s.processItem s.m_iUSockFd events out = .ok s') :
    usockReads s'.kernel.log = usockReads s.kernel.log + 1 := by
  rw [usock_live hc out hlive] at h
  cases Except.ok.inj h
  simp only [Kernel.record, usockReads, List.count_append, List.count_singleton_self]

/-- Nothing else does. -/
theorem usock_unread (hw : Wired s) (hg : Guarded s) {l : NetioLabel} (hl : ¬l.atUSock s)
    (h : StepCase s l s') : usockReads s'.kernel.log = usockReads s.kernel.log := by
  have hconn : ∀ {fd}, s.kernel.epoll fd ≠ none → ((s.m_arrTcpSock fd).enEventFlag = .TCP_SERVER_READ ∨
      (s.m_arrTcpSock fd).enEventFlag = .TCP_SERVER_SEND) → s.kernel.owner fd ≠ some .usock := by
    intro fd hreg hflag
    obtain ⟨c, hc⟩ := hg.connection hw hreg (hg.channels.ne_flagged hflag)
    rw [hc]
    simp
  cases h with
  | accepts hdo =>
    refine (doConn_preserves (P := fun r => Wired r ∧ usockReads r.kernel.log = usockReads s.kernel.log)
      (fun _ _ hr => hr.1.unregistered) ?_ ?_ ⟨hw, rfl⟩ hdo).2
    · intro r x hr _
      refine ⟨wired_dropped hr.1, ?_⟩
      rw [dropped_log, usockReads_append (by simp)]
      exact hr.2
    · intro r x addr hr _ _
      refine ⟨wired_accepted hr.1, ?_⟩
      rw [(accepted_frame r x addr).2.2.1, usockReads_append (by simp)]
      exact hr.2
  | idle => rfl
  | @look fd _ _ hreg hflag =>
    have hne : ¬s.isChannel fd := by
      rintro (rfl | rfl)
      · rw [hg.channels.listening.flagged] at hflag
        cases hflag
      · exact hl rfl
    obtain ⟨c, hc⟩ := hg.connection hw hreg hne
    exact usockReads_append (by simp [hc])
  | hangup => exact usockReads_append (by simp)
  | @lost fd _ _ hreg _ hflag =>
    have hlog : (s.lost fd).kernel.log = s.kernel.log ++
        [.incr (bytes "netio_0") 1, .read (s.kernel.owner fd), .close (s.kernel.owner fd)] := by
      simp [Reactor.lost, Reactor.recvKernel, Kernel.record, Kernel.close]
    rw [hlog]
    exact usockReads_append (by simp [Ne.symm (hconn hreg (Or.inl hflag))])
  | @recv fd _ out buf key hreg _ hflag =>
    obtain ⟨es, hlog, hes⟩ := asked_log s fd key buf out.sent
    have hnot : Syscall.read (some .usock) ∉ es := by rcases hes with rfl | ⟨_, rfl⟩ <;> simp
    rw [hlog]
    exact usockReads_append (by simp [hnot, Ne.symm (hconn hreg (Or.inl hflag))])
  | @send fd =>
    have hlog : (s.answered fd).kernel.log = s.kernel.log ++
        [.write (s.kernel.owner fd) (s.m_arrMsg fd).text, .close (s.kernel.owner fd)] := by
      simp [Reactor.answered, Reactor.written, Reactor.closed, Kernel.record, Kernel.close,
        Reactor.setItem]
    rw [hlog]
    exact usockReads_append (by simp)
  | nothing => rfl
  | @respond rcvFailed origin _ oCmd m _ _ _ _ _ _ hadd =>
    have hlog := congrArg Kernel.log (addToWatchList_frame hadd).1
    cases rcvFailed with
    | true => exact congrArg usockReads hlog
    | false => exact (congrArg usockReads hlog).trans (usockReads_append (by simp))
  | others => rfl

end

theorem usockFd_same {s s' : Reactor} {l : NetioLabel} (hw : Wired s) (h : StepCase s l s') :
    s'.m_iUSockFd = s.m_iUSockFd := by
  cases h with
  | accepts hdo =>
    refine (doConn_preserves (P := fun r => Wired r ∧ r.m_iUSockFd = s.m_iUSockFd)
      (fun _ _ hr => hr.1.unregistered) (fun _ _ hr _ => ⟨wired_dropped hr.1, hr.2⟩) ?_ ⟨hw, rfl⟩ hdo).2
    exact fun r x addr hr _ _ => ⟨wired_accepted hr.1, (accepted_rest r x addr).2.1.trans hr.2⟩
  | respond _ _ _ _ hadd => exact (addToWatchList_frame hadd).2.2.2.1
  | _ => rfl

section

variable {cap limit : Nat} {s s' : WakeSystem}

theorem wake_netio (h : netioSystem.Reach NetioSystem.Spares s.system) {l : NetioLabel}
    (hok : l.Spares s.system.netio) {system : NetioSystem}
    (hstep : netioSystem.step s.system (.netio l) system) :
    usockReads system.netio.kernel.log - usockReads s.system.netio.kernel.log =
      if l.atUSock s.system.netio then 1 else 0 := by
  have hw := wired_reach (system_netio h)
  have hg := (systemGuarded_reach h).net
  have hnet := (system_netio_step hstep).1
  by_cases hl : l.atUSock s.system.netio
  · rw [if_pos hl]
    cases l with
    | event fd events out =>
      obtain rfl : fd = s.system.netio.m_iUSockFd := hl
      rw [usock_event hg.channels (fun hup => hok hup (Or.inr rfl)) hnet.2]
      omega
    | response => exact hl.elim
    | others => exact hl.elim
  · rw [if_neg hl, usock_unread hw hg hl (netio_step_case hw hnet), Nat.sub_self]

/-- The queue of the socket is never full without an event for netio to come. -/
structure WakeSystem.Open (cap : Nat) (s : WakeSystem) : Prop where
  room : s.datagrams ≤ cap
  owed : s.ready.toNat + s.reported.toNat ≤ s.datagrams
  full : s.datagrams = cap → s.ready = true ∨ s.reported = true

theorem wake_open (hcap : 0 < cap) (h : (wakeSystem cap limit).Reach WakeSystem.Spares s) :
    s.Open cap := by
  induction h with
  | init hs =>
    refine ⟨by rw [hs.datagrams]; exact Nat.zero_le _, by rw [hs.ready, hs.reported]; exact Nat.zero_le _, ?_⟩
    intro hfull
    rw [hs.datagrams] at hfull
    omega
  | @step s s' l hreach hok hstep ih =>
    obtain ⟨hroom, howed, hfull⟩ := ih
    cases wake_step_case hstep with
    | process => exact ⟨hroom, howed, hfull⟩
    | notify => exact ⟨hroom, howed, hfull⟩
    | failed => exact ⟨hroom, howed, hfull⟩
    | delivered _ hless =>
      have hready := s.ready.toNat_le
      refine ⟨hless, ?_, fun _ => Or.inl rfl⟩
      dsimp only [Bool.toNat_true]
      cases hr : s.ready with
      | true =>
        rw [hr, Bool.toNat_true] at howed
        omega
      | false =>
        rw [hr, Bool.toNat_false] at howed
        omega
    | epollWait hreported =>
      rw [hreported, Bool.toNat_false] at howed
      refine ⟨hroom, ?_, fun hd => Or.inr ((hfull hd).resolve_right (by simp [hreported]))⟩
      simpa using howed
    | @netio l system hsystem hwait =>
      rw [wake_netio (wake_system hreach) hok hsystem]
      by_cases hl : l.atUSock s.system.netio
      · have hreported := hwait hl
        rw [hreported, Bool.toNat_true] at howed
        simp only [hl, if_true, decide_true, Bool.not_true, Bool.and_false]
        have hless : s.datagrams - 1 + 1 = s.datagrams := by omega
        refine ⟨show s.datagrams - 1 ≤ cap by omega, ?_, ?_⟩
        · show s.ready.toNat + 0 ≤ s.datagrams - 1
          omega
        · intro hd
          have hd : s.datagrams - 1 = cap := hd
          omega
      · simp only [hl, if_false, decide_false, Bool.not_false, Bool.and_true]
        exact ⟨hroom, howed, hfull⟩

namespace WakeLabel

/-- A step that brings wake-ups forward, where usock is the unix socket: one is
sent, reported or taken. -/
def passes (usock : Int32) : WakeLabel → Bool
  | .sendto _ failed => !failed
  | .epollWait => true
  | .netio (.event fd _ _) => decide (fd = usock)
  | _ => false

end WakeLabel

/-- How many wake-ups begin in a run: how often a process comes to sendto. -/
def WakeSystem.begun (limit : Nat) : WakeSystem → List WakeLabel → Nat
  | _, [] => 0
  | s, l :: ls =>
    match s.step limit l with
    | .error _ => 0
    | .ok s' => (s'.notifying.length - s.notifying.length) + begun limit s' ls

/-- A call of epoll_wait that finds nothing is left out. -/
def WakeSystem.Busy (s : WakeSystem) (l : WakeLabel) : Prop :=
  s.Spares l ∧ match l with
    | .epollWait => s.ready = true
    | _ => True

def WakeSystem.work (s : WakeSystem) : Nat :=
  3 * s.notifying.length + 2 * s.ready.toNat + s.reported.toNat

theorem wake_work {l : WakeLabel} (hok : s.Busy l)
    (hstep : (wakeSystem cap limit).step s l s') :
    s'.work + (if l.passes s.system.netio.m_iUSockFd = true then 1 else 0) ≤
      s.work + 3 * (s'.notifying.length - s.notifying.length) := by
  have gone : ∀ {i}, i ∈ s.notifying → (s.notifying.erase i).length + 1 = s.notifying.length :=
    fun hi => by rw [List.length_erase_of_mem hi]; have := List.length_pos_of_mem hi; omega
  unfold WakeSystem.work
  cases wake_step_case hstep with
  | process => exact Nat.le_add_right _ _
  | notify =>
    show 3 * (s.notifying.length + 1) + 2 * s.ready.toNat + s.reported.toNat + 0 ≤
      _ + 3 * (s.notifying.length + 1 - s.notifying.length)
    omega
  | failed hi =>
    have hless := gone hi
    show 3 * (s.notifying.erase _).length + 2 * s.ready.toNat + s.reported.toNat + 0 ≤ _ + _
    omega
  | delivered hi =>
    have hless := gone hi
    show 3 * (s.notifying.erase _).length + 2 * 1 + s.reported.toNat + 1 ≤ _ + _
    omega
  | epollWait hreported =>
    have hready : s.ready = true := hok.2
    show 3 * s.notifying.length + 2 * 0 + s.ready.toNat + 1 ≤ _ + _
    rw [hready, hreported, Bool.toNat_true, Bool.toNat_false]
    omega
  | @netio l system hsystem hwait =>
    by_cases hl : l.atUSock s.system.netio
    · rw [hwait hl]
      cases l with
      | event fd =>
        obtain rfl : fd = s.system.netio.m_iUSockFd := hl
        simp [NetioLabel.atUSock, WakeLabel.passes]
      | response => exact hl.elim
      | others => exact hl.elim
    · have hpasses : (WakeLabel.netio l).passes s.system.netio.m_iUSockFd = false := by
        cases l with
        | event fd => exact decide_eq_false hl
        | response => rfl
        | others => rfl
      simp [hpasses, hl]

theorem wake_usock {l : WakeLabel} (h : netioSystem.Reach NetioSystem.Spares s.system)
    (hstep : (wakeSystem cap limit).step s l s') :
    s'.system.netio.m_iUSockFd = s.system.netio.m_iUSockFd := by
  cases wake_step_case hstep with
  | process _ hsystem => rw [(system_process_step hsystem []).2]
  | notify _ hsystem => rw [(system_process_step hsystem []).2]
  | failed => rfl
  | delivered => rfl
  | epollWait => rfl
  | netio hsystem =>
    have hw := wired_reach (system_netio h)
    exact usockFd_same hw (netio_step_case hw (system_netio_step hsystem).1)

/-- While a process is inside sendto there is a step that brings it forward. -/
theorem wake_exists (hcap : 0 < cap) (h : (wakeSystem cap limit).Reach WakeSystem.Spares s)
    (husock : s.system.netio.m_iUSockFd ≠ 0) (hnotifying : s.notifying ≠ []) :
    ∃ l s', l.passes s.system.netio.m_iUSockFd = true ∧ s.Busy l ∧ (wakeSystem cap limit).step s l s' := by
  have hopen := wake_open hcap h
  have hg := (systemGuarded_reach (wake_system h)).net
  have hwatched := hg.channels.watched _ (Or.inr rfl) husock
  by_cases hroom : s.datagrams < cap
  · obtain ⟨i, hi⟩ := List.exists_mem_of_ne_nil _ hnotifying
    exact ⟨.sendto i false, _, rfl, ⟨trivial, trivial⟩, ⟨hi, fun _ => hroom⟩, rfl⟩
  · have hfull := hopen.full (Nat.le_antisymm hopen.room (Nat.le_of_not_lt hroom))
    cases hreported : s.reported with
    | false =>
      have hready := hfull.resolve_right (by simp [hreported])
      exact ⟨.epollWait, _, rfl, ⟨trivial, hready⟩, ⟨hwatched, hreported⟩, rfl⟩
    | true =>
      have hlive : (1 : UInt32) &&& EPOLLRDHUP ≠ EPOLLRDHUP := by decide
      have hstep : ∃ s', s.step limit (.netio (.event s.system.netio.m_iUSockFd 1 {})) = .ok s' := by
        dsimp only [WakeSystem.step, systemStep, netioStep]
        rw [usock_live hg.channels {} hlive]
        exact ⟨_, rfl⟩
      obtain ⟨s', hstep⟩ := hstep
      exact ⟨.netio (.event s.system.netio.m_iUSockFd 1 {}), s', decide_eq_true rfl,
        ⟨fun hup => absurd hup hlive, trivial⟩, ⟨hwatched, fun _ => hreported⟩, hstep⟩

theorem wake_run {usock : Int32} (h : (wakeSystem cap limit).Reach WakeSystem.Spares s)
    (husock : s.system.netio.m_iUSockFd = usock) {ls : List WakeLabel}
    (hrun : (wakeSystem cap limit).Run WakeSystem.Busy s ls s') :
    (wakeSystem cap limit).Reach WakeSystem.Spares s' ∧ s'.system.netio.m_iUSockFd = usock ∧
      s'.work + ls.countP (WakeLabel.passes usock) ≤ s.work + 3 * s.begun limit ls := by
  induction hrun with
  | nil => exact ⟨h, husock, Nat.le_refl _⟩
  | @cons s s1 s' l ls hok hstep _ ih =>
    have hsame := wake_usock (wake_system h) hstep
    obtain ⟨hreach, hend, hle⟩ := ih (h.step hok.1 hstep) (hsame.trans husock)
    have hwork := wake_work hok hstep
    rw [husock] at hwork
    refine ⟨hreach, hend, ?_⟩
    have hbegun : s.begun limit (l :: ls) = (s1.notifying.length - s.notifying.length) + s1.begun limit ls := by
      rw [WakeSystem.begun, hstep.2]
    rw [List.countP_cons, hbegun]
    omega

/-- RespNotify never waits for good, as long as no end of stream is reported for
netio's own sockets and no response is taken for one of them. Whatever else the
system does, of the calls that send a wake-up, report it and take it there are
three for each wake-up at most, and until no process is inside sendto one of them
can be made, without any sendto failing: the queue of the socket is not full
without an event for netio to come. -/
theorem wake_ups_pass (hcap : 0 < cap) (h : (wakeSystem cap limit).Reach WakeSystem.Spares s)
    (husock : s.system.netio.m_iUSockFd ≠ 0) :
    netioSystem.Reach NetioSystem.Spares s.system ∧ s.Open cap ∧
    ∀ ls s', (wakeSystem cap limit).Run WakeSystem.Busy s ls s' →
      ls.countP (WakeLabel.passes s.system.netio.m_iUSockFd) ≤
        3 * (s.notifying.length + s.begun limit ls) + 2 * s.ready.toNat + s.reported.toNat ∧
      (s'.notifying = [] ∨ ∃ l s'', l.passes s.system.netio.m_iUSockFd = true ∧ s'.Busy l ∧
        (wakeSystem cap limit).step s' l s'') := by
  refine ⟨wake_system h, wake_open hcap h, fun ls s' hrun => ?_⟩
  obtain ⟨hreach, hsame, hle⟩ := wake_run h rfl hrun
  refine ⟨?_, ?_⟩
  · rw [WakeSystem.work, WakeSystem.work] at hle
    omega
  · by_cases hnone : s'.notifying = []
    · exact Or.inl hnone
    · rw [← hsame]
      exact Or.inr (wake_exists hcap hreach (hsame ▸ husock) hnone)

end

/-- The sample system before any wake-up. -/
def sampleWake (cap limit : Nat) (ok : WakeSystem → WakeLabel → Prop) [∀ s l, Decidable (ok s l)]
    (ls : List WakeLabel) : Option WakeSystem :=
  match sampleInit.runEventLoop with
  | .error _ => none
  | .ok netio =>
    Machine.follow (WakeSystem.step limit) (fun s l => s.isEnabled cap l && decide (ok s l))
      ⟨⟨netio, sampleBackend.procs⟩, 0, false, false, [], fun _ => 0⟩ ls

theorem sampleWake_run {cap limit : Nat} {ok : WakeSystem → WakeLabel → Prop} [∀ s l, Decidable (ok s l)]
    {ls : List WakeLabel} {p : WakeSystem → Bool} (h : (sampleWake cap limit ok ls).any p = true) :
    ∃ s s', s.Start ∧ (wakeSystem cap limit).Run ok s ls s' ∧ p s' = true := by
  obtain ⟨s', hs', hp⟩ := (Option.any_eq_true _ _).mp h
  unfold sampleWake at hs'
  split at hs'
  next => contradiction
  next netio hstart =>
    refine ⟨_, s', ⟨sampleSystem_start hstart, rfl, rfl, rfl, rfl, rfl⟩, Machine.Run.follow ?_ hs', hp⟩
    intro s l s1 hallowed hstep
    obtain ⟨hen, hok⟩ := Bool.and_eq_true_iff.mp hallowed
    refine ⟨of_decide_eq_true hok, ?_, hstep⟩
    cases l with
    | process i => exact of_decide_eq_true (p := i ∉ s.notifying) hen
    | sendto i failed =>
      exact of_decide_eq_true (p := i ∈ s.notifying ∧ (failed = false → s.datagrams < cap)) hen
    | epollWait =>
      exact of_decide_eq_true
        (p := s.system.netio.kernel.epoll s.system.netio.m_iUSockFd ≠ none ∧ s.reported = false) hen
    | netio l =>
      obtain ⟨hsystem, husock⟩ := Bool.and_eq_true_iff.mp hen
      exact ⟨isEnabled_netio hsystem, of_decide_eq_true husock⟩

/-- A process waits for room in a queue of one datagram. -/
theorem wake_ups_pass_full : ∃ s : WakeSystem, (s.notifying = [0] ∧ s.datagrams = 1) ∧
    netioSystem.Reach NetioSystem.Spares s.system ∧ s.Open 1 ∧
    ∀ ls s', (wakeSystem 1 8).Run WakeSystem.Busy s ls s' →
      ls.countP (WakeLabel.passes s.system.netio.m_iUSockFd) ≤
        3 * (s.notifying.length + s.begun 8 ls) + 2 * s.ready.toNat + s.reported.toNat ∧
      (s'.notifying = [] ∨ ∃ l s'', l.passes s.system.netio.m_iUSockFd = true ∧ s'.Busy l ∧
        (wakeSystem 1 8).step s' l s'') := by
  obtain ⟨s, s', hs, hrun, hp⟩ := @sampleWake_run 1 8 WakeSystem.Spares _
    [.netio (.event 3 1 { accepts := [.conn 5 ⟨2, 4000, ⟨10, 0, 0, 1⟩⟩ true true,
        .conn 6 ⟨2, 4001, ⟨10, 0, 0, 1⟩⟩ true true] }),
      .netio (.event 5 1 { read := some (bytes "cmd=1") }), .netio (.event 6 1 { read := some (bytes "cmd=1") }),
      .process 0 true, .sendto 0 false, .process 0 true]
    (fun s => decide ((s.notifying = [0] ∧ s.datagrams = 1) ∧ s.system.netio.m_iUSockFd ≠ 0))
    (by decide +kernel)
  obtain ⟨hfacts, husock⟩ := of_decide_eq_true hp
  have hreach : (wakeSystem 1 8).Reach WakeSystem.Spares s := .init hs
  exact ⟨s', hfacts, wake_ups_pass (by decide) (hreach.run hrun) husock⟩

section

variable {cap limit : Nat} {s s' : WakeSystem}

/-- The sendto of process i has failed. -/
def WakeLabel.failsAt (i : Nat) : WakeLabel → Bool
  | .sendto j true => decide (j = i)
  | _ => false

/-- The sockets RespNotify has open. -/
structure WakeSystem.Sockets (limit : Nat) (s : WakeSystem) : Prop where
  nodup : s.notifying.Nodup
  held : ∀ i ∈ s.notifying, 0 < s.fds i
  limited : ∀ i, s.fds i ≤ limit

def WakeSystem.inside (s : WakeSystem) (i : Nat) : Nat := if i ∈ s.notifying then 1 else 0

/-- A process inside sendto holds one socket, and each failure has left one behind. -/
theorem wake_sockets {l : WakeLabel} (hs : s.Sockets limit) (hstep : (wakeSystem cap limit).step s l s') :
    s'.Sockets limit ∧
      ∀ i, s'.fds i + s.inside i = s.fds i + s'.inside i + if l.failsAt i = true then 1 else 0 := by
  obtain ⟨hnodup, hheld, hlimited⟩ := hs
  have same : ∀ {r : WakeSystem}, r.notifying = s.notifying → r.fds = s.fds → (∀ i, l.failsAt i = false) →
      r.Sockets limit ∧
        ∀ i, r.fds i + s.inside i = s.fds i + r.inside i + if l.failsAt i = true then 1 else 0 := by
    intro r hn hf hl
    refine ⟨⟨hn ▸ hnodup, fun i hi => hf ▸ hheld i (hn ▸ hi), fun i => hf ▸ hlimited i⟩, fun i => ?_⟩
    simp [WakeSystem.inside, hn, hf, hl]
  have kept : ∀ {i j}, j ≠ i → (j ∈ s.notifying.erase i ↔ j ∈ s.notifying) :=
    fun hj => List.mem_erase_of_ne hj
  cases wake_step_case hstep with
  | process => exact same rfl rfl (fun _ => rfl)
  | epollWait => exact same rfl rfl (fun _ => rfl)
  | netio => exact same rfl rfl (fun _ => rfl)
  | @notify i _ _ hi _ hless =>
    refine ⟨⟨List.nodup_cons.mpr ⟨hi, hnodup⟩, ?_, ?_⟩, ?_⟩
    · intro j hj
      by_cases hji : j = i
      · subst hji
        simp
      · simpa [hji] using hheld j ((List.mem_cons.mp hj).resolve_left hji)
    · intro j
      by_cases hji : j = i
      · subst hji
        simpa using hless
      · simpa [hji] using hlimited j
    · intro j
      by_cases hji : j = i
      · subst hji
        simp [WakeSystem.inside, WakeLabel.failsAt, hi]
      · simp [WakeSystem.inside, WakeLabel.failsAt, hji]
  | @failed i hi =>
    refine ⟨⟨hnodup.erase i, fun j hj => hheld j (List.mem_of_mem_erase hj), hlimited⟩, fun j => ?_⟩
    by_cases hji : j = i
    · subst hji
      simp [WakeSystem.inside, WakeLabel.failsAt, hi, hnodup.not_mem_erase]
    · simp [WakeSystem.inside, WakeLabel.failsAt, kept hji, Ne.symm hji]
  | @delivered i hi =>
    have hpos := hheld i hi
    refine ⟨⟨hnodup.erase i, ?_, ?_⟩, ?_⟩
    · intro j hj
      have hji : j ≠ i := fun h => hnodup.not_mem_erase (h ▸ hj)
      simpa [hji] using hheld j (List.mem_of_mem_erase hj)
    · intro j
      have hj := hlimited j
      by_cases hji : j = i
      · subst hji
        simpa using Nat.le_add_right_of_le hj
      · simpa [hji] using hj
    · intro j
      by_cases hji : j = i
      · subst hji
        simp [WakeSystem.inside, WakeLabel.failsAt, hi, hnodup.not_mem_erase]
        omega
      · simp [WakeSystem.inside, WakeLabel.failsAt, kept hji, hji]

theorem wake_sockets_run {ok : WakeSystem → WakeLabel → Prop} {ls : List WakeLabel} (hs : s.Sockets limit)
    (hrun : (wakeSystem cap limit).Run ok s ls s') :
    s'.Sockets limit ∧
      ∀ i, s'.fds i + s.inside i = s.fds i + s'.inside i + ls.countP (WakeLabel.failsAt i) := by
  induction hrun with
  | nil => exact ⟨hs, fun _ => rfl⟩
  | @cons s s1 s' l ls _ hstep _ ih =>
    obtain ⟨h1, hone⟩ := wake_sockets hs hstep
    obtain ⟨h', hrest⟩ := ih h1
    refine ⟨h', fun i => ?_⟩
    have h1 := hone i
    have h2 := hrest i
    rw [List.countP_cons]
    omega

/-- RespNotify leaves the socket of a failed send open: in every run a process
holds as many as its sends have failed, and once it holds as many as it may
open, it sends no wake-up ever again. -/
theorem failed_wake_ups_leak (hs : s.Start) {ls : List WakeLabel}
    (hrun : (wakeSystem cap limit).Run (fun _ _ => True) s ls s') (i : Nat) :
    s'.fds i = ls.countP (WakeLabel.failsAt i) + s'.inside i ∧ s'.fds i ≤ limit ∧
      (ls.countP (WakeLabel.failsAt i) = limit → ∀ ls' s'',
        (wakeSystem cap limit).Run (fun _ _ => True) s' ls' s'' →
          i ∉ s''.notifying ∧ ls'.countP (WakeLabel.failsAt i) = 0) := by
  have hstart : s.Sockets limit := by
    refine ⟨by rw [hs.notifying]; exact List.nodup_nil, ?_, fun i => by rw [hs.fds]; exact Nat.zero_le _⟩
    intro i hi
    rw [hs.notifying] at hi
    exact absurd hi List.not_mem_nil
  obtain ⟨hsockets, hcount⟩ := wake_sockets_run hstart hrun
  have hone := hcount i
  have hzero : s.inside i = 0 := if_neg (by simp [hs.notifying])
  have hfds : s.fds i = 0 := congrFun hs.fds i
  rw [hzero, hfds] at hone
  refine ⟨by omega, hsockets.limited i, fun hlimit ls' s'' hrun' => ?_⟩
  obtain ⟨hsockets', hcount'⟩ := wake_sockets_run hsockets hrun'
  have hmore := hcount' i
  have hmost := hsockets'.limited i
  have hnot : s''.inside i = 0 := by omega
  refine ⟨fun hi => ?_, by omega⟩
  rw [WakeSystem.inside, if_pos hi] at hnot
  contradiction

end

theorem failed_wake_ups_leak_one : ∃ (s s' : WakeSystem) (ls : List WakeLabel),
    (s.Start ∧ (wakeSystem 1 1).Run (fun _ _ => True) s ls s' ∧ s'.fds 0 = 1) ∧
    s'.fds 0 = ls.countP (WakeLabel.failsAt 0) + s'.inside 0 ∧ s'.fds 0 ≤ 1 ∧
    (ls.countP (WakeLabel.failsAt 0) = 1 → ∀ ls' s'',
      (wakeSystem 1 1).Run (fun _ _ => True) s' ls' s'' →
        0 ∉ s''.notifying ∧ ls'.countP (WakeLabel.failsAt 0) = 0) := by
  obtain ⟨s, s', hs, hrun, hp⟩ := @sampleWake_run 1 1 (fun _ _ => True) _
    [.netio (.event 3 1 { accepts := [.conn 5 ⟨2, 4000, ⟨10, 0, 0, 1⟩⟩ true true] }),
      .netio (.event 5 1 { read := some (bytes "cmd=1") }), .process 0 true, .sendto 0 true]
    (fun s => decide (s.fds 0 = 1)) (by decide +kernel)
  exact ⟨s, s', _, ⟨hs, hrun, of_decide_eq_true hp⟩, failed_wake_ups_leak hs hrun 0⟩

end NetioMiddleware

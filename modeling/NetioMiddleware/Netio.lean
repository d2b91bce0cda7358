import NetioMiddleware.TcpNetHandler

namespace NetioMiddleware

/-- The reactor after Init has opened both channels. The address of the unix
socket's item, those of the unused items and the message table start
unspecified, and netio may have further descriptors open. -/
def Reactor.init (iSvrFd iUSockFd : Int32) (stServaddr : SockAddrIn) (unset : Int32 → SockAddrIn)
    (arrMsg : Int32 → MsgBuf) (owner : Int32 → Option FdOwner) (queues : Int32 → List QMsg) :
    Reactor where
  m_vecFds := []
  m_iSvrFd := iSvrFd
  m_iUSockFd := iUSockFd
  m_iEvents := 0
  m_arrTcpSock :=
    Function.update
      (Function.update (fun fd => ⟨0, .NONE_FLAG, unset fd⟩) iSvrFd
        ⟨iSvrFd, .TCP_SERVER_ACCEPT, stServaddr⟩)
      iUSockFd ⟨iUSockFd, .UDP_READ, unset iUSockFd⟩
  m_arrMsg := arrMsg
  kernel :=
    { owner :=
        Function.update (Function.update owner iSvrFd (some .listener)) iUSockFd (some .usock)
      epoll := fun _ => none
      queues := queues
      accepted := 0
      log := [] }

/-- The two calls RunEventLoop makes before its loop. -/
def Reactor.runEventLoop (s : Reactor) : Except Halt Reactor :=
  match if s.m_iSvrFd ≠ 0 then s.addToWatchList s.m_iSvrFd .TCP_SERVER_ACCEPT .own false
    else .ok (0, s) with
  | .error e => .error e
  | .ok (_, s) =>
    match if s.m_iUSockFd ≠ 0 then s.addToWatchList s.m_iUSockFd .UDP_READ .own false
      else .ok (0, s) with
    | .error e => .error e
    | .ok (_, s) => .ok s

/-- One step of netio or of its surroundings: a ready descriptor with what the
system calls of its handler return, OnEventFire, or a change the other
processes make to the queues. -/
inductive NetioLabel
  | event (fd : Int32) (events : UInt32) (out : Outcomes)
  | response (rcvFailed : Bool) (origin : Option Nat)
  | others (queues : Int32 → List QMsg)

/-- A request message of connection c is in the log. -/
def requested (log : List Syscall) (c : Nat) : Prop :=
  ∃ key text, Syscall.msgsnd (some (.conn c)) key text ∈ log

/-- Only members of the epoll set are reported, and a response answers only a
request made before it. -/
def NetioLabel.enabled (s : Reactor) : NetioLabel → Prop
  | .event fd _ _ => s.kernel.epoll fd ≠ none
  | .response _ origin => ∀ c, origin = some c → requested s.kernel.log c
  | .others _ => True

def netioStep (s : Reactor) : NetioLabel → Except Halt Reactor
  | .event fd events out => s.processItem fd events out
  | .response rcvFailed origin => s.onEventFire rcvFailed origin
  | .others queues => .ok { s with kernel := s.kernel.setQueues queues }

structure NetioStart (s : Reactor) : Prop where
  start : ∃ iSvrFd iUSockFd stServaddr unset arrMsg owner queues,
    iSvrFd ≠ iUSockFd ∧ (∀ fd c, owner fd ≠ some (FdOwner.conn c)) ∧
    (Reactor.init iSvrFd iUSockFd stServaddr unset arrMsg owner queues).runEventLoop = .ok s

/-- The event loop of netio. -/
def netio : Machine Reactor NetioLabel where
  init := NetioStart
  step s l s' := l.enabled s ∧ netioStep s l = .ok s'

/-- The tables, the kernel's descriptors and the epoll set fit together:
whatever is registered is open and has its own entry, a connection is in the
vector, and no connection is open twice. -/
structure Wired (s : Reactor) : Prop where
  registered : ∀ fd, s.kernel.epoll fd ≠ none →
    s.kernel.owner fd ≠ none ∧ (s.m_arrTcpSock fd).fd = fd
  listed : ∀ fd c, s.kernel.owner fd = some (.conn c) → fd ∈ s.m_vecFds
  numbered : ∀ fd c, s.kernel.owner fd = some (.conn c) → c < s.kernel.accepted
  single : ∀ fd fd' c, s.kernel.owner fd = some (.conn c) →
    s.kernel.owner fd' = some (.conn c) → fd = fd'

/-- The command OnEventFire decodes, when GetMsg does not report an empty queue. -/
def takenCmd (s : Reactor) (rcvFailed : Bool) : Option CCmd :=
  if (takeResponse s.kernel rcvFailed).1 = 0 ∧ (takeResponse s.kernel rcvFailed).2.1 = 0 then none
  else some (initCCmd {} (takeResponse s.kernel rcvFailed).2.2.1.sBuf)

/-- The message table entry OnEventFire fills from a command. -/
def responseText (oCmd : CCmd) : Bytes := (cStr oCmd.sData).take (MAX_MSG_SIZE - 8 - 1)

/-- The message OnEventFire puts into the table: the buffer it has taken, with
the command's data printed over its front. -/
def storedMsg (s : Reactor) (rcvFailed : Bool) : MsgBuf :=
  let stMsg := (takeResponse s.kernel rcvFailed).2.2.1
  stMsg.print (cStr (initCCmd {} stMsg.sBuf).sData)

/-- The reactor OnEventFire calls AddToWatchList on. -/
def Reactor.received (s : Reactor) (queues : Int32 → List QMsg) (iFd : Int32) (stMsg : MsgBuf)
    (rcvFailed : Bool) (origin : Option Nat) : Reactor :=
  let k := s.kernel.setQueues queues
  { s with
    m_arrMsg := Function.update s.m_arrMsg iFd stMsg
    kernel := if rcvFailed then k else k.record (.msgrcv origin stMsg.text) }

/-- Queues netio has at most taken messages from, and only from its own. -/
structure Drained (queues before : Int32 → List QMsg) : Prop where
  others : ∀ key, key ≠ NET_IO_BACK_MSQ_KEY → queues key = before key
  less : ∀ key, ∀ x ∈ queues key, x ∈ before key

/-- What a step of netio can do, with the descriptor's own number in the place
of the one its entry holds. -/
inductive StepCase (s : Reactor) : NetioLabel → Reactor → Prop
  | accepts {fd events out s'} : s.doConn fd out.accepts = .ok s' →
      StepCase s (.event fd events out) s'
  | idle {fd events out} : StepCase s (.event fd events out) s
  | look {fd events out} : s.kernel.epoll fd ≠ none →
      (s.m_arrTcpSock fd).enEventFlag = .UDP_READ →
      StepCase s (.event fd events out)
        { s with kernel := s.kernel.record (.read (s.kernel.owner fd)) }
  | hangup {fd events out} : s.kernel.epoll fd ≠ none → StepCase s (.event fd events out) (s.closed fd)
  | lost {fd events out} : s.kernel.epoll fd ≠ none → events &&& EPOLLRDHUP ≠ EPOLLRDHUP →
      (s.m_arrTcpSock fd).enEventFlag = .TCP_SERVER_READ → out.read = none ∨ out.read = some [] →
      StepCase s (.event fd events out) (s.lost fd)
  | recv {fd events out buf key} : s.kernel.epoll fd ≠ none → events &&& EPOLLRDHUP ≠ EPOLLRDHUP →
      (s.m_arrTcpSock fd).enEventFlag = .TCP_SERVER_READ → out.read = some buf → buf ≠ [] →
      routeCmd (initCCmd {} buf).iCmd = some key →
      StepCase s (.event fd events out) (s.asked fd key buf out.sent)
  | send {fd events out} : s.kernel.epoll fd ≠ none → events &&& EPOLLRDHUP ≠ EPOLLRDHUP →
      (s.m_arrTcpSock fd).enEventFlag = .TCP_SERVER_SEND →
      StepCase s (.event fd events out) (s.answered fd)
  | nothing {rcvFailed origin queues} : takenCmd s rcvFailed = none →
      Drained queues s.kernel.queues →
      StepCase s (.response rcvFailed origin) { s with kernel := s.kernel.setQueues queues }
  | respond {rcvFailed origin q oCmd m r s'} : takenCmd s rcvFailed = some oCmd →
      (∀ c, origin = some c → requested s.kernel.log c) →
      m.text = responseText oCmd → Drained q s.kernel.queues →
      (s.received q oCmd.iFd m rcvFailed origin).addToWatchList oCmd.iFd .TCP_SERVER_SEND
        (.item (responseSock oCmd)) true = .ok (r, s') →
      StepCase s (.response rcvFailed origin) s'
  | others {queues} : StepCase s (.others queues) { s with kernel := s.kernel.setQueues queues }

theorem takeResponse_cases (k : Kernel) (rcvFailed : Bool) :
    ∃ queues, (takeResponse k rcvFailed).2.2.2 = k.setQueues queues ∧
      ((takeResponse k rcvFailed).1 = 0 ↔ rcvFailed = false) ∧ Drained queues k.queues := by
  cases rcvFailed with
  | true =>
    exact ⟨k.queues, rfl, by simp [takeResponse, RECV_MSG_FAILED], fun _ _ => rfl, fun _ _ hx => hx⟩
  | false =>
    refine ⟨_, rfl, by simp [takeResponse], fun key hkey => Function.update_of_ne hkey _ _, ?_⟩
    intro key x hx
    by_cases hkey : key = NET_IO_BACK_MSQ_KEY
    · subst hkey
      rw [Function.update_self] at hx
      exact getMsg_subset hx
    · rwa [Function.update_of_ne hkey] at hx

/-- OnEventFire finds its queue empty, or stores the message it takes and
offers the descriptor to AddToWatchList. -/
theorem response_fire {s s' : Reactor} {rcvFailed : Bool} {origin : Option Nat}
    (h : s.onEventFire rcvFailed origin = .ok s') :
    ∃ queues, Drained queues s.kernel.queues ∧
      ((takenCmd s rcvFailed = none ∧ s' = { s with kernel := s.kernel.setQueues queues }) ∨
        ∃ oCmd r, takenCmd s rcvFailed = some oCmd ∧ (storedMsg s rcvFailed).text = responseText oCmd ∧
          (s.received queues oCmd.iFd (storedMsg s rcvFailed) rcvFailed origin).addToWatchList oCmd.iFd
            .TCP_SERVER_SEND (.item (responseSock oCmd)) true = .ok (r, s')) := by
  obtain ⟨queues, hk, hret, hback⟩ := takeResponse_cases s.kernel rcvFailed
  refine ⟨queues, hback, ?_⟩
  unfold Reactor.onEventFire at h
  split at h
  next iRet len stMsg k htake =>
    rw [htake] at hk hret
    dsimp only at hk hret h
    split at h
    next hempty =>
      cases Except.ok.inj h
      subst hk
      exact Or.inl ⟨by simp [takenCmd, htake, hempty], rfl⟩
    next htaken =>
      split at h
      next => cases h
      next =>
        split at h
        next => cases h
        next r s1 hadd =>
          cases Except.ok.inj h
          have hcmd : takenCmd s rcvFailed = some (initCCmd {} stMsg.sBuf) := by
            simp only [takenCmd, htake, if_neg htaken]
          have hmsg : storedMsg s rcvFailed = stMsg.print (cStr (initCCmd {} stMsg.sBuf).sData) := by
            simp only [storedMsg, htake]
          have htext : (stMsg.print (cStr (initCCmd {} stMsg.sBuf).sData)).text =
              responseText (initCCmd {} stMsg.sBuf) := print_text (cStr_no_nul _)
          refine Or.inr ⟨_, r, hcmd, hmsg ▸ htext, ?_⟩
          rw [← hadd, hk, hmsg]
          cases rcvFailed <;> simp [Reactor.received, hret]

theorem response_case {s s' : Reactor} {rcvFailed : Bool} {origin : Option Nat}
    (hen : ∀ c, origin = some c → requested s.kernel.log c)
    (h : s.onEventFire rcvFailed origin = .ok s') : StepCase s (.response rcvFailed origin) s' := by
  obtain ⟨queues, hback, ⟨hnone, rfl⟩ | ⟨oCmd, r, hcmd, htext, hadd⟩⟩ := response_fire h
  · exact .nothing hnone hback
  · exact .respond hcmd hen htext hback hadd

theorem takenCmd_first {s : Reactor} {before after : List QMsg} {m : QMsg}
    (hq : s.kernel.queues NET_IO_BACK_MSQ_KEY = before ++ m :: after)
    (hbefore : ∀ x ∈ before, x.mtype ≠ RESPONSE.toInt) (hm : m.mtype = RESPONSE.toInt)
    (hne : m.mtext ≠ []) : takenCmd s false = some (initCCmd {} m.mtext) := by
  obtain ⟨stMsg, hget, hdec⟩ := getMsg_first (b := after) hbefore hm
  have hlen : m.mtext.length ≠ 0 := fun h0 => hne (List.eq_nil_of_length_eq_zero h0)
  have hgot : ∃ k, takeResponse s.kernel false = (0, m.mtext.length, stMsg, k) := by
    unfold takeResponse
    dsimp only
    rw [if_neg (by simp), hq, hget]
    exact ⟨_, rfl⟩
  obtain ⟨k, hgot⟩ := hgot
  unfold takenCmd
  rw [hgot]
  dsimp only
  rw [if_neg (fun h => hlen h.2), hdec]

/-- OnEventFire decodes a message of its queue, or, when msgrcv fails, the
buffer it has just cleared. -/
theorem takenCmd_cases {s : Reactor} {rcvFailed : Bool} {oCmd : CCmd}
    (h : takenCmd s rcvFailed = some oCmd) :
    oCmd = initCCmd {} [] ∨
      ∃ x ∈ s.kernel.queues NET_IO_BACK_MSQ_KEY, oCmd = initCCmd {} x.mtext := by
  cases rcvFailed with
  | true =>
    left
    rw [← Option.some.inj h]
    have hclear : cStr (List.replicate (MAX_MSG_SIZE - 8) 0) = cStr [] :=
      cStr_append_zeros [] (MAX_MSG_SIZE - 8)
    exact initCCmd_congr hclear
  | false =>
    right
    cases hfirst : (s.kernel.queues NET_IO_BACK_MSQ_KEY).find? (fun x => x.mtype == RESPONSE.toInt) with
    | none =>
      have hget : getMsg (s.kernel.queues NET_IO_BACK_MSQ_KEY) (MsgBuf.reset.withType RESPONSE.toInt) = _ :=
        getMsg_none (fun x hx => by simpa using List.find?_eq_none.mp hfirst x hx)
      simp [takenCmd, takeResponse, hget] at h
    | some m =>
      obtain ⟨hm, before, after, hq, hbefore⟩ := List.find?_eq_some_iff_append.mp hfirst
      have hm : m.mtype = RESPONSE.toInt := by simpa using hm
      have hbefore : ∀ x ∈ before, x.mtype ≠ RESPONSE.toInt := fun x hx => by simpa using hbefore x hx
      by_cases hne : m.mtext = []
      · obtain ⟨stMsg, hget, _⟩ := getMsg_first (b := after) hbefore hm
        simp [takenCmd, takeResponse, hq, hget, hne] at h
      · refine ⟨m, by rw [hq]; simp, ?_⟩
        exact Option.some.inj (h.symm.trans (takenCmd_first hq hbefore hm hne))

theorem event_case {s s' : Reactor} {fd : Int32} {events : UInt32} {out : Outcomes}
    (hw : Wired s) (hreg : s.kernel.epoll fd ≠ none) (h : s.processItem fd events out = .ok s') :
    StepCase s (.event fd events out) s' := by
  have hfd := (hw.registered fd hreg).2
  have handle : ∀ iType, s.handleEvent fd iType out = .ok s' →
      (events &&& EPOLLRDHUP = EPOLLRDHUP → iType = .TCP_SERVER_CLOSE) →
      (iType = .TCP_SERVER_CLOSE ∨ iType = (s.m_arrTcpSock fd).enEventFlag) →
      StepCase s (.event fd events out) s' := by
    intro iType h hhup hflag
    have hlive : iType ≠ .TCP_SERVER_CLOSE →
        events &&& EPOLLRDHUP ≠ EPOLLRDHUP ∧ (s.m_arrTcpSock fd).enEventFlag = iType :=
      fun hne => ⟨fun hr => hne (hhup hr), (hflag.resolve_left hne).symm⟩
    unfold Reactor.handleEvent at h
    split at h
    next => exact .accepts h
    next =>
      obtain ⟨hlive, hread⟩ := hlive (by decide)
      obtain ⟨hlost, rfl⟩ | ⟨buf, key, hbuf, hne, hkey, rfl⟩ := doRecv_cases h
      · exact .lost hreg hlive hread hlost
      · exact .recv hreg hlive hread hbuf hne hkey
    next =>
      obtain ⟨hlive, hsend⟩ := hlive (by decide)
      exact doSend_eq h ▸ .send hreg hlive hsend
    next => exact doClose_eq h ▸ .hangup hreg
    next => cases Except.ok.inj h; exact .idle
  unfold Reactor.processItem at h
  dsimp only at h
  rw [hfd] at h
  split at h
  next =>
    split at h
    next => exact handle _ h (fun _ => rfl) (Or.inl rfl)
    next => cases Except.ok.inj h; exact .idle
  next hlive =>
    split at h
    next hsvr => exact handle _ (hsvr ▸ h) (fun hr => absurd hr hlive) (Or.inr rfl)
    next =>
      split at h
      next => exact handle _ h (fun hr => absurd hr hlive) (Or.inr rfl)
      next =>
        split at h
        next hudp =>
          cases Except.ok.inj h
          rw [hudp]
          exact .look hreg hudp
        next =>
          split at h
          next => exact handle _ h (fun hr => absurd hr hlive) (Or.inr rfl)
          next => cases Except.ok.inj h; exact .idle

theorem netio_step_case {s s' : Reactor} {l : NetioLabel} (hw : Wired s) (h : netio.step s l s') :
    StepCase s l s' := by
  obtain ⟨hen, h⟩ := h
  cases l with
  | event fd events out => exact event_case hw hen h
  | response rcvFailed origin => exact response_case hen h
  | others queues => cases Except.ok.inj h; exact .others

theorem Wired.unregistered {s : Reactor} {fd : Int32} (hw : Wired s)
    (hfree : s.kernel.owner fd = none) : s.kernel.epoll fd = none := by
  by_contra hreg
  exact (hw.registered fd hreg).1 hfree

theorem Wired.of_close {s s' : Reactor} (hw : Wired s) (fd : Int32)
    (howner : s'.kernel.owner = Function.update s.kernel.owner fd none)
    (hepoll : s'.kernel.epoll = Function.update s.kernel.epoll fd none)
    (haccepted : s.kernel.accepted ≤ s'.kernel.accepted)
    (hitem : ∀ x, x ≠ fd → s'.m_arrTcpSock x = s.m_arrTcpSock x)
    (hvec : ∀ x, x ≠ fd → x ∈ s.m_vecFds → x ∈ s'.m_vecFds) : Wired s' := by
  have hopen : ∀ x o, s'.kernel.owner x = some o → x ≠ fd ∧ s.kernel.owner x = some o := by
    intro x o ho
    rw [howner] at ho
    by_cases hx : x = fd
    · simp [hx] at ho
    · exact ⟨hx, by rwa [Function.update_of_ne hx] at ho⟩
  refine ⟨?_, ?_, ?_, ?_⟩
  · intro x hreg
    rw [hepoll] at hreg
    by_cases hx : x = fd
    · simp [hx] at hreg
    · rw [Function.update_of_ne hx] at hreg
      rw [howner, Function.update_of_ne hx, hitem x hx]
      exact hw.registered x hreg
  · intro x c ho
    obtain ⟨hx, ho⟩ := hopen x _ ho
    exact hvec x hx (hw.listed x c ho)
  · intro x c ho
    exact Nat.lt_of_lt_of_le (hw.numbered x c (hopen x _ ho).2) haccepted
  · intro x x' c ho ho'
    exact hw.single x x' c (hopen x _ ho).2 (hopen x' _ ho').2

theorem Wired.of_watch {s s' : Reactor} (hw : Wired s) (fd : Int32)
    (howner : s'.kernel.owner = s.kernel.owner) (haccepted : s'.kernel.accepted = s.kernel.accepted)
    (hepoll : ∀ x, x ≠ fd → s'.kernel.epoll x = s.kernel.epoll x)
    (hfd : s'.kernel.epoll fd ≠ none → s.kernel.owner fd ≠ none ∧ (s'.m_arrTcpSock fd).fd = fd)
    (hitem : ∀ x, x ≠ fd → s'.m_arrTcpSock x = s.m_arrTcpSock x)
    (hvec : ∀ x ∈ s.m_vecFds, x ∈ s'.m_vecFds) : Wired s' := by
  refine ⟨?_, ?_, ?_, ?_⟩
  · intro x hreg
    rw [howner]
    by_cases hx : x = fd
    · subst hx; exact hfd hreg
    · rw [hitem x hx]
      exact hw.registered x (hepoll x hx ▸ hreg)
  · intro x c ho
    exact hvec x (hw.listed x c (howner ▸ ho))
  · intro x c ho
    rw [haccepted]
    exact hw.numbered x c (howner ▸ ho)
  · intro x x' c ho ho'
    exact hw.single x x' c (howner ▸ ho) (howner ▸ ho')

/-- A change of neither the descriptors nor the epoll set nor the entries' own numbers. -/
theorem Wired.of_same {s s' : Reactor} (hw : Wired s) (howner : s'.kernel.owner = s.kernel.owner)
    (haccepted : s'.kernel.accepted = s.kernel.accepted) (hepoll : s'.kernel.epoll = s.kernel.epoll)
    (hitem : ∀ x, (s'.m_arrTcpSock x).fd = (s.m_arrTcpSock x).fd)
    (hvec : s'.m_vecFds = s.m_vecFds) : Wired s' := by
  refine ⟨?_, ?_, ?_, ?_⟩
  · intro x hreg
    rw [howner, hitem x]
    exact hw.registered x (hepoll ▸ hreg)
  · intro x c ho
    rw [hvec]
    exact hw.listed x c (howner ▸ ho)
  · intro x c ho
    rw [haccepted]
    exact hw.numbered x c (howner ▸ ho)
  · intro x x' c ho ho'
    exact hw.single x x' c (howner ▸ ho) (howner ▸ ho')

theorem wired_closed {s : Reactor} {fd : Int32} (hw : Wired s) : Wired (s.closed fd) := by
  refine hw.of_close fd rfl rfl (Nat.le_refl _) (fun x hx => Function.update_of_ne hx _ _) ?_
  intro x hx hm
  dsimp only [Reactor.closed]
  split
  next => exact hm
  next => exact (List.mem_erase_of_ne hx).mpr hm

theorem wired_dropped {s : Reactor} {fd : Int32} (hw : Wired s) : Wired (s.dropped fd) :=
  hw.of_close fd (dropped_owner s fd) rfl (Nat.le_succ _) (fun _ _ => rfl) (fun _ _ hm => hm)

theorem wired_lost {s : Reactor} {fd : Int32} (hw : Wired s) : Wired (s.lost fd) :=
  hw.of_close fd rfl rfl (Nat.le_refl _) (fun _ _ => rfl) (fun _ _ hm => hm)

theorem msgsnd_frame (k : Kernel) (fd key : Int32) (stMsg : MsgBuf) (sent : Bool) :
    (k.msgsnd fd key stMsg sent).2.owner = k.owner ∧ (k.msgsnd fd key stMsg sent).2.epoll = k.epoll ∧
      (k.msgsnd fd key stMsg sent).2.accepted = k.accepted := by
  unfold Kernel.msgsnd
  dsimp only
  split <;> exact ⟨rfl, rfl, rfl⟩

theorem setFlag_fd (s : Reactor) (fd x : Int32) (flag : EventFlag) :
    ((s.setFlag fd flag).m_arrTcpSock x).fd = (s.m_arrTcpSock x).fd := by
  dsimp only [Reactor.setFlag, Reactor.setItem]
  by_cases hx : x = fd
  · simp [hx]
  · simp [hx]

theorem asked_kernel (s : Reactor) (fd key : Int32) (buf : Bytes) (sent : Bool) :
    ∃ stMsg, (s.asked fd key buf sent).kernel = ((s.recvKernel fd).msgsnd fd key stMsg sent).2 := by
  refine ⟨(MsgBuf.reset.withType REQUEST.toInt).printCmd (s.stampCmd fd buf), ?_⟩
  simp only [Reactor.asked, Reactor.setFlag, Reactor.setItem]

theorem asked_frame (s : Reactor) (fd key : Int32) (buf : Bytes) (sent : Bool) :
    (s.asked fd key buf sent).kernel.owner = s.kernel.owner ∧
      (s.asked fd key buf sent).kernel.epoll = s.kernel.epoll ∧
      (s.asked fd key buf sent).kernel.accepted = s.kernel.accepted := by
  obtain ⟨stMsg, hk⟩ := asked_kernel s fd key buf sent
  obtain ⟨howner, hepoll, haccepted⟩ := msgsnd_frame (s.recvKernel fd) fd key stMsg sent
  rw [hk, howner, hepoll, haccepted]
  exact ⟨rfl, rfl, rfl⟩

theorem asked_log (s : Reactor) (fd key : Int32) (buf : Bytes) (sent : Bool) :
    ∃ es, (s.asked fd key buf sent).kernel.log = s.kernel.log ++
        ([.incr (bytes "netio_0") 1, .read (s.kernel.owner fd)] ++ es) ∧
      (es = [] ∨ ∃ text, es = [.msgsnd (s.kernel.owner fd) key text]) := by
  obtain ⟨stMsg, hk⟩ := asked_kernel s fd key buf sent
  rw [hk]
  unfold Kernel.msgsnd
  dsimp only
  split
  next =>
    refine ⟨_, ?_, Or.inr ⟨stMsg.text, rfl⟩⟩
    simp [Reactor.recvKernel, Kernel.record]
  next => exact ⟨[], by simp [Reactor.recvKernel, Kernel.record], Or.inl rfl⟩

theorem asked_item (s : Reactor) (fd key : Int32) (buf : Bytes) (sent : Bool) :
    (s.asked fd key buf sent).m_arrTcpSock =
      Function.update s.m_arrTcpSock fd
        { s.m_arrTcpSock fd with enEventFlag := .TCP_SERVER_SEND } := by
  simp only [Reactor.asked, Reactor.setFlag, Reactor.setItem]

theorem wired_asked {s : Reactor} {fd key : Int32} {buf : Bytes} {sent : Bool} (hw : Wired s) :
    Wired (s.asked fd key buf sent) := by
  obtain ⟨howner, hepoll, haccepted⟩ := asked_frame s fd key buf sent
  exact hw.of_same howner haccepted hepoll (fun x => setFlag_fd _ fd x _) rfl

theorem wired_accepted {s : Reactor} {fd : Int32} {addr : SockAddrIn} (hw : Wired s) :
    Wired (s.accepted fd addr) := by
  obtain ⟨howner, haccepted, _, hitem, _⟩ := accepted_frame s fd addr
  have hvec : ∀ x, x = fd ∨ x ∈ s.m_vecFds → x ∈ (s.accepted fd addr).m_vecFds := by
    intro x hx
    unfold Reactor.accepted
    split
    next hm => exact hx.elim (fun h => h ▸ hm) id
    next => exact List.mem_append.mpr (hx.symm.imp id (fun h => by simp [h]))
  have hopen : ∀ x c, (s.accepted fd addr).kernel.owner x = some (.conn c) →
      (x = fd ∧ c = s.kernel.accepted) ∨ (x ≠ fd ∧ s.kernel.owner x = some (.conn c)) := by
    intro x c ho
    rw [howner] at ho
    by_cases hx : x = fd
    · refine Or.inl ⟨hx, ?_⟩
      simpa [hx] using ho.symm
    · exact Or.inr ⟨hx, by rwa [Function.update_of_ne hx] at ho⟩
  refine ⟨?_, ?_, ?_, ?_⟩
  · intro x hreg
    rw [howner, hitem]
    by_cases hx : x = fd
    · simp [hx]
    · rw [Function.update_of_ne hx, Function.update_of_ne hx]
      exact hw.registered x (accepted_epoll addr hx ▸ hreg)
  · intro x c ho
    exact hvec x ((hopen x c ho).imp And.left (fun h => hw.listed x c h.2))
  · intro x c ho
    rw [haccepted]
    obtain ⟨_, rfl⟩ | ⟨_, ho⟩ := hopen x c ho
    · exact Nat.lt_succ_self _
    · exact Nat.lt_succ_of_lt (hw.numbered x c ho)
  · intro x x' c ho ho'
    obtain ⟨hx, hc⟩ | ⟨_, ho⟩ := hopen x c ho
    · obtain ⟨hx', _⟩ | ⟨_, ho'⟩ := hopen x' c ho'
      · rw [hx, hx']
      · have := hw.numbered x' c ho'
        omega
    · obtain ⟨_, hc⟩ | ⟨_, ho'⟩ := hopen x' c ho'
      · have := hw.numbered x c ho
        omega
      · exact hw.single x x' c ho ho'

theorem wired_addToWatchList {s s' : Reactor} {fd : Int32} {op : EventFlag} {pData : WatchData}
    {chk : Bool} {r : Int32} (hw : Wired s) (hown : pData = .own → (s.m_arrTcpSock fd).fd = fd)
    (h : s.addToWatchList fd op pData chk = .ok (r, s')) : Wired s' := by
  obtain ⟨hk, _, _, _, hepoll, hitem, _, hvec⟩ := addToWatchList_frame h
  have hstored : ((s.storeItem fd pData).m_arrTcpSock fd).fd = fd := by
    cases pData with
    | own => exact hown rfl
    | item stSock => simp [Reactor.storeItem, Reactor.setItem]
  refine hw.of_watch fd (by rw [hk]) (by rw [hk]) hepoll ?_ hitem hvec
  intro hreg
  obtain ⟨_, ⟨_, _, rfl⟩ | ⟨_, ⟨rfl, _⟩ | ⟨_, hold, rfl⟩ | ⟨_, hopen, _, rfl⟩⟩⟩ :=
    addToWatchList_cases h
  · exact hw.registered fd hreg
  · rw [storeItem_kernel] at hreg
    exact ⟨(hw.registered fd hreg).1, hstored⟩
  · exact ⟨(hw.registered fd hold).1, hstored⟩
  · exact ⟨hopen, hstored⟩

theorem wired_received {s : Reactor} {queues : Int32 → List QMsg} {fd : Int32} {m : MsgBuf}
    {rcvFailed : Bool} {origin : Option Nat} (hw : Wired s) :
    Wired (s.received queues fd m rcvFailed origin) := by
  cases rcvFailed <;> exact hw.of_same rfl rfl rfl (fun _ => rfl) rfl

theorem wired_step {s s' : Reactor} {l : NetioLabel} (hw : Wired s) (h : netio.step s l s') :
    Wired s' := by
  cases netio_step_case hw h with
  | accepts hconn =>
    exact doConn_preserves (fun _ _ h => h.unregistered) (fun _ _ h _ => wired_dropped h)
      (fun _ _ _ h _ _ => wired_accepted h) hw hconn
  | idle => exact hw
  | look => exact hw.of_same rfl rfl rfl (fun _ => rfl) rfl
  | hangup => exact wired_closed hw
  | lost => exact wired_lost hw
  | recv => exact wired_asked hw
  | send => exact wired_closed (hw.of_same rfl rfl rfl (fun _ => rfl) rfl)
  | nothing => exact hw.of_same rfl rfl rfl (fun _ => rfl) rfl
  | respond _ _ _ _ hadd =>
    refine wired_addToWatchList (s := s.received _ _ _ _ _) (wired_received hw) ?_ hadd
    exact fun h => by cases h
  | others => exact hw.of_same rfl rfl rfl (fun _ => rfl) rfl

theorem runEventLoop_cases {s s' : Reactor} (h : s.runEventLoop = .ok s') :
    ∃ s1, ((s.m_iSvrFd = 0 ∧ s1 = s) ∨
        ∃ r, s.addToWatchList s.m_iSvrFd .TCP_SERVER_ACCEPT .own false = .ok (r, s1)) ∧
      ((s1.m_iUSockFd = 0 ∧ s' = s1) ∨
        ∃ r, s1.addToWatchList s1.m_iUSockFd .UDP_READ .own false = .ok (r, s')) := by
  unfold Reactor.runEventLoop at h
  split at h
  next => cases h
  next r s1 hsvr =>
    split at h
    next => cases h
    next r2 s2 husock =>
      cases Except.ok.inj h
      refine ⟨s1, ?_, ?_⟩
      · split at hsvr
        next => exact Or.inr ⟨r, hsvr⟩
        next hzero => exact Or.inl ⟨not_not.mp hzero, (Prod.mk.inj (Except.ok.inj hsvr)).2.symm⟩
      · split at husock
        next => exact Or.inr ⟨r2, husock⟩
        next hzero => exact Or.inl ⟨not_not.mp hzero, (Prod.mk.inj (Except.ok.inj husock)).2.symm⟩

/-- What holds of the reactor Init leaves and is kept by watching one of its
two channels holds at the start of the loop. -/
theorem NetioStart.induct {P : Reactor → Prop} {s : Reactor}
    (hinit : ∀ iSvrFd iUSockFd stServaddr unset arrMsg owner queues, iSvrFd ≠ iUSockFd →
      (∀ fd c, owner fd ≠ some (FdOwner.conn c)) →
      P (Reactor.init iSvrFd iUSockFd stServaddr unset arrMsg owner queues))
    (hwatch : ∀ s s' fd op r, P s → fd = s.m_iSvrFd ∨ fd = s.m_iUSockFd → (s.m_arrTcpSock fd).fd = fd →
      s.addToWatchList fd op .own false = .ok (r, s') → P s')
    (h : NetioStart s) : P s := by
  obtain ⟨iSvrFd, iUSockFd, stServaddr, unset, arrMsg, owner, queues, hne, howner, h⟩ := h.start
  have hP := hinit iSvrFd iUSockFd stServaddr unset arrMsg owner queues hne howner
  obtain ⟨s1, h1, h2⟩ := runEventLoop_cases h
  have hsvr : ((Reactor.init iSvrFd iUSockFd stServaddr unset arrMsg owner queues).m_arrTcpSock
      iSvrFd).fd = iSvrFd := by
    simp [Reactor.init, Function.update_of_ne hne]
  have husock : ((Reactor.init iSvrFd iUSockFd stServaddr unset arrMsg owner queues).m_arrTcpSock
      iUSockFd).fd = iUSockFd := by
    simp [Reactor.init]
  obtain ⟨hP1, hfd1⟩ : P s1 ∧ (s1.m_arrTcpSock s1.m_iUSockFd).fd = s1.m_iUSockFd := by
    rcases h1 with ⟨_, rfl⟩ | ⟨r, hr⟩
    · exact ⟨hP, husock⟩
    · obtain ⟨_, _, _, hu, _, _, hitem, _⟩ := addToWatchList_frame hr
      have hitem : s1.m_arrTcpSock = _ := hitem.elim id id
      refine ⟨hwatch _ _ _ _ r hP (Or.inl rfl) hsvr hr, ?_⟩
      rw [hitem, hu]
      exact husock
  rcases h2 with ⟨_, rfl⟩ | ⟨r, hr⟩
  · exact hP1
  · exact hwatch _ _ _ _ r hP1 (Or.inr rfl) hfd1 hr

theorem init_owner_ne_conn {iSvrFd iUSockFd : Int32} {stServaddr : SockAddrIn}
    {unset : Int32 → SockAddrIn} {arrMsg : Int32 → MsgBuf} {owner : Int32 → Option FdOwner}
    {queues : Int32 → List QMsg} (howner : ∀ fd c, owner fd ≠ some (FdOwner.conn c))
    (fd : Int32) (c : Nat) :
    (Reactor.init iSvrFd iUSockFd stServaddr unset arrMsg owner queues).kernel.owner fd ≠
      some (.conn c) := by
  dsimp only [Reactor.init]
  by_cases h1 : fd = iUSockFd
  · simp [h1]
  · by_cases h2 : fd = iSvrFd
    · rw [Function.update_of_ne h1, h2]; simp
    · simpa [h1, h2] using howner fd c

theorem wired_init {iSvrFd iUSockFd : Int32} {stServaddr : SockAddrIn}
    {unset : Int32 → SockAddrIn} {arrMsg : Int32 → MsgBuf} {owner : Int32 → Option FdOwner}
    {queues : Int32 → List QMsg} (howner : ∀ fd c, owner fd ≠ some (FdOwner.conn c)) :
    Wired (Reactor.init iSvrFd iUSockFd stServaddr unset arrMsg owner queues) :=
  ⟨fun _ hreg => absurd rfl hreg, fun fd c ho => absurd ho (init_owner_ne_conn howner fd c),
    fun fd c ho => absurd ho (init_owner_ne_conn howner fd c),
    fun fd _ c ho => absurd ho (init_owner_ne_conn howner fd c)⟩

theorem wired_start {s : Reactor} (h : NetioStart s) : Wired s :=
  h.induct (fun _ _ _ _ _ _ _ _ howner => wired_init howner)
    (fun _ _ _ _ _ hw _ hfd h => wired_addToWatchList hw (fun _ => hfd) h)

theorem wired_reach {ok : Reactor → NetioLabel → Prop} {s : Reactor} (h : netio.Reach ok s) :
    Wired s :=
  h.invariant (fun _ => wired_start) (fun _ _ _ hw _ hs => wired_step hw hs)

/-- An invariant of the event loop, proved with the wiring at hand. -/
theorem netio_invariant {ok : Reactor → NetioLabel → Prop} {P : Reactor → Prop} {s : Reactor}
    (hinit : ∀ s, NetioStart s → P s)
    (hstep : ∀ s l s', Wired s → P s → ok s l → StepCase s l s' → P s') (h : netio.Reach ok s) :
    P s := by
  refine (h.invariant (I := fun s => Wired s ∧ P s) (fun s hs => ⟨wired_start hs, hinit s hs⟩) ?_).2
  intro s l s' hP hok hs
  exact ⟨wired_step hP.1 hs, hstep s l s' hP.1 hP.2 hok (netio_step_case hP.1 hs)⟩

/-- Every member of an epoll set has an entry in m_arrTcpSock. -/
def Indexed (epoll : Int32 → Option UInt32) : Prop :=
  ∀ fd, epoll fd ≠ none → inArray MAX_EPOLL_EVENT_NUM fd = true

theorem Indexed.addToWatchList {s s' : Reactor} {fd : Int32} {op : EventFlag} {pData : WatchData}
    {chk : Bool} {r : Int32} (hs : Indexed s.kernel.epoll)
    (hadd : s.addToWatchList fd op pData chk = .ok (r, s')) : Indexed s'.kernel.epoll := by
  intro x hx
  obtain ⟨_, _, _, _, hepoll, _⟩ := addToWatchList_frame hadd
  by_cases he : x = fd
  · rw [he]
    exact (addToWatchList_cases hadd).1
  · exact hs x (hepoll x he ▸ hx)

theorem Indexed.unwatch {epoll : Int32 → Option UInt32} (hs : Indexed epoll) (fd : Int32) :
    Indexed (Function.update epoll fd none) := by
  intro x hx
  by_cases he : x = fd
  · simp [he] at hx
  · rw [Function.update_of_ne he] at hx
    exact hs x hx

theorem Indexed.accepted {s : Reactor} {fd : Int32} (hs : Indexed s.kernel.epoll) (addr : SockAddrIn)
    (hfd : inArray MAX_EPOLL_EVENT_NUM fd = true) : Indexed (s.accepted fd addr).kernel.epoll := by
  intro x hx
  by_cases he : x = fd
  · rwa [he]
  · exact hs x (accepted_epoll addr he ▸ hx)

theorem indexed_step {s s' : Reactor} {l : NetioLabel} (hw : Wired s) (hs : Indexed s.kernel.epoll)
    (h : StepCase s l s') : Indexed s'.kernel.epoll := by
  cases h with
  | accepts hconn =>
    refine (doConn_preserves (P := fun s => Wired s ∧ Indexed s.kernel.epoll)
      (fun _ _ hP => hP.1.unregistered) ?_ ?_ ⟨hw, hs⟩ hconn).2
    · exact fun s fd hP _ => ⟨wired_dropped hP.1, hP.2.unwatch fd⟩
    · exact fun s fd addr hP _ hfd => ⟨wired_accepted hP.1, hP.2.accepted addr hfd⟩
  | idle => exact hs
  | look => exact hs
  | hangup => exact hs.unwatch _
  | lost => exact hs.unwatch _
  | recv =>
    rw [(asked_frame s _ _ _ _).2.1]
    exact hs
  | send => exact hs.unwatch _
  | nothing => exact hs
  | @respond f origin q _ _ _ _ _ _ _ _ hadd =>
    refine Indexed.addToWatchList (s := s.received q _ _ f origin) ?_ hadd
    cases f <;> exact hs
  | others => exact hs

/-- Every member of the epoll set has an entry in m_arrTcpSock. -/
theorem registered_inArray {ok : Reactor → NetioLabel → Prop} {s : Reactor} (h : netio.Reach ok s) :
    ∀ fd, s.kernel.epoll fd ≠ none → inArray MAX_EPOLL_EVENT_NUM fd = true := by
  refine netio_invariant (P := fun s => Indexed s.kernel.epoll) ?_ ?_ h
  · intro s hs
    refine hs.induct (P := fun s => Indexed s.kernel.epoll) ?_ ?_
    · exact fun _ _ _ _ _ _ _ _ _ fd hreg => absurd rfl hreg
    · exact fun s s' fd op r hs _ _ hadd => hs.addToWatchList hadd
  · exact fun s l s' hw hs _ hcase => indexed_step hw hs hcase

/-- The test of `enabled`. -/
def NetioLabel.isEnabled (s : Reactor) : NetioLabel → Bool
  | .event fd _ _ => (s.kernel.epoll fd).isSome
  | .response _ none => true
  | .response _ (some c) =>
    s.kernel.log.any fun e =>
      match e with
      | .msgsnd (some (.conn id)) _ _ => id == c
      | _ => false
  | .others _ => true

theorem isEnabled_enabled {s : Reactor} {l : NetioLabel} (h : l.isEnabled s = true) : l.enabled s := by
  cases l with
  | event fd => exact Option.isSome_iff_ne_none.mp h
  | response rcvFailed origin =>
    intro c hc
    subst hc
    obtain ⟨e, he, hm⟩ := List.any_eq_true.mp h
    split at hm
    next id key text =>
      obtain rfl : id = c := by simpa using hm
      exact ⟨key, text, he⟩
    next => contradiction
  | others => trivial

section

variable (ok : Reactor → NetioLabel → Prop) [∀ s l, Decidable (ok s l)]

/-- A run that stops short at a step that is not enabled or not `ok`. -/
def runLabels (s : Reactor) (ls : List NetioLabel) : Option Reactor :=
  Machine.follow netioStep (fun s l => l.isEnabled s && decide (ok s l)) s ls

theorem runLabels_reach {s s' : Reactor} {ls : List NetioLabel} (hs : netio.Reach ok s)
    (h : runLabels ok s ls = some s') : netio.Reach ok s' := by
  refine hs.follow ?_ h
  intro s l s' hallowed hstep
  obtain ⟨hen, hok⟩ := Bool.and_eq_true_iff.mp hallowed
  exact ⟨of_decide_eq_true hok, isEnabled_enabled hen, hstep⟩

end

/-- A netio whose server socket is 3 and whose unix socket is 4. -/
def sampleInit : Reactor :=
  let unset : SockAddrIn := ⟨0, 0, ⟨0, 0, 0, 0⟩⟩
  Reactor.init 3 4 { unset with sin_family := 2 } (fun _ => unset) (fun _ => MsgBuf.reset)
    (fun fd => if 0 ≤ fd ∧ fd < 3 then some .other else none) (fun _ => [])

theorem sampleInit_start {s : Reactor} (h : sampleInit.runEventLoop = .ok s) : NetioStart s := by
  refine ⟨⟨_, _, _, _, _, _, _, by decide, ?_, h⟩⟩
  intro fd c
  split <;> simp

def sampleRun (ok : Reactor → NetioLabel → Prop) [∀ s l, Decidable (ok s l)] (ls : List NetioLabel) :
    Option Reactor :=
  match sampleInit.runEventLoop with
  | .ok s => runLabels ok s ls
  | .error _ => none

theorem sampleRun_reach (ok : Reactor → NetioLabel → Prop) [∀ s l, Decidable (ok s l)]
    (ls : List NetioLabel) (p : Reactor → Bool) (h : (sampleRun ok ls).any p = true) :
    ∃ s, netio.Reach ok s ∧ p s = true := by
  obtain ⟨s, hs, hp⟩ := (Option.any_eq_true _ _).mp h
  refine ⟨s, ?_, hp⟩
  unfold sampleRun at hs
  split at hs
  next s0 hstart => exact runLabels_reach ok (.init (sampleInit_start hstart)) hs
  next => contradiction

end NetioMiddleware

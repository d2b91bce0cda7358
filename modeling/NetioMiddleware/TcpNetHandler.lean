import NetioMiddleware.Reactor
import NetioMiddleware.Machine

namespace NetioMiddleware

/-- One answer of accept that does not say EAGAIN: a new connection, with what
the two fcntl calls on it return, or another error. -/
inductive AcceptOutcome
  | conn (iConnfd : Int32) (stCliAddr : SockAddrIn) (getfl setfl : Bool)
  | error

/-- What the system calls made while one epoll event is handled return:
the answers of accept before EAGAIN, the bytes of read (none for an error, no
byte at the end of the file), and whether msgsnd finds room. -/
structure Outcomes where
  accepts : List AcceptOutcome := []
  read : Option Bytes := none
  sent : Bool := true

namespace Reactor

def doConn (s : Reactor) (iConn : Int32) : List AcceptOutcome → Except Halt Reactor
  | [] => .ok s
  | .error :: _ => .ok s
  | .conn iConnfd stCliAddr getfl setfl :: rest =>
    if iConnfd.toInt < 0 ∨ s.kernel.owner iConnfd ≠ none then .error .impossible
    else
      let s := { s with kernel := s.kernel.accept iConnfd }
      if getfl = false ∨ setfl = false then .ok { s with kernel := s.kernel.close iConnfd }
      else if inArray MAX_EPOLL_EVENT_NUM iConnfd = false then .error .sockIndex
      else
        match (s.setItem iConnfd ⟨iConnfd, .TCP_SERVER_READ, stCliAddr⟩).addToWatchList
            iConnfd .TCP_SERVER_READ .own true with
        | .error e => .error e
        | .ok (_, s) => doConn s iConn rest

/-- The command DoRecv puts into a queue: the client's parameters under the
connection's own descriptor and address. -/
def stampCmd (s : Reactor) (iConn : Int32) (buf : Bytes) : CCmd :=
  let stAddr := (s.m_arrTcpSock iConn).stSockAddr_in
  { initCCmd {} buf with
    iFd := iConn
    ifamily := Int32.ofNat stAddr.sin_family.toNat
    sClientIp := inetNtoa stAddr.sin_addr
    iPort := Int32.ofNat stAddr.sin_port.toNat
    iType := REQUEST }

def setFlag (s : Reactor) (iConn : Int32) (enEventFlag : EventFlag) : Reactor :=
  s.setItem iConn { s.m_arrTcpSock iConn with enEventFlag := enEventFlag }

def doRecv (s : Reactor) (iConn : Int32) (read : Option Bytes) (sent : Bool) :
    Except Halt Reactor :=
  let s := { s with
    kernel := (s.kernel.record (.incr (bytes "netio_0") 1)).record (.read (s.kernel.owner iConn)) }
  match read with
  | none => .ok { s with kernel := s.kernel.close iConn }
  | some [] => .ok { s with kernel := s.kernel.close iConn }
  | some (c :: rest) =>
    if 1000 < (c :: rest).length then .error .impossible
    else if (c :: rest).length = 1000 ∧ 0 ∉ c :: rest then .error .unterminatedBuf
    else if (initCCmd {} (c :: rest)).iCmd = 0 then .error .assertFailed
    else
      match routeCmd (initCCmd {} (c :: rest)).iCmd with
      | none => .error .unassignedQueue
      | some key =>
        if inArray MAX_EPOLL_EVENT_NUM iConn = false then .error .sockIndex
        else
          let stMsg := (MsgBuf.reset.withType REQUEST.toInt).printCmd (s.stampCmd iConn (c :: rest))
          let s := { s with kernel := (s.kernel.msgsnd iConn key stMsg sent).2 }
          .ok (s.setFlag iConn .TCP_SERVER_SEND)

def doClose (s : Reactor) (iConn : Int32) : Except Halt Reactor :=
  if inArray MAX_EPOLL_EVENT_NUM iConn = false then .error .sockIndex
  else
    let s := s.setItem iConn (s.m_arrTcpSock iConn).reset
    let s := (s.removeFromWatchList iConn).2
    .ok { s with kernel := s.kernel.close iConn }

def doSend (s : Reactor) (iConn : Int32) : Except Halt Reactor :=
  if inArray MAX_MSG_SIZE iConn = false then .error .msgIndex
  else if 0 ∉ (s.m_arrMsg iConn).sBuf then .error .unterminatedBuf
  else
    { s with kernel :=
        s.kernel.record (.write (s.kernel.owner iConn) (s.m_arrMsg iConn).text) }.doClose iConn

/-- CTcpNetHandler::HandleEvent. -/
def handleEvent (s : Reactor) (iConn : Int32) (iType : EventFlag) (out : Outcomes) :
    Except Halt Reactor :=
  match iType with
  | .TCP_SERVER_ACCEPT => s.doConn iConn out.accepts
  | .TCP_SERVER_READ => s.doRecv iConn out.read out.sent
  | .TCP_SERVER_SEND => s.doSend iConn
  | .TCP_SERVER_CLOSE => s.doClose iConn
  | _ => .ok s

/-- CUSockUdpHandler::HandleEvent: the datagram is only printed. -/
def usockHandleEvent (s : Reactor) (iConn : Int32) (iType : EventFlag) : Reactor :=
  match iType with
  | .UDP_READ => { s with kernel := s.kernel.record (.read (s.kernel.owner iConn)) }
  | _ => s

/-- The body of ProcessEvent's loop for one ready descriptor, whose data.ptr is
its entry of m_arrTcpSock. -/
def processItem (s : Reactor) (fd : Int32) (events : UInt32) (out : Outcomes) :
    Except Halt Reactor :=
  let stItem := s.m_arrTcpSock fd
  if events &&& EPOLLRDHUP = EPOLLRDHUP then
    if stItem.enEventFlag ≠ .UDP_READ ∨ stItem.enEventFlag ≠ .UDP_SEND then
      s.handleEvent stItem.fd .TCP_SERVER_CLOSE out
    else .ok s
  else if stItem.fd = s.m_iSvrFd then s.handleEvent s.m_iSvrFd stItem.enEventFlag out
  else if stItem.enEventFlag = .TCP_SERVER_READ then s.handleEvent stItem.fd stItem.enEventFlag out
  else if stItem.enEventFlag = .UDP_READ then .ok (s.usockHandleEvent stItem.fd stItem.enEventFlag)
  else if stItem.enEventFlag = .TCP_SERVER_SEND then s.handleEvent stItem.fd stItem.enEventFlag out
  else .ok s

end Reactor

/-- The three results of OnEventFire's GetMsg: its return value, Len and stMsg.
A msgrcv that fails for another reason than an empty queue leaves both as they were. -/
def takeResponse (k : Kernel) (rcvFailed : Bool) : Int32 × Nat × MsgBuf × Kernel :=
  let stMsg := MsgBuf.reset.withType RESPONSE.toInt
  if rcvFailed then (RECV_MSG_FAILED, 0, stMsg, k)
  else
    let got := getMsg (k.queues NET_IO_BACK_MSQ_KEY) stMsg
    (0, got.1, got.2.1, k.setQueues (Function.update k.queues NET_IO_BACK_MSQ_KEY got.2.2))

/-- The item OnEventFire builds for the descriptor and address a response carries. -/
def responseSock (oCmd : CCmd) : TcpSockItem where
  fd := oCmd.iFd
  enEventFlag := .TCP_SERVER_SEND
  stSockAddr_in :=
    { sin_family := UInt16.ofInt oCmd.ifamily.toInt
      sin_port := UInt16.ofInt oCmd.iPort.toInt
      sin_addr := inetAddr oCmd.sClientIp }

namespace Reactor

/-- CNetIOUserEventHandler::OnEventFire. -/
def onEventFire (s : Reactor) (rcvFailed : Bool) (origin : Option Nat) : Except Halt Reactor :=
  match takeResponse s.kernel rcvFailed with
  | (iRet, len, stMsg, k) =>
    if iRet = 0 ∧ len = 0 then .ok { s with kernel := k }
    else
      let oCmd := initCCmd {} stMsg.sBuf
      let stMsg := stMsg.print (cStr oCmd.sData)
      if inArray MAX_MSG_SIZE oCmd.iFd = false then .error .msgIndex
      else
        let s := { s with
          m_arrMsg := Function.update s.m_arrMsg oCmd.iFd stMsg
          kernel := if iRet = 0 then k.record (.msgrcv origin stMsg.text) else k }
        match s.addToWatchList oCmd.iFd .TCP_SERVER_SEND (.item (responseSock oCmd)) true with
        | .error e => .error e
        | .ok (_, s) => .ok s

/-- What DoConn makes of a new connection: registered, unless the vector still
holds its descriptor. -/
def accepted (s : Reactor) (fd : Int32) (stCliAddr : SockAddrIn) : Reactor :=
  if fd ∈ s.m_vecFds then
    { s.setItem fd ⟨fd, .TCP_SERVER_READ, stCliAddr⟩ with kernel := s.kernel.accept fd }
  else
    { s.setItem fd ⟨fd, .TCP_SERVER_READ, stCliAddr⟩ with
      kernel := (s.kernel.accept fd).watch fd (some (eventMask .TCP_SERVER_READ))
      m_iEvents := s.m_iEvents + 1
      m_vecFds := s.m_vecFds ++ [fd] }

/-- What DoClose leaves. -/
def closed (s : Reactor) (fd : Int32) : Reactor :=
  { s.setItem fd (s.m_arrTcpSock fd).reset with
    m_vecFds := if s.kernel.epoll fd = none then s.m_vecFds else s.m_vecFds.erase fd
    m_iEvents :=
      s.m_iEvents - if s.kernel.epoll fd ≠ none ∧ fd ∈ s.m_vecFds then 1 else 0
    kernel := s.kernel.close fd }

/-- What DoConn leaves of a connection fcntl fails on. -/
def dropped (s : Reactor) (fd : Int32) : Reactor :=
  { s with kernel := (s.kernel.accept fd).close fd }

/-- The calls DoRecv makes before it looks at the bytes. -/
def recvKernel (s : Reactor) (fd : Int32) : Kernel :=
  (s.kernel.record (.incr (bytes "netio_0") 1)).record (.read (s.kernel.owner fd))

/-- What DoRecv leaves of a connection it reads no byte from. -/
def lost (s : Reactor) (fd : Int32) : Reactor := { s with kernel := (s.recvKernel fd).close fd }

/-- What DoRecv leaves of a connection it reads a request from. -/
def asked (s : Reactor) (fd key : Int32) (buf : Bytes) (sent : Bool) : Reactor :=
  let stMsg := (MsgBuf.reset.withType REQUEST.toInt).printCmd (s.stampCmd fd buf)
  { s with kernel := ((s.recvKernel fd).msgsnd fd key stMsg sent).2 }.setFlag fd .TCP_SERVER_SEND

def written (s : Reactor) (fd : Int32) : Reactor :=
  { s with kernel := s.kernel.record (.write (s.kernel.owner fd) (s.m_arrMsg fd).text) }

/-- What DoSend leaves. -/
def answered (s : Reactor) (fd : Int32) : Reactor := (s.written fd).closed fd

end Reactor

theorem close_watch (k : Kernel) (fd : Int32) (events : Option UInt32) :
    (k.watch fd events).close fd = k.close fd := by
  simp [Kernel.watch, Kernel.close]

theorem doClose_eq {s s' : Reactor} {fd : Int32} (h : s.doClose fd = .ok s') : s' = s.closed fd := by
  unfold Reactor.doClose at h
  split at h
  next => contradiction
  next =>
    cases Except.ok.inj h
    rw [removeFromWatchList_eq]
    by_cases hreg : s.kernel.epoll fd = none
    · simp [Reactor.setItem, Reactor.closed, hreg]
    · by_cases hm : fd ∈ s.m_vecFds
      · simp [Reactor.setItem, Reactor.closed, hreg, hm, close_watch]
      · simp [Reactor.setItem, Reactor.closed, hreg, hm, close_watch]

theorem doSend_eq {s s' : Reactor} {fd : Int32} (h : s.doSend fd = .ok s') :
    s' = s.answered fd := by
  unfold Reactor.doSend at h
  split at h
  next => contradiction
  next =>
    split at h
    next => contradiction
    next => exact doClose_eq h

/-- DoRecv closes the descriptor, or offers one message to a service queue and
turns the entry to sending. -/
theorem doRecv_cases {s s' : Reactor} {fd : Int32} {read : Option Bytes} {sent : Bool}
    (h : s.doRecv fd read sent = .ok s') :
    ((read = none ∨ read = some []) ∧ s' = s.lost fd) ∨
    ∃ buf key, read = some buf ∧ buf ≠ [] ∧ routeCmd (initCCmd {} buf).iCmd = some key ∧
      s' = s.asked fd key buf sent := by
  unfold Reactor.doRecv at h
  split at h
  next => exact Or.inl ⟨Or.inl rfl, (Except.ok.inj h).symm⟩
  next => exact Or.inl ⟨Or.inr rfl, (Except.ok.inj h).symm⟩
  next c rest =>
    split at h
    next => cases h
    next =>
      split at h
      next => cases h
      next =>
        split at h
        next => cases h
        next =>
          split at h
          next => cases h
          next key hkey =>
            split at h
            next => cases h
            next => exact Or.inr ⟨c :: rest, key, rfl, by simp, hkey, (Except.ok.inj h).symm⟩

theorem accept_watched {s s' : Reactor} {fd : Int32} {addr : SockAddrIn} {r : Int32}
    (hreg : s.kernel.epoll fd = none)
    (h : ({ s with kernel := s.kernel.accept fd }.setItem fd
      ⟨fd, .TCP_SERVER_READ, addr⟩).addToWatchList fd .TCP_SERVER_READ .own true = .ok (r, s')) :
    s' = s.accepted fd addr := by
  by_cases hm : fd ∈ s.m_vecFds
  · obtain ⟨_, ⟨_, _, rfl⟩ | ⟨hvalid, _⟩⟩ := addToWatchList_cases h
    · simp [Reactor.accepted, Reactor.setItem, hm]
    · have hvalid := hvalid rfl
      simp [Reactor.sockValid, Reactor.setItem, hm] at hvalid
  · obtain ⟨_, ⟨_, hvalid, _⟩ | ⟨_, ⟨_, hfail⟩ | ⟨hin, _⟩ | ⟨_, _, _, rfl⟩⟩⟩ := addToWatchList_cases h
    · simp [Reactor.sockValid, Reactor.setItem, hm] at hvalid
    · simp [Reactor.setItem, Kernel.accept, hm, hreg] at hfail
    · exact absurd hin hm
    · simp [Reactor.accepted, Reactor.setItem, Reactor.storeItem, hm]

theorem accepted_frame (s : Reactor) (fd : Int32) (addr : SockAddrIn) :
    (s.accepted fd addr).kernel.owner =
        Function.update s.kernel.owner fd (some (.conn s.kernel.accepted)) ∧
      (s.accepted fd addr).kernel.accepted = s.kernel.accepted + 1 ∧
      (s.accepted fd addr).kernel.log = s.kernel.log ++ [.accept s.kernel.accepted fd] ∧
      (s.accepted fd addr).m_arrTcpSock =
        Function.update s.m_arrTcpSock fd ⟨fd, .TCP_SERVER_READ, addr⟩ ∧
      (s.accepted fd addr).m_arrMsg = s.m_arrMsg := by
  unfold Reactor.accepted
  split <;> exact ⟨rfl, rfl, rfl, rfl, rfl⟩

theorem accepted_rest (s : Reactor) (fd : Int32) (addr : SockAddrIn) :
    (s.accepted fd addr).m_iSvrFd = s.m_iSvrFd ∧ (s.accepted fd addr).m_iUSockFd = s.m_iUSockFd ∧
      (s.accepted fd addr).kernel.queues = s.kernel.queues := by
  unfold Reactor.accepted
  split <;> exact ⟨rfl, rfl, rfl⟩

theorem accepted_epoll {s : Reactor} {fd x : Int32} (addr : SockAddrIn) (hx : x ≠ fd) :
    (s.accepted fd addr).kernel.epoll x = s.kernel.epoll x := by
  unfold Reactor.accepted
  split
  next => rfl
  next => exact Function.update_of_ne hx _ _

theorem dropped_owner (s : Reactor) (fd : Int32) :
    (s.dropped fd).kernel.owner = Function.update s.kernel.owner fd none := by
  simp [Reactor.dropped, Kernel.close, Kernel.accept]

theorem dropped_log (s : Reactor) (fd : Int32) :
    (s.dropped fd).kernel.log = s.kernel.log ++
      [.accept s.kernel.accepted fd, .close (some (.conn s.kernel.accepted))] := by
  simp [Reactor.dropped, Kernel.close, Kernel.accept]

/-- The accept loop keeps whatever a connection that is closed again and a
connection that is kept both keep. -/
theorem doConn_keeps {P : Reactor → Prop} {Q : Int32 → Prop}
    (hreg : ∀ s fd, P s → s.kernel.owner fd = none → s.kernel.epoll fd = none)
    (hdrop : ∀ s fd, P s → s.kernel.owner fd = none → P (s.dropped fd))
    (hkeep : ∀ s fd addr, P s → s.kernel.owner fd = none → inArray MAX_EPOLL_EVENT_NUM fd = true → Q fd →
      P (s.accepted fd addr))
    {s s' : Reactor} {iConn : Int32} {l : List AcceptOutcome}
    (hl : ∀ fd addr, AcceptOutcome.conn fd addr true true ∈ l → Q fd) (hP : P s)
    (h : s.doConn iConn l = .ok s') : P s' := by
  induction l generalizing s with
  | nil => cases Except.ok.inj h; exact hP
  | cons o l ih =>
    cases o with
    | error => cases Except.ok.inj h; exact hP
    | conn fd addr getfl setfl =>
      unfold Reactor.doConn at h
      split at h
      next => contradiction
      next hfree =>
        have hfree : s.kernel.owner fd = none := by
          by_contra ho
          exact hfree (Or.inr ho)
        dsimp only at h
        split at h
        next =>
          cases Except.ok.inj h
          exact hdrop s fd hP hfree
        next hflags =>
          split at h
          next => contradiction
          next hin =>
            split at h
            next => contradiction
            next r s1 hwatch =>
              have hs1 := accept_watched (hreg s fd hP hfree) hwatch
              obtain ⟨rfl, rfl⟩ : getfl = true ∧ setfl = true := by simpa using hflags
              have hQ := hl fd addr List.mem_cons_self
              refine ih (fun fd addr hm => hl fd addr (List.mem_cons_of_mem _ hm)) ?_ h
              exact hs1 ▸ hkeep s fd addr hP hfree (by simpa using hin) hQ

theorem doConn_preserves {P : Reactor → Prop}
    (hreg : ∀ s fd, P s → s.kernel.owner fd = none → s.kernel.epoll fd = none)
    (hdrop : ∀ s fd, P s → s.kernel.owner fd = none → P (s.dropped fd))
    (hkeep : ∀ s fd addr, P s → s.kernel.owner fd = none → inArray MAX_EPOLL_EVENT_NUM fd = true →
      P (s.accepted fd addr))
    {s s' : Reactor} {iConn : Int32} {l : List AcceptOutcome} (hP : P s)
    (h : s.doConn iConn l = .ok s') : P s' :=
  doConn_keeps (Q := fun _ => True) hreg hdrop (fun s fd addr hP hfree hin _ => hkeep s fd addr hP hfree hin)
    (fun _ _ _ => trivial) hP h

end NetioMiddleware

import NetioMiddleware.Traffic

namespace NetioMiddleware

def CREATE_SOCKET_FAILED : Int32 := 9
def SET_SOCKOPT_FAILED : Int32 := 10
def BIND_SOCKET_FAILED : Int32 := 11
def LISTEN_SOCKET_FAILED : Int32 := 12
def EPOLL_CREATE_FAILED : Int32 := 14
def CREATE_USOCK_FAILED : Int32 := 17
def SET_USOCKOPT_FAILED : Int32 := 18
def BIND_USOCKET_FAILED : Int32 := 19

def AF_INET : UInt16 := 2

def htons (x : UInt16) : UInt16 := (x <<< 8) ||| (x >>> 8)

/-- umask(S_IRWXO). -/
def S_IRWXO : UInt32 := 7

/-- What the system calls of InitTcpSvr return. -/
structure TcpCalls where
  socket : Int32
  reuseaddr : Int32
  bind : Int32
  linger : Int32
  listen : Int32
  getfl : Int32
  setfl : Int32

/-- What those of InitUSockUdpSvr return. -/
structure USockCalls where
  socket : Int32
  reuseaddr : Int32
  bind : Int32
  getfl : Int32
  setfl : Int32

structure InitCalls where
  tcp : TcpCalls
  usock : USockCalls
  epollCreate : Int32
  enosys : Bool

/-- The code of the first check that fails. -/
def firstFailure (checks : List (Bool × Int32)) : Option Int32 :=
  (checks.find? (fun check => check.1)).map (fun check => check.2)

namespace TcpCalls

/-- The checks of InitTcpSvr behind socket, each of which closes the socket. -/
def failure (c : TcpCalls) : Option Int32 :=
  firstFailure [(c.reuseaddr < 0, SET_SOCKOPT_FAILED), (c.bind ≠ 0, BIND_SOCKET_FAILED),
    (c.linger < 0, SET_SOCKOPT_FAILED), (c.listen < 0, LISTEN_SOCKET_FAILED),
    (c.getfl = -1, FCNTL_SOCKET_FAILED), (c.setfl < 0, FCNTL_SOCKET_FAILED)]

end TcpCalls

namespace USockCalls

/-- The checks of InitUSockUdpSvr made while the umask is changed. -/
def masked (c : USockCalls) : Option Int32 :=
  firstFailure [(c.reuseaddr < 0, SET_USOCKOPT_FAILED), (c.bind ≠ 0, BIND_USOCKET_FAILED)]

/-- Those made once it is restored. -/
def restored (c : USockCalls) : Option Int32 :=
  firstFailure [(c.getfl = -1, FCNTL_SOCKET_FAILED), (c.setfl < 0, FCNTL_SOCKET_FAILED)]

end USockCalls

/-- The reactor while Init sets it up, with its epoll descriptor, which the
constructor leaves alone, and the umask of the process. -/
structure Booting where
  reactor : Reactor
  m_iEpFd : Option Int32
  umask : UInt32

/-- CReactor::CReactor. -/
def Reactor.new (unset : Int32 → SockAddrIn) (arrMsg : Int32 → MsgBuf) (owner : Int32 → Option FdOwner)
    (queues : Int32 → List QMsg) : Reactor where
  m_vecFds := []
  m_iSvrFd := 0
  m_iUSockFd := 0
  m_iEvents := 0
  m_arrTcpSock := fun fd => ⟨0, .NONE_FLAG, unset fd⟩
  m_arrMsg := arrMsg
  kernel := ⟨owner, fun _ => none, queues, 0, []⟩

namespace Reactor

def setOwner (s : Reactor) (fd : Int32) (who : Option FdOwner) : Reactor :=
  { s with kernel := { s.kernel with owner := Function.update s.kernel.owner fd who } }

end Reactor

namespace Booting

/-- The address InitTcpSvr binds. -/
def servaddr (iTcpSvrPort : Int32) : SockAddrIn :=
  ⟨AF_INET, htons (UInt16.ofInt iTcpSvrPort.toInt), ⟨0, 0, 0, 0⟩⟩

def initTcpSvr (s : Booting) (iTcpSvrPort : Int32) (c : TcpCalls) : Except Halt (Int32 × Booting) :=
  let r := { s.reactor with m_iSvrFd := c.socket }
  if c.socket < 0 then .ok (CREATE_SOCKET_FAILED, { s with reactor := r })
  else
    match c.failure with
    | some iRet => .ok (iRet, { s with reactor := r.setOwner c.socket none })
    | none =>
      if inArray MAX_EPOLL_EVENT_NUM c.socket = false then .error .sockIndex
      else
        .ok (0, { s with
          reactor := (r.setOwner c.socket (some .listener)).setItem c.socket
            ⟨c.socket, .TCP_SERVER_ACCEPT, servaddr iTcpSvrPort⟩ })

/-- The item's address is not set. -/
def initUSockUdpSvr (s : Booting) (unset : SockAddrIn) (c : USockCalls) : Except Halt (Int32 × Booting) :=
  let r := { s.reactor with m_iUSockFd := c.socket }
  if c.socket < 0 then .ok (CREATE_USOCK_FAILED, { s with reactor := r })
  else
    match c.masked with
    | some iRet => .ok (iRet, { s with reactor := r.setOwner c.socket none, umask := S_IRWXO })
    | none =>
      match c.restored with
      | some iRet => .ok (iRet, { s with reactor := r.setOwner c.socket none })
      | none =>
        if inArray MAX_EPOLL_EVENT_NUM c.socket = false then .error .sockIndex
        else
          .ok (0, { s with
            reactor := (r.setOwner c.socket (some .usock)).setItem c.socket
              ⟨c.socket, .UDP_READ, unset⟩ })

/-- CReactor::Init: without a port there is no server socket, and without a path
no unix socket. -/
def init (s : Booting) (iTcpSvrPort : Int32) (pszUSockPath : Bool) (unset : SockAddrIn) (c : InitCalls) :
    Except Halt (Int32 × Booting) :=
  match if iTcpSvrPort ≠ 0 then s.initTcpSvr iTcpSvrPort c.tcp else .ok (0, s) with
  | .error e => .error e
  | .ok (iRet, s) =>
    if iRet ≠ 0 then .ok (iRet, s)
    else
      match if pszUSockPath then s.initUSockUdpSvr unset c.usock else .ok (0, s) with
      | .error e => .error e
      | .ok (iRet, s) =>
        if iRet ≠ 0 then .ok (iRet, s)
        else if c.epollCreate = -1 then
          if c.enosys then .error .assertFailed
          else .ok (EPOLL_CREATE_FAILED, { s with m_iEpFd := some c.epollCreate })
        else .ok (0, { s with m_iEpFd := some c.epollCreate })

end Booting

theorem firstFailure_mem {checks : List (Bool × Int32)} {iRet : Int32} (h : firstFailure checks = some iRet) :
    ∃ check ∈ checks, check.2 = iRet := by
  obtain ⟨check, hfind, hcode⟩ := Option.map_eq_some_iff.mp h
  exact ⟨check, List.mem_of_find?_eq_some hfind, hcode⟩

/-- Every check has a code of its own part, and none is 0. -/
theorem failure_ne_zero {c : TcpCalls} {iRet : Int32} (h : c.failure = some iRet) : iRet ≠ 0 := by
  obtain ⟨check, hmem, rfl⟩ := firstFailure_mem h
  simp only [List.mem_cons, List.not_mem_nil, or_false] at hmem
  rcases hmem with rfl | rfl | rfl | rfl | rfl | rfl <;> exact of_decide_eq_true rfl

theorem masked_ne_zero {c : USockCalls} {iRet : Int32} (h : c.masked = some iRet) : iRet ≠ 0 := by
  obtain ⟨check, hmem, rfl⟩ := firstFailure_mem h
  simp only [List.mem_cons, List.not_mem_nil, or_false] at hmem
  rcases hmem with rfl | rfl <;> exact of_decide_eq_true rfl

theorem restored_ne_zero {c : USockCalls} {iRet : Int32} (h : c.restored = some iRet) : iRet ≠ 0 := by
  obtain ⟨check, hmem, rfl⟩ := firstFailure_mem h
  simp only [List.mem_cons, List.not_mem_nil, or_false] at hmem
  rcases hmem with rfl | rfl <;> exact of_decide_eq_true rfl

/-- InitTcpSvr leaves a listening socket. -/
def TcpCalls.Opens (c : TcpCalls) : Prop := ¬c.socket < 0 ∧ c.failure = none

/-- InitUSockUdpSvr leaves a bound socket. -/
def USockCalls.Opens (c : USockCalls) : Prop := ¬c.socket < 0 ∧ c.masked = none ∧ c.restored = none

instance (c : TcpCalls) : Decidable c.Opens := inferInstanceAs (Decidable (_ ∧ _))

instance (c : USockCalls) : Decidable c.Opens := inferInstanceAs (Decidable (_ ∧ _ ∧ _))

/-- The reactor after a part of Init that has failed, whose socket is closed
again: all but the numbers of the two descriptors is as before. -/
structure SameBut (r r' : Reactor) : Prop where
  kernel : r'.kernel = r.kernel
  items : r'.m_arrTcpSock = r.m_arrTcpSock
  fds : r'.m_vecFds = r.m_vecFds

theorem sameBut_closed {r r' : Reactor} {fd : Int32} (h : SameBut r r') (hfree : r.kernel.owner fd = none) :
    SameBut r (r'.setOwner fd none) := by
  have hsame : Function.update r.kernel.owner fd none = r.kernel.owner := by
    rw [← hfree, Function.update_eq_self]
  refine ⟨?_, h.items, h.fds⟩
  dsimp only [Reactor.setOwner]
  rw [h.kernel, hsame]

section

variable {s s' : Booting} {iRet : Int32}

theorem initTcpSvr_cases {iTcpSvrPort : Int32} {c : TcpCalls}
    (hfree : s.reactor.kernel.owner c.socket = none) (h : s.initTcpSvr iTcpSvrPort c = .ok (iRet, s')) :
    (c.Opens ∧ iRet = 0 ∧ s' = { s with
      reactor := ({ s.reactor with m_iSvrFd := c.socket }.setOwner c.socket (some .listener)).setItem
        c.socket ⟨c.socket, .TCP_SERVER_ACCEPT, Booting.servaddr iTcpSvrPort⟩ }) ∨
    (¬c.Opens ∧ iRet ≠ 0 ∧ SameBut s.reactor s'.reactor ∧ s'.m_iEpFd = s.m_iEpFd ∧
      s'.umask = s.umask) := by
  unfold Booting.initTcpSvr at h
  dsimp only at h
  split at h
  next hsocket =>
    cases Except.ok.inj h
    exact Or.inr ⟨fun ho => ho.1 hsocket, by decide, ⟨rfl, rfl, rfl⟩, rfl, rfl⟩
  next hsocket =>
    split at h
    next code hcode =>
      cases Except.ok.inj h
      refine Or.inr ⟨fun ho => ?_, failure_ne_zero hcode, ?_, rfl, rfl⟩
      · rw [ho.2] at hcode
        contradiction
      · exact sameBut_closed ⟨rfl, rfl, rfl⟩ hfree
    next hnone =>
      split at h
      next => cases h
      next =>
        cases Except.ok.inj h
        exact Or.inl ⟨⟨hsocket, hnone⟩, rfl, rfl⟩

theorem initUSockUdpSvr_cases {unset : SockAddrIn} {c : USockCalls}
    (hfree : s.reactor.kernel.owner c.socket = none) (h : s.initUSockUdpSvr unset c = .ok (iRet, s')) :
    (c.Opens ∧ iRet = 0 ∧ s' = { s with
      reactor := ({ s.reactor with m_iUSockFd := c.socket }.setOwner c.socket (some .usock)).setItem
        c.socket ⟨c.socket, .UDP_READ, unset⟩ }) ∨
    (¬c.Opens ∧ iRet ≠ 0 ∧ SameBut s.reactor s'.reactor ∧ s'.m_iEpFd = s.m_iEpFd ∧
      s'.umask = if ¬c.socket < 0 ∧ c.masked ≠ none then S_IRWXO else s.umask) := by
  unfold Booting.initUSockUdpSvr at h
  dsimp only at h
  split at h
  next hsocket =>
    cases Except.ok.inj h
    exact Or.inr ⟨fun ho => ho.1 hsocket, by decide, ⟨rfl, rfl, rfl⟩, rfl,
      (if_neg fun hc => hc.1 hsocket).symm⟩
  next hsocket =>
    have hclosed : SameBut s.reactor ({ s.reactor with m_iUSockFd := c.socket }.setOwner c.socket none) :=
      sameBut_closed ⟨rfl, rfl, rfl⟩ hfree
    split at h
    next code hcode =>
      cases Except.ok.inj h
      refine Or.inr ⟨fun ho => ?_, masked_ne_zero hcode, hclosed, rfl, ?_⟩
      · rw [ho.2.1] at hcode
        contradiction
      · rw [if_pos ⟨hsocket, by simp [hcode]⟩]
    next hmasked =>
      split at h
      next code hcode =>
        cases Except.ok.inj h
        refine Or.inr ⟨fun ho => ?_, restored_ne_zero hcode, hclosed, rfl, ?_⟩
        · rw [ho.2.2] at hcode
          contradiction
        · rw [if_neg fun hc => hc.2 hmasked]
      next hrestored =>
        split at h
        next => cases h
        next =>
          cases Except.ok.inj h
          exact Or.inl ⟨⟨hsocket, hmasked, hrestored⟩, rfl, rfl⟩

end

/-- The descriptors a failed or finished Init has left open. -/
def InitCalls.leaves (c : InitCalls) (owner : Int32 → Option FdOwner) : Int32 → Option FdOwner :=
  if c.tcp.Opens then
    if c.usock.Opens then
      Function.update (Function.update owner c.tcp.socket (some .listener)) c.usock.socket (some .usock)
    else Function.update owner c.tcp.socket (some .listener)
  else owner

theorem ok_of_toOption {ε α : Type*} {r : Except ε α} {a : α} (h : r.toOption = some a) : r = .ok a := by
  cases r with
  | error e => contradiction
  | ok b => rw [Option.some.inj h]

/-- A netio as main creates it, whose queue is not new. -/
def sampleBooting (answers : List QMsg) : Booting where
  reactor := Reactor.new (fun _ => ⟨0, 0, ⟨0, 0, 0, 0⟩⟩) (fun _ => MsgBuf.reset)
    (fun fd => if 0 ≤ fd ∧ fd < 3 then some .other else none)
    (fun key => if key = NET_IO_BACK_MSQ_KEY then answers else [])
  m_iEpFd := none
  umask := 18

section

variable {unset : Int32 → SockAddrIn} {arrMsg : Int32 → MsgBuf} {owner : Int32 → Option FdOwner}
  {queues : Int32 → List QMsg} {umask : UInt32} {iTcpSvrPort iRet : Int32} {unix : SockAddrIn}
  {c : InitCalls} {s' : Booting}

theorem epollCreate_cases {s : Booting} (h : (if c.epollCreate = -1 then
      if c.enosys then .error .assertFailed
      else .ok (EPOLL_CREATE_FAILED, { s with m_iEpFd := some c.epollCreate })
    else .ok (0, { s with m_iEpFd := some c.epollCreate })) = (.ok (iRet, s') : Except Halt _)) :
    s' = { s with m_iEpFd := some c.epollCreate } ∧ (iRet = 0 ↔ c.epollCreate ≠ -1) := by
  split at h
  next hminus =>
    split at h
    next => cases h
    next =>
      cases Except.ok.inj h
      exact ⟨rfl, fun h0 => absurd h0 (by decide), fun hfd => absurd hminus hfd⟩
  next hfd =>
    cases Except.ok.inj h
    exact ⟨rfl, fun _ => hfd, fun _ => rfl⟩

/-- The table after both parts, in the form of Reactor.init. -/
theorem opened_eq {tcp usock : Int32} {stServaddr : SockAddrIn} :
    (({ ({ Reactor.new unset arrMsg owner queues with m_iSvrFd := tcp }.setOwner tcp (some .listener)).setItem
        tcp ⟨tcp, .TCP_SERVER_ACCEPT, stServaddr⟩ with m_iUSockFd := usock }).setOwner usock
          (some .usock)).setItem usock ⟨usock, .UDP_READ, unix⟩ =
      Reactor.init tcp usock stServaddr (Function.update unset usock unix) arrMsg owner queues := by
  have hunset : ∀ fd, fd ≠ usock → unset fd = Function.update unset usock unix fd :=
    fun fd hfd => (Function.update_of_ne hfd unix unset).symm
  have hitems (item item' : TcpSockItem) : Function.update (Function.update
        (fun fd => (⟨0, .NONE_FLAG, unset fd⟩ : TcpSockItem)) tcp item) usock item' =
      Function.update (Function.update
        (fun fd => (⟨0, .NONE_FLAG, Function.update unset usock unix fd⟩ : TcpSockItem)) tcp item)
          usock item' := by
    funext fd
    by_cases husock : fd = usock
    · rw [husock, Function.update_self, Function.update_self]
    · rw [Function.update_of_ne husock, Function.update_of_ne husock]
      by_cases htcp : fd = tcp
      · rw [htcp, Function.update_self, Function.update_self]
      · rw [Function.update_of_ne htcp, Function.update_of_ne htcp, hunset fd husock]
  simp only [Reactor.setItem, Reactor.setOwner, Reactor.new, Reactor.init]
  rw [hitems, Function.update_self]

/-- Init either opens everything or says so, but what it has opened before a
failure of a later part stays open, and so does the umask it has set when the
unix socket cannot be bound. -/
theorem init_outcome (hport : iTcpSvrPort ≠ 0) (htcp : owner c.tcp.socket = none)
    (husock : owner c.usock.socket = none) (hapart : c.tcp.Opens → c.usock.socket ≠ c.tcp.socket)
    (h : Booting.init ⟨Reactor.new unset arrMsg owner queues, none, umask⟩ iTcpSvrPort true unix c =
      .ok (iRet, s')) :
    (iRet = 0 ↔ c.tcp.Opens ∧ c.usock.Opens ∧ c.epollCreate ≠ -1) ∧
      s'.reactor.kernel.owner = c.leaves owner ∧
      s'.m_iEpFd = (if c.tcp.Opens ∧ c.usock.Opens then some c.epollCreate else none) ∧
      s'.umask = (if c.tcp.Opens ∧ ¬c.usock.socket < 0 ∧ c.usock.masked ≠ none then S_IRWXO else umask) ∧
      (iRet = 0 → s'.reactor = Reactor.init c.tcp.socket c.usock.socket (Booting.servaddr iTcpSvrPort)
        (Function.update unset c.usock.socket unix) arrMsg owner queues) := by
  unfold Booting.init at h
  rw [if_pos hport] at h
  split at h
  next => cases h
  next iRet1 s1 htcpPart =>
    obtain ⟨hopens, rfl, rfl⟩ | ⟨hfails, hne, hsame, hep, hmask⟩ := initTcpSvr_cases htcp htcpPart
    · rw [if_neg (by decide), if_pos rfl] at h
      split at h
      next => cases h
      next iRet2 s2 husockPart =>
        have hfree : Function.update owner c.tcp.socket (some .listener) c.usock.socket = none := by
          rw [Function.update_of_ne (hapart hopens), husock]
        obtain ⟨hopens', rfl, rfl⟩ | ⟨hfails', hne', hsame', hep', hmask'⟩ :=
          initUSockUdpSvr_cases hfree husockPart
        · rw [if_neg (by decide)] at h
          obtain ⟨rfl, hzero⟩ := epollCreate_cases h
          refine ⟨?_, ?_, ?_, ?_, fun _ => opened_eq⟩
          · exact hzero.trans ⟨fun hfd => ⟨hopens, hopens', hfd⟩, fun hall => hall.2.2⟩
          · rw [InitCalls.leaves, if_pos hopens, if_pos hopens']
            rfl
          · rw [if_pos ⟨hopens, hopens'⟩]
          · rw [if_neg (fun hall => hall.2.2 hopens'.2.1)]
        · rw [if_pos hne'] at h
          cases Except.ok.inj h
          refine ⟨?_, ?_, ?_, ?_, fun h0 => absurd h0 hne'⟩
          · exact ⟨fun h0 => absurd h0 hne', fun hall => absurd hall.2.1 hfails'⟩
          · rw [hsame'.kernel, InitCalls.leaves, if_pos hopens, if_neg hfails']
            rfl
          · rw [hep', if_neg (fun hall => hfails' hall.2)]
          · rw [hmask']
            simp only [hopens, true_and]
    · rw [if_pos hne] at h
      cases Except.ok.inj h
      refine ⟨?_, ?_, ?_, ?_, fun h0 => absurd h0 hne⟩
      · exact ⟨fun h0 => absurd h0 hne, fun hall => absurd hall.1 hfails⟩
      · rw [hsame.kernel, InitCalls.leaves, if_neg hfails]
        rfl
      · rw [hep, if_neg (fun hall => hfails hall.1)]
      · rw [hmask, if_neg (fun hall => hfails hall.1)]

end

/-- The path of the unix socket cannot be bound: the port stays taken. -/
theorem init_outcome_half : ∃ iRet s',
    (sampleBooting []).init 6789 true ⟨0, 0, ⟨0, 0, 0, 0⟩⟩
        ⟨⟨3, 0, 0, 0, 0, 0, 0⟩, ⟨4, 0, -1, 0, 0⟩, 5, false⟩ = .ok (iRet, s') ∧ (iRet = BIND_USOCKET_FAILED ∧ s'.reactor.kernel.owner 3 = some .listener ∧
        s'.umask = S_IRWXO) ∧
    (iRet = 0 ↔ (⟨3, 0, 0, 0, 0, 0, 0⟩ : TcpCalls).Opens ∧ (⟨4, 0, -1, 0, 0⟩ : USockCalls).Opens ∧
      (5 : Int32) ≠ -1) := by
  have h : ((sampleBooting []).init 6789 true ⟨0, 0, ⟨0, 0, 0, 0⟩⟩
      ⟨⟨3, 0, 0, 0, 0, 0, 0⟩, ⟨4, 0, -1, 0, 0⟩, 5, false⟩).toOption.any (fun r =>
        decide (r.1 = BIND_USOCKET_FAILED ∧ r.2.reactor.kernel.owner 3 = some .listener ∧
          r.2.umask = S_IRWXO)) = true := by decide +kernel
  obtain ⟨⟨iRet, s'⟩, hinit, h⟩ := (Option.any_eq_true _ _).mp h
  have hinit := ok_of_toOption hinit
  exact ⟨iRet, s', hinit, of_decide_eq_true h,
    (init_outcome (by decide) (by decide) (by decide) (by decide) hinit).1⟩

end NetioMiddleware

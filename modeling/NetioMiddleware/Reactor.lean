import Mathlib.Logic.Function.Basic
import NetioMiddleware.Inet

namespace NetioMiddleware

inductive EventFlag
  | NONE_FLAG
  | TCP_CLIENT
  | TCP_SERVER_ACCEPT
  | TCP_SERVER_READ
  | TCP_SERVER_SEND
  | TCP_SERVER_CLOSE
  | UDP_READ
  | UDP_SEND
  deriving DecidableEq

/-- What an open file descriptor of netio refers to. Connections are numbered
in the order accept returned them, so that two connections that use one
descriptor in turn are told apart. -/
inductive FdOwner
  | other
  | listener
  | usock
  | conn (id : Nat)
  deriving DecidableEq

/-- The calls whose order the connections observe. The origin of a received
message is the connection whose request it answers, when there is one. -/
inductive Syscall
  | accept (id : Nat) (fd : Int32)
  | incr (key : Bytes) (value : Int32)
  | read (who : Option FdOwner)
  | msgsnd (who : Option FdOwner) (key : Int32) (text : Bytes)
  | msgrcv (origin : Option Nat) (text : Bytes)
  | write (who : Option FdOwner) (text : Bytes)
  | close (who : Option FdOwner)
  deriving DecidableEq

inductive EpollOp
  | EPOLL_CTL_ADD
  | EPOLL_CTL_MOD
  | EPOLL_CTL_DEL
  deriving DecidableEq

/-- The kernel's side of netio: its descriptors, its epoll set with the events
each member waits for, and the message queues by their keys. -/
structure Kernel where
  owner : Int32 → Option FdOwner
  epoll : Int32 → Option UInt32
  queues : Int32 → List QMsg
  accepted : Nat
  log : List Syscall

def EPOLLIN : UInt32 := 0x1
def EPOLLOUT : UInt32 := 0x4
def EPOLLRDHUP : UInt32 := 0x2000
def EPOLLET : UInt32 := 0x80000000

namespace Kernel

def watch (k : Kernel) (fd : Int32) (events : Option UInt32) : Kernel :=
  { k with epoll := Function.update k.epoll fd events }

def epollCtl (k : Kernel) (op : EpollOp) (fd : Int32) (events : UInt32) : Option Kernel :=
  match op with
  | .EPOLL_CTL_ADD =>
    if k.owner fd ≠ none ∧ k.epoll fd = none then some (k.watch fd (some events)) else none
  | .EPOLL_CTL_MOD => if k.epoll fd ≠ none then some (k.watch fd (some events)) else none
  | .EPOLL_CTL_DEL => if k.epoll fd ≠ none then some (k.watch fd none) else none

def accept (k : Kernel) (fd : Int32) : Kernel :=
  { k with
    owner := Function.update k.owner fd (some (.conn k.accepted))
    accepted := k.accepted + 1
    log := k.log ++ [.accept k.accepted fd] }

/-- close also takes the descriptor out of the epoll set. -/
def close (k : Kernel) (fd : Int32) : Kernel :=
  { k with
    owner := Function.update k.owner fd none
    epoll := Function.update k.epoll fd none
    log := k.log ++ [.close (k.owner fd)] }

def setQueues (k : Kernel) (queues : Int32 → List QMsg) : Kernel := { k with queues := queues }

def record (k : Kernel) (call : Syscall) : Kernel := { k with log := k.log ++ [call] }

/-- PutMsg of the text in stMsg on the queue of a key, for a request read from fd. -/
def msgsnd (k : Kernel) (fd : Int32) (key : Int32) (stMsg : MsgBuf) (sent : Bool) : Int32 × Kernel :=
  let put := putMsg (k.queues key) stMsg stMsg.text.length sent
  if put.1 = 0 then
    (0, { k with
      queues := Function.update k.queues key put.2
      log := k.log ++ [.msgsnd (k.owner fd) key stMsg.text] })
  else (put.1, k)

end Kernel

structure TcpSockItem where
  fd : Int32
  enEventFlag : EventFlag
  stSockAddr_in : SockAddrIn
  deriving DecidableEq

def TcpSockItem.reset (i : TcpSockItem) : TcpSockItem := { i with fd := 0, enEventFlag := .NONE_FLAG }

def MAX_EPOLL_EVENT_NUM : Nat := 4096

structure Reactor where
  m_vecFds : List Int32
  m_iSvrFd : Int32
  m_iUSockFd : Int32
  m_iEvents : Int
  m_arrTcpSock : Int32 → TcpSockItem
  m_arrMsg : Int32 → MsgBuf
  kernel : Kernel

/-- The pData argument of AddToWatchList: the address of the table's own entry
for the descriptor, or of another item. -/
inductive WatchData
  | own
  | item (stSock : TcpSockItem)

/-- Whether fd indexes an array of n entries. -/
def inArray (n : Nat) (fd : Int32) : Bool := 0 ≤ fd.toInt ∧ fd.toInt < n

/-- The comparison of two addresses in AddToWatchList. -/
def sameSock (a b : SockAddrIn) : Bool :=
  a.sin_port == b.sin_port && a.sin_family == b.sin_family && strcmpInetNtoa a.sin_addr b.sin_addr

def eventMask (emTodoOp : EventFlag) : UInt32 :=
  if emTodoOp = .TCP_SERVER_SEND ∨ emTodoOp = .UDP_SEND then EPOLLOUT ||| EPOLLET ||| EPOLLRDHUP
  else EPOLLIN ||| EPOLLET ||| EPOLLRDHUP

namespace Reactor

/-- iSockValid as AddToWatchList computes it when bCheckSock is set. -/
def sockValid (s : Reactor) (iFd : Int32) (pData : WatchData) : Bool :=
  if iFd ∈ s.m_vecFds then
    if (s.m_arrTcpSock iFd).enEventFlag = .NONE_FLAG then false
    else
      match pData with
      | .item stSock => sameSock stSock.stSockAddr_in (s.m_arrTcpSock iFd).stSockAddr_in
      | .own => false
  else
    if (s.m_arrTcpSock iFd).enEventFlag = .NONE_FLAG then false
    else
      match pData with
      | .item stSock => sameSock stSock.stSockAddr_in (s.m_arrTcpSock iFd).stSockAddr_in
      | .own => true

def setItem (s : Reactor) (iFd : Int32) (stItem : TcpSockItem) : Reactor :=
  { s with m_arrTcpSock := Function.update s.m_arrTcpSock iFd stItem }

def storeItem (s : Reactor) (iFd : Int32) : WatchData → Reactor
  | .own => s
  | .item stSock => s.setItem iFd { stSock with fd := iFd }

def addToWatchList (s : Reactor) (iFd : Int32) (emTodoOp : EventFlag) (pData : WatchData)
    (bCheckSock : Bool) : Except Halt (Int32 × Reactor) :=
  if inArray MAX_EPOLL_EVENT_NUM iFd = false then .error .sockIndex
  else if bCheckSock = true ∧ s.sockValid iFd pData = false then .ok (0, s)
  else
    let s := s.storeItem iFd pData
    let op : EpollOp := if iFd ∈ s.m_vecFds then .EPOLL_CTL_MOD else .EPOLL_CTL_ADD
    match s.kernel.epollCtl op iFd (eventMask emTodoOp) with
    | none => .ok (EPOLL_CNTL_FAILED, s)
    | some k =>
      if op = .EPOLL_CTL_MOD then .ok (0, { s with kernel := k })
      else .ok (0, { s with
        kernel := k, m_iEvents := s.m_iEvents + 1, m_vecFds := s.m_vecFds ++ [iFd] })

def removeFromWatchList (s : Reactor) (iFd : Int32) : Int32 × Reactor :=
  match s.kernel.epollCtl .EPOLL_CTL_DEL iFd 0 with
  | none => (EPOLL_CNTL_FAILED, s)
  | some k =>
    if iFd ∈ s.m_vecFds then
      (0, { s with kernel := k, m_vecFds := s.m_vecFds.erase iFd, m_iEvents := s.m_iEvents - 1 })
    else (0, { s with kernel := k })

end Reactor

@[simp] theorem storeItem_vecFds (s : Reactor) (fd : Int32) (pData : WatchData) :
    (s.storeItem fd pData).m_vecFds = s.m_vecFds := by cases pData <;> rfl

@[simp] theorem storeItem_events (s : Reactor) (fd : Int32) (pData : WatchData) :
    (s.storeItem fd pData).m_iEvents = s.m_iEvents := by cases pData <;> rfl

@[simp] theorem storeItem_kernel (s : Reactor) (fd : Int32) (pData : WatchData) :
    (s.storeItem fd pData).kernel = s.kernel := by cases pData <;> rfl

theorem sockValid_item {s : Reactor} {fd : Int32} {stSock : TcpSockItem}
    (h : s.sockValid fd (.item stSock) = true) :
    sameSock stSock.stSockAddr_in (s.m_arrTcpSock fd).stSockAddr_in = true := by
  unfold Reactor.sockValid at h
  split at h
  next =>
    split at h
    next => contradiction
    next => exact h
  next =>
    split at h
    next => contradiction
    next => exact h

/-- What AddToWatchList does: nothing, or the table entry alone when epoll_ctl
fails, or the entry and the kernel's set, with the vector when the descriptor
was not in it. -/
theorem addToWatchList_cases {s s' : Reactor} {fd : Int32} {op : EventFlag} {pData : WatchData}
    {chk : Bool} {r : Int32} (h : s.addToWatchList fd op pData chk = .ok (r, s')) :
    inArray MAX_EPOLL_EVENT_NUM fd = true ∧
    ((chk = true ∧ s.sockValid fd pData = false ∧ s' = s) ∨
      (chk = true → s.sockValid fd pData = true) ∧
      ((s' = s.storeItem fd pData ∧
          if fd ∈ s.m_vecFds then s.kernel.epoll fd = none
          else s.kernel.owner fd = none ∨ s.kernel.epoll fd ≠ none) ∨
        (fd ∈ s.m_vecFds ∧ s.kernel.epoll fd ≠ none ∧
          s' = { s.storeItem fd pData with kernel := s.kernel.watch fd (some (eventMask op)) }) ∨
        (fd ∉ s.m_vecFds ∧ s.kernel.owner fd ≠ none ∧ s.kernel.epoll fd = none ∧
          s' = { s.storeItem fd pData with
            kernel := s.kernel.watch fd (some (eventMask op))
            m_iEvents := s.m_iEvents + 1
            m_vecFds := s.m_vecFds ++ [fd] }))) := by
  unfold Reactor.addToWatchList at h
  split at h
  next => contradiction
  next hin =>
    refine ⟨by simpa using hin, ?_⟩
    split at h
    next hskip =>
      cases Except.ok.inj h
      exact Or.inl ⟨hskip.1, hskip.2, rfl⟩
    next hgo =>
      refine Or.inr ⟨fun hc => by simpa [hc] using hgo, ?_⟩
      by_cases hm : fd ∈ s.m_vecFds
      · by_cases hreg : s.kernel.epoll fd = none
        · refine Or.inl ⟨?_, by rwa [if_pos hm]⟩
          exact (show r = EPOLL_CNTL_FAILED ∧ s' = _ by
            simpa [hm, Kernel.epollCtl, hreg] using h.symm).2
        · refine Or.inr (Or.inl ⟨hm, hreg, ?_⟩)
          exact (show r = 0 ∧ s' = _ by simpa [hm, Kernel.epollCtl, hreg] using h.symm).2
      · by_cases hadd : s.kernel.owner fd ≠ none ∧ s.kernel.epoll fd = none
        · refine Or.inr (Or.inr ⟨hm, hadd.1, hadd.2, ?_⟩)
          exact (show r = 0 ∧ s' = _ by simpa [hm, Kernel.epollCtl, hadd] using h.symm).2
        · refine Or.inl ⟨?_, ?_⟩
          · exact (show r = EPOLL_CNTL_FAILED ∧ s' = _ by
              simpa [hm, Kernel.epollCtl, hadd] using h.symm).2
          · rw [if_neg hm]
            by_cases ho : s.kernel.owner fd = none
            · exact Or.inl ho
            · exact Or.inr (fun he => hadd ⟨ho, he⟩)

/-- RemoveFromWatchList on a registered descriptor takes it out everywhere; on
any other it does nothing. -/
theorem removeFromWatchList_eq (s : Reactor) (fd : Int32) :
    (s.removeFromWatchList fd).2 =
      if s.kernel.epoll fd = none then s
      else { s with
        kernel := s.kernel.watch fd none
        m_vecFds := s.m_vecFds.erase fd
        m_iEvents := s.m_iEvents - if fd ∈ s.m_vecFds then 1 else 0 } := by
  unfold Reactor.removeFromWatchList Kernel.epollCtl
  by_cases hreg : s.kernel.epoll fd = none
  · simp [hreg]
  · by_cases hm : fd ∈ s.m_vecFds
    · simp [hreg, hm]
    · simp [hreg, hm, List.erase_of_not_mem hm]

/-- AddToWatchList leaves everything alone but the entry, the vector and the
epoll set, and these only at its descriptor. -/
theorem addToWatchList_frame {s s' : Reactor} {fd : Int32} {op : EventFlag} {pData : WatchData}
    {chk : Bool} {r : Int32} (h : s.addToWatchList fd op pData chk = .ok (r, s')) :
    s'.kernel = { s.kernel with epoll := s'.kernel.epoll } ∧ s'.m_arrMsg = s.m_arrMsg ∧
      s'.m_iSvrFd = s.m_iSvrFd ∧ s'.m_iUSockFd = s.m_iUSockFd ∧
      (∀ x, x ≠ fd → s'.kernel.epoll x = s.kernel.epoll x) ∧
      (∀ x, x ≠ fd → s'.m_arrTcpSock x = s.m_arrTcpSock x) ∧
      (s'.m_arrTcpSock = s.m_arrTcpSock ∨
        s'.m_arrTcpSock = (s.storeItem fd pData).m_arrTcpSock) ∧
      (∀ x ∈ s.m_vecFds, x ∈ s'.m_vecFds) := by
  have hitem : ∀ x, x ≠ fd → (s.storeItem fd pData).m_arrTcpSock x = s.m_arrTcpSock x := by
    intro x hx
    cases pData with
    | own => rfl
    | item stSock => exact Function.update_of_ne hx _ _
  have hmsg : (s.storeItem fd pData).m_arrMsg = s.m_arrMsg := by cases pData <;> rfl
  have hsvr : (s.storeItem fd pData).m_iSvrFd = s.m_iSvrFd := by cases pData <;> rfl
  have husock : (s.storeItem fd pData).m_iUSockFd = s.m_iUSockFd := by cases pData <;> rfl
  have hepoll : ∀ x, x ≠ fd →
      (s.kernel.watch fd (some (eventMask op))).epoll x = s.kernel.epoll x :=
    fun x hx => Function.update_of_ne hx _ _
  obtain ⟨_, ⟨_, _, rfl⟩ | ⟨_, ⟨rfl, _⟩ | ⟨_, _, rfl⟩ | ⟨_, _, _, rfl⟩⟩⟩ := addToWatchList_cases h
  · exact ⟨rfl, rfl, rfl, rfl, fun _ _ => rfl, fun _ _ => rfl, Or.inl rfl, fun _ hx => hx⟩
  · refine ⟨by rw [storeItem_kernel], hmsg, hsvr, husock, fun _ _ => by rw [storeItem_kernel],
      hitem, Or.inr rfl, fun _ hx => by rwa [storeItem_vecFds]⟩
  · exact ⟨rfl, hmsg, hsvr, husock, hepoll, hitem, Or.inr rfl, fun _ hx => by
      simpa only [storeItem_vecFds] using hx⟩
  · exact ⟨rfl, hmsg, hsvr, husock, hepoll, hitem, Or.inr rfl, fun _ hx =>
      List.mem_append_left _ hx⟩

theorem addToWatchList_ne_error {s : Reactor} {fd : Int32} {op : EventFlag} {pData : WatchData}
    {chk : Bool} {e : Halt} (hfd : inArray MAX_EPOLL_EVENT_NUM fd = true) :
    s.addToWatchList fd op pData chk ≠ .error e := by
  unfold Reactor.addToWatchList
  rw [if_neg (by simp [hfd])]
  split
  next => simp
  next =>
    dsimp only
    split
    next => simp
    next => split <;> simp

end NetioMiddleware

import NetioMiddleware.TableBounds

namespace NetioMiddleware

/-- A descriptor epoll_wait reports with its events, and what the system calls
of its handler return. -/
structure EpollEvent where
  fd : Int32
  events : UInt32
  out : Outcomes := {}

/-- What one call of ProcessEvent meets: the response OnEventFire looks for and
the descriptors CheckEvents was told of. -/
structure Batch where
  rcvFailed : Bool := false
  origin : Option Nat := none
  ready : List EpollEvent

namespace Reactor

def processItems (s : Reactor) : List EpollEvent → Except Halt Reactor
  | [] => .ok s
  | r :: rest =>
    match s.processItem r.fd r.events r.out with
    | .error e => .error e
    | .ok s => s.processItems rest

/-- ProcessEvent, of which every handler returns 0. -/
def processEvent (s : Reactor) (b : Batch) : Except Halt Reactor :=
  match s.onEventFire b.rcvFailed b.origin with
  | .error e => .error e
  | .ok s => s.processItems b.ready

/-- One of the two descriptors RunEventLoop itself puts on the watch list. -/
def isChannel (s : Reactor) (fd : Int32) : Prop := fd = s.m_iSvrFd ∨ fd = s.m_iUSockFd

instance (s : Reactor) (fd : Int32) : Decidable (s.isChannel fd) :=
  inferInstanceAs (Decidable (fd = s.m_iSvrFd ∨ fd = s.m_iUSockFd))

end Reactor

/-- epoll_wait reports members of its set, each once. -/
structure Batch.Reported (b : Batch) (s : Reactor) : Prop where
  answers : (NetioLabel.response b.rcvFailed b.origin).enabled s
  members : ∀ r ∈ b.ready, s.kernel.epoll r.fd ≠ none
  distinct : (b.ready.map EpollEvent.fd).Nodup

/-- The descriptor is still the open file it was at the start, and its entry
says so. -/
structure Held (s : Reactor) (fd : Int32) (who : FdOwner) (flag : EventFlag) : Prop where
  isOpen : s.kernel.owner fd = some who
  flagged : (s.m_arrTcpSock fd).enEventFlag = flag

/-- Neither channel is closed, reset or out of the epoll set. RunEventLoop does
not watch a channel on descriptor 0. -/
structure Channels (s : Reactor) : Prop where
  listening : Held s s.m_iSvrFd .listener .TCP_SERVER_ACCEPT
  waking : Held s s.m_iUSockFd .usock .UDP_READ
  entry : ∀ fd, s.isChannel fd → (s.m_arrTcpSock fd).fd = fd
  watched : ∀ fd, s.isChannel fd → fd ≠ 0 → s.kernel.epoll fd ≠ none

/-- Every descriptor closed so far was that of an accepted connection. -/
def OnlyClients (s : Reactor) : Prop :=
  ∀ who, Syscall.close who ∈ s.kernel.log → ∃ c, who = some (.conn c)

/-- No end of stream is reported for a channel, and no response passes the test
of AddToWatchList for a channel on descriptor 0, the number of a response that
carries none. -/
def NetioLabel.Spares (s : Reactor) : NetioLabel → Prop
  | .event fd events _ => events &&& EPOLLRDHUP = EPOLLRDHUP → ¬s.isChannel fd
  | .response rcvFailed _ => ∀ oCmd ∈ takenCmd s rcvFailed, oCmd.iFd = 0 → s.isChannel 0 →
      s.sockValid 0 (.item (responseSock oCmd)) = false
  | .others _ => True

def Batch.Spares (b : Batch) (s : Reactor) : Prop :=
  (NetioLabel.response b.rcvFailed b.origin).Spares s ∧
    ∀ r ∈ b.ready, (NetioLabel.event r.fd r.events r.out).Spares s

def NetioSystem.Spares (s : NetioSystem) : SystemLabel → Prop
  | .netio l => l.Spares s.netio
  | .process _ _ => True

theorem isChannel_congr {s s' : Reactor} (hsvr : s'.m_iSvrFd = s.m_iSvrFd)
    (husock : s'.m_iUSockFd = s.m_iUSockFd) (fd : Int32) : s'.isChannel fd ↔ s.isChannel fd := by
  rw [Reactor.isChannel, hsvr, husock]
  rfl

/-- The channels are there, only connections were closed, and whatever else is
open is a connection, or a descriptor netio has no entry for. -/
structure Guarded (s : Reactor) : Prop where
  channels : Channels s
  clients : OnlyClients s
  others : ∀ fd, ¬s.isChannel fd → s.kernel.owner fd = none ∨ (∃ c, s.kernel.owner fd = some (.conn c)) ∨
    ((s.m_arrTcpSock fd).enEventFlag = .NONE_FLAG ∧ s.kernel.epoll fd = none)

section

variable {s : Reactor} {fd : Int32}

theorem Channels.ne_free (hc : Channels s) (hfree : s.kernel.owner fd = none) : ¬s.isChannel fd := by
  rintro (rfl | rfl)
  · rw [hc.listening.isOpen] at hfree
    cases hfree
  · rw [hc.waking.isOpen] at hfree
    cases hfree

theorem Channels.ne_flagged (hc : Channels s)
    (hflag : (s.m_arrTcpSock fd).enEventFlag = .TCP_SERVER_READ ∨
      (s.m_arrTcpSock fd).enEventFlag = .TCP_SERVER_SEND) : ¬s.isChannel fd := by
  rintro (rfl | rfl)
  · rw [hc.listening.flagged] at hflag
    rcases hflag with h | h <;> cases h
  · rw [hc.waking.flagged] at hflag
    rcases hflag with h | h <;> cases h

/-- Whatever is watched besides the channels is a connection. -/
theorem Guarded.connection (hg : Guarded s) (hw : Wired s) (hreg : s.kernel.epoll fd ≠ none)
    (hne : ¬s.isChannel fd) : ∃ c, s.kernel.owner fd = some (.conn c) := by
  rcases hg.others fd hne with hfree | hconn | ⟨_, hout⟩
  · exact absurd hfree (hw.registered fd hreg).1
  · exact hconn
  · exact absurd hout hreg

/-- A change at one descriptor that is not a channel. -/
theorem Guarded.of_frame {s' : Reactor} (hg : Guarded s) (hne : ¬s.isChannel fd)
    (hsvr : s'.m_iSvrFd = s.m_iSvrFd) (husock : s'.m_iUSockFd = s.m_iUSockFd)
    (hitem : ∀ x, x ≠ fd → s'.m_arrTcpSock x = s.m_arrTcpSock x)
    (howner : ∀ x, x ≠ fd → s'.kernel.owner x = s.kernel.owner x)
    (hepoll : ∀ x, x ≠ fd → s'.kernel.epoll x = s.kernel.epoll x)
    (hclose : ∀ who, Syscall.close who ∈ s'.kernel.log →
      Syscall.close who ∈ s.kernel.log ∨ ∃ c, who = some (.conn c))
    (hfd : s'.kernel.owner fd = none ∨ (∃ c, s'.kernel.owner fd = some (.conn c)) ∨
      ((s'.m_arrTcpSock fd).enEventFlag = .NONE_FLAG ∧ s'.kernel.epoll fd = none)) : Guarded s' := by
  have hchannel := isChannel_congr hsvr husock
  have hapart : ∀ x, s.isChannel x → x ≠ fd := fun x hx he => hne (he ▸ hx)
  have held : ∀ {x who flag}, s.isChannel x → Held s x who flag → Held s' x who flag := by
    intro x who flag hx hh
    exact ⟨(howner x (hapart x hx)).trans hh.isOpen, by rw [hitem x (hapart x hx)]; exact hh.flagged⟩
  refine ⟨⟨?_, ?_, ?_, ?_⟩, ?_, ?_⟩
  · rw [hsvr]
    exact held (Or.inl rfl) hg.channels.listening
  · rw [husock]
    exact held (Or.inr rfl) hg.channels.waking
  · intro x hx
    have hx := (hchannel x).mp hx
    rw [hitem x (hapart x hx)]
    exact hg.channels.entry x hx
  · intro x hx hzero
    have hx := (hchannel x).mp hx
    rw [hepoll x (hapart x hx)]
    exact hg.channels.watched x hx hzero
  · intro who hwho
    exact (hclose who hwho).elim (hg.clients who) id
  · intro x hx
    by_cases he : x = fd
    · exact he ▸ hfd
    · rw [howner x he, hitem x he, hepoll x he]
      exact hg.others x (fun h => hx ((hchannel x).mpr h))

/-- A change of neither the channels nor the descriptors, the entries and the epoll set. -/
theorem Guarded.of_same {s' : Reactor} (hg : Guarded s) (hsvr : s'.m_iSvrFd = s.m_iSvrFd)
    (husock : s'.m_iUSockFd = s.m_iUSockFd) (hitem : s'.m_arrTcpSock = s.m_arrTcpSock)
    (howner : s'.kernel.owner = s.kernel.owner) (hepoll : s'.kernel.epoll = s.kernel.epoll)
    (hclose : ∀ who, Syscall.close who ∈ s'.kernel.log → Syscall.close who ∈ s.kernel.log) :
    Guarded s' := by
  have hchannel := isChannel_congr hsvr husock
  refine ⟨⟨?_, ?_, ?_, ?_⟩, fun who hwho => hg.clients who (hclose who hwho), ?_⟩
  · rw [hsvr]
    exact ⟨howner ▸ hg.channels.listening.isOpen, hitem ▸ hg.channels.listening.flagged⟩
  · rw [husock]
    exact ⟨howner ▸ hg.channels.waking.isOpen, hitem ▸ hg.channels.waking.flagged⟩
  · exact fun x hx => hitem ▸ hg.channels.entry x ((hchannel x).mp hx)
  · exact fun x hx => hepoll ▸ hg.channels.watched x ((hchannel x).mp hx)
  · intro x hx
    rw [howner, hitem, hepoll]
    exact hg.others x (fun h => hx ((hchannel x).mpr h))

theorem guarded_closed (hg : Guarded s) (hne : ¬s.isChannel fd)
    (hconn : ∃ c, s.kernel.owner fd = some (.conn c)) : Guarded (s.closed fd) := by
  refine hg.of_frame hne rfl rfl (fun x hx => Function.update_of_ne hx _ _)
    (fun x hx => Function.update_of_ne hx _ _) (fun x hx => Function.update_of_ne hx _ _) ?_ ?_
  · intro who hwho
    rcases List.mem_append.mp hwho with hwho | hwho
    · exact Or.inl hwho
    · obtain rfl : who = s.kernel.owner fd := by simpa using hwho
      exact Or.inr hconn
  · exact Or.inl (Function.update_self _ _ _)

theorem guarded_lost (hg : Guarded s) (hne : ¬s.isChannel fd)
    (hconn : ∃ c, s.kernel.owner fd = some (.conn c)) : Guarded (s.lost fd) := by
  refine hg.of_frame hne rfl rfl (fun _ _ => rfl) (fun x hx => Function.update_of_ne hx _ _)
    (fun x hx => Function.update_of_ne hx _ _) ?_ ?_
  · intro who hwho
    have hwho : Syscall.close who ∈ s.kernel.log ∨ who = s.kernel.owner fd := by
      simpa [Reactor.lost, Reactor.recvKernel, Kernel.record, Kernel.close] using hwho
    rcases hwho with hwho | rfl
    · exact Or.inl hwho
    · exact Or.inr hconn
  · exact Or.inl (Function.update_self _ _ _)

theorem guarded_dropped (hg : Guarded s) (hfree : s.kernel.owner fd = none) : Guarded (s.dropped fd) := by
  refine hg.of_frame (hg.channels.ne_free hfree) rfl rfl (fun _ _ => rfl) ?_
    (fun x hx => Function.update_of_ne hx _ _) ?_ ?_
  · intro x hx
    rw [dropped_owner, Function.update_of_ne hx]
  · intro who hwho
    have hwho : Syscall.close who ∈ s.kernel.log ∨ who = some (.conn s.kernel.accepted) := by
      simpa [dropped_log] using hwho
    exact hwho.imp id (fun h => ⟨_, h⟩)
  · exact Or.inl (Function.update_self _ _ _)

theorem guarded_accepted {addr : SockAddrIn} (hg : Guarded s) (hfree : s.kernel.owner fd = none) :
    Guarded (s.accepted fd addr) := by
  obtain ⟨howner, _, hlog, hitem, _⟩ := accepted_frame s fd addr
  obtain ⟨hsvr, husock, _⟩ := accepted_rest s fd addr
  refine hg.of_frame (hg.channels.ne_free hfree) hsvr husock
    (fun x hx => by rw [hitem, Function.update_of_ne hx])
    (fun x hx => by rw [howner, Function.update_of_ne hx]) (fun x hx => accepted_epoll addr hx) ?_ ?_
  · intro who hwho
    rw [hlog] at hwho
    exact Or.inl (by simpa using hwho)
  · exact Or.inr (Or.inl ⟨s.kernel.accepted, by rw [howner, Function.update_self]⟩)

theorem guarded_asked {key : Int32} {buf : Bytes} {sent : Bool} (hg : Guarded s) (hne : ¬s.isChannel fd)
    (hconn : ∃ c, s.kernel.owner fd = some (.conn c)) : Guarded (s.asked fd key buf sent) := by
  obtain ⟨howner, hepoll, _⟩ := asked_frame s fd key buf sent
  have hitem := asked_item s fd key buf sent
  refine hg.of_frame hne rfl rfl (fun x hx => by rw [hitem, Function.update_of_ne hx])
    (fun x _ => by rw [howner]) (fun x _ => by rw [hepoll]) ?_ (Or.inr (Or.inl (by rwa [howner])))
  intro who hwho
  obtain ⟨es, hlog, hes⟩ := asked_log s fd key buf sent
  rw [hlog] at hwho
  left
  rcases hes with rfl | ⟨text, rfl⟩
  · simpa using hwho
  · simpa using hwho

theorem guarded_addToWatchList {s' : Reactor} {op : EventFlag} {stSock : TcpSockItem} {r : Int32}
    (hg : Guarded s) (hne : ¬s.isChannel fd)
    (h : s.addToWatchList fd op (.item stSock) true = .ok (r, s')) : Guarded s' := by
  obtain ⟨_, ⟨_, _, rfl⟩ | ⟨hvalid, _⟩⟩ := addToWatchList_cases h
  · exact hg
  · obtain ⟨hk, _, hsvr, husock, hepoll, hitem, _⟩ := addToWatchList_frame h
    have howner : s'.kernel.owner = s.kernel.owner := by rw [hk]
    have hlog : s'.kernel.log = s.kernel.log := by rw [hk]
    refine hg.of_frame hne hsvr husock hitem (fun x _ => by rw [howner]) hepoll
      (fun who hwho => Or.inl (hlog ▸ hwho)) ?_
    rw [howner]
    rcases hg.others fd hne with hfree | hconn | ⟨hnone, _⟩
    · exact Or.inl hfree
    · exact Or.inr (Or.inl hconn)
    · have hvalid := hvalid rfl
      simp [Reactor.sockValid, hnone] at hvalid

end

theorem received_sockValid (s : Reactor) (queues : Int32 → List QMsg) (fd : Int32) (m : MsgBuf)
    (rcvFailed : Bool) (origin : Option Nat) (x : Int32) (pData : WatchData) :
    (s.received queues fd m rcvFailed origin).sockValid x pData = s.sockValid x pData := rfl

theorem guarded_received {s : Reactor} {queues : Int32 → List QMsg} {fd : Int32} {m : MsgBuf}
    {rcvFailed : Bool} {origin : Option Nat} (hg : Guarded s) :
    Guarded (s.received queues fd m rcvFailed origin) := by
  refine hg.of_same rfl rfl rfl ?_ ?_ ?_
  · cases rcvFailed <;> rfl
  · cases rcvFailed <;> rfl
  · intro who hwho
    cases rcvFailed with
    | true => exact hwho
    | false => simpa [Reactor.received, Kernel.record, Kernel.setQueues] using hwho

theorem StepCase.isChannel {s s' : Reactor} {l : NetioLabel} (hw : Wired s) (h : StepCase s l s') :
    ∀ fd, s'.isChannel fd ↔ s.isChannel fd := by
  cases h with
  | accepts hconn =>
    refine (doConn_preserves (P := fun r => Wired r ∧ ∀ fd, r.isChannel fd ↔ s.isChannel fd)
      (fun _ _ hP => hP.1.unregistered) (fun _ _ hP _ => ⟨wired_dropped hP.1, hP.2⟩) ?_
      ⟨hw, fun _ => Iff.rfl⟩ hconn).2
    intro r fd addr hP _ _
    obtain ⟨hsvr, husock, _⟩ := accepted_rest r fd addr
    exact ⟨wired_accepted hP.1, fun x => (isChannel_congr hsvr husock x).trans (hP.2 x)⟩
  | respond _ _ _ _ hadd =>
    obtain ⟨_, _, hsvr, husock, _⟩ := addToWatchList_frame hadd
    exact isChannel_congr hsvr husock
  | _ => exact fun _ => Iff.rfl

theorem guarded_doConn {s s' : Reactor} {iConn : Int32} {l : List AcceptOutcome} (hw : Wired s)
    (hg : Guarded s) (h : s.doConn iConn l = .ok s') : Guarded s' :=
  (doConn_preserves (P := fun s => Wired s ∧ Guarded s) (fun _ _ hP => hP.1.unregistered)
    (fun _ _ hP hfree => ⟨wired_dropped hP.1, guarded_dropped hP.2 hfree⟩)
    (fun _ _ _ hP hfree _ => ⟨wired_accepted hP.1, guarded_accepted hP.2 hfree⟩) ⟨hw, hg⟩ h).2

/-- Any other event on a channel accepts connections or reads the wake-up. -/
theorem channel_event {s s' : Reactor} {fd : Int32} {events : UInt32} {out : Outcomes} (hc : Channels s)
    (hfd : s.isChannel fd) (hlive : events &&& EPOLLRDHUP ≠ EPOLLRDHUP)
    (h : s.processItem fd events out = .ok s') :
    s.doConn fd out.accepts = .ok s' ∨
      s' = { s with kernel := s.kernel.record (.read (s.kernel.owner fd)) } := by
  have hentry := hc.entry fd hfd
  unfold Reactor.processItem at h
  dsimp only at h
  rw [if_neg hlive, hentry] at h
  split at h
  next hsvr =>
    left
    subst hsvr
    rwa [hc.listening.flagged] at h
  next hsvr =>
    right
    obtain rfl := hfd.resolve_left hsvr
    rw [hc.waking.flagged] at h
    exact (Except.ok.inj h).symm

/-- An event that is not the end of a channel keeps both. -/
theorem guarded_event {s s' : Reactor} {fd : Int32} {events : UInt32} {out : Outcomes} (hw : Wired s)
    (hg : Guarded s) (hreg : s.kernel.epoll fd ≠ none) (hl : (NetioLabel.event fd events out).Spares s)
    (h : s.processItem fd events out = .ok s') : Guarded s' := by
  have looked : Guarded { s with kernel := s.kernel.record (.read (s.kernel.owner fd)) } :=
    hg.of_same rfl rfl rfl rfl rfl (fun who hwho => by simpa [Kernel.record] using hwho)
  by_cases hne : s.isChannel fd
  · rcases channel_event hg.channels hne (fun hup => hl hup hne) h with hconn | rfl
    · exact guarded_doConn hw hg hconn
    · exact looked
  · have hconn := hg.connection hw hreg hne
    cases event_case hw hreg h with
    | accepts h => exact guarded_doConn hw hg h
    | idle => exact hg
    | look => exact looked
    | hangup => exact guarded_closed hg hne hconn
    | lost => exact guarded_lost hg hne hconn
    | recv => exact guarded_asked hg hne hconn
    | send =>
      have hwritten : Guarded (s.written fd) :=
        hg.of_same rfl rfl rfl rfl rfl (fun who hwho => by simpa [Reactor.written, Kernel.record] using hwho)
      exact guarded_closed hwritten hne hconn

/-- OnEventFire keeps the channels, as long as a response that names one does
not pass the test of AddToWatchList. -/
theorem guarded_response {s s' : Reactor} {rcvFailed : Bool} {origin : Option Nat} (hg : Guarded s)
    (hcmd : ∀ oCmd, takenCmd s rcvFailed = some oCmd → oCmd.iFd = 0 ∨ ¬s.isChannel oCmd.iFd)
    (hl : (NetioLabel.response rcvFailed origin).Spares s) (h : s.onEventFire rcvFailed origin = .ok s') :
    Guarded s' := by
  obtain ⟨queues, _, ⟨_, rfl⟩ | ⟨oCmd, r, htaken, _, hadd⟩⟩ := response_fire h
  · exact hg.of_same rfl rfl rfl rfl rfl (fun _ hwho => hwho)
  · have hreceived : Guarded (s.received queues oCmd.iFd (storedMsg s rcvFailed) rcvFailed origin) :=
      guarded_received hg
    by_cases hne : s.isChannel oCmd.iFd
    · have hzero := (hcmd oCmd htaken).resolve_right (not_not.mpr hne)
      have hinvalid := hl oCmd htaken hzero (hzero ▸ hne)
      obtain ⟨_, ⟨_, _, rfl⟩ | ⟨hvalid, _⟩⟩ := addToWatchList_cases hadd
      · exact hreceived
      · have hvalid := hvalid rfl
        rw [received_sockValid, hzero, hinvalid] at hvalid
        cases hvalid
    · exact guarded_addToWatchList hreceived hne hadd

theorem watch_first {s s' : Reactor} {fd r : Int32} {op : EventFlag} (hopen : s.kernel.owner fd ≠ none)
    (hfree : s.kernel.epoll fd = none) (hvec : fd ∉ s.m_vecFds)
    (h : s.addToWatchList fd op .own false = .ok (r, s')) :
    s'.kernel.epoll fd ≠ none ∧ s'.m_vecFds = s.m_vecFds ++ [fd] := by
  obtain ⟨_, ⟨hchk, _⟩ | ⟨_, ⟨_, hfail⟩ | ⟨hin, _⟩ | ⟨_, _, _, rfl⟩⟩⟩ := addToWatchList_cases h
  · cases hchk
  · rw [if_neg hvec] at hfail
    exact absurd hfree (hfail.resolve_left hopen)
  · exact absurd hin hvec
  · exact ⟨by simp [Kernel.watch], rfl⟩

/-- RunEventLoop puts each channel whose descriptor is not 0 on the watch list. -/
theorem runEventLoop_watched {s s' : Reactor} (hne : s.m_iSvrFd ≠ s.m_iUSockFd) (hvec : s.m_vecFds = [])
    (hout : ∀ x, s.kernel.epoll x = none) (hopen : ∀ fd, s.isChannel fd → s.kernel.owner fd ≠ none)
    (h : s.runEventLoop = .ok s') : ∀ fd, s'.isChannel fd → fd ≠ 0 → s'.kernel.epoll fd ≠ none := by
  obtain ⟨s1, h1, h2⟩ := runEventLoop_cases h
  obtain ⟨hsvr1, husock1, howner1⟩ : s1.m_iSvrFd = s.m_iSvrFd ∧ s1.m_iUSockFd = s.m_iUSockFd ∧
      s1.kernel.owner = s.kernel.owner := by
    rcases h1 with ⟨_, rfl⟩ | ⟨_, h1⟩
    · exact ⟨rfl, rfl, rfl⟩
    · obtain ⟨hk, _, hsvr, husock, _⟩ := addToWatchList_frame h1
      exact ⟨hsvr, husock, by rw [hk]⟩
  have hsvr : s.m_iSvrFd ≠ 0 → s1.kernel.epoll s.m_iSvrFd ≠ none := by
    intro hzero
    rcases h1 with ⟨h0, _⟩ | ⟨_, h1⟩
    · exact absurd h0 hzero
    · exact (watch_first (hopen _ (Or.inl rfl)) (hout _) (by simp [hvec]) h1).1
  obtain ⟨hfree, hnew⟩ : s1.kernel.epoll s.m_iUSockFd = none ∧ s.m_iUSockFd ∉ s1.m_vecFds := by
    rcases h1 with ⟨_, rfl⟩ | ⟨_, h1⟩
    · exact ⟨hout _, by simp [hvec]⟩
    · obtain ⟨_, _, _, _, hepoll, _⟩ := addToWatchList_frame h1
      obtain ⟨_, hvec1⟩ := watch_first (hopen _ (Or.inl rfl)) (hout _) (by simp [hvec]) h1
      exact ⟨(hepoll _ hne.symm).trans (hout _), by simp [hvec1, hvec, hne.symm]⟩
  rw [husock1] at h2
  rcases h2 with ⟨h0, rfl⟩ | ⟨_, h2⟩
  · intro fd hfd hzero
    rcases hfd with rfl | rfl
    · rw [hsvr1] at hzero ⊢
      exact hsvr hzero
    · rw [husock1] at hzero
      exact absurd h0 hzero
  · obtain ⟨_, _, hsvr', husock', hepoll, _⟩ := addToWatchList_frame h2
    intro fd hfd hzero
    rcases hfd with rfl | rfl
    · rw [hsvr', hsvr1] at hzero ⊢
      rw [hepoll _ hne]
      exact hsvr hzero
    · rw [husock', husock1]
      exact (watch_first (howner1 ▸ hopen _ (Or.inr rfl)) hfree hnew h2).1

/-- What holds of the channels before and after RunEventLoop watches them. -/
structure Prepared (s : Reactor) : Prop where
  listening : Held s s.m_iSvrFd .listener .TCP_SERVER_ACCEPT
  waking : Held s s.m_iUSockFd .usock .UDP_READ
  entry : ∀ fd, s.isChannel fd → (s.m_arrTcpSock fd).fd = fd
  unused : ∀ fd, ¬s.isChannel fd →
    (s.m_arrTcpSock fd).enEventFlag = .NONE_FLAG ∧ s.kernel.epoll fd = none
  silent : s.kernel.log = []

theorem prepared_init (svr usock : Int32) (stServaddr : SockAddrIn) (unset : Int32 → SockAddrIn)
    (arrMsg : Int32 → MsgBuf) (owner : Int32 → Option FdOwner) (queues : Int32 → List QMsg)
    (hne : svr ≠ usock) :
    Prepared (Reactor.init svr usock stServaddr unset arrMsg owner queues) := by
  refine ⟨⟨?_, ?_⟩, ⟨?_, ?_⟩, ?_, ?_, rfl⟩
  · simp [Reactor.init, Function.update_of_ne hne]
  · simp [Reactor.init, Function.update_of_ne hne]
  · simp [Reactor.init]
  · simp [Reactor.init]
  · rintro fd (rfl | rfl)
    · simp [Reactor.init, Function.update_of_ne hne]
    · simp [Reactor.init]
  · intro fd hfd
    obtain ⟨h1, h2⟩ : fd ≠ svr ∧ fd ≠ usock := not_or.mp hfd
    simp [Reactor.init, h1, h2]

theorem prepared_start {s : Reactor} (h : NetioStart s) : Prepared s := by
  refine h.induct ?_ ?_
  · intro svr usock stServaddr unset arrMsg owner queues hne _
    exact prepared_init svr usock stServaddr unset arrMsg owner queues hne
  · intro s s' fd op r hp hfd _ hadd
    obtain ⟨hk, _, hsvr, husock, hepoll, _, hitem, _⟩ := addToWatchList_frame hadd
    have hitem : s'.m_arrTcpSock = s.m_arrTcpSock := hitem.elim id id
    have howner : s'.kernel.owner = s.kernel.owner := by rw [hk]
    have hchannel := isChannel_congr hsvr husock
    refine ⟨?_, ?_, ?_, ?_, by rw [hk]; exact hp.silent⟩
    · exact hsvr ▸ ⟨howner ▸ hp.listening.isOpen, hitem ▸ hp.listening.flagged⟩
    · exact husock ▸ ⟨howner ▸ hp.waking.isOpen, hitem ▸ hp.waking.flagged⟩
    · exact fun x hx => hitem ▸ hp.entry x ((hchannel x).mp hx)
    · intro x hx
      have hx := fun h => hx ((hchannel x).mpr h)
      rw [hitem, hepoll x (fun he => hx (he ▸ hfd))]
      exact hp.unused x hx

theorem guarded_start {s : Reactor} (h : NetioStart s) : Guarded s := by
  have hp := prepared_start h
  refine ⟨⟨hp.listening, hp.waking, hp.entry, ?_⟩, ?_, ?_⟩
  · obtain ⟨svr, usock, stServaddr, unset, arrMsg, owner, queues, hne, _, h⟩ := h.start
    refine runEventLoop_watched hne rfl (fun _ => rfl) ?_ h
    have hinit := prepared_init svr usock stServaddr unset arrMsg owner queues hne
    rintro fd (rfl | rfl) hnone
    · cases hinit.listening.isOpen.symm.trans hnone
    · cases hinit.waking.isOpen.symm.trans hnone
  · intro who hwho
    rw [hp.silent] at hwho
    exact absurd hwho List.not_mem_nil
  · exact fun fd hfd => Or.inr (Or.inr (hp.unused fd hfd))

/-- No message and no suspended handler names a channel, unless by the number of
one that carries no descriptor. -/
structure SystemGuarded (s : NetioSystem) : Prop where
  net : Guarded s.netio
  queued : ∀ key, ∀ x ∈ s.netio.kernel.queues key, x.cmd.iFd = 0 ∨ ¬s.netio.isChannel x.cmd.iFd
  framed : ∀ c ∈ s.procs, ∀ k obj3, c.frames k = .suspended obj3 →
    obj3.iFd = 0 ∨ ¬s.netio.isChannel obj3.iFd

theorem SystemGuarded.taken {s : NetioSystem} (hg : SystemGuarded s) {rcvFailed : Bool} {oCmd : CCmd}
    (h : takenCmd s.netio rcvFailed = some oCmd) : oCmd.iFd = 0 ∨ ¬s.netio.isChannel oCmd.iFd := by
  rcases takenCmd_cases h with rfl | ⟨x, hx, rfl⟩
  · exact Or.inl (by decide)
  · rw [QMsg.cmd_eq]
    exact hg.queued _ x hx

theorem systemGuarded_netio {s s' : NetioSystem} {l : NetioLabel} (hw : Wired s.netio)
    (hg : SystemGuarded s) (hl : l.Spares s.netio) (h : netioSystem.step s (.netio l) s') :
    SystemGuarded s' := by
  obtain ⟨hnet, hprocs, hothers⟩ := system_netio_step h
  have hchannel := (netio_step_case hw hnet).isChannel hw
  refine ⟨?_, ?_, ?_⟩
  · obtain ⟨hen, hstep⟩ := hnet
    cases l with
    | event fd events out => exact guarded_event hw hg.net hen hl hstep
    | response rcvFailed origin => exact guarded_response hg.net (fun _ h => hg.taken h) hl hstep
    | others queues => exact absurd rfl (hothers queues)
  · simp only [hchannel]
    refine netio_step_fds hw h (fun fd => fd = 0 ∨ ¬s.netio.isChannel fd) hg.queued ?_
    exact fun fd _ hread => Or.inr (hg.net.channels.ne_flagged (Or.inl hread))
  · simp only [hchannel]
    exact hprocs ▸ hg.framed

theorem systemGuarded_process {s s' : NetioSystem} {i : Nat} {sent : Bool} (hs : Sound (s.behind []))
    (hg : SystemGuarded s) (h : netioSystem.step s (.process i sent) s') : SystemGuarded s' := by
  obtain ⟨hback, hnetio⟩ := system_process_step h []
  have hchannel : ∀ fd, s'.netio.isChannel fd ↔ s.netio.isChannel fd :=
    isChannel_congr (by rw [hnetio]) (by rw [hnetio])
  obtain ⟨hqueued, hframed⟩ := fire_step_fds hs hback (fun fd => fd = 0 ∨ ¬s.netio.isChannel fd)
    (Or.inl rfl) hg.queued hg.framed
  refine ⟨hnetio ▸ hg.net.of_same rfl rfl rfl rfl rfl (fun _ hwho => hwho), ?_, ?_⟩
  · simp only [hchannel]
    exact hqueued
  · simp only [hchannel]
    exact hframed

theorem systemGuarded_reach {s : NetioSystem} (h : netioSystem.Reach NetioSystem.Spares s) :
    SystemGuarded s := by
  induction h with
  | init hs =>
    obtain ⟨hempty, hidle⟩ := hs.idle
    refine ⟨guarded_start hs.netio, ?_, fun c hc k obj3 hk => absurd hk (hidle c hc k obj3)⟩
    intro key x hx
    rw [hempty] at hx
    exact absurd hx List.not_mem_nil
  | @step _ _ l hreach hok hstep ih =>
    cases l with
    | netio l => exact systemGuarded_netio (wired_reach (system_netio hreach)) ih hok hstep
    | process i sent => exact systemGuarded_process (system_sound hreach) ih hstep

theorem event_watches {s s' : Reactor} {fd x : Int32} {events : UInt32} {out : Outcomes} (hw : Wired s)
    (hreg : s.kernel.epoll fd ≠ none) (h : s.processItem fd events out = .ok s') (hx : x ≠ fd)
    (hwatch : s.kernel.epoll x ≠ none) : s'.kernel.epoll x ≠ none := by
  have removed : ∀ {k : Kernel}, k.epoll = Function.update s.kernel.epoll fd none → k.epoll x ≠ none := by
    intro k hk
    rwa [hk, Function.update_of_ne hx]
  cases event_case hw hreg h with
  | accepts hconn =>
    refine (doConn_preserves (P := fun r => Wired r ∧ r.kernel.epoll x ≠ none)
      (fun _ _ hP => hP.1.unregistered) ?_ ?_ ⟨hw, hwatch⟩ hconn).2
    · intro r y hP hfree
      have hy : x ≠ y := fun he => hP.2 (he ▸ hP.1.unregistered hfree)
      refine ⟨wired_dropped hP.1, ?_⟩
      simpa [Reactor.dropped, Kernel.close, Kernel.accept, hy] using hP.2
    · intro r y addr hP hfree _
      have hy : x ≠ y := fun he => hP.2 (he ▸ hP.1.unregistered hfree)
      exact ⟨wired_accepted hP.1, by rw [accepted_epoll addr hy]; exact hP.2⟩
  | idle => exact hwatch
  | look => exact hwatch
  | hangup => exact removed rfl
  | lost => exact removed rfl
  | recv =>
    rw [(asked_frame s _ _ _ _).2.1]
    exact hwatch
  | send => exact removed rfl

theorem response_watches {s s' : Reactor} {x : Int32} {rcvFailed : Bool} {origin : Option Nat}
    (h : s.onEventFire rcvFailed origin = .ok s') (hwatch : s.kernel.epoll x ≠ none) :
    s'.kernel.epoll x ≠ none := by
  obtain ⟨queues, _, ⟨_, rfl⟩ | ⟨oCmd, r, _, _, hadd⟩⟩ := response_fire h
  · exact hwatch
  · have hreceived : (s.received queues oCmd.iFd (storedMsg s rcvFailed) rcvFailed origin).kernel.epoll x ≠
        none := by
      cases rcvFailed <;> exact hwatch
    by_cases hx : x = oCmd.iFd
    · subst hx
      obtain ⟨_, ⟨_, _, rfl⟩ | ⟨_, ⟨rfl, _⟩ | ⟨_, _, rfl⟩ | ⟨_, _, hout, _⟩⟩⟩ := addToWatchList_cases hadd
      · exact hreceived
      · rwa [storeItem_kernel]
      · simp [Kernel.watch]
      · exact absurd hout hreceived
    · obtain ⟨_, _, _, _, hepoll, _⟩ := addToWatchList_frame hadd
      rwa [hepoll x hx]

theorem processItems_cons {r : EpollEvent} {rest : List EpollEvent} {s s' : Reactor}
    (hreg : ∀ r' ∈ r :: rest, s.kernel.epoll r'.fd ≠ none)
    (hdistinct : ((r :: rest).map EpollEvent.fd).Nodup) (hw : Wired s)
    (h : s.processItems (r :: rest) = .ok s') :
    ∃ s1, s.processItem r.fd r.events r.out = .ok s1 ∧ s1.processItems rest = .ok s' ∧ Wired s1 ∧
      (∀ r' ∈ rest, s1.kernel.epoll r'.fd ≠ none) ∧ (rest.map EpollEvent.fd).Nodup := by
  unfold Reactor.processItems at h
  split at h
  next => cases h
  next s1 h1 =>
    have hr := hreg r List.mem_cons_self
    obtain ⟨hfresh, hdistinct⟩ := List.nodup_cons.mp hdistinct
    refine ⟨s1, h1, h, wired_step (l := .event r.fd r.events r.out) hw ⟨hr, h1⟩, ?_, hdistinct⟩
    intro r' hm
    have hne : r'.fd ≠ r.fd := fun he => hfresh (he ▸ List.mem_map_of_mem hm)
    exact event_watches hw hr h1 hne (hreg r' (List.mem_cons_of_mem _ hm))

/-- What every reported descriptor in its turn keeps, the loop of ProcessEvent keeps. -/
theorem processItems_keeps {P : Reactor → Prop} {items : List EpollEvent} {s s' : Reactor}
    (hstep : ∀ r ∈ items, ∀ s s', Wired s → P s → s.kernel.epoll r.fd ≠ none →
      s.processItem r.fd r.events r.out = .ok s' → P s')
    (hreg : ∀ r ∈ items, s.kernel.epoll r.fd ≠ none) (hdistinct : (items.map EpollEvent.fd).Nodup)
    (hw : Wired s) (hP : P s) (h : s.processItems items = .ok s') : P s' := by
  induction items generalizing s with
  | nil => cases Except.ok.inj h; exact hP
  | cons r rest ih =>
    obtain ⟨s1, h1, hrest, hw1, hreg1, hdistinct1⟩ := processItems_cons hreg hdistinct hw h
    exact ih (fun r hm => hstep r (List.mem_cons_of_mem _ hm)) hreg1 hdistinct1 hw1
      (hstep r List.mem_cons_self s s1 hw hP (hreg r List.mem_cons_self) h1) hrest

/-- A call of ProcessEvent is a run of the machine. -/
theorem processEvent_reach {s : NetioSystem} {s' : Reactor} {b : Batch}
    (h : netioSystem.Reach NetioSystem.Spares s) (hb : b.Reported s.netio) (hspares : b.Spares s.netio)
    (hrun : s.netio.processEvent b = .ok s') :
    netioSystem.Reach NetioSystem.Spares { s with netio := s' } := by
  unfold Reactor.processEvent at hrun
  split at hrun
  next => cases hrun
  next s1 hfire =>
    have hnet := wired_reach (system_netio h)
    have hnext : netio.step s.netio (.response b.rcvFailed b.origin) s1 := ⟨hb.answers, hfire⟩
    have hreach : netioSystem.Reach NetioSystem.Spares { s with netio := s1 } := by
      refine h.step (l := .netio (.response b.rcvFailed b.origin)) hspares.1 ⟨hb.answers, ?_⟩
      simp only [systemStep, netioStep, hfire]
    refine (processItems_keeps (P := fun r => netioSystem.Reach NetioSystem.Spares { s with netio := r } ∧
      ∀ fd, r.isChannel fd ↔ s.netio.isChannel fd) ?_
      (fun r hm => response_watches hfire (hb.members r hm)) hb.distinct (wired_step hnet hnext)
      ⟨hreach, (netio_step_case hnet hnext).isChannel hnet⟩ hrun).1
    rintro r hm s2 s3 hw2 ⟨hreach2, hchannel2⟩ hreg hitem
    refine ⟨?_, fun fd => ((event_case hw2 hreg hitem).isChannel hw2 fd).trans (hchannel2 fd)⟩
    refine hreach2.step (l := .netio (.event r.fd r.events r.out)) ?_ ⟨hreg, ?_⟩
    · exact fun hup hfd => hspares.2 r hm hup ((hchannel2 r.fd).mp hfd)
    · simp only [systemStep, netioStep, hitem]

section

variable {s s' : Reactor} {x fd : Int32} {who : FdOwner} {flag : EventFlag}

theorem lost_of_frame (fd : Int32) (hlost : ¬Held s x who flag)
    (howner : x ≠ fd → s'.kernel.owner x = s.kernel.owner x)
    (hitem : x ≠ fd → s'.m_arrTcpSock x = s.m_arrTcpSock x) (hfd : ¬Held s' fd who flag) :
    ¬Held s' x who flag := by
  by_cases hx : x = fd
  · rwa [hx]
  · exact fun hh => hlost ⟨howner hx ▸ hh.isOpen, hitem hx ▸ hh.flagged⟩

theorem lost_closed (hlost : ¬Held s x who flag) : ¬Held (s.closed fd) x who flag := by
  refine lost_of_frame fd hlost (fun hx => Function.update_of_ne hx _ _)
    (fun hx => Function.update_of_ne hx _ _) ?_
  intro hh
  simpa [Reactor.closed, Kernel.close] using hh.isOpen

theorem lost_dropped (hlost : ¬Held s x who flag) : ¬Held (s.dropped fd) x who flag := by
  refine lost_of_frame fd hlost ?_ (fun _ => rfl) ?_
  · intro hx
    rw [dropped_owner, Function.update_of_ne hx]
  · intro hh
    simpa [dropped_owner] using hh.isOpen

theorem lost_accepted (addr : SockAddrIn) (hwho : ∀ c, who ≠ .conn c) (hlost : ¬Held s x who flag) :
    ¬Held (s.accepted fd addr) x who flag := by
  obtain ⟨howner, _, _, hitem, _⟩ := accepted_frame s fd addr
  refine lost_of_frame fd hlost ?_ ?_ ?_
  · intro hx
    rw [howner, Function.update_of_ne hx]
  · intro hx
    rw [hitem, Function.update_of_ne hx]
  · intro hh
    have hopen := hh.isOpen
    rw [howner, Function.update_self] at hopen
    exact hwho _ (Option.some.inj hopen).symm

/-- Nothing gives a channel back its socket or its flag. -/
theorem lost_event {events : UInt32} {out : Outcomes} (hw : Wired s) (hreg : s.kernel.epoll fd ≠ none)
    (hwho : ∀ c, who ≠ .conn c) (hflag : flag ≠ .TCP_SERVER_SEND) (hlost : ¬Held s x who flag)
    (h : s.processItem fd events out = .ok s') : ¬Held s' x who flag := by
  cases event_case hw hreg h with
  | accepts hconn =>
    refine (doConn_preserves (P := fun r => Wired r ∧ ¬Held r x who flag)
      (fun _ _ hP => hP.1.unregistered) ?_ ?_ ⟨hw, hlost⟩ hconn).2
    · exact fun _ _ hP _ => ⟨wired_dropped hP.1, lost_dropped hP.2⟩
    · exact fun _ _ addr hP _ _ => ⟨wired_accepted hP.1, lost_accepted addr hwho hP.2⟩
  | idle => exact hlost
  | look => exact fun hh => hlost ⟨hh.isOpen, hh.flagged⟩
  | hangup => exact lost_closed hlost
  | lost =>
    refine lost_of_frame fd hlost (fun hx => Function.update_of_ne hx _ _) (fun _ => rfl) ?_
    intro hh
    simpa [Reactor.lost, Kernel.close] using hh.isOpen
  | @recv _ _ out buf key =>
    obtain ⟨howner, _⟩ := asked_frame s fd key buf out.sent
    have hitem := asked_item s fd key buf out.sent
    refine lost_of_frame fd hlost (fun _ => by rw [howner]) ?_ ?_
    · intro hx
      rw [hitem, Function.update_of_ne hx]
    · intro hh
      have hflagged := hh.flagged
      rw [hitem, Function.update_self] at hflagged
      exact hflag hflagged.symm
  | send =>
    have hwritten : ¬Held (s.written fd) x who flag := fun hh => hlost ⟨hh.isOpen, hh.flagged⟩
    exact lost_closed hwritten

/-- The test on the two datagram flags lets every flag through. -/
theorem hangup_closed {events : UInt32} {out : Outcomes} (hw : Wired s) (hreg : s.kernel.epoll fd ≠ none)
    (hup : events &&& EPOLLRDHUP = EPOLLRDHUP) (h : s.processItem fd events out = .ok s') :
    s' = s.closed fd := by
  have htest : (s.m_arrTcpSock fd).enEventFlag ≠ .UDP_READ ∨ (s.m_arrTcpSock fd).enEventFlag ≠ .UDP_SEND := by
    cases (s.m_arrTcpSock fd).enEventFlag <;> simp
  unfold Reactor.processItem at h
  dsimp only at h
  rw [if_pos hup, if_pos htest, (hw.registered fd hreg).2] at h
  exact doClose_eq h

theorem items_lost {items : List EpollEvent} (hwho : ∀ c, who ≠ .conn c) (hflag : flag ≠ .TCP_SERVER_SEND)
    (hreg : ∀ r ∈ items, s.kernel.epoll r.fd ≠ none) (hdistinct : (items.map EpollEvent.fd).Nodup)
    (hw : Wired s) (hlost : ¬Held s x who flag) (h : s.processItems items = .ok s') :
    ¬Held s' x who flag :=
  processItems_keeps (P := fun r => ¬Held r x who flag)
    (fun _ _ _ _ hw hlost hreg h => lost_event hw hreg hwho hflag hlost h) hreg hdistinct hw hlost h

/-- A descriptor whose end of stream is in the batch is closed and stays so. -/
theorem items_hangup {items : List EpollEvent} {r : EpollEvent} (hwho : ∀ c, who ≠ .conn c)
    (hflag : flag ≠ .TCP_SERVER_SEND) (hreg : ∀ r ∈ items, s.kernel.epoll r.fd ≠ none)
    (hdistinct : (items.map EpollEvent.fd).Nodup) (hw : Wired s) (hr : r ∈ items)
    (hup : r.events &&& EPOLLRDHUP = EPOLLRDHUP) (h : s.processItems items = .ok s') :
    ¬Held s' r.fd who flag := by
  induction items generalizing s with
  | nil => exact absurd hr List.not_mem_nil
  | cons r0 rest ih =>
    obtain ⟨s1, h1, hrest, hw1, hreg1, hdistinct1⟩ := processItems_cons hreg hdistinct hw h
    rcases List.mem_cons.mp hr with rfl | hr
    · refine items_lost hwho hflag hreg1 hdistinct1 hw1 ?_ hrest
      intro hh
      rw [hangup_closed hw (hreg r List.mem_cons_self) hup h1] at hh
      simpa [Reactor.closed, Kernel.close] using hh.isOpen
    · exact ih hreg1 hdistinct1 hw1 hr hrest

theorem response_flagged {rcvFailed : Bool} {origin : Option Nat} {oCmd : CCmd}
    (htaken : takenCmd s rcvFailed = some oCmd)
    (hvalid : s.sockValid oCmd.iFd (.item (responseSock oCmd)) = true)
    (h : s.onEventFire rcvFailed origin = .ok s') :
    (s'.m_arrTcpSock oCmd.iFd).enEventFlag = .TCP_SERVER_SEND := by
  obtain ⟨queues, _, ⟨hnone, _⟩ | ⟨oCmd', r, htaken', _, hadd⟩⟩ := response_fire h
  · rw [htaken] at hnone
    cases hnone
  · obtain rfl := Option.some.inj (htaken.symm.trans htaken')
    obtain ⟨_, ⟨_, hinvalid, _⟩ | ⟨_, ⟨rfl, _⟩ | ⟨_, _, rfl⟩ | ⟨_, _, _, rfl⟩⟩⟩ := addToWatchList_cases hadd
    · rw [received_sockValid, hvalid] at hinvalid
      cases hinvalid
    · simp [Reactor.storeItem, Reactor.setItem, responseSock]
    · simp [Reactor.storeItem, Reactor.setItem, responseSock]
    · simp [Reactor.storeItem, Reactor.setItem, responseSock]

theorem Channels.held (hc : Channels s) (hfd : s.isChannel fd) :
    ∃ who flag, (∀ c, who ≠ FdOwner.conn c) ∧ flag ≠ EventFlag.TCP_SERVER_SEND ∧ Held s fd who flag := by
  rcases hfd with rfl | rfl
  · exact ⟨_, _, by simp, by simp, hc.listening⟩
  · exact ⟨_, _, by simp, by simp, hc.waking⟩

end

theorem processItems_isChannel {items : List EpollEvent} {s s' : Reactor}
    (hreg : ∀ r ∈ items, s.kernel.epoll r.fd ≠ none) (hdistinct : (items.map EpollEvent.fd).Nodup)
    (hw : Wired s) (h : s.processItems items = .ok s') : ∀ fd, s'.isChannel fd ↔ s.isChannel fd := by
  refine processItems_keeps (P := fun r => ∀ fd, r.isChannel fd ↔ s.isChannel fd) ?_ hreg hdistinct hw
    (fun _ => Iff.rfl) h
  intro r _ s2 s3 hw2 hP hreg2 hitem fd
  exact ((event_case hw2 hreg2 hitem).isChannel hw2 fd).trans (hP fd)

/-- A call of ProcessEvent that keeps the channels has spared them. -/
theorem processEvent_spared {s s' : Reactor} {b : Batch} (hw : Wired s) (hb : b.Reported s)
    (hrun : s.processEvent b = .ok s') (hc : Channels s') : b.Spares s := by
  unfold Reactor.processEvent at hrun
  split at hrun
  next => cases hrun
  next s1 hfire =>
    have hnext : netio.step s (.response b.rcvFailed b.origin) s1 := ⟨hb.answers, hfire⟩
    have hw1 := wired_step hw hnext
    have hreg1 : ∀ r ∈ b.ready, s1.kernel.epoll r.fd ≠ none :=
      fun r hm => response_watches hfire (hb.members r hm)
    have hchannel : ∀ fd, s'.isChannel fd ↔ s.isChannel fd := fun fd =>
      (processItems_isChannel hreg1 hb.distinct hw1 hrun fd).trans
        ((netio_step_case hw hnext).isChannel hw fd)
    refine ⟨?_, ?_⟩
    · intro oCmd htaken hzero hfd
      by_contra hvalid
      have hvalid : s.sockValid oCmd.iFd (.item (responseSock oCmd)) = true := by
        rw [hzero]
        simpa using hvalid
      obtain ⟨who, flag, hwho, hflag, hheld⟩ := hc.held ((hchannel 0).mpr hfd)
      refine items_lost hwho hflag hreg1 hb.distinct hw1 ?_ hrun hheld
      intro hh
      have hsend := response_flagged htaken hvalid hfire
      rw [hzero, hh.flagged] at hsend
      exact hflag hsend
    · intro r hr hup hfd
      obtain ⟨who, flag, hwho, hflag, hheld⟩ := hc.held ((hchannel r.fd).mpr hfd)
      exact items_hangup hwho hflag hreg1 hb.distinct hw1 hr hup hrun hheld

/-- In every run that spares the channels, neither is closed, reset or taken out
of the epoll set and only connections are closed; and a call of ProcessEvent
keeps it so exactly when it spares them too. -/
theorem processEvent_channels {s : NetioSystem} (h : netioSystem.Reach NetioSystem.Spares s) {b : Batch}
    (hb : b.Reported s.netio) {s' : Reactor} (hrun : s.netio.processEvent b = .ok s') :
    (Channels s.netio ∧ OnlyClients s.netio) ∧ (Channels s' ∧ OnlyClients s' ↔ b.Spares s.netio) := by
  have hg := (systemGuarded_reach h).net
  refine ⟨⟨hg.channels, hg.clients⟩, ?_, ?_⟩
  · rintro ⟨hc, _⟩
    exact processEvent_spared (wired_reach (system_netio h)) hb hrun hc
  · intro hspares
    have hg' := (systemGuarded_reach (processEvent_reach h hb hspares hrun)).net
    exact ⟨hg'.channels, hg'.clients⟩

instance decidableNetioSpares (s : Reactor) : (l : NetioLabel) → Decidable (l.Spares s)
  | .event fd events _ => inferInstanceAs (Decidable (events &&& EPOLLRDHUP = EPOLLRDHUP → ¬s.isChannel fd))
  | .response rcvFailed _ => inferInstanceAs (Decidable (∀ oCmd ∈ takenCmd s rcvFailed, oCmd.iFd = 0 →
      s.isChannel 0 → s.sockValid 0 (.item (responseSock oCmd)) = false))
  | .others _ => isTrue trivial

instance decidableSystemSpares (s : NetioSystem) : (l : SystemLabel) → Decidable (s.Spares l)
  | .netio l => inferInstanceAs (Decidable (l.Spares s.netio))
  | .process _ _ => isTrue trivial

instance decidableBatchSpares (b : Batch) (s : Reactor) : Decidable (b.Spares s) :=
  inferInstanceAs (Decidable ((NetioLabel.response b.rcvFailed b.origin).Spares s ∧
    ∀ r ∈ b.ready, (NetioLabel.event r.fd r.events r.out).Spares s))

/-- A call of ProcessEvent, and what a test says of the state it leaves. -/
def Reactor.afterBatch (s : Reactor) (b : Batch) (p : Reactor → Bool) : Bool :=
  match s.processEvent b with
  | .ok s' => decide (∀ r ∈ b.ready, s.kernel.epoll r.fd ≠ none) && p s'
  | .error _ => false

theorem afterBatch_run {s : Reactor} {ready : List EpollEvent} {p : Reactor → Bool}
    (hdistinct : (ready.map EpollEvent.fd).Nodup) (h : s.afterBatch { ready := ready } p = true) :
    Batch.Reported { ready := ready } s ∧
      ∃ s', s.processEvent { ready := ready } = .ok s' ∧ p s' = true := by
  unfold Reactor.afterBatch at h
  split at h
  next s' hs' =>
    obtain ⟨hreg, hp⟩ := Bool.and_eq_true_iff.mp h
    exact ⟨⟨fun c hc => (by cases hc), of_decide_eq_true hreg, hdistinct⟩, s', hs', hp⟩
  next => contradiction

/-- A client hangs up in the batch in which the wake-up arrives. -/
theorem processEvent_channels_sample :
    ∃ s : NetioSystem, s.netio.kernel.owner 5 = some (.conn 0) ∧
      ∃ s', s.netio.processEvent { ready := [⟨5, 0x2001, {}⟩, ⟨4, 1, {}⟩] } = .ok s' ∧
        s'.kernel.owner 5 = none ∧ Channels s' ∧ OnlyClients s' := by
  obtain ⟨s, hs, hp⟩ := sampleSystem_reach NetioSystem.Spares
    [.netio (.event 3 1 { accepts := [.conn 5 ⟨2, 4000, ⟨10, 0, 0, 1⟩⟩ true true] })]
    (fun s => decide (s.netio.kernel.owner 5 = some (.conn 0) ∧
        Batch.Spares { ready := [⟨5, 0x2001, {}⟩, ⟨4, 1, {}⟩] } s.netio) &&
      s.netio.afterBatch { ready := [⟨5, 0x2001, {}⟩, ⟨4, 1, {}⟩] }
        (fun s' => decide (s'.kernel.owner 5 = none))) (by decide +kernel)
  obtain ⟨hstart, hafter⟩ := Bool.and_eq_true_iff.mp hp
  obtain ⟨hopen, hspares⟩ := of_decide_eq_true hstart
  obtain ⟨hb, s', hrun, hclosed⟩ := afterBatch_run (by decide) hafter
  obtain ⟨_, hkept⟩ := processEvent_channels hs hb hrun
  exact ⟨s, hopen, s', hrun, of_decide_eq_true hclosed, hkept.mpr hspares⟩

/-- An end of stream reported for a channel closes it: the listening socket is
3 here and the unix socket 4. -/
theorem processEvent_closes_channels :
    ∃ s : NetioSystem, netioSystem.Reachable s ∧ ∀ fd, s.netio.isChannel fd →
      Batch.Reported { ready := [⟨fd, 0x2000, {}⟩] } s.netio ∧
        ∃ s', s.netio.processEvent { ready := [⟨fd, 0x2000, {}⟩] } = .ok s' ∧ s'.kernel.owner fd = none ∧
          (s'.m_arrTcpSock fd).enEventFlag = .NONE_FLAG ∧ s'.kernel.epoll fd = none ∧ ¬OnlyClients s' := by
  have only : ∀ {s : Reactor} {who}, who = some FdOwner.listener ∨ who = some .usock →
      Syscall.close who ∈ s.kernel.log → ¬OnlyClients s := by
    intro s who hwho hclose hclients
    obtain ⟨c, hc⟩ := hclients who hclose
    rcases hwho with rfl | rfl <;> cases hc
  obtain ⟨s, hs, hp⟩ := sampleSystem_reach (fun _ _ => True) []
    (fun s => decide (s.netio.m_iSvrFd = 3 ∧ s.netio.m_iUSockFd = 4) &&
      [(3, FdOwner.listener), (4, .usock)].all fun (fd, who) =>
        s.netio.afterBatch { ready := [⟨fd, 0x2000, {}⟩] } fun s' => decide (s'.kernel.owner fd = none ∧
          (s'.m_arrTcpSock fd).enEventFlag = .NONE_FLAG ∧ s'.kernel.epoll fd = none ∧
          Syscall.close (some who) ∈ s'.kernel.log)) (by decide +kernel)
  obtain ⟨hchannels, hafter⟩ := Bool.and_eq_true_iff.mp hp
  obtain ⟨hsvr, husock⟩ := of_decide_eq_true hchannels
  refine ⟨s, hs, fun fd hfd => ?_⟩
  obtain ⟨who, hwho, hm⟩ : ∃ who, (some who = some FdOwner.listener ∨ some who = some .usock) ∧
      (fd, who) ∈ [((3 : Int32), FdOwner.listener), (4, .usock)] := by
    rcases hfd with rfl | rfl
    · exact ⟨_, Or.inl rfl, by simp [hsvr]⟩
    · exact ⟨_, Or.inr rfl, by simp [husock]⟩
  obtain ⟨hb, s', hrun, hlost⟩ := afterBatch_run (by simp) (List.all_eq_true.mp hafter _ hm)
  obtain ⟨hclosed, hreset, hout, hclose⟩ := of_decide_eq_true hlost
  exact ⟨hb, s', hrun, hclosed, hreset, hout, only hwho hclose⟩

end NetioMiddleware

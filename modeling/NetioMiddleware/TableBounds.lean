import NetioMiddleware.HandlerPool

namespace NetioMiddleware

/-- No index into m_arrTcpSock or m_arrMsg is outside the table. -/
def InTables {α : Type} (r : Except Halt α) : Prop := r ≠ .error .sockIndex ∧ r ≠ .error .msgIndex

/-- Every connection accept returns, and fcntl accepts, fits both tables. -/
def NetioLabel.Holdable : NetioLabel → Prop
  | .event _ _ out => ∀ fd addr, AcceptOutcome.conn fd addr true true ∈ out.accepts →
      inArray MAX_MSG_SIZE fd = true
  | _ => True

def NetioSystem.Holdable (_ : NetioSystem) : SystemLabel → Prop
  | .netio l => l.Holdable
  | .process _ _ => True

theorem inTables_ok {α : Type} (a : α) : InTables (.ok a : Except Halt α) := ⟨by simp, by simp⟩

theorem inArray_of_msg {fd : Int32} (h : inArray MAX_MSG_SIZE fd = true) :
    inArray MAX_EPOLL_EVENT_NUM fd = true := by
  unfold inArray MAX_MSG_SIZE at h
  unfold inArray MAX_EPOLL_EVENT_NUM
  have hlt := of_decide_eq_true h
  exact decide_eq_true ⟨hlt.1, by omega⟩

section

variable {s : Reactor} {fd : Int32}

theorem doConn_inTables {l : List AcceptOutcome} {iConn : Int32}
    (hl : ∀ fd addr, AcceptOutcome.conn fd addr true true ∈ l → inArray MAX_MSG_SIZE fd = true) :
    InTables (s.doConn iConn l) := by
  induction l generalizing s with
  | nil => exact inTables_ok s
  | cons o l ih =>
    cases o with
    | error => exact inTables_ok s
    | conn fd addr getfl setfl =>
      unfold Reactor.doConn
      split
      next => exact ⟨by simp, by simp⟩
      next =>
        dsimp only
        split
        next => exact inTables_ok _
        next hflags =>
          obtain ⟨rfl, rfl⟩ : getfl = true ∧ setfl = true := by simpa using hflags
          have hfd := inArray_of_msg (hl fd addr List.mem_cons_self)
          rw [if_neg (by simp [hfd])]
          split
          next e he => exact absurd he (addToWatchList_ne_error hfd)
          next => exact ih (fun fd addr hm => hl fd addr (List.mem_cons_of_mem _ hm))

theorem doRecv_inTables {read : Option Bytes} {sent : Bool} (hfd : inArray MAX_EPOLL_EVENT_NUM fd = true) :
    InTables (s.doRecv fd read sent) := by
  unfold Reactor.doRecv
  split
  next => exact inTables_ok _
  next => exact inTables_ok _
  next =>
    split
    next => exact ⟨by simp, by simp⟩
    next =>
      split
      next => exact ⟨by simp, by simp⟩
      next =>
        split
        next => exact ⟨by simp, by simp⟩
        next =>
          split
          next => exact ⟨by simp, by simp⟩
          next =>
            rw [if_neg (by simp [hfd])]
            exact inTables_ok _

theorem doClose_inTables (hfd : inArray MAX_EPOLL_EVENT_NUM fd = true) : InTables (s.doClose fd) := by
  unfold Reactor.doClose
  rw [if_neg (by simp [hfd])]
  exact inTables_ok _

theorem doSend_inTables (hfd : inArray MAX_MSG_SIZE fd = true) : InTables (s.doSend fd) := by
  unfold Reactor.doSend
  rw [if_neg (by simp [hfd])]
  split
  next => exact ⟨by simp, by simp⟩
  next => exact doClose_inTables (inArray_of_msg hfd)

theorem onEventFire_inTables {rcvFailed : Bool} {origin : Option Nat}
    (hcmd : ∀ oCmd, takenCmd s rcvFailed = some oCmd → inArray MAX_MSG_SIZE oCmd.iFd = true) :
    InTables (s.onEventFire rcvFailed origin) := by
  unfold Reactor.onEventFire
  split
  next iRet len stMsg k htake =>
    split
    next => exact inTables_ok _
    next htaken =>
      have hfd := hcmd (initCCmd {} stMsg.sBuf) (by simp only [takenCmd, htake, if_neg htaken])
      dsimp only
      rw [if_neg (by simp [hfd])]
      split
      next e he => exact absurd he (addToWatchList_ne_error (inArray_of_msg hfd))
      next => exact inTables_ok _

end

/-- Whatever is asked on or answered has an entry in m_arrMsg, and so has every
connection. -/
structure NetTables (s : Reactor) : Prop where
  flagged : ∀ fd, (s.m_arrTcpSock fd).enEventFlag = .TCP_SERVER_READ ∨
    (s.m_arrTcpSock fd).enEventFlag = .TCP_SERVER_SEND → inArray MAX_MSG_SIZE fd = true
  connected : ∀ fd c, s.kernel.owner fd = some (.conn c) → inArray MAX_MSG_SIZE fd = true

/-- A step at one descriptor, where all of it that is new is in the tables. -/
theorem NetTables.of_frame {s s' : Reactor} (ht : NetTables s) (fd : Int32)
    (hitem : ∀ x, x ≠ fd → s'.m_arrTcpSock x = s.m_arrTcpSock x)
    (howner : ∀ x, x ≠ fd → s'.kernel.owner x = s.kernel.owner x)
    (hflag : (s'.m_arrTcpSock fd).enEventFlag = .TCP_SERVER_READ ∨
      (s'.m_arrTcpSock fd).enEventFlag = .TCP_SERVER_SEND → inArray MAX_MSG_SIZE fd = true)
    (hconn : ∀ c, s'.kernel.owner fd = some (.conn c) → inArray MAX_MSG_SIZE fd = true) :
    NetTables s' := by
  refine ⟨?_, ?_⟩
  · intro x hx
    by_cases he : x = fd
    · subst he; exact hflag hx
    · exact ht.flagged x (hitem x he ▸ hx)
  · intro x c hx
    by_cases he : x = fd
    · subst he; exact hconn c hx
    · exact ht.connected x c (howner x he ▸ hx)

theorem NetTables.of_same {s s' : Reactor} (ht : NetTables s) (hitem : s'.m_arrTcpSock = s.m_arrTcpSock)
    (howner : s'.kernel.owner = s.kernel.owner) : NetTables s' :=
  ⟨hitem ▸ ht.flagged, howner ▸ ht.connected⟩

section

variable {s : Reactor} {fd : Int32} (ht : NetTables s)

include ht

theorem tables_closed : NetTables (s.closed fd) := by
  refine ht.of_frame fd (fun x hx => Function.update_of_ne hx _ _)
    (fun x hx => Function.update_of_ne hx _ _) ?_ ?_
  · intro h
    simp [Reactor.closed, Reactor.setItem, TcpSockItem.reset] at h
  · intro c h
    simp [Reactor.closed, Kernel.close] at h

theorem tables_lost : NetTables (s.lost fd) := by
  refine ht.of_frame fd (fun _ _ => rfl) (fun x hx => Function.update_of_ne hx _ _) (ht.flagged fd) ?_
  intro c h
  simp [Reactor.lost, Kernel.close] at h

theorem tables_dropped : NetTables (s.dropped fd) := by
  refine ht.of_frame fd (fun _ _ => rfl) ?_ (ht.flagged fd) ?_
  · intro x hx
    rw [dropped_owner, Function.update_of_ne hx]
  · intro c h
    simp [dropped_owner] at h

theorem tables_accepted {addr : SockAddrIn} (hfd : inArray MAX_MSG_SIZE fd = true) :
    NetTables (s.accepted fd addr) := by
  obtain ⟨howner, _, _, hitem, _⟩ := accepted_frame s fd addr
  exact ht.of_frame fd (fun x hx => by rw [hitem, Function.update_of_ne hx])
    (fun x hx => by rw [howner, Function.update_of_ne hx]) (fun _ => hfd) (fun _ _ => hfd)

theorem tables_asked {key : Int32} {buf : Bytes} {sent : Bool}
    (hread : (s.m_arrTcpSock fd).enEventFlag = .TCP_SERVER_READ) :
    NetTables (s.asked fd key buf sent) := by
  obtain ⟨howner, _⟩ := asked_frame s fd key buf sent
  have hitem := asked_item s fd key buf sent
  have hfd := ht.flagged fd (Or.inl hread)
  refine ht.of_frame fd ?_ (fun x _ => by rw [howner]) (fun _ => hfd) (fun _ _ => hfd)
  intro x hx
  rw [hitem, Function.update_of_ne hx]

theorem tables_addToWatchList {s' : Reactor} {op : EventFlag} {pData : WatchData} {chk : Bool} {r : Int32}
    (hfd : pData ≠ .own → inArray MAX_MSG_SIZE fd = true)
    (h : s.addToWatchList fd op pData chk = .ok (r, s')) : NetTables s' := by
  obtain ⟨hk, _, _, _, _, hitem, hstored, _⟩ := addToWatchList_frame h
  have howner : s'.kernel.owner = s.kernel.owner := by rw [hk]
  refine ht.of_frame fd hitem (fun x _ => by rw [howner]) ?_ (fun c hc => ht.connected fd c (howner ▸ hc))
  cases pData with
  | own =>
    have hsame : s'.m_arrTcpSock = s.m_arrTcpSock := hstored.elim id id
    rw [hsame]
    exact ht.flagged fd
  | item => exact fun _ => hfd (by simp)

end

theorem tables_step {s s' : Reactor} {l : NetioLabel} (hw : Wired s) (ht : NetTables s)
    (hcmd : ∀ rcvFailed oCmd, takenCmd s rcvFailed = some oCmd → inArray MAX_MSG_SIZE oCmd.iFd = true)
    (hl : l.Holdable) (h : StepCase s l s') : NetTables s' := by
  cases h with
  | accepts hconn =>
    refine (doConn_keeps (P := fun s => Wired s ∧ NetTables s) ?_ ?_ ?_ hl ⟨hw, ht⟩ hconn).2
    · intro s fd hP hfree
      exact hP.1.unregistered hfree
    · intro s fd hP hfree
      exact ⟨wired_dropped hP.1, tables_dropped hP.2⟩
    · intro s fd addr hP hfree _ hfd
      exact ⟨wired_accepted hP.1, tables_accepted hP.2 hfd⟩
  | idle => exact ht
  | look => exact ht.of_same rfl rfl
  | hangup => exact tables_closed ht
  | lost => exact tables_lost ht
  | recv _ _ hread => exact tables_asked ht hread
  | send => exact tables_closed (ht.of_same rfl rfl)
  | nothing => exact ht.of_same rfl rfl
  | @respond f origin q _ _ _ _ htaken _ _ _ hadd =>
    refine tables_addToWatchList (s := s.received q _ _ f origin) ?_ (fun _ => hcmd f _ htaken) hadd
    cases f <;> exact ht.of_same rfl rfl
  | others => exact ht.of_same rfl rfl

theorem tables_start {s : Reactor} (h : NetioStart s) : NetTables s := by
  refine h.induct ?_ ?_
  · intro iSvrFd iUSockFd stServaddr unset arrMsg owner queues hne howner
    refine ⟨?_, fun fd c ho => absurd ho (init_owner_ne_conn howner fd c)⟩
    intro fd hflag
    dsimp only [Reactor.init] at hflag
    by_cases h1 : fd = iUSockFd
    · simp [h1] at hflag
    · by_cases h2 : fd = iSvrFd
      · subst h2; simp [h1] at hflag
      · simp [h1, h2] at hflag
  · exact fun s s' fd op r ht _ _ h => tables_addToWatchList ht (fun h => absurd rfl h) h

theorem handleEvent_inTables {s : Reactor} {fd : Int32} {iType : EventFlag} {out : Outcomes}
    (hfd : inArray MAX_EPOLL_EVENT_NUM fd = true)
    (hsend : iType = .TCP_SERVER_SEND → inArray MAX_MSG_SIZE fd = true)
    (hl : ∀ fd addr, AcceptOutcome.conn fd addr true true ∈ out.accepts → inArray MAX_MSG_SIZE fd = true) :
    InTables (s.handleEvent fd iType out) := by
  unfold Reactor.handleEvent
  split
  next => exact doConn_inTables hl
  next => exact doRecv_inTables hfd
  next => exact doSend_inTables (hsend rfl)
  next => exact doClose_inTables hfd
  next => exact inTables_ok _

theorem processItem_inTables {s : Reactor} {fd : Int32} {events : UInt32} {out : Outcomes} (hw : Wired s)
    (ht : NetTables s) (hreg : s.kernel.epoll fd ≠ none) (hfd : inArray MAX_EPOLL_EVENT_NUM fd = true)
    (hl : ∀ fd addr, AcceptOutcome.conn fd addr true true ∈ out.accepts → inArray MAX_MSG_SIZE fd = true) :
    InTables (s.processItem fd events out) := by
  have handle : ∀ iType, (iType = .TCP_SERVER_SEND → (s.m_arrTcpSock fd).enEventFlag = .TCP_SERVER_SEND) →
      InTables (s.handleEvent fd iType out) := by
    intro iType hsend
    exact handleEvent_inTables hfd (fun h => ht.flagged fd (Or.inr (hsend h))) hl
  unfold Reactor.processItem
  dsimp only
  rw [(hw.registered fd hreg).2]
  split
  next =>
    split
    next => exact handle _ (fun h => by cases h)
    next => exact inTables_ok s
  next =>
    split
    next hsvr => exact hsvr ▸ handle _ id
    next =>
      split
      next => exact handle _ id
      next =>
        split
        next => exact inTables_ok _
        next =>
          split
          next => exact handle _ id
          next => exact inTables_ok s

theorem RepliesTo.iFd {oCmd : CCmd} {key : Int32} {m : QMsg} (h : RepliesTo oCmd key m) :
    m.cmd.iFd = oCmd.iFd := congrArg Sender.iFd h.sender

/-- The descriptors in the messages and behind the suspended handlers come from
the messages that were there before. -/
theorem fire_fds {s : Backend} (hs : Sound s) {c c' : Container} (hc : c ∈ s.procs)
    {queues' : Int32 → List QMsg} {sent : Bool} (h : FireCase s.queues c sent c' queues') (Q : Int32 → Prop)
    (hzero : Q 0) (hqueued : ∀ key, ∀ x ∈ s.queues key, Q x.cmd.iFd)
    (hframed : ∀ k obj3, c.frames k = .suspended obj3 → Q obj3.iFd) :
    (∀ key, ∀ x ∈ queues' key, Q x.cmd.iFd) ∧ ∀ k obj3, c'.frames k = .suspended obj3 → Q obj3.iFd := by
  have kept : ∀ {key : Int32} {x : QMsg} {rest : List QMsg}, (s.queues key).Perm (x :: rest) →
      ∀ k, ∀ y ∈ Function.update s.queues key rest k, Q y.cmd.iFd :=
    fun hperm k y hy => hqueued k y (mem_take hperm hy)
  have offered : ∀ {queues : Int32 → List QMsg} {key : Int32} {m : QMsg},
      (∀ k, ∀ y ∈ queues k, Q y.cmd.iFd) → Q m.cmd.iFd →
      ∀ k, ∀ y ∈ offer queues key m sent k, Q y.cmd.iFd := by
    intro queues key m hq hm k y hy
    rcases mem_offer hy with hy | ⟨_, rfl, _⟩
    · exact hq k y hy
    · exact hm
  have taken : ∀ {x}, c.takes s.queues = some x → Q x.cmd.iFd :=
    fun htakes => hqueued _ _ (takes_mem htakes).1
  refine ⟨?_, ?_⟩
  · cases h with
    | idle _ _ hq => exact hq ▸ hqueued
    | replied htakes hperm _ _ hr _ _ hq =>
      have hfd := (hr (sound_taken hs htakes).ip).iFd
      exact hq ▸ offered (kept hperm) (hfd ▸ taken htakes)
    | kept _ hperm _ _ _ _ _ _ hq => exact hq ▸ kept hperm
    | @held _ _ svc _ hperm _ _ _ _ _ hq =>
      refine hq ▸ offered (kept hperm) ?_
      have hfd := congrArg Header.iFd (askMsg_header svc.m_iIndex svc.m_iCmd)
      generalize cmdMsg REQUEST.toInt { iSvcSerialNo := svc.m_iIndex, iCmd := svc.m_iCmd } = m at hfd ⊢
      have hfd : m.cmd.iFd = 0 := hfd
      rwa [hfd]
    | @resumed _ _ _ obj3 _ m _ hperm _ _ _ hframe hr _ _ hq =>
      have hfd : m.cmd.iFd = obj3.iFd := (hr (hs.plain c hc _ _ hframe)).iFd
      exact hq ▸ offered (kept hperm) (hfd ▸ hframed _ _ hframe)
  · intro k obj3 hk
    rcases fire_frames h hk with hold | ⟨x, htakes, rfl⟩
    · exact hframed k obj3 hold
    · exact taken htakes

theorem fire_step_fds {s s' : Backend} (hs : Sound s) {i : Nat} {sent : Bool}
    (h : backend.step s (.fire i sent) s') (Q : Int32 → Prop) (hzero : Q 0)
    (hqueued : ∀ key, ∀ x ∈ s.queues key, Q x.cmd.iFd)
    (hframed : ∀ c ∈ s.procs, ∀ k obj3, c.frames k = .suspended obj3 → Q obj3.iFd) :
    (∀ key, ∀ x ∈ s'.queues key, Q x.cmd.iFd) ∧
      ∀ c ∈ s'.procs, ∀ k obj3, c.frames k = .suspended obj3 → Q obj3.iFd := by
  cases backend_step_case h with
  | absent => exact ⟨hqueued, hframed⟩
  | @fire _ _ _ front c back c' _ hprocs hprocs' _ hon =>
    have hc : c ∈ s.procs := hprocs ▸ by simp
    obtain ⟨hq, hf⟩ := fire_fds hs hc (fire_case (hs.valid c hc) (hs.text c.svc) hon) Q hzero hqueued
      (hframed c hc)
    refine ⟨hq, ?_⟩
    rw [hprocs']
    exact forall_replace (hprocs ▸ hframed) hf

/-- The tables, and the descriptors netio will read out of messages. -/
structure SystemTables (s : NetioSystem) : Prop where
  net : NetTables s.netio
  queued : ∀ key, ∀ x ∈ s.netio.kernel.queues key, inArray MAX_MSG_SIZE x.cmd.iFd = true
  framed : ∀ c ∈ s.procs, ∀ k obj3, c.frames k = .suspended obj3 → inArray MAX_MSG_SIZE obj3.iFd = true

theorem SystemTables.taken {s : NetioSystem} (ht : SystemTables s) {rcvFailed : Bool} {oCmd : CCmd}
    (h : takenCmd s.netio rcvFailed = some oCmd) : inArray MAX_MSG_SIZE oCmd.iFd = true := by
  rcases takenCmd_cases h with rfl | ⟨x, hx, rfl⟩
  · decide
  · rw [QMsg.cmd_eq]
    exact ht.queued _ x hx

/-- The descriptors in the messages after a step of netio are those that were
there and those it reads requests from. -/
theorem netio_step_fds {s s' : NetioSystem} {l : NetioLabel} (hw : Wired s.netio)
    (h : netioSystem.step s (.netio l) s') (Q : Int32 → Prop)
    (hqueued : ∀ key, ∀ x ∈ s.netio.kernel.queues key, Q x.cmd.iFd)
    (hread : ∀ fd, s.netio.kernel.epoll fd ≠ none →
      (s.netio.m_arrTcpSock fd).enEventFlag = .TCP_SERVER_READ → Q fd) :
    ∀ key, ∀ x ∈ s'.netio.kernel.queues key, Q x.cmd.iFd := by
  obtain ⟨hnet, _, hothers⟩ := system_netio_step h
  intro key x hx
  rcases netio_queues hw hothers (netio_step_case hw hnet) with
    hback | ⟨fd, buf, key', sent, hreg, hflag, _, hq⟩
  · exact hqueued key x (hback.less key x hx)
  · rw [hq] at hx
    rcases mem_offer hx with hx | ⟨_, rfl, _⟩
    · exact hqueued key x hx
    · have hfd : _ = fd := congrArg Header.iFd (cmdMsg_header REQUEST.toInt (c := s.netio.stampCmd fd buf)
        (inetNtoa_plain _))
      generalize cmdMsg REQUEST.toInt (s.netio.stampCmd fd buf) = m at hfd ⊢
      have hfd : m.cmd.iFd = fd := hfd
      rw [hfd]
      exact hread fd hreg hflag

theorem systemTables_netio {s s' : NetioSystem} {l : NetioLabel} (hw : Wired s.netio)
    (ht : SystemTables s) (hl : l.Holdable) (h : netioSystem.step s (.netio l) s') : SystemTables s' := by
  obtain ⟨hnet, hprocs, _⟩ := system_netio_step h
  refine ⟨tables_step hw ht.net (fun _ _ h => ht.taken h) hl (netio_step_case hw hnet), ?_,
    hprocs ▸ ht.framed⟩
  exact netio_step_fds hw h _ ht.queued (fun fd _ hread => ht.net.flagged fd (Or.inl hread))

theorem systemTables_process {s s' : NetioSystem} {i : Nat} {sent : Bool} (hs : Sound (s.behind []))
    (ht : SystemTables s) (h : netioSystem.step s (.process i sent) s') : SystemTables s' := by
  obtain ⟨hback, hnetio⟩ := system_process_step h []
  have hnet : NetTables s'.netio := hnetio ▸ ht.net.of_same rfl rfl
  obtain ⟨hqueued, hframed⟩ := fire_step_fds hs hback (fun fd => inArray MAX_MSG_SIZE fd = true)
    (by decide) ht.queued ht.framed
  exact ⟨hnet, hqueued, hframed⟩

theorem systemTables_reach {s : NetioSystem} (h : netioSystem.Reach NetioSystem.Holdable s) :
    SystemTables s := by
  induction h with
  | init hs =>
    obtain ⟨hempty, hidle⟩ := hs.idle
    refine ⟨tables_start hs.netio, ?_, fun c hc k obj3 hk => absurd hk (hidle c hc k obj3)⟩
    intro key x hx
    rw [hempty] at hx
    exact absurd hx List.not_mem_nil
  | @step _ _ l hreach hok hstep ih =>
    cases l with
    | netio l => exact systemTables_netio (wired_reach (system_netio hreach)) ih hok hstep
    | process i sent => exact systemTables_process (system_sound hreach) ih hstep

/-- As long as accept returns, for connections that are kept, only descriptors
that fit both tables, every index netio uses is in its table. -/
theorem indices_in_tables {s : NetioSystem} (h : netioSystem.Reach NetioSystem.Holdable s)
    {l : NetioLabel} (hen : l.enabled s.netio) (hl : l.Holdable) :
    InTables (netioStep s.netio l) ∧
      ∀ fd c, s.netio.kernel.owner fd = some (.conn c) → inArray MAX_MSG_SIZE fd = true := by
  have ht := systemTables_reach h
  have hnet := system_netio h
  refine ⟨?_, ht.net.connected⟩
  cases l with
  | event fd events out =>
    dsimp only [netioStep]
    exact processItem_inTables (wired_reach hnet) ht.net hen (registered_inArray hnet fd hen) hl
  | response rcvFailed origin =>
    dsimp only [netioStep]
    exact onEventFire_inTables (fun _ h => ht.taken h)
  | others => exact inTables_ok _

instance : (l : NetioLabel) → Decidable l.Holdable
  | .event _ _ out => decidable_of_iff
      (out.accepts.all (fun o => match o with
        | .conn fd _ true true => inArray MAX_MSG_SIZE fd
        | _ => true) = true) (by
      rw [List.all_eq_true]
      constructor
      · intro h fd addr hm
        exact h _ hm
      · intro h o hm
        split
        next fd addr => exact h fd addr hm
        next => rfl)
  | .response _ _ => isTrue trivial
  | .others _ => isTrue trivial

instance (s : NetioSystem) : (l : SystemLabel) → Decidable (s.Holdable l)
  | .netio l => inferInstanceAs (Decidable l.Holdable)
  | .process _ _ => isTrue trivial

/-- A client is answered on descriptor 1023. -/
theorem indices_in_tables_last :
    ∃ s : NetioSystem, s.netio.kernel.owner 1023 ≠ none ∧ (takenCmd s.netio false).isSome = true ∧
      InTables (netioStep s.netio (.response false none)) ∧
      ∀ fd c, s.netio.kernel.owner fd = some (.conn c) → inArray MAX_MSG_SIZE fd = true := by
  obtain ⟨s, hs, hp⟩ := sampleSystem_reach NetioSystem.Holdable
    [.netio (.event 3 1 { accepts := [.conn 1023 ⟨2, 4000, ⟨10, 0, 0, 1⟩⟩ true true] }),
      .netio (.event 1023 1 { read := some (bytes "cmd=1&a=b") }), .process 0 true]
    (fun s => decide (s.netio.kernel.owner 1023 ≠ none ∧ (takenCmd s.netio false).isSome = true))
    (by decide +kernel)
  obtain ⟨hopen, htaken⟩ := of_decide_eq_true hp
  have hen : (NetioLabel.response false none).enabled s.netio := fun c hc => by cases hc
  exact ⟨s, hopen, htaken, indices_in_tables hs hen trivial⟩

/-- Whether a call ends with an index outside a table. -/
def outOfTable {α : Type} : Except Halt α → Bool
  | .error e => e = .sockIndex ∨ e = .msgIndex
  | .ok _ => false

theorem outOfTable_not {α : Type} {r : Except Halt α} (h : outOfTable r = true) : ¬InTables r := by
  cases r with
  | error e =>
    intro hin
    rcases of_decide_eq_true h with rfl | rfl
    · exact hin.1 rfl
    · exact hin.2 rfl
  | ok => contradiction

/-- Descriptor 4096 is accepted, and so is 1024, which is then asked on and
answered. -/
theorem indices_outside_tables :
    (∃ s, netioSystem.Reachable s ∧ s.netio.kernel.epoll 3 ≠ none ∧
      ¬InTables (netioStep s.netio (.event 3 1
        { accepts := [.conn 4096 ⟨2, 4000, ⟨10, 0, 0, 1⟩⟩ true true] }))) ∧
    ∃ s, netioSystem.Reachable s ∧ s.netio.kernel.owner 1024 = some (.conn 0) ∧
      ¬InTables (netioStep s.netio (.response false none)) := by
  refine ⟨?_, ?_⟩
  · obtain ⟨s, hs, hp⟩ := sampleSystem_reach (fun _ _ => True) []
      (fun s => (s.netio.kernel.epoll 3).isSome && outOfTable (netioStep s.netio (.event 3 1
        { accepts := [.conn 4096 ⟨2, 4000, ⟨10, 0, 0, 1⟩⟩ true true] }))) (by decide +kernel)
    obtain ⟨hreg, hout⟩ := Bool.and_eq_true_iff.mp hp
    exact ⟨s, hs, Option.isSome_iff_ne_none.mp hreg, outOfTable_not hout⟩
  · obtain ⟨s, hs, hp⟩ := sampleSystem_reach (fun _ _ => True)
      [.netio (.event 3 1 { accepts := [.conn 1024 ⟨2, 4000, ⟨10, 0, 0, 1⟩⟩ true true] }),
        .netio (.event 1024 1 { read := some (bytes "cmd=1&a=b") }), .process 0 true]
      (fun s => decide (s.netio.kernel.owner 1024 = some (.conn 0)) &&
        outOfTable (netioStep s.netio (.response false none))) (by decide +kernel)
    obtain ⟨hopen, hout⟩ := Bool.and_eq_true_iff.mp hp
    exact ⟨s, hs, of_decide_eq_true hopen, outOfTable_not hout⟩

end NetioMiddleware

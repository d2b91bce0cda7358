import NetioMiddleware.NetioSystem

namespace NetioMiddleware

namespace Reactor

/-- Whether epoll_ctl refuses what AddToWatchList asks of it. -/
def ctlFails (s : Reactor) (iFd : Int32) (emTodoOp : EventFlag) : Bool :=
  let op : EpollOp := if iFd ∈ s.m_vecFds then .EPOLL_CTL_MOD else .EPOLL_CTL_ADD
  (s.kernel.epollCtl op iFd (eventMask emTodoOp)).isNone

/-- AddToWatchList with bCheckSock does not skip the descriptor and succeeds. -/
def Arms (s : Reactor) (iFd : Int32) (emTodoOp : EventFlag) (pData : WatchData) : Prop :=
  s.sockValid iFd pData = true ∧ ∃ s', s.addToWatchList iFd emTodoOp pData true = .ok (0, s')

/-- AddToWatchList with bCheckSock finds the socket invalid and leaves everything as it is. -/
def Skips (s : Reactor) (iFd : Int32) (emTodoOp : EventFlag) (pData : WatchData) : Prop :=
  s.sockValid iFd pData = false ∧ s.addToWatchList iFd emTodoOp pData true = .ok (0, s)

end Reactor

theorem arms_iff {s : Reactor} {fd : Int32} {op : EventFlag} {pData : WatchData} :
    s.Arms fd op pData ↔
      inArray MAX_EPOLL_EVENT_NUM fd = true ∧ s.sockValid fd pData = true ∧ s.ctlFails fd op = false := by
  unfold Reactor.Arms Reactor.addToWatchList Reactor.ctlFails
  cases hin : inArray MAX_EPOLL_EVENT_NUM fd with
  | false => simp
  | true =>
    cases hvalid : s.sockValid fd pData with
    | false => simp
    | true =>
      simp only [storeItem_kernel, storeItem_vecFds, Bool.true_eq_false, and_false, if_false]
      split
      next hnone => simp [hnone, EPOLL_CNTL_FAILED]
      next k hk =>
        simp only [hk, Option.isNone_some, true_and, iff_true]
        split <;> exact ⟨_, rfl⟩

theorem skips_iff {s : Reactor} {fd : Int32} {op : EventFlag} {pData : WatchData} :
    s.Skips fd op pData ↔ inArray MAX_EPOLL_EVENT_NUM fd = true ∧ s.sockValid fd pData = false := by
  unfold Reactor.Skips Reactor.addToWatchList
  cases hin : inArray MAX_EPOLL_EVENT_NUM fd with
  | false => simp
  | true =>
    cases hvalid : s.sockValid fd pData with
    | false => simp
    | true => simp

/-- inet_ntoa answers in one buffer, so the check never looks at the addresses. -/
theorem sockValid_iff {s : Reactor} {fd : Int32} {stSock : TcpSockItem} :
    s.sockValid fd (.item stSock) = true ↔ (s.m_arrTcpSock fd).enEventFlag ≠ .NONE_FLAG ∧
      stSock.stSockAddr_in.sin_port = (s.m_arrTcpSock fd).stSockAddr_in.sin_port ∧
      stSock.stSockAddr_in.sin_family = (s.m_arrTcpSock fd).stSockAddr_in.sin_family := by
  unfold Reactor.sockValid
  by_cases hflag : (s.m_arrTcpSock fd).enEventFlag = .NONE_FLAG
  · simp [hflag]
  · simp [hflag, sameSock, strcmpInetNtoa]

/-- Only the connection a response is for is armed and a response from another address is skipped, exactly
if the addresses agree or the entry of the descriptor is unused or has another port or family. -/
theorem armed_is_client_iff (s : Reactor) (oCmd : CCmd) :
    ((s.Arms oCmd.iFd .TCP_SERVER_SEND (.item (responseSock oCmd)) →
        (s.m_arrTcpSock oCmd.iFd).enEventFlag ≠ .NONE_FLAG ∧
          (s.m_arrTcpSock oCmd.iFd).stSockAddr_in = (responseSock oCmd).stSockAddr_in) ∧
      ((s.m_arrTcpSock oCmd.iFd).stSockAddr_in ≠ (responseSock oCmd).stSockAddr_in →
        s.Skips oCmd.iFd .TCP_SERVER_SEND (.item (responseSock oCmd)))) ↔
    (s.m_arrTcpSock oCmd.iFd).stSockAddr_in = (responseSock oCmd).stSockAddr_in ∨
      inArray MAX_EPOLL_EVENT_NUM oCmd.iFd = true ∧
        ((responseSock oCmd).stSockAddr_in.sin_port ≠ (s.m_arrTcpSock oCmd.iFd).stSockAddr_in.sin_port ∨
          (responseSock oCmd).stSockAddr_in.sin_family ≠ (s.m_arrTcpSock oCmd.iFd).stSockAddr_in.sin_family ∨
          (s.m_arrTcpSock oCmd.iFd).enEventFlag = .NONE_FLAG) := by
  have hskips : s.Skips oCmd.iFd .TCP_SERVER_SEND (.item (responseSock oCmd)) ↔
      inArray MAX_EPOLL_EVENT_NUM oCmd.iFd = true ∧
        s.sockValid oCmd.iFd (.item (responseSock oCmd)) = false := skips_iff
  rw [← Bool.not_eq_true, sockValid_iff] at hskips
  rw [arms_iff, sockValid_iff, hskips]
  constructor
  · rintro ⟨-, hother⟩
    by_cases hsame : (s.m_arrTcpSock oCmd.iFd).stSockAddr_in = (responseSock oCmd).stSockAddr_in
    · exact Or.inl hsame
    · obtain ⟨hin, hvalid⟩ := hother hsame
      refine Or.inr ⟨hin, ?_⟩
      by_contra hno
      simp only [not_or, not_not] at hno
      exact hvalid ⟨hno.2.2, hno.1, hno.2.1⟩
  · rintro (hsame | ⟨hin, hother⟩)
    · exact ⟨fun h => ⟨h.2.1.1, hsame⟩, fun hne => absurd hsame hne⟩
    · have hvalid : ¬((s.m_arrTcpSock oCmd.iFd).enEventFlag ≠ .NONE_FLAG ∧
          (responseSock oCmd).stSockAddr_in.sin_port = (s.m_arrTcpSock oCmd.iFd).stSockAddr_in.sin_port ∧
          (responseSock oCmd).stSockAddr_in.sin_family =
            (s.m_arrTcpSock oCmd.iFd).stSockAddr_in.sin_family) := by
        rintro ⟨hflag, hport, hfamily⟩
        rcases hother with hne | hne | hne
        · exact hne hport
        · exact hne hfamily
        · exact hflag hne
      exact ⟨fun h => absurd h.2.1 hvalid, fun _ => ⟨hin, hvalid⟩⟩

/-- A client at 10.0.0.1:4000 asks on descriptor 5, svc_test answers, and the
client hangs up before netio takes the answer. -/
def lateResponse : List SystemLabel :=
  [.netio (.event 3 1 { accepts := [.conn 5 ⟨2, 4000, ⟨10, 0, 0, 1⟩⟩ true true] }),
    .netio (.event 5 1 { read := some (bytes "cmd=1&a=b") }), .process 0 true,
    .netio (.event 5 (EPOLLIN ||| EPOLLRDHUP) {})]

/-- A client at 10.0.0.2:4000 gets the descriptor next and is armed for the
answer to the first one. -/
theorem armed_for_another_client :
    ∃ s, netioSystem.Reachable s ∧ ∃ oCmd, takenCmd s.netio false = some oCmd ∧
      s.netio.Arms oCmd.iFd .TCP_SERVER_SEND (.item (responseSock oCmd)) ∧
      (s.netio.m_arrTcpSock oCmd.iFd).stSockAddr_in.sin_addr = ⟨10, 0, 0, 2⟩ ∧
      (responseSock oCmd).stSockAddr_in.sin_addr = ⟨10, 0, 0, 1⟩ := by
  obtain ⟨s, hs, hp⟩ := sampleSystem_reach (fun _ _ => True)
    (lateResponse ++
      [.netio (.event 3 1 { accepts := [.conn 5 ⟨2, 4000, ⟨10, 0, 0, 2⟩⟩ true true] })])
    (fun s => (takenCmd s.netio false).any (fun oCmd => decide
      ((inArray MAX_EPOLL_EVENT_NUM oCmd.iFd = true ∧
        s.netio.sockValid oCmd.iFd (.item (responseSock oCmd)) = true ∧
        s.netio.ctlFails oCmd.iFd .TCP_SERVER_SEND = false) ∧
      (s.netio.m_arrTcpSock oCmd.iFd).stSockAddr_in.sin_addr = ⟨10, 0, 0, 2⟩ ∧
      (responseSock oCmd).stSockAddr_in.sin_addr = ⟨10, 0, 0, 1⟩))) (by decide +kernel)
  obtain ⟨oCmd, htaken, hcmd⟩ := (Option.any_eq_true _ _).mp hp
  obtain ⟨harms, haddrs⟩ := of_decide_eq_true hcmd
  exact ⟨s, hs, oCmd, htaken, arms_iff.mpr harms, haddrs⟩

theorem ctlFails_iff {s : Reactor} {fd : Int32} {op : EventFlag} :
    s.ctlFails fd op = true ↔ if fd ∈ s.m_vecFds then s.kernel.epoll fd = none
      else s.kernel.owner fd = none ∨ s.kernel.epoll fd ≠ none := by
  unfold Reactor.ctlFails Kernel.epollCtl
  by_cases hm : fd ∈ s.m_vecFds
  · by_cases hreg : s.kernel.epoll fd = none <;> simp [hm, hreg]
  · by_cases hreg : s.kernel.epoll fd = none <;> by_cases ho : s.kernel.owner fd = none <;>
      simp [hm, hreg, ho]

theorem ctlFails_received {s : Reactor} {queues : Int32 → List QMsg} {iFd : Int32} {m : MsgBuf}
    {rcvFailed : Bool} {origin : Option Nat} (fd : Int32) (op : EventFlag) :
    (s.received queues iFd m rcvFailed origin).ctlFails fd op = s.ctlFails fd op := by
  have hepoll : (s.received queues iFd m rcvFailed origin).kernel.epoll = s.kernel.epoll := by
    unfold Reactor.received
    split <;> rfl
  have howner : (s.received queues iFd m rcvFailed origin).kernel.owner = s.kernel.owner := by
    unfold Reactor.received
    split <;> rfl
  have hvec : (s.received queues iFd m rcvFailed origin).m_vecFds = s.m_vecFds := rfl
  rw [Bool.eq_iff_iff, ctlFails_iff, ctlFails_iff, hepoll, howner, hvec]

theorem arms_received {s : Reactor} {queues : Int32 → List QMsg} {iFd : Int32} {m : MsgBuf}
    {rcvFailed : Bool} {origin : Option Nat} {fd : Int32} {op : EventFlag} {pData : WatchData} :
    (s.received queues iFd m rcvFailed origin).Arms fd op pData ↔ s.Arms fd op pData := by
  have hvalid : (s.received queues iFd m rcvFailed origin).sockValid fd pData = s.sockValid fd pData := rfl
  rw [arms_iff, arms_iff, ctlFails_received, hvalid]

/-- An entry in use has the port and the family of a response, which is all the check compares. -/
def Recognised (entry : TcpSockItem) (oCmd : CCmd) : Prop :=
  entry.enEventFlag ≠ .NONE_FLAG ∧ entry.stSockAddr_in.sin_port = UInt16.ofInt oCmd.iPort.toInt ∧
    entry.stSockAddr_in.sin_family = UInt16.ofInt oCmd.ifamily.toInt

theorem sockValid_recognised {s : Reactor} {oCmd : CCmd} :
    s.sockValid oCmd.iFd (.item (responseSock oCmd)) = true ↔
      Recognised (s.m_arrTcpSock oCmd.iFd) oCmd := by
  rw [sockValid_iff, eq_comm (b := (s.m_arrTcpSock oCmd.iFd).stSockAddr_in.sin_port),
    eq_comm (b := (s.m_arrTcpSock oCmd.iFd).stSockAddr_in.sin_family)]
  exact Iff.rfl

/-- The item of a response that its entry recognises is the entry's exactly if the rest agrees too. -/
theorem responseSock_eq_iff {entry : TcpSockItem} {oCmd : CCmd} (hpass : Recognised entry oCmd) :
    responseSock oCmd = entry ↔ entry.fd = oCmd.iFd ∧ entry.enEventFlag = .TCP_SERVER_SEND ∧
      entry.stSockAddr_in.sin_addr = inetAddr oCmd.sClientIp := by
  obtain ⟨-, hport, hfamily⟩ := hpass
  obtain ⟨fd, flag, family, port, addr⟩ := entry
  dsimp only [responseSock] at hport hfamily ⊢
  simp only [TcpSockItem.mk.injEq, SockAddrIn.mk.injEq, hport, hfamily, true_and]
  exact ⟨fun h => ⟨h.1.symm, h.2.1.symm, h.2.2.symm⟩, fun h => ⟨h.1.symm, h.2.1.symm, h.2.2.symm⟩⟩

/-- Where AddToWatchList arms nothing it stores the item it has let pass, and no more. -/
theorem unarmed_watch {s s' : Reactor} {fd : Int32} {op : EventFlag} {stSock : TcpSockItem} {r : Int32}
    (hadd : s.addToWatchList fd op (.item stSock) true = .ok (r, s'))
    (hunarmed : ¬s.Arms fd op (.item stSock)) :
    s' = if s.sockValid fd (.item stSock) = true then s.setItem fd { stSock with fd := fd } else s := by
  obtain ⟨hin, ⟨_, hskip, rfl⟩ | ⟨hpass, hctl⟩⟩ := addToWatchList_cases hadd
  · rw [hskip]
    rfl
  · have hpass := hpass rfl
    have hfails : s.ctlFails fd op = true := by
      by_contra hok
      exact hunarmed (arms_iff.mpr ⟨hin, hpass, by simpa using hok⟩)
    rw [ctlFails_iff] at hfails
    rw [if_pos hpass]
    rcases hctl with ⟨hs', _⟩ | ⟨hm, hreg, _⟩ | ⟨hm, howner, hreg, _⟩
    · exact hs'
    · rw [if_pos hm] at hfails
      exact absurd hfails hreg
    · rw [if_neg hm] at hfails
      exact absurd hreg (hfails.resolve_left howner)

/-- The message OnEventFire takes next from its queue. -/
def NextResponse (s : Reactor) (m : QMsg) : Prop :=
  ∃ before after, s.kernel.queues NET_IO_BACK_MSQ_KEY = before ++ m :: after ∧
    (∀ x ∈ before, x.mtype ≠ RESPONSE.toInt) ∧ m.mtype = RESPONSE.toInt ∧ m.mtext ≠ []

/-- An entry of m_arrMsg holds the data of a response as its text, and the rest of the response behind it. -/
structure LeftBy (entry : MsgBuf) (m : QMsg) : Prop where
  lType : entry.lType = m.mtype
  text : entry.text = (cStr (initCCmd {} m.mtext).sData).take (MAX_MSG_SIZE - 8 - 1)
  behind : entry.sBuf.drop (entry.text.length + 1) =
    (m.mtext ++ List.replicate (MAX_MSG_SIZE - 8 - m.mtext.length) 0).drop (entry.text.length + 1)

instance (entry : MsgBuf) (m : QMsg) : Decidable (LeftBy entry m) :=
  decidable_of_iff (_ ∧ _ ∧ _) ⟨fun h => ⟨h.1, h.2.1, h.2.2⟩, fun h => ⟨h.lType, h.text, h.behind⟩⟩

theorem NextResponse.takenCmd {s : Reactor} {m : QMsg} (h : NextResponse s m) :
    takenCmd s false = some (initCCmd {} m.mtext) := by
  obtain ⟨before, after, hq, hbefore, hm, hne⟩ := h
  exact takenCmd_first hq hbefore hm hne

theorem NextResponse.storedMsg {s : Reactor} {m : QMsg} (h : NextResponse s m) :
    (storedMsg s false).lType = m.mtype ∧
      (storedMsg s false).sBuf = (cStr (initCCmd {} m.mtext).sData).take (MAX_MSG_SIZE - 8 - 1) ++
        0 :: (m.mtext ++ List.replicate (MAX_MSG_SIZE - 8 - m.mtext.length) 0).drop
          (((cStr (initCCmd {} m.mtext).sData).take (MAX_MSG_SIZE - 8 - 1)).length + 1) := by
  obtain ⟨before, after, hq, hbefore, hm, -⟩ := h
  have hfind : (before ++ m :: after).find? (fun x => x.mtype == RESPONSE.toInt) = some m := by
    refine List.find?_eq_some_iff_append.mpr ⟨by simpa using hm, before, after, rfl, ?_⟩
    intro x hx
    simpa using hbefore x hx
  have hdata : initCCmd {} (m.mtext ++ List.replicate (MAX_MSG_SIZE - 8 - m.mtext.length) 0) =
      initCCmd {} m.mtext := initCCmd_congr (cStr_append_zeros _ _)
  unfold NetioMiddleware.storedMsg takeResponse getMsg
  simp only [Bool.false_eq_true, if_false, hq, MsgBuf.withType, hfind, MsgBuf.print, MsgBuf.reset,
    List.drop_replicate, hdata, and_self]

/-- A text shorter than its array is followed by a NUL. -/
theorem cStr_split {b : Bytes} (h : (cStr b).length < b.length) :
    b = cStr b ++ 0 :: b.drop ((cStr b).length + 1) := by
  induction b with
  | nil => exact absurd h (Nat.not_lt_zero _)
  | cons c b ih =>
    by_cases hc : c = 0
    · subst hc
      rfl
    · have hcons : cStr (c :: b) = c :: cStr b := List.takeWhile_cons_of_pos (by simpa using hc)
      rw [hcons, List.length_cons, List.length_cons] at h
      rw [hcons, List.cons_append, List.length_cons, List.drop_succ_cons]
      exact congrArg (c :: ·) (ih (by omega))

theorem drop_behind (text rest : Bytes) : (text ++ 0 :: rest).drop (text.length + 1) = rest := by
  rw [List.drop_append, List.drop_eq_nil_of_le (by omega), Nat.add_sub_cancel_left]
  rfl

/-- Only an entry that repeats a response is what OnEventFire makes of it. -/
theorem storedMsg_eq_iff {s : Reactor} {m : QMsg} (h : NextResponse s m) (entry : MsgBuf) :
    storedMsg s false = entry ↔ LeftBy entry m := by
  obtain ⟨htype, hbuf⟩ := h.storedMsg
  have hnul : 0 ∉ (cStr (initCCmd {} m.mtext).sData).take (MAX_MSG_SIZE - 8 - 1) :=
    fun h0 => cStr_no_nul _ (List.mem_of_mem_take h0)
  constructor
  · rintro rfl
    have htext : (storedMsg s false).text =
        (cStr (initCCmd {} m.mtext).sData).take (MAX_MSG_SIZE - 8 - 1) := by
      unfold MsgBuf.text
      rw [hbuf]
      exact cStr_append_nul hnul
    refine ⟨htype, htext, ?_⟩
    rw [htext, hbuf]
    exact drop_behind _ _
  · rintro ⟨htype', htext, hbehind⟩
    have hshort : entry.text.length < entry.sBuf.length := by
      rw [htext, entry.size, List.length_take]
      simp only [MAX_MSG_SIZE]
      omega
    have hsplit : entry.sBuf = entry.text ++ 0 :: entry.sBuf.drop (entry.text.length + 1) :=
      cStr_split hshort
    rw [hbehind, htext, ← hbuf] at hsplit
    rw [← htype] at htype'
    generalize storedMsg s false = stored at hsplit htype'
    cases entry
    cases stored
    simp only [MsgBuf.mk.injEq]
    exact ⟨htype'.symm, hsplit.symm⟩

/-- Once a response has been taken its descriptor's entry repeats it. -/
theorem leftBy_of_fire {s s' : Reactor} {origin : Option Nat} {m : QMsg} (hnext : NextResponse s m)
    (hfire : s.onEventFire false origin = .ok s') : LeftBy (s'.m_arrMsg (initCCmd {} m.mtext).iFd) m := by
  obtain ⟨queues, _, ⟨hnone, _⟩ | ⟨oCmd, r, hcmd, _, hadd⟩⟩ := response_fire hfire
  · cases hnone.symm.trans hnext.takenCmd
  · obtain rfl := Option.some.inj (hnext.takenCmd.symm.trans hcmd)
    rw [(addToWatchList_frame hadd).2.1, ← storedMsg_eq_iff hnext]
    exact (Function.update_self (initCCmd {} m.mtext).iFd (storedMsg s false) s.m_arrMsg).symm

/-- A response that arms no connection leaves the tables alone exactly if the entry of its descriptor in
m_arrMsg repeats it and, where only epoll_ctl refuses the descriptor, the one in m_arrTcpSock already is its
own, for sending, and has the response's IPv4 address as well. -/
theorem unarmed_unchanged_iff {s s' : Reactor} {origin : Option Nat} {m : QMsg} (hnext : NextResponse s m)
    (hfire : s.onEventFire false origin = .ok s')
    (hunarmed : ¬s.Arms (initCCmd {} m.mtext).iFd .TCP_SERVER_SEND
      (.item (responseSock (initCCmd {} m.mtext)))) :
    (s'.m_arrMsg = s.m_arrMsg ∧ s'.m_arrTcpSock = s.m_arrTcpSock ∧ s'.m_vecFds = s.m_vecFds ∧
      s'.m_iEvents = s.m_iEvents) ↔
    LeftBy (s.m_arrMsg (initCCmd {} m.mtext).iFd) m ∧
      (Recognised (s.m_arrTcpSock (initCCmd {} m.mtext).iFd) (initCCmd {} m.mtext) →
        (s.m_arrTcpSock (initCCmd {} m.mtext).iFd).fd = (initCCmd {} m.mtext).iFd ∧
          (s.m_arrTcpSock (initCCmd {} m.mtext).iFd).enEventFlag = .TCP_SERVER_SEND ∧
          (s.m_arrTcpSock (initCCmd {} m.mtext).iFd).stSockAddr_in.sin_addr =
            inetAddr (initCCmd {} m.mtext).sClientIp) := by
  rw [← storedMsg_eq_iff hnext, ← sockValid_recognised]
  obtain ⟨queues, _, ⟨hnone, _⟩ | ⟨oCmd, r, hcmd, _, hadd⟩⟩ := response_fire hfire
  · cases hnone.symm.trans hnext.takenCmd
  · cases Option.some.inj (hnext.takenCmd.symm.trans hcmd)
    generalize initCCmd {} m.mtext = oCmd at hadd hunarmed ⊢
    generalize storedMsg s false = stored at hadd ⊢
    have hs' := unarmed_watch hadd (mt arms_received.mp hunarmed)
    have hvalid : (s.received queues oCmd.iFd stored false origin).sockValid oCmd.iFd
        (.item (responseSock oCmd)) = s.sockValid oCmd.iFd (.item (responseSock oCmd)) := rfl
    rw [hvalid] at hs'
    have hmsg : Function.update s.m_arrMsg oCmd.iFd stored = s.m_arrMsg ↔
        stored = s.m_arrMsg oCmd.iFd := by
      simp
    split at hs'
    next hpass =>
      have hitem : Function.update s.m_arrTcpSock oCmd.iFd (responseSock oCmd) = s.m_arrTcpSock ↔
          responseSock oCmd = s.m_arrTcpSock oCmd.iFd := by
        simp
      have hsame := responseSock_eq_iff (sockValid_recognised.mp hpass)
      rw [hs', ← hmsg, ← hsame, ← hitem]
      exact ⟨fun h => ⟨h.1, fun _ => h.2.1⟩, fun h => ⟨h.1, h.2 hpass, rfl, rfl⟩⟩
    next hskip =>
      rw [hs', ← hmsg]
      exact ⟨fun h => ⟨h.1, fun hpass => absurd hpass hskip⟩, fun h => ⟨h.1, rfl, rfl, rfl⟩⟩

/-- The answer to a client that has hung up arms nothing. -/
theorem late_response_skipped :
    ∃ s : NetioSystem, ∃ oCmd, ∃ s' : Reactor, netioSystem.Reachable s ∧
      takenCmd s.netio false = some oCmd ∧ s.netio.onEventFire false none = .ok s' ∧
      ¬s.netio.Arms oCmd.iFd .TCP_SERVER_SEND (.item (responseSock oCmd)) ∧
      (s'.m_arrMsg oCmd.iFd).text ≠ (s.netio.m_arrMsg oCmd.iFd).text := by
  obtain ⟨s, hs, hp⟩ := sampleSystem_reach (fun _ _ => True) lateResponse
    (fun s => (takenCmd s.netio false).any (fun oCmd => (s.netio.onEventFire false none).toOption.any
      (fun s' : Reactor => decide (s.netio.sockValid oCmd.iFd (.item (responseSock oCmd)) = false ∧
        (s'.m_arrMsg oCmd.iFd).text ≠ (s.netio.m_arrMsg oCmd.iFd).text)))) (by decide +kernel)
  obtain ⟨oCmd, htaken, hp⟩ := (Option.any_eq_true _ _).mp hp
  obtain ⟨s', hfire, hp⟩ := (Option.any_eq_true _ _).mp hp
  obtain ⟨hskip, htext⟩ := of_decide_eq_true hp
  refine ⟨s, oCmd, s', hs, htaken, ?_, ?_, htext⟩
  · cases hres : s.netio.onEventFire false none with
    | error => rw [hres] at hfire; contradiction
    | ok => rw [hres] at hfire; rw [Option.some.inj hfire]
  · rw [arms_iff, hskip]
    simp

/-- Its text is stored all the same. -/
theorem unarmed_response_stored :
    ∃ s : NetioSystem, netioSystem.Reachable s ∧ ∃ oCmd, ∃ s' : Reactor,
      takenCmd s.netio false = some oCmd ∧ s.netio.onEventFire false none = .ok s' ∧
      ¬s.netio.Arms oCmd.iFd .TCP_SERVER_SEND (.item (responseSock oCmd)) ∧
      s'.m_arrMsg ≠ s.netio.m_arrMsg := by
  obtain ⟨s, oCmd, s', hs, htaken, hfire, hunarmed, htext⟩ := late_response_skipped
  exact ⟨s, hs, oCmd, s', htaken, hfire, hunarmed, fun h => htext (by rw [h])⟩

/-- The same client asks the same once more on the same descriptor and hangs up again; netio has taken the
first answer. -/
def repeatedResponse : List SystemLabel :=
  lateResponse ++ lateResponse ++ [.netio (.response false none)]

theorem unarmed_unchanged_iff_late :
    ∃ s : NetioSystem, netioSystem.Reachable s ∧ ∃ m, ∃ s' : Reactor, NextResponse s.netio m ∧
      s.netio.onEventFire false none = .ok s' ∧
      ¬s.netio.Arms (initCCmd {} m.mtext).iFd .TCP_SERVER_SEND
        (.item (responseSock (initCCmd {} m.mtext))) ∧
      s'.m_arrMsg = s.netio.m_arrMsg ∧ s'.m_arrTcpSock = s.netio.m_arrTcpSock ∧
      s'.m_vecFds = s.netio.m_vecFds ∧ s'.m_iEvents = s.netio.m_iEvents := by
  obtain ⟨s, hs, hp⟩ := sampleSystem_reach (fun _ _ => True) repeatedResponse
    (fun s => (s.netio.kernel.queues NET_IO_BACK_MSQ_KEY).head?.any (fun m : QMsg =>
      (s.netio.onEventFire false none).toOption.isSome &&
      decide ((m.mtype = RESPONSE.toInt ∧ m.mtext ≠ []) ∧
        s.netio.sockValid (initCCmd {} m.mtext).iFd (.item (responseSock (initCCmd {} m.mtext))) = false ∧
        LeftBy (s.netio.m_arrMsg (initCCmd {} m.mtext).iFd) m))) (by decide +kernel)
  obtain ⟨m, hhead, hp⟩ := (Option.any_eq_true _ _).mp hp
  obtain ⟨hok, hp⟩ := Bool.and_eq_true_iff.mp hp
  obtain ⟨s', hs'⟩ := Option.isSome_iff_exists.mp hok
  obtain ⟨⟨hm, hne⟩, hskip, hleft⟩ := of_decide_eq_true hp
  obtain ⟨after, hq⟩ := List.head?_eq_some_iff.mp hhead
  have hnext : NextResponse s.netio m := ⟨[], after, hq, fun _ h => absurd h List.not_mem_nil, hm, hne⟩
  have hfire : s.netio.onEventFire false none = .ok s' := by
    cases hres : s.netio.onEventFire false none with
    | error => rw [hres] at hs'; contradiction
    | ok => rw [hres] at hs'; rw [Option.some.inj hs']
  have hunarmed : ¬s.netio.Arms (initCCmd {} m.mtext).iFd .TCP_SERVER_SEND
      (.item (responseSock (initCCmd {} m.mtext))) := by
    rw [arms_iff, hskip]
    simp
  refine ⟨s, hs, m, s', hnext, hfire, hunarmed, (unarmed_unchanged_iff hnext hfire hunarmed).mpr ?_⟩
  refine ⟨hleft, fun hpass => ?_⟩
  rw [← sockValid_recognised, hskip] at hpass
  contradiction

end NetioMiddleware

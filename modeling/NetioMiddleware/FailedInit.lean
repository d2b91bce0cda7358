import NetioMiddleware.ReactorInit
import NetioMiddleware.Rounds

namespace NetioMiddleware

/-- The reactor main of netio runs whatever Init has returned. Without an epoll
descriptor both calls of AddToWatchList fail at epoll_ctl, with the entries as
they were. -/
def Booting.runEventLoop (s : Booting) : Except Halt Reactor :=
  if s.m_iEpFd = none ∨ s.m_iEpFd = some (-1) then .ok s.reactor else s.reactor.runEventLoop

/-- The queues one OnEventFire leaves: without the first answer. -/
def queuesTaken (queues : Int32 → List QMsg) : Int32 → List QMsg :=
  Function.update queues NET_IO_BACK_MSQ_KEY
    ((queues NET_IO_BACK_MSQ_KEY).eraseP (fun m => m.mtype == RESPONSE.toInt))

/-- What becomes of the queues in a step of a netio that has no client. -/
def leftQueues (queues : Int32 → List QMsg) : NetioLabel → Int32 → List QMsg
  | .event _ _ _ => queues
  | .response rcvFailed _ => if rcvFailed then queues else queuesTaken queues
  | .others queues => queues

/-- Nothing is watched, every entry of the table is free, and the only calls so
far have been receives. -/
structure Deaf (s : Reactor) : Prop where
  epoll : ∀ fd, s.kernel.epoll fd = none
  free : ∀ fd, (s.m_arrTcpSock fd).enEventFlag = .NONE_FLAG
  log : ∀ e ∈ s.kernel.log, ∃ text, e = .msgrcv none text

theorem getMsg_queue (q : List QMsg) (pBuf : MsgBuf) :
    (getMsg q pBuf).2.2 = q.eraseP (fun m => m.mtype == pBuf.lType) := by
  unfold getMsg
  split
  next hnone =>
    exact (List.eraseP_of_forall_not fun m hm => by simpa using List.find?_eq_none.mp hnone m hm).symm
  next => rfl

theorem takeResponse_queues (k : Kernel) (rcvFailed : Bool) :
    (takeResponse k rcvFailed).2.2.2 =
      k.setQueues (if rcvFailed then k.queues else queuesTaken k.queues) := by
  cases rcvFailed with
  | true => rfl
  | false =>
    simp only [takeResponse, Bool.false_eq_true, if_false, getMsg_queue]
    rfl

theorem sockValid_free {s : Reactor} {fd : Int32} {pData : WatchData}
    (h : (s.m_arrTcpSock fd).enEventFlag = .NONE_FLAG) : s.sockValid fd pData = false := by
  unfold Reactor.sockValid
  split
  next => rfl
  next => rfl

/-- OnEventFire takes the first answer, fills an entry of the message table and
finds no socket for it. -/
theorem deaf_response {s s' : Reactor} {rcvFailed : Bool} {origin : Option Nat}
    (hfree : ∀ fd, (s.m_arrTcpSock fd).enEventFlag = .NONE_FLAG)
    (h : s.onEventFire rcvFailed origin = .ok s') :
    s'.m_arrTcpSock = s.m_arrTcpSock ∧ s'.kernel.epoll = s.kernel.epoll ∧
      s'.kernel.owner = s.kernel.owner ∧
      s'.kernel.queues = leftQueues s.kernel.queues (.response rcvFailed origin) ∧
      (s'.kernel.log = s.kernel.log ∨ ∃ text, s'.kernel.log = s.kernel.log ++ [.msgrcv origin text]) := by
  have hk := takeResponse_queues s.kernel rcvFailed
  unfold Reactor.onEventFire at h
  split at h
  next iRet len stMsg k htake =>
    rw [htake] at hk
    dsimp only at hk h
    split at h
    next =>
      cases Except.ok.inj h
      subst hk
      exact ⟨rfl, rfl, rfl, rfl, Or.inl rfl⟩
    next =>
      split at h
      next => cases h
      next =>
        split at h
        next => cases h
        next r s1 hadd =>
          cases Except.ok.inj h
          obtain ⟨-, ⟨-, -, rfl⟩ | ⟨hvalid, -⟩⟩ := addToWatchList_cases hadd
          · subst hk
            by_cases hret : iRet = 0
            · rw [if_pos hret]
              exact ⟨rfl, rfl, rfl, rfl, Or.inr ⟨_, rfl⟩⟩
            · rw [if_neg hret]
              exact ⟨rfl, rfl, rfl, rfl, Or.inl rfl⟩
          · have hinvalid := hvalid rfl
            rw [sockValid_free] at hinvalid
            · contradiction
            · exact hfree _

theorem deaf_step {s s' : Reactor} {l : NetioLabel} (hd : Deaf s) (h : netio.step s l s') :
    Deaf s' ∧ (∀ fd events out, l ≠ .event fd events out) ∧ s'.kernel.owner = s.kernel.owner ∧
      s'.kernel.queues = leftQueues s.kernel.queues l := by
  obtain ⟨hen, h⟩ := h
  cases l with
  | event fd => exact absurd (hd.epoll fd) hen
  | others queues =>
    cases Except.ok.inj h
    exact ⟨⟨hd.epoll, hd.free, hd.log⟩, fun _ _ _ => nofun, rfl, rfl⟩
  | response rcvFailed origin =>
    have hnone : origin = none := by
      cases origin with
      | none => rfl
      | some c =>
        obtain ⟨key, text, hmem⟩ := hen c rfl
        obtain ⟨_, habs⟩ := hd.log _ hmem
        cases habs
    obtain ⟨hitems, hepoll, howner, hqueues, hlog⟩ := deaf_response hd.free h
    refine ⟨⟨fun fd => by rw [hepoll, hd.epoll], fun fd => by rw [hitems, hd.free], ?_⟩,
      fun _ _ _ => nofun, howner, hqueues⟩
    intro e he
    rcases hlog with hlog | ⟨text, hlog⟩
    · exact hd.log e (hlog ▸ he)
    · rw [hlog] at he
      rcases List.mem_append.mp he with he | he
      · exact hd.log e he
      · exact ⟨text, by rw [List.mem_singleton.mp he, hnone]⟩

theorem deaf_run {s t : Reactor} {ls : List NetioLabel} (hd : Deaf s)
    (h : netio.Run (fun _ _ => True) s ls t) :
    Deaf t ∧ (∀ fd events out, .event fd events out ∉ ls) ∧ t.kernel.owner = s.kernel.owner ∧
      t.kernel.queues = ls.foldl leftQueues s.kernel.queues := by
  induction h with
  | nil => exact ⟨hd, fun _ _ _ => List.not_mem_nil, rfl, rfl⟩
  | cons _ hstep _ ih =>
    obtain ⟨hd1, hevent, howner, hqueues⟩ := deaf_step hd hstep
    obtain ⟨hd', hevents, howner', hqueues'⟩ := ih hd1
    refine ⟨hd', ?_, howner'.trans howner, ?_⟩
    · intro fd events out hmem
      rcases List.mem_cons.mp hmem with heq | hmem
      · exact hevent fd events out heq.symm
      · exact hevents fd events out hmem
    · rw [hqueues', hqueues, List.foldl_cons]

section

variable {unset : Int32 → SockAddrIn} {arrMsg : Int32 → MsgBuf} {owner : Int32 → Option FdOwner}
  {queues : Int32 → List QMsg} {umask : UInt32} {iTcpSvrPort iRet : Int32} {pszUSockPath : Bool}
  {unix : SockAddrIn} {c : InitCalls} {s' : Booting} {s t : Reactor} {ls : List NetioLabel}

/-- Main does not look at what Init returns. A netio that has not got its port
never hears of a client, and takes answers out of the queue all the same. -/
theorem failed_init_takes_answers (hport : iTcpSvrPort ≠ 0) (hfree : owner c.tcp.socket = none)
    (hfails : ¬c.tcp.Opens)
    (h : Booting.init ⟨Reactor.new unset arrMsg owner queues, none, umask⟩ iTcpSvrPort pszUSockPath unix c =
      .ok (iRet, s'))
    (hs : s'.runEventLoop = .ok s) (hrun : netio.Run (fun _ _ => True) s ls t) :
    iRet ≠ 0 ∧ (∀ fd events out, .event fd events out ∉ ls) ∧ t.kernel.owner = owner ∧
      (∀ e ∈ t.kernel.log, ∃ text, e = .msgrcv none text) ∧
      t.kernel.queues = ls.foldl leftQueues queues := by
  unfold Booting.init at h
  rw [if_pos hport] at h
  split at h
  next => cases h
  next iRet1 s1 hpart =>
    obtain ⟨hopens, -, -⟩ | ⟨-, hne, hsame, hep, -⟩ := initTcpSvr_cases hfree hpart
    · exact absurd hopens hfails
    · rw [if_pos hne] at h
      cases Except.ok.inj h
      rw [Booting.runEventLoop, if_pos (Or.inl hep)] at hs
      cases Except.ok.inj hs
      have hdeaf : Deaf s'.reactor := by
        refine ⟨fun fd => ?_, fun fd => ?_, ?_⟩
        · rw [hsame.kernel]
          rfl
        · rw [hsame.items]
          rfl
        · rw [hsame.kernel]
          intro e he
          exact absurd he List.not_mem_nil
      obtain ⟨hdeaf', hevents, howner, hqueues⟩ := deaf_run hdeaf hrun
      rw [hsame.kernel] at howner hqueues
      exact ⟨hne, hevents, howner, hdeaf'.log, hqueues⟩

end

/-- The port is in use. -/
def sampleInUse : InitCalls := ⟨⟨3, 0, -1, 0, 0, 0, 0⟩, ⟨4, 0, 0, 0, 0⟩, 5, false⟩

theorem sampleInUse_run : ∃ iRet s' s t,
    (sampleBooting [cmdMsg RESPONSE.toInt {}]).init 6789 true ⟨0, 0, ⟨0, 0, 0, 0⟩⟩ sampleInUse =
      .ok (iRet, s') ∧ s'.runEventLoop = .ok s ∧
    netio.Run (fun _ _ => True) s [.response false none] t ∧
    t.kernel.queues NET_IO_BACK_MSQ_KEY = [] := by
  have h : (((sampleBooting [cmdMsg RESPONSE.toInt {}]).init 6789 true ⟨0, 0, ⟨0, 0, 0, 0⟩⟩
        sampleInUse).toOption.any fun r =>
      r.2.runEventLoop.toOption.any fun s => (runLabels (fun _ _ => True) s [.response false none]).any
        fun t => decide (t.kernel.queues NET_IO_BACK_MSQ_KEY = [])) = true := by decide +kernel
  obtain ⟨⟨iRet, s'⟩, hinit, h⟩ := (Option.any_eq_true _ _).mp h
  obtain ⟨s, hs, h⟩ := (Option.any_eq_true _ _).mp h
  obtain ⟨t, ht, hp⟩ := (Option.any_eq_true _ _).mp h
  refine ⟨iRet, s', s, t, ok_of_toOption hinit, ok_of_toOption hs, ?_, of_decide_eq_true hp⟩
  refine Machine.Run.follow ?_ ht
  intro s l s' hallowed hstep
  exact ⟨trivial, isEnabled_enabled (Bool.and_eq_true_iff.mp hallowed).1, hstep⟩

theorem failed_init_takes_answers_second : ∃ iRet s' s t,
    ((sampleBooting [cmdMsg RESPONSE.toInt {}]).init 6789 true ⟨0, 0, ⟨0, 0, 0, 0⟩⟩ sampleInUse =
        .ok (iRet, s') ∧
      s'.runEventLoop = .ok s ∧ netio.Run (fun _ _ => True) s [.response false none] t ∧
      t.kernel.queues NET_IO_BACK_MSQ_KEY = []) ∧
    iRet ≠ 0 ∧ (∀ fd events out, NetioLabel.event fd events out ∉ [.response false none]) ∧
      t.kernel.owner = (sampleBooting [cmdMsg RESPONSE.toInt {}]).reactor.kernel.owner ∧
      (∀ e ∈ t.kernel.log, ∃ text, e = .msgrcv none text) ∧
      t.kernel.queues = [NetioLabel.response false none].foldl leftQueues
        (sampleBooting [cmdMsg RESPONSE.toInt {}]).reactor.kernel.queues := by
  obtain ⟨iRet, s', s, t, hinit, hs, hrun, hempty⟩ := sampleInUse_run
  exact ⟨iRet, s', s, t, ⟨hinit, hs, hrun, hempty⟩,
    failed_init_takes_answers (by decide) (by decide) (by decide) hinit hs hrun⟩

end NetioMiddleware

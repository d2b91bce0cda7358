import NetioMiddleware.ConnLife

namespace NetioMiddleware

/-- A response with this payload was taken from the back queue for a request
that connection c had made before. -/
def answeredFor (log : List Syscall) (c : Nat) (text : Bytes) : Prop :=
  ∃ before after, log = before ++ .msgrcv (some c) text :: after ∧ requested before c

/-- Whatever is written to a connection is the payload of a response to its own request. -/
def AnswersOwn (log : List Syscall) : Prop :=
  ∀ before c text after, log = before ++ .write (some (.conn c)) text :: after →
    answeredFor before c text

def connAt (s : Reactor) (fd : Int32) : Option Nat :=
  match s.kernel.owner fd with
  | some (.conn c) => some c
  | _ => none

/-- The step does not send on a connection that is still armed for input, and
does not take, for a connection that is armed for output or whose entry the
identity test accepts, the response to another request. -/
def servesOwner (s : Reactor) : NetioLabel → Prop
  | .event fd events _ =>
    events &&& EPOLLRDHUP ≠ EPOLLRDHUP → (s.m_arrTcpSock fd).enEventFlag = .TCP_SERVER_SEND →
      connAt s fd ≠ none → s.kernel.epoll fd = some (eventMask .TCP_SERVER_SEND)
  | .response rcvFailed origin =>
    ∀ oCmd ∈ takenCmd s rcvFailed, ∀ c ∈ connAt s oCmd.iFd, s.kernel.epoll oCmd.iFd ≠ none →
      (s.kernel.epoll oCmd.iFd = some (eventMask .TCP_SERVER_SEND) ∨
        sameSock (responseSock oCmd).stSockAddr_in (s.m_arrTcpSock oCmd.iFd).stSockAddr_in = true) →
      origin = some c ∧ rcvFailed = false
  | .others _ => True

instance (s : Reactor) : (l : NetioLabel) → Decidable (servesOwner s l)
  | .event _ _ _ => inferInstanceAs (Decidable (_ → _ → _ → _))
  | .response _ _ => inferInstanceAs (Decidable (∀ _ ∈ _, ∀ _ ∈ _, _ → _ → _))
  | .others _ => inferInstanceAs (Decidable True)

theorem connAt_eq_some {s : Reactor} {fd : Int32} {c : Nat}
    (h : s.kernel.owner fd = some (.conn c)) : connAt s fd = some c := by
  unfold connAt
  rw [h]

theorem answeredFor_append {log es : List Syscall} {c : Nat} {text : Bytes} (h : answeredFor log c text) :
    answeredFor (log ++ es) c text := by
  obtain ⟨before, after, rfl, hr⟩ := h
  exact ⟨before, after ++ es, by simp, hr⟩

theorem answersOwn_concat {log : List Syscall} {e : Syscall} (h : AnswersOwn log)
    (he : ∀ c text, e = .write (some (.conn c)) text → answeredFor log c text) :
    AnswersOwn (log ++ [e]) := by
  intro before c text after heq
  cases after using List.reverseRecOn with
  | nil =>
    obtain ⟨rfl, hlast⟩ := List.append_inj' heq rfl
    exact he c text (List.cons.inj hlast).1
  | append_singleton after last =>
    rw [← List.cons_append, ← List.append_assoc] at heq
    exact h before c text after (List.append_inj' heq rfl).1

theorem answersOwn_append {log es : List Syscall} (h : AnswersOwn log)
    (hes : ∀ e ∈ es, e.isWrite = false) : AnswersOwn (log ++ es) := by
  induction es generalizing log with
  | nil => rwa [List.append_nil]
  | cons e es ih =>
    have hlog : log ++ e :: es = (log ++ [e]) ++ es := by simp
    rw [hlog]
    refine ih (answersOwn_concat h ?_) (fun e' he' => hes e' (List.mem_cons_of_mem e he'))
    rintro c text rfl
    have := hes _ List.mem_cons_self
    contradiction

/-- A connection that is armed for output has its answer in the message table. -/
structure Ready (s : Reactor) : Prop where
  own : AnswersOwn s.kernel.log
  armed : ∀ fd c, s.kernel.owner fd = some (.conn c) →
    s.kernel.epoll fd = some (eventMask .TCP_SERVER_SEND) →
    answeredFor s.kernel.log c (s.m_arrMsg fd).text

theorem Ready.of_log {s s' : Reactor} (hr : Ready s) (es : List Syscall)
    (hlog : s'.kernel.log = s.kernel.log ++ es) (hes : ∀ e ∈ es, e.isWrite = false)
    (hkeep : ∀ fd c, s'.kernel.owner fd = some (.conn c) →
      s'.kernel.epoll fd = some (eventMask .TCP_SERVER_SEND) →
      s.kernel.owner fd = some (.conn c) ∧
        s.kernel.epoll fd = some (eventMask .TCP_SERVER_SEND) ∧ s'.m_arrMsg fd = s.m_arrMsg fd) :
    Ready s' := by
  refine ⟨hlog ▸ answersOwn_append hr.own hes, ?_⟩
  intro fd c ho hm
  obtain ⟨ho, hm, hmsg⟩ := hkeep fd c ho hm
  rw [hlog, hmsg]
  exact answeredFor_append (hr.armed fd c ho hm)

theorem closed_keeps {s s' : Reactor} {fd : Int32}
    (howner : s'.kernel.owner = Function.update s.kernel.owner fd none)
    (hepoll : s'.kernel.epoll = Function.update s.kernel.epoll fd none)
    (hmsg : s'.m_arrMsg = s.m_arrMsg) (x : Int32) (c : Nat)
    (ho : s'.kernel.owner x = some (.conn c))
    (hm : s'.kernel.epoll x = some (eventMask .TCP_SERVER_SEND)) :
    s.kernel.owner x = some (.conn c) ∧
      s.kernel.epoll x = some (eventMask .TCP_SERVER_SEND) ∧ s'.m_arrMsg x = s.m_arrMsg x := by
  rw [howner] at ho
  rw [hepoll] at hm
  by_cases hx : x = fd
  · simp [hx] at ho
  · rw [Function.update_of_ne hx] at ho hm
    exact ⟨ho, hm, by rw [hmsg]⟩

theorem ready_accepted {s : Reactor} {fd : Int32} {addr : SockAddrIn} (hw : Wired s)
    (hr : Ready s) (hfree : s.kernel.owner fd = none) : Ready (s.accepted fd addr) := by
  obtain ⟨howner, _, hlog, _, hmsg⟩ := accepted_frame s fd addr
  refine hr.of_log _ hlog (by simp [Syscall.isWrite]) ?_
  intro x c ho hm
  have hx : x ≠ fd := by
    rintro rfl
    unfold Reactor.accepted at hm
    split at hm
    next =>
      rw [show (s.kernel.accept x).epoll x = s.kernel.epoll x from rfl, hw.unregistered hfree] at hm
      contradiction
    next =>
      simp only [Kernel.watch, Function.update_self] at hm
      exact absurd hm (by decide)
  rw [howner, Function.update_of_ne hx] at ho
  exact ⟨ho, accepted_epoll addr hx ▸ hm, by rw [hmsg]⟩

theorem ready_received {s s' : Reactor} {queues : Int32 → List QMsg} {oCmd : CCmd} {m : MsgBuf}
    {rcvFailed : Bool} {origin : Option Nat} {r : Int32} (hw : Wired s) (hr : Ready s)
    (htaken : takenCmd s rcvFailed = some oCmd)
    (horigin : ∀ c, origin = some c → requested s.kernel.log c)
    (hok : servesOwner s (.response rcvFailed origin))
    (hadd : (s.received queues oCmd.iFd m rcvFailed origin).addToWatchList oCmd.iFd
      .TCP_SERVER_SEND (.item (responseSock oCmd)) true = .ok (r, s')) : Ready s' := by
  obtain ⟨hk, hmsg, _, _, hepoll, _⟩ := addToWatchList_frame hadd
  have howner : s'.kernel.owner = s.kernel.owner := by
    rw [hk]
    cases rcvFailed <;> rfl
  have hepoll0 : (s.received queues oCmd.iFd m rcvFailed origin).kernel.epoll = s.kernel.epoll := by
    cases rcvFailed <;> rfl
  have hlog : s'.kernel.log = s.kernel.log ++
      if rcvFailed then [] else [.msgrcv origin m.text] := by
    rw [hk]
    cases rcvFailed
    · rfl
    · exact (List.append_nil _).symm
  refine ⟨hlog ▸ answersOwn_append hr.own (by split <;> simp [Syscall.isWrite]), ?_⟩
  intro x c ho hm
  rw [howner] at ho
  rw [hlog, hmsg]
  by_cases hx : x = oCmd.iFd
  · subst hx
    have hlisted : oCmd.iFd ∈ (s.received queues oCmd.iFd m rcvFailed origin).m_vecFds :=
      hw.listed _ c ho
    have hbefore : s.kernel.epoll oCmd.iFd ≠ none ∧
        (s.kernel.epoll oCmd.iFd = some (eventMask .TCP_SERVER_SEND) ∨
          sameSock (responseSock oCmd).stSockAddr_in (s.m_arrTcpSock oCmd.iFd).stSockAddr_in =
            true) := by
      obtain ⟨_, ⟨_, _, rfl⟩ | ⟨hvalid, ⟨rfl, hfail⟩ | ⟨_, hreg, _⟩ | ⟨hnew, _⟩⟩⟩ :=
        addToWatchList_cases hadd
      · rw [hepoll0] at hm
        exact ⟨by rw [hm]; simp, Or.inl hm⟩
      · rw [if_pos hlisted] at hfail
        rw [storeItem_kernel, hfail] at hm
        contradiction
      · exact ⟨hepoll0 ▸ hreg, Or.inr (sockValid_item (hvalid rfl))⟩
      · exact absurd hlisted hnew
    obtain ⟨rfl, rfl⟩ := hok oCmd htaken c (connAt_eq_some ho) hbefore.1 hbefore.2
    refine ⟨s.kernel.log, [], ?_, horigin c rfl⟩
    simp [Reactor.received]
  · rw [hepoll x hx, hepoll0] at hm
    have hold : (s.received queues oCmd.iFd m rcvFailed origin).m_arrMsg x = s.m_arrMsg x :=
      Function.update_of_ne hx _ _
    rw [hold]
    exact answeredFor_append (hr.armed x c ho hm)

theorem ready_step {s s' : Reactor} {l : NetioLabel} (hw : Wired s) (hr : Ready s)
    (hok : servesOwner s l) (h : StepCase s l s') : Ready s' := by
  cases h with
  | accepts hconn =>
    refine (doConn_preserves (P := fun s => Wired s ∧ Ready s) ?_ ?_ ?_ ⟨hw, hr⟩ hconn).2
    · exact fun s fd hP => hP.1.unregistered
    · refine fun s fd hP hfree => ⟨wired_dropped hP.1, hP.2.of_log [_, _] (List.append_assoc _ _ _) ?_ ?_⟩
      · simp [Syscall.isWrite]
      · exact closed_keeps (dropped_owner s fd) rfl rfl
    · exact fun s fd addr hP hfree _ => ⟨wired_accepted hP.1, ready_accepted hP.1 hP.2 hfree⟩
  | idle => exact hr
  | look => exact hr.of_log [_] rfl (by simp [Syscall.isWrite]) (fun _ _ ho hm => ⟨ho, hm, rfl⟩)
  | hangup => exact hr.of_log [_] rfl (by simp [Syscall.isWrite]) (closed_keeps rfl rfl rfl)
  | @lost fd =>
    refine hr.of_log [.incr (bytes "netio_0") 1, .read (s.kernel.owner fd), .close (s.kernel.owner fd)]
      ?_ (by simp [Syscall.isWrite]) (closed_keeps rfl rfl rfl)
    simp [Reactor.lost, Reactor.recvKernel, Kernel.record, Kernel.close]
  | recv =>
    obtain ⟨howner, hepoll, _⟩ := asked_frame s _ _ _ _
    obtain ⟨es, hlog, hes⟩ := asked_log s _ _ _ _
    refine hr.of_log _ hlog ?_ (fun fd c ho hm => ⟨howner ▸ ho, hepoll ▸ hm, rfl⟩)
    rcases hes with rfl | ⟨text, rfl⟩
    all_goals simp [Syscall.isWrite]
  | @send fd _ _ hreg hlive hsend =>
    have hwrite : AnswersOwn (s.kernel.log ++ [.write (s.kernel.owner fd) (s.m_arrMsg fd).text]) := by
      refine answersOwn_concat hr.own ?_
      intro c text he
      obtain ⟨ho, rfl⟩ := Syscall.write.inj he
      refine hr.armed fd c ho (hok hlive hsend ?_)
      simp [connAt_eq_some ho]
    have hwritten : Ready (s.written fd) :=
      ⟨hwrite, fun x c ho hm => answeredFor_append (hr.armed x c ho hm)⟩
    exact hwritten.of_log [_] rfl (by simp [Syscall.isWrite]) (closed_keeps rfl rfl rfl)
  | nothing =>
    exact hr.of_log [] (by simp [Kernel.setQueues]) (by simp) (fun _ _ ho hm => ⟨ho, hm, rfl⟩)
  | respond htaken horigin _ _ hadd => exact ready_received hw hr htaken horigin hok hadd
  | others =>
    exact hr.of_log [] (by simp [Kernel.setQueues]) (by simp) (fun _ _ ho hm => ⟨ho, hm, rfl⟩)

theorem ready_start {s : Reactor} (h : NetioStart s) : Ready s := by
  have : (∀ fd c, s.kernel.owner fd ≠ some (.conn c)) ∧ s.kernel.log = [] := by
    refine h.induct
      (P := fun s => (∀ fd c, s.kernel.owner fd ≠ some (.conn c)) ∧ s.kernel.log = []) ?_ ?_
    · exact fun _ _ _ _ _ _ _ _ howner => ⟨init_owner_ne_conn howner, rfl⟩
    · rintro s s' fd op r ⟨ho, hl⟩ _ _ hadd
      obtain ⟨hk, _⟩ := addToWatchList_frame hadd
      rw [hk]
      exact ⟨ho, hl⟩
  refine ⟨?_, fun fd c ho => absurd ho (this.1 fd c)⟩
  intro before c text after heq
  simp [this.2] at heq

/-- In a run of such steps every connection is written the answer to its own
request and nothing else. -/
theorem write_answers_own {s : Reactor} (h : netio.Reach servesOwner s) : AnswersOwn s.kernel.log :=
  (netio_invariant (fun _ => ready_start)
    (fun _ _ _ hw hr hok hs => ready_step hw hr hok hs) h).own

theorem write_answers_own_sample :
    ∃ s, (netio.Reach servesOwner s ∧
      .write (some (.conn 0)) (bytes "resp1=r1 by pid:7") ∈ s.kernel.log) ∧
      AnswersOwn s.kernel.log := by
  obtain ⟨s, hs, hw⟩ := sampleRun_reach servesOwner
    [.event 3 EPOLLIN { accepts := [.conn 5 ⟨2, 9, ⟨10, 0, 0, 1⟩⟩ true true] },
      .event 5 EPOLLIN { read := some (bytes "cmd=1") },
      .others (fun key => if key = NET_IO_BACK_MSQ_KEY then
        [cmdMsg 2
          { iFd := 5, ifamily := 2, sClientIp := bytes "10.0.0.1", iPort := 9
            sData := bytes "resp1=r1 by pid:7" }] else []),
      .response false (some 0), .event 5 EPOLLOUT {}]
    (fun s => s.kernel.log.contains (.write (some (.conn 0)) (bytes "resp1=r1 by pid:7")))
    (by decide +kernel)
  exact ⟨s, ⟨hs, by simpa using hw⟩, write_answers_own hs⟩

/-- A client that sends its request in two pieces is written whatever the
message table holds for its descriptor, before any response has arrived. -/
theorem write_without_answer : ¬∀ s, netio.Reachable s → AnswersOwn s.kernel.log := by
  intro hall
  obtain ⟨s, hs, hp⟩ := sampleRun_reach (fun _ _ => True)
    [.event 3 EPOLLIN { accepts := [.conn 5 ⟨2, 9, ⟨10, 0, 0, 1⟩⟩ true true] },
      .event 5 EPOLLIN { read := some (bytes "cmd=1") }, .event 5 EPOLLIN {}]
    (fun s => s.kernel.log.contains (.write (some (.conn 0)) []) &&
      !s.kernel.log.contains (.msgrcv (some 0) []))
    (by decide +kernel)
  obtain ⟨hwrite, hnone⟩ : .write (some (.conn 0)) [] ∈ s.kernel.log ∧
      .msgrcv (some 0) [] ∉ s.kernel.log := by simpa using hp
  obtain ⟨before, after, hlog⟩ := List.append_of_mem hwrite
  obtain ⟨l, l', hbefore, _⟩ := hall s hs before 0 [] after hlog
  exact hnone (by simp [hlog, hbefore])

end NetioMiddleware

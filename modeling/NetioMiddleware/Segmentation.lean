import NetioMiddleware.ConnLife
import NetioMiddleware.RequestData
import NetioMiddleware.WatchList

namespace NetioMiddleware

/-- A step other than an event of connection c or the arrival of the response to its request. Responses
to earlier clients of its descriptor may arrive. -/
def Elsewhere (s : Reactor) (c : Nat) : NetioLabel → Prop
  | .event fd _ _ => s.kernel.owner fd ≠ some (.conn c)
  | .response _ origin => origin ≠ some c
  | .others _ => True

/-- epoll reports input on a descriptor. -/
def AwaitsInput (s : Reactor) (fd : Int32) : Prop :=
  ∃ events, s.kernel.epoll fd = some events ∧ events &&& EPOLLIN = EPOLLIN

/-- A run in which connection c has input events for these chunks in turn and no other event, and its
response does not arrive. -/
inductive Arrives (c : Nat) : Reactor → List Bytes → Reactor → Prop
  | done {s} : Arrives c s [] s
  | chunk {s s1 s' fd buf chunks} : s.kernel.owner fd = some (.conn c) → AwaitsInput s fd →
      netio.step s (.event fd EPOLLIN { read := some buf }) s1 → Arrives c s1 chunks s' →
      Arrives c s (buf :: chunks) s'
  | other {s s1 s' l chunks} : Elsewhere s c l → netio.step s l s1 → Arrives c s1 chunks s' →
      Arrives c s chunks s'

/-- The requests of connection c that netio has put into a queue. -/
def requests (s : Reactor) (c : Nat) : List Syscall := s.kernel.log.filter (Syscall.requestOf c)

/-- Nothing has been written to connection c, not even the empty text. -/
def Silent (s : Reactor) (c : Nat) : Prop :=
  ∀ text, .write (some (.conn c)) text ∉ s.kernel.log

/-- The chunks can arrive, and however they do the connection makes the one
request of a single read and nothing is sent to it. -/
def Invisible (s : Reactor) (fd : Int32) (c : Nat) (chunks : List Bytes) (request : Bytes) : Prop :=
  ∃ s1 m, netio.step s (.event fd EPOLLIN { read := some request }) s1 ∧ requests s1 c = [m] ∧
    (∃ s', Arrives c s chunks s') ∧
      ∀ s', Arrives c s chunks s' → requests s' c = [m] ∧ Silent s' c

/-- A descriptor and its entry are as before, or wait for output. -/
def SameOrSending (s s' : Reactor) (fd : Int32) : Prop :=
  (s'.kernel.epoll fd = s.kernel.epoll fd ∧ s'.m_arrTcpSock fd = s.m_arrTcpSock fd) ∨
    ((s'.m_arrTcpSock fd).enEventFlag = .TCP_SERVER_SEND ∧ ¬AwaitsInput s' fd)

/-- What a step elsewhere leaves alone: the calls of connection c, what its
descriptor refers to, and, unless it makes it wait for output, what it waits for. -/
structure Untouched (c : Nat) (s s' : Reactor) : Prop where
  calls : history s'.kernel.log c = history s.kernel.log c
  accepted : s.kernel.accepted ≤ s'.kernel.accepted
  owner : ∀ x, s'.kernel.owner x = some (.conn c) ↔ s.kernel.owner x = some (.conn c)
  entry : ∀ x, s.kernel.owner x = some (.conn c) → SameOrSending s s' x

theorem awaitsInput_congr {s s' : Reactor} {fd : Int32} (h : s'.kernel.epoll fd = s.kernel.epoll fd) :
    AwaitsInput s' fd ↔ AwaitsInput s fd := by
  unfold AwaitsInput
  rw [h]

theorem SameOrSending.trans {s1 s2 s3 : Reactor} {fd : Int32} (h : SameOrSending s1 s2 fd)
    (h' : SameOrSending s2 s3 fd) : SameOrSending s1 s3 fd := by
  rcases h' with ⟨hepoll, hitem⟩ | hsending
  · rcases h with ⟨hepoll', hitem'⟩ | ⟨hflag, hdeaf⟩
    · exact Or.inl ⟨hepoll.trans hepoll', hitem.trans hitem'⟩
    · exact Or.inr ⟨hitem.symm ▸ hflag, mt (awaitsInput_congr hepoll).mp hdeaf⟩
  · exact Or.inr hsending

theorem Untouched.refl {c : Nat} (s : Reactor) : Untouched c s s :=
  ⟨rfl, Nat.le_refl _, fun _ => Iff.rfl, fun _ _ => Or.inl ⟨rfl, rfl⟩⟩

theorem Untouched.trans {c : Nat} {s1 s2 s3 : Reactor} (h : Untouched c s1 s2) (h' : Untouched c s2 s3) :
    Untouched c s1 s3 where
  calls := h'.calls.trans h.calls
  accepted := Nat.le_trans h.accepted h'.accepted
  owner x := (h'.owner x).trans (h.owner x)
  entry x ho := (h.entry x ho).trans (h'.entry x ((h.owner x).mpr ho))

/-- A change at a descriptor that is not the connection's before or after it. -/
theorem Untouched.of_fd {c : Nat} {s s' : Reactor} (fd : Int32) (es : List Syscall)
    (hfd : s.kernel.owner fd ≠ some (.conn c)) (hfd' : s'.kernel.owner fd ≠ some (.conn c))
    (howner : ∀ x, x ≠ fd → s'.kernel.owner x = s.kernel.owner x)
    (hepoll : ∀ x, x ≠ fd → s'.kernel.epoll x = s.kernel.epoll x)
    (hitem : ∀ x, x ≠ fd → s'.m_arrTcpSock x = s.m_arrTcpSock x)
    (haccepted : s.kernel.accepted ≤ s'.kernel.accepted) (hlog : s'.kernel.log = s.kernel.log ++ es)
    (hes : ∀ e ∈ es, e.who ≠ some (.conn c)) : Untouched c s s' := by
  refine ⟨?_, haccepted, ?_, ?_⟩
  · rw [hlog, history_append, history_eq_nil hes, List.append_nil]
  · intro x
    by_cases hx : x = fd
    · subst hx
      exact ⟨fun h => absurd h hfd', fun h => absurd h hfd⟩
    · rw [howner x hx]
  · intro x ho
    have hx : x ≠ fd := by
      rintro rfl
      exact hfd ho
    exact Or.inl ⟨hepoll x hx, hitem x hx⟩

section

variable {s s' : Reactor} {c : Nat} {fd : Int32}

theorem untouched_closed (hfd : s.kernel.owner fd ≠ some (.conn c)) : Untouched c s (s.closed fd) := by
  refine .of_fd fd [.close (s.kernel.owner fd)] hfd (by simp [Reactor.closed, Kernel.close]) ?_ ?_ ?_
    (Nat.le_refl _) rfl ?_
  · exact fun x hx => Function.update_of_ne hx _ _
  · exact fun x hx => Function.update_of_ne hx _ _
  · exact fun x hx => Function.update_of_ne hx _ _
  · intro e he
    rw [List.mem_singleton.mp he]
    exact hfd

theorem untouched_lost (hfd : s.kernel.owner fd ≠ some (.conn c)) : Untouched c s (s.lost fd) := by
  refine .of_fd fd [.incr (bytes "netio_0") 1, .read (s.kernel.owner fd), .close (s.kernel.owner fd)] hfd
    (by simp [Reactor.lost, Kernel.close]) ?_ ?_ (fun _ _ => rfl) (Nat.le_refl _) ?_ ?_
  · exact fun x hx => Function.update_of_ne hx _ _
  · exact fun x hx => Function.update_of_ne hx _ _
  · simp [Reactor.lost, Reactor.recvKernel, Kernel.record, Kernel.close]
  · intro e he
    simp only [List.mem_cons, List.not_mem_nil, or_false] at he
    rcases he with rfl | rfl | rfl
    · exact Option.some_ne_none _ ∘ Eq.symm
    · exact hfd
    · exact hfd

theorem untouched_asked {key : Int32} {buf : Bytes} {sent : Bool}
    (hfd : s.kernel.owner fd ≠ some (.conn c)) :
    Untouched c s (s.asked fd key buf sent) := by
  obtain ⟨howner, hepoll, haccepted⟩ := asked_frame s fd key buf sent
  obtain ⟨es, hlog, hes⟩ := asked_log s fd key buf sent
  have hitem := asked_item s fd key buf sent
  refine .of_fd fd _ hfd (by rwa [howner]) (fun x _ => by rw [howner]) (fun x _ => by rw [hepoll])
    (fun x hx => by rw [hitem, Function.update_of_ne hx]) (Nat.le_of_eq haccepted.symm) hlog ?_
  intro e he
  simp only [List.mem_append, List.mem_cons, List.not_mem_nil, or_false] at he
  rcases he with (rfl | rfl) | he
  · exact Option.some_ne_none _ ∘ Eq.symm
  · exact hfd
  · rcases hes with rfl | ⟨text, rfl⟩
    · exact absurd he List.not_mem_nil
    · rw [List.mem_singleton.mp he]
      exact hfd

theorem untouched_written (hfd : s.kernel.owner fd ≠ some (.conn c)) : Untouched c s (s.written fd) := by
  refine .of_fd fd [.write (s.kernel.owner fd) (s.m_arrMsg fd).text] hfd hfd (fun _ _ => rfl)
    (fun _ _ => rfl) (fun _ _ => rfl) (Nat.le_refl _) rfl ?_
  intro e he
  rw [List.mem_singleton.mp he]
  exact hfd

theorem untouched_dropped (hborn : c < s.kernel.accepted) (hfree : s.kernel.owner fd = none) :
    Untouched c s (s.dropped fd) := by
  refine .of_fd fd [.accept s.kernel.accepted fd, .close (some (.conn s.kernel.accepted))] (by simp [hfree])
    (by simp [Reactor.dropped, Kernel.close]) ?_ ?_ (fun _ _ => rfl) (Nat.le_succ _) ?_ ?_
  · intro x hx
    rw [dropped_owner, Function.update_of_ne hx]
  · exact fun x hx => Function.update_of_ne hx _ _
  · exact dropped_log s fd
  · have hnew : s.kernel.accepted ≠ c := by omega
    simp [Syscall.who, hnew]

theorem untouched_accepted {addr : SockAddrIn} (hborn : c < s.kernel.accepted)
    (hfree : s.kernel.owner fd = none) : Untouched c s (s.accepted fd addr) := by
  obtain ⟨howner, haccepted, hlog, hitem, -⟩ := accepted_frame s fd addr
  have hnew : s.kernel.accepted ≠ c := by omega
  refine .of_fd fd _ (by simp [hfree]) (by simp [howner, hnew]) ?_ (fun x hx => accepted_epoll addr hx) ?_
    (by omega) hlog (by simp [Syscall.who, hnew])
  · exact fun x hx => by rw [howner, Function.update_of_ne hx]
  · exact fun x hx => by rw [hitem, Function.update_of_ne hx]

theorem untouched_received {queues : Int32 → List QMsg} {m : MsgBuf} {rcvFailed : Bool}
    {origin : Option Nat} : Untouched c s (s.received queues fd m rcvFailed origin) := by
  have hcall : history (s.kernel.log ++ [.msgrcv origin m.text]) c = history s.kernel.log c := by
    rw [history_append]
    simp [history, Syscall.who]
  cases rcvFailed with
  | true => exact ⟨rfl, Nat.le_refl _, fun _ => Iff.rfl, fun _ _ => Or.inl ⟨rfl, rfl⟩⟩
  | false => exact ⟨hcall, Nat.le_refl _, fun _ => Iff.rfl, fun _ _ => Or.inl ⟨rfl, rfl⟩⟩

/-- A response either leaves its descriptor alone or makes it wait for output. -/
theorem sameOrSending_addToWatchList {stSock : TcpSockItem} {r : Int32}
    (hflag : stSock.enEventFlag = .TCP_SERVER_SEND) (hlisted : fd ∈ s.m_vecFds)
    (h : s.addToWatchList fd .TCP_SERVER_SEND (.item stSock) true = .ok (r, s')) :
    SameOrSending s s' fd := by
  have hstored : ((s.storeItem fd (.item stSock)).m_arrTcpSock fd).enEventFlag = .TCP_SERVER_SEND := by
    simpa [Reactor.storeItem, Reactor.setItem] using hflag
  obtain ⟨-, ⟨-, -, rfl⟩ | ⟨-, ⟨rfl, hfail⟩ | ⟨-, -, rfl⟩ | ⟨hm, -⟩⟩⟩ := addToWatchList_cases h
  · exact Or.inl ⟨rfl, rfl⟩
  · rw [if_pos hlisted] at hfail
    refine Or.inr ⟨hstored, ?_⟩
    rintro ⟨events, hevents, -⟩
    rw [storeItem_kernel, hfail] at hevents
    contradiction
  · refine Or.inr ⟨hstored, ?_⟩
    rintro ⟨events, hevents, hin⟩
    have hmask : Function.update s.kernel.epoll fd (some (eventMask .TCP_SERVER_SEND)) fd = some events :=
      hevents
    rw [Function.update_self] at hmask
    cases Option.some.inj hmask
    exact absurd hin (by decide)
  · exact absurd hlisted hm

theorem untouched_response {stSock : TcpSockItem} {r : Int32} (hw : Wired s)
    (hflag : stSock.enEventFlag = .TCP_SERVER_SEND)
    (h : s.addToWatchList fd .TCP_SERVER_SEND (.item stSock) true = .ok (r, s')) : Untouched c s s' := by
  obtain ⟨hk, -, -, -, hepoll, hitem, -⟩ := addToWatchList_frame h
  refine ⟨by rw [hk], by rw [hk], fun x => by rw [hk], fun x ho => ?_⟩
  by_cases hx : x = fd
  · subst hx
    exact sameOrSending_addToWatchList hflag (hw.listed x c ho) h
  · exact Or.inl ⟨hepoll x hx, hitem x hx⟩

theorem untouched_step {l : NetioLabel} (hw : Wired s) (hborn : c < s.kernel.accepted)
    (hl : Elsewhere s c l) (h : StepCase s l s') : Untouched c s s' := by
  have queued : ∀ queues, Untouched c s { s with kernel := s.kernel.setQueues queues } := fun _ =>
    ⟨rfl, Nat.le_refl _, fun _ => Iff.rfl, fun _ _ => Or.inl ⟨rfl, rfl⟩⟩
  cases h with
  | accepts hconn =>
    refine (doConn_preserves (P := fun s1 => Wired s1 ∧ Untouched c s s1) (fun _ _ hP => hP.1.unregistered)
      ?_ ?_ ⟨hw, .refl s⟩ hconn).2
    · intro s1 fd hP hfree
      have hborn1 := Nat.lt_of_lt_of_le hborn hP.2.accepted
      exact ⟨wired_dropped hP.1, hP.2.trans (untouched_dropped hborn1 hfree)⟩
    · intro s1 fd addr hP hfree _
      have hborn1 := Nat.lt_of_lt_of_le hborn hP.2.accepted
      exact ⟨wired_accepted hP.1, hP.2.trans (untouched_accepted hborn1 hfree)⟩
  | idle => exact .refl s
  | @look fd =>
    refine .of_fd fd [.read (s.kernel.owner fd)] hl hl (fun _ _ => rfl) (fun _ _ => rfl) (fun _ _ => rfl)
      (Nat.le_refl _) rfl ?_
    intro e he
    rw [List.mem_singleton.mp he]
    exact hl
  | hangup => exact untouched_closed hl
  | lost => exact untouched_lost hl
  | recv => exact untouched_asked hl
  | @send fd => exact (untouched_written hl).trans (untouched_closed (s := s.written fd) hl)
  | nothing => exact queued _
  | respond _ _ _ _ hadd =>
    exact untouched_received.trans (untouched_response (wired_received hw) rfl hadd)
  | others => exact queued _

/-- Nothing arrives on a connection that is over. -/
theorem arrives_gone {chunks : List Bytes} (hw : Wired s) (hborn : c < s.kernel.accepted)
    (hgone : ∀ x, s.kernel.owner x ≠ some (.conn c)) (h : Arrives c s chunks s') :
    chunks = [] ∧ history s'.kernel.log c = history s.kernel.log c := by
  induction h with
  | done => exact ⟨rfl, rfl⟩
  | chunk ho => exact absurd ho (hgone _)
  | other hl hs _ ih =>
    have hu := untouched_step hw hborn hl (netio_step_case hw hs)
    obtain ⟨hnil, hcalls⟩ := ih (wired_step hw hs) (Nat.lt_of_lt_of_le hborn hu.accepted)
      (fun x ho => hgone x ((hu.owner x).mp ho))
    exact ⟨hnil, hcalls.trans hu.calls⟩

theorem epollin_live : EPOLLIN &&& EPOLLRDHUP ≠ EPOLLRDHUP := by decide

/-- No chunk arrives on a connection that waits for output. -/
theorem arrives_deaf {chunks : List Bytes} (hw : Wired s) (ho : s.kernel.owner fd = some (.conn c))
    (hdeaf : ¬AwaitsInput s fd) (h : Arrives c s chunks s') : chunks = [] := by
  induction h with
  | done => rfl
  | chunk hx hin =>
    obtain rfl := hw.single fd _ c ho hx
    exact absurd hin hdeaf
  | other hl hs _ ih =>
    have hu := untouched_step hw (hw.numbered fd c ho) hl (netio_step_case hw hs)
    refine ih (wired_step hw hs) ((hu.owner fd).mpr ho) ?_
    rcases hu.entry fd ho with ⟨hepoll, -⟩ | ⟨-, hdeaf'⟩
    · exact mt (awaitsInput_congr hepoll).mp hdeaf
    · exact hdeaf'

/-- The calls DoRecv makes for a connection whose request msgsnd accepts. -/
def recvCalls (s : Reactor) (fd key : Int32) (c : Nat) (buf : Bytes) : List Syscall :=
  [.read (some (.conn c)), .msgsnd (some (.conn c)) key (encode (s.stampCmd fd buf))]

theorem mem_history {log : List Syscall} {text : Bytes} :
    .write (some (.conn c)) text ∈ history log c ↔ .write (some (.conn c)) text ∈ log := by
  simp [history, Syscall.who]

theorem asked_calls {key : Int32} {buf : Bytes} (ho : s.kernel.owner fd = some (.conn c)) :
    history (s.asked fd key buf true).kernel.log c =
      history s.kernel.log c ++ recvCalls s fd key c buf := by
  have hlog : (s.asked fd key buf true).kernel.log =
      s.kernel.log ++ (.incr (bytes "netio_0") 1 :: recvCalls s fd key c buf) := by
    unfold recvCalls
    generalize hcmd : s.stampCmd fd buf = oCmd
    simp only [Reactor.asked, Reactor.setFlag, Reactor.setItem, hcmd]
    have ht : 0 < (MsgBuf.reset.withType REQUEST.toInt).lType := show (0 : Int) < 1 by omega
    have hput := putMsg_printCmd (q := s.kernel.queues key) (c := oCmd) ht
    rw [printCmd_text] at hput
    simp [Kernel.msgsnd, printCmd_text, Reactor.recvKernel, Kernel.record, hput, ho]
  rw [hlog, history_append]
  simp [history, recvCalls, Syscall.who]

/-- Once netio waits to answer, one more chunk makes it send what the message
table holds and close the connection. -/
theorem arrives_sending {chunks : List Bytes} (hw : Wired s) (ho : s.kernel.owner fd = some (.conn c))
    (hsend : (s.m_arrTcpSock fd).enEventFlag = .TCP_SERVER_SEND) (h : Arrives c s chunks s') :
    (chunks = [] ∧ history s'.kernel.log c = history s.kernel.log c) ∨ chunks ≠ [] ∧ ¬Silent s' c := by
  induction h with
  | done => exact Or.inl ⟨rfl, rfl⟩
  | @chunk s s1 s' x buf chunks hx _ hs hrest =>
    obtain rfl := hw.single fd x c ho hx
    have hreg : s.kernel.epoll fd ≠ none := hs.1
    have hw1 := wired_step hw hs
    have hitem := processItem_send { read := some buf } hw hreg epollin_live hsend
    have hdo : s.doSend fd = .ok s1 := hitem ▸ hs.2
    obtain rfl := doSend_eq hdo
    have hgone : ∀ x, (s.answered fd).kernel.owner x ≠ some (.conn c) := by
      intro x hx
      by_cases he : x = fd
      · subst he
        simp [Reactor.answered, Reactor.closed, Kernel.close] at hx
      · refine he (hw.single x fd c ?_ ho)
        simpa [Reactor.answered, Reactor.written, Reactor.closed, Kernel.close, Kernel.record, he] using hx
    obtain ⟨-, hcalls⟩ := arrives_gone hw1 (hw.numbered fd c ho) hgone hrest
    refine Or.inr ⟨List.cons_ne_nil _ _, fun hsilent => hsilent (s.m_arrMsg fd).text (mem_history.mp ?_)⟩
    rw [hcalls, mem_history]
    simp [Reactor.answered, Reactor.written, Reactor.closed, Kernel.record, Kernel.close, ho]
  | other hl hs _ ih =>
    have hu := untouched_step hw (hw.numbered fd c ho) hl (netio_step_case hw hs)
    have ih := ih (wired_step hw hs) ((hu.owner fd).mpr ho) ?_
    · rwa [hu.calls] at ih
    · rcases hu.entry fd ho with ⟨-, hitem⟩ | ⟨hflag, -⟩
      · rwa [hitem]
      · exact hflag

/-- The first chunk is taken for the whole request. -/
theorem arrives_reading {chunks : List Bytes} (hw : Wired s) (ho : s.kernel.owner fd = some (.conn c))
    (hread : (s.m_arrTcpSock fd).enEventFlag = .TCP_SERVER_READ) (hne : ∀ x ∈ chunks, x ≠ [])
    (h : Arrives c s chunks s') :
    chunks = [] ∨ (∃ buf key, chunks = [buf] ∧ routeCmd (initCCmd {} buf).iCmd = some key ∧
      history s'.kernel.log c = history s.kernel.log c ++ recvCalls s fd key c buf) ∨
      1 < chunks.length ∧ ¬Silent s' c := by
  induction h with
  | done => exact Or.inl rfl
  | @chunk s s1 s' x buf chunks hx _ hs hrest =>
    obtain rfl := hw.single fd x c ho hx
    have hreg : s.kernel.epoll fd ≠ none := hs.1
    have hw1 := wired_step hw hs
    have hitem := processItem_read { read := some buf } hw hreg epollin_live hread
    have hdo : s.doRecv fd (some buf) true = .ok s1 := hitem ▸ hs.2
    obtain ⟨hlost | hlost, _⟩ | ⟨buf', key, hbuf, _, hkey, rfl⟩ := doRecv_cases hdo
    · cases hlost
    · exact absurd (Option.some.inj hlost) (hne buf List.mem_cons_self)
    · obtain rfl := Option.some.inj hbuf
      have howner : (s.asked fd key buf true).kernel.owner fd = some (.conn c) := by
        rwa [(asked_frame s fd key buf true).1]
      have hsend : ((s.asked fd key buf true).m_arrTcpSock fd).enEventFlag = .TCP_SERVER_SEND := by
        rw [asked_item, Function.update_self]
      obtain ⟨rfl, hcalls⟩ | ⟨hmore, hsent⟩ := arrives_sending hw1 howner hsend hrest
      · exact Or.inr (Or.inl ⟨buf, key, rfl, hkey, hcalls.trans (asked_calls ho)⟩)
      · have hpos := List.length_pos_of_ne_nil hmore
        exact Or.inr (Or.inr ⟨Nat.succ_lt_succ hpos, hsent⟩)
  | @other s s1 s' l chunks hl hs hrest ih =>
    have hu := untouched_step hw (hw.numbered fd c ho) hl (netio_step_case hw hs)
    have hw1 := wired_step hw hs
    have ho1 := (hu.owner fd).mpr ho
    rcases hu.entry fd ho with ⟨-, hitem⟩ | ⟨-, hdeaf⟩
    · have hrecv : ∀ key buf, recvCalls s1 fd key c buf = recvCalls s fd key c buf := by
        intro key buf
        simp only [recvCalls, Reactor.stampCmd, hitem]
      have ih := ih hw1 ho1 (hitem.symm ▸ hread) hne
      simpa only [hu.calls, hrecv] using ih
    · exact Or.inl (arrives_deaf hw1 ho1 hdeaf hrest)

theorem requests_eq (s : Reactor) (c : Nat) :
    requests s c = (history s.kernel.log c).filter Syscall.isMsgsnd := by
  rw [requests, history, List.filter_filter]
  rfl

/-- A connection that waits for its request has made none and was sent nothing. -/
theorem waiting_history (h : netio.Reachable s) (ho : s.kernel.owner fd = some (.conn c))
    (hread : (s.m_arrTcpSock fd).enEventFlag = .TCP_SERVER_READ) :
    (history s.kernel.log c).filter Syscall.isMsgsnd = [] ∧
      ∀ text, .write (some (.conn c)) text ∉ history s.kernel.log c := by
  obtain ⟨fd₀, calls, hcalls, hin, _, hnone⟩ := (life_reach h c).current (wired_reach h) ho
  have hzero : calls.filter Syscall.isMsgsnd = [] := by
    rw [← List.length_eq_zero_iff, ← List.countP_eq_length_filter]
    exact hnone hread
  rw [hcalls]
  refine ⟨by simp [Syscall.isMsgsnd, hzero], fun text hm => ?_⟩
  rcases List.mem_cons.mp hm with hm | hm
  · cases hm
  · exact absurd (input_not_write hin _ hm) (by simp [Syscall.isWrite])

end

/-- Every open connection that waits for its request and is watched is watched for input. -/
def ReadsInput (s : Reactor) : Prop :=
  ∀ fd c, s.kernel.owner fd = some (.conn c) → s.kernel.epoll fd ≠ none →
    (s.m_arrTcpSock fd).enEventFlag = .TCP_SERVER_READ → AwaitsInput s fd

section

variable {s s' : Reactor} {fd : Int32}

/-- A change at one descriptor that is no connection, is not watched or does not wait for a request then. -/
theorem ReadsInput.of_fd (h : ReadsInput s) (fd : Int32)
    (howner : ∀ x, x ≠ fd → s'.kernel.owner x = s.kernel.owner x)
    (hepoll : ∀ x, x ≠ fd → s'.kernel.epoll x = s.kernel.epoll x)
    (hitem : ∀ x, x ≠ fd → s'.m_arrTcpSock x = s.m_arrTcpSock x)
    (hfd : ∀ c, s'.kernel.owner fd = some (.conn c) → s'.kernel.epoll fd ≠ none →
      (s'.m_arrTcpSock fd).enEventFlag = .TCP_SERVER_READ → AwaitsInput s' fd) : ReadsInput s' := by
  intro x c ho hreg hread
  by_cases hx : x = fd
  · subst hx
    exact hfd c ho hreg hread
  · rw [howner x hx] at ho
    rw [hepoll x hx] at hreg
    rw [hitem x hx] at hread
    exact (awaitsInput_congr (hepoll x hx)).mpr (h x c ho hreg hread)

/-- A descriptor that is closed is no connection. -/
theorem ReadsInput.unowned (h : ReadsInput s) (fd : Int32)
    (howner : s'.kernel.owner = Function.update s.kernel.owner fd none)
    (hepoll : s'.kernel.epoll = Function.update s.kernel.epoll fd none)
    (hitem : ∀ x, x ≠ fd → s'.m_arrTcpSock x = s.m_arrTcpSock x) : ReadsInput s' := by
  refine h.of_fd fd (fun x hx => ?_) (fun x hx => ?_) hitem fun c ho => ?_
  · rw [howner, Function.update_of_ne hx]
  · rw [hepoll, Function.update_of_ne hx]
  · rw [howner, Function.update_self] at ho
    contradiction

theorem readsInput_accepted {addr : SockAddrIn} (h : ReadsInput s) (hw : Wired s)
    (hfree : s.kernel.owner fd = none) : ReadsInput (s.accepted fd addr) := by
  obtain ⟨howner, -, -, hitem, -⟩ := accepted_frame s fd addr
  refine h.of_fd fd (fun x hx => ?_) (fun x hx => accepted_epoll addr hx) (fun x hx => ?_) fun _ _ hreg _ => ?_
  · rw [howner, Function.update_of_ne hx]
  · rw [hitem, Function.update_of_ne hx]
  · have hunreg := hw.unregistered hfree
    unfold Reactor.accepted at hreg ⊢
    split at hreg
    next => exact absurd hunreg hreg
    next hm =>
      rw [if_neg hm]
      exact ⟨eventMask .TCP_SERVER_READ, Function.update_self _ _ _, by decide⟩

theorem readsInput_asked {key : Int32} {buf : Bytes} {sent : Bool} (h : ReadsInput s) :
    ReadsInput (s.asked fd key buf sent) := by
  obtain ⟨howner, hepoll, -⟩ := asked_frame s fd key buf sent
  have hitem := asked_item s fd key buf sent
  generalize s.asked fd key buf sent = s1 at howner hepoll hitem ⊢
  refine h.of_fd fd (fun x _ => by rw [howner]) (fun x _ => by rw [hepoll])
    (fun x hx => by rw [hitem, Function.update_of_ne hx]) fun _ _ _ hread => ?_
  rw [hitem, Function.update_self] at hread
  contradiction

theorem readsInput_step {l : NetioLabel} (hw : Wired s) (h : ReadsInput s) (hcase : StepCase s l s') :
    ReadsInput s' := by
  have closed : ∀ fd, ReadsInput (s.closed fd) := fun fd =>
    h.unowned fd rfl rfl fun x hx => Function.update_of_ne hx _ _
  cases hcase with
  | accepts hconn =>
    refine (doConn_preserves (P := fun s => Wired s ∧ ReadsInput s) (fun _ _ hP => hP.1.unregistered)
      ?_ ?_ ⟨hw, h⟩ hconn).2
    · intro s fd hP _
      exact ⟨wired_dropped hP.1, hP.2.unowned fd (dropped_owner s fd) rfl fun _ _ => rfl⟩
    · intro s fd addr hP hfree _
      exact ⟨wired_accepted hP.1, readsInput_accepted hP.2 hP.1 hfree⟩
  | idle => exact h
  | look => exact h
  | hangup => exact closed _
  | lost => exact h.unowned _ rfl rfl fun _ _ => rfl
  | recv => exact readsInput_asked h
  | @send fd =>
    have hwritten : ReadsInput (s.written fd) := h
    exact hwritten.unowned fd rfl rfl fun x hx => Function.update_of_ne hx _ _
  | nothing => exact h
  | @respond f origin q oCmd m _ _ _ _ _ _ hadd =>
    obtain ⟨hk, -, -, -, hepoll, hitem, -⟩ := addToWatchList_frame hadd
    have hreceived : ReadsInput (s.received q oCmd.iFd m f origin) := by cases f <;> exact h
    have howner : s'.kernel.owner = (s.received q oCmd.iFd m f origin).kernel.owner := by rw [hk]
    refine hreceived.of_fd oCmd.iFd (fun x _ => by rw [howner]) hepoll hitem fun c ho hreg hread => ?_
    rw [howner] at ho
    have hwired : Wired (s.received q oCmd.iFd m f origin) := wired_received hw
    have hlisted := hwired.listed _ c ho
    rcases sameOrSending_addToWatchList rfl hlisted hadd with ⟨hepoll, hitem⟩ | ⟨hflag, -⟩
    · rw [hepoll] at hreg
      rw [hitem] at hread
      exact (awaitsInput_congr hepoll).mpr (hreceived _ c ho hreg hread)
    · rw [hflag] at hread
      contradiction
  | others => exact h

theorem readsInput_reach (h : netio.Reachable s) : ReadsInput s := by
  refine netio_invariant (P := ReadsInput) ?_ (fun s l s' hw hP _ hcase => readsInput_step hw hP hcase) h
  intro s hs fd c ho
  refine absurd ho (hs.induct (P := fun s => ∀ fd c, s.kernel.owner fd ≠ some (.conn c)) ?_ ?_ fd c)
  · exact fun _ _ _ _ _ _ _ _ howner fd c => init_owner_ne_conn howner fd c
  · intro s s' fd op r hnone _ _ hadd x c
    rw [(addToWatchList_frame hadd).1]
    exact hnone x c

variable {c : Nat} {chunks : List Bytes} {request : Bytes}

theorem read_step {buf : Bytes} (h : netio.Reachable s) (hreg : s.kernel.epoll fd ≠ none)
    (hread : (s.m_arrTcpSock fd).enEventFlag = .TCP_SERVER_READ) (hne : buf ≠ []) (hlen : buf.length ≤ 999)
    (hcmd : (initCCmd {} buf).iCmd = 1 ∨ (initCCmd {} buf).iCmd = 2) :
    ∃ key, routeCmd (initCCmd {} buf).iCmd = some key ∧
      netio.step s (.event fd EPOLLIN { read := some buf }) (s.asked fd key buf true) := by
  obtain ⟨key, hkey, hrecv⟩ : ∃ key, routeCmd (initCCmd {} buf).iCmd = some key ∧
      s.doRecv fd (some buf) true = .ok (s.asked fd key buf true) :=
    doRecv_asked hne hlen hcmd (registered_inArray h fd hreg)
  have hitem := processItem_read { read := some buf } (wired_reach h) hreg epollin_live hread
  exact ⟨key, hkey, hreg, hitem.trans hrecv⟩

theorem recvCalls_requests (key : Int32) (buf : Bytes) :
    (recvCalls s fd key c buf).filter Syscall.isMsgsnd =
      [.msgsnd (some (.conn c)) key (encode (s.stampCmd fd buf))] := rfl

theorem asked_requests {key : Int32} {buf : Bytes} (ho : s.kernel.owner fd = some (.conn c))
    (hnone : (history s.kernel.log c).filter Syscall.isMsgsnd = []) :
    requests (s.asked fd key buf true) c =
      [.msgsnd (some (.conn c)) key (encode (s.stampCmd fd buf))] := by
  rw [requests_eq, asked_calls ho, List.filter_append, hnone, recvCalls_requests]
  rfl

/-- A chunk behind the first has the table's text sent. -/
theorem invisible_only (h : netio.Reachable s) (ho : s.kernel.owner fd = some (.conn c))
    (hread : (s.m_arrTcpSock fd).enEventFlag = .TCP_SERVER_READ) (hwhole : request ≠ [])
    (hcut : chunks.flatten = request) (hne : ∀ x ∈ chunks, x ≠ [])
    (hinv : Invisible s fd c chunks request) : chunks = [request] := by
  obtain ⟨s1, m, -, -, ⟨s', hs'⟩, hall⟩ := hinv
  obtain rfl | ⟨buf, key, rfl, -⟩ | ⟨-, hsent⟩ := arrives_reading (wired_reach h) ho hread hne hs'
  · exact absurd hcut.symm hwhole
  · rw [← hcut]
    simp
  · exact absurd (hall s' hs').2 hsent

/-- Cutting a request is invisible exactly if nothing is cut off it. -/
theorem segmentation_invisible_iff (h : netio.Reachable s) (ho : s.kernel.owner fd = some (.conn c))
    (hreg : s.kernel.epoll fd ≠ none) (hread : (s.m_arrTcpSock fd).enEventFlag = .TCP_SERVER_READ)
    (hlen : request.length ≤ 999)
    (hcmd : (initCCmd {} request).iCmd = 1 ∨ (initCCmd {} request).iCmd = 2)
    (hcut : chunks.flatten = request) (hne : ∀ x ∈ chunks, x ≠ []) :
    Invisible s fd c chunks request ↔ chunks = [request] := by
  obtain ⟨hnone, hsilent⟩ := waiting_history h ho hread
  have hwhole : request ≠ [] := by
    rintro rfl
    exact absurd hcmd (by decide +kernel)
  refine ⟨invisible_only h ho hread hwhole hcut hne, ?_⟩
  rintro rfl
  obtain ⟨key, hkey, hstep⟩ := read_step h hreg hread hwhole hlen hcmd
  have hin := readsInput_reach h fd c ho hreg hread
  refine ⟨_, _, hstep, asked_requests ho hnone, ⟨_, .chunk ho hin hstep .done⟩, ?_⟩
  intro s' hs'
  obtain hnil | ⟨buf, key', hbuf, hkey', hcalls⟩ | ⟨hmore, -⟩ :=
    arrives_reading (wired_reach h) ho hread hne hs'
  · exact absurd hnil (List.cons_ne_nil _ _)
  · obtain rfl := (List.cons.inj hbuf).1
    obtain rfl : key' = key := Option.some.inj (hkey'.symm.trans hkey)
    refine ⟨?_, fun text hm => ?_⟩
    · rw [requests_eq, hcalls, List.filter_append, hnone, recvCalls_requests]
      rfl
    · rw [← mem_history, hcalls, List.mem_append] at hm
      exact hm.elim (hsilent text) (by simp [recvCalls])
  · exact absurd hmore (Nat.lt_irrefl 1)

end

/-- netio waits on descriptor 5 for the request of its first connection. -/
def waitsOnFive (s : Reactor) : Bool :=
  s.kernel.owner 5 = some (.conn 0) ∧ s.kernel.epoll 5 ≠ none ∧
    (s.m_arrTcpSock 5).enEventFlag = .TCP_SERVER_READ

theorem segmentation_invisible_iff_whole :
    ∃ s, (netio.Reachable s ∧ s.kernel.owner 5 = some (.conn 0) ∧ s.kernel.epoll 5 ≠ none ∧
        (s.m_arrTcpSock 5).enEventFlag = .TCP_SERVER_READ) ∧
      Invisible s 5 0 [bytes "cmd=1&a=b"] (bytes "cmd=1&a=b") := by
  obtain ⟨s, hs, hp⟩ := sampleRun_reach (fun _ _ => True)
    [.event 3 EPOLLIN { accepts := [.conn 5 ⟨2, 9, ⟨10, 0, 0, 1⟩⟩ true true] }] waitsOnFive
    (by decide +kernel)
  obtain ⟨ho, hreg, hread⟩ := of_decide_eq_true hp
  refine ⟨s, ⟨hs, ho, hreg, hread⟩, (segmentation_invisible_iff hs ho hreg hread (by decide)
    (Or.inl (by decide +kernel)) (by decide) (by decide)).mpr rfl⟩

/-- Of a request that comes in two parts the second has the table's text sent. -/
theorem segmentation_visible :
    ∃ s, (netio.Reachable s ∧ s.kernel.owner 5 = some (.conn 0) ∧ s.kernel.epoll 5 ≠ none ∧
        (s.m_arrTcpSock 5).enEventFlag = .TCP_SERVER_READ) ∧
      (initCCmd {} (bytes "cmd=1&a=b")).iCmd = 1 ∧
      ¬Invisible s 5 0 [bytes "cmd=1", bytes "&a=b"] (bytes "cmd=1&a=b") := by
  obtain ⟨s, hs, hp⟩ := sampleRun_reach (fun _ _ => True)
    [.event 3 EPOLLIN { accepts := [.conn 5 ⟨2, 9, ⟨10, 0, 0, 1⟩⟩ true true] }] waitsOnFive
    (by decide +kernel)
  obtain ⟨ho, hreg, hread⟩ := of_decide_eq_true hp
  refine ⟨s, ⟨hs, ho, hreg, hread⟩, by decide +kernel, fun hinv => ?_⟩
  have hone := invisible_only hs ho hread (by decide) (by decide) (by decide) hinv
  exact absurd hone (by decide)

end NetioMiddleware

import NetioMiddleware.SystemHistory

namespace NetioMiddleware

theorem Shadow.heldRequests {c c' : Container} (h : Shadow c c') : c'.heldRequests = c.heldRequests := by
  rw [Container.heldRequests, (Prod.mk.inj h.maps).2, h.frames, Container.heldRequests]

theorem clientsIn_behind {gone : List QMsg} {queues queues' : Int32 → List QMsg}
    (h : Behind gone [] queues queues') (svc : SvcClass) : clientsIn queues' svc = clientsIn queues svc := by
  rw [clientsIn, h.service, clientsIn]

/-- Where the requests are in the whole and in its shadow. -/
theorem Undrained.places {s : NetioSystem} {b : Backend} {gone : List QMsg} (h : Undrained s b gone) :
    b.queuedRequests = (s.behind []).queuedRequests ∧ b.heldRequests = (s.behind []).heldRequests ∧
      b.answeredRequests = gone.map (·.cmd.sender) ++ (s.behind []).answeredRequests := by
  refine ⟨?_, ?_, ?_⟩
  · have h1 : b.queues 0xccccd = s.netio.kernel.queues 0xccccd := h.queues.service .CSvcTest
    have h2 : b.queues 0xcccce = s.netio.kernel.queues 0xcccce := h.queues.service .CSvcTest2
    rw [Backend.queuedRequests, h1, h2]
    rfl
  · have hmap : s.procs.map Container.heldRequests = b.procs.map Container.heldRequests := by
      rw [← List.forall₂_eq_eq_eq, List.forall₂_map_left_iff, List.forall₂_map_right_iff]
      exact h.procs.imp fun _ _ hc => hc.heldRequests.symm
    rw [Backend.heldRequests, List.flatMap_def, ← hmap]
    rfl
  · rw [Backend.answeredRequests, h.back, List.map_append]
    rfl

theorem Undrained.mirrored {s : NetioSystem} {b : Backend} {gone : List QMsg} (h : Undrained s b gone)
    {d : Container} (hd : d ∈ b.procs) : ∃ c ∈ s.procs, Shadow c d := by
  obtain ⟨i, hi⟩ := List.getElem?_of_mem hd
  obtain ⟨c, hget, hshadow⟩ := forall₂_getElem? h.procs.flip hi
  exact ⟨c, List.mem_of_getElem? hget, hshadow⟩

/-- Every request netio has sent is in one place, and is there once. -/
theorem Undrained.sent_places {s : NetioSystem} {b : Backend} {gone : List QMsg} (h : Undrained s b gone)
    (hs : Served b) :
    (sentSenders s.netio.kernel.log).Perm ((s.behind []).queuedRequests ++ (s.behind []).heldRequests ++
      (s.behind []).answeredRequests ++ gone.map (·.cmd.sender)) := by
  obtain ⟨hqueued, hheld, hanswered⟩ := h.places
  refine List.perm_iff_count.mpr fun t => ?_
  have hplaces := (count_places b t).trans (hs.places t)
  rw [hqueued, hheld, hanswered, h.sent] at hplaces
  simp only [List.count_append] at hplaces ⊢
  omega

/-- Every request netio has sent waits in a queue, is held by a handler, is
answered in netio's queue, or is one whose answer netio has received, and is so
once. As long as OnEventFire calls do not overlap, the answers of svc_test reach
netio in the order of its requests. -/
theorem requests_accounted {s : NetioSystem} (h : netioSystem.Reach NetioSystem.Plain s) :
    ∃ gone : List QMsg,
      gone.map (fun x => responseText x.cmd) = receivedTexts s.netio.kernel.log ∧
      (sentSenders s.netio.kernel.log).Perm ((s.behind []).queuedRequests ++
        (s.behind []).heldRequests ++ (s.behind []).answeredRequests ++ gone.map (·.cmd.sender)) ∧
      forService .CSvcTest (gone.map (·.cmd.sender) ++ (s.behind []).answeredRequests) ++
        clientsIn s.netio.kernel.queues .CSvcTest =
          forService .CSvcTest (sentSenders s.netio.kernel.log) := by
  obtain ⟨b, gone, hb, hu⟩ := system_undrained h
  have hs := order_reach hb
  refine ⟨gone, hu.received, hu.sent_places hs.served, ?_⟩
  have hfirst := hs.first
  rw [clientsIn_behind hu.queues, hu.sent] at hfirst
  rw [← hu.places.2.2]
  exact hfirst

theorem requests_accounted_everywhere : ∃ s : NetioSystem,
    ((s.behind []).queuedRequests.map (·.iFd) = [8] ∧ (s.behind []).heldRequests.map (·.iFd) = [7] ∧
      (s.behind []).answeredRequests.map (·.iFd) = [6] ∧
      receivedTexts s.netio.kernel.log = [bytes "resp1=r1 by pid:7"]) ∧
    ∃ gone : List QMsg,
      gone.map (fun x => responseText x.cmd) = receivedTexts s.netio.kernel.log ∧
      (sentSenders s.netio.kernel.log).Perm ((s.behind []).queuedRequests ++
        (s.behind []).heldRequests ++ (s.behind []).answeredRequests ++ gone.map (·.cmd.sender)) ∧
      forService .CSvcTest (gone.map (·.cmd.sender) ++ (s.behind []).answeredRequests) ++
        clientsIn s.netio.kernel.queues .CSvcTest =
          forService .CSvcTest (sentSenders s.netio.kernel.log) := by
  obtain ⟨s, hs, hp⟩ := sampleSystem_reach NetioSystem.Plain
    [.netio (.event 3 1 { accepts := [.conn 5 ⟨2, 4000, ⟨10, 0, 0, 1⟩⟩ true true,
        .conn 6 ⟨2, 4001, ⟨10, 0, 0, 1⟩⟩ true true, .conn 7 ⟨2, 4002, ⟨10, 0, 0, 1⟩⟩ true true,
        .conn 8 ⟨2, 4003, ⟨10, 0, 0, 1⟩⟩ true true] }),
      .netio (.event 5 1 { read := some (bytes "cmd=1") }),
      .netio (.event 6 1 { read := some (bytes "cmd=1") }),
      .netio (.event 7 1 { read := some (bytes "cmd=2") }),
      .netio (.event 8 1 { read := some (bytes "cmd=1") }),
      .process 0 true, .process 0 true, .process 1 true, .netio (.response false (some 0))]
    (fun s => (s.behind []).queuedRequests.map (·.iFd) = [8] ∧
      (s.behind []).heldRequests.map (·.iFd) = [7] ∧
      (s.behind []).answeredRequests.map (·.iFd) = [6] ∧
      receivedTexts s.netio.kernel.log = [bytes "resp1=r1 by pid:7"]) (by decide +kernel)
  exact ⟨s, of_decide_eq_true hp, requests_accounted hs⟩

/-- What the message table may hold, given what it held at the start. -/
def Known (arrMsg : Int32 → MsgBuf) (log : List Syscall) (text : Bytes) : Prop :=
  text = [] ∨ (∃ fd, text = (arrMsg fd).text) ∨ text ∈ receivedTexts log

/-- netio writes what its message table holds, and that is known. -/
structure Echoes (arrMsg : Int32 → MsgBuf) (s : Reactor) : Prop where
  table : ∀ fd, Known arrMsg s.kernel.log (s.m_arrMsg fd).text
  writes : ∀ owner text, .write owner text ∈ s.kernel.log → Known arrMsg s.kernel.log text

section

variable {arrMsg : Int32 → MsgBuf} {s s' : Reactor}

theorem Known.append {log es : List Syscall} {text : Bytes} (h : Known arrMsg log text) :
    Known arrMsg (log ++ es) text := by
  refine h.imp id (Or.imp id fun hmem => ?_)
  rw [receivedTexts, List.filterMap_append]
  exact List.mem_append_left _ hmem

theorem Echoes.of_log (h : Echoes arrMsg s) (es : List Syscall) (hlog : s'.kernel.log = s.kernel.log ++ es)
    (hes : ∀ owner text, .write owner text ∈ es → ∃ fd, text = (s.m_arrMsg fd).text)
    (htable : ∀ fd, s'.m_arrMsg fd = s.m_arrMsg fd ∨ Known arrMsg s'.kernel.log (s'.m_arrMsg fd).text) :
    Echoes arrMsg s' := by
  have old : ∀ {text}, Known arrMsg s.kernel.log text → Known arrMsg s'.kernel.log text :=
    fun hknown => hlog ▸ hknown.append
  refine ⟨fun fd => ?_, fun owner text hmem => ?_⟩
  · rcases htable fd with hsame | hknown
    · rw [hsame]
      exact old (h.table fd)
    · exact hknown
  · rw [hlog] at hmem
    rcases List.mem_append.mp hmem with hmem | hmem
    · exact old (h.writes owner text hmem)
    · obtain ⟨fd, rfl⟩ := hes owner text hmem
      exact old (h.table fd)

theorem echoes_closed (h : Echoes arrMsg s) (fd : Int32) : Echoes arrMsg (s.closed fd) :=
  h.of_log [.close (s.kernel.owner fd)] rfl (by simp) (fun _ => Or.inl rfl)

theorem echoes_conn (hw : Wired s) (h : Echoes arrMsg s) {fd : Int32} {l : List AcceptOutcome}
    (hconn : s.doConn fd l = .ok s') : Echoes arrMsg s' := by
  refine (doConn_preserves (P := fun r => Wired r ∧ Echoes arrMsg r) (fun _ _ hr => hr.1.unregistered)
    ?_ ?_ ⟨hw, h⟩ hconn).2
  · refine fun r x hr _ => ⟨wired_dropped hr.1, ?_⟩
    exact hr.2.of_log _ (dropped_log r x) (by simp) (fun _ => Or.inl rfl)
  · refine fun r x addr hr _ _ => ⟨wired_accepted hr.1, ?_⟩
    obtain ⟨_, _, hlog, _, hmsg⟩ := accepted_frame r x addr
    exact hr.2.of_log _ hlog (by simp) (fun _ => Or.inl (by rw [hmsg]))

theorem failed_text {oCmd : CCmd} (h : takenCmd s true = some oCmd) : responseText oCmd = [] := by
  have hclear : cStr (List.replicate (MAX_MSG_SIZE - 8) 0) = cStr [] :=
    cStr_append_zeros [] (MAX_MSG_SIZE - 8)
  have hcmd : oCmd = initCCmd {} [] := (Option.some.inj h).symm.trans (initCCmd_congr hclear)
  rw [hcmd]
  decide +kernel

/-- What OnEventFire stores is what it has received, or nothing. -/
theorem echoes_respond (h : Echoes arrMsg s) {q : Int32 → List QMsg} {oCmd : CCmd} {m : MsgBuf} {r : Int32}
    {rcvFailed : Bool} {origin : Option Nat} (htaken : takenCmd s rcvFailed = some oCmd)
    (htext : m.text = responseText oCmd)
    (hadd : (s.received q oCmd.iFd m rcvFailed origin).addToWatchList oCmd.iFd .TCP_SERVER_SEND
      (.item (responseSock oCmd)) true = .ok (r, s')) : Echoes arrMsg s' := by
  obtain ⟨hk, hmsg, _⟩ := addToWatchList_frame hadd
  have hlog : s'.kernel.log = s.kernel.log ++ if rcvFailed then [] else [.msgrcv origin m.text] := by
    rw [hk]
    cases rcvFailed with
    | false => rfl
    | true => exact (List.append_nil _).symm
  refine h.of_log _ hlog (by split <;> simp) (fun fd => ?_)
  by_cases hfd : fd = oCmd.iFd
  · subst hfd
    right
    have hm : s'.m_arrMsg oCmd.iFd = m := by
      rw [hmsg]
      exact Function.update_self ..
    rw [hm, hlog]
    cases rcvFailed with
    | true =>
      left
      rw [htext, failed_text htaken]
    | false =>
      right; right
      rw [if_neg (by decide), receivedTexts, List.filterMap_append]
      exact List.mem_append_right _ (by simp)
  · left
    rw [hmsg]
    exact Function.update_of_ne hfd _ _

theorem echoes_step {l : NetioLabel} (hw : Wired s) (h : Echoes arrMsg s) (hstep : netio.step s l s') :
    Echoes arrMsg s' := by
  cases netio_step_case hw hstep with
  | accepts hconn => exact echoes_conn hw h hconn
  | idle => exact h
  | look => exact h.of_log [_] rfl (by simp) (fun _ => Or.inl rfl)
  | hangup => exact echoes_closed h _
  | @lost fd =>
    refine h.of_log [.incr (bytes "netio_0") 1, .read (s.kernel.owner fd), .close (s.kernel.owner fd)]
      ?_ (by simp) (fun _ => Or.inl rfl)
    simp [Reactor.lost, Reactor.recvKernel, Kernel.record, Kernel.close]
  | recv =>
    obtain ⟨es, hlog, hes⟩ := asked_log s _ _ _ _
    refine h.of_log _ hlog ?_ (fun _ => Or.inl rfl)
    rcases hes with rfl | ⟨_, rfl⟩
    · simp
    · simp
  | @send fd =>
    have hwritten : Echoes arrMsg (s.written fd) := by
      refine h.of_log [.write (s.kernel.owner fd) (s.m_arrMsg fd).text] rfl ?_ (fun _ => Or.inl rfl)
      intro owner text hmem
      obtain ⟨_, rfl⟩ := Syscall.write.inj (List.mem_singleton.mp hmem)
      exact ⟨fd, rfl⟩
    exact echoes_closed hwritten fd
  | nothing => exact h.of_log [] (List.append_nil _).symm (by simp) (fun _ => Or.inl rfl)
  | respond htaken _ htext _ hadd => exact echoes_respond h htaken htext hadd
  | others => exact h.of_log [] (List.append_nil _).symm (by simp) (fun _ => Or.inl rfl)

theorem echoes_start (h : NetioStart s) : Echoes s.m_arrMsg s := by
  have hlog : s.kernel.log = [] := start_log h
  refine ⟨fun fd => Or.inr (Or.inl ⟨fd, rfl⟩), fun owner text hmem => ?_⟩
  rw [hlog] at hmem
  contradiction

end

/-- The answer of a process of the whole. -/
def NetioSystem.Answers (s : NetioSystem) (text : Bytes) : Prop :=
  ∃ c ∈ s.procs, ∃ t ∈ answerTexts c.svc, text = t ++ pidText c.pid

/-- The text of an answer reaches netio whole. -/
theorem answer_text {b : Backend} (hs : Served b) {svc : SvcClass} {pid : Nat} (hserves : b.Serves svc pid)
    {x : QMsg} (h : Answer svc pid x) : responseText x.cmd = x.cmd.sData := by
  obtain ⟨c, hc, _, hpid⟩ := hserves
  obtain ⟨t, ht, hdata⟩ := h.data
  obtain ⟨_, hnul, hlen⟩ := answerTexts_kept ht (Or.inr rfl : Suffix pid (pidText pid))
  have hdigits := pid_length (hs.inv.valid c hc)
  have hpid : c.pid = pid := by exact_mod_cast hpid
  rw [hpid] at hdigits
  have hblank : (bytes " by pid:").length = 8 := by decide
  have hfree : 0 ∉ t ++ pidText pid := by
    rw [List.mem_append, not_or]
    exact ⟨hnul, pidText_free _ (by decide) (by decide)⟩
  rw [responseText, hdata, cStr_eq_self hfree, List.take_of_length_le]
  simp only [pidText, List.length_append, hblank, MAX_MSG_SIZE]
  omega

theorem Undrained.slots {s : NetioSystem} {b : Backend} {gone : List QMsg} (h : Undrained s b gone)
    (hslots : ∀ c ∈ s.procs, c.slots ≠ []) : ∀ d ∈ b.procs, d.slots ≠ [] := by
  intro d hd
  obtain ⟨c, hc, hshadow⟩ := h.mirrored hd
  rw [hshadow.slots]
  exact hslots c hc

/-- Every message that was ever in netio's queue holds the answer of a process of
the whole that takes requests of its command. -/
theorem Undrained.given {s : NetioSystem} {b : Backend} {gone : List QMsg} (h : Undrained s b gone)
    (hb : backend.Reach plainRun b) (hslots : ∀ c ∈ s.procs, c.slots ≠ []) {x : QMsg}
    (hx : x ∈ b.queues NET_IO_BACK_MSQ_KEY) :
    ∃ c ∈ s.procs, routeCmd x.cmd.iCmd = some c.svc.mqKey ∧
      ∃ t ∈ answerTexts c.svc, responseText x.cmd = t ++ pidText c.pid := by
  obtain ⟨svc, pid, hserves, hanswer⟩ := (told_reach hb (h.slots hslots)).back x hx
  have htext := answer_text (served_reach hb) hserves hanswer
  obtain ⟨t, ht, hdata⟩ := hanswer.data
  obtain ⟨d, hd, rfl, hpid⟩ := hserves
  have hpid : d.pid = pid := by exact_mod_cast hpid
  obtain ⟨c, hc, hshadow⟩ := h.mirrored hd
  refine ⟨c, hc, hshadow.svc ▸ hanswer.route, t, hshadow.svc ▸ ht, ?_⟩
  rw [htext, hdata, ← hpid, hshadow.pid]

/-- What netio has received are answers of processes behind it. -/
theorem received_answers {s : NetioSystem} (h : netioSystem.Reach NetioSystem.Plain s)
    (hslots : ∀ c ∈ s.procs, c.slots ≠ []) :
    ∀ text ∈ receivedTexts s.netio.kernel.log, s.Answers text := by
  obtain ⟨b, gone, hb, hu⟩ := system_undrained h
  intro text htext
  rw [← hu.received] at htext
  obtain ⟨x, hx, rfl⟩ := List.mem_map.mp htext
  have hback : x ∈ b.queues NET_IO_BACK_MSQ_KEY := by
    rw [hu.back]
    exact List.mem_append_left _ hx
  obtain ⟨c, hc, _, hanswer⟩ := hu.given hb hslots hback
  exact ⟨c, hc, hanswer⟩

/-- Nothing of a request is ever sent to a client: what netio writes is the
fixed text of an answer with the number of the process that gave it, nothing,
or what its message table held when it started. -/
theorem writes_are_answers {s s' : NetioSystem} {ls : List SystemLabel} (h : netioSystem.init s)
    (hrun : netioSystem.Run NetioSystem.Plain s ls s') (hslots : ∀ c ∈ s'.procs, c.slots ≠ []) :
    ∀ owner text, .write owner text ∈ s'.netio.kernel.log →
      s'.Answers text ∨ text = [] ∨ ∃ fd, text = (s.netio.m_arrMsg fd).text := by
  have hs : Wired s'.netio ∧ Echoes s.netio.m_arrMsg s'.netio := by
    refine Machine.Run.invariant (I := fun r => Wired r.netio ∧ Echoes s.netio.m_arrMsg r.netio) ?_
      ⟨wired_start h.netio, echoes_start h.netio⟩ hrun
    rintro r l r' ⟨hw, he⟩ _ hstep
    cases l with
    | netio l =>
      have hnetio := (system_netio_step hstep).1
      exact ⟨wired_step hw hnetio, echoes_step hw he hnetio⟩
    | process i sent =>
      rw [(system_process_step hstep []).2]
      have hothers : netio.step r.netio (.others r'.netio.kernel.queues) _ := ⟨trivial, rfl⟩
      exact ⟨wired_step hw hothers, echoes_step hw he hothers⟩
  intro owner text hmem
  rcases hs.2.writes owner text hmem with hnil | htable | hreceived
  · exact Or.inr (Or.inl hnil)
  · exact Or.inr (Or.inr htable)
  · exact Or.inl (received_answers (Machine.Reach.run (.init h) hrun) hslots text hreceived)

theorem writes_are_answers_one : ∃ (s s' : NetioSystem) (ls : List SystemLabel),
    (netioSystem.init s ∧ netioSystem.Run NetioSystem.Plain s ls s' ∧
      .write (some (.conn 0)) (bytes "resp1=r1 by pid:7") ∈ s'.netio.kernel.log) ∧
    ∀ owner text, .write owner text ∈ s'.netio.kernel.log →
      s'.Answers text ∨ text = [] ∨ ∃ fd, text = (s.netio.m_arrMsg fd).text := by
  obtain ⟨s', hs, hp⟩ := sampleSystem_reach NetioSystem.Plain
    [.netio (.event 3 1 { accepts := [.conn 5 ⟨2, 4000, ⟨10, 0, 0, 1⟩⟩ true true] }),
      .netio (.event 5 1 { read := some (bytes "cmd=1&a=b") }), .process 0 true,
      .netio (.response false (some 0)), .netio (.event 5 4 {})]
    (fun s => decide (.write (some (.conn 0)) (bytes "resp1=r1 by pid:7") ∈ s.netio.kernel.log) &&
      s.procs.all (fun c => decide (c.slots ≠ []))) (by decide +kernel)
  obtain ⟨hwrite, hslots⟩ := Bool.and_eq_true_iff.mp hp
  obtain ⟨s, ls, hinit, hrun⟩ := hs.exists_run
  have hslots : ∀ c ∈ s'.procs, c.slots ≠ [] :=
    fun c hc => of_decide_eq_true (List.all_eq_true.mp hslots c hc)
  exact ⟨s, s', ls, ⟨hinit, hrun, of_decide_eq_true hwrite⟩, writes_are_answers hinit hrun hslots⟩

end NetioMiddleware

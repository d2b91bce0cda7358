import NetioMiddleware.Netio

namespace NetioMiddleware

/-- The three records of what netio watches say the same, and every connection
is watched. -/
structure WatchAgrees (s : Reactor) : Prop where
  nodup : s.m_vecFds.Nodup
  counted : s.m_iEvents = s.m_vecFds.length
  exact : ∀ fd, fd ∈ s.m_vecFds ↔ s.kernel.epoll fd ≠ none
  registered : ∀ fd c, s.kernel.owner fd = some (.conn c) → s.kernel.epoll fd ≠ none

/-- DoRecv is not called where read finds the end of the file or fails. -/
def readsData (s : Reactor) : NetioLabel → Prop
  | .event fd events out =>
    events &&& EPOLLRDHUP ≠ EPOLLRDHUP → (s.m_arrTcpSock fd).enEventFlag = .TCP_SERVER_READ →
      out.read ≠ none ∧ out.read ≠ some []
  | _ => True

instance (s : Reactor) : (l : NetioLabel) → Decidable (readsData s l)
  | .event _ _ _ => inferInstanceAs (Decidable (_ → _ → _ ∧ _))
  | .response _ _ => inferInstanceAs (Decidable True)
  | .others _ => inferInstanceAs (Decidable True)

theorem WatchAgrees.of_same {s s' : Reactor} (ha : WatchAgrees s)
    (howner : s'.kernel.owner = s.kernel.owner) (hepoll : s'.kernel.epoll = s.kernel.epoll)
    (hvec : s'.m_vecFds = s.m_vecFds) (hevents : s'.m_iEvents = s.m_iEvents) : WatchAgrees s' := by
  refine ⟨hvec ▸ ha.nodup, ?_, ?_, ?_⟩
  · rw [hevents, hvec]; exact ha.counted
  · intro fd
    rw [hvec, hepoll]
    exact ha.exact fd
  · intro fd c ho
    rw [hepoll]
    exact ha.registered fd c (howner ▸ ho)

/-- A descriptor that joins the vector and the epoll set together. -/
theorem WatchAgrees.of_add {s s' : Reactor} (ha : WatchAgrees s) (fd : Int32) (events : UInt32)
    (hnew : fd ∉ s.m_vecFds) (howner : ∀ x, x ≠ fd → s'.kernel.owner x = s.kernel.owner x)
    (hepoll : s'.kernel.epoll = Function.update s.kernel.epoll fd (some events))
    (hvec : s'.m_vecFds = s.m_vecFds ++ [fd]) (hevents : s'.m_iEvents = s.m_iEvents + 1) :
    WatchAgrees s' := by
  refine ⟨?_, ?_, ?_, ?_⟩
  · rw [hvec]
    refine List.nodup_append.mpr ⟨ha.nodup, by simp, ?_⟩
    intro a ha b hb
    obtain rfl := List.mem_singleton.mp hb
    exact fun h => hnew (h ▸ ha)
  · rw [hevents, hvec, ha.counted]
    simp
  · intro x
    rw [hvec, hepoll]
    by_cases hx : x = fd
    · simp [hx]
    · simpa [hx] using ha.exact x
  · intro x c ho
    rw [hepoll]
    by_cases hx : x = fd
    · simp [hx]
    · rw [Function.update_of_ne hx]
      exact ha.registered x c (howner x hx ▸ ho)

theorem watchAgrees_closed {s : Reactor} {fd : Int32} (ha : WatchAgrees s) :
    WatchAgrees (s.closed fd) := by
  have hvec : (s.closed fd).m_vecFds = s.m_vecFds.erase fd := by
    dsimp only [Reactor.closed]
    split
    next hreg => exact (List.erase_of_not_mem (fun hm => (ha.exact fd).mp hm hreg)).symm
    next => rfl
  have howner : (s.closed fd).kernel.owner = Function.update s.kernel.owner fd none := rfl
  have hepoll : (s.closed fd).kernel.epoll = Function.update s.kernel.epoll fd none := rfl
  refine ⟨?_, ?_, ?_, ?_⟩
  · rw [hvec]
    exact ha.nodup.erase fd
  · rw [hvec, List.length_erase]
    dsimp only [Reactor.closed]
    rw [ha.counted]
    by_cases hm : fd ∈ s.m_vecFds
    · have := List.length_pos_of_mem hm
      simp only [hm, (ha.exact fd).mp hm, ne_eq, not_false_eq_true, and_self, if_true]
      omega
    · simp [hm]
  · intro x
    rw [hvec, hepoll]
    by_cases hx : x = fd
    · subst hx
      simp [ha.nodup.not_mem_erase]
    · rw [Function.update_of_ne hx, List.mem_erase_of_ne hx]
      exact ha.exact x
  · intro x c ho
    rw [howner] at ho
    rw [hepoll]
    by_cases hx : x = fd
    · simp [hx] at ho
    · rw [Function.update_of_ne hx] at ho ⊢
      exact ha.registered x c ho

theorem watchAgrees_dropped {s : Reactor} {fd : Int32} (ha : WatchAgrees s)
    (hfree : s.kernel.epoll fd = none) : WatchAgrees (s.dropped fd) := by
  have howner := dropped_owner s fd
  have hepoll : (s.dropped fd).kernel.epoll = s.kernel.epoll := by
    simp [Reactor.dropped, Kernel.close, Kernel.accept, ← hfree]
  refine ⟨ha.nodup, ha.counted, fun x => hepoll ▸ ha.exact x, ?_⟩
  intro x c ho
  rw [howner] at ho
  rw [hepoll]
  by_cases hx : x = fd
  · simp [hx] at ho
  · rw [Function.update_of_ne hx] at ho
    exact ha.registered x c ho

theorem watchAgrees_accepted {s : Reactor} {fd : Int32} {addr : SockAddrIn} (ha : WatchAgrees s)
    (hfree : s.kernel.epoll fd = none) : WatchAgrees (s.accepted fd addr) := by
  have hnew : fd ∉ s.m_vecFds := fun hm => (ha.exact fd).mp hm hfree
  unfold Reactor.accepted
  rw [if_neg hnew]
  exact ha.of_add fd _ hnew (fun x hx => Function.update_of_ne hx _ _) rfl rfl rfl

theorem watchAgrees_addToWatchList {s s' : Reactor} {fd : Int32} {op : EventFlag}
    {pData : WatchData} {chk : Bool} {r : Int32} (ha : WatchAgrees s)
    (h : s.addToWatchList fd op pData chk = .ok (r, s')) : WatchAgrees s' := by
  obtain ⟨_, ⟨_, _, rfl⟩ | ⟨_, ⟨rfl, _⟩ | ⟨hm, hreg, rfl⟩ | ⟨hnew, _, _, rfl⟩⟩⟩ :=
    addToWatchList_cases h
  · exact ha
  · exact ha.of_same (by simp) (by simp) (by simp) (by simp)
  · refine ⟨by simpa using ha.nodup, by simpa using ha.counted, ?_, ?_⟩
    · intro x
      by_cases hx : x = fd
      · simp [hx, hm, Kernel.watch]
      · simpa [hx, Kernel.watch] using ha.exact x
    · intro x c ho
      by_cases hx : x = fd
      · simp [hx, Kernel.watch]
      · simpa [hx, Kernel.watch] using ha.registered x c ho
  · exact ha.of_add fd _ hnew (fun _ _ => rfl) rfl rfl rfl

theorem watchAgrees_step {s s' : Reactor} {l : NetioLabel} (hw : Wired s) (ha : WatchAgrees s)
    (hok : readsData s l) (h : StepCase s l s') : WatchAgrees s' := by
  cases h with
  | accepts hconn =>
    refine (doConn_preserves (P := fun s => Wired s ∧ WatchAgrees s) ?_ ?_ ?_ ⟨hw, ha⟩ hconn).2
    · intro s fd hP hfree
      exact hP.1.unregistered hfree
    · intro s fd hP hfree
      exact ⟨wired_dropped hP.1, watchAgrees_dropped hP.2 (hP.1.unregistered hfree)⟩
    · intro s fd addr hP hfree _
      exact ⟨wired_accepted hP.1, watchAgrees_accepted hP.2 (hP.1.unregistered hfree)⟩
  | idle => exact ha
  | look => exact ha.of_same rfl rfl rfl rfl
  | hangup => exact watchAgrees_closed ha
  | lost _ hlive hread hlost => exact (hlost.elim (hok hlive hread).1 (hok hlive hread).2).elim
  | recv =>
    obtain ⟨howner, hepoll, _⟩ := asked_frame s _ _ _ _
    exact ha.of_same howner hepoll rfl rfl
  | send => exact watchAgrees_closed (ha.of_same rfl rfl rfl rfl)
  | nothing => exact ha.of_same rfl rfl rfl rfl
  | @respond f origin q _ _ _ _ _ _ _ _ hadd =>
    refine watchAgrees_addToWatchList (s := s.received q _ _ f origin) ?_ hadd
    cases f <;> exact ha.of_same rfl rfl rfl rfl
  | others => exact ha.of_same rfl rfl rfl rfl

theorem watchAgrees_start {s : Reactor} (h : NetioStart s) : WatchAgrees s := by
  refine (h.induct (P := fun s => WatchAgrees s) ?_ ?_)
  · intro iSvrFd iUSockFd stServaddr unset arrMsg owner queues _ howner
    refine ⟨List.nodup_nil, rfl, fun fd => by simp [Reactor.init], ?_⟩
    intro fd c ho
    exact absurd ho (init_owner_ne_conn howner fd c)
  · exact fun s s' fd op r ha _ _ h => watchAgrees_addToWatchList ha h

theorem processItem_read {s : Reactor} {fd : Int32} {events : UInt32} (out : Outcomes)
    (hw : Wired s) (hreg : s.kernel.epoll fd ≠ none) (hlive : events &&& EPOLLRDHUP ≠ EPOLLRDHUP)
    (hread : (s.m_arrTcpSock fd).enEventFlag = .TCP_SERVER_READ) :
    s.processItem fd events out = s.doRecv fd out.read out.sent := by
  unfold Reactor.processItem
  dsimp only
  rw [if_neg hlive, (hw.registered fd hreg).2, hread]
  split
  next hsvr => rw [← hsvr]; rfl
  next => rfl

theorem processItem_send {s : Reactor} {fd : Int32} {events : UInt32} (out : Outcomes)
    (hw : Wired s) (hreg : s.kernel.epoll fd ≠ none) (hlive : events &&& EPOLLRDHUP ≠ EPOLLRDHUP)
    (hsend : (s.m_arrTcpSock fd).enEventFlag = .TCP_SERVER_SEND) :
    s.processItem fd events out = s.doSend fd := by
  unfold Reactor.processItem
  dsimp only
  rw [if_neg hlive, (hw.registered fd hreg).2, hsend]
  split
  next hsvr => rw [← hsvr]; rfl
  next => rfl

theorem lost_disagrees {s : Reactor} {fd : Int32} (ha : WatchAgrees s)
    (hreg : s.kernel.epoll fd ≠ none) : ¬WatchAgrees (s.lost fd) := by
  intro ha'
  have hm : fd ∈ (s.lost fd).m_vecFds := (ha.exact fd).mpr hreg
  exact (ha'.exact fd).mp hm (by simp [Reactor.lost, Kernel.close])

/-- As long as every read of DoRecv returns data, the vector, its count and the
epoll set agree and every open connection is watched. A read that returns
nothing ends this at once. -/
theorem watchList_agrees_iff {s : Reactor} (h : netio.Reach readsData s) :
    WatchAgrees s ∧ ∀ l s', netio.step s l s' → (WatchAgrees s' ↔ readsData s l) := by
  have hw := wired_reach h
  have ha := netio_invariant (fun _ => watchAgrees_start)
    (fun _ _ _ hw ha hok hs => watchAgrees_step hw ha hok hs) h
  refine ⟨ha, ?_⟩
  intro l s' hs
  refine ⟨?_, fun hok => watchAgrees_step hw ha hok (netio_step_case hw hs)⟩
  intro ha'
  cases l with
  | event fd events out =>
    intro hlive hread
    obtain ⟨hreg, hs⟩ := hs
    have hrecv := processItem_read out hw hreg hlive hread
    by_contra hnone
    have hlost : out.read = none ∨ out.read = some [] := by
      by_contra h
      exact hnone (not_or.mp h)
    have hs' : s.doRecv fd out.read out.sent = .ok s' := hrecv ▸ hs
    have hs' : s' = s.lost fd := by
      rcases hlost with hl | hl
      all_goals
        rw [hl] at hs'
        exact (Except.ok.inj hs').symm
    exact lost_disagrees ha hreg (hs' ▸ ha')
  | response => trivial
  | others => trivial

theorem watchList_agrees_iff_accept :
    ∃ s, (netio.Reach readsData s ∧ s.m_vecFds = [3, 4, 5]) ∧
      (WatchAgrees s ∧ ∀ l s', netio.step s l s' → (WatchAgrees s' ↔ readsData s l)) := by
  obtain ⟨s, hs, hv⟩ := sampleRun_reach readsData
    [.event 3 EPOLLIN { accepts := [.conn 5 ⟨2, 9, ⟨10, 0, 0, 1⟩⟩ true true] }]
    (fun s => s.m_vecFds == [3, 4, 5])
    (by decide +kernel)
  exact ⟨s, ⟨hs, by simpa using hv⟩, watchList_agrees_iff hs⟩

/-- A client that connects and closes its side leaves its descriptor in the vector. -/
theorem watchList_disagrees_after_eof : ¬∀ s, netio.Reachable s → WatchAgrees s := by
  intro hall
  obtain ⟨s, hs, hp⟩ := sampleRun_reach (fun _ _ => True)
    [.event 3 EPOLLIN { accepts := [.conn 5 ⟨2, 9, ⟨10, 0, 0, 1⟩⟩ true true] },
      .event 5 EPOLLIN { read := some [] }]
    (fun s => s.m_vecFds.contains 5 && (s.kernel.epoll 5).isNone)
    (by decide +kernel)
  obtain ⟨hm, hgone⟩ : 5 ∈ s.m_vecFds ∧ s.kernel.epoll 5 = none := by simpa using hp
  exact ((hall s hs).exact 5).mp hm hgone

end NetioMiddleware

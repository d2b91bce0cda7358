import NetioMiddleware.Attendance

namespace NetioMiddleware

/-- Clients who send their request in one piece and then wait: input comes with
data and is not followed by more before the answer stands ready, a client hangs
up only before it has asked, and neither msgsnd nor msgrcv fails. -/
def NetioLabel.Patient (r : Reactor) : NetioLabel → Prop
  | .event fd events out =>
    (events &&& EPOLLRDHUP = EPOLLRDHUP → flagAt r fd = .TCP_SERVER_READ) ∧
      (events &&& EPOLLRDHUP ≠ EPOLLRDHUP → flagAt r fd = .TCP_SERVER_READ →
        out.read ≠ none ∧ out.read ≠ some []) ∧
      (flagAt r fd = .TCP_SERVER_SEND → r.kernel.epoll fd = some (eventMask .TCP_SERVER_SEND)) ∧
      out.sent = true
  | .response rcvFailed _ => rcvFailed = false
  | .others _ => True

instance (r : Reactor) : (l : NetioLabel) → Decidable (l.Patient r)
  | .event _ _ _ => inferInstanceAs (Decidable ((_ → _) ∧ (_ → _ → _ ∧ _) ∧ (_ → _) ∧ _))
  | .response rcvFailed _ => inferInstanceAs (Decidable (rcvFailed = false))
  | .others _ => isTrue trivial

namespace NetioSystem

def Patient (s : NetioSystem) (l : SystemLabel) : Prop :=
  s.Orderly l ∧ match l with
    | .netio l => l.Patient s.netio
    | .process _ _ => True

instance (s : NetioSystem) : (l : SystemLabel) → Decidable (s.Patient l)
  | .netio l => inferInstanceAs (Decidable (s.Orderly (.netio l) ∧ l.Patient s.netio))
  | .process i sent => inferInstanceAs (Decidable (s.Orderly (.process i sent) ∧ True))

/-- The requests that wait in a queue, are held by a handler, or are answered
in netio's queue. -/
def pending (s : NetioSystem) : List Sender :=
  (s.behind []).queuedRequests ++ (s.behind []).heldRequests ++ (s.behind []).answeredRequests

/-- What a process of the service with this queue answers. -/
def Gives (s : NetioSystem) (key : Int32) (text : Bytes) : Prop :=
  ∃ c ∈ s.procs, c.svc.mqKey = key ∧ ∃ t ∈ answerTexts c.svc, text = t ++ pidText c.pid

end NetioSystem

section

variable {gives : Int32 → Bytes → Prop} {pending : List Sender} {r r' : Reactor}

/-- An input event either concerns no request, or a client asks. -/
theorem attended_event (hw : Wired r) (ha : WatchAgrees r) (h : Attended gives pending r) {fd : Int32}
    {events : UInt32} {out : Outcomes} (hpat : (NetioLabel.event fd events out).Patient r)
    (hstep : netio.step r (.event fd events out) r') :
    (Attended gives pending r' ∧ r'.kernel.queues = r.kernel.queues) ∨
      ∃ key buf, out.read = some buf ∧ flagAt r fd = .TCP_SERVER_READ ∧
        routeCmd (r.stampCmd fd buf).iCmd = some key ∧ r' = r.asked fd key buf true := by
  obtain ⟨hhup, hdata, hmask, hsent⟩ := hpat
  cases netio_step_case hw hstep with
  | accepts hconn => exact Or.inl ⟨attended_conn hw h ha hconn, (quiet_doConn hw hconn).queues⟩
  | idle => exact Or.inl ⟨h, rfl⟩
  | look =>
    refine Or.inl ⟨h.of_same [.read (r.kernel.owner fd)] rfl rfl rfl rfl (Nat.le_refl _) rfl (by simp)
      (fun _ => .refl _), rfl⟩
  | hangup hreg =>
    by_cases hsend : flagAt r fd = .TCP_SERVER_SEND
    · have hlive : events &&& EPOLLRDHUP ≠ EPOLLRDHUP := by
        intro heq
        rw [hhup heq] at hsend
        cases hsend
      have hdone := hstep.2
      rw [show netioStep r (.event fd events out) = r.processItem fd events out from rfl,
        processItem_send out hw hreg hlive hsend] at hdone
      rw [doSend_eq hdone]
      exact Or.inl ⟨attended_answered h hsend (hmask hsend), rfl⟩
    · exact Or.inl ⟨attended_closed h hsend, rfl⟩
  | lost _ hlive hread hnone =>
    obtain ⟨h1, h2⟩ := hdata hlive hread
    rcases hnone with hnone | hnone
    · exact absurd hnone h1
    · exact absurd hnone h2
  | @recv _ _ _ buf key _ _ hread hbuf _ hkey =>
    rw [hsent]
    exact Or.inr ⟨key, buf, hbuf, hread, hkey, rfl⟩
  | send _ _ hsend => exact Or.inl ⟨attended_answered h hsend (hmask hsend), rfl⟩

theorem attended_start (h : NetioStart r) : Attended gives [] r := by
  have hstart : (∀ fd c, r.kernel.owner fd ≠ some (.conn c)) ∧ ∀ fd, flagAt r fd ≠ .TCP_SERVER_READ ∧
      flagAt r fd ≠ .TCP_SERVER_SEND := by
    refine h.induct (P := fun r => (∀ fd c, r.kernel.owner fd ≠ some (.conn c)) ∧
      ∀ fd, flagAt r fd ≠ .TCP_SERVER_READ ∧ flagAt r fd ≠ .TCP_SERVER_SEND) ?_ ?_
    · intro iSvrFd iUSockFd stServaddr unset arrMsg owner queues _ howner
      refine ⟨fun fd c => init_owner_ne_conn howner fd c, fun fd => ?_⟩
      dsimp only [flagAt, Reactor.init]
      by_cases h1 : fd = iUSockFd
      · simp [h1]
      · by_cases h2 : fd = iSvrFd
        · rw [Function.update_of_ne h1, h2, Function.update_self]
          simp
        · simp [h1, h2]
    · rintro s s' fd op i ⟨howner, hflag⟩ _ _ hadd
      obtain ⟨hk, _, _, _, _, _, hitem, _⟩ := addToWatchList_frame hadd
      have hitem : s'.m_arrTcpSock = s.m_arrTcpSock := hitem.elim id id
      refine ⟨fun x c => ?_, fun x => ?_⟩
      · rw [hk]
        exact howner x c
      · rw [flagAt, hitem]
        exact hflag x
  refine ⟨fun fd => .other (hstart.1 fd) (hstart.2 fd).1 (hstart.2 fd).2 (.refl _), ?_⟩
  rintro c key ⟨text, hmem⟩
  rw [start_log h] at hmem
  contradiction

end

section

variable {s s' : NetioSystem}

theorem pending_same (hqueues : s'.netio.kernel.queues = s.netio.kernel.queues) (hprocs : s'.procs = s.procs) :
    s'.pending = s.pending := by
  have hbehind : s'.behind [] = s.behind [] := by
    rw [NetioSystem.behind, hqueues, hprocs, NetioSystem.behind]
  rw [NetioSystem.pending, hbehind, NetioSystem.pending]

theorem Undrained.pending_perm {b : Backend} {gone : List QMsg} (h : Undrained s b gone) (hs : Served b) :
    (sentSenders s.netio.kernel.log).Perm (s.pending ++ gone.map (·.cmd.sender)) := h.sent_places hs

theorem pending_process {b b' : Backend} {gone : List QMsg} (hu : Undrained s b gone)
    (hu' : Undrained s' b' gone) (hs : Served b) (hs' : Served b')
    (hlog : s'.netio.kernel.log = s.netio.kernel.log) : s'.pending.Perm s.pending := by
  have h := hu.pending_perm hs
  have h' := hu'.pending_perm hs'
  rw [hlog] at h'
  exact (List.perm_append_right_iff _).mp (h'.symm.trans h)

theorem pending_asks {b b' : Backend} {gone : List QMsg} {t : Sender} (hu : Undrained s b gone)
    (hu' : Undrained s' b' gone) (hs : Served b) (hs' : Served b')
    (hsent : sentSenders s'.netio.kernel.log = sentSenders s.netio.kernel.log ++ [t]) :
    s'.pending.Perm (t :: s.pending) := by
  have h := hu.pending_perm hs
  have h' := hu'.pending_perm hs'
  rw [hsent] at h'
  refine (List.perm_append_right_iff (gone.map (·.cmd.sender))).mp (h'.symm.trans ?_)
  exact (List.perm_append_singleton t _).trans (h.cons t)

theorem pending_takes {m : QMsg} {rest : List QMsg} (h : Takes s.netio m rest s'.netio)
    (hprocs : s'.procs = s.procs) : s.pending.Perm (m.cmd.sender :: s'.pending) := by
  have hservice : ∀ svc : SvcClass, s'.netio.kernel.queues svc.mqKey = s.netio.kernel.queues svc.mqKey := by
    intro svc
    rw [h.queues, Function.update_of_ne (mqKey_ne_back svc)]
  have hqueued : (s'.behind []).queuedRequests = (s.behind []).queuedRequests := by
    have h1 : (s'.behind []).queues 0xccccd = (s.behind []).queues 0xccccd := hservice .CSvcTest
    have h2 : (s'.behind []).queues 0xcccce = (s.behind []).queues 0xcccce := hservice .CSvcTest2
    rw [Backend.queuedRequests, h1, h2, Backend.queuedRequests]
  have hheld : (s'.behind []).heldRequests = (s.behind []).heldRequests := by
    rw [Backend.heldRequests, NetioSystem.behind, hprocs]
    rfl
  have hanswered : (s.behind []).answeredRequests = m.cmd.sender :: (s'.behind []).answeredRequests := by
    have h1 : (s.behind []).queues NET_IO_BACK_MSQ_KEY = m :: rest := h.first
    have h2 : (s'.behind []).queues NET_IO_BACK_MSQ_KEY = rest :=
      (congrFun h.queues NET_IO_BACK_MSQ_KEY).trans (Function.update_self ..)
    rw [Backend.answeredRequests, Backend.answeredRequests, h1, h2, List.map_cons]
  rw [NetioSystem.pending, NetioSystem.pending, hqueued, hheld, hanswered]
  exact List.perm_middle

/-- No step changes which library a process has loaded, its number or its handlers. -/
theorem procs_kept {l : SystemLabel} (hs : Sound (s.behind [])) (h : netioSystem.step s l s') :
    s'.procs.map (fun c => (c.svc, c.pid, c.slots)) = s.procs.map (fun c => (c.svc, c.pid, c.slots)) := by
  cases l with
  | netio l => rw [(system_netio_step h).2.1]
  | process i sent =>
    obtain ⟨hstep, _⟩ := system_process_step h []
    suffices hkept : (s'.behind []).procs.map (fun c => (c.svc, c.pid, c.slots)) =
        (s.behind []).procs.map (fun c => (c.svc, c.pid, c.slots)) from hkept
    generalize s.behind [] = b at hs hstep ⊢
    generalize s'.behind [] = b' at hstep ⊢
    cases backend_step_case hstep with
    | absent => rfl
    | @fire _ _ _ front c back c' _ hprocs hprocs' _ hon =>
      obtain ⟨hsvc, hpid, hslots⟩ := (fire_static (hs.valid c (hprocs ▸ by simp)) (hs.text c.svc) hon).1
      rw [hprocs, hprocs']
      simp only [List.map_append, List.map_cons, hsvc, hpid, hslots]

theorem slots_kept {l : SystemLabel} (hs : Sound (s.behind [])) (h : netioSystem.step s l s') :
    (∀ c ∈ s'.procs, c.slots ≠ []) ↔ ∀ c ∈ s.procs, c.slots ≠ [] := by
  have hsame := congrArg (List.map fun x => x.2.2) (procs_kept hs h)
  rw [List.map_map, List.map_map] at hsame
  have hslots : ∀ procs : List Container,
      (∀ c ∈ procs, c.slots ≠ []) ↔ ∀ slots ∈ procs.map (·.slots), slots ≠ [] := by simp
  rw [hslots, hslots]
  exact (congrArg (fun l => ∀ slots ∈ l, slots ≠ []) hsame).to_iff

theorem gives_kept {l : SystemLabel} (hs : Sound (s.behind [])) (h : netioSystem.step s l s') :
    s'.Gives = s.Gives := by
  funext key text
  have hgives : ∀ s : NetioSystem, s.Gives key text ↔
      ∃ x ∈ s.procs.map (fun c => (c.svc, c.pid, c.slots)),
        x.1.mqKey = key ∧ ∃ t ∈ answerTexts x.1, text = t ++ pidText x.2.1 := by
    intro s
    simp [NetioSystem.Gives]
  rw [eq_iff_iff, hgives, hgives, procs_kept hs h]

/-- What netio takes is what a process of the service answers. -/
theorem taken_gives {b : Backend} {gone rest : List QMsg} {m : QMsg} (hu : Undrained s b gone)
    (hb : backend.Reach plainRun b) (hslots : ∀ c ∈ s.procs, c.slots ≠ [])
    (hq : s.netio.kernel.queues NET_IO_BACK_MSQ_KEY = m :: rest) {key : Int32}
    (hkey : routeCmd m.cmd.iCmd = some key) : s.Gives key (responseText m.cmd) := by
  have hback : m ∈ b.queues NET_IO_BACK_MSQ_KEY := by
    rw [hu.back, hq]
    simp
  obtain ⟨c, hc, hroute, hanswer⟩ := hu.given hb hslots hback
  exact ⟨c, hc, (mqKey_of_route hroute hkey).symm, hanswer⟩

section

variable (hreach : netioSystem.Reach NetioSystem.Orderly s) (hslots : ∀ c ∈ s.procs, c.slots ≠ [])
  (h : Attended s.Gives s.pending s.netio)

include hreach h

omit h in
theorem orderly_wired : Wired s.netio := by
  obtain ⟨_, _, _, hu⟩ := orderly_undrained hreach
  exact hu.wired

theorem attended_process {i : Nat} (hstep : netioSystem.step s (.process i true) s') :
    Attended s'.Gives s'.pending s'.netio := by
  obtain ⟨b, gone, hb, hu⟩ := orderly_undrained hreach
  have hsound := system_sound hreach
  obtain ⟨b', hb', hu'⟩ := undrained_process hsound hu hb rfl hstep
  have hs' := served_reach (hb.step (l := .fire i true) rfl hb')
  have hperm := pending_process hu hu' (served_reach hb) hs' (process_work hreach hstep).1
  rw [(system_process_step hstep []).2, gives_kept hsound hstep]
  exact h.of_same [] rfl rfl rfl rfl (Nat.le_refl _) (List.append_nil _).symm (by simp)
    (fun _ => hperm.filter _)

include hslots

theorem attended_response (ha : WatchAgrees s.netio) {origin : Option Nat}
    (hstep : netioSystem.step s (.netio (.response false origin)) s') :
    Attended s'.Gives s'.pending s'.netio := by
  obtain ⟨b, gone, hb, hu⟩ := orderly_undrained hreach
  obtain ⟨hfire, hprocs⟩ := system_response_step hstep
  rw [gives_kept (system_sound hreach) hstep]
  cases hq : s.netio.kernel.queues NET_IO_BACK_MSQ_KEY with
  | nil =>
    have hsame := response_idle hq hfire
    rw [pending_same (by rw [hsame]) hprocs, hsame]
    exact h
  | cons m rest =>
    obtain ⟨hm, hne⟩ := hu.answers hb m (by simp [hq])
    have htakes := response_takes hq hm hne hfire
    obtain ⟨stMsg, htext, hfirst⟩ := onEventFire_first hq hm hne
    rw [hfirst] at hfire
    split at hfire
    next => cases hfire
    next =>
      split at hfire
      next => cases hfire
      next i r hadd =>
        cases Except.ok.inj hfire
        refine attended_respond h ha (pending_takes htakes hprocs) (fun key hkey => ?_) hadd
        rw [htext]
        exact taken_gives hu hb hslots hq hkey

omit hslots

theorem attended_input (ha : WatchAgrees s.netio) {fd : Int32} {events : UInt32} {out : Outcomes}
    (hl : s.Patient (.netio (.event fd events out)))
    (hstep : netioSystem.step s (.netio (.event fd events out)) s') :
    Attended s'.Gives s'.pending s'.netio := by
  obtain ⟨b, gone, hb, hu⟩ := orderly_undrained hreach
  obtain ⟨hnetio, hprocs, _⟩ := system_netio_step hstep
  rw [gives_kept (system_sound hreach) hstep]
  obtain ⟨hkept, hqueues⟩ | ⟨key, buf, hread, hflag, hkey, hasked⟩ := attended_event hu.wired ha h hl.2 hnetio
  · rw [pending_same hqueues hprocs]
    exact hkept
  · obtain ⟨hsent, hreceived⟩ := asked_traffic s.netio fd key buf true
    rw [if_pos rfl, stampCmd_sender, ← hasked] at hsent
    rw [← hasked] at hreceived
    have hqueues := asked_queues s.netio fd key buf true
    rw [← hasked] at hqueues
    obtain ⟨b', hb', hu'⟩ := undrained_asks hu (wired_step hu.wired hnetio) hprocs hb (hl.1.1 buf hread) hkey
      hqueues hsent hreceived
    have hperm := pending_asks hu hu' (served_reach hb) (served_reach hb') hsent
    rw [hasked]
    exact attended_asked hu.wired h hflag rfl hkey hperm

end

theorem patient_orderly (h : netioSystem.Reach NetioSystem.Patient s) :
    netioSystem.Reach NetioSystem.Orderly s := h.mono fun _ _ hl => hl.1

/-- In a run of patient clients netio watches what it has open. -/
theorem patient_agrees (h : netioSystem.Reach NetioSystem.Patient s) : WatchAgrees s.netio := by
  induction h with
  | init hs => exact watchAgrees_start hs.netio
  | @step s s' l hreach hl hstep ih =>
    have hw := orderly_wired (patient_orderly hreach)
    cases l with
    | netio l =>
      have hnetio := (system_netio_step hstep).1
      refine watchAgrees_step hw ih ?_ (netio_step_case hw hnetio)
      cases l with
      | event => exact hl.2.2.1
      | response => trivial
      | others => trivial
    | process i sent =>
      rw [(system_process_step hstep []).2]
      exact ih.of_same rfl rfl rfl rfl

theorem pending_start (h : netioSystem.init s) : s.pending = [] := by
  have hheld : (s.behind []).heldRequests = [] := by
    refine List.flatMap_eq_nil_iff.mpr fun c hc => ?_
    refine List.filterMap_eq_nil_iff.mpr fun e _ => ?_
    rw [h.behind.started c hc]
    rfl
  rw [NetioSystem.pending, hheld, Backend.queuedRequests, Backend.answeredRequests]
  simp only [h.behind.queues]
  rfl

theorem attended_reach (h : netioSystem.Reach NetioSystem.Patient s)
    (hslots : ∀ c ∈ s.procs, c.slots ≠ []) : Attended s.Gives s.pending s.netio := by
  induction h with
  | @init s hs =>
    rw [pending_start hs]
    exact attended_start hs.netio
  | @step s s' l hreach hl hstep ih =>
    have horderly := patient_orderly hreach
    have hbefore := (slots_kept (system_sound hreach) hstep).mp hslots
    have hattended := ih hbefore
    have ha := patient_agrees hreach
    cases l with
    | process i sent =>
      obtain rfl : sent = true := hl.1.1
      exact attended_process horderly hattended hstep
    | netio l =>
      cases l with
      | event => exact attended_input horderly hattended ha hl hstep
      | response rcvFailed origin =>
        obtain rfl : rcvFailed = false := hl.2
        exact attended_response horderly hbefore hattended ha hstep
      | others => exact absurd rfl ((system_netio_step hstep).2.2 _)

/-- No patient client is forgotten: a connection that has sent a request is open
with that one request under way, or open with an answer of its service in its
entry of the message table, or it was written such an answer. -/
theorem patient_clients_attended (h : netioSystem.Reach NetioSystem.Patient s)
    (hslots : ∀ c ∈ s.procs, c.slots ≠ []) :
    ∀ c key, AskedAt s.netio.kernel.log c key →
      (∃ text, s.Gives key text ∧ .write (some (.conn c)) text ∈ s.netio.kernel.log) ∨
      ∃ fd, s.netio.kernel.owner fd = some (.conn c) ∧ flagAt s.netio fd = .TCP_SERVER_SEND ∧
        (∀ k, AskedAt s.netio.kernel.log c k → k = key) ∧
        ((s.netio.kernel.epoll fd = some (eventMask .TCP_SERVER_READ) ∧
            ∃ t, (under s.pending fd).Perm [t] ∧ routeCmd t.iCmd = some key) ∨
          (s.netio.kernel.epoll fd = some (eventMask .TCP_SERVER_SEND) ∧
            (under s.pending fd).Perm [] ∧ s.Gives key (s.netio.m_arrMsg fd).text)) := by
  have hattended := attended_reach h hslots
  intro c key hasked
  obtain ⟨_, ⟨fd, ho⟩ | hwritten⟩ := hattended.asked c key hasked
  · right
    refine ⟨fd, ho, (hattended.phase fd).client ⟨key, hasked⟩ ho, ?_⟩
    cases hattended.phase fd with
    | other hnot => exact absurd ho (hnot c)
    | reading c' ho' _ _ _ hnot =>
      cases ho.symm.trans ho'
      exact absurd hasked (hnot key)
    | waiting c' t key' ho' _ hmask hone _ hroute honly =>
      cases ho.symm.trans ho'
      obtain rfl := (honly key).mp hasked
      exact ⟨fun k hk => (honly k).mp hk, Or.inl ⟨hmask, t, hone, hroute⟩⟩
    | armed c' key' ho' _ hmask hnone honly htext =>
      cases ho.symm.trans ho'
      obtain rfl := (honly key).mp hasked
      exact ⟨fun k hk => (honly k).mp hk, Or.inr ⟨hmask, hnone, htext⟩⟩
  · exact Or.inl hwritten

end

theorem patient_clients_attended_three : ∃ s : NetioSystem,
    (.write (some (.conn 0)) (bytes "resp1=r1 by pid:7") ∈ s.netio.kernel.log ∧
      (s.netio.m_arrMsg 6).text = bytes "resp1=r1 by pid:7" ∧ s.pending.map (·.iFd) = [7]) ∧
    ∀ c key, AskedAt s.netio.kernel.log c key →
      (∃ text, s.Gives key text ∧ .write (some (.conn c)) text ∈ s.netio.kernel.log) ∨
      ∃ fd, s.netio.kernel.owner fd = some (.conn c) ∧ flagAt s.netio fd = .TCP_SERVER_SEND ∧
        (∀ k, AskedAt s.netio.kernel.log c k → k = key) ∧
        ((s.netio.kernel.epoll fd = some (eventMask .TCP_SERVER_READ) ∧
            ∃ t, (under s.pending fd).Perm [t] ∧ routeCmd t.iCmd = some key) ∨
          (s.netio.kernel.epoll fd = some (eventMask .TCP_SERVER_SEND) ∧
            (under s.pending fd).Perm [] ∧ s.Gives key (s.netio.m_arrMsg fd).text)) := by
  obtain ⟨s, hs, hp⟩ := sampleSystem_reach NetioSystem.Patient
    [.netio (.event 3 1 { accepts := [.conn 5 ⟨2, 4000, ⟨10, 0, 0, 1⟩⟩ true true,
        .conn 6 ⟨2, 4001, ⟨10, 0, 0, 1⟩⟩ true true, .conn 7 ⟨2, 4002, ⟨10, 0, 0, 1⟩⟩ true true] }),
      .netio (.event 5 1 { read := some (bytes "cmd=1") }), .process 0 true,
      .netio (.response false (some 0)), .netio (.event 5 4 {}),
      .netio (.event 6 1 { read := some (bytes "cmd=1") }), .process 0 true,
      .netio (.response false (some 1)), .netio (.event 7 1 { read := some (bytes "cmd=2") })]
    (fun s => decide (.write (some (.conn 0)) (bytes "resp1=r1 by pid:7") ∈ s.netio.kernel.log ∧
        (s.netio.m_arrMsg 6).text = bytes "resp1=r1 by pid:7" ∧ s.pending.map (·.iFd) = [7]) &&
      s.procs.all (fun c => decide (c.slots ≠ []))) (by decide +kernel)
  obtain ⟨hfacts, hslots⟩ := Bool.and_eq_true_iff.mp hp
  refine ⟨s, of_decide_eq_true hfacts, patient_clients_attended hs fun c hc => ?_⟩
  exact of_decide_eq_true (List.all_eq_true.mp hslots c hc)

end NetioMiddleware

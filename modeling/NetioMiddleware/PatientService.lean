import NetioMiddleware.PatientClients

namespace NetioMiddleware

/-- The answer for a descriptor stands ready, and epoll reports when it can be written. -/
def Armed (r : Reactor) (fd : Int32) : Prop :=
  flagAt r fd = .TCP_SERVER_SEND ∧ r.kernel.epoll fd = some (eventMask .TCP_SERVER_SEND)

instance (r : Reactor) (fd : Int32) : Decidable (Armed r fd) := inferInstanceAs (Decidable (_ ∧ _))

/-- The descriptors whose answer is still to be written. -/
def toWrite (r : Reactor) : List Int32 := r.m_vecFds.filter (Armed r)

namespace NetioSystem

/-- The steps without clients that get something done: a process takes a message,
netio takes an answer, or netio writes one. -/
def Serving (s : NetioSystem) (l : SystemLabel) : Prop :=
  s.Patient l ∧ match l with
    | .process i _ => ∃ c, s.procs[i]? = some c ∧ c.takes s.netio.kernel.queues ≠ none
    | .netio (.response _ _) => s.netio.kernel.queues NET_IO_BACK_MSQ_KEY ≠ []
    | .netio (.event fd _ _) => Armed s.netio fd
    | .netio (.others _) => False

/-- What the steps without clients still have to do. -/
def remaining (s : NetioSystem) : Nat :=
  (s.behind []).work +
    2 * ((sentSenders s.netio.kernel.log).length - (receivedTexts s.netio.kernel.log).length) +
    (toWrite s.netio).length

end NetioSystem

section

variable {r r' : Reactor} {fd : Int32}

theorem mem_toWrite (ha : WatchAgrees r) {x : Int32} : x ∈ toWrite r ↔ Armed r x := by
  rw [toWrite, List.mem_filter, ha.exact]
  constructor
  · exact fun h => of_decide_eq_true h.2
  · exact fun h => ⟨by simp [h.2], decide_eq_true h⟩

theorem toWrite_nodup (ha : WatchAgrees r) : (toWrite r).Nodup := ha.nodup.filter _

/-- One descriptor more at most. -/
theorem toWrite_le (ha : WatchAgrees r) (ha' : WatchAgrees r')
    (hsame : ∀ x, x ≠ fd → Armed r' x → Armed r x) : (toWrite r').length ≤ (toWrite r).length + 1 := by
  have hsub : toWrite r' ⊆ fd :: toWrite r := by
    intro x hx
    rw [mem_toWrite ha'] at hx
    by_cases heq : x = fd
    · exact heq ▸ List.mem_cons_self
    · exact List.mem_cons_of_mem _ ((mem_toWrite ha).mpr (hsame x heq hx))
  exact ((toWrite_nodup ha').subperm hsub).length_le

/-- The written descriptor less. -/
theorem toWrite_lt (ha : WatchAgrees r) (ha' : WatchAgrees r') (harmed : Armed r fd)
    (hdone : ¬Armed r' fd) (hsame : ∀ x, x ≠ fd → Armed r' x → Armed r x) :
    (toWrite r').length < (toWrite r).length := by
  have hnew : fd ∉ toWrite r' := mt (mem_toWrite ha').mp hdone
  have hsub : fd :: toWrite r' ⊆ toWrite r := by
    intro x hx
    rw [mem_toWrite ha]
    rcases List.mem_cons.mp hx with rfl | hx
    · exact harmed
    · exact hsame x (fun heq => hnew (heq ▸ hx)) ((mem_toWrite ha').mp hx)
  exact ((List.nodup_cons.mpr ⟨hnew, toWrite_nodup ha'⟩).subperm hsub).length_le

theorem Armed.of_atOne (he : AtOne r r' fd) {x : Int32} (hx : x ≠ fd) (h : Armed r' x) : Armed r x := by
  obtain ⟨hflag, hmask⟩ := h
  exact ⟨by rw [flagAt, ← he.item x hx]; exact hflag, (he.epoll x hx).symm.trans hmask⟩

theorem answered_atOne (r : Reactor) (fd : Int32) : AtOne r (r.answered fd) fd := by
  have hframe := closed_atOne (r.written fd) fd
  exact ⟨hframe.owner, hframe.epoll, hframe.item, hframe.msg⟩

theorem answered_not_armed (r : Reactor) (fd : Int32) : ¬Armed (r.answered fd) fd := by
  rintro ⟨hflag, _⟩
  simp [flagAt, Reactor.answered, Reactor.closed, Reactor.setItem, TcpSockItem.reset] at hflag

/-- DoSend goes through for a text that leaves room for its end. -/
theorem doSend_short (hin : inArray MAX_MSG_SIZE fd = true)
    (hlen : (r.m_arrMsg fd).text.length < MAX_MSG_SIZE - 8) : r.doSend fd = .ok (r.answered fd) := by
  have hnul : 0 ∈ (r.m_arrMsg fd).sBuf := by
    by_contra hnul
    have hwhole : (r.m_arrMsg fd).text = (r.m_arrMsg fd).sBuf := cStr_eq_self hnul
    rw [hwhole, (r.m_arrMsg fd).size] at hlen
    omega
  obtain ⟨r', hr'⟩ : ∃ r', r.doSend fd = .ok r' := by
    unfold Reactor.doSend Reactor.doClose
    rw [if_neg (by simp [hin]), if_neg (by simpa using hnul), if_neg (by simp [inArray_of_msg hin])]
    exact ⟨_, rfl⟩
  rw [hr', doSend_eq hr']

end

/-- What the runs of patient clients keep while every library is loaded somewhere. -/
structure Tended (s : NetioSystem) : Prop where
  reach : netioSystem.Reach NetioSystem.Patient s
  slots : ∀ c ∈ s.procs, c.slots ≠ []
  staffed : ∀ svc, ∃ pid, (s.behind []).Serves svc pid

section

variable {s s' : NetioSystem} {l : SystemLabel}

theorem Tended.orderly (hs : Tended s) : netioSystem.Reach NetioSystem.Orderly s := patient_orderly hs.reach

theorem tended_step (hs : Tended s) (hl : s.Patient l) (h : netioSystem.step s l s') : Tended s' := by
  have hsound := system_sound hs.orderly
  refine ⟨hs.reach.step hl h, (slots_kept hsound h).mpr hs.slots, fun svc => ?_⟩
  obtain ⟨pid, hpid⟩ := hs.staffed svc
  exact ⟨pid, (serves_kept hsound h).2 svc pid hpid⟩

/-- The message netio takes concerns one descriptor. -/
theorem response_atOne {origin : Option Nat} (hs : Tended s)
    (hq : s.netio.kernel.queues NET_IO_BACK_MSQ_KEY ≠ [])
    (h : netioSystem.step s (.netio (.response false origin)) s') : ∃ fd, AtOne s.netio s'.netio fd := by
  obtain ⟨b, gone, hb, hu⟩ := orderly_undrained hs.orderly
  obtain ⟨m, rest, hq⟩ := List.exists_cons_of_ne_nil hq
  obtain ⟨hm, hne⟩ := hu.answers hb m (by simp [hq])
  obtain ⟨stMsg, _, hfirst⟩ := onEventFire_first hq hm hne
  have hfire := (system_response_step h).1
  rw [hfirst] at hfire
  split at hfire
  next => cases hfire
  next =>
    split at hfire
    next => cases hfire
    next i r hadd =>
      cases Except.ok.inj hfire
      exact ⟨m.cmd.iFd, respond_atOne hadd⟩

/-- An answer that stands ready is written at the next event. -/
theorem write_answered (hs : Tended s) {fd : Int32} {events : UInt32} {out : Outcomes}
    (hl : s.Patient (.netio (.event fd events out))) (harmed : Armed s.netio fd)
    (h : netioSystem.step s (.netio (.event fd events out)) s') : s'.netio = s.netio.answered fd := by
  obtain ⟨hsend, hmask⟩ := harmed
  obtain ⟨⟨_, hstep⟩, _⟩ := system_netio_step h
  have hlive : events &&& EPOLLRDHUP ≠ EPOLLRDHUP := by
    intro heq
    have hread := hl.2.1 heq
    rw [hsend] at hread
    cases hread
  rw [show netioStep s.netio (.event fd events out) = s.netio.processItem fd events out from rfl,
    processItem_send out (orderly_wired hs.orderly) (by simp [hmask]) hlive hsend] at hstep
  exact doSend_eq hstep

/-- Every step that gets something done leaves less to do. -/
theorem serving_less (hs : Tended s) (hl : s.Serving l) (h : netioSystem.step s l s') :
    s'.remaining < s.remaining := by
  have hreach := hs.orderly
  have ha := patient_agrees hs.reach
  have ha' := patient_agrees (hs.reach.step hl.1 h)
  obtain ⟨hpat, hdoes⟩ := hl
  cases l with
  | process i sent =>
    obtain rfl : sent = true := hpat.1.1
    obtain ⟨c, hget, htakes⟩ := hdoes
    obtain ⟨hlog, ⟨_, hnone⟩ | hless⟩ := process_work hreach h
    · exact absurd (hnone c hget) htakes
    · have hwrite : toWrite s'.netio = toWrite s.netio := by
        rw [(system_process_step h []).2]
        rfl
      rw [NetioSystem.remaining, NetioSystem.remaining, hlog, hwrite]
      omega
  | netio l =>
    cases l with
    | others => exact hdoes.elim
    | response rcvFailed origin =>
      obtain rfl : rcvFailed = false := hpat.2
      obtain ⟨_, hnone⟩ | ⟨hwork, m, rest, htakes⟩ := response_work hreach h
      · exact absurd hnone hdoes
      · obtain ⟨fd, hframe⟩ := response_atOne hs hdoes h
        have hmore := received_lt hreach htakes.first
        have hwrite := toWrite_le ha ha' (fun x hx => Armed.of_atOne hframe hx)
        rw [NetioSystem.remaining, NetioSystem.remaining, hwork, htakes.sent, htakes.received,
          List.length_append, List.length_singleton]
        omega
    | event fd events out =>
      have hnetio := write_answered hs hpat hdoes h
      have hquiet := quiet_answered s.netio fd
      have hwork : s'.behind [] = s.behind [] := by
        rw [NetioSystem.behind, hnetio, hquiet.queues, (system_netio_step h).2.1, NetioSystem.behind]
      have hwrite : (toWrite s'.netio).length < (toWrite s.netio).length :=
        toWrite_lt ha ha' hdoes (hnetio ▸ answered_not_armed s.netio fd)
          (fun x hx => Armed.of_atOne (hnetio ▸ answered_atOne s.netio fd) hx)
      rw [NetioSystem.remaining, NetioSystem.remaining, hwork, hnetio, hquiet.sent, hquiet.received, ← hnetio]
      omega

theorem gives_short (hs : Tended s) {key : Int32} {text : Bytes} (h : s.Gives key text) :
    text.length < MAX_MSG_SIZE - 8 := by
  obtain ⟨c, hc, _, t, ht, rfl⟩ := h
  obtain ⟨_, _, hlen⟩ := answerTexts_kept ht (Or.inr rfl : Suffix c.pid (pidText c.pid))
  have hdigits := pid_length ((system_sound hs.orderly).valid c hc)
  have hblank : (bytes " by pid:").length = 8 := by decide
  simp only [pidText, List.length_append, hblank, MAX_MSG_SIZE]
  omega

/-- An answer that stands ready can be written. -/
theorem write_exists (hs : Tended s) {fd key : Int32} (harmed : Armed s.netio fd)
    (htext : s.Gives key (s.netio.m_arrMsg fd).text) :
    ∃ s', s.Serving (.netio (.event fd EPOLLOUT {})) ∧
      netioSystem.step s (.netio (.event fd EPOLLOUT {})) s' := by
  obtain ⟨hsend, hmask⟩ := harmed
  have htables := systemTables_reach (hs.orderly.mono fun _ _ h => h.2)
  have hdone := doSend_short (htables.net.flagged fd (Or.inr hsend)) (gives_short hs htext)
  have hreg : s.netio.kernel.epoll fd ≠ none := by simp [hmask]
  have hlive : EPOLLOUT &&& EPOLLRDHUP ≠ EPOLLRDHUP := by decide
  have hitem := processItem_send {} (orderly_wired hs.orderly) hreg hlive hsend
  have hstep : netioStep s.netio (.event fd EPOLLOUT {}) = .ok (s.netio.answered fd) := hitem.trans hdone
  have horderly : s.Orderly (.netio (.event fd EPOLLOUT {})) :=
    ⟨fun _ hread => (by cases hread), fun _ _ hm => absurd hm List.not_mem_nil⟩
  refine ⟨{ s with netio := s.netio.answered fd }, ⟨⟨horderly, ?_⟩, hsend, hmask⟩, hreg, ?_⟩
  · refine ⟨fun heq => absurd heq hlive, fun _ hread => ?_, fun _ => hmask, rfl⟩
    rw [show flagAt s.netio fd = _ from hsend] at hread
    cases hread
  · dsimp only [systemStep]
    rw [hstep]

/-- While a request waits for its answer to be written, some step gets something done. -/
theorem serving_exists (hs : Tended s) {c : Nat} {key : Int32} (hasked : AskedAt s.netio.kernel.log c key)
    (hnot : ∀ text, s.Gives key text → .write (some (.conn c)) text ∉ s.netio.kernel.log) :
    ∃ l s', s.Serving l ∧ netioSystem.step s l s' := by
  have hreach := hs.orderly
  by_cases hbusy : 0 < (s.behind []).work
  · obtain ⟨i, d, hget, htakes⟩ := process_awake hreach hs.staffed hbusy
    obtain ⟨s', h⟩ := process_exists hreach i
    exact ⟨.process i true, s', ⟨⟨⟨rfl, trivial⟩, trivial⟩, d, hget, htakes⟩, h⟩
  · by_cases hq : s.netio.kernel.queues NET_IO_BACK_MSQ_KEY = []
    · obtain ⟨_, hqueued, hheld⟩ := idle_places hreach (by omega)
      have hpending : s.pending = [] := by
        rw [NetioSystem.pending, hqueued, hheld, Backend.answeredRequests]
        exact congrArg (List.map _) hq
      have hattended := attended_reach hs.reach hs.slots
      obtain ⟨_, ⟨fd, ho⟩ | ⟨text, htext, hwrite⟩⟩ := hattended.asked c key hasked
      · cases hattended.phase fd with
        | other hnot => exact absurd ho (hnot c)
        | reading c' ho' _ _ _ hnot =>
          cases ho.symm.trans ho'
          exact absurd hasked (hnot key)
        | waiting _ _ _ _ _ _ hone =>
          rw [hpending] at hone
          exact absurd hone.length_eq (by simp [under])
        | armed _ _ _ hsend hmask _ _ htext =>
          obtain ⟨s', hserving, h⟩ := write_exists hs ⟨hsend, hmask⟩ htext
          exact ⟨_, s', hserving, h⟩
      · exact absurd hwrite (hnot text htext)
    · obtain ⟨s', h⟩ := response_exists hreach
      exact ⟨.netio (.response false none), s', ⟨⟨⟨trivial, trivial⟩, rfl⟩, hq⟩, h⟩

end

theorem serving_log {s s' : NetioSystem} {l : SystemLabel} (hs : Tended s) (hl : s.Serving l)
    (h : netioSystem.step s l s') : s.netio.kernel.log <+: s'.netio.kernel.log := by
  obtain ⟨hpat, hdoes⟩ := hl
  cases l with
  | process i sent =>
    rw [(system_process_step h []).2]
    exact List.prefix_rfl
  | netio l =>
    cases l with
    | others => exact hdoes.elim
    | response rcvFailed origin =>
      obtain rfl : rcvFailed = false := hpat.2
      obtain ⟨rfl, _⟩ | ⟨_, _, _, htakes⟩ := response_work hs.orderly h
      · exact List.prefix_rfl
      · exact htakes.log
    | event fd events out =>
      rw [write_answered hs hpat hdoes h]
      exact ⟨_, (List.append_assoc ..).symm⟩

theorem remaining_le {s : NetioSystem} (hs : Tended s) :
    s.remaining ≤ 5 * ((s.behind []).queuedRequests.length + (s.behind []).heldRequests.length) +
      2 * (s.behind []).answeredRequests.length + (toWrite s.netio).length := by
  have hbound := behind_work_le hs.orderly
  have hcount := sent_count hs.orderly
  rw [NetioSystem.remaining]
  omega

/-- Patient clients are served. The steps that are left to netio, the processes
and the kernel come to an end, and until every connection that has sent a request
was written an answer of its service, one of them gets something done. -/
theorem patient_clients_served {s : NetioSystem} (h : netioSystem.Reach NetioSystem.Patient s)
    (hslots : ∀ c ∈ s.procs, c.slots ≠ []) (hsvc : ∀ svc, ∃ pid, (s.behind []).Serves svc pid) :
    ∀ ls s', netioSystem.Run NetioSystem.Serving s ls s' →
      ls.length ≤ 5 * ((s.behind []).queuedRequests.length + (s.behind []).heldRequests.length) +
        2 * (s.behind []).answeredRequests.length + (toWrite s.netio).length ∧
      ((∃ l s'', s'.Serving l ∧ netioSystem.step s' l s'') ∨
        ∀ c key, AskedAt s.netio.kernel.log c key →
          ∃ text, s.Gives key text ∧ .write (some (.conn c)) text ∈ s'.netio.kernel.log) := by
  intro ls s' hrun
  have hs : Tended s := ⟨h, hslots, hsvc⟩
  have hshort : ls.length + s'.remaining ≤ s.remaining :=
    hrun.length_le (fun _ _ _ hs hl h => ⟨tended_step hs hl.1 h, serving_less hs hl h⟩) hs
  have hkept : Tended s' ∧ s'.Gives = s.Gives ∧ s.netio.kernel.log <+: s'.netio.kernel.log := by
    refine hrun.invariant (I := fun r => Tended r ∧ r.Gives = s.Gives ∧
      s.netio.kernel.log <+: r.netio.kernel.log) ?_ ⟨hs, rfl, List.prefix_rfl⟩
    rintro r l r' ⟨hr, hgives, hlog⟩ hl hstep
    exact ⟨tended_step hr hl.1 hstep, (gives_kept (system_sound hr.orderly) hstep).trans hgives,
      hlog.trans (serving_log hr hl hstep)⟩
  obtain ⟨hs', hgives, hlog⟩ := hkept
  have hbound := remaining_le hs
  refine ⟨by omega, ?_⟩
  by_cases hdone : ∀ c key, AskedAt s.netio.kernel.log c key →
      ∃ text, s.Gives key text ∧ .write (some (.conn c)) text ∈ s'.netio.kernel.log
  · exact Or.inr hdone
  · left
    push Not at hdone
    obtain ⟨c, key, ⟨text, hasked⟩, hnot⟩ := hdone
    exact serving_exists hs' ⟨text, hlog.subset hasked⟩ (hgives ▸ hnot)

theorem patient_clients_served_three : ∃ s : NetioSystem,
    ((s.behind []).queuedRequests.map (·.iFd) = [5] ∧ (s.behind []).answeredRequests.map (·.iFd) = [7] ∧
      toWrite s.netio = [6]) ∧
    ∀ ls s', netioSystem.Run NetioSystem.Serving s ls s' →
      ls.length ≤ 5 * ((s.behind []).queuedRequests.length + (s.behind []).heldRequests.length) +
        2 * (s.behind []).answeredRequests.length + (toWrite s.netio).length ∧
      ((∃ l s'', s'.Serving l ∧ netioSystem.step s' l s'') ∨
        ∀ c key, AskedAt s.netio.kernel.log c key →
          ∃ text, s.Gives key text ∧ .write (some (.conn c)) text ∈ s'.netio.kernel.log) := by
  obtain ⟨s, hs, hp⟩ := sampleSystem_reach NetioSystem.Patient
    [.netio (.event 3 1 { accepts := [.conn 5 ⟨2, 4000, ⟨10, 0, 0, 1⟩⟩ true true,
        .conn 6 ⟨2, 4001, ⟨10, 0, 0, 1⟩⟩ true true, .conn 7 ⟨2, 4002, ⟨10, 0, 0, 1⟩⟩ true true] }),
      .netio (.event 6 1 { read := some (bytes "cmd=1") }), .process 0 true,
      .netio (.response false (some 1)), .netio (.event 7 1 { read := some (bytes "cmd=1") }),
      .process 0 true, .netio (.event 5 1 { read := some (bytes "cmd=2") })]
    (fun s => decide (((s.behind []).queuedRequests.map (·.iFd) = [5] ∧
        (s.behind []).answeredRequests.map (·.iFd) = [7] ∧ toWrite s.netio = [6]) ∧
        (s.behind []).Serves .CSvcTest 7 ∧ (s.behind []).Serves .CSvcTest2 9) &&
      s.procs.all (fun c => decide (c.slots ≠ []))) (by decide +kernel)
  obtain ⟨hfacts, hslots⟩ := Bool.and_eq_true_iff.mp hp
  obtain ⟨hplaces, hfirst, hsecond⟩ := of_decide_eq_true hfacts
  refine ⟨s, hplaces, patient_clients_served hs ?_ ?_⟩
  · exact fun c hc => of_decide_eq_true (List.all_eq_true.mp hslots c hc)
  · intro svc
    cases svc with
    | CSvcTest => exact ⟨7, hfirst⟩
    | CSvcTest2 => exact ⟨9, hsecond⟩

end NetioMiddleware

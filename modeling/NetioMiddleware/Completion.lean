import NetioMiddleware.Settlement
import NetioMiddleware.SystemOutcome
import NetioMiddleware.TableBounds

namespace NetioMiddleware

namespace NetioSystem

/-- What the steps still have to do: the messages the processes take, and an
answer that netio takes for every request. -/
def work (s : NetioSystem) : Nat :=
  (s.behind []).work +
    ((sentSenders s.netio.kernel.log).length - (receivedTexts s.netio.kernel.log).length)

/-- The steps without clients, when no msgsnd or msgrcv fails. -/
def Drains (_ : NetioSystem) (l : SystemLabel) : Prop :=
  (∃ i, l = .process i true) ∨ l = .netio (.response false none)

/-- What the steps of a run keep to. -/
def Orderly (s : NetioSystem) (l : SystemLabel) : Prop := s.Plain l ∧ s.Holdable l

instance (s : NetioSystem) (l : SystemLabel) : Decidable (s.Orderly l) :=
  inferInstanceAs (Decidable (s.Plain l ∧ s.Holdable l))

end NetioSystem

/-- OnEventFire of netio and of each of n processes. -/
def agents (n : Nat) : List SystemLabel :=
  .netio (.response false none) :: (List.range n).map (.process · true)

/-- What the rounds start from and keep. -/
structure Draining (n : Nat) (s : NetioSystem) : Prop where
  reach : netioSystem.Reach NetioSystem.Orderly s
  staffed : ∀ svc, ∃ pid, (s.behind []).Serves svc pid
  count : s.procs.length = n

theorem drains_orderly {s : NetioSystem} {l : SystemLabel} (h : s.Drains l) : s.Orderly l := by
  rcases h with ⟨i, rfl⟩ | rfl
  · exact ⟨rfl, trivial⟩
  · exact ⟨trivial, trivial⟩

theorem Undrained.work_eq {s : NetioSystem} {b : Backend} {gone : List QMsg} (h : Undrained s b gone) :
    (s.behind []).work = b.work := by
  have h1 : b.queues 0xccccd = s.netio.kernel.queues 0xccccd := h.queues.service .CSvcTest
  have h2 : b.queues 0xcccce = s.netio.kernel.queues 0xcccce := h.queues.service .CSvcTest2
  rw [Backend.work, Backend.work, load, load, serviceKeys, Finset.sum_pair (by decide),
    Finset.sum_pair (by decide), h1, h2]
  rfl

theorem Undrained.takes {s : NetioSystem} {b : Backend} {gone : List QMsg} (h : Undrained s b gone) {i : Nat}
    {c : Container} (hget : s.procs[i]? = some c) :
    ∃ d, b.procs[i]? = some d ∧ d.takes b.queues = c.takes s.netio.kernel.queues := by
  obtain ⟨d, hgetd, hshadow⟩ := forall₂_getElem? h.procs hget
  exact ⟨d, hgetd, hshadow.takes (h.queues.service c.svc)⟩

/-- A process that finds no message leaves the whole as it is. -/
theorem process_idle {s s' : NetioSystem} {i : Nat} (hs : Sound (s.behind []))
    (hnone : ∀ c, s.procs[i]? = some c → c.takes s.netio.kernel.queues = none)
    (h : netioSystem.step s (.process i true) s') : s' = s := by
  obtain ⟨hstep, hnetio⟩ := system_process_step h []
  have hsame : s'.procs = s.procs ∧ s'.netio.kernel.queues = s.netio.kernel.queues := by
    obtain ⟨_, hsame⟩ | ⟨c, c', hget, hon, hprocs⟩ := turn_cases hstep
    · exact ⟨congrArg Backend.procs hsame, congrArg Backend.queues hsame⟩
    · have hc : c ∈ s.procs := List.mem_of_getElem? hget
      obtain ⟨_, rfl, hq⟩ | ⟨x, _, htakes, _⟩ := onEventFire_cases (hs.valid c hc) (hs.text c.svc) hon
      · obtain ⟨hi, hci⟩ := List.getElem?_eq_some_iff.mp hget
        refine ⟨?_, hq⟩
        have hprocs : s'.procs = s.procs.set i c' := hprocs
        rw [hprocs, ← hci]
        exact List.set_getElem_self hi
      · rw [show c.takes (s.behind []).queues = none from hnone c hget] at htakes
        contradiction
  rw [hsame.2] at hnetio
  cases s
  cases s'
  simp only [NetioSystem.mk.injEq]
  exact ⟨hnetio, hsame.1⟩

theorem system_response_step {s s' : NetioSystem} {rcvFailed : Bool} {origin : Option Nat}
    (h : netioSystem.step s (.netio (.response rcvFailed origin)) s') :
    s.netio.onEventFire rcvFailed origin = .ok s'.netio ∧ s'.procs = s.procs := by
  obtain ⟨⟨_, hfire⟩, hprocs, _⟩ := system_netio_step h
  exact ⟨hfire, hprocs⟩

section

variable {s s' : NetioSystem} (hreach : netioSystem.Reach NetioSystem.Orderly s)

include hreach

theorem orderly_undrained : ∃ b gone, backend.Reach plainRun b ∧ Undrained s b gone :=
  system_undrained (hreach.mono fun _ _ h => h.1)

theorem sent_count : (sentSenders s.netio.kernel.log).length = (s.behind []).queuedRequests.length +
    (s.behind []).heldRequests.length + (s.behind []).answeredRequests.length +
      (receivedTexts s.netio.kernel.log).length := by
  obtain ⟨b, gone, hb, hu⟩ := orderly_undrained hreach
  rw [(hu.sent_places (served_reach hb)).length_eq, ← hu.received]
  simp only [List.length_append, List.length_map]

theorem behind_work_le : (s.behind []).work ≤
    3 * ((s.behind []).queuedRequests.length + (s.behind []).heldRequests.length) := by
  obtain ⟨b, gone, hb, hu⟩ := orderly_undrained hreach
  have hbound := work_le (served_reach hb)
  rw [hu.places.1, hu.places.2.1] at hbound
  rw [hu.work_eq]
  exact hbound

/-- Without work behind netio nothing waits there. -/
theorem idle_places (hwork : (s.behind []).work = 0) :
    (∀ svc : SvcClass, s.netio.kernel.queues svc.mqKey = []) ∧ (s.behind []).queuedRequests = [] ∧
      (s.behind []).heldRequests = [] := by
  obtain ⟨b, gone, hb, hu⟩ := orderly_undrained hreach
  rw [hu.work_eq] at hwork
  obtain ⟨hqueues, hheld, _⟩ := settled (served_reach hb) hwork
  refine ⟨fun svc => (hu.queues.service svc).symm.trans (hqueues svc), ?_, hu.places.2.1 ▸ hheld⟩
  rw [← hu.places.1, Backend.queuedRequests, show b.queues 0xccccd = [] from hqueues .CSvcTest,
    show b.queues 0xcccce = [] from hqueues .CSvcTest2]
  rfl

theorem process_awake (hsvc : ∀ svc, ∃ pid, (s.behind []).Serves svc pid)
    (hwork : 0 < (s.behind []).work) :
    ∃ (i : Nat) (c : Container), s.procs[i]? = some c ∧ c.takes s.netio.kernel.queues ≠ none := by
  obtain ⟨b, gone, hb, hu⟩ := orderly_undrained hreach
  have hstaffed : ∀ svc, ∃ pid, b.Serves svc pid := by
    intro svc
    obtain ⟨pid, c, hc, hclass, hpid⟩ := hsvc svc
    obtain ⟨i, hi⟩ := List.getElem?_of_mem hc
    obtain ⟨d, hget, hshadow⟩ := forall₂_getElem? hu.procs hi
    exact ⟨pid, d, List.mem_of_getElem? hget, hshadow.svc.trans hclass, by rw [hshadow.pid, hpid]⟩
  obtain ⟨d, hd, htakes⟩ := work_awake (served_reach hb) hstaffed (hu.work_eq ▸ hwork)
  obtain ⟨i, hi⟩ := List.getElem?_of_mem hd
  obtain ⟨c, hget, hshadow⟩ := forall₂_getElem? hu.procs.flip hi
  exact ⟨i, c, hget, hshadow.takes (hu.queues.service c.svc) ▸ htakes⟩

/-- A process takes a message and some request comes closer to its answer, or
nothing changes. -/
theorem process_work {i : Nat} (h : netioSystem.step s (.process i true) s') :
    s'.netio.kernel.log = s.netio.kernel.log ∧
      ((s' = s ∧ ∀ c, s.procs[i]? = some c → c.takes s.netio.kernel.queues = none) ∨
        (s'.behind []).work < (s.behind []).work) := by
  obtain ⟨b, gone, hb, hu⟩ := orderly_undrained hreach
  obtain ⟨b', hstep, hu'⟩ := undrained_process (system_sound hreach) hu hb rfl h
  refine ⟨?_, ?_⟩
  · rw [(system_process_step h []).2]
    rfl
  · obtain ⟨_, hnone⟩ | hless := turn_work (served_reach hb) hstep
    · left
      have hidle : ∀ c, s.procs[i]? = some c → c.takes s.netio.kernel.queues = none := by
        intro c hget
        obtain ⟨d, hgetd, htakes⟩ := hu.takes hget
        exact htakes ▸ hnone d hgetd
      exact ⟨process_idle (system_sound hreach) hidle h, hidle⟩
    · right
      rw [hu.work_eq, hu'.work_eq]
      exact hless

/-- netio takes the first answer of its queue, or nothing changes. -/
theorem response_work {origin : Option Nat} (h : netioSystem.step s (.netio (.response false origin)) s') :
    (s' = s ∧ s.netio.kernel.queues NET_IO_BACK_MSQ_KEY = []) ∨
      (s'.behind []).work = (s.behind []).work ∧ ∃ m rest, Takes s.netio m rest s'.netio := by
  obtain ⟨b, gone, hb, hu⟩ := orderly_undrained hreach
  obtain ⟨hfire, hprocs⟩ := system_response_step h
  cases hq : s.netio.kernel.queues NET_IO_BACK_MSQ_KEY with
  | nil =>
    left
    have hnetio := response_idle hq hfire
    cases s
    cases s'
    simp only [NetioSystem.mk.injEq]
    exact ⟨⟨hnetio, hprocs⟩, trivial⟩
  | cons m rest =>
    right
    obtain ⟨hm, hne⟩ := hu.answers hb m (by simp [hq])
    have htakes := response_takes hq hm hne hfire
    refine ⟨?_, m, rest, htakes⟩
    rw [Backend.work, Backend.work, load, load]
    refine Finset.sum_congr rfl fun key hkey => ?_
    have hkey : key ≠ NET_IO_BACK_MSQ_KEY := ne_of_mem_of_not_mem hkey (by decide)
    rw [show (s'.behind []).queues = _ from htakes.queues, Function.update_of_ne hkey]
    rfl

/-- netio has taken fewer answers than it has sent requests while one is left. -/
theorem received_lt {m : QMsg} {rest : List QMsg}
    (hq : s.netio.kernel.queues NET_IO_BACK_MSQ_KEY = m :: rest) :
    (receivedTexts s.netio.kernel.log).length < (sentSenders s.netio.kernel.log).length := by
  have hcount := sent_count hreach
  have hone : 0 < (s.behind []).answeredRequests.length := by
    rw [Backend.answeredRequests, List.length_map]
    exact List.length_pos_of_mem (show m ∈ s.netio.kernel.queues NET_IO_BACK_MSQ_KEY by simp [hq])
  omega

/-- One step without clients: nothing changes, or work is done. -/
theorem drain_work {l : SystemLabel} (hl : s.Drains l) (h : netioSystem.step s l s') :
    s' = s ∨ s'.work < s.work := by
  rcases hl with ⟨i, rfl⟩ | rfl
  · obtain ⟨hlog, ⟨hsame, _⟩ | hless⟩ := process_work hreach h
    · exact Or.inl hsame
    · right
      rw [NetioSystem.work, NetioSystem.work, hlog]
      omega
  · obtain ⟨hsame, _⟩ | ⟨hwork, m, rest, htakes⟩ := response_work hreach h
    · exact Or.inl hsame
    · right
      have hmore := received_lt hreach htakes.first
      rw [NetioSystem.work, NetioSystem.work, hwork, htakes.sent, htakes.received, List.length_append,
        List.length_singleton]
      omega

theorem drain_sent {l : SystemLabel} (hl : s.Drains l) (h : netioSystem.step s l s') :
    sentSenders s'.netio.kernel.log = sentSenders s.netio.kernel.log := by
  rcases hl with ⟨i, rfl⟩ | rfl
  · rw [(process_work hreach h).1]
  · obtain ⟨rfl, _⟩ | ⟨_, m, rest, htakes⟩ := response_work hreach h
    · rfl
    · exact htakes.sent

/-- OnEventFire of netio goes through in the runs whose descriptors fit. -/
theorem response_exists : ∃ s', netioSystem.step s (.netio (.response false none)) s' := by
  have htables := systemTables_reach (hreach.mono fun _ _ h => h.2)
  obtain ⟨b, gone, hb, hu⟩ := orderly_undrained hreach
  have goes : ∃ r, s.netio.onEventFire false none = .ok r := by
    cases hq : s.netio.kernel.queues NET_IO_BACK_MSQ_KEY with
    | nil => exact ⟨s.netio, response_nothing hq⟩
    | cons m rest =>
      obtain ⟨hm, hne⟩ := hu.answers hb m (by simp [hq])
      obtain ⟨stMsg, _, hfire⟩ := onEventFire_first hq hm hne
      have hfd := htables.queued NET_IO_BACK_MSQ_KEY m (by simp [hq])
      rw [hfire, if_neg (by simp [hfd])]
      split
      next hadd => exact absurd hadd (addToWatchList_ne_error (inArray_of_msg hfd))
      next => exact ⟨_, rfl⟩
  obtain ⟨r, hr⟩ := goes
  have hen : s.enabled (.netio (.response false none)) := fun c hc => by cases hc
  refine ⟨{ s with netio := r }, hen, ?_⟩
  dsimp only [systemStep, netioStep]
  rw [hr]

theorem process_exists (i : Nat) : ∃ s', netioSystem.step s (.process i true) s' := by
  obtain ⟨b, gone, hb, hu⟩ := orderly_undrained hreach
  have hs := served_reach hb
  have hsound := system_sound hreach
  cases hget : s.procs[i]? with
  | none => exact ⟨s, trivial, by simp [systemStep, fireAt, hget, Kernel.setQueues]⟩
  | some c =>
    obtain ⟨d, hgetd, hshadow⟩ := forall₂_getElem? hu.procs hget
    have hc : c ∈ s.procs := List.mem_of_getElem? hget
    have hd : d ∈ b.procs := List.mem_of_getElem? hgetd
    obtain ⟨⟨d', queues'⟩, hond⟩ := fire_goes_through hs.inv hd true
    obtain ⟨c', queues1, hon, _⟩ := fire_shadow hshadow.symm hu.queues.symm (hs.inv.valid d hd)
      (hsound.valid c hc) (hs.inv.text d.svc) hond
    exact ⟨_, trivial, by simp only [systemStep, fireAt_get hget, hon]; rfl⟩

omit hreach in
theorem serves_kept {l : SystemLabel} (hs : Sound (s.behind [])) (h : netioSystem.step s l s') :
    s'.procs.length = s.procs.length ∧
      ∀ svc pid, (s.behind []).Serves svc pid → (s'.behind []).Serves svc pid := by
  cases l with
  | netio l =>
    have hprocs := (system_netio_step h).2.1
    refine ⟨congrArg List.length hprocs, fun _ _ hserves => ?_⟩
    unfold Backend.Serves NetioSystem.behind
    rw [hprocs]
    exact hserves
  | process i sent => exact fire_serves hs.valid hs.text (system_process_step h []).1

end

theorem draining_step {n : Nat} {s s' : NetioSystem} {l : SystemLabel} (hs : Draining n s) (hl : s.Drains l)
    (h : netioSystem.step s l s') : Draining n s' := by
  obtain ⟨hlen, hserves⟩ := serves_kept (system_sound hs.reach) h
  refine ⟨hs.reach.step (drains_orderly hl) h, fun svc => ?_, hlen.trans hs.count⟩
  obtain ⟨pid, hpid⟩ := hs.staffed svc
  exact ⟨pid, hserves svc pid hpid⟩

/-- While work is left, a process finds a message, or netio an answer. -/
theorem drain_awake {n : Nat} {s : NetioSystem} (hs : Draining n s) (hwork : 0 < s.work) :
    ∃ l ∈ agents n, ∀ s', s.Drains l → netioSystem.step s l s' → s' ≠ s := by
  by_cases hbusy : 0 < (s.behind []).work
  · obtain ⟨i, c, hget, htakes⟩ := process_awake hs.reach hs.staffed hbusy
    have hin : i < n := by
      rw [← hs.count]
      exact (List.getElem?_eq_some_iff.mp hget).1
    refine ⟨.process i true, ?_, fun s' _ h hsame => ?_⟩
    · exact List.mem_cons_of_mem _ (List.mem_map_of_mem (List.mem_range.mpr hin))
    · subst hsame
      obtain ⟨_, ⟨_, hnone⟩ | hless⟩ := process_work hs.reach h
      · exact htakes (hnone c hget)
      · exact absurd hless (Nat.lt_irrefl _)
  · obtain ⟨_, hqueued, hheld⟩ := idle_places hs.reach (by omega)
    have hcount := sent_count hs.reach
    rw [hqueued, hheld, List.length_nil] at hcount
    rw [NetioSystem.work] at hwork
    refine ⟨_, List.mem_cons_self, fun s' _ h hsame => ?_⟩
    subst hsame
    obtain ⟨_, hq⟩ | ⟨_, m, rest, htakes⟩ := response_work hs.reach h
    · have hnone : (s'.behind []).answeredRequests.length = 0 := by
        rw [Backend.answeredRequests, List.length_map]
        exact List.length_eq_zero_iff.mpr hq
      omega
    · have hreceived := congrArg List.length htakes.received
      simp at hreceived

theorem system_draining (n : Nat) :
    netioSystem.Settling NetioSystem.Drains (Draining n) NetioSystem.work (agents n) :=
  ⟨fun _ _ _ hs hl h => draining_step hs hl h, fun _ _ _ hs hl h => drain_work hs.reach hl h,
    fun _ hs hwork => drain_awake hs hwork⟩

/-- Once the clients are quiet, every schedule in which netio and each process
have their turns brings netio an answer to each of its requests, after four
rounds at most for a request without an answer and one for an answer in its queue. -/
theorem every_answer_received {s : NetioSystem} (h : netioSystem.Reach NetioSystem.Orderly s)
    (hsvc : ∀ svc, ∃ pid, (s.behind []).Serves svc pid) {rounds : List (List SystemLabel)}
    (hquiet : ∀ r ∈ rounds, ∀ l ∈ r, s.Drains l)
    (hall : ∀ r ∈ rounds, ∀ l ∈ agents s.procs.length, l ∈ r)
    (hlen : 4 * ((s.behind []).queuedRequests.length + (s.behind []).heldRequests.length) +
      (s.behind []).answeredRequests.length ≤ rounds.length) :
    (∃ s', netioSystem.Run NetioSystem.Drains s rounds.flatten s') ∧
    ∀ s', netioSystem.Run NetioSystem.Drains s rounds.flatten s' →
      (∀ key ∈ msgqKeys, s'.netio.kernel.queues key = []) ∧ (s'.behind []).heldRequests = [] ∧
      ∃ gone : List QMsg, gone.map (fun x => responseText x.cmd) = receivedTexts s'.netio.kernel.log ∧
        (sentSenders s.netio.kernel.log).Perm (gone.map (·.cmd.sender)) := by
  have hs : Draining s.procs.length s := ⟨h, hsvc, rfl⟩
  have hsettling := system_draining s.procs.length
  refine ⟨Machine.Run.exists_of_total (I := Draining s.procs.length) ?_ hs, ?_⟩
  · intro s1 h1 l hl
    obtain ⟨r, hr, hl⟩ := List.mem_flatten.mp hl
    have hdrains : s1.Drains l := hquiet r hr l hl
    obtain ⟨s2, h2⟩ : ∃ s2, netioSystem.step s1 l s2 := by
      rcases hdrains with ⟨i, rfl⟩ | rfl
      · exact process_exists h1.reach i
      · exact response_exists h1.reach
    exact ⟨s2, hdrains, h2, draining_step h1 hdrains h2⟩
  · intro s' hrun
    have hwork : s.work ≤ rounds.length := by
      have hbound := behind_work_le h
      have hcount := sent_count h
      rw [NetioSystem.work]
      omega
    have hzero := hsettling.rounds hs hall hrun hwork
    have hs' := hrun.invariant hsettling.keeps hs
    have hsent : sentSenders s'.netio.kernel.log = sentSenders s.netio.kernel.log := by
      have hkept : Draining s.procs.length s' ∧
          sentSenders s'.netio.kernel.log = sentSenders s.netio.kernel.log := by
        refine hrun.invariant (I := fun r => Draining s.procs.length r ∧
          sentSenders r.netio.kernel.log = sentSenders s.netio.kernel.log) ?_ ⟨hs, rfl⟩
        intro s1 l s2 h1 hl hstep
        exact ⟨draining_step h1.1 hl hstep, (drain_sent h1.1.reach hl hstep).trans h1.2⟩
      exact hkept.2
    obtain ⟨b, gone, hb, hu⟩ := orderly_undrained hs'.reach
    rw [NetioSystem.work] at hzero
    obtain ⟨hqueues, hqueued, hheld⟩ := idle_places hs'.reach (by omega)
    have hcount := sent_count hs'.reach
    have hplaces := hu.sent_places (served_reach hb)
    have hanswered : (s'.behind []).answeredRequests = [] := List.length_eq_zero_iff.mp (by omega)
    refine ⟨?_, hheld, gone, hu.received, ?_⟩
    · intro key hkey
      have hkeys : key = SvcClass.CSvcTest.mqKey ∨ key = SvcClass.CSvcTest2.mqKey ∨
          key = NET_IO_BACK_MSQ_KEY := by
        revert hkey
        simp only [msgqKeys, SvcClass.mqKey, Finset.mem_insert, Finset.mem_singleton]
        tauto
      rcases hkeys with rfl | rfl | rfl
      · exact hqueues .CSvcTest
      · exact hqueues .CSvcTest2
      · exact List.map_eq_nil_iff.mp hanswered
    · rw [hqueued, hheld, hanswered] at hplaces
      rw [← hsent]
      exact hplaces

theorem every_answer_received_each : ∃ s : NetioSystem,
    ((s.behind []).queuedRequests.map (·.iFd) = [8] ∧ (s.behind []).heldRequests.map (·.iFd) = [7] ∧
      (s.behind []).answeredRequests.map (·.iFd) = [6]) ∧
    ((∃ s', netioSystem.Run NetioSystem.Drains s (List.replicate 9 (agents 2)).flatten s') ∧
    ∀ s', netioSystem.Run NetioSystem.Drains s (List.replicate 9 (agents 2)).flatten s' →
      (∀ key ∈ msgqKeys, s'.netio.kernel.queues key = []) ∧ (s'.behind []).heldRequests = [] ∧
      ∃ gone : List QMsg, gone.map (fun x => responseText x.cmd) = receivedTexts s'.netio.kernel.log ∧
        (sentSenders s.netio.kernel.log).Perm (gone.map (·.cmd.sender))) := by
  obtain ⟨s, hs, hp⟩ := sampleSystem_reach NetioSystem.Orderly
    [.netio (.event 3 1 { accepts := [.conn 6 ⟨2, 4001, ⟨10, 0, 0, 1⟩⟩ true true,
        .conn 7 ⟨2, 4002, ⟨10, 0, 0, 1⟩⟩ true true, .conn 8 ⟨2, 4003, ⟨10, 0, 0, 1⟩⟩ true true] }),
      .netio (.event 6 1 { read := some (bytes "cmd=1") }),
      .netio (.event 7 1 { read := some (bytes "cmd=2") }),
      .netio (.event 8 1 { read := some (bytes "cmd=1") }), .process 0 true, .process 1 true]
    (fun s => ((s.behind []).queuedRequests.map (·.iFd) = [8] ∧
        (s.behind []).heldRequests.map (·.iFd) = [7] ∧
        (s.behind []).answeredRequests.map (·.iFd) = [6]) ∧ s.procs.length = 2 ∧
      (s.behind []).Serves .CSvcTest 7 ∧ (s.behind []).Serves .CSvcTest2 9) (by decide +kernel)
  obtain ⟨hplaces, hprocs, hfirst, hsecond⟩ := of_decide_eq_true hp
  have hround : ∀ r ∈ List.replicate 9 (agents 2), r = agents 2 := fun r hr => List.eq_of_mem_replicate hr
  refine ⟨s, hplaces, every_answer_received hs ?_ ?_ ?_ ?_⟩
  · intro svc
    cases svc with
    | CSvcTest => exact ⟨7, hfirst⟩
    | CSvcTest2 => exact ⟨9, hsecond⟩
  · intro r hr l hl
    rw [hround r hr] at hl
    rcases List.mem_cons.mp hl with rfl | hl
    · exact Or.inr rfl
    · obtain ⟨i, _, rfl⟩ := List.mem_map.mp hl
      exact Or.inl ⟨i, rfl⟩
  · intro r hr l hl
    rw [hround r hr, ← hprocs]
    exact hl
  · obtain ⟨hqueued, hheld, hanswered⟩ := hplaces
    have h1 := congrArg List.length hqueued
    have h2 := congrArg List.length hheld
    have h3 := congrArg List.length hanswered
    rw [List.length_map] at h1 h2 h3
    rw [h1, h2, h3]
    decide

end NetioMiddleware

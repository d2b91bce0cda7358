import NetioMiddleware.RequestPlaces
import NetioMiddleware.Rounds

namespace NetioMiddleware

/-- How many more messages are taken at most on the way from a message in a
service queue to the answer: a request to svc_test2 leads to a request to
svc_test, and that to a reply. -/
def stepsLeft (key : Int32) (x : QMsg) : Nat :=
  if key = 0xccccd then if IsClient x then 1 else 2
  else if IsClient x then 3 else 1

def serviceKeys : Finset Int32 := {0xccccd, 0xcccce}

/-- The OnEventFire calls that still take a message, at most. -/
def Backend.work (s : Backend) : Nat := load serviceKeys stepsLeft s.queues

/-- The steps of the processes, with every msgsnd succeeding. -/
def fires (_ : Backend) (l : BackendLabel) : Prop := ∃ i, l = .fire i true

theorem mqKey_service (svc : SvcClass) : svc.mqKey ∈ serviceKeys := by
  cases svc <;> decide

theorem stepsLeft_pos (key : Int32) (x : QMsg) : 0 < stepsLeft key x := by
  unfold stepsLeft
  split <;> split <;> decide

theorem load_offer {queues : Int32 → List QMsg} {key : Int32} {m : QMsg} {sent : Bool}
    (h : sent = true ∧ 0 < m.mtype) :
    load serviceKeys stepsLeft (offer queues key m sent) =
      load serviceKeys stepsLeft queues + if key ∈ serviceKeys then stepsLeft key m else 0 := by
  rw [offer, if_pos h]
  exact load_append m

theorem work_take {queues : Int32 → List QMsg} {svc : SvcClass} {x : QMsg} {rest : List QMsg}
    (hp : (queues svc.mqKey).Perm (x :: rest)) :
    load serviceKeys stepsLeft (Function.update queues svc.mqKey rest) + stepsLeft svc.mqKey x =
      load serviceKeys stepsLeft queues := by
  have h : load serviceKeys stepsLeft (Function.update queues svc.mqKey rest) +
      (if svc.mqKey ∈ serviceKeys then stepsLeft svc.mqKey x else 0) = load serviceKeys stepsLeft queues :=
    load_take hp
  rwa [if_pos (mqKey_service svc)] at h

theorem askMsg_not_client {c : Container} {s : Backend} (hc : c ∈ s.procs) (hv : c.Valid)
    (hclass : c.svc = .CSvcTest2) {svc : IService} (hreg : svc ∈ c.registered) :
    ¬IsClient (cmdMsg REQUEST.toInt { iSvcSerialNo := svc.m_iIndex, iCmd := svc.m_iCmd }) := by
  intro h
  obtain ⟨hfirst, hask⟩ := askMsg_first hc hv hclass hreg
  rcases hfirst.kind with ⟨_, hcmd⟩ | ⟨_, h0, _⟩ | ⟨hreply, _⟩
  · exact absurd (hask.iCmd.symm.trans hcmd) (by decide)
  · rw [h.iType] at h0
    exact absurd h0 (by decide)
  · exact hreply.not_ask hask

section

variable {s : Backend} (hs : Served s) {c c' : Container} (hc : c ∈ s.procs)
  {queues' : Int32 → List QMsg}

include hs hc

/-- An OnEventFire that takes a message brings some request closer to its answer. -/
theorem fire_work (h : FireCase s.queues c true c' queues') :
    (c.takes s.queues = none ∧ c' = c ∧ queues' = s.queues) ∨
      load serviceKeys stepsLeft queues' < load serviceKeys stepsLeft s.queues := by
  have hv := hs.inv.valid c hc
  cases h with
  | idle hnone hcc hq => exact Or.inl ⟨hnone, hcc, hq⟩
  | @replied x rest key m htakes hperm htype _ hr _ _ hq =>
    right
    have htaken := work_take hperm
    obtain ⟨hsent, hnot, ⟨_, hkey, _⟩ | ⟨hnotx, hkey, _⟩⟩ :=
      served_reply hs hc htakes htype (hr (taken_plain hs.inv hc htakes))
    · have hpos := stepsLeft_pos c.svc.mqKey x
      rw [hq, load_offer hsent, hkey, if_neg (by decide)]
      omega
    · obtain ⟨_, ⟨hclient, _⟩ | ⟨hclass, _⟩⟩ := served_request hs hc htakes htype
      · exact absurd hclient hnotx
      · have hcost : stepsLeft c.svc.mqKey x = 2 := by
          rw [hclass]
          simp [stepsLeft, SvcClass.mqKey, hnotx]
        have hreply : stepsLeft key m = 1 := by
          rw [hkey]
          simp [stepsLeft, hnot]
        rw [hq, load_offer hsent, hreply, if_pos (by rw [hkey]; decide)]
        omega
  | kept htakes _ htype _ hret =>
    rw [(served_request hs hc htakes htype).1] at hret
    exact absurd hret (by decide)
  | @held x rest svc htakes hperm htype hclass hfree _ _ hq =>
    right
    obtain ⟨_, _, _, _, hreg, _⟩ := freeHandler_eq_some hv hfree
    have hnot := askMsg_not_client hc hv hclass hreg
    have htaken := work_take hperm
    obtain ⟨_, ⟨hclient, _⟩ | ⟨hclass', _⟩⟩ := served_request hs hc htakes htype
    · have hcost : stepsLeft c.svc.mqKey x = 3 := by
        rw [hclass]
        simp [stepsLeft, SvcClass.mqKey, hclient]
      have hask : stepsLeft 0xccccd
          (cmdMsg REQUEST.toInt { iSvcSerialNo := svc.m_iIndex, iCmd := svc.m_iCmd }) = 2 := by
        simp [stepsLeft, hnot]
      rw [hq, load_offer ⟨rfl, show (0 : Int) < REQUEST.toInt by decide⟩, hask, if_pos (by decide)]
      omega
    · rw [hclass] at hclass'
      contradiction
  | @resumed x rest svc obj3 key m htakes hperm htype hclass hfind hframe hr _ _ hq =>
    right
    obtain ⟨hkey, hmt⟩ := (hr (hs.inv.plain c hc _ _ hframe)).back rfl
    have htaken := work_take hperm
    have hpos := stepsLeft_pos c.svc.mqKey x
    rw [hq, load_offer ⟨rfl, by rw [hmt]; decide⟩, hkey, if_neg (by decide)]
    omega

end

/-- One turn of a process: it finds no message and nothing changes, or work is done. -/
theorem turn_work {s s' : Backend} (hs : Served s) {i : Nat} (h : backend.step s (.fire i true) s') :
    (s' = s ∧ ∀ c, s.procs[i]? = some c → c.takes s.queues = none) ∨ s'.work < s.work := by
  cases backend_step_case h with
  | absent hnone =>
    refine Or.inl ⟨rfl, fun c hc => ?_⟩
    rw [hnone] at hc
    contradiction
  | @fire _ _ _ front c back c' hget hprocs hprocs' hentered hon =>
    have hc : c ∈ s.procs := hprocs ▸ by simp
    rcases fire_work hs hc (fire_case (hs.inv.valid c hc) (hs.inv.text c.svc) hon) with
      ⟨hnone, rfl, hq⟩ | hless
    · left
      refine ⟨?_, fun d hd => ?_⟩
      · cases s
        cases s'
        simp only at hprocs hprocs' hentered hq
        rw [hprocs', hentered, hq, hprocs]
      · rw [hget] at hd
        exact Option.some.inj hd ▸ hnone
    · exact Or.inr hless

theorem exists_of_busy {procs : List Container} {k : Int32} (h : 0 < busy procs k) :
    ∃ c ∈ procs, ∃ svc, c.dispatcher.m_mapStatefulSvcQueue.find? k = some svc := by
  obtain ⟨n, hn, hpos⟩ := List.sum_pos_iff_exists_pos_nat.mp h
  obtain ⟨c, hc, rfl⟩ := List.mem_map.mp hn
  refine ⟨c, hc, ?_⟩
  unfold Container.holds at hpos
  split at hpos
  next hsome => exact Option.isSome_iff_exists.mp hsome
  next => contradiction

/-- The process that keeps a handler busy, which is one of svc_test2. -/
theorem busy_owner {s : Backend} (hs : Served s) {k : Int32} (h : 0 < busy s.procs k) :
    ∃ c ∈ s.procs, c.svc = .CSvcTest2 ∧ pidOf k = c.pid ∧
      ∃ svc, c.dispatcher.m_mapStatefulSvcQueue.find? k = some svc := by
  obtain ⟨c, hc, svc, hfind⟩ := exists_of_busy h
  have hv := hs.inv.valid c hc
  obtain ⟨hreg, hkey⟩ := hv.partitioned.busy _ _ hfind
  have hpid := handler_pid hv.numbered hreg
  rw [← hkey] at hpid
  refine ⟨c, hc, ?_, hpid, svc, hfind⟩
  cases hclass : c.svc with
  | CSvcTest => rw [hs.idle c hc hclass] at hfind; contradiction
  | CSvcTest2 => rfl

/-- While work is left, a message is there that one of the processes takes. -/
theorem work_awake {s : Backend} (hs : Served s) (hsvc : ∀ svc, ∃ pid, s.Serves svc pid)
    (hwork : 0 < s.work) : ∃ c ∈ s.procs, c.takes s.queues ≠ none := by
  have takes : ∀ c ∈ s.procs, ∀ x ∈ s.queues c.svc.mqKey,
      x.mtype = REQUEST.toInt ∨ x.mtype = appType c.pid → c.takes s.queues ≠ none := by
    intro c _ x hx ht hnone
    obtain ⟨h1, h2⟩ := Option.or_eq_none_iff.mp hnone
    rcases ht with ht | ht
    · exact absurd ht (by simpa using List.find?_eq_none.mp h1 x hx)
    · exact absurd ht (by simpa using List.find?_eq_none.mp h2 x hx)
  obtain ⟨svc, x, hx⟩ : ∃ svc : SvcClass, ∃ x, x ∈ s.queues svc.mqKey := by
    by_contra hnone
    push Not at hnone
    have hempty : ∀ key ∈ serviceKeys, s.queues key = [] := by
      intro key hkey
      have hkeys : key = SvcClass.CSvcTest.mqKey ∨ key = SvcClass.CSvcTest2.mqKey := by
        simpa [serviceKeys, SvcClass.mqKey] using hkey
      rcases hkeys with rfl | rfl
      · exact List.eq_nil_iff_forall_not_mem.mpr (hnone _)
      · exact List.eq_nil_iff_forall_not_mem.mpr (hnone _)
    have hzero := (load_eq_zero (fun key _ x _ => stepsLeft_pos key x)).mpr hempty
    exact absurd hzero (Nat.ne_of_gt hwork)
  obtain ⟨pid, c, hc, rfl, _⟩ := hsvc svc
  by_cases hmt : x.mtype = REQUEST.toInt
  · exact ⟨c, hc, takes c hc x hx (Or.inl hmt)⟩
  · cases hclass : c.svc with
    | CSvcTest =>
      rw [hclass] at hx
      exact absurd (hs.calls x hx) hmt
    | CSvcTest2 =>
      rw [hclass] at hx
      have hx : x ∈ s.queues 0xcccce := hx
      obtain ⟨hclient, _⟩ | ⟨hreply, _⟩ := (hs.inv.second x hx).kind
      · exact absurd hclient.mtype hmt
      · have hcounted : 0 < outstanding s.queues x.cmd.iSvcSerialNo :=
          tally_pos (by decide) hx (decide_eq_true (Or.inr ⟨rfl, hreply⟩))
        rw [hs.balance] at hcounted
        obtain ⟨p, hp, hclass', hpid, _⟩ := busy_owner hs hcounted
        refine ⟨p, hp, takes p hp x ?_ (Or.inr ?_)⟩
        · rw [hclass']
          exact hx
        · rw [hreply.mtype, ← hpid]

/-- The handler numbers on the messages between the services. -/
def Backend.awaiting (s : Backend) : List Int32 :=
  ((s.queues 0xccccd ++ s.queues 0xcccce).filter (fun x => ¬IsClient x)).map (·.cmd.iSvcSerialNo)

/-- The numbers of the handlers in the stateful maps. -/
def Backend.suspendedKeys (s : Backend) : List Int32 :=
  s.procs.flatMap (fun c => c.dispatcher.m_mapStatefulSvcQueue.entries.map (·.1))

theorem busy_le_one {s : Backend} (hs : Served s) (k : Int32) : busy s.procs k ≤ 1 := by
  by_cases hbusy : 0 < busy s.procs k
  · obtain ⟨c, hc, _, hpid, _⟩ := busy_owner hs hbusy
    rw [busy_eq_holds hs.inv hc hpid, Container.holds]
    split <;> omega
  · omega

/-- Each message between the services belongs to a busy handler of its own. -/
theorem awaiting_count {s : Backend} (hs : Served s) (k : Int32) :
    s.awaiting.count k ≤ busy s.procs k := by
  have hsplit : s.awaiting.count k =
      (s.queues 0xccccd).countP (fun x => !decide (IsClient x) && (x.cmd.iSvcSerialNo == k)) +
        (s.queues 0xcccce).countP (fun x => !decide (IsClient x) && (x.cmd.iSvcSerialNo == k)) := by
    rw [Backend.awaiting, List.count_eq_countP, List.countP_map, List.countP_filter, List.countP_append]
    simp only [Function.comp_apply, decide_not, Bool.and_comm]
  have hfirst : (s.queues 0xccccd).countP
        (fun x => !decide (IsClient x) && (x.cmd.iSvcSerialNo == k)) ≤
      (s.queues 0xccccd).countP (awaits k 0xccccd) := by
    refine List.countP_mono_left fun x hx hk => ?_
    obtain ⟨hnot, hk⟩ : ¬IsClient x ∧ x.cmd.iSvcSerialNo = k := by simpa using hk
    refine decide_eq_true (Or.inl ⟨rfl, ?_⟩)
    rcases (hs.inv.first x hx).kind with ⟨hclient, _⟩ | ⟨hask, _⟩ | ⟨hreply, _⟩
    · exact absurd hclient hnot
    · exact hk ▸ hask
    · exact absurd (hreply.mtype.symm.trans (hs.calls x hx)) (appType_ne_request _)
  have hsecond : (s.queues 0xcccce).countP
        (fun x => !decide (IsClient x) && (x.cmd.iSvcSerialNo == k)) ≤
      (s.queues 0xcccce).countP (awaits k 0xcccce) := by
    refine List.countP_mono_left fun x hx hk => ?_
    obtain ⟨hnot, hk⟩ : ¬IsClient x ∧ x.cmd.iSvcSerialNo = k := by simpa using hk
    refine decide_eq_true (Or.inr ⟨rfl, ?_⟩)
    rcases (hs.inv.second x hx).kind with ⟨hclient, _⟩ | ⟨hreply, _⟩
    · exact absurd hclient hnot
    · exact hk ▸ hreply
  have hbalance := hs.balance k
  rw [outstanding, tally_msgqKeys] at hbalance
  omega

theorem awaiting_length {s : Backend} (hs : Served s) : s.awaiting.length ≤ s.heldRequests.length := by
  have hkeys : s.awaiting.length ≤ s.suspendedKeys.length := by
    refine (List.subperm_of_subset (List.nodup_iff_count_le_one.mpr fun k => ?_) fun k hk => ?_).length_le
    · exact (awaiting_count hs k).trans (busy_le_one hs k)
    · have hpos := (List.count_pos_iff.mpr hk).trans_le (awaiting_count hs k)
      obtain ⟨c, hc, svc, hfind⟩ := exists_of_busy hpos
      refine List.mem_flatMap.mpr ⟨c, hc, List.mem_map.mpr ⟨(k, svc), ?_, rfl⟩⟩
      exact SortedMap.find?_eq_some_iff.mp hfind
  refine hkeys.trans (Nat.le_of_eq ?_)
  rw [Backend.suspendedKeys, Backend.heldRequests, List.length_flatMap, List.length_flatMap]
  refine congrArg List.sum (List.map_congr_left fun c hc => ?_)
  rw [List.length_map, Container.heldRequests, eq_comm, List.filterMap_length_eq_length]
  intro e he
  have hfind := SortedMap.find?_eq_some_iff.mpr he
  have hv := hs.inv.valid c hc
  have hbusy := hv.busy _ _ hfind
  cases hclass : c.svc with
  | CSvcTest => rw [hs.idle c hc hclass] at hfind; contradiction
  | CSvcTest2 =>
    rw [hclass] at hbusy
    obtain ⟨obj3, hframe⟩ := hbusy
    rw [hframe]
    rfl

theorem price_le (key : Int32) (q : List QMsg) :
    (q.map (stepsLeft key)).sum ≤
      3 * (q.filter (fun x => IsClient x)).length + 2 * (q.filter (fun x => ¬IsClient x)).length := by
  induction q with
  | nil => exact Nat.zero_le _
  | cons x q ih =>
    by_cases hx : IsClient x
    · have hcost : stepsLeft key x ≤ 3 := by
        simp only [stepsLeft, if_pos hx]
        split <;> omega
      simp only [List.map_cons, List.sum_cons, List.filter_cons, hx, decide_true, if_true, not_true,
        decide_false, Bool.false_eq_true, if_false, List.length_cons] at ih ⊢
      omega
    · have hcost : stepsLeft key x ≤ 2 := by
        simp only [stepsLeft, if_neg hx]
        split <;> omega
      simp only [List.map_cons, List.sum_cons, List.filter_cons, hx, decide_true, if_true, not_false_eq_true,
        decide_false, Bool.false_eq_true, if_false, List.length_cons] at ih ⊢
      omega

/-- A request without an answer needs three more steps at most. -/
theorem work_le {s : Backend} (hs : Served s) :
    s.work ≤ 3 * (s.queuedRequests.length + s.heldRequests.length) := by
  have hsum : s.work = ((s.queues 0xccccd).map (stepsLeft 0xccccd)).sum +
      ((s.queues 0xcccce).map (stepsLeft 0xcccce)).sum := by
    rw [Backend.work, load, serviceKeys, Finset.sum_pair (by decide)]
  have h1 := price_le 0xccccd (s.queues 0xccccd)
  have h2 := price_le 0xcccce (s.queues 0xcccce)
  have hawaiting := awaiting_length hs
  rw [Backend.awaiting, List.length_map, List.filter_append, List.length_append] at hawaiting
  rw [hsum, Backend.queuedRequests, List.length_map, List.filter_append, List.length_append]
  omega

/-- What the rounds start from and keep. -/
structure Settleable (n : Nat) (s : Backend) : Prop where
  served : Served s
  staffed : ∀ svc, ∃ pid, s.Serves svc pid
  count : s.procs.length = n

/-- One turn of each of n processes. -/
def turns (n : Nat) : List BackendLabel := (List.range n).map (.fire · true)

theorem fire_serves {s s' : Backend} {i : Nat} {sent : Bool} (hv : ∀ c ∈ s.procs, c.Valid)
    (htext : ∀ svc : SvcClass, ∀ x ∈ s.queues svc.mqKey, x.mtext ≠ [])
    (h : backend.step s (.fire i sent) s') :
    s'.procs.length = s.procs.length ∧ ∀ svc pid, s.Serves svc pid → s'.Serves svc pid := by
  cases backend_step_case h with
  | absent => exact ⟨rfl, fun _ _ hserves => hserves⟩
  | @fire _ _ _ front c back c' _ hprocs hprocs' _ hon =>
    have hc : c ∈ s.procs := hprocs ▸ by simp
    obtain ⟨hsvc, hpid, _⟩ := (fire_static (hv c hc) (htext c.svc) hon).1
    refine ⟨?_, fun svc pid => (serves_replace hprocs hprocs' hsvc hpid svc pid).mpr⟩
    rw [hprocs, hprocs']
    simp

theorem turn_settleable {n : Nat} {s s' : Backend} {i : Nat} (hs : Settleable n s)
    (h : backend.step s (.fire i true) s') : Settleable n s' := by
  obtain ⟨hlen, hserves⟩ := fire_serves hs.served.inv.valid hs.served.inv.text h
  refine ⟨served_step hs.served (l := .fire i true) rfl h, fun svc => ?_, hlen.trans hs.count⟩
  obtain ⟨pid, hpid⟩ := hs.staffed svc
  exact ⟨pid, hserves svc pid hpid⟩

theorem backend_settling (n : Nat) :
    backend.Settling fires (Settleable n) Backend.work (turns n) := by
  refine ⟨?_, ?_, ?_⟩
  · rintro s l s' hs ⟨i, rfl⟩ h
    exact turn_settleable hs h
  · rintro s l s' hs ⟨i, rfl⟩ h
    exact (turn_work hs.served h).imp And.left id
  · intro s hs hwork
    obtain ⟨c, hc, htakes⟩ := work_awake hs.served hs.staffed hwork
    obtain ⟨i, hi, rfl⟩ := List.getElem_of_mem hc
    refine ⟨.fire i true, List.mem_map_of_mem (List.mem_range.mpr (hs.count ▸ hi)), ?_⟩
    intro s' _ h hsame
    subst hsame
    rcases turn_work hs.served h with ⟨_, hnone⟩ | hless
    · exact htakes (hnone _ (List.getElem?_eq_getElem hi))
    · exact absurd hless (Nat.lt_irrefl _)

theorem turn_exists {s : Backend} (hs : Served s) (i : Nat) : ∃ s', backend.step s (.fire i true) s' := by
  cases hget : s.procs[i]? with
  | none => exact ⟨s, trivial, by simp [backendStep, fireAt, hget]⟩
  | some c =>
    obtain ⟨⟨c', queues'⟩, hfire⟩ := fire_goes_through hs.inv (List.mem_of_getElem? hget) true
    exact ⟨_, trivial, by simp only [backendStep, fireAt, hget, hfire]; rfl⟩

/-- Without work both service queues are empty, no handler is suspended, and
every request that has entered has its answer. -/
theorem settled {s : Backend} (hs : Served s) (hwork : s.work = 0) :
    (∀ svc : SvcClass, s.queues svc.mqKey = []) ∧ s.heldRequests = [] ∧
      (s.entered.map (·.sender)).Perm s.answeredRequests := by
  have hqueues : ∀ svc : SvcClass, s.queues svc.mqKey = [] := fun svc =>
    (load_eq_zero (fun key _ x _ => stepsLeft_pos key x)).mp hwork _ (mqKey_service svc)
  have h1 : s.queues 0xccccd = [] := hqueues .CSvcTest
  have h2 : s.queues 0xcccce = [] := hqueues .CSvcTest2
  have hheld : s.heldRequests = [] := by
    refine List.flatMap_eq_nil_iff.mpr fun c hc => ?_
    refine List.filterMap_eq_nil_iff.mpr fun e he => ?_
    have hfind := SortedMap.find?_eq_some_iff.mpr he
    have hv := hs.inv.valid c hc
    have hpid := handler_pid hv.numbered (hv.partitioned.busy _ _ hfind).1
    rw [← (hv.partitioned.busy _ _ hfind).2] at hpid
    have hbalance := hs.balance e.1
    rw [busy_eq_holds hs.inv hc hpid, Container.holds, hfind, outstanding, tally_msgqKeys, h1, h2] at hbalance
    have hback : (s.queues NET_IO_BACK_MSQ_KEY).countP (awaits e.1 NET_IO_BACK_MSQ_KEY) = 0 := by
      refine List.countP_eq_zero.mpr fun x _ => ?_
      simp only [awaits, decide_eq_true_eq]
      rintro (⟨h, _⟩ | ⟨h, _⟩) <;> exact absurd h (by decide)
    simp [hback] at hbalance
  refine ⟨hqueues, hheld, ?_⟩
  have hplaces := count_places s
  simp only [hheld, Backend.queuedRequests, h1, h2, List.append_nil, List.filter_nil, List.map_nil,
    List.nil_append] at hplaces
  exact List.perm_iff_count.mpr fun t => by rw [hplaces, hs.places]

end NetioMiddleware

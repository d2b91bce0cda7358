import NetioMiddleware.BackendRuns

namespace NetioMiddleware

instance (x : QMsg) : Decidable (IsClient x) :=
  decidable_of_iff (x.mtype = REQUEST.toInt ∧ x.cmd.iType = REQUEST)
    ⟨fun ⟨h1, h2⟩ => ⟨h1, h2⟩, fun h => ⟨h.mtype, h.iType⟩⟩

/-- The request a context holds while it is suspended. -/
def Frame.sender : Frame → Option Sender
  | .suspended obj3 => some obj3.sender
  | _ => none

/-- The clients' requests that stand in the two service queues. -/
def Backend.queuedRequests (s : Backend) : List Sender :=
  ((s.queues 0xccccd ++ s.queues 0xcccce).filter (fun x => IsClient x)).map (·.cmd.sender)

/-- The requests the suspended handlers of a process hold. -/
def Container.heldRequests (c : Container) : List Sender :=
  c.dispatcher.m_mapStatefulSvcQueue.entries.filterMap (fun e => (c.frames e.1).sender)

def Backend.heldRequests (s : Backend) : List Sender := s.procs.flatMap (·.heldRequests)

/-- The requests the messages in netio's queue answer. -/
def Backend.answeredRequests (s : Backend) : List Sender :=
  (s.queues NET_IO_BACK_MSQ_KEY).map (·.cmd.sender)

/-- How many messages with handler k's number are under way: requests to
svc_test, and replies to the process of the handler. -/
def Container.inFlight (c : Container) (queues : Int32 → List QMsg) (k : Int32) : Nat :=
  (queues 0xccccd).countP (fun x => x.cmd.iSvcSerialNo = k) +
    (queues 0xcccce).countP (fun x => x.mtype = appType c.pid ∧ x.cmd.iSvcSerialNo = k)

/-- Clients set neither ret nor serialno, every msgsnd succeeds, and netio's
queue is left alone. -/
def plainRun (_ : Backend) : BackendLabel → Prop
  | .enter oCmd _ => oCmd.iRet = 0 ∧ oCmd.iSvcSerialNo = 0
  | .fire _ sent => sent = true
  | .drain _ => False

instance (s : Backend) : (l : BackendLabel) → Decidable (plainRun s l)
  | .enter oCmd _ => inferInstanceAs (Decidable (oCmd.iRet = 0 ∧ oCmd.iSvcSerialNo = 0))
  | .fire _ sent => inferInstanceAs (Decidable (sent = true))
  | .drain _ => isFalse id

/-- Whether a message in a queue stands for a request of this sender. -/
def standsFor (t : Sender) (key : Int32) (x : QMsg) : Bool :=
  (key = NET_IO_BACK_MSQ_KEY ∨ IsClient x) ∧ x.cmd.sender = t

/-- How many handlers of a process hold a request of this sender. -/
def Container.suspends (c : Container) (t : Sender) : Nat :=
  c.dispatcher.m_mapStatefulSvcQueue.entries.countP (fun e => (c.frames e.1).sender = some t)

/-- What holds of the runs in which no client sets ret or serialno. -/
structure Served (s : Backend) : Prop where
  inv : BackendInv s
  zero : ∀ svc : SvcClass, ∀ x ∈ s.queues svc.mqKey, IsClient x →
    x.cmd.iSvcSerialNo = 0 ∧ x.cmd.iRet = 0
  calls : ∀ x ∈ s.queues 0xccccd, x.mtype = REQUEST.toInt
  idle : ∀ c ∈ s.procs, c.svc = .CSvcTest → ∀ k, c.dispatcher.m_mapStatefulSvcQueue.find? k = none
  balance : ∀ k, outstanding s.queues k = busy s.procs k
  places : ∀ t, tally msgqKeys (standsFor t) s.queues + (s.procs.map (·.suspends t)).sum =
    (s.entered.map (·.sender)).count t

theorem standsFor_weight (t : Sender) {key : Int32} (x : QMsg) (hkey : key ∈ msgqKeys) :
    weight msgqKeys (standsFor t) key x =
      if (key = NET_IO_BACK_MSQ_KEY ∨ IsClient x) ∧ x.cmd.sender = t then 1 else 0 := by
  have hstands : standsFor t key x = true ↔
      (key = NET_IO_BACK_MSQ_KEY ∨ IsClient x) ∧ x.cmd.sender = t := decide_eq_true_iff
  exact if_congr ⟨fun h => hstands.mp h.2, fun h => ⟨hkey, hstands.mpr h⟩⟩ rfl rfl

theorem mqKey_mem (svc : SvcClass) : svc.mqKey ∈ msgqKeys ∧ svc.mqKey ≠ NET_IO_BACK_MSQ_KEY := by
  cases svc <;> decide

theorem stands_take {queues : Int32 → List QMsg} {key : Int32} {x : QMsg} {rest : List QMsg}
    (hp : (queues key).Perm (x :: rest)) (t : Sender) :
    tally msgqKeys (standsFor t) (Function.update queues key rest) +
      weight msgqKeys (standsFor t) key x = tally msgqKeys (standsFor t) queues := tally_take hp

theorem request_weight (t : Sender) (svc : SvcClass) (x : QMsg) :
    weight msgqKeys (standsFor t) svc.mqKey x = if IsClient x ∧ x.cmd.sender = t then 1 else 0 := by
  obtain ⟨hmem, hback⟩ := mqKey_mem svc
  rw [standsFor_weight t x hmem]
  simp only [hback, false_or]

theorem answer_weight (t : Sender) (x : QMsg) :
    weight msgqKeys (standsFor t) NET_IO_BACK_MSQ_KEY x = if x.cmd.sender = t then 1 else 0 := by
  rw [standsFor_weight t x (by decide)]
  simp only [true_or, true_and]

section

variable {c c' : Container} (hv : c.Valid) {svc : IService}

include hv

theorem suspends_held {oCmd : CCmd} (hfree : c.freeHandler = some svc)
    (hmaps : c'.dispatcher.maps = c.held svc)
    (hframes : c'.frames = Function.update c.frames svc.m_iIndex (.suspended oCmd)) (t : Sender) :
    c'.suspends t = c.suspends t + if oCmd.sender = t then 1 else 0 := by
  obtain ⟨_, _, _, hbusy, _⟩ := freeHandler_eq_some hv hfree
  have hperm := SortedMap.assign_entries_perm hbusy svc
  have hothers := SortedMap.find?_eq_none_iff.mp hbusy
  unfold Container.suspends
  rw [(Prod.mk.inj hmaps).2, hframes, hperm.countP_eq, List.countP_cons]
  congr 1
  · refine List.countP_congr fun e he => ?_
    rw [Function.update_of_ne (hothers e he)]
  · simp [Frame.sender]

theorem suspends_released {k : Int32} {obj3 : CCmd}
    (hfind : c.dispatcher.m_mapStatefulSvcQueue.find? k = some svc)
    (hframe : c.frames k = .suspended obj3) (hmaps : c'.dispatcher.maps = c.released svc)
    (hframes : c'.frames = Function.update c.frames svc.m_iIndex .start) (t : Sender) :
    (c'.suspends t + if obj3.sender = t then 1 else 0) = c.suspends t := by
  obtain ⟨_, hkey⟩ := hv.partitioned.busy _ _ hfind
  have hperm := SortedMap.erase_entries_perm hfind
  have hothers : ∀ e ∈ (c.dispatcher.m_mapStatefulSvcQueue.erase k).entries, e.1 ≠ k := by
    intro e he
    simpa using (List.mem_filter.mp he).2
  unfold Container.suspends
  rw [(Prod.mk.inj hmaps).2, hframes, ← hkey, hperm.countP_eq, List.countP_cons, hframe]
  congr 1
  · refine List.countP_congr fun e he => ?_
    rw [Function.update_of_ne (hothers e he)]
  · simp [Frame.sender]

end

theorem suspends_same {c c' : Container} (hmaps : c'.dispatcher.maps = c.dispatcher.maps)
    (hframes : c'.frames = c.frames) (t : Sender) : c'.suspends t = c.suspends t := by
  unfold Container.suspends
  rw [(Prod.mk.inj hmaps).2, hframes]

section

variable {s : Backend} (hs : Served s) {c c' : Container} (hc : c ∈ s.procs)
  {queues' : Int32 → List QMsg}

include hs hc

/-- The requests a process can take in such a run. -/
theorem served_request {x : QMsg} (htakes : c.takes s.queues = some x) (htype : x.cmd.iType ≠ RESPONSE) :
    x.cmd.iRet = 0 ∧
    ((IsClient x ∧ x.cmd.iSvcSerialNo = 0 ∧ ∀ k, weight msgqKeys (awaits k) c.svc.mqKey x = 0) ∨
    (c.svc = .CSvcTest ∧ IsAsk x.cmd.iSvcSerialNo x ∧ ¬IsClient x ∧ x.cmd.iSvcSerialNo ≠ 0 ∧
      s.Serves .CSvcTest2 (pidOf x.cmd.iSvcSerialNo))) := by
  obtain ⟨hclient, _⟩ | ⟨hclass, hask, hret, hne, hserves⟩ := taken_request hs.inv hc htakes htype
  · obtain ⟨hserial, hret⟩ := hs.zero c.svc x (takes_mem htakes).1 hclient
    exact ⟨hret, Or.inl ⟨hclient, hserial, client_weight hs.inv hc htakes hclient⟩⟩
  · have hnot : ¬IsClient x := fun h => hne (hs.zero c.svc x (takes_mem htakes).1 h).1
    exact ⟨hret, Or.inr ⟨hclass, hask, hnot, hne, hserves⟩⟩

theorem served_fits (sent : Bool) : FitsProc s c sent := by
  intro x htakes htype hne
  have hresp : x.cmd.iType ≠ RESPONSE := by
    rw [htype]
    decide
  obtain ⟨_, ⟨_, hserial, _⟩ | ⟨hclass, _, hnot, _⟩⟩ := served_request hs hc htakes hresp
  · exact absurd hserial hne
  · obtain ⟨_, _, ⟨hclient, _⟩ | ⟨_, h0, _⟩⟩ := taken_first hs.inv hc htakes hclass
    · exact absurd hclient hnot
    · rw [htype] at h0
      exact absurd h0 (by decide)

omit hc in
theorem serves_pos {svc : SvcClass} {pid : Int} (h : s.Serves svc pid) : 0 < pid := by
  obtain ⟨p, hp, _, rfl⟩ := h
  have := (hs.inv.valid p hp).numbered.pos
  omega

/-- A reply goes to netio for a client and to the asking process for a handler. -/
theorem served_reply {x m : QMsg} {key : Int32} (htakes : c.takes s.queues = some x)
    (htype : x.cmd.iType ≠ RESPONSE) (hr : RepliesTo x.cmd key m) :
    (true = true ∧ 0 < m.mtype) ∧ ¬IsClient m ∧
    ((IsClient x ∧ key = NET_IO_BACK_MSQ_KEY ∧
        ∀ k, weight msgqKeys (awaits k) c.svc.mqKey x = weight msgqKeys (awaits k) key m) ∨
      (¬IsClient x ∧ key = 0xcccce ∧
        ∀ k, weight msgqKeys (awaits k) c.svc.mqKey x = weight msgqKeys (awaits k) key m)) := by
  have hnot : ¬IsClient m := fun h => absurd (h.iType.symm.trans hr.iType) (by decide)
  obtain ⟨_, ⟨hclient, hserial, hzero⟩ | ⟨hclass, hask, hnotx, hne, hserves⟩⟩ :=
    served_request hs hc htakes htype
  · obtain ⟨hkey, hmt⟩ := hr.back hserial
    refine ⟨⟨rfl, by rw [hmt]; decide⟩, hnot, Or.inl ⟨hclient, hkey, fun k => ?_⟩⟩
    rw [hzero, hkey, back_weight]
  · have hreply := hr.isReply hne
    obtain ⟨hroute, hmt⟩ := hr.app hne
    have hroute : routeCmd x.cmd.iCmd = some key := hroute
    rw [hask.iCmd] at hroute
    have hkey : key = 0xcccce := (Option.some.inj hroute).symm
    have hpos := serves_pos hs hserves
    refine ⟨⟨rfl, ?_⟩, hnot, Or.inr ⟨hnotx, hkey, fun k => ?_⟩⟩
    · have happ : APP.toInt = 3 := rfl
      rw [hmt, appType, happ]
      omega
    · rw [hkey, reply_weight hreply, hclass, show SvcClass.CSvcTest.mqKey = 0xccccd from rfl,
        ask_weight hask, hr.serial]

/-- A handler starts waiting exactly when a message for it enters a queue. -/
theorem fire_balance (h : FireCase s.queues c true c' queues') (k : Int32) :
    outstanding queues' k + c.holds k = outstanding s.queues k + c'.holds k := by
  have hv := hs.inv.valid c hc
  cases h with
  | idle _ hcc hq => rw [hcc, hq]
  | replied htakes hperm htype _ hr hmaps _ hq =>
    obtain ⟨hsent, _, hplace⟩ := served_reply hs hc htakes htype (hr (taken_plain hs.inv hc htakes))
    have hweight := hplace.elim (fun h => h.2.2 k) (fun h => h.2.2 k)
    have htaken := outstanding_take hperm k
    have hholds := holds_of_maps hmaps k
    rw [hq, outstanding_offer, if_pos hsent]
    omega
  | kept htakes _ htype _ hret =>
    rw [(served_request hs hc htakes htype).1] at hret
    exact absurd hret (by decide)
  | held htakes hperm htype hclass hfree hmaps _ hq =>
    obtain ⟨_, _, _, _, hreg, _⟩ := freeHandler_eq_some hv hfree
    have hask := (askMsg_first hc hv hclass hreg).2
    have hholds := holds_held hv hfree hmaps k
    have htaken := outstanding_take hperm k
    obtain ⟨_, ⟨_, _, hzero⟩ | ⟨hfirst, _⟩⟩ := served_request hs hc htakes htype
    · have hzero := hzero k
      rw [hq, outstanding_offer, if_pos ⟨rfl, show (0 : Int) < REQUEST.toInt by decide⟩, ask_weight hask k]
      omega
    · rw [hclass] at hfirst
      contradiction
  | resumed htakes hperm htype hclass hfind hframe hr hmaps _ hq =>
    have hr := hr (hs.inv.plain c hc _ _ hframe)
    have htaken := outstanding_take hperm k
    have hholds := holds_released hv hfind hmaps k
    obtain ⟨_, ⟨hclient, _⟩ | ⟨hreply, _⟩⟩ := taken_second hs.inv htakes hclass
    · rw [hclient.iType] at htype
      exact absurd htype (by decide)
    · rw [hclass, show SvcClass.CSvcTest2.mqKey = 0xcccce from rfl, reply_weight hreply k] at htaken
      rw [hq, outstanding_offer, (hr.back rfl).1, back_weight, hclass,
        show SvcClass.CSvcTest2.mqKey = 0xcccce from rfl]
      split <;> omega

/-- A request is moved and never lost or doubled. -/
theorem fire_places (h : FireCase s.queues c true c' queues') (t : Sender) :
    tally msgqKeys (standsFor t) queues' + c'.suspends t =
      tally msgqKeys (standsFor t) s.queues + c.suspends t := by
  have hv := hs.inv.valid c hc
  cases h with
  | idle _ hcc hq => rw [hcc, hq]
  | @replied x rest key m htakes hperm htype _ hr hmaps hframes hq =>
    have hr := hr (taken_plain hs.inv hc htakes)
    have htaken := stands_take hperm t
    rw [request_weight] at htaken
    rw [hq, tally_offer, suspends_same hmaps hframes]
    obtain ⟨hsent, hnot, ⟨hclient, hkey, _⟩ | ⟨hnotx, hkey, _⟩⟩ := served_reply hs hc htakes htype hr
    · simp only [hclient, true_and] at htaken
      rw [if_pos hsent, hkey, answer_weight, hr.sender]
      omega
    · simp only [hnotx, false_and, if_false] at htaken
      rw [if_pos hsent, hkey, show (0xcccce : Int32) = SvcClass.CSvcTest2.mqKey from rfl,
        request_weight]
      simp only [hnot, false_and, if_false]
      omega
  | kept htakes _ htype _ hret =>
    rw [(served_request hs hc htakes htype).1] at hret
    exact absurd hret (by decide)
  | @held x rest svc htakes hperm htype hclass hfree hmaps hframes hq =>
    obtain ⟨_, _, _, _, hreg, _⟩ := freeHandler_eq_some hv hfree
    obtain ⟨hfirst, hask⟩ := askMsg_first hc hv hclass hreg
    have hserial := handler_index_ne_zero hv.numbered hreg
    have hsuspends := suspends_held hv hfree hmaps hframes t
    have htaken := stands_take hperm t
    rw [request_weight] at htaken
    obtain ⟨_, ⟨hclient, _⟩ | ⟨hclass', _⟩⟩ := served_request hs hc htakes htype
    · have hnot : ¬IsClient (cmdMsg REQUEST.toInt { iSvcSerialNo := svc.m_iIndex, iCmd := svc.m_iCmd }) := by
        intro h
        rcases hfirst.kind with ⟨_, hcmd⟩ | ⟨_, h0, _⟩ | ⟨hreply, _⟩
        · exact absurd (hask.iCmd.symm.trans hcmd) (by decide)
        · rw [h.iType] at h0
          exact absurd h0 (by decide)
        · exact hreply.not_ask hask
      simp only [hclient, true_and] at htaken
      rw [hq, tally_offer, show (0xccccd : Int32) = SvcClass.CSvcTest.mqKey from rfl, request_weight]
      simp only [hnot, false_and, if_false, ite_self]
      omega
    · rw [hclass] at hclass'
      contradiction
  | @resumed x rest svc obj3 key m htakes hperm htype hclass hfind hframe hr hmaps hframes hq =>
    have hr := hr (hs.inv.plain c hc _ _ hframe)
    obtain ⟨hkey, hmt⟩ := hr.back rfl
    have hsuspends := suspends_released hv hfind hframe hmaps hframes t
    have htaken := stands_take hperm t
    have hnotx : ¬IsClient x := fun h => absurd (h.iType.symm.trans htype) (by decide)
    rw [request_weight] at htaken
    simp only [hnotx, false_and, if_false] at htaken
    have hsender : m.cmd.sender = obj3.sender := hr.sender
    rw [hq, tally_offer, if_pos ⟨rfl, by rw [hmt]; decide⟩, hkey, answer_weight, hsender]
    omega

/-- What a step adds to a service queue is no client's request. -/
theorem fire_added (h : FireCase s.queues c true c' queues') (svc : SvcClass) {y : QMsg}
    (hy : y ∈ queues' svc.mqKey) :
    y ∈ s.queues svc.mqKey ∨ (¬IsClient y ∧ (svc = .CSvcTest → y.mtype = REQUEST.toInt)) := by
  have hv := hs.inv.valid c hc
  have hback := (mqKey_mem svc).2
  cases h with
  | idle _ _ hq => exact Or.inl (hq ▸ hy)
  | replied htakes hperm htype _ hr _ _ hq =>
    obtain ⟨_, hnot, hplace⟩ := served_reply hs hc htakes htype (hr (taken_plain hs.inv hc htakes))
    rw [hq] at hy
    rcases mem_offer hy with hy | ⟨hkey, rfl, _⟩
    · exact Or.inl (mem_take hperm hy)
    · refine Or.inr ⟨hnot, fun hsvc => ?_⟩
      rcases hplace with ⟨_, hk, _⟩ | ⟨_, hk, _⟩
      · exact absurd (hkey.trans hk) hback
      · rw [hk, hsvc] at hkey
        exact absurd hkey (by decide)
  | kept _ hperm _ _ _ _ _ _ hq => exact Or.inl (mem_take hperm (hq ▸ hy))
  | held _ hperm _ hclass hfree _ _ hq =>
    obtain ⟨_, _, _, _, hreg, _⟩ := freeHandler_eq_some hv hfree
    obtain ⟨hfirst, hask⟩ := askMsg_first hc hv hclass hreg
    rw [hq] at hy
    rcases mem_offer hy with hy | ⟨_, rfl, _⟩
    · exact Or.inl (mem_take hperm hy)
    · refine Or.inr ⟨fun h => ?_, fun _ => rfl⟩
      rcases hfirst.kind with ⟨_, hcmd⟩ | ⟨_, h0, _⟩ | ⟨hreply, _⟩
      · exact absurd (hask.iCmd.symm.trans hcmd) (by decide)
      · exact absurd (h.iType.symm.trans h0) (by decide)
      · exact hreply.not_ask hask
  | resumed _ hperm _ _ _ hframe hr _ _ hq =>
    have hkey := ((hr (hs.inv.plain c hc _ _ hframe)).back rfl).1
    rw [hq] at hy
    rcases mem_offer hy with hy | ⟨hk, _⟩
    · exact Or.inl (mem_take hperm hy)
    · exact absurd (hk.trans hkey) hback

end

/-- A process of svc_test keeps no handler. -/
theorem fire_idle {s : Backend} (hs : Served s) {c c' : Container} (hc : c ∈ s.procs)
    {queues' : Int32 → List QMsg} (h : FireCase s.queues c true c' queues') (hclass : c.svc = .CSvcTest) :
    c'.dispatcher.maps = c.dispatcher.maps := by
  cases h with
  | idle _ hcc => rw [hcc]
  | replied _ _ _ _ _ hmaps => exact hmaps
  | kept htakes _ htype _ hret =>
    rw [(served_request hs hc htakes htype).1] at hret
    exact absurd hret (by decide)
  | held _ _ _ hclass' => cases hclass.symm.trans hclass'
  | resumed _ _ _ hclass' => cases hclass.symm.trans hclass'

theorem served_fire {s s' : Backend} (hs : Served s) {front back : List Container} {c c' : Container}
    (hprocs : s.procs = front ++ c :: back) (hprocs' : s'.procs = front ++ c' :: back)
    (hentered : s'.entered = s.entered) (h : c.onEventFire s.queues true = .ok (c', s'.queues)) :
    Served s' := by
  have hc : c ∈ s.procs := hprocs ▸ by simp
  have hcase := fire_case (hs.inv.valid c hc) (hs.inv.text c.svc) h
  have hsvc : c'.svc = c.svc := (fire_static (hs.inv.valid c hc) (hs.inv.text c.svc) h).1.1
  refine ⟨fire_inv hs.inv hprocs hprocs' (served_fits hs hc true) h, ?_, ?_, ?_, ?_, ?_⟩
  · intro svc x hx hclient
    rcases fire_added hs hc hcase svc hx with hx | ⟨hnot, _⟩
    · exact hs.zero svc x hx hclient
    · exact absurd hclient hnot
  · intro x hx
    rcases fire_added hs hc hcase .CSvcTest hx with hx | ⟨_, hmt⟩
    · exact hs.calls x hx
    · exact hmt rfl
  · rw [hprocs']
    refine forall_replace (hprocs ▸ hs.idle) ?_
    intro hclass k
    rw [hsvc] at hclass
    rw [(Prod.mk.inj (fire_idle hs hc hcase hclass)).2]
    exact hs.idle c hc hclass k
  · intro k
    have hold := hs.balance k
    have hstep := fire_balance hs hc hcase k
    have hbusy := busy_replace front back c c' k
    rw [hprocs] at hold
    rw [hprocs']
    omega
  · intro t
    have hold := hs.places t
    have hstep := fire_places hs hc hcase t
    rw [hprocs, List.map_append, List.map_cons, List.sum_append, List.sum_cons] at hold
    rw [hprocs', hentered, List.map_append, List.map_cons, List.sum_append, List.sum_cons]
    omega

theorem served_enter {s : Backend} (hs : Served s) {oCmd : CCmd} {addr : InAddr} {key : Int32}
    (hen : (BackendLabel.enter oCmd addr).enabled) (hkey : routeCmd oCmd.iCmd = some key)
    (hret : oCmd.iRet = 0) (hserial : oCmd.iSvcSerialNo = 0) : Served (s.enter key oCmd) := by
  have hip : PlainIp oCmd.sClientIp := hen.2 ▸ inetNtoa_plain addr
  have hh := cmdMsg_header REQUEST.toInt hip
  obtain ⟨hmret, htype, hindex, hmserial, hcmd, hfd, hfamily, hcliIp, hport⟩ := Header.mk.inj hh
  have hclient : IsClient (cmdMsg REQUEST.toInt oCmd) := ⟨rfl, htype.trans hen.1⟩
  have hsender : (cmdMsg REQUEST.toInt oCmd).cmd.sender = oCmd.sender := by
    simp only [CCmd.sender, hindex, hfd, hfamily, hcliIp, hport, hcmd]
  obtain ⟨svc, rfl⟩ : ∃ svc : SvcClass, key = svc.mqKey := by
    rcases routeCmd_eq_some hkey with ⟨_, rfl⟩ | ⟨_, rfl⟩
    · exact ⟨.CSvcTest, rfl⟩
    · exact ⟨.CSvcTest2, rfl⟩
  refine ⟨enter_inv hs.inv hen hkey, ?_, ?_, hs.idle, ?_, ?_⟩
  · intro svc' x hx hc
    rcases mem_enter hx with hx | ⟨_, rfl⟩
    · exact hs.zero svc' x hx hc
    · exact ⟨hmserial.trans hserial, hmret.trans hret⟩
  · intro x hx
    rcases mem_enter hx with hx | ⟨_, rfl⟩
    · exact hs.calls x hx
    · rfl
  · intro k
    have hzero := enter_weight hip hkey hclient k
    have happend : outstanding (s.enter svc.mqKey oCmd).queues k = outstanding s.queues k + _ :=
      tally_append (cmdMsg REQUEST.toInt oCmd)
    have hold : outstanding s.queues k = busy (s.enter svc.mqKey oCmd).procs k := hs.balance k
    omega
  · intro t
    have happend : tally msgqKeys (standsFor t) (s.enter svc.mqKey oCmd).queues =
        tally msgqKeys (standsFor t) s.queues + _ := tally_append (cmdMsg REQUEST.toInt oCmd)
    have hold : tally msgqKeys (standsFor t) s.queues +
        ((s.enter svc.mqKey oCmd).procs.map (·.suspends t)).sum = _ := hs.places t
    have hentered : (s.enter svc.mqKey oCmd).entered = s.entered ++ [oCmd] := rfl
    rw [request_weight, hsender] at happend
    simp only [hclient, true_and] at happend
    rw [hentered, List.map_append, List.count_append, List.map_singleton, List.count_singleton]
    simp only [beq_iff_eq]
    omega

theorem served_step {s s' : Backend} {l : BackendLabel} (hs : Served s) (hl : plainRun s l)
    (h : backend.step s l s') : Served s' := by
  cases backend_step_case h with
  | enter htype hip hkey => exact served_enter hs ⟨htype, hip⟩ hkey hl.1 hl.2
  | absent => exact hs
  | @fire i sent _ _ _ _ _ _ hprocs hprocs' hentered hon =>
    obtain rfl : sent = true := hl
    exact served_fire hs hprocs hprocs' hentered hon
  | drain => exact hl.elim

theorem served_start {s : Backend} (h : BackendStart s) : Served s := by
  have hi := backend_start_inv h
  have hidle := start_idle h
  have hnone : ∀ f : Container → Nat, (∀ c ∈ s.procs, f c = 0) → (s.procs.map f).sum = 0 := by
    intro f hf
    exact List.sum_eq_zero (by simpa using hf)
  refine ⟨hi, ?_, ?_, fun c hc _ => hidle c hc, ?_, ?_⟩
  · intro svc x hx
    rw [h.queues] at hx
    exact absurd hx List.not_mem_nil
  · intro x hx
    rw [h.queues] at hx
    exact absurd hx List.not_mem_nil
  · intro k
    have hbusy : busy s.procs k = 0 := hnone _ fun c hc => by simp [Container.holds, hidle c hc k]
    rw [hbusy, outstanding, tally_nil h.queues]
  · intro t
    have hheld : (s.procs.map (·.suspends t)).sum = 0 := by
      refine hnone _ fun c hc => ?_
      have hempty : c.dispatcher.m_mapStatefulSvcQueue.entries = [] := by
        refine List.eq_nil_iff_forall_not_mem.mpr fun e he => ?_
        exact SortedMap.find?_eq_none_iff.mp (hidle c hc e.1) e he rfl
      simp [Container.suspends, hempty]
    rw [hheld, tally_nil h.queues, h.entered]
    rfl

theorem served_reach {s : Backend} (h : backend.Reach plainRun s) : Served s :=
  h.invariant (fun _ => served_start) (fun _ _ _ hs hl h => served_step hs hl h)

theorem tally_msgqKeys (p : Int32 → QMsg → Bool) (queues : Int32 → List QMsg) :
    tally msgqKeys p queues = (queues 0xccccd).countP (p 0xccccd) +
      (queues 0xcccce).countP (p 0xcccce) +
      (queues NET_IO_BACK_MSQ_KEY).countP (p NET_IO_BACK_MSQ_KEY) := by
  have h1 : (0xccccd : Int32) ∉ ({0xcccce, NET_IO_BACK_MSQ_KEY} : Finset Int32) := by decide
  have h2 : (0xcccce : Int32) ∉ ({NET_IO_BACK_MSQ_KEY} : Finset Int32) := by decide
  rw [tally, msgqKeys, Finset.sum_insert h1, Finset.sum_insert h2, Finset.sum_singleton, Nat.add_assoc]

theorem count_places (s : Backend) (t : Sender) :
    (s.queuedRequests ++ s.heldRequests ++ s.answeredRequests).count t =
      tally msgqKeys (standsFor t) s.queues + (s.procs.map (·.suspends t)).sum := by
  have hqueued : ∀ (key : Int32) (l : List QMsg), key ≠ NET_IO_BACK_MSQ_KEY →
      ((l.filter (fun x => IsClient x)).map (·.cmd.sender)).count t = l.countP (standsFor t key) := by
    intro key l hkey
    rw [List.count_eq_countP, List.countP_map, List.countP_filter]
    refine List.countP_congr fun x _ => ?_
    simp [standsFor, hkey, and_comm]
  have hanswered : s.answeredRequests.count t =
      (s.queues NET_IO_BACK_MSQ_KEY).countP (standsFor t NET_IO_BACK_MSQ_KEY) := by
    rw [Backend.answeredRequests, List.count_eq_countP, List.countP_map]
    refine List.countP_congr fun x _ => ?_
    simp [standsFor]
  have hheld : s.heldRequests.count t = (s.procs.map (·.suspends t)).sum := by
    rw [Backend.heldRequests, List.count_flatMap]
    refine congrArg List.sum (List.map_congr_left fun c _ => ?_)
    rw [Function.comp_apply, Container.heldRequests, List.count_eq_countP, List.countP_filterMap]
    refine List.countP_congr fun e _ => ?_
    cases (c.frames e.1).sender <;> simp
  rw [List.count_append, List.count_append, hheld, hanswered, tally_msgqKeys, Backend.queuedRequests,
    List.filter_append, List.map_append, List.count_append, hqueued 0xccccd _ (by decide),
    hqueued 0xcccce _ (by decide)]
  omega

/-- The messages with a handler's number are those it waits for. -/
theorem inFlight_eq {s : Backend} (hs : Served s) {c : Container} {k : Int32} (hk : k ≠ 0)
    (hpid : pidOf k = c.pid) : c.inFlight s.queues k = outstanding s.queues k := by
  have hfirst : (s.queues 0xccccd).countP (fun x => x.cmd.iSvcSerialNo = k) =
      (s.queues 0xccccd).countP (awaits k 0xccccd) := by
    refine List.countP_congr fun x hx => ?_
    simp only [awaits, decide_eq_true_eq, true_and, show (0xccccd : Int32) ≠ 0xcccce by decide,
      false_and, or_false]
    refine ⟨fun hserial => ?_, fun hask => hask.serial⟩
    rcases (hs.inv.first x hx).kind with ⟨hclient, _⟩ | ⟨hask, _⟩ | ⟨hreply, _⟩
    · exact absurd (hserial.symm.trans (hs.zero .CSvcTest x hx hclient).1) hk
    · exact hserial ▸ hask
    · exact absurd (hreply.mtype.symm.trans (hs.calls x hx)) (appType_ne_request _)
  have hsecond : (s.queues 0xcccce).countP
        (fun x => x.mtype = appType c.pid ∧ x.cmd.iSvcSerialNo = k) =
      (s.queues 0xcccce).countP (awaits k 0xcccce) := by
    refine List.countP_congr fun x _ => ?_
    simp only [awaits, decide_eq_true_eq, true_and, show (0xcccce : Int32) ≠ 0xccccd by decide,
      false_and, false_or]
    exact ⟨fun h => ⟨hpid ▸ h.1, h.2⟩, fun h => ⟨hpid ▸ h.mtype, h.serial⟩⟩
  have hback : (s.queues NET_IO_BACK_MSQ_KEY).countP (awaits k NET_IO_BACK_MSQ_KEY) = 0 := by
    refine List.countP_eq_zero.mpr fun x _ => ?_
    simp only [awaits, decide_eq_true_eq]
    rintro (⟨h, _⟩ | ⟨h, _⟩) <;> exact absurd h (by decide)
  rw [Container.inFlight, hfirst, hsecond, outstanding, tally_msgqKeys, hback]
  rfl

/-- Every request that has entered is queued, held by one suspended handler or
answered by one message, a handler is in the stateful map exactly while one
message with its number is under way, and no process stops. -/
theorem requests_in_one_place {s : Backend} (h : backend.Reach plainRun s) :
    (s.entered.map (·.sender)).Perm (s.queuedRequests ++ s.heldRequests ++ s.answeredRequests) ∧
    (∀ c ∈ s.procs, ∀ svc ∈ c.registered,
      (c.dispatcher.m_mapStatefulSvcQueue.find? svc.m_iIndex = some svc ↔
        c.inFlight s.queues svc.m_iIndex = 1) ∧ c.inFlight s.queues svc.m_iIndex ≤ 1) ∧
    (∀ c ∈ s.procs, ∀ k svc, c.dispatcher.m_mapStatefulSvcQueue.find? k = some svc →
      svc.svc = .CSvcTest2 ∧ ∃ obj3, c.frames k = .suspended obj3) ∧
    ∀ c ∈ s.procs, ∃ r, c.onEventFire s.queues true = .ok r := by
  have hs := served_reach h
  refine ⟨List.perm_iff_count.mpr fun t => ?_, ?_, ?_, fun c hc => fire_goes_through hs.inv hc true⟩
  · rw [count_places, hs.places t]
  · intro c hc svc hreg
    have hv := hs.inv.valid c hc
    have hpid := handler_pid hv.numbered hreg
    have hbalance := hs.balance svc.m_iIndex
    rw [inFlight_eq hs (handler_index_ne_zero hv.numbered hreg) hpid, hbalance,
      busy_eq_holds hs.inv hc hpid]
    unfold Container.holds
    rcases hv.partitioned.one svc hreg with ⟨_, hfind⟩ | ⟨_, hfind⟩
    · simp [hfind]
    · simp [hfind]
  · intro c hc k svc hfind
    have hv := hs.inv.valid c hc
    obtain ⟨hreg, _⟩ := hv.partitioned.busy k svc hfind
    have hbusy := hv.busy k svc hfind
    have hsvc := (handler_index hv.numbered hreg).1
    cases hclass : c.svc with
    | CSvcTest =>
      rw [hs.idle c hc hclass k] at hfind
      contradiction
    | CSvcTest2 =>
      rw [hclass] at hbusy hsvc
      exact ⟨hsvc, hbusy⟩

theorem requests_in_one_place_held :
    ∃ s : Backend, (s.queuedRequests.length = 1 ∧ s.heldRequests.length = 1) ∧
    ((s.entered.map (·.sender)).Perm (s.queuedRequests ++ s.heldRequests ++ s.answeredRequests) ∧
    (∀ c ∈ s.procs, ∀ svc ∈ c.registered,
      (c.dispatcher.m_mapStatefulSvcQueue.find? svc.m_iIndex = some svc ↔
        c.inFlight s.queues svc.m_iIndex = 1) ∧ c.inFlight s.queues svc.m_iIndex ≤ 1) ∧
    (∀ c ∈ s.procs, ∀ k svc, c.dispatcher.m_mapStatefulSvcQueue.find? k = some svc →
      svc.svc = .CSvcTest2 ∧ ∃ obj3, c.frames k = .suspended obj3) ∧
    ∀ c ∈ s.procs, ∃ r, c.onEventFire s.queues true = .ok r) := by
  obtain ⟨s, hs, hp⟩ := sampleBackend_reach plainRun
    [.enter { iType := REQUEST, iCmd := 2, iFd := 5, sClientIp := bytes "10.0.0.1" } ⟨10, 0, 0, 1⟩,
      .enter { iType := REQUEST, iCmd := 1, iFd := 6, sClientIp := bytes "10.0.0.1" } ⟨10, 0, 0, 1⟩,
      .fire 1 true]
    (fun s => s.queuedRequests.length = 1 ∧ s.heldRequests.length = 1) (by decide +kernel)
  exact ⟨s, of_decide_eq_true hp, requests_in_one_place hs⟩

end NetioMiddleware

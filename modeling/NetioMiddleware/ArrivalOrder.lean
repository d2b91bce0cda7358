import NetioMiddleware.PlainSteps

namespace NetioMiddleware

/-- Taking the first message of a type takes the first of those that only this type has. -/
theorem TakenFrom.filter {queue rest : List QMsg} {x : QMsg} (h : TakenFrom queue x rest)
    {p : QMsg → Prop} [DecidablePred p] {t : Int} (hp : ∀ y, p y → y.mtype = t) :
    queue.filter (fun y => p y) = (if p x then [x] else []) ++ rest.filter (fun y => p y) := by
  obtain ⟨before, after, rfl, rfl, hbefore⟩ := h
  by_cases hx : p x
  · have hnone : before.filter (fun y => p y) = [] := by
      refine List.filter_eq_nil_iff.mpr fun y hy hpy => ?_
      have hpy : p y := by simpa using hpy
      exact hbefore y hy ((hp y hpy).trans (hp x hx).symm)
    simp [hx, hnone]
  · simp [hx]

/-- The clients' requests in the queue of a service, in the order of the queue. -/
def clientsIn (queues : Int32 → List QMsg) (svc : SvcClass) : List Sender :=
  ((queues svc.mqKey).filter (fun x => IsClient x)).map (·.cmd.sender)

/-- The requests for a service among others. -/
def forService (svc : SvcClass) (l : List Sender) : List Sender :=
  l.filter (fun t => routeCmd t.iCmd = some svc.mqKey)

/-- The requests answered in netio's queue, in the order of the answers. -/
def answeredIn (queues : Int32 → List QMsg) : List Sender :=
  (queues NET_IO_BACK_MSQ_KEY).map (·.cmd.sender)

theorem mqKey_injective {svc svc' : SvcClass} (h : svc.mqKey = svc'.mqKey) : svc = svc' := by
  cases svc <;> cases svc' <;> first | rfl | exact absurd h (by decide)

theorem clientsIn_update_of_ne {queues : Int32 → List QMsg} {key : Int32} {q : List QMsg} {svc : SvcClass}
    (h : svc.mqKey ≠ key) : clientsIn (Function.update queues key q) svc = clientsIn queues svc := by
  rw [clientsIn, Function.update_of_ne h, clientsIn]

/-- A message that is no client's request hides nothing and shows nothing. -/
theorem clientsIn_offer {queues : Int32 → List QMsg} {key : Int32} {m : QMsg} (hnot : ¬IsClient m)
    (svc : SvcClass) : clientsIn (offer queues key m true) svc = clientsIn queues svc := by
  unfold offer
  split
  next =>
    by_cases hkey : svc.mqKey = key
    · subst hkey
      rw [clientsIn, Function.update_self, List.filter_append, List.filter_cons_of_neg (by simpa using hnot),
        List.filter_nil, List.append_nil, clientsIn]
    · exact clientsIn_update_of_ne hkey
  next => rfl

theorem clientsIn_taken {queues : Int32 → List QMsg} {svc : SvcClass} {x : QMsg} {rest : List QMsg}
    (h : TakenFrom (queues svc.mqKey) x rest) : clientsIn queues svc =
      (if IsClient x then [x.cmd.sender] else []) ++
        clientsIn (Function.update queues svc.mqKey rest) svc := by
  rw [clientsIn, h.filter (fun y hy => IsClient.mtype hy), List.map_append, clientsIn, Function.update_self]
  split <;> rfl

theorem answeredIn_offer {queues : Int32 → List QMsg} {key : Int32} {m : QMsg} (hm : 0 < m.mtype) :
    answeredIn (offer queues key m true) =
      answeredIn queues ++ if key = NET_IO_BACK_MSQ_KEY then [m.cmd.sender] else [] := by
  rw [offer, if_pos ⟨rfl, hm⟩, answeredIn]
  by_cases hkey : key = NET_IO_BACK_MSQ_KEY
  · subst hkey
    rw [Function.update_self, if_pos rfl, List.map_append, answeredIn, List.map_singleton]
  · rw [Function.update_of_ne (Ne.symm hkey), if_neg hkey, List.append_nil, answeredIn]

theorem answeredIn_taken (queues : Int32 → List QMsg) (svc : SvcClass) (rest : List QMsg) :
    answeredIn (Function.update queues svc.mqKey rest) = answeredIn queues := by
  rw [answeredIn, Function.update_of_ne (mqKey_mem svc).2.symm, answeredIn]

/-- What one OnEventFire takes from the front of its queue, and what it answers. -/
structure Passes (s : Backend) (c c' : Container) (queues' : Int32 → List QMsg) (gone answers : List Sender) :
    Prop where
  own : clientsIn s.queues c.svc = gone ++ clientsIn queues' c.svc
  others : ∀ svc, svc ≠ c.svc → clientsIn queues' svc = clientsIn s.queues svc
  back : answeredIn queues' = answeredIn s.queues ++ answers
  routed : ∀ t ∈ answers, routeCmd t.iCmd = some c.svc.mqKey
  first : c.svc = .CSvcTest → answers = gone
  held : ∀ k obj3, c'.frames k = .suspended obj3 → c.frames k = .suspended obj3 ∨
    routeCmd obj3.iCmd = some SvcClass.CSvcTest2.mqKey

theorem passes_of_taken {s : Backend} {c c' : Container} {queues' : Int32 → List QMsg} {x m : QMsg}
    {rest : List QMsg} {key : Int32} (htaken : TakenFrom (s.queues c.svc.mqKey) x rest)
    (hnot : ¬IsClient m) (hm : 0 < m.mtype)
    (hq : queues' = offer (Function.update s.queues c.svc.mqKey rest) key m true)
    (hroute : key = NET_IO_BACK_MSQ_KEY → routeCmd m.cmd.sender.iCmd = some c.svc.mqKey)
    (hfirst : c.svc = .CSvcTest → (key = NET_IO_BACK_MSQ_KEY ↔ IsClient x) ∧
      (IsClient x → m.cmd.sender = x.cmd.sender))
    (hheld : ∀ k obj3, c'.frames k = .suspended obj3 → c.frames k = .suspended obj3 ∨
      routeCmd obj3.iCmd = some SvcClass.CSvcTest2.mqKey) :
    Passes s c c' queues' (if IsClient x then [x.cmd.sender] else [])
      (if key = NET_IO_BACK_MSQ_KEY then [m.cmd.sender] else []) := by
  refine ⟨?_, ?_, ?_, ?_, ?_, hheld⟩
  · rw [hq, clientsIn_offer hnot]
    exact clientsIn_taken htaken
  · intro svc hne
    rw [hq, clientsIn_offer hnot]
    exact clientsIn_update_of_ne fun h => hne (mqKey_injective h)
  · rw [hq, answeredIn_offer hm, answeredIn_taken]
  · intro t ht
    split at ht
    next hkey => exact List.mem_singleton.mp ht ▸ hroute hkey
    next => contradiction
  · intro hclass
    obtain ⟨hkey, hsame⟩ := hfirst hclass
    by_cases hx : IsClient x
    · rw [if_pos hx, if_pos (hkey.mpr hx), hsame hx]
    · rw [if_neg hx, if_neg fun h => hx (hkey.mp h)]

theorem routed_of_client {s : Backend} (hs : Served s) {c : Container} (hc : c ∈ s.procs) {x : QMsg}
    (htakes : c.takes s.queues = some x) (hclient : IsClient x) :
    routeCmd x.cmd.iCmd = some c.svc.mqKey := by
  have htype : x.cmd.iType ≠ RESPONSE := by
    rw [hclient.iType]
    decide
  rcases taken_request hs.inv hc htakes htype with ⟨_, hroute⟩ | ⟨_, _, _, hne, _⟩
  · exact hroute
  · exact absurd (hs.zero c.svc x (takes_mem htakes).1 hclient).1 hne

/-- The requests handlers hold are for svc_test2. -/
def HeldRouted (s : Backend) : Prop :=
  ∀ c ∈ s.procs, ∀ k obj3, c.frames k = .suspended obj3 →
    routeCmd obj3.iCmd = some SvcClass.CSvcTest2.mqKey

theorem fire_passes {s : Backend} (hs : Served s) (hheld : HeldRouted s) {c c' : Container}
    (hc : c ∈ s.procs) {queues' : Int32 → List QMsg} (h : PlainStep s c c' queues') :
    ∃ gone answers, Passes s c c' queues' gone answers := by
  have hv := hs.inv.valid c hc
  have starts : ∀ {k' : Int32}, c'.frames = Function.update c.frames k' .start → ∀ k obj3,
      c'.frames k = .suspended obj3 → c.frames k = .suspended obj3 := by
    intro k' hf k obj3 hk
    rw [hf] at hk
    by_cases hkk : k = k'
    · rw [hkk, Function.update_self] at hk
      cases hk
    · rwa [Function.update_of_ne hkk] at hk
  cases h with
  | idle _ hcc hq =>
    exact ⟨[], [], by rw [hq]; rfl, fun _ _ => by rw [hq], by rw [hq, List.append_nil], by simp, by simp,
      fun k obj3 hk => Or.inl (hcc ▸ hk)⟩
  | @reply x rest key m htakes htaken htype hto _ hframes hq =>
    have hr := reply_repliesTo hs hc htakes hto
    obtain ⟨⟨_, hm⟩, hnot, hplace⟩ := served_reply hs hc htakes htype hr
    have hkey : key = NET_IO_BACK_MSQ_KEY ↔ IsClient x := by
      rcases hplace with ⟨hclient, hkey, _⟩ | ⟨hnotx, hkey, _⟩
      · exact ⟨fun _ => hclient, fun _ => hkey⟩
      · exact ⟨fun h => absurd (hkey.symm.trans h) (by decide), fun h => absurd h hnotx⟩
    refine ⟨_, _, passes_of_taken htaken hnot hm hq ?_ ?_ ?_⟩
    · intro h
      rw [hr.sender]
      exact routed_of_client hs hc htakes (hkey.mp h)
    · exact fun _ => ⟨hkey, fun _ => hr.sender⟩
    · exact fun k obj3 hk => Or.inl (hframes ▸ hk)
  | @hold x rest svc htakes htaken hclient hclass hfree _ hframes hq =>
    obtain ⟨_, _, _, _, hreg, _⟩ := freeHandler_eq_some hv hfree
    refine ⟨_, _, passes_of_taken htaken (askMsg_not_client hc hv hclass hreg)
      (show (0 : Int) < REQUEST.toInt by decide) hq ?_ ?_ ?_⟩
    · exact fun h => absurd h (by decide)
    · exact fun h => by rw [hclass] at h; contradiction
    · intro k obj3 hk
      rw [hframes] at hk
      by_cases hkk : k = svc.m_iIndex
      · rw [hkk, Function.update_self] at hk
        cases hk
        right
        rw [← hclass]
        exact routed_of_client hs hc htakes hclient
      · rw [Function.update_of_ne hkk] at hk
        exact Or.inl hk
  | @resume x rest svc obj3 htakes htaken htype hclass _ hframe _ hframes hq =>
    have hip : PlainIp (svcTest2End obj3 x.cmd).sClientIp :=
      show PlainIp obj3.sClientIp from hs.inv.plain c hc _ _ hframe
    have hr := replyTo_repliesTo hip (replyTo_end c.pid obj3 x.cmd)
    have hnot : ¬IsClient (cmdMsg RESPONSE.toInt (backCmd c.pid (svcTest2End obj3 x.cmd))) :=
      fun hclient => absurd (hclient.iType.symm.trans hr.iType) (by decide)
    refine ⟨_, _, passes_of_taken htaken hnot (show (0 : Int) < RESPONSE.toInt by decide) hq ?_ ?_ ?_⟩
    · intro _
      rw [hr.sender, hclass]
      change routeCmd obj3.iCmd = _
      exact hheld c hc _ _ hframe
    · exact fun h => by rw [hclass] at h; contradiction
    · exact fun k obj3 hk => Or.inl (starts hframes k obj3 hk)

/-- The requests are taken in the order in which they entered, and svc_test
answers them in this order. -/
structure InOrder (s : Backend) : Prop where
  served : Served s
  held : HeldRouted s
  first : forService .CSvcTest (answeredIn s.queues) ++ clientsIn s.queues .CSvcTest =
    forService .CSvcTest (s.entered.map (·.sender))
  second : ∃ taken, taken ++ clientsIn s.queues .CSvcTest2 =
    forService .CSvcTest2 (s.entered.map (·.sender))

theorem forService_append (svc : SvcClass) (l l' : List Sender) :
    forService svc (l ++ l') = forService svc l ++ forService svc l' := List.filter_append ..

theorem forService_own {svc : SvcClass} {l : List Sender}
    (h : ∀ t ∈ l, routeCmd t.iCmd = some svc.mqKey) : forService svc l = l :=
  List.filter_eq_self.mpr fun t ht => by simpa using h t ht

theorem forService_other {svc svc' : SvcClass} {l : List Sender} (hne : svc ≠ svc')
    (h : ∀ t ∈ l, routeCmd t.iCmd = some svc'.mqKey) : forService svc l = [] := by
  refine List.filter_eq_nil_iff.mpr fun t ht hroute => hne ?_
  have hroute : routeCmd t.iCmd = some svc.mqKey := by simpa using hroute
  exact mqKey_injective (Option.some.inj (hroute.symm.trans (h t ht)))

theorem order_fire {s s' : Backend} (hs : InOrder s) {front back : List Container} {c c' : Container}
    (hprocs : s.procs = front ++ c :: back) (hprocs' : s'.procs = front ++ c' :: back)
    (hentered : s'.entered = s.entered) (h : c.onEventFire s.queues true = .ok (c', s'.queues)) :
    InOrder s' := by
  have hc : c ∈ s.procs := hprocs ▸ by simp
  obtain ⟨gone, answers, hp⟩ := fire_passes hs.served hs.held hc (plain_step hs.served hc h)
  refine ⟨served_fire hs.served hprocs hprocs' hentered h, ?_, ?_, ?_⟩
  · have hheld := hs.held
    unfold HeldRouted at hheld ⊢
    rw [hprocs] at hheld
    rw [hprocs']
    refine forall_replace hheld fun k obj3 hk => ?_
    exact (hp.held k obj3 hk).elim (hs.held c hc k obj3) id
  · rw [hentered, ← hs.first, hp.back, forService_append, List.append_assoc]
    cases hclass : c.svc with
    | CSvcTest =>
      have hown := hp.own
      have hrouted := hp.routed
      rw [hclass] at hown hrouted
      rw [forService_own hrouted, hown, hp.first hclass]
    | CSvcTest2 =>
      have hrouted := hp.routed
      rw [hclass] at hrouted
      rw [forService_other (by decide) hrouted, hp.others .CSvcTest (by rw [hclass]; decide),
        List.nil_append]
  · obtain ⟨taken, htaken⟩ := hs.second
    rw [hentered, ← htaken]
    cases hclass : c.svc with
    | CSvcTest => exact ⟨taken, by rw [hp.others .CSvcTest2 (by rw [hclass]; decide)]⟩
    | CSvcTest2 =>
      have hown := hp.own
      rw [hclass] at hown
      exact ⟨taken ++ gone, by rw [hown, List.append_assoc]⟩

theorem clientsIn_enter {s : Backend} {oCmd : CCmd} {key : Int32} (hip : PlainIp oCmd.sClientIp)
    (htype : oCmd.iType = REQUEST) (svc : SvcClass) :
    clientsIn (s.enter key oCmd).queues svc =
      clientsIn s.queues svc ++ if svc.mqKey = key then [oCmd.sender] else [] := by
  obtain ⟨_, hmtype, hindex, _, hcmd, hfd, hfamily, hcliIp, hport⟩ :=
    Header.mk.inj (cmdMsg_header REQUEST.toInt hip)
  have hclient : IsClient (cmdMsg REQUEST.toInt oCmd) := ⟨rfl, hmtype.trans htype⟩
  have hsender : (cmdMsg REQUEST.toInt oCmd).cmd.sender = oCmd.sender := by
    simp only [CCmd.sender, hindex, hfd, hfamily, hcliIp, hport, hcmd]
  dsimp only [Backend.enter]
  by_cases hkey : svc.mqKey = key
  · subst hkey
    rw [clientsIn, Function.update_self, List.filter_append, List.filter_cons_of_pos (by simpa using hclient),
      List.filter_nil, List.map_append, List.map_singleton, hsender, if_pos rfl, clientsIn]
  · rw [clientsIn_update_of_ne hkey, if_neg hkey, List.append_nil]

theorem forService_enter {s : Backend} {oCmd : CCmd} {key : Int32} (hkey : routeCmd oCmd.iCmd = some key)
    (svc : SvcClass) : forService svc ((s.enter key oCmd).entered.map (·.sender)) =
      forService svc (s.entered.map (·.sender)) ++ if svc.mqKey = key then [oCmd.sender] else [] := by
  have hcmd : routeCmd oCmd.sender.iCmd = some key := hkey
  have hone : forService svc [oCmd.sender] = if svc.mqKey = key then [oCmd.sender] else [] := by
    simp [forService, List.filter_cons, hcmd, eq_comm]
  rw [Backend.enter, List.map_append, List.map_singleton, forService_append, hone]

theorem order_enter {s : Backend} (hs : InOrder s) {oCmd : CCmd} {addr : InAddr} {key : Int32}
    (hen : (BackendLabel.enter oCmd addr).enabled) (hkey : routeCmd oCmd.iCmd = some key)
    (hplain : plainRun s (.enter oCmd addr)) : InOrder (s.enter key oCmd) := by
  have hip : PlainIp oCmd.sClientIp := hen.2 ▸ inetNtoa_plain addr
  have hback : key ≠ NET_IO_BACK_MSQ_KEY := route_ne_back hkey
  have hanswered : answeredIn (s.enter key oCmd).queues = answeredIn s.queues := by
    dsimp only [Backend.enter]
    rw [answeredIn, Function.update_of_ne hback.symm, answeredIn]
  refine ⟨served_enter hs.served hen hkey hplain.1 hplain.2, hs.held, ?_, ?_⟩
  · rw [forService_enter hkey, ← hs.first, hanswered, clientsIn_enter hip hen.1, List.append_assoc]
  · obtain ⟨taken, htaken⟩ := hs.second
    refine ⟨taken, ?_⟩
    rw [forService_enter hkey, ← htaken, clientsIn_enter hip hen.1, List.append_assoc]

theorem order_start {s : Backend} (h : BackendStart s) : InOrder s := by
  have hnone : ∀ svc, clientsIn s.queues svc = [] := fun svc => by simp [clientsIn, h.queues]
  refine ⟨served_start h, ?_, ?_, ⟨[], ?_⟩⟩
  · intro c hc k obj3 hk
    rw [h.started c hc] at hk
    cases hk
  · rw [hnone, answeredIn, h.queues, h.entered]
    rfl
  · rw [hnone, h.entered]
    rfl

theorem order_reach {s : Backend} (h : backend.Reach plainRun s) : InOrder s := by
  refine h.invariant (fun _ => order_start) ?_
  intro s l s' hs hl hstep
  cases backend_step_case hstep with
  | enter htype hip hkey => exact order_enter hs ⟨htype, hip⟩ hkey hl
  | absent => exact hs
  | @fire i sent _ _ _ _ _ _ hprocs hprocs' hentered hon =>
    obtain rfl : sent = true := hl
    exact order_fire hs hprocs hprocs' hentered hon
  | drain => exact hl.elim

theorem held_routed {s : Backend} (h : HeldRouted s) {t : Sender} (ht : t ∈ s.heldRequests) :
    routeCmd t.iCmd = some SvcClass.CSvcTest2.mqKey := by
  obtain ⟨c, hc, ht⟩ := List.mem_flatMap.mp ht
  obtain ⟨e, _, hsender⟩ := List.mem_filterMap.mp ht
  cases hframe : c.frames e.1 with
  | start => rw [hframe] at hsender; cases hsender
  | finished => rw [hframe] at hsender; cases hsender
  | suspended obj3 =>
    rw [hframe] at hsender
    cases Option.some.inj hsender
    exact h c hc e.1 obj3 hframe

theorem forService_count (svc : SvcClass) (l : List Sender) (t : Sender) :
    (forService svc l).count t = if routeCmd t.iCmd = some svc.mqKey then l.count t else 0 := by
  unfold forService
  split
  next h => exact List.count_filter (by simpa using h)
  next h => exact List.count_eq_zero.mpr fun ht => h (by simpa using (List.mem_filter.mp ht).2)

end NetioMiddleware

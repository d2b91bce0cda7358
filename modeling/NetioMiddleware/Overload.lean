import NetioMiddleware.AnswerTexts

namespace NetioMiddleware

def Container.busyCount (c : Container) : Nat := c.dispatcher.m_mapStatefulSvcQueue.entries.length

/-- The replies in svc_test2's queue, in the order of the queue. -/
def repliesIn (queues : Int32 → List QMsg) : List QMsg :=
  (queues 0xcccce).filter (fun x => ¬IsClient x)

/-- Whether a process number is one of svc_test2. -/
def Backend.isSecond (s : Backend) (i : Nat) : Bool :=
  s.procs[i]?.any (fun c => decide (c.svc = .CSvcTest2))

theorem counts_of_maps {c c' : Container} (h : c'.dispatcher.maps = c.dispatcher.maps) :
    c'.freeCount = c.freeCount ∧ c'.busyCount = c.busyCount := by
  obtain ⟨h1, h2⟩ := Prod.mk.inj h
  rw [Container.freeCount, Container.busyCount, h1, h2]
  exact ⟨rfl, rfl⟩

theorem counts_held {c c' : Container} (hv : c.Valid) {svc : IService} (hfree : c.freeHandler = some svc)
    (h : c'.dispatcher.maps = c.held svc) :
    c'.freeCount + 1 = c.freeCount ∧ c'.busyCount = c.busyCount + 1 := by
  obtain ⟨_, _, hfind, hbusy, _⟩ := freeHandler_eq_some hv hfree
  obtain ⟨h1, h2⟩ := Prod.mk.inj h
  rw [Container.freeCount, Container.busyCount, h1, h2, (SortedMap.assign_entries_perm hbusy svc).length_eq]
  exact ⟨(SortedMap.erase_entries_perm hfind).length_eq.symm, rfl⟩

theorem repliesIn_taken {queues : Int32 → List QMsg} {x : QMsg} {rest : List QMsg}
    (h : TakenFrom (queues 0xcccce) x rest) (hx : IsClient x) :
    repliesIn (Function.update queues 0xcccce rest) = repliesIn queues := by
  obtain ⟨before, after, hq, rfl, _⟩ := h
  simp [repliesIn, hq, hx]

theorem repliesIn_update_of_ne {queues : Int32 → List QMsg} {key : Int32} {q : List QMsg}
    (h : 0xcccce ≠ key) : repliesIn (Function.update queues key q) = repliesIn queues := by
  rw [repliesIn, Function.update_of_ne h, repliesIn]

theorem repliesIn_offer (queues : Int32 → List QMsg) (key : Int32) (m : QMsg) (sent : Bool) :
    repliesIn queues <+: repliesIn (offer queues key m sent) := by
  unfold offer
  split
  next =>
    by_cases hkey : 0xcccce = key
    · subst hkey
      rw [repliesIn, repliesIn, Function.update_self, List.filter_append]
      exact List.prefix_append _ _
    · rw [repliesIn_update_of_ne hkey]
  next => exact List.prefix_rfl

/-- A turn that takes the oldest request for svc_test2 and answers it with an error. -/
def RefusesOldest (queues queues' : Int32 → List QMsg) (pid : Nat) : Prop :=
  ∃ m, clientsIn queues .CSvcTest2 = m.cmd.sender :: clientsIn queues' .CSvcTest2 ∧
    queues' NET_IO_BACK_MSQ_KEY = queues NET_IO_BACK_MSQ_KEY ++ [m] ∧
    m.cmd.iRet = NO_FREE_SVC_HANDLER ∧ m.cmd.sData = errText NO_FREE_SVC_HANDLER ++ pidText pid

section

variable {s : Backend} (hs : Served s) {c c' : Container} (hc : c ∈ s.procs)
  {queues' : Int32 → List QMsg}

include hs hc

/-- svc_test leaves the clients' requests of svc_test2 and all replies where they are. -/
theorem first_leaves (hclass : c.svc = .CSvcTest) (h : PlainStep s c c' queues') :
    clientsIn queues' .CSvcTest2 = clientsIn s.queues .CSvcTest2 ∧
      repliesIn s.queues <+: repliesIn queues' := by
  cases h with
  | idle _ _ hq => rw [hq]; exact ⟨rfl, List.prefix_rfl⟩
  | @reply x rest key m htakes _ htype hto _ _ hq =>
    obtain ⟨_, hnot, _⟩ := served_reply hs hc htakes htype (reply_repliesTo hs hc htakes hto)
    rw [hq, clientsIn_offer hnot, hclass]
    refine ⟨clientsIn_update_of_ne (by decide), List.IsPrefix.trans ?_ (repliesIn_offer _ _ _ _)⟩
    rw [repliesIn_update_of_ne (by decide)]
  | hold _ _ _ hclass' => cases hclass.symm.trans hclass'
  | resume _ _ _ hclass' => cases hclass.symm.trans hclass'

omit hc in
/-- A process of svc_test2 takes the oldest request as long as one is there. -/
theorem second_takes (hclass : c.svc = .CSvcTest2) (hne : clientsIn s.queues .CSvcTest2 ≠ []) :
    ∃ x, c.takes s.queues = some x ∧ IsClient x := by
  obtain ⟨t, ht⟩ := List.exists_mem_of_ne_nil _ hne
  obtain ⟨y, hy, _⟩ := List.mem_map.mp ht
  obtain ⟨hy, hclient⟩ := List.mem_filter.mp hy
  have hclient : IsClient y := of_decide_eq_true hclient
  have hsome : (firstOf REQUEST.toInt (s.queues c.svc.mqKey)).isSome := by
    rw [hclass]
    exact List.find?_isSome.mpr ⟨y, hy, by simp [hclient.mtype]⟩
  obtain ⟨x, hx⟩ := Option.isSome_iff_exists.mp hsome
  have htakes : c.takes s.queues = some x := by rw [Container.takes, hx, Option.some_or]
  refine ⟨x, htakes, ?_⟩
  have hmt : x.mtype = REQUEST.toInt := by simpa using List.find?_some hx
  obtain ⟨_, ⟨hclient, _⟩ | ⟨hreply, _⟩⟩ := taken_second hs.inv htakes hclass
  · exact hclient
  · exact absurd (hreply.mtype.symm.trans hmt) (appType_ne_request _)

/-- With a request in its queue a process of svc_test2 holds it or, without a
free handler, refuses it. -/
theorem second_admits (hclass : c.svc = .CSvcTest2) (hne : clientsIn s.queues .CSvcTest2 ≠ [])
    (h : PlainStep s c c' queues') :
    (∃ t, clientsIn s.queues .CSvcTest2 = t :: clientsIn queues' .CSvcTest2) ∧
      repliesIn s.queues <+: repliesIn queues' ∧ c'.freeCount = c.freeCount - 1 ∧
      c'.busyCount = c.busyCount + min 1 c.freeCount := by
  have hv := hs.inv.valid c hc
  obtain ⟨x, htakes, hclient⟩ := second_takes hs hclass hne
  have moved : ∀ {rest key m}, TakenFrom (s.queues c.svc.mqKey) x rest → ¬IsClient m →
      queues' = offer (Function.update s.queues c.svc.mqKey rest) key m true →
      (∃ t, clientsIn s.queues .CSvcTest2 = t :: clientsIn queues' .CSvcTest2) ∧
        repliesIn s.queues <+: repliesIn queues' := by
    intro rest key m htaken hnot hq
    rw [hclass] at htaken hq
    rw [hq, clientsIn_offer hnot]
    constructor
    · refine ⟨x.cmd.sender, ?_⟩
      rw [clientsIn_taken htaken, if_pos hclient]
      rfl
    · rw [← repliesIn_taken htaken hclient]
      exact repliesIn_offer _ _ _ _
  cases h with
  | idle hnone => rw [hnone] at htakes; cases htakes
  | @reply y rest key m htakes' htaken htype hto hmaps _ hq =>
    obtain rfl : y = x := Option.some.inj (htakes'.symm.trans htakes)
    obtain ⟨_, hnot, _⟩ := served_reply hs hc htakes htype (reply_repliesTo hs hc htakes hto)
    obtain ⟨hcl, hre⟩ := moved htaken hnot hq
    have hfree : c.freeCount = 0 := by
      rcases hto with ⟨hfree, _⟩ | ⟨hclass', _⟩
      · exact freeHandler_eq_none_iff.mp hfree
      · cases hclass.symm.trans hclass'
    obtain ⟨hf, hb⟩ := counts_of_maps hmaps
    exact ⟨hcl, hre, by omega, by omega⟩
  | @hold y rest svc htakes' htaken _ _ hfree hmaps _ hq =>
    obtain rfl : y = x := Option.some.inj (htakes'.symm.trans htakes)
    obtain ⟨_, _, _, _, hreg, _⟩ := freeHandler_eq_some hv hfree
    obtain ⟨hcl, hre⟩ := moved htaken (askMsg_not_client hc hv hclass hreg) hq
    obtain ⟨hf, hb⟩ := counts_held hv hfree hmaps
    exact ⟨hcl, hre, by omega, by omega⟩
  | @resume y _ _ _ htakes' _ htype =>
    obtain rfl : y = x := Option.some.inj (htakes'.symm.trans htakes)
    exact absurd (hclient.iType.symm.trans htype) (by decide)

/-- Without a free handler the request is answered with an error. -/
theorem second_refuses (hclass : c.svc = .CSvcTest2) (hne : clientsIn s.queues .CSvcTest2 ≠ [])
    (hfree : c.freeHandler = none) (h : PlainStep s c c' queues') :
    RefusesOldest s.queues queues' c.pid := by
  obtain ⟨x, htakes, hclient⟩ := second_takes hs hclass hne
  have hip : PlainIp x.cmd.sClientIp := taken_plain hs.inv hc htakes
  have hserial := (hs.zero c.svc x (takes_mem htakes).1 hclient).1
  cases h with
  | idle hnone => rw [hnone] at htakes; cases htakes
  | @reply y rest key m htakes' htaken htype hto hmaps _ hq =>
    obtain rfl : y = x := Option.some.inj (htakes'.symm.trans htakes)
    obtain ⟨_, hnot, _⟩ := served_reply hs hc htakes htype (reply_repliesTo hs hc htakes hto)
    obtain ⟨_, hto⟩ | ⟨_, hsome, _⟩ := hto
    · obtain ⟨rfl, rfl⟩ := replyTo_client hto hserial
      generalize hcur : ({ y.cmd with
        iRet := NO_FREE_SVC_HANDLER, sData := errText NO_FREE_SVC_HANDLER } : CCmd) = cur at hq hnot
      have hip' : PlainIp (backCmd c.pid cur).sClientIp := by
        rw [← hcur]
        exact hip
      obtain ⟨hret, _, hindex, _, hcmd, hfd, hfamily, hcliIp, hport⟩ :=
        Header.mk.inj (cmdMsg_header RESPONSE.toInt hip')
      have herr : errText NO_FREE_SVC_HANDLER ∈ answerTexts .CSvcTest2 := by decide
      refine ⟨cmdMsg RESPONSE.toInt (backCmd c.pid cur), ?_, ?_, ?_, ?_⟩
      · have hsender : (cmdMsg RESPONSE.toInt (backCmd c.pid cur)).cmd.sender = y.cmd.sender := by
          rw [CCmd.sender, hindex, hcmd, hfd, hfamily, hcliIp, hport, ← hcur]
          rfl
        rw [hsender, hq, clientsIn_offer hnot]
        rw [hclass] at htaken ⊢
        rw [clientsIn_taken htaken, if_pos hclient]
        rfl
      · have hpos : 0 < RESPONSE.toInt := by decide
        rw [hq, offer, if_pos ⟨rfl, hpos⟩, Function.update_self,
          Function.update_of_ne (mqKey_ne_back c.svc).symm]
      · rw [hret, ← hcur]
        rfl
      · refine backCmd_data (hs.inv.valid c hc) hip' herr ?_
        rw [← hcur]
    · exact absurd hfree hsome
  | hold _ _ _ _ hsome => rw [hfree] at hsome; cases hsome
  | @resume y _ _ _ htakes' _ htype =>
    obtain rfl : y = x := Option.some.inj (htakes'.symm.trans htakes)
    exact absurd (hclient.iType.symm.trans htype) (by decide)

end

/-- A turn of svc_test2 that finds no free handler refuses a request. -/
def refusing (s : Backend) : BackendLabel → Prop
  | .fire i sent => ∀ c, s.procs[i]? = some c → c.svc = .CSvcTest2 → c.freeCount = 0 →
      ∃ s', backend.step s (.fire i sent) s' ∧ RefusesOldest s.queues s'.queues c.pid
  | _ => True

/-- The process that has its turn. -/
def BackendLabel.turn : BackendLabel → Option Nat
  | .fire i _ => some i
  | _ => none

/-- Clients set neither ret nor serialno, every msgsnd succeeds, and a request
waits for svc_test2 whenever one of its processes has its turn. -/
def crowded (s : Backend) (l : BackendLabel) : Prop :=
  plainRun s l ∧ (l.turn.any s.isSecond = true → clientsIn s.queues .CSvcTest2 ≠ [])

instance (s : Backend) (l : BackendLabel) : Decidable (crowded s l) :=
  inferInstanceAs (Decidable (_ ∧ _))

/-- Whose request enters. -/
def BackendLabel.asks : BackendLabel → Option Sender
  | .enter oCmd _ => some oCmd.sender
  | _ => none

/-- What a number of turns under load leaves of a process. -/
structure Loaded (c c' : Container) (n : Nat) : Prop where
  svc : c'.svc = c.svc
  free : c.svc = .CSvcTest2 → c'.freeCount = c.freeCount - n
  busy : c.svc = .CSvcTest2 → c'.busyCount = c.busyCount + min n c.freeCount

/-- What a run under load leaves of the whole: svc_test2 has dealt with as many of
the oldest requests as its processes have had turns. -/
structure Burst (s s' : Backend) (ls : List BackendLabel) : Prop where
  clients : ∃ dealt : List Sender, dealt.length = (ls.filterMap (·.turn)).countP s.isSecond ∧
    dealt ++ clientsIn s'.queues .CSvcTest2 =
      clientsIn s.queues .CSvcTest2 ++ forService .CSvcTest2 (ls.filterMap (·.asks))
  replies : repliesIn s.queues <+: repliesIn s'.queues
  procs : ∀ j c, s.procs[j]? = some c →
    ∃ c', s'.procs[j]? = some c' ∧ Loaded c c' ((ls.filterMap (·.turn)).count j)
  refused : backend.Run refusing s ls s'

theorem loaded_refl (c : Container) : Loaded c c 0 := ⟨rfl, fun _ => rfl, fun _ => by simp⟩

theorem Loaded.trans {c c1 c2 : Container} {n m : Nat} (h1 : Loaded c c1 n) (h2 : Loaded c1 c2 m) :
    Loaded c c2 (n + m) := by
  refine ⟨h2.svc.trans h1.svc, fun hclass => ?_, fun hclass => ?_⟩
  · have hf1 := h1.free hclass
    have hf2 := h2.free (h1.svc.trans hclass)
    omega
  · have hf1 := h1.free hclass
    have hb1 := h1.busy hclass
    have hb2 := h2.busy (h1.svc.trans hclass)
    omega

theorem burst_refl (s : Backend) : Burst s s [] :=
  ⟨⟨[], rfl, by simp [forService]⟩, List.prefix_rfl, fun _ c hc => ⟨c, hc, loaded_refl c⟩, .nil⟩

theorem Burst.isSecond {s s' : Backend} {ls : List BackendLabel} (h : Burst s s' ls)
    (hlen : s'.procs.length = s.procs.length) (i : Nat) : s'.isSecond i = s.isSecond i := by
  cases hget : s.procs[i]? with
  | none =>
    have hnone : s'.procs[i]? = none := by
      rw [List.getElem?_eq_none_iff] at hget ⊢
      omega
    simp [Backend.isSecond, hget, hnone]
  | some c =>
    obtain ⟨c', hget', hloaded⟩ := h.procs i c hget
    simp [Backend.isSecond, hget, hget', hloaded.svc]

theorem Burst.trans {s s1 s' : Backend} {ls ls' : List BackendLabel} (h1 : Burst s s1 ls)
    (hlen : s1.procs.length = s.procs.length) (h2 : Burst s1 s' ls') : Burst s s' (ls ++ ls') := by
  have hsame : (ls'.filterMap (·.turn)).countP s1.isSecond = (ls'.filterMap (·.turn)).countP s.isSecond :=
    List.countP_congr fun j _ => by rw [h1.isSecond hlen j]
  refine ⟨?_, h1.replies.trans h2.replies, fun j c hj => ?_, h1.refused.append h2.refused⟩
  · obtain ⟨dealt1, hcount1, hdealt1⟩ := h1.clients
    obtain ⟨dealt2, hcount2, hdealt2⟩ := h2.clients
    refine ⟨dealt1 ++ dealt2, ?_, ?_⟩
    · rw [List.length_append, List.filterMap_append, List.countP_append, hcount1, hcount2, hsame]
    · rw [List.append_assoc, hdealt2, List.filterMap_append, forService_append, ← List.append_assoc, hdealt1,
        List.append_assoc]
  · obtain ⟨c1, hj1, hloaded1⟩ := h1.procs j c hj
    obtain ⟨c2, hj2, hloaded2⟩ := h2.procs j c1 hj1
    rw [List.filterMap_append, List.count_append]
    exact ⟨c2, hj2, hloaded1.trans hloaded2⟩

/-- One turn of a process under load. -/
theorem burst_turn {s s' : Backend} (hs : Served s) {i : Nat} (h : backend.step s (.fire i true) s')
    (hne : s.isSecond i = true → clientsIn s.queues .CSvcTest2 ≠ []) : Burst s s' [.fire i true] := by
  have settled : s.isSecond i = false → clientsIn s'.queues .CSvcTest2 = clientsIn s.queues .CSvcTest2 →
      ∃ dealt : List Sender, dealt.length = [i].countP s.isSecond ∧
        dealt ++ clientsIn s'.queues .CSvcTest2 = clientsIn s.queues .CSvcTest2 ++ [] := by
    intro hsecond hcl
    exact ⟨[], by simp [hsecond], by rw [hcl, List.nil_append, List.append_nil]⟩
  obtain ⟨hnone, rfl⟩ | ⟨c, c', hget, hon, hprocs⟩ := turn_cases h
  · have hsecond : s'.isSecond i = false := by simp [Backend.isSecond, hnone]
    refine ⟨settled hsecond rfl, List.prefix_rfl, fun j c hj => ⟨c, hj, ?_⟩, .cons (fun c hc => ?_) h .nil⟩
    · have hij : i ≠ j := by
        rintro rfl
        rw [hnone] at hj
        cases hj
      simpa [BackendLabel.turn, hij] using loaded_refl c
    · rw [hnone] at hc
      cases hc
  · have hc := List.mem_of_getElem? hget
    have hi := (List.getElem?_eq_some_iff.mp hget).1
    have hstep := plain_step hs hc hon
    have hsvc : c'.svc = c.svc := (fire_static (hs.inv.valid c hc) (hs.inv.text c.svc) hon).1.1
    have procs : Loaded c c' 1 → ∀ j d, s.procs[j]? = some d →
        ∃ d', s'.procs[j]? = some d' ∧ Loaded d d' ([i].count j) := by
      intro hloaded j d hj
      by_cases hij : i = j
      · subst hij
        obtain rfl : c = d := Option.some.inj (hget.symm.trans hj)
        exact ⟨c', by rw [hprocs, List.getElem?_set_self hi], by simpa using hloaded⟩
      · exact ⟨d, by rw [hprocs, List.getElem?_set_ne hij, hj], by simpa [hij] using loaded_refl d⟩
    cases hclass : c.svc with
    | CSvcTest =>
      obtain ⟨hcl, hre⟩ := first_leaves hs hc hclass hstep
      have hsecond : s.isSecond i = false := by simp [Backend.isSecond, hget, hclass]
      refine ⟨settled hsecond hcl, hre, procs ⟨hsvc, ?_, ?_⟩, .cons (fun d hd hclass' => ?_) h .nil⟩
      · exact fun h => by rw [hclass] at h; contradiction
      · exact fun h => by rw [hclass] at h; contradiction
      · obtain rfl := Option.some.inj (hget.symm.trans hd)
        cases hclass.symm.trans hclass'
    | CSvcTest2 =>
      have hsecond : s.isSecond i = true := by simp [Backend.isSecond, hget, hclass]
      obtain ⟨⟨t, hcl⟩, hre, hfree, hbusy⟩ := second_admits hs hc hclass (hne hsecond) hstep
      refine ⟨⟨[t], by simp [BackendLabel.turn, hsecond], ?_⟩, hre,
        procs ⟨hsvc, fun _ => hfree, fun _ => hbusy⟩, .cons (fun d hd _ hnone => ⟨s', h, ?_⟩) h .nil⟩
      · simpa [BackendLabel.asks, forService] using hcl.symm
      · obtain rfl := Option.some.inj (hget.symm.trans hd)
        exact second_refuses hs hc hclass (hne hsecond) (freeHandler_eq_none_iff.mpr hnone) hstep

/-- A request that enters. -/
theorem burst_enter {s : Backend} {oCmd : CCmd} {addr : InAddr} {key : Int32}
    (h : backend.step s (.enter oCmd addr) (s.enter key oCmd)) (hip : PlainIp oCmd.sClientIp)
    (htype : oCmd.iType = REQUEST) (hkey : routeCmd oCmd.iCmd = some key) :
    Burst s (s.enter key oCmd) [.enter oCmd addr] := by
  refine ⟨⟨[], rfl, ?_⟩, ?_, fun _ c hc => ⟨c, hc, loaded_refl c⟩, .cons trivial h .nil⟩
  · have hcmd : routeCmd oCmd.sender.iCmd = some key := hkey
    rw [List.nil_append, clientsIn_enter hip htype]
    simp [BackendLabel.asks, forService, List.filter_cons, hcmd, eq_comm]
  · by_cases hq : 0xcccce = key
    · subst hq
      dsimp only [Backend.enter]
      rw [repliesIn, repliesIn, Function.update_self, List.filter_append]
      exact List.prefix_append _ _
    · dsimp only [Backend.enter]
      rw [repliesIn_update_of_ne hq]

end NetioMiddleware

import NetioMiddleware.BackendInv

namespace NetioMiddleware

theorem mqKey_of_route {svc : SvcClass} {iCmd key : Int32} (h : routeCmd iCmd = some svc.mqKey)
    (hkey : routeCmd iCmd = some key) : key = svc.mqKey := Option.some.inj (hkey.symm.trans h)

theorem plainIp_nil : PlainIp [] := ⟨⟨by simp, by simp, by decide⟩, by simp, by simp⟩

theorem RepliesTo.plain {oCmd : CCmd} {key : Int32} {m : QMsg} (h : RepliesTo oCmd key m)
    (hip : PlainIp oCmd.sClientIp) : PlainIp m.cmd.sClientIp := by
  have hsame : m.cmd.sClientIp = oCmd.sClientIp := congrArg Sender.sClientIp h.sender
  rwa [hsame]

section

variable {s : Backend} (hi : BackendInv s) {c c' : Container} (hc : c ∈ s.procs)
  {queues' : Int32 → List QMsg} {sent : Bool}

theorem FitsProc.stray {s : Backend} {c : Container} {sent : Bool} (hfits : FitsProc s c sent)
    {x : QMsg} (htakes : c.takes s.queues = some x) (hclient : IsClient x)
    (hserial : x.cmd.iSvcSerialNo ≠ 0)
    (hnow : c.freeHandler = none ∨ c.svc = .CSvcTest ∧ x.cmd.iRet ≠ UNFINISH_TASK_RET_FLAG)
    (hsent : sent = true) : ¬s.Serves c.svc (pidOf x.cmd.iSvcSerialNo) := by
  intro hserves
  obtain ⟨hfree, hret⟩ := hfits x htakes hclient.iType hserial hserves hsent
  rcases hnow with h | ⟨hclass, h⟩
  · exact hfree h
  · exact h (hret hclass)

include hi hc

/-- A reply that lands in svc_test's own queue is one no process waits for. -/
theorem reply_first (hfits : FitsProc s c sent) {x m : QMsg} {key : Int32}
    (htakes : c.takes s.queues = some x) (htype : x.cmd.iType ≠ RESPONSE)
    (hnow : c.freeHandler = none ∨ c.svc = .CSvcTest ∧ x.cmd.iRet ≠ UNFINISH_TASK_RET_FLAG)
    (hr : RepliesTo x.cmd key m) (hkey : 0xccccd = key) (hsent : sent = true) : FirstQueue s m := by
  have hserial : x.cmd.iSvcSerialNo ≠ 0 := by
    intro h0
    have hback := hkey.trans (hr.back h0).1
    exact absurd hback (by decide)
  have hroute : routeCmd x.cmd.iCmd = some key := (hr.app hserial).1
  refine ⟨hr.text, hr.plain (taken_plain hi hc htakes),
    Or.inr (Or.inr ⟨hr.isReply hserial, hr.iType, ?_⟩)⟩
  obtain ⟨hclient, hown⟩ | ⟨_, hask, _⟩ := taken_request hi hc htakes htype
  · have hclass : c.svc = .CSvcTest := by
      have hk := mqKey_of_route hown hroute
      cases hcl : c.svc with
      | CSvcTest => rfl
      | CSvcTest2 =>
        rw [← hkey, hcl] at hk
        exact absurd hk (by decide)
    rw [hr.serial, ← hclass]
    exact hfits.stray htakes hclient hserial hnow hsent
  · rw [hask.iCmd, ← hkey] at hroute
    exact absurd hroute (by decide)

theorem reply_second {x m : QMsg} {key : Int32} (htakes : c.takes s.queues = some x)
    (hr : RepliesTo x.cmd key m) (hkey : 0xcccce = key) : SecondQueue m := by
  have hserial : x.cmd.iSvcSerialNo ≠ 0 := by
    intro h0
    have hback := hkey.trans (hr.back h0).1
    exact absurd hback (by decide)
  exact ⟨hr.text, hr.plain (taken_plain hi hc htakes), Or.inr ⟨hr.isReply hserial, hr.iType⟩⟩

omit hi hc in
theorem askMsg_header (k iCmd : Int32) :
    (cmdMsg REQUEST.toInt { iSvcSerialNo := k, iCmd := iCmd }).cmd.header =
      ⟨0, 0, 0, k, iCmd, 0, 0, [], 0⟩ :=
  cmdMsg_header _ plainIp_nil

omit hi in
/-- The request SendRequest offers for a handler of svc_test2. -/
theorem askMsg_first (hv : c.Valid) (hclass : c.svc = .CSvcTest2) {svc : IService}
    (hreg : svc ∈ c.registered) :
    FirstQueue s (cmdMsg REQUEST.toInt { iSvcSerialNo := svc.m_iIndex, iCmd := svc.m_iCmd }) ∧
      IsAsk svc.m_iIndex (cmdMsg REQUEST.toInt { iSvcSerialNo := svc.m_iIndex, iCmd := svc.m_iCmd }) := by
  obtain ⟨_, hcmd, _⟩ := handler_index hv.numbered hreg
  have hpid := handler_pid hv.numbered hreg
  have hne := handler_index_ne_zero hv.numbered hreg
  have hh := askMsg_header svc.m_iIndex svc.m_iCmd
  generalize hm : cmdMsg REQUEST.toInt { iSvcSerialNo := svc.m_iIndex, iCmd := svc.m_iCmd } = m at hh
  obtain ⟨hret, htype, _, hserial, hmcmd, _, _, hip, _⟩ := Header.mk.inj hh
  rw [hcmd, hclass] at hmcmd
  have hask : IsAsk svc.m_iIndex m := ⟨hm ▸ rfl, hmcmd, hserial⟩
  refine ⟨⟨hm ▸ encode_ne_nil _, ?_, Or.inr (Or.inl ?_)⟩, hask⟩
  · rw [show m.cmd.sClientIp = [] from hip]
    exact plainIp_nil
  · rw [show m.cmd.iSvcSerialNo = svc.m_iIndex from hserial]
    exact ⟨hask, htype, hret, hne, c, hc, hclass, hpid.symm⟩

/-- What a step adds to the two service queues. -/
theorem fire_queues (hfits : FitsProc s c sent) (h : FireCase s.queues c sent c' queues') :
    (∀ x ∈ queues' 0xccccd, FirstQueue s x) ∧ ∀ x ∈ queues' 0xcccce, SecondQueue x := by
  have hv := hi.valid c hc
  have kept : ∀ {key : Int32} {x : QMsg} {rest : List QMsg}, (s.queues key).Perm (x :: rest) →
      (∀ y ∈ Function.update s.queues key rest 0xccccd, FirstQueue s y) ∧
      ∀ y ∈ Function.update s.queues key rest 0xcccce, SecondQueue y := by
    intro key x rest hperm
    exact ⟨fun y hy => hi.first y (mem_take hperm hy), fun y hy => hi.second y (mem_take hperm hy)⟩
  cases h with
  | idle _ _ hq => exact hq ▸ ⟨hi.first, hi.second⟩
  | @replied x rest key m htakes hperm htype hnow hr _ _ hq =>
    have hr := hr (taken_plain hi hc htakes)
    obtain ⟨hfirst, hsecond⟩ := kept hperm
    rw [hq]
    refine ⟨fun y hy => ?_, fun y hy => ?_⟩
    · rcases mem_offer hy with hy | ⟨hkey, rfl, hsent⟩
      · exact hfirst y hy
      · exact reply_first hi hc hfits htakes htype hnow hr hkey hsent
    · rcases mem_offer hy with hy | ⟨hkey, rfl, _⟩
      · exact hsecond y hy
      · exact reply_second hi hc htakes hr hkey
  | kept _ hperm _ _ _ _ _ _ hq => exact hq ▸ kept hperm
  | held _ hperm _ hclass hfree _ _ hq =>
    obtain ⟨_, _, _, _, hreg, _⟩ := freeHandler_eq_some hv hfree
    obtain ⟨hfirst, hsecond⟩ := kept hperm
    rw [hq]
    refine ⟨fun y hy => ?_, fun y hy => ?_⟩
    · rcases mem_offer hy with hy | ⟨_, rfl, _⟩
      · exact hfirst y hy
      · exact (askMsg_first hc hv hclass hreg).1
    · rcases mem_offer hy with hy | ⟨hkey, _⟩
      · exact hsecond y hy
      · contradiction
  | @resumed x rest svc obj3 key m htakes hperm htype hclass hfind hframe hr _ _ hq =>
    have hback := ((hr (hi.plain c hc _ _ hframe)).back rfl).1
    obtain ⟨hfirst, hsecond⟩ := kept hperm
    rw [hq, hback]
    refine ⟨fun y hy => ?_, fun y hy => ?_⟩
    · rcases mem_offer hy with hy | ⟨hkey, _⟩
      · exact hfirst y hy
      · contradiction
    · rcases mem_offer hy with hy | ⟨hkey, _⟩
      · exact hsecond y hy
      · contradiction

theorem fire_plain (h : FireCase s.queues c sent c' queues') (k : Int32) (obj3 : CCmd)
    (hk : c'.frames k = .suspended obj3) : PlainIp obj3.sClientIp := by
  rcases fire_frames h hk with hold | ⟨x, htakes, rfl⟩
  · exact hi.plain c hc k obj3 hold
  · exact taken_plain hi hc htakes

/-- A reply counts for a handler only where the request did. -/
theorem replied_weight (hfits : FitsProc s c sent) {x m : QMsg} {key k : Int32}
    (htakes : c.takes s.queues = some x) (htype : x.cmd.iType ≠ RESPONSE)
    (hnow : c.freeHandler = none ∨ c.svc = .CSvcTest ∧ x.cmd.iRet ≠ UNFINISH_TASK_RET_FLAG)
    (hr : RepliesTo x.cmd key m) (hk : s.Serves .CSvcTest2 (pidOf k)) (hsent : sent = true) :
    weight msgqKeys (awaits k) key m ≤ weight msgqKeys (awaits k) c.svc.mqKey x := by
  by_cases hserial : x.cmd.iSvcSerialNo = 0
  · rw [(hr.back hserial).1, back_weight]
    exact Nat.zero_le _
  · have hreply := hr.isReply hserial
    have hroute : routeCmd x.cmd.iCmd = some key := (hr.app hserial).1
    obtain ⟨hclient, hown⟩ | ⟨hclass, hask, _⟩ := taken_request hi hc htakes htype
    · rw [mqKey_of_route hown hroute]
      cases hclass : c.svc with
      | CSvcTest =>
        have hzero : weight msgqKeys (awaits k) SvcClass.CSvcTest.mqKey m = 0 := by
          rw [awaits_weight, if_neg]
          rintro (⟨_, hask⟩ | ⟨h, _⟩)
          · exact hreply.not_ask hask
          · exact absurd h (by decide)
        rw [hzero]
        exact Nat.zero_le _
      | CSvcTest2 =>
        have hstray := hfits.stray htakes hclient hserial hnow hsent
        rw [hclass] at hstray
        have hne : k ≠ m.cmd.iSvcSerialNo := by
          intro hk'
          rw [hk', hr.serial] at hk
          exact hstray hk
        rw [show SvcClass.CSvcTest2.mqKey = 0xcccce from rfl, reply_weight hreply, if_neg hne]
        exact Nat.zero_le _
    · rw [hask.iCmd] at hroute
      cases Option.some.inj hroute
      rw [reply_weight hreply, hclass, show SvcClass.CSvcTest.mqKey = 0xccccd from rfl,
        ask_weight hask, hr.serial]

/-- No step leaves more messages under way for a handler than it makes the
handler wait for. -/
theorem fire_awaited (hfits : FitsProc s c sent) (h : FireCase s.queues c sent c' queues') (k : Int32)
    (hk : s.Serves .CSvcTest2 (pidOf k)) :
    outstanding queues' k + c.holds k ≤ outstanding s.queues k + c'.holds k := by
  have hv := hi.valid c hc
  cases h with
  | idle _ hcc hq => rw [hcc, hq]
  | @replied x rest key m htakes hperm htype hnow hr hmaps _ hq =>
    have hr := hr (taken_plain hi hc htakes)
    have htaken := outstanding_take hperm k
    have hholds := holds_of_maps hmaps k
    have hoffer := outstanding_offer (Function.update s.queues c.svc.mqKey rest) key k m sent
    rw [← hq] at hoffer
    split at hoffer
    next hs =>
      have hweight := replied_weight hi hc hfits htakes htype hnow hr hk hs.1
      omega
    next => omega
  | kept _ hperm _ _ _ hfree hmaps _ hq =>
    have htaken := outstanding_take hperm k
    have hholds := holds_held hv hfree hmaps k
    rw [← hq] at htaken
    omega
  | held _ hperm _ hclass hfree hmaps _ hq =>
    obtain ⟨_, _, _, _, hreg, _⟩ := freeHandler_eq_some hv hfree
    have htaken := outstanding_take hperm k
    have hholds := holds_held hv hfree hmaps k
    have hask := (askMsg_first hc hv hclass hreg).2
    rw [hq, outstanding_offer, ask_weight hask k]
    split <;> omega
  | resumed htakes hperm htype hclass hfind hframe hr hmaps _ hq =>
    have htaken := outstanding_take hperm k
    have hholds := holds_released hv hfind hmaps k
    have hback := ((hr (hi.plain c hc _ _ hframe)).back rfl).1
    obtain ⟨_, ⟨hclient, _⟩ | ⟨hreply, _⟩⟩ := taken_second hi htakes hclass
    · rw [hclient.iType] at htype
      exact absurd htype (by decide)
    · rw [hclass, show SvcClass.CSvcTest2.mqKey = 0xcccce from rfl, reply_weight hreply k] at htaken
      rw [hq, outstanding_offer, hback, back_weight, hclass,
        show SvcClass.CSvcTest2.mqKey = 0xcccce from rfl]
      split <;> omega

end

theorem FirstQueue.congr {s s' : Backend} {x : QMsg} (h : FirstQueue s x)
    (hserves : ∀ svc pid, s'.Serves svc pid ↔ s.Serves svc pid) : FirstQueue s' x := by
  refine ⟨h.text, h.ip, ?_⟩
  rw [hserves, hserves]
  exact h.kind

theorem BackendInv.text {s : Backend} (hi : BackendInv s) (svc : SvcClass) :
    ∀ x ∈ s.queues svc.mqKey, x.mtext ≠ [] := by
  intro x hx
  cases svc with
  | CSvcTest => exact (hi.first x hx).text
  | CSvcTest2 => exact (hi.second x hx).text

/-- A client's request that enters a queue counts for no handler. -/
theorem enter_weight {oCmd : CCmd} {key : Int32} (hip : PlainIp oCmd.sClientIp)
    (hkey : routeCmd oCmd.iCmd = some key) (hclient : IsClient (cmdMsg REQUEST.toInt oCmd)) (k : Int32) :
    weight msgqKeys (awaits k) key (cmdMsg REQUEST.toInt oCmd) = 0 := by
  have hcmd : (cmdMsg REQUEST.toInt oCmd).cmd.iCmd = oCmd.iCmd :=
    congrArg Header.iCmd (cmdMsg_header REQUEST.toInt hip)
  rw [awaits_weight, if_neg]
  rintro (⟨rfl, hask⟩ | ⟨_, hreply⟩)
  · obtain ⟨h1, _⟩ | ⟨_, h2⟩ := routeCmd_eq_some hkey
    · exact absurd (hask.iCmd.symm.trans (hcmd.trans h1)) (by decide)
    · exact absurd h2 (by decide)
  · exact hclient.not_reply hreply

theorem enter_inv {s : Backend} (hi : BackendInv s) {oCmd : CCmd} {addr : InAddr} {key : Int32}
    (hen : (BackendLabel.enter oCmd addr).enabled) (hkey : routeCmd oCmd.iCmd = some key) :
    BackendInv (s.enter key oCmd) := by
  have hip : PlainIp oCmd.sClientIp := hen.2 ▸ inetNtoa_plain addr
  have hh := cmdMsg_header REQUEST.toInt hip
  obtain ⟨_, htype, _, _, hcmd, _, _, hcliIp, _⟩ := Header.mk.inj hh
  have hclient : IsClient (cmdMsg REQUEST.toInt oCmd) := ⟨rfl, htype.trans hen.1⟩
  have htext : (cmdMsg REQUEST.toInt oCmd).mtext ≠ [] := encode_ne_nil oCmd
  have hplain : PlainIp (cmdMsg REQUEST.toInt oCmd).cmd.sClientIp := by
    rwa [show (cmdMsg REQUEST.toInt oCmd).cmd.sClientIp = oCmd.sClientIp from hcliIp]
  have hcmd : (cmdMsg REQUEST.toInt oCmd).cmd.iCmd = oCmd.iCmd := hcmd
  refine ⟨hi.valid, hi.pids, ?_, ?_, hi.plain, ?_⟩
  · intro x hx
    rcases mem_enter hx with hx | ⟨hk, rfl⟩
    · exact (hi.first x hx).congr (fun _ _ => Iff.rfl)
    · refine ⟨htext, hplain, Or.inl ⟨hclient, ?_⟩⟩
      obtain ⟨h1, _⟩ | ⟨_, h2⟩ := routeCmd_eq_some hkey
      · exact hcmd.trans h1
      · exact absurd (hk.trans h2) (by decide)
  · intro x hx
    rcases mem_enter hx with hx | ⟨hk, rfl⟩
    · exact hi.second x hx
    · refine ⟨htext, hplain, Or.inl ⟨hclient, ?_⟩⟩
      obtain ⟨_, h1⟩ | ⟨h2, _⟩ := routeCmd_eq_some hkey
      · exact absurd (hk.trans h1) (by decide)
      · exact hcmd.trans h2
  · intro k hk
    have hzero := enter_weight hip hkey hclient k
    have happend : outstanding (s.enter key oCmd).queues k = outstanding s.queues k + _ :=
      tally_append (cmdMsg REQUEST.toInt oCmd)
    have hold : outstanding s.queues k ≤ busy (s.enter key oCmd).procs k := hi.awaited k hk
    omega

theorem drain_inv {s : Backend} (hi : BackendInv s) (queue : List QMsg) : BackendInv (s.drain queue) := by
  have hne : ∀ key, key ≠ NET_IO_BACK_MSQ_KEY → (s.drain queue).queues key = s.queues key :=
    fun key hkey => Function.update_of_ne hkey _ _
  have h1 := hne 0xccccd (by decide)
  have h2 := hne 0xcccce (by decide)
  refine ⟨hi.valid, hi.pids, ?_, h2 ▸ hi.second, hi.plain, ?_⟩
  · intro x hx
    exact (hi.first x (h1 ▸ hx)).congr (fun _ _ => Iff.rfl)
  intro k hk
  have hback : ∀ x, awaits k NET_IO_BACK_MSQ_KEY x = false := by
    intro x
    refine decide_eq_false ?_
    rintro (⟨h, _⟩ | ⟨h, _⟩) <;> exact absurd h (by decide)
  have hsame : outstanding (s.drain queue).queues k = outstanding s.queues k := tally_ignore hback queue
  rw [hsame]
  exact hi.awaited k hk

/-- A step of one process keeps the invariant. -/
theorem fire_inv {s s' : Backend} (hi : BackendInv s) {front back : List Container}
    {c c' : Container} {sent : Bool} (hprocs : s.procs = front ++ c :: back)
    (hprocs' : s'.procs = front ++ c' :: back) (hfits : FitsProc s c sent)
    (h : c.onEventFire s.queues sent = .ok (c', s'.queues)) : BackendInv s' := by
  have hc : c ∈ s.procs := hprocs ▸ by simp
  have hv := hi.valid c hc
  have hcase := fire_case hv (hi.text c.svc) h
  obtain ⟨hstatic, hvalid⟩ := fire_static hv (hi.text c.svc) h
  have hserves := serves_replace hprocs hprocs' hstatic.1 hstatic.2.1
  obtain ⟨hfirst, hsecond⟩ := fire_queues hi hc hfits hcase
  refine ⟨?_, ?_, fun x hx => (hfirst x hx).congr hserves, hsecond, ?_, ?_⟩
  · rw [hprocs']
    exact forall_replace (hprocs ▸ hi.valid) hvalid
  · have hpids := hi.pids
    rw [hprocs, List.map_append, List.map_cons] at hpids
    rwa [hprocs', List.map_append, List.map_cons, hstatic.2.1]
  · rw [hprocs']
    exact forall_replace (hprocs ▸ hi.plain) (fire_plain hi hc hcase)
  · intro k hk
    have hk := (hserves _ _).mp hk
    have hold := hi.awaited k hk
    have hstep := fire_awaited hi hc hfits hcase k hk
    have hbusy := busy_replace front back c c' k
    rw [hprocs] at hold
    rw [hprocs']
    omega

theorem backend_step_inv {s s' : Backend} {l : BackendLabel} (hi : BackendInv s) (hfits : s.Fits l)
    (h : backend.step s l s') : BackendInv s' := by
  cases backend_step_case h with
  | enter htype hip hkey => exact enter_inv hi ⟨htype, hip⟩ hkey
  | absent => exact hi
  | fire hget hprocs hprocs' _ hon => exact fire_inv hi hprocs hprocs' (hfits _ hget) hon
  | drain => exact drain_inv hi _

theorem backend_start_inv {s : Backend} (h : BackendStart s) : BackendInv s := by
  have hvalid : ∀ c ∈ s.procs, c.Valid := by
    intro c hc
    have hn := h.numbered c hc
    rw [h.started c hc] at hn ⊢
    exact start_valid hn
  have hframes : ∀ c ∈ s.procs, ∀ k, c.frames k = .start := by
    intro c hc k
    rw [h.started c hc]
    rfl
  refine ⟨hvalid, h.pids, ?_, ?_, ?_, ?_⟩
  · intro x hx
    rw [h.queues] at hx
    exact absurd hx List.not_mem_nil
  · intro x hx
    rw [h.queues] at hx
    exact absurd hx List.not_mem_nil
  · intro c hc k obj3 hk
    rw [hframes c hc k] at hk
    cases hk
  · intro k _
    rw [outstanding, tally_nil h.queues]
    exact Nat.zero_le _

/-- No handler is busy at the start. -/
theorem start_idle {s : Backend} (h : BackendStart s) :
    ∀ c ∈ s.procs, ∀ k, c.dispatcher.m_mapStatefulSvcQueue.find? k = none := by
  intro c hc k
  by_contra hne
  obtain ⟨svc, hsvc⟩ := Option.ne_none_iff_exists'.mp hne
  have hbusy := ((backend_start_inv h).valid c hc).busy k svc hsvc
  rw [h.started c hc] at hbusy
  cases hclass : c.svc with
  | CSvcTest => rw [hclass] at hbusy; cases hbusy
  | CSvcTest2 =>
    rw [hclass] at hbusy
    obtain ⟨_, hbusy⟩ := hbusy
    cases hbusy

theorem backend_inv {ok : Backend → BackendLabel → Prop} (hok : ∀ s l, ok s l → s.Fits l) {s : Backend}
    (h : backend.Reach ok s) : BackendInv s :=
  h.invariant (fun _ => backend_start_inv) (fun s l _ hi hl hs => backend_step_inv hi (hok s l hl) hs)

section

variable {s : Backend} (hi : BackendInv s) {c : Container} (hc : c ∈ s.procs)

include hi hc

/-- No process but a handler's own has it in its stateful map. -/
theorem busy_eq_holds {k : Int32} (hk : pidOf k = c.pid) : busy s.procs k = c.holds k := by
  obtain ⟨front, back, hprocs⟩ := List.append_of_mem hc
  have hpids := hi.pids
  rw [hprocs, List.map_append, List.map_cons, List.nodup_middle, List.nodup_cons] at hpids
  have hother : ∀ p ∈ front ++ back, p.holds k = 0 := by
    intro p hp
    have hps : p ∈ s.procs := by
      rw [hprocs]
      simp only [List.mem_append, List.mem_cons] at hp ⊢
      tauto
    refine if_neg fun hsome => ?_
    obtain ⟨svc, hsvc⟩ := Option.isSome_iff_exists.mp hsome
    obtain ⟨hreg, hkey⟩ := (hi.valid p hps).partitioned.busy k svc hsvc
    have hpid := handler_pid (hi.valid p hps).numbered hreg
    have hsame : p.pid = c.pid := by
      have : (p.pid : Int) = c.pid := by rw [← hpid, ← hkey]; exact hk
      omega
    refine hpids.1 ?_
    rw [← hsame, ← List.map_append]
    exact List.mem_map_of_mem hp
  have hzero : ∀ l : List Container, (∀ p ∈ l, p.holds k = 0) → (l.map (·.holds k)).sum = 0 := by
    intro l hl
    exact List.sum_eq_zero (by simpa using hl)
  have hfront := hzero front (fun p hp => hother p (List.mem_append_left _ hp))
  have hback := hzero back (fun p hp => hother p (List.mem_append_right _ hp))
  rw [hprocs, busy, List.map_append, List.map_cons, List.sum_append, List.sum_cons, hfront, hback]
  omega

/-- The handler a response names is in the stateful map of the process that takes it. -/
theorem taken_response {x : QMsg} (htakes : c.takes s.queues = some x) (htype : x.cmd.iType = RESPONSE) :
    c.svc = .CSvcTest2 ∧ ∃ svc, c.dispatcher.m_mapStatefulSvcQueue.find? x.cmd.iSvcSerialNo = some svc := by
  cases hclass : c.svc with
  | CSvcTest => exact absurd htype (taken_first hi hc htakes hclass).2.1
  | CSvcTest2 =>
    refine ⟨rfl, ?_⟩
    obtain ⟨_, ⟨hclient, _⟩ | ⟨hreply, _, hpid⟩⟩ := taken_second hi htakes hclass
    · rw [hclient.iType] at htype
      exact absurd htype (by decide)
    · have hmem := (takes_mem htakes).1
      rw [hclass] at hmem
      have hcounted : 0 < outstanding s.queues x.cmd.iSvcSerialNo :=
        tally_pos (by decide) hmem (decide_eq_true (Or.inr ⟨rfl, hreply⟩))
      have hwaits := hi.awaited _ ⟨c, hc, hclass, hpid.symm⟩
      rw [busy_eq_holds hi hc hpid] at hwaits
      unfold Container.holds at hwaits
      split at hwaits
      next hsome => exact Option.isSome_iff_exists.mp hsome
      next => omega

/-- OnEventFire of a process goes through. -/
theorem fire_goes_through (sent : Bool) : ∃ r, c.onEventFire s.queues sent = .ok r := by
  have hv := hi.valid c hc
  obtain ⟨_, hidle⟩ | ⟨x, rest, htakes, _, _, hfire⟩ := onEventFire_eq (hi.text c.svc) sent
  · exact ⟨_, hidle⟩
  · have hx : x.cmd.iType ≠ RESPONSE ∧ (x.cmd.iSvcSerialNo ≠ 0 → routeCmd x.cmd.iCmd ≠ none) ∨
        x.cmd.iType = RESPONSE ∧ c.svc = .CSvcTest2 ∧
          c.dispatcher.m_mapStatefulSvcQueue.find? x.cmd.iSvcSerialNo ≠ none := by
      by_cases htype : x.cmd.iType = RESPONSE
      · obtain ⟨hclass, svc, hfind⟩ := taken_response hi hc htakes htype
        exact Or.inr ⟨htype, hclass, by simp [hfind]⟩
      · refine Or.inl ⟨htype, fun _ => ?_⟩
        rcases taken_request hi hc htakes htype with ⟨_, hroute⟩ | ⟨_, hask, _⟩
        · simp [hroute]
        · rw [hask.iCmd]
          decide
    obtain ⟨d, w, hp⟩ := processMsg_total hv (Function.update s.queues c.svc.mqKey rest) sent hx
    rw [hfire, QMsg.cmd_eq, hp]
    exact ⟨_, rfl⟩

end

end NetioMiddleware

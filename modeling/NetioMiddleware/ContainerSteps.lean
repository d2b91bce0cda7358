import NetioMiddleware.Container

namespace NetioMiddleware

/-- A queue table after a message was offered to one queue. -/
def offer (queues : Int32 → List QMsg) (key : Int32) (m : QMsg) (sent : Bool) : Int32 → List QMsg :=
  if sent = true ∧ 0 < m.mtype then Function.update queues key (queues key ++ [m]) else queues

theorem put_queues (w : World) (key : Int32) (t : Int) (c : CCmd) (sent : Bool) :
    (w.put key ((MsgBuf.reset.withType t).printCmd c) sent).queues =
      offer w.queues key (cmdMsg t c) sent := by
  have h := putMsg_cases (w.queues key) (MsgBuf.reset.withType t) c sent
  dsimp only [World.put]
  rw [h]
  unfold offer
  split
  next hs => exact (if_pos hs).symm
  next hs => exact (Function.update_eq_self _ _).trans (if_neg hs).symm

/-- The message ProcessMsg replies with, and its queue. -/
def replyTo (pid : Nat) (oCmd : CCmd) : Option (Int32 × QMsg) :=
  if oCmd.iSvcSerialNo ≠ 0 then
    (routeCmd oCmd.iCmd).map fun key =>
      (key, cmdMsg (appType (oCmd.iSvcSerialNo.toInt.tdiv 100)) { oCmd with iType := RESPONSE })
  else
    some (NET_IO_BACK_MSQ_KEY, cmdMsg RESPONSE.toInt
      { oCmd with sData := oCmd.sData ++ bytes " by pid:" ++ printNat pid, iType := RESPONSE })

theorem reply_cases {pid : Nat} {oCmd : CCmd} {w w' : World} {sent : Bool}
    (h : reply pid oCmd w sent = .ok w') :
    ∃ key m, replyTo pid oCmd = some (key, m) ∧ w'.queues = offer w.queues key m sent ∧
      w'.frames = w.frames := by
  unfold reply at h
  unfold replyTo
  split at h
  next hs =>
    rw [if_pos hs]
    split at h
    next => cases h
    next key hkey =>
      cases Except.ok.inj h
      exact ⟨key, _, by rw [hkey]; rfl, put_queues _ _ _ _ _, rfl⟩
  next hs =>
    rw [if_neg hs]
    cases Except.ok.inj h
    exact ⟨_, _, rfl, put_queues _ _ _ _ _, rfl⟩

/-- The process numbers for which every handler number fits an int. -/
structure Container.Numbered (c : Container) : Prop where
  pos : 0 < c.pid
  fits : c.pid * 100 + 99 < 2 ^ 31
  slot : ∀ i ∈ c.slots, i < 100

def Container.registered (c : Container) : List IService := Container.handlers c.svc c.pid c.slots

/-- The state of a process between two events: a free handler is at its start,
a busy one is suspended or, if it never suspends, has returned. -/
structure Container.Valid (c : Container) : Prop where
  numbered : c.Numbered
  partitioned : Partitioned c.registered c.dispatcher
  free : ∀ k h, c.dispatcher.m_mapStatelessSvcQueue.find? k = some h → c.frames k = .start
  busy : ∀ k h, c.dispatcher.m_mapStatefulSvcQueue.find? k = some h →
    match c.svc with
    | .CSvcTest => c.frames k = .finished
    | .CSvcTest2 => ∃ obj3, c.frames k = .suspended obj3

theorem handler_index {c : Container} (hn : c.Numbered) {svc : IService} (h : svc ∈ c.registered) :
    svc.svc = c.svc ∧ svc.m_iCmd = c.svc.inputIndex ∧
      ∃ i, i < 100 ∧ svc.m_iIndex = Int32.ofNat (c.pid * 100 + i) ∧
        svc.m_iIndex.toInt = c.pid * 100 + i := by
  obtain ⟨i, hi, rfl⟩ := List.mem_map.mp h
  have hlt := hn.slot i hi
  have hfits := hn.fits
  refine ⟨rfl, rfl, i, hlt, rfl, ?_⟩
  simpa using Int32.toInt_ofNat_of_lt (show c.pid * 100 + i < 2 ^ 31 by omega)

theorem handler_index_ne_zero {c : Container} (hn : c.Numbered) {svc : IService}
    (h : svc ∈ c.registered) : svc.m_iIndex ≠ 0 := by
  obtain ⟨_, _, i, _, _, hv⟩ := handler_index hn h
  intro h0
  have hpos := hn.pos
  rw [h0] at hv
  have : (0 : Int32).toInt = 0 := rfl
  omega

theorem handler_pid {c : Container} (hn : c.Numbered) {svc : IService} (h : svc ∈ c.registered) :
    svc.m_iIndex.toInt.tdiv 100 = c.pid := by
  obtain ⟨_, _, i, hi, _, hv⟩ := handler_index hn h
  rw [hv, Int.tdiv_eq_ediv_of_nonneg (by omega)]
  omega

/-- The two maps of a dispatcher. -/
def Dispatcher.maps (d : Dispatcher) : SortedMap Int32 IService × SortedMap Int32 IService :=
  (d.m_mapStatelessSvcQueue, d.m_mapStatefulSvcQueue)

/-- The handler Dispatch takes for a request. -/
def Container.freeHandler (c : Container) : Option IService :=
  c.dispatcher.m_mapStatelessSvcQueue.entries.head?.map Prod.snd

/-- The maps once a handler has become busy. -/
def Container.held (c : Container) (svc : IService) :
    SortedMap Int32 IService × SortedMap Int32 IService :=
  (c.dispatcher.m_mapStatelessSvcQueue.erase svc.m_iIndex,
    c.dispatcher.m_mapStatefulSvcQueue.assign svc.m_iIndex svc)

/-- The maps once a handler has become free. -/
def Container.released (c : Container) (svc : IService) :
    SortedMap Int32 IService × SortedMap Int32 IService :=
  (c.dispatcher.m_mapStatelessSvcQueue.assign svc.m_iIndex svc,
    c.dispatcher.m_mapStatefulSvcQueue.erase svc.m_iIndex)

/-- What ProcessMsg does with a command in a valid process: refuse a request
that finds no handler, answer it, leave it with a handler that was told not to
finish, hold it while its own request is under way, or end a held one. -/
inductive Processed (c : Container) (queues : Int32 → List QMsg) (oCmd : CCmd) (sent : Bool) :
    SortedMap Int32 IService × SortedMap Int32 IService → (Int32 → Frame) →
    (Int32 → List QMsg) → Prop
  | refuse {key m} : oCmd.iType ≠ RESPONSE → c.freeHandler = none →
      replyTo c.pid (replyCmd NO_FREE_SVC_HANDLER oCmd) = some (key, m) →
      Processed c queues oCmd sent c.dispatcher.maps c.frames (offer queues key m sent)
  | answer {svc key m} : oCmd.iType ≠ RESPONSE → c.freeHandler = some svc → c.svc = .CSvcTest →
      oCmd.iRet ≠ UNFINISH_TASK_RET_FLAG →
      replyTo c.pid (replyCmd oCmd.iRet
        { oCmd with sData := bytes "resp1=r1", iType := RESPONSE }) = some (key, m) →
      Processed c queues oCmd sent c.dispatcher.maps c.frames (offer queues key m sent)
  | keep {svc} : oCmd.iType ≠ RESPONSE → c.freeHandler = some svc → c.svc = .CSvcTest →
      oCmd.iRet = UNFINISH_TASK_RET_FLAG →
      Processed c queues oCmd sent (c.held svc)
        (Function.update c.frames svc.m_iIndex .finished) queues
  | ask {svc} : oCmd.iType ≠ RESPONSE → c.freeHandler = some svc → c.svc = .CSvcTest2 →
      Processed c queues oCmd sent (c.held svc)
        (Function.update c.frames svc.m_iIndex (.suspended oCmd))
        (offer queues 0xccccd
          (cmdMsg REQUEST.toInt { iSvcSerialNo := svc.m_iIndex, iCmd := svc.m_iCmd }) sent)
  | resume {svc obj3 key m} : oCmd.iType = RESPONSE → c.svc = .CSvcTest2 →
      c.dispatcher.m_mapStatefulSvcQueue.find? oCmd.iSvcSerialNo = some svc →
      c.frames oCmd.iSvcSerialNo = .suspended obj3 →
      replyTo c.pid (svcTest2End obj3 oCmd) = some (key, m) →
      Processed c queues oCmd sent (c.released svc)
        (Function.update c.frames svc.m_iIndex .start) (offer queues key m sent)

section

variable {σ : Type} (co : Coroutines σ)

theorem resumeLoop_skip {l : List (Int32 × IService)} {cur : CCmd} (h : ∀ e ∈ l, cur.iSvcSerialNo ≠ e.1)
    (found : Option IService) (w : σ) : resumeLoop co l found cur w = .ok (found, cur, w) := by
  induction l with
  | nil => rfl
  | cons e l ih =>
    unfold resumeLoop
    rw [if_neg (h e List.mem_cons_self)]
    exact ih (fun e' he' => h e' (List.mem_cons_of_mem e he'))

/-- The loop switches to the handler it looks for and goes on behind it. -/
theorem resumeLoop_hit (w : σ) {l : List (Int32 × IService)} {cur : CCmd} {svc : IService}
    (hs : l.Pairwise (fun x y => x.1 < y.1)) (h : (cur.iSvcSerialNo, svc) ∈ l) :
    ∃ rest, (∀ e, e ∈ rest ↔ e ∈ l ∧ cur.iSvcSerialNo < e.1) ∧ ∀ found, resumeLoop co l found cur w =
      match co.switchTo svc cur w with
      | .error e => .error e
      | .ok (cur, w) => resumeLoop co rest (some svc) cur w := by
  induction l with
  | nil => contradiction
  | cons e l ih =>
    obtain ⟨he, hs⟩ := List.pairwise_cons.mp hs
    rcases List.mem_cons.mp h with rfl | h
    · refine ⟨l, fun e => ⟨fun hm => ⟨List.mem_cons_of_mem _ hm, he e hm⟩, ?_⟩, fun found => ?_⟩
      · rintro ⟨hm, hlt⟩
        rcases List.mem_cons.mp hm with rfl | hm
        · exact absurd hlt (lt_irrefl _)
        · exact hm
      · conv_lhs => unfold resumeLoop
        exact if_pos rfl
    · have hbefore := he _ h
      obtain ⟨rest, hsub, hrest⟩ := ih hs h
      refine ⟨rest, fun d => ⟨fun hm => ?_, ?_⟩, fun found => ?_⟩
      · obtain ⟨hm, hlt⟩ := (hsub d).mp hm
        exact ⟨List.mem_cons_of_mem e hm, hlt⟩
      · rintro ⟨hm, hlt⟩
        rcases List.mem_cons.mp hm with rfl | hm
        · exact absurd hlt (lt_asymm hbefore)
        · exact (hsub d).mpr ⟨hm, hlt⟩
      · rw [← hrest found]
        conv_lhs => unfold resumeLoop
        rw [if_neg (ne_of_gt hbefore)]

end

theorem freeHandler_eq_some {c : Container} (hv : c.Valid) {svc : IService}
    (h : c.freeHandler = some svc) :
    ∃ rest, c.dispatcher.m_mapStatelessSvcQueue.entries = (svc.m_iIndex, svc) :: rest ∧
      c.dispatcher.m_mapStatelessSvcQueue.find? svc.m_iIndex = some svc ∧
      c.dispatcher.m_mapStatefulSvcQueue.find? svc.m_iIndex = none ∧ svc ∈ c.registered ∧
      c.frames svc.m_iIndex = .start := by
  unfold Container.freeHandler at h
  cases he : c.dispatcher.m_mapStatelessSvcQueue.entries with
  | nil => rw [he] at h; contradiction
  | cons it rest =>
    rw [he] at h
    obtain rfl : it.2 = svc := Option.some.inj h
    have hfind : c.dispatcher.m_mapStatelessSvcQueue.find? it.1 = some it.2 :=
      SortedMap.find?_eq_some_iff.mpr (by rw [he]; exact List.mem_cons_self)
    obtain ⟨hreg, hkey⟩ := hv.partitioned.free it.1 it.2 hfind
    have hidle := hv.free it.1 it.2 hfind
    rw [hkey] at hfind hidle
    refine ⟨rest, by rw [← hkey], hfind, ?_, hreg, hidle⟩
    rcases hv.partitioned.one it.2 hreg with ⟨_, hb⟩ | ⟨hf, _⟩
    · exact hb
    · rw [hf] at hfind; contradiction

/-- A handler that is taken and given back at once leaves the maps as they were. -/
theorem held_released {c : Container} (hv : c.Valid) {svc : IService} (h : c.freeHandler = some svc) :
    ((c.dispatcher.m_mapStatelessSvcQueue.erase svc.m_iIndex).assign svc.m_iIndex svc,
      (c.dispatcher.m_mapStatefulSvcQueue.assign svc.m_iIndex svc).erase svc.m_iIndex) =
    c.dispatcher.maps := by
  obtain ⟨_, _, hfree, hbusy, _⟩ := freeHandler_eq_some hv h
  refine Prod.ext (SortedMap.ext_find? fun k => ?_) (SortedMap.ext_find? fun k => ?_)
  · simp only [SortedMap.find?_assign, SortedMap.find?_erase, Dispatcher.maps]
    by_cases hk : k = svc.m_iIndex
    · rw [if_pos hk, hk, hfree]
    · rw [if_neg hk, if_neg hk]
  · simp only [SortedMap.find?_assign, SortedMap.find?_erase, Dispatcher.maps]
    by_cases hk : k = svc.m_iIndex
    · rw [if_pos hk, hk, hbusy]
    · rw [if_neg hk, if_neg hk]

theorem finishDispatch_done {σ : Type} (co : Coroutines σ) {d : Dispatcher} (svc : IService) (w : σ)
    (h : d.m_oCurCmdObj.iRet ≠ UNFINISH_TASK_RET_FLAG) :
    finishDispatch co d svc w = (d.m_oCurCmdObj.iRet, d.m_oCurCmdObj,
      { d with
        m_mapStatefulSvcQueue := d.m_mapStatefulSvcQueue.erase svc.m_iIndex
        m_mapStatelessSvcQueue := d.m_mapStatelessSvcQueue.assign svc.m_iIndex svc },
      co.resetUCTX svc w) := if_pos h

theorem finishDispatch_kept {σ : Type} (co : Coroutines σ) {d : Dispatcher} (svc : IService) (w : σ)
    (h : d.m_oCurCmdObj.iRet = UNFINISH_TASK_RET_FLAG) :
    finishDispatch co d svc w = (d.m_oCurCmdObj.iRet, d.m_oCurCmdObj, d, w) := if_neg (not_not.mpr h)

section

variable (sent : Bool) {svc : IService} (oCmd : CCmd) {w : World}

theorem switchTo_finished (h : w.frames svc.m_iIndex = .finished) :
    (services sent).switchTo svc oCmd w = .error .deadCoroutine := by
  simp only [services, h]

theorem switchTo_suspended {obj3 : CCmd} (h : w.frames svc.m_iIndex = .suspended obj3) :
    (services sent).switchTo svc oCmd w =
      .ok (svcTest2End obj3 oCmd, w.setFrame svc.m_iIndex .finished) := by
  simp only [services, h]

theorem switchTo_svcTest (h : w.frames svc.m_iIndex = .start) (hc : svc.svc = .CSvcTest) :
    (services sent).switchTo svc oCmd w =
      .ok ((svcTestExecute svc oCmd w).1,
        (svcTestExecute svc oCmd w).2.setFrame svc.m_iIndex .finished) := by
  simp only [services, h, hc]

theorem switchTo_svcTest2 (h : w.frames svc.m_iIndex = .start) (hc : svc.svc = .CSvcTest2) :
    (services sent).switchTo svc oCmd w = .ok (svcTest2Begin svc oCmd w sent) := by
  simp only [services, h, hc]

end

theorem svcTest2End_iRet (obj3 oCmd : CCmd) : (svcTest2End obj3 oCmd).iRet = 0 := rfl

/-- A process together with the queues it works on. -/
def Container.world (c : Container) (queues : Int32 → List QMsg) : World := ⟨c.frames, queues, c.stats⟩

section

variable {c : Container} (hv : c.Valid) (queues : Int32 → List QMsg) (sent : Bool) {oCmd : CCmd}

theorem dispatch_refuse (htype : oCmd.iType ≠ RESPONSE) (hfree : c.freeHandler = none) :
    dispatch (services sent) c.dispatcher (c.world queues) oCmd =
      .ok (NO_FREE_SVC_HANDLER, oCmd, { c.dispatcher with m_oCurCmdObj := oCmd }, c.world queues) := by
  unfold Container.freeHandler at hfree
  unfold dispatch
  rw [if_neg htype]
  split
  next => rfl
  next it rest he => rw [he] at hfree; contradiction

include hv

/-- The request path of Dispatch up to the end of the switch. -/
theorem dispatch_request {svc : IService} {cur : CCmd} {w : World} (htype : oCmd.iType ≠ RESPONSE)
    (hfree : c.freeHandler = some svc)
    (hswitch : (services sent).switchTo svc oCmd (c.world queues) = .ok (cur, w)) :
    dispatch (services sent) c.dispatcher (c.world queues) oCmd =
      .ok (finishDispatch (services sent)
        { c.dispatcher with
          m_oCurCmdObj := cur
          m_mapStatelessSvcQueue := c.dispatcher.m_mapStatelessSvcQueue.erase svc.m_iIndex
          m_mapStatefulSvcQueue := c.dispatcher.m_mapStatefulSvcQueue.assign svc.m_iIndex svc }
        svc w) := by
  obtain ⟨rest, he, _⟩ := freeHandler_eq_some hv hfree
  unfold dispatch
  rw [if_neg htype, he]
  dsimp only
  rw [hswitch]

theorem dispatch_answer {svc : IService} (htype : oCmd.iType ≠ RESPONSE)
    (hfree : c.freeHandler = some svc) (hclass : c.svc = .CSvcTest)
    (hret : oCmd.iRet ≠ UNFINISH_TASK_RET_FLAG) :
    ∃ d w, dispatch (services sent) c.dispatcher (c.world queues) oCmd =
        .ok (oCmd.iRet, { oCmd with sData := bytes "resp1=r1", iType := RESPONSE }, d, w) ∧
      d.maps = c.dispatcher.maps ∧ w.frames = c.frames ∧ w.queues = queues := by
  obtain ⟨_, _, _, _, hreg, hstart⟩ := freeHandler_eq_some hv hfree
  have hsvc := (handler_index hv.numbered hreg).1.trans hclass
  have hd := dispatch_request hv queues sent htype hfree (switchTo_svcTest sent oCmd hstart hsvc)
  rw [finishDispatch_done _ _ _ hret] at hd
  refine ⟨_, _, hd, held_released hv hfree, ?_, rfl⟩
  change Function.update (Function.update c.frames svc.m_iIndex .finished) svc.m_iIndex .start = _
  rw [Function.update_idem, ← hstart, Function.update_eq_self]

theorem dispatch_keep {svc : IService} (htype : oCmd.iType ≠ RESPONSE)
    (hfree : c.freeHandler = some svc) (hclass : c.svc = .CSvcTest)
    (hret : oCmd.iRet = UNFINISH_TASK_RET_FLAG) :
    ∃ oCmd' d w, dispatch (services sent) c.dispatcher (c.world queues) oCmd =
        .ok (UNFINISH_TASK_RET_FLAG, oCmd', d, w) ∧ d.maps = c.held svc ∧
      w.frames = Function.update c.frames svc.m_iIndex .finished ∧ w.queues = queues := by
  obtain ⟨_, _, _, _, hreg, hstart⟩ := freeHandler_eq_some hv hfree
  have hsvc := (handler_index hv.numbered hreg).1.trans hclass
  have hd := dispatch_request hv queues sent htype hfree (switchTo_svcTest sent oCmd hstart hsvc)
  rw [finishDispatch_kept _ _ _ hret] at hd
  exact ⟨_, _, _, hd.trans (congrArg (fun r => Except.ok (r, _)) hret), rfl, rfl, rfl⟩

theorem dispatch_ask {svc : IService} (htype : oCmd.iType ≠ RESPONSE)
    (hfree : c.freeHandler = some svc) (hclass : c.svc = .CSvcTest2) :
    ∃ oCmd' d w, dispatch (services sent) c.dispatcher (c.world queues) oCmd =
        .ok (UNFINISH_TASK_RET_FLAG, oCmd', d, w) ∧ d.maps = c.held svc ∧
      w.frames = Function.update c.frames svc.m_iIndex (.suspended oCmd) ∧
      w.queues = offer queues 0xccccd
        (cmdMsg REQUEST.toInt { iSvcSerialNo := svc.m_iIndex, iCmd := svc.m_iCmd }) sent := by
  obtain ⟨_, _, _, _, hreg, hstart⟩ := freeHandler_eq_some hv hfree
  have hsvc := (handler_index hv.numbered hreg).1.trans hclass
  have hd := dispatch_request hv queues sent htype hfree (switchTo_svcTest2 sent oCmd hstart hsvc)
  rw [finishDispatch_kept _ _ _ rfl] at hd
  exact ⟨_, _, _, hd, rfl, rfl, put_queues _ _ _ _ _⟩

theorem stateful_ne_zero :
    ∀ e ∈ c.dispatcher.m_mapStatefulSvcQueue.entries, (0 : Int32) ≠ e.1 := by
  intro e he h0
  obtain ⟨hreg, hkey⟩ := hv.partitioned.busy e.1 e.2 (SortedMap.find?_eq_some_iff.mpr he)
  exact handler_index_ne_zero hv.numbered hreg (hkey ▸ h0.symm)

theorem dispatch_resume {svc : IService} {obj3 : CCmd} (htype : oCmd.iType = RESPONSE)
    (hfind : c.dispatcher.m_mapStatefulSvcQueue.find? oCmd.iSvcSerialNo = some svc)
    (hframe : c.frames oCmd.iSvcSerialNo = .suspended obj3) :
    ∃ d w, dispatch (services sent) c.dispatcher (c.world queues) oCmd =
        .ok (0, svcTest2End obj3 oCmd, d, w) ∧ d.maps = c.released svc ∧
      w.frames = Function.update c.frames svc.m_iIndex .start ∧ w.queues = queues := by
  obtain ⟨hreg, hkey⟩ := hv.partitioned.busy _ _ hfind
  obtain ⟨rest, hsub, hloop⟩ := resumeLoop_hit (services sent) (c.world queues)
    c.dispatcher.m_mapStatefulSvcQueue.sorted (SortedMap.find?_eq_some_iff.mp hfind)
  rw [hkey] at hframe
  have hswitch := switchTo_suspended sent oCmd (w := c.world queues) hframe
  have hrest : ∀ e ∈ rest, (svcTest2End obj3 oCmd).iSvcSerialNo ≠ e.1 :=
    fun e he => stateful_ne_zero hv e ((hsub e).mp he).1
  have hd : dispatch (services sent) c.dispatcher (c.world queues) oCmd =
      .ok (finishDispatch (services sent)
        { c.dispatcher with m_oCurCmdObj := svcTest2End obj3 oCmd } svc
        ((c.world queues).setFrame svc.m_iIndex .finished)) := by
    unfold dispatch
    rw [if_pos htype, hloop, hswitch]
    dsimp only
    rw [resumeLoop_skip _ hrest]
  have hdone : (svcTest2End obj3 oCmd).iRet ≠ UNFINISH_TASK_RET_FLAG :=
    show (0 : Int32) ≠ UNFINISH_TASK_RET_FLAG by decide
  rw [finishDispatch_done _ _ _ hdone] at hd
  simp only [svcTest2End_iRet] at hd
  refine ⟨_, _, hd, rfl, ?_, rfl⟩
  change Function.update (Function.update c.frames svc.m_iIndex .finished) svc.m_iIndex .start = _
  rw [Function.update_idem]

/-- A response no handler can take stops the process. -/
theorem dispatch_stray (htype : oCmd.iType = RESPONSE)
    (hstray : c.svc = .CSvcTest ∨
      c.dispatcher.m_mapStatefulSvcQueue.find? oCmd.iSvcSerialNo = none) :
    ∃ e, dispatch (services sent) c.dispatcher (c.world queues) oCmd = .error e := by
  unfold dispatch
  rw [if_pos htype]
  cases hfind : c.dispatcher.m_mapStatefulSvcQueue.find? oCmd.iSvcSerialNo with
  | none =>
    have hmiss := SortedMap.find?_eq_none_iff.mp hfind
    rw [resumeLoop_skip _ (fun e he heq => hmiss e he heq.symm)]
    exact ⟨_, rfl⟩
  | some svc =>
    have hclass := hstray.resolve_right (by simp [hfind])
    obtain ⟨hreg, hkey⟩ := hv.partitioned.busy _ _ hfind
    obtain ⟨rest, _, hloop⟩ := resumeLoop_hit (services sent) (c.world queues)
      c.dispatcher.m_mapStatefulSvcQueue.sorted (SortedMap.find?_eq_some_iff.mp hfind)
    have hframe := hv.busy _ _ hfind
    rw [hclass, hkey] at hframe
    have hswitch := switchTo_finished sent oCmd (w := c.world queues) hframe
    rw [hloop, hswitch]
    exact ⟨_, rfl⟩

end

section

variable {pid : Nat} {d d' : Dispatcher} {w w' : World} {oCmd cur : CCmd} {sent : Bool} {iRet : Int32}

/-- An unfinished dispatch sends no reply. -/
theorem processMsg_unfinished
    (hd : dispatch (services sent) d w oCmd = .ok (UNFINISH_TASK_RET_FLAG, cur, d', w')) :
    processMsg pid d w oCmd sent = .ok (d', w') := by
  rw [processMsg, hd]
  exact if_pos rfl

theorem processMsg_finished (hd : dispatch (services sent) d w oCmd = .ok (iRet, cur, d', w'))
    (hret : iRet ≠ UNFINISH_TASK_RET_FLAG) : processMsg pid d w oCmd sent =
      match reply pid (replyCmd iRet cur) w' sent with
      | .error e => .error e
      | .ok w => .ok (d', w) := by
  rw [processMsg, hd]
  exact if_neg hret

theorem processMsg_replied {d1 : Dispatcher} {w1 : World}
    (hd : dispatch (services sent) d w oCmd = .ok (iRet, cur, d', w'))
    (hret : iRet ≠ UNFINISH_TASK_RET_FLAG) (h : processMsg pid d w oCmd sent = .ok (d1, w1)) :
    d1 = d' ∧ ∃ key m, replyTo pid (replyCmd iRet cur) = some (key, m) ∧
      w1.queues = offer w'.queues key m sent ∧ w1.frames = w'.frames := by
  rw [processMsg_finished hd hret] at h
  split at h
  next => cases h
  next w2 hreply =>
    cases Except.ok.inj h
    exact ⟨rfl, reply_cases hreply⟩

end

/-- ProcessMsg in a valid process, when it does not stop. -/
theorem processMsg_processed {c : Container} (hv : c.Valid) {queues : Int32 → List QMsg} {oCmd : CCmd}
    {sent : Bool} {d : Dispatcher} {w : World}
    (h : processMsg c.pid c.dispatcher (c.world queues) oCmd sent = .ok (d, w)) :
    Processed c queues oCmd sent d.maps w.frames w.queues := by
  by_cases htype : oCmd.iType = RESPONSE
  · have stray : ∀ e, dispatch (services sent) c.dispatcher (c.world queues) oCmd = .error e → False := by
      intro e he
      rw [processMsg, he] at h
      cases h
    cases hclass : c.svc with
    | CSvcTest =>
      obtain ⟨e, he⟩ := dispatch_stray hv queues sent htype (Or.inl hclass)
      exact (stray e he).elim
    | CSvcTest2 =>
      cases hfind : c.dispatcher.m_mapStatefulSvcQueue.find? oCmd.iSvcSerialNo with
      | none =>
        obtain ⟨e, he⟩ := dispatch_stray hv queues sent htype (Or.inr hfind)
        exact (stray e he).elim
      | some svc =>
        have hframe := hv.busy _ _ hfind
        rw [hclass] at hframe
        obtain ⟨obj3, hframe⟩ := hframe
        obtain ⟨d', w', hd, hmaps, hframes, hqueues⟩ :=
          dispatch_resume hv queues sent htype hfind hframe
        obtain ⟨rfl, key, m, hto, hq, hf⟩ := processMsg_replied hd (by decide) h
        rw [hmaps, hq, hf, hframes, hqueues]
        exact .resume htype hclass hfind hframe hto
  · cases hfree : c.freeHandler with
    | none =>
      obtain ⟨rfl, key, m, hto, hq, hf⟩ :=
        processMsg_replied (dispatch_refuse queues sent htype hfree) (by decide) h
      rw [hq, hf]
      exact .refuse htype hfree hto
    | some svc =>
      cases hclass : c.svc with
      | CSvcTest =>
        by_cases hret : oCmd.iRet = UNFINISH_TASK_RET_FLAG
        · obtain ⟨_, d', w', hd, hmaps, hframes, hqueues⟩ :=
            dispatch_keep hv queues sent htype hfree hclass hret
          cases Except.ok.inj ((processMsg_unfinished hd).symm.trans h)
          rw [hmaps, hframes, hqueues]
          exact .keep htype hfree hclass hret
        · obtain ⟨d', w', hd, hmaps, hframes, hqueues⟩ :=
            dispatch_answer hv queues sent htype hfree hclass hret
          obtain ⟨rfl, key, m, hto, hq, hf⟩ := processMsg_replied hd hret h
          rw [hmaps, hq, hf, hframes, hqueues]
          exact .answer htype hfree hclass hret hto
      | CSvcTest2 =>
        obtain ⟨_, d', w', hd, hmaps, hframes, hqueues⟩ :=
          dispatch_ask hv queues sent htype hfree hclass
        cases Except.ok.inj ((processMsg_unfinished hd).symm.trans h)
        rw [hmaps, hframes, hqueues]
        exact .ask htype hfree hclass

theorem reply_total (pid : Nat) {oCmd : CCmd} (w : World) (sent : Bool)
    (h : oCmd.iSvcSerialNo ≠ 0 → routeCmd oCmd.iCmd ≠ none) :
    ∃ w', reply pid oCmd w sent = .ok w' := by
  unfold reply
  split
  next hs =>
    split
    next hnone => exact absurd hnone (h hs)
    next => exact ⟨_, rfl⟩
  next => exact ⟨_, rfl⟩

theorem replyCmd_route (iRet : Int32) (oCmd : CCmd) :
    (replyCmd iRet oCmd).iSvcSerialNo = oCmd.iSvcSerialNo ∧ (replyCmd iRet oCmd).iCmd = oCmd.iCmd := by
  unfold replyCmd
  split <;> exact ⟨rfl, rfl⟩

/-- ProcessMsg goes through with a request whose command has a queue, and with
a response to a suspended handler. -/
theorem processMsg_total {c : Container} (hv : c.Valid) (queues : Int32 → List QMsg) {oCmd : CCmd}
    (sent : Bool)
    (h : oCmd.iType ≠ RESPONSE ∧ (oCmd.iSvcSerialNo ≠ 0 → routeCmd oCmd.iCmd ≠ none) ∨
      oCmd.iType = RESPONSE ∧ c.svc = .CSvcTest2 ∧
        c.dispatcher.m_mapStatefulSvcQueue.find? oCmd.iSvcSerialNo ≠ none) :
    ∃ d w, processMsg c.pid c.dispatcher (c.world queues) oCmd sent = .ok (d, w) := by
  have answered : ∀ iRet cur d w, dispatch (services sent) c.dispatcher (c.world queues) oCmd =
      .ok (iRet, cur, d, w) → (cur.iSvcSerialNo ≠ 0 → routeCmd cur.iCmd ≠ none) →
      ∃ d w, processMsg c.pid c.dispatcher (c.world queues) oCmd sent = .ok (d, w) := by
    intro iRet cur d w hd hroute
    obtain ⟨hserial, hcmd⟩ := replyCmd_route iRet cur
    obtain ⟨w', hreply⟩ := reply_total c.pid w sent (hserial ▸ hcmd ▸ hroute)
    by_cases hret : iRet = UNFINISH_TASK_RET_FLAG
    · subst hret
      exact ⟨d, w, processMsg_unfinished hd⟩
    · refine ⟨d, w', ?_⟩
      rw [processMsg_finished hd hret, hreply]
  obtain ⟨htype, hroute⟩ | ⟨htype, hclass, hfind⟩ := h
  · cases hfree : c.freeHandler with
    | none => exact answered _ _ _ _ (dispatch_refuse queues sent htype hfree) hroute
    | some svc =>
      cases hclass : c.svc with
      | CSvcTest =>
        by_cases hret : oCmd.iRet = UNFINISH_TASK_RET_FLAG
        · obtain ⟨cur, d, w, hd, _⟩ := dispatch_keep hv queues sent htype hfree hclass hret
          exact ⟨d, w, processMsg_unfinished hd⟩
        · obtain ⟨d, w, hd, _⟩ := dispatch_answer hv queues sent htype hfree hclass hret
          exact answered _ _ _ _ hd hroute
      | CSvcTest2 =>
        obtain ⟨cur, d, w, hd, _⟩ := dispatch_ask hv queues sent htype hfree hclass
        exact ⟨d, w, processMsg_unfinished hd⟩
  · obtain ⟨svc, hsvc⟩ := Option.ne_none_iff_exists'.mp hfind
    have hframe := hv.busy _ _ hsvc
    rw [hclass] at hframe
    obtain ⟨obj3, hframe⟩ := hframe
    obtain ⟨d, w, hd, _⟩ := dispatch_resume hv queues sent htype hsvc hframe
    exact answered _ _ _ _ hd (fun h0 => absurd rfl h0)

theorem reply_of_replyTo {pid : Nat} {oCmd : CCmd} {key : Int32} {m : QMsg} (w : World) (sent : Bool)
    (h : replyTo pid oCmd = some (key, m)) :
    ∃ w', reply pid oCmd w sent = .ok w' ∧ w'.queues = offer w.queues key m sent ∧
      w'.frames = w.frames := by
  have hroute : oCmd.iSvcSerialNo ≠ 0 → routeCmd oCmd.iCmd ≠ none := by
    intro hs hnone
    rw [replyTo, if_pos hs, hnone] at h
    cases h
  obtain ⟨w', hw'⟩ := reply_total pid w sent hroute
  obtain ⟨key', m', hto, hq, hf⟩ := reply_cases hw'
  obtain ⟨rfl, rfl⟩ := Prod.mk.inj (Option.some.inj (h.symm.trans hto))
  exact ⟨w', hw', hq, hf⟩

/-- ProcessMsg does in a valid process what is listed for it. -/
theorem Processed.processMsg {c : Container} (hv : c.Valid) {queues queues' : Int32 → List QMsg}
    {oCmd : CCmd} {sent : Bool} {maps : SortedMap Int32 IService × SortedMap Int32 IService}
    {frames : Int32 → Frame} (h : Processed c queues oCmd sent maps frames queues') :
    ∃ d w, processMsg c.pid c.dispatcher (c.world queues) oCmd sent = .ok (d, w) ∧
      d.maps = maps ∧ w.frames = frames ∧ w.queues = queues' := by
  have replied : ∀ {iRet cur d w key m}, dispatch (services sent) c.dispatcher (c.world queues) oCmd =
      .ok (iRet, cur, d, w) → iRet ≠ UNFINISH_TASK_RET_FLAG →
      replyTo c.pid (replyCmd iRet cur) = some (key, m) →
      ∃ w', NetioMiddleware.processMsg c.pid c.dispatcher (c.world queues) oCmd sent = .ok (d, w') ∧
        w'.frames = w.frames ∧ w'.queues = offer w.queues key m sent := by
    intro iRet cur d w key m hd hret hto
    obtain ⟨w', hreply, hq, hf⟩ := reply_of_replyTo w sent hto
    refine ⟨w', ?_, hf, hq⟩
    rw [processMsg_finished hd hret, hreply]
  cases h with
  | refuse htype hfree hto =>
    obtain ⟨w, hw, hf, hq⟩ := replied (dispatch_refuse queues sent htype hfree) (by decide) hto
    exact ⟨_, w, hw, rfl, hf, hq⟩
  | answer htype hfree hclass hret hto =>
    obtain ⟨d, w, hd, hmaps, hframes, hqueues⟩ := dispatch_answer hv queues sent htype hfree hclass hret
    obtain ⟨w', hw', hf, hq⟩ := replied hd hret hto
    exact ⟨d, w', hw', hmaps, hf.trans hframes, hqueues ▸ hq⟩
  | keep htype hfree hclass hret =>
    obtain ⟨_, d, w, hd, hmaps, hframes, hqueues⟩ := dispatch_keep hv queues sent htype hfree hclass hret
    exact ⟨d, w, processMsg_unfinished hd, hmaps, hframes, hqueues⟩
  | ask htype hfree hclass =>
    obtain ⟨_, d, w, hd, hmaps, hframes, hqueues⟩ := dispatch_ask hv queues sent htype hfree hclass
    exact ⟨d, w, processMsg_unfinished hd, hmaps, hframes, hqueues⟩
  | resume htype _ hfind hframe hto =>
    obtain ⟨d, w, hd, hmaps, hframes, hqueues⟩ := dispatch_resume hv queues sent htype hfind hframe
    obtain ⟨w', hw', hf, hq⟩ := replied hd (by decide) hto
    exact ⟨d, w', hw', hmaps, hf.trans hframes, hqueues ▸ hq⟩

/-- Message m is the first of its type in a queue, and rest is the queue without it. -/
def TakenFrom (queue : List QMsg) (m : QMsg) (rest : List QMsg) : Prop :=
  ∃ before after, queue = before ++ m :: after ∧ rest = before ++ after ∧
    ∀ x ∈ before, x.mtype ≠ m.mtype

/-- The message of one type GetMsg finds. -/
def firstOf (t : Int) (queue : List QMsg) : Option QMsg := queue.find? (fun x => x.mtype == t)

/-- The message OnEventFire processes: the first request, else the first message
of the type kept for this process. -/
def Container.takes (c : Container) (queues : Int32 → List QMsg) : Option QMsg :=
  (firstOf REQUEST.toInt (queues c.svc.mqKey)).or (firstOf (appType c.pid) (queues c.svc.mqKey))

theorem getMsg_cases {q : List QMsg} (hne : ∀ x ∈ q, x.mtext ≠ []) (t : Int) :
    (firstOf t q = none ∧ getMsg q (MsgBuf.reset.withType t) = (0, MsgBuf.reset.withType t, q)) ∨
    ∃ m rest buf, firstOf t q = some m ∧ TakenFrom q m rest ∧ m.mtype = t ∧ m.mtext.length ≠ 0 ∧
      getMsg q (MsgBuf.reset.withType t) = (m.mtext.length, buf, rest) ∧
      initCCmd {} buf.sBuf = initCCmd {} m.mtext := by
  cases hm : firstOf t q with
  | none =>
    have hq : ∀ x ∈ q, x.mtype ≠ t := by simpa [firstOf, List.find?_eq_none] using hm
    exact Or.inl ⟨rfl, getMsg_none hq⟩
  | some m =>
    obtain ⟨hmt, before, after, rfl, hbefore⟩ := List.find?_eq_some_iff_append.mp hm
    have hmt : m.mtype = t := by simpa using hmt
    have hbefore : ∀ x ∈ before, x.mtype ≠ t := fun x hx => by simpa using hbefore x hx
    obtain ⟨buf, hget, hdec⟩ := getMsg_first (b := after) hbefore hmt
    refine Or.inr ⟨m, before ++ after, buf, rfl, ⟨before, after, rfl, rfl, ?_⟩, hmt, ?_, hget, hdec {}⟩
    · rwa [hmt]
    · exact fun h0 => hne m (by simp) (List.eq_nil_of_length_eq_zero h0)

/-- What one OnEventFire of a process does: nothing, when no message is there
for it, or ProcessMsg on the message it takes. -/
theorem onEventFire_eq {c : Container} {queues : Int32 → List QMsg}
    (hne : ∀ x ∈ queues c.svc.mqKey, x.mtext ≠ []) (sent : Bool) :
    (c.takes queues = none ∧ c.onEventFire queues sent = .ok (c, queues)) ∨
    ∃ m rest, c.takes queues = some m ∧ TakenFrom (queues c.svc.mqKey) m rest ∧
      (m.mtype = REQUEST.toInt ∨ m.mtype = appType c.pid) ∧
      c.onEventFire queues sent =
        match processMsg c.pid c.dispatcher (c.world (Function.update queues c.svc.mqKey rest))
            (initCCmd {} m.mtext) sent with
        | .error e => .error e
        | .ok (d, w) =>
          .ok ({ c with dispatcher := d, frames := w.frames, stats := w.stats }, w.queues) := by
  unfold Container.onEventFire Container.takes
  dsimp only
  obtain ⟨hnone, hget⟩ | ⟨m, rest, buf, hfirst, htaken, ht, hlen, hget, hdec⟩ :=
    getMsg_cases hne REQUEST.toInt
  · rw [hget, hnone, Option.none_or]
    dsimp only
    rw [if_pos rfl]
    have hwith : (MsgBuf.reset.withType REQUEST.toInt).withType (appType c.pid) =
        MsgBuf.reset.withType (appType c.pid) := rfl
    rw [hwith]
    obtain ⟨hnone, hget⟩ | ⟨m, rest, buf, hfirst, htaken, ht, hlen, hget, hdec⟩ :=
      getMsg_cases hne (appType c.pid)
    · rw [hget, hnone]
      dsimp only
      rw [if_pos rfl, Function.update_eq_self]
      exact Or.inl ⟨rfl, rfl⟩
    · rw [hget, hfirst]
      dsimp only
      rw [if_neg hlen, hdec]
      exact Or.inr ⟨m, rest, rfl, htaken, Or.inr ht, rfl⟩
  · rw [hget, hfirst, Option.some_or]
    dsimp only
    rw [if_neg hlen, hdec]
    exact Or.inr ⟨m, rest, rfl, htaken, Or.inl ht, rfl⟩

theorem onEventFire_cases {c c' : Container} {queues queues' : Int32 → List QMsg} {sent : Bool}
    (hv : c.Valid) (hne : ∀ x ∈ queues c.svc.mqKey, x.mtext ≠ [])
    (h : c.onEventFire queues sent = .ok (c', queues')) :
    (c.takes queues = none ∧ c' = c ∧ queues' = queues) ∨
    ∃ m rest, c.takes queues = some m ∧ TakenFrom (queues c.svc.mqKey) m rest ∧
      (m.mtype = REQUEST.toInt ∨ m.mtype = appType c.pid) ∧
      (c'.svc = c.svc ∧ c'.pid = c.pid ∧ c'.slots = c.slots) ∧
      Processed c (Function.update queues c.svc.mqKey rest) (initCCmd {} m.mtext) sent
        c'.dispatcher.maps c'.frames queues' := by
  obtain ⟨hnone, hidle⟩ | ⟨m, rest, htakes, htaken, ht, hfire⟩ := onEventFire_eq hne sent
  · cases Except.ok.inj (h.symm.trans hidle)
    exact Or.inl ⟨hnone, rfl, rfl⟩
  · rw [hfire] at h
    split at h
    next => cases h
    next d w hp =>
      cases Except.ok.inj h
      exact Or.inr ⟨m, rest, htakes, htaken, ht, ⟨rfl, rfl, rfl⟩, processMsg_processed hv hp⟩

theorem Partitioned.of_maps {hs : List IService} {d d' : Dispatcher} (hp : Partitioned hs d)
    (h : d'.maps = d.maps) : Partitioned hs d' := by
  obtain ⟨hfree, hbusy⟩ := Prod.mk.inj h
  exact ⟨hfree ▸ hbusy ▸ hp.one, hfree ▸ hp.free, hbusy ▸ hp.busy⟩

theorem valid_held {c c' : Container} (hv : c.Valid) {svc : IService} {f : Frame}
    (hstatic : c'.svc = c.svc ∧ c'.pid = c.pid ∧ c'.slots = c.slots)
    (hfree : c.freeHandler = some svc) (hmaps : c'.dispatcher.maps = c.held svc)
    (hframes : c'.frames = Function.update c.frames svc.m_iIndex f)
    (hf : match c.svc with
      | .CSvcTest => f = .finished
      | .CSvcTest2 => ∃ obj3, f = .suspended obj3) : c'.Valid := by
  obtain ⟨hsvc, hpid, hslots⟩ := hstatic
  obtain ⟨_, _, _, _, hreg, _⟩ := freeHandler_eq_some hv hfree
  obtain ⟨hstateless, hstateful⟩ := Prod.mk.inj hmaps
  refine ⟨⟨hpid ▸ hv.numbered.pos, hpid ▸ hv.numbered.fits, hslots ▸ hv.numbered.slot⟩, ?_, ?_, ?_⟩
  · have hp := (hv.partitioned.hold {} hreg).of_maps hmaps
    rwa [Container.registered, hsvc, hpid, hslots]
  · intro k h hk
    rw [hstateless, SortedMap.find?_erase] at hk
    split at hk
    next => contradiction
    next hne =>
      rw [hframes, Function.update_of_ne hne]
      exact hv.free k h hk
  · intro k h hk
    rw [hstateful, SortedMap.find?_assign] at hk
    rw [hsvc, hframes]
    by_cases hkey : k = svc.m_iIndex
    · subst hkey
      simp only [Function.update_self]
      exact hf
    · rw [if_neg hkey] at hk
      rw [Function.update_of_ne hkey]
      exact hv.busy k h hk

theorem valid_released {c c' : Container} (hv : c.Valid) {svc : IService} {k : Int32}
    (hstatic : c'.svc = c.svc ∧ c'.pid = c.pid ∧ c'.slots = c.slots)
    (hfind : c.dispatcher.m_mapStatefulSvcQueue.find? k = some svc)
    (hmaps : c'.dispatcher.maps = c.released svc)
    (hframes : c'.frames = Function.update c.frames svc.m_iIndex .start) : c'.Valid := by
  obtain ⟨hsvc, hpid, hslots⟩ := hstatic
  obtain ⟨hreg, _⟩ := hv.partitioned.busy _ _ hfind
  obtain ⟨hstateless, hstateful⟩ := Prod.mk.inj hmaps
  refine ⟨⟨hpid ▸ hv.numbered.pos, hpid ▸ hv.numbered.fits, hslots ▸ hv.numbered.slot⟩, ?_, ?_, ?_⟩
  · have hp := (hv.partitioned.release hreg).of_maps hmaps
    rwa [Container.registered, hsvc, hpid, hslots]
  · intro k h hk
    rw [hstateless, SortedMap.find?_assign] at hk
    rw [hframes]
    by_cases hkey : k = svc.m_iIndex
    · rw [hkey, Function.update_self]
    · rw [if_neg hkey] at hk
      rw [Function.update_of_ne hkey]
      exact hv.free k h hk
  · intro k h hk
    rw [hstateful, SortedMap.find?_erase] at hk
    rw [hsvc, hframes]
    split at hk
    next => contradiction
    next hne =>
      rw [Function.update_of_ne hne]
      exact hv.busy k h hk

/-- ProcessMsg keeps a process valid. -/
theorem processed_valid {c c' : Container} (hv : c.Valid) {queues queues' : Int32 → List QMsg}
    {oCmd : CCmd} {sent : Bool}
    (hstatic : c'.svc = c.svc ∧ c'.pid = c.pid ∧ c'.slots = c.slots)
    (h : Processed c queues oCmd sent c'.dispatcher.maps c'.frames queues') : c'.Valid := by
  have same : c'.dispatcher.maps = c.dispatcher.maps → c'.frames = c.frames → c'.Valid := by
    intro hmaps hframes
    obtain ⟨hsvc, hpid, hslots⟩ := hstatic
    obtain ⟨hstateless, hstateful⟩ := Prod.mk.inj hmaps
    refine ⟨⟨hpid ▸ hv.numbered.pos, hpid ▸ hv.numbered.fits, hslots ▸ hv.numbered.slot⟩, ?_, ?_, ?_⟩
    · have hp := hv.partitioned.of_maps hmaps
      rwa [Container.registered, hsvc, hpid, hslots]
    · rw [hstateless, hframes]
      exact hv.free
    · rw [hstateful, hframes, hsvc]
      exact hv.busy
  generalize hm : c'.dispatcher.maps = maps at h
  generalize hf : c'.frames = frames at h
  cases h with
  | refuse => exact same hm hf
  | answer => exact same hm hf
  | keep _ hfree hclass => exact valid_held hv hstatic hfree hm hf (by rw [hclass])
  | ask _ hfree hclass => exact valid_held hv hstatic hfree hm hf (by rw [hclass]; exact ⟨_, rfl⟩)
  | resume _ _ hfind => exact valid_released hv hstatic hfind hm hf

theorem start_valid {svc : SvcClass} {pid : Nat} {slots : List Nat}
    (hn : (Container.start svc pid slots).Numbered) : (Container.start svc pid slots).Valid := by
  have hinj : ∀ h ∈ Container.handlers svc pid slots, ∀ h' ∈ Container.handlers svc pid slots,
      h.m_iIndex = h'.m_iIndex → h = h' := by
    intro h hh h' hh' he
    obtain ⟨hs, hc, _⟩ := handler_index hn hh
    obtain ⟨hs', hc', _⟩ := handler_index hn hh'
    cases h
    cases h'
    simp_all
  obtain ⟨hp, hidle⟩ := addSvcHandlers_partitioned _ empty_partitioned (fun _ => rfl) hinj
  refine ⟨hn, hp, fun _ _ _ => rfl, ?_⟩
  intro k h hk
  cases hk.symm.trans (hidle k)

end NetioMiddleware

import NetioMiddleware.HandlerPool
import NetioMiddleware.ReplyRouting
import NetioMiddleware.WatchList

namespace NetioMiddleware

/-- Two states that look the same: the handler maps of the processes, and the
messages of each queue with their texts and types. -/
structure Same (s s' : Backend) : Prop where
  maps : s.procs.map (·.dispatcher.maps) = s'.procs.map (·.dispatcher.maps)
  queues : s.queues = s'.queues

/-- Two states that look the same from here on: what one can do the other can do
too, and they look the same after any steps they take together. -/
def Indistinguishable (s s' : Backend) : Prop :=
  ∀ u u', backend.InStep (fun _ _ _ => True) s s' u u' → Same u u' ∧
    ∀ l, (∃ v, backend.step u l v) ↔ ∃ v, backend.step u' l v

/-- The handlers that wait for a response reply the same to it, whatever it is. -/
def RepliesAlike (s s' : Backend) : Prop :=
  ∀ (i : Nat) (c c' : Container) (k : Int32) (obj3 obj3' : CCmd), s.procs[i]? = some c →
    s'.procs[i]? = some c' → c.frames k = .suspended obj3 → c'.frames k = .suspended obj3' →
    ∀ oCmd, replyTo c.pid (svcTest2End obj3 oCmd) = replyTo c'.pid (svcTest2End obj3' oCmd)

/-- The runs of two requests until a process is about to take them. -/
def Waiting (ma mb : QMsg) (s s' t t' : Backend) : Prop :=
  backend.InStep (fun u u' l => ¬TakesPair (fun x y => x = ma ∧ y = mb) u u' l) s s' t t'

/-- Once the process has dealt with both requests nothing tells the two runs
apart, then or later. -/
def AnsweredAlike (t t' : Backend) (i : Nat) : Prop :=
  ∀ sent, ∃ u u', backend.step t (.fire i sent) u ∧ backend.step t' (.fire i sent) u' ∧
    Indistinguishable u u' ∧ RepliesAlike u u'

/-- The header fields in which two requests must agree to leave no different
trace: index where CSvcTest2 holds them, else those of a reply that is sent. -/
def HeaderAgrees (c : Container) (x y : CCmd) : Prop :=
  if c.freeHandler = none then
    (Unsendable x.iSvcSerialNo ∧ Unsendable y.iSvcSerialNo) ∨
    (x.iSvcSerialNo = y.iSvcSerialNo ∧ x.iIndex = y.iIndex)
  else
    match c.svc with
    | .CSvcTest =>
      (x.iRet = UNFINISH_TASK_RET_FLAG ∧ y.iRet = UNFINISH_TASK_RET_FLAG) ∨
      (x.iRet ≠ UNFINISH_TASK_RET_FLAG ∧ y.iRet ≠ UNFINISH_TASK_RET_FLAG ∧
        ((Unsendable x.iSvcSerialNo ∧ Unsendable y.iSvcSerialNo) ∨
          (x.iSvcSerialNo = y.iSvcSerialNo ∧ x.iIndex = y.iIndex ∧ x.iRet = y.iRet)))
    | .CSvcTest2 => x.iIndex = y.iIndex

theorem same_maps {l l' : List Container} (h : ∀ i : Nat, Option.Rel Twin l[i]? l'[i]?) :
    l.map (·.dispatcher.maps) = l'.map (·.dispatcher.maps) := by
  refine List.ext_getElem? (fun i => ?_)
  rw [List.getElem?_map, List.getElem?_map]
  cases hget : l[i]? with
  | none => rw [rel_none (h i) hget]
  | some c =>
    obtain ⟨c', hget', ht⟩ := rel_some (h i) hget
    rw [hget']
    exact congrArg some ht.maps

theorem differs_never : Differs (fun _ _ => False) := fun _ _ h => h.elim

theorem takesPair_never {s s' : Backend} {l : BackendLabel} : ¬TakesPair (fun _ _ => False) s s' l := by
  cases l with
  | fire i sent => exact fun ⟨_, _, _, _, _, _, _, _, h⟩ => h
  | _ => exact id

theorem rows_settled {D : QMsg → QMsg → Prop} {n : Nat} {l l' : List QMsg} (hn : n = 0)
    (h : Rows Eq D n l l') : l = l' := by
  subst hn
  exact List.forall₂_eq_eq_eq ▸ h.forall₂ (fun _ _ hxy => hxy)

theorem backend_step_unique {s u u' : Backend} {l : BackendLabel} (h : backend.step s l u)
    (h' : backend.step s l u') : u = u' :=
  Except.ok.inj (h.2.symm.trans h'.2)

section

variable {s s' : Backend} (h : Mirrored (fun _ _ => False) (fun _ => 0) s s')

include h

theorem mirrored_same : Same s s' where
  maps := same_maps h.alike.procs
  queues := funext fun key => rows_settled rfl (h.alike.queues key)

theorem mirrored_replies : RepliesAlike s s' := by
  intro i c c' k obj3 obj3' hget hget' hframe hframe' oCmd
  obtain ⟨d, hd, ht⟩ := rel_some (h.alike.procs i) hget
  obtain rfl := Option.some.inj (hget'.symm.trans hd)
  obtain ⟨d, hd, hsender⟩ := Frame.sameKind_suspended (ht.frames k) hframe
  obtain rfl := Frame.suspended.inj (hframe'.symm.trans hd)
  rw [ht.pid, svcTest2End_congr hsender]

theorem mirrored_indistinguishable : Indistinguishable s s' := by
  intro u u' hrun
  have hm : Mirrored (fun _ _ => False) (fun _ => 0) u u' := by
    refine hrun.relation h ?_
    intro s1 t1 l s2 t2 hm _ hs ht
    obtain ⟨t3, ht3, hm3⟩ := mirrored_step differs_never rfl hm takesPair_never hs
    rwa [backend_step_unique ht ht3]
  refine ⟨mirrored_same hm, fun l => ⟨?_, ?_⟩⟩
  · rintro ⟨v, hv⟩
    obtain ⟨v', hv', _⟩ := mirrored_step differs_never rfl hm takesPair_never hv
    exact ⟨v', hv'⟩
  · rintro ⟨v', hv'⟩
    obtain ⟨v, hv, _⟩ := mirrored_step differs_never rfl hm.symm takesPair_never hv'
    exact ⟨v, hv⟩

end

section

variable {c : Container} {queues after : Int32 → List QMsg} {oCmd : CCmd} {sent : Bool}
  {maps : SortedMap Int32 IService × SortedMap Int32 IService} {frames : Int32 → Frame}
  (h : Processed c queues oCmd sent maps frames after) (htype : oCmd.iType ≠ RESPONSE)

include h htype

theorem Processed.refused (hfree : c.freeHandler = none) : maps = c.dispatcher.maps ∧
    frames = c.frames ∧ ∃ k m, replyTo c.pid (replyCmd NO_FREE_SVC_HANDLER oCmd) = some (k, m) ∧
      after = offer queues k m sent := by
  cases h with
  | refuse _ _ hto => exact ⟨rfl, rfl, _, _, hto, rfl⟩
  | answer _ hsome => rw [hfree] at hsome; cases hsome
  | keep _ hsome => rw [hfree] at hsome; cases hsome
  | ask _ hsome => rw [hfree] at hsome; cases hsome
  | resume hresp => exact absurd hresp htype

theorem Processed.answered (hfree : c.freeHandler ≠ none) (hclass : c.svc = .CSvcTest)
    (hret : oCmd.iRet ≠ UNFINISH_TASK_RET_FLAG) : maps = c.dispatcher.maps ∧ frames = c.frames ∧
    ∃ k m, replyTo c.pid (replyCmd oCmd.iRet
      { oCmd with sData := bytes "resp1=r1", iType := RESPONSE }) = some (k, m) ∧
      after = offer queues k m sent := by
  cases h with
  | refuse _ hnone => exact absurd hnone hfree
  | answer _ _ _ _ hto => exact ⟨rfl, rfl, _, _, hto, rfl⟩
  | keep _ _ _ hkeep => exact absurd hkeep hret
  | ask _ _ hclass' => rw [hclass] at hclass'; cases hclass'
  | resume hresp => exact absurd hresp htype

theorem Processed.kept {svc : IService} (hfree : c.freeHandler = some svc) (hclass : c.svc = .CSvcTest)
    (hret : oCmd.iRet = UNFINISH_TASK_RET_FLAG) : maps = c.held svc ∧
    frames = Function.update c.frames svc.m_iIndex .finished ∧ after = queues := by
  cases h with
  | refuse _ hnone => rw [hfree] at hnone; cases hnone
  | answer _ _ _ hdone => exact absurd hret hdone
  | keep _ hsome =>
    cases Option.some.inj (hfree.symm.trans hsome)
    exact ⟨rfl, rfl, rfl⟩
  | ask _ _ hclass' => rw [hclass] at hclass'; cases hclass'
  | resume hresp => exact absurd hresp htype

theorem Processed.asked {svc : IService} (hfree : c.freeHandler = some svc) (hclass : c.svc = .CSvcTest2) :
    maps = c.held svc ∧ frames = Function.update c.frames svc.m_iIndex (.suspended oCmd) ∧
      after = offer queues 0xccccd
        (cmdMsg REQUEST.toInt { iSvcSerialNo := svc.m_iIndex, iCmd := svc.m_iCmd }) sent := by
  cases h with
  | refuse _ hnone => rw [hfree] at hnone; cases hnone
  | answer _ _ hclass' => rw [hclass] at hclass'; cases hclass'
  | keep _ _ hclass' => rw [hclass] at hclass'; cases hclass'
  | ask _ hsome =>
    cases Option.some.inj (hfree.symm.trans hsome)
    exact ⟨rfl, rfl, rfl⟩
  | resume hresp => exact absurd hresp htype

end

/-- A handler that stays with its command is not where it was. -/
theorem held_ne {c : Container} (hv : c.Valid) {svc : IService} (h : c.freeHandler = some svc) :
    c.held svc ≠ c.dispatcher.maps := by
  intro heq
  obtain ⟨_, _, _, hbusy, _⟩ := freeHandler_eq_some hv h
  have hassign := (Prod.mk.inj heq).2
  rw [← hassign, SortedMap.find?_assign, if_pos rfl] at hbusy
  cases hbusy

/-- The message of a request: the reserved fields as they stood in the client's
text, but for those that tell whose it is. -/
structure Carries (peer : Sender) (m : QMsg) (x : CCmd) : Prop where
  iType : m.cmd.iType = REQUEST
  iRet : m.cmd.iRet = x.iRet
  serial : m.cmd.iSvcSerialNo = x.iSvcSerialNo
  sender : m.cmd.sender = { peer with iIndex := x.iIndex, iCmd := x.iCmd }
  ip : PlainIp m.cmd.sClientIp

theorem Carries.request {peer : Sender} {m : QMsg} {x : CCmd} (h : Carries peer m x) :
    m.cmd.iType ≠ RESPONSE := by
  rw [h.iType]
  decide

theorem Carries.cmd {peer : Sender} {m : QMsg} {x : CCmd} (h : Carries peer m x) :
    m.cmd.iCmd = x.iCmd :=
  congrArg Sender.iCmd h.sender

theorem Carries.index {peer : Sender} {m : QMsg} {x : CCmd} (h : Carries peer m x) :
    m.cmd.iIndex = x.iIndex :=
  congrArg Sender.iIndex h.sender

theorem stampCmd_carries (s : Reactor) (fd : Int32) (buf : Bytes) :
    Carries (s.stampCmd fd []).sender (cmdMsg REQUEST.toInt (s.stampCmd fd buf)) (initCCmd {} buf) := by
  have hip : PlainIp (s.stampCmd fd buf).sClientIp := inetNtoa_plain _
  have hh := cmdMsg_header REQUEST.toInt hip
  obtain ⟨hret, htype, hindex, hserial, hcmd, hfd, hfamily, hcliIp, hport⟩ := Header.mk.inj hh
  refine ⟨htype, hret, hserial, ?_, hcliIp ▸ hip⟩
  rw [CCmd.sender, hindex, hcmd, hfd, hfamily, hcliIp, hport]
  rfl

theorem answered_fields (cur : CCmd) :
    (replyCmd cur.iRet { cur with sData := bytes "resp1=r1", iType := RESPONSE }).sender = cur.sender ∧
      (replyCmd cur.iRet { cur with sData := bytes "resp1=r1", iType := RESPONSE }).iSvcSerialNo =
        cur.iSvcSerialNo ∧
      (replyCmd cur.iRet { cur with sData := bytes "resp1=r1", iType := RESPONSE }).iRet = cur.iRet := by
  unfold replyCmd
  split <;> exact ⟨rfl, rfl, rfl⟩

/-- Two requests of one command that twin processes have taken. -/
structure ServedPair (c c' : Container) (ma mb : QMsg) (x y : CCmd) : Prop where
  twin : Twin c c'
  valid : c.Valid
  peer : ∃ peer, Carries peer ma x ∧ Carries peer mb y
  cmd : x.iCmd = y.iCmd

section

variable {c c' : Container} {ma mb : QMsg} {x y : CCmd}

theorem ServedPair.symm (hs : ServedPair c c' ma mb x y) (hv' : c'.Valid) : ServedPair c' c mb ma y x :=
  have ⟨peer, hx, hy⟩ := hs.peer
  ⟨hs.twin.symm, hv', ⟨peer, hy, hx⟩, hs.cmd.symm⟩

theorem ServedPair.sender (hs : ServedPair c c' ma mb x y) :
    mb.cmd.sender = { ma.cmd.sender with iIndex := mb.cmd.iIndex } := by
  obtain ⟨peer, hx, hy⟩ := hs.peer
  rw [hx.sender, hy.index, hy.sender, hs.cmd]

/-- Two requests that are replied to at once, with a text that depends on ret. -/
theorem ServedPair.replies_iff (hs : ServedPair c c' ma mb x y) {r r' : Int32} {a b : CCmd}
    {k k' : Int32} {m m' : QMsg} (hto : replyTo c.pid a = some (k, m))
    (hto' : replyTo c'.pid b = some (k', m'))
    (ha : a.sender = ma.cmd.sender ∧ a.iSvcSerialNo = ma.cmd.iSvcSerialNo ∧ a.iRet = r)
    (hb : b.sender = mb.cmd.sender ∧ b.iSvcSerialNo = mb.cmd.iSvcSerialNo ∧ b.iRet = r')
    (hdata : r = r' → a.sData = b.sData) :
    SentAlike k k' m m' ↔ (Unsendable x.iSvcSerialNo ∧ Unsendable y.iSvcSerialNo) ∨
      (x.iSvcSerialNo = y.iSvcSerialNo ∧ x.iIndex = y.iIndex ∧ r = r') := by
  obtain ⟨peer, hx, hy⟩ := hs.peer
  obtain ⟨hsa, hna, rfl⟩ := ha
  obtain ⟨hsb, hnb, rfl⟩ := hb
  have hip : PlainIp a.sClientIp := by
    rw [show a.sClientIp = ma.cmd.sClientIp from congrArg Sender.sClientIp hsa]
    exact hx.ip
  have hia : a.iIndex = x.iIndex := (congrArg Sender.iIndex hsa).trans hx.index
  have hib : b.iIndex = y.iIndex := (congrArg Sender.iIndex hsb).trans hy.index
  have hsender : b.sender = { a.sender with iIndex := b.iIndex } := by
    rw [hsa, hsb, hib, ← hy.index]
    exact hs.sender
  rw [← hs.twin.pid] at hto'
  rw [replies_alike_iff hto hto' hip hsender hdata, hna, hnb, hx.serial, hy.serial, hia, hib]

end

section

variable {c c' : Container} {ma mb : QMsg} {x y : CCmd} (hs : ServedPair c c' ma mb x y)
  {queues after after' : Int32 → List QMsg} {sent : Bool}
  {maps maps' : SortedMap Int32 IService × SortedMap Int32 IService} {frames frames' : Int32 → Frame}
  (h : Processed c queues ma.cmd sent maps frames after)
  (h' : Processed c' queues mb.cmd sent maps' frames' after')

/-- What two processes show once ProcessMsg is through. -/
structure ShowsSame (maps maps' : SortedMap Int32 IService × SortedMap Int32 IService)
    (frames frames' : Int32 → Frame) (after after' : Int32 → List QMsg) : Prop where
  maps : maps = maps'
  frames : ∀ k, (frames k).sameKind (frames' k)
  queues : after = after'

include hs h h'

theorem refused_iff (hfree : c.freeHandler = none) :
    ShowsSame maps maps' frames frames' after after' ↔ (sent = true → HeaderAgrees c x y) := by
  obtain ⟨peer, hx, hy⟩ := hs.peer
  have hfree' : c'.freeHandler = none := hs.twin.freeHandler ▸ hfree
  obtain ⟨rfl, rfl, k, m, hto, rfl⟩ := h.refused hx.request hfree
  obtain ⟨rfl, rfl, k', m', hto', rfl⟩ := h'.refused hy.request hfree'
  have hcode : ∀ cur, replyCmd NO_FREE_SVC_HANDLER cur =
      { cur with iRet := NO_FREE_SVC_HANDLER, sData := errText NO_FREE_SVC_HANDLER } := by
    intro cur
    rw [replyCmd, if_pos (by decide)]
  rw [hcode] at hto hto'
  have hiff := hs.replies_iff hto hto' ⟨rfl, rfl, rfl⟩ ⟨rfl, rfl, rfl⟩ (fun _ => rfl)
  have hsame := same_offer_iff queues k k' m m' sent
  rw [HeaderAgrees, if_pos hfree, ← and_true (x.iIndex = y.iIndex), ← eq_self NO_FREE_SVC_HANDLER, ← hiff,
    ← hsame]
  exact ⟨fun hsame => hsame.queues, fun hq => ⟨hs.twin.maps, hs.twin.frames, hq⟩⟩

theorem answered_iff (hfree : c.freeHandler ≠ none) (hclass : c.svc = .CSvcTest)
    (hx : x.iRet ≠ UNFINISH_TASK_RET_FLAG) (hy : y.iRet ≠ UNFINISH_TASK_RET_FLAG) :
    ShowsSame maps maps' frames frames' after after' ↔ (sent = true → HeaderAgrees c x y) := by
  obtain ⟨peer, hcx, hcy⟩ := hs.peer
  have hfree' : c'.freeHandler ≠ none := hs.twin.freeHandler ▸ hfree
  have hclass' : c'.svc = .CSvcTest := hs.twin.svc ▸ hclass
  obtain ⟨rfl, rfl, k, m, hto, rfl⟩ := h.answered hcx.request hfree hclass (hcx.iRet ▸ hx)
  obtain ⟨rfl, rfl, k', m', hto', rfl⟩ := h'.answered hcy.request hfree' hclass' (hcy.iRet ▸ hy)
  have hiff := hs.replies_iff hto hto' (answered_fields ma.cmd) (answered_fields mb.cmd) (fun hret => by
    rw [hret, replyCmd, replyCmd]
    split <;> rfl)
  rw [hcx.iRet, hcy.iRet] at hiff
  have hsame := same_offer_iff queues k k' m m' sent
  rw [HeaderAgrees, if_neg hfree, hclass]
  simp only [hx, hy, false_and, false_or, ne_eq, not_false_eq_true, true_and]
  rw [← hiff, ← hsame]
  exact ⟨fun hsame => hsame.queues, fun hq => ⟨hs.twin.maps, hs.twin.frames, hq⟩⟩

/-- A request that svc_test finishes and one it does not. -/
theorem kept_ne (hfree : c.freeHandler ≠ none) (hclass : c.svc = .CSvcTest)
    (hx : x.iRet = UNFINISH_TASK_RET_FLAG) (hy : y.iRet ≠ UNFINISH_TASK_RET_FLAG) : maps ≠ maps' := by
  obtain ⟨peer, hcx, hcy⟩ := hs.peer
  obtain ⟨svc, hsvc⟩ := Option.ne_none_iff_exists'.mp hfree
  have hfree' : c'.freeHandler ≠ none := hs.twin.freeHandler ▸ hfree
  have hclass' : c'.svc = .CSvcTest := hs.twin.svc ▸ hclass
  obtain ⟨rfl, _⟩ := h.kept hcx.request hsvc hclass (hcx.iRet.trans hx)
  obtain ⟨rfl, _⟩ := h'.answered hcy.request hfree' hclass' (hcy.iRet ▸ hy)
  rw [← hs.twin.maps]
  exact held_ne hs.valid hsvc

theorem kept_same (hfree : c.freeHandler ≠ none) (hclass : c.svc = .CSvcTest)
    (hx : x.iRet = UNFINISH_TASK_RET_FLAG) (hy : y.iRet = UNFINISH_TASK_RET_FLAG) :
    ShowsSame maps maps' frames frames' after after' := by
  obtain ⟨peer, hcx, hcy⟩ := hs.peer
  obtain ⟨svc, hsvc⟩ := Option.ne_none_iff_exists'.mp hfree
  have hsvc' : c'.freeHandler = some svc := hs.twin.freeHandler ▸ hsvc
  have hclass' : c'.svc = .CSvcTest := hs.twin.svc ▸ hclass
  obtain ⟨rfl, rfl, rfl⟩ := h.kept hcx.request hsvc hclass (hcx.iRet.trans hx)
  obtain ⟨rfl, rfl, rfl⟩ := h'.kept hcy.request hsvc' hclass' (hcy.iRet.trans hy)
  exact ⟨hs.twin.held svc, sameKind_update hs.twin.frames _ trivial, rfl⟩

/-- Requests that handlers of CSvcTest2 hold show the same exactly if the
handlers will reply alike. -/
theorem asked_iff (hfree : c.freeHandler ≠ none) (hclass : c.svc = .CSvcTest2) :
    (x.iIndex = y.iIndex → ShowsSame maps maps' frames frames' after after') ∧
      ((∀ k a b, frames k = .suspended a → frames' k = .suspended b → ∀ oCmd,
        replyTo c.pid (svcTest2End a oCmd) = replyTo c'.pid (svcTest2End b oCmd)) →
        x.iIndex = y.iIndex) := by
  obtain ⟨peer, hcx, hcy⟩ := hs.peer
  obtain ⟨svc, hsvc⟩ := Option.ne_none_iff_exists'.mp hfree
  have hsvc' : c'.freeHandler = some svc := hs.twin.freeHandler ▸ hsvc
  have hclass' : c'.svc = .CSvcTest2 := hs.twin.svc ▸ hclass
  obtain ⟨rfl, rfl, rfl⟩ := h.asked hcx.request hsvc hclass
  obtain ⟨rfl, rfl, rfl⟩ := h'.asked hcy.request hsvc' hclass'
  constructor
  · intro hindex
    have hsender : ma.cmd.sender = mb.cmd.sender := by
      rw [hs.sender, hcy.index, ← hindex, ← hcx.index]
      rfl
    exact ⟨hs.twin.held svc, sameKind_update hs.twin.frames _ hsender, rfl⟩
  · intro halike
    have hreply := halike svc.m_iIndex ma.cmd mb.cmd (Function.update_self ..) (Function.update_self ..) {}
    rw [replyTo_end] at hreply
    have hheader := (replyTo_header (replyTo_end c.pid ma.cmd {}) hcx.ip).symm.trans
      (replyTo_header hreply.symm hcy.ip)
    rw [← hcx.index, ← hcy.index]
    exact congrArg Header.iIndex hheader

/-- Requests that agree show the same. -/
theorem served_same (hagrees : HeaderAgrees c x y) : ShowsSame maps maps' frames frames' after after' := by
  by_cases hfree : c.freeHandler = none
  · exact (refused_iff hs h h' hfree).mpr (fun _ => hagrees)
  · cases hclass : c.svc with
    | CSvcTest =>
      have hcases := hagrees
      rw [HeaderAgrees, if_neg hfree, hclass] at hcases
      rcases hcases with ⟨hx, hy⟩ | ⟨hx, hy, _⟩
      · exact kept_same hs h h' hfree hclass hx hy
      · exact (answered_iff hs h h' hfree hclass hx hy).mpr (fun _ => hagrees)
    | CSvcTest2 =>
      rw [HeaderAgrees, if_neg hfree, hclass] at hagrees
      exact (asked_iff hs h h' hfree hclass).1 hagrees

/-- Requests that show the same agree, once the replies are sent. -/
theorem served_agrees (hv' : c'.Valid) (hsent : sent = true) (hmaps : maps = maps') (hafter : after = after')
    (halike : ∀ k a b, frames k = .suspended a → frames' k = .suspended b → ∀ oCmd,
      replyTo c.pid (svcTest2End a oCmd) = replyTo c'.pid (svcTest2End b oCmd)) : HeaderAgrees c x y := by
  by_cases hfree : c.freeHandler = none
  · obtain ⟨peer, hcx, hcy⟩ := hs.peer
    obtain ⟨_, rfl, _⟩ := h.refused hcx.request hfree
    obtain ⟨_, rfl, _⟩ := h'.refused hcy.request (hs.twin.freeHandler ▸ hfree)
    exact (refused_iff hs h h' hfree).mp ⟨hmaps, hs.twin.frames, hafter⟩ hsent
  · cases hclass : c.svc with
    | CSvcTest =>
      by_cases hx : x.iRet = UNFINISH_TASK_RET_FLAG
      · by_cases hy : y.iRet = UNFINISH_TASK_RET_FLAG
        · rw [HeaderAgrees, if_neg hfree, hclass]
          exact Or.inl ⟨hx, hy⟩
        · exact absurd hmaps (kept_ne hs h h' hfree hclass hx hy)
      · by_cases hy : y.iRet = UNFINISH_TASK_RET_FLAG
        · have hne := kept_ne (hs.symm hv') h' h (hs.twin.freeHandler ▸ hfree) (hs.twin.svc ▸ hclass) hy hx
          exact absurd hmaps.symm hne
        · obtain ⟨peer, hcx, hcy⟩ := hs.peer
          obtain ⟨_, rfl, _⟩ := h.answered hcx.request hfree hclass (hcx.iRet ▸ hx)
          obtain ⟨_, rfl, _⟩ := h'.answered hcy.request (hs.twin.freeHandler ▸ hfree) (hs.twin.svc ▸ hclass)
            (hcy.iRet ▸ hy)
          exact (answered_iff hs h h' hfree hclass hx hy).mp ⟨hmaps, hs.twin.frames, hafter⟩ hsent
    | CSvcTest2 =>
      rw [HeaderAgrees, if_neg hfree, hclass]
      exact (asked_iff hs h h' hfree hclass).2 halike

end

/-- A process that takes a client's request gets through with it. -/
theorem fire_request {t : Backend} (hs : Sound t) {i : Nat} {c : Container} (hget : t.procs[i]? = some c)
    {peer : Sender} {m : QMsg} {x : CCmd} (hm : Carries peer m x) (hroute : routeCmd x.iCmd ≠ none)
    (htakes : c.takes t.queues = some m) (sent : Bool) :
    ∃ rest c1 u, TakenFrom (t.queues c.svc.mqKey) m rest ∧ backend.step t (.fire i sent) u ∧
      u.procs = t.procs.set i c1 ∧ (c1.svc = c.svc ∧ c1.pid = c.pid ∧ c1.slots = c.slots) ∧
      Processed c (Function.update t.queues c.svc.mqKey rest) m.cmd sent c1.dispatcher.maps c1.frames
        u.queues := by
  have hv := hs.valid c (List.mem_of_getElem? hget)
  obtain ⟨hnone, _⟩ | ⟨m', rest, htakes', htaken, _, hfire⟩ := onEventFire_eq (hs.text c.svc) sent
  · rw [hnone] at htakes
    cases htakes
  · cases Option.some.inj (htakes.symm.trans htakes')
    obtain ⟨d, w, hp⟩ := processMsg_total hv (Function.update t.queues c.svc.mqKey rest) sent
      (Or.inl ⟨hm.request, fun _ => hm.cmd ▸ hroute⟩)
    rw [QMsg.cmd_eq, hp] at hfire
    refine ⟨rest, { c with dispatcher := d, frames := w.frames, stats := w.stats },
      { t with
        procs := t.procs.set i { c with dispatcher := d, frames := w.frames, stats := w.stats }
        queues := w.queues },
      htaken, ⟨trivial, ?_⟩, rfl, ⟨rfl, rfl, rfl⟩, processMsg_processed hv hp⟩
    rw [backendStep, fireAt_get hget, hfire]

/-- The two requests where they stand in place of each other. -/
def Pending (ma mb : QMsg) (x y : QMsg) : Prop := x = ma ∧ y = mb ∧ x ≠ y

/-- One pair in the queue of the requests' command, if they differ at all. -/
def pendingIn (ma mb : QMsg) (key : Int32) : Int32 → Nat :=
  Function.update (fun _ => 0) key (if ma = mb then 0 else 1)

theorem pending_differs {ma mb : QMsg} (h : ma.mtype = mb.mtype) : Differs (Pending ma mb) := by
  rintro x y ⟨rfl, rfl, hne⟩
  exact ⟨h, hne⟩

/-- Once both requests are taken the queues are equal. -/
theorem pending_taken {ma mb : QMsg} (htype : ma.mtype = mb.mtype) {key : Int32}
    {queues queues' : Int32 → List QMsg}
    (hq : ∀ k, Rows Eq (Pending ma mb) (pendingIn ma mb key k) (queues k) (queues' k))
    {svc : SvcClass} {rest rest' : List QMsg} (hx : TakenFrom (queues svc.mqKey) ma rest)
    (hy : TakenFrom (queues' svc.mqKey) mb rest') :
    Function.update queues svc.mqKey rest = Function.update queues' svc.mqKey rest' := by
  funext k
  obtain ⟨hsame, hrest⟩ | ⟨⟨_, _, hne⟩, n, hn, hrest⟩ :=
    (hq svc.mqKey).taken (fun _ _ => row_mtype (pending_differs htype)) hx hy htype
  · refine rows_settled ?_ (rows_update svc.mqKey hq hrest k)
    rw [Function.update_eq_self, pendingIn, if_pos hsame]
    by_cases hk : k = key
    · rw [hk, Function.update_self]
    · rw [Function.update_of_ne hk]
  · refine rows_settled ?_ (rows_update svc.mqKey hq hrest k)
    rw [pendingIn, if_neg hne] at hn
    have hkey : svc.mqKey = key := by
      by_contra hkey
      rw [Function.update_of_ne hkey] at hn
      omega
    rw [hkey, Function.update_self] at hn
    obtain rfl : n = 0 := by omega
    rw [pendingIn, hkey, Function.update_idem]
    by_cases hk : k = key
    · rw [hk, Function.update_self]
    · rw [Function.update_of_ne hk]

section

variable {ma mb : QMsg} {x y : CCmd} {key : Int32} {t t' : Backend} {i : Nat} {c c' : Container}
  (hm : Mirrored (Pending ma mb) (pendingIn ma mb key) t t')
  (hpeer : ∃ peer, Carries peer ma x ∧ Carries peer mb y) (htype : ma.mtype = mb.mtype)
  (hcmd : x.iCmd = y.iCmd) (hroute : routeCmd x.iCmd ≠ none) (hget : t.procs[i]? = some c)
  (hget' : t'.procs[i]? = some c') (htakes : c.takes t.queues = some ma)
  (htakes' : c'.takes t'.queues = some mb)

include hm hpeer htype hcmd hroute hget hget' htakes htakes'

/-- The step in which the two processes take the two requests. -/
theorem take_both (sent : Bool) : ∃ u u' c1 c1' queues,
    backend.step t (.fire i sent) u ∧ backend.step t' (.fire i sent) u' ∧
    u.procs = t.procs.set i c1 ∧ u'.procs = t'.procs.set i c1' ∧
    (c1.svc = c.svc ∧ c1.pid = c.pid ∧ c1.slots = c.slots) ∧
    (c1'.svc = c'.svc ∧ c1'.pid = c'.pid ∧ c1'.slots = c'.slots) ∧ ServedPair c c' ma mb x y ∧
    Processed c queues ma.cmd sent c1.dispatcher.maps c1.frames u.queues ∧
    Processed c' queues mb.cmd sent c1'.dispatcher.maps c1'.frames u'.queues := by
  obtain ⟨peer, hx, hy⟩ := hpeer
  obtain ⟨d, hd, ht⟩ := rel_some (hm.alike.procs i) hget
  obtain rfl := Option.some.inj (hget'.symm.trans hd)
  obtain ⟨rest, c1, u, htaken, hu, hprocs, hstatic, hp⟩ := fire_request hm.sound hget hx hroute htakes sent
  obtain ⟨rest', c1', u', htaken', hu', hprocs', hstatic', hp'⟩ :=
    fire_request hm.sound' hget' hy (hcmd ▸ hroute) htakes' sent
  rw [← ht.svc] at htaken' hp'
  rw [← pending_taken htype hm.alike.queues htaken htaken'] at hp'
  have hv := hm.sound.valid c (List.mem_of_getElem? hget)
  exact ⟨u, u', c1, c1', _, hu, hu', hprocs, hprocs', hstatic, hstatic', ⟨ht, hv, ⟨peer, hx, hy⟩, hcmd⟩,
    hp, hp'⟩

/-- Two requests leave no different trace exactly if they agree. -/
theorem taken_alike_iff : AnsweredAlike t t' i ↔ HeaderAgrees c x y := by
  constructor
  · intro halike
    obtain ⟨u, u', c1, c1', queues, hu, hu', hprocs, hprocs', ⟨_, hpid, _⟩, ⟨_, hpid', _⟩, hs, h, h'⟩ :=
      take_both hm hpeer htype hcmd hroute hget hget' htakes htakes' true
    obtain ⟨v, v', hv, hv', hsame, hreplies⟩ := halike true
    obtain rfl := backend_step_unique hu hv
    obtain rfl := backend_step_unique hu' hv'
    obtain ⟨hmaps, hqueues⟩ := (hsame _ _ .start).1
    have hget1 : u.procs[i]? = some c1 := by
      rw [hprocs, List.getElem?_set_self (List.getElem?_eq_some_iff.mp hget).1]
    have hget1' : u'.procs[i]? = some c1' := by
      rw [hprocs', List.getElem?_set_self (List.getElem?_eq_some_iff.mp hget').1]
    have hi := congrArg (·[i]?) hmaps
    rw [List.getElem?_map, List.getElem?_map, hget1, hget1'] at hi
    refine served_agrees hs h h' (hm.sound'.valid c' (List.mem_of_getElem? hget')) rfl
      (Option.some.inj hi) hqueues (fun k a b ha hb oCmd => ?_)
    rw [← hpid, ← hpid']
    exact hreplies i c1 c1' k a b hget1 hget1' ha hb oCmd
  · intro hagrees sent
    obtain ⟨u, u', c1, c1', queues, hu, hu', hprocs, hprocs', ⟨e1, e2, e3⟩, ⟨e1', e2', e3'⟩, hs, h, h'⟩ :=
      take_both hm hpeer htype hcmd hroute hget hget' htakes htakes' sent
    obtain ⟨hmaps, hframes, hqueues⟩ := served_same hs h h' hagrees
    have htwin : Twin c1 c1' := by
      refine ⟨?_, ?_, ?_, hmaps, hframes⟩
      · rw [e1, e1', hs.twin.svc]
      · rw [e2, e2', hs.twin.pid]
      · rw [e3, e3', hs.twin.slots]
    have hmirror : Mirrored (fun _ _ => False) (fun _ => 0) u u' := by
      refine ⟨⟨?_, fun k => ?_⟩, sound_step hm.sound hu, sound_step hm.sound' hu'⟩
      · rw [hprocs, hprocs']
        exact rel_set hm.alike.procs htwin i
      · rw [hqueues]
        exact Rows.refl Eq.refl _
    exact ⟨u, u', hu, hu', mirrored_indistinguishable hmirror, mirrored_replies hmirror⟩

end

/-- The message DoRecv makes of the bytes a client sends. -/
def requestMsg (s : NetioSystem) (fd : Int32) (buf : Bytes) : QMsg :=
  cmdMsg REQUEST.toInt (s.netio.stampCmd fd buf)

theorem requestMsg_mtype (s : NetioSystem) (fd : Int32) (buf : Bytes) :
    (requestMsg s fd buf).mtype = REQUEST.toInt := rfl

theorem requestMsg_carries (s : NetioSystem) (fd : Int32) (a b : Bytes) :
    ∃ peer, Carries peer (requestMsg s fd a) (initCCmd {} a) ∧
      Carries peer (requestMsg s fd b) (initCCmd {} b) := by
  rw [requestMsg, requestMsg]
  exact ⟨_, stampCmd_carries s.netio fd a, stampCmd_carries s.netio fd b⟩

theorem Twin.refl (c : Container) : Twin c c := ⟨rfl, rfl, rfl, rfl, fun _ => Frame.sameKind_refl _⟩

section

variable {s sa sb : NetioSystem} {fd : Int32} {a b : Bytes} (h : netioSystem.Reachable s)
  (hread : (s.netio.m_arrTcpSock fd).enEventFlag = .TCP_SERVER_READ)

include h hread

theorem read_queues (hne : a ≠ [])
    (ha : netioSystem.step s (.netio (.event fd EPOLLIN { read := some a })) sa) :
    ∃ key, routeCmd (initCCmd {} a).iCmd = some key ∧ sa.procs = s.procs ∧
      sa.netio.kernel.queues = offer s.netio.kernel.queues key (requestMsg s fd a) true := by
  obtain ⟨⟨hreg, hitem⟩, hprocs, _⟩ := system_netio_step ha
  dsimp only [netioStep] at hitem
  rw [processItem_read _ (wired_reach (system_netio h)) hreg (by decide) hread] at hitem
  obtain ⟨hlost | hlost, _⟩ | ⟨buf, key, hbuf, _, hkey, hsa⟩ := doRecv_cases hitem
  · cases hlost
  · exact absurd (Option.some.inj hlost) hne
  · cases Option.some.inj hbuf
    refine ⟨key, hkey, hprocs, ?_⟩
    dsimp only at hsa
    rw [hsa, requestMsg, asked_queues]

/-- Two requests read in one state leave two runs that differ in the one place
where the requests stand. -/
theorem read_both (hne : a ≠ [] ∧ b ≠ []) (hcmd : (initCCmd {} a).iCmd = (initCCmd {} b).iCmd)
    (ha : netioSystem.step s (.netio (.event fd EPOLLIN { read := some a })) sa)
    (hb : netioSystem.step s (.netio (.event fd EPOLLIN { read := some b })) sb) :
    ∃ key, routeCmd (initCCmd {} a).iCmd = some key ∧
      Mirrored (Pending (requestMsg s fd a) (requestMsg s fd b))
        (pendingIn (requestMsg s fd a) (requestMsg s fd b) key) (sa.behind []) (sb.behind []) := by
  obtain ⟨key, hkey, hprocs, hqueues⟩ := read_queues h hread hne.1 ha
  obtain ⟨key', hkey', hprocs', hqueues'⟩ := read_queues h hread hne.2 hb
  have hta := requestMsg_mtype s fd a
  have htb := requestMsg_mtype s fd b
  have hreq : 0 < REQUEST.toInt := by decide
  generalize requestMsg s fd a = ma at hqueues hta ⊢
  generalize requestMsg s fd b = mb at hqueues' htb ⊢
  rw [← hcmd, hkey] at hkey'
  obtain rfl := Option.some.inj hkey'
  have hra : netioSystem.Reachable sa := h.step trivial ha
  have hrb : netioSystem.Reachable sb := h.step trivial hb
  refine ⟨key, hkey, ⟨fun i => ?_, fun k => ?_⟩, system_sound hra, system_sound hrb⟩
  · change Option.Rel Twin sa.procs[i]? sb.procs[i]?
    rw [hprocs, hprocs']
    exact rel_refl Twin.refl _
  · change Rows Eq _ _ (sa.netio.kernel.queues k) (sb.netio.kernel.queues k)
    rw [hqueues, hqueues', offer, offer, if_pos ⟨rfl, hta ▸ hreq⟩, if_pos ⟨rfl, htb ▸ hreq⟩, pendingIn]
    by_cases hk : k = key
    · subst hk
      simp only [Function.update_self]
      by_cases hsame : ma = mb
      · rw [if_pos hsame, hsame]
        exact Rows.refl Eq.refl _
      · rw [if_neg hsame]
        exact (Rows.refl Eq.refl _).concat_other ⟨rfl, rfl, hsame⟩
    · simp only [Function.update_of_ne hk]
      exact Rows.refl Eq.refl _

end

theorem waiting_mirrored {ma mb : QMsg} {key : Int32} {s s' t t' : Backend} (htype : ma.mtype = mb.mtype)
    (hkey : key ≠ NET_IO_BACK_MSQ_KEY) (hm : Mirrored (Pending ma mb) (pendingIn ma mb key) s s')
    (hwait : Waiting ma mb s s' t t') : Mirrored (Pending ma mb) (pendingIn ma mb key) t t' := by
  have hback : pendingIn ma mb key NET_IO_BACK_MSQ_KEY = 0 := by
    rw [pendingIn, Function.update_of_ne hkey.symm]
  refine hwait.relation hm ?_
  intro s1 t1 l s2 t2 hm hpair hs ht
  have hpair' : ¬TakesPair (Pending ma mb) s1 t1 l := by
    intro hp
    cases l with
    | fire i sent =>
      obtain ⟨c, c', x, y, h1, h2, h3, h4, hx, hy, _⟩ := hp
      exact hpair ⟨c, c', x, y, h1, h2, h3, h4, hx, hy⟩
    | _ => exact hp
  obtain ⟨t3, ht3, hm3⟩ := mirrored_step (pending_differs htype) hback hm hpair' hs
  rwa [backend_step_unique ht ht3]

/-- Two requests for one service that netio reads in one state leave the same
messages, with the same texts, and the same handler maps behind exactly if the
ret, the serialno and the index that a client may put into its text agree as far
as they are looked at or sent back. -/
theorem reserved_keys_alike_iff {s sa sb : NetioSystem} {fd : Int32} {a b : Bytes} {t t' : Backend}
    {i : Nat} {c c' : Container} (h : netioSystem.Reachable s)
    (hread : (s.netio.m_arrTcpSock fd).enEventFlag = .TCP_SERVER_READ)
    (hne : a ≠ [] ∧ b ≠ []) (hcmd : (initCCmd {} a).iCmd = (initCCmd {} b).iCmd)
    (ha : netioSystem.step s (.netio (.event fd EPOLLIN { read := some a })) sa)
    (hb : netioSystem.step s (.netio (.event fd EPOLLIN { read := some b })) sb)
    (hwait : Waiting (requestMsg s fd a) (requestMsg s fd b) (sa.behind []) (sb.behind []) t t')
    (hget : t.procs[i]? = some c ∧ t'.procs[i]? = some c')
    (htakes : c.takes t.queues = some (requestMsg s fd a) ∧ c'.takes t'.queues = some (requestMsg s fd b)) :
    AnsweredAlike t t' i ↔ HeaderAgrees c (initCCmd {} a) (initCCmd {} b) := by
  obtain ⟨key, hkey, hm⟩ := read_both h hread hne hcmd ha hb
  have hback := route_ne_back hkey
  have htype := (requestMsg_mtype s fd a).trans (requestMsg_mtype s fd b).symm
  exact taken_alike_iff (waiting_mirrored htype hback hm hwait) (requestMsg_carries _ _ _ _) htype hcmd
    (by rw [hkey]; exact Option.some_ne_none _) hget.1 hget.2 htakes.1 htakes.2

/-- netio waits on descriptor 5, and the i-th process takes at once what it reads there. -/
def readsFive (i : Nat) (buf : Bytes) (s : NetioSystem) : Bool :=
  match systemStep s (.netio (.event 5 EPOLLIN { read := some buf })), s.procs[i]? with
  | .ok s', some c => decide (s.netio.kernel.epoll 5 ≠ none ∧
      (s.netio.m_arrTcpSock 5).enEventFlag = .TCP_SERVER_READ ∧
      c.takes s'.netio.kernel.queues = some (requestMsg s 5 buf))
  | _, _ => false

theorem readsFive_step {i : Nat} {buf : Bytes} {s : NetioSystem} {c : Container}
    (hget : s.procs[i]? = some c) (h : readsFive i buf s = true) :
    (s.netio.m_arrTcpSock 5).enEventFlag = .TCP_SERVER_READ ∧ ∃ s',
      netioSystem.step s (.netio (.event 5 EPOLLIN { read := some buf })) s' ∧
      (s'.behind []).procs[i]? = some c ∧ c.takes (s'.behind []).queues = some (requestMsg s 5 buf) := by
  unfold readsFive at h
  rw [hget] at h
  split at h
  next s' c' hstep hc =>
    cases Option.some.inj hc
    obtain ⟨hreg, hread, htakes⟩ := of_decide_eq_true h
    have hs : netioSystem.step s (.netio (.event 5 EPOLLIN { read := some buf })) s' := ⟨hreg, hstep⟩
    refine ⟨hread, s', hs, ?_, htakes⟩
    change s'.procs[i]? = some c
    rw [(system_netio_step hs).2.1, hget]
  next => contradiction

/-- A request that svc_test2 holds, with and without keys of the header. -/
theorem reserved_keys_alike_iff_held :
    ∃ s sa sb, (netioSystem.Reachable s ∧
        netioSystem.step s (.netio (.event 5 EPOLLIN { read := some (bytes "cmd=2&a=b") })) sa ∧
        netioSystem.step s
          (.netio (.event 5 EPOLLIN { read := some (bytes "cmd=2&a=b&ret=7&serialno=700") })) sb) ∧
      AnsweredAlike (sa.behind []) (sb.behind []) 1 := by
  obtain ⟨s, hs, hp⟩ := sampleSystem_reach (fun _ _ => True)
    [.netio (.event 3 EPOLLIN { accepts := [.conn 5 ⟨2, 4000, ⟨10, 0, 0, 1⟩⟩ true true] })]
    (fun s => (s.procs[1]?).any (fun c : Container => decide (c.freeHandler ≠ none ∧ c.svc = .CSvcTest2)) &&
      readsFive 1 (bytes "cmd=2&a=b") s && readsFive 1 (bytes "cmd=2&a=b&ret=7&serialno=700") s)
    (by decide +kernel)
  obtain ⟨⟨hany, ha⟩, hb⟩ := by simpa only [Bool.and_eq_true] using hp
  obtain ⟨c, hget, hc⟩ := (Option.any_eq_true _ _).mp hany
  obtain ⟨hfree, hclass⟩ := of_decide_eq_true hc
  obtain ⟨hread, sa, hsa, hgeta, htakea⟩ := readsFive_step hget ha
  obtain ⟨_, sb, hsb, hgetb, htakeb⟩ := readsFive_step hget hb
  have hagrees : HeaderAgrees c (initCCmd {} (bytes "cmd=2&a=b"))
      (initCCmd {} (bytes "cmd=2&a=b&ret=7&serialno=700")) := by
    rw [HeaderAgrees, if_neg hfree, hclass]
    decide +kernel
  exact ⟨s, sa, sb, ⟨hs, hsa, hsb⟩, (reserved_keys_alike_iff hs hread ⟨by decide, by decide⟩
    (by decide +kernel) hsa hsb .start ⟨hgeta, hgetb⟩ ⟨htakea, htakeb⟩).mpr hagrees⟩

/-- A client that puts the number of a handler into its request gets no reply: it
goes to the process of that handler. -/
theorem reserved_keys_noticed :
    ∃ s sa sb c, (netioSystem.Reachable s ∧
        netioSystem.step s (.netio (.event 5 EPOLLIN { read := some (bytes "cmd=1") })) sa ∧
        netioSystem.step s (.netio (.event 5 EPOLLIN { read := some (bytes "cmd=1&serialno=700") })) sb) ∧
      ((initCCmd {} (bytes "cmd=1")).iCmd = (initCCmd {} (bytes "cmd=1&serialno=700")).iCmd ∧
        (initCCmd {} (bytes "cmd=1")).sData = (initCCmd {} (bytes "cmd=1&serialno=700")).sData) ∧
      ((sa.behind []).procs[0]? = some c ∧ (sb.behind []).procs[0]? = some c) ∧
      (c.takes (sa.behind []).queues = some (requestMsg s 5 (bytes "cmd=1")) ∧
        c.takes (sb.behind []).queues = some (requestMsg s 5 (bytes "cmd=1&serialno=700"))) ∧
      ¬AnsweredAlike (sa.behind []) (sb.behind []) 0 := by
  obtain ⟨s, hs, hp⟩ := sampleSystem_reach (fun _ _ => True)
    [.netio (.event 3 EPOLLIN { accepts := [.conn 5 ⟨2, 4000, ⟨10, 0, 0, 1⟩⟩ true true] })]
    (fun s => (s.procs[0]?).any (fun c : Container => decide (c.freeHandler ≠ none ∧ c.svc = .CSvcTest)) &&
      readsFive 0 (bytes "cmd=1") s && readsFive 0 (bytes "cmd=1&serialno=700") s)
    (by decide +kernel)
  obtain ⟨⟨hany, ha⟩, hb⟩ := by simpa only [Bool.and_eq_true] using hp
  obtain ⟨c, hget, hc⟩ := (Option.any_eq_true _ _).mp hany
  obtain ⟨hfree, hclass⟩ := of_decide_eq_true hc
  obtain ⟨hread, sa, hsa, hgeta, htakea⟩ := readsFive_step hget ha
  obtain ⟨_, sb, hsb, hgetb, htakeb⟩ := readsFive_step hget hb
  have hcmd : (initCCmd {} (bytes "cmd=1")).iCmd = (initCCmd {} (bytes "cmd=1&serialno=700")).iCmd := by
    decide +kernel
  refine ⟨s, sa, sb, c, ⟨hs, hsa, hsb⟩, ⟨hcmd, by decide +kernel⟩, ⟨hgeta, hgetb⟩, ⟨htakea, htakeb⟩, ?_⟩
  obtain ⟨key, hkey, hm⟩ := read_both hs hread ⟨by decide, by decide⟩ hcmd hsa hsb
  rw [taken_alike_iff hm (requestMsg_carries _ _ _ _) rfl hcmd
    (by rw [hkey]; exact Option.some_ne_none _) hgeta hgetb htakea htakeb]
  have hx : (initCCmd {} (bytes "cmd=1")).iRet = 0 ∧ (initCCmd {} (bytes "cmd=1")).iSvcSerialNo = 0 := by
    decide +kernel
  have hy : (initCCmd {} (bytes "cmd=1&serialno=700")).iSvcSerialNo = 700 := by decide +kernel
  rw [HeaderAgrees, if_neg hfree, hclass, hx.1, hx.2, hy, Unsendable]
  rintro (hkept | ⟨_, _, hnone | hsame⟩)
  · exact absurd hkept.1 (by decide)
  · exact absurd hnone.1 (by decide)
  · exact absurd hsame.1 (by decide)

end NetioMiddleware

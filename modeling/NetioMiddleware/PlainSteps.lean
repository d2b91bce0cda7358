import NetioMiddleware.Settlement
import NetioMiddleware.ReplyRouting

namespace NetioMiddleware

/-- One OnEventFire in a run in which no client sets ret or serialno: nothing,
a reply at once, a request of the process's own, or the end of a held request. -/
inductive PlainStep (s : Backend) (c c' : Container) (queues' : Int32 → List QMsg) : Prop
  | idle : c.takes s.queues = none → c' = c → queues' = s.queues → PlainStep s c c' queues'
  | reply {x rest key m} : c.takes s.queues = some x → TakenFrom (s.queues c.svc.mqKey) x rest →
      x.cmd.iType ≠ RESPONSE →
      (c.freeHandler = none ∧ replyTo c.pid { x.cmd with
          iRet := NO_FREE_SVC_HANDLER, sData := errText NO_FREE_SVC_HANDLER } = some (key, m) ∨
        c.svc = .CSvcTest ∧ c.freeHandler ≠ none ∧
          replyTo c.pid { x.cmd with sData := bytes "resp1=r1", iType := RESPONSE } = some (key, m)) →
      c'.dispatcher.maps = c.dispatcher.maps → c'.frames = c.frames →
      queues' = offer (Function.update s.queues c.svc.mqKey rest) key m true →
      PlainStep s c c' queues'
  | hold {x rest svc} : c.takes s.queues = some x → TakenFrom (s.queues c.svc.mqKey) x rest →
      IsClient x → c.svc = .CSvcTest2 → c.freeHandler = some svc → c'.dispatcher.maps = c.held svc →
      c'.frames = Function.update c.frames svc.m_iIndex (.suspended x.cmd) →
      queues' = offer (Function.update s.queues c.svc.mqKey rest) 0xccccd
        (cmdMsg REQUEST.toInt { iSvcSerialNo := svc.m_iIndex, iCmd := svc.m_iCmd }) true →
      PlainStep s c c' queues'
  | resume {x rest svc obj3} : c.takes s.queues = some x → TakenFrom (s.queues c.svc.mqKey) x rest →
      x.cmd.iType = RESPONSE → c.svc = .CSvcTest2 →
      c.dispatcher.m_mapStatefulSvcQueue.find? x.cmd.iSvcSerialNo = some svc →
      c.frames x.cmd.iSvcSerialNo = .suspended obj3 → c'.dispatcher.maps = c.released svc →
      c'.frames = Function.update c.frames svc.m_iIndex .start →
      queues' = offer (Function.update s.queues c.svc.mqKey rest) NET_IO_BACK_MSQ_KEY
        (cmdMsg RESPONSE.toInt (backCmd c.pid (svcTest2End obj3 x.cmd))) true →
      PlainStep s c c' queues'

theorem plain_step {s : Backend} (hs : Served s) {c c' : Container} (hc : c ∈ s.procs)
    {queues' : Int32 → List QMsg} (h : c.onEventFire s.queues true = .ok (c', queues')) :
    PlainStep s c c' queues' := by
  have hv := hs.inv.valid c hc
  obtain ⟨hnone, hcc, hq⟩ | ⟨x, rest, htakes, htaken, _, _, hp⟩ :=
    onEventFire_cases hv (hs.inv.text c.svc) h
  · exact .idle hnone hcc hq
  · rw [QMsg.cmd_eq] at hp
    generalize hmaps : c'.dispatcher.maps = maps at hp
    generalize hframes : c'.frames = frames at hp
    cases hp with
    | refuse htype hfree hto =>
      rw [replyCmd, if_pos (by decide)] at hto
      exact .reply htakes htaken htype (Or.inl ⟨hfree, hto⟩) hmaps hframes rfl
    | answer htype hfree hclass _ hto =>
      have hsame : ∀ cur, replyCmd x.cmd.iRet cur = cur :=
        fun cur => if_neg (fun hret => hret.1 (served_request hs hc htakes htype).1)
      rw [hsame] at hto
      exact .reply htakes htaken htype (Or.inr ⟨hclass, by simp [hfree], hto⟩) hmaps hframes rfl
    | keep htype _ _ hret =>
      rw [(served_request hs hc htakes htype).1] at hret
      exact absurd hret (by decide)
    | ask htype hfree hclass =>
      obtain ⟨_, ⟨hclient, _⟩ | ⟨hclass', _⟩⟩ := served_request hs hc htakes htype
      · exact .hold htakes htaken hclient hclass hfree hmaps hframes rfl
      · rw [hclass] at hclass'
        contradiction
    | resume htype hclass hfind hframe hto =>
      rw [replyTo_end] at hto
      obtain ⟨rfl, rfl⟩ := Prod.mk.inj (Option.some.inj hto)
      exact .resume htakes htaken htype hclass hfind hframe hmaps hframes rfl

/-- What a process replies at once, as a reply to the command it has taken. -/
theorem reply_repliesTo {s : Backend} (hs : Served s) {c : Container} (hc : c ∈ s.procs) {x m : QMsg}
    {key : Int32} (htakes : c.takes s.queues = some x)
    (h : c.freeHandler = none ∧ replyTo c.pid { x.cmd with
          iRet := NO_FREE_SVC_HANDLER, sData := errText NO_FREE_SVC_HANDLER } = some (key, m) ∨
        c.svc = .CSvcTest ∧ c.freeHandler ≠ none ∧
          replyTo c.pid { x.cmd with sData := bytes "resp1=r1", iType := RESPONSE } = some (key, m)) :
    RepliesTo x.cmd key m := by
  have hip := taken_plain hs.inv hc htakes
  rcases h with ⟨_, hto⟩ | ⟨_, _, hto⟩
  · have hip : PlainIp ({ x.cmd with
        iRet := NO_FREE_SVC_HANDLER, sData := errText NO_FREE_SVC_HANDLER } : CCmd).sClientIp := hip
    exact (replyTo_repliesTo hip hto).congr rfl rfl
  · have hip : PlainIp ({ x.cmd with
        sData := bytes "resp1=r1", iType := RESPONSE } : CCmd).sClientIp := hip
    exact (replyTo_repliesTo hip hto).congr rfl rfl

end NetioMiddleware

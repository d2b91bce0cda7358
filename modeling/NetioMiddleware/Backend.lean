import NetioMiddleware.ContainerSteps
import NetioMiddleware.Inet
import NetioMiddleware.Machine

namespace NetioMiddleware

/-- The processes behind netio with the queues between them, and the requests
that have entered the queues so far. -/
structure Backend where
  queues : Int32 → List QMsg
  procs : List Container
  entered : List CCmd

/-- A request netio puts into a queue for a client at an address, one
OnEventFire of a process, or a change netio makes to its own queue. -/
inductive BackendLabel
  | enter (oCmd : CCmd) (addr : InAddr)
  | fire (i : Nat) (sent : Bool)
  | drain (queue : List QMsg)

/-- One OnEventFire of the i-th process. -/
def fireAt (procs : List Container) (queues : Int32 → List QMsg) (i : Nat) (sent : Bool) :
    Except Halt (List Container × (Int32 → List QMsg)) :=
  match procs[i]? with
  | none => .ok (procs, queues)
  | some c =>
    match c.onEventFire queues sent with
    | .error e => .error e
    | .ok (c, queues) => .ok (procs.set i c, queues)

namespace Backend

def enter (s : Backend) (key : Int32) (oCmd : CCmd) : Backend :=
  { s with
    queues := Function.update s.queues key (s.queues key ++ [cmdMsg REQUEST.toInt oCmd])
    entered := s.entered ++ [oCmd] }

def drain (s : Backend) (queue : List QMsg) : Backend :=
  { s with queues := Function.update s.queues NET_IO_BACK_MSQ_KEY queue }

end Backend

/-- A client's request enters as DoRecv leaves it. -/
def BackendLabel.enabled : BackendLabel → Prop
  | .enter oCmd addr => oCmd.iType = REQUEST ∧ oCmd.sClientIp = inetNtoa addr
  | .fire _ _ => True
  | .drain _ => True

instance (l : BackendLabel) : Decidable l.enabled := by
  cases l <;> unfold BackendLabel.enabled <;> infer_instance

def backendStep (s : Backend) : BackendLabel → Except Halt Backend
  | .enter oCmd _ =>
    match routeCmd oCmd.iCmd with
    | none => .error .unassignedQueue
    | some key => .ok (s.enter key oCmd)
  | .fire i sent =>
    match fireAt s.procs s.queues i sent with
    | .error e => .error e
    | .ok (procs, queues) => .ok { s with procs := procs, queues := queues }
  | .drain queue => .ok (s.drain queue)

/-- Empty queues, and container processes that main has just set up, each with
a process number of its own. -/
structure BackendStart (s : Backend) : Prop where
  queues : ∀ key, s.queues key = []
  entered : s.entered = []
  started : ∀ c ∈ s.procs, c = Container.start c.svc c.pid c.slots
  numbered : ∀ c ∈ s.procs, c.Numbered
  pids : (s.procs.map (·.pid)).Nodup

def backend : Machine Backend BackendLabel where
  init := BackendStart
  step s l s' := l.enabled ∧ backendStep s l = .ok s'

/-- A svc_test process 7 and a svc_test2 process 9 with one handler each. -/
def sampleBackend : Backend where
  queues := fun _ => []
  procs := [Container.start .CSvcTest 7 [0], Container.start .CSvcTest2 9 [0]]
  entered := []

theorem sampleBackend_start : BackendStart sampleBackend := by
  have numbered : ∀ svc pid, 0 < pid → pid * 100 + 99 < 2 ^ 31 →
      (Container.start svc pid [0]).Numbered := by
    intro svc pid hpos hfits
    refine ⟨hpos, hfits, ?_⟩
    intro i hi
    rw [List.mem_singleton.mp hi]
    decide
  refine ⟨fun _ => rfl, rfl, ?_, ?_, by decide⟩
  · intro c hc
    rcases List.mem_pair.mp hc with rfl | rfl <;> rfl
  · intro c hc
    rcases List.mem_pair.mp hc with rfl | rfl
    · exact numbered .CSvcTest 7 (by decide) (by decide)
    · exact numbered .CSvcTest2 9 (by decide) (by decide)

theorem sampleBackend_reach (ok : Backend → BackendLabel → Prop) [∀ s l, Decidable (ok s l)]
    (ls : List BackendLabel) (p : Backend → Bool)
    (h : (Machine.follow backendStep (fun s l => decide l.enabled && decide (ok s l)) sampleBackend ls).any
      p = true) : ∃ s, backend.Reach ok s ∧ p s = true := by
  obtain ⟨s, hs, hp⟩ := (Option.any_eq_true _ _).mp h
  refine ⟨s, ?_, hp⟩
  have hstart : backend.Reach ok sampleBackend := .init sampleBackend_start
  refine hstart.follow ?_ hs
  intro s l s' hallowed hstep
  obtain ⟨hen, hok⟩ := Bool.and_eq_true_iff.mp hallowed
  exact ⟨of_decide_eq_true hok, of_decide_eq_true hen, hstep⟩

theorem fireAt_cases {procs procs' : List Container} {queues queues' : Int32 → List QMsg} {i : Nat}
    {sent : Bool} (h : fireAt procs queues i sent = .ok (procs', queues')) :
    (procs[i]? = none ∧ procs' = procs ∧ queues' = queues) ∨
    ∃ front c back c', procs[i]? = some c ∧ procs = front ++ c :: back ∧
      procs' = front ++ c' :: back ∧ c.onEventFire queues sent = .ok (c', queues') := by
  unfold fireAt at h
  split at h
  next hnone =>
    cases Except.ok.inj h
    exact Or.inl ⟨hnone, rfl, rfl⟩
  next c hc =>
    split at h
    next => cases h
    next c' queues1 hfire =>
      cases Except.ok.inj h
      obtain ⟨hi, rfl⟩ := List.getElem?_eq_some_iff.mp hc
      refine Or.inr ⟨procs.take i, procs[i], procs.drop (i + 1), c', hc, ?_, ?_, hfire⟩
      · rw [List.getElem_cons_drop, List.take_append_drop]
      · exact List.set_eq_take_append_cons_drop.trans (if_pos hi)

/-- What a step of the backend can do. -/
inductive BackendCase (s : Backend) : BackendLabel → Backend → Prop
  | enter {oCmd addr key} : oCmd.iType = REQUEST → oCmd.sClientIp = inetNtoa addr →
      routeCmd oCmd.iCmd = some key → BackendCase s (.enter oCmd addr) (s.enter key oCmd)
  | absent {i sent} : s.procs[i]? = none → BackendCase s (.fire i sent) s
  | fire {i sent s' front c back c'} : s.procs[i]? = some c → s.procs = front ++ c :: back →
      s'.procs = front ++ c' :: back → s'.entered = s.entered →
      c.onEventFire s.queues sent = .ok (c', s'.queues) → BackendCase s (.fire i sent) s'
  | drain {queue} : BackendCase s (.drain queue) (s.drain queue)

theorem backend_step_case {s s' : Backend} {l : BackendLabel} (h : backend.step s l s') :
    BackendCase s l s' := by
  obtain ⟨hen, h⟩ := h
  cases l with
  | enter oCmd addr =>
    dsimp only [backendStep] at h
    split at h
    next => cases h
    next key hkey =>
      cases Except.ok.inj h
      exact .enter hen.1 hen.2 hkey
  | fire i sent =>
    dsimp only [backendStep] at h
    split at h
    next => cases h
    next procs queues hfire =>
      cases Except.ok.inj h
      obtain ⟨hnone, rfl, rfl⟩ | ⟨front, c, back, c', hget, hprocs, rfl, hon⟩ := fireAt_cases hfire
      · exact .absent hnone
      · exact .fire hget hprocs rfl rfl hon
  | drain queue =>
    cases Except.ok.inj h
    exact .drain

theorem mem_enter {s : Backend} {oCmd : CCmd} {key k : Int32} {x : QMsg}
    (h : x ∈ (s.enter key oCmd).queues k) :
    x ∈ s.queues k ∨ (k = key ∧ x = cmdMsg REQUEST.toInt oCmd) := by
  dsimp only [Backend.enter] at h
  by_cases hk : k = key
  · subst hk
    rw [Function.update_self, List.mem_append, List.mem_singleton] at h
    exact h.imp id (fun hx => ⟨rfl, hx⟩)
  · rw [Function.update_of_ne hk] at h
    exact Or.inl h

/-- What holds of all processes still does after one is replaced by another it holds of. -/
theorem forall_replace {P : Container → Prop} {front back : List Container} {c c' : Container}
    (h : ∀ p ∈ front ++ c :: back, P p) (hc : P c') : ∀ p ∈ front ++ c' :: back, P p := by
  intro p hp
  simp only [List.mem_append, List.mem_cons] at h hp
  rcases hp with hp | rfl | hp
  · exact h p (Or.inl hp)
  · exact hc
  · exact h p (Or.inr (Or.inr hp))

/-- The command a message decodes to. -/
@[irreducible] def QMsg.cmd (x : QMsg) : CCmd := initCCmd {} x.mtext

theorem QMsg.cmd_eq (x : QMsg) : initCCmd {} x.mtext = x.cmd := by
  unfold QMsg.cmd
  rfl

theorem encode_ne_nil (c : CCmd) : encode c ≠ [] := by
  intro h
  have hlen := congrArg List.length h
  have hpairs := formatHeader_length_pos c (cStr c.sClientIp)
  simp only [encode, MAX_MSG_SIZE, List.length_take, List.length_append, List.length_nil] at hlen
  omega

theorem cmdMsg_header (t : Int) {c : CCmd} (hip : PlainIp c.sClientIp) :
    (cmdMsg t c).cmd.header = c.header := by
  rw [← QMsg.cmd_eq]
  exact initCCmd_encode_header {} hip

/-- The process a handler number names. -/
def pidOf (iSvcSerialNo : Int32) : Int := iSvcSerialNo.toInt.tdiv 100

/-- A client's request as it stands in a service queue. -/
structure IsClient (x : QMsg) : Prop where
  mtype : x.mtype = REQUEST.toInt
  iType : x.cmd.iType = REQUEST

/-- The request CSvcTest2 makes of the other service for handler k. -/
structure IsAsk (k : Int32) (x : QMsg) : Prop where
  mtype : x.mtype = REQUEST.toInt
  iCmd : x.cmd.iCmd = 2
  serial : x.cmd.iSvcSerialNo = k

/-- A reply addressed to the process of handler k. -/
structure IsReply (k : Int32) (x : QMsg) : Prop where
  mtype : x.mtype = appType (pidOf k)
  serial : x.cmd.iSvcSerialNo = k

instance (k : Int32) (x : QMsg) : Decidable (IsAsk k x) :=
  decidable_of_iff (x.mtype = REQUEST.toInt ∧ x.cmd.iCmd = 2 ∧ x.cmd.iSvcSerialNo = k)
    ⟨fun ⟨h1, h2, h3⟩ => ⟨h1, h2, h3⟩, fun h => ⟨h.mtype, h.iCmd, h.serial⟩⟩

instance (k : Int32) (x : QMsg) : Decidable (IsReply k x) :=
  decidable_of_iff (x.mtype = appType (pidOf k) ∧ x.cmd.iSvcSerialNo = k)
    ⟨fun ⟨h1, h2⟩ => ⟨h1, h2⟩, fun h => ⟨h.mtype, h.serial⟩⟩

/-- The fields of a request that tell whose it is and for which service. -/
structure Sender where
  iIndex : Int32
  iFd : Int32
  ifamily : Int32
  sClientIp : Bytes
  iPort : Int32
  iCmd : Int32
  deriving DecidableEq

def CCmd.sender (c : CCmd) : Sender :=
  ⟨c.iIndex, c.iFd, c.ifamily, c.sClientIp, c.iPort, c.iCmd⟩

/-- What ProcessMsg has put into a queue in reply to a command: for netio when
the command carries no handler number, else for the process of the handler. -/
structure RepliesTo (oCmd : CCmd) (key : Int32) (m : QMsg) : Prop where
  text : m.mtext ≠ []
  iType : m.cmd.iType = RESPONSE
  sender : m.cmd.sender = oCmd.sender
  serial : m.cmd.iSvcSerialNo = oCmd.iSvcSerialNo
  back : oCmd.iSvcSerialNo = 0 → key = NET_IO_BACK_MSQ_KEY ∧ m.mtype = RESPONSE.toInt
  app : oCmd.iSvcSerialNo ≠ 0 →
    routeCmd oCmd.sender.iCmd = some key ∧ m.mtype = appType (pidOf oCmd.iSvcSerialNo)

theorem RepliesTo.congr {oCmd oCmd' : CCmd} {key : Int32} {m : QMsg} (h : RepliesTo oCmd key m)
    (hsender : oCmd.sender = oCmd'.sender) (hserial : oCmd.iSvcSerialNo = oCmd'.iSvcSerialNo) :
    RepliesTo oCmd' key m := by
  refine ⟨h.text, h.iType, h.sender.trans hsender, h.serial.trans hserial, ?_, ?_⟩
  · rw [← hserial]
    exact h.back
  · rw [← hserial, ← hsender]
    exact h.app

theorem cmdMsg_response {t : Int} {oCmd : CCmd} {data : Bytes} {m : QMsg}
    (hip : PlainIp oCmd.sClientIp) (hm : m = cmdMsg t { oCmd with sData := data, iType := RESPONSE }) :
    m.mtext ≠ [] ∧ m.cmd.iType = RESPONSE ∧ m.cmd.sender = oCmd.sender ∧
      m.cmd.iSvcSerialNo = oCmd.iSvcSerialNo := by
  have hh := cmdMsg_header t (c := { oCmd with sData := data, iType := RESPONSE }) hip
  rw [← hm] at hh
  obtain ⟨_, htype, hindex, hserial, hcmd, hfd, hfamily, hcliIp, hport⟩ := Header.mk.inj hh
  refine ⟨hm ▸ encode_ne_nil _, htype, ?_, hserial⟩
  simp only [CCmd.sender, hindex, hfd, hfamily, hcliIp, hport, hcmd]

theorem replyTo_repliesTo {pid : Nat} {oCmd : CCmd} {key : Int32} {m : QMsg}
    (hip : PlainIp oCmd.sClientIp) (h : replyTo pid oCmd = some (key, m)) : RepliesTo oCmd key m := by
  unfold replyTo at h
  split at h
  next hs =>
    obtain ⟨key', hkey, he⟩ := Option.map_eq_some_iff.mp h
    obtain ⟨rfl, hm⟩ := Prod.mk.inj he
    obtain ⟨htext, htype, hsender, hserial⟩ := cmdMsg_response hip hm.symm
    exact ⟨htext, htype, hsender, hserial, fun h0 => absurd h0 hs, fun _ => ⟨hkey, hm ▸ rfl⟩⟩
  next hs =>
    obtain ⟨rfl, hm⟩ := Prod.mk.inj (Option.some.inj h)
    obtain ⟨htext, htype, hsender, hserial⟩ := cmdMsg_response hip hm.symm
    exact ⟨htext, htype, hsender, hserial, fun _ => ⟨rfl, hm ▸ rfl⟩, fun h0 => absurd h0 hs⟩

theorem replyCmd_sender (iRet : Int32) (oCmd : CCmd) : (replyCmd iRet oCmd).sender = oCmd.sender := by
  unfold replyCmd
  split <;> rfl

theorem replyTo_replyCmd {pid : Nat} {iRet : Int32} {oCmd : CCmd} {key : Int32} {m : QMsg}
    (hip : PlainIp oCmd.sClientIp) (h : replyTo pid (replyCmd iRet oCmd) = some (key, m)) :
    RepliesTo oCmd key m := by
  have hsender := replyCmd_sender iRet oCmd
  have hip' : PlainIp (replyCmd iRet oCmd).sClientIp := by
    have hsame : (replyCmd iRet oCmd).sClientIp = oCmd.sClientIp := congrArg Sender.sClientIp hsender
    rwa [hsame]
  exact (replyTo_repliesTo hip' h).congr hsender (replyCmd_route iRet oCmd).1

end NetioMiddleware

import NetioMiddleware.Backend
import NetioMiddleware.QueueTally

namespace NetioMiddleware

/-- What one OnEventFire of a process takes, offers and changes. -/
inductive FireCase (queues : Int32 → List QMsg) (c : Container) (sent : Bool) (c' : Container)
    (queues' : Int32 → List QMsg) : Prop
  | idle : c.takes queues = none → c' = c → queues' = queues → FireCase queues c sent c' queues'
  | replied {x rest key m} : c.takes queues = some x → (queues c.svc.mqKey).Perm (x :: rest) →
      x.cmd.iType ≠ RESPONSE →
      (c.freeHandler = none ∨ c.svc = .CSvcTest ∧ x.cmd.iRet ≠ UNFINISH_TASK_RET_FLAG) →
      (PlainIp x.cmd.sClientIp → RepliesTo x.cmd key m) →
      c'.dispatcher.maps = c.dispatcher.maps → c'.frames = c.frames →
      queues' = offer (Function.update queues c.svc.mqKey rest) key m sent →
      FireCase queues c sent c' queues'
  | kept {x rest svc} : c.takes queues = some x → (queues c.svc.mqKey).Perm (x :: rest) →
      x.cmd.iType ≠ RESPONSE → c.svc = .CSvcTest → x.cmd.iRet = UNFINISH_TASK_RET_FLAG →
      c.freeHandler = some svc → c'.dispatcher.maps = c.held svc →
      c'.frames = Function.update c.frames svc.m_iIndex .finished →
      queues' = Function.update queues c.svc.mqKey rest →
      FireCase queues c sent c' queues'
  | held {x rest svc} : c.takes queues = some x → (queues c.svc.mqKey).Perm (x :: rest) →
      x.cmd.iType ≠ RESPONSE → c.svc = .CSvcTest2 →
      c.freeHandler = some svc → c'.dispatcher.maps = c.held svc →
      c'.frames = Function.update c.frames svc.m_iIndex (.suspended x.cmd) →
      queues' = offer (Function.update queues c.svc.mqKey rest) 0xccccd
        (cmdMsg REQUEST.toInt { iSvcSerialNo := svc.m_iIndex, iCmd := svc.m_iCmd }) sent →
      FireCase queues c sent c' queues'
  | resumed {x rest svc obj3 key m} : c.takes queues = some x →
      (queues c.svc.mqKey).Perm (x :: rest) → x.cmd.iType = RESPONSE → c.svc = .CSvcTest2 →
      c.dispatcher.m_mapStatefulSvcQueue.find? x.cmd.iSvcSerialNo = some svc →
      c.frames x.cmd.iSvcSerialNo = .suspended obj3 →
      (PlainIp obj3.sClientIp → RepliesTo (svcTest2End obj3 x.cmd) key m) →
      c'.dispatcher.maps = c.released svc →
      c'.frames = Function.update c.frames svc.m_iIndex .start →
      queues' = offer (Function.update queues c.svc.mqKey rest) key m sent →
      FireCase queues c sent c' queues'

theorem TakenFrom.perm {queue rest : List QMsg} {x : QMsg} (h : TakenFrom queue x rest) :
    queue.Perm (x :: rest) := by
  obtain ⟨before, after, rfl, rfl, _⟩ := h
  exact List.perm_middle

theorem fire_case {c c' : Container} {queues queues' : Int32 → List QMsg} {sent : Bool}
    (hv : c.Valid) (hne : ∀ x ∈ queues c.svc.mqKey, x.mtext ≠ [])
    (h : c.onEventFire queues sent = .ok (c', queues')) : FireCase queues c sent c' queues' := by
  obtain ⟨hnone, hc, hq⟩ | ⟨x, rest, htakes, htaken, _, _, hp⟩ := onEventFire_cases hv hne h
  · exact .idle hnone hc hq
  · have hperm := htaken.perm
    rw [QMsg.cmd_eq] at hp
    generalize hcmd : x.cmd = oCmd at hp
    generalize hmaps : c'.dispatcher.maps = maps at hp
    generalize hframes : c'.frames = frames at hp
    cases hp with
    | refuse htype hfree hto =>
      have hr : PlainIp oCmd.sClientIp → RepliesTo oCmd _ _ := fun hip => replyTo_replyCmd hip hto
      subst hcmd
      exact .replied htakes hperm htype (Or.inl hfree) hr hmaps hframes rfl
    | @answer _ key m htype hfree hclass hret hto =>
      have hr : PlainIp oCmd.sClientIp → RepliesTo oCmd key m := by
        intro hip
        refine RepliesTo.congr (replyTo_replyCmd ?_ hto) rfl rfl
        exact hip
      subst hcmd
      exact .replied htakes hperm htype (Or.inr ⟨hclass, hret⟩) hr hmaps hframes rfl
    | keep htype hfree hclass hret =>
      subst hcmd
      exact .kept htakes hperm htype hclass hret hfree hmaps hframes rfl
    | ask htype hfree hclass =>
      subst hcmd
      exact .held htakes hperm htype hclass hfree hmaps hframes rfl
    | resume htype hclass hfind hframe hto =>
      have hr := fun hip => replyTo_repliesTo hip hto
      subst hcmd
      exact .resumed htakes hperm htype hclass hfind hframe hr hmaps hframes rfl

/-- A process keeps its library, number and slots, and stays valid. -/
theorem fire_static {c c' : Container} {queues queues' : Int32 → List QMsg} {sent : Bool}
    (hv : c.Valid) (hne : ∀ x ∈ queues c.svc.mqKey, x.mtext ≠ [])
    (h : c.onEventFire queues sent = .ok (c', queues')) :
    (c'.svc = c.svc ∧ c'.pid = c.pid ∧ c'.slots = c.slots) ∧ c'.Valid := by
  obtain ⟨_, rfl, _⟩ | ⟨_, _, _, _, _, hstatic, hp⟩ := onEventFire_cases hv hne h
  · exact ⟨⟨rfl, rfl, rfl⟩, hv⟩
  · exact ⟨hstatic, processed_valid hv hstatic hp⟩

/-- A handler that is suspended after a step was suspended before it, or holds
the command the process has taken. -/
theorem fire_frames {c c' : Container} {queues queues' : Int32 → List QMsg} {sent : Bool}
    (h : FireCase queues c sent c' queues') {k : Int32} {obj3 : CCmd}
    (hk : c'.frames k = .suspended obj3) :
    c.frames k = .suspended obj3 ∨ ∃ x, c.takes queues = some x ∧ x.cmd = obj3 := by
  have other : ∀ {k' f}, c'.frames = Function.update c.frames k' f → f ≠ .suspended obj3 →
      c.frames k = .suspended obj3 := by
    intro k' f hf hne
    rw [hf] at hk
    by_cases hkk : k = k'
    · subst hkk
      rw [Function.update_self] at hk
      exact absurd hk hne
    · rwa [Function.update_of_ne hkk] at hk
  cases h with
  | idle _ hcc => exact Or.inl (hcc ▸ hk)
  | replied _ _ _ _ _ _ hf => exact Or.inl (hf ▸ hk)
  | kept _ _ _ _ _ _ _ hf => exact Or.inl (other hf (by simp))
  | @held x _ _ htakes _ _ _ _ _ hf =>
    by_cases hx : x.cmd = obj3
    · exact Or.inr ⟨x, htakes, hx⟩
    · exact Or.inl (other hf (by simpa using hx))
  | resumed _ _ _ _ _ _ _ _ hf => exact Or.inl (other hf (by simp))

/-- A process of a library has this process number. -/
def Backend.Serves (s : Backend) (svc : SvcClass) (pid : Int) : Prop :=
  ∃ c ∈ s.procs, c.svc = svc ∧ (c.pid : Int) = pid

/-- The messages of svc_test's queue: requests of clients, requests of the
other library's handlers, and replies no process waits for. -/
structure FirstQueue (s : Backend) (x : QMsg) : Prop where
  text : x.mtext ≠ []
  ip : PlainIp x.cmd.sClientIp
  kind : (IsClient x ∧ x.cmd.iCmd = 1) ∨
    (IsAsk x.cmd.iSvcSerialNo x ∧ x.cmd.iType = 0 ∧ x.cmd.iRet = 0 ∧ x.cmd.iSvcSerialNo ≠ 0 ∧
      s.Serves .CSvcTest2 (pidOf x.cmd.iSvcSerialNo)) ∨
    (IsReply x.cmd.iSvcSerialNo x ∧ x.cmd.iType = RESPONSE ∧
      ¬s.Serves .CSvcTest (pidOf x.cmd.iSvcSerialNo))

/-- The messages of svc_test2's queue: requests of clients and replies. -/
structure SecondQueue (x : QMsg) : Prop where
  text : x.mtext ≠ []
  ip : PlainIp x.cmd.sClientIp
  kind : (IsClient x ∧ x.cmd.iCmd = 2) ∨ (IsReply x.cmd.iSvcSerialNo x ∧ x.cmd.iType = RESPONSE)

/-- The queues of the two services and of netio. -/
def msgqKeys : Finset Int32 := {0xccccd, 0xcccce, NET_IO_BACK_MSQ_KEY}

/-- Whether a message in a queue is one handler k waits for. -/
def awaits (k key : Int32) (x : QMsg) : Bool :=
  key = 0xccccd ∧ IsAsk k x ∨ key = 0xcccce ∧ IsReply k x

/-- How many messages are under way for handler k. -/
def outstanding (queues : Int32 → List QMsg) (k : Int32) : Nat := tally msgqKeys (awaits k) queues

/-- Whether handler k is in a process's stateful map, as a number. -/
def Container.holds (c : Container) (k : Int32) : Nat :=
  if (c.dispatcher.m_mapStatefulSvcQueue.find? k).isSome then 1 else 0

/-- How many processes have handler k in their stateful map. -/
def busy (procs : List Container) (k : Int32) : Nat := (procs.map (·.holds k)).sum

structure BackendInv (s : Backend) : Prop where
  valid : ∀ c ∈ s.procs, c.Valid
  pids : (s.procs.map (·.pid)).Nodup
  first : ∀ x ∈ s.queues 0xccccd, FirstQueue s x
  second : ∀ x ∈ s.queues 0xcccce, SecondQueue x
  plain : ∀ c ∈ s.procs, ∀ k obj3, c.frames k = .suspended obj3 → PlainIp obj3.sClientIp
  awaited : ∀ k, s.Serves .CSvcTest2 (pidOf k) → outstanding s.queues k ≤ busy s.procs k

/-- A client's request whose number names a process of the library it asks for
is not replied to at once: a handler is free and, in svc_test, the request's
ret tells the dispatcher not to finish. -/
def FitsProc (s : Backend) (c : Container) (sent : Bool) : Prop :=
  ∀ x, c.takes s.queues = some x → x.cmd.iType = REQUEST → x.cmd.iSvcSerialNo ≠ 0 →
    s.Serves c.svc (pidOf x.cmd.iSvcSerialNo) → sent = true →
    c.freeHandler ≠ none ∧ (c.svc = .CSvcTest → x.cmd.iRet = UNFINISH_TASK_RET_FLAG)

def Backend.Fits (s : Backend) : BackendLabel → Prop
  | .fire i sent => ∀ c, s.procs[i]? = some c → FitsProc s c sent
  | _ => True

instance (s : Backend) (svc : SvcClass) (pid : Int) : Decidable (s.Serves svc pid) := by
  unfold Backend.Serves
  infer_instance

instance decidableForallSome {α : Type*} (o : Option α) (p : α → Prop) [DecidablePred p] :
    Decidable (∀ x, o = some x → p x) :=
  match o with
  | none => isTrue (fun _ h => by cases h)
  | some x => decidable_of_iff (p x) ⟨fun h _ hx => Option.some.inj hx ▸ h, fun h => h x rfl⟩

instance (s : Backend) (c : Container) (sent : Bool) : Decidable (FitsProc s c sent) := by
  unfold FitsProc
  infer_instance

instance (s : Backend) : (l : BackendLabel) → Decidable (s.Fits l)
  | .fire i sent => inferInstanceAs (Decidable (∀ c, s.procs[i]? = some c → FitsProc s c sent))
  | .enter _ _ => isTrue trivial
  | .drain _ => isTrue trivial

theorem appType_ne_request (pid : Int) : appType pid ≠ REQUEST.toInt := by
  have h1 : REQUEST.toInt = 1 := rfl
  have h2 : APP.toInt = 3 := rfl
  simp only [appType, h1, h2]
  omega

theorem appType_injective {pid pid' : Int} (h : appType pid = appType pid') : pid = pid' := by
  simp only [appType] at h
  omega

theorem IsReply.not_ask {k k' : Int32} {x : QMsg} (h : IsReply k x) : ¬IsAsk k' x :=
  fun ha => appType_ne_request _ (h.mtype.symm.trans ha.mtype)

theorem IsClient.not_reply {k : Int32} {x : QMsg} (h : IsClient x) : ¬IsReply k x :=
  fun hr => appType_ne_request _ (hr.mtype.symm.trans h.mtype)

theorem mem_offer {queues : Int32 → List QMsg} {key k : Int32} {m x : QMsg} {sent : Bool}
    (h : x ∈ offer queues key m sent k) : x ∈ queues k ∨ (k = key ∧ x = m ∧ sent = true) := by
  unfold offer at h
  split at h
  next hs =>
    by_cases hk : k = key
    · subst hk
      rw [Function.update_self, List.mem_append, List.mem_singleton] at h
      exact h.imp id (fun hx => ⟨rfl, hx, hs.1⟩)
    · rw [Function.update_of_ne hk] at h
      exact Or.inl h
  next => exact Or.inl h

theorem mem_take {queues : Int32 → List QMsg} {key k : Int32} {x y : QMsg} {rest : List QMsg}
    (hp : (queues key).Perm (x :: rest)) (h : y ∈ Function.update queues key rest k) : y ∈ queues k := by
  by_cases hk : k = key
  · subst hk
    rw [Function.update_self] at h
    exact hp.mem_iff.mpr (List.mem_cons_of_mem x h)
  · rwa [Function.update_of_ne hk] at h

theorem tally_offer {keys : Finset Int32} {p : Int32 → QMsg → Bool} (queues : Int32 → List QMsg)
    (key : Int32) (m : QMsg) (sent : Bool) :
    tally keys p (offer queues key m sent) =
      tally keys p queues + if sent = true ∧ 0 < m.mtype then weight keys p key m else 0 := by
  unfold offer
  split
  next => exact tally_append m
  next => rfl

theorem outstanding_take {queues : Int32 → List QMsg} {key : Int32} {x : QMsg} {rest : List QMsg}
    (hp : (queues key).Perm (x :: rest)) (k : Int32) :
    outstanding (Function.update queues key rest) k + weight msgqKeys (awaits k) key x =
      outstanding queues k := tally_take hp

theorem outstanding_offer (queues : Int32 → List QMsg) (key k : Int32) (m : QMsg) (sent : Bool) :
    outstanding (offer queues key m sent) k = outstanding queues k +
      if sent = true ∧ 0 < m.mtype then weight msgqKeys (awaits k) key m else 0 :=
  tally_offer queues key m sent

theorem awaits_weight (k key : Int32) (x : QMsg) :
    weight msgqKeys (awaits k) key x =
      if key = 0xccccd ∧ IsAsk k x ∨ key = 0xcccce ∧ IsReply k x then 1 else 0 := by
  have hmem : key = 0xccccd ∨ key = 0xcccce → key ∈ msgqKeys := by
    rintro (rfl | rfl) <;> decide
  have hawaits : awaits k key x = true ↔
      key = 0xccccd ∧ IsAsk k x ∨ key = 0xcccce ∧ IsReply k x := decide_eq_true_iff
  exact if_congr
    ⟨fun h => hawaits.mp h.2, fun h => ⟨hmem (h.imp And.left And.left), hawaits.mpr h⟩⟩ rfl rfl

theorem busy_replace (front back : List Container) (c c' : Container) (k : Int32) :
    busy (front ++ c' :: back) k + c.holds k = busy (front ++ c :: back) k + c'.holds k := by
  simp only [busy, List.map_append, List.map_cons, List.sum_append, List.sum_cons]
  omega

/-- A change of one process that keeps its library and number. -/
theorem serves_replace {s s' : Backend} {front back : List Container} {c c' : Container}
    (hprocs : s.procs = front ++ c :: back) (hprocs' : s'.procs = front ++ c' :: back)
    (hsvc : c'.svc = c.svc) (hpid : c'.pid = c.pid) (svc : SvcClass) (pid : Int) :
    s'.Serves svc pid ↔ s.Serves svc pid := by
  simp only [Backend.Serves, hprocs, hprocs', List.mem_append, List.mem_cons, or_and_right,
    exists_or, exists_eq_left, hsvc, hpid]

theorem holds_of_maps {c c' : Container} (h : c'.dispatcher.maps = c.dispatcher.maps) (k : Int32) :
    c'.holds k = c.holds k := by
  unfold Container.holds
  rw [(Prod.mk.inj h).2]

theorem holds_held {c c' : Container} (hv : c.Valid) {svc : IService} (hfree : c.freeHandler = some svc)
    (h : c'.dispatcher.maps = c.held svc) (k : Int32) :
    c'.holds k = c.holds k + if k = svc.m_iIndex then 1 else 0 := by
  obtain ⟨_, _, _, hbusy, _⟩ := freeHandler_eq_some hv hfree
  unfold Container.holds
  rw [(Prod.mk.inj h).2, SortedMap.find?_assign]
  by_cases hk : k = svc.m_iIndex
  · subst hk
    simp [hbusy]
  · simp [hk]

theorem holds_released {c c' : Container} (hv : c.Valid) {svc : IService} {k' : Int32}
    (hfind : c.dispatcher.m_mapStatefulSvcQueue.find? k' = some svc)
    (h : c'.dispatcher.maps = c.released svc) (k : Int32) :
    c'.holds k + (if k = k' then 1 else 0) = c.holds k := by
  obtain ⟨_, hkey⟩ := hv.partitioned.busy _ _ hfind
  unfold Container.holds
  rw [(Prod.mk.inj h).2, SortedMap.find?_erase, ← hkey]
  by_cases hk : k = k'
  · subst hk
    simp [hfind]
  · simp [hk]

theorem takes_mem {c : Container} {queues : Int32 → List QMsg} {x : QMsg}
    (h : c.takes queues = some x) :
    x ∈ queues c.svc.mqKey ∧ (x.mtype = REQUEST.toInt ∨ x.mtype = appType c.pid) := by
  have found : ∀ t, firstOf t (queues c.svc.mqKey) = some x → x ∈ queues c.svc.mqKey ∧ x.mtype = t := by
    intro t ht
    exact ⟨List.mem_of_find?_eq_some ht, by simpa using List.find?_some ht⟩
  rcases Option.or_eq_some_iff.mp h with h | ⟨_, h⟩
  · exact (found _ h).imp id Or.inl
  · exact (found _ h).imp id Or.inr

section

variable {s : Backend} (hi : BackendInv s) {c : Container} (hc : c ∈ s.procs) {x : QMsg}
  (htakes : c.takes s.queues = some x)

include hi hc htakes

/-- What a process of svc_test can take. -/
theorem taken_first (hclass : c.svc = .CSvcTest) :
    FirstQueue s x ∧ x.cmd.iType ≠ RESPONSE ∧ ((IsClient x ∧ x.cmd.iCmd = 1) ∨
      (IsAsk x.cmd.iSvcSerialNo x ∧ x.cmd.iType = 0 ∧ x.cmd.iRet = 0 ∧ x.cmd.iSvcSerialNo ≠ 0 ∧
        s.Serves .CSvcTest2 (pidOf x.cmd.iSvcSerialNo))) := by
  obtain ⟨hmem, hmt⟩ := takes_mem htakes
  rw [hclass] at hmem
  have hf := hi.first x hmem
  rcases hf.kind with hk | hk | ⟨hreply, _, hstray⟩
  · refine ⟨hf, ?_, Or.inl hk⟩
    rw [hk.1.iType]
    decide
  · refine ⟨hf, ?_, Or.inr hk⟩
    rw [hk.2.1]
    decide
  · rw [hreply.mtype] at hmt
    have hpid := appType_injective (hmt.resolve_left (appType_ne_request _))
    exact absurd ⟨c, hc, hclass, hpid.symm⟩ hstray

omit hc in
theorem taken_second (hclass : c.svc = .CSvcTest2) :
    SecondQueue x ∧ ((IsClient x ∧ x.cmd.iCmd = 2) ∨
      (IsReply x.cmd.iSvcSerialNo x ∧ x.cmd.iType = RESPONSE ∧ pidOf x.cmd.iSvcSerialNo = c.pid)) := by
  obtain ⟨hmem, hmt⟩ := takes_mem htakes
  rw [hclass] at hmem
  have hs := hi.second x hmem
  rcases hs.kind with hk | ⟨hreply, htype⟩
  · exact ⟨hs, Or.inl hk⟩
  · rw [hreply.mtype] at hmt
    have hpid := appType_injective (hmt.resolve_left (appType_ne_request _))
    exact ⟨hs, Or.inr ⟨hreply, htype, hpid⟩⟩

theorem taken_plain : PlainIp x.cmd.sClientIp := by
  cases hclass : c.svc with
  | CSvcTest => exact (taken_first hi hc htakes hclass).1.ip
  | CSvcTest2 => exact (taken_second hi htakes hclass).1.ip

/-- What is not a response is a client's request for the process's own library
or a request from the other library. -/
theorem taken_request (htype : x.cmd.iType ≠ RESPONSE) :
    (IsClient x ∧ routeCmd x.cmd.iCmd = some c.svc.mqKey) ∨
    (c.svc = .CSvcTest ∧ IsAsk x.cmd.iSvcSerialNo x ∧ x.cmd.iRet = 0 ∧ x.cmd.iSvcSerialNo ≠ 0 ∧
      s.Serves .CSvcTest2 (pidOf x.cmd.iSvcSerialNo)) := by
  cases hclass : c.svc with
  | CSvcTest =>
    obtain ⟨_, _, ⟨hclient, hcmd⟩ | ⟨hask, _, hret, hne, hserves⟩⟩ := taken_first hi hc htakes hclass
    · exact Or.inl ⟨hclient, by rw [hcmd]; rfl⟩
    · exact Or.inr ⟨rfl, hask, hret, hne, hserves⟩
  | CSvcTest2 =>
    obtain ⟨_, ⟨hclient, hcmd⟩ | ⟨_, hresp, _⟩⟩ := taken_second hi htakes hclass
    · exact Or.inl ⟨hclient, by rw [hcmd]; rfl⟩
    · exact absurd hresp htype

/-- A client's request counts for no handler. -/
theorem client_weight (hclient : IsClient x) (k : Int32) :
    weight msgqKeys (awaits k) c.svc.mqKey x = 0 := by
  rw [awaits_weight, if_neg]
  rintro (⟨hkey, hask⟩ | ⟨_, hreply⟩)
  · cases hclass : c.svc with
    | CSvcTest =>
      obtain ⟨_, _, ⟨_, hcmd⟩ | ⟨_, htype, _⟩⟩ := taken_first hi hc htakes hclass
      · rw [hask.iCmd] at hcmd
        contradiction
      · rw [hclient.iType] at htype
        contradiction
    | CSvcTest2 =>
      rw [hclass] at hkey
      contradiction
  · exact hclient.not_reply hreply

end

theorem ask_weight {k' : Int32} {x : QMsg} (hask : IsAsk k' x) (k : Int32) :
    weight msgqKeys (awaits k) 0xccccd x = if k = k' then 1 else 0 := by
  rw [awaits_weight]
  by_cases hk : k = k'
  · rw [if_pos hk, if_pos (Or.inl ⟨rfl, hk ▸ hask⟩)]
  · rw [if_neg hk, if_neg]
    rintro (⟨_, h⟩ | ⟨h, _⟩)
    · exact hk (h.serial.symm.trans hask.serial)
    · exact absurd h (by decide)

theorem reply_weight {k' : Int32} {x : QMsg} (hreply : IsReply k' x) (k : Int32) :
    weight msgqKeys (awaits k) 0xcccce x = if k = k' then 1 else 0 := by
  rw [awaits_weight]
  by_cases hk : k = k'
  · rw [if_pos hk, if_pos (Or.inr ⟨rfl, hk ▸ hreply⟩)]
  · rw [if_neg hk, if_neg]
    rintro (⟨h, _⟩ | ⟨_, h⟩)
    · exact absurd h (by decide)
    · exact hk (h.serial.symm.trans hreply.serial)

theorem back_weight (k : Int32) (m : QMsg) :
    weight msgqKeys (awaits k) NET_IO_BACK_MSQ_KEY m = 0 := by
  rw [awaits_weight, if_neg]
  rintro (⟨h, _⟩ | ⟨h, _⟩) <;> exact absurd h (by decide)

theorem RepliesTo.isReply {oCmd : CCmd} {key : Int32} {m : QMsg} (h : RepliesTo oCmd key m)
    (hserial : oCmd.iSvcSerialNo ≠ 0) : IsReply m.cmd.iSvcSerialNo m :=
  ⟨h.serial ▸ (h.app hserial).2, rfl⟩

end NetioMiddleware

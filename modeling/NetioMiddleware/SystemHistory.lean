import NetioMiddleware.AnswerTexts
import NetioMiddleware.HandlerPool
import NetioMiddleware.Statistics
import NetioMiddleware.Traffic

namespace NetioMiddleware

/-- Two processes that differ at most in what no later step depends on: the last
command and the number of handlers counted. -/
structure Shadow (c c' : Container) : Prop where
  svc : c'.svc = c.svc
  pid : c'.pid = c.pid
  slots : c'.slots = c.slots
  maps : c'.dispatcher.maps = c.dispatcher.maps
  frames : c'.frames = c.frames
  stats : c'.stats = c.stats

theorem Shadow.symm {c c' : Container} (h : Shadow c c') : Shadow c' c :=
  ⟨h.svc.symm, h.pid.symm, h.slots.symm, h.maps.symm, h.frames.symm, h.stats.symm⟩

theorem Shadow.free {c c' : Container} (h : Shadow c c') : c'.freeHandler = c.freeHandler := by
  rw [Container.freeHandler, (Prod.mk.inj h.maps).1, Container.freeHandler]

theorem TakenFrom.rest_eq {queue rest : List QMsg} {x : QMsg} (h : TakenFrom queue x rest) :
    rest = queue.eraseP (fun y => y.mtype == x.mtype) := by
  obtain ⟨before, after, rfl, rfl, hbefore⟩ := h
  rw [List.eraseP_append_right _ (fun y hy => by simpa using hbefore y hy),
    List.eraseP_cons_of_pos (by simp)]

theorem Shadow.takes {c c' : Container} (h : Shadow c c') {queues queues' : Int32 → List QMsg}
    (hq : queues' c.svc.mqKey = queues c.svc.mqKey) : c'.takes queues' = c.takes queues := by
  unfold Container.takes
  rw [h.svc, h.pid, hq]

/-- Two queue tables that agree but for the older answers in netio's queue. -/
structure Behind (gone gone' : List QMsg) (queues queues' : Int32 → List QMsg) : Prop where
  service : ∀ svc : SvcClass, queues' svc.mqKey = queues svc.mqKey
  back : gone' ++ queues' NET_IO_BACK_MSQ_KEY = gone ++ queues NET_IO_BACK_MSQ_KEY

variable {gone gone' : List QMsg} {queues queues' : Int32 → List QMsg}

theorem Behind.symm (h : Behind gone gone' queues queues') : Behind gone' gone queues' queues :=
  ⟨fun svc => (h.service svc).symm, h.back.symm⟩

theorem Behind.offer (h : Behind gone gone' queues queues') (key : Int32) (m : QMsg) (sent : Bool) :
    Behind gone gone' (offer queues key m sent) (offer queues' key m sent) := by
  unfold NetioMiddleware.offer
  split
  next =>
    refine ⟨fun svc => ?_, ?_⟩
    · by_cases hkey : svc.mqKey = key
      · subst hkey
        rw [Function.update_self, Function.update_self, h.service]
      · rw [Function.update_of_ne hkey, Function.update_of_ne hkey, h.service]
    · by_cases hkey : NET_IO_BACK_MSQ_KEY = key
      · subst hkey
        rw [Function.update_self, Function.update_self, ← List.append_assoc, h.back, List.append_assoc]
      · rw [Function.update_of_ne hkey, Function.update_of_ne hkey, h.back]
  next => exact h

theorem Behind.update (h : Behind gone gone' queues queues') (svc : SvcClass) (rest : List QMsg) :
    Behind gone gone' (Function.update queues svc.mqKey rest) (Function.update queues' svc.mqKey rest) := by
  refine ⟨fun svc' => ?_, ?_⟩
  · by_cases hkey : svc'.mqKey = svc.mqKey
    · rw [hkey, Function.update_self, Function.update_self]
    · rw [Function.update_of_ne hkey, Function.update_of_ne hkey, h.service]
  · rw [Function.update_of_ne (mqKey_ne_back svc).symm, Function.update_of_ne (mqKey_ne_back svc).symm, h.back]

/-- What ProcessMsg does depends on nothing in which two such processes and
queue tables differ. -/
theorem Processed.shadow {c c' : Container} (hsh : Shadow c c') (hb : Behind gone gone' queues queues')
    {after : Int32 → List QMsg} {oCmd : CCmd} {sent : Bool}
    {maps : SortedMap Int32 IService × SortedMap Int32 IService} {frames : Int32 → Frame}
    (h : Processed c queues oCmd sent maps frames after) :
    ∃ after', Processed c' queues' oCmd sent maps frames after' ∧ Behind gone gone' after after' := by
  have hfree := hsh.free
  have hheld : ∀ svc, c'.held svc = c.held svc := by
    intro svc
    rw [Container.held, (Prod.mk.inj hsh.maps).1, (Prod.mk.inj hsh.maps).2, Container.held]
  have hreleased : ∀ svc, c'.released svc = c.released svc := by
    intro svc
    rw [Container.released, (Prod.mk.inj hsh.maps).1, (Prod.mk.inj hsh.maps).2, Container.released]
  cases h with
  | refuse htype hnone hto =>
    rw [← hsh.maps, ← hsh.frames]
    exact ⟨_, .refuse htype (hfree.trans hnone) (hsh.pid ▸ hto), hb.offer _ _ _⟩
  | answer htype hsome hclass hret hto =>
    rw [← hsh.maps, ← hsh.frames]
    exact ⟨_, .answer htype (hfree.trans hsome) (hsh.svc.trans hclass) hret (hsh.pid ▸ hto), hb.offer _ _ _⟩
  | keep htype hsome hclass hret =>
    rw [← hheld, ← hsh.frames]
    exact ⟨_, .keep htype (hfree.trans hsome) (hsh.svc.trans hclass) hret, hb⟩
  | ask htype hsome hclass =>
    rw [← hheld, ← hsh.frames]
    exact ⟨_, .ask htype (hfree.trans hsome) (hsh.svc.trans hclass), hb.offer _ _ _⟩
  | resume htype hclass hfind hframe hto =>
    rw [← hreleased, ← hsh.frames]
    rw [← (Prod.mk.inj hsh.maps).2] at hfind
    rw [← hsh.frames] at hframe
    exact ⟨_, .resume htype (hsh.svc.trans hclass) hfind hframe (hsh.pid ▸ hto), hb.offer _ _ _⟩

/-- One OnEventFire of a process and of its shadow. -/
theorem fire_shadow {c c1 c' : Container} {queues1 : Int32 → List QMsg} {sent : Bool} (hsh : Shadow c c')
    (hb : Behind gone gone' queues queues') (hv : c.Valid) (hv' : c'.Valid)
    (hne : ∀ x ∈ queues c.svc.mqKey, x.mtext ≠ []) (h : c.onEventFire queues sent = .ok (c1, queues1)) :
    ∃ c1' queues1', c'.onEventFire queues' sent = .ok (c1', queues1') ∧ Shadow c1 c1' ∧
      Behind gone gone' queues1 queues1' := by
  have hkey := hb.service c.svc
  have hne' : ∀ x ∈ queues' c'.svc.mqKey, x.mtext ≠ [] := by
    rw [hsh.svc, hkey]
    exact hne
  have hstats := onEventFire_stats hv hne h
  obtain ⟨hnone, rfl, rfl⟩ | ⟨x, rest, htakes, htaken, _, hstatic, hp⟩ := onEventFire_cases hv hne h
  · obtain ⟨_, hfire⟩ | ⟨y, _, htakes', _⟩ := onEventFire_eq hne' sent
    · exact ⟨_, _, hfire, hsh, hb⟩
    · rw [hsh.takes hkey, hnone] at htakes'
      cases htakes'
  · obtain ⟨hnone', _⟩ | ⟨y, rest', htakes', htaken', _, hfire⟩ := onEventFire_eq hne' sent
    · rw [hsh.takes hkey, htakes] at hnone'
      cases hnone'
    · rw [hsh.takes hkey, htakes] at htakes'
      obtain rfl := Option.some.inj htakes'
      rw [hsh.svc, hkey] at htaken'
      obtain rfl : rest' = rest := htaken'.rest_eq.trans htaken.rest_eq.symm
      obtain ⟨after', hp', hb'⟩ := hp.shadow hsh (hb.update c.svc rest')
      obtain ⟨d, w, hmsg, hmaps, hframes, hqueues⟩ := hp'.processMsg hv'
      have hmore := processMsg_stats hv' hmsg
      rw [hsh.svc, hmsg] at hfire
      refine ⟨_, _, hfire, ⟨?_, ?_, ?_, hmaps, hframes, ?_⟩, hqueues ▸ hb'⟩
      · exact hstatic.1.symm
      · exact hsh.pid.trans hstatic.2.1.symm
      · exact hsh.slots.trans hstatic.2.2.symm
      · rw [htakes, Option.map_some, Option.getD_some, Container.counts] at hstats
        rw [Container.counts, hsh.free, hsh.stats, hsh.svc, hsh.pid, QMsg.cmd_eq] at hmore
        exact hmore.trans hstats.symm

/-- Clients set neither ret nor serialno, and every msgsnd of a process succeeds. -/
def NetioSystem.Plain (_ : NetioSystem) : SystemLabel → Prop
  | .netio (.event _ _ out) => ∀ buf, out.read = some buf →
      (initCCmd {} buf).iRet = 0 ∧ (initCCmd {} buf).iSvcSerialNo = 0
  | .netio _ => True
  | .process _ sent => sent = true

instance (s : NetioSystem) : (l : SystemLabel) → Decidable (s.Plain l)
  | .netio (.event _ _ out) => inferInstanceAs (Decidable (∀ buf, out.read = some buf →
      (initCCmd {} buf).iRet = 0 ∧ (initCCmd {} buf).iSvcSerialNo = 0))
  | .netio (.response _ _) => isTrue trivial
  | .netio (.others _) => isTrue trivial
  | .process _ sent => inferInstanceAs (Decidable (sent = true))

/-- A whole system, and what is behind netio as if netio had taken none of the
answers: those it has taken stand in front of those still queued. -/
structure Undrained (s : NetioSystem) (b : Backend) (gone : List QMsg) : Prop where
  wired : Wired s.netio
  procs : List.Forall₂ Shadow s.procs b.procs
  queues : Behind gone [] s.netio.kernel.queues b.queues
  sent : b.entered.map (·.sender) = sentSenders s.netio.kernel.log
  received : gone.map (fun x => responseText x.cmd) = receivedTexts s.netio.kernel.log

theorem Undrained.back {s : NetioSystem} {b : Backend} {gone : List QMsg} (h : Undrained s b gone) :
    b.queues NET_IO_BACK_MSQ_KEY = gone ++ s.netio.kernel.queues NET_IO_BACK_MSQ_KEY := h.queues.back

/-- netio's queue holds nothing but answers. -/
theorem back_answers {b : Backend} (h : backend.Reach plainRun b) :
    ∀ x ∈ b.queues NET_IO_BACK_MSQ_KEY, x.mtype = RESPONSE.toInt ∧ x.mtext ≠ [] := by
  induction h with
  | init hs =>
    intro x hx
    rw [hs.queues] at hx
    contradiction
  | @step b b' l hreach hok hstep ih =>
    have hs := served_reach hreach
    have replied : ∀ {oCmd key m}, RepliesTo oCmd key m → NET_IO_BACK_MSQ_KEY = key →
        m.mtype = RESPONSE.toInt ∧ m.mtext ≠ [] := by
      rintro oCmd key m hr rfl
      refine ⟨(hr.back ?_).2, hr.text⟩
      by_contra hserial
      exact route_ne_back (hr.app hserial).1 rfl
    cases backend_step_case hstep with
    | enter _ _ hkey =>
      intro x hx
      rcases mem_enter hx with hx | ⟨hback, _⟩
      · exact ih x hx
      · exact absurd hback.symm (route_ne_back hkey)
    | absent => exact ih
    | @fire i sent _ front c back c' _ hprocs _ _ hon =>
      have hc : c ∈ b.procs := hprocs ▸ by simp
      intro x hx
      cases fire_case (hs.inv.valid c hc) (hs.inv.text c.svc) hon with
      | idle _ _ hq => exact ih x (hq ▸ hx)
      | replied htakes hperm _ _ hr _ _ hq =>
        rw [hq] at hx
        rcases mem_offer hx with hx | ⟨hkey, rfl, _⟩
        · exact ih x (mem_take hperm hx)
        · exact replied (hr (taken_plain hs.inv hc htakes)) hkey
      | kept _ hperm _ _ _ _ _ _ hq => exact ih x (mem_take hperm (hq ▸ hx))
      | held _ hperm _ _ _ _ _ hq =>
        rw [hq] at hx
        rcases mem_offer hx with hx | ⟨hkey, _⟩
        · exact ih x (mem_take hperm hx)
        · exact absurd hkey (by decide)
      | resumed _ hperm _ _ _ hframe hr _ _ hq =>
        rw [hq] at hx
        rcases mem_offer hx with hx | ⟨hkey, rfl, _⟩
        · exact ih x (mem_take hperm hx)
        · exact replied (hr (hs.inv.plain c hc _ _ hframe)) hkey
    | drain => exact hok.elim

theorem start_log {s : Reactor} (h : NetioStart s) : s.kernel.log = [] := by
  refine h.induct (P := fun r => r.kernel.log = []) (fun _ _ _ _ _ _ _ _ _ => rfl) ?_
  intro r r' fd op i hr _ _ hadd
  rw [(addToWatchList_frame hadd).1]
  exact hr

theorem undrained_start {s : NetioSystem} (h : SystemStart s) : Undrained s (s.behind []) [] := by
  have hlog := start_log h.netio
  refine ⟨wired_start h.netio, ?_, ⟨fun _ => rfl, rfl⟩, ?_, ?_⟩
  · exact List.forall₂_same.mpr fun c _ => ⟨rfl, rfl, rfl, rfl, rfl, rfl⟩
  · rw [hlog]
    rfl
  · rw [hlog]
    rfl

section

variable {s s' : NetioSystem} {b : Backend} {gone : List QMsg} (hu : Undrained s b gone)
  (hw : Wired s'.netio) (hprocs : s'.procs = s.procs)

include hu hw hprocs

theorem undrained_quiet (h : Quiet s.netio s'.netio) : Undrained s' b gone := by
  refine ⟨hw, hprocs ▸ hu.procs, ?_, ?_, ?_⟩
  · rw [h.queues]
    exact hu.queues
  · rw [h.sent, hu.sent]
  · rw [h.received, hu.received]

/-- The request netio puts into a queue enters behind it. -/
theorem undrained_asks {fd key : Int32} {buf : Bytes} (hb : backend.Reach plainRun b)
    (hplain : (initCCmd {} buf).iRet = 0 ∧ (initCCmd {} buf).iSvcSerialNo = 0)
    (hkey : routeCmd (s.netio.stampCmd fd buf).iCmd = some key)
    (hqueues : s'.netio.kernel.queues =
      offer s.netio.kernel.queues key (cmdMsg REQUEST.toInt (s.netio.stampCmd fd buf)) true)
    (hsent : sentSenders s'.netio.kernel.log =
      sentSenders s.netio.kernel.log ++ [(s.netio.stampCmd fd buf).sender])
    (hreceived : receivedTexts s'.netio.kernel.log = receivedTexts s.netio.kernel.log) :
    ∃ b', backend.Reach plainRun b' ∧ Undrained s' b' gone := by
  refine ⟨b.enter key (s.netio.stampCmd fd buf), ?_, hw, hprocs ▸ hu.procs, ?_, ?_, ?_⟩
  · refine hb.step (l := .enter (s.netio.stampCmd fd buf)
      (s.netio.m_arrTcpSock fd).stSockAddr_in.sin_addr) hplain ⟨⟨rfl, rfl⟩, ?_⟩
    dsimp only [backendStep]
    rw [hkey]
  · have hpos : true = true ∧ 0 < (cmdMsg REQUEST.toInt (s.netio.stampCmd fd buf)).mtype :=
      ⟨rfl, show (0 : Int) < REQUEST.toInt by decide⟩
    have hoffer := hu.queues.offer key (cmdMsg REQUEST.toInt (s.netio.stampCmd fd buf)) true
    rw [hqueues]
    rw [offer, offer, if_pos hpos, if_pos hpos] at hoffer
    rw [offer, if_pos hpos]
    exact hoffer
  · rw [hsent, ← hu.sent]
    exact List.map_append
  · rw [hreceived, hu.received]

theorem undrained_takes {m : QMsg} {rest : List QMsg} (h : Takes s.netio m rest s'.netio) :
    Undrained s' b (gone ++ [m]) := by
  refine ⟨hw, hprocs ▸ hu.procs, ⟨fun svc => ?_, ?_⟩, ?_, ?_⟩
  · rw [h.queues, Function.update_of_ne (mqKey_ne_back svc), hu.queues.service]
  · rw [h.queues, Function.update_self, hu.back, h.first, List.append_assoc, List.singleton_append,
      List.nil_append]
  · rw [h.sent, hu.sent]
  · rw [h.received, ← hu.received, List.map_append, List.map_singleton]

end

theorem Undrained.answers {s : NetioSystem} {b : Backend} {gone : List QMsg} (h : Undrained s b gone)
    (hb : backend.Reach plainRun b) :
    ∀ x ∈ s.netio.kernel.queues NET_IO_BACK_MSQ_KEY, x.mtype = RESPONSE.toInt ∧ x.mtext ≠ [] := by
  intro x hx
  refine back_answers hb x ?_
  rw [h.back]
  exact List.mem_append_right _ hx

/-- A step of netio leaves a part of the whole that is undrained as before, or
enters the request behind it too. -/
theorem undrained_netio {s s' : NetioSystem} {l : NetioLabel} {b : Backend} {gone : List QMsg}
    (hu : Undrained s b gone) (hb : backend.Reach plainRun b) (hplain : s.Plain (.netio l))
    (h : netioSystem.step s (.netio l) s') :
    ∃ b' gone', backend.Reach plainRun b' ∧ Undrained s' b' gone' := by
  obtain ⟨hstep, hprocs, hl⟩ := system_netio_step h
  have hw := wired_step hu.wired hstep
  cases netio_traffic hu.wired hl (hu.answers hb) hstep with
  | quiet hquiet => exact ⟨b, gone, hb, undrained_quiet hu hw hprocs hquiet⟩
  | @asks fd events out buf key hlabel hread hkey hqueues hsent hreceived =>
    subst hlabel
    obtain ⟨b', hb', hu'⟩ := undrained_asks hu hw hprocs hb (hplain buf hread) hkey hqueues hsent hreceived
    exact ⟨b', gone, hb', hu'⟩
  | @takes m rest htakes => exact ⟨b, gone ++ [m], hb, undrained_takes hu hw hprocs htakes⟩

theorem forall₂_set {α β : Type*} {R : α → β → Prop} {l : List α} {l' : List β} {x : α} {y : β}
    (h : List.Forall₂ R l l') (hxy : R x y) (i : Nat) : List.Forall₂ R (l.set i x) (l'.set i y) := by
  induction h generalizing i with
  | nil => exact .nil
  | cons hab hrest ih =>
    cases i with
    | zero => exact .cons hxy hrest
    | succ i => exact .cons hab (ih i)

theorem forall₂_getElem? {α β : Type*} {R : α → β → Prop} {l : List α} {l' : List β}
    (h : List.Forall₂ R l l') {i : Nat} {x : α} (hx : l[i]? = some x) :
    ∃ y, l'[i]? = some y ∧ R x y := by
  induction h generalizing i with
  | nil => simp at hx
  | cons hab hrest ih =>
    cases i with
    | zero =>
      cases Option.some.inj hx
      exact ⟨_, rfl, hab⟩
    | succ i => exact ih hx

/-- An OnEventFire of a process does the same in the shadow of the whole. -/
theorem undrained_process {s s' : NetioSystem} {i : Nat} {sent : Bool} {b : Backend} {gone : List QMsg}
    (hs : Sound (s.behind [])) (hu : Undrained s b gone) (hb : backend.Reach plainRun b)
    (hplain : s.Plain (.process i sent)) (h : netioSystem.step s (.process i sent) s') :
    ∃ b', backend.step b (.fire i true) b' ∧ Undrained s' b' gone := by
  obtain rfl : sent = true := hplain
  obtain ⟨hstep, hnetio⟩ := system_process_step h []
  have hw : Wired s'.netio := by
    rw [hnetio]
    exact hu.wired.of_same rfl rfl rfl (fun _ => rfl) rfl
  have hlog : s'.netio.kernel.log = s.netio.kernel.log := by rw [hnetio]; rfl
  obtain ⟨hnone, hsame⟩ | ⟨c, c', hget, hon, hprocs⟩ := turn_cases hstep
  · have hnone : b.procs[i]? = none := by
      rw [List.getElem?_eq_none_iff] at hnone ⊢
      exact hu.procs.length_eq ▸ hnone
    have hprocs : s'.procs = s.procs := congrArg Backend.procs hsame
    have hqueues : s'.netio.kernel.queues = s.netio.kernel.queues := congrArg Backend.queues hsame
    refine ⟨b, ⟨trivial, by simp [backendStep, fireAt, hnone]⟩, hw, ?_, ?_, hlog ▸ hu.sent, hlog ▸ hu.received⟩
    · exact hprocs ▸ hu.procs
    · exact hqueues ▸ hu.queues
  · obtain ⟨d, hgetd, hshadow⟩ := forall₂_getElem? hu.procs hget
    have hc : c ∈ s.procs := List.mem_of_getElem? hget
    have hd : d ∈ b.procs := List.mem_of_getElem? hgetd
    obtain ⟨d', queues', hond, hshadow', hbehind⟩ := fire_shadow hshadow hu.queues (hs.valid c hc)
      ((served_reach hb).inv.valid d hd) (hs.text c.svc) hon
    refine ⟨{ b with procs := b.procs.set i d', queues := queues' }, ?_, hw, ?_, hbehind, ?_, ?_⟩
    · refine ⟨trivial, ?_⟩
      dsimp only [backendStep]
      rw [fireAt_get hgetd, hond]
    · have hprocs : s'.procs = s.procs.set i c' := hprocs
      rw [hprocs]
      exact forall₂_set hu.procs hshadow' i
    · exact hlog ▸ hu.sent
    · exact hlog ▸ hu.received

/-- What is behind netio in a run of the whole is what a run of its own leaves
behind, of which netio has taken the oldest answers. -/
theorem system_undrained {s : NetioSystem} (h : netioSystem.Reach NetioSystem.Plain s) :
    ∃ b gone, backend.Reach plainRun b ∧ Undrained s b gone := by
  induction h with
  | init hs => exact ⟨_, [], .init hs.behind, undrained_start hs⟩
  | @step s s' l hreach hok hstep ih =>
    obtain ⟨b, gone, hb, hu⟩ := ih
    cases l with
    | netio l => exact undrained_netio hu hb hok hstep
    | process i sent =>
      obtain ⟨b', hb', hu'⟩ := undrained_process (system_sound hreach) hu hb hok hstep
      exact ⟨b', gone, hb.step (l := .fire i true) rfl hb', hu'⟩

end NetioMiddleware

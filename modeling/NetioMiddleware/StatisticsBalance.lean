import NetioMiddleware.CacheRefinement
import NetioMiddleware.SystemOutcome

namespace NetioMiddleware

/-- How many requests the processes of a library have counted. -/
def executed (svc : SvcClass) (procs : List Container) : Nat :=
  (procs.map (fun c => if c.svc = svc then c.stats.length else 0)).sum

/-- The text of an answer to a request that found no free handler. -/
def refuses (text : Bytes) : Bool := decide (bytes "errCode=" <+: text)

def refusedIn (queues : Int32 → List QMsg) : Nat :=
  (queues NET_IO_BACK_MSQ_KEY).countP (fun x => refuses x.cmd.sData)

theorem refuses_errText (z : Bytes) : refuses (errText NO_FREE_SVC_HANDLER ++ z) = true := by
  have herr : bytes "errCode=" <+: errText NO_FREE_SVC_HANDLER := by decide
  exact decide_eq_true (herr.trans (List.prefix_append _ _))

theorem refuses_resp {t : Bytes} (ht : t = bytes "resp1=r1" ∨ t = bytes "resp1=r1&resp2=r2") (z : Bytes) :
    refuses (t ++ z) = false := by
  have hresp : ∃ u, t = 114 :: u := by
    rcases ht with rfl | rfl
    · exact ⟨bytes "esp1=r1", by decide⟩
    · exact ⟨bytes "esp1=r1&resp2=r2", by decide⟩
  obtain ⟨u, rfl⟩ := hresp
  refine decide_eq_false ?_
  rintro ⟨v, hv⟩
  rw [show bytes "errCode=" = 101 :: bytes "rrCode=" by decide, List.cons_append, List.cons_append] at hv
  exact absurd (List.cons.inj hv).1 (by decide)

theorem refusedIn_offer {queues : Int32 → List QMsg} {key : Int32} {m : QMsg} (hm : 0 < m.mtype) :
    refusedIn (offer queues key m true) =
      refusedIn queues + if key = NET_IO_BACK_MSQ_KEY ∧ refuses m.cmd.sData = true then 1 else 0 := by
  rw [offer, if_pos ⟨rfl, hm⟩, refusedIn]
  by_cases hk : key = NET_IO_BACK_MSQ_KEY
  · subst hk
    rw [Function.update_self, List.countP_append, List.countP_singleton, refusedIn]
    simp
  · rw [Function.update_of_ne (Ne.symm hk), if_neg (fun h => hk h.1), Nat.add_zero, refusedIn]

/-- The requests in the queue of svc_test, the handlers' own among them. -/
def waitingFirst (queues : Int32 → List QMsg) : Nat := (queues SvcClass.CSvcTest.mqKey).length

/-- The requests in the queue of svc_test2, which holds replies besides. -/
def waitingSecond (queues : Int32 → List QMsg) : Nat := (clientsIn queues .CSvcTest2).length

/-- What one OnEventFire counts leaves the queue of its library, or goes into
svc_test's queue as a request of its own. -/
def Tallies (c : Container) (queues queues' : Int32 → List QMsg) : Prop :=
  let n := (((c.takes queues).map (fun x => c.counts x.cmd)).getD []).length
  waitingFirst queues' + (if c.svc = .CSvcTest then n else 0) =
      waitingFirst queues + (if c.svc = .CSvcTest2 then n else 0) ∧
    waitingSecond queues' + refusedIn queues' + (if c.svc = .CSvcTest2 then n else 0) =
      waitingSecond queues + refusedIn queues

section

variable {queues : Int32 → List QMsg} {svc : SvcClass} {x m : QMsg} {rest : List QMsg} {key : Int32}

theorem waitingFirst_moved (htaken : TakenFrom (queues svc.mqKey) x rest) (hm : 0 < m.mtype) :
    waitingFirst (offer (Function.update queues svc.mqKey rest) key m true) +
        (if svc = .CSvcTest then 1 else 0) =
      waitingFirst queues + if key = SvcClass.CSvcTest.mqKey then 1 else 0 := by
  have hlen : (queues svc.mqKey).length = rest.length + 1 := htaken.perm.length_eq
  have htook : waitingFirst (Function.update queues svc.mqKey rest) + (if svc = .CSvcTest then 1 else 0) =
      waitingFirst queues := by
    rw [waitingFirst, waitingFirst]
    by_cases hsvc : svc = .CSvcTest
    · subst hsvc
      rw [Function.update_self, if_pos rfl, hlen]
    · rw [Function.update_of_ne (fun h => hsvc (mqKey_injective h).symm), if_neg hsvc, Nat.add_zero]
  rw [← htook, waitingFirst, offer_length, waitingFirst]
  simp only [hm, true_and, @eq_comm _ key]
  omega

theorem waitingSecond_moved (htaken : TakenFrom (queues svc.mqKey) x rest) (hnot : ¬IsClient m) :
    waitingSecond (offer (Function.update queues svc.mqKey rest) key m true) +
        (if svc = .CSvcTest2 ∧ IsClient x then 1 else 0) = waitingSecond queues := by
  rw [waitingSecond, waitingSecond, clientsIn_offer hnot]
  by_cases hsvc : svc = .CSvcTest2
  · subst hsvc
    rw [clientsIn_taken htaken, List.length_append]
    by_cases hx : IsClient x
    · rw [if_pos ⟨rfl, hx⟩, if_pos hx, List.length_singleton, Nat.add_comm]
    · rw [if_neg (fun h => hx h.2), if_neg hx, List.length_nil, Nat.add_comm]
  · rw [clientsIn_update_of_ne (fun h => hsvc (mqKey_injective h).symm), if_neg (fun h => hsvc h.1),
      Nat.add_zero]

theorem refusedIn_moved (queues : Int32 → List QMsg) (svc : SvcClass) (rest : List QMsg) (hm : 0 < m.mtype) :
    refusedIn (offer (Function.update queues svc.mqKey rest) key m true) =
      refusedIn queues + if key = NET_IO_BACK_MSQ_KEY ∧ refuses m.cmd.sData = true then 1 else 0 := by
  rw [refusedIn_offer hm, refusedIn, Function.update_of_ne (mqKey_ne_back svc).symm, refusedIn]

/-- A message is taken and another one, which is no client's request, is put somewhere. -/
theorem tallies_moved {c : Container} {n : Nat} (htakes : c.takes queues = some x)
    (htaken : TakenFrom (queues c.svc.mqKey) x rest) (hm : 0 < m.mtype) (hnot : ¬IsClient m)
    (hcounts : (c.counts x.cmd).length = n)
    (hfirst : (if key = SvcClass.CSvcTest.mqKey then 1 else 0) + (if c.svc = .CSvcTest then n else 0) =
      (if c.svc = .CSvcTest then 1 else 0) + (if c.svc = .CSvcTest2 then n else 0))
    (hsecond : (if key = NET_IO_BACK_MSQ_KEY ∧ refuses m.cmd.sData = true then 1 else 0) +
      (if c.svc = .CSvcTest2 then n else 0) = if c.svc = .CSvcTest2 ∧ IsClient x then 1 else 0) :
    Tallies c queues (offer (Function.update queues c.svc.mqKey rest) key m true) := by
  have h1 := @waitingFirst_moved queues c.svc x m rest key htaken hm
  have h2 := @waitingSecond_moved queues c.svc x m rest key htaken hnot
  have h3 := @refusedIn_moved m key queues c.svc rest hm
  simp only [Tallies, htakes, Option.map_some, Option.getD_some, hcounts]
  constructor
  · omega
  · omega

end

/-- One OnEventFire in a run in which no client sets ret or serialno. -/
theorem fire_tallies {s : Backend} (hs : Served s) (ht : Told s) {c c' : Container} (hc : c ∈ s.procs)
    (hslots : c.slots ≠ []) {queues' : Int32 → List QMsg} (h : PlainStep s c c' queues') :
    Tallies c s.queues queues' := by
  have hv := hs.inv.valid c hc
  cases h with
  | idle hnone _ hq =>
    rw [hq, Tallies, hnone]
    simp
  | @reply x rest key m htakes htaken htype hto _ _ hq =>
    have hr := reply_repliesTo hs hc htakes hto
    obtain ⟨⟨_, hm⟩, hnot, hplace⟩ := served_reply hs hc htakes htype hr
    rw [hq]
    rcases hto with ⟨hfree, hto⟩ | ⟨hclass, hfree, hto⟩
    · have hclass : c.svc = .CSvcTest2 := by
        cases hcl : c.svc with
        | CSvcTest => exact absurd hfree (first_free hs hc hcl hslots)
        | CSvcTest2 => rfl
      obtain ⟨_, ⟨hclient, hserial, _⟩ | ⟨hclass', _⟩⟩ := served_request hs hc htakes htype
      · obtain ⟨rfl, hmsg⟩ := replyTo_client hto hserial
        have herr : errText NO_FREE_SVC_HANDLER ∈ answerTexts .CSvcTest2 := by decide
        have hdata : m.cmd.sData = errText NO_FREE_SVC_HANDLER ++ pidText c.pid := by
          rw [hmsg]
          exact backCmd_data hv (taken_plain hs.inv hc htakes) herr rfl
        have hrefuses : refuses m.cmd.sData = true := hdata ▸ refuses_errText _
        have hcounts : c.counts x.cmd = [] := if_pos (Or.inr hfree)
        refine tallies_moved htakes htaken hm hnot (congrArg List.length hcounts) ?_ ?_
        · simp [hclass, SvcClass.mqKey, NET_IO_BACK_MSQ_KEY]
        · simp [hclass, hclient, hrefuses]
      · rw [hclass] at hclass'
        contradiction
    · have hcounts : c.counts x.cmd = [statKey c.svc c.pid] := if_neg (by simp [htype, hfree])
      have hkey : key ≠ SvcClass.CSvcTest.mqKey := by
        rcases hplace with ⟨_, hkey, _⟩ | ⟨_, hkey, _⟩ <;> rw [hkey] <;> decide
      have hrefuses : ¬(key = NET_IO_BACK_MSQ_KEY ∧ refuses m.cmd.sData = true) := by
        rintro ⟨hback, hrefuses⟩
        rcases hplace with ⟨hclient, _⟩ | ⟨_, hkey, _⟩
        · obtain ⟨_, hmsg⟩ := replyTo_client hto (hs.zero c.svc x (takes_mem htakes).1 hclient).1
          have hresp : bytes "resp1=r1" ∈ answerTexts .CSvcTest := by decide
          have hdata : m.cmd.sData = bytes "resp1=r1" ++ pidText c.pid := by
            rw [hmsg]
            exact backCmd_data hv (taken_plain hs.inv hc htakes) hresp rfl
          rw [hdata, refuses_resp (Or.inl rfl)] at hrefuses
          contradiction
        · exact absurd (hkey.symm.trans hback) (by decide)
      refine tallies_moved htakes htaken hm hnot (congrArg List.length hcounts) ?_ ?_
      · simp [hclass, hkey]
      · simp [hclass, hrefuses]
  | @hold x rest svc htakes htaken hclient hclass hfree _ _ hq =>
    obtain ⟨_, _, _, _, hreg, _⟩ := freeHandler_eq_some hv hfree
    have htype : x.cmd.iType ≠ RESPONSE := by
      rw [hclient.iType]
      decide
    have hcounts : c.counts x.cmd = [statKey c.svc c.pid] := if_neg (by simp [htype, hfree])
    rw [hq]
    refine tallies_moved htakes htaken (show (0 : Int) < REQUEST.toInt by decide)
      (askMsg_not_client hc hv hclass hreg) (congrArg List.length hcounts) ?_ ?_
    · simp [hclass, SvcClass.mqKey]
    · simp [hclass, hclient, NET_IO_BACK_MSQ_KEY]
  | @resume x rest svc obj3 htakes htaken htype hclass _ hframe _ _ hq =>
    have hip : PlainIp (svcTest2End obj3 x.cmd).sClientIp :=
      show PlainIp obj3.sClientIp from hs.inv.plain c hc _ _ hframe
    have hr := replyTo_repliesTo hip (replyTo_end c.pid obj3 x.cmd)
    have hnot : ¬IsClient (cmdMsg RESPONSE.toInt (backCmd c.pid (svcTest2End obj3 x.cmd))) :=
      fun hclient => absurd (hclient.iType.symm.trans hr.iType) (by decide)
    have hnotx : ¬IsClient x := fun hclient => absurd (hclient.iType.symm.trans htype) (by decide)
    have hx := (takes_mem htakes).1
    rw [hclass] at hx
    have hboth : bytes "resp1=r1&resp2=r2" ∈ answerTexts .CSvcTest2 := by decide
    have hend : (svcTest2End obj3 x.cmd).sData = bytes "resp1=r1&resp2=r2" := by
      have hjoin : bytes "resp1=r1" ++ bytes "&resp2=r2" = bytes "resp1=r1&resp2=r2" := by decide
      rw [svcTest2End, ht.replies x hx htype]
      exact hjoin
    have hrefuses := backCmd_data hv hip hboth hend ▸ refuses_resp (Or.inr rfl) (pidText c.pid)
    have hcounts : c.counts x.cmd = [] := if_pos (Or.inl htype)
    rw [hq]
    refine tallies_moved htakes htaken (show (0 : Int) < RESPONSE.toInt by decide) hnot
      (congrArg List.length hcounts) ?_ ?_
    · simp [hclass, SvcClass.mqKey, NET_IO_BACK_MSQ_KEY]
    · simp [hclass, hnotx, hrefuses]

theorem executed_replace (svc : SvcClass) {front back : List Container} {c c' : Container} {es : List Bytes}
    (hsvc : c'.svc = c.svc) (hstats : c'.stats = c.stats ++ es) :
    executed svc (front ++ c' :: back) =
      executed svc (front ++ c :: back) + if c.svc = svc then es.length else 0 := by
  simp only [executed, List.map_append, List.map_cons, List.sum_append, List.sum_cons, hsvc, hstats,
    List.length_append]
  split <;> omega

/-- What the processes have counted, against what has entered. -/
structure Counted (s : Backend) : Prop where
  own : OwnKeys s.procs
  first : executed .CSvcTest s.procs + waitingFirst s.queues =
    (forService .CSvcTest (s.entered.map (·.sender))).length + executed .CSvcTest2 s.procs
  second : executed .CSvcTest2 s.procs + waitingSecond s.queues + refusedIn s.queues =
    (forService .CSvcTest2 (s.entered.map (·.sender))).length

theorem counted_fire {s s' : Backend} (hs : Served s) (ht : Told s) (hcount : Counted s)
    (hslots : ∀ c ∈ s.procs, c.slots ≠ []) {front back : List Container} {c c' : Container}
    (hprocs : s.procs = front ++ c :: back) (hprocs' : s'.procs = front ++ c' :: back)
    (hentered : s'.entered = s.entered) (h : c.onEventFire s.queues true = .ok (c', s'.queues)) :
    Counted s' := by
  have hc : c ∈ s.procs := hprocs ▸ by simp
  have hv := hs.inv.valid c hc
  have hsvc := (fire_static hv (hs.inv.text c.svc) h).1.1
  have hstats := onEventFire_stats hv (hs.inv.text c.svc) h
  have htally := fire_tallies hs ht hc (hslots c hc) (plain_step hs hc h)
  rw [Tallies] at htally
  generalize (((c.takes s.queues).map (fun x => c.counts x.cmd)).getD []) = es at hstats htally
  have hexec : ∀ svc, executed svc s'.procs = executed svc s.procs + if c.svc = svc then es.length else 0 := by
    intro svc
    rw [hprocs, hprocs']
    exact executed_replace svc hsvc hstats
  have h1 := hexec .CSvcTest
  have h2 := hexec .CSvcTest2
  have hfirst := hcount.first
  have hsecond := hcount.second
  refine ⟨?_, ?_, ?_⟩
  · exact ownKeys_fire hs.inv.valid hs.inv.text hcount.own hprocs hprocs' h
  · rw [hentered]
    omega
  · rw [hentered]
    omega

theorem counted_enter {s : Backend} (hcount : Counted s) {oCmd : CCmd} {addr : InAddr} {key : Int32}
    (hen : (BackendLabel.enter oCmd addr).enabled) (hkey : routeCmd oCmd.iCmd = some key) :
    Counted (s.enter key oCmd) := by
  have hip : PlainIp oCmd.sClientIp := hen.2 ▸ inetNtoa_plain addr
  have hfirst : waitingFirst (s.enter key oCmd).queues =
      waitingFirst s.queues + if SvcClass.CSvcTest.mqKey = key then 1 else 0 := by
    dsimp only [waitingFirst, Backend.enter]
    by_cases hk : SvcClass.CSvcTest.mqKey = key
    · rw [hk, Function.update_self, List.length_append, if_pos rfl]
      rfl
    · rw [Function.update_of_ne hk, if_neg hk, Nat.add_zero]
  have hsecond : waitingSecond (s.enter key oCmd).queues =
      waitingSecond s.queues + if SvcClass.CSvcTest2.mqKey = key then 1 else 0 := by
    rw [waitingSecond, clientsIn_enter hip hen.1, List.length_append, waitingSecond]
    split <;> rfl
  have hrefused : refusedIn (s.enter key oCmd).queues = refusedIn s.queues := by
    dsimp only [refusedIn, Backend.enter]
    rw [Function.update_of_ne (route_ne_back hkey).symm]
  have hlen : ∀ svc, (forService svc ((s.enter key oCmd).entered.map (·.sender))).length =
      (forService svc (s.entered.map (·.sender))).length + if svc.mqKey = key then 1 else 0 := by
    intro svc
    rw [forService_enter hkey, List.length_append]
    split <;> rfl
  have hprocs : (s.enter key oCmd).procs = s.procs := rfl
  have h1 := hcount.first
  have h2 := hcount.second
  refine ⟨hcount.own, ?_, ?_⟩
  · rw [hfirst, hlen, hprocs]
    omega
  · rw [hsecond, hrefused, hlen, hprocs]
    omega

theorem counted_start {s : Backend} (h : BackendStart s) : Counted s := by
  have hnone : ∀ c ∈ s.procs, c.stats = [] := by
    intro c hc
    rw [h.started c hc]
    rfl
  have hexec : ∀ svc, executed svc s.procs = 0 := by
    intro svc
    refine List.sum_eq_zero fun n hn => ?_
    obtain ⟨c, hc, rfl⟩ := List.mem_map.mp hn
    rw [hnone c hc]
    exact ite_self 0
  refine ⟨ownKeys_start h, ?_, ?_⟩
  · rw [hexec, hexec, waitingFirst, h.queues, h.entered]
    rfl
  · rw [hexec, waitingSecond, clientsIn, refusedIn, h.queues, h.queues, h.entered]
    rfl

theorem counted_reach {s : Backend} (h : backend.Reach plainRun s) (hslots : ∀ c ∈ s.procs, c.slots ≠ []) :
    Counted s := by
  induction h with
  | init hs => exact counted_start hs
  | @step s s' l hreach hok hstep ih =>
    have hs := served_reach hreach
    cases backend_step_case hstep with
    | enter htype hip hkey => exact counted_enter (ih hslots) ⟨htype, hip⟩ hkey
    | absent => exact ih hslots
    | @fire i sent _ front c back c' _ hprocs hprocs' hentered hon =>
      obtain rfl : sent = true := hok
      have hslots := fire_slots hs hprocs hprocs' hon hslots
      exact counted_fire hs (told_reach hreach hslots) (ih hslots) hslots hprocs hprocs' hentered hon
    | drain => exact hok.elim

theorem Undrained.executed {s : NetioSystem} {b : Backend} {gone : List QMsg} (h : Undrained s b gone)
    (svc : SvcClass) : executed svc b.procs = executed svc s.procs := by
  have hmap : s.procs.map (fun c => if c.svc = svc then c.stats.length else 0) =
      b.procs.map (fun c => if c.svc = svc then c.stats.length else 0) := by
    rw [← List.forall₂_eq_eq_eq, List.forall₂_map_left_iff, List.forall₂_map_right_iff]
    refine h.procs.imp fun c d hc => ?_
    rw [hc.svc, hc.stats]
  rw [NetioMiddleware.executed, ← hmap, NetioMiddleware.executed]

theorem Undrained.refused {s : NetioSystem} {b : Backend} {gone : List QMsg} (h : Undrained s b gone)
    (hb : backend.Reach plainRun b) (hslots : ∀ c ∈ b.procs, c.slots ≠ []) :
    refusedIn b.queues = (receivedTexts s.netio.kernel.log).countP refuses + refusedIn s.netio.kernel.queues := by
  rw [refusedIn, h.back, List.countP_append, ← h.received, List.countP_map, refusedIn]
  have hsame : ∀ x ∈ gone, refuses x.cmd.sData = (refuses ∘ fun x => responseText x.cmd) x := by
    intro x hx
    have hback : x ∈ b.queues NET_IO_BACK_MSQ_KEY := by
      rw [h.back]
      exact List.mem_append_left _ hx
    obtain ⟨svc, pid, hserves, hanswer⟩ := (told_reach hb hslots).back x hback
    rw [Function.comp_apply, answer_text (served_reach hb) hserves hanswer]
  rw [List.countP_congr fun x hx => by rw [hsame x hx]]

/-- The statistics of the processes balance against the requests netio has sent:
svc_test has counted those of its clients and those of svc_test2's handlers, but
for the ones in its queue, and svc_test2 those of its clients, but for the ones
in its queue and the ones it has refused. -/
theorem statistics_balance {s : NetioSystem} (h : netioSystem.Reach NetioSystem.Plain s)
    (hslots : ∀ c ∈ s.procs, c.slots ≠ []) :
    OwnKeys s.procs ∧
      executed .CSvcTest s.procs + waitingFirst s.netio.kernel.queues =
        (forService .CSvcTest (sentSenders s.netio.kernel.log)).length + executed .CSvcTest2 s.procs ∧
      executed .CSvcTest2 s.procs + waitingSecond s.netio.kernel.queues + refusedIn s.netio.kernel.queues +
          (receivedTexts s.netio.kernel.log).countP refuses =
        (forService .CSvcTest2 (sentSenders s.netio.kernel.log)).length := by
  obtain ⟨b, gone, hb, hu⟩ := system_undrained h
  have hslots' := hu.slots hslots
  have hcount := counted_reach hb hslots'
  have hfirst := hcount.first
  have hsecond := hcount.second
  rw [hu.executed, hu.executed, hu.sent, show waitingFirst b.queues = waitingFirst s.netio.kernel.queues from
    congrArg List.length (hu.queues.service .CSvcTest)] at hfirst
  rw [hu.executed, hu.sent, hu.refused hb hslots', show waitingSecond b.queues =
    waitingSecond s.netio.kernel.queues from congrArg List.length (clientsIn_behind hu.queues _)] at hsecond
  refine ⟨fun c hc key hkey => ?_, hfirst, by omega⟩
  obtain ⟨i, hi⟩ := List.getElem?_of_mem hc
  obtain ⟨d, hget, hshadow⟩ := forall₂_getElem? hu.procs hi
  have hown := hcount.own d (List.mem_of_getElem? hget) key (hshadow.stats ▸ hkey)
  rw [hown, hshadow.svc, hshadow.pid]

theorem statistics_balance_refused : ∃ s : NetioSystem,
    (executed .CSvcTest s.procs = 1 ∧ executed .CSvcTest2 s.procs = 1 ∧
      waitingFirst s.netio.kernel.queues = 1 ∧
      (receivedTexts s.netio.kernel.log).countP refuses = 1) ∧
    OwnKeys s.procs ∧
    executed .CSvcTest s.procs + waitingFirst s.netio.kernel.queues =
      (forService .CSvcTest (sentSenders s.netio.kernel.log)).length + executed .CSvcTest2 s.procs ∧
    executed .CSvcTest2 s.procs + waitingSecond s.netio.kernel.queues + refusedIn s.netio.kernel.queues +
        (receivedTexts s.netio.kernel.log).countP refuses =
      (forService .CSvcTest2 (sentSenders s.netio.kernel.log)).length := by
  obtain ⟨s, hs, hp⟩ := sampleSystem_reach NetioSystem.Plain
    [.netio (.event 3 1 { accepts := [.conn 5 ⟨2, 4000, ⟨10, 0, 0, 1⟩⟩ true true,
        .conn 6 ⟨2, 4001, ⟨10, 0, 0, 1⟩⟩ true true, .conn 7 ⟨2, 4002, ⟨10, 0, 0, 1⟩⟩ true true] }),
      .netio (.event 5 1 { read := some (bytes "cmd=2") }), .netio (.event 6 1 { read := some (bytes "cmd=2") }),
      .netio (.event 7 1 { read := some (bytes "cmd=1") }), .process 1 true, .process 1 true,
      .netio (.response false (some 1)), .process 0 true]
    (fun s => decide (executed .CSvcTest s.procs = 1 ∧ executed .CSvcTest2 s.procs = 1 ∧
        waitingFirst s.netio.kernel.queues = 1 ∧
        (receivedTexts s.netio.kernel.log).countP refuses = 1) &&
      s.procs.all (fun c => decide (c.slots ≠ []))) (by decide +kernel)
  obtain ⟨hfacts, hslots⟩ := Bool.and_eq_true_iff.mp hp
  refine ⟨s, of_decide_eq_true hfacts, statistics_balance hs fun c hc => ?_⟩
  exact of_decide_eq_true (List.all_eq_true.mp hslots c hc)

end NetioMiddleware

import NetioMiddleware.ArrivalOrder

namespace NetioMiddleware

theorem pid_length {c : Container} (hv : c.Valid) : (printNat c.pid).length ≤ 10 := by
  have hfits := hv.numbered.fits
  exact printNat_length (k := 9) (by omega)

/-- The text a message tells its reader, of the data put into it. -/
def dataText (data : Bytes) : Bytes :=
  joinPairs (dataMap (SortedMap.empty.insertAll (pairsOf data))).entries

/-- What a message tells of data that surely fits. -/
theorem cmdMsg_data (t : Int) {c : CCmd} (hip : PlainIp c.sClientIp) (hnul : 0 ∉ c.sData)
    (hfits : c.sData.length ≤ 800) : (cmdMsg t c).cmd.sData = dataText c.sData := by
  have hhead := formatHeader_length c hip.short
  have hwhole : c.toString.length < MAX_MSG_SIZE - 8 := by
    simp only [CCmd.toString, List.length_append, MAX_MSG_SIZE]
    omega
  rw [← QMsg.cmd_eq]
  dsimp only [cmdMsg]
  rw [encode_whole hip hnul hwhole, initCCmd_format {} c hip.clean hip.no_nul hnul]
  rfl

theorem errKeys_nodup (v v' : Bytes) :
    ((([(bytes "errCode", v)] ++ [(bytes "resp", v')]) : List (Bytes × Bytes)).map Prod.fst).Nodup :=
  show [bytes "errCode", bytes "resp"].Nodup by decide

theorem errText_params (iRet : Int32) :
    ReplyParams ([(bytes "errCode", dec iRet)] ++ [(bytes "resp", bytes "Err happend!")]) := by
  have hcode : CleanText (bytes "errCode") ∧ 0 ∉ bytes "errCode" :=
    ⟨⟨by decide, by decide, by decide⟩, by decide⟩
  refine ⟨?_, ?_, errKeys_nodup _ _⟩
  · intro e he
    rcases List.mem_pair.mp he with rfl | rfl
    · exact ⟨hcode.1, dec_clean iRet⟩
    · exact ⟨⟨by decide, by decide, by decide⟩, ⟨by decide, by decide, by decide⟩⟩
  · intro e he
    rcases List.mem_pair.mp he with rfl | rfl
    · exact ⟨hcode.2, dec_no_nul iRet⟩
    · exact ⟨by decide, by decide⟩

theorem respText_params : ReplyParams ([] ++ [(bytes "resp1", bytes "r1")]) := by
  refine ⟨?_, ?_, by decide⟩
  · intro e he
    obtain rfl := List.mem_singleton.mp he
    exact ⟨⟨by decide, by decide, by decide⟩, ⟨by decide, by decide, by decide⟩⟩
  · intro e he
    obtain rfl := List.mem_singleton.mp he
    exact ⟨by decide, by decide⟩

/-- What stands behind a reply: to netio the process number, to a process nothing. -/
def Suffix (pid : Nat) (z : Bytes) : Prop := z = [] ∨ z = pidText pid

/-- Parameters that a text keeps as they are: in the order of their names, none
of them reserved. -/
structure OwnParams (l : List (Bytes × Bytes)) : Prop where
  params : ReplyParams l
  sorted : l.Pairwise (fun x y => x.1 < y.1)
  own : ∀ e ∈ l, e.1 ∉ reservedKeys

theorem dataMap_entries {l : List (Bytes × Bytes)} (hs : l.Pairwise (fun x y => x.1 < y.1))
    (hown : ∀ e ∈ l, e.1 ∉ reservedKeys) : (dataMap (SortedMap.empty.insertAll l)).entries = l := by
  have hl := SortedMap.empty_insertAll_entries (⟨l, hs⟩ : StrMap)
  dsimp only at hl
  have hsame : dataMap (⟨l, hs⟩ : StrMap) = ⟨l, hs⟩ := by
    refine SortedMap.ext_find? fun k => ?_
    rw [dataMap, SortedMap.find?_eraseAll]
    split
    next hk => exact (SortedMap.find?_eq_none_iff.mpr fun e he heq => hown e he (heq ▸ hk)).symm
    next => rfl
  rw [hl, hsame]

/-- The text of such parameters comes through with what stands behind it. -/
theorem dataText_own {l : List (Bytes × Bytes)} {k v z : Bytes} {pid : Nat}
    (h : OwnParams (l ++ [(k, v)])) (hv : v ≠ []) (hz : Suffix pid z) :
    dataText (joinPairs (l ++ [(k, v)]) ++ z) = joinPairs (l ++ [(k, v)]) ++ z := by
  rcases hz with rfl | rfl
  · rw [List.append_nil, dataText, pairsOf_joinPairs h.params.clean, dataMap_entries h.sorted h.own]
  · have hclean := (h.params.clean (k, v) (by simp)).2
    have hsorted : (l ++ [(k, v ++ pidText pid)]).Pairwise (fun x y => x.1 < y.1) := by
      have hs := h.sorted
      rw [List.pairwise_append] at hs ⊢
      exact ⟨hs.1, List.pairwise_singleton _ _, fun a ha b hb => by
        rw [List.mem_singleton.mp hb]
        exact hs.2.2 a ha (k, v) (by simp)⟩
    have hown : ∀ e ∈ l ++ [(k, v ++ pidText pid)], e.1 ∉ reservedKeys := by
      intro e he
      rcases List.mem_append.mp he with he | he
      · exact h.own e (List.mem_append_left _ he)
      · rw [List.mem_singleton.mp he]
        exact h.own (k, v) (by simp)
    rw [dataText, pairsOf_backData h.params, (trim_pidText hclean.trimmed pid).mpr hv,
      dataMap_entries hsorted hown, joinPairs_append]

theorem respText_own : OwnParams ([] ++ [(bytes "resp1", bytes "r1")]) :=
  ⟨respText_params, by simp, by decide⟩

theorem bothText_own :
    OwnParams ([(bytes "resp1", bytes "r1")] ++ [(bytes "resp2", bytes "r2")]) := by
  refine ⟨⟨?_, ?_, by decide⟩, by decide, by decide⟩
  · intro e he
    rcases List.mem_pair.mp he with rfl | rfl
    · exact ⟨⟨by decide, by decide, by decide⟩, ⟨by decide, by decide, by decide⟩⟩
    · exact ⟨⟨by decide, by decide, by decide⟩, ⟨by decide, by decide, by decide⟩⟩
  · intro e he
    rcases List.mem_pair.mp he with rfl | rfl
    · exact ⟨by decide, by decide⟩
    · exact ⟨by decide, by decide⟩

theorem errText_own : OwnParams
    ([(bytes "errCode", dec NO_FREE_SVC_HANDLER)] ++ [(bytes "resp", bytes "Err happend!")]) :=
  ⟨errText_params NO_FREE_SVC_HANDLER, by decide, by decide⟩

/-- What the processes of a service answer. -/
def answerTexts : SvcClass → List Bytes
  | .CSvcTest => [bytes "resp1=r1"]
  | .CSvcTest2 => [bytes "resp1=r1&resp2=r2", bytes "errCode=21&resp=Err happend!"]

theorem answerTexts_kept {svc : SvcClass} {t z : Bytes} {pid : Nat} (ht : t ∈ answerTexts svc)
    (hz : Suffix pid z) : dataText (t ++ z) = t ++ z ∧ 0 ∉ t ∧ t.length ≤ 64 := by
  have h1 : bytes "resp1=r1" = joinPairs ([] ++ [(bytes "resp1", bytes "r1")]) := by decide
  have h2 : bytes "resp1=r1&resp2=r2" =
      joinPairs ([(bytes "resp1", bytes "r1")] ++ [(bytes "resp2", bytes "r2")]) := by decide
  have h3 : bytes "errCode=21&resp=Err happend!" = joinPairs
      ([(bytes "errCode", dec NO_FREE_SVC_HANDLER)] ++ [(bytes "resp", bytes "Err happend!")]) := by decide
  have forms : t = bytes "resp1=r1" ∨ t = bytes "resp1=r1&resp2=r2" ∨
      t = bytes "errCode=21&resp=Err happend!" := by
    cases svc <;> simp only [answerTexts, List.mem_cons, List.not_mem_nil, or_false] at ht <;> tauto
  rcases forms with rfl | rfl | rfl
  · refine ⟨?_, by decide, by decide⟩
    rw [h1]
    exact dataText_own respText_own (by decide) hz
  · refine ⟨?_, by decide, by decide⟩
    rw [h2]
    exact dataText_own bothText_own (by decide) hz
  · refine ⟨?_, by decide, by decide⟩
    rw [h3]
    exact dataText_own errText_own (by decide) hz

/-- A message for netio with an answer of a process of a service. -/
structure Answer (svc : SvcClass) (pid : Nat) (x : QMsg) : Prop where
  mtype : x.mtype = RESPONSE.toInt
  text : x.mtext ≠ []
  route : routeCmd x.cmd.iCmd = some svc.mqKey
  data : ∃ t ∈ answerTexts svc, x.cmd.sData = t ++ pidText pid

/-- What the processes with handlers answer in the runs in which no client sets
ret or serialno. -/
structure Told (s : Backend) : Prop where
  replies : ∀ x ∈ s.queues 0xcccce, x.cmd.iType = RESPONSE → x.cmd.sData = bytes "resp1=r1"
  back : ∀ x ∈ s.queues NET_IO_BACK_MSQ_KEY, ∃ svc pid, s.Serves svc (pid : Nat) ∧ Answer svc pid x

theorem backCmd_data {c : Container} (hv : c.Valid) {svc : SvcClass} {oCmd : CCmd} {t : Bytes}
    (hip : PlainIp oCmd.sClientIp) (ht : t ∈ answerTexts svc) (hdata : oCmd.sData = t) :
    (cmdMsg RESPONSE.toInt (backCmd c.pid oCmd)).cmd.sData = t ++ pidText c.pid := by
  obtain ⟨hkept, hnul, hlen⟩ := answerTexts_kept ht (Or.inr rfl : Suffix c.pid (pidText c.pid))
  have hback : (backCmd c.pid oCmd).sData = t ++ pidText c.pid := by
    simp only [backCmd, pidText, hdata, List.append_assoc]
  have hip : PlainIp (backCmd c.pid oCmd).sClientIp := hip
  have hpid := pid_length hv
  have hblank : (bytes " by pid:").length = 8 := by decide
  have hfree : 0 ∉ (backCmd c.pid oCmd).sData := by
    rw [hback, List.mem_append, not_or]
    exact ⟨hnul, pidText_free _ (by decide) (by decide)⟩
  have hfits : (backCmd c.pid oCmd).sData.length ≤ 800 := by
    rw [hback]
    simp only [pidText, List.length_append, hblank]
    omega
  rw [cmdMsg_data RESPONSE.toInt hip hfree hfits, hback]
  exact hkept

theorem backCmd_answer {c : Container} (hv : c.Valid) {oCmd : CCmd} {t : Bytes}
    (hip : PlainIp oCmd.sClientIp) (hroute : routeCmd oCmd.iCmd = some c.svc.mqKey)
    (ht : t ∈ answerTexts c.svc) (hdata : oCmd.sData = t) :
    Answer c.svc c.pid (cmdMsg RESPONSE.toInt (backCmd c.pid oCmd)) := by
  have hip' : PlainIp (backCmd c.pid oCmd).sClientIp := hip
  have hcmd := congrArg Header.iCmd (cmdMsg_header RESPONSE.toInt hip')
  refine ⟨rfl, encode_ne_nil _, ?_, t, ht, backCmd_data hv hip ht hdata⟩
  rw [show (cmdMsg RESPONSE.toInt (backCmd c.pid oCmd)).cmd.iCmd = oCmd.iCmd from hcmd]
  exact hroute

theorem replyTo_client {pid : Nat} {oCmd : CCmd} {key : Int32} {m : QMsg}
    (h : replyTo pid oCmd = some (key, m)) (hserial : oCmd.iSvcSerialNo = 0) :
    key = NET_IO_BACK_MSQ_KEY ∧ m = cmdMsg RESPONSE.toInt (backCmd pid oCmd) := by
  rw [replyTo, if_neg (not_not.mpr hserial)] at h
  obtain ⟨rfl, rfl⟩ := Prod.mk.inj (Option.some.inj h)
  exact ⟨rfl, rfl⟩

def Container.freeCount (c : Container) : Nat := c.dispatcher.m_mapStatelessSvcQueue.entries.length

theorem freeHandler_eq_none_iff {c : Container} : c.freeHandler = none ↔ c.freeCount = 0 := by
  simp [Container.freeHandler, Container.freeCount]

/-- A process of svc_test that has handlers has a free one. -/
theorem first_free {s : Backend} (hs : Served s) {c : Container} (hc : c ∈ s.procs)
    (hclass : c.svc = .CSvcTest) (hslots : c.slots ≠ []) : c.freeHandler ≠ none := by
  have hv := hs.inv.valid c hc
  obtain ⟨i, hi⟩ := List.exists_mem_of_ne_nil _ hslots
  have hreg : (⟨c.svc, c.svc.inputIndex, Int32.ofNat (c.pid * 100 + i)⟩ : IService) ∈ c.registered :=
    List.mem_map_of_mem hi
  intro hnone
  rcases hv.partitioned.one _ hreg with ⟨hfree, _⟩ | ⟨_, hbusy⟩
  · have hmem := SortedMap.find?_eq_some_iff.mp hfree
    rw [freeHandler_eq_none_iff, Container.freeCount, List.length_eq_zero_iff] at hnone
    rw [hnone] at hmem
    contradiction
  · rw [hs.idle c hc hclass] at hbusy
    contradiction

/-- What a message that a process puts into a queue tells. -/
def Tells (c : Container) (key : Int32) (m : QMsg) : Prop :=
  (key = NET_IO_BACK_MSQ_KEY → Answer c.svc c.pid m) ∧
    (key = 0xcccce → m.cmd.iType = RESPONSE → m.cmd.sData = bytes "resp1=r1")

theorem client_tells {c : Container} (hv : c.Valid) {oCmd : CCmd} {key : Int32} {m : QMsg}
    (hto : replyTo c.pid oCmd = some (key, m)) (hserial : oCmd.iSvcSerialNo = 0)
    (hip : PlainIp oCmd.sClientIp) (hroute : routeCmd oCmd.iCmd = some c.svc.mqKey)
    (hdata : oCmd.sData ∈ answerTexts c.svc) : Tells c key m := by
  obtain ⟨rfl, rfl⟩ := replyTo_client hto hserial
  exact ⟨fun _ => backCmd_answer hv hip hroute hdata rfl, fun h => absurd h (by decide)⟩

theorem reply_tells {s : Backend} (hs : Served s) {c : Container} (hc : c ∈ s.procs)
    (hslots : c.slots ≠ []) {x m : QMsg} {key : Int32} (htakes : c.takes s.queues = some x)
    (htype : x.cmd.iType ≠ RESPONSE)
    (h : c.freeHandler = none ∧ replyTo c.pid { x.cmd with
          iRet := NO_FREE_SVC_HANDLER, sData := errText NO_FREE_SVC_HANDLER } = some (key, m) ∨
        c.svc = .CSvcTest ∧ c.freeHandler ≠ none ∧
          replyTo c.pid { x.cmd with sData := bytes "resp1=r1", iType := RESPONSE } = some (key, m)) :
    Tells c key m := by
  have hv := hs.inv.valid c hc
  have hip := taken_plain hs.inv hc htakes
  rcases h with ⟨hfree, hto⟩ | ⟨hclass, _, hto⟩
  · have hclass : c.svc = .CSvcTest2 := by
      cases hcl : c.svc with
      | CSvcTest => exact absurd hfree (first_free hs hc hcl hslots)
      | CSvcTest2 => rfl
    obtain ⟨_, ⟨hclient, hserial, _⟩ | ⟨hclass', _⟩⟩ := served_request hs hc htakes htype
    · have herr : errText NO_FREE_SVC_HANDLER ∈ answerTexts c.svc := by
        rw [hclass]
        decide
      exact client_tells hv hto hserial hip (routed_of_client hs hc htakes hclient) herr
    · rw [hclass] at hclass'
      contradiction
  · obtain ⟨_, ⟨hclient, hserial, _⟩ | ⟨_, hask, _, hne, _⟩⟩ := served_request hs hc htakes htype
    · have hresp : bytes "resp1=r1" ∈ answerTexts c.svc := by
        rw [hclass]
        decide
      exact client_tells hv hto hserial hip (routed_of_client hs hc htakes hclient) hresp
    · refine ⟨fun hkey => ?_, fun hkey _ => ?_⟩
      · have hr := reply_repliesTo hs hc htakes (Or.inr ⟨hclass, first_free hs hc hclass hslots, hto⟩)
        have hroute : routeCmd x.cmd.iCmd = some key := (hr.app hne).1
        rw [hask.iCmd, hkey] at hroute
        exact absurd hroute (by decide)
      · obtain rfl : key = SvcClass.CSvcTest2.mqKey := hkey
        have hm := replyTo_app hto
        have hresp : bytes "resp1=r1" ∈ answerTexts .CSvcTest := by decide
        obtain ⟨hkept, hnul, hlen⟩ := answerTexts_kept hresp (Or.inl rfl : Suffix c.pid [])
        rw [List.append_nil] at hkept
        rw [hm, cmdMsg_data]
        · exact hkept
        · exact hip
        · exact hnul
        · exact Nat.le_trans hlen (by decide)

/-- What is put into the queues tells nothing else. -/
theorem told_offer {s s' : Backend} (ht : Told s) {c : Container} (hserves : s'.Serves c.svc (c.pid : Nat))
    (hkept : ∀ svc pid, s.Serves svc pid → s'.Serves svc pid) {rest : List QMsg} {key : Int32} {m : QMsg}
    (hless : ∀ y ∈ rest, y ∈ s.queues c.svc.mqKey) (hm : Tells c key m)
    (hq : s'.queues = offer (Function.update s.queues c.svc.mqKey rest) key m true) : Told s' := by
  have old : ∀ k, ∀ y ∈ Function.update s.queues c.svc.mqKey rest k, y ∈ s.queues k := by
    intro k y hy
    by_cases hk : k = c.svc.mqKey
    · subst hk
      rw [Function.update_self] at hy
      exact hless y hy
    · rwa [Function.update_of_ne hk] at hy
  refine ⟨fun y hy htype => ?_, fun y hy => ?_⟩
  · rw [hq] at hy
    rcases mem_offer hy with hy | ⟨hkey, rfl, _⟩
    · exact ht.replies y (old _ y hy) htype
    · exact hm.2 hkey.symm htype
  · rw [hq] at hy
    rcases mem_offer hy with hy | ⟨hkey, rfl, _⟩
    · obtain ⟨svc, pid, hs, ha⟩ := ht.back y (old _ y hy)
      exact ⟨svc, pid, hkept _ _ hs, ha⟩
    · exact ⟨c.svc, c.pid, hserves, hm.1 hkey.symm⟩

theorem told_fire {s s' : Backend} (hs : Served s) (hheld : HeldRouted s)
    (hslots : ∀ c ∈ s.procs, c.slots ≠ []) (ht : Told s) {front back : List Container} {c c' : Container}
    (hprocs : s.procs = front ++ c :: back) (hprocs' : s'.procs = front ++ c' :: back)
    (h : c.onEventFire s.queues true = .ok (c', s'.queues)) : Told s' := by
  have hc : c ∈ s.procs := hprocs ▸ by simp
  have hv := hs.inv.valid c hc
  obtain ⟨hsvc, hpid, _⟩ := (fire_static hv (hs.inv.text c.svc) h).1
  have hkept := fun svc pid => (serves_replace hprocs hprocs' hsvc hpid svc pid).mpr
  have hserves : s'.Serves c.svc (c.pid : Nat) := hkept _ _ ⟨c, hc, rfl, rfl⟩
  have less : ∀ {x rest}, TakenFrom (s.queues c.svc.mqKey) x rest → ∀ y ∈ rest, y ∈ s.queues c.svc.mqKey :=
    fun htaken y hy => htaken.perm.mem_iff.mpr (List.mem_cons_of_mem _ hy)
  cases plain_step hs hc h with
  | idle _ _ hq =>
    refine ⟨fun y hy => ht.replies y (hq ▸ hy), fun y hy => ?_⟩
    obtain ⟨svc, pid, hs, ha⟩ := ht.back y (hq ▸ hy)
    exact ⟨svc, pid, hkept _ _ hs, ha⟩
  | reply htakes htaken htype hto _ _ hq =>
    exact told_offer ht hserves hkept (less htaken) (reply_tells hs hc (hslots c hc) htakes htype hto) hq
  | @hold x rest svc htakes htaken hclient hclass hfree _ _ hq =>
    refine told_offer ht hserves hkept (less htaken) ⟨fun hkey => absurd hkey (by decide), fun hkey => ?_⟩ hq
    exact absurd hkey (by decide)
  | @resume x rest svc obj3 htakes htaken htype hclass hfind hframe _ _ hq =>
    refine told_offer ht hserves hkept (less htaken) ⟨fun _ => ?_, fun hkey => absurd hkey (by decide)⟩ hq
    have hx := (takes_mem htakes).1
    rw [hclass] at hx
    have hdata : (svcTest2End obj3 x.cmd).sData = bytes "resp1=r1" ++ bytes "&resp2=r2" := by
      rw [← ht.replies x hx htype]
      rfl
    have hboth : bytes "resp1=r1" ++ bytes "&resp2=r2" ∈ answerTexts c.svc := by
      rw [hclass]
      decide
    refine backCmd_answer hv ?_ ?_ hboth hdata
    · exact (show PlainIp obj3.sClientIp from hs.inv.plain c hc _ _ hframe)
    · rw [hclass]
      exact (show routeCmd obj3.iCmd = _ from hheld c hc _ _ hframe)

theorem told_enter {s : Backend} (ht : Told s) {oCmd : CCmd} {addr : InAddr} {key : Int32}
    (hen : (BackendLabel.enter oCmd addr).enabled) (hkey : routeCmd oCmd.iCmd = some key) :
    Told (s.enter key oCmd) := by
  have hip : PlainIp oCmd.sClientIp := hen.2 ▸ inetNtoa_plain addr
  have htype := congrArg Header.iType (cmdMsg_header REQUEST.toInt hip)
  refine ⟨fun y hy hresp => ?_, fun y hy => ?_⟩
  · rcases mem_enter hy with hy | ⟨_, rfl⟩
    · exact ht.replies y hy hresp
    · exact absurd ((htype.trans hen.1).symm.trans hresp) (by decide)
  · rcases mem_enter hy with hy | ⟨hback, _⟩
    · exact ht.back y hy
    · exact absurd hback.symm (route_ne_back hkey)

theorem fire_slots {s s' : Backend} (hs : Served s) {front back : List Container} {c c' : Container}
    (hprocs : s.procs = front ++ c :: back) (hprocs' : s'.procs = front ++ c' :: back) {sent : Bool}
    (h : c.onEventFire s.queues sent = .ok (c', s'.queues)) (hslots : ∀ c ∈ s'.procs, c.slots ≠ []) :
    ∀ c ∈ s.procs, c.slots ≠ [] := by
  have hc : c ∈ s.procs := hprocs ▸ by simp
  have hsame := (fire_static (hs.inv.valid c hc) (hs.inv.text c.svc) h).1.2.2
  rw [hprocs'] at hslots
  rw [hprocs]
  exact forall_replace hslots (hsame ▸ hslots c' (by simp))

theorem told_reach {s : Backend} (h : backend.Reach plainRun s) (hslots : ∀ c ∈ s.procs, c.slots ≠ []) :
    Told s := by
  induction h with
  | init hs =>
    refine ⟨fun x hx => ?_, fun x hx => ?_⟩
    · rw [hs.queues] at hx
      contradiction
    · rw [hs.queues] at hx
      contradiction
  | @step s s' l hreach hok hstep ih =>
    have hs := order_reach hreach
    cases backend_step_case hstep with
    | enter htype hip hkey => exact told_enter (ih hslots) ⟨htype, hip⟩ hkey
    | absent => exact ih hslots
    | @fire i sent _ front c back c' _ hprocs hprocs' _ hon =>
      obtain rfl : sent = true := hok
      have hslots := fire_slots hs.served hprocs hprocs' hon hslots
      exact told_fire hs.served hs.held hslots (ih hslots) hprocs hprocs' hon
    | drain => exact hok.elim

end NetioMiddleware

import NetioMiddleware.ContainerSteps

namespace NetioMiddleware

/-- Services that leave any command and world behind when they switch back,
with a record of the handlers switched to. -/
def tracked {σ : Type} (run : IService → CCmd → σ → CCmd × σ) (reset : IService → σ → σ) :
    Coroutines (σ × List IService) where
  switchTo svc cur w := .ok ((run svc cur w.1).1, (run svc cur w.1).2, w.2 ++ [svc])
  resetUCTX svc w := (reset svc w.1, w.2)

section

variable {σ : Type} (run : IService → CCmd → σ → CCmd × σ) (reset : IService → σ → σ)

/-- The loop switches to nobody exactly if no entry has the current serial number. -/
theorem resumeLoop_tracked (l : List (Int32 × IService)) (found : Option IService) (cur : CCmd) (w : σ)
    (switched : List IService) :
    ∃ found' cur' w' more, resumeLoop (tracked run reset) l found cur (w, switched) =
        .ok (found', cur', w', switched ++ more) ∧
      (more = [] → found' = found) ∧ (found ≠ none → found' ≠ none) ∧
      (more = [] ↔ ∀ e ∈ l, e.1 ≠ cur.iSvcSerialNo) := by
  induction l generalizing found cur w switched with
  | nil => exact ⟨found, cur, w, [], by simp [resumeLoop], fun _ => rfl, id, by simp⟩
  | cons e l ih =>
    unfold resumeLoop
    split
    next heq =>
      obtain ⟨found', cur', w', more, hloop, _, hfound, _⟩ := ih (some e.2) (run e.2 cur w).1
        (run e.2 cur w).2 (switched ++ [e.2])
      refine ⟨found', cur', w', e.2 :: more, ?_, by simp, fun _ => hfound (by simp), ?_⟩
      · simpa [tracked] using hloop
      · simp [heq]
    next hne =>
      obtain ⟨found', cur', w', more, hloop, hsame, hfound, hmore⟩ := ih found cur w switched
      refine ⟨found', cur', w', more, hloop, hsame, hfound, ?_⟩
      rw [hmore, List.forall_mem_cons]
      exact ⟨fun h => ⟨Ne.symm hne, h⟩, And.right⟩

end

/-- A handler stands in the same maps as before. -/
def SamePlace (d d' : Dispatcher) (h : IService) : Prop :=
  d'.m_mapStatefulSvcQueue.find? h.m_iIndex = d.m_mapStatefulSvcQueue.find? h.m_iIndex ∧
    d'.m_mapStatelessSvcQueue.find? h.m_iIndex = d.m_mapStatelessSvcQueue.find? h.m_iIndex

/-- The end of Dispatch moves no handler but the one it is called for. -/
theorem finishDispatch_place {σ : Type} (co : Coroutines σ) {d : Dispatcher} {svc h : IService} (w : σ)
    (hne : h.m_iIndex ≠ svc.m_iIndex) : SamePlace d (finishDispatch co d svc w).2.2.1 h := by
  unfold finishDispatch
  split
  next =>
    refine ⟨?_, ?_⟩
    · rw [SortedMap.find?_erase, if_neg hne]
    · rw [SortedMap.find?_assign, if_neg hne]
  next => exact ⟨rfl, rfl⟩

theorem finishDispatch_log {σ : Type} (run : IService → CCmd → σ → CCmd × σ) (reset : IService → σ → σ)
    (d : Dispatcher) (svc : IService) (w : σ) (switched : List IService) :
    (finishDispatch (tracked run reset) d svc (w, switched)).2.2.2.2 = switched := by
  unfold finishDispatch
  split <;> rfl

/-- The entries behind the one with serial number k, as the handlers that wait
under a later one. -/
theorem later_entries_iff {hs : List IService} {d : Dispatcher} (hp : Partitioned hs d) {k : Int32}
    {rest : List (Int32 × IService)}
    (hrest : ∀ e, e ∈ rest ↔ e ∈ d.m_mapStatefulSvcQueue.entries ∧ k < e.1) (next : Int32) :
    (∀ e ∈ rest, e.1 ≠ next) ↔
      ∀ h' ∈ hs, d.m_mapStatefulSvcQueue.find? h'.m_iIndex = some h' → k < h'.m_iIndex →
        next ≠ h'.m_iIndex := by
  constructor
  · intro hno h' _ hheld' hlt heq
    have hm : (h'.m_iIndex, h') ∈ rest := (hrest _).mpr ⟨SortedMap.find?_eq_some_iff.mp hheld', hlt⟩
    exact hno _ hm heq.symm
  · intro hno e he heq
    obtain ⟨hm, hlt⟩ := (hrest e).mp he
    have hfind := SortedMap.find?_eq_some_iff.mpr hm
    obtain ⟨hreg, hkey⟩ := hp.busy e.1 e.2 hfind
    rw [hkey] at hlt heq hfind
    exact hno e.2 hreg hfind hlt heq.symm

/-- Dispatch of a response switches to its handler, and to it alone exactly if
the serial number the handler leaves behind is not that of a later one. -/
theorem response_resumes_one {σ : Type} {run : IService → CCmd → σ → CCmd × σ} {reset : IService → σ → σ}
    {hs : List IService} {d : Dispatcher} {oCmd : CCmd} {w : σ} {h : IService} (hp : Partitioned hs d)
    (htype : oCmd.iType = RESPONSE) (hserial : oCmd.iSvcSerialNo = h.m_iIndex)
    (hheld : d.m_mapStatefulSvcQueue.find? h.m_iIndex = some h) :
    ∃ iRet oCmd' d' w' switched, dispatch (tracked run reset) d (w, []) oCmd =
        .ok (iRet, oCmd', d', w', switched) ∧ h ∈ switched ∧
      ((switched = [h] ∧ ∀ h' ∈ hs, h' ≠ h → SamePlace d d' h') ↔
        ∀ h' ∈ hs, d.m_mapStatefulSvcQueue.find? h'.m_iIndex = some h' → h.m_iIndex < h'.m_iIndex →
          (run h oCmd w).1.iSvcSerialNo ≠ h'.m_iIndex) := by
  have hmem : (oCmd.iSvcSerialNo, h) ∈ d.m_mapStatefulSvcQueue.entries := by
    rw [hserial]
    exact SortedMap.find?_eq_some_iff.mp hheld
  obtain ⟨rest, hrest, hloop⟩ := resumeLoop_hit (tracked run reset) (w, []) d.m_mapStatefulSvcQueue.sorted
    hmem
  obtain ⟨found, cur, w', more, hafter, hsame, hfound, hmore⟩ := resumeLoop_tracked run reset rest
    (some h) (run h oCmd w).1 (run h oCmd w).2 [h]
  obtain ⟨svc, rfl⟩ := Option.ne_none_iff_exists'.mp (hfound (Option.some_ne_none h))
  have hgo : dispatch (tracked run reset) d (w, []) oCmd =
      .ok (finishDispatch (tracked run reset) { d with m_oCurCmdObj := cur } svc (w', [h] ++ more)) := by
    unfold dispatch
    rw [if_pos htype, hloop none]
    dsimp only [tracked] at hafter ⊢
    rw [List.nil_append, hafter]
  have hlog := finishDispatch_log run reset { d with m_oCurCmdObj := cur } svc w'
    ([h] ++ more)
  have hplace : ∀ h', h'.m_iIndex ≠ svc.m_iIndex → SamePlace d
      (finishDispatch (tracked run reset) { d with m_oCurCmdObj := cur } svc (w', [h] ++ more)).2.2.1 h' :=
    fun h' hne => finishDispatch_place (tracked run reset) (d := { d with m_oCurCmdObj := cur }) _ hne
  generalize finishDispatch (tracked run reset) { d with m_oCurCmdObj := cur } svc (w', [h] ++ more) = r
    at hgo hlog hplace
  obtain ⟨iRet, oCmd', d', w'', switched⟩ := r
  obtain rfl : switched = [h] ++ more := hlog
  refine ⟨iRet, oCmd', d', w'', [h] ++ more, hgo, by simp, ?_⟩
  rw [← later_entries_iff hp (fun e => hserial ▸ hrest e), ← hmore]
  constructor
  · rintro ⟨hone, _⟩
    exact List.append_cancel_left (hone.trans (List.append_nil [h]).symm)
  · intro hnil
    obtain rfl : svc = h := Option.some.inj (hsame hnil)
    refine ⟨by rw [hnil, List.append_nil], ?_⟩
    intro h' hreg hne
    exact hplace h' (fun he => hne (hp.same_index hreg (hp.busy _ _ hheld).1 he))

/-- Two handlers of svc_test2 in one process. -/
def pairHandlers : List IService := [⟨.CSvcTest2, 2, 700⟩, ⟨.CSvcTest2, 2, 701⟩]

/-- A service that suspends on a request and answers handler 701 on a response. -/
def answersPartner (_ : IService) (cur : CCmd) (w : Unit) : CCmd × Unit :=
  if cur.iType = RESPONSE then ({ cur with iRet := 0, iSvcSerialNo := 701 }, w)
  else ({ cur with iRet := UNFINISH_TASK_RET_FLAG }, w)

def pairRuns : Machine (Dispatcher × Unit × List IService) CCmd :=
  dispatcherRuns (tracked answersPartner (fun _ w => w)) pairHandlers

/-- Both handlers of the pair get suspended. -/
theorem pair_suspended : ∃ s, pairRuns.Reachable s ∧ Partitioned pairHandlers s.1 ∧
    s.1.m_mapStatefulSvcQueue.entries =
      [(700, ⟨.CSvcTest2, 2, 700⟩), (701, ⟨.CSvcTest2, 2, 701⟩)] := by
  obtain ⟨iRet, oCmd, s, hd, iRet', oCmd', s', hd', hentries⟩ : ∃ iRet oCmd s,
      dispatch (tracked answersPartner (fun _ w => w)) (pairHandlers.foldl addSvcHandler {}) ((), []) {} =
        .ok (iRet, oCmd, s) ∧ ∃ iRet' oCmd' s',
      dispatch (tracked answersPartner (fun _ w => w)) s.1 s.2 {} = .ok (iRet', oCmd', s') ∧
        s'.1.m_mapStatefulSvcQueue.entries =
          [(700, ⟨.CSvcTest2, 2, 700⟩), (701, ⟨.CSvcTest2, 2, 701⟩)] :=
    ⟨_, _, _, rfl, _, _, _, rfl, rfl⟩
  have hstart : Partitioned pairHandlers (pairHandlers.foldl addSvcHandler {}) :=
    (addSvcHandlers_partitioned pairHandlers empty_partitioned (fun _ => rfl) (by decide)).1
  refine ⟨s', ?_, dispatch_partitioned (dispatch_partitioned hstart hd) hd', hentries⟩
  have hinit : pairRuns.Reachable (pairHandlers.foldl addSvcHandler {}, (), []) := .init rfl
  exact (hinit.step (l := {}) trivial ⟨iRet, oCmd, hd⟩).step (l := {}) trivial ⟨iRet', oCmd', hd'⟩

theorem response_resumes_both : ∃ s, pairRuns.Reachable s ∧
    s.1.m_mapStatefulSvcQueue.find? 700 = some ⟨.CSvcTest2, 2, 700⟩ ∧
    ∃ iRet oCmd d, dispatch (tracked answersPartner (fun _ w => w)) s.1 ((), [])
        { iType := RESPONSE, iSvcSerialNo := 700 } =
      .ok (iRet, oCmd, d, (), [⟨.CSvcTest2, 2, 700⟩, ⟨.CSvcTest2, 2, 701⟩]) ∧
      ¬SamePlace s.1 d ⟨.CSvcTest2, 2, 701⟩ := by
  obtain ⟨s, hs, _, hentries⟩ := pair_suspended
  have hheld : ∀ {k h}, (k, h) ∈ s.1.m_mapStatefulSvcQueue.entries →
      s.1.m_mapStatefulSvcQueue.find? k = some h := SortedMap.find?_eq_some_iff.mpr
  refine ⟨s, hs, hheld (by rw [hentries]; decide), ?_⟩
  unfold dispatch
  rw [if_pos rfl, hentries]
  refine ⟨_, _, _, rfl, ?_⟩
  intro hplace
  have hfirst := hplace.1
  rw [hheld (k := 701) (h := ⟨.CSvcTest2, 2, 701⟩) (by rw [hentries]; decide)] at hfirst
  rw [SortedMap.find?_erase, if_pos rfl] at hfirst
  contradiction

theorem response_resumes_one_pair : ∃ s, pairRuns.Reachable s ∧
    ∃ iRet oCmd d w switched, dispatch (tracked answersPartner (fun _ w => w)) s.1 ((), [])
        { iType := RESPONSE, iSvcSerialNo := 701 } = .ok (iRet, oCmd, d, w, switched) ∧
      ⟨.CSvcTest2, 2, 701⟩ ∈ switched ∧
      ((switched = [⟨.CSvcTest2, 2, 701⟩] ∧
          ∀ h' ∈ pairHandlers, h' ≠ ⟨.CSvcTest2, 2, 701⟩ → SamePlace s.1 d h') ↔
        ∀ h' ∈ pairHandlers, s.1.m_mapStatefulSvcQueue.find? h'.m_iIndex = some h' →
          701 < h'.m_iIndex → (701 : Int32) ≠ h'.m_iIndex) := by
  obtain ⟨s, hs, hp, hentries⟩ := pair_suspended
  have hheld : s.1.m_mapStatefulSvcQueue.find? 701 = some ⟨.CSvcTest2, 2, 701⟩ :=
    SortedMap.find?_eq_some_iff.mpr (by rw [hentries]; decide)
  exact ⟨s, hs, response_resumes_one hp rfl rfl hheld⟩

end NetioMiddleware

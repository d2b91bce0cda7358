import NetioMiddleware.CmdObj
import NetioMiddleware.Machine

namespace NetioMiddleware

/-- The classes the two service libraries create their handlers from. -/
inductive SvcClass
  | CSvcTest
  | CSvcTest2
  deriving DecidableEq

structure IService where
  svc : SvcClass
  m_iCmd : Int32
  m_iIndex : Int32
  deriving DecidableEq

/-- The user contexts of the handlers. `switchTo` runs a handler until it
suspends or returns: it may change the dispatcher's current command, which all
handlers share, and the world; `resetUCTX` makes its context start again. -/
structure Coroutines (σ : Type) where
  switchTo : IService → CCmd → σ → Except Halt (CCmd × σ)
  resetUCTX : IService → σ → σ

structure Dispatcher where
  m_count : Nat := 0
  m_oCurCmdObj : CCmd := {}
  m_mapStatefulSvcQueue : SortedMap Int32 IService := .empty
  m_mapStatelessSvcQueue : SortedMap Int32 IService := .empty

def addSvcHandler (d : Dispatcher) (pSvcHandler : IService) : Dispatcher :=
  { d with
    m_mapStatelessSvcQueue := d.m_mapStatelessSvcQueue.assign pSvcHandler.m_iIndex pSvcHandler
    m_count := d.m_count + 1 }

section

variable {σ : Type} (co : Coroutines σ)

/-- The loop of Dispatch over m_mapStatefulSvcQueue. It compares each key with
the serial number the current command has by then, and goes on after a switch. -/
def resumeLoop : List (Int32 × IService) → Option IService → CCmd → σ →
    Except Halt (Option IService × CCmd × σ)
  | [], pSvcHandler, cur, w => .ok (pSvcHandler, cur, w)
  | it :: rest, pSvcHandler, cur, w =>
    if cur.iSvcSerialNo = it.1 then
      match co.switchTo it.2 cur w with
      | .error e => .error e
      | .ok (cur, w) => resumeLoop rest (some it.2) cur w
    else resumeLoop rest pSvcHandler cur w

/-- The end of Dispatch, once the main context runs again. -/
def finishDispatch (d : Dispatcher) (pSvcHandler : IService) (w : σ) :
    Int32 × CCmd × Dispatcher × σ :=
  if d.m_oCurCmdObj.iRet ≠ UNFINISH_TASK_RET_FLAG then
    (d.m_oCurCmdObj.iRet, d.m_oCurCmdObj,
      { d with
        m_mapStatefulSvcQueue := d.m_mapStatefulSvcQueue.erase pSvcHandler.m_iIndex
        m_mapStatelessSvcQueue := d.m_mapStatelessSvcQueue.assign pSvcHandler.m_iIndex pSvcHandler },
      co.resetUCTX pSvcHandler w)
  else (d.m_oCurCmdObj.iRet, d.m_oCurCmdObj, d, w)

/-- CServiceDispatcher::Dispatch: its return value, the command it leaves in
its argument, the dispatcher and the world. -/
def dispatch (d : Dispatcher) (w : σ) (oCmd : CCmd) : Except Halt (Int32 × CCmd × Dispatcher × σ) :=
  if oCmd.iType = RESPONSE then
    match resumeLoop co d.m_mapStatefulSvcQueue.entries none oCmd w with
    | .error e => .error e
    | .ok (none, _, _) => .error .assertFailed
    | .ok (some pSvcHandler, cur, w) =>
      .ok (finishDispatch co { d with m_oCurCmdObj := cur } pSvcHandler w)
  else
    match d.m_mapStatelessSvcQueue.entries with
    | [] => .ok (NO_FREE_SVC_HANDLER, oCmd, { d with m_oCurCmdObj := oCmd }, w)
    | it :: _ =>
      match co.switchTo it.2 oCmd w with
      | .error e => .error e
      | .ok (cur, w) =>
        .ok (finishDispatch co
          { d with
            m_oCurCmdObj := cur
            m_mapStatelessSvcQueue := d.m_mapStatelessSvcQueue.erase it.1
            m_mapStatefulSvcQueue := d.m_mapStatefulSvcQueue.assign it.2.m_iIndex it.2 }
          it.2 w)

end

/-- Every registered handler is in exactly one of the two maps, under its own
index, and the maps hold nothing else. -/
structure Partitioned (hs : List IService) (d : Dispatcher) : Prop where
  one : ∀ h ∈ hs,
    (d.m_mapStatelessSvcQueue.find? h.m_iIndex = some h ∧
      d.m_mapStatefulSvcQueue.find? h.m_iIndex = none) ∨
    (d.m_mapStatelessSvcQueue.find? h.m_iIndex = none ∧
      d.m_mapStatefulSvcQueue.find? h.m_iIndex = some h)
  free : ∀ k h, d.m_mapStatelessSvcQueue.find? k = some h → h ∈ hs ∧ k = h.m_iIndex
  busy : ∀ k h, d.m_mapStatefulSvcQueue.find? k = some h → h ∈ hs ∧ k = h.m_iIndex

section

variable {σ : Type} {co : Coroutines σ} {hs : List IService} {d : Dispatcher}

theorem resumeLoop_handler {l : List (Int32 × IService)} {found : Option IService} {cur cur' : CCmd}
    {w w' : σ} {svc : IService} (h : resumeLoop co l found cur w = .ok (some svc, cur', w')) :
    found = some svc ∨ ∃ k, (k, svc) ∈ l := by
  induction l generalizing found cur w with
  | nil =>
    cases Except.ok.inj h
    exact Or.inl rfl
  | cons it rest ih =>
    unfold resumeLoop at h
    split at h
    next =>
      split at h
      next => cases h
      next cur1 w1 _ =>
        rcases ih h with hf | ⟨k, hk⟩
        · cases Option.some.inj hf
          exact Or.inr ⟨it.1, List.mem_cons_self⟩
        · exact Or.inr ⟨k, List.mem_cons_of_mem it hk⟩
    next =>
      rcases ih h with hf | ⟨k, hk⟩
      · exact Or.inl hf
      · exact Or.inr ⟨k, List.mem_cons_of_mem it hk⟩

theorem Partitioned.same_index (hp : Partitioned hs d) {h h' : IService} (hh : h ∈ hs) (hh' : h' ∈ hs)
    (he : h.m_iIndex = h'.m_iIndex) : h = h' := by
  have h1 := hp.one h hh
  have h2 := hp.one h' hh'
  rw [← he] at h2
  rcases h1 with ⟨hl, hf⟩ | ⟨hl, hf⟩
  · rcases h2 with ⟨hl', _⟩ | ⟨hl', _⟩
    · exact Option.some.inj (hl.symm.trans hl')
    · rw [hl] at hl'; contradiction
  · rcases h2 with ⟨hl', _⟩ | ⟨_, hf'⟩
    · rw [hl] at hl'; contradiction
    · exact Option.some.inj (hf.symm.trans hf')

/-- Moving a registered handler to the stateful map. -/
theorem Partitioned.hold (hp : Partitioned hs d) (cur : CCmd) {svc : IService} (hsvc : svc ∈ hs) :
    Partitioned hs { d with
      m_oCurCmdObj := cur
      m_mapStatelessSvcQueue := d.m_mapStatelessSvcQueue.erase svc.m_iIndex
      m_mapStatefulSvcQueue := d.m_mapStatefulSvcQueue.assign svc.m_iIndex svc } := by
  refine ⟨?_, ?_, ?_⟩
  · intro h hh
    simp only [SortedMap.find?_erase, SortedMap.find?_assign]
    by_cases he : h.m_iIndex = svc.m_iIndex
    · rw [if_pos he, if_pos he, hp.same_index hh hsvc he]
      exact Or.inr ⟨rfl, rfl⟩
    · rw [if_neg he, if_neg he]
      exact hp.one h hh
  · intro k h hk
    rw [SortedMap.find?_erase] at hk
    split at hk
    next => contradiction
    next => exact hp.free k h hk
  · intro k h hk
    rw [SortedMap.find?_assign] at hk
    split at hk
    next he =>
      cases Option.some.inj hk
      exact ⟨hsvc, he⟩
    next => exact hp.busy k h hk

theorem Partitioned.swap (hp : Partitioned hs d) : Partitioned hs { d with
    m_mapStatefulSvcQueue := d.m_mapStatelessSvcQueue
    m_mapStatelessSvcQueue := d.m_mapStatefulSvcQueue } :=
  ⟨fun h hh => (hp.one h hh).symm.imp And.symm And.symm, hp.busy, hp.free⟩

/-- Moving a registered handler back, which is the same with the maps exchanged. -/
theorem Partitioned.release (hp : Partitioned hs d) {svc : IService} (hsvc : svc ∈ hs) :
    Partitioned hs { d with
      m_mapStatefulSvcQueue := d.m_mapStatefulSvcQueue.erase svc.m_iIndex
      m_mapStatelessSvcQueue := d.m_mapStatelessSvcQueue.assign svc.m_iIndex svc } :=
  (hp.swap.hold d.m_oCurCmdObj hsvc).swap

theorem Partitioned.current (hp : Partitioned hs d) (cur : CCmd) :
    Partitioned hs { d with m_oCurCmdObj := cur } := ⟨hp.one, hp.free, hp.busy⟩

theorem finishDispatch_partitioned (co : Coroutines σ) (hp : Partitioned hs d) {svc : IService}
    (hsvc : svc ∈ hs) (w : σ) :
    Partitioned hs (finishDispatch co d svc w).2.2.1 := by
  unfold finishDispatch
  split
  next => exact hp.release hsvc
  next => exact hp

theorem dispatch_partitioned (hp : Partitioned hs d) {d' : Dispatcher} {w w' : σ} {oCmd oCmd' : CCmd}
    {iRet : Int32} (h : dispatch co d w oCmd = .ok (iRet, oCmd', d', w')) : Partitioned hs d' := by
  unfold dispatch at h
  split at h
  next =>
    split at h
    next => cases h
    next => cases h
    next svc cur w1 hres =>
      obtain hf | ⟨k, hk⟩ := resumeLoop_handler hres
      · contradiction
      · have hsvc := (hp.busy k svc (SortedMap.find?_eq_some_iff.mpr hk)).1
        have := finishDispatch_partitioned co (hp.current cur) hsvc w1
        rwa [Except.ok.inj h] at this
  next =>
    split at h
    next => cases Except.ok.inj h; exact hp.current oCmd
    next it rest hfree =>
      split at h
      next => cases h
      next cur w1 _ =>
        obtain ⟨hsvc, hkey⟩ := hp.free it.1 it.2
          (SortedMap.find?_eq_some_iff.mpr (by rw [hfree]; exact List.mem_cons_self))
        rw [hkey] at h
        have := finishDispatch_partitioned co (hp.hold cur hsvc) hsvc w1
        rwa [Except.ok.inj h] at this

theorem addSvcHandlers_partitioned (l : List IService) (hp : Partitioned hs d)
    (hidle : ∀ k, d.m_mapStatefulSvcQueue.find? k = none)
    (hinj : ∀ h ∈ hs ++ l, ∀ h' ∈ hs ++ l, h.m_iIndex = h'.m_iIndex → h = h') :
    Partitioned (hs ++ l) (l.foldl addSvcHandler d) ∧
      ∀ k, (l.foldl addSvcHandler d).m_mapStatefulSvcQueue.find? k = none := by
  induction l generalizing hs d with
  | nil => simpa using ⟨hp, hidle⟩
  | cons svc l ih =>
    have hadd : Partitioned (hs ++ [svc]) (addSvcHandler d svc) := by
      refine ⟨?_, ?_, fun k h hk => by simp [addSvcHandler, hidle] at hk⟩
      · intro h hh
        refine Or.inl ⟨?_, hidle _⟩
        rw [addSvcHandler, SortedMap.find?_assign]
        split
        next he => rw [hinj h (by simp at hh ⊢; tauto) svc (by simp) he]
        next hne =>
          have hh : h ∈ hs :=
            (List.mem_append.mp hh).resolve_right (fun hs => hne (by rw [List.mem_singleton.mp hs]))
          exact (hp.one h hh).elim And.left (fun hb => by simp [hidle] at hb)
      · intro k h hk
        rw [addSvcHandler, SortedMap.find?_assign] at hk
        split at hk
        next he =>
          cases Option.some.inj hk
          exact ⟨by simp, he⟩
        next =>
          obtain ⟨hh, hkey⟩ := hp.free k h hk
          exact ⟨List.mem_append_left _ hh, hkey⟩
    have := ih hadd hidle (by simpa using hinj)
    simpa using this

theorem empty_partitioned : Partitioned [] ({} : Dispatcher) :=
  ⟨fun _ h => absurd h List.not_mem_nil, fun _ _ h => by simp at h, fun _ _ h => by simp at h⟩

end

/-- A process that registers its handlers and then dispatches one command after
another, whatever the coroutines do with each switch. -/
def dispatcherRuns {σ : Type} (co : Coroutines σ) (hs : List IService) :
    Machine (Dispatcher × σ) CCmd where
  init s := s.1 = hs.foldl addSvcHandler {}
  step s oCmd s' := ∃ iRet oCmd', dispatch co s.1 s.2 oCmd = .ok (iRet, oCmd', s'.1, s'.2)

/-- No handler is lost or duplicated, and a request that finds no free handler
changes neither map. -/
theorem handlers_partitioned {σ : Type} {co : Coroutines σ} {hs : List IService} {s : Dispatcher × σ}
    (hdistinct : (hs.map (·.m_iIndex)).Nodup) (h : (dispatcherRuns co hs).Reachable s) :
    Partitioned hs s.1 ∧
    ∀ oCmd, oCmd.iType ≠ RESPONSE → s.1.m_mapStatelessSvcQueue.entries = [] →
      ∃ d, dispatch co s.1 s.2 oCmd = .ok (NO_FREE_SVC_HANDLER, oCmd, d, s.2) ∧
        d.m_mapStatefulSvcQueue = s.1.m_mapStatefulSvcQueue ∧
        d.m_mapStatelessSvcQueue = s.1.m_mapStatelessSvcQueue := by
  refine ⟨?_, ?_⟩
  · refine h.invariant (I := fun s => Partitioned hs s.1) ?_ ?_
    · rintro s hs0
      rw [show s.1 = _ from hs0]
      exact (addSvcHandlers_partitioned hs empty_partitioned (fun _ => rfl)
        (fun _ hh _ hh' he => List.inj_on_of_nodup_map hdistinct hh hh' he)).1
    · rintro s oCmd s' hp _ ⟨iRet, oCmd', hd⟩
      exact dispatch_partitioned hp hd
  · intro oCmd htype hempty
    refine ⟨{ s.1 with m_oCurCmdObj := oCmd }, ?_, rfl, rfl⟩
    unfold dispatch
    rw [if_neg htype, hempty]

theorem handlers_partitioned_suspended :
    let co : Coroutines Unit :=
      ⟨fun _ cur w => .ok ({ cur with iRet := UNFINISH_TASK_RET_FLAG }, w), fun _ w => w⟩
    let hs : List IService := [⟨.CSvcTest2, 2, 700⟩, ⟨.CSvcTest2, 2, 701⟩]
    ∃ s : Dispatcher × Unit, s.1.m_mapStatefulSvcQueue.find? 700 = some ⟨.CSvcTest2, 2, 700⟩ ∧
      (Partitioned hs s.1 ∧
      ∀ oCmd, oCmd.iType ≠ RESPONSE → s.1.m_mapStatelessSvcQueue.entries = [] →
        ∃ d, dispatch co s.1 s.2 oCmd = .ok (NO_FREE_SVC_HANDLER, oCmd, d, s.2) ∧
          d.m_mapStatefulSvcQueue = s.1.m_mapStatefulSvcQueue ∧
          d.m_mapStatelessSvcQueue = s.1.m_mapStatelessSvcQueue) := by
  intro co hs
  obtain ⟨iRet, oCmd, d, hd, hheld⟩ : ∃ iRet oCmd d,
      dispatch co (hs.foldl addSvcHandler {}) () {} = .ok (iRet, oCmd, d, ()) ∧
        d.m_mapStatefulSvcQueue.find? 700 = some ⟨.CSvcTest2, 2, 700⟩ :=
    ⟨_, _, _, rfl, by decide⟩
  exact ⟨(d, ()), hheld, handlers_partitioned (by decide)
    ((Machine.Reach.init (s := (hs.foldl addSvcHandler {}, ())) rfl).step trivial ⟨iRet, oCmd, hd⟩)⟩

end NetioMiddleware

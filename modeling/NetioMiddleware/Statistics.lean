import NetioMiddleware.BackendSound

namespace NetioMiddleware

/-- The beginning of the keys a library counts under. -/
def statPrefix : SvcClass → Bytes
  | .CSvcTest => bytes "c1_"
  | .CSvcTest2 => bytes "c2_"

/-- The key the handlers of a process count under: the prefix of their library
and the last two digits of the number of the process. -/
def statKey (svc : SvcClass) (pid : Nat) : Bytes := statPrefix svc ++ printNat (pid % 100)

section

variable {sent : Bool} {svc : IService} {cur cur' : CCmd} {w w' : World}

theorem incr_stats {c : Container} (hn : c.Numbered) (h : svc ∈ c.registered) (w : World)
    (pszPrefix : Bytes) :
    (w.incr pszPrefix svc.m_iIndex).stats = w.stats ++ [pszPrefix ++ printNat (c.pid % 100)] := by
  have hmod : ((c.pid : Int).tmod 100) = (c.pid % 100 : Nat) := by
    rw [Int.tmod_eq_emod_of_nonneg (by omega)]
    omega
  rw [World.incr, handler_pid hn h, hmod, printInt, if_neg (by omega), Int.natAbs_natCast]

/-- Execute counts once, when it starts. -/
theorem switchTo_started {c : Container} (hn : c.Numbered) (hreg : svc ∈ c.registered)
    (hstart : w.frames svc.m_iIndex = .start)
    (h : (services sent).switchTo svc cur w = .ok (cur', w')) :
    w'.stats = w.stats ++ [statKey c.svc c.pid] := by
  have hclass := (handler_index hn hreg).1
  cases hsvc : c.svc with
  | CSvcTest =>
    rw [switchTo_svcTest sent cur hstart (hclass.trans hsvc)] at h
    cases Except.ok.inj h
    exact incr_stats hn hreg w (bytes "c1_")
  | CSvcTest2 =>
    rw [switchTo_svcTest2 sent cur hstart (hclass.trans hsvc)] at h
    cases Except.ok.inj h
    exact incr_stats hn hreg w (bytes "c2_")

/-- The end of Execute counts nothing. -/
theorem switchTo_resumed (hstarted : w.frames svc.m_iIndex ≠ .start)
    (h : (services sent).switchTo svc cur w = .ok (cur', w')) :
    w'.stats = w.stats ∧ ∀ k, w.frames k ≠ .start → w'.frames k ≠ .start := by
  cases hframe : w.frames svc.m_iIndex with
  | start => exact absurd hframe hstarted
  | finished =>
    rw [switchTo_finished sent cur hframe] at h
    cases h
  | suspended obj3 =>
    rw [switchTo_suspended sent cur hframe] at h
    cases Except.ok.inj h
    refine ⟨rfl, fun k hk => ?_⟩
    by_cases heq : k = svc.m_iIndex
    · simp [World.setFrame, heq]
    · simpa [World.setFrame, heq] using hk

theorem resumeLoop_stats {l : List (Int32 × IService)} {found found' : Option IService}
    (hl : ∀ e ∈ l, w.frames e.2.m_iIndex ≠ .start)
    (h : resumeLoop (services sent) l found cur w = .ok (found', cur', w')) : w'.stats = w.stats := by
  induction l generalizing found cur w with
  | nil =>
    cases Except.ok.inj h
    rfl
  | cons e l ih =>
    unfold resumeLoop at h
    split at h
    next =>
      split at h
      next => cases h
      next cur1 w1 hswitch =>
        obtain ⟨hstats, hframes⟩ := switchTo_resumed (hl e List.mem_cons_self) hswitch
        have hrest := ih (fun e' he' => hframes _ (hl e' (List.mem_cons_of_mem _ he'))) h
        exact hrest.trans hstats
    next => exact ih (fun e' he' => hl e' (List.mem_cons_of_mem _ he')) h

theorem finishDispatch_stats (d : Dispatcher) (svc : IService) (w : World) :
    (finishDispatch (services sent) d svc w).2.2.2.stats = w.stats := by
  unfold finishDispatch
  split
  next => rfl
  next => rfl

end

/-- What ProcessMsg counts for a command: nothing for a response or when no
handler is free. -/
def Container.counts (c : Container) (oCmd : CCmd) : List Bytes :=
  if oCmd.iType = RESPONSE ∨ c.freeHandler = none then [] else [statKey c.svc c.pid]

section

variable {c : Container} (hv : c.Valid) {queues : Int32 → List QMsg} {sent : Bool} {oCmd : CCmd}

include hv

theorem dispatch_stats {iRet : Int32} {cur : CCmd} {d : Dispatcher} {w : World}
    (h : dispatch (services sent) c.dispatcher (c.world queues) oCmd = .ok (iRet, cur, d, w)) :
    w.stats = c.stats ++ c.counts oCmd := by
  have finished : ∀ {d1 svc w1}, .ok (finishDispatch (services sent) d1 svc w1) =
      (.ok (iRet, cur, d, w) : Except Halt _) → w.stats = w1.stats := by
    intro d1 svc w1 hfinish
    rw [← finishDispatch_stats d1 svc w1, Except.ok.inj hfinish]
  unfold dispatch at h
  split at h
  next htype =>
    rw [Container.counts, if_pos (Or.inl htype), List.append_nil]
    split at h
    next => cases h
    next => cases h
    next svc cur1 w1 hloop =>
      have hbusy : ∀ e ∈ c.dispatcher.m_mapStatefulSvcQueue.entries,
          (c.world queues).frames e.2.m_iIndex ≠ .start := by
        intro e he hstart
        have hfind := SortedMap.find?_eq_some_iff.mpr he
        have hframe := hv.busy _ _ hfind
        rw [(hv.partitioned.busy _ _ hfind).2, show c.frames e.2.m_iIndex = .start from hstart] at hframe
        split at hframe
        next => cases hframe
        next =>
          obtain ⟨_, hframe⟩ := hframe
          cases hframe
      exact (finished h).trans (resumeLoop_stats hbusy hloop)
  next htype =>
    split at h
    next hnone =>
      cases Except.ok.inj h
      rw [Container.counts, if_pos (Or.inr (by rw [Container.freeHandler, hnone]; rfl)), List.append_nil]
      rfl
    next it rest hentries =>
      have hfree : c.freeHandler = some it.2 := by rw [Container.freeHandler, hentries]; rfl
      obtain ⟨_, _, _, _, hreg, hstart⟩ := freeHandler_eq_some hv hfree
      split at h
      next => cases h
      next cur1 w1 hswitch =>
        have hstats := switchTo_started (w := c.world queues) hv.numbered hreg hstart hswitch
        rw [Container.counts, if_neg (by simp [htype, hfree])]
        exact (finished h).trans hstats

theorem processMsg_stats {d : Dispatcher} {w : World}
    (h : processMsg c.pid c.dispatcher (c.world queues) oCmd sent = .ok (d, w)) :
    w.stats = c.stats ++ c.counts oCmd := by
  unfold processMsg at h
  split at h
  next => cases h
  next iRet cur d1 w1 hd =>
    have hstats := dispatch_stats hv hd
    split at h
    next =>
      cases Except.ok.inj h
      exact hstats
    next =>
      split at h
      next => cases h
      next w2 hreply =>
        cases Except.ok.inj h
        rw [← hstats]
        unfold reply at hreply
        split at hreply
        next =>
          split at hreply
          next => cases hreply
          next =>
            cases Except.ok.inj hreply
            rfl
        next =>
          cases Except.ok.inj hreply
          rfl

/-- What one OnEventFire counts. -/
theorem onEventFire_stats {c' : Container} {queues' : Int32 → List QMsg}
    (hne : ∀ x ∈ queues c.svc.mqKey, x.mtext ≠ []) (h : c.onEventFire queues sent = .ok (c', queues')) :
    c'.stats = c.stats ++ ((c.takes queues).map (fun x => c.counts x.cmd)).getD [] := by
  obtain ⟨hnone, hidle⟩ | ⟨x, rest, htakes, _, _, hfire⟩ := onEventFire_eq hne sent
  · cases Except.ok.inj (h.symm.trans hidle)
    rw [hnone]
    exact (List.append_nil _).symm
  · rw [htakes]
    rw [hfire, QMsg.cmd_eq] at h
    split at h
    next => cases h
    next d w hp =>
      cases Except.ok.inj h
      exact processMsg_stats hv hp

end

/-- The processes count under their own keys only. -/
def OwnKeys (procs : List Container) : Prop :=
  ∀ c ∈ procs, ∀ key ∈ c.stats, key = statKey c.svc c.pid

theorem ownKeys_start {s : Backend} (h : BackendStart s) : OwnKeys s.procs := by
  intro c hc key hkey
  rw [h.started c hc] at hkey
  exact absurd hkey List.not_mem_nil

theorem ownKeys_fire {s s' : Backend} (hv : ∀ c ∈ s.procs, c.Valid)
    (htext : ∀ svc : SvcClass, ∀ x ∈ s.queues svc.mqKey, x.mtext ≠ []) (hown : OwnKeys s.procs)
    {front back : List Container} {c c' : Container} {sent : Bool} (hprocs : s.procs = front ++ c :: back)
    (hprocs' : s'.procs = front ++ c' :: back) (h : c.onEventFire s.queues sent = .ok (c', s'.queues)) :
    OwnKeys s'.procs := by
  have hc : c ∈ s.procs := hprocs ▸ by simp
  obtain ⟨hsvc, hpid, _⟩ := (fire_static (hv c hc) (htext c.svc) h).1
  have hstats := onEventFire_stats (hv c hc) (htext c.svc) h
  rw [OwnKeys, hprocs']
  refine forall_replace (hprocs ▸ hown) fun key hkey => ?_
  rw [hsvc, hpid]
  rw [hstats] at hkey
  rcases List.mem_append.mp hkey with hkey | hkey
  · exact hown c hc key hkey
  · cases htakes : c.takes s.queues with
    | none =>
      rw [htakes] at hkey
      exact absurd hkey List.not_mem_nil
    | some x =>
      rw [htakes, Option.map_some, Option.getD_some, Container.counts] at hkey
      split at hkey
      next => exact absurd hkey List.not_mem_nil
      next => exact List.mem_singleton.mp hkey

theorem ownKeys_step {s s' : Backend} {l : BackendLabel} (hs : Sound s) (hown : OwnKeys s.procs)
    (h : backend.step s l s') : OwnKeys s'.procs := by
  cases backend_step_case h with
  | enter => exact hown
  | absent => exact hown
  | fire _ hprocs hprocs' _ hon => exact ownKeys_fire hs.valid hs.text hown hprocs hprocs' hon
  | drain => exact hown

end NetioMiddleware

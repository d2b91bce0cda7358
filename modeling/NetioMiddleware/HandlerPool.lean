import NetioMiddleware.BackendSound
import NetioMiddleware.NetioSystem

namespace NetioMiddleware

/-- The maps tell the contexts: the stateful one has exactly the handlers that
are suspended inside Schedule, the stateless one all others. -/
def Pooled (c : Container) : Prop :=
  ∀ svc ∈ c.registered,
    (c.dispatcher.m_mapStatefulSvcQueue.find? svc.m_iIndex = some svc ↔
      ∃ obj3, c.frames svc.m_iIndex = .suspended obj3) ∧
    (c.dispatcher.m_mapStatelessSvcQueue.find? svc.m_iIndex = some svc ↔
      ¬∃ obj3, c.frames svc.m_iIndex = .suspended obj3)

/-- No handler of svc_test starts on a request whose ret tells the dispatcher
that the task is unfinished. -/
def Container.Finishes (c : Container) (queues : Int32 → List QMsg) : Prop :=
  ∀ x, c.takes queues = some x → c.svc = .CSvcTest → c.freeHandler ≠ none →
    x.cmd.iRet ≠ UNFINISH_TASK_RET_FLAG

instance (c : Container) (queues : Int32 → List QMsg) : Decidable (c.Finishes queues) := by
  unfold Container.Finishes
  infer_instance

def NetioSystem.Finishes (s : NetioSystem) : SystemLabel → Prop
  | .netio _ => True
  | .process i _ => ∀ c, s.procs[i]? = some c → c.Finishes s.netio.kernel.queues

instance (s : NetioSystem) : (l : SystemLabel) → Decidable (s.Finishes l)
  | .netio _ => isTrue trivial
  | .process i _ =>
    inferInstanceAs (Decidable (∀ c, s.procs[i]? = some c → c.Finishes s.netio.kernel.queues))

/-- In a valid process only svc_test can keep a handler that has returned. -/
theorem pooled_iff {c : Container} (hv : c.Valid) :
    Pooled c ↔ (c.svc = .CSvcTest → ∀ k, c.dispatcher.m_mapStatefulSvcQueue.find? k = none) := by
  constructor
  · intro h hclass k
    by_contra hne
    obtain ⟨svc, hfind⟩ := Option.ne_none_iff_exists'.mp hne
    obtain ⟨hreg, rfl⟩ := hv.partitioned.busy k svc hfind
    obtain ⟨obj3, hsuspended⟩ := (h svc hreg).1.mp hfind
    have hfinished := hv.busy _ svc hfind
    rw [hclass, hsuspended] at hfinished
    cases hfinished
  · intro h svc hreg
    rcases hv.partitioned.one svc hreg with ⟨hfree, hbusy⟩ | ⟨hfree, hbusy⟩
    · have hstart := hv.free _ svc hfree
      rw [hfree, hbusy, hstart]
      simp
    · have hframe := hv.busy _ svc hbusy
      cases hclass : c.svc with
      | CSvcTest => rw [h hclass] at hbusy; contradiction
      | CSvcTest2 =>
        rw [hclass] at hframe
        obtain ⟨obj3, hframe⟩ := hframe
        rw [hfree, hbusy, hframe]
        simp

/-- One OnEventFire of a process leaves the maps telling the contexts exactly
if it does not start a handler on an unfinished task. -/
theorem fire_pooled {c c' : Container} {queues queues' : Int32 → List QMsg} {sent : Bool}
    (hv : c.Valid) (hv' : c'.Valid) (hsvc : c'.svc = c.svc) (hp : Pooled c)
    (h : FireCase queues c sent c' queues') : Pooled c' ↔ c.Finishes queues := by
  have second : c.svc = .CSvcTest2 → (Pooled c' ↔ c.Finishes queues) := by
    intro hclass
    refine iff_of_true ((pooled_iff hv').mpr ?_) ?_
    · intro hfirst
      cases hclass.symm.trans (hsvc.symm.trans hfirst)
    · intro x _ hfirst
      cases hclass.symm.trans hfirst
  cases h with
  | idle hnone hcc =>
    refine iff_of_true (hcc ▸ hp) ?_
    intro x hx
    cases hnone.symm.trans hx
  | replied htakes _ _ hnow _ hmaps =>
    refine iff_of_true ((pooled_iff hv').mpr ?_) ?_
    · rw [hsvc, (Prod.mk.inj hmaps).2]
      exact (pooled_iff hv).mp hp
    · intro x hx _ hfree
      cases Option.some.inj (htakes.symm.trans hx)
      exact (hnow.resolve_left hfree).2
  | @kept _ _ svc htakes _ _ hclass hret hfree hmaps =>
    refine iff_of_false ?_ ?_
    · intro hpool
      have hnone := (pooled_iff hv').mp hpool (hsvc.trans hclass)
      have hheld := congrArg Prod.snd hmaps
      dsimp only [Dispatcher.maps, Container.held] at hheld
      have hsome := hnone svc.m_iIndex
      rw [hheld, SortedMap.find?_assign, if_pos rfl] at hsome
      contradiction
    · intro hfinish
      exact hfinish _ htakes hclass (by simp [hfree]) hret
  | held _ _ _ hclass => exact second hclass
  | resumed _ _ _ hclass => exact second hclass

theorem fire_step_pooled {s s' : Backend} (hs : Sound s) (hp : ∀ c ∈ s.procs, Pooled c) {i : Nat}
    {sent : Bool} (h : backend.step s (.fire i sent) s') :
    (∀ c ∈ s'.procs, Pooled c) ↔ ∀ c, s.procs[i]? = some c → c.Finishes s.queues := by
  cases backend_step_case h with
  | absent hnone =>
    refine iff_of_true hp ?_
    intro c hc
    cases hnone.symm.trans hc
  | @fire _ _ _ front c back c' hget hprocs hprocs' _ hon =>
    have hv := hs.valid c (hprocs ▸ by simp)
    obtain ⟨⟨hsvc, _⟩, hv'⟩ := fire_static hv (hs.text c.svc) hon
    have hfire := fire_pooled hv hv' hsvc (hp c (hprocs ▸ by simp)) (fire_case hv (hs.text c.svc) hon)
    rw [hprocs']
    constructor
    · intro hall p hget'
      cases Option.some.inj (hget.symm.trans hget')
      exact hfire.mp (hall c' (by simp))
    · intro hfinish
      exact forall_replace (hprocs ▸ hp) (hfire.mpr (hfinish c hget))

/-- What the processes of a run of the whole system keep. -/
theorem system_sound {ok : NetioSystem → SystemLabel → Prop} {s : NetioSystem}
    (h : netioSystem.Reach ok s) : Sound (s.behind []) := by
  obtain ⟨entered, hb⟩ := system_simulates (P := fun _ _ => True) (fun _ _ _ => trivial)
    (fun _ _ => trivial) (fun _ _ _ _ _ => trivial) h
  have hs := sound_reach hb
  exact ⟨hs.valid, hs.queued, hs.plain⟩

theorem system_step_pooled {s s' : NetioSystem} {l : SystemLabel} (hs : Sound (s.behind []))
    (hp : ∀ c ∈ s.procs, Pooled c) (h : netioSystem.step s l s') :
    (∀ c ∈ s'.procs, Pooled c) ↔ s.Finishes l := by
  cases l with
  | netio l =>
    rw [(system_netio_step h).2.1]
    exact iff_of_true hp trivial
  | process i sent => exact fire_step_pooled hs hp (system_process_step h []).1

/-- As long as no handler of svc_test starts on an unfinished task, the pool
has every handler that is not suspended, and the next step keeps it so exactly
if it starts none either. -/
theorem handlers_pooled {s : NetioSystem} (h : netioSystem.Reach NetioSystem.Finishes s) :
    (∀ c ∈ s.procs, Pooled c) ∧
      ∀ l s', netioSystem.step s l s' → ((∀ c ∈ s'.procs, Pooled c) ↔ s.Finishes l) := by
  have hp : ∀ c ∈ s.procs, Pooled c := by
    induction h with
    | init hs =>
      intro c hc
      have hv := (backend_start_inv hs.behind).valid c hc
      exact (pooled_iff hv).mpr (fun _ => start_idle hs.behind c hc)
    | step hreach hok hstep ih => exact (system_step_pooled (system_sound hreach) ih hstep).mpr hok
  exact ⟨hp, fun _ _ hstep => system_step_pooled (system_sound h) hp hstep⟩

theorem handlers_pooled_suspended :
    ∃ s : NetioSystem, (∃ c ∈ s.procs, c.dispatcher.m_mapStatefulSvcQueue.find? 900 ≠ none) ∧
      (∀ c ∈ s.procs, Pooled c) ∧
      ∀ l s', netioSystem.step s l s' → ((∀ c ∈ s'.procs, Pooled c) ↔ s.Finishes l) := by
  obtain ⟨s, hs, hp⟩ := sampleSystem_reach NetioSystem.Finishes
    [.netio (.event 3 1 { accepts := [.conn 5 ⟨2, 4000, ⟨10, 0, 0, 1⟩⟩ true true] }),
      .netio (.event 5 1 { read := some (bytes "cmd=2&a=b") }), .process 1 true]
    (fun s => s.procs.any (fun c => (c.dispatcher.m_mapStatefulSvcQueue.find? 900).isSome))
    (by decide +kernel)
  obtain ⟨c, hc, hheld⟩ := List.any_eq_true.mp hp
  exact ⟨s, ⟨c, hc, Option.isSome_iff_ne_none.mp hheld⟩, handlers_pooled hs⟩

/-- A client sends "cmd=1&ret=2000000000": handler 700 has returned, but stays
in the stateful map. -/
theorem handler_withheld :
    ∃ s, netioSystem.Reachable s ∧ ∃ c ∈ s.procs,
      c.dispatcher.m_mapStatefulSvcQueue.find? 700 = some ⟨.CSvcTest, 1, 700⟩ ∧
      c.frames 700 = .finished ∧ ¬Pooled c := by
  obtain ⟨s, hs, hp⟩ := sampleSystem_reach (fun _ _ => True)
    [.netio (.event 3 1 { accepts := [.conn 5 ⟨2, 4000, ⟨10, 0, 0, 1⟩⟩ true true] }),
      .netio (.event 5 1 { read := some (bytes "cmd=1&ret=2000000000") }), .process 0 true]
    (fun s => s.procs.any (fun c => decide (⟨.CSvcTest, 1, 700⟩ ∈ c.registered ∧
      c.dispatcher.m_mapStatefulSvcQueue.find? 700 = some ⟨.CSvcTest, 1, 700⟩ ∧
      c.frames 700 = .finished))) (by decide +kernel)
  obtain ⟨c, hc, hx⟩ := List.any_eq_true.mp hp
  obtain ⟨hreg, hheld, hframe⟩ := of_decide_eq_true hx
  refine ⟨s, hs, c, hc, hheld, hframe, fun hpool => ?_⟩
  obtain ⟨obj3, hsuspended⟩ := (hpool _ hreg).1.mp hheld
  cases hframe.symm.trans hsuspended

end NetioMiddleware

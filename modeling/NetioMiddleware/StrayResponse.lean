import NetioMiddleware.NetioSystem

namespace NetioMiddleware

/-- Where no request of a client that carries the number of a process of its
own library is replied to at once, every response a process takes finds its
handler and the assertion in Dispatch holds. -/
theorem responses_find_handler {s : NetioSystem} (h : netioSystem.Reach NetioSystem.Fits s)
    {c : Container} (hc : c ∈ s.procs) :
    (∀ x, c.takes s.netio.kernel.queues = some x → x.cmd.iType = RESPONSE →
      ∃ svc, c.dispatcher.m_mapStatefulSvcQueue.find? x.cmd.iSvcSerialNo = some svc ∧
        svc.m_iIndex = x.cmd.iSvcSerialNo) ∧
    ∀ sent, c.onEventFire s.netio.kernel.queues sent ≠ .error .assertFailed := by
  obtain ⟨entered, hb⟩ := system_behind h
  have hi := backend_inv (fun _ _ h => h) hb
  refine ⟨?_, ?_⟩
  · intro x htakes htype
    obtain ⟨_, svc, hfind⟩ := taken_response hi hc htakes htype
    exact ⟨svc, hfind, ((hi.valid c hc).partitioned.busy _ _ hfind).2.symm⟩
  · intro sent hfail
    obtain ⟨r, hr⟩ := fire_goes_through hi hc sent
    have hr : c.onEventFire s.netio.kernel.queues sent = .ok r := hr
    rw [hfail] at hr
    cases hr

/-- A client has asked for svc_test2, svc_test has answered process 9, and
process 9 is about to take the answer. -/
theorem responses_find_handler_answered :
    ∃ s : NetioSystem, ∃ c ∈ s.procs,
    (∃ x, c.takes s.netio.kernel.queues = some x ∧ x.cmd.iType = RESPONSE) ∧
    ((∀ x, c.takes s.netio.kernel.queues = some x → x.cmd.iType = RESPONSE →
      ∃ svc, c.dispatcher.m_mapStatefulSvcQueue.find? x.cmd.iSvcSerialNo = some svc ∧
        svc.m_iIndex = x.cmd.iSvcSerialNo) ∧
    ∀ sent, c.onEventFire s.netio.kernel.queues sent ≠ .error .assertFailed) := by
  obtain ⟨s, hs, hp⟩ := sampleSystem_reach NetioSystem.Fits
    [.netio (.event 3 1 { accepts := [.conn 5 ⟨2, 4000, ⟨10, 0, 0, 1⟩⟩ true true] }),
      .netio (.event 5 1 { read := some (bytes "cmd=2&serialno=700") }),
      .process 1 true, .process 0 true]
    (fun s => (s.procs[1]?).any (fun c => (c.takes s.netio.kernel.queues).any
      (fun x => x.cmd.iType = RESPONSE))) (by decide +kernel)
  obtain ⟨c, hc, hx⟩ := (Option.any_eq_true _ _).mp hp
  obtain ⟨x, hx, htype⟩ := (Option.any_eq_true _ _).mp hx
  have hc := List.mem_of_getElem? hc
  exact ⟨s, c, hc, ⟨x, hx, of_decide_eq_true htype⟩, responses_find_handler hs hc⟩

/-- Whether a call ends in the failed assertion. -/
def asserts {α : Type} : Except Halt α → Bool
  | .error e => e = .assertFailed
  | .ok _ => false

theorem asserts_eq {α : Type} {r : Except Halt α} (h : asserts r = true) : r = .error .assertFailed := by
  cases r with
  | error e => rw [show e = .assertFailed from of_decide_eq_true h]
  | ok => contradiction

/-- A client sends "cmd=1&serialno=700" where process 7 serves svc_test: its
reply goes to process 7 as a response to handler 700, which is free. -/
theorem response_without_handler :
    ∃ s, netioSystem.Reachable s ∧ ∃ c ∈ s.procs, ∃ x, c.takes s.netio.kernel.queues = some x ∧
      x.cmd.iType = RESPONSE ∧ c.dispatcher.m_mapStatefulSvcQueue.find? x.cmd.iSvcSerialNo = none ∧
      c.onEventFire s.netio.kernel.queues true = .error .assertFailed := by
  obtain ⟨s, hs, hp⟩ := sampleSystem_reach (fun _ _ => True)
    [.netio (.event 3 1 { accepts := [.conn 5 ⟨2, 4000, ⟨10, 0, 0, 1⟩⟩ true true] }),
      .netio (.event 5 1 { read := some (bytes "cmd=1&serialno=700") }), .process 0 true]
    (fun s => (s.procs[0]?).any (fun c => (c.takes s.netio.kernel.queues).any (fun x =>
      decide (x.cmd.iType = RESPONSE ∧
        c.dispatcher.m_mapStatefulSvcQueue.find? x.cmd.iSvcSerialNo = none ∧
        asserts (c.onEventFire s.netio.kernel.queues true) = true)))) (by decide +kernel)
  obtain ⟨c, hc, hx⟩ := (Option.any_eq_true _ _).mp hp
  obtain ⟨x, hx, hfail⟩ := (Option.any_eq_true _ _).mp hx
  obtain ⟨htype, hfind, hfail⟩ := of_decide_eq_true hfail
  exact ⟨s, hs, c, List.mem_of_getElem? hc, x, hx, htype, hfind, asserts_eq hfail⟩

end NetioMiddleware

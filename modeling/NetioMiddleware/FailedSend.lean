import NetioMiddleware.HandlerPool

namespace NetioMiddleware

/-- A message handler k waits for that no client has caused: its own request
of the other service, or the response to it. -/
structure OwnMessage (s : Backend) (k : Int32) (x : QMsg) : Prop where
  kind : x ∈ s.queues 0xccccd ∧ IsAsk k x ∨ x ∈ s.queues 0xcccce ∧ IsReply k x
  ip : x.cmd.sClientIp = []

/-- Whether a message in a queue is handler k's own. -/
def ownFor (k key : Int32) (x : QMsg) : Bool := awaits k key x && x.cmd.sClientIp = []

/-- How many of handler k's own messages are under way. -/
def ownCount (queues : Int32 → List QMsg) (k : Int32) : Nat := tally msgqKeys (ownFor k) queues

/-- A failed send costs no handler its message: svc_test2 starts no handler on
a request it cannot send on, and svc_test answers no handler that is held. -/
def SparesProc (s : Backend) (c : Container) (sent : Bool) : Prop :=
  ∀ x, c.takes s.queues = some x → sent = false →
    (c.svc = .CSvcTest2 → x.cmd.iType ≠ RESPONSE → c.freeHandler = none) ∧
    (c.svc = .CSvcTest → x.cmd.sClientIp = [] →
      ∀ p ∈ s.procs, p.dispatcher.m_mapStatefulSvcQueue.find? x.cmd.iSvcSerialNo = none)

def Backend.Spares (s : Backend) : BackendLabel → Prop
  | .fire i sent => ∀ c, s.procs[i]? = some c → c.Finishes s.queues ∧ SparesProc s c sent
  | _ => True

instance (s : Backend) (c : Container) (sent : Bool) : Decidable (SparesProc s c sent) := by
  unfold SparesProc
  infer_instance

instance (s : Backend) : (l : BackendLabel) → Decidable (s.Spares l)
  | .fire i sent =>
    inferInstanceAs (Decidable (∀ c, s.procs[i]? = some c → c.Finishes s.queues ∧ SparesProc s c sent))
  | .enter _ _ => isTrue trivial
  | .drain _ => isTrue trivial

theorem ownFor_iff {k key : Int32} {x : QMsg} : ownFor k key x = true ↔
    (key = 0xccccd ∧ IsAsk k x ∨ key = 0xcccce ∧ IsReply k x) ∧ x.cmd.sClientIp = [] := by
  simp only [ownFor, awaits, Bool.and_eq_true, decide_eq_true_eq]

theorem ownCount_pos {s : Backend} {k : Int32} (h : 0 < ownCount s.queues k) :
    ∃ x, OwnMessage s k x := by
  obtain ⟨key, _, x, hx, hown⟩ := exists_of_tally_pos h
  obtain ⟨⟨rfl, hask⟩ | ⟨rfl, hreply⟩, hip⟩ := ownFor_iff.mp hown
  · exact ⟨x, Or.inl ⟨hx, hask⟩, hip⟩
  · exact ⟨x, Or.inr ⟨hx, hreply⟩, hip⟩

theorem ownCount_take {queues : Int32 → List QMsg} {key : Int32} {x : QMsg} {rest : List QMsg}
    (hp : (queues key).Perm (x :: rest)) (k : Int32) :
    ownCount (Function.update queues key rest) k + weight msgqKeys (ownFor k) key x =
      ownCount queues k := tally_take hp

theorem ownCount_offer (queues : Int32 → List QMsg) (key k : Int32) (m : QMsg) (sent : Bool) :
    ownCount (offer queues key m sent) k = ownCount queues k +
      if sent = true ∧ 0 < m.mtype then weight msgqKeys (ownFor k) key m else 0 :=
  tally_offer queues key m sent

theorem own_weight_one {k key : Int32} {x : QMsg} (hkey : key ∈ msgqKeys) (h : ownFor k key x = true) :
    weight msgqKeys (ownFor k) key x = 1 := if_pos ⟨hkey, h⟩

/-- A handler that is not in a process's stateful map is in none. -/
theorem busy_eq_zero {procs : List Container} {k : Int32}
    (h : ∀ p ∈ procs, p.dispatcher.m_mapStatefulSvcQueue.find? k = none) : busy procs k = 0 := by
  refine List.sum_eq_zero ?_
  simpa [Container.holds] using h

theorem holds_le_busy {procs : List Container} {c : Container} (hc : c ∈ procs) (k : Int32) :
    c.holds k ≤ busy procs k := by
  obtain ⟨front, back, rfl⟩ := List.append_of_mem hc
  simp only [busy, List.map_append, List.map_cons, List.sum_append, List.sum_cons]
  omega

section

variable {s : Backend} (hs : Sound s) {c c' : Container} (hc : c ∈ s.procs)
  {queues' : Int32 → List QMsg} {sent : Bool}

include hs

/-- A request that counts for a handler is its own request in svc_test's queue. -/
theorem own_request {x : QMsg} {k : Int32} (htakes : c.takes s.queues = some x)
    (htype : x.cmd.iType ≠ RESPONSE) (h : ownFor k c.svc.mqKey x = true) :
    c.svc = .CSvcTest ∧ IsAsk k x ∧ 0 < pidOf k ∧ x.cmd.sClientIp = [] := by
  obtain ⟨_, hip⟩ := ownFor_iff.mp h
  have hown := (sound_taken hs htakes).own hip
  cases hclass : c.svc with
  | CSvcTest2 =>
    rw [hclass] at hown
    exact absurd hown.2 htype
  | CSvcTest =>
    rw [hclass] at hown h
    obtain ⟨⟨_, hask⟩ | ⟨hkey, _⟩, _⟩ := ownFor_iff.mp h
    · refine ⟨rfl, hask, ?_, hip⟩
      rw [← hask.serial]
      exact hown.2
    · exact absurd hkey (by decide)

omit hs in
/-- svc_test's answer to a handler's request counts for the same handler. -/
theorem own_answer {x m : QMsg} {k key : Int32} (hask : IsAsk k x) (hpos : 0 < pidOf k)
    (hip : x.cmd.sClientIp = []) (hr : RepliesTo x.cmd key m) :
    weight msgqKeys (ownFor k) key m = 1 ∧ 0 < m.mtype := by
  have hserial : x.cmd.iSvcSerialNo ≠ 0 := by
    intro h0
    rw [← hask.serial, h0] at hpos
    exact absurd hpos (by decide)
  obtain ⟨hroute, hmtype⟩ := hr.app hserial
  have hroute : routeCmd x.cmd.iCmd = some key := hroute
  rw [hask.iCmd] at hroute
  have hkey : (0xcccce : Int32) = key := Option.some.inj hroute
  rw [hask.serial] at hmtype
  have hreply : IsReply k m := ⟨hmtype, hr.serial.trans hask.serial⟩
  have hmip : m.cmd.sClientIp = [] := (congrArg Sender.sClientIp hr.sender).trans hip
  refine ⟨own_weight_one ?_ (ownFor_iff.mpr ⟨Or.inr ⟨hkey.symm, hreply⟩, hmip⟩), ?_⟩
  · rw [← hkey]
    decide
  · rw [hmtype, appType, show APP.toInt = 3 from rfl]
    omega

include hc

/-- A step takes a handler's own message away only from one that is held no
longer, and makes none wait without a message. -/
theorem fire_own (hfinish : c.Finishes s.queues) (hspares : SparesProc s c sent)
    (h : FireCase s.queues c sent c' queues') (k : Int32) :
    c'.holds k + ownCount s.queues k ≤ ownCount queues' k + c.holds k ∨
      (busy s.procs k = 0 ∧ c'.holds k = c.holds k) := by
  have hv := hs.valid c hc
  cases h with
  | idle _ hcc hq =>
    rw [hcc, hq]
    omega
  | @replied x rest key m htakes hperm htype _ hr hmaps _ hq =>
    have hr := hr (sound_taken hs htakes).ip
    have htaken := ownCount_take hperm k
    have hholds := holds_of_maps hmaps k
    have hoffer := ownCount_offer (Function.update s.queues c.svc.mqKey rest) key k m sent
    rw [← hq] at hoffer
    rcases weight_cases msgqKeys (ownFor k) c.svc.mqKey x with hw | ⟨_, hown, hw⟩
    · left
      omega
    · obtain ⟨hclass, hask, hpos, hip⟩ := own_request hs htakes htype hown
      obtain ⟨hanswer, hmtype⟩ := own_answer hask hpos hip hr
      cases sent with
      | true =>
        rw [if_pos ⟨rfl, hmtype⟩] at hoffer
        left
        omega
      | false =>
        right
        have hnone := (hspares x htakes rfl).2 hclass hip
        rw [hask.serial] at hnone
        exact ⟨busy_eq_zero hnone, hholds⟩
  | kept htakes _ _ hclass hret hfree =>
    exact absurd hret (hfinish _ htakes hclass (by simp [hfree]))
  | @held x rest svc htakes hperm htype hclass hfree hmaps _ hq =>
    obtain ⟨_, _, _, _, hreg, _⟩ := freeHandler_eq_some hv hfree
    have htaken := ownCount_take hperm k
    have hholds := holds_held hv hfree hmaps k
    have hw : weight msgqKeys (ownFor k) c.svc.mqKey x = 0 := by
      rcases weight_cases msgqKeys (ownFor k) c.svc.mqKey x with hw | ⟨_, hown, _⟩
      · exact hw
      · cases (own_request hs htakes htype hown).1.symm.trans hclass
    have hsent : sent = true := by
      by_contra hfail
      have hnone := (hspares x htakes (by simpa using hfail)).1 hclass htype
      cases hnone.symm.trans hfree
    obtain ⟨_, hask⟩ := askMsg_first (s := s) hc hv hclass hreg
    have hip := congrArg Header.sClientIp (askMsg_header svc.m_iIndex svc.m_iCmd)
    left
    rw [hq, ownCount_offer, if_pos ⟨hsent, show (0 : Int) < REQUEST.toInt by decide⟩, hholds]
    by_cases hk : k = svc.m_iIndex
    · rw [own_weight_one (by decide) (ownFor_iff.mpr ⟨Or.inl ⟨rfl, hk ▸ hask⟩, hip⟩), if_pos hk]
      omega
    · rw [if_neg hk]
      omega
  | @resumed x rest svc obj3 key m htakes hperm htype hclass hfind hframe hr hmaps _ hq =>
    have htaken := ownCount_take hperm k
    have hholds := holds_released hv hfind hmaps k
    left
    rw [hq, ownCount_offer]
    rcases weight_cases msgqKeys (ownFor k) c.svc.mqKey x with hw | ⟨_, hown, hw⟩
    · omega
    · have hk : k = x.cmd.iSvcSerialNo := by
        obtain ⟨⟨_, hask⟩ | ⟨_, hreply⟩, _⟩ := ownFor_iff.mp hown
        · exact hask.serial.symm
        · exact hreply.serial.symm
      rw [if_pos hk] at hholds
      omega

end

/-- No more handlers wait than have messages of their own under way. -/
def Accounted (s : Backend) : Prop := ∀ k, busy s.procs k ≤ ownCount s.queues k

theorem accounted_step {s s' : Backend} {l : BackendLabel} (hs : Sound s) (ha : Accounted s)
    (hl : s.Spares l) (h : backend.step s l s') : Accounted s' := by
  intro k
  have hold := ha k
  cases backend_step_case h with
  | @enter oCmd _ key _ _ _ =>
    have happend : ownCount (s.enter key oCmd).queues k = ownCount s.queues k + _ :=
      tally_append (cmdMsg REQUEST.toInt oCmd)
    have hprocs : (s.enter key oCmd).procs = s.procs := rfl
    rw [hprocs]
    omega
  | absent => exact hold
  | @fire _ _ _ front c back c' hget hprocs hprocs' _ hon =>
    have hc : c ∈ s.procs := hprocs ▸ by simp
    obtain ⟨hfinish, hspares⟩ := hl c hget
    have hstep := fire_own hs hc hfinish hspares (fire_case (hs.valid c hc) (hs.text c.svc) hon) k
    have hbusy := busy_replace front back c c' k
    rw [← hprocs, ← hprocs'] at hbusy
    omega
  | @drain queue =>
    have hback : ∀ x, ownFor k NET_IO_BACK_MSQ_KEY x = false := by
      intro x
      rw [Bool.eq_false_iff]
      intro hown
      obtain ⟨⟨hkey, _⟩ | ⟨hkey, _⟩, _⟩ := ownFor_iff.mp hown
      · exact absurd hkey (by decide)
      · exact absurd hkey (by decide)
    have hsame : ownCount (s.drain queue).queues k = ownCount s.queues k := tally_ignore hback queue
    rw [hsame]
    exact hold

theorem accounted_reach {s : Backend} (h : backend.Reach Backend.Spares s) : Accounted s := by
  refine (h.invariant (I := fun s => Sound s ∧ Accounted s) ?_ ?_).2
  · intro s hs
    refine ⟨sound_start hs, fun k => ?_⟩
    rw [busy_eq_zero fun c hc => start_idle hs c hc k]
    exact Nat.zero_le _
  · rintro s l s' ⟨hsound, ha⟩ hl hstep
    exact ⟨sound_step hsound hstep, accounted_step hsound ha hl hstep⟩

/-- As long as no send fails that a handler depends on, and none is kept
without having sent, every handler that is held has a message of its own. -/
theorem held_handler_awaited {s : Backend} (h : backend.Reach Backend.Spares s) {c : Container}
    (hc : c ∈ s.procs) {k : Int32} {svc : IService}
    (hheld : c.dispatcher.m_mapStatefulSvcQueue.find? k = some svc) : ∃ x, OwnMessage s k x := by
  have hholds : c.holds k = 1 := by simp [Container.holds, hheld]
  have hbusy := holds_le_busy hc k
  have haccounted := accounted_reach h k
  exact ownCount_pos (by omega)

/-- The request a client at 10.0.0.1 makes of svc_test2. -/
def sampleSecond : BackendLabel :=
  .enter { iType := REQUEST, iCmd := 2, sClientIp := inetNtoa ⟨10, 0, 0, 1⟩ } ⟨10, 0, 0, 1⟩

/-- The same client's request of svc_test. -/
def sampleFirst : BackendLabel :=
  .enter { iType := REQUEST, iCmd := 1, sClientIp := inetNtoa ⟨10, 0, 0, 1⟩ } ⟨10, 0, 0, 1⟩

/-- The reply to a client is lost while handler 900 waits. -/
theorem held_handler_awaited_lost_reply :
    ∃ s : Backend, (∃ c ∈ s.procs, ∃ svc, c.dispatcher.m_mapStatefulSvcQueue.find? 900 = some svc) ∧
      ∃ x, OwnMessage s 900 x := by
  obtain ⟨s, hs, hp⟩ := sampleBackend_reach Backend.Spares
    [sampleSecond, .fire 1 true, sampleFirst, .fire 0 true, .fire 0 false]
    (fun s => s.procs.any (fun c => (c.dispatcher.m_mapStatefulSvcQueue.find? 900).isSome))
    (by decide +kernel)
  obtain ⟨c, hc, hheld⟩ := List.any_eq_true.mp hp
  obtain ⟨svc, hsvc⟩ := Option.isSome_iff_exists.mp hheld
  exact ⟨s, ⟨c, hc, svc, hsvc⟩, held_handler_awaited hs hc hsvc⟩

/-- SendRequest of handler 900 fails, and nothing is left that could resume it. -/
theorem held_handler_stranded :
    ∃ s, backend.Reachable s ∧ (∃ c ∈ s.procs, ∃ obj3,
      c.dispatcher.m_mapStatefulSvcQueue.find? 900 = some ⟨.CSvcTest2, 2, 900⟩ ∧
        c.frames 900 = .suspended obj3) ∧ ¬∃ x, OwnMessage s 900 x := by
  obtain ⟨s, hs, hp⟩ := sampleBackend_reach (fun _ _ => True) [sampleSecond, .fire 1 false]
    (fun s => decide (s.queues 0xccccd = [] ∧ s.queues 0xcccce = []) && s.procs.any (fun c => decide
      (c.dispatcher.m_mapStatefulSvcQueue.find? 900 = some ⟨.CSvcTest2, 2, 900⟩)))
    (by decide +kernel)
  obtain ⟨hempty, hany⟩ := Bool.and_eq_true_iff.mp hp
  obtain ⟨hfirst, hsecond⟩ := of_decide_eq_true hempty
  obtain ⟨c, hc, hheld⟩ := List.any_eq_true.mp hany
  have hheld := of_decide_eq_true hheld
  refine ⟨s, hs, ⟨c, hc, ?_⟩, ?_⟩
  · have hv := (sound_reach hs).valid c hc
    obtain ⟨hreg, _⟩ := hv.partitioned.busy _ _ hheld
    have hframe := hv.busy _ _ hheld
    rw [← (handler_index hv.numbered hreg).1] at hframe
    obtain ⟨obj3, hframe⟩ := hframe
    exact ⟨obj3, hheld, hframe⟩
  · rintro ⟨x, ⟨hx, _⟩ | ⟨hx, _⟩, _⟩
    · rw [hfirst] at hx
      exact absurd hx List.not_mem_nil
    · rw [hsecond] at hx
      exact absurd hx List.not_mem_nil

end NetioMiddleware

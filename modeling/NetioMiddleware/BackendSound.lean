import NetioMiddleware.BackendRuns

namespace NetioMiddleware

/-- A message without a client's address comes from a handler: in svc_test's
queue it is the handler's request, in svc_test2's the reply to one. -/
def OwnKind : SvcClass → QMsg → Prop
  | .CSvcTest, x => IsAsk x.cmd.iSvcSerialNo x ∧ 0 < pidOf x.cmd.iSvcSerialNo
  | .CSvcTest2, x => IsReply x.cmd.iSvcSerialNo x ∧ x.cmd.iType = RESPONSE

/-- A message as it can stand in the queue of a service. -/
structure Queued (svc : SvcClass) (x : QMsg) : Prop where
  text : x.mtext ≠ []
  ip : PlainIp x.cmd.sClientIp
  own : x.cmd.sClientIp = [] → OwnKind svc x

/-- What holds behind netio in every run, whatever the clients send and
whichever sends fail. -/
structure Sound (s : Backend) : Prop where
  valid : ∀ c ∈ s.procs, c.Valid
  queued : ∀ svc : SvcClass, ∀ x ∈ s.queues svc.mqKey, Queued svc x
  plain : ∀ c ∈ s.procs, ∀ k obj3, c.frames k = .suspended obj3 → PlainIp obj3.sClientIp

theorem mqKey_ne_back (svc : SvcClass) : svc.mqKey ≠ NET_IO_BACK_MSQ_KEY := by
  cases svc <;> decide

theorem route_ne_back {iCmd key : Int32} (h : routeCmd iCmd = some key) : key ≠ NET_IO_BACK_MSQ_KEY := by
  rcases routeCmd_eq_some h with ⟨_, rfl⟩ | ⟨_, rfl⟩
  · decide
  · decide

theorem inetNtoa_ne_nil (a : InAddr) : inetNtoa a ≠ [] := by
  intro h
  have hlen := congrArg List.length h
  simp only [inetNtoa, List.length_append, List.length_cons, List.length_nil] at hlen
  omega

theorem RepliesTo.serial_ne_zero {oCmd : CCmd} {m : QMsg} {svc : SvcClass}
    (h : RepliesTo oCmd svc.mqKey m) : oCmd.iSvcSerialNo ≠ 0 := by
  intro h0
  exact mqKey_ne_back svc (h.back h0).1

/-- The reply to a request in a service queue. -/
theorem reply_queued {svc svc' : SvcClass} {x m : QMsg} (hx : Queued svc x)
    (htype : x.cmd.iType ≠ RESPONSE) (hr : RepliesTo x.cmd svc'.mqKey m) : Queued svc' m := by
  have hserial := hr.serial_ne_zero
  refine ⟨hr.text, hr.plain hx.ip, fun hnil => ?_⟩
  have hip : x.cmd.sClientIp = [] := (congrArg Sender.sClientIp hr.sender).symm.trans hnil
  have hown := hx.own hip
  cases svc with
  | CSvcTest2 => exact absurd hown.2 htype
  | CSvcTest =>
    have hroute : routeCmd x.cmd.iCmd = some svc'.mqKey := (hr.app hserial).1
    rw [hown.1.iCmd] at hroute
    cases svc' with
    | CSvcTest => exact absurd hroute (by decide)
    | CSvcTest2 => exact ⟨hr.isReply hserial, hr.iType⟩

section

variable {s : Backend} (hs : Sound s) {c c' : Container} (hc : c ∈ s.procs)
  {queues' : Int32 → List QMsg} {sent : Bool}

include hs

theorem Sound.text (svc : SvcClass) : ∀ x ∈ s.queues svc.mqKey, x.mtext ≠ [] :=
  fun x hx => (hs.queued svc x hx).text

theorem sound_taken {x : QMsg} (htakes : c.takes s.queues = some x) : Queued c.svc x :=
  hs.queued c.svc x (takes_mem htakes).1

include hc

/-- SendRequest offers the request of a handler, and ProcessMsg a reply. -/
theorem fire_queued (h : FireCase s.queues c sent c' queues') (svc : SvcClass) :
    ∀ x ∈ queues' svc.mqKey, Queued svc x := by
  intro y hy
  have hv := hs.valid c hc
  have kept : ∀ {key : Int32} {x : QMsg} {rest : List QMsg}, (s.queues key).Perm (x :: rest) →
      y ∈ Function.update s.queues key rest svc.mqKey → Queued svc y :=
    fun hperm hy => hs.queued svc y (mem_take hperm hy)
  cases h with
  | idle _ _ hq => exact hs.queued svc y (hq ▸ hy)
  | replied htakes hperm htype _ hr _ _ hq =>
    have hx := sound_taken hs htakes
    rcases mem_offer (hq ▸ hy) with hy | ⟨rfl, rfl, _⟩
    · exact kept hperm hy
    · exact reply_queued hx htype (hr hx.ip)
  | kept _ hperm _ _ _ _ _ _ hq => exact kept hperm (hq ▸ hy)
  | @held _ _ svc' _ hperm _ hclass hfree _ _ hq =>
    obtain ⟨_, _, _, _, hreg, _⟩ := freeHandler_eq_some hv hfree
    rcases mem_offer (hq ▸ hy) with hy | ⟨hkey, rfl, _⟩
    · exact kept hperm hy
    · obtain ⟨hfirst, hask⟩ := askMsg_first hc hv hclass hreg
      have hpid : pidOf svc'.m_iIndex = c.pid := handler_pid hv.numbered hreg
      have hpos := hv.numbered.pos
      refine ⟨hfirst.text, hfirst.ip, fun _ => ?_⟩
      cases svc with
      | CSvcTest =>
        refine ⟨⟨hask.mtype, hask.iCmd, rfl⟩, ?_⟩
        rw [hask.serial, hpid]
        omega
      | CSvcTest2 => exact absurd hkey (by decide)
  | resumed _ hperm _ _ _ hframe hr _ _ hq =>
    have hback := ((hr (hs.plain c hc _ _ hframe)).back rfl).1
    rcases mem_offer (hq ▸ hy) with hy | ⟨hkey, _⟩
    · exact kept hperm hy
    · exact absurd (hkey.trans hback) (mqKey_ne_back svc)

end

theorem enter_queued {oCmd : CCmd} {addr : InAddr} (svc : SvcClass)
    (hip : oCmd.sClientIp = inetNtoa addr) : Queued svc (cmdMsg REQUEST.toInt oCmd) := by
  have hplain : PlainIp oCmd.sClientIp := hip ▸ inetNtoa_plain addr
  have hsame : (cmdMsg REQUEST.toInt oCmd).cmd.sClientIp = oCmd.sClientIp :=
    congrArg Header.sClientIp (cmdMsg_header REQUEST.toInt hplain)
  refine ⟨encode_ne_nil oCmd, ?_, ?_⟩
  · rwa [hsame]
  · intro hnil
    rw [hsame, hip] at hnil
    exact absurd hnil (inetNtoa_ne_nil addr)

theorem sound_step {s s' : Backend} {l : BackendLabel} (hs : Sound s) (h : backend.step s l s') :
    Sound s' := by
  cases backend_step_case h with
  | enter _ hip _ =>
    refine ⟨hs.valid, ?_, hs.plain⟩
    intro svc x hx
    rcases mem_enter hx with hx | ⟨_, rfl⟩
    · exact hs.queued svc x hx
    · exact enter_queued svc hip
  | absent => exact hs
  | @fire _ _ _ front c back _ hget hprocs hprocs' _ hon =>
    have hc : c ∈ s.procs := hprocs ▸ by simp
    have hv := hs.valid c hc
    have hcase := fire_case hv (hs.text c.svc) hon
    refine ⟨?_, fire_queued hs hc hcase, ?_⟩
    · rw [hprocs']
      exact forall_replace (hprocs ▸ hs.valid) (fire_static hv (hs.text c.svc) hon).2
    · rw [hprocs']
      refine forall_replace (hprocs ▸ hs.plain) ?_
      intro k obj3 hk
      rcases fire_frames hcase hk with hold | ⟨x, htakes, rfl⟩
      · exact hs.plain c hc k obj3 hold
      · exact (sound_taken hs htakes).ip
  | @drain queue =>
    refine ⟨hs.valid, ?_, hs.plain⟩
    intro svc x hx
    dsimp only [Backend.drain] at hx
    rw [Function.update_of_ne (mqKey_ne_back svc)] at hx
    exact hs.queued svc x hx

theorem sound_start {s : Backend} (h : BackendStart s) : Sound s := by
  have hi := backend_start_inv h
  refine ⟨hi.valid, ?_, hi.plain⟩
  intro svc x hx
  rw [h.queues] at hx
  exact absurd hx List.not_mem_nil

theorem sound_reach {ok : Backend → BackendLabel → Prop} {s : Backend} (h : backend.Reach ok s) :
    Sound s :=
  h.invariant (fun _ => sound_start) (fun _ _ _ hs _ hl => sound_step hs hl)

end NetioMiddleware

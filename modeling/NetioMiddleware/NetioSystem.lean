import NetioMiddleware.BackendRuns
import NetioMiddleware.Netio

namespace NetioMiddleware

/-- netio and the container processes, which share the queues of netio's kernel. -/
structure NetioSystem where
  netio : Reactor
  procs : List Container

inductive SystemLabel
  | netio (l : NetioLabel)
  | process (i : Nat) (sent : Bool)

namespace NetioSystem

/-- The processes and queues behind netio, with the requests entered so far. -/
def behind (s : NetioSystem) (entered : List CCmd) : Backend :=
  ⟨s.netio.kernel.queues, s.procs, entered⟩

/-- The processes are there, so that no other change of the queues is left. -/
def enabled (s : NetioSystem) : SystemLabel → Prop
  | .netio (.others _) => False
  | .netio l => l.enabled s.netio
  | .process _ _ => True

def isEnabled (s : NetioSystem) : SystemLabel → Bool
  | .netio (.others _) => false
  | .netio l => l.isEnabled s.netio
  | .process _ _ => true

/-- The condition of `Backend.Fits` on the steps of the processes. -/
def Fits (s : NetioSystem) : SystemLabel → Prop
  | .netio _ => True
  | .process i sent => (s.behind []).Fits (.fire i sent)

instance (s : NetioSystem) : (l : SystemLabel) → Decidable (s.Fits l)
  | .netio _ => isTrue trivial
  | .process i sent => inferInstanceAs (Decidable ((s.behind []).Fits (.fire i sent)))

end NetioSystem

def systemStep (s : NetioSystem) : SystemLabel → Except Halt NetioSystem
  | .netio l =>
    match netioStep s.netio l with
    | .error e => .error e
    | .ok netio => .ok { s with netio := netio }
  | .process i sent =>
    match fireAt s.procs s.netio.kernel.queues i sent with
    | .error e => .error e
    | .ok (procs, queues) =>
      .ok ⟨{ s.netio with kernel := s.netio.kernel.setQueues queues }, procs⟩

/-- netio when its loop starts, and the processes behind it. -/
structure SystemStart (s : NetioSystem) : Prop where
  netio : NetioStart s.netio
  behind : BackendStart (s.behind [])

def netioSystem : Machine NetioSystem SystemLabel where
  init := SystemStart
  step s l s' := s.enabled l ∧ systemStep s l = .ok s'

theorem msgsnd_queues (k : Kernel) (fd key : Int32) (stMsg : MsgBuf) (sent : Bool) :
    (k.msgsnd fd key stMsg sent).2.queues =
      Function.update k.queues key (putMsg (k.queues key) stMsg stMsg.text.length sent).2 := by
  unfold Kernel.msgsnd
  dsimp only
  split
  next => rfl
  next hfailed => rw [putMsg_failed hfailed, Function.update_eq_self]

/-- What DoRecv does to the queues. -/
theorem asked_queues (s : Reactor) (fd key : Int32) (buf : Bytes) (sent : Bool) :
    (s.asked fd key buf sent).kernel.queues =
      offer s.kernel.queues key (cmdMsg REQUEST.toInt (s.stampCmd fd buf)) sent := by
  generalize hcmd : s.stampCmd fd buf = oCmd
  simp only [Reactor.asked, Reactor.setFlag, Reactor.setItem, hcmd]
  rw [msgsnd_queues]
  exact put_queues ⟨fun _ => .start, s.kernel.queues, []⟩ key REQUEST.toInt oCmd sent

theorem doConn_queues {s s' : Reactor} (hw : Wired s) {fd : Int32} {l : List AcceptOutcome}
    (h : s.doConn fd l = .ok s') : s'.kernel.queues = s.kernel.queues := by
  have hdrop : ∀ r x, (Reactor.dropped r x).kernel.queues = r.kernel.queues := fun _ _ => rfl
  refine (doConn_preserves (P := fun r => Wired r ∧ r.kernel.queues = s.kernel.queues)
    (fun _ _ hr => hr.1.unregistered) ?_ ?_ ⟨hw, rfl⟩ h).2
  · exact fun r x hr _ => ⟨wired_dropped hr.1, (hdrop r x).trans hr.2⟩
  · exact fun r x addr hr _ _ => ⟨wired_accepted hr.1, (accepted_rest r x addr).2.2.trans hr.2⟩

/-- A step of netio takes messages from its own queue, or offers one client's request
to the queue of its command. -/
theorem netio_queues {s s' : Reactor} {l : NetioLabel} (hw : Wired s)
    (hl : ∀ queues, l ≠ .others queues) (h : StepCase s l s') :
    Drained s'.kernel.queues s.kernel.queues ∨
    ∃ fd buf key sent, s.kernel.epoll fd ≠ none ∧ (s.m_arrTcpSock fd).enEventFlag = .TCP_SERVER_READ ∧
      routeCmd (s.stampCmd fd buf).iCmd = some key ∧
      s'.kernel.queues = offer s.kernel.queues key (cmdMsg REQUEST.toInt (s.stampCmd fd buf)) sent := by
  have same : s'.kernel.queues = s.kernel.queues → Drained s'.kernel.queues s.kernel.queues := by
    intro hq
    rw [hq]
    exact ⟨fun _ _ => rfl, fun _ _ hx => hx⟩
  cases h with
  | accepts hconn => exact Or.inl (same (doConn_queues hw hconn))
  | idle => exact Or.inl (same rfl)
  | look => exact Or.inl (same rfl)
  | hangup => exact Or.inl (same rfl)
  | lost => exact Or.inl (same rfl)
  | @recv fd _ out buf key hreg _ hread _ _ hkey =>
    exact Or.inr ⟨fd, buf, key, out.sent, hreg, hread, hkey, asked_queues s fd key buf out.sent⟩
  | send => exact Or.inl (same rfl)
  | nothing _ hback => exact Or.inl hback
  | @respond rcvFailed origin q oCmd m r _ _ _ _ hback hadd =>
    obtain ⟨hk, _⟩ := addToWatchList_frame hadd
    have hq : s'.kernel.queues = q := by
      rw [hk]
      unfold Reactor.received
      cases rcvFailed <;> rfl
    exact Or.inl (hq ▸ hback)
  | others => exact absurd rfl (hl _)

theorem Drained.update {queues before : Int32 → List QMsg} (h : Drained queues before) :
    queues = Function.update before NET_IO_BACK_MSQ_KEY (queues NET_IO_BACK_MSQ_KEY) := by
  funext key
  by_cases hkey : key = NET_IO_BACK_MSQ_KEY
  · rw [hkey, Function.update_self]
  · rw [Function.update_of_ne hkey]
    exact h.others key hkey

theorem behind_eq {s s' : NetioSystem} {queues : Int32 → List QMsg} {entered : List CCmd}
    (hqueues : s'.netio.kernel.queues = queues) (hprocs : s'.procs = s.procs) :
    s'.behind entered = ⟨queues, s.procs, entered⟩ := by
  rw [NetioSystem.behind, hqueues, hprocs]

/-- A step of netio is at most one step of what is behind it. -/
theorem netio_simulates {s s' : NetioSystem} {l : NetioLabel} {entered : List CCmd}
    {ok : Backend → BackendLabel → Prop} (hok : ∀ b oCmd addr, ok b (.enter oCmd addr))
    (hdrain : ∀ b queue, ok b (.drain queue)) (hw : Wired s.netio)
    (hl : ∀ queues, l ≠ .others queues) (h : StepCase s.netio l s'.netio) (hprocs : s'.procs = s.procs)
    (hb : backend.Reach ok (s.behind entered)) :
    ∃ entered', backend.Reach ok (s'.behind entered') := by
  rcases netio_queues hw hl h with hback | ⟨fd, buf, key, sent, _, _, hkey, hq⟩
  · refine ⟨entered, ?_⟩
    rw [behind_eq hback.update hprocs]
    exact hb.step (l := .drain _) (hdrain _ _) ⟨trivial, rfl⟩
  · by_cases hsent : sent = true ∧ 0 < (cmdMsg REQUEST.toInt (s.netio.stampCmd fd buf)).mtype
    · refine ⟨entered ++ [s.netio.stampCmd fd buf], ?_⟩
      rw [offer, if_pos hsent] at hq
      rw [behind_eq hq hprocs]
      refine hb.step (hok _ (s.netio.stampCmd fd buf) (s.netio.m_arrTcpSock fd).stSockAddr_in.sin_addr)
        ⟨⟨rfl, rfl⟩, ?_⟩
      dsimp only [backendStep]
      rw [hkey]
      rfl
    · refine ⟨entered, ?_⟩
      rw [offer, if_neg hsent] at hq
      rw [behind_eq hq hprocs]
      exact hb

theorem system_netio_step {s s' : NetioSystem} {l : NetioLabel} (h : netioSystem.step s (.netio l) s') :
    netio.step s.netio l s'.netio ∧ s'.procs = s.procs ∧ ∀ queues, l ≠ .others queues := by
  obtain ⟨hen, hstep⟩ := h
  dsimp only [systemStep] at hstep
  split at hstep
  next => cases hstep
  next netio' hnetio =>
    cases Except.ok.inj hstep
    cases l with
    | others => exact hen.elim
    | event => exact ⟨⟨hen, hnetio⟩, rfl, by simp⟩
    | response => exact ⟨⟨hen, hnetio⟩, rfl, by simp⟩

theorem system_process_step {s s' : NetioSystem} {i : Nat} {sent : Bool}
    (h : netioSystem.step s (.process i sent) s') (entered : List CCmd) :
    backend.step (s.behind entered) (.fire i sent) (s'.behind entered) ∧
      s'.netio = { s.netio with kernel := s.netio.kernel.setQueues s'.netio.kernel.queues } := by
  obtain ⟨_, hstep⟩ := h
  dsimp only [systemStep] at hstep
  split at hstep
  next => cases hstep
  next procs queues hfire =>
    cases Except.ok.inj hstep
    refine ⟨⟨trivial, ?_⟩, rfl⟩
    dsimp only [backendStep, NetioSystem.behind]
    rw [hfire]
    rfl

/-- Nothing is queued and no handler is suspended at the start. -/
theorem SystemStart.idle {s : NetioSystem} (h : SystemStart s) :
    (∀ key, s.netio.kernel.queues key = []) ∧
      ∀ c ∈ s.procs, ∀ k obj3, c.frames k ≠ .suspended obj3 := by
  refine ⟨h.behind.queues, fun c hc k obj3 hk => ?_⟩
  rw [h.behind.started c hc] at hk
  cases hk

/-- netio is in a run of its own, to which the processes are a change of the queues. -/
theorem system_netio {ok : NetioSystem → SystemLabel → Prop} {s : NetioSystem}
    (h : netioSystem.Reach ok s) : netio.Reachable s.netio := by
  induction h with
  | init hs => exact .init hs.netio
  | @step s s' l _ _ hstep ih =>
    cases l with
    | netio l => exact ih.step trivial (system_netio_step hstep).1
    | process i sent =>
      rw [(system_process_step hstep []).2]
      exact ih.step (l := .others s'.netio.kernel.queues) trivial ⟨trivial, rfl⟩

/-- What is behind netio in a run of the whole system is in a run of its own. -/
theorem system_simulates {ok : NetioSystem → SystemLabel → Prop} {P : Backend → BackendLabel → Prop}
    (henter : ∀ b oCmd addr, P b (.enter oCmd addr)) (hdrain : ∀ b queue, P b (.drain queue))
    (hfire : ∀ s entered i sent, ok s (.process i sent) → P (s.behind entered) (.fire i sent))
    {s : NetioSystem} (h : netioSystem.Reach ok s) : ∃ entered, backend.Reach P (s.behind entered) := by
  have hsim := h.simulate (N := backend) (P := P)
    (R := fun s b => Wired s.netio ∧ ∃ entered, b = s.behind entered) ?_ ?_
  · obtain ⟨b, hb, _, entered, rfl⟩ := hsim
    exact ⟨entered, hb⟩
  · intro s hs
    exact ⟨s.behind [], hs.behind, wired_start hs.netio, [], rfl⟩
  · rintro s l s' b ⟨hw, entered, rfl⟩ hb hok hstep
    cases l with
    | netio l =>
      obtain ⟨hnet, hprocs, hl⟩ := system_netio_step hstep
      obtain ⟨entered', hb'⟩ := netio_simulates henter hdrain hw hl (netio_step_case hw hnet) hprocs hb
      exact ⟨_, hb', wired_step hw hnet, entered', rfl⟩
    | process i sent =>
      obtain ⟨hback, hnetio⟩ := system_process_step hstep entered
      have hw' : Wired s'.netio := hnetio ▸ hw.of_same rfl rfl rfl (fun _ => rfl) rfl
      exact ⟨_, hb.step (hfire s entered i sent hok) hback, hw', entered, rfl⟩

theorem system_behind {s : NetioSystem} (h : netioSystem.Reach NetioSystem.Fits s) :
    ∃ entered, backend.Reach Backend.Fits (s.behind entered) :=
  system_simulates (fun _ _ _ => trivial) (fun _ _ => trivial) (fun _ _ _ _ h => h) h

theorem runEventLoop_queues {s s' : Reactor} (h : s.runEventLoop = .ok s') :
    s'.kernel.queues = s.kernel.queues := by
  have watched : ∀ {r r' : Reactor} {fd op i}, r.addToWatchList fd op .own false = .ok (i, r') →
      r'.kernel.queues = r.kernel.queues := by
    intro r r' fd op i hadd
    rw [(addToWatchList_frame hadd).1]
  obtain ⟨s1, h1, h2⟩ := runEventLoop_cases h
  have hq1 : s1.kernel.queues = s.kernel.queues := by
    rcases h1 with ⟨_, rfl⟩ | ⟨_, h1⟩
    · rfl
    · exact watched h1
  rcases h2 with ⟨_, rfl⟩ | ⟨_, h2⟩
  · exact hq1
  · exact (watched h2).trans hq1

/-- The sample netio in front of the sample processes. -/
def sampleSystem (ok : NetioSystem → SystemLabel → Prop) [∀ s l, Decidable (ok s l)]
    (ls : List SystemLabel) : Option NetioSystem :=
  match sampleInit.runEventLoop with
  | .error _ => none
  | .ok netio =>
    Machine.follow systemStep (fun s l => s.isEnabled l && decide (ok s l))
      ⟨netio, sampleBackend.procs⟩ ls

theorem sampleSystem_start {netio : Reactor} (h : sampleInit.runEventLoop = .ok netio) :
    SystemStart ⟨netio, sampleBackend.procs⟩ := by
  have hq : netio.kernel.queues = fun _ => [] := runEventLoop_queues h
  have hbehind : BackendStart (NetioSystem.behind ⟨netio, sampleBackend.procs⟩ []) := by
    rw [behind_eq hq rfl]
    exact sampleBackend_start
  exact ⟨sampleInit_start h, hbehind⟩

theorem isEnabled_netio {s : NetioSystem} {l : NetioLabel} (h : s.isEnabled (.netio l) = true) :
    s.enabled (.netio l) := by
  cases l with
  | others => contradiction
  | event fd events out => exact isEnabled_enabled (l := .event fd events out) h
  | response rcvFailed origin => exact isEnabled_enabled (l := .response rcvFailed origin) h

theorem sampleSystem_reach (ok : NetioSystem → SystemLabel → Prop) [∀ s l, Decidable (ok s l)]
    (ls : List SystemLabel) (p : NetioSystem → Bool) (h : (sampleSystem ok ls).any p = true) :
    ∃ s, netioSystem.Reach ok s ∧ p s = true := by
  obtain ⟨s, hs, hp⟩ := (Option.any_eq_true _ _).mp h
  refine ⟨s, ?_, hp⟩
  unfold sampleSystem at hs
  split at hs
  next => contradiction
  next netio hstart =>
    have hinit : netioSystem.Reach ok ⟨netio, sampleBackend.procs⟩ := .init (sampleSystem_start hstart)
    refine hinit.follow ?_ hs
    intro s l s' hallowed hstep
    obtain ⟨hen, hok⟩ := Bool.and_eq_true_iff.mp hallowed
    refine ⟨of_decide_eq_true hok, ?_, hstep⟩
    cases l with
    | process => trivial
    | netio l => exact isEnabled_netio hen

end NetioMiddleware
